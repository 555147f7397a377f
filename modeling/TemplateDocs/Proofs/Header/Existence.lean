import TemplateDocs.Proofs.Header.Printing

/-!
# Defaults that test for existence

A default may be an operand with the sign `??` behind it, which asks whether the operand has
a value.  A name behind such a sign could only start the next parameter, but every sign is
taken for one between two operands.  So the name is passed over as if it were the second
operand, with all that belongs to it (`Header.parse_of_tests`), and of the declared names
those are read that do not stand right behind such a default.
-/

namespace TemplateDocs

namespace HeaderToken

/-- The sign that asks whether the operand before it has a value. -/
def existenceSign : HeaderToken :=
  operator ['?', '?']

def isPlainName : HeaderToken → Bool
  | ident name => !Header.isWordOperator name
  | _ => false

theorem eq_ident_of_isIdent {token : HeaderToken} (h : token.isIdent = true) :
    token = ident token.lexeme := by
  cases token with
  | ident name => rfl
  | _ => cases h

theorem isIdent_of_isPlainName {token : HeaderToken} (h : token.isPlainName = true) :
    token.isIdent = true := by
  cases token with
  | ident name => rfl
  | _ => cases h

end HeaderToken

namespace Header

/-- A parameter without a default, or one whose default asks whether an operand has a value. -/
inductive Parameter where
  | plain (name : Printable HeaderToken.isPlainName)
  | tested (name : Printable HeaderToken.isIdent) (operand : Atom)

namespace Parameter

def token : Parameter → HeaderToken
  | plain name => name.token
  | tested name _ => name.token

def name (parameter : Parameter) : Text :=
  parameter.token.lexeme

def isTested : Parameter → Bool
  | plain _ => false
  | tested _ _ => true

def mark : Parameter → List HeaderToken
  | plain _ => []
  | tested _ operand => .equals :: (operand.tokens ++ [.existenceSign])

def tokens (parameter : Parameter) : List HeaderToken :=
  parameter.token :: parameter.mark

theorem token_eq (parameter : Parameter) : parameter.token = .ident parameter.name := by
  cases parameter with
  | plain name =>
      exact HeaderToken.eq_ident_of_isIdent (HeaderToken.isIdent_of_isPlainName name.kind)
  | tested name operand => exact HeaderToken.eq_ident_of_isIdent name.kind

theorem isWordOperator_of_plain (name : Printable HeaderToken.isPlainName) :
    isWordOperator (plain name).name = false := by
  have hkind := name.kind
  have htoken : name.token = .ident (plain name).name := (plain name).token_eq
  rw [htoken] at hkind
  simpa [HeaderToken.isPlainName] using hkind

end Parameter

/-! ## Names that are passed over -/

/--
Is a name passed over, when the listed parameters stand before it, the nearest first?  It is
behind a test, and a comparison word is behind a name that is itself passed over.
-/
def isLost : List Parameter → Text → Bool
  | [], _ => false
  | last :: before, name => last.isTested || (isWordOperator name && isLost before last.name)

def keptNames (before : List Parameter) : List Parameter → List Text
  | [] => []
  | parameter :: rest =>
      if isLost before parameter.name then
        keptNames (parameter :: before) rest
      else
        parameter.name :: keptNames (parameter :: before) rest

def readingBehind : List Parameter → Reading
  | [] => .parameters
  | last :: before =>
      if last.isTested then
        .skipping 0 false
      else if isLost before last.name then
        .skipping 0 true
      else
        .parameters

/-- A name is a part of the default before it exactly if it is lost. -/
theorem step?_readingBehind (before : List Parameter) (name : Text) :
    (readingBehind before).step? (.ident name) =
      if isLost before name then some (.skipping 0 (!isWordOperator name)) else none := by
  cases before with
  | nil => rfl
  | cons last before =>
      rw [readingBehind, isLost]
      cases htested : last.isTested with
      | true => simp [Reading.step?, endsDefault, depthAfter, endsOperand]
      | false =>
          cases hlost : isLost before last.name with
          | false => simp [Reading.step?]
          | true =>
              cases hword : isWordOperator name with
              | true => simp [Reading.step?, endsDefault, depthAfter, endsOperand, hword]
              | false => simp [Reading.step?, endsDefault, hword]

theorem skips_test (operand : Atom) :
    Skips (.skipping 0 false) (operand.tokens ++ [.existenceSign]) (.skipping 0 false) :=
  operand.skips.append (.cons rfl (.nil _))

theorem skips_tested (operand : Atom) (ended : Bool) :
    Skips (.skipping 0 ended) (.equals :: (operand.tokens ++ [.existenceSign]))
      (.skipping 0 false) :=
  .cons rfl (skips_test operand)

/-- Neither an ellipsis nor an equals sign comes first, so a name before it stands alone. -/
def startsAnew (tokens : List HeaderToken) : Prop :=
  ∀ token ∈ tokens.head?, token ≠ .ellipsis ∧ token ≠ .equals

theorem startsAnew_nil : startsAnew [] := by
  simp [startsAnew]

theorem startsAnew_ident (name : Text) (rest : List HeaderToken) :
    startsAnew (.ident name :: rest) := by
  simp [startsAnew]

/-- A name that is lost takes what stands behind it along. -/
theorem readParameters_of_isLost {before : List Parameter} {parameter : Parameter}
    (h : isLost before parameter.name = true) (rest : List HeaderToken) :
    readParameters (readingBehind before) (parameter.tokens ++ rest) =
      readParameters (readingBehind (parameter :: before)) rest := by
  have hname : (readingBehind before).step? parameter.token =
      some (.skipping 0 (!isWordOperator parameter.name)) := by
    rw [parameter.token_eq, step?_readingBehind, if_pos h]
  have hskips : Skips (readingBehind before) parameter.tokens
      (readingBehind (parameter :: before)) := by
    apply Skips.cons hname
    cases parameter with
    | plain name =>
        rw [Parameter.isWordOperator_of_plain, readingBehind, h]
        exact .nil _
    | tested name operand => exact skips_tested operand _
  exact hskips rest

theorem readParameters_of_not_isLost {before : List Parameter} {parameter : Parameter}
    (h : isLost before parameter.name = false) {rest : List HeaderToken}
    (hrest : startsAnew rest) :
    readParameters (readingBehind before) (parameter.tokens ++ rest) =
      addArgument parameter.name
        (readParameters (readingBehind (parameter :: before)) rest) := by
  have hname : (readingBehind before).step? (.ident parameter.name) = none := by
    rw [step?_readingBehind, h, if_neg Bool.false_ne_true]
  rw [Parameter.tokens, parameter.token_eq, List.cons_append, readParameters.eq_def]
  simp only [hname]
  cases parameter with
  | plain name =>
      have hreading : readingBehind (.plain name :: before) = .parameters := by
        simp [readingBehind, Parameter.isTested, h]
      rw [hreading]
      cases rest with
      | nil => rfl
      | cons token rest =>
          have htoken := hrest token rfl
          cases token <;> first | rfl | simp at htoken
  | tested name operand => exact congrArg (addArgument _) (skips_test operand rest)

theorem readParameters_parameters (before parameters : List Parameter)
    {rest : List HeaderToken} (hrest : startsAnew rest) :
    readParameters (readingBehind before) (parameters.flatMap Parameter.tokens ++ rest) =
      (keptNames before parameters).foldr addArgument
        (readParameters (readingBehind (parameters.reverse ++ before)) rest) := by
  induction parameters generalizing before with
  | nil => rfl
  | cons parameter parameters ih =>
      have hnext : startsAnew (parameters.flatMap Parameter.tokens ++ rest) := by
        cases parameters with
        | nil => exact hrest
        | cons next parameters =>
            rw [List.flatMap_cons, Parameter.tokens, next.token_eq]
            exact startsAnew_ident next.name _
      rw [List.flatMap_cons, List.append_assoc, List.reverse_cons, List.append_assoc,
        List.singleton_append, keptNames]
      cases hlost : isLost before parameter.name with
      | true => rw [readParameters_of_isLost hlost, ih, if_pos rfl]
      | false =>
          rw [readParameters_of_not_isLost hlost hnext, ih, if_neg Bool.false_ne_true,
            List.foldr_cons]

theorem readParameters_catchAll (before : List Parameter) (name : Text) :
    readParameters (readingBehind before) [.ident name, .ellipsis] =
      ⟨none, [], if isLost before name then none else some name⟩ := by
  have hstep := step?_readingBehind before name
  rw [readParameters.eq_def]
  cases hlost : isLost before name with
  | true =>
      rw [hlost, if_pos rfl] at hstep
      simp only [hstep]
      simp [readParameters, Reading.step?, endsDefault]
  | false =>
      rw [hlost, if_neg Bool.false_ne_true] at hstep
      simp only [hstep]
      rfl

/-! ## Declarations -/

/-- A name, parameters whose defaults are tests, and possibly a catch-all behind them. -/
structure TestedDeclaration where
  title : Printable HeaderToken.isTitle
  parameters : List Parameter
  catchAll : Option (Printable HeaderToken.isIdent)

namespace TestedDeclaration

def catchAllTokens (declaration : TestedDeclaration) : List HeaderToken :=
  declaration.catchAll.toList.flatMap fun name => [name.token, .ellipsis]

def tokens (declaration : TestedDeclaration) : List HeaderToken :=
  declaration.title.token ::
    (declaration.parameters.flatMap Parameter.tokens ++ declaration.catchAllTokens)

def header (declaration : TestedDeclaration) : Header where
  name := some declaration.title.token.named
  arguments := declaration.parameters.map Parameter.name
  catchAll := declaration.catchAll.map (·.token.lexeme)

/-- What is left of it without the names that are lost. -/
def readHeader (declaration : TestedDeclaration) : Header where
  name := some declaration.title.token.named
  arguments := keptNames [] declaration.parameters
  catchAll := declaration.catchAll.bind fun name =>
    if isLost declaration.parameters.reverse name.token.lexeme then
      none
    else
      some name.token.lexeme

def IsCrowded (declaration : TestedDeclaration) : Prop :=
  ∃ before parameter behind, declaration.parameters = before ++ parameter :: behind ∧
    parameter.isTested = true ∧ (behind ≠ [] ∨ declaration.catchAll.isSome = true)

end TestedDeclaration

theorem readParameters_catchAllTokens (declaration : TestedDeclaration)
    (before : List Parameter) :
    readParameters (readingBehind before) declaration.catchAllTokens =
      ⟨none, [], declaration.catchAll.bind fun name =>
        if isLost before name.token.lexeme then none else some name.token.lexeme⟩ := by
  rw [TestedDeclaration.catchAllTokens]
  cases declaration.catchAll with
  | none => cases readingBehind before <;> rfl
  | some name =>
      have hname := HeaderToken.eq_ident_of_isIdent name.kind
      rw [Option.toList_some, List.flatMap_singleton, Option.bind_some,
        ← readParameters_catchAll, ← hname]

theorem startsAnew_catchAllTokens (declaration : TestedDeclaration) :
    startsAnew declaration.catchAllTokens := by
  rw [TestedDeclaration.catchAllTokens]
  cases declaration.catchAll with
  | none => exact startsAnew_nil
  | some name =>
      rw [Option.toList_some, List.flatMap_singleton, HeaderToken.eq_ident_of_isIdent name.kind]
      exact startsAnew_ident name.token.lexeme _

theorem foldr_addArgument (names : List Text) (header : Header) :
    names.foldr addArgument header = { header with arguments := names ++ header.arguments } := by
  induction names with
  | nil => rfl
  | cons name names ih =>
      rw [List.foldr_cons, ih]
      rfl

theorem ofTokens_tested (declaration : TestedDeclaration) :
    ofTokens declaration.tokens = declaration.readHeader := by
  have hbody : readParameters .parameters
      (declaration.parameters.flatMap Parameter.tokens ++ declaration.catchAllTokens) =
        { declaration.readHeader with name := none } := by
    have hread := readParameters_parameters [] declaration.parameters
      (startsAnew_catchAllTokens declaration)
    rw [List.append_nil, readParameters_catchAllTokens, foldr_addArgument, List.append_nil] at hread
    exact hread
  have hkind := declaration.title.kind
  rw [TestedDeclaration.tokens, TestedDeclaration.readHeader]
  cases htitle : declaration.title.token with
  | ident name =>
      rw [ofTokens, hbody]
      rfl
  | quoted quote body =>
      rw [ofTokens, hbody]
      rfl
  | _ =>
      rw [htitle] at hkind
      cases hkind

/-! ## When nothing is lost -/

theorem length_keptNames_le (before parameters : List Parameter) :
    (keptNames before parameters).length ≤ parameters.length := by
  induction parameters generalizing before with
  | nil => exact Nat.le_refl 0
  | cons parameter parameters ih =>
      have hle := ih (parameter :: before)
      rw [keptNames]
      split
      · exact Nat.le_succ_of_le hle
      · exact Nat.succ_le_succ hle

theorem length_keptNames_append_le (before first second : List Parameter) :
    (keptNames before (first ++ second)).length ≤
      first.length + (keptNames (first.reverse ++ before) second).length := by
  induction first generalizing before with
  | nil => exact Nat.le_of_eq (Nat.zero_add _).symm
  | cons parameter first ih =>
      have hle := ih (parameter :: before)
      rw [List.reverse_cons, List.append_assoc, List.singleton_append, List.length_cons,
        List.cons_append, keptNames]
      split
      · omega
      · rw [List.length_cons]
        omega

/-- The name right behind a test is lost, so fewer names are read than declared. -/
theorem length_keptNames_lt {before behind : List Parameter} {parameter next : Parameter}
    (h : parameter.isTested = true) :
    (keptNames [] (before ++ parameter :: next :: behind)).length <
      (before ++ parameter :: next :: behind).length := by
  have happend := length_keptNames_append_le [] (before ++ [parameter]) (next :: behind)
  have hlost : isLost ((before ++ [parameter]).reverse ++ []) next.name = true := by
    simp [isLost, h]
  rw [keptNames, if_pos hlost, List.append_assoc, List.singleton_append] at happend
  have hle := length_keptNames_le (next :: ((before ++ [parameter]).reverse ++ [])) behind
  simp only [List.length_append, List.length_cons, List.length_nil] at happend hle ⊢
  omega

theorem isLost_eq_false {before : List Parameter}
    (h : ∀ parameter ∈ before, parameter.isTested = false) (name : Text) :
    isLost before name = false := by
  induction before generalizing name with
  | nil => rfl
  | cons last before ih =>
      have hlast := h last List.mem_cons_self
      have hbefore := ih (fun parameter hmem => h parameter (List.mem_cons_of_mem last hmem))
        last.name
      rw [isLost, hlast, hbefore, Bool.and_false, Bool.or_false]

theorem keptNames_eq_map {before parameters : List Parameter}
    (hbefore : ∀ parameter ∈ before, parameter.isTested = false)
    (h : ∀ parameter ∈ parameters.dropLast, parameter.isTested = false) :
    keptNames before parameters = parameters.map Parameter.name := by
  induction parameters generalizing before with
  | nil => rfl
  | cons parameter parameters ih =>
      rw [keptNames, isLost_eq_false hbefore, if_neg Bool.false_ne_true, List.map_cons]
      cases parameters with
      | nil => rfl
      | cons next parameters =>
          rw [List.dropLast_cons_cons] at h
          refine congrArg (parameter.name :: ·) (ih (fun other hother => ?_) fun other hother => ?_)
          · cases List.mem_cons.mp hother with
            | inl hsame => exact hsame ▸ h parameter List.mem_cons_self
            | inr hmem => exact hbefore other hmem
          · exact h other (List.mem_cons_of_mem parameter hother)

namespace TestedDeclaration

theorem readHeader_ne_header {declaration : TestedDeclaration} (h : declaration.IsCrowded) :
    declaration.readHeader ≠ declaration.header := by
  rcases h with ⟨before, parameter, behind, hparameters, htested, hbehind⟩
  intro heq
  cases behind with
  | cons next behind =>
      have hlength := congrArg (fun header => header.arguments.length) heq
      have hlt := @length_keptNames_lt before behind parameter next htested
      simp only [readHeader, header, List.length_map, hparameters] at hlength
      omega
  | nil =>
      have hcatchAll := congrArg Header.catchAll heq
      rcases Option.isSome_iff_exists.mp (hbehind.resolve_left (· rfl)) with ⟨name, hname⟩
      simp [readHeader, header, hname, hparameters, isLost, htested] at hcatchAll

theorem readHeader_eq_header {declaration : TestedDeclaration} (h : ¬ declaration.IsCrowded) :
    declaration.readHeader = declaration.header := by
  have hfirst : ∀ parameter ∈ declaration.parameters.dropLast, parameter.isTested = false := by
    intro parameter hmem
    rcases List.append_of_mem hmem with ⟨before, behind, hsplit⟩
    have hne : declaration.parameters ≠ [] := by
      intro hnil
      rw [hnil] at hmem
      cases hmem
    have hlast := List.dropLast_concat_getLast hne
    rw [hsplit, List.append_assoc, List.cons_append] at hlast
    rw [← Bool.not_eq_true]
    intro htested
    exact h ⟨before, parameter, _, hlast.symm, htested, .inl (by simp)⟩
  have hnames := @keptNames_eq_map [] _ (fun _ hmem => absurd hmem List.not_mem_nil) hfirst
  have hcatchAll : declaration.readHeader.catchAll = declaration.header.catchAll := by
    rw [readHeader, header]
    cases hname : declaration.catchAll with
    | none => rfl
    | some name =>
        have hall : ∀ parameter ∈ declaration.parameters.reverse, parameter.isTested = false := by
          intro parameter hmem
          rcases List.append_of_mem (List.mem_reverse.mp hmem) with ⟨before, behind, hsplit⟩
          rw [← Bool.not_eq_true]
          intro htested
          exact h ⟨before, parameter, behind, hsplit, htested, .inr (by rw [hname]; rfl)⟩
        simp [isLost_eq_false hall]
  rw [readHeader, hnames]
  exact congrArg (Header.mk _ _) hcatchAll

end TestedDeclaration

/--
Of a declaration whose defaults are tests those names are read that are not lost, however it
is spaced.  All of them are read exactly if nothing stands behind such a default.
-/
theorem parse_of_tests (declaration : TestedDeclaration) (text : Text)
    (htext : ((HeaderToken.tokens text).filter fun token => !token.isGap) = declaration.tokens) :
    parse text = declaration.readHeader ∧
      (parse text = declaration.header ↔ ¬ declaration.IsCrowded) := by
  have hparse : parse text = declaration.readHeader := by
    rw [parse, htext, ofTokens_tested]
  refine ⟨hparse, ?_⟩
  rw [hparse]
  constructor
  · intro heq hcrowded
    exact TestedDeclaration.readHeader_ne_header hcrowded heq
  · exact TestedDeclaration.readHeader_eq_header

/-- The declaration of `m a=u?? b c='q'?? lt={k: 1}?? d e=3?? more...`. -/
def crowdedDeclaration : TestedDeclaration where
  title := ⟨.ident ['m'], rfl, rfl⟩
  parameters := [
    .tested ⟨.ident ['a'], rfl, rfl⟩ (.single ⟨.ident ['u'], rfl, rfl⟩),
    .plain ⟨.ident ['b'], rfl, rfl⟩,
    .tested ⟨.ident ['c'], rfl, rfl⟩ (.single ⟨.quoted '\'' ['q'], rfl, rfl⟩),
    .tested ⟨.ident "lt".toList, rfl, rfl⟩ (.group {
      opening := ⟨.openGroup '\x7b', rfl, rfl⟩
      inside :=
        .token ⟨.ident ['k'], rfl, rfl⟩ <| .token ⟨.operator [':'], rfl, rfl⟩ <|
        .token ⟨.number ['1'], rfl, rfl⟩ .done
      closing := ⟨.closeGroup '\x7d', rfl, rfl⟩ }),
    .plain ⟨.ident ['d'], rfl, rfl⟩,
    .tested ⟨.ident ['e'], rfl, rfl⟩ (.single ⟨.number ['3'], rfl, rfl⟩)]
  catchAll := some ⟨.ident "more".toList, rfl, rfl⟩

theorem parse_of_tests_crowded :
    let text := " m a=u?? b\tc='q'??\nlt=\x7bk: 1\x7d?? d e = 3 ?? more...".toList
    ((HeaderToken.tokens text).filter fun token => !token.isGap) = crowdedDeclaration.tokens ∧
      parse text = ⟨some ['m'], [['a'], ['c'], ['e']], none⟩ ∧
      parse text ≠ crowdedDeclaration.header := by
  intro text
  have htext : ((HeaderToken.tokens text).filter fun token => !token.isGap) =
      crowdedDeclaration.tokens := by decide +kernel
  have h := parse_of_tests crowdedDeclaration text htext
  refine ⟨htext, h.1, fun heq => h.2.mp heq ?_⟩
  exact ⟨[], _, _, rfl, rfl, .inr rfl⟩

/-- The parameter behind a test is not listed, though it is declared. -/
theorem parse_name_behind_test :
    parse " m a=x?? b".toList = ⟨some ['m'], [['a']], none⟩ ∧
      parse " m a=x?? b".toList ≠ ⟨some ['m'], [['a'], ['b']], none⟩ := by
  decide +kernel

end Header

end TemplateDocs
