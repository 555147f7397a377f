import Mathlib.Data.List.Chain
import TemplateDocs.Proofs.Header.Spelling

/-!
# Printed declarations

A declaration is a name, parameters with or without defaults and possibly a catch-all.
It can be printed in two layouts, bare or as a list in parentheses, with any gaps between
its tokens.  Reading the printed text gives the names back (`Header.parse_printed`): a
default is passed over as a whole, since inside it no name follows an operand and what
follows it is not taken for a part of it.
-/

namespace TemplateDocs

namespace HeaderToken

def isIdent : HeaderToken → Bool
  | ident _ => true
  | _ => false

def isOperator : HeaderToken → Bool
  | operator _ => true
  | _ => false

def isOpening : HeaderToken → Bool
  | openGroup _ => true
  | _ => false

def isClosing : HeaderToken → Bool
  | closeGroup _ => true
  | _ => false

def isInner : HeaderToken → Bool
  | openGroup _ | closeGroup _ => false
  | _ => true

def isTitle : HeaderToken → Bool
  | ident _ | quoted .. => true
  | _ => false

/-- The tokens that are operands by themselves. -/
def isAtom : HeaderToken → Bool
  | ident name => !Header.isWordOperator name
  | number _ | quoted .. => true
  | _ => false

/-- The tokens between two operands. -/
def isLink : HeaderToken → Bool
  | ident name => Header.isWordOperator name
  | operator _ => true
  | _ => false

/-- The name that a token gives: a quoted text without its quotes. -/
def named : HeaderToken → Text
  | quoted _ body => body
  | token => token.lexeme

end HeaderToken

/-- A token of a printed header, of a certain kind. -/
structure Printable (p : HeaderToken → Bool) where
  token : HeaderToken
  spelled : token.isSpelled = true
  kind : p token = true

namespace Header

/--
What stands between two brackets: tokens and groups in any order.  Brackets that belong
together may be of different kinds, since kinds are not compared.
-/
inductive Nested where
  | done
  | token (first : Printable HeaderToken.isInner) (next : Nested)
  | group (opening : Printable HeaderToken.isOpening) (inside : Nested)
      (closing : Printable HeaderToken.isClosing) (next : Nested)

def Nested.tokens : Nested → List HeaderToken
  | done => []
  | token first next => first.token :: next.tokens
  | group opening inside closing next =>
      opening.token :: (inside.tokens ++ closing.token :: next.tokens)

structure Group where
  opening : Printable HeaderToken.isOpening
  inside : Nested
  closing : Printable HeaderToken.isClosing

def Group.tokens (group : Group) : List HeaderToken :=
  group.opening.token :: (group.inside.tokens ++ [group.closing.token])

inductive Atom where
  | single (operand : Printable HeaderToken.isAtom)
  | group (operand : Group)

def Atom.tokens : Atom → List HeaderToken
  | single operand => [operand.token]
  | group operand => operand.tokens

/-- An atom with operators in front of it and groups, such as arguments, behind it. -/
structure Operand where
  signs : List (Printable HeaderToken.isOperator)
  atom : Atom
  groups : List Group

def Operand.tokens (operand : Operand) : List HeaderToken :=
  operand.signs.map (·.token) ++ (operand.atom.tokens ++ operand.groups.flatMap Group.tokens)

/-- A default: operands with an operator or a comparison word between any two. -/
structure Default where
  first : Operand
  rest : List (Printable HeaderToken.isLink × Operand)

def Default.tokens (default : Default) : List HeaderToken :=
  default.first.tokens ++ default.rest.flatMap fun link => link.1.token :: link.2.tokens

/-- What a list of parameters consists of. -/
inductive Entry where
  | parameter (name : Printable HeaderToken.isIdent) (default? : Option Default)
  | catchAll (name : Printable HeaderToken.isIdent)

namespace Entry

def name : Entry → HeaderToken
  | parameter name _ | catchAll name => name.token

def hasDefault : Entry → Bool
  | parameter _ default? => default?.isSome
  | catchAll _ => false

def mark : Entry → List HeaderToken
  | parameter _ none => []
  | parameter _ (some default) => .equals :: default.tokens
  | catchAll _ => [.ellipsis]

def tokens (entry : Entry) : List HeaderToken :=
  entry.name :: entry.mark

end Entry

structure Declaration where
  title : Printable HeaderToken.isTitle
  parameters : List (Printable HeaderToken.isIdent × Option Default)
  catchAll : Option (Printable HeaderToken.isIdent)

/-- Entries one behind the other, or in parentheses with commas between them. -/
inductive Layout where
  | bare
  | listed

namespace Declaration

def entries (declaration : Declaration) : List Entry :=
  declaration.parameters.map (fun parameter => .parameter parameter.1 parameter.2) ++
    declaration.catchAll.toList.map .catchAll

def body (declaration : Declaration) : Layout → List HeaderToken
  | .bare => declaration.entries.flatMap Entry.tokens
  | .listed =>
      .openGroup '(' ::
        ([.comma].intercalate (declaration.entries.map Entry.tokens) ++ [.closeGroup ')'])

def tokens (declaration : Declaration) (layout : Layout) : List HeaderToken :=
  declaration.title.token :: declaration.body layout

/-- No entry right behind a default is named like a comparison word, unless a comma parts them. -/
def Fits (declaration : Declaration) : Layout → Prop
  | .bare => declaration.entries.IsChain fun entry next =>
      entry.hasDefault = true → isWordOperator next.name.lexeme = false
  | .listed => True

def header (declaration : Declaration) : Header where
  name := some declaration.title.token.named
  arguments := declaration.parameters.map fun parameter => parameter.1.token.lexeme
  catchAll := declaration.catchAll.map fun name => name.token.lexeme

end Declaration

/-- The tokens can be printed and close the brackets that they open. -/
structure Balanced (tokens : List HeaderToken) : Prop where
  spelled : ∀ token ∈ tokens, token.isSpelled = true
  level : ∀ depth, tokens.foldl depthAfter depth = depth

namespace Balanced

theorem nil : Balanced [] :=
  ⟨fun _ h => absurd h List.not_mem_nil, fun _ => rfl⟩

theorem append {tokens others : List HeaderToken} (h : Balanced tokens)
    (hothers : Balanced others) : Balanced (tokens ++ others) := by
  refine ⟨fun token htoken => ?_, fun depth => ?_⟩
  · rcases List.mem_append.mp htoken with htoken | htoken
    · exact h.spelled token htoken
    · exact hothers.spelled token htoken
  · rw [List.foldl_append, h.level, hothers.level]

theorem cons {token : HeaderToken} (htoken : token.isSpelled = true)
    (hlevel : ∀ depth, depthAfter depth token = depth) {tokens : List HeaderToken}
    (h : Balanced tokens) : Balanced (token :: tokens) := by
  refine ⟨fun other hother => ?_, fun depth => ?_⟩
  · rcases List.mem_cons.mp hother with rfl | hother
    · exact htoken
    · exact h.spelled other hother
  · rw [List.foldl_cons, hlevel, h.level]

theorem flatMap {α : Type} {parts : List α} {tokens : α → List HeaderToken}
    (h : ∀ part ∈ parts, Balanced (tokens part)) : Balanced (parts.flatMap tokens) := by
  induction parts with
  | nil => exact nil
  | cons part parts ih =>
      rw [List.flatMap_cons]
      exact (h part List.mem_cons_self).append
        (ih fun other hother => h other (List.mem_cons_of_mem part hother))

theorem intercalate {parts : List (List HeaderToken)} (h : ∀ part ∈ parts, Balanced part) :
    Balanced ([HeaderToken.comma].intercalate parts) := by
  induction parts with
  | nil => exact .nil
  | cons part parts ih =>
      have hpart := h part List.mem_cons_self
      have hparts := ih fun other hother => h other (List.mem_cons_of_mem part hother)
      cases parts with
      | nil => simpa using hpart
      | cons next parts =>
          rw [List.intercalate_cons_cons, List.append_assoc]
          exact hpart.append (.cons rfl (fun _ => rfl) hparts)

end Balanced

theorem depthAfter_of_kind {p : HeaderToken → Bool}
    (hopening : ∀ bracket, p (.openGroup bracket) = false)
    (hclosing : ∀ bracket, p (.closeGroup bracket) = false) (first : Printable p) (depth : Nat) :
    depthAfter depth first.token = depth := by
  have hkind := first.kind
  cases htoken : first.token with
  | openGroup bracket => simp [htoken, hopening] at hkind
  | closeGroup bracket => simp [htoken, hclosing] at hkind
  | _ => rfl

theorem depthAfter_of_isOpening {token : HeaderToken} (h : token.isOpening = true) (depth : Nat) :
    depthAfter depth token = depth + 1 := by
  cases token with
  | openGroup bracket => rfl
  | _ => cases h

theorem depthAfter_of_isClosing {token : HeaderToken} (h : token.isClosing = true) (depth : Nat) :
    depthAfter depth token = depth - 1 := by
  cases token with
  | closeGroup bracket => rfl
  | _ => cases h

theorem Balanced.group (opening : Printable HeaderToken.isOpening)
    (closing : Printable HeaderToken.isClosing) {inside next : List HeaderToken}
    (hinside : Balanced inside) (hnext : Balanced next) :
    Balanced (opening.token :: (inside ++ closing.token :: next)) := by
  refine ⟨fun token htoken => ?_, fun depth => ?_⟩
  · rw [List.mem_cons, List.mem_append, List.mem_cons] at htoken
    rcases htoken with rfl | htoken | rfl | htoken
    · exact opening.spelled
    · exact hinside.spelled token htoken
    · exact closing.spelled
    · exact hnext.spelled token htoken
  · rw [List.foldl_cons, List.foldl_append, List.foldl_cons, hinside.level, hnext.level,
      depthAfter_of_isOpening opening.kind, depthAfter_of_isClosing closing.kind]
    rfl

theorem Balanced.cons_of_kind {p : HeaderToken → Bool}
    (hopening : ∀ bracket, p (.openGroup bracket) = false)
    (hclosing : ∀ bracket, p (.closeGroup bracket) = false) (first : Printable p)
    {tokens : List HeaderToken} (h : Balanced tokens) : Balanced (first.token :: tokens) :=
  .cons first.spelled (depthAfter_of_kind hopening hclosing first) h

theorem Nested.balanced (nested : Nested) : Balanced nested.tokens := by
  induction nested with
  | done => exact .nil
  | token first next ih => exact .cons_of_kind (fun _ => rfl) (fun _ => rfl) first ih
  | group opening inside closing next ihInside ihNext =>
      exact .group opening closing ihInside ihNext

theorem Group.balanced (group : Group) : Balanced group.tokens :=
  .group group.opening group.closing group.inside.balanced .nil

theorem Operand.balanced (operand : Operand) : Balanced operand.tokens := by
  have hsigns : Balanced (operand.signs.map (·.token)) := by
    rw [List.map_eq_flatMap]
    exact .flatMap fun sign _ => .cons_of_kind (fun _ => rfl) (fun _ => rfl) sign .nil
  have hatom : Balanced operand.atom.tokens := by
    cases operand.atom with
    | single atom => exact .cons_of_kind (fun _ => rfl) (fun _ => rfl) atom .nil
    | group atom => exact atom.balanced
  exact hsigns.append (hatom.append (.flatMap fun group _ => group.balanced))

theorem Default.balanced (default : Default) : Balanced default.tokens :=
  default.first.balanced.append (.flatMap fun link _ =>
    .cons_of_kind (fun _ => rfl) (fun _ => rfl) link.1 link.2.balanced)

theorem Entry.balanced (entry : Entry) : Balanced entry.tokens := by
  rcases entry with ⟨name, _ | default⟩ | name
  · exact .cons_of_kind (fun _ => rfl) (fun _ => rfl) name .nil
  · exact .cons_of_kind (fun _ => rfl) (fun _ => rfl) name
      (.cons rfl (fun _ => rfl) default.balanced)
  · exact .cons_of_kind (fun _ => rfl) (fun _ => rfl) name (.cons rfl (fun _ => rfl) .nil)

/-- The tokens lead the reading of parameters from one state to another, whatever follows. -/
def Skips (reading : Reading) (tokens : List HeaderToken) (later : Reading) : Prop :=
  ∀ rest, readParameters reading (tokens ++ rest) = readParameters later rest

namespace Skips

theorem nil (reading : Reading) : Skips reading [] reading := fun _ => rfl

theorem append {reading middle later : Reading} {tokens others : List HeaderToken}
    (h : Skips reading tokens middle) (hothers : Skips middle others later) :
    Skips reading (tokens ++ others) later := by
  intro rest
  rw [List.append_assoc, h, hothers]

theorem cons {reading middle later : Reading} {token : HeaderToken} {tokens : List HeaderToken}
    (htoken : reading.step? token = some middle) (h : Skips middle tokens later) :
    Skips reading (token :: tokens) later := by
  intro rest
  rw [List.cons_append, readParameters.eq_def]
  simp only [htoken]
  exact h rest

theorem flatMap {α : Type} {reading : Reading} {parts : List α} {tokens : α → List HeaderToken}
    (h : ∀ part ∈ parts, Skips reading (tokens part) reading) :
    Skips reading (parts.flatMap tokens) reading := by
  induction parts with
  | nil => exact nil reading
  | cons part parts ih =>
      rw [List.flatMap_cons]
      exact (h part List.mem_cons_self).append
        (ih fun other hother => h other (List.mem_cons_of_mem part hother))

end Skips

theorem step?_of_open (depth : Nat) (operand : Bool) (token : HeaderToken) :
    (Reading.skipping (depth + 1) operand).step? token =
      some (.skipping (depthAfter (depth + 1) token) (endsOperand token)) := by
  simp [Reading.step?, endsDefault]

theorem step?_of_isOpening (depth : Nat) (operand : Bool) {token : HeaderToken}
    (h : token.isOpening = true) :
    (Reading.skipping depth operand).step? token = some (.skipping (depth + 1) false) := by
  cases token with
  | openGroup bracket => simp [Reading.step?, endsDefault, depthAfter, endsOperand]
  | _ => cases h

theorem endsOperand_of_isClosing {token : HeaderToken} (h : token.isClosing = true) :
    endsOperand token = true := by
  cases token with
  | closeGroup bracket => rfl
  | _ => cases h

theorem Nested.skips (nested : Nested) (depth : Nat) (operand : Bool) :
    ∃ later, Skips (.skipping (depth + 1) operand) nested.tokens (.skipping (depth + 1) later) := by
  induction nested generalizing depth operand with
  | done => exact ⟨operand, .nil _⟩
  | token first next ih =>
      rcases ih depth (endsOperand first.token) with ⟨later, hnext⟩
      have hstep := step?_of_open depth operand first.token
      rw [depthAfter_of_kind (fun _ => rfl) (fun _ => rfl) first] at hstep
      exact ⟨later, .cons hstep hnext⟩
  | group opening inside closing next ihInside ihNext =>
      rcases ihInside (depth + 1) false with ⟨middle, hinside⟩
      rcases ihNext depth true with ⟨later, hnext⟩
      have hclosing := step?_of_open (depth + 1) middle closing.token
      rw [depthAfter_of_isClosing closing.kind, endsOperand_of_isClosing closing.kind] at hclosing
      exact ⟨later, .cons (step?_of_isOpening (depth + 1) operand opening.kind)
        (hinside.append (.cons hclosing hnext))⟩

theorem Group.skips (group : Group) (operand : Bool) :
    Skips (.skipping 0 operand) group.tokens (.skipping 0 true) := by
  rcases group.inside.skips 0 false with ⟨middle, hinside⟩
  have hclosing := step?_of_open 0 middle group.closing.token
  rw [depthAfter_of_isClosing group.closing.kind, endsOperand_of_isClosing group.closing.kind]
    at hclosing
  exact .cons (step?_of_isOpening 0 operand group.opening.kind)
    (hinside.append (.cons hclosing (.nil _)))

theorem Atom.skips (atom : Atom) : Skips (.skipping 0 false) atom.tokens (.skipping 0 true) := by
  cases atom with
  | group operand => exact operand.skips false
  | single operand =>
      refine .cons ?_ (.nil _)
      have hkind := operand.kind
      cases htoken : operand.token with
      | ident name =>
          rw [htoken] at hkind
          simpa [Reading.step?, endsDefault, depthAfter, endsOperand, HeaderToken.isAtom]
            using hkind
      | quoted quote body => rfl
      | number digits => rfl
      | _ =>
          rw [htoken] at hkind
          cases hkind

theorem Operand.skips (operand : Operand) :
    Skips (.skipping 0 false) operand.tokens (.skipping 0 true) := by
  have hsign (sign : Printable HeaderToken.isOperator) :
      Skips (.skipping 0 false) [sign.token] (.skipping 0 false) := by
    refine .cons ?_ (.nil _)
    have hkind := sign.kind
    cases htoken : sign.token with
    | operator text => rfl
    | _ =>
        rw [htoken] at hkind
        cases hkind
  have hsigns : Skips (.skipping 0 false) (operand.signs.map (·.token)) (.skipping 0 false) := by
    rw [List.map_eq_flatMap]
    exact .flatMap fun sign _ => hsign sign
  exact hsigns.append (operand.atom.skips.append (.flatMap fun group _ => group.skips true))

/-- Behind an operand a comparison word does not end the default, though it is a name. -/
theorem step?_of_isLink {token : HeaderToken} (h : token.isLink = true) :
    (Reading.skipping 0 true).step? token = some (.skipping 0 false) := by
  cases token with
  | ident name =>
      have hword : isWordOperator name = true := h
      simp [Reading.step?, endsDefault, depthAfter, endsOperand, hword]
  | operator sign => rfl
  | _ => cases h

theorem Default.skips (default : Default) :
    Skips (.skipping 0 false) default.tokens (.skipping 0 true) :=
  default.first.skips.append
    (.flatMap fun link _ => .cons (step?_of_isLink link.1.kind) link.2.skips)

namespace Entry

def add : Entry → Header → Header
  | parameter name _ => addArgument name.token.lexeme
  | catchAll name => addCatchAll name.token.lexeme

def after (entry : Entry) : Reading :=
  if entry.hasDefault then .skipping 0 true else .parameters

theorem name_eq_ident (entry : Entry) : entry.name = .ident entry.name.lexeme := by
  have hident (name : Printable HeaderToken.isIdent) :
      name.token = .ident name.token.lexeme := by
    have hkind := name.kind
    cases htoken : name.token with
    | ident text => rfl
    | _ =>
        rw [htoken] at hkind
        cases hkind
  cases entry with
  | parameter name default? => exact hident name
  | catchAll name => exact hident name

theorem readParameters_tokens (entry : Entry) {reading : Reading}
    (hreading : reading.step? entry.name = none) {rest : List HeaderToken}
    (hrest : ∀ token ∈ rest.head?, token ≠ .ellipsis ∧ token ≠ .equals) :
    readParameters reading (entry.tokens ++ rest) =
      entry.add (readParameters entry.after rest) := by
  rw [tokens, List.cons_append, readParameters.eq_def]
  simp only [hreading]
  rw [entry.name_eq_ident]
  rcases entry with ⟨name, _ | default⟩ | name
  · cases rest with
    | nil => rfl
    | cons token rest =>
        have htoken := hrest token rfl
        cases token <;> first | rfl | simp at htoken
  · exact congrArg (addArgument name.token.lexeme) (default.skips rest)
  · rfl

end Entry

def ofEntries (entries : List Entry) : Header :=
  entries.foldr Entry.add ⟨none, [], none⟩

/-- Behind a default, a name that is no comparison word starts the next entry. -/
theorem step?_after {entry next : Entry}
    (h : entry.hasDefault = true → isWordOperator next.name.lexeme = false) :
    entry.after.step? next.name = none := by
  unfold Entry.after
  split
  · next hdefault =>
      rw [next.name_eq_ident]
      simp [Reading.step?, endsDefault, h hdefault]
  · rfl

theorem readParameters_flatMap_tokens {entries : List Entry}
    (h : entries.IsChain fun entry next =>
      entry.hasDefault = true → isWordOperator next.name.lexeme = false)
    {reading : Reading} (hreading : ∀ entry ∈ entries.head?, reading.step? entry.name = none) :
    readParameters reading (entries.flatMap Entry.tokens) = ofEntries entries := by
  induction entries generalizing reading with
  | nil => simp [readParameters, ofEntries]
  | cons entry entries ih =>
      have hnext : ∀ next ∈ entries.head?, entry.after.step? next.name = none := by
        intro next hnext
        exact step?_after (List.isChain_cons.mp h |>.1 next hnext)
      have hrest : ∀ token ∈ (entries.flatMap Entry.tokens).head?,
          token ≠ .ellipsis ∧ token ≠ .equals := by
        cases entries with
        | nil => simp
        | cons next entries =>
            have hhead : ((next :: entries).flatMap Entry.tokens).head? = some next.name := rfl
            rw [hhead, next.name_eq_ident]
            simp
      rw [List.flatMap_cons, entry.readParameters_tokens (hreading entry rfl) hrest,
        ih (List.isChain_cons.mp h).2 hnext]
      rfl

theorem readParameters_after {entry : Entry} {token : HeaderToken}
    (h : token = .comma ∨ token = .closeGroup ')') (rest : List HeaderToken) :
    readParameters entry.after (token :: rest) = readParameters .parameters rest := by
  unfold Entry.after
  split <;> rcases h with rfl | rfl <;> rfl

theorem readParameters_intercalate (entries : List Entry) :
    readParameters .parameters
        ([HeaderToken.comma].intercalate (entries.map Entry.tokens) ++ [.closeGroup ')']) =
      ofEntries entries := by
  induction entries with
  | nil => rfl
  | cons entry entries ih =>
      cases entries with
      | nil =>
          rw [List.map_singleton, List.intercalate_singleton,
            entry.readParameters_tokens rfl (by simp), readParameters_after (.inr rfl)]
          rfl
      | cons next entries =>
          rw [List.map_cons, List.map_cons, List.intercalate_cons_cons, ← List.map_cons,
            List.append_assoc, List.append_assoc, entry.readParameters_tokens rfl (by simp),
            List.singleton_append, readParameters_after (.inl rfl), ih]
          rfl

theorem ofEntries_entries (declaration : Declaration) :
    { ofEntries declaration.entries with name := some declaration.title.token.named } =
      declaration.header := by
  rcases declaration with ⟨title, parameters, catchAll⟩
  have hentries : ofEntries (Declaration.mk title parameters catchAll).entries =
      ⟨none, parameters.map fun parameter => parameter.1.token.lexeme,
        catchAll.map fun name => name.token.lexeme⟩ := by
    induction parameters with
    | nil => cases catchAll <;> rfl
    | cons parameter parameters ih =>
        exact congrArg (addArgument parameter.1.token.lexeme) ih
  rw [hentries]
  rfl

theorem ofTokens_tokens (declaration : Declaration) {layout : Layout}
    (h : declaration.Fits layout) : ofTokens (declaration.tokens layout) = declaration.header := by
  have hbody : readParameters .parameters (declaration.body layout) =
      ofEntries declaration.entries := by
    cases layout with
    | bare => exact readParameters_flatMap_tokens h fun _ _ => rfl
    | listed => exact readParameters_intercalate declaration.entries
  rw [← ofEntries_entries, ← hbody, Declaration.tokens]
  have hkind := declaration.title.kind
  cases htitle : declaration.title.token with
  | ident name => rfl
  | quoted quote body => rfl
  | _ =>
      rw [htitle] at hkind
      cases hkind

theorem Declaration.balanced (declaration : Declaration) (layout : Layout) :
    Balanced (declaration.tokens layout) := by
  have hentries : ∀ entry ∈ declaration.entries, Balanced entry.tokens := fun entry _ =>
    entry.balanced
  refine .cons_of_kind (fun _ => rfl) (fun _ => rfl) declaration.title ?_
  cases layout with
  | bare => exact .flatMap hentries
  | listed =>
      refine .group ⟨.openGroup '(', rfl, rfl⟩ ⟨.closeGroup ')', rfl, rfl⟩ (.intercalate ?_) .nil
      intro part hpart
      rcases List.mem_map.mp hpart with ⟨entry, hentry, rfl⟩
      exact hentries entry hentry

/--
Reading undoes printing: of a printed declaration the name and the names of the parameters
are read, and the tag ends behind the printed text exactly if no token outside brackets
and quotes holds a `>`.
-/
theorem parse_printed (declaration : Declaration) (layout : Layout)
    (hlayout : declaration.Fits layout) (text : Text)
    (htext : HeaderToken.isSpaced (declaration.tokens layout) text = true) :
    parse text = declaration.header ∧
      ∀ behind, Tag.split? (text ++ '>' :: behind) = some (text, behind) ↔
        HeaderToken.hideEnd 0 (declaration.tokens layout) = true := by
  have hbalanced := declaration.balanced layout
  constructor
  · rw [parse, HeaderToken.filter_tokens hbalanced.spelled htext,
      ofTokens_tokens declaration hlayout]
  · intro behind
    rw [Tag.split?, Tag.close?_append_eq_some_iff,
      HeaderToken.pass?_of_isSpaced hbalanced.spelled htext, hbalanced.level]
    simp

/-- The default `- y [ , = 'it\'s > 1' ( z > 1.5 ) ] gte 2`. -/
def nestedDefault : Default where
  first :=
    { signs := [⟨.operator ['-'], rfl, rfl⟩]
      atom := .single ⟨.ident ['y'], rfl, rfl⟩
      groups := [{
        opening := ⟨.openGroup '[', rfl, rfl⟩
        inside :=
          .token ⟨.comma, rfl, rfl⟩ <| .token ⟨.equals, rfl, rfl⟩ <|
          .token ⟨.quoted '\'' "it\\'s > 1".toList, rfl, rfl⟩ <|
          .group ⟨.openGroup '(', rfl, rfl⟩
            (.token ⟨.ident ['z'], rfl, rfl⟩ <| .token ⟨.operator ['>'], rfl, rfl⟩ <|
              .token ⟨.number "1.5".toList, rfl, rfl⟩ .done)
            ⟨.closeGroup ')', rfl, rfl⟩ .done
        closing := ⟨.closeGroup ']', rfl, rfl⟩ }] }
  rest := [(⟨.ident "gte".toList, rfl, rfl⟩, ⟨[], .single ⟨.number ['2'], rfl, rfl⟩, []⟩)]

/-- A parameter named like a comparison word, one with the default, and one behind it. -/
def nestedDeclaration : Declaration where
  title := ⟨.quoted '"' "a b".toList, rfl, rfl⟩
  parameters := [(⟨.ident "gt".toList, rfl, rfl⟩, none),
    (⟨.ident ['x'], rfl, rfl⟩, some nestedDefault), (⟨.ident ['w'], rfl, rfl⟩, none)]
  catchAll := some ⟨.ident "rest".toList, rfl, rfl⟩

theorem parse_printed_nested :
    let text := "\t\"a b\" gt x = - y [ , = 'it\\'s > 1' ( z > 1.5 ) ] gte\r\n2 w rest ...".toList
    nestedDeclaration.Fits .bare ∧
      HeaderToken.isSpaced (nestedDeclaration.tokens .bare) text = true ∧
      parse text =
        ⟨some "a b".toList, ["gt".toList, "x".toList, "w".toList], some "rest".toList⟩ ∧
      Tag.split? (text ++ '>' :: "body".toList) = some (text, "body".toList) := by
  intro text
  have hfits : nestedDeclaration.Fits .bare := by
    simp [Declaration.Fits, Declaration.entries, nestedDeclaration, Entry.hasDefault, Entry.name,
      HeaderToken.lexeme, isWordOperator]
  have hspaced : HeaderToken.isSpaced (nestedDeclaration.tokens .bare) text = true := by decide
  have h := parse_printed nestedDeclaration .bare hfits text hspaced
  exact ⟨hfits, hspaced, h.1, (h.2 _).mpr (by decide)⟩

end Header

end TemplateDocs
