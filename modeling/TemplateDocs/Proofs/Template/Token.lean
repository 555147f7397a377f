import TemplateDocs.Template.Item

/-!
# The tokens of a template

A template can also be walked token by token: the longest token that starts what
is left is taken, and where none does, what could have become one is passed over.
Comments and tags are skipped to their ends, and all else is buffered as text
until the next of them.  The walk comes to the items of the scan (`walks_iff`).
-/

namespace TemplateDocs

/-- What the walk over a template stops at. -/
inductive RawToken where
  | commentOpen
  /-- The start of a tag with the keyword of a definition. -/
  | opening (kind : DefinitionKind)
  /-- A whole tag that closes a definition. -/
  | closing (kind : DefinitionKind)
  /-- The start of a tag, up to the first character of its name. -/
  | directive
  | text
deriving DecidableEq, Repr

namespace RawToken

inductive Spells : RawToken → Text → Prop where
  | commentOpen : Spells commentOpen Tag.commentOpen
  | opening (kind : DefinitionKind) : Spells (opening kind) (Item.openingLead kind)
  | closing (kind : DefinitionKind) {gap : Text} (hgap : ∀ c ∈ gap, Text.isGap c = true) :
      Spells (closing kind) (Item.closingLead kind ++ gap ++ ['>'])
  | startTag {sigil c : Char} (hsigil : Tag.isSigil sigil = true)
      (hname : Tag.isNameStart c = true) : Spells directive ['<', sigil, c]
  | endTag {sigil c : Char} (hsigil : Tag.isSigil sigil = true)
      (hname : Tag.isNameStart c = true) : Spells directive ['<', '/', sigil, c]
  | text {run : Text} (hne : run ≠ []) (hrun : '<' ∉ run) : Spells text run

/-- The text starts with the token, and with no longer one. -/
structure Leads (source : Text) (token : RawToken) (lexeme rest : Text) : Prop where
  split : lexeme ++ rest = source
  spells : token.Spells lexeme
  longest : ∀ other longer, longer <+: source → Spells other longer →
    longer.length ≤ lexeme.length

/-- The start of a text that some token may stand for. -/
def Viable (lexeme : Text) : Prop :=
  ∃ token tail, Spells token (lexeme ++ tail)

/--
The text starts with no token.  What is passed over is all that could have become
one, and one character at least.
-/
structure Stuck (source lexeme rest : Text) : Prop where
  split : lexeme ++ rest = source
  unmatched : ∀ token found, found <+: source → ¬ Spells token found
  ne_nil : lexeme ≠ []
  reached : Viable lexeme ∨ lexeme.length = 1
  longest : ∀ longer, longer <+: source → Viable longer → longer.length ≤ lexeme.length

theorem Spells.notMem_tail {token : RawToken} {lexeme : Text} (h : token.Spells lexeme) :
    '<' ∉ lexeme.tail := by
  have hsigil {c : Char} (hc : Tag.isSigil c = true) : '<' ≠ c := by
    rintro rfl
    cases hc
  have hname {c : Char} (hc : Tag.isNameStart c = true) : '<' ≠ c := by
    rintro rfl
    cases hc
  cases h with
  | commentOpen => decide
  | opening kind => cases kind <;> decide
  | closing kind hgap =>
      have hlabel : '<' ∉ kind.label := by cases kind <;> decide
      simpa [Item.closingLead, hlabel] using fun hmem => absurd (hgap '<' hmem) (by decide)
  | startTag hs hn => simp [hsigil hs, hname hn]
  | endTag hs hn => simp [hsigil hs, hname hn]
  | text hne hrun => exact fun hmem => hrun (List.mem_of_mem_tail hmem)

theorem Spells.exists_gap {kind : DefinitionKind} {lexeme : Text}
    (h : Spells (.closing kind) lexeme) :
    ∃ gap, (∀ c ∈ gap, Text.isGap c = true) ∧
      lexeme = Item.closingLead kind ++ gap ++ ['>'] := by
  cases h with
  | closing kind hgap => exact ⟨_, hgap, rfl⟩

/-- A comment or tag starts where a token other than text does. -/
theorem startsHere_iff {source : Text} :
    Tag.startsHere source = true ↔
      ∃ token lexeme, token ≠ .text ∧ lexeme <+: source ∧ Spells token lexeme := by
  constructor
  · intro h
    rw [Tag.startsHere, Bool.or_eq_true] at h
    rcases h with h | h
    · obtain ⟨rest, hrest⟩ := Option.isSome_iff_exists.mp h
      exact ⟨.commentOpen, Tag.commentOpen, RawToken.noConfusion,
        ⟨rest, (Text.eq_append_of_after? hrest).symm⟩, .commentOpen⟩
    · unfold Tag.startsDirective at h
      split at h
      · next sigil c rest =>
          rw [Bool.and_eq_true] at h
          exact ⟨.directive, _, RawToken.noConfusion, ⟨rest, rfl⟩, .endTag h.1 h.2⟩
      · next sigil c rest hslash =>
          rw [Bool.and_eq_true] at h
          exact ⟨.directive, _, RawToken.noConfusion, ⟨rest, rfl⟩, .startTag h.1 h.2⟩
      · cases h
  · rintro ⟨token, lexeme, htoken, ⟨rest, rfl⟩, hspells⟩
    cases hspells with
    | commentOpen => rfl
    | opening kind => cases kind <;> rfl
    | closing kind hgap => cases kind <;> rfl
    | startTag hsigil hname =>
        simp only [Tag.isSigil, Bool.or_eq_true, decide_eq_true_eq] at hsigil
        rcases hsigil with rfl | rfl <;>
          simp [Tag.startsHere, Tag.startsDirective, Tag.isSigil, hname]
    | endTag hsigil hname => simp [Tag.startsHere, Tag.startsDirective, hsigil, hname]
    | text hne hrun => exact absurd rfl htoken

theorem exists_longest {source : Text} {P : Text → Prop}
    (h : ∃ lexeme, lexeme <+: source ∧ P lexeme) :
    ∃ lexeme rest, lexeme ++ rest = source ∧ P lexeme ∧
      ∀ longer, longer <+: source → P longer → longer.length ≤ lexeme.length := by
  induction source generalizing P with
  | nil =>
      obtain ⟨lexeme, hlexeme, hP⟩ := h
      obtain rfl := List.prefix_nil.mp hlexeme
      exact ⟨[], [], rfl, hP, fun longer hlonger _ => by simp [List.prefix_nil.mp hlonger]⟩
  | cons c source ih =>
      by_cases hmore : ∃ lexeme, lexeme <+: source ∧ P (c :: lexeme)
      · obtain ⟨lexeme, rest, rfl, hP, hlongest⟩ := ih hmore
        refine ⟨c :: lexeme, rest, rfl, hP, fun longer hlonger hother => ?_⟩
        rcases List.prefix_cons_iff.mp hlonger with rfl | ⟨tail, rfl, htail⟩
        · simp
        · simpa using hlongest tail htail hother
      · have hnil : ∀ longer, longer <+: c :: source → P longer → longer = [] := by
          intro longer hlonger hother
          rcases List.prefix_cons_iff.mp hlonger with rfl | ⟨tail, rfl, htail⟩
          · rfl
          · exact absurd ⟨tail, htail, hother⟩ hmore
        obtain ⟨lexeme, hlexeme, hP⟩ := h
        obtain rfl := hnil lexeme hlexeme hP
        exact ⟨[], c :: source, rfl, hP, fun longer hlonger hother => by
          simp [hnil longer hlonger hother]⟩

theorem exists_leads_or_stuck {source : Text} (h : source ≠ []) :
    (∃ token lexeme rest, Leads source token lexeme rest) ∨
      ∃ lexeme rest, Stuck source lexeme rest := by
  by_cases htoken : ∃ lexeme, lexeme <+: source ∧ ∃ token, Spells token lexeme
  · obtain ⟨lexeme, rest, hsplit, ⟨token, hspells⟩, hlongest⟩ := exists_longest htoken
    exact .inl ⟨token, lexeme, rest, hsplit, hspells,
      fun other longer hlonger hother => hlongest longer hlonger ⟨other, hother⟩⟩
  · obtain ⟨c, tail, rfl⟩ := List.exists_cons_of_ne_nil h
    have hfirst : ∃ lexeme, lexeme <+: c :: tail ∧
        (lexeme ≠ [] ∧ (Viable lexeme ∨ lexeme.length = 1)) :=
      ⟨[c], ⟨tail, rfl⟩, List.cons_ne_nil c [], .inr rfl⟩
    obtain ⟨lexeme, rest, hsplit, ⟨hne, hreached⟩, hlongest⟩ := exists_longest hfirst
    refine .inr ⟨lexeme, rest, hsplit, ?_, hne, hreached, fun longer hlonger hviable => ?_⟩
    · exact fun token found hfound hspells => htoken ⟨found, hfound, token, hspells⟩
    · by_cases hempty : longer = []
      · simp [hempty]
      · exact hlongest longer hlonger ⟨hempty, .inl hviable⟩

/-- A stretch of plain text: a token of text, or what is passed over. -/
def Plain (source lexeme rest : Text) : Prop :=
  Leads source .text lexeme rest ∨ Stuck source lexeme rest

theorem Plain.split {source lexeme rest : Text} (h : Plain source lexeme rest) :
    lexeme ++ rest = source := by
  rcases h with h | h
  · exact h.split
  · exact h.split

theorem Plain.ne_nil {source lexeme rest : Text} (h : Plain source lexeme rest) :
    lexeme ≠ [] := by
  rcases h with h | h
  · cases h.spells with
    | text hne hrun => exact hne
  · exact h.ne_nil

theorem Plain.notMem_tail {source lexeme rest : Text} (h : Plain source lexeme rest) :
    '<' ∉ lexeme.tail := by
  rcases h with h | h
  · exact h.spells.notMem_tail
  · rcases h.reached with ⟨token, tail, hspells⟩ | hlength
    · have hnot := hspells.notMem_tail
      rw [List.tail_append_of_ne_nil h.ne_nil] at hnot
      exact fun hmem => hnot (List.mem_append_left tail hmem)
    · obtain ⟨c, rfl⟩ := List.length_eq_one_iff.mp hlength
      simp

theorem startsHere_cons_of_ne {c : Char} (h : c ≠ '<') (rest : Text) :
    Tag.startsHere (c :: rest) = false := by
  rw [Bool.eq_false_iff]
  intro hstarts
  obtain ⟨token, lexeme, htoken, hprefix, hspells⟩ := startsHere_iff.mp hstarts
  have hhead : lexeme.head? = some '<' := by
    cases hspells with
    | text hne hrun => exact absurd rfl htoken
    | _ => rfl
  obtain ⟨tail, rfl⟩ := List.head?_eq_some_iff.mp hhead
  exact h (List.cons_prefix_cons.mp hprefix).1.symm

theorem Plain.startsHere_eq_false {source lexeme rest : Text}
    (h : Plain source lexeme rest) : Tag.startsHere source = false := by
  rcases h with ⟨rfl, hspells, -⟩ | h
  · cases hspells with
    | text hne hrun =>
        obtain ⟨c, tail, rfl⟩ := List.exists_cons_of_ne_nil hne
        exact startsHere_cons_of_ne (fun hc => hrun (by simp [hc])) _
  · rw [Bool.eq_false_iff]
    intro hstarts
    obtain ⟨token, found, -, hfound, hspells⟩ := startsHere_iff.mp hstarts
    exact h.unmatched token found hfound hspells

end RawToken

namespace Item

/-! ## Items of tokens -/

theorem textRun_append_of_notMem {run : Text} (h : '<' ∉ run) (rest : Text) :
    textRun (run ++ rest) = (run ++ (textRun rest).1, (textRun rest).2) := by
  induction run with
  | nil => rfl
  | cons c run ih =>
      rw [List.mem_cons, not_or] at h
      rw [List.cons_append, textRun, RawToken.startsHere_cons_of_ne (Ne.symm h.1), ih h.2]
      rfl

theorem textRun_of_plain {source lexeme rest : Text} (h : RawToken.Plain source lexeme rest) :
    textRun source = (lexeme ++ (textRun rest).1, (textRun rest).2) := by
  have hstarts := h.startsHere_eq_false
  have htail := h.notMem_tail
  obtain ⟨c, tail, rfl⟩ := List.exists_cons_of_ne_nil h.ne_nil
  rw [List.tail_cons] at htail
  rw [← h.split, List.cons_append] at hstarts ⊢
  rw [textRun, hstarts, textRun_append_of_notMem htail]
  rfl

def isNeutral (c : Char) : Bool :=
  !Tag.isQuote c && !Tag.opensGroup c && !Tag.closesGroup c && c != '>'

theorem split?_append_of_isNeutral {lead : Text} (h : ∀ c ∈ lead, isNeutral c = true)
    (inside : Text) :
    Tag.split? (lead ++ inside) =
      (Tag.split? inside).map fun found => (lead ++ found.1, found.2) := by
  induction lead with
  | nil => simp
  | cons c lead ih =>
      have hneutral := h c (by simp)
      simp only [isNeutral, Bool.and_eq_true, Bool.not_eq_true', bne_iff_ne] at hneutral
      obtain ⟨⟨⟨hquote, hopens⟩, hcloses⟩, hend⟩ := hneutral
      have hstep : Tag.split? (c :: (lead ++ inside)) =
          (Tag.split? (lead ++ inside)).map fun found => (c :: found.1, found.2) := by
        simp [Tag.split?, Tag.close?, Tag.Scan.next, hquote, hopens, hcloses, hend]
      rw [List.cons_append, hstep, ih fun d hd => h d (by simp [hd]), Option.map_map]
      rfl

theorem isNeutral_of_mem {token : RawToken} {lexeme : Text} (h : token.Spells lexeme)
    (htoken : token = .directive ∨ ∃ kind, token = .opening kind) {c : Char} (hc : c ∈ lexeme) :
    isNeutral c = true := by
  have hsigil {c : Char} (hc : Tag.isSigil c = true) : isNeutral c = true := by
    simp only [Tag.isSigil, Bool.or_eq_true, decide_eq_true_eq] at hc
    rcases hc with rfl | rfl <;> decide
  have hname {c : Char} (hc : Tag.isNameStart c = true) : isNeutral c = true := by
    have hne {d : Char} (hd : Tag.isNameStart d = false) : c ≠ d := by
      rintro rfl
      rw [hc] at hd
      cases hd
    simp [isNeutral, Tag.isQuote, Tag.opensGroup, Tag.closesGroup, @hne '"' rfl, @hne '\'' rfl,
      @hne '(' rfl, @hne '[' rfl, @hne '\x7b' rfl, @hne ')' rfl, @hne ']' rfl, @hne '\x7d' rfl,
      @hne '>' rfl]
  rcases htoken with rfl | ⟨kind, rfl⟩
  · cases h with
    | startTag hs hn =>
        simp only [List.mem_cons, List.not_mem_nil, or_false] at hc
        rcases hc with rfl | rfl | rfl
        · decide
        · exact hsigil hs
        · exact hname hn
    | endTag hs hn =>
        simp only [List.mem_cons, List.not_mem_nil, or_false] at hc
        rcases hc with rfl | rfl | rfl | rfl
        · decide
        · decide
        · exact hsigil hs
        · exact hname hn
  · cases h
    have hall : (openingLead kind).all isNeutral = true := by cases kind <;> rfl
    exact List.all_eq_true.mp hall c hc

/-- The item that a token starts, once its comment or tag is skipped to the end. -/
inductive Reads (source : Text) : Item → Text → Prop where
  | comment {inside body rest : Text}
      (htoken : RawToken.Leads source .commentOpen Tag.commentOpen inside)
      (hclose : Text.splitAt? Tag.commentClose inside = some (body, rest)) :
      Reads source (leaf (.comment body)) rest
  | openComment {inside : Text}
      (htoken : RawToken.Leads source .commentOpen Tag.commentOpen inside)
      (hclose : Text.splitAt? Tag.commentClose inside = none) :
      Reads source (openComment inside) []
  | opening {kind : DefinitionKind} {lexeme inside header rest : Text}
      (htoken : RawToken.Leads source (.opening kind) lexeme inside)
      (hheader : startsHeader inside = true)
      (hclose : Tag.split? inside = some (header, rest)) :
      Reads source (opening kind header) rest
  | openHeader {kind : DefinitionKind} {lexeme inside : Text}
      (htoken : RawToken.Leads source (.opening kind) lexeme inside)
      (hheader : startsHeader inside = true) (hclose : Tag.split? inside = none) :
      Reads source (openHeader kind inside) []
  | closing {kind : DefinitionKind} {gap rest : Text}
      (htoken : RawToken.Leads source (.closing kind) (closingLead kind ++ gap ++ ['>']) rest) :
      Reads source (closing kind gap) rest
  | tag {token : RawToken} {lexeme inside body rest : Text}
      (htoken : RawToken.Leads source token lexeme inside)
      (hother : token = .directive ∨
        ∃ kind, token = .opening kind ∧ startsHeader inside = false)
      (hclose : Tag.split? inside = some (body, rest)) :
      Reads source (leaf (.tag (lexeme ++ body ++ ['>']))) rest
  | openTag {token : RawToken} {lexeme inside : Text}
      (htoken : RawToken.Leads source token lexeme inside)
      (hother : token = .directive ∨
        ∃ kind, token = .opening kind ∧ startsHeader inside = false)
      (hclose : Tag.split? inside = none) :
      Reads source (leaf (.tag source)) []

theorem tagItem_commentOpen (inside : Text) :
    tagItem (Tag.commentOpen ++ inside) =
      ((Text.splitAt? Tag.commentClose inside).map fun found =>
        (leaf (.comment found.1), found.2)).getD (openComment inside, []) := by
  rw [tagItem, comment?, Text.after?_append, Option.map_some, Option.some_or, Option.getD_some]
  cases Text.splitAt? Tag.commentClose inside with
  | none => rfl
  | some found => rfl

theorem closing?_closingLead {kind : DefinitionKind} {gap : Text}
    (hgap : ∀ c ∈ gap, Text.isGap c = true) (rest : Text) :
    closing? kind (closingLead kind ++ gap ++ ['>'] ++ rest) = some (closing kind gap, rest) := by
  have hend : Text.isGap '>' = false := rfl
  simp only [closing?, List.append_assoc, Text.after?_append, Option.bind_some,
    List.singleton_append]
  rw [List.dropWhile_append_of_pos hgap, List.takeWhile_append_of_pos hgap]
  simp [hend]

theorem tagItem_closingLead {kind : DefinitionKind} {gap : Text}
    (hgap : ∀ c ∈ gap, Text.isGap c = true) (rest : Text) :
    tagItem (closingLead kind ++ gap ++ ['>'] ++ rest) = (closing kind gap, rest) := by
  have hclosing := @closing?_closingLead kind gap hgap rest
  have hcomment : comment? (closingLead kind ++ gap ++ ['>'] ++ rest) = none := by
    cases kind <;> rfl
  rw [tagItem, hcomment]
  cases kind with
  | macroDef => rw [hclosing]; rfl
  | functionDef =>
      have hmacro : closing? .macroDef (closingLead .functionDef ++ gap ++ ['>'] ++ rest) =
          none := rfl
      rw [hclosing, hmacro]
      rfl

theorem tagItem_openingLead (kind : DefinitionKind) (inside : Text) :
    tagItem (openingLead kind ++ inside) =
      (opening? kind (openingLead kind ++ inside)).getD
        (otherTag (openingLead kind ++ inside)) := by
  cases kind with
  | macroDef =>
      have hfunction : opening? .functionDef (openingLead .macroDef ++ inside) = none := rfl
      rw [tagItem, hfunction, Option.or_none]
      rfl
  | functionDef => rfl

theorem exists_spells_of_closing? {kind : DefinitionKind} {source : Text} {found : Item × Text}
    (h : closing? kind source = some found) :
    ∃ lexeme, lexeme <+: source ∧ RawToken.Spells (.closing kind) lexeme ∧ 4 < lexeme.length := by
  simp only [closing?, Option.bind_eq_some_iff] at h
  obtain ⟨inside, hinside, hfound⟩ := h
  obtain rfl := Text.eq_append_of_after? hinside
  split at hfound
  · next rest hrest =>
      refine ⟨closingLead kind ++ inside.takeWhile Text.isGap ++ ['>'], ⟨rest, ?_⟩,
        .closing kind fun c hc => List.all_eq_true.mp List.all_takeWhile c hc, ?_⟩
      · rw [List.append_assoc, List.append_assoc, List.singleton_append, ← hrest,
          List.takeWhile_append_dropWhile]
      · have hlead : 4 < (closingLead kind).length := by cases kind <;> decide
        simp only [List.length_append]
        omega
  · cases hfound

theorem exists_spells_of_opening? {kind : DefinitionKind} {source : Text} {found : Item × Text}
    (h : opening? kind source = some found) :
    ∃ lexeme, lexeme <+: source ∧ RawToken.Spells (.opening kind) lexeme ∧ 4 < lexeme.length := by
  simp only [opening?, Option.bind_eq_some_iff] at h
  obtain ⟨inside, hinside, -⟩ := h
  exact ⟨openingLead kind, ⟨inside, (Text.eq_append_of_after? hinside).symm⟩, .opening kind,
    by cases kind <;> decide⟩

/-- A tag with no longer token than the start of its name is of no interest. -/
theorem tagItem_of_directive {source lexeme inside : Text}
    (h : RawToken.Leads source .directive lexeme inside) : tagItem source = otherTag source := by
  obtain ⟨rfl, hspells, hlongest⟩ := h
  have hlength : lexeme.length ≤ 4 := by cases hspells <;> simp
  have hcomment : comment? (lexeme ++ inside) = none := by
    cases hspells with
    | @startTag sigil c hsigil hname =>
        have hdash : '-' ≠ c := by
          rintro rfl
          cases hname
        simp [comment?, Text.after?, Tag.commentOpen, hdash]
    | endTag hsigil hname => rfl
  have hclosing (kind : DefinitionKind) : closing? kind (lexeme ++ inside) = none := by
    rw [Option.eq_none_iff_forall_ne_some]
    intro found hfound
    obtain ⟨longer, hlonger, hother, hlt⟩ := exists_spells_of_closing? hfound
    have hle := hlongest _ longer hlonger hother
    omega
  have hopening (kind : DefinitionKind) : opening? kind (lexeme ++ inside) = none := by
    rw [Option.eq_none_iff_forall_ne_some]
    intro found hfound
    obtain ⟨longer, hlonger, hother, hlt⟩ := exists_spells_of_opening? hfound
    have hle := hlongest _ longer hlonger hother
    omega
  rw [tagItem, hcomment, hclosing, hclosing, hopening, hopening]
  rfl

theorem tagItem_of_other {source lexeme inside : Text} {token : RawToken}
    (h : RawToken.Leads source token lexeme inside)
    (hother : token = .directive ∨
      ∃ kind, token = .opening kind ∧ startsHeader inside = false) :
    tagItem source =
      ((Tag.split? inside).map fun found =>
        (leaf (.tag (lexeme ++ found.1 ++ ['>'])), found.2)).getD (leaf (.tag source), []) := by
  have hitem : tagItem source = otherTag source := by
    rcases hother with rfl | ⟨kind, rfl, hheader⟩
    · exact tagItem_of_directive h
    · obtain ⟨rfl, hspells, -⟩ := h
      cases hspells
      rw [tagItem_openingLead, opening?, Text.after?_append, Option.bind_some, hheader]
      rfl
  have hneutral : ∀ c ∈ lexeme, isNeutral c = true := by
    intro c hc
    refine isNeutral_of_mem h.spells ?_ hc
    rcases hother with hdirective | ⟨kind, hkind, -⟩
    · exact .inl hdirective
    · exact .inr ⟨kind, hkind⟩
  rw [hitem, otherTag, ← h.split, split?_append_of_isNeutral hneutral]
  cases Tag.split? inside with
  | none => rfl
  | some found => rfl

theorem tagItem_of_opening {source lexeme inside : Text} {kind : DefinitionKind}
    (h : RawToken.Leads source (.opening kind) lexeme inside)
    (hheader : startsHeader inside = true) :
    tagItem source =
      ((Tag.split? inside).map fun found => (opening kind found.1, found.2)).getD
        (openHeader kind inside, []) := by
  obtain ⟨rfl, hspells, -⟩ := h
  cases hspells
  rw [tagItem_openingLead, opening?, Text.after?_append, Option.bind_some, if_pos hheader]
  cases Tag.split? inside with
  | none => rfl
  | some found => rfl

theorem Reads.tagItem_eq {source rest : Text} {item : Item} (h : Reads source item rest) :
    tagItem source = (item, rest) := by
  cases h with
  | comment htoken hclose =>
      rw [← htoken.split, tagItem_commentOpen, hclose]
      rfl
  | openComment htoken hclose =>
      rw [← htoken.split, tagItem_commentOpen, hclose]
      rfl
  | opening htoken hheader hclose =>
      rw [tagItem_of_opening htoken hheader, hclose]
      rfl
  | openHeader htoken hheader hclose =>
      rw [tagItem_of_opening htoken hheader, hclose]
      rfl
  | closing htoken =>
      obtain ⟨other, hgap, hlexeme⟩ := htoken.spells.exists_gap
      obtain rfl := List.append_cancel_left (List.append_cancel_right hlexeme)
      rw [← htoken.split, tagItem_closingLead hgap]
  | tag htoken hother hclose =>
      rw [tagItem_of_other htoken hother, hclose]
      rfl
  | openTag htoken hother hclose =>
      rw [tagItem_of_other htoken hother, hclose]
      rfl

theorem Reads.startsHere {source rest : Text} {item : Item} (h : Reads source item rest) :
    Tag.startsHere source = true := by
  have hleads {token : RawToken} {lexeme inside : Text} (htoken : token ≠ .text)
      (h : RawToken.Leads source token lexeme inside) : Tag.startsHere source = true :=
    RawToken.startsHere_iff.mpr ⟨token, lexeme, htoken, ⟨inside, h.split⟩, h.spells⟩
  cases h with
  | comment htoken | openComment htoken | opening htoken | openHeader htoken | closing htoken =>
      exact hleads RawToken.noConfusion htoken
  | tag htoken hother | openTag htoken hother =>
      refine hleads ?_ htoken
      rcases hother with rfl | ⟨kind, rfl, -⟩ <;> exact RawToken.noConfusion

theorem Reads.next_eq {source rest : Text} {item : Item} (h : Reads source item rest) :
    next source = (item, rest) := by
  rw [next, if_pos h.startsHere, h.tagItem_eq]

theorem exists_reads_of_leads {source lexeme inside : Text} {token : RawToken}
    (h : RawToken.Leads source token lexeme inside) (htoken : token ≠ .text) :
    ∃ item rest, Reads source item rest := by
  have hother (hother : token = .directive ∨
      ∃ kind, token = .opening kind ∧ startsHeader inside = false) :
      ∃ item rest, Reads source item rest := by
    cases hclose : Tag.split? inside with
    | none => exact ⟨_, _, .openTag h hother hclose⟩
    | some found => exact ⟨_, _, .tag h hother hclose⟩
  cases token with
  | text => exact absurd rfl htoken
  | directive => exact hother (.inl rfl)
  | commentOpen =>
      obtain rfl : lexeme = Tag.commentOpen := by cases h.spells; rfl
      cases hclose : Text.splitAt? Tag.commentClose inside with
      | none => exact ⟨_, _, .openComment h hclose⟩
      | some found => exact ⟨_, _, .comment h hclose⟩
  | closing kind =>
      obtain ⟨gap, -, rfl⟩ := h.spells.exists_gap
      exact ⟨_, _, .closing h⟩
  | opening kind =>
      cases hheader : startsHeader inside with
      | false => exact hother (.inr ⟨kind, rfl, hheader⟩)
      | true =>
          cases hclose : Tag.split? inside with
          | none => exact ⟨_, _, .openHeader h hheader hclose⟩
          | some found => exact ⟨_, _, .opening h hheader hclose⟩

/-! ## The walk -/

/-- The buffered text as an item, unless nothing is buffered. -/
def flush : Text → List Item
  | [] => []
  | c :: run => [leaf (.text (c :: run))]

/--
The items of a source behind buffered text: plain text is added to the buffer,
and the buffer is flushed before every other item and at the end.
-/
inductive Walks : Text → Text → List Item → Prop where
  | done (buffer : Text) : Walks buffer [] (flush buffer)
  | plain {buffer source lexeme rest : Text} {items : List Item}
      (htoken : RawToken.Plain source lexeme rest)
      (hrest : Walks (buffer ++ lexeme) rest items) : Walks buffer source items
  | item {buffer source rest : Text} {item : Item} {items : List Item}
      (hitem : Reads source item rest) (hrest : Walks [] rest items) :
      Walks buffer source (flush buffer ++ item :: items)

def scanBehind (buffer source : Text) : List Item :=
  if buffer = [] then
    scan source
  else
    leaf (.text (buffer ++ (textRun source).1)) :: scan (textRun source).2

theorem scanBehind_nil (buffer : Text) : scanBehind buffer [] = flush buffer := by
  cases buffer with
  | nil => rfl
  | cons c run => simp [scanBehind, textRun, flush, scan]

theorem textRun_of_startsHere {source : Text} (h : Tag.startsHere source = true) :
    textRun source = ([], source) := by
  cases source with
  | nil => cases h
  | cons c rest => rw [textRun, if_pos h]

theorem scanBehind_plain {source lexeme rest : Text} (h : RawToken.Plain source lexeme rest)
    (buffer : Text) : scanBehind buffer source = scanBehind (buffer ++ lexeme) rest := by
  have hne : source ≠ [] := by
    rw [← h.split]
    exact List.append_ne_nil_of_left_ne_nil h.ne_nil rest
  have hrun := textRun_of_plain h
  have hnext : next source = (leaf (.text (lexeme ++ (textRun rest).1)), (textRun rest).2) := by
    rw [next, if_neg (by simp [h.startsHere_eq_false]), hrun]
  by_cases hbuffer : buffer = []
  · simp [scanBehind, hbuffer, h.ne_nil, scan_of_ne_nil hne, hnext]
  · simp [scanBehind, hbuffer, hrun]

theorem scanBehind_reads {source rest : Text} {item : Item} (h : Reads source item rest)
    (buffer : Text) : scanBehind buffer source = flush buffer ++ item :: scan rest := by
  have hne : source ≠ [] := by
    rintro rfl
    cases h.startsHere
  have hscan : scan source = item :: scan rest := by rw [scan_of_ne_nil hne, h.next_eq]
  cases buffer with
  | nil => simpa [scanBehind, flush] using hscan
  | cons c run => simp [scanBehind, flush, textRun_of_startsHere h.startsHere, hscan]

theorem Walks.eq_scanBehind {buffer source : Text} {items : List Item}
    (h : Walks buffer source items) : items = scanBehind buffer source := by
  induction h with
  | done buffer => exact (scanBehind_nil buffer).symm
  | plain htoken hrest ih => rw [ih, ← scanBehind_plain htoken]
  | item hitem hrest ih =>
      rw [scanBehind_reads hitem, ih]
      rfl

theorem exists_walks (buffer source : Text) : ∃ items, Walks buffer source items := by
  -- Every token takes at least one character, so the walk is by what is left of the source.
  induction hlength : source.length using Nat.strongRecOn generalizing buffer source with
  | ind length ih =>
      subst hlength
      by_cases hne : source = []
      · subst hne
        exact ⟨flush buffer, .done buffer⟩
      · have hplain {lexeme rest : Text} (h : RawToken.Plain source lexeme rest) :
            ∃ items, Walks buffer source items := by
          have hlt : rest.length < source.length := by
            rw [← h.split, List.length_append]
            have hpos := List.length_pos_iff.mpr h.ne_nil
            omega
          obtain ⟨items, hitems⟩ := ih _ hlt (buffer ++ lexeme) rest rfl
          exact ⟨items, .plain h hitems⟩
        rcases RawToken.exists_leads_or_stuck hne with ⟨token, lexeme, rest, h⟩ | ⟨_, _, h⟩
        · by_cases htoken : token = .text
          · subst htoken
            exact hplain (.inl h)
          · obtain ⟨item, rest, hitem⟩ := exists_reads_of_leads h htoken
            have hlt := tiles_next.length_lt hne
            rw [hitem.next_eq] at hlt
            obtain ⟨items, hitems⟩ := ih _ hlt [] rest rfl
            exact ⟨_, .item hitem hitems⟩
        · exact hplain (.inr h)

/-- The walk over a source comes to the items of its scan, and to nothing else. -/
theorem walks_iff {source : Text} {items : List Item} :
    Walks [] source items ↔ items = scan source := by
  constructor
  · exact Walks.eq_scanBehind
  · rintro rfl
    obtain ⟨items, hitems⟩ := exists_walks [] source
    rwa [hitems.eq_scanBehind] at hitems

end Item

end TemplateDocs
