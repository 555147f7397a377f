import TemplateDocs.Proofs.Template.Grammar

/-!
# The first fault of a source

A source is read from its end, but its faults are those of a reading from its
start that keeps the open definitions on a stack (`fault?_ofPieces`).  The stack
holds the opening tags that a balanced run separates from the place reached
(`Opened`), so the fault of a source is the one of its leftmost offending item,
or else that of the innermost definition left open (`parse_eq_error_iff`).
-/

namespace TemplateDocs

namespace Item

def isOpening : Item → Bool
  | opening _ _ => true
  | _ => false

def isClosing : Item → Bool
  | closing _ _ => true
  | _ => false

theorem Balanced.countP_eq {items : List Item} (h : Balanced items) :
    items.countP isOpening = items.countP isClosing := by
  induction h with
  | nil => rfl
  | leaf part hrest ih => simpa [isOpening, isClosing] using ih
  | definition kind header gap hinside hrest ihInside ihRest =>
      simp only [List.countP_cons, List.countP_append, isOpening, isClosing, ihInside, ihRest]
      simp
      omega

/-- No end of a balanced run opens more definitions than it closes. -/
theorem Balanced.countP_suffix_le {items : List Item} (h : Balanced items)
    {first second : List Item} (hsplit : items = first ++ second) :
    second.countP isOpening ≤ second.countP isClosing := by
  induction h generalizing first second with
  | nil =>
      obtain ⟨-, rfl⟩ := List.append_eq_nil_iff.mp hsplit.symm
      simp
  | leaf part hrest ih =>
      rcases List.cons_eq_append_iff.mp hsplit with ⟨-, rfl⟩ | ⟨first, -, hrest⟩
      · exact Nat.le_of_eq (Balanced.leaf part ‹_›).countP_eq
      · exact ih hrest
  | definition kind header gap hinside hrest ihInside ihRest =>
      rcases List.cons_eq_append_iff.mp hsplit with ⟨-, rfl⟩ | ⟨first, -, hbehind⟩
      · exact Nat.le_of_eq (Balanced.definition kind header gap hinside hrest).countP_eq
      · rcases List.append_eq_append_iff.mp hbehind with ⟨middle, -, hclose⟩ | ⟨middle, hin, rfl⟩
        · rcases List.cons_eq_append_iff.mp hclose with ⟨-, rfl⟩ | ⟨middle, -, hrest'⟩
          · have hcount := hrest.countP_eq
            simp only [List.countP_cons, isOpening, isClosing]
            simp
            omega
          · exact ihRest hrest'
        · have hcount := hrest.countP_eq
          have hmiddle := ihInside hin
          simp only [List.countP_append, List.countP_cons, isOpening, isClosing]
          simp
          omega

theorem Balanced.not_append_opening {first inside : List Item} {kind : DefinitionKind}
    {header : Text} (hinside : Balanced inside) :
    ¬ Balanced (first ++ opening kind header :: inside) := by
  intro h
  have hle := h.countP_suffix_le rfl
  have heq := hinside.countP_eq
  simp only [List.countP_cons, isOpening, isClosing] at hle
  simp at hle
  omega

end Item

def Opening.unclosed (opening : Opening) : Fault :=
  .unclosedDefinition opening.kind opening.signature.name opening.start

namespace Piece

/-! ## Reading with a stack -/

/-- The definitions open behind a piece, the innermost first, or the fault of the piece. -/
def read (opened : List Opening) (piece : Piece) : Except Fault (List Opening) :=
  match piece.item with
  | .leaf _ => .ok opened
  | .openComment _ => .error (.unclosedComment piece.start)
  | .openHeader kind _ => .error (.unclosedDefinition kind [] piece.start)
  | .opening kind header =>
      match (Header.parse header).signature? with
      | some signature => .ok (⟨kind, header, signature, piece.start⟩ :: opened)
      | none => .error (.missingName kind piece.start)
  | .closing kind _ =>
      match opened with
      | [] => .error (.unexpectedClosing piece.item.lexeme piece.start)
      | opening :: outer =>
          if kind = opening.kind then
            .ok outer
          else
            .error (.unexpectedClosing piece.item.lexeme piece.start)

/-- The definitions open behind a run, or the first fault in it. -/
def readAll (opened : List Opening) : List Piece → Except Fault (List Opening)
  | [] => .ok opened
  | piece :: rest =>
      match piece.read opened with
      | .ok opened => readAll opened rest
      | .error fault => .error fault

/-- The fault of a whole source: that of an item, or of a definition left open. -/
def endFault? : Except Fault (List Opening) → Option Fault
  | .ok opened => opened.head?.map Opening.unclosed
  | .error fault => some fault

end Piece

namespace Levels

/-- The fault of the levels when the listed definitions are open before them. -/
def fault? : List Opening → Levels → Option Fault
  | _, failed fault => some fault
  | opened, done _ => opened.head?.map Opening.unclosed
  | [], closed _ closing _ => some (unexpected closing)
  | opening :: outer, closed _ closing rest =>
      if closing.kind = opening.kind then fault? outer rest else some (unexpected closing)

theorem fault?_mapFirst (opened : List Opening) (change : Outline → Outline)
    (levels : Levels) : (levels.mapFirst change).fault? opened = levels.fault? opened := by
  cases levels with
  | done outline => cases opened <;> rfl
  | closed outline closing rest => cases opened <;> rfl
  | failed fault => cases opened <;> rfl

theorem fault?_enclose (opened : List Opening) (opening : Opening) (levels : Levels) :
    (levels.enclose opening).fault? opened = levels.fault? (opening :: opened) := by
  cases levels with
  | done outline => cases opened <;> rfl
  | failed fault => cases opened <;> rfl
  | closed inside closing rest =>
      simp only [enclose, fault?]
      split
      · exact fault?_mapFirst ..
      · cases opened <;> rfl

/-- One more piece in front acts on the open definitions as reading it does. -/
theorem fault?_add (opened : List Opening) (piece : Piece) (levels : Levels) :
    (levels.add piece).fault? opened =
      match piece.read opened with
      | .ok opened => levels.fault? opened
      | .error fault => some fault := by
  obtain ⟨item, start, stop⟩ := piece
  cases item with
  | leaf part => exact fault?_mapFirst ..
  | openComment rest => cases opened <;> rfl
  | openHeader kind rest => cases opened <;> rfl
  | opening kind header =>
      simp only [add, Piece.read]
      cases (Header.parse header).signature? with
      | none => cases opened <;> rfl
      | some signature => exact fault?_enclose ..
  | closing kind gap =>
      cases opened with
      | nil => rfl
      | cons opening outer =>
          simp only [add, fault?, Piece.read]
          split <;> rfl

/-- Reading from the end finds the fault that reading from the start finds. -/
theorem fault?_ofPieces (opened : List Opening) (pieces : List Piece) :
    (ofPieces pieces).fault? opened = Piece.endFault? (Piece.readAll opened pieces) := by
  induction pieces generalizing opened with
  | nil => cases opened <;> rfl
  | cons piece rest ih =>
      rw [ofPieces, fault?_add, Piece.readAll]
      cases piece.read opened with
      | ok opened => exact ih opened
      | error fault => rfl

theorem outline_eq_error_iff {levels : Levels} {fault : Fault} :
    levels.outline = .error fault ↔ levels.fault? [] = some fault := by
  cases levels <;> simp [Levels.outline, fault?]

end Levels

namespace Piece

theorem readAll_append (opened : List Opening) (first second : List Piece) :
    readAll opened (first ++ second) =
      match readAll opened first with
      | .ok opened => readAll opened second
      | .error fault => .error fault := by
  induction first generalizing opened with
  | nil => rfl
  | cons piece rest ih =>
      simp only [List.cons_append, readAll]
      cases piece.read opened with
      | ok opened => exact ih opened
      | error fault => rfl

theorem exists_of_readAll_eq_error {opened : List Opening} {pieces : List Piece}
    {fault : Fault} (h : readAll opened pieces = .error fault) :
    ∃ before piece behind reached, pieces = before ++ piece :: behind ∧
      readAll opened before = .ok reached ∧ piece.read reached = .error fault := by
  induction pieces generalizing opened with
  | nil => cases h
  | cons piece rest ih =>
      rw [readAll] at h
      cases hread : piece.read opened with
      | error other =>
          rw [hread] at h
          cases h
          exact ⟨[], piece, rest, opened, rfl, rfl, hread⟩
      | ok reached =>
          rw [hread] at h
          obtain ⟨before, other, behind, last, rfl, hbefore, hother⟩ := ih h
          refine ⟨piece :: before, other, behind, last, rfl, ?_, hother⟩
          rw [readAll, hread]
          exact hbefore

theorem readAll_append_error {opened reached : List Opening} {before behind : List Piece}
    {piece : Piece} {fault : Fault} (hbefore : readAll opened before = .ok reached)
    (hpiece : piece.read reached = .error fault) :
    readAll opened (before ++ piece :: behind) = .error fault := by
  rw [readAll_append, hbefore]
  simp only [readAll, hpiece]

/-! ## What stands on the stack -/

/-- A run that opens the listed definitions, the innermost first, with balanced runs between. -/
inductive Opened : List Piece → List Opening → Prop where
  | balanced {pieces : List Piece} (h : Item.Balanced (pieces.map Piece.item)) :
      Opened pieces []
  | opening {outer inside : List Piece} {opened : List Opening} {kind : DefinitionKind}
      {header : Text} {signature : Signature} {start stop : Position}
      (houter : Opened outer opened)
      (hsignature : (Header.parse header).signature? = some signature)
      (hinside : Item.Balanced (inside.map Piece.item)) :
      Opened (outer ++ ⟨.opening kind header, start, stop⟩ :: inside)
        (⟨kind, header, signature, start⟩ :: opened)

theorem Opened.append_balanced {pieces more : List Piece} {opened : List Opening}
    (h : Opened pieces opened) (hmore : Item.Balanced (more.map Piece.item)) :
    Opened (pieces ++ more) opened := by
  cases h with
  | balanced h =>
      apply Opened.balanced
      rw [List.map_append]
      exact h.append hmore
  | opening houter hsignature hinside =>
      rw [List.append_assoc, List.cons_append]
      apply Opened.opening houter hsignature
      rw [List.map_append]
      exact hinside.append hmore

theorem Opened.read {before : List Piece} {piece : Piece} {opened reached : List Opening}
    (h : Opened before opened) (hread : piece.read opened = .ok reached) :
    Opened (before ++ [piece]) reached := by
  obtain ⟨item, start, stop⟩ := piece
  cases item with
  | leaf part =>
      cases hread
      exact h.append_balanced (.leaf part .nil)
  | openComment rest => cases hread
  | openHeader kind rest => cases hread
  | opening kind header =>
      simp only [Piece.read] at hread
      cases hsignature : (Header.parse header).signature? with
      | none =>
          rw [hsignature] at hread
          cases hread
      | some signature =>
          rw [hsignature] at hread
          cases hread
          exact .opening h hsignature .nil
  | closing kind gap =>
      simp only [Piece.read] at hread
      cases h with
      | balanced h => cases hread
      | @opening outer inside opened openKind header signature openStart openStop houter
          hsignature hinside =>
          simp only at hread
          split at hread
          · next hkind =>
              cases hread
              subst hkind
              rw [List.append_assoc]
              apply houter.append_balanced
              simpa using Item.Balanced.definition kind header gap hinside .nil
          · cases hread

theorem Opened.readAll {before pieces : List Piece} {opened reached : List Opening}
    (h : Opened before opened) (hread : Piece.readAll opened pieces = .ok reached) :
    Opened (before ++ pieces) reached := by
  induction pieces generalizing before opened with
  | nil =>
      cases hread
      rwa [List.append_nil]
  | cons piece rest ih =>
      rw [Piece.readAll] at hread
      cases hpiece : piece.read opened with
      | error fault =>
          rw [hpiece] at hread
          cases hread
      | ok next =>
          rw [hpiece] at hread
          have hrest := ih (h.read hpiece) hread
          rwa [List.append_assoc] at hrest

theorem opened_of_readAll {pieces : List Piece} {opened : List Opening}
    (h : Piece.readAll [] pieces = .ok opened) : Opened pieces opened := by
  have hnil : Opened [] [] := .balanced .nil
  exact hnil.readAll h

/-! ## Offending items -/

/-- The opening tag from which a balanced run leads to the end of the pieces. -/
def Innermost (pieces : List Piece) (opener : Piece) : Prop :=
  opener.item.isOpening = true ∧
    ∃ outer inside, pieces = outer ++ opener :: inside ∧
      Item.Balanced (inside.map Piece.item)

theorem innermost_unique {pieces : List Piece} {first second : Piece}
    (hfirst : Innermost pieces first) (hsecond : Innermost pieces second) :
    first = second := by
  -- Of two such tags the later one would stand inside a balanced run without its partner.
  have hlater {one other : Piece} {middle inside inside' : List Piece}
      (hother : other.item.isOpening = true)
      (hsplit : one :: inside = middle ++ other :: inside')
      (hinside : Item.Balanced (inside.map Piece.item))
      (hinside' : Item.Balanced (inside'.map Piece.item)) : one = other := by
    rcases List.cons_eq_append_iff.mp hsplit with ⟨-, heq⟩ | ⟨middle, -, rfl⟩
    · exact (List.cons.inj heq).1.symm
    · obtain ⟨item, start, stop⟩ := other
      cases item <;> simp only [Item.isOpening, Bool.false_eq_true] at hother
      rw [List.map_append, List.map_cons] at hinside
      exact absurd hinside hinside'.not_append_opening
  obtain ⟨hopens, outer, inside, rfl, hinside⟩ := hfirst
  obtain ⟨hopens', outer', inside', hsplit, hinside'⟩ := hsecond
  rcases List.append_eq_append_iff.mp hsplit with ⟨middle, -, heq⟩ | ⟨middle, -, heq⟩
  · exact hlater hopens' heq hinside hinside'
  · exact (hlater hopens heq hinside' hinside).symm

theorem Opened.innermost {outer : List Opening} {opening : Opening} {pieces : List Piece}
    (h : Opened pieces (opening :: outer)) :
    ∃ stop, Innermost pieces ⟨.opening opening.kind opening.header, opening.start, stop⟩ := by
  cases h with
  | @opening before inside _ _ _ _ _ stop _ _ hinside =>
      exact ⟨stop, rfl, before, inside, rfl, hinside⟩

theorem Opened.not_innermost {pieces : List Piece} (h : Opened pieces []) (opener : Piece) :
    ¬ Innermost pieces opener := by
  intro hinnermost
  cases h with
  | balanced h =>
      obtain ⟨hopens, outer, inside, rfl, hinside⟩ := hinnermost
      obtain ⟨item, start, stop⟩ := opener
      cases item <;> simp only [Item.isOpening, Bool.false_eq_true] at hopens
      rw [List.map_append, List.map_cons] at h
      exact hinside.not_append_opening h

/-- The fault of a piece with the given pieces before it. -/
inductive Offends (before : List Piece) : Piece → Fault → Prop where
  | openComment (rest : Text) (start stop : Position) :
      Offends before ⟨.openComment rest, start, stop⟩ (.unclosedComment start)
  | openHeader (kind : DefinitionKind) (rest : Text) (start stop : Position) :
      Offends before ⟨.openHeader kind rest, start, stop⟩ (.unclosedDefinition kind [] start)
  | nameless (kind : DefinitionKind) (header : Text) (start stop : Position)
      (hname : (Header.parse header).name = none) :
      Offends before ⟨.opening kind header, start, stop⟩ (.missingName kind start)
  | unexpected (kind : DefinitionKind) (gap : Text) (start stop : Position)
      (hopen : ∀ opener, Innermost before opener →
        ∀ header, opener.item ≠ .opening kind header) :
      Offends before ⟨.closing kind gap, start, stop⟩
        (.unexpectedClosing (Item.closing kind gap).lexeme start)

/-- A closing tag is expected exactly where the stack has its kind on top. -/
theorem Opened.read_closing_eq_error_iff {before : List Piece} {opened : List Opening}
    (h : Opened before opened) {kind : DefinitionKind} {gap : Text} {start stop : Position}
    {fault : Fault} :
    Piece.read opened ⟨.closing kind gap, start, stop⟩ = .error fault ↔
      Offends before ⟨.closing kind gap, start, stop⟩ fault := by
  cases opened with
  | nil =>
      constructor
      · intro hread
        cases hread
        exact .unexpected kind gap start stop fun opener hopener =>
          absurd hopener (h.not_innermost opener)
      · intro hoffends
        cases hoffends
        rfl
  | cons opening outer =>
      obtain ⟨openStop, hinnermost⟩ := h.innermost
      simp only [Piece.read]
      constructor
      · intro hread
        split at hread
        · cases hread
        · next hkind =>
            cases hread
            refine .unexpected kind gap start stop fun opener hopener header hitem => ?_
            rw [← innermost_unique hinnermost hopener] at hitem
            exact hkind (Item.opening.inj hitem).1.symm
      · intro hoffends
        cases hoffends with
        | unexpected _ _ _ _ hopen =>
            have hkind : kind ≠ opening.kind := by
              rintro rfl
              exact hopen _ hinnermost _ rfl
            rw [if_neg hkind]

theorem Opened.read_eq_error_iff {before : List Piece} {opened : List Opening}
    (h : Opened before opened) {piece : Piece} {fault : Fault} :
    Piece.read opened piece = .error fault ↔ Offends before piece fault := by
  obtain ⟨item, start, stop⟩ := piece
  cases item with
  | closing kind gap => exact h.read_closing_eq_error_iff
  | leaf part =>
      constructor
      · intro hread
        cases hread
      · intro hoffends
        cases hoffends
  | openComment rest =>
      constructor
      · intro hread
        cases hread
        exact .openComment rest start stop
      · intro hoffends
        cases hoffends
        rfl
  | openHeader kind rest =>
      constructor
      · intro hread
        cases hread
        exact .openHeader kind rest start stop
      · intro hoffends
        cases hoffends
        rfl
  | opening kind header =>
      simp only [Piece.read]
      constructor
      · intro hread
        cases hname : (Header.parse header).name with
        | none =>
            simp only [Header.signature?, hname, Option.map_none] at hread
            cases hread
            exact .nameless kind header start stop hname
        | some name =>
            simp only [Header.signature?, hname, Option.map_some] at hread
            cases hread
      · intro hoffends
        cases hoffends with
        | nameless _ _ _ _ hname => simp only [Header.signature?, hname, Option.map_none]

/-- No piece of the run offends. -/
def Clean (pieces : List Piece) : Prop :=
  ∀ before piece behind fault, pieces = before ++ piece :: behind →
    ¬ Offends before piece fault

/-- The fault is that of a piece that offends while no piece before it does. -/
def LeftmostOffence (pieces : List Piece) (fault : Fault) : Prop :=
  ∃ before piece behind, pieces = before ++ piece :: behind ∧
    Clean before ∧ Offends before piece fault

/-- The fault is that of the innermost definition that is open at the end. -/
def LeavesOpen (pieces : List Piece) (fault : Fault) : Prop :=
  ∃ kind header name start stop, Innermost pieces ⟨.opening kind header, start, stop⟩ ∧
    (Header.parse header).name = some name ∧ fault = .unclosedDefinition kind name start

theorem clean_of_readAll {pieces : List Piece} {opened : List Opening}
    (h : readAll [] pieces = .ok opened) : Clean pieces := by
  rintro before piece behind fault rfl hoffends
  rw [readAll_append] at h
  cases hbefore : readAll [] before with
  | error other =>
      rw [hbefore] at h
      cases h
  | ok reached =>
      have hpiece := (opened_of_readAll hbefore).read_eq_error_iff.mpr hoffends
      rw [hbefore] at h
      simp only [readAll, hpiece] at h
      cases h

theorem readAll_eq_error_iff {pieces : List Piece} {fault : Fault} :
    readAll [] pieces = .error fault ↔ LeftmostOffence pieces fault := by
  constructor
  · intro h
    obtain ⟨before, piece, behind, reached, rfl, hbefore, hpiece⟩ :=
      exists_of_readAll_eq_error h
    exact ⟨before, piece, behind, rfl, clean_of_readAll hbefore,
      (opened_of_readAll hbefore).read_eq_error_iff.mp hpiece⟩
  · rintro ⟨before, piece, behind, rfl, hclean, hoffends⟩
    cases hbefore : readAll [] before with
    | error other =>
        obtain ⟨first, stopped, after, reached, rfl, hfirst, hstopped⟩ :=
          exists_of_readAll_eq_error hbefore
        have hother := (opened_of_readAll hfirst).read_eq_error_iff.mp hstopped
        exact absurd hother (hclean first stopped after other rfl)
    | ok reached =>
        exact readAll_append_error hbefore
          ((opened_of_readAll hbefore).read_eq_error_iff.mpr hoffends)

theorem Opened.name_eq {pieces : List Piece} {opening : Opening} {outer : List Opening}
    (h : Opened pieces (opening :: outer)) :
    (Header.parse opening.header).name = some opening.signature.name := by
  cases h with
  | opening houter hsignature hinside =>
      simp only [Header.signature?, Option.map_eq_some_iff] at hsignature
      obtain ⟨name, hname, rfl⟩ := hsignature
      exact hname

theorem Opened.leavesOpen_iff {pieces : List Piece} {opened : List Opening}
    (h : Opened pieces opened) {fault : Fault} :
    LeavesOpen pieces fault ↔ opened.head?.map Opening.unclosed = some fault := by
  cases opened with
  | nil =>
      constructor
      · rintro ⟨kind, header, name, start, stop, hinnermost, -⟩
        exact absurd hinnermost (h.not_innermost _)
      · intro hnone
        cases hnone
  | cons opening outer =>
      obtain ⟨openStop, hinnermost⟩ := h.innermost
      constructor
      · rintro ⟨kind, header, name, start, stop, hother, hname, rfl⟩
        have heq := innermost_unique hinnermost hother
        simp only [Piece.mk.injEq, Item.opening.injEq] at heq
        obtain ⟨⟨rfl, rfl⟩, rfl, -⟩ := heq
        rw [h.name_eq, Option.some.injEq] at hname
        rw [← hname]
        rfl
      · intro hfault
        cases hfault
        exact ⟨opening.kind, opening.header, opening.signature.name, opening.start, openStop,
          hinnermost, h.name_eq, rfl⟩

theorem endFault?_readAll_iff {pieces : List Piece} {fault : Fault} :
    endFault? (readAll [] pieces) = some fault ↔
      LeftmostOffence pieces fault ∨ Clean pieces ∧ LeavesOpen pieces fault := by
  cases hread : readAll [] pieces with
  | error other =>
      have hleftmost := readAll_eq_error_iff.mp hread
      obtain ⟨before, piece, behind, rfl, hclean, hoffends⟩ := hleftmost
      constructor
      · intro hfault
        cases hfault
        exact .inl ⟨before, piece, behind, rfl, hclean, hoffends⟩
      · rintro (hother | ⟨hnone, -⟩)
        · rw [← readAll_eq_error_iff, hread, Except.error.injEq] at hother
          rw [hother]
          rfl
        · exact absurd hoffends (hnone before piece behind other rfl)
  | ok opened =>
      have hclean := clean_of_readAll hread
      have hleaves : LeavesOpen pieces fault ↔ opened.head?.map Opening.unclosed = some fault :=
        (opened_of_readAll hread).leavesOpen_iff
      constructor
      · intro hfault
        exact .inr ⟨hclean, hleaves.mpr hfault⟩
      · rintro (⟨before, piece, behind, rfl, -, hoffends⟩ | ⟨-, hopen⟩)
        · exact absurd hoffends (hclean before piece behind fault rfl)
        · exact hleaves.mp hopen

end Piece

namespace Outline

theorem parse_eq_error_iff {source : Text} {fault : Fault} :
    parse source = .error fault ↔
      Piece.LeftmostOffence (Piece.locate .origin (Item.scan source)) fault ∨
        Piece.Clean (Piece.locate .origin (Item.scan source)) ∧
          Piece.LeavesOpen (Piece.locate .origin (Item.scan source)) fault := by
  rw [parse, Levels.outline_eq_error_iff, Levels.fault?_ofPieces, Piece.endFault?_readAll_iff]

end Outline

end TemplateDocs
