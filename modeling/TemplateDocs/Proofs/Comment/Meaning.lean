import Mathlib.Data.List.Forall2
import Mathlib.Data.List.Induction
import TemplateDocs.Comment.Basic
import TemplateDocs.Proofs.Comment.Line

/-!
# The meaning of a comment

A comment is read line by line with the open parameter carried along.  What comes out can
be said without the reading: the last value of each tag, each parameter once and described
by the block of its last declaration, and the text outside all blocks
(`DocComment.parse_means`).
-/

namespace TemplateDocs

namespace CommentLine

def valueOf? (name : Text) : CommentLine → Option Text
  | tag other value => if other = name then some value else none
  | _ => none

def declared? : CommentLine → Option Text
  | param name _ => some name
  | _ => none

def captured? : CommentLine → Option Text
  | blank captured | text captured => some captured
  | _ => none

/-- A block ends before the next declaration and at the next blank line. -/
def endsBlock : CommentLine → Bool
  | param .. | blank _ => true
  | _ => false

def IsOneLine : CommentLine → Prop
  | param _ description => '\n' ∉ description
  | blank captured | text captured => '\n' ∉ captured
  | tag .. => True

theorem Classifies.isOneLine {line : Text} {kind : CommentLine} (h : Classifies line kind)
    (hline : '\n' ∉ line) : kind.IsOneLine := by
  have hcaptured {captured : Text} (h : Captures line captured) : '\n' ∉ captured := by
    rcases h with ⟨indent, inner, shown, rfl, -, -, hshown, rfl⟩
    have hmem : '\n' ∉ shown := by
      rcases hshown with rfl | ⟨-, rfl⟩ <;> simp_all
    split <;> simp [hmem]
  cases h with
  | param h =>
      rcases h with ⟨gap, text, ⟨indent, middle, between, rfl, -⟩, -, -, tail, rfl, -, -, -, rfl⟩
      intro hmem
      have htail := (List.dropWhile_suffix Text.isBlank).subset hmem
      exact hline (by simp [htail])
  | tag hparam h => trivial
  | blank hparam htag hblank h => exact hcaptured h
  | text hparam htag hblank h => exact hcaptured h

end CommentLine

namespace DocComment

open CommentLine (declared? captured? endsBlock valueOf? IsOneLine)

def declaredNames (lines : List CommentLine) : List Text :=
  lines.filterMap declared?

/-- The texts of the block that a declaration opens, the lines behind it given. -/
def blockTexts (behind : List CommentLine) : List Text :=
  (behind.takeWhile fun line => !line.endsBlock).filterMap captured?

def describedBy (first : Text) (texts : List Text) : Text :=
  if texts = [] then first
  else (if first = [] then [] else first ++ ['\n']) ++ texts.flatMap (· ++ ['\n'])

/-- The parameter whose block is open behind the lines: the last bound of a block is its own. -/
def openName (before : List CommentLine) : Option Text :=
  (before.filter endsBlock).getLast?.bind declared?

/-- What a line adds to the body: its text, unless it stands in a block or closes one. -/
def bodyPart (before : List CommentLine) (line : CommentLine) : Text :=
  if (openName before).isSome then [] else line.captured?.getD []

def bodyBehind (before : List CommentLine) : List CommentLine → Text
  | [] => []
  | line :: rest => bodyPart before line ++ bodyBehind (before ++ [line]) rest

/-- A parameter described by its last declaration and the block behind it. -/
def IsDescribed (lines : List CommentLine) (param : Param) : Prop :=
  ∃ before first behind, lines = before ++ .param param.name first :: behind ∧
    param.name ∉ declaredNames behind ∧
    param.description = describedBy first (blockTexts behind)

def IsFirstSentence (text sentence : Text) : Prop :=
  (∃ before behind, text = before ++ '.' :: behind ∧ '.' ∉ before ∧ sentence = before ++ ['.']) ∨
    '.' ∉ text ∧ sentence = text

/-- What a comment with these lines says. -/
structure Means (lines : List CommentLine) (comment : DocComment) : Prop where
  /-- A tag has the value of its last line, and what no line sets has none. -/
  tags : ∀ name, comment.tags.get? name = (lines.filterMap (valueOf? name)).getLast?
  distinct : (comment.params.map Param.name).Nodup
  /-- The parameters stand in the order of their first declarations. -/
  names : comment.params.map Param.name = (declaredNames lines).eraseDups
  described : ∀ param ∈ comment.params, IsDescribed lines param
  body : comment.comment = bodyBehind [] lines
  summary : IsFirstSentence comment.comment comment.summary

/-! ## Blocks -/

theorem openName_concat (before : List CommentLine) (line : CommentLine) :
    openName (before ++ [line]) = if line.endsBlock then line.declared? else openName before := by
  unfold openName
  rw [List.filter_append]
  cases hends : line.endsBlock <;> simp [hends]

theorem openName_append_param (before behind : List CommentLine) (name first : Text) :
    openName (before ++ .param name first :: behind) =
      if behind.any endsBlock then openName behind else some name := by
  have hfilter : (before ++ .param name first :: behind).filter endsBlock =
      before.filter endsBlock ++ .param name first :: behind.filter endsBlock := by
    rw [List.filter_append, List.filter_cons_of_pos rfl]
  unfold openName
  rw [hfilter, List.getLast?_append, List.getLast?_cons, Option.some_or]
  split
  · next hany =>
      have hne : behind.filter endsBlock ≠ [] := by
        rw [List.any_eq_true] at hany
        rcases hany with ⟨line, hline, hends⟩
        exact List.ne_nil_of_mem (List.mem_filter.mpr ⟨hline, hends⟩)
      rw [List.getLast?_eq_some_getLast hne]
      rfl
  · next hany =>
      have hnil : behind.filter endsBlock = [] := by
        rw [List.filter_eq_nil_iff]
        intro line hline hends
        exact hany (List.any_eq_true.mpr ⟨line, hline, hends⟩)
      rw [hnil]
      rfl

/-- Behind a declaration that is not repeated only its own block or none of its name is open. -/
theorem any_endsBlock_of_openName {before behind : List CommentLine} {name first : Text}
    (hlast : name ∉ declaredNames behind) :
    openName (before ++ .param name first :: behind) = some name ↔
      behind.any endsBlock = false := by
  rw [openName_append_param]
  split
  · next hany =>
      have hne : openName behind ≠ some name := by
        intro hopen
        rw [openName, Option.bind_eq_some_iff] at hopen
        rcases hopen with ⟨line, hline, hname⟩
        have hmem := (List.mem_filter.mp (List.mem_of_getLast? hline)).1
        exact hlast (List.mem_filterMap.mpr ⟨line, hmem, hname⟩)
      simp [hne, hany]
  · next hany => simp [Bool.eq_false_iff.mpr hany]

theorem blockTexts_concat (behind : List CommentLine) (line : CommentLine) :
    blockTexts (behind ++ [line]) =
      if behind.any endsBlock || line.endsBlock then blockTexts behind
      else blockTexts behind ++ line.captured?.toList := by
  unfold blockTexts
  induction behind with
  | nil =>
      cases hends : line.endsBlock
      · cases hcaptured : line.captured? <;> simp [hends, hcaptured]
      · simp [hends]
  | cons first rest ih =>
      cases hfirst : first.endsBlock with
      | true => simp [hfirst]
      | false =>
          simp only [List.cons_append, List.takeWhile_cons, hfirst, Bool.not_false, if_true,
            List.filterMap_cons, ih, List.any_cons, Bool.false_or]
          cases rest.any endsBlock || line.endsBlock <;> cases first.captured? <;> rfl

theorem bodyBehind_concat (before lines : List CommentLine) (line : CommentLine) :
    bodyBehind before (lines ++ [line]) =
      bodyBehind before lines ++ bodyPart (before ++ lines) line := by
  induction lines generalizing before with
  | nil => simp [bodyBehind]
  | cons first rest ih => simp [bodyBehind, ih]

theorem declaredNames_concat (lines : List CommentLine) (line : CommentLine) :
    declaredNames (lines ++ [line]) = declaredNames lines ++ line.declared?.toList := by
  unfold declaredNames
  rw [List.filterMap_append, List.filterMap_cons]
  cases line.declared? <;> rfl

/-! ## Descriptions -/

theorem getLast?_describedBy {first : Text} {texts : List Text} (h : texts ≠ []) :
    (describedBy first texts).getLast? = some '\n' := by
  rcases List.eq_nil_or_concat texts with rfl | ⟨before, last, rfl⟩
  · exact absurd rfl h
  · simp [describedBy]

theorem extend_describedBy {first : Text} (hfirst : '\n' ∉ first) (texts : List Text)
    (captured : Text) :
    extend (describedBy first texts) (captured ++ ['\n']) =
      describedBy first (texts ++ [captured]) := by
  unfold extend
  by_cases htexts : texts = []
  · by_cases hnil : first = []
    · simp [describedBy, htexts, hnil]
    · have hlast : first.getLast? ≠ some '\n' :=
        fun hlast => hfirst (List.mem_of_getLast? hlast)
      simp [describedBy, htexts, hnil, hlast]
  · rw [getLast?_describedBy htexts]
    simp [describedBy, htexts]

theorem names_describe (name line : Text) (params : List Param) :
    (describe name line params).map Param.name = params.map Param.name := by
  unfold describe
  rw [List.map_map]
  apply List.map_congr_left
  intro param _
  by_cases hname : param.name = name <;> simp [hname]

theorem names_declare (name description : Text) (params : List Param) :
    (declare name description params).map Param.name =
      if name ∈ params.map Param.name then params.map Param.name
      else params.map Param.name ++ [name] := by
  induction params with
  | nil => rfl
  | cons param rest ih =>
      unfold declare
      by_cases hname : param.name = name
      · simp [hname]
      · simp only [hname, if_false, List.map_cons, ih, List.mem_cons, Ne.symm hname, false_or]
        split <;> rfl

theorem mem_declare {name description : Text} {params : List Param}
    (hdistinct : (params.map Param.name).Nodup) {param : Param}
    (h : param ∈ declare name description params) :
    param = ⟨name, description⟩ ∨ param ∈ params ∧ param.name ≠ name := by
  induction params with
  | nil => exact .inl (List.mem_singleton.mp h)
  | cons first rest ih =>
      rw [List.map_cons, List.nodup_cons] at hdistinct
      unfold declare at h
      split at h
      · next hname =>
          rcases List.mem_cons.mp h with hnew | hrest
          · exact .inl hnew
          · refine .inr ⟨List.mem_cons_of_mem first hrest, fun heq => hdistinct.1 ?_⟩
            rw [hname, ← heq]
            exact List.mem_map_of_mem hrest
      · next hname =>
          rcases List.mem_cons.mp h with hfirst | hrest
          · exact .inr ⟨hfirst ▸ List.mem_cons_self, hfirst ▸ hname⟩
          · rcases ih hdistinct.2 hrest with hnew | hold
            · exact .inl hnew
            · exact .inr ⟨List.mem_cons_of_mem first hold.1, hold.2⟩

/-! ## Reading line by line -/

/-- The draft holds what the lines say that have been read. -/
structure Draft.Holds (lines : List CommentLine) (draft : Draft) : Prop where
  tags : ∀ name, draft.tags.get? name = (lines.filterMap (valueOf? name)).getLast?
  distinct : (draft.params.map Param.name).Nodup
  names : draft.params.map Param.name = (declaredNames lines).eraseDups
  described : ∀ param ∈ draft.params, IsDescribed lines param
  body : draft.body.filter (· != '\n') = bodyBehind [] lines
  current : draft.current = openName lines

theorem Draft.holds_start : Holds [] Draft.start where
  tags _ := rfl
  distinct := List.nodup_nil
  names := rfl
  described _ h := nomatch h
  body := rfl
  current := rfl

theorem IsDescribed.concat {lines : List CommentLine} {param : Param} {line : CommentLine}
    (h : IsDescribed lines param) (hname : line.declared? ≠ some param.name)
    (hblock : line.endsBlock = true ∨ line.captured? = none ∨ openName lines ≠ some param.name) :
    IsDescribed (lines ++ [line]) param := by
  rcases h with ⟨before, first, behind, rfl, hlast, hdescription⟩
  have htexts : blockTexts (behind ++ [line]) = blockTexts behind := by
    rw [blockTexts_concat]
    rcases hblock with hends | hnone | hopen
    · simp [hends]
    · simp [hnone]
    · have hany : behind.any endsBlock = true := by
        rw [← Bool.not_eq_false, ← any_endsBlock_of_openName hlast]
        exact hopen
      simp only [hany, Bool.true_or, if_true]
  refine ⟨before, first, behind ++ [line], by simp, ?_, by rw [hdescription, htexts]⟩
  rw [declaredNames_concat, List.mem_append, not_or]
  refine ⟨hlast, fun hmem => hname ?_⟩
  cases hdeclared : line.declared? <;> simp_all

theorem IsDescribed.addText {lines : List CommentLine} {param : Param}
    (h : IsDescribed lines param) (hlines : ∀ line ∈ lines, line.IsOneLine)
    (hopen : openName lines = some param.name) (captured : Text) :
    IsDescribed (lines ++ [.text captured])
      { param with description := extend param.description (captured ++ ['\n']) } := by
  rcases h with ⟨before, first, behind, rfl, hlast, hdescription⟩
  have hfirst : '\n' ∉ first := hlines (.param param.name first) (by simp)
  have hany := (any_endsBlock_of_openName hlast).mp hopen
  have htexts : blockTexts (behind ++ [.text captured]) = blockTexts behind ++ [captured] := by
    rw [blockTexts_concat, hany]
    rfl
  refine ⟨before, first, behind ++ [.text captured], by simp, ?_, ?_⟩
  · rw [declaredNames_concat]
    simpa [declared?] using hlast
  · rw [htexts, ← extend_describedBy hfirst, ← hdescription]

section Read

variable {lines : List CommentLine} {draft : Draft}

theorem Draft.Holds.readParam (h : draft.Holds lines) (name description : Text) :
    (draft.read (.param name description)).Holds (lines ++ [.param name description]) where
  tags other := by simpa [Draft.read, valueOf?] using h.tags other
  distinct := by
    simp only [Draft.read, names_declare]
    split
    · exact h.distinct
    · next hnew =>
        rw [List.nodup_append]
        refine ⟨h.distinct, by simp, fun old hold new hone heq => hnew ?_⟩
        rw [← List.mem_singleton.mp hone, ← heq]
        exact hold
  names := by
    have hmem : name ∈ draft.params.map Param.name ↔ name ∈ declaredNames lines := by
      rw [h.names, List.mem_eraseDups]
    simp only [Draft.read, names_declare]
    rw [declaredNames_concat, List.eraseDups_append, ← h.names]
    by_cases hold : name ∈ declaredNames lines
    · simp [hmem, hold, declared?, List.removeAll]
    · simp [hmem, hold, declared?, List.removeAll, List.eraseDups_cons]
  described param hparam := by
    rcases mem_declare h.distinct hparam with rfl | hold
    · exact ⟨lines, description, [], rfl, List.not_mem_nil, rfl⟩
    · have hne : some name ≠ some param.name := fun heq => hold.2 (Option.some.inj heq).symm
      exact (h.described param hold.1).concat hne (.inl rfl)
  body := by simpa [Draft.read, bodyBehind_concat, bodyPart, captured?] using h.body
  current := by simp [Draft.read, openName_concat, endsBlock, declared?]

theorem Draft.Holds.readTag (h : draft.Holds lines) (name value : Text) :
    (draft.read (.tag name value)).Holds (lines ++ [.tag name value]) where
  tags other := by
    simp only [Draft.read, Keyed.insert, Keyed.get?_update, List.filterMap_append, h.tags]
    by_cases hname : other = name
    · simp [valueOf?, hname]
    · simp [valueOf?, hname, Ne.symm hname]
  distinct := h.distinct
  names := by
    rw [declaredNames_concat]
    simpa [Draft.read, declared?] using h.names
  described param hparam :=
    (h.described param hparam).concat (fun heq => nomatch heq) (.inr (.inl rfl))
  body := by simpa [Draft.read, bodyBehind_concat, bodyPart, captured?] using h.body
  current := by simpa [Draft.read, openName_concat, endsBlock] using h.current

theorem Draft.Holds.addBody (h : draft.Holds lines) (hclosed : draft.current = none)
    {line : CommentLine} {captured : Text} (hline : line = .blank captured ∨ line = .text captured)
    (hplain : '\n' ∉ captured) : (draft.addText captured).Holds (lines ++ [line]) := by
  have hopen : openName lines = none := h.current ▸ hclosed
  have hfilter : captured.filter (· != '\n') = captured := by
    rw [List.filter_eq_self]
    intro c hc
    exact bne_iff_ne.mpr fun heq => hplain (heq ▸ hc)
  unfold Draft.addText
  rw [hclosed]
  constructor
  · intro name
    rcases hline with rfl | rfl <;> simpa [valueOf?] using h.tags name
  · exact h.distinct
  · rw [declaredNames_concat]
    rcases hline with rfl | rfl <;> simpa [declared?] using h.names
  · intro param hparam
    refine (h.described param hparam).concat ?_ (.inr (.inr ?_))
    · rcases hline with rfl | rfl <;> exact fun heq => nomatch heq
    · rw [hopen]
      exact fun heq => nomatch heq
  · rw [bodyBehind_concat, bodyPart, List.nil_append, hopen]
    rcases hline with rfl | rfl <;> simp [captured?, h.body, hfilter]
  · rw [openName_concat]
    rcases hline with rfl | rfl <;> simp [endsBlock, declared?, hopen]

theorem Draft.Holds.closeBlock (h : draft.Holds lines) {name : Text}
    (hopen : draft.current = some name) (captured : Text) :
    Draft.Holds (lines ++ [.blank captured])
      { draft with body := draft.body ++ ['\n'], current := none } where
  tags other := by simpa [valueOf?] using h.tags other
  distinct := h.distinct
  names := by
    rw [declaredNames_concat]
    simpa [declared?] using h.names
  described param hparam := (h.described param hparam).concat (fun heq => nomatch heq) (.inl rfl)
  body := by
    rw [bodyBehind_concat, bodyPart, List.nil_append, ← h.current, hopen]
    simp [h.body]
  current := by simp [openName_concat, endsBlock, declared?]

theorem Draft.Holds.addDescription (h : draft.Holds lines)
    (hlines : ∀ line ∈ lines, line.IsOneLine) {name : Text} (hopen : draft.current = some name)
    (captured : Text) : (draft.addText captured).Holds (lines ++ [.text captured]) := by
  have hname : openName lines = some name := h.current ▸ hopen
  unfold Draft.addText
  rw [hopen]
  dsimp only
  constructor
  · intro other
    simpa [valueOf?] using h.tags other
  · simpa only [names_describe] using h.distinct
  · rw [declaredNames_concat]
    simpa [names_describe, declared?] using h.names
  · intro param hparam
    rcases List.mem_map.mp hparam with ⟨old, hold, rfl⟩
    have hdescribed := h.described old hold
    split
    · next heq => exact hdescribed.addText hlines (heq ▸ hname) captured
    · next hne =>
        refine hdescribed.concat (fun heq => nomatch heq) (.inr (.inr ?_))
        rw [hname]
        exact fun heq => hne (Option.some.inj heq).symm
  · rw [bodyBehind_concat, bodyPart, List.nil_append, hname]
    simp [h.body]
  · rw [openName_concat]
    exact hname.symm

/-- What one more line does to what a draft holds. -/
theorem Draft.Holds.read (h : draft.Holds lines) (hlines : ∀ line ∈ lines, line.IsOneLine)
    {line : CommentLine} (hline : line.IsOneLine) :
    (draft.read line).Holds (lines ++ [line]) := by
  cases line with
  | param name description => exact h.readParam name description
  | tag name value => exact h.readTag name value
  | blank captured =>
      unfold Draft.read
      cases hcurrent : draft.current with
      | none => exact h.addBody hcurrent (.inl rfl) hline
      | some name => exact h.closeBlock hcurrent captured
  | text captured =>
      unfold Draft.read
      cases hcurrent : draft.current with
      | none => exact h.addBody hcurrent (.inr rfl) hline
      | some name => exact h.addDescription hlines hcurrent captured

theorem Draft.holds_foldl {lines : List CommentLine} (hlines : ∀ line ∈ lines, line.IsOneLine) :
    (lines.foldl Draft.read Draft.start).Holds lines := by
  induction lines using List.reverseRecOn with
  | nil => exact Draft.holds_start
  | append_singleton before line ih =>
      have hbefore : ∀ other ∈ before, other.IsOneLine :=
        fun other hother => hlines other (List.mem_append_left _ hother)
      rw [List.foldl_concat]
      exact (ih hbefore).read hbefore (hlines line (by simp))

end Read

/-! ## The whole comment -/

theorem isFirstSentence_firstSentence (text : Text) :
    IsFirstSentence text (firstSentence text) := by
  induction text with
  | nil => exact .inr ⟨List.not_mem_nil, rfl⟩
  | cons c rest ih =>
      unfold firstSentence
      split
      · next hc => exact .inl ⟨[], rest, by rw [hc]; rfl, List.not_mem_nil, rfl⟩
      · next hc =>
          rcases ih with ⟨before, behind, hrest, hbefore, hsentence⟩ | ⟨hnone, hsentence⟩
          · refine .inl ⟨c :: before, behind, by rw [hrest]; rfl, ?_, by rw [hsentence]; rfl⟩
            simp [hbefore, Ne.symm hc]
          · exact .inr ⟨by simp [hnone, Ne.symm hc], by rw [hsentence]⟩

theorem Draft.Holds.means {lines : List CommentLine} {draft : Draft} (h : draft.Holds lines) :
    Means lines draft.finish where
  tags := h.tags
  distinct := h.distinct
  names := h.names
  described := h.described
  body := h.body
  summary := isFirstSentence_firstSentence _

theorem forall₂_classifies_iff {lines : List Text} {found : List CommentLine} :
    List.Forall₂ CommentLine.Classifies lines found ↔ found = lines.map CommentLine.ofText := by
  induction lines generalizing found with
  | nil => simp
  | cons line rest ih =>
      simp only [List.forall₂_cons_left_iff, CommentLine.classifies_iff, ih, List.map_cons]
      constructor
      · intro h
        rcases h with ⟨kind, kinds, rfl, rfl, rfl⟩
        rfl
      · intro h
        exact ⟨_, _, rfl, rfl, h⟩

/--
What a comment says, line by line.  There is one way only to break a text into lines and one
kind only for each line, and of these kinds the comment has its tags, its parameters, its
body and its first sentence.
-/
theorem parse_means (text : Text) :
    ∃ lines kinds, (∀ found, Text.BreaksInto text found ↔ found = lines) ∧
      (∀ found, List.Forall₂ CommentLine.Classifies lines found ↔ found = kinds) ∧
      Means kinds (parse text) := by
  refine ⟨Text.lines text, (Text.lines text).map CommentLine.ofText,
    fun _ => Text.breaksInto_iff, fun _ => forall₂_classifies_iff, ?_⟩
  have hlines : ∀ kind ∈ (Text.lines text).map CommentLine.ofText, kind.IsOneLine := by
    intro kind hkind
    rcases List.mem_map.mp hkind with ⟨line, hline, rfl⟩
    have hunbroken := (Text.breaksInto_lines text).isUnbroken line hline
    exact (CommentLine.classifies_iff.mpr rfl).isOneLine fun hmem => (hunbroken _ hmem).2 rfl
  have hholds := Draft.holds_foldl hlines
  rw [List.foldl_map] at hholds
  exact hholds.means

end DocComment

end TemplateDocs
