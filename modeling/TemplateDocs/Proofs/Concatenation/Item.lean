import Mathlib.Data.List.TakeWhile
import TemplateDocs.Proofs.Template.Location
import TemplateDocs.Proofs.Template.Token

/-!
# The items of two sources in a row

An item with an end of its own ends there whatever is written behind it, and every
other item ends where the next one starts.  So when the last item of a source has an end
of its own, the items of what is written behind the source are found as if it stood alone
(`scan_append`).
-/

namespace TemplateDocs

namespace Text

/-- A text in front settles whether a lead stands there, unless the text is too short. -/
theorem after?_append_of_settled {lead text : Text} (h : text <+: lead → text = lead)
    (behind : Text) : after? lead (text ++ behind) = (after? lead text).map (· ++ behind) := by
  induction lead generalizing text with
  | nil => rfl
  | cons expected lead ih =>
      cases text with
      | nil => cases h (List.nil_prefix)
      | cons c text =>
          by_cases hc : expected = c
          · subst hc
            have hsettled : text <+: lead → text = lead := fun hfront =>
              (List.cons.inj (h ((List.prefix_cons_inj expected).mpr hfront))).2
            simpa [after?] using ih hsettled
          · simp [after?, hc]

theorem after?_append_of_mem {mark : Char} {lead text : Text} (htext : mark ∈ text)
    (hlead : mark ∉ lead) (behind : Text) :
    after? lead (text ++ behind) = (after? lead text).map (· ++ behind) :=
  after?_append_of_settled (fun hfront => absurd (hfront.subset htext) hlead) behind

theorem after?_append_of_splitAt? {mark text before rest : Text}
    (h : splitAt? mark text = some (before, rest)) (behind : Text) :
    after? mark (text ++ behind) = (after? mark text).map (· ++ behind) := by
  apply after?_append_of_settled
  intro hfront
  refine hfront.eq_of_length_le ?_
  rw [eq_append_of_splitAt? h]
  simp only [List.length_append]
  omega

theorem splitAt?_append {mark text before rest : Text}
    (h : splitAt? mark text = some (before, rest)) (behind : Text) :
    splitAt? mark (text ++ behind) = some (before, rest ++ behind) := by
  induction text generalizing before with
  | nil =>
      have hafter := after?_append_of_splitAt? h behind
      simp only [splitAt?, Option.map_eq_some_iff, Prod.mk.injEq] at h
      obtain ⟨tail, htail, rfl, rfl⟩ := h
      rw [htail, List.nil_append] at hafter
      cases behind <;> simp [splitAt?, hafter]
  | cons c text ih =>
      have hafter := after?_append_of_splitAt? h behind
      rw [List.cons_append] at hafter ⊢
      rw [splitAt?] at h ⊢
      cases hfound : after? mark (c :: text) with
      | some tail =>
          simp only [hfound, Option.some.injEq, Prod.mk.injEq] at h
          obtain ⟨rfl, rfl⟩ := h
          simp [hafter, hfound]
      | none =>
          simp only [hfound, Option.map_eq_some_iff, Prod.mk.injEq] at h
          obtain ⟨found, hsplit, rfl, rfl⟩ := h
          simp [hafter, hfound, ih hsplit]

end Text

namespace Tag

theorem close?_append {scan : Scan} {text body rest : Text}
    (h : close? scan text = some (body, rest)) (behind : Text) :
    close? scan (text ++ behind) = some (body, rest ++ behind) := by
  induction text generalizing scan body with
  | nil => cases h
  | cons c text ih =>
      rw [List.cons_append, close?]
      rw [close?] at h
      split at h
      · next hend =>
          simp only [Option.some.injEq, Prod.mk.injEq] at h
          obtain ⟨rfl, rfl⟩ := h
          rw [if_pos hend]
      · next hend =>
          simp only [Option.map_eq_some_iff, Prod.mk.injEq] at h
          obtain ⟨found, hfound, rfl, rfl⟩ := h
          rw [if_neg hend, ih hfound]
          rfl

theorem split?_append {text body rest : Text} (h : split? text = some (body, rest))
    (behind : Text) : split? (text ++ behind) = some (body, rest ++ behind) :=
  close?_append h behind

theorem startsHere_append_of_startsHere {text : Text} (h : startsHere text = true)
    (behind : Text) : startsHere (text ++ behind) = true := by
  rw [RawToken.startsHere_iff] at h ⊢
  obtain ⟨token, lexeme, htoken, hfront, hspells⟩ := h
  exact ⟨token, lexeme, htoken, hfront.trans (List.prefix_append text behind), hspells⟩

theorem startsHere_append {text : Text} (h : '<' ∈ text.tail) (behind : Text) :
    startsHere (text ++ behind) = startsHere text := by
  rw [Bool.eq_iff_iff]
  refine ⟨fun hstarts => ?_, fun hstarts => startsHere_append_of_startsHere hstarts behind⟩
  rw [RawToken.startsHere_iff] at hstarts ⊢
  obtain ⟨token, lexeme, htoken, hfront, hspells⟩ := hstarts
  have htext : text <+: text ++ behind := List.prefix_append text behind
  rcases List.prefix_or_prefix_of_prefix htext hfront with hlong | hshort
  · have hmem : '<' ∈ lexeme.tail := by
      obtain ⟨tail, rfl⟩ := hlong
      cases text with
      | nil => cases h
      | cons c text => simp_all
    exact absurd hmem hspells.notMem_tail
  · exact ⟨token, lexeme, htoken, hshort, hspells⟩

end Tag

namespace Item

/-- An item with an end of its own: a comment, or a tag of a definition. -/
def isSealed : Item → Bool
  | leaf (.comment _) | opening _ _ | closing _ _ => true
  | _ => false

/-- What is found is complete: it has an end of its own, or something follows it. -/
def Complete (found : Item × Text) : Prop :=
  found.1.isSealed = true ∨ found.2 ≠ []

/-- With more text behind it a reader finds the same again, if that is complete. -/
def Carries (text behind : Text) (read : Text → Option (Item × Text)) : Prop :=
  (∀ found ∈ read text, Complete found) →
    read (text ++ behind) = (read text).map (Prod.map id (· ++ behind))

theorem Carries.or {text behind : Text} {first second : Text → Option (Item × Text)}
    (hfirst : Carries text behind first) (hsecond : Carries text behind second) :
    Carries text behind fun text => (first text).or (second text) := by
  intro h
  cases hfound : first text with
  | some found =>
      have hcomplete : ∀ found ∈ first text, Complete found := by simpa [hfound] using h
      simp [hfirst hcomplete, hfound]
  | none =>
      have hnone : ∀ found ∈ first text, Complete found := by simp [hfound]
      have hcomplete : ∀ found ∈ second text, Complete found := by simpa [hfound] using h
      simp [hfirst hnone, hfound, hsecond hcomplete]

theorem Carries.getD {text behind : Text} {read : Text → Option (Item × Text)}
    {other : Text → Item × Text} (hread : Carries text behind read)
    (hother : Complete (other text) → other (text ++ behind) = (other text).map id (· ++ behind))
    (h : Complete ((read text).getD (other text))) :
    (read (text ++ behind)).getD (other (text ++ behind)) =
      ((read text).getD (other text)).map id (· ++ behind) := by
  cases hfound : read text with
  | some found =>
      rw [hfound, Option.getD_some] at h
      rw [hread (by simpa [hfound] using h), hfound]
      rfl
  | none =>
      rw [hfound, Option.getD_none] at h
      rw [hread (by simp [hfound]), hfound]
      exact hother h

theorem carries_comment? {text : Text} (hmark : '>' ∈ text) (behind : Text) :
    Carries text behind comment? := by
  have hlead : '>' ∉ Tag.commentOpen := by decide
  intro h
  unfold comment? at h ⊢
  rw [Text.after?_append_of_mem hmark hlead]
  cases hinside : Text.after? Tag.commentOpen text with
  | none => rfl
  | some inside =>
      cases hsplit : Text.splitAt? Tag.commentClose inside with
      | some found =>
          obtain ⟨body, rest⟩ := found
          simp [hsplit, Text.splitAt?_append hsplit]
      | none => simp [hinside, hsplit, Complete, isSealed] at h

theorem notMem_closingLead (kind : DefinitionKind) : '>' ∉ closingLead kind := by
  cases kind <;> decide

theorem notMem_openingLead (kind : DefinitionKind) : '>' ∉ openingLead kind := by
  cases kind <;> decide

theorem dropWhile_isGap_ne_nil {text : Text} (hmark : '>' ∈ text) :
    text.dropWhile Text.isGap ≠ [] := by
  intro hnil
  have hgap := List.dropWhile_eq_nil_iff.mp hnil '>' hmark
  cases hgap

theorem carries_closing? {text : Text} (hmark : '>' ∈ text) (behind : Text)
    (kind : DefinitionKind) : Carries text behind (closing? kind) := by
  have hlead := notMem_closingLead kind
  intro _
  rw [closing?_eq, closing?_eq, Text.after?_append_of_mem hmark hlead]
  cases hinside : Text.after? (closingLead kind) text with
  | none => rfl
  | some inside =>
      rw [Text.eq_append_of_after? hinside, List.mem_append] at hmark
      have hne := dropWhile_isGap_ne_nil (hmark.resolve_left hlead)
      have hdrop : (inside ++ behind).dropWhile Text.isGap =
          inside.dropWhile Text.isGap ++ behind := by
        simp [List.dropWhile_append, hne]
      have htake : (inside ++ behind).takeWhile Text.isGap = inside.takeWhile Text.isGap := by
        have hlength := congrArg List.length
          (List.takeWhile_append_dropWhile (p := Text.isGap) (l := inside))
        have hpos := List.length_pos_iff.mpr hne
        rw [List.length_append] at hlength
        rw [List.takeWhile_append, if_neg (by omega)]
      have hend : inside.dropWhile Text.isGap <+: ['>'] → inside.dropWhile Text.isGap = ['>'] :=
        fun hfront => hfront.eq_of_length_le (List.length_pos_iff.mpr hne)
      simp only [Option.map_some, Option.bind_some, hdrop, htake,
        Text.after?_append_of_settled hend, Option.map_map]
      rfl

theorem carries_opening? {text : Text} (hmark : '>' ∈ text) (behind : Text)
    (kind : DefinitionKind) : Carries text behind (opening? kind) := by
  have hlead := notMem_openingLead kind
  intro h
  unfold opening? at h ⊢
  rw [Text.after?_append_of_mem hmark hlead]
  cases hinside : Text.after? (openingLead kind) text with
  | none => rfl
  | some inside =>
      rw [Text.eq_append_of_after? hinside, List.mem_append] at hmark
      have hstarts : startsHeader (inside ++ behind) = startsHeader inside := by
        obtain ⟨c, rest, rfl⟩ :=
          List.exists_cons_of_ne_nil (List.ne_nil_of_mem (hmark.resolve_left hlead))
        rfl
      simp only [Option.map_some, Option.bind_some, hstarts]
      cases hheader : startsHeader inside with
      | false => rfl
      | true =>
          cases hsplit : Tag.split? inside with
          | some found =>
              obtain ⟨header, rest⟩ := found
              simp [Tag.split?_append hsplit]
          | none => simp [hinside, hheader, hsplit, Complete, isSealed] at h

theorem otherTag_append {text : Text} (h : Complete (otherTag text)) (behind : Text) :
    otherTag (text ++ behind) = (otherTag text).map id (· ++ behind) := by
  unfold otherTag at h ⊢
  cases hsplit : Tag.split? text with
  | some found =>
      obtain ⟨body, rest⟩ := found
      simp [Tag.split?_append hsplit]
  | none => simp [hsplit, Complete, isSealed] at h

theorem getLast?_lexeme_of_isSealed {item : Item} (h : item.isSealed = true) :
    item.lexeme.getLast? = some '>' := by
  cases item with
  | leaf part => cases part <;> simp_all [isSealed, lexeme, Leaf.lexeme, Tag.commentClose]
  | opening kind header => simp [lexeme]
  | closing kind gap => simp [lexeme]
  | openComment rest => cases h
  | openHeader kind rest => cases h

theorem mem_of_isSealed_tagItem {text : Text} (h : (tagItem text).1.isSealed = true) :
    '>' ∈ text := by
  rw [← lexeme_append_tagItem text]
  exact List.mem_append_left _ (List.mem_of_getLast? (getLast?_lexeme_of_isSealed h))

/-- What has no end of its own runs to the end of the source, or is a tag of no interest. -/
theorem isSealed_tagItem_or (text : Text) :
    (tagItem text).1.isSealed = true ∨ (tagItem text).2 = [] ∨
      tagItem text = otherTag text := by
  rcases tagItem_cases text with h | ⟨kind, h⟩ | ⟨kind, h⟩ | h
  · simp only [comment?, Option.map_eq_some_iff] at h
    obtain ⟨inside, -, h⟩ := h
    split at h <;> simp [← h, isSealed]
  · simp only [closing?, Option.bind_eq_some_iff] at h
    obtain ⟨inside, -, h⟩ := h
    split at h
    · simp [← Option.some.inj h, isSealed]
    · cases h
  · simp only [opening?, Option.bind_eq_some_iff] at h
    obtain ⟨inside, -, h⟩ := h
    split at h
    · split at h <;> simp [← Option.some.inj h, isSealed]
    · cases h
  · exact .inr (.inr h)

theorem mem_of_complete {text : Text} (h : Complete (tagItem text)) : '>' ∈ text := by
  rcases h with hsealed | hrest
  · exact mem_of_isSealed_tagItem hsealed
  rcases isSealed_tagItem_or text with hsealed | hnil | hother
  · exact mem_of_isSealed_tagItem hsealed
  · exact absurd hnil hrest
  · rw [hother, otherTag] at hrest
    cases hsplit : Tag.split? text with
    | some found => simp [Tag.eq_append_of_split? hsplit]
    | none => simp [hsplit] at hrest

theorem tagItem_append {text : Text} (h : Complete (tagItem text)) (behind : Text) :
    tagItem (text ++ behind) = (tagItem text).map id (· ++ behind) := by
  have hmark := mem_of_complete h
  have hclosing := carries_closing? hmark behind
  have hopening := carries_opening? hmark behind
  have hreaders := (carries_comment? hmark behind).or <| (hclosing .macroDef).or <|
    (hclosing .functionDef).or <| (hopening .macroDef).or (hopening .functionDef)
  exact hreaders.getD (fun hother => otherTag_append hother behind) h

theorem startsHere_append_of_textRun {text : Text} (h : Tag.startsHere text = false)
    (hrest : (textRun text).2 ≠ []) (behind : Text) :
    Tag.startsHere (text ++ behind) = false := by
  cases text with
  | nil => exact absurd rfl hrest
  | cons c text =>
      have hfound : (textRun (c :: text)).2 = (textRun text).2 := by simp [textRun, h]
      rw [hfound] at hrest
      obtain ⟨d, rest, hcons⟩ := List.exists_cons_of_ne_nil hrest
      have hstarts := startsHere_textRun hrest
      have hmark : d = '<' := by
        by_contra hne
        rw [hcons, RawToken.startsHere_cons_of_ne hne] at hstarts
        cases hstarts
      have hmem : '<' ∈ (c :: text).tail := by
        rw [List.tail_cons, ← textRun_append text, hcons, hmark]
        simp
      rw [Tag.startsHere_append hmem, h]

theorem textRun_append_of_ne_nil {text : Text} (h : (textRun text).2 ≠ []) (behind : Text) :
    textRun (text ++ behind) = (textRun text).map id (· ++ behind) := by
  induction text with
  | nil => exact absurd rfl h
  | cons c text ih =>
      cases hstarts : Tag.startsHere (c :: text) with
      | true =>
          have hmore := Tag.startsHere_append_of_startsHere hstarts behind
          rw [List.cons_append] at hmore ⊢
          simp [textRun, hstarts, hmore]
      | false =>
          have hrest : (textRun text).2 ≠ [] := by simpa [textRun, hstarts] using h
          have hmore := startsHere_append_of_textRun hstarts h behind
          rw [List.cons_append] at hmore ⊢
          simp [textRun, hstarts, hmore, ih hrest]

theorem next_append {text : Text} (h : Complete (next text)) (behind : Text) :
    next (text ++ behind) = (next text).map id (· ++ behind) := by
  unfold next at h ⊢
  cases hstarts : Tag.startsHere text with
  | true =>
      rw [Tag.startsHere_append_of_startsHere hstarts]
      exact tagItem_append (by simpa [hstarts] using h) behind
  | false =>
      have hrest : (textRun text).2 ≠ [] := by simpa [hstarts, Complete, isSealed] using h
      rw [startsHere_append_of_textRun hstarts hrest]
      simp [textRun_append_of_ne_nil hrest]

def EndsSealed (source : Text) : Prop :=
  ∀ item ∈ (scan source).getLast?, item.isSealed = true

theorem EndsSealed.getLast?_ne {source : Text} (h : EndsSealed source) :
    source.getLast? ≠ some '\r' := by
  rw [← flatMap_lexeme_scan source]
  cases hlast : (scan source).getLast? with
  | none =>
      rw [List.getLast?_eq_none_iff.mp hlast]
      simp
  | some item =>
      obtain ⟨before, hscan⟩ := List.getLast?_eq_some_iff.mp hlast
      have hend := getLast?_lexeme_of_isSealed (h item hlast)
      simp [hscan, List.flatMap_append, List.getLast?_append, hend]

/-- The items of two sources in a row are those of the first and those of the second. -/
theorem scan_append {text : Text} (h : EndsSealed text) (behind : Text) :
    scan (text ++ behind) = scan text ++ scan behind := by
  -- An item takes at least one character, so the induction is on what is left of the text.
  induction hlength : text.length using Nat.strongRecOn generalizing text with
  | ind length ih =>
      subst hlength
      by_cases hne : text = []
      · subst hne
        rfl
      rw [EndsSealed, scan_of_ne_nil hne] at h
      rw [scan_of_ne_nil hne, scan_of_ne_nil (List.append_ne_nil_of_left_ne_nil hne behind)]
      -- The last item has an end of its own, and behind every other one comes another.
      by_cases hrest : (next text).2 = []
      · have hsealed : (next text).1.isSealed = true := by simpa [hrest, scan] using h
        simp [next_append (.inl hsealed), hrest, scan]
      · have hlast : EndsSealed (next text).2 := by
          intro item hitem
          apply h item
          rw [Option.mem_def] at hitem ⊢
          rw [List.getLast?_cons, hitem, Option.getD_some]
        have hscan := ih _ (tiles_next.length_lt hne) hlast rfl
        simp [next_append (.inr hrest), hscan]

end Item

end TemplateDocs
