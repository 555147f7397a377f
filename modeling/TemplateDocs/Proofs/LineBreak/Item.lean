import TemplateDocs.Proofs.LineBreak.Text
import TemplateDocs.Proofs.Template.Token

/-!
# Line breaks between and inside items

Returns change neither where a comment or a tag starts nor where it ends, so the
items of a source with returns are those of the source, each with returns.
-/

namespace TemplateDocs

open Text

namespace Tag

/-- A scan inside quotes remembers a quote, never a break. -/
def Scan.IsProper : Scan → Prop
  | plain _ => True
  | quoted quote _ => isQuote quote = true
  | escaped quote _ => isQuote quote = true

theorem Scan.IsProper.next {scan : Scan} (h : scan.IsProper) (c : Char) :
    (scan.next c).IsProper := by
  cases scan with
  | plain depth =>
      by_cases hquote : isQuote c = true
      · rw [Scan.next, if_pos hquote]
        exact hquote
      · rw [Scan.next, if_neg hquote]
        repeat' split
        all_goals trivial
  | quoted quote depth =>
      by_cases hslash : c = '\\'
      · rw [Scan.next, if_pos hslash]
        exact h
      by_cases hquote : c = quote
      · rw [Scan.next, if_neg hslash, if_pos hquote]
        trivial
      · rw [Scan.next, if_neg hslash, if_neg hquote]
        exact h
  | escaped quote depth => exact h

/-- Behind a break of two characters the scan stands where it stands behind the feed. -/
theorem Scan.IsProper.next_next {scan : Scan} (h : scan.IsProper) :
    (scan.next '\r').next '\n' = scan.next '\n' := by
  cases scan with
  | plain depth => rfl
  | quoted quote depth =>
      obtain ⟨hreturn, hfeed⟩ := ne_of_isQuote h
      simp [Scan.next, hreturn, hfeed]
  | escaped quote depth =>
      obtain ⟨-, hfeed⟩ := ne_of_isQuote h
      simp [Scan.next, hfeed]

theorem close?_withReturns {scan : Scan} (h : scan.IsProper) (text : Text) :
    close? scan text.withReturns =
      (close? scan text).map (Prod.map Text.withReturns Text.withReturns) := by
  induction text generalizing scan with
  | nil => rfl
  | cons c rest ih =>
      by_cases hc : c = '\n'
      · subst hc
        rw [withReturns_break]
        simp only [close?, h.next_next, ih (h.next '\n')]
        simp [Function.comp_def, Prod.map]
      · rw [withReturns_cons hc]
        by_cases hend : (scan = .plain 0 && c = '>') = true
        · simp [close?, hend]
        · simp [close?, hend, ih (h.next c), Function.comp_def, Prod.map, withReturns_cons hc]

theorem split?_withReturns (text : Text) :
    split? text.withReturns =
      (split? text).map (Prod.map Text.withReturns Text.withReturns) := by
  have hstart : (Scan.plain 0).IsProper := trivial
  exact close?_withReturns hstart text

/-- Does a sigil stand here, and the first character of a name behind it? -/
def startsName : Text → Bool
  | sigil :: c :: _ => isSigil sigil && isNameStart c
  | _ => false

theorem startsName_withReturns (text : Text) :
    startsName text.withReturns = startsName text := by
  rcases text with _ | ⟨sigil, rest⟩
  · rfl
  by_cases hsigil : sigil = '\n'
  · subst hsigil
    rcases rest with _ | ⟨c, rest⟩ <;> rfl
  rcases rest with _ | ⟨c, rest⟩
  · rw [withReturns_cons hsigil]
    rfl
  by_cases hc : c = '\n'
  · subst hc
    rw [withReturns_cons hsigil]
    rfl
  · rw [withReturns_cons hsigil, withReturns_cons hc]
    rfl

theorem startsDirective_eq (text : Text) :
    startsDirective text =
      (after? ['<'] text).any fun rest => startsName ((after? ['/'] rest).getD rest) := by
  rcases text with _ | ⟨a, rest⟩
  · rfl
  by_cases ha : a = '<'
  · subst ha
    rcases rest with _ | ⟨b, rest⟩
    · rfl
    by_cases hb : b = '/'
    · subst hb
      rcases rest with _ | ⟨c, _ | ⟨d, rest⟩⟩ <;> rfl
    · rcases rest with _ | ⟨c, _ | ⟨d, rest⟩⟩ <;>
        simp [startsDirective, after?, startsName, hb, Ne.symm hb]
  · rw [after?_cons_of_ne (Ne.symm ha)]
    simp [startsDirective, ha]

theorem startsDirective_withReturns (text : Text) :
    startsDirective text.withReturns = startsDirective text := by
  have hstart : IsUnbroken ['<'] := by decide
  have hslash : IsUnbroken ['/'] := by decide
  simp only [startsDirective_eq, after?_withReturns hstart, after?_withReturns hslash,
    Option.any_map, Option.getD_map, startsName_withReturns]

theorem startsHere_withReturns (text : Text) :
    startsHere text.withReturns = startsHere text := by
  have hopen : IsUnbroken commentOpen := by decide
  rw [startsHere, startsHere, startsWith_withReturns hopen, startsDirective_withReturns]

end Tag

def Leaf.withReturns : Leaf → Leaf
  | text run => text run.withReturns
  | comment body => comment body.withReturns
  | tag lexeme => tag lexeme.withReturns

namespace Item

def withReturns : Item → Item
  | leaf part => leaf part.withReturns
  | opening kind header => opening kind header.withReturns
  | closing kind gap => closing kind gap.withReturns
  | openComment rest => openComment rest.withReturns
  | openHeader kind rest => openHeader kind rest.withReturns

theorem isUnbroken_openingLead (kind : DefinitionKind) : IsUnbroken (openingLead kind) := by
  cases kind <;> decide

theorem isUnbroken_closingLead (kind : DefinitionKind) : IsUnbroken (closingLead kind) := by
  cases kind <;> decide

theorem startsHeader_withReturns (text : Text) :
    startsHeader text.withReturns = startsHeader text := by
  rcases text with _ | ⟨c, rest⟩
  · rfl
  · by_cases hc : c = '\n'
    · subst hc
      rfl
    · rw [withReturns_cons hc]
      rfl

theorem comment?_withReturns (text : Text) :
    comment? text.withReturns =
      (comment? text).map (Prod.map Item.withReturns Text.withReturns) := by
  have hopen : IsUnbroken Tag.commentOpen := by decide
  have hclose : IsUnbroken Tag.commentClose := by decide
  rw [comment?, comment?, after?_withReturns hopen, Option.map_map, Option.map_map]
  congr 1
  funext inside
  have hsplit := splitAt?_withReturns hclose inside
  simp only [Function.comp_def, Tag.commentClose, hsplit]
  cases splitAt? ['-', '-', '>'] inside with
  | some found => rfl
  | none => rfl

theorem closing?_withReturns (kind : DefinitionKind) (text : Text) :
    closing? kind text.withReturns =
      (closing? kind text).map (Prod.map Item.withReturns Text.withReturns) := by
  have hend : IsUnbroken ['>'] := by decide
  rw [closing?_eq, closing?_eq, after?_withReturns (isUnbroken_closingLead kind)]
  cases after? (closingLead kind) text with
  | none => rfl
  | some inside =>
      simp only [Option.map_some, Option.bind_some, dropWhile_isGap_withReturns,
        takeWhile_isGap_withReturns, after?_withReturns hend, Option.map_map]
      rfl

theorem opening?_withReturns (kind : DefinitionKind) (text : Text) :
    opening? kind text.withReturns =
      (opening? kind text).map (Prod.map Item.withReturns Text.withReturns) := by
  rw [opening?, opening?, after?_withReturns (isUnbroken_openingLead kind)]
  cases after? (openingLead kind) text with
  | none => rfl
  | some inside =>
      simp only [Option.map_some, Option.bind_some, startsHeader_withReturns,
        Tag.split?_withReturns]
      cases startsHeader inside with
      | false => rfl
      | true =>
          cases Tag.split? inside with
          | none => rfl
          | some found => rfl

theorem otherTag_withReturns (text : Text) :
    otherTag text.withReturns =
      (otherTag text).map Item.withReturns Text.withReturns := by
  rw [otherTag, otherTag, Tag.split?_withReturns]
  cases Tag.split? text with
  | none => rfl
  | some found => simp [withReturns, Leaf.withReturns, withReturns_cons]

theorem tagItem_withReturns (text : Text) :
    tagItem text.withReturns = (tagItem text).map Item.withReturns Text.withReturns := by
  simp only [tagItem, comment?_withReturns, closing?_withReturns, opening?_withReturns,
    otherTag_withReturns, ← Option.map_or, Option.getD_map]

theorem textRun_withReturns (text : Text) :
    textRun text.withReturns = (textRun text).map Text.withReturns Text.withReturns := by
  induction text with
  | nil => rfl
  | cons c rest ih =>
      by_cases hc : c = '\n'
      · subst hc
        have hreturn (rest : Text) : Tag.startsHere ('\r' :: rest) = false :=
          RawToken.startsHere_cons_of_ne (by decide) rest
        have hfeed (rest : Text) : Tag.startsHere ('\n' :: rest) = false :=
          RawToken.startsHere_cons_of_ne (by decide) rest
        simp [textRun, hreturn, hfeed, ih]
      · have hstarts := Tag.startsHere_withReturns (c :: rest)
        rw [withReturns_cons hc] at hstarts ⊢
        rw [textRun, textRun, hstarts]
        cases Tag.startsHere (c :: rest) with
        | true => simp [withReturns_cons hc]
        | false => simp [withReturns_cons hc, ih]

theorem next_withReturns (text : Text) :
    next text.withReturns = (next text).map Item.withReturns Text.withReturns := by
  rw [next, next, Tag.startsHere_withReturns]
  cases Tag.startsHere text with
  | true => exact tagItem_withReturns text
  | false =>
      simp only [textRun_withReturns]
      rfl

theorem scan_withReturns {source : Text} (h : PlainBreaks source) :
    scan source.withReturns = (scan source).map withReturns :=
  tiles_next.cut_withReturns (fun text _ => next_withReturns text) h

theorem lexeme_withReturns (item : Item) : item.withReturns.lexeme = item.lexeme.withReturns := by
  have hend : IsUnbroken ['>'] := by decide
  have hcommentOpen : IsUnbroken Tag.commentOpen := by decide
  have hcommentClose : IsUnbroken Tag.commentClose := by decide
  cases item with
  | leaf part =>
      cases part with
      | text run => rfl
      | comment body =>
          simp [withReturns, lexeme, Leaf.withReturns, Leaf.lexeme, hcommentOpen.withReturns_eq,
            hcommentClose.withReturns_eq]
      | tag lexeme => rfl
  | opening kind header =>
      simp [withReturns, lexeme, (isUnbroken_openingLead kind).withReturns_eq, hend.withReturns_eq]
  | closing kind gap =>
      simp [withReturns, lexeme, (isUnbroken_closingLead kind).withReturns_eq, hend.withReturns_eq]
  | openComment rest => simp [withReturns, lexeme, hcommentOpen.withReturns_eq]
  | openHeader kind rest =>
      simp [withReturns, lexeme, (isUnbroken_openingLead kind).withReturns_eq]

end Item

end TemplateDocs
