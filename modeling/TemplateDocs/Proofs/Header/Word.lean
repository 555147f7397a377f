import TemplateDocs.Proofs.Header.Quotation
import TemplateDocs.Proofs.LineBreak.Header
import TemplateDocs.Proofs.Template.Location

/-!
# Words of a header

The names that a header lists are words of it, that is, tokens that stand outside its quoted
texts, and no word outside is lost to another token (`Header.ReadsAround`).  Quoted texts are here
those of the scan that found the end of the tag; that the cut into tokens finds the same holds
of every opening tag of a source that escapes no break (`Item.quotedSpans_of_opening`), and of no
other.
-/

namespace TemplateDocs

namespace HeaderToken

def word? : HeaderToken → Option Text
  | ident name => some name
  | _ => none

def words (header : Text) : List (Nat × Text) :=
  (located 0 (tokens header)).filterMap fun entry => entry.2.word?.map (entry.1, ·)

theorem extract_of_mem_located {header : Text} {entry : Nat × HeaderToken}
    (h : entry ∈ located 0 (tokens header)) :
    header.extract entry.1 (entry.1 + entry.2.lexeme.length) = entry.2.lexeme := by
  suffices hall : ∀ offset tokens, header.drop offset = tokens.flatMap lexeme →
      entry ∈ located offset tokens →
        header.extract entry.1 (entry.1 + entry.2.lexeme.length) = entry.2.lexeme from
    hall 0 (tokens header) (flatMap_lexeme_tokens header).symm h
  intro offset tokens htext h
  induction tokens generalizing offset with
  | nil => cases h
  | cons token tokens ih =>
      rw [List.flatMap_cons] at htext
      rcases List.mem_cons.mp h with rfl | h
      · exact Text.extract_of_drop_eq htext
      · exact ih _ (Text.drop_add_of_drop_eq htext) h

theorem word?_eq_some_iff {token : HeaderToken} {name : Text} :
    token.word? = some name ↔ token = ident name := by
  cases token <;> simp [word?]

theorem mem_words_iff {header : Text} {word : Nat × Text} :
    word ∈ words header ↔ (word.1, ident word.2) ∈ located 0 (tokens header) := by
  simp only [words, List.mem_filterMap, Option.map_eq_some_iff, word?_eq_some_iff]
  constructor
  · rintro ⟨⟨offset, token⟩, hentry, name, rfl, rfl⟩
    exact hentry
  · intro h
    exact ⟨_, h, word.2, rfl, rfl⟩

theorem map_snd_words (header : Text) :
    (words header).map Prod.snd = (tokens header).filterMap word? := by
  suffices hall : ∀ offset tokens, ((located offset tokens).filterMap fun entry =>
      entry.2.word?.map (entry.1, ·)).map Prod.snd = tokens.filterMap word? from
    hall 0 (tokens header)
  intro offset tokens
  induction tokens generalizing offset with
  | nil => rfl
  | cons token tokens ih =>
      cases hword : token.word? with
      | none => simp [located, hword, ih]
      | some name => simp [located, hword, ih]

end HeaderToken

namespace Header

open HeaderToken (tokens word? words)

/-- The words of a header that stand beside all spans. -/
def wordsBeside (spans : List (Nat × Nat)) (header : Text) : List (Nat × Text) :=
  (words header).filter fun word =>
    spans.all fun span => word.1 + word.2.length ≤ span.1 || span.2 ≤ word.1

theorem wordsBeside_quotedSpans (header : Text) :
    wordsBeside (HeaderToken.quotedSpans header) header = words header := by
  refine List.filter_eq_self.mpr fun word hword => List.all_eq_true.mpr fun span hspan => ?_
  obtain ⟨entry, hentry, hspan⟩ := List.mem_filterMap.mp hspan
  obtain ⟨⟨quote, body, hquoted⟩, rfl⟩ := HeaderToken.quotedSpan?_eq_some_iff.mp hspan
  have hne : (word.1, .ident word.2) ≠ entry := by
    intro heq
    rw [← heq] at hquoted
    cases hquoted
  have hapart := HeaderToken.apart_of_mem_located (HeaderToken.mem_words_iff.mp hword) hentry hne
  rw [Bool.or_eq_true, decide_eq_true_iff, decide_eq_true_iff]
  exact hapart

theorem arguments_readParameters_sublist (reading : Reading) (tokens : List HeaderToken) :
    (readParameters reading tokens).arguments.Sublist (tokens.filterMap word?) := by
  fun_induction readParameters reading tokens with
  | case1 => exact .slnil
  | case2 reading token rest later hstep ih =>
      exact ih.trans ((List.sublist_cons_self token rest).filterMap word?)
  | case3 reading name rest hstep ih => exact .cons name ih
  | case4 reading name rest hstep ih => exact .cons_cons name ih
  | case5 reading name rest _ _ hstep ih => exact .cons_cons name ih
  | case6 reading token hstep rest _ _ _ ih =>
      exact ih.trans ((List.sublist_cons_self token rest).filterMap word?)

theorem catchAll_readParameters_mem {reading : Reading} {tokens : List HeaderToken} {name : Text}
    (h : (readParameters reading tokens).catchAll = some name) :
    name ∈ tokens.filterMap word? := by
  fun_induction readParameters reading tokens with
  | case1 => cases h
  | case2 reading token rest later hstep ih =>
      exact ((List.sublist_cons_self token rest).filterMap word?).subset (ih h)
  | case3 reading other rest hstep ih =>
      -- A later catch-all has precedence over this one.
      simp only [addCatchAll, Option.or_eq_some_iff, Option.some.injEq] at h
      rcases h with h | ⟨-, rfl⟩
      · exact List.mem_cons_of_mem other (ih h)
      · exact List.mem_cons_self
  | case4 reading other rest hstep ih => exact List.mem_cons_of_mem other (ih h)
  | case5 reading other rest _ _ hstep ih => exact List.mem_cons_of_mem other (ih h)
  | case6 reading token hstep rest _ _ _ ih =>
      exact ((List.sublist_cons_self token rest).filterMap word?).subset (ih h)

theorem filterMap_word?_filter (tokens : List HeaderToken) :
    (tokens.filter fun token => !token.isGap).filterMap word? = tokens.filterMap word? := by
  rw [List.filterMap_filter]
  congr 1
  funext token
  cases token <;> rfl

theorem exists_ofTokens_eq (tokens : List HeaderToken) :
    ∃ rest, rest.Sublist tokens ∧
      ofTokens tokens =
        { readParameters .parameters rest with name := (ofTokens tokens).name } := by
  rcases tokens with _ | ⟨token, rest⟩
  · exact ⟨[], .slnil, rfl⟩
  cases token with
  | ident name => exact ⟨rest, List.sublist_cons_self _ rest, rfl⟩
  | quoted quote body => exact ⟨rest, List.sublist_cons_self _ rest, rfl⟩
  | _ => exact ⟨_, List.Sublist.refl _, rfl⟩

theorem arguments_parse_sublist (header : Text) :
    (parse header).arguments.Sublist ((words header).map Prod.snd) := by
  obtain ⟨rest, hrest, heq⟩ :=
    exists_ofTokens_eq ((tokens header).filter fun token => !token.isGap)
  rw [HeaderToken.map_snd_words, ← filterMap_word?_filter, parse, heq]
  exact (arguments_readParameters_sublist .parameters rest).trans (hrest.filterMap word?)

theorem catchAll_parse_mem {header name : Text} (h : (parse header).catchAll = some name) :
    name ∈ (words header).map Prod.snd := by
  obtain ⟨rest, hrest, heq⟩ :=
    exists_ofTokens_eq ((tokens header).filter fun token => !token.isGap)
  rw [parse, heq] at h
  rw [HeaderToken.map_snd_words, ← filterMap_word?_filter]
  exact (hrest.filterMap word?).subset (catchAll_readParameters_mem h)

theorem mem_of_name_ofTokens {tokens : List HeaderToken} {name : Text}
    (h : (ofTokens tokens).name = some name) :
    .ident name ∈ tokens ∨ ∃ quote, .quoted quote name ∈ tokens := by
  unfold ofTokens at h
  split at h
  · cases h
    exact .inl List.mem_cons_self
  · next quote body rest =>
      cases h
      exact .inr ⟨quote, List.mem_cons_self⟩
  · rw [name_readParameters] at h
    cases h

/-- The name of a header is a word or what stands between the quotes of a quoted token. -/
theorem name_parse_mem {header name : Text} (h : (parse header).name = some name) :
    name ∈ (words header).map Prod.snd ∨ ∃ quote, .quoted quote name ∈ tokens header := by
  rw [HeaderToken.map_snd_words]
  rcases mem_of_name_ofTokens h with hname | ⟨quote, hname⟩
  · exact .inl (List.mem_filterMap.mpr ⟨_, (List.mem_filter.mp hname).1, rfl⟩)
  · exact .inr ⟨quote, (List.mem_filter.mp hname).1⟩

/--
A header is read around spans: the names that it lists are words beside the spans, or, for the
name of the definition, a span without its quotes; and no word beside them is lost to a token
that is not one.
-/
structure ReadsAround (spans : List (Nat × Nat)) (header : Text) : Prop where
  name : ∀ name, (parse header).name = some name →
    name ∈ (wordsBeside spans header).map Prod.snd ∨
      ∃ quote, ∃ span ∈ spans, header.extract span.1 span.2 = quote :: (name ++ [quote])
  arguments : (parse header).arguments.Sublist ((wordsBeside spans header).map Prod.snd)
  catchAll : ∀ name, (parse header).catchAll = some name →
    name ∈ (wordsBeside spans header).map Prod.snd
  shown : ∀ index c, header[index]? = some c → HeaderToken.isIdentStart c = true →
    (∀ span ∈ spans, ¬ (span.1 ≤ index ∧ index < span.2)) →
      ∃ word ∈ wordsBeside spans header, word.1 ≤ index ∧ index < word.1 + word.2.length

/-- Outside the quoted tokens, what can start a word belongs to one. -/
theorem exists_word_of_isIdentStart {header : Text} {stop : Nat}
    (h : (Tag.Scan.plain 0).pass? header = some (.plain stop))
    (hbreak : Tag.escapesBreak header = false) {index : Nat} {c : Char}
    (hc : header[index]? = some c) (hstart : HeaderToken.isIdentStart c = true)
    (houtside : ∀ span ∈ HeaderToken.quotedSpans header, ¬ (span.1 ≤ index ∧ index < span.2)) :
    ∃ word ∈ words header, word.1 ≤ index ∧ index < word.1 + word.2.length := by
  rw [← HeaderToken.flatMap_lexeme_tokens header] at hc
  obtain ⟨⟨offset, token⟩, hentry, hle, hlt, hmem⟩ := HeaderToken.exists_mem_located hc 0
  rw [Nat.zero_add] at hle hlt
  have htoken := HeaderToken.mem_tokens_of_mem_located hentry
  rcases HeaderToken.kind_of_mem_tokens h hbreak htoken with
    ⟨name, rfl⟩ | ⟨quote, body, rfl⟩ | hfiller
  · exact ⟨(offset, name), HeaderToken.mem_words_iff.mpr hentry, hle, hlt⟩
  · have hspan : (offset, offset + (HeaderToken.quoted quote body).lexeme.length) ∈
        HeaderToken.quotedSpans header := List.mem_filterMap.mpr ⟨_, hentry, rfl⟩
    exact absurd ⟨hle, hlt⟩ (houtside _ hspan)
  · rw [(HeaderToken.isSilent_of_isFiller hfiller hmem).2] at hstart
    cases hstart

theorem readsAround_of_escapesBreak_eq_false {header : Text} {stop : Nat}
    (h : (Tag.Scan.plain 0).pass? header = some (.plain stop))
    (hbreak : Tag.escapesBreak header = false) : ReadsAround (Tag.quotedSpans header) header := by
  have hspans : Tag.quotedSpans header = HeaderToken.quotedSpans header :=
    (HeaderToken.quotedSpans_eq_iff h 0 0).mpr hbreak
  have hwords := wordsBeside_quotedSpans header
  rw [hspans]
  constructor
  · intro name hname
    rw [hwords]
    refine (name_parse_mem hname).imp_right ?_
    rintro ⟨quote, hquoted⟩
    obtain ⟨offset, hentry⟩ := HeaderToken.exists_located_of_mem hquoted 0
    refine ⟨quote, _, List.mem_filterMap.mpr ⟨_, hentry, rfl⟩, ?_⟩
    exact HeaderToken.extract_of_mem_located hentry
  · rw [hwords]
    exact arguments_parse_sublist header
  · intro name hname
    rw [hwords]
    exact catchAll_parse_mem hname
  · intro index c hc hstart houtside
    rw [hwords]
    exact exists_word_of_isIdentStart h hbreak hc hstart houtside

end Header

namespace Item

theorem exists_split?_of_tagItem_eq_opening {text header : Text} {kind : DefinitionKind}
    (h : (tagItem text).1 = opening kind header) :
    ∃ inside rest, Tag.split? inside = some (header, rest) := by
  -- Of the ways to read a tag, only `opening?` gives such an item.
  rcases tagItem_cases text with htag | ⟨other, htag⟩ | ⟨other, htag⟩ | htag
  · simp only [comment?, Option.map_eq_some_iff] at htag
    obtain ⟨inside, -, htag⟩ := htag
    rw [← htag] at h
    split at h <;> cases h
  · simp only [closing?, Option.bind_eq_some_iff] at htag
    obtain ⟨inside, -, htag⟩ := htag
    split at htag <;> simp only [Option.some.injEq, reduceCtorEq] at htag
    rw [← htag] at h
    cases h
  · simp only [opening?, Option.bind_eq_some_iff] at htag
    obtain ⟨inside, -, htag⟩ := htag
    split at htag
    · split at htag
      · next found rest hsplit =>
          rw [← Option.some.inj htag] at h
          cases h
          exact ⟨inside, rest, hsplit⟩
      · rw [← Option.some.inj htag] at h
        cases h
    · cases htag
  · rw [htag, otherTag] at h
    split at h <;> cases h

theorem pass?_of_mem_scan {source header : Text} {kind : DefinitionKind}
    (h : opening kind header ∈ scan source) :
    (Tag.Scan.plain 0).pass? header = some (.plain 0) := by
  refine Text.forall_mem_cut (P := fun item => item = opening kind header →
    (Tag.Scan.plain 0).pass? header = some (.plain 0)) (fun text _ hnext => ?_) h rfl
  unfold next at hnext
  split at hnext
  · obtain ⟨inside, rest, hsplit⟩ := exists_split?_of_tagItem_eq_opening hnext
    have hinside := Tag.eq_append_of_split? hsplit
    rw [hinside] at hsplit
    exact Tag.close?_append_eq_some_iff.mp hsplit
  · cases hnext

/--
The scan for the end of a tag and the cut of its header into tokens find the same quoted texts
exactly when the header escapes no break, and then names are read outside of these texts only.
-/
theorem quotedSpans_of_opening {source header : Text} {kind : DefinitionKind}
    (h : opening kind header ∈ scan source) :
    (Tag.quotedSpans header = HeaderToken.quotedSpans header ↔ Tag.escapesBreak header = false) ∧
      (Tag.escapesBreak header = false →
        Header.ReadsAround (Tag.quotedSpans header) header) := by
  have hpass := pass?_of_mem_scan h
  exact ⟨HeaderToken.quotedSpans_eq_iff hpass 0 0,
    Header.readsAround_of_escapesBreak_eq_false hpass⟩

/-- A quoted name, a default with a quote behind a backslash, and one inside brackets. -/
theorem quotedSpans_of_opening_nested : ∃ source header,
    source = "<#macro \"m n\" a=\"x\\\"> 'b\" c=['>', d] rest...></#macro>".toList ∧
      opening .macroDef header ∈ scan source ∧ Tag.escapesBreak header = false ∧
      Tag.quotedSpans header = [(1, 6), (9, 18), (22, 25)] ∧
      HeaderToken.quotedSpans header = Tag.quotedSpans header ∧
      Header.parse header = ⟨some "m n".toList, ["a".toList, "c".toList], some "rest".toList⟩ ∧
      Header.ReadsAround (Tag.quotedSpans header) header := by
  let header : Text := " \"m n\" a=\"x\\\"> 'b\" c=['>', d] rest...".toList
  have hmem : opening .macroDef header ∈
      scan "<#macro \"m n\" a=\"x\\\"> 'b\" c=['>', d] rest...></#macro>".toList := by
    decide +kernel
  have hbreak : Tag.escapesBreak header = false := by decide +kernel
  obtain ⟨hspans, hreads⟩ := quotedSpans_of_opening hmem
  exact ⟨_, header, rfl, hmem, hbreak, by decide +kernel, (hspans.mpr hbreak).symm,
    by decide +kernel, hreads hbreak⟩

/--
With an escaped break the two differ: the scan passes over one quoted text where the cut finds
none.  The reading then takes a parameter out of the text, and loses the one behind it.
-/
theorem quotedSpans_of_escaped_break : ∃ source header,
    source = "<#macro m a=\"x\\\ny z\" b></#macro>".toList ∧
      opening .macroDef header ∈ scan source ∧
      Tag.quotedSpans header = [(5, 13)] ∧ HeaderToken.quotedSpans header = [] ∧
      (Header.parse header).arguments = ["a".toList, "z".toList] ∧
      ¬ Header.ReadsAround (Tag.quotedSpans header) header := by
  let header : Text := " m a=\"x\\\ny z\" b".toList
  refine ⟨_, header, rfl, by decide +kernel, by decide +kernel, by decide +kernel,
    by decide +kernel, fun hreads => ?_⟩
  have harguments := hreads.arguments
  revert harguments
  decide +kernel

end Item

end TemplateDocs
