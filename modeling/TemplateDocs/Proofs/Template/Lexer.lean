import TemplateDocs.Proofs.Template.Token

/-!
# Lexing a template

The longest token that starts a text is found by trying the tokens in turn, longer ones first;
where none fits, the start of one is passed over.  What is found is what the rules for tokens
say (`leads_of_lex`, `stuck_of_lex`).
-/

namespace TemplateDocs

namespace RawToken

def fixedToken? (token : RawToken) (lead source : Text) : Option (RawToken × Text) :=
  if Text.startsWith lead source then some (token, lead) else none

def closingToken? (kind : DefinitionKind) (source : Text) : Option (RawToken × Text) :=
  (Item.closing? kind source).map fun found => (closing kind, found.1.lexeme)

def directiveToken? : Text → Option (RawToken × Text)
  | '<' :: '/' :: sigil :: c :: _ =>
      if Tag.isSigil sigil && Tag.isNameStart c then
        some (directive, ['<', '/', sigil, c])
      else
        none
  | '<' :: sigil :: c :: _ =>
      if Tag.isSigil sigil && Tag.isNameStart c then some (directive, ['<', sigil, c]) else none
  | _ => none

def tagToken? (source : Text) : Option (RawToken × Text) :=
  (fixedToken? commentOpen Tag.commentOpen source).or <|
  (closingToken? .macroDef source).or <|
  (closingToken? .functionDef source).or <|
  (fixedToken? (opening .macroDef) (Item.openingLead .macroDef) source).or <|
  (fixedToken? (opening .functionDef) (Item.openingLead .functionDef) source).or <|
  directiveToken? source

/-- The starts of a token that hold no token yet, shorter ones first. -/
def starts : List Text :=
  [['<'], ['<', '#'], ['<', '@'], ['<', '/'], ['<', '/', '#'], ['<', '/', '@'], ['<', '#', '-']]

/-- What is passed over of a text that starts with no token: the longest start of one. -/
def passedOver (source : Text) : Text :=
  (starts.filter (·.isPrefixOf source)).getLast?.getD (source.take 1)

def lex (source : Text) : Option RawToken × Text :=
  match tagToken? source with
  | some found => (some found.1, found.2)
  | none =>
      if (source.takeWhile (· != '<')).isEmpty then
        (none, passedOver source)
      else
        (some text, source.takeWhile (· != '<'))

theorem spells_of_fixedToken? {token found : RawToken} {lead source lexeme : Text}
    (hspells : token.Spells lead) (htext : token ≠ .text)
    (h : fixedToken? token lead source = some (found, lexeme)) :
    lexeme <+: source ∧ found.Spells lexeme ∧ found ≠ .text := by
  unfold fixedToken? at h
  split at h
  · next hstarts =>
      cases h
      rcases Option.isSome_iff_exists.mp hstarts with ⟨rest, hrest⟩
      exact ⟨⟨rest, (Text.eq_append_of_after? hrest).symm⟩, hspells, htext⟩
  · cases h

theorem spells_of_closingToken? {kind : DefinitionKind} {found : RawToken} {source lexeme : Text}
    (h : closingToken? kind source = some (found, lexeme)) :
    lexeme <+: source ∧ found.Spells lexeme ∧ found ≠ .text := by
  rw [closingToken?, Option.map_eq_some_iff] at h
  rcases h with ⟨⟨item, rest⟩, hclosing, heq⟩
  cases heq
  refine ⟨⟨rest, Item.lexeme_append_of_closing? hclosing⟩, ?_, RawToken.noConfusion⟩
  rw [Item.closing?, Option.bind_eq_some_iff] at hclosing
  rcases hclosing with ⟨inside, -, hinside⟩
  split at hinside
  · cases hinside
    exact .closing kind fun c hc => List.all_eq_true.mp List.all_takeWhile c hc
  · cases hinside

theorem spells_of_directiveToken? {found : RawToken} {source lexeme : Text}
    (h : directiveToken? source = some (found, lexeme)) :
    lexeme <+: source ∧ found.Spells lexeme ∧ found ≠ .text := by
  unfold directiveToken? at h
  split at h
  · next sigil c rest =>
      split at h
      · next hname =>
          cases h
          rw [Bool.and_eq_true] at hname
          exact ⟨⟨rest, rfl⟩, .endTag hname.1 hname.2, RawToken.noConfusion⟩
      · cases h
  · next sigil c rest hslash =>
      split at h
      · next hname =>
          cases h
          rw [Bool.and_eq_true] at hname
          exact ⟨⟨rest, rfl⟩, .startTag hname.1 hname.2, RawToken.noConfusion⟩
      · cases h
  · cases h

theorem spells_of_tagToken? {found : RawToken} {source lexeme : Text}
    (h : tagToken? source = some (found, lexeme)) :
    lexeme <+: source ∧ found.Spells lexeme ∧ found ≠ .text := by
  simp only [tagToken?, Option.or_eq_some_iff] at h
  rcases h with h | ⟨-, h | ⟨-, h | ⟨-, h | ⟨-, h | ⟨-, h⟩⟩⟩⟩⟩
  · exact spells_of_fixedToken? .commentOpen RawToken.noConfusion h
  · exact spells_of_closingToken? h
  · exact spells_of_closingToken? h
  · exact spells_of_fixedToken? (.opening .macroDef) RawToken.noConfusion h
  · exact spells_of_fixedToken? (.opening .functionDef) RawToken.noConfusion h
  · exact spells_of_directiveToken? h

/-! ## The longest token -/

theorem four_le_of_spells {token : RawToken} {lexeme : Text} (h : token.Spells lexeme)
    (hdirective : token ≠ .directive) (htext : token ≠ .text) : 4 ≤ lexeme.length := by
  cases h with
  | commentOpen => exact Nat.le_refl 4
  | opening kind => cases kind <;> decide
  | @closing kind gap hgap =>
      have hlead : 4 ≤ (Item.closingLead kind).length := by cases kind <;> decide
      rw [List.append_assoc, List.length_append]
      exact Nat.le_add_right_of_le hlead
  | startTag hsigil hname | endTag hsigil hname => exact absurd rfl hdirective
  | text hne hrun => exact absurd rfl htext

theorem exists_mem_or {least : Nat} {first second : Option (RawToken × Text)}
    (hfirst : ∀ found ∈ first, least ≤ found.2.length)
    (hsecond : ∃ found ∈ second, least ≤ found.2.length) :
    ∃ found ∈ first.or second, least ≤ found.2.length := by
  cases first with
  | none => exact hsecond
  | some found => exact ⟨found, rfl, hfirst found rfl⟩

theorem four_le_of_fixedToken? {token : RawToken} {lead source : Text}
    (hlead : 4 ≤ lead.length) : ∀ found ∈ fixedToken? token lead source, 4 ≤ found.2.length := by
  intro found hfound
  unfold fixedToken? at hfound
  split at hfound
  · cases hfound
    exact hlead
  · cases hfound

theorem four_le_of_closingToken? {kind : DefinitionKind} {source : Text} :
    ∀ found ∈ closingToken? kind source, 4 ≤ found.2.length := by
  intro found hfound
  have hspells := (@spells_of_closingToken? kind found.1 source found.2 hfound).2.1
  rw [closingToken?, Option.mem_def, Option.map_eq_some_iff] at hfound
  rcases hfound with ⟨other, -, heq⟩
  rw [← heq] at hspells ⊢
  exact four_le_of_spells hspells RawToken.noConfusion RawToken.noConfusion

theorem exists_tagToken?_of_directive {source : Text} {least : Nat} (hle : least ≤ 4)
    (h : ∃ found ∈ directiveToken? source, least ≤ found.2.length) :
    ∃ found ∈ tagToken? source, least ≤ found.2.length := by
  have hfixed {token : RawToken} {lead : Text} (hlead : 4 ≤ lead.length) :
      ∀ found ∈ fixedToken? token lead source, least ≤ found.2.length :=
    fun found hfound => Nat.le_trans hle (four_le_of_fixedToken? hlead found hfound)
  have hclosing (kind : DefinitionKind) :
      ∀ found ∈ closingToken? kind source, least ≤ found.2.length :=
    fun found hfound => Nat.le_trans hle (four_le_of_closingToken? found hfound)
  exact exists_mem_or (hfixed (by decide)) <| exists_mem_or (hclosing _) <|
    exists_mem_or (hclosing _) <| exists_mem_or (hfixed (by decide)) <|
    exists_mem_or (hfixed (by decide)) h

theorem exists_tagToken?_of_closing (kind : DefinitionKind) {gap : Text}
    (hgap : ∀ c ∈ gap, Text.isGap c = true) (rest : Text) :
    tagToken? (Item.closingLead kind ++ gap ++ ['>'] ++ rest) =
      some (closing kind, Item.closingLead kind ++ gap ++ ['>']) := by
  have hclosing := @Item.closing?_closingLead kind gap hgap rest
  have htoken : closingToken? kind (Item.closingLead kind ++ gap ++ ['>'] ++ rest) =
      some (closing kind, Item.closingLead kind ++ gap ++ ['>']) := by
    rw [closingToken?, hclosing]
    rfl
  cases kind with
  | macroDef =>
      rw [tagToken?, htoken]
      rfl
  | functionDef =>
      have hmacro : closingToken? .macroDef
          (Item.closingLead .functionDef ++ gap ++ ['>'] ++ rest) = none := rfl
      rw [tagToken?, htoken, hmacro]
      rfl

theorem exists_tagToken? {other : RawToken} {source longer : Text} (hlonger : longer <+: source)
    (hspells : other.Spells longer) (hother : other ≠ .text) :
    ∃ found ∈ tagToken? source, longer.length ≤ found.2.length := by
  rcases hlonger with ⟨rest, hsource⟩
  subst hsource
  cases hspells with
  | commentOpen => exact ⟨_, rfl, Nat.le_refl _⟩
  | opening kind => cases kind <;> exact ⟨_, rfl, Nat.le_refl _⟩
  | closing kind hgap => exact ⟨_, exists_tagToken?_of_closing kind hgap rest, Nat.le_refl _⟩
  | @startTag sigil c hsigil hname =>
      refine exists_tagToken?_of_directive (by simp)
        ⟨(directive, ['<', sigil, c]), ?_, Nat.le_refl _⟩
      have hslash : sigil ≠ '/' := by
        intro heq
        rw [heq] at hsigil
        cases hsigil
      simp [directiveToken?, hslash, hsigil, hname]
  | @endTag sigil c hsigil hname =>
      refine exists_tagToken?_of_directive (by simp)
        ⟨(directive, ['<', '/', sigil, c]), ?_, Nat.le_refl _⟩
      simp [directiveToken?, hsigil, hname]
  | text hne hrun => exact absurd rfl hother

theorem length_le_takeWhile {p : Char → Bool} {run source : Text} (h : run <+: source)
    (hrun : ∀ c ∈ run, p c = true) : run.length ≤ (source.takeWhile p).length := by
  rcases h with ⟨rest, hsource⟩
  rw [← hsource, List.takeWhile_append_of_pos hrun, List.length_append]
  exact Nat.le_add_right _ _

theorem head?_eq_of_spells {token : RawToken} {lexeme : Text} (h : token.Spells lexeme)
    (htext : token ≠ .text) : lexeme.head? = some '<' := by
  cases h with
  | text hne hrun => exact absurd rfl htext
  | _ => rfl

theorem not_spells_text {run rest : Text} (hrun : run <+: '<' :: rest) : ¬ Spells .text run := by
  intro htext
  cases htext with
  | text hne hnot =>
      rcases List.exists_cons_of_ne_nil hne with ⟨c, tail, heq⟩
      rw [heq] at hrun
      rw [heq, (List.cons_prefix_cons.mp hrun).1] at hnot
      exact hnot List.mem_cons_self

theorem leads_of_lex {source lexeme : Text} {token : RawToken}
    (h : lex source = (some token, lexeme)) : ∃ rest, Leads source token lexeme rest := by
  unfold lex at h
  split at h
  · next found hfound =>
      cases h
      have hspells := spells_of_tagToken? hfound
      rcases hspells.1 with ⟨rest, hrest⟩
      refine ⟨rest, hrest, hspells.2.1, fun other longer hlonger hother => ?_⟩
      by_cases htext : other = .text
      · subst htext
        rcases List.head?_eq_some_iff.mp (head?_eq_of_spells hspells.2.1 hspells.2.2) with
          ⟨more, hmore⟩
        rw [← hrest, hmore] at hlonger
        exact absurd hother (not_spells_text hlonger)
      · rcases exists_tagToken? hlonger hother htext with ⟨same, hsame, hle⟩
        rw [hfound, Option.mem_some_iff] at hsame
        rwa [hsame]
  · next hnone =>
      split at h
      · cases h
      · next hne =>
          cases h
          have hrun : ∀ c ∈ source.takeWhile (· != '<'), (c != '<') = true :=
            List.all_eq_true.mp List.all_takeWhile
          refine ⟨source.dropWhile (· != '<'), List.takeWhile_append_dropWhile, .text ?_ ?_, ?_⟩
          · simpa using hne
          · intro hmem
            exact absurd (hrun '<' hmem) (by decide)
          · intro other longer hlonger hother
            by_cases htext : other = .text
            · subst htext
              cases hother with
              | text hnonempty hnot =>
                  refine length_le_takeWhile hlonger fun c hc => bne_iff_ne.mpr fun heq => ?_
                  exact hnot (heq ▸ hc)
            · rcases exists_tagToken? hlonger hother htext with ⟨found, hfound, -⟩
              rw [hnone] at hfound
              cases hfound

/-! ## Where no token starts -/

theorem eq_or_of_append {lexeme tail rest : Text} {a b c : Char}
    (h : lexeme ++ tail = a :: b :: c :: rest) :
    lexeme = [] ∨ lexeme = [a] ∨ lexeme = [a, b] ∨
      ∃ more, lexeme = a :: b :: c :: more ∧ more ++ tail = rest := by
  rcases lexeme with _ | ⟨first, _ | ⟨second, _ | ⟨third, more⟩⟩⟩
  · exact .inl rfl
  · cases h
    exact .inr (.inl rfl)
  · cases h
    exact .inr (.inr (.inl rfl))
  · cases h
    exact .inr (.inr (.inr ⟨more, rfl, rfl⟩))

theorem mem_starts_of_isSigil {sigil : Char} (h : Tag.isSigil sigil = true) :
    ['<', sigil] ∈ starts ∧ ['<', '/', sigil] ∈ starts := by
  simp only [Tag.isSigil, Bool.or_eq_true, decide_eq_true_eq] at h
  rcases h with rfl | rfl <;> decide

/-- What starts like a tag that opens is a start, or holds the token of a tag. -/
theorem mem_starts_of_startTag {lexeme tail rest : Text} {sigil c : Char}
    (hsigil : Tag.isSigil sigil = true) (hname : Tag.isNameStart c = true) (hne : lexeme ≠ [])
    (h : lexeme ++ tail = '<' :: sigil :: c :: rest) :
    lexeme ∈ starts ∨ ∃ token found, found <+: lexeme ∧ Spells token found := by
  rcases eq_or_of_append h with heq | heq | heq | ⟨more, heq, -⟩
  · exact absurd heq hne
  · rw [heq]
    exact .inl (by decide)
  · rw [heq]
    exact .inl (mem_starts_of_isSigil hsigil).1
  · rw [heq]
    exact .inr ⟨.directive, ['<', sigil, c], ⟨more, rfl⟩, .startTag hsigil hname⟩

theorem mem_starts_of_endTag {lexeme tail rest : Text} {sigil c : Char}
    (hsigil : Tag.isSigil sigil = true) (hname : Tag.isNameStart c = true) (hne : lexeme ≠ [])
    (h : lexeme ++ tail = '<' :: '/' :: sigil :: c :: rest) :
    lexeme ∈ starts ∨ ∃ token found, found <+: lexeme ∧ Spells token found := by
  rcases eq_or_of_append h with heq | heq | heq | ⟨more, heq, hmore⟩
  · exact absurd heq hne
  · rw [heq]
    exact .inl (by decide)
  · rw [heq]
    exact .inl (by decide)
  · rw [heq]
    cases more with
    | nil => exact .inl (mem_starts_of_isSigil hsigil).2
    | cons d more =>
        rw [List.cons_append, List.cons.injEq] at hmore
        rw [hmore.1]
        exact .inr ⟨.directive, ['<', '/', sigil, c], ⟨more, rfl⟩, .endTag hsigil hname⟩

/-- What may become a token is one of the starts, or holds a token already. -/
theorem mem_starts_of_viable {lexeme : Text} (h : Viable lexeme)
    (hhead : lexeme.head? = some '<') :
    lexeme ∈ starts ∨ ∃ token found, found <+: lexeme ∧ Spells token found := by
  rcases h with ⟨token, tail, hspells⟩
  have hne : lexeme ≠ [] := by
    intro heq
    rw [heq] at hhead
    cases hhead
  generalize hwhole : lexeme ++ tail = whole at hspells
  cases hspells with
  | commentOpen =>
      rcases eq_or_of_append hwhole with heq | heq | heq | ⟨more, heq, hmore⟩
      · exact absurd heq hne
      · rw [heq]
        exact .inl (by decide)
      · rw [heq]
        exact .inl (by decide)
      · rw [heq]
        cases more with
        | nil => exact .inl (by decide)
        | cons d more =>
            rw [List.cons_append, List.cons.injEq] at hmore
            rw [hmore.1]
            exact .inr ⟨.commentOpen, Tag.commentOpen, ⟨more, rfl⟩, .commentOpen⟩
  | opening kind => cases kind <;> exact mem_starts_of_startTag rfl rfl hne hwhole
  | closing kind hgap => cases kind <;> exact mem_starts_of_endTag rfl rfl hne hwhole
  | startTag hsigil hname => exact mem_starts_of_startTag hsigil hname hne hwhole
  | endTag hsigil hname => exact mem_starts_of_endTag hsigil hname hne hwhole
  | text hnonempty hrun =>
      rcases List.head?_eq_some_iff.mp hhead with ⟨more, hmore⟩
      rw [← hwhole, hmore] at hrun
      exact absurd List.mem_cons_self hrun

theorem viable_of_mem_starts {lexeme : Text} (h : lexeme ∈ starts) : Viable lexeme := by
  simp only [starts, List.mem_cons, List.not_mem_nil, or_false] at h
  rcases h with rfl | rfl | rfl | rfl | rfl | rfl | rfl
  · exact ⟨.commentOpen, ['#', '-', '-'], .commentOpen⟩
  · exact ⟨.commentOpen, ['-', '-'], .commentOpen⟩
  · exact ⟨.directive, ['a'], .startTag rfl rfl⟩
  · exact ⟨.directive, ['#', 'a'], .endTag rfl rfl⟩
  · exact ⟨.directive, ['a'], .endTag rfl rfl⟩
  · exact ⟨.directive, ['a'], .endTag rfl rfl⟩
  · exact ⟨.commentOpen, ['-'], .commentOpen⟩

theorem passedOver_longest (rest : Text) :
    passedOver ('<' :: rest) ∈ starts ∧ passedOver ('<' :: rest) <+: '<' :: rest ∧
      ∀ longer ∈ starts, longer <+: '<' :: rest →
        longer.length ≤ (passedOver ('<' :: rest)).length := by
  have hfirst : ['<'] ∈ starts.filter (·.isPrefixOf ('<' :: rest)) :=
    List.mem_filter.mpr ⟨by decide, by simp⟩
  have hsorted : (starts.filter (·.isPrefixOf ('<' :: rest))).Pairwise
      fun shorter longer => shorter.length ≤ longer.length :=
    List.Pairwise.filter _ (by decide)
  have hnonempty := List.ne_nil_of_mem hfirst
  have hlast := List.dropLast_concat_getLast hnonempty
  have hmem := List.getLast_mem hnonempty
  have hpassed : passedOver ('<' :: rest) = List.getLast _ hnonempty := by
    rw [passedOver, List.getLast?_eq_some_getLast hnonempty, Option.getD_some]
  rw [List.mem_filter, List.isPrefixOf_iff_prefix] at hmem
  rw [hpassed]
  refine ⟨hmem.1, hmem.2, fun longer hlonger hprefix => ?_⟩
  have hother : longer ∈ starts.filter (·.isPrefixOf ('<' :: rest)) :=
    List.mem_filter.mpr ⟨hlonger, List.isPrefixOf_iff_prefix.mpr hprefix⟩
  rw [← hlast, List.mem_append, List.mem_singleton] at hother
  rw [← hlast, List.pairwise_append] at hsorted
  rcases hother with hshorter | hsame
  · exact hsorted.2.2 longer hshorter _ (List.mem_singleton_self _)
  · exact Nat.le_of_eq (congrArg List.length hsame)

theorem exists_of_takeWhile_isEmpty {source : Text} (hne : source ≠ [])
    (h : (source.takeWhile (· != '<')).isEmpty = true) : ∃ rest, source = '<' :: rest := by
  rcases List.exists_cons_of_ne_nil hne with ⟨c, rest, hsource⟩
  by_cases hc : c = '<'
  · exact ⟨rest, by rw [hsource, hc]⟩
  · rw [hsource, List.takeWhile_cons_of_pos (by simpa using hc)] at h
    cases h

/-- Where no token is found, none starts, and the longest start of one is passed over. -/
theorem stuck_of_lex {source lexeme : Text} (hne : source ≠ [])
    (h : lex source = (none, lexeme)) : ∃ rest, Stuck source lexeme rest := by
  unfold lex at h
  split at h
  · cases h
  · next hnone =>
      split at h
      · next hempty =>
          rcases exists_of_takeWhile_isEmpty hne hempty with ⟨tail, hsource⟩
          cases h
          rw [hsource] at hnone ⊢
          have hunmatched : ∀ token found, found <+: '<' :: tail → ¬ Spells token found := by
            intro token found hfound hspells
            by_cases htext : token = .text
            · subst htext
              exact not_spells_text hfound hspells
            · rcases exists_tagToken? hfound hspells htext with ⟨other, hother, -⟩
              rw [hnone] at hother
              cases hother
          have hpassed := passedOver_longest tail
          rcases hpassed.2.1 with ⟨rest, hrest⟩
          refine ⟨rest, hrest, hunmatched, ?_, .inl (viable_of_mem_starts hpassed.1), ?_⟩
          · intro hnil
            rw [hnil] at hpassed
            exact absurd hpassed.1 (by decide)
          · intro longer hlonger hviable
            cases longer with
            | nil => exact Nat.zero_le _
            | cons c longer =>
                have hhead : (c :: longer).head? = some '<' := by
                  rw [(List.cons_prefix_cons.mp hlonger).1]
                  rfl
                rcases mem_starts_of_viable hviable hhead with
                  hstart | ⟨token, found, hfound, hspells⟩
                · exact hpassed.2.2 _ hstart hlonger
                · exact absurd hspells (hunmatched token found (hfound.trans hlonger))
      · cases h

end RawToken

end TemplateDocs
