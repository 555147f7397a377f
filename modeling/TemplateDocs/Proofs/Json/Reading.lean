import TemplateDocs.Proofs.Json.Token

/-!
# Reading JSON

`Written` says which texts are JSON and which value each of them has.  Values are
written as such a text (`written_pretty`), and a reader finds the value of every such
text (`read?_of_written`), so no two values share a text.
-/

namespace TemplateDocs

namespace Json

mutual

def tokens : Json → List Token
  | null => [.null]
  | bool value => [.bool value]
  | number value => [.number value]
  | string value => [.string value]
  | array [] => [.openArray, .closeArray]
  | array (item :: items) =>
      .openArray :: (item.tokens ++ (itemTokens items ++ [.closeArray]))
  | object [] => [.openObject, .closeObject]
  | object ((key, value) :: fields) =>
      .openObject :: .string key :: .colon ::
        (value.tokens ++ (fieldTokens fields ++ [.closeObject]))

def itemTokens : List Json → List Token
  | [] => []
  | item :: items => .comma :: (item.tokens ++ itemTokens items)

def fieldTokens : List (Text × Json) → List Token
  | [] => []
  | (key, value) :: fields =>
      .comma :: .string key :: .colon :: (value.tokens ++ fieldTokens fields)

end

/-- The text is JSON and has this value. -/
def Written (value : Json) (text : Text) : Prop :=
  Spelling value.tokens text

/-! ## Values are written as JSON -/

theorem hexValue?_hexDigit : ∀ n < 16, hexValue? (Text.hexDigit n) = some n := by
  decide

theorem spellsChar_escapeChar (c : Char) : SpellsChar c (escapeChar c) := by
  unfold escapeChar
  -- Seven characters have an escape of their own.
  iterate 7
    split
    · next h =>
        subst h
        exact .escape rfl
  split
  · next hlt =>
      have hhigh := hexValue?_hexDigit (c.toNat / 16) (by omega)
      have hlow := hexValue?_hexDigit (c.toNat % 16) (by omega)
      have hdigits : ('0' :: '0' :: Text.ofByte c.toNat).map hexValue? =
          [some 0, some 0, some (c.toNat / 16), some (c.toNat % 16)] := by
        simp only [Text.ofByte, List.map_cons, List.map_nil, hhigh, hlow]
        rfl
      exact .code hdigits (by omega)
  · next hquote hslash _ _ _ _ _ hcontrol =>
      exact .plain hquote hslash (by omega)

theorem spellsBody_flatMap (text : Text) : SpellsBody text (text.flatMap escapeChar) := by
  induction text with
  | nil => exact .nil
  | cons c text ih => exact .cons (spellsChar_escapeChar c) ih

theorem spelling_quote (key : Text) {rest : Text} {ts : List Token} (h : Spelling ts rest) :
    Spelling (.string key :: ts) (quote key ++ rest) :=
  .token (.string (spellsBody_flatMap key)) (by simp) h

theorem spelling_sign {token : Token} {c : Char} {rest : Text} {ts : List Token}
    (htoken : token.Spells [c]) (hne : ∀ value, token ≠ .number value) (h : Spelling ts rest) :
    Spelling (token :: ts) (c :: rest) :=
  .token htoken (fun value heq => absurd heq (hne value)) h

theorem spelling_newline (level : Nat) {rest : Text} {ts : List Token} (h : Spelling ts rest) :
    Spelling ts (newline level ++ rest) := by
  refine .blank rfl ?_
  induction 2 * level with
  | zero => exact h
  | succ count ih => exact .blank rfl ih

theorem spelling_key (key : Text) {rest : Text} {ts : List Token} (h : Spelling ts rest) :
    Spelling (.string key :: .colon :: ts) (quote key ++ (':' :: ' ' :: rest)) :=
  spelling_quote key (spelling_sign .colon (by simp) (.blank rfl h))

theorem noDigit_cons {c : Char} {rest : Text} (h : c.isDigit = false) : NoDigit (c :: rest) := by
  simpa [NoDigit] using h

theorem noDigit_newline (level : Nat) (rest : Text) : NoDigit (newline level ++ rest) :=
  noDigit_cons rfl

theorem noDigit_renderItems {level : Nat} {rest : Text} (items : List Json) (h : NoDigit rest) :
    NoDigit (renderItems level items ++ rest) := by
  cases items with
  | nil => simpa [renderItems] using h
  | cons item items =>
      rw [renderItems]
      exact noDigit_cons rfl

theorem noDigit_renderFields {level : Nat} {rest : Text} (fields : List (Text × Json))
    (h : NoDigit rest) : NoDigit (renderFields level fields ++ rest) := by
  cases fields with
  | nil => simpa [renderFields] using h
  | cons field fields =>
      rw [renderFields]
      exact noDigit_cons rfl

mutual

/-- The text of a value spells its tokens, whatever is written behind it. -/
theorem spelling_render (level : Nat) {rest : Text} {ts : List Token} (hend : NoDigit rest)
    (h : Spelling ts rest) :
    (value : Json) → Spelling (value.tokens ++ ts) (value.render level ++ rest)
  | null => by
      rw [tokens, render]
      exact .token .null (by simp) h
  | bool true => by
      rw [tokens, render]
      exact .token .true (by simp) h
  | bool false => by
      rw [tokens, render]
      exact .token .false (by simp) h
  | number value => by
      rw [tokens, render]
      exact .token (.number value) (fun _ _ => hend) h
  | string value => by
      rw [tokens, render]
      exact spelling_quote value h
  | array [] => by
      rw [tokens, render]
      exact spelling_sign .openArray (by simp) (spelling_sign .closeArray (by simp) h)
  | array (item :: items) => by
      -- Tokens are put in front of what is spelled already, so the end comes first.
      have hlast := noDigit_newline level (']' :: rest)
      have hclose := spelling_newline level (spelling_sign .closeArray (by simp) h)
      have hitems := spelling_renderItems (level + 1) hlast hclose items
      have hitem := spelling_render (level + 1) (noDigit_renderItems items hlast) hitems item
      have hopen := spelling_sign .openArray (by simp) (spelling_newline (level + 1) hitem)
      rw [tokens, render]
      simpa [List.append_assoc] using hopen
  | object [] => by
      rw [tokens, render]
      exact spelling_sign .openObject (by simp) (spelling_sign .closeObject (by simp) h)
  | object ((key, value) :: fields) => by
      have hlast := noDigit_newline level ('\x7d' :: rest)
      have hclose := spelling_newline level (spelling_sign .closeObject (by simp) h)
      have hfields := spelling_renderFields (level + 1) hlast hclose fields
      have hvalue := spelling_render (level + 1) (noDigit_renderFields fields hlast) hfields value
      have hopen := spelling_sign .openObject (by simp)
        (spelling_newline (level + 1) (spelling_key key hvalue))
      rw [tokens, render]
      simpa [List.append_assoc] using hopen

theorem spelling_renderItems (level : Nat) {rest : Text} {ts : List Token}
    (hend : NoDigit rest) (h : Spelling ts rest) :
    (items : List Json) → Spelling (itemTokens items ++ ts) (renderItems level items ++ rest)
  | [] => by
      rw [itemTokens, renderItems]
      exact h
  | item :: items => by
      have hitems := spelling_renderItems level hend h items
      have hitem := spelling_render level (noDigit_renderItems items hend) hitems item
      have hcomma := spelling_sign .comma (by simp) (spelling_newline level hitem)
      rw [itemTokens, renderItems]
      simpa [List.append_assoc] using hcomma

theorem spelling_renderFields (level : Nat) {rest : Text} {ts : List Token}
    (hend : NoDigit rest) (h : Spelling ts rest) :
    (fields : List (Text × Json)) →
      Spelling (fieldTokens fields ++ ts) (renderFields level fields ++ rest)
  | [] => by
      rw [fieldTokens, renderFields]
      exact h
  | (key, value) :: fields => by
      have hfields := spelling_renderFields level hend h fields
      have hvalue := spelling_render level (noDigit_renderFields fields hend) hfields value
      have hcomma := spelling_sign .comma (by simp)
        (spelling_newline level (spelling_key key hvalue))
      rw [fieldTokens, renderFields]
      simpa [List.append_assoc] using hcomma

end

/-- What is printed for a value is JSON and has this value, also with a line break behind it. -/
theorem written_pretty (value : Json) : Written value (value.pretty ++ ['\n']) := by
  have h := spelling_render 0 (noDigit_cons rfl) (Spelling.blank (c := '\n') rfl .nil) value
  simpa [Written, pretty] using h

/-! ## The reader -/

mutual

/-- Read a value from the start of some tokens; the fuel bounds the number of steps. -/
def readValue : Nat → List Token → Option (Json × List Token)
  | _, .null :: rest => some (null, rest)
  | _, .bool value :: rest => some (bool value, rest)
  | _, .number value :: rest => some (number value, rest)
  | _, .string value :: rest => some (string value, rest)
  | _, .openArray :: .closeArray :: rest => some (array [], rest)
  | fuel + 1, .openArray :: rest =>
      (readValue fuel rest).bind fun first =>
        (readItems fuel first.2).map fun others => (array (first.1 :: others.1), others.2)
  | _, .openObject :: .closeObject :: rest => some (object [], rest)
  | fuel + 1, .openObject :: .string key :: .colon :: rest =>
      (readValue fuel rest).bind fun first =>
        (readFields fuel first.2).map fun others =>
          (object ((key, first.1) :: others.1), others.2)
  | _, _ => none

def readItems : Nat → List Token → Option (List Json × List Token)
  | _, .closeArray :: rest => some ([], rest)
  | fuel + 1, .comma :: rest =>
      (readValue fuel rest).bind fun first =>
        (readItems fuel first.2).map fun others => (first.1 :: others.1, others.2)
  | _, _ => none

def readFields : Nat → List Token → Option (List (Text × Json) × List Token)
  | _, .closeObject :: rest => some ([], rest)
  | fuel + 1, .comma :: .string key :: .colon :: rest =>
      (readValue fuel rest).bind fun first =>
        (readFields fuel first.2).map fun others => ((key, first.1) :: others.1, others.2)
  | _, _ => none

end

def read? (text : Text) : Option Json :=
  (scan .between text).bind fun found =>
    match readValue found.length found with
    | some (value, []) => some value
    | _ => none

theorem readValue_openArray {fuel : Nat} (item : Json) (rest : List Token) :
    readValue (fuel + 1) (.openArray :: (item.tokens ++ rest)) =
      (readValue fuel (item.tokens ++ rest)).bind fun first =>
        (readItems fuel first.2).map fun others =>
          (array (first.1 :: others.1), others.2) := by
  obtain ⟨token, tail, htokens, hne⟩ : ∃ token tail,
      item.tokens = token :: tail ∧ token ≠ .closeArray := by
    unfold tokens
    split <;> simp
  rw [htokens, List.cons_append, readValue]
  simpa using hne

mutual

theorem readValue_tokens (fuel : Nat) (rest : List Token) :
    (value : Json) → value.tokens.length ≤ fuel →
      readValue fuel (value.tokens ++ rest) = some (value, rest)
  | null, _ => by simp [tokens, readValue]
  | bool value, _ => by simp [tokens, readValue]
  | number value, _ => by simp [tokens, readValue]
  | string value, _ => by simp [tokens, readValue]
  | array [], _ => by simp [tokens, readValue]
  | array (item :: items), h => by
      simp only [tokens, List.length_cons, List.length_append] at h
      obtain ⟨fuel, rfl⟩ : ∃ fuel', fuel = fuel' + 1 := ⟨fuel - 1, by omega⟩
      have hitem := readValue_tokens fuel (itemTokens items ++ .closeArray :: rest) item
        (by omega)
      have hitems := readItems_itemTokens fuel rest items (by omega)
      simp only [tokens, List.cons_append, List.append_assoc, List.nil_append]
      rw [readValue_openArray, hitem]
      simp [hitems]
  | object [], _ => by simp [tokens, readValue]
  | object ((key, value) :: fields), h => by
      simp only [tokens, List.length_cons, List.length_append] at h
      obtain ⟨fuel, rfl⟩ : ∃ fuel', fuel = fuel' + 1 := ⟨fuel - 1, by omega⟩
      have hvalue := readValue_tokens fuel (fieldTokens fields ++ .closeObject :: rest) value
        (by omega)
      have hfields := readFields_fieldTokens fuel rest fields (by omega)
      simp only [tokens, List.cons_append, List.append_assoc, List.nil_append]
      rw [readValue, hvalue]
      simp [hfields]

theorem readItems_itemTokens (fuel : Nat) (rest : List Token) :
    (items : List Json) → (itemTokens items).length ≤ fuel →
      readItems fuel (itemTokens items ++ .closeArray :: rest) = some (items, rest)
  | [], _ => by simp [itemTokens, readItems]
  | item :: items, h => by
      simp only [itemTokens, List.length_cons, List.length_append] at h
      obtain ⟨fuel, rfl⟩ : ∃ fuel', fuel = fuel' + 1 := ⟨fuel - 1, by omega⟩
      have hitem := readValue_tokens fuel (itemTokens items ++ .closeArray :: rest) item
        (by omega)
      have hitems := readItems_itemTokens fuel rest items (by omega)
      simp only [itemTokens, List.cons_append, List.append_assoc]
      rw [readItems, hitem]
      simp [hitems]

theorem readFields_fieldTokens (fuel : Nat) (rest : List Token) :
    (fields : List (Text × Json)) → (fieldTokens fields).length ≤ fuel →
      readFields fuel (fieldTokens fields ++ .closeObject :: rest) = some (fields, rest)
  | [], _ => by simp [fieldTokens, readFields]
  | (key, value) :: fields, h => by
      simp only [fieldTokens, List.length_cons, List.length_append] at h
      obtain ⟨fuel, rfl⟩ : ∃ fuel', fuel = fuel' + 1 := ⟨fuel - 1, by omega⟩
      have hvalue := readValue_tokens fuel (fieldTokens fields ++ .closeObject :: rest) value
        (by omega)
      have hfields := readFields_fieldTokens fuel rest fields (by omega)
      simp only [fieldTokens, List.cons_append, List.append_assoc]
      rw [readFields, hvalue]
      simp [hfields]

end

theorem read?_of_written {value : Json} {text : Text} (h : Written value text) :
    read? text = some value := by
  have hvalue := readValue_tokens _ [] value (Nat.le_refl _)
  rw [List.append_nil] at hvalue
  simp [read?, scan_of_spelling h, hvalue]

/-- Blanks and escapes are free, and the reader still finds the value. -/
example : read? "[ \"\\u0041\\/\" ,7]\r\n".toList =
    some (array [string ['A', '/'], number 7]) := rfl

end Json

end TemplateDocs
