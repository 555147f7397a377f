import TemplateDocs.Fault
import TemplateDocs.Proofs.LineBreak.Header
import TemplateDocs.Proofs.Position.LineTable

/-!
# Checked steps

What is done with offsets in bytes can go wrong: a part is cut out between offsets that are
out of order, behind the end or inside a character, or a number is taken from a smaller one.
The steps below check this and are `misplaced` where it fails.  At the places where the
characters of a text start they never are (`slice_append`, `move_append`, `position_append`),
so neither is the reading of a header (`header_eq`).
-/

namespace TemplateDocs

/-- Why a reading comes to no result. -/
inductive Halt where
  | fault (cause : Fault)
  /-- A check of an offset or an index has failed. -/
  | misplaced
deriving DecidableEq, Repr

namespace Checked

def found {α : Type} : Option α → Except Halt α
  | some value => .ok value
  | none => .error .misplaced

def minus (first second : Nat) : Except Halt Nat :=
  if second ≤ first then .ok (first - second) else .error .misplaced

/--
The part of a text between two offsets, which have to be in order, within the text and between
characters.
-/
def slice (text : Text) (first last : Nat) : Except Halt Text :=
  if first ≤ last then found (Text.slice? first last text) else .error .misplaced

/-- The offset so many bytes further on, which has to be within the text and between characters. -/
def move (text : Text) (offset count : Nat) : Except Halt Nat :=
  (found (Text.dropBytes? (offset + count) text)).map fun _ => offset + count

def bytesFrom (text : Text) (offset : Nat) : Except Halt (List UInt8) :=
  if offset ≤ text.bytes.length then .ok (text.bytes.drop offset) else .error .misplaced

def position (text : Text) (offset : Nat) : Except Halt Position := do
  let table := LineTable.ofText text
  let start ← found table.starts[table.lineIndex offset]?
  let width ← minus offset start
  let column := ((Text.slice? start offset text).map List.length).getD width
  .ok ⟨table.lineIndex offset + 1, column + 1⟩

@[simp] theorem ok_bind {α β : Type} (value : α) (next : α → Except Halt β) :
    ((Except.ok value : Except Halt α) >>= next) = next value :=
  rfl

@[simp] theorem error_bind {α β : Type} (halt : Halt) (next : α → Except Halt β) :
    ((Except.error halt : Except Halt α) >>= next) = .error halt :=
  rfl

theorem minus_of_le {first second : Nat} (h : second ≤ first) :
    minus first second = .ok (first - second) :=
  if_pos h

/-! ## Steps between characters -/

theorem eq_append_of_dropBytes? {text rest : Text} {count : Nat}
    (h : Text.dropBytes? count text = some rest) :
    ∃ before, text = before ++ rest ∧ before.byteSize = count := by
  induction text generalizing count with
  | nil =>
      rw [Text.dropBytes?] at h
      split at h
      · next hzero =>
          cases h
          exact ⟨[], rfl, hzero.symm⟩
      · cases h
  | cons c text ih =>
      rw [Text.dropBytes?] at h
      split at h
      · next hzero =>
          cases h
          exact ⟨[], rfl, hzero.symm⟩
      · split at h
        · next hle =>
            rcases ih h with ⟨before, htext, hsize⟩
            refine ⟨c :: before, by rw [htext, List.cons_append], ?_⟩
            rw [Text.byteSize_cons, hsize]
            omega
        · cases h

theorem eq_append_of_takeBytes? {text part : Text} {count : Nat}
    (h : Text.takeBytes? count text = some part) :
    ∃ behind, text = part ++ behind ∧ part.byteSize = count := by
  induction text generalizing count part with
  | nil =>
      rw [Text.takeBytes?] at h
      split at h
      · next hzero =>
          cases h
          exact ⟨[], rfl, hzero.symm⟩
      · cases h
  | cons c text ih =>
      rw [Text.takeBytes?] at h
      split at h
      · next hzero =>
          cases h
          exact ⟨c :: text, rfl, hzero.symm⟩
      · split at h
        · next hle =>
            rw [Option.map_eq_some_iff] at h
            rcases h with ⟨more, hmore, heq⟩
            rcases ih hmore with ⟨behind, htext, hsize⟩
            refine ⟨behind, by rw [htext, ← heq, List.cons_append], ?_⟩
            rw [← heq, Text.byteSize_cons, hsize]
            omega
        · cases h

/-- What is cut out stands in the text, and its two ends are at the two offsets. -/
theorem slice_eq_ok_iff {text part : Text} {first last : Nat} :
    slice text first last = .ok part ↔
      ∃ before behind, text = before ++ part ++ behind ∧ before.byteSize = first ∧
        (before ++ part).byteSize = last := by
  constructor
  · intro h
    unfold slice at h
    split at h
    · next hle =>
        cases hslice : Text.slice? first last text with
        | none =>
            rw [hslice] at h
            cases h
        | some other =>
            rw [hslice] at h
            cases h
            rw [Text.slice?, Option.bind_eq_some_iff] at hslice
            rcases hslice with ⟨rest, hdrop, htake⟩
            rcases eq_append_of_dropBytes? hdrop with ⟨before, htext, hfirst⟩
            rcases eq_append_of_takeBytes? htake with ⟨behind, hrest, hlast⟩
            refine ⟨before, behind, by rw [htext, hrest, List.append_assoc], hfirst, ?_⟩
            rw [Text.byteSize_append]
            omega
    · cases h
  · intro h
    rcases h with ⟨before, behind, htext, hfirst, hlast⟩
    rw [Text.byteSize_append] at hlast
    have hcount : last - first = part.byteSize := by omega
    rw [slice, if_pos (by omega), Text.slice?, htext, ← hfirst, List.append_assoc,
      Text.dropBytes?_append, Option.bind_some, hfirst, hcount, Text.takeBytes?_append]
    rfl

theorem slice_append {text before part behind : Text} {first last : Nat}
    (htext : text = before ++ part ++ behind) (hfirst : before.byteSize = first)
    (hlast : (before ++ part).byteSize = last) : slice text first last = .ok part :=
  slice_eq_ok_iff.mpr ⟨before, behind, htext, hfirst, hlast⟩

theorem move_append {text before behind : Text} {offset : Nat}
    (htext : text = before ++ behind) (hle : offset ≤ before.byteSize) :
    move text offset (before.byteSize - offset) = .ok before.byteSize := by
  rw [move, Nat.add_sub_cancel' hle, htext, Text.dropBytes?_append]
  rfl

theorem bytesFrom_append {text before behind : Text} {offset : Nat}
    (htext : text = before ++ behind) (hoffset : before.byteSize = offset) :
    bytesFrom text offset = .ok behind.bytes := by
  have hlength := Text.length_bytes before
  rw [hoffset] at hlength
  rw [bytesFrom, htext, Text.bytes, List.flatMap_append, if_pos]
  · exact congrArg Except.ok (by rw [← hlength]; exact List.drop_left)
  · rw [List.length_append, ← hlength]
    exact Nat.le_add_right _ _

theorem position_eq (text : Text) (offset : Nat) :
    position text offset = .ok ((LineTable.ofText text).position offset) := by
  have hlt := (LineTable.ofText text).lineIndex_lt offset
  have hstart := Array.getElem?_eq_getElem hlt
  have hle := ((LineTable.ofText text).le_lineIndex_iff hstart).mp (Nat.le_refl _)
  simp only [position, hstart, found, ok_bind, minus_of_le hle]
  rfl

theorem position_append {text before behind : Text} {offset : Nat}
    (htext : text = before ++ behind) (hoffset : before.byteSize = offset) :
    position text offset = .ok (.ofOffset text before.length) := by
  have hbyte : text.byteOffset before.length = offset := by
    rw [Text.byteOffset, htext, List.take_left, hoffset]
  have hle : before.length ≤ text.length := by
    rw [htext, List.length_append]
    exact Nat.le_add_right _ _
  rw [position_eq, ← hbyte, LineTable.position_byteOffset hle]

/-! ## Headers -/

def spelled (header : Text) : Nat → List HeaderToken → Except Halt (List (HeaderToken × Text))
  | _, [] => .ok []
  | offset, token :: rest => do
      let text ← slice header offset (offset + token.lexeme.byteSize)
      let more ← spelled header (offset + token.lexeme.byteSize) rest
      .ok ((token, text) :: more)

/-- The name that the first token gives: a quoted one stands between the first and last byte. -/
def name : List (HeaderToken × Text) → Except Halt (Option Text)
  | (.ident _, text) :: _ => .ok (some text)
  | (.quoted _ _, text) :: _ => do
      let last ← minus text.byteSize 1
      let body ← slice text 1 last
      .ok (some body)
  | _ => .ok none

/-- An identifier is the text at its place; of other tokens only the kind counts. -/
def respelled (token : HeaderToken × Text) : HeaderToken :=
  match token.1 with
  | .ident _ => .ident token.2
  | other => other

def ofSpelled (tokens : List (HeaderToken × Text)) : Except Halt Header := do
  let first ← name tokens
  let behind := if first.isSome then tokens.tail else tokens
  .ok { Header.readParameters .parameters (behind.map respelled) with name := first }

def header (text : Text) : Except Halt Header := do
  let tokens ← spelled text 0 (HeaderToken.tokens text)
  ofSpelled (tokens.filter fun token => !token.1.isGap)

theorem spelled_eq {header before : Text} {tokens : List HeaderToken}
    (h : header = before ++ tokens.flatMap HeaderToken.lexeme) :
    spelled header before.byteSize tokens =
      .ok (tokens.map fun token => (token, token.lexeme)) := by
  induction tokens generalizing before with
  | nil => rfl
  | cons token rest ih =>
      rw [List.flatMap_cons, ← List.append_assoc] at h
      have hsize := Text.byteSize_append before token.lexeme
      rw [spelled, slice_append h rfl hsize, ← hsize, ok_bind, ih h]
      rfl

theorem name_quoted {quote : Char} (hquote : quote.utf8Size = 1) (body : Text)
    (rest : List (HeaderToken × Text)) :
    name ((.quoted quote body, HeaderToken.lexeme (.quoted quote body)) :: rest) =
      .ok (some body) := by
  have hsize : (HeaderToken.lexeme (.quoted quote body)).byteSize = body.byteSize + 2 := by
    rw [HeaderToken.lexeme, Text.byteSize_cons, Text.byteSize_append, Text.byteSize_singleton,
      hquote]
    omega
  have hslice : slice (HeaderToken.lexeme (.quoted quote body)) 1 (body.byteSize + 1) =
      .ok body := by
    refine slice_eq_ok_iff.mpr ⟨[quote], [quote], rfl, ?_, ?_⟩
    · rw [Text.byteSize_singleton, hquote]
    · rw [Text.byteSize_append, Text.byteSize_singleton, hquote, Nat.add_comm]
  rw [name, hsize, minus_of_le (Nat.le_add_left 1 (body.byteSize + 1)), ok_bind]
  show slice _ 1 (body.byteSize + 1) >>= _ = _
  rw [hslice]
  rfl

def QuotesByByte : HeaderToken → Prop
  | .quoted quote _ => quote.utf8Size = 1
  | _ => True

theorem quotesByByte_nextFrom (c : Char) (rest : Text) :
    QuotesByByte (HeaderToken.nextFrom c rest).1 := by
  cases HeaderToken.starts c with
  | ident hstart heq =>
      rw [heq]
      trivial
  | quoted hquote heq =>
      have hsize : c.utf8Size = 1 := by
        simp only [Tag.isQuote, Bool.or_eq_true, decide_eq_true_eq] at hquote
        rcases hquote with rfl | rfl <;> rfl
      rw [heq, HeaderToken.nextQuoted]
      split
      · exact hsize
      · trivial
  | point hpoint heq =>
      rw [heq, HeaderToken.nextPoint.eq_def]
      split <;> trivial
  | equals hequals heq =>
      rw [heq, HeaderToken.nextEquals.eq_def]
      split <;> trivial
  | number hdigit heq =>
      rw [heq, HeaderToken.nextNumber]
      repeat' split
      all_goals trivial
  | operator hsign heq =>
      rw [heq, HeaderToken.nextOperator]
      split <;> trivial
  | gap heq =>
      rw [heq]
      trivial
  | sign token htoken heq =>
      rw [heq]
      rcases htoken with ⟨rfl, -⟩ | rfl | rfl | rfl <;> trivial

theorem quotesByByte_of_mem_tokens {header : Text} {token : HeaderToken}
    (h : token ∈ HeaderToken.tokens header) : QuotesByByte token := by
  refine Text.forall_mem_cut (fun text hne => ?_) h
  cases text with
  | nil => exact absurd rfl hne
  | cons c rest => exact quotesByByte_nextFrom c rest

theorem map_respelled (tokens : List HeaderToken) :
    (tokens.map fun token => (token, token.lexeme)).map respelled = tokens := by
  rw [List.map_map]
  refine List.map_id'' (fun token => ?_) tokens
  cases token <;> rfl

theorem ofSpelled_of_name {tokens : List HeaderToken} {first : Option Text}
    (h : name (tokens.map fun token => (token, token.lexeme)) = .ok first) :
    ofSpelled (tokens.map fun token => (token, token.lexeme)) =
      .ok { Header.readParameters .parameters (if first.isSome then tokens.tail else tokens) with
        name := first } := by
  rw [ofSpelled, h, ok_bind]
  cases first with
  | none => simp only [Option.isSome_none, Bool.false_eq_true, if_false, map_respelled]
  | some name => simp only [Option.isSome_some, if_true, ← List.map_tail, map_respelled]

theorem ofSpelled_eq {tokens : List HeaderToken} (h : ∀ token ∈ tokens, QuotesByByte token) :
    ofSpelled (tokens.map fun token => (token, token.lexeme)) = .ok (Header.ofTokens tokens) := by
  have hunnamed (other : List HeaderToken) :
      { Header.readParameters .parameters other with name := none } =
        Header.readParameters .parameters other := by
    rw [← Header.name_readParameters .parameters other]
  cases tokens with
  | nil => rfl
  | cons token rest =>
      cases token with
      | quoted quote body => exact ofSpelled_of_name (name_quoted (h _ List.mem_cons_self) body _)
      | ident name => exact ofSpelled_of_name rfl
      | _ =>
          rw [ofSpelled_of_name rfl]
          exact congrArg Except.ok (hunnamed _)

/-- A header is read without a failing check. -/
theorem header_eq (text : Text) : header text = .ok (Header.parse text) := by
  have hspelled : spelled text (Text.byteSize []) (HeaderToken.tokens text) =
      .ok ((HeaderToken.tokens text).map fun token => (token, token.lexeme)) :=
    spelled_eq (HeaderToken.flatMap_lexeme_tokens text).symm
  have hfilter : ((HeaderToken.tokens text).map fun token => (token, token.lexeme)).filter
        (fun token => !token.1.isGap) =
      ((HeaderToken.tokens text).filter fun token => !token.isGap).map
        fun token => (token, token.lexeme) := List.filter_map
  rw [header]
  show spelled text (Text.byteSize []) _ >>= _ = _
  rw [hspelled, ok_bind, hfilter]
  exact ofSpelled_eq fun token htoken => quotesByByte_of_mem_tokens (List.mem_filter.mp htoken).1

end Checked

end TemplateDocs
