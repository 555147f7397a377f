import TemplateDocs.Proofs.Bytes.Builder
import TemplateDocs.Proofs.Template.TagEnd

/-!
# Parsing by offsets in bytes

A builder that stands where a draft of the source stands takes the step that the draft takes
(`step_cases`): each offset it computes is one between two characters of the source.  So the
run of the builder is that of the draft (`run_eq`), and the builder comes to the tree or to
the fault of the source without a failing check (`parse_never_misplaced`).
-/

namespace TemplateDocs

open Checked
open TemplateDocs.Tree (Frame Draft)

theorem Text.trim_eq_self {first last : Char} (hfirst : isBlank first = false)
    (hlast : isBlank last = false) (middle : Text) :
    trim (first :: (middle ++ [last])) = first :: (middle ++ [last]) := by
  have hstart : trimStart (first :: (middle ++ [last])) = first :: (middle ++ [last]) := by
    rw [trimStart, List.dropWhile_cons, hfirst, if_neg Bool.false_ne_true]
  rw [trim, hstart, trimEnd, List.reverse_cons, List.reverse_append, List.reverse_singleton,
    List.singleton_append, List.cons_append, List.dropWhile_cons, hlast,
    if_neg Bool.false_ne_true]
  simp

namespace Tree.Draft

/-! ## Drafts as builders -/

/-- The builder of a draft behind which some text is buffered. -/
def builder (draft : Draft) (buffer : Text) : Builder where
  tree := draft.tree
  opened := draft.frames.map fun frame => ⟨frame.id, frame.opening.kind, frame.before.byteSize⟩
  textStart := if buffer = [] then none else some draft.passed.byteSize

def outcome : Except Fault Draft → Except Halt (Builder × Nat)
  | .ok draft => .ok (draft.builder [], draft.passed.byteSize)
  | .error fault => .error (.fault fault)

theorem parent_builder (draft : Draft) (buffer : Text) :
    (draft.builder buffer).parent = draft.parent := by
  rw [Builder.parent, Draft.parent, builder, List.head?_map, Option.map_map]
  rfl

end Tree.Draft

namespace Builder

variable {source : Text} {draft : Draft}

theorem push_eq {builder : Builder} {node : Node}
    (hparent : builder.tree.node? builder.parent = some node) {before part behind : Text}
    (hsource : source = before ++ part ++ behind) (content : Content) :
    builder.push source content before.byteSize (before ++ part).byteSize =
      .ok { builder with
        tree := builder.tree.push builder.parent content (.ofOffset source before.length)
          (.ofOffset source (before.length + part.length)) } := by
  have hstart := position_append (hsource.trans (List.append_assoc ..)) rfl
  have hstop := position_append hsource rfl
  rw [push, hstart, ok_bind, hstop, ok_bind, hparent, List.length_append]
  rfl

theorem push_leaf (hsound : draft.Sound) {part : Leaf} {behind : Text}
    (hsource : source = draft.passed ++ part.lexeme ++ behind) :
    (draft.builder []).push source part.content draft.passed.byteSize
        (draft.passed ++ part.lexeme).byteSize =
      .ok ((draft.addLeaf part (.ofOffset source draft.passed.length)
        (.ofOffset source (draft.passed.length + part.lexeme.length))).builder []) := by
  rcases hsound.exists_parent with ⟨node, hnode⟩
  rw [← draft.parent_builder []] at hnode
  rw [push_eq hnode hsource, draft.parent_builder]
  rfl

theorem flushText_eq (hsound : draft.Sound) {buffer behind : Text}
    (hsource : source = draft.passed ++ buffer ++ behind) :
    (draft.builder buffer).flushText source (draft.passed ++ buffer).byteSize =
      .ok ((draft.flushed source buffer).builder []) := by
  cases buffer with
  | nil => rfl
  | cons c run =>
      have hlt : draft.passed.byteSize < (draft.passed ++ c :: run).byteSize := by
        rw [Text.byteSize_append]
        exact Nat.lt_add_of_pos_right (Text.byteSize_pos (List.cons_ne_nil c run))
      have hslice := slice_append hsource rfl rfl
      have hpush := @push_leaf source draft hsound (.text (c :: run)) behind hsource
      have hstart : (draft.builder (c :: run)).textStart = some draft.passed.byteSize := rfl
      simp only [flushText, hstart, if_pos hlt, hslice, ok_bind]
      exact hpush

theorem markText_eq (draft : Draft) (buffer : Text) {lexeme : Text} (hne : lexeme ≠ []) :
    (draft.builder buffer).markText (draft.passed ++ buffer).byteSize =
      draft.builder (buffer ++ lexeme) := by
  cases buffer with
  | nil => simp [markText, Draft.builder, hne]
  | cons c run => simp [markText, Draft.builder]

theorem unexpected_eq {kind : DefinitionKind} {gap behind : Text}
    (hsource : source = draft.passed ++ (Item.closing kind gap).lexeme ++ behind) :
    unexpected source draft.passed.byteSize
        (draft.passed ++ (Item.closing kind gap).lexeme).byteSize =
      .error (.fault (Levels.unexpected ⟨kind, gap, .ofOffset source draft.passed.length,
        .ofOffset source (draft.passed.length + (Item.closing kind gap).lexeme.length)⟩)) := by
  have htrim : Text.trim (Item.closing kind gap).lexeme = (Item.closing kind gap).lexeme :=
    @Text.trim_eq_self '<' '>' rfl rfl ('/' :: '#' :: kind.label ++ gap)
  have hstart := position_append (hsource.trans (List.append_assoc ..)) rfl
  simp only [unexpected, hstart, ok_bind, slice_append hsource rfl rfl, htrim]
  rfl

theorem startsHeaderAt_eq {before inside : Text} (hsource : source = before ++ inside) :
    startsHeaderAt source before.byteSize = Item.startsHeader inside := by
  have hbyte : source.bytes[before.byteSize]? = (Text.bytes inside).head? := by
    rw [hsource, Text.bytes_append, ← Text.length_bytes, List.getElem?_append_right (Nat.le_refl _),
      Nat.sub_self, List.head?_eq_getElem?]
  rw [startsHeaderAt, hbyte]
  cases inside with
  | nil => rfl
  | cons c rest =>
      have hstarts : Item.startsHeader (c :: rest) =
          [' ', '\t', '\r', '\n', '>', '('].contains c := by
        simp [Item.startsHeader, Text.isGap, Bool.or_assoc]
      rw [hstarts, Text.bytes_cons]
      by_cases hc : c.toNat < 128
      · rw [Text.utf8EncodeChar_of_lt hc]
        exact Text.isAnyOf_asciiByte (by decide) hc
      · have hle := Nat.le_of_not_lt hc
        rw [Text.contains_of_le (by decide) hle]
        cases hencoded : String.utf8EncodeChar c with
        | nil =>
            have hsize := String.length_utf8EncodeChar c
            rw [hencoded] at hsize
            exact absurd hsize.symm (Nat.ne_of_gt c.utf8Size_pos)
        | cons byte more =>
            refine Text.isAnyOf_of_le (by decide) (Text.le_of_mem_utf8EncodeChar hle ?_)
            rw [hencoded]
            exact List.mem_cons_self

/-! ## Comments and tags right behind a draft -/

section Tokens

variable (hsound : draft.Sound)

include hsound

theorem readComment_eq {inside : Text}
    (hsource : source = draft.passed ++ Tag.commentOpen ++ inside) :
    (draft.builder []).readComment source draft.passed.byteSize
        (draft.passed ++ Tag.commentOpen).byteSize =
      Draft.outcome (draft.read (draft.pieceOf source
        (((Text.splitAt? Tag.commentClose inside).map fun found =>
          Item.leaf (.comment found.1)).getD (.openComment inside)))) := by
  have hbytes := bytesFrom_append hsource rfl
  have hfind : Text.findBytes? (Text.bytes Tag.commentClose) inside.bytes =
      (Text.splitAt? Tag.commentClose inside).map fun found => Text.byteSize found.1 :=
    Text.findBytes?_eq_splitAt? (by decide) inside
  rw [readComment, hbytes, ok_bind, hfind]
  cases hclose : Text.splitAt? Tag.commentClose inside with
  | none =>
      have hstart := position_append (hsource.trans (List.append_assoc ..)) rfl
      simp only [Option.map_none, Option.getD_none, hstart, ok_bind]
      rfl
  | some found =>
      have hinside := Text.eq_append_of_splitAt? hclose
      have hbody : source = draft.passed ++ Tag.commentOpen ++ found.1 ++
          (Tag.commentClose ++ found.2) := by
        rw [hsource, hinside]
        simp only [List.append_assoc]
      have hwhole : source = draft.passed ++ (Leaf.comment found.1).lexeme ++ found.2 := by
        rw [hbody, Leaf.lexeme]
        simp only [List.append_assoc]
      have hlast : (draft.passed ++ Tag.commentOpen).byteSize + found.1.byteSize +
          Tag.commentClose.byteSize = (draft.passed ++ (Leaf.comment found.1).lexeme).byteSize := by
        simp only [Leaf.lexeme, Text.byteSize_append]
        omega
      have hle : (draft.passed ++ Tag.commentOpen).byteSize ≤
          (draft.passed ++ (Leaf.comment found.1).lexeme).byteSize := by omega
      have hnext := move_append hwhole hle
      have hslice := slice_append hbody rfl (Text.byteSize_append ..)
      simp only [Option.map_some, Option.getD_some, hlast, minus_of_le hle, ok_bind, hnext, hslice]
      have hpush := push_leaf hsound hwhole
      rw [Leaf.content] at hpush
      rw [hpush]
      rfl

theorem readTag_of_end {lexeme whole behind : Text}
    (hwhole : source = draft.passed ++ whole ++ behind) (hlexeme : lexeme <+: whole)
    (hlast : (Tag.endOffset? source.bytes none 0 (draft.passed ++ lexeme).byteSize).getD
      source.bytes.length = (draft.passed ++ whole).byteSize) :
    (draft.builder []).readTag source draft.passed.byteSize (draft.passed ++ lexeme).byteSize =
      Draft.outcome (draft.read (draft.pieceOf source (.leaf (.tag whole)))) := by
  have hle : (draft.passed ++ lexeme).byteSize ≤ (draft.passed ++ whole).byteSize := by
    rcases hlexeme with ⟨more, hmore⟩
    rw [← hmore, ← List.append_assoc, Text.byteSize_append _ more]
    exact Nat.le_add_right _ _
  have hnext := move_append hwhole hle
  have hpush := @push_leaf source draft hsound (.tag whole) behind hwhole
  simp only [Leaf.content, Leaf.lexeme] at hpush
  simp only [readTag, hlast, minus_of_le hle, ok_bind, hnext, slice_append hwhole rfl rfl, hpush]
  rfl

theorem readTag_eq {lexeme inside : Text} (hsource : source = draft.passed ++ lexeme ++ inside) :
    (draft.builder []).readTag source draft.passed.byteSize (draft.passed ++ lexeme).byteSize =
      Draft.outcome (draft.read (draft.pieceOf source (.leaf (.tag
        (((Tag.split? inside).map fun found => lexeme ++ found.1 ++ ['>']).getD
          (lexeme ++ inside)))))) := by
  have hend := Tag.endOffset?_eq_split? (draft.passed ++ lexeme) inside
  rw [← hsource] at hend
  cases hclose : Tag.split? inside with
  | none =>
      rw [hclose, Option.map_none] at hend
      have hwhole : source = draft.passed ++ (lexeme ++ inside) ++ [] := by
        rw [hsource, List.append_nil, List.append_assoc]
      rw [Option.map_none, Option.getD_none]
      refine readTag_of_end hsound hwhole (List.prefix_append _ _) ?_
      rw [hend, Option.getD_none, Text.length_bytes, hsource, List.append_assoc]
  | some found =>
      rw [hclose, Option.map_some] at hend
      have hwhole : source = draft.passed ++ (lexeme ++ found.1 ++ ['>']) ++ found.2 := by
        rw [hsource, Tag.eq_append_of_split? hclose]
        simp
      rw [Option.map_some, Option.getD_some]
      refine readTag_of_end hsound hwhole ?_ ?_
      · rw [List.append_assoc]
        exact List.prefix_append _ _
      · rw [hend, Option.getD_some]
        simp only [Text.byteSize_append, Text.byteSize_singleton,
          Tag.utf8Size_of_lt (c := '>') (by decide), Nat.add_assoc]

theorem openDefinition_eq {kind : DefinitionKind} {header behind : Text}
    (hsource : source = draft.passed ++ (Item.opening kind header).lexeme ++ behind) :
    Except.map (fun builder =>
        (builder, (draft.passed ++ (Item.opening kind header).lexeme).byteSize))
        ((draft.builder []).openDefinition source kind header draft.passed.byteSize
          (draft.passed ++ (Item.opening kind header).lexeme).byteSize) =
      Draft.outcome (draft.read (draft.pieceOf source (.opening kind header))) := by
  rw [openDefinition, header_eq, ok_bind]
  simp only [Draft.read, Draft.pieceOf]
  cases (Header.parse header).signature? with
  | none =>
      have hstart := position_append (hsource.trans (List.append_assoc ..)) rfl
      simp only [hstart, ok_bind]
      rfl
  | some signature =>
      rcases hsound.exists_parent with ⟨node, hnode⟩
      rw [← draft.parent_builder []] at hnode
      simp only [slice_append hsource rfl rfl, ok_bind, push_eq hnode hsource,
        draft.parent_builder]
      rfl

theorem readOpening_eq {kind : DefinitionKind} {inside : Text}
    (hsource : source = draft.passed ++ Item.openingLead kind ++ inside) :
    (draft.builder []).readOpening source kind draft.passed.byteSize
        (draft.passed ++ Item.openingLead kind).byteSize =
      Draft.outcome (draft.read (draft.pieceOf source
        (((Tag.split? inside).map fun found => Item.opening kind found.1).getD
          (.openHeader kind inside)))) := by
  have hend := Tag.endOffset?_eq_split? (draft.passed ++ Item.openingLead kind) inside
  rw [← hsource] at hend
  rw [readOpening, hend]
  cases hclose : Tag.split? inside with
  | none =>
      have hstart := position_append (hsource.trans (List.append_assoc ..)) rfl
      simp only [Option.map_none, Option.getD_none, hstart, ok_bind]
      rfl
  | some found =>
      have hinside := Tag.eq_append_of_split? hclose
      have hheader : source = draft.passed ++ Item.openingLead kind ++ found.1 ++
          ('>' :: found.2) := by
        rw [hsource, hinside]
        simp only [List.append_assoc]
      have hwhole : source = draft.passed ++ (Item.opening kind found.1).lexeme ++ found.2 := by
        rw [hheader]
        simp [Item.lexeme]
      have hlast : (draft.passed ++ Item.openingLead kind ++ found.1).byteSize + 1 =
          (draft.passed ++ (Item.opening kind found.1).lexeme).byteSize := by
        simp only [Item.lexeme, Text.byteSize_append, Text.byteSize_singleton]
        rw [Tag.utf8Size_of_lt (by decide)]
        omega
      have hle : (draft.passed ++ Item.openingLead kind).byteSize ≤
          (draft.passed ++ (Item.opening kind found.1).lexeme).byteSize := by
        rw [← hlast, Text.byteSize_append _ found.1]
        omega
      have hminus : minus (draft.passed ++ (Item.opening kind found.1).lexeme).byteSize 1 =
          .ok (draft.passed ++ Item.openingLead kind ++ found.1).byteSize := by
        rw [← hlast, minus_of_le (Nat.le_add_left 1 _), Nat.add_sub_cancel]
      have hnext := move_append hwhole hle
      have hopen := openDefinition_eq hsound hwhole
      simp only [Option.map_some, Option.getD_some, hlast, minus_of_le hle, ok_bind, hnext, hminus,
        slice_append hheader rfl rfl, ← hopen]
      rfl

theorem readClosing_eq {kind : DefinitionKind} {gap behind : Text}
    (hsource : source = draft.passed ++ (Item.closing kind gap).lexeme ++ behind) :
    (draft.builder []).readClosing source kind draft.passed.byteSize
        (draft.passed ++ (Item.closing kind gap).lexeme).byteSize =
      Draft.outcome (draft.read (draft.pieceOf source (.closing kind gap))) := by
  have hunexpected := unexpected_eq hsource
  simp only [readClosing, closeDefinition, Draft.read, Draft.pieceOf]
  cases hframes : draft.frames with
  | nil =>
      have hopened : (draft.builder []).opened = [] := by rw [Draft.builder, hframes]; rfl
      simp only [hopened, hunexpected, error_bind]
      rfl
  | cons frame outer =>
      have hopened : (draft.builder []).opened =
          ⟨frame.id, frame.opening.kind, frame.before.byteSize⟩ ::
            outer.map fun frame => ⟨frame.id, frame.opening.kind, frame.before.byteSize⟩ := by
        rw [Draft.builder, hframes]
        rfl
      have hmem : frame ∈ draft.frames := by
        rw [hframes]
        exact List.mem_cons_self
      simp only [hopened]
      split
      · rcases hsound.before_passed frame hmem with ⟨more, hmore⟩
        rcases hsound.standsIn frame hmem with ⟨node, -, hnode, -⟩
        have hstop := position_append hsource rfl
        have htext : slice source frame.before.byteSize
            (draft.passed ++ (Item.closing kind gap).lexeme).byteSize =
            .ok (more ++ (Item.closing kind gap).lexeme) := by
          refine slice_eq_ok_iff.mpr ⟨frame.before, behind, ?_, rfl, ?_⟩
          · rw [hsource, ← hmore, List.append_assoc frame.before]
          · rw [← hmore, List.append_assoc]
        have hdrop : (draft.passed ++ (Item.closing kind gap).lexeme).drop frame.before.length =
            more ++ (Item.closing kind gap).lexeme := by
          rw [← hmore, List.append_assoc, List.drop_left]
        have htree : (draft.builder []).tree = draft.tree := rfl
        simp only [hstop, ok_bind, htext, htree, hnode, found, List.length_append]
        rw [← hdrop]
        rfl
      · simp only [hunexpected, error_bind]
        rfl

theorem exists_reads_readTag {rest lexeme inside : Text} {token : RawToken}
    (htoken : RawToken.Leads rest token lexeme inside)
    (hother : token = .directive ∨
      ∃ kind, token = .opening kind ∧ Item.startsHeader inside = false)
    (hsource : source = draft.passed ++ lexeme ++ inside) :
    ∃ item behind, Item.Reads rest item behind ∧
      (draft.builder []).readTag source draft.passed.byteSize (draft.passed ++ lexeme).byteSize =
        Draft.outcome (draft.read (draft.pieceOf source item)) := by
  have hread := readTag_eq hsound hsource
  cases hclose : Tag.split? inside with
  | none =>
      rw [hclose, Option.map_none, Option.getD_none, htoken.split] at hread
      exact ⟨_, _, .openTag htoken hother hclose, hread⟩
  | some found =>
      rw [hclose, Option.map_some, Option.getD_some] at hread
      exact ⟨_, _, .tag htoken hother hclose, hread⟩

theorem exists_reads_readToken {rest lexeme inside : Text} {token : RawToken}
    (htoken : RawToken.Leads rest token lexeme inside) (htext : token ≠ .text)
    (hsource : source = draft.passed ++ rest) :
    ∃ item behind, Item.Reads rest item behind ∧
      (draft.builder []).readToken source draft.passed.byteSize (draft.passed ++ lexeme).byteSize
          token =
        Draft.outcome (draft.read (draft.pieceOf source item)) := by
  rw [← htoken.split, ← List.append_assoc] at hsource
  cases token with
  | text => exact absurd rfl htext
  | directive => exact exists_reads_readTag hsound htoken (.inl rfl) hsource
  | commentOpen =>
      cases htoken.spells
      have hread := readComment_eq hsound hsource
      cases hclose : Text.splitAt? Tag.commentClose inside with
      | none =>
          rw [hclose, Option.map_none, Option.getD_none] at hread
          exact ⟨_, _, .openComment htoken hclose, hread⟩
      | some found =>
          rw [hclose, Option.map_some, Option.getD_some] at hread
          exact ⟨_, _, .comment htoken hclose, hread⟩
  | closing kind =>
      rcases htoken.spells.exists_gap with ⟨gap, -, hlexeme⟩
      rw [hlexeme] at htoken hsource ⊢
      exact ⟨_, _, .closing htoken, readClosing_eq hsound hsource⟩
  | opening kind =>
      rw [readToken, startsHeaderAt_eq hsource]
      cases hheader : Item.startsHeader inside with
      | false =>
          rw [if_neg Bool.false_ne_true]
          exact exists_reads_readTag hsound htoken (.inr ⟨kind, rfl, hheader⟩) hsource
      | true =>
          cases htoken.spells
          rw [if_pos rfl]
          have hread := readOpening_eq hsound hsource
          cases hclose : Tag.split? inside with
          | none =>
              rw [hclose, Option.map_none, Option.getD_none] at hread
              exact ⟨_, _, .openHeader htoken hheader hclose, hread⟩
          | some found =>
              rw [hclose, Option.map_some, Option.getD_some] at hread
              exact ⟨_, _, .opening htoken hheader hclose, hread⟩

/-- One step of a builder either buffers plain text or reads what its draft reads. -/
theorem step_cases {buffer rest : Text} (hsource : source = draft.passed ++ buffer ++ rest)
    (hne : rest ≠ []) :
    (∃ lexeme behind, RawToken.Plain rest lexeme behind ∧
      (draft.builder buffer).step source (draft.passed ++ buffer).byteSize rest =
        .ok (draft.builder (buffer ++ lexeme), (draft.passed ++ (buffer ++ lexeme)).byteSize)) ∨
    ∃ item behind, Item.Reads rest item behind ∧
      (draft.builder buffer).step source (draft.passed ++ buffer).byteSize rest =
        Draft.outcome ((draft.flushed source buffer).read
          ((draft.flushed source buffer).pieceOf source item)) := by
  have hplain {lexeme behind : Text} (h : RawToken.Plain rest lexeme behind) :
      ((draft.builder buffer).markText (draft.passed ++ buffer).byteSize,
          (draft.passed ++ buffer).byteSize + lexeme.byteSize) =
        (draft.builder (buffer ++ lexeme), (draft.passed ++ (buffer ++ lexeme)).byteSize) := by
    rw [markText_eq draft buffer h.ne_nil, ← Text.byteSize_append, List.append_assoc]
  cases hlex : RawToken.lex rest with
  | mk token lexeme =>
  cases token with
  | none =>
      rcases RawToken.stuck_of_lex hne hlex with ⟨behind, hstuck⟩
      refine .inl ⟨lexeme, behind, .inr hstuck, ?_⟩
      rw [step, hlex, ← hplain (.inr hstuck)]
  | some token =>
      rcases RawToken.leads_of_lex hlex with ⟨behind, hleads⟩
      by_cases htext : token = .text
      · subst htext
        refine .inl ⟨lexeme, behind, .inl hleads, ?_⟩
        rw [step, hlex, ← hplain (.inl hleads)]
      · have hflush := flushText_eq hsound hsource
        have hstep : (draft.builder buffer).step source (draft.passed ++ buffer).byteSize rest =
            ((draft.flushed source buffer).builder []).readToken source
              (draft.passed ++ buffer).byteSize (draft.passed ++ buffer ++ lexeme).byteSize
              token := by
          rw [step, hlex, Text.byteSize_append _ lexeme]
          cases token with
          | text => exact absurd rfl htext
          | _ => simp only [hflush, ok_bind]
        have hbehind : source = (draft.flushed source buffer).passed ++ rest := by
          rw [Draft.passed_flushed, hsource]
        have hread := exists_reads_readToken (hsound.flushed source buffer) hleads htext hbehind
        rw [Draft.passed_flushed] at hread
        rw [hstep]
        exact .inr hread

theorem finish_eq {buffer : Text} (hsource : source = draft.passed ++ buffer) :
    (draft.builder buffer).finish source =
      ((draft.flushed source buffer).finish (.ofOffset source source.length)).mapError
        Halt.fault := by
  have hflushed := hsound.flushed source buffer
  have hflush := flushText_eq hsound (hsource.trans (List.append_nil _).symm)
  have hstop := position_append (List.append_nil source).symm rfl
  have hroot : ∃ node, (draft.flushed source buffer).tree.node? 0 = some node :=
    ⟨_, Array.getElem?_eq_getElem hflushed.size_pos⟩
  rw [← hsource] at hflush
  rcases hroot with ⟨root, hroot⟩
  have htree : ((draft.flushed source buffer).builder []).tree =
      (draft.flushed source buffer).tree := rfl
  rw [finish, hflush, ok_bind, htree, hroot, found, ok_bind, hstop, ok_bind, Draft.finish]
  cases hframes : (draft.flushed source buffer).frames with
  | nil =>
      simp only [Draft.builder, hframes]
      rfl
  | cons frame outer =>
      have hmem : frame ∈ (draft.flushed source buffer).frames := by
        rw [hframes]
        exact List.mem_cons_self
      rcases (hflushed.standsIn frame hmem).endAt (.ofOffset source source.length) with
        ⟨node, definition, hnode, hcontent, hname, hstart⟩
      simp only [Draft.builder, hframes, List.map_cons, hnode, found, ok_bind, hcontent,
        Content.definition?, Option.map_some, Option.getD_some, hname, hstart]
      rfl

end Tokens

/-! ## The run over a source -/

/-- A builder that stands where a draft does comes to what the draft comes to. -/
theorem run_eq {fuel : Nat} {draft : Draft} (hsound : draft.Sound) {buffer rest : Text}
    (hsource : source = draft.passed ++ buffer ++ rest) (hfuel : rest.length < fuel) :
    run source fuel (draft.builder buffer) (draft.passed ++ buffer).byteSize =
      (draft.readAll (Piece.spread source draft.passed.length (Item.scanBehind buffer rest)) >>=
        Draft.finish (.ofOffset source source.length)).mapError Halt.fault := by
  induction fuel generalizing draft buffer rest with
  | zero => exact absurd hfuel (Nat.not_lt_zero _)
  | succ fuel ih =>
      have hrest : Text.dropBytes? (draft.passed ++ buffer).byteSize source = some rest := by
        rw [hsource, Text.dropBytes?_append]
      rw [run, hrest, found, ok_bind]
      by_cases hne : rest = []
      · subst hne
        rw [List.append_nil] at hsource
        have hflush := Draft.readAll_flush source draft buffer []
        rw [List.append_nil] at hflush
        rw [if_pos rfl, finish_eq hsound hsource, Item.scanBehind_nil, hflush]
        rfl
      rw [if_neg hne]
      rcases step_cases hsound hsource hne with ⟨lexeme, behind, hplain, hstep⟩ | hreads
      · have hlt : behind.length < fuel := by
          have hlength := congrArg List.length hplain.split
          have hpos := List.length_pos_iff.mpr hplain.ne_nil
          rw [List.length_append] at hlength
          omega
        have hnext : source = draft.passed ++ (buffer ++ lexeme) ++ behind := by
          rw [hsource, ← hplain.split]
          simp only [List.append_assoc]
        rw [hstep, ok_bind, Item.scanBehind_plain hplain]
        exact ih hsound hnext hlt
      · rcases hreads with ⟨item, behind, hreads, hstep⟩
        have hsplit := Item.lexeme_append_next rest
        have hlt : (Item.next rest).2.length < rest.length := Item.tiles_next.length_lt hne
        simp only [hreads.next_eq] at hsplit hlt
        rw [hstep, Draft.readAll_scanBehind hsound hreads]
        cases hread : (draft.flushed source buffer).read
            ((draft.flushed source buffer).pieceOf source item) with
        | error fault => rfl
        | ok next =>
            rcases (hsound.flushed source buffer).read hread with ⟨hnext, hpassed⟩
            have hlexeme : next.passed = draft.passed ++ buffer ++ item.lexeme := by
              rw [hpassed, Draft.passed_flushed]
              rfl
            have hbehind : source = next.passed ++ [] ++ behind := by
              rw [hlexeme, List.append_nil, List.append_assoc, hsplit, hsource]
            have hrun := ih hnext hbehind (by omega)
            rw [List.append_nil] at hrun
            exact hrun

theorem parse_eq (source : Text) : parse source = (Tree.parse source).mapError Halt.fault := by
  have hrun := @run_eq source (source.byteSize + 1) .empty Draft.sound_empty [] source rfl
    (Nat.lt_succ_of_le source.length_le_byteSize)
  rw [Draft.parse_eq_readAll]
  exact hrun

/--
Scans over bytes end between characters: just behind the first `>` that is reached outside
quotes and brackets, as the scan over characters does, and at the first occurrence of the text
that closes a comment.  So no check fails while a source is parsed by offsets in bytes: all
that is cut out of it stands in it between the two offsets, and the outcome is that of the
parser.
-/
theorem parse_never_misplaced :
    (∀ before text : Text,
      Tag.endOffset? (before ++ text).bytes none 0 before.byteSize =
        (Tag.split? text).map fun found => (before ++ found.1).byteSize + 1) ∧
    (∀ (before text : Text) (offset : Nat),
      Tag.endOffset? (before ++ text).bytes none 0 before.byteSize = some offset ↔
        ∃ body, Tag.EndsBehind text body ∧ offset = (before ++ body ++ ['>']).byteSize) ∧
    (∀ before text : Text,
      Tag.endOffset? (before ++ text).bytes none 0 before.byteSize = none ↔
        ∀ body rest, text = body ++ '>' :: rest →
          body.foldl Tag.Scan.next (.plain 0) ≠ .plain 0) ∧
    (∀ (text : Text) (offset : Nat),
      Text.findBytes? (Text.bytes Tag.commentClose) text.bytes = some offset ↔
        ∃ body : Text, (∃ rest, text = body ++ Tag.commentClose ++ rest) ∧
          (∀ earlier behind, text = earlier ++ Tag.commentClose ++ behind →
            body.length ≤ earlier.length) ∧
          offset = body.byteSize) ∧
    (∀ text : Text,
      Text.findBytes? (Text.bytes Tag.commentClose) text.bytes = none ↔
        ∀ body rest, text ≠ body ++ Tag.commentClose ++ rest) ∧
    (∀ (text part : Text) (first last : Nat),
      slice text first last = .ok part ↔
        ∃ before behind, text = before ++ part ++ behind ∧ before.byteSize = first ∧
          (before ++ part).byteSize = last) ∧
    ∀ source : Text,
      parse source = (Tree.parse source).mapError Halt.fault ∧
        parse source ≠ .error .misplaced := by
  refine ⟨Tag.endOffset?_eq_split?, fun before text offset => Tag.endOffset?_eq_some_iff,
    fun before text => Tag.endOffset?_eq_none_iff,
    fun text offset => Text.findBytes?_eq_some_iff (by decide),
    fun text => Text.findBytes?_eq_none_iff (by decide),
    fun text part first last => slice_eq_ok_iff, fun source => ⟨parse_eq source, ?_⟩⟩
  rw [parse_eq]
  cases Tree.parse source with
  | error fault => simp [Except.mapError]
  | ok tree => simp [Except.mapError]

/-- A backslash in front of a character of two bytes, and a `>` behind the two inside quotes. -/
theorem parse_never_misplaced_escaped : ∃ (before text : Text) (tree : Tree),
    before = "é<#macro".toList ∧ text = " m a=\"\\é>\">é</#macro>".toList ∧
      before.byteSize = 9 ∧ Tag.endOffset? (before ++ text).bytes none 0 9 = some 21 ∧
      slice (before ++ text) 9 20 = .ok " m a=\"\\é>\"".toList ∧
      Tree.parse (before ++ text) = .ok tree ∧ parse (before ++ text) = .ok tree := by
  rcases (⟨_, rfl⟩ : ∃ before : Text, before = "é<#macro".toList) with ⟨before, hbefore⟩
  rcases (⟨_, rfl⟩ : ∃ text : Text, text = " m a=\"\\é>\">é</#macro>".toList) with ⟨text, htext⟩
  rcases parse_never_misplaced with ⟨hend, -, -, -, -, hslice, hparse⟩
  have hsize : before.byteSize = 9 := by
    rw [hbefore]
    decide +kernel
  have hoffset := hend before text
  have hsplit : ((Tag.split? text).map fun found => (before ++ found.1).byteSize + 1) =
      some 21 := by
    rw [hbefore, htext]
    decide +kernel
  have hheader : before ++ text =
      before ++ " m a=\"\\é>\"".toList ++ ">é</#macro>".toList := by
    rw [hbefore, htext]
    decide +kernel
  have hlast : (before ++ " m a=\"\\é>\"".toList).byteSize = 20 := by
    rw [hbefore]
    decide +kernel
  have hok : (Tree.parse (before ++ text)).toOption.isSome = true := by
    rw [hbefore, htext]
    decide +kernel
  rw [hsize, hsplit] at hoffset
  have hparsed := (hparse (before ++ text)).1
  cases htree : Tree.parse (before ++ text) with
  | error fault =>
      rw [htree] at hok
      cases hok
  | ok tree =>
      rw [htree] at hparsed
      exact ⟨before, text, tree, hbefore, htext, hsize, hoffset,
        (hslice ..).mpr ⟨before, _, hheader, hsize, hlast⟩, htree, hparsed⟩

end Builder

end TemplateDocs
