import TemplateDocs.Proofs.LineBreak.Tree
import TemplateDocs.Proofs.Record.Adjacency

/-!
# Documentation and line breaks

What is documented does not depend on how lines are broken.  With a carriage return
in front of every line feed a source has the same regions, diagnostics and comments,
and the same records up to returns in their names and source texts; and a source that
cannot be parsed has the same fault at the same place.
-/

namespace TemplateDocs

open Text

namespace DocComment

variable {marker : Char}

theorem isUnbroken_singleton (hmarker : Text.isBlank marker = false) : IsUnbroken [marker] := by
  intro c hc
  rw [List.mem_singleton.mp hc]
  constructor
  · rintro rfl
    cases hmarker
  · rintro rfl
    cases hmarker

theorem isDoc_eq_startsWith (marker : Char) (body : Text) :
    isDoc marker body = startsWith [marker] body := by
  rcases body with _ | ⟨c, rest⟩
  · rfl
  · by_cases hc : marker = c
    · simp [isDoc, startsWith, after?, hc]
    · simp [isDoc, startsWith, after?, hc, Ne.symm hc]

theorem isDoc_withReturns (hmarker : Text.isBlank marker = false) (body : Text) :
    isDoc marker body.withReturns = isDoc marker body := by
  rw [isDoc_eq_startsWith, isDoc_eq_startsWith,
    startsWith_withReturns (isUnbroken_singleton hmarker)]

/-- A comment without returns says the same with them: its lines are the same. -/
theorem parseMarked_withReturns (hmarker : Text.isBlank marker = false) {body : Text}
    (hbody : '\r' ∉ body) : parseMarked marker body.withReturns = parseMarked marker body := by
  have hwithout : withoutMarker marker body.withReturns =
      (withoutMarker marker body).withReturns := by
    rw [withoutMarker, withoutMarker, after?_withReturns (isUnbroken_singleton hmarker),
      Option.getD_map]
  have hnotMem : '\r' ∉ withoutMarker marker body := by
    rw [withoutMarker]
    cases hafter : after? [marker] body with
    | none => exact hbody
    | some rest =>
        rw [eq_append_of_after? hafter] at hbody
        exact fun hmem => hbody (List.mem_append_right [marker] hmem)
  rw [parseMarked, parseMarked, hwithout, parse, parse, lines_withReturns hnotMem]

end DocComment

namespace Tree

def HasPlainComments (tree : Tree) : Prop :=
  ∀ id body, tree.content? id = some (.comment body) → '\r' ∉ body

theorem hasPlainComments_of_parse {source : Text} {tree : Tree} (h : parse source = .ok tree)
    (hsource : '\r' ∉ source) : tree.HasPlainComments := by
  intro id body hbody
  obtain ⟨outline, houtline, rfl⟩ := parse_eq_ok_iff.mp h
  have hpart := partAt_of_content? houtline hbody (by simp [rootNode])
  obtain ⟨-, -, hextract, -⟩ := comment_of_partAt hpart hbody
  rw [hextract, List.extract_eq_take_drop]
  exact fun hmem => hsource (List.mem_of_mem_drop (List.mem_of_mem_take hmem))

end Tree

def Record.withReturns (record : Record) : Record :=
  { record with
    name := record.name.withReturns
    source := record.source.withReturns }

section Findings

variable {marker : Char} {tree : Tree}

theorem RegionMark.ofNode?_withReturns (hmarker : Text.isBlank marker = false) {node : Node}
    (hnode : ∀ body, node.content = .comment body → '\r' ∉ body) :
    ofNode? marker node.withReturns = ofNode? marker node := by
  obtain ⟨content, start, stop, parent, children⟩ := node
  cases content with
  | comment body =>
      have hparse := DocComment.parseMarked_withReturns hmarker (hnode body rfl)
      simp only [ofNode?, Node.withReturns, Content.withReturns, Content.comment?,
        Option.bind_some, hparse]
  | text run => rfl
  | definition value => rfl
  | other label => rfl

theorem Regions.ofTree_withReturns (hmarker : Text.isBlank marker = false)
    (hcomments : tree.HasPlainComments) :
    ofTree marker tree.withReturns = ofTree marker tree := by
  have hmark (id : Nat) :
      (tree.withReturns.node? id).bind (RegionMark.ofNode? marker) =
        (tree.node? id).bind (RegionMark.ofNode? marker) := by
    rw [Tree.node?_withReturns]
    cases hnode : tree.node? id with
    | none => rfl
    | some node =>
        apply RegionMark.ofNode?_withReturns hmarker
        intro body hbody
        apply hcomments id body
        rw [Tree.content?, hnode, Option.map_some, hbody]
  simp only [ofTree, RegionMark.ofTree, Tree.preorder_withReturns, hmark]

namespace FileRecords

theorem commentText?_withReturns (tree : Tree) (id : Nat) :
    commentText? tree.withReturns id = (commentText? tree id).map Text.withReturns := by
  rw [commentText?, commentText?, Tree.content?_withReturns]
  cases tree.content? id with
  | none => rfl
  | some content => exact Content.comment?_withReturns content

theorem firstSolid?_withReturns (tree : Tree) (ids : List Nat) :
    firstSolid? tree.withReturns ids = firstSolid? tree ids := by
  simp only [firstSolid?, Tree.isBlankText_withReturns]

theorem precedingComment?_withReturns (tree : Tree) (id : Nat) :
    precedingComment? tree.withReturns id = precedingComment? tree id := by
  simp only [precedingComment?, Tree.earlierSiblings_withReturns, firstSolid?_withReturns,
    commentText?_withReturns, Option.isSome_map]

theorem map_parseMarked_withReturns (hmarker : Text.isBlank marker = false) {found : Option Text}
    (hfound : ∀ body, found = some body → '\r' ∉ body) :
    ((found.map Text.withReturns).filter (DocComment.isDoc marker)).map
        (DocComment.parseMarked marker) =
      (found.filter (DocComment.isDoc marker)).map (DocComment.parseMarked marker) := by
  cases found with
  | none => rfl
  | some body =>
      have hparse := DocComment.parseMarked_withReturns hmarker (hfound body rfl)
      rw [Option.map_some, Option.filter_some, Option.filter_some,
        DocComment.isDoc_withReturns hmarker]
      by_cases hdoc : DocComment.isDoc marker body = true
      · rw [if_pos hdoc, if_pos hdoc, Option.map_some, Option.map_some, hparse]
      · rw [if_neg hdoc, if_neg hdoc]

theorem notMem_of_commentText? (hcomments : tree.HasPlainComments) {id : Nat} {body : Text}
    (h : commentText? tree id = some body) : '\r' ∉ body :=
  hcomments id body (commentText?_eq_some_iff.mp h)

theorem recordOf_withReturns (hmarker : Text.isBlank marker = false)
    (hcomments : tree.HasPlainComments) (regions : List Region) (filename : Text) (id : Nat)
    (definition : Definition) :
    recordOf marker tree.withReturns regions filename id definition.withReturns =
      (recordOf marker tree regions filename id definition).withReturns := by
  have hcategory : (tree.withReturns.node? id).bind (fun node => Region.find? regions node.start) =
      (tree.node? id).bind fun node => Region.find? regions node.start := by
    rw [Tree.node?_withReturns]
    cases tree.node? id <;> rfl
  have hcomment : (precedingComment? tree id).bind (commentText? tree.withReturns) =
      ((precedingComment? tree id).bind (commentText? tree)).map Text.withReturns := by
    cases precedingComment? tree id with
    | none => rfl
    | some sibling => exact commentText?_withReturns tree sibling
  have hdoc : (attached? marker tree.withReturns id).map (DocComment.parseMarked marker) =
      (attached? marker tree id).map (DocComment.parseMarked marker) := by
    rw [attached?, attached?, precedingComment?_withReturns, hcomment]
    apply map_parseMarked_withReturns hmarker
    intro body hbody
    obtain ⟨sibling, -, hsibling⟩ := Option.bind_eq_some_iff.mp hbody
    exact notMem_of_commentText? hcomments hsibling
  simp only [recordOf, hcategory, hdoc, Record.withReturns, Definition.withReturns]

theorem description?_withReturns (hmarker : Text.isBlank marker = false)
    (hcomments : tree.HasPlainComments) (taken : List Nat) :
    description? marker tree.withReturns taken = description? marker tree taken := by
  rw [description?, description?, Tree.children_withReturns, firstSolid?_withReturns]
  cases firstSolid? tree (tree.children 0) with
  | none => rfl
  | some first =>
      have hplain : ∀ body, commentText? tree first = some body → '\r' ∉ body := fun body hbody =>
        notMem_of_commentText? hcomments hbody
      simp only [Option.bind_some, commentText?_withReturns,
        map_parseMarked_withReturns hmarker hplain]

def withReturns (found : FileRecords) : FileRecords :=
  { found with records := found.records.map Record.withReturns }

theorem collect_withReturns (hmarker : Text.isBlank marker = false)
    (hcomments : tree.HasPlainComments) (regions : List Region) (filename : Text) :
    collect marker tree.withReturns regions filename =
      (collect marker tree regions filename).withReturns := by
  simp only [collect, withReturns, Tree.definitions_withReturns, List.filterMap_map, List.map_map,
    Function.comp_def, precedingComment?_withReturns, description?_withReturns hmarker hcomments,
    recordOf_withReturns hmarker hcomments]

end FileRecords

def Findings.withReturns (findings : Findings) : Findings :=
  { findings with found := findings.found.withReturns }

theorem Findings.ofTree_withReturns (hmarker : Text.isBlank marker = false)
    (hcomments : tree.HasPlainComments) (filename : Text) :
    ofTree marker filename tree.withReturns = (ofTree marker filename tree).withReturns := by
  simp only [ofTree, withReturns, Regions.ofTree_withReturns hmarker hcomments,
    FileRecords.collect_withReturns hmarker hcomments]

end Findings

def Fault.start? : Fault → Option Position
  | unclosedComment start => some start
  | unclosedDefinition _ _ start => some start
  | unexpectedClosing _ start => some start
  | missingName _ start => some start
  | _ => none

theorem Fault.code_withReturns (fault : Fault) : fault.withReturns.code = fault.code := by
  cases fault <;> rfl

theorem Fault.start?_withReturns (fault : Fault) : fault.withReturns.start? = fault.start? := by
  cases fault <;> rfl

namespace Source

def withReturns (source : Source) : Source :=
  { source with content := source.content.withReturns }

theorem document_withReturns {source : Source} (hsource : PlainBreaks source.content)
    {marker : Char} (hmarker : Text.isBlank marker = false) :
    source.withReturns.document Tree.parse marker =
      ((source.document Tree.parse marker).map Findings.withReturns).mapError
        Fault.withReturns := by
  rw [document, document, withReturns, Tree.parse_withReturns hsource]
  cases htree : Tree.parse source.content with
  | error fault => rfl
  | ok tree =>
      have hcomments := Tree.hasPlainComments_of_parse htree hsource.notMem
      exact congrArg Except.ok (Findings.ofTree_withReturns hmarker hcomments source.name)

/--
The documentation does not depend on how lines are broken.  Where every feed stands
alone, returns in front of the feeds change the names and source texts of definitions
and nothing else; and a fault stays what it is, where it is.
-/
theorem document_ignores_returns {source : Source} (hsource : PlainBreaks source.content)
    {marker : Char} (hmarker : Text.isBlank marker = false) :
    match source.document Tree.parse marker, source.withReturns.document Tree.parse marker with
    | .ok findings, .ok other =>
        other.regions.regions = findings.regions.regions ∧
        other.regions.categories = findings.regions.categories ∧
        other.regions.diagnostics = findings.regions.diagnostics ∧
        other.found.description = findings.found.description ∧
        other.found.records = findings.found.records.map Record.withReturns
    | .error fault, .error other =>
        other = fault.withReturns ∧ other.code = fault.code ∧ other.start? = fault.start?
    | _, _ => False := by
  rw [document_withReturns hsource hmarker]
  cases source.document Tree.parse marker with
  | error fault => exact ⟨rfl, fault.code_withReturns, fault.start?_withReturns⟩
  | ok findings => exact ⟨rfl, rfl, rfl, rfl, rfl⟩

/-- Breaks in a comment, in a quoted name, between parameters and in a closing tag. -/
theorem document_ignores_returns_multiline : ∃ source : Source, ∃ findings other,
    source.content = "\n<#--\n @begin A\n--><#--- Text.\n@since 1-->\n".toList ++
      "<#macro \"a\nb\" x\n y=1\n>\n</#macro\n>".toList ∧
    PlainBreaks source.content ∧
    source.document Tree.parse '-' = .ok findings ∧
    source.withReturns.document Tree.parse '-' = .ok other ∧
    findings.found.records.map Record.name = ["a\nb".toList] ∧
    other.found.records.map Record.name = ["a\r\nb".toList] ∧
    other.found.records.map Record.doc = findings.found.records.map Record.doc ∧
    other.regions.regions = [⟨['A'], ⟨2, 1⟩, .endOfFile⟩] ∧
    other.regions.diagnostics = [⟨.missingEnd ['A'], ⟨2, 1⟩⟩] := by
  obtain ⟨source, hdef⟩ : ∃ source : Source, source =
      ⟨[], "\n<#--\n @begin A\n--><#--- Text.\n@since 1-->\n".toList ++
        "<#macro \"a\nb\" x\n y=1\n>\n</#macro\n>".toList⟩ :=
    ⟨_, rfl⟩
  have hsource : PlainBreaks source.content := by
    rw [hdef]
    exact ⟨by decide +kernel, by decide +kernel⟩
  have hmarker : Text.isBlank '-' = false := rfl
  have hfound : (source.document Tree.parse '-').toOption.map (fun findings =>
      (findings.found.records.map Record.name, findings.regions)) =
      some (["a\nb".toList],
        ⟨[⟨['A'], ⟨2, 1⟩, .endOfFile⟩], [⟨.missingEnd ['A'], ⟨2, 1⟩⟩]⟩) := by
    rw [hdef]
    decide +kernel
  have hsame := document_ignores_returns hsource hmarker
  cases hfindings : source.document Tree.parse '-' with
  | error fault =>
      rw [hfindings] at hfound
      cases hfound
  | ok findings =>
      cases hother : source.withReturns.document Tree.parse '-' with
      | error fault =>
          rw [hfindings, hother] at hsame
          exact hsame.elim
      | ok other =>
          rw [hfindings, hother] at hsame
          rw [hfindings] at hfound
          simp only [Except.toOption, Option.map_some, Option.some.injEq, Prod.mk.injEq] at hfound
          obtain ⟨hregions, -, hdiagnostics, -, hrecords⟩ := hsame
          obtain ⟨hnames, hmarks⟩ := hfound
          refine ⟨source, findings, other, congrArg Source.content hdef, hsource, hfindings, hother,
            hnames, ?_, ?_, ?_, ?_⟩
          · have hname : Record.name ∘ Record.withReturns = Text.withReturns ∘ Record.name := rfl
            rw [hrecords, List.map_map, hname, ← List.map_map, hnames]
            decide
          · rw [hrecords, List.map_map]
            rfl
          · rw [hregions, hmarks]
          · rw [hdiagnostics, hmarks]

end Source

end TemplateDocs
