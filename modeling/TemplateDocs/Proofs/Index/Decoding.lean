import TemplateDocs.Proofs.Cli.Run
import TemplateDocs.Proofs.Json.Reading

/-!
# Decoding an index

Every part of an index is found again in its JSON value, by the names of the fields.
Each kind of value has a reader `ofJson?` that undoes `toJson`; with the reader of JSON
texts they decode what a scan prints.
-/

namespace TemplateDocs

namespace Json

def get? {α : Type} (name : Text) (decode : Json → Option α) : Json → Option α
  | object fields => (Keyed.find? name fields).bind decode
  | _ => none

def number? : Json → Option Nat
  | number value => some value
  | _ => none

def string? : Json → Option Text
  | string value => some value
  | _ => none

def option? {α : Type} (decode : Json → Option α) : Json → Option (Option α)
  | null => some none
  | value => (decode value).map some

def list? {α : Type} (decode : Json → Option α) : Json → Option (List α)
  | array items => items.mapM decode
  | _ => none

/-- The fields of an object whose names ascend, decoded. -/
def keyed? {α : Type} (decode : Json → Option α) : Json → Option (Keyed α)
  | object fields =>
      (fields.mapM fun field => (decode field.2).map fun value => (field.1, value)).bind
        fun entries =>
          if h : (entries.map Prod.fst).Pairwise (· < ·) then some ⟨entries, h⟩ else none
  | _ => none

@[simp] theorem get?_object {α : Type} (name : Text) (decode : Json → Option α)
    (fields : List (Text × Json)) :
    get? name decode (object fields) = (Keyed.find? name fields).bind decode := rfl

@[simp] theorem number?_number (value : Nat) : number? (number value) = some value := rfl

@[simp] theorem string?_string (value : Text) : string? (string value) = some value := rfl

@[simp] theorem option?_ofOption (value : Option Text) :
    option? string? (ofOption value) = some value := by
  cases value <;> rfl

section Containers

variable {α β : Type}

theorem mapM_map_of_undone (decode : β → Option α) (encode : α → β)
    (h : ∀ value, decode (encode value) = some value) (values : List α) :
    (values.map encode).mapM decode = some values := by
  induction values with
  | nil => rfl
  | cons value values ih => simp [h, ih]

variable {decode : Json → Option α} {encode : α → Json}

theorem list?_map (h : ∀ value, decode (encode value) = some value) (values : List α) :
    list? decode (array (values.map encode)) = some values :=
  mapM_map_of_undone decode encode h values

@[simp] theorem list?_ofTexts (texts : List Text) : list? string? (ofTexts texts) = some texts :=
  list?_map string?_string texts

theorem keyed?_map (h : ∀ value, decode (encode value) = some value) (collection : Keyed α) :
    keyed? decode (object (collection.entries.map fun entry => (entry.1, encode entry.2))) =
      some collection := by
  have hentries := mapM_map_of_undone
    (fun field => (decode field.2).map fun value => (field.1, value))
    (fun entry : Text × α => (entry.1, encode entry.2)) (by simp [h]) collection.entries
  simp [keyed?, hentries, collection.ascending]

end Containers

end Json

open Json (get? number? string? option? list? keyed?)

/-! ## The parts of an index -/

def Position.ofJson? (json : Json) : Option Position := do
  let line ← json.get? "line".toList number?
  let column ← json.get? "column".toList number?
  return ⟨line, column⟩

@[simp] theorem Position.ofJson?_toJson (position : Position) :
    ofJson? position.toJson = some position := by
  simp [toJson, ofJson?, Keyed.find?]

def DefinitionKind.ofJson? (json : Json) : Option DefinitionKind :=
  (string? json).bind fun label =>
    [macroDef, functionDef].find? fun kind => kind.label = label

@[simp] theorem DefinitionKind.ofJson?_toJson (kind : DefinitionKind) :
    ofJson? kind.toJson = some kind := by
  cases kind <;> rfl

def Param.ofJson? (json : Json) : Option Param := do
  let name ← json.get? "name".toList string?
  let description ← json.get? "description".toList string?
  return ⟨name, description⟩

theorem Param.ofJson?_toJson (param : Param) : ofJson? param.toJson = some param := by
  simp [toJson, ofJson?, Keyed.find?]

def DocComment.ofJson? (json : Json) : Option DocComment := do
  let tags ← json.get? "tags".toList (keyed? string?)
  let params ← json.get? "params".toList (list? Param.ofJson?)
  let comment ← json.get? "comment".toList string?
  let summary ← json.get? "short_comment".toList string?
  return ⟨tags, params, comment, summary⟩

@[simp] theorem DocComment.ofJson?_toJson (comment : DocComment) :
    ofJson? comment.toJson = some comment := by
  have htags := Json.keyed?_map Json.string?_string comment.tags
  have hparams := Json.list?_map Param.ofJson?_toJson comment.params
  simp [toJson, ofJson?, Keyed.find?, htags, hparams]

@[simp] theorem DocComment.option?_optionToJson (comment : Option DocComment) :
    option? ofJson? (optionToJson comment) = some comment := by
  cases comment with
  | none => rfl
  | some comment => exact congrArg (Option.map some) comment.ofJson?_toJson

def Record.ofJson? (json : Json) : Option Record := do
  let name ← json.get? "name".toList string?
  let kind ← json.get? "type".toList DefinitionKind.ofJson?
  let arguments ← json.get? "arguments".toList (list? string?)
  let catchAll ← json.get? "catch_all".toList (option? string?)
  let source ← json.get? "source".toList string?
  let filename ← json.get? "filename".toList string?
  let category ← json.get? "category".toList (option? string?)
  let doc ← json.get? "tags".toList DocComment.ofJson?
  return ⟨name, kind, arguments, catchAll, source, filename, category, doc⟩

theorem Record.ofJson?_toJson (record : Record) : ofJson? record.toJson = some record := by
  simp [toJson, ofJson?, Keyed.find?]

@[simp] theorem list?_recordsToJson (records : List Record) :
    list? Record.ofJson? (recordsToJson records) = some records :=
  Json.list?_map Record.ofJson?_toJson records

@[simp] theorem Categories.keyed?_toJson (categories : Categories) :
    keyed? (list? Record.ofJson?) categories.toJson = some categories :=
  Json.keyed?_map list?_recordsToJson categories

def FileDoc.ofJson? (json : Json) : Option FileDoc := do
  let filename ← json.get? "filename".toList string?
  let description ← json.get? "description".toList (option? DocComment.ofJson?)
  let records ← json.get? "definitions".toList (list? Record.ofJson?)
  let categories ← json.get? "categories".toList (keyed? (list? Record.ofJson?))
  return ⟨filename, description, records, categories⟩

theorem FileDoc.ofJson?_toJson (file : FileDoc) : ofJson? file.toJson = some file := by
  simp [toJson, ofJson?, Keyed.find?]

/-- A problem without fields is a string, and each other one the only field of an object. -/
def Problem.ofJson? (json : Json) : Option Problem :=
  if string? json = some "EndWithoutBegin".toList then
    some endWithoutBegin
  else
    let nested := json.get? "NestedBegin".toList fun fields => do
      let openName ← fields.get? "open".toList string?
      let name ← fields.get? "name".toList string?
      return nestedBegin openName name
    let missing := json.get? "MissingEnd".toList fun fields => do
      let name ← fields.get? "name".toList string?
      return missingEnd name
    nested <|> missing

@[simp] theorem Problem.ofJson?_toJson (problem : Problem) :
    ofJson? problem.toJson = some problem := by
  cases problem <;> simp [toJson, ofJson?, Keyed.find?, string?]

/-- The fields of the diagnostic stand beside the name of the file. -/
def FileDiagnostic.ofJson? (json : Json) : Option FileDiagnostic := do
  let file ← json.get? "file".toList string?
  let problem ← json.get? "kind".toList Problem.ofJson?
  let position ← json.get? "position".toList Position.ofJson?
  return ⟨file, problem, position⟩

theorem FileDiagnostic.ofJson?_toJson (diagnostic : FileDiagnostic) :
    ofJson? diagnostic.toJson = some diagnostic := by
  simp [toJson, ofJson?, Keyed.find?]

def Failure.ofJson? (json : Json) : Option Failure := do
  let filename ← json.get? "filename".toList string?
  let message ← json.get? "message".toList string?
  return ⟨filename, message⟩

theorem Failure.ofJson?_toJson (failure : Failure) : ofJson? failure.toJson = some failure := by
  simp [toJson, ofJson?, Keyed.find?]

/-! ## The whole index -/

namespace Index

def ofJson? (json : Json) : Option Index := do
  let files ← json.get? "files".toList (list? FileDoc.ofJson?)
  let categories ← json.get? "all_categories".toList (keyed? (list? Record.ofJson?))
  let records ← json.get? "all_definitions".toList (list? Record.ofJson?)
  let failures ← json.get? "failures".toList (list? Failure.ofJson?)
  let diagnostics ← json.get? "diagnostics".toList (list? FileDiagnostic.ofJson?)
  return ⟨files, categories, records, failures, diagnostics⟩

theorem ofJson?_toJson (index : Index) : ofJson? index.toJson = some index := by
  have hfiles := Json.list?_map FileDoc.ofJson?_toJson index.files
  have hfailures := Json.list?_map Failure.ofJson?_toJson index.failures
  have hdiagnostics := Json.list?_map FileDiagnostic.ofJson?_toJson index.diagnostics
  simp [toJson, ofJson?, Keyed.find?, hfiles, hfailures, hdiagnostics]

def decode? (text : Text) : Option Index :=
  (Json.read? text).bind ofJson?

theorem decode?_of_written {index : Index} {text : Text} (h : Json.Written index.toJson text) :
    decode? text = some index := by
  simp [decode?, Json.read?_of_written h, ofJson?_toJson]

end Index

namespace Cli

/-- The characters on standard output: every line ends with a line break. -/
def Output.printed (output : Output) : Text :=
  output.stdout.flatMap (· ++ ['\n'])

theorem printed_scanOutput_json (console : Console) (color : Bool) (filter : LogFilter)
    (outcome : Outcome) :
    (console.scanOutput color filter .json outcome).printed =
      outcome.index.toJson.pretty ++ ['\n'] := by
  simp [Output.printed, Console.scanOutput]

theorem Resolves.printed_scan {environment : Environment} {arguments files : List Text}
    {invocation : Invocation} {task : Task} {format : Format}
    (h : Resolves environment arguments invocation task)
    (hcommand : task.command = .scan format files) (console : Console) :
    (console.run environment arguments).printed =
      (console.scanOutput task.color task.filter format
        (environment.disk.document task.options task.paths)).printed := by
  rw [h.run_eq, hcommand]
  rfl

/--
A scan prints JSON, the index can be decoded from it, and so it prints the same for no
two indexes.  What a run prints that comes to such a scan is the same.
-/
theorem scan_json_decodes (console : Console) (color : Bool) (filter : LogFilter)
    (outcome : Outcome) :
    let printed := (console.scanOutput color filter .json outcome).printed
    Json.Written outcome.index.toJson printed ∧
      Index.decode? printed = some outcome.index ∧
      (∀ console' color' filter' outcome',
        (Console.scanOutput console' color' filter' .json outcome').printed = printed →
          outcome'.index = outcome.index) ∧
      ∀ console' environment arguments invocation task files,
        Resolves environment arguments invocation task → task.command = .scan .json files →
        environment.disk.document task.options task.paths = outcome →
        (Console.run console' environment arguments).printed = printed := by
  have hdecode : ∀ console color filter outcome,
      Index.decode? (Console.scanOutput console color filter .json outcome).printed =
        some outcome.index := by
    intro console color filter outcome
    rw [printed_scanOutput_json]
    exact Index.decode?_of_written (Json.written_pretty outcome.index.toJson)
  refine ⟨?_, hdecode _ _ _ _, ?_, ?_⟩
  · rw [printed_scanOutput_json]
    exact Json.written_pretty outcome.index.toJson
  · intro console' color' filter' outcome' heq
    have hother := hdecode console' color' filter' outcome'
    rw [heq, hdecode console color filter outcome] at hother
    exact (Option.some.inj hother).symm
  · rintro console' environment arguments invocation task files h hcommand rfl
    rw [h.printed_scan hcommand, printed_scanOutput_json, printed_scanOutput_json]

/-- One template, with quotes in the name of a category. -/
def quotedDisk : Disk := fun path =>
  if path = ['a'] then .ok (.file "<#-- @begin \"B\" --><#macro m></#macro>".toUTF8)
  else .error .notFound

def quotedEnvironment : Environment :=
  ⟨[], quotedDisk, true, none⟩

def quotedArguments : List Text :=
  ["scan".toList, "--format".toList, "json".toList, ['a']]

def quotedTask : Task :=
  ⟨.scan .json [['a']], false, .atLevel .warn, [], .standard, [['a']]⟩

theorem resolves_quotedTask :
    Resolves quotedEnvironment quotedArguments
      ⟨some (.scan .json [['a']]), none, none, false, false, false⟩ quotedTask := by
  refine ⟨?_, rfl, rfl, rfl, rfl, ?_, rfl⟩
  · decide +kernel
  · decide +kernel

/-- The index of a template is decoded from what a run over the template prints. -/
theorem scan_json_decodes_template :
    let index := (quotedDisk.document .standard [['a']]).index
    (∃ invocation, Resolves quotedEnvironment quotedArguments invocation quotedTask) ∧
      index.records.map Record.category = [some "\"B\"".toList] ∧
      Index.decode? (run quotedEnvironment quotedArguments).printed = some index := by
  obtain ⟨-, hdecode, -, hrun⟩ :=
    scan_json_decodes .plain false (.atLevel .warn) (quotedDisk.document .standard [['a']])
  refine ⟨⟨_, resolves_quotedTask⟩, ?_, ?_⟩
  · decide +kernel
  · rw [run, hrun .plain _ _ _ _ _ resolves_quotedTask rfl rfl]
    exact hdecode

end Cli

end TemplateDocs
