import SceneScript.Proofs.Cutting
import SceneScript.Proofs.JsonReading
import SceneScript.Proofs.Verdicts
import SceneScript.Proofs.WrittenJson

/-! # What a report holds

A report is written as JSON, and whoever reads JSON gets back what it holds: the file, the verdict,
the document in all its parts, and of each diagnostic everything but its labels. Nothing that stands
in a path, a parameter, a style or a message can be taken for a part of the report itself.
-/

namespace SceneScript

/-! ## Parts of a JSON value -/

namespace Json

variable {α β : Type}

/-- The text, if the value is a string. -/
def asText? : Json → Option Text
  | string text => some text
  | _ => none

/-- The truth value, if the value is one. -/
def asBool? : Json → Option Bool
  | bool b => some b
  | _ => none

/-- The number, if the value is a natural number. -/
def asCount? : Json → Option Nat
  | integer (.ofNat n) => some n
  | _ => none

/-- What is read from the value, if it is not null. -/
def asOption? (read : Json → Option α) : Json → Option (Option α)
  | null => some none
  | value => (read value).map some

/-- What is read from the items, if the value is an array. -/
def asList? (read : Json → Option α) : Json → Option (List α)
  | array items => items.mapM read
  | _ => none

/-- What is read from the members under their keys, if the value is an object. -/
def asEntries? (read : Json → Option α) : Json → Option (Entries α)
  | object members =>
    (members.mapM fun member => (read member.2).map fun a => (member.1, a)).map Entries.ofList
  | _ => none

/-- What is read from the member of a name. -/
def field? (name : String) (read : Json → Option α) (value : Json) : Option α :=
  (value.member? name.toList).bind read

/-- What is read from each written item is read from them all, in order. -/
theorem mapM_map {γ : Type} {read : β → Option γ} {f : α → β} {g : α → γ} {list : List α}
    (h : ∀ a ∈ list, read (f a) = some (g a)) : (list.map f).mapM read = some (list.map g) := by
  induction list with
  | nil => rfl
  | cons a rest ih =>
      obtain ⟨ha, hrest⟩ := List.forall_mem_cons.mp h
      simp only [List.map_cons, List.mapM_cons, ha, ih hrest, Option.bind_eq_bind, Option.bind_some,
        Option.pure_def]

theorem asList?_map {read : Json → Option β} {f : α → Json} {g : α → β}
    (h : ∀ a, read (f a) = some (g a)) (list : List α) :
    asList? read (array (list.map f)) = some (list.map g) :=
  mapM_map fun a _ => h a

theorem asText?_string (text : Text) : asText? (string text) = some text :=
  rfl

theorem asEntries?_map {read : Json → Option α} {f : α → Json} (h : ∀ a, read (f a) = some a)
    (entries : Entries α) :
    asEntries? read (object (entries.toList.map fun entry => (entry.1, f entry.2))) =
      some entries := by
  have hmembers : (entries.toList.map fun entry => (entry.1, f entry.2)).mapM
      (fun member => (read member.2).map fun a => (member.1, a)) = some (entries.toList.map id) :=
    mapM_map fun entry _ => by rw [h]; rfl
  rw [asEntries?, hmembers, List.map_id, Option.map_some, Entries.ofList_toList]

end Json

/-! ## Documents -/

/-- The parameter that a JSON value stands for. -/
def Value.ofJson? : Json → Option Value
  | .integer n => some (.integer n)
  | .decimal x => some (.decimal x)
  | .string content => some (.text content)
  | _ => none

/-- The shape that a JSON value stands for. -/
def Shape.ofJson? (value : Json) : Option Shape := do
  let kind ← value.field? "type" Json.asText?
  let name ← value.field? "name" Json.asText?
  let params ← value.field? "params" (Json.asEntries? Value.ofJson?)
  let style ← value.field? "style" (Json.asEntries? Json.asText?)
  return ⟨kind, name, params, style⟩

/-- The document that a JSON value stands for. -/
def Document.ofJson? (value : Json) : Option Document := do
  let listName ← value.field? "list_name" Json.asText?
  let shapes ← value.field? "shapes" (Json.asList? Shape.ofJson?)
  return ⟨listName, shapes⟩

theorem Value.ofJson?_toJson (value : Value) : ofJson? value.toJson = some value := by
  cases value <;> rfl

theorem Shape.ofJson?_toJson (shape : Shape) : ofJson? shape.toJson = some shape := by
  have hkind : shape.toJson.field? "type" Json.asText? = some shape.kind := rfl
  have hname : shape.toJson.field? "name" Json.asText? = some shape.name := rfl
  have hparams : shape.toJson.field? "params" (Json.asEntries? Value.ofJson?) =
      some shape.params :=
    Json.asEntries?_map Value.ofJson?_toJson shape.params
  have hstyle : shape.toJson.field? "style" (Json.asEntries? Json.asText?) = some shape.style :=
    Json.asEntries?_map Json.asText?_string shape.style
  simp only [ofJson?, hkind, hname, hparams, hstyle, Option.bind_eq_bind, Option.bind_some,
    Option.pure_def]

theorem Document.ofJson?_toJson (document : Document) :
    ofJson? document.toJson = some document := by
  have hname : document.toJson.field? "list_name" Json.asText? = some document.listName := rfl
  have hshapes : document.toJson.field? "shapes" (Json.asList? Shape.ofJson?) =
      some document.shapes := by
    have hread := Json.asList?_map (g := id) Shape.ofJson?_toJson document.shapes
    rwa [List.map_id] at hread
  simp only [ofJson?, hname, hshapes, Option.bind_eq_bind, Option.bind_some, Option.pure_def]

/-! ## Reports -/

/-- What a report says of a diagnostic: all of it but the labels. -/
structure DiagnosticContent where
  severity : Severity
  code : Option Code
  message : String
  line : Nat
  column : Nat
  help : Option String
  deriving DecidableEq, Repr

/-- What a report says. -/
structure ReportContent where
  file : Text
  ok : Bool
  document : Option Document
  diagnostics : List DiagnosticContent

def Diagnostic.content (diagnostic : Diagnostic) : DiagnosticContent :=
  ⟨diagnostic.severity, diagnostic.code, diagnostic.message, diagnostic.position.line,
    diagnostic.position.column, diagnostic.help⟩

def CheckReport.content (report : CheckReport) : ReportContent :=
  ⟨report.file, report.ok, report.document, report.diagnostics.map Diagnostic.content⟩

/-- The severity that is written so. -/
def Severity.ofString? (text : String) : Option Severity :=
  [error, warning].find? fun severity => severity.toString = text

theorem Severity.ofString?_toString (severity : Severity) :
    ofString? severity.toString = some severity := by
  cases severity <;> decide

theorem Code.ofString?_toString (code : Code) : ofString? code.toString = some code := by
  cases code <;> decide

/-- A string, if the value is one. -/
def Json.asString? (value : Json) : Option String :=
  value.asText?.map String.ofList

/-- What a JSON value says of a diagnostic. -/
def DiagnosticContent.ofJson? (value : Json) : Option DiagnosticContent := do
  let severity ← value.field? "severity" fun severity => severity.asString?.bind Severity.ofString?
  let code ← value.field? "code" (Json.asOption? fun code => code.asString?.bind Code.ofString?)
  let message ← value.field? "message" Json.asString?
  let line ← value.field? "line" Json.asCount?
  let column ← value.field? "column" Json.asCount?
  let help ← value.field? "help" (Json.asOption? Json.asString?)
  return ⟨severity, code, message, line, column, help⟩

/-- What a JSON value says as a report. A report may have no document. -/
def ReportContent.ofJson? (value : Json) : Option ReportContent := do
  let file ← value.field? "file" Json.asText?
  let ok ← value.field? "ok" Json.asBool?
  let document ← match value.member? "document".toList with
    | some document => (Document.ofJson? document).map some
    | none => some none
  let diagnostics ← value.field? "diagnostics" (Json.asList? DiagnosticContent.ofJson?)
  return ⟨file, ok, document, diagnostics⟩

theorem Json.asString?_string (text : String) : (string text.toList).asString? = some text := by
  rw [asString?, asText?, Option.map_some, String.ofList_toList]

theorem Json.asOption?_ofOption {α : Type} {read : Json → Option α} {f : α → String}
    (h : ∀ a, read (string (f a).toList) = some a) (value : Option α) :
    asOption? read (ofOption (value.map f)) = some value := by
  cases value with
  | none => rfl
  | some a => exact congrArg (Option.map some) (h a)

theorem DiagnosticContent.ofJson?_toJson (diagnostic : Diagnostic) :
    ofJson? diagnostic.toJson = some diagnostic.content := by
  have hseverity : (diagnostic.toJson.field? "severity" fun severity =>
      severity.asString?.bind Severity.ofString?) = some diagnostic.severity := by
    have hread : (Json.asString? (.string (toString diagnostic.severity).toList)).bind
        Severity.ofString? = some diagnostic.severity := by
      rw [Json.asString?_string]
      exact Severity.ofString?_toString _
    exact hread
  have hcode : diagnostic.toJson.field? "code"
      (Json.asOption? fun code => code.asString?.bind Code.ofString?) = some diagnostic.code := by
    refine Json.asOption?_ofOption (fun code => ?_) diagnostic.code
    rw [Json.asString?_string]
    exact Code.ofString?_toString code
  have hmessage : diagnostic.toJson.field? "message" Json.asString? = some diagnostic.message :=
    Json.asString?_string _
  have hline : diagnostic.toJson.field? "line" Json.asCount? = some diagnostic.position.line := rfl
  have hcolumn : diagnostic.toJson.field? "column" Json.asCount? =
      some diagnostic.position.column := rfl
  have hhelp : diagnostic.toJson.field? "help" (Json.asOption? Json.asString?) =
      some diagnostic.help := by
    have hread := Json.asOption?_ofOption (f := id) Json.asString?_string diagnostic.help
    rwa [Option.map_id] at hread
  simp only [ofJson?, hseverity, hcode, hmessage, hline, hcolumn, hhelp, Option.bind_eq_bind,
    Option.bind_some, Option.pure_def, Diagnostic.content]

theorem ReportContent.ofJson?_toJson (report : CheckReport) :
    ofJson? report.toJson = some report.content := by
  obtain ⟨hfile, hok, hdocument, hdiagnostics⟩ := report.members_toJson
  have hlist := Json.asList?_map DiagnosticContent.ofJson?_toJson report.diagnostics
  rw [ofJson?, hdocument]
  simp only [Json.field?, hfile, hok, hdiagnostics, hlist, Json.asText?, Json.asBool?,
    Option.bind_eq_bind, Option.bind_some, Option.pure_def, CheckReport.content]
  cases report.document with
  | none => rfl
  | some document => simp [Document.ofJson?_toJson]

/-! ## Written reports -/

/-- Whether the value is a decimal number, of which only the nearest double is kept. -/
def Value.isDecimal : Value → Bool
  | .decimal _ => true
  | _ => false

/-- Whether all parameters are integers and texts. -/
def Document.hasNoDecimals (document : Document) : Bool :=
  document.shapes.all fun shape => shape.params.toList.all fun entry => !entry.2.isDecimal

open Json (IsWritten isWritten_array isWritten_bool isWritten_integer isWritten_null
  isWritten_object isWritten_string)

theorem Value.isWritten_toJson {value : Value} (h : value.isDecimal = false) (limit : Nat) :
    IsWritten limit value.toJson := by
  cases value with
  | integer n => exact isWritten_integer limit n
  | decimal x => cases h
  | text content => exact isWritten_string limit content

theorem Shape.isWritten_toJson {shape : Shape}
    (h : ∀ entry ∈ shape.params.toList, entry.2.isDecimal = false) (limit : Nat) :
    IsWritten (limit + 2) shape.toJson := by
  have hparams : IsWritten (limit + 1)
      (.object (shape.params.toList.map fun entry => (entry.1, entry.2.toJson))) := by
    refine isWritten_object (List.forall_mem_map.mpr fun entry hentry => ?_)
    exact Value.isWritten_toJson (h entry hentry) limit
  have hstyle : IsWritten (limit + 1)
      (.object (shape.style.toList.map fun entry => (entry.1, .string entry.2))) := by
    refine isWritten_object (List.forall_mem_map.mpr fun entry _ => ?_)
    exact isWritten_string limit entry.2
  refine isWritten_object ?_
  simp only [List.forall_mem_cons]
  exact ⟨isWritten_string _ _, isWritten_string _ _, hparams, hstyle, List.forall_mem_nil _⟩

theorem Document.isWritten_toJson {document : Document} (h : document.hasNoDecimals) (limit : Nat) :
    IsWritten (limit + 4) document.toJson := by
  have hshapes : IsWritten (limit + 3) (.array (document.shapes.map Shape.toJson)) := by
    refine isWritten_array (List.forall_mem_map.mpr fun shape hshape => ?_)
    refine Shape.isWritten_toJson (fun entry hentry => ?_) limit
    have hall := List.all_eq_true.mp (List.all_eq_true.mp h shape hshape) entry hentry
    exact Bool.not_eq_true' _ ▸ hall
  refine isWritten_object ?_
  simp only [List.forall_mem_cons]
  exact ⟨isWritten_string _ _, hshapes, List.forall_mem_nil _⟩

theorem Json.isWritten_ofOption (limit : Nat) (text : Option String) :
    IsWritten limit (ofOption text) := by
  cases text with
  | none => exact isWritten_null limit
  | some text => exact isWritten_string limit text.toList

theorem Diagnostic.isWritten_toJson (diagnostic : Diagnostic) (limit : Nat) :
    IsWritten (limit + 1) diagnostic.toJson := by
  refine isWritten_object ?_
  simp only [List.forall_mem_cons]
  exact ⟨isWritten_string _ _, Json.isWritten_ofOption _ _, isWritten_string _ _,
    isWritten_integer _ _, isWritten_integer _ _, Json.isWritten_ofOption _ _,
    List.forall_mem_nil _⟩

/-- The deepest values in a report are the parameters: they stand in the object of a shape, in the
array of shapes, in the object of the document, in the object of the report. -/
theorem CheckReport.isWritten_toJson {report : CheckReport}
    (h : ∀ document, report.document = some document → document.hasNoDecimals) (limit : Nat) :
    IsWritten (limit + 5) report.toJson := by
  have hdiagnostics : IsWritten (limit + 4)
      (.array (report.diagnostics.map Diagnostic.toJson)) := by
    refine isWritten_array (List.forall_mem_map.mpr fun diagnostic _ => ?_)
    exact diagnostic.isWritten_toJson (limit + 2)
  unfold toJson
  refine isWritten_object ?_
  simp only [List.forall_mem_append, List.forall_mem_cons]
  refine ⟨⟨⟨isWritten_string _ _, isWritten_bool _ _, List.forall_mem_nil _⟩, ?_⟩, hdiagnostics,
    List.forall_mem_nil _⟩
  intro member hmember
  rw [Option.mem_toList] at hmember
  obtain ⟨document, hdocument, rfl⟩ := Option.map_eq_some_iff.mp hmember
  exact Document.isWritten_toJson (h document hdocument) limit

theorem CheckReport.content_ofOutcome (file : Text) (parsed : Except Diagnostic Document)
    (warnings : List Diagnostic) :
    (ofOutcome file parsed warnings).content =
      ⟨file, parsed.toBool, parsed.toOption,
        (parseErrors parsed ++ warnings).map Diagnostic.content⟩ := by
  cases parsed <;> rfl

/-- Whatever text stands in it, the report on a document without decimal numbers is a JSON text of
one value only, for every reader that takes values of five levels. Read back, it says which file was
checked, whether it is in order, the document if it is, with all entries in their order, and the
error and the warnings in theirs. -/
theorem report_read_back (file : Text) (parsed : Except Diagnostic Document)
    (warnings : List Diagnostic)
    (hdecimals : ∀ document, parsed = .ok document → document.hasNoDecimals)
    (limit : Nat) (hlimit : 5 ≤ limit) :
    let text := (CheckReport.ofOutcome file parsed warnings).write
    ∃ value, Json.read? limit text = some value ∧
      (∀ other, Json.IsText limit other text ↔ other = value) ∧
      ReportContent.ofJson? value = some
        { file := file
          ok := parsed.toBool
          document := parsed.toOption
          diagnostics := (parseErrors parsed ++ warnings).map Diagnostic.content } := by
  intro text
  obtain ⟨more, rfl⟩ := Nat.exists_eq_add_of_le' hlimit
  let report := CheckReport.ofOutcome file parsed warnings
  have hwritten : Json.IsWritten (more + 5) report.toJson := by
    refine CheckReport.isWritten_toJson (fun document hdocument => ?_) more
    exact hdecimals document
      (((CheckReport.tells_ofOutcome file parsed warnings).document_iff document).mp hdocument)
  have hread : Json.read? (more + 5) text = some report.toJson :=
    Json.read?_eq_some_iff.mpr hwritten.isText
  refine ⟨_, hread, fun other => ?_, ?_⟩
  · rw [← Json.read?_eq_some_iff, hread, Option.some.injEq]
    exact eq_comm
  · rw [ReportContent.ofJson?_toJson, CheckReport.content_ofOutcome]

/-- A number next to a text of the same digits, quotes and control characters in a style, and a
message that is written like a part of the report. -/
theorem report_read_back_escapes :
    let file : Text := "a\"b\\.slc".toList
    let shape : Shape :=
      { kind := "Square".toList
        name := ['A']
        params := ⟨[(['n'], .integer (-12)), (['t'], .text "-12".toList)], by decide⟩
        style := ⟨[("color".toList, "\"\\\t\x01é".toList), ("width".toList, [])], by decide⟩ }
    let document : Document := ⟨"Board".toList, [shape]⟩
    let warning := Diagnostic.ofMessage .warning "null\",\n\"ok\": false"
    document.hasNoDecimals ∧ 5 ≤ 128 ∧
      ∃ value, Json.read? 128 (CheckReport.ofOutcome file (.ok document) [warning]).write =
          some value ∧
        ReportContent.ofJson? value = some
          { file := file
            ok := true
            document := some document
            diagnostics := [⟨.warning, none, "null\",\n\"ok\": false", 1, 1, none⟩] } := by
  intro file shape document warning
  have hdecimals : document.hasNoDecimals := by decide
  have hlimit : 5 ≤ 128 := by decide
  obtain ⟨value, hread, _, hcontent⟩ := report_read_back file (.ok document) [warning]
    (by rintro _ ⟨rfl⟩; exact hdecimals) 128 hlimit
  exact ⟨hdecimals, hlimit, value, hread, hcontent⟩

end SceneScript
