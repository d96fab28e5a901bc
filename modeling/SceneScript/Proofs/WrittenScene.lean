import SceneScript.Proofs.Acceptance
import SceneScript.Proofs.Scanning
import SceneScript.Proofs.WrittenForms

/-! # Documents as they are written

A document is written as a list header and, for every shape, a shape header with parameters and a
style block. Parsing the written text gives the document back: neither a quoted text nor a style
value is ever taken for a header, a style block or the end of one, whatever it holds.
-/

namespace SceneScript

/-! ## Texts that declare shapes -/

/-- Wherever the text stands in a source, it declares the shapes and nothing else. -/
def DeclaresShapes (text : Text) (shapes : List Shape) : Prop :=
  ∀ (source front more : Text) (lineStart : Bool), source = front ++ (text ++ more) →
    ∃ (held : List Candidate) (after : Bool), List.Forall₂ Candidate.Declares held shapes ∧
      declarationsFrom source (structureTokens lineStart (Text.byteLength front) (text ++ more)) =
        held.map .shape ++ declarationsFrom source
          (structureTokens after (Text.byteLength (front ++ text)) more)

theorem declaresShapes_nil : DeclaresShapes [] [] := by
  intro source front more lineStart _
  refine ⟨[], lineStart, .nil, ?_⟩
  rw [List.append_nil]
  rfl

theorem DeclaresShapes.append {text next : Text} {shapes others : List Shape}
    (h : DeclaresShapes text shapes) (hnext : DeclaresShapes next others) :
    DeclaresShapes (text ++ next) (shapes ++ others) := by
  intro source front more lineStart hsource
  rw [List.append_assoc] at hsource
  obtain ⟨held, between, hheld, hfirst⟩ := h source front (next ++ more) lineStart hsource
  -- The next text is read as if the source began there, with the first one in its front.
  obtain ⟨later, after, hlater, hsecond⟩ := hnext source (front ++ text) more between
    (hsource.trans (List.append_assoc ..).symm)
  refine ⟨held ++ later, after, List.rel_append hheld hlater, ?_⟩
  rw [List.append_assoc, hfirst, hsecond, List.map_append, List.append_assoc, List.append_assoc]

/-- Texts one after another declare their shapes in order. -/
theorem declaresShapes_flatMap {α : Type} {items : List α} {text : α → Text}
    {shapes : α → List Shape} (h : ∀ item ∈ items, DeclaresShapes (text item) (shapes item)) :
    DeclaresShapes (items.flatMap text) (items.flatMap shapes) := by
  induction items with
  | nil => exact declaresShapes_nil
  | cons item rest ih =>
      obtain ⟨hitem, hrest⟩ := List.forall_mem_cons.mp h
      rw [List.flatMap_cons, List.flatMap_cons]
      exact hitem.append (ih hrest)

/-! ## Shapes -/

/-- A shape as it is written. -/
structure WrittenShape where
  kind : Text
  name : Text
  params : Entries Literal
  style : Entries Text

namespace WrittenShape

/-- The shape that is meant. -/
def shape (written : WrittenShape) : Shape where
  kind := written.kind
  name := written.name
  params := written.params.map Literal.value
  style := written.style

/-- The parameters as they are written between the parentheses. -/
def paramsText (written : WrittenShape) : Text :=
  [',', ' '].intercalate (written.params.toList.map fun entry => entry.1 ++ ':' :: entry.2.text)

/-- The header, up to the opening brace. -/
def headerText (written : WrittenShape) : Text :=
  headerFront written.kind written.name ++ (written.paramsText ++ headerBack)

/-- The style block. -/
def blockText (written : WrittenShape) : Text :=
  styleFront ++ (styleText written.style.toList ++ ['}'])

/-- The written form on three lines: the header, the style block and a closing brace. -/
def text (written : WrittenShape) : Text :=
  written.headerText ++ (['\n'] ++ (written.blockText ++ ['\n', '}', '\n']))

/-- The shape can be written. -/
structure Proper (written : WrittenShape) : Prop where
  kind : IsName written.kind ∧ written.kind ≠ listKeyword
  name : IsName written.name ∧ Naming.startsUppercase written.name ∧
    ¬ Naming.isReserved written.name
  params : ∀ entry ∈ written.params.toList, IsName entry.1 ∧ entry.2.Proper
  style : ∀ clause ∈ written.style.toList, ProperClause clause

instance : DecidablePred Proper := fun written =>
  decidable_of_iff
    ((IsName written.kind ∧ written.kind ≠ listKeyword) ∧
      (IsName written.name ∧ Naming.startsUppercase written.name ∧
        ¬ Naming.isReserved written.name) ∧
      (∀ entry ∈ written.params.toList, IsName entry.1 ∧ entry.2.Proper) ∧
      ∀ clause ∈ written.style.toList, ProperClause clause)
    ⟨fun ⟨hkind, hname, hparams, hstyle⟩ => ⟨hkind, hname, hparams, hstyle⟩,
    fun h => ⟨h.kind, h.name, h.params, h.style⟩⟩

/-- The parameters, with a blank after each comma. -/
def parameters (written : WrittenShape) : List WrittenParameter :=
  match written.params.toList with
  | [] => []
  | first :: rest => ⟨first.1, first.2, [], [], [], []⟩ ::
      rest.map fun entry => ⟨entry.1, entry.2, [' '], [], [], []⟩

theorem paramsText_eq (written : WrittenShape) :
    written.paramsText = parametersText written.parameters := by
  unfold paramsText parameters parametersText
  cases written.params.toList with
  | nil => rfl
  | cons first rest =>
      rw [List.map_cons, Text.intercalate_eq_join, List.map_cons, List.map_map, List.map_map]
      simp [WrittenParameter.text, WrittenParameter.keyText, WrittenParameter.valueText,
        Function.comp_def]

theorem map_entry_parameters (written : WrittenShape) :
    written.parameters.map WrittenParameter.entry =
      written.params.toList.map fun entry => (entry.1, entry.2.value) := by
  unfold parameters
  cases written.params.toList with
  | nil => rfl
  | cons first rest =>
      rw [List.map_cons, List.map_map]
      rfl

/-- Reading the parameters of a written header gives the values that are meant. -/
theorem readParameters_paramsText {written : WrittenShape}
    (h : ∀ parameter ∈ written.parameters, parameter.Proper) (span : Span) :
    readParameters ⟨parametersText written.parameters, span⟩ =
      .ok (written.params.map Literal.value) := by
  rw [readParameters_parametersText h, map_entry_parameters]
  exact congrArg Except.ok (Entries.ofList_toList (written.params.map Literal.value))

theorem proper_of_mem_parameters {written : WrittenShape}
    (h : ∀ entry ∈ written.params.toList, IsName entry.1 ∧ entry.2.Proper)
    {parameter : WrittenParameter} (hmem : parameter ∈ written.parameters) :
    parameter.Proper ∧ IsName parameter.key := by
  unfold parameters at hmem
  cases hparams : written.params.toList with
  | nil =>
      rw [hparams] at hmem
      cases hmem
  | cons first rest =>
      rw [hparams] at hmem h
      rcases List.mem_cons.mp hmem with rfl | hmem
      · obtain ⟨hname, hliteral⟩ := h first List.mem_cons_self
        exact ⟨⟨hname.1, hliteral, rfl, rfl, rfl, rfl⟩, hname⟩
      · obtain ⟨entry, hentry, rfl⟩ := List.mem_map.mp hmem
        obtain ⟨hname, hliteral⟩ := h entry (List.mem_cons_of_mem first hentry)
        have hblank : IsSpacing [' '] := rfl
        exact ⟨⟨hname.1, hliteral, hblank, rfl, rfl, rfl⟩, hname⟩

/-- A written header and a written block with white space between them declare the shape. -/
theorem declarationsFrom_shape {written : WrittenShape} (h : written.Proper) {gap : Text}
    (hgap : gap.all isBlank) {source front more : Text}
    (hsource : source = front ++ (written.headerText ++ (gap ++ (written.blockText ++ more))))
    (lineStart : Bool) :
    ∃ candidate : Candidate, candidate.Declares written.shape ∧
      declarationsFrom source (structureTokens lineStart (Text.byteLength front)
          (written.headerText ++ (gap ++ (written.blockText ++ more)))) =
        .shape candidate :: declarationsFrom source (structureTokens false (Text.byteLength
          (front ++ (written.headerText ++ (gap ++ written.blockText)))) more) := by
  have hparameters : ∀ parameter ∈ written.parameters, parameter.Proper ∧ IsName parameter.key :=
    fun _ hmem => proper_of_mem_parameters h.params hmem
  have hheaderSource : source = front ++ (headerFront written.kind written.name ++
      (parametersText written.parameters ++
        (headerBack ++ (gap ++ (written.blockText ++ more))))) := by
    rw [hsource, headerText, paramsText_eq]
    simp only [List.append_assoc]
  have hblockSource : source = (front ++ (written.headerText ++ gap)) ++
      (styleFront ++ (styleText written.style.toList ++ '}' :: more)) := by
    rw [hsource, blockText]
    simp only [List.append_assoc, List.singleton_append]
  obtain ⟨consumed, header, hform, hkind, hname, hparams, htokens⟩ := shapeHeader_form h.kind.1
    h.kind.2 h.name.1 (fun parameter hmem => (hparameters parameter hmem).1)
    (fun parameter hmem => (hparameters parameter hmem).2) hheaderSource lineStart
  obtain ⟨consumedBlock, block, hblockForm, hbody, hblockTokens⟩ := styleBlock_form
    (fun c hmem => Style.not_mem_blockMarks_of_mem h.style hmem) hblockSource
    (false || gap.contains '\n')
  refine ⟨⟨header, some block⟩, ⟨hkind.symm, hname, ?_, ?_⟩, ?_⟩
  · obtain ⟨kind, name, ⟨params, span⟩, place⟩ := header
    simp only at hparams
    rw [hparams]
    exact readParameters_paramsText (fun parameter hmem => (hparameters parameter hmem).1) span
  · rw [Option.map_some, hbody, Style.read_styleText h.style]
    rfl
  · -- The cursor moves past the header, over the white space, and past the block.
    have hheader : written.headerText = headerFront written.kind written.name ++
        (parametersText written.parameters ++ headerBack) := by
      rw [headerText, paramsText_eq]
    have hheaderTokens : structureTokens lineStart (Text.byteLength front)
        (written.headerText ++ (gap ++ (written.blockText ++ more))) =
        consumed ++ structureTokens false
          (Text.byteLength front + Text.byteLength written.headerText)
          (gap ++ (written.blockText ++ more)) := by
      rw [hheader]
      simpa only [List.append_assoc] using htokens
    have hgapTokens : structureTokens false
        (Text.byteLength front + Text.byteLength written.headerText)
        (gap ++ (written.blockText ++ more)) =
        consumedBlock ++ structureTokens false
          (Text.byteLength (front ++ (written.headerText ++ (gap ++ written.blockText)))) more := by
      rw [structureTokens, keptTokens_gap rfl rfl hgap, ← structureTokens]
      simpa only [blockText, Text.byteLength_append, Nat.add_assoc, List.append_assoc,
        List.singleton_append] using hblockTokens
    rw [hheaderTokens, hgapTokens, declarationsFrom_of_shape
      (nextHeader_of_form (.shape hform) _) (findStyle_of_form hblockForm _)]

/-- A written shape declares the shape that is meant. -/
theorem declaresShapes_text {written : WrittenShape} (h : written.Proper) :
    DeclaresShapes written.text [written.shape] := by
  intro source front more lineStart hsource
  have htext : written.text ++ more = written.headerText ++
      (['\n'] ++ (written.blockText ++ (['\n'] ++ (['}'] ++ (['\n'] ++ more))))) := by
    rw [text]
    simp only [List.append_assoc, List.cons_append, List.nil_append]
  have hbrace : LexesAs ['}'] .rightBrace (['\n'] ++ more) := lexesAs_punctuation rfl _
  have hstop : Text.byteLength (front ++ written.text) = Text.byteLength
      (front ++ (written.headerText ++ (['\n'] ++ written.blockText))) + 1 + 1 + 1 := by
    rw [text]
    simp only [Text.byteLength_append, Text.byteLength_cons, Text.byteLength_nil]
    rfl
  rw [htext] at hsource
  obtain ⟨candidate, hdeclares, hfound⟩ := declarationsFrom_shape h (by decide) hsource lineStart
  refine ⟨[candidate], true, .cons hdeclares .nil, ?_⟩
  rw [htext, hfound, structureTokens_newline, structureTokens_of_lexesAs hbrace rfl,
    declarationsFrom_cons (by simp), structureTokens_newline, hstop]
  rfl

end WrittenShape

/-! ## Scenes -/

/-- The line of a list header. -/
def listLine (name : Text) : Text :=
  headerFront listKeyword name ++ (headerBack ++ ['\n'])

/-- The line of a list header declares the list, wherever it stands. -/
theorem declarationsFrom_listLine {name : Text} (h : IsName name) (source : Text) (lineStart : Bool)
    (offset : Nat) (more : Text) :
    ∃ list : ListHeader, list.name.value = name ∧
      declarationsFrom source (structureTokens lineStart offset (listLine name ++ more)) =
        .list list :: declarationsFrom source
          (structureTokens true (offset + Text.byteLength (listLine name)) more) := by
  obtain ⟨consumed, list, hform, hname, htokens⟩ :=
    listHeader_form h lineStart offset (['\n'] ++ more)
  have hline : listLine name ++ more =
      headerFront listKeyword name ++ (headerBack ++ (['\n'] ++ more)) := by
    rw [listLine]
    simp only [List.append_assoc]
  have hsize : offset + Text.byteLength (listLine name) =
      offset + Text.byteLength (headerFront listKeyword name ++ headerBack) + 1 := by
    rw [listLine, ← List.append_assoc, Text.byteLength_append]
    rfl
  refine ⟨list, hname, ?_⟩
  rw [hline, htokens, declarationsFrom_of_list (nextHeader_of_form (.list hform) _),
    structureTokens_newline, hsize]

theorem declarationsFrom_rightBrace (source : Text) (lineStart : Bool) (offset : Nat) :
    declarationsFrom source (structureTokens lineStart offset ['}']) = [] := by
  have hbrace : LexesAs ['}'] .rightBrace [] := lexesAs_punctuation rfl []
  rw [← List.append_nil ['}'], structureTokens_of_lexesAs hbrace rfl,
    declarationsFrom_cons (by simp), structureTokens, keptTokens_nil]
  exact declarationsFrom_of_none rfl

/-- A list header, a text that declares shapes, and a closing brace declare just these. -/
theorem declarations_listLine {name body : Text} {shapes : List Shape} (hname : IsName name)
    (hbody : DeclaresShapes body shapes) :
    ∃ (list : ListHeader) (held : List Candidate), list.name.value = name ∧
      List.Forall₂ Candidate.Declares held shapes ∧
      declarations (listLine name ++ (body ++ ['}'])) = .list list :: held.map .shape := by
  obtain ⟨list, hlistName, hlist⟩ :=
    declarationsFrom_listLine hname (listLine name ++ (body ++ ['}'])) true 0 (body ++ ['}'])
  obtain ⟨held, after, hheld, hshapes⟩ := hbody _ (listLine name) ['}'] true rfl
  refine ⟨list, held, hlistName, hheld, ?_⟩
  rw [declarations, significantTokens_eq, hlist, Nat.zero_add, hshapes,
    declarationsFrom_rightBrace, List.append_nil]

/-- The shapes between the list header and the brace make up the document. -/
theorem parse_listLine {name body : Text} {shapes : List Shape} {fileName : Option Text}
    (hname : IsName name) (hupper : Naming.startsUppercase name)
    (hfile : ∀ path ∈ fileName, Path.stem path = name) (hbody : DeclaresShapes body shapes)
    (hne : shapes ≠ [])
    (hnames : ∀ shape ∈ shapes, Naming.startsUppercase shape.name ∧ ¬ Naming.isReserved shape.name)
    (hdistinct : (shapes.map fun shape => shape.name).Nodup) :
    parse (listLine name ++ (body ++ ['}'])) fileName = .ok ⟨name, shapes⟩ := by
  obtain ⟨list, held, rfl, hheld, hfound⟩ := declarations_listLine hname hbody
  rw [parse_eq_ok_iff]
  apply build_of_declares _ hupper hfile _ hne hnames hdistinct
  · rw [hfound, listHeaders_list, listHeaders_map_shape]
  · rw [hfound, candidates_list, candidates_map_shape]
    exact hheld

theorem parse_listLine_nil {name body : Text} {fileName : Option Text} (hname : IsName name)
    (hupper : Naming.startsUppercase name) (hfile : ∀ path ∈ fileName, Path.stem path = name)
    (hbody : DeclaresShapes body []) :
    parse (listLine name ++ (body ++ ['}'])) fileName = .error
      (Violation.noShapes.diagnostic.locate (.ofSource (listLine name ++ (body ++ ['}'])))) := by
  obtain ⟨list, held, rfl, hheld, hfound⟩ := declarations_listLine hname hbody
  cases hheld
  have hlist : list.faults fileName = [] :=
    (ListHeader.faults_eq_nil_iff fileName list).mpr ⟨hupper, hfile⟩
  apply parse_eq_error_of_head?_faults
  rw [hfound]
  simp only [faults, List.map_nil, listHeaders_list, listHeaders_nil, hlist]
  rfl

/-- A document as it is written. -/
structure WrittenScene where
  name : Text
  shapes : List WrittenShape

namespace WrittenScene

/-- The document that is meant. -/
def document (scene : WrittenScene) : Document :=
  ⟨scene.name, scene.shapes.map WrittenShape.shape⟩

/-- The written form: the list header on a line, the shapes, and a closing brace. -/
def text (scene : WrittenScene) : Text :=
  headerFront listKeyword scene.name ++
    (headerBack ++ (['\n'] ++ (scene.shapes.flatMap WrittenShape.text ++ ['}'])))

/-- The document can be written. -/
structure Proper (scene : WrittenScene) : Prop where
  name : IsName scene.name ∧ Naming.startsUppercase scene.name
  some_shape : scene.shapes ≠ []
  shapes : ∀ written ∈ scene.shapes, written.Proper
  distinct : (scene.shapes.map WrittenShape.name).Nodup

/-- Parsing a written document gives that document. -/
theorem parse_text {scene : WrittenScene} (h : scene.Proper) {fileName : Option Text}
    (hfile : ∀ path ∈ fileName, Path.stem path = scene.name) :
    parse scene.text fileName = .ok scene.document := by
  have htext : scene.text =
      listLine scene.name ++ (scene.shapes.flatMap WrittenShape.text ++ ['}']) := by
    rw [text, listLine]
    simp only [List.append_assoc]
  have hbody : DeclaresShapes (scene.shapes.flatMap WrittenShape.text) scene.document.shapes := by
    rw [document, List.map_eq_flatMap]
    exact declaresShapes_flatMap fun written hmem =>
      WrittenShape.declaresShapes_text (h.shapes written hmem)
  rw [htext]
  apply parse_listLine h.name.1 h.name.2 hfile hbody
  · simpa [document] using h.some_shape
  · intro shape hmem
    obtain ⟨written, hwritten, rfl⟩ := List.mem_map.mp hmem
    exact (h.shapes written hwritten).name.2
  · rw [document, List.map_map]
    exact h.distinct

/-- A document whose quoted text and style values look like the structure around them. -/
def board : WrittenScene :=
  ⟨['B', 'o', 'a', 'r', 'd'],
    [⟨['C', 'i', 'r', 'c', 'l', 'e'], ['S', 'u', 'n'],
        ⟨[(['x'], .ofInt (-12)), (['t'], .quoted '\'' [')', ' ', '{', ',', ':', '"']),
          (['r'], .decimal false ['0'] ['5'])], by decide⟩,
        ⟨[(['t', 'o', 'p'], ['C', 'r', 'e', 'a', 't', 'e', ' ', 'L', 'i', 's', 't', ' ', 'A', '(',
          ')', ' ', '{']), (['u'], ['/', '/', ':'])], by decide⟩⟩,
      ⟨['B', 'o', 'x'], ['B', '1'], .empty, .empty⟩]⟩

example : String.ofList board.text =
    "Create List Board() \x7b\nCreate Circle Sun(x:-12, t:') \x7b,:\"', r:0.5) \x7b\n" ++
    "Style \x7b top:Create List A() \x7b; u://:; \x7d\n\x7d\nCreate Box B1() \x7b\n" ++
    "Style \x7b \x7d\n\x7d\n\x7d" := by
  decide +kernel

theorem board_proper : board.Proper where
  name := by decide
  some_shape := by decide
  shapes := by decide
  distinct := by decide

/-- The document is read back from a file of its name. -/
theorem parse_board :
    board.Proper ∧ parse board.text (some ['a', '/', 'B', 'o', 'a', 'r', 'd', '.', 's', 'l', 'c']) =
      .ok board.document :=
  ⟨board_proper, parse_text board_proper (by decide)⟩

end WrittenScene

end SceneScript
