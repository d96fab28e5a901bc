import SceneScript.Proofs.FileNames
import SceneScript.Proofs.LintLines
import SceneScript.Proofs.WrittenScene

/-! # Starter documents

The starter text of a name is a document of that name with one shape whenever a list may be called
so. It is valid in every file of that name, and the lint finds nothing in it.
-/

namespace SceneScript

/-- The shape of a starter document. -/
def starterShape : Shape where
  kind := "Square".toList
  name := "Sq1".toList
  params := ⟨[(['x'], .integer 100), (['y'], .integer 100)], by decide⟩
  style := ⟨[("color".toList, "red".toList)], by decide⟩

/-- The shape of a starter document as it is written there. -/
def writtenStarterShape : WrittenShape where
  kind := "Square".toList
  name := "Sq1".toList
  params := ⟨[(['x'], .ofInt 100), (['y'], .ofInt 100)], by decide⟩
  style := ⟨[("color".toList, "red".toList)], by decide⟩

theorem shape_writtenStarterShape : writtenStarterShape.shape = starterShape :=
  rfl

theorem writtenStarterShape_proper : writtenStarterShape.Proper := by
  decide +kernel

/-! ## What the starter text declares -/

/-- White space and closing braces declare nothing. -/
theorem declarationsFrom_closing {text : Text} (h : text.all fun c => isBlank c || c = '}')
    (source : Text) (lineStart : Bool) (offset : Nat) :
    declarationsFrom source (structureTokens lineStart offset text) = [] := by
  induction text generalizing lineStart offset with
  | nil =>
      rw [structureTokens, keptTokens_nil]
      exact declarationsFrom_of_none rfl
  | cons c rest ih =>
      rw [List.all_cons, Bool.and_eq_true, Bool.or_eq_true, decide_eq_true_eq] at h
      obtain ⟨hblank | rfl, hrest⟩ := h
      · have hgap : [c].all isBlank := by simpa using hblank
        rw [structureTokens, ← List.singleton_append, keptTokens_gap rfl rfl hgap]
        exact ih hrest _ _
      · have hbrace : LexesAs ['}'] .rightBrace rest := lexesAs_punctuation rfl rest
        rw [← List.singleton_append, structureTokens_of_lexesAs hbrace rfl,
          declarationsFrom_cons (by simp)]
        exact ih hrest _ _

/-- What follows the style block of a starter document. -/
def starterEnd : Text :=
  "\n    \x7d\n\x7d\n".toList

/-- A starter document is the line of its list and, indented, its shape. -/
theorem starterDocument_eq (name : Text) :
    starterDocument name = listLine name ++ ("\n    ".toList ++ (writtenStarterShape.headerText ++
      ("\n        ".toList ++ (writtenStarterShape.blockText ++ starterEnd)))) := by
  have hfront : "Create List ".toList =
      Token.create.shown ++ ([' '] ++ (listKeyword ++ [' '])) := by decide +kernel
  have hback : ("() \x7b\n\n    Create Square Sq1(x:100, y:100) \x7b\n" ++
      "        Style \x7b color:red; \x7d\n    \x7d\n\x7d\n").toList =
      ['('] ++ (headerBack ++ (['\n'] ++ ("\n    ".toList ++ (writtenStarterShape.headerText ++
        ("\n        ".toList ++ (writtenStarterShape.blockText ++ starterEnd)))))) := by
    decide +kernel
  refine (congrArg₂ (· ++ ·) (congrArg (· ++ name) hfront) hback).trans ?_
  rw [listLine, headerFront]
  simp only [List.append_assoc]

section Named

variable {name : Text} (h : IsName name)
include h

/-- The starter text declares the list and one shape. -/
theorem declarations_starterDocument :
    ∃ (list : ListHeader) (candidate : Candidate), list.name.value = name ∧
      candidate.Declares starterShape ∧
      declarations (starterDocument name) = [.list list, .shape candidate] := by
  have hblank : ("\n    ".toList).all isBlank := by decide
  have hgap : ("\n        ".toList).all isBlank := by decide
  have htext := starterDocument_eq name
  obtain ⟨list, hname, hlist⟩ := declarationsFrom_listLine h (starterDocument name) true 0
    ("\n    ".toList ++ (writtenStarterShape.headerText ++
      ("\n        ".toList ++ (writtenStarterShape.blockText ++ starterEnd))))
  -- The shape stands behind the line of the list and the white space that follows it.
  have hsource : starterDocument name = (listLine name ++ "\n    ".toList) ++
      (writtenStarterShape.headerText ++
        ("\n        ".toList ++ (writtenStarterShape.blockText ++ starterEnd))) := by
    rw [htext, List.append_assoc]
  obtain ⟨candidate, hdeclares, hshape⟩ := WrittenShape.declarationsFrom_shape
    writtenStarterShape_proper hgap hsource (true || "\n    ".toList.contains '\n')
  rw [← htext] at hlist
  rw [shape_writtenStarterShape] at hdeclares
  refine ⟨list, candidate, hname, hdeclares, ?_⟩
  rw [declarations, significantTokens_eq, hlist, structureTokens, keptTokens_gap rfl rfl hblank,
    Nat.zero_add, ← Text.byteLength_append, ← structureTokens, hshape,
    declarationsFrom_closing (by decide)]

theorem parse_starter (hupper : Naming.startsUppercase name) {fileName : Option Text}
    (hfile : ∀ path ∈ fileName, Path.stem path = name) :
    parse (starterDocument name) fileName = .ok ⟨name, [starterShape]⟩ := by
  obtain ⟨list, candidate, rfl, hdeclares, hfound⟩ := declarations_starterDocument h
  rw [parse_eq_ok_iff]
  apply build_of_declares _ hupper hfile
  · rw [hfound]
    exact .cons hdeclares .nil
  · exact List.cons_ne_nil _ _
  · intro shape hmem
    rw [List.mem_singleton.mp hmem]
    decide
  · simp
  · rw [hfound]
    rfl

/-! ## What the lint says about it -/

omit h in
/-- The lint finds nothing on a line that begins with `Create` and ends with a brace. -/
theorem Lint.findings_createLine {line : Text} (hline : '\n' ∉ line)
    (hcreate : createWord <+: line) (hbrace : line.getLast? = some '{') : findings line = [] := by
  obtain ⟨rest, rfl⟩ := hcreate
  have htrim : Text.trim (createWord ++ rest) = createWord ++ rest := by
    apply Text.trim_eq_self
    · intro c hc
      rw [← Option.some.inj hc]
      decide
    · intro c hc
      rw [hbrace] at hc
      rw [← Option.some.inj hc]
      decide
  have hinstruction : startsInstruction (createWord ++ rest) = true := rfl
  have hcomment : ['/', '/'].isPrefixOf (createWord ++ rest) = false := rfl
  have hstyle : styleWord.isPrefixOf (createWord ++ rest) = false := rfl
  have hne : createWord ++ rest ≠ [] := List.cons_ne_nil _ _
  have hchecked : checkTrimmed (0 + Text.leadingBlank (createWord ++ rest)) (createWord ++ rest) =
      [] := by
    simp only [checkTrimmed, hne, hcomment, hbrace, hstyle, hinstruction, ne_eq, not_true_eq_false,
      and_false, Bool.not_true, Bool.false_eq_true, false_and, or_self, if_false, List.append_nil]
  rw [findings, Text.splitAt_of_not_mem hline, checkLines, checkLine_eq, htrim, hchecked]
  rfl

theorem lint_starter : lint (starterDocument name) = [] := by
  have htext : starterDocument name = (headerFront listKeyword name ++ headerBack) ++
      '\n' :: ("\n    ".toList ++ (writtenStarterShape.headerText ++
        ("\n        ".toList ++ (writtenStarterShape.blockText ++ starterEnd)))) := by
    rw [starterDocument_eq, listLine]
    simp only [List.append_assoc, List.singleton_append]
  have hfirst : Lint.findings (headerFront listKeyword name ++ headerBack) = [] := by
    have hname : '\n' ∉ name := Text.not_mem_of_isIdentifier h.1 (by decide)
    apply Lint.findings_createLine
    · simp only [headerFront, List.mem_append, not_or]
      exact ⟨⟨by decide, by decide, by decide, by decide, hname, by decide⟩, by decide⟩
    · rw [headerFront, List.append_assoc]
      exact List.prefix_append _ _
    · rw [List.getLast?_append]
      rfl
  have hrest : Lint.findings ("\n    ".toList ++ (writtenStarterShape.headerText ++
      ("\n        ".toList ++ (writtenStarterShape.blockText ++ starterEnd)))) = [] := by
    decide +kernel
  rw [lint, htext, Lint.findings_append_newline, hfirst, hrest]
  rfl

/-- The starter text of a name that a list may have is a document of that name with the starter
shape, by itself and in every file of that name, such as the one that bears the name in any
directory, and the lint has nothing to say about it. -/
theorem starterDocument_valid (hupper : Naming.startsUppercase name) :
    (∀ fileName : Option Text, (∀ path ∈ fileName, Path.stem path = name) →
      parse (starterDocument name) fileName = .ok ⟨name, [starterShape]⟩) ∧
    (∀ directory, Path.stem (Path.join directory (name ++ '.' :: fileExtension)) = name) ∧
    lint (starterDocument name) = [] := by
  refine ⟨fun _ => parse_starter h hupper, ?_, lint_starter h⟩
  exact Path.stem_join (Text.all_isWordChar_of_isIdentifier h.1).1
    (Text.not_mem_of_isIdentifier h.1 (by decide))

omit h in
/-- A name that begins with a keyword and ends with a digit of another script. -/
theorem starterDocument_valid_stylesheet :
    let name : Text := "Stylesh\u00e9et\u0665".toList
    IsName name ∧ Naming.startsUppercase name ∧
      parse (starterDocument name) (some (Path.join "v1.2".toList (name ++ '.' :: fileExtension))) =
        .ok ⟨name, [starterShape]⟩ ∧
      lint (starterDocument name) = [] := by
  intro name
  have hname : IsName name := by decide +kernel
  have hupper : Naming.startsUppercase name := by decide
  obtain ⟨hparse, hstem, hlint⟩ := starterDocument_valid hname hupper
  refine ⟨hname, hupper, hparse _ ?_, hlint⟩
  rintro path ⟨⟩
  exact hstem _

end Named

end SceneScript
