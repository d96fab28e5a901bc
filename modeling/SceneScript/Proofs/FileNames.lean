import SceneScript.Document.Template
import SceneScript.Proofs.Cutting
import SceneScript.Proofs.DeclaredNames

/-! # What the name of the file decides

Of all rules, only one looks at the file name: the list is called as its file is. A list header that
breaks it is reported before anything that is wrong with the rest of the source, and otherwise the
source is read as if no file had been named.
-/

namespace SceneScript

/-! ## The stem of a path -/

namespace Path

theorem components_append (directory file : Text) :
    components (directory ++ '/' :: file) = components directory ++ components file := by
  rw [components, Text.splitAt_append, List.filter_append]
  rfl

theorem components_of_not_mem {file : Text} (hslash : '/' ∉ file) (hne : file ≠ [])
    (hdot : file ≠ ['.']) : components file = [file] := by
  rw [components, Text.splitAt_of_not_mem hslash]
  simp [hne, hdot]

/-- A name in a directory is the last component of its path. -/
theorem exists_components_join {file : Text} (hslash : '/' ∉ file) (hne : file ≠ [])
    (hdot : file ≠ ['.']) (directory : Text) :
    ∃ front, components (join directory file) = front ++ [file] := by
  have hfile := components_of_not_mem hslash hne hdot
  have hroot : isAbsolute file = false := by
    cases file with
    | nil => rfl
    | cons c rest =>
        rw [List.mem_cons, not_or] at hslash
        simpa [isAbsolute] using Ne.symm hslash.1
  unfold join
  split
  next => exact ⟨[], hfile⟩
  next hdirectory =>
    split
    next hlast =>
      obtain ⟨front, rfl⟩ := List.getLast?_eq_some_iff.mp hlast
      exact ⟨components front, by rw [← List.append_cons, components_append, hfile]⟩
    next => exact ⟨components directory, by rw [components_append, hfile]⟩

theorem dropExtension_append {name extension : Text} (hname : name ≠ [])
    (hextension : '.' ∉ extension) : dropExtension (name ++ '.' :: extension) = name := by
  have hreverse : (name ++ '.' :: extension).reverse =
      extension.reverse ++ '.' :: name.reverse := by simp
  have hmem : '.' ∉ extension.reverse := by simpa using hextension
  rw [dropExtension, hreverse, Text.cutAt_append_cons hmem]
  simp [hname]

/-- The stem comes from the last component. -/
theorem stem_of_components {path file : Text} {front : List Text}
    (h : components path = front ++ [file]) (hdots : file ≠ ['.', '.']) :
    stem path = dropExtension file := by
  have hfile : fileName? path = some file := by
    rw [fileName?, h, List.getLast?_concat, Option.filter_some, if_pos (decide_eq_true hdots)]
  rw [stem, hfile, Option.map_some, Option.getD_some]

/-- A scene file is no directory, whatever it is called. -/
theorem append_fileExtension_ne (name : Text) {short : Text} (h : short.length ≤ 3) :
    name ++ '.' :: fileExtension ≠ short := by
  rintro rfl
  simp only [List.length_append, List.length_cons, fileExtension] at h
  omega

/-- A scene file in any directory has its name without the extension as its stem. -/
theorem stem_join {name : Text} (hname : name ≠ []) (hslash : '/' ∉ name) (directory : Text) :
    stem (join directory (name ++ '.' :: fileExtension)) = name := by
  have hne := @append_fileExtension_ne name
  have hfile : '/' ∉ name ++ '.' :: fileExtension := by
    rw [List.mem_append, not_or]
    exact ⟨hslash, by decide⟩
  obtain ⟨front, hcomponents⟩ :=
    exists_components_join hfile (hne (by decide)) (hne (by decide)) directory
  rw [stem_of_components hcomponents (hne (by decide)),
    dropExtension_append hname (by decide)]

end Path

/-! ## The rule about the file name -/

/-- The list may be called so, but the file at `path` is called differently. -/
def ListHeader.differsFrom (path : Text) (header : ListHeader) : Bool :=
  Naming.startsUppercase header.name.value && Path.stem path ≠ header.name.value

/-- Naming the file changes the first fault only where the list is not called as the file is. -/
theorem head?_faults_some (path : Text) (found : List Declaration) :
    (faults (some path) found).head? =
      match (listHeaders found).head?.filter (·.differsFrom path) with
      | some first => some (.fileNameMismatch first (Path.stem path))
      | none => (faults none found).head? := by
  unfold faults
  cases listHeaders found with
  | nil => rfl
  | cons first more =>
      rw [List.head?_cons, Option.filter_some]
      by_cases hupper : Naming.startsUppercase first.name.value
      · by_cases hstem : Path.stem path = first.name.value
        · simp [ListHeader.faults, ListHeader.differsFrom, hupper, hstem]
        · simp [ListHeader.faults, ListHeader.differsFrom, hupper, hstem]
      · simp [ListHeader.faults, ListHeader.differsFrom, hupper]

theorem parse_some (source path : Text) :
    parse source (some path) =
      match (listHeaders (declarations source)).head?.filter (·.differsFrom path) with
      | some first => .error
          ((Violation.fileNameMismatch first (Path.stem path)).diagnostic.locate (.ofSource source))
      | none => parse source none := by
  have hfirst := head?_faults_some path (declarations source)
  cases hdiffers : (listHeaders (declarations source)).head?.filter (·.differsFrom path) with
  | some first =>
      rw [hdiffers] at hfirst
      exact parse_eq_error_of_head?_faults hfirst
  | none =>
      rw [hdiffers] at hfirst
      rw [parse, build_congr_fileName hfirst, parse]

theorem exists_list_of_parse_eq_ok {source : Text} {fileName : Option Text} {document : Document}
    (h : parse source fileName = .ok document) :
    ∃ list, listHeaders (declarations source) = [list] ∧ list.name.value = document.listName ∧
      Naming.startsUppercase list.name.value ∧
        ∀ path ∈ fileName, Path.stem path = list.name.value := by
  have hbuild := (parse_eq_ok_iff ..).mp h
  obtain ⟨list, hlist, hupper, hstem⟩ :=
    ((build_ok_iff_wellFormed source fileName).mp ⟨document, hbuild⟩).one_list
  have hname := (build_eq_ok hbuild).1
  rw [hlist, List.map_singleton, List.singleton_inj] at hname
  exact ⟨list, hlist, hname, hupper, hstem⟩

theorem isIdentifier_listName {source : Text} {fileName : Option Text} {document : Document}
    (h : parse source fileName = .ok document) : Text.isIdentifier document.listName := by
  obtain ⟨list, hlist, hname, _⟩ := exists_list_of_parse_eq_ok h
  rw [← hname]
  exact (isName_of_mem_listHeaders (hlist ▸ List.mem_singleton_self list)).1

/-- In a file, a source has the document that it has without one, if the list is called as the
file. -/
theorem parse_some_eq_ok_iff {source path : Text} {document : Document} :
    parse source (some path) = .ok document ↔
      parse source none = .ok document ∧ Path.stem path = document.listName := by
  have hparse : ∀ {fileName}, parse source fileName = .ok document →
      Path.stem path = document.listName → parse source (some path) = parse source none := by
    intro fileName h hstem
    obtain ⟨list, hlist, hname, _⟩ := exists_list_of_parse_eq_ok h
    have hdiffers : list.differsFrom path = false := by
      simp [ListHeader.differsFrom, hname, hstem]
    rw [parse_some, hlist, List.head?_cons, Option.filter_some, hdiffers]
    rfl
  constructor
  · intro h
    obtain ⟨list, _, hname, _, hpath⟩ := exists_list_of_parse_eq_ok h
    have hstem := (hpath path rfl).trans hname
    exact ⟨(hparse h hstem).symm.trans h, hstem⟩
  · rintro ⟨h, hstem⟩
    exact (hparse h hstem).trans h

/-- A document that is read without a file name is read from every file that is called as its
list. -/
theorem parse_join_of_parse_none {source : Text} {document : Document}
    (h : parse source none = .ok document) (directory : Text) :
    parse source (some (Path.join directory (document.listName ++ '.' :: fileExtension))) =
      .ok document := by
  have hname := isIdentifier_listName h
  exact parse_some_eq_ok_iff.mpr ⟨h, Path.stem_join (Text.all_isWordChar_of_isIdentifier hname).1
    (Text.not_mem_of_isIdentifier hname (by decide)) directory⟩

/-- The name of the file decides one rule alone. A source with a list that may be called so, but is
not called as its file, is rejected at the list header, whatever else is wrong with it; any other
source has the document or the error that it has without a file name. So a document can be saved
under the name of its list in any directory. -/
theorem parse_fileName (source : Text) :
    (∀ path, match (listHeaders (declarations source)).head?.filter (·.differsFrom path) with
      | some first => ∃ diagnostic, parse source (some path) = .error diagnostic ∧
          diagnostic.code = some .fileNameMismatch ∧ diagnostic.primarySpan? = some first.span
      | none => parse source (some path) = parse source none) ∧
    ∀ document, parse source none = .ok document → ∀ directory,
      parse source (some (Path.join directory (document.listName ++ '.' :: fileExtension))) =
        .ok document := by
  refine ⟨fun path => ?_, fun document h => parse_join_of_parse_none h⟩
  have hparse := parse_some source path
  split
  next first hdiffers =>
    rw [hdiffers] at hparse
    exact ⟨_, hparse, rfl, rfl⟩
  next hdiffers =>
    rw [hdiffers] at hparse
    exact hparse

/-- A starter document called `Board`, in a file of that name and in another one. -/
theorem parse_fileName_board :
    let source := starterDocument "Board".toList
    ∃ document, parse source none = .ok document ∧
      parse source (some "scenes/v1.2/Board.slc".toList) = .ok document ∧
      ∃ diagnostic, parse source (some "Board.old.slc".toList) = .error diagnostic ∧
        diagnostic.code = some .fileNameMismatch := by
  intro source
  have hname : (parse source none).toOption.map (·.listName) = some "Board".toList := by
    decide +kernel
  obtain ⟨document, hparse, hboard⟩ := Option.map_eq_some_iff.mp hname
  have hok : parse source none = .ok document := by
    cases hresult : parse source none with
    | error diagnostic => simp [hresult, Except.toOption] at hparse
    | ok other => simpa [hresult, Except.toOption] using hparse
  have hsaved := (parse_fileName source).2 document hok "scenes/v1.2/".toList
  rw [hboard] at hsaved
  refine ⟨document, hok, hsaved, ?_⟩
  have hother := (parse_fileName source).1 "Board.old.slc".toList
  split at hother
  next first _ =>
    obtain ⟨diagnostic, herror, hcode, _⟩ := hother
    exact ⟨diagnostic, herror, hcode⟩
  next hnone =>
    have hdiffers : ((listHeaders (declarations source)).head?.filter
        (·.differsFrom "Board.old.slc".toList)).isSome := by decide +kernel
    rw [hnone] at hdiffers
    cases hdiffers

end SceneScript
