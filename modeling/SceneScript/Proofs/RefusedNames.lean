import SceneScript.Command.New
import SceneScript.Files.Tree
import SceneScript.Proofs.FileNames

/-! # Names that are refused

A document is created only if its starter text is valid in the file that it would get. The name is
pasted into the text and into the path, so the rule that the list is called as its file compares the
name with itself. With a slash in the name it does not: the text may declare a list in front of the
slash, and the file is called by what stands behind it.
-/

namespace SceneScript

/-! ## The file of a name that may hold slashes -/

theorem Path.exists_join_append (directory front file : Text) :
    ∃ before, join directory (front ++ '/' :: file) = before ++ '/' :: file := by
  unfold join
  split
  next => exact ⟨front, rfl⟩
  next =>
    split
    next => exact ⟨directory ++ front, (List.append_assoc ..).symm⟩
    next => exact ⟨directory ++ '/' :: front, by simp⟩

/-- The last part of a name is the whole of it or stands behind a slash. -/
theorem exists_last_part (name : Text) :
    ∃ last, '/' ∉ last ∧ (name = last ∨ '/' :: last <:+ name) := by
  by_cases hslash : '/' ∈ name
  · obtain ⟨back, front, hreverse, hback⟩ :=
      List.eq_append_cons_of_mem (List.mem_reverse.mpr hslash)
    refine ⟨back.reverse, by simpa using hback, .inr ⟨front.reverse, ?_⟩⟩
    rw [← List.reverse_inj, hreverse]
    simp
  · exact ⟨name, hslash, .inl rfl⟩

namespace NewRequest

variable {request : NewRequest}

theorem stem_path {last : Text} (hslash : '/' ∉ last)
    (hlast : request.name = last ∨ '/' :: last <:+ request.name) :
    Path.stem request.path = Path.dropExtension (last ++ '.' :: fileExtension) := by
  have hne := @Path.append_fileExtension_ne last
  have hfile : '/' ∉ last ++ '.' :: fileExtension := by
    rw [List.mem_append, not_or]
    exact ⟨hslash, by decide⟩
  have hcomponents : ∃ front,
      Path.components request.path = front ++ [last ++ '.' :: fileExtension] := by
    rw [path]
    rcases hlast with rfl | ⟨front, hname⟩
    · exact Path.exists_components_join hfile (hne (by decide)) (hne (by decide))
        request.directory
    · obtain ⟨before, hbefore⟩ :=
        Path.exists_join_append request.directory front (last ++ '.' :: fileExtension)
      refine ⟨Path.components before, ?_⟩
      rw [← hname, List.append_assoc, List.cons_append, hbefore, Path.components_append,
        Path.components_of_not_mem hfile (hne (by decide)) (hne (by decide))]
  obtain ⟨front, hcomponents⟩ := hcomponents
  exact Path.stem_of_components hcomponents (hne (by decide))

/-- The file of a new document is called like a list exactly if the name is that of the list, or
ends with it behind a slash. -/
theorem stem_path_eq_iff {listName : Text} (h : Text.isIdentifier listName) :
    Path.stem request.path = listName ↔
      request.name = listName ∨ '/' :: listName <:+ request.name := by
  constructor
  · intro hstem
    obtain ⟨last, hslash, hlast⟩ := exists_last_part request.name
    rw [stem_path hslash hlast] at hstem
    by_cases hnil : last = []
    · -- Without a name in front of its dot, the file is called as it stands.
      subst hnil
      have hdot : '.' ∈ listName := hstem ▸ (by decide)
      exact absurd hdot (Text.not_mem_of_isIdentifier h (by decide))
    · rw [Path.dropExtension_append hnil (by decide)] at hstem
      exact hstem ▸ hlast
  · intro hlast
    have hslash : '/' ∉ listName := Text.not_mem_of_isIdentifier h (by decide)
    rw [stem_path hslash hlast,
      Path.dropExtension_append (Text.all_isWordChar_of_isIdentifier h).1 (by decide)]

end NewRequest

/-! ## Which requests have a content -/

/-- The name may be given to a list: it is an identifier that starts with one of `A` to `Z`. -/
def IsListName (name : Text) : Prop :=
  Text.isIdentifier name ∧ Naming.startsUppercase name

instance : DecidablePred IsListName := fun _ => instDecidableAnd

/-- The starter text of the name is a document by itself, and the name ends with the name of its
list behind a slash. -/
def DeclaresOwnFile (name : Text) : Prop :=
  ∃ document, parse (starterDocument name) none = .ok document ∧ '/' :: document.listName <:+ name

theorem isListName_of_parse_eq_ok {source : Text} {fileName : Option Text} {document : Document}
    (h : parse source fileName = .ok document) : IsListName document.listName := by
  obtain ⟨list, _, hname, hupper, _⟩ := exists_list_of_parse_eq_ok h
  exact ⟨isIdentifier_listName h, hname ▸ hupper⟩

namespace NewRequest

variable {request : NewRequest} (hname : ¬ IsListName request.name)
include hname

/-- The starter text of a name that no list can have is valid in its file only if it declares that
file itself. -/
theorem exists_parse_eq_ok_iff :
    (∃ document, parse (starterDocument request.name) (some request.path) = .ok document) ↔
      DeclaresOwnFile request.name := by
  simp only [parse_some_eq_ok_iff]
  apply exists_congr
  intro document
  apply and_congr_right
  intro hparse
  rw [stem_path_eq_iff (isIdentifier_listName hparse)]
  refine or_iff_right fun hsame => ?_
  exact hname (hsame ▸ isListName_of_parse_eq_ok hparse)

theorem exists_content_eq_error (hown : ¬ DeclaresOwnFile request.name) :
    ∃ diagnostic, request.content =
      .error (.invalid diagnostic (starterDocument request.name)) := by
  rw [← exists_parse_eq_ok_iff hname] at hown
  cases hparse : parse (starterDocument request.name) (some request.path) with
  | ok document => exact absurd ⟨document, hparse⟩ hown
  | error diagnostic => exact ⟨diagnostic, by simp only [content, hparse]⟩

theorem content_eq_ok (hown : DeclaresOwnFile request.name) :
    request.content = .ok (starterDocument request.name) := by
  obtain ⟨document, hparse⟩ := (exists_parse_eq_ok_iff hname).mpr hown
  simp only [content, hparse]

end NewRequest

/-! ## What creating does -/

section Create

variable {m : Type → Type} [Monad m] [FileAccess m] {request : NewRequest}

/-- Without a content, nothing is asked of the files. -/
theorem create_of_content_eq_error {failure : Failure} (h : request.content = .error failure) :
    (create request : m (Except Failure Text)) = pure (.error failure) := by
  rw [create, h]

theorem FileTree.run_makeDirectories (path : Text) (tree : FileTree) :
    (FileAccess.makeDirectories path : StateM FileTree (Except FileError Unit)).run tree =
      pure (tree.makeDirectories path) :=
  rfl

theorem FileTree.run_createFile (path text : Text) (tree : FileTree) :
    (FileAccess.createFile path text : StateM FileTree (Except FileError Unit)).run tree =
      pure (tree.createFile path text) :=
  rfl

/-- With a content, it is the files that decide. -/
theorem create_run_of_content_eq_ok {text : Text} (h : request.content = .ok text)
    (tree : FileTree) :
    (create request : StateM FileTree (Except Failure Text)).run tree =
      match tree.makeDirectories request.directory with
      | (.error error, next) => (.error (.file error), next)
      | (.ok (), next) =>
        match next.createFile request.path text with
        | (.ok (), last) => (.ok request.path, last)
        | (.error .alreadyExists, last) => (.error (.alreadyExists request.path), last)
        | (.error error, last) => (.error (.file error), last) := by
  rw [create, h]
  simp only [StateT.run_bind, FileTree.run_makeDirectories, pure_bind]
  rcases tree.makeDirectories request.directory with ⟨error | _, next⟩
  · rfl
  · simp only [StateT.run_bind, FileTree.run_createFile, pure_bind]
    rcases next.createFile request.path text with ⟨error | _, last⟩
    · cases error <;> rfl
    · rfl

theorem create_run_ne_invalid {text : Text} (h : request.content = .ok text) (tree : FileTree)
    (diagnostic : Diagnostic) (source : Text) :
    ((create request : StateM FileTree (Except Failure Text)).run tree).1 ≠
      .error (.invalid diagnostic source) := by
  rw [create_run_of_content_eq_ok h]
  split
  · simp
  · split <;> simp

end Create

/-- A name that no list can have is refused before any file is touched, whatever the files are kept
in, unless the name makes the starter text declare the file of the name. On a file tree this is
exact: all other names get past the check, and only a failure of the files stops them. -/
theorem create_refuses_iff (request : NewRequest) (hname : ¬ IsListName request.name) :
    (¬ DeclaresOwnFile request.name →
      ∃ diagnostic, ∀ (m : Type → Type) [Monad m] [FileAccess m],
        (create request : m (Except Failure Text)) =
          pure (.error (.invalid diagnostic (starterDocument request.name)))) ∧
    ∀ tree : FileTree,
      ((∃ diagnostic, (create request : StateM FileTree (Except Failure Text)).run tree =
          (.error (.invalid diagnostic (starterDocument request.name)), tree)) ↔
        ¬ DeclaresOwnFile request.name) := by
  have hrefused : ¬ DeclaresOwnFile request.name →
      ∃ diagnostic, ∀ (m : Type → Type) [Monad m] [FileAccess m],
        (create request : m (Except Failure Text)) =
          pure (.error (.invalid diagnostic (starterDocument request.name))) := by
    intro hown
    obtain ⟨diagnostic, hcontent⟩ := NewRequest.exists_content_eq_error hname hown
    exact ⟨diagnostic, fun m _ _ => create_of_content_eq_error hcontent⟩
  refine ⟨hrefused, fun tree => ⟨?_, fun hown => ?_⟩⟩
  · rintro ⟨diagnostic, hrun⟩ hown
    exact create_run_ne_invalid (NewRequest.content_eq_ok hname hown) tree _ _
      (congrArg Prod.fst hrun)
  · obtain ⟨diagnostic, hcreate⟩ := hrefused hown
    exact ⟨diagnostic, by rw [hcreate]; rfl⟩

/-- The text declares a list `A`, and the file would be called `B`. -/
theorem create_refuses_otherFile :
    let name : Text := "A() \x7b/B".toList
    ¬ IsListName name ∧ ¬ DeclaresOwnFile name ∧ ∀ tree : FileTree, ∃ diagnostic,
      (create ⟨name, ['.']⟩ : StateM FileTree (Except Failure Text)).run tree =
        (.error (.invalid diagnostic (starterDocument name)), tree) := by
  intro name
  have hname : ¬ IsListName name := by decide
  have hown : ¬ DeclaresOwnFile name := by
    rintro ⟨document, hparse, hsuffix⟩
    have hlist : (parse (starterDocument name) none).toOption.map (·.listName) = some ['A'] := by
      decide +kernel
    rw [hparse] at hlist
    have hA : document.listName = ['A'] := Option.some.inj hlist
    rw [hA] at hsuffix
    exact absurd hsuffix (by decide)
  exact ⟨hname, hown, fun tree => ((create_refuses_iff ⟨name, ['.']⟩ hname).2 tree).mpr hown⟩

/-- A name whose starter text declares a list `A` in front of the slash, with `A` behind it. -/
def ownFileName : Text :=
  "A() \x7b/A".toList

/-- An empty directory that is called as the name is in front of the slash. -/
def ownFileTree : FileTree :=
  ⟨[], [(["A() \x7b".toList], .directory)]⟩

/-- Not every name that no list can have is refused: this one is written to a file. -/
theorem create_writes_ownFile :
    (¬ ∀ (request : NewRequest) (tree : FileTree), ¬ IsListName request.name →
      ∃ diagnostic, (create request : StateM FileTree (Except Failure Text)).run tree =
        (.error (.invalid diagnostic (starterDocument request.name)), tree)) ∧
      ¬ IsListName ownFileName ∧
        let path := (⟨ownFileName, ['.']⟩ : NewRequest).path
        ownFileTree.exists? path = false ∧
          ((create ⟨ownFileName, ['.']⟩ : StateM FileTree (Except Failure Text)).run
            ownFileTree).2.exists? path = true := by
  have hname : ¬ IsListName ownFileName := by decide
  have hcreated : ((create ⟨ownFileName, ['.']⟩ : StateM FileTree (Except Failure Text)).run
      ownFileTree).1.toOption = some (⟨ownFileName, ['.']⟩ : NewRequest).path := by
    decide +kernel
  refine ⟨fun hall => ?_, hname, by decide +kernel, by decide +kernel⟩
  obtain ⟨diagnostic, hrefused⟩ := hall ⟨ownFileName, ['.']⟩ ownFileTree hname
  rw [hrefused] at hcreated
  cases hcreated

end SceneScript
