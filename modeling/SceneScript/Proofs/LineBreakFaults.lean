import SceneScript.Proofs.Acceptance
import SceneScript.Proofs.Labels
import SceneScript.Proofs.LineBreakParameters
import SceneScript.Proofs.Relocation

/-! # What is wrong with a text with other line breaks

The same headers and blocks are found at the places where they are moved, so the same rules are
broken there. Without a violation, the documents differ only in line breaks inside of texts.
-/

namespace SceneScript

/-! ## Declarations -/

/-- The style block with carriage returns in its body. -/
def StyleBlock.crlf (source : Text) (block : StyleBlock) : StyleBlock :=
  ⟨block.body.crlf source⟩

/-- The candidate with carriage returns in its parameters and in its style. -/
def Candidate.crlf (source : Text) (candidate : Candidate) : Candidate :=
  ⟨candidate.header.crlf source, candidate.block.map (StyleBlock.crlf source)⟩

/-- The declaration that stands in the source with carriage returns. -/
def Declaration.crlf (source : Text) : Declaration → Declaration
  | .list header => .list (header.crlf source)
  | .shape candidate => .shape (candidate.crlf source)

section Alike

variable {source : Text}

theorem Span.UnionAlike.eq_crlf {a b : Span} (h : UnionAlike (Span.crlf source) a b) :
    b = a.crlf source := by
  obtain ⟨first, last⟩ := h
  exact (crlf_union source first last).symm

theorem CutAlike.eq_crlf {a b : Spanned Text}
    (h : CutAlike (Span.crlf source) source (Text.crlf source) (significantTokens source) a b) :
    b = a.crlf source := by
  obtain ⟨opening, closing, order⟩ := h
  have hopening := cuts_of_mem_significantTokens (order.subset List.mem_cons_self)
  have hclosing := cuts_of_mem_significantTokens (order.subset (List.mem_cons_of_mem _
    List.mem_cons_self))
  have hordered := (significantTokens_inOrder source).pairwise.sublist order
  have hle := (List.pairwise_cons.mp hordered).1 closing List.mem_cons_self
  exact Spanned.slice_crlf ⟨hopening.stop_isCut, hclosing.start_isCut, hle⟩

theorem Header.Alike.list_eq_crlf {a b : ListHeader}
    (h : Header.Alike (Span.crlf source) source (Text.crlf source) (significantTokens source)
      (.list a) (.list b)) : b = a.crlf source := by
  cases h with
  | list name span =>
      calc
        b = ⟨b.name, b.span⟩ := rfl
        _ = a.crlf source := by rw [name, span.eq_crlf, ListHeader.crlf]

theorem Header.Alike.shape_eq_crlf {a b : ShapeHeader}
    (h : Header.Alike (Span.crlf source) source (Text.crlf source) (significantTokens source)
      (.shape a) (.shape b)) : b = a.crlf source := by
  cases h with
  | shape kind name params span =>
      calc
        b = ⟨b.kind, b.name, b.params, b.span⟩ := rfl
        _ = a.crlf source := by rw [kind, name, params.eq_crlf, span.eq_crlf, ShapeHeader.crlf]

theorem StyleBlock.eq_map_crlf {a b : Option StyleBlock}
    (h : Option.Rel (StyleBlock.Alike (Span.crlf source) source (Text.crlf source)
      (significantTokens source)) a b) : b = a.map (StyleBlock.crlf source) := by
  cases h with
  | none => rfl
  | @some a b hbody =>
      have hmoved : b.body = a.body.crlf source := CutAlike.eq_crlf hbody
      rw [Option.map_some, StyleBlock.crlf, ← hmoved]

theorem Declaration.Alike.eq_crlf {a b : Declaration}
    (h : Declaration.Alike (Span.crlf source) source (Text.crlf source) (significantTokens source)
      a b) : b = a.crlf source := by
  cases h with
  | list header => rw [header.list_eq_crlf, Declaration.crlf]
  | @shape a b header block =>
      have hcandidate : b = a.crlf source :=
        calc
          b = ⟨b.header, b.block⟩ := rfl
          _ = a.crlf source := by
            rw [header.shape_eq_crlf, StyleBlock.eq_map_crlf block, Candidate.crlf]
      rw [hcandidate, Declaration.crlf]

end Alike

/-- The declarations go with their source. -/
theorem declarations_crlf (source : Text) :
    declarations (Text.crlf source) = (declarations source).map (Declaration.crlf source) := by
  have halike := @declarationsFrom_alike _ (Span.crlf_injective source) source (Text.crlf source)
    _ _ (.refl (significantTokens source))
  rw [← significantTokens_crlf] at halike
  have heq : List.Forall₂ (· = ·) ((declarations source).map (Declaration.crlf source))
      (declarations (Text.crlf source)) :=
    List.forall₂_map_left_iff.mpr (halike.imp fun _ _ h => h.eq_crlf.symm)
  rw [List.forall₂_eq_eq_eq] at heq
  exact heq.symm

section Sorts

variable (source : Text) (found : List Declaration)

theorem listHeaders_map_crlf :
    listHeaders (found.map (Declaration.crlf source)) =
      (listHeaders found).map (ListHeader.crlf source) := by
  rw [listHeaders, listHeaders, List.filterMap_map, List.map_filterMap]
  apply List.filterMap_congr
  intro declaration _
  cases declaration <;> rfl

theorem candidates_map_crlf :
    candidates (found.map (Declaration.crlf source)) =
      (candidates found).map (Candidate.crlf source) := by
  rw [candidates, candidates, List.filterMap_map, List.map_filterMap]
  apply List.filterMap_congr
  intro declaration _
  cases declaration <;> rfl

theorem eraseP_list_map_crlf :
    (found.map (Declaration.crlf source)).eraseP (·.list?.isSome) =
      (found.eraseP (·.list?.isSome)).map (Declaration.crlf source) := by
  have hsort : (fun declaration : Declaration => declaration.list?.isSome) ∘
      Declaration.crlf source = fun declaration => declaration.list?.isSome := by
    funext declaration
    cases declaration <;> rfl
  rw [List.eraseP_map, hsort]

end Sorts

/-! ## Faults -/

section Faults

variable (source : Text)

theorem ListHeader.faults_crlf (fileName : Option Text) (header : ListHeader) :
    (header.crlf source).faults fileName =
      (header.faults fileName).map (Violation.crlf source) := by
  have hname : (header.crlf source).name.value = header.name.value := rfl
  unfold faults
  rw [List.map_append, hname]
  congr 1
  · split <;> rfl
  · cases fileName with
    | none => rfl
    | some path =>
        dsimp only
        split <;> rfl

namespace Candidate

theorem header_name_crlf (candidate : Candidate) :
    (candidate.crlf source).header.name =
      candidate.header.name.map (·.relocate (Span.crlf source)) := rfl

theorem name?_crlf (candidate : Candidate) :
    (candidate.crlf source).name? = candidate.name? := by
  rw [name?, header_name_crlf, Option.map_map]
  rfl

theorem find?_map_crlf (earlier : List Candidate) (name : Text) :
    (earlier.map (Candidate.crlf source)).find? (fun other => other.name? = some name) =
      (earlier.find? fun other => other.name? = some name).map (Candidate.crlf source) := by
  rw [List.find?_map]
  congr 2
  funext other
  rw [Function.comp_apply, name?_crlf]

theorem nameFaults_crlf (earlier : List Candidate) (candidate : Candidate) :
    (candidate.crlf source).nameFaults (earlier.map (Candidate.crlf source)) =
      (candidate.nameFaults earlier).map (Violation.crlf source) := by
  unfold nameFaults
  rw [header_name_crlf]
  cases candidate.header.name with
  | none => rfl
  | some name =>
      have hname : (name.relocate (Span.crlf source)).value = name.value := rfl
      dsimp only [Option.map_some]
      rw [hname, find?_map_crlf, List.map_append, List.map_append]
      congr 1
      · split <;> rfl
      · congr 1
        · split <;> rfl
        · cases earlier.find? fun other => other.name? = some name.value <;> rfl

theorem parameterFaults_crlf {candidate : Candidate}
    (h : candidate.header.params.StandsIn source) :
    (candidate.crlf source).parameterFaults =
      candidate.parameterFaults.map (Violation.crlf source) :=
  Piece.filterMap_fault?_crlf h (Piece.all_alike _) fun _ => Piece.fits_of_mem_all

theorem styleFaults_crlf (candidate : Candidate) :
    (candidate.crlf source).styleFaults = candidate.styleFaults.map (Violation.crlf source) := by
  have hblock : (candidate.crlf source).block.isSome = candidate.block.isSome :=
    Option.isSome_map
  rw [styleFaults, styleFaults, hblock]
  split <;> rfl

theorem faults_crlf {candidate : Candidate} (h : candidate.header.params.StandsIn source)
    (earlier : List Candidate) :
    (candidate.crlf source).faults (earlier.map (Candidate.crlf source)) =
      (candidate.faults earlier).map (Violation.crlf source) := by
  rw [faults, nameFaults_crlf, parameterFaults_crlf source h, styleFaults_crlf, faults,
    List.map_append, List.map_append]

end Candidate

theorem faultsAfter_crlf (first : ListHeader) (earlier : List Candidate)
    {found : List Declaration}
    (h : ∀ candidate ∈ candidates found, candidate.header.params.StandsIn source) :
    faultsAfter (first.crlf source) (earlier.map (Candidate.crlf source))
        (found.map (Declaration.crlf source)) =
      (faultsAfter first earlier found).map (Violation.crlf source) := by
  induction found generalizing earlier with
  | nil => rfl
  | cons declaration rest ih =>
      cases declaration with
      | list header =>
          rw [List.map_cons, Declaration.crlf, faultsAfter, ih earlier h, faultsAfter,
            List.map_cons]
          rfl
      | shape candidate =>
          rw [candidates_shape, List.forall_mem_cons] at h
          have hrest := ih (earlier ++ [candidate]) h.2
          rw [List.map_append, List.map_singleton] at hrest
          rw [List.map_cons, Declaration.crlf, faultsAfter, Candidate.faults_crlf source h.1, hrest,
            faultsAfter, List.map_append]

/-- The same rules are broken, in the same order. -/
theorem faults_crlf (fileName : Option Text) {found : List Declaration}
    (h : ∀ candidate ∈ candidates found, candidate.header.params.StandsIn source) :
    faults fileName (found.map (Declaration.crlf source)) =
      (faults fileName found).map (Violation.crlf source) := by
  unfold faults
  rw [listHeaders_map_crlf, candidates_map_crlf, eraseP_list_map_crlf]
  cases listHeaders found with
  | nil => rfl
  | cons first more =>
      have hafter : ∀ candidate ∈ candidates (found.eraseP (·.list?.isSome)),
          candidate.header.params.StandsIn source := by
        rwa [candidates_eraseP_list]
      have hrest := faultsAfter_crlf source first [] hafter
      rw [List.map_nil] at hrest
      rw [List.map_cons]
      dsimp only
      rw [ListHeader.faults_crlf, hrest, List.map_append, List.map_append]
      simp only [List.map_eq_nil_iff]
      congr 2
      split <;> rfl

end Faults

/-! ## The outcome of building -/

theorem params_standsIn_of_mem_declarations (source : Text) :
    ∀ candidate ∈ candidates (declarations source), candidate.header.params.StandsIn source := by
  intro candidate hmem
  obtain ⟨declaration, hdeclaration, hcandidate⟩ := List.mem_filterMap.mp hmem
  cases declaration with
  | list header => cases hcandidate
  | shape other =>
      obtain rfl := Option.some.inj hcandidate
      exact (standsIn_of_mem_declarations _ hdeclaration).2

theorem Candidate.Declares.crlf {source : Text} {candidate : Candidate} {shape : Shape}
    (h : candidate.Declares shape) (hparams : candidate.header.params.StandsIn source) :
    (candidate.crlf source).Declares (shape.mapContent Text.crlf) where
  kind := h.kind
  name := (candidate.name?_crlf source).trans h.name
  params := by
    have hread := readParameters_crlf hparams
    rw [h.params] at hread
    exact hread
  style := by
    have hstyle := congrArg (Option.map fun entries => entries.bimap Text.crlf Text.crlf) h.style
    rw [Option.map_map] at hstyle
    rw [Candidate.crlf, Option.map_map]
    have hread : (fun block : StyleBlock => Style.read block.body.value) ∘ StyleBlock.crlf source =
        (fun entries => entries.bimap Text.crlf Text.crlf) ∘
          fun block : StyleBlock => Style.read block.body.value := by
      funext block
      exact Style.read_crlf block.body.value
    rw [hread, hstyle]
    rfl

theorem declared_crlf {source : Text} {found : List Candidate} {shapes : List Shape}
    (h : List.Forall₂ Candidate.Declares found shapes)
    (hparams : ∀ candidate ∈ found, candidate.header.params.StandsIn source) :
    List.Forall₂ Candidate.Declares (found.map (Candidate.crlf source))
      (shapes.map (Shape.mapContent Text.crlf)) := by
  induction h with
  | nil => exact .nil
  | cons hshape _ ih =>
      obtain ⟨hfirst, hrest⟩ := List.forall_mem_cons.mp hparams
      exact .cons (hshape.crlf hfirst) (ih hrest)

/-- Building breaks the same rule, or gives the same document apart from line breaks. -/
theorem build_crlf (source : Text) (fileName : Option Text) :
    build (Text.crlf source) fileName =
      ((build source fileName).map (Document.mapContent Text.crlf)).mapError
        (Violation.crlf source) := by
  have hparams := params_standsIn_of_mem_declarations source
  have hfaults := faults_crlf source fileName hparams
  rw [← declarations_crlf] at hfaults
  cases hbuild : build source fileName with
  | error violation =>
      have hfirst := ((build_reports source fileName).eq_error_iff violation).mp hbuild
      apply ((build_reports (Text.crlf source) fileName).eq_error_iff _).mpr
      rw [hfaults, List.head?_map, hfirst]
      rfl
  | ok document =>
      have hnone := (build_reports source fileName).exists_ok_iff.mp ⟨document, hbuild⟩
      rw [hnone, List.map_nil] at hfaults
      obtain ⟨moved, hmoved⟩ :=
        (build_reports (Text.crlf source) fileName).exists_ok_iff.mpr hfaults
      obtain ⟨hname, hshapes⟩ := build_eq_ok hbuild
      obtain ⟨hmovedName, hmovedShapes⟩ := build_eq_ok hmoved
      rw [declarations_crlf, listHeaders_map_crlf, List.map_map] at hmovedName
      rw [declarations_crlf, candidates_map_crlf] at hmovedShapes
      obtain ⟨listName, shapes⟩ := document
      obtain ⟨movedName, movedShapes⟩ := moved
      have hsameName : [listName] = [movedName] := hname.symm.trans hmovedName
      have hsameShapes := declared_unique (declared_crlf hshapes hparams) hmovedShapes
      simp only at hsameShapes
      rw [hmoved, ← hsameShapes, ← List.singleton_inj.mp hsameName]
      rfl

end SceneScript
