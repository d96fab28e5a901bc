import SceneScript.Proofs.FirstFault

/-! # Which sources have a document

Whether a source is accepted does not depend on the order in which the builder checks things: it is
a condition on the declarations of the complete scan, where the shapes on both sides of the list
header count alike.
-/

namespace SceneScript

/-- The candidate has a name that the naming rules allow, readable parameters and a style block. -/
structure Candidate.Sound (candidate : Candidate) : Prop where
  named : ∃ name, candidate.name? = some name ∧ Naming.startsUppercase name ∧
    ¬ Naming.isReserved name
  readable : ∃ params, readParameters candidate.header.params = .ok params
  styled : candidate.block.isSome

/-- The declarations of a source that has a document: one list header with a proper name, which is
that of the file if there is one, and at least one shape; all shapes are sound and have distinct
names. -/
structure WellFormed (fileName : Option Text) (found : List Declaration) : Prop where
  one_list : ∃ list, listHeaders found = [list] ∧ Naming.startsUppercase list.name.value ∧
    ∀ path ∈ fileName, Path.stem path = list.name.value
  some_shape : candidates found ≠ []
  sound : ∀ candidate ∈ candidates found, candidate.Sound
  distinct : (candidates found).Pairwise fun a b => a.name? ≠ b.name?

/-! ## Absence of faults -/

theorem ListHeader.faults_eq_nil_iff (fileName : Option Text) (header : ListHeader) :
    header.faults fileName = [] ↔ Naming.startsUppercase header.name.value ∧
      ∀ path ∈ fileName, Path.stem path = header.name.value := by
  unfold ListHeader.faults
  cases fileName with
  | none => simp
  | some path => simp

namespace Candidate

theorem nameFaults_eq_nil_iff (earlier : List Candidate) (candidate : Candidate) :
    candidate.nameFaults earlier = [] ↔
      (∃ name, candidate.name? = some name ∧ Naming.startsUppercase name ∧
        ¬ Naming.isReserved name) ∧ ∀ other ∈ earlier, other.name? ≠ candidate.name? := by
  unfold nameFaults name?
  cases candidate.header.name with
  | none => simp
  | some name => simp [and_assoc, and_left_comm]

theorem parameterFaults_eq_nil_iff (candidate : Candidate) :
    candidate.parameterFaults = [] ↔
      ∃ params, readParameters candidate.header.params = .ok params :=
  (readParameters_reports candidate).exists_ok_iff.symm

theorem styleFaults_eq_nil_iff (candidate : Candidate) :
    candidate.styleFaults = [] ↔ candidate.block.isSome := by
  unfold styleFaults
  split <;> simp_all

/-- A candidate has no fault when it is sound and its name is not taken. -/
theorem faults_eq_nil_iff (earlier : List Candidate) (candidate : Candidate) :
    candidate.faults earlier = [] ↔
      candidate.Sound ∧ ∀ other ∈ earlier, other.name? ≠ candidate.name? := by
  rw [faults, List.append_eq_nil_iff, List.append_eq_nil_iff, nameFaults_eq_nil_iff,
    parameterFaults_eq_nil_iff, styleFaults_eq_nil_iff]
  constructor
  · rintro ⟨⟨hnamed, hfresh⟩, hreadable, hstyled⟩
    exact ⟨⟨hnamed, hreadable, hstyled⟩, hfresh⟩
  · rintro ⟨⟨hnamed, hreadable, hstyled⟩, hfresh⟩
    exact ⟨⟨hnamed, hfresh⟩, hreadable, hstyled⟩

end Candidate

/-- The declarations after a list header have no fault when they hold no other list header, and
their shapes are sound and have names that differ from one another and from the earlier ones. -/
theorem faultsAfter_eq_nil_iff (first : ListHeader) (earlier : List Candidate)
    (rest : List Declaration) (hearlier : earlier.Pairwise fun a b => a.name? ≠ b.name?) :
    faultsAfter first earlier rest = [] ↔
      listHeaders rest = [] ∧ (∀ candidate ∈ candidates rest, candidate.Sound) ∧
        (earlier ++ candidates rest).Pairwise fun a b => a.name? ≠ b.name? := by
  induction rest generalizing earlier with
  | nil => simpa [faultsAfter] using hearlier
  | cons declaration rest ih =>
      cases declaration with
      | list header => simp [faultsAfter]
      | shape candidate =>
          rw [faultsAfter, List.append_eq_nil_iff, Candidate.faults_eq_nil_iff, listHeaders_shape,
            candidates_shape, List.forall_mem_cons,
            List.append_cons earlier candidate (candidates rest)]
          constructor
          · rintro ⟨⟨hsound, hfresh⟩, hrest⟩
            -- From here on the candidate is one of the earlier ones.
            have hnext : (earlier ++ [candidate]).Pairwise fun a b => a.name? ≠ b.name? :=
              List.pairwise_append.mpr
                ⟨hearlier, List.pairwise_singleton _ _, by simpa using hfresh⟩
            obtain ⟨hlists, hall, hdistinct⟩ := (ih _ hnext).mp hrest
            exact ⟨hlists, ⟨hsound, hall⟩, hdistinct⟩
          · rintro ⟨hlists, ⟨hsound, hall⟩, hdistinct⟩
            have hnext := (List.pairwise_append.mp hdistinct).1
            refine ⟨⟨hsound, ?_⟩, (ih _ hnext).mpr ⟨hlists, hall, hdistinct⟩⟩
            simpa using (List.pairwise_append.mp hnext).2.2

/-- There is no fault exactly when the declarations are well formed. -/
theorem faults_eq_nil_iff (fileName : Option Text) (found : List Declaration) :
    faults fileName found = [] ↔ WellFormed fileName found := by
  unfold faults
  rcases eq_map_or_eq_append_list found with ⟨held, rfl⟩ | ⟨held, first, after, rfl⟩
  · rw [listHeaders_map_shape]
    refine ⟨fun h => by simp at h, fun h => ?_⟩
    obtain ⟨list, hlist, _⟩ := h.one_list
    simp at hlist
  · have hlists : listHeaders (held.map Declaration.shape ++ .list first :: after) =
        first :: listHeaders after := by simp
    have hcandidates : candidates (held.map Declaration.shape ++ .list first :: after) =
        held ++ candidates after := by simp
    have hafter := faultsAfter_eq_nil_iff first [] (held.map .shape ++ after) .nil
    simp only [listHeaders_append, listHeaders_map_shape, List.nil_append, candidates_append,
      candidates_map_shape] at hafter
    rw [hlists, eraseP_map_append_list, List.append_eq_nil_iff, List.append_eq_nil_iff,
      ListHeader.faults_eq_nil_iff, hafter, hcandidates]
    constructor
    · rintro ⟨⟨hupper, hstem⟩, ⟨hnone, hsound, hdistinct⟩, hshape⟩
      refine ⟨⟨first, by rw [hlists, hnone], hupper, hstem⟩, ?_, ?_, ?_⟩
      · rw [hcandidates]
        intro hempty
        simp [hempty] at hshape
      · rwa [hcandidates]
      · rwa [hcandidates]
    · intro h
      obtain ⟨list, hlist, hupper, hstem⟩ := h.one_list
      rw [hlists] at hlist
      obtain ⟨rfl, hnone⟩ := List.cons.inj hlist
      refine ⟨⟨hupper, hstem⟩, ⟨hnone, ?_, ?_⟩, ?_⟩
      · exact hcandidates ▸ h.sound
      · exact hcandidates ▸ h.distinct
      · rw [if_neg (hcandidates ▸ h.some_shape)]

/-! ## Acceptance -/

theorem parse_eq_ok_iff (source : Text) (fileName : Option Text) (document : Document) :
    parse source fileName = .ok document ↔ build source fileName = .ok document := by
  unfold parse
  cases build source fileName with
  | ok other => simp
  | error violation => simp

theorem build_ok_iff_wellFormed (source : Text) (fileName : Option Text) :
    (∃ document, build source fileName = .ok document) ↔
      WellFormed fileName (declarations source) :=
  (build_reports source fileName).exists_ok_iff.trans (faults_eq_nil_iff fileName _)

/-- The document is named by the one list header and holds the shapes of all candidates in order. -/
theorem build_eq_ok {source : Text} {fileName : Option Text} {document : Document}
    (h : build source fileName = .ok document) :
    (listHeaders (declarations source)).map (·.name.value) = [document.listName] ∧
      List.Forall₂ Candidate.Declares (candidates (declarations source)) document.shapes := by
  obtain ⟨first, hfirst, hname, hshapes⟩ := (build_reports source fileName).of_eq_ok h
  obtain ⟨list, hlist, _⟩ := ((build_ok_iff_wellFormed source fileName).mp ⟨document, h⟩).one_list
  rw [hlist, List.head?_cons, Option.mem_some_iff] at hfirst
  subst hfirst
  refine ⟨?_, hshapes⟩
  rw [hlist, hname, List.map_singleton]

/-! ## What candidates declare -/

/-- A candidate declares one shape at most. -/
theorem Candidate.Declares.unique {candidate : Candidate} {shape other : Shape}
    (h : candidate.Declares shape) (hother : candidate.Declares other) : shape = other := by
  obtain ⟨kind, name, params, style⟩ := shape
  obtain ⟨otherKind, otherName, otherParams, otherStyle⟩ := other
  have hkind := h.kind.trans hother.kind.symm
  have hname := Option.some.inj (h.name.symm.trans hother.name)
  have hparams := Except.ok.inj (h.params.symm.trans hother.params)
  have hstyle := Option.some.inj (h.style.symm.trans hother.style)
  simp only at hkind hname hparams hstyle
  rw [hkind, hname, hparams, hstyle]

theorem Candidate.Declares.sound {candidate : Candidate} {shape : Shape}
    (h : candidate.Declares shape) (hupper : Naming.startsUppercase shape.name)
    (hreserved : ¬ Naming.isReserved shape.name) : candidate.Sound where
  named := ⟨shape.name, h.name, hupper, hreserved⟩
  readable := ⟨shape.params, h.params⟩
  styled := by
    have hstyle := h.style
    cases hblock : candidate.block with
    | none =>
        rw [hblock] at hstyle
        cases hstyle
    | some block => rfl

section Declared

variable {held : List Candidate} {shapes others : List Shape}

theorem exists_declared_of_mem (h : List.Forall₂ Candidate.Declares held shapes)
    {candidate : Candidate} (hmem : candidate ∈ held) :
    ∃ shape ∈ shapes, candidate.Declares shape := by
  induction h with
  | nil => cases hmem
  | cons hshape _ ih =>
      rcases List.mem_cons.mp hmem with rfl | hmem
      · exact ⟨_, List.mem_cons_self, hshape⟩
      · obtain ⟨shape, hshape, hdeclares⟩ := ih hmem
        exact ⟨shape, List.mem_cons_of_mem _ hshape, hdeclares⟩

theorem exists_candidate_of_mem (h : List.Forall₂ Candidate.Declares held shapes) {shape : Shape}
    (hmem : shape ∈ shapes) : ∃ candidate ∈ held, candidate.Declares shape := by
  induction h with
  | nil => cases hmem
  | cons hshape _ ih =>
      rcases List.mem_cons.mp hmem with rfl | hmem
      · exact ⟨_, List.mem_cons_self, hshape⟩
      · obtain ⟨candidate, hcandidate, hdeclares⟩ := ih hmem
        exact ⟨candidate, List.mem_cons_of_mem _ hcandidate, hdeclares⟩

theorem map_name?_of_declares (h : List.Forall₂ Candidate.Declares held shapes) :
    held.map Candidate.name? = shapes.map fun shape => some shape.name := by
  induction h with
  | nil => rfl
  | cons hshape _ ih => rw [List.map_cons, List.map_cons, hshape.name, ih]

theorem declared_unique (h : List.Forall₂ Candidate.Declares held shapes)
    (hothers : List.Forall₂ Candidate.Declares held others) : shapes = others := by
  induction h generalizing others with
  | nil =>
      cases hothers
      rfl
  | cons hshape _ ih =>
      cases hothers with
      | cons hother hrest => rw [hshape.unique hother, ih hrest]

end Declared

/-- Of a source, only the first fault counts: where it is the same, or where there is none, building
has the same outcome. -/
theorem build_congr_fileName {source : Text} {fileName other : Option Text}
    (h : (faults fileName (declarations source)).head? =
      (faults other (declarations source)).head?) :
    build source fileName = build source other := by
  cases hbuild : build source other with
  | error violation =>
      rw [(build_reports source fileName).eq_error_iff, h,
        ← (build_reports source other).eq_error_iff, hbuild]
  | ok document =>
      have hnone := (build_reports source other).exists_ok_iff.mp ⟨document, hbuild⟩
      rw [hnone, List.head?_nil, List.head?_eq_none_iff] at h
      obtain ⟨found, hfound⟩ := (build_reports source fileName).exists_ok_iff.mpr h
      obtain ⟨hname, hshapes⟩ := build_eq_ok hbuild
      obtain ⟨hfoundName, hfoundShapes⟩ := build_eq_ok hfound
      rw [hname, List.singleton_inj] at hfoundName
      obtain ⟨listName, shapes⟩ := document
      obtain ⟨foundListName, foundShapes⟩ := found
      simp only at hfoundName hshapes hfoundShapes
      rw [hfound, hfoundName, declared_unique hshapes hfoundShapes]

/-- A source that declares one list and shapes with proper and distinct names has the document of
these. -/
theorem build_of_declares {source : Text} {fileName : Option Text} {list : ListHeader}
    {shapes : List Shape} (hlist : listHeaders (declarations source) = [list])
    (hupper : Naming.startsUppercase list.name.value)
    (hfile : ∀ path ∈ fileName, Path.stem path = list.name.value)
    (hshapes : List.Forall₂ Candidate.Declares (candidates (declarations source)) shapes)
    (hne : shapes ≠ [])
    (hnames : ∀ shape ∈ shapes, Naming.startsUppercase shape.name ∧ ¬ Naming.isReserved shape.name)
    (hdistinct : (shapes.map fun shape => shape.name).Nodup) :
    build source fileName = .ok ⟨list.name.value, shapes⟩ := by
  have hwellFormed : WellFormed fileName (declarations source) := by
    refine ⟨⟨list, hlist, hupper, hfile⟩, ?_, ?_, ?_⟩
    · intro hnil
      rw [hnil] at hshapes
      cases hshapes
      exact hne rfl
    · intro candidate hmem
      obtain ⟨shape, hshape, hdeclares⟩ := exists_declared_of_mem hshapes hmem
      exact hdeclares.sound (hnames shape hshape).1 (hnames shape hshape).2
    · have hnodup := List.pairwise_map.mp hdistinct
      have hsome : (shapes.map fun shape => some shape.name).Nodup :=
        List.pairwise_map.mpr (hnodup.imp fun hne heq => hne (Option.some.inj heq))
      rw [← map_name?_of_declares hshapes] at hsome
      exact List.pairwise_map.mp hsome
  obtain ⟨⟨listName, others⟩, hbuild⟩ := (build_ok_iff_wellFormed source fileName).mpr hwellFormed
  obtain ⟨hname, hothers⟩ := build_eq_ok hbuild
  rw [hlist, List.map_singleton, List.singleton_inj] at hname
  simp only at hname hothers
  rw [hbuild, ← hname, declared_unique hshapes hothers]

/-! ## The condition on the whole scan -/

/-- A source has a document exactly when the declarations of its complete scan are well formed, and
the document is then what its list header and its candidates declare. -/
theorem parse_ok_iff_wellFormed (source : Text) (fileName : Option Text) :
    ((∃ document, parse source fileName = .ok document) ↔
        WellFormed fileName (declarations source)) ∧
      ∀ document, parse source fileName = .ok document →
        (listHeaders (declarations source)).map (·.name.value) = [document.listName] ∧
          List.Forall₂ Candidate.Declares (candidates (declarations source)) document.shapes := by
  simp only [parse_eq_ok_iff]
  exact ⟨build_ok_iff_wellFormed source fileName, fun document h => build_eq_ok h⟩

end SceneScript
