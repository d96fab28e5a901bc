import SceneScript.Proofs.Acceptance

/-! # Places have no say in the outcome

What becomes of a source depends on the texts of its declarations, not on where they stand. Places
are carried along for the labels of a diagnostic only; its code and its message name no place. Nor
does it matter how many shapes stand in front of the first list header.
-/

namespace SceneScript

/-- The two candidates say the same, perhaps at other places. -/
structure Candidate.SameText (a b : Candidate) : Prop where
  kind : a.header.kind.value = b.header.kind.value
  name : a.name? = b.name?
  params : a.header.params.value = b.header.params.value
  style : a.block.map (fun block => Style.read block.body.value) =
    b.block.map fun block => Style.read block.body.value

/-- The two declarations say the same, perhaps at other places. -/
inductive Declaration.SameText : Declaration → Declaration → Prop where
  | list {a b : ListHeader} (name : a.name.value = b.name.value) : SameText (.list a) (.list b)
  | shape {a b : Candidate} (same : a.SameText b) : SameText (.shape a) (.shape b)

theorem Candidate.SameText.symm {a b : Candidate} (h : a.SameText b) : b.SameText a :=
  ⟨h.kind.symm, h.name.symm, h.params.symm, h.style.symm⟩

theorem Candidate.SameText.trans {a b c : Candidate} (h : a.SameText b) (hnext : b.SameText c) :
    a.SameText c :=
  ⟨h.kind.trans hnext.kind, h.name.trans hnext.name, h.params.trans hnext.params,
    h.style.trans hnext.style⟩

namespace Declaration.SameText

theorem refl (a : Declaration) : SameText a a := by
  cases a with
  | list header => exact .list rfl
  | shape candidate => exact .shape ⟨rfl, rfl, rfl, rfl⟩

theorem symm {a b : Declaration} (h : SameText a b) : SameText b a := by
  cases h with
  | list name => exact .list name.symm
  | shape same => exact .shape same.symm

theorem trans {a b c : Declaration} (h : SameText a b) (hnext : SameText b c) : SameText a c := by
  cases h with
  | list name =>
      cases hnext with
      | list other => exact .list (name.trans other)
  | shape same =>
      cases hnext with
      | shape other => exact .shape (same.trans other)

/-- Declarations that say the same as common ones say the same. -/
theorem of_common {common found others : List Declaration}
    (h : List.Forall₂ SameText common found) (hothers : List.Forall₂ SameText common others) :
    List.Forall₂ SameText found others := by
  induction h generalizing others with
  | nil =>
      cases hothers
      exact .nil
  | cons hsame _ ih =>
      cases hothers with
      | cons hother hrest => exact .cons (hsame.symm.trans hother) (ih hrest)

end Declaration.SameText

/-- The rule that is broken, and how. -/
def Violation.verdict (violation : Violation) : Code × String :=
  (violation.code, violation.message)

/-- The code and the message. -/
def Diagnostic.verdict (diagnostic : Diagnostic) : Option Code × String :=
  (diagnostic.code, diagnostic.message)

/-- Outcomes that differ in their errors at most, which `f` does not tell apart. -/
theorem mapError_eq_cases {ε ε' α : Type} {f : ε → ε'} {outcome other : Except ε α}
    (h : outcome.mapError f = other.mapError f) :
    (∃ fault otherFault, outcome = .error fault ∧ other = .error otherFault ∧
      f fault = f otherFault) ∨ ∃ result, outcome = .ok result ∧ other = .ok result := by
  cases outcome with
  | error fault =>
      cases other with
      | error otherFault => exact .inl ⟨fault, otherFault, rfl, rfl, Except.error.inj h⟩
      | ok result => cases h
  | ok result =>
      cases other with
      | error otherFault => cases h
      | ok otherResult =>
          obtain rfl := Except.ok.inj h
          exact .inr ⟨result, rfl, rfl⟩

/-! ## Reading parameters -/

namespace Piece

theorem mapError_read (text : Text) (base other : Nat) (piece : Piece) :
    (piece.read text base).mapError Violation.verdict =
      (piece.read text other).mapError Violation.verdict := by
  unfold read
  dsimp only
  split
  next => rfl
  next =>
    split
    next => rfl
    next =>
      split
      next => rfl
      next =>
        split
        next => rfl
        next => split <;> rfl

theorem map_verdict_fault? (text : Text) (base other : Nat) (piece : Piece) :
    (piece.fault? text base).map Violation.verdict =
      (piece.fault? text other).map Violation.verdict := by
  unfold fault?
  rcases mapError_eq_cases (mapError_read text base other piece) with
    ⟨fault, otherFault, hfault, hother, hsame⟩ | ⟨entry, hentry, hother⟩
  · rw [hfault, hother]
    exact congrArg some hsame
  · rw [hentry, hother]

theorem readAll_of_ok {text : Text} {base : Nat} {entries params : Entries Value}
    {pieces : List Piece} (h : readAll text base entries pieces = .ok params) (other : Nat) :
    readAll text other entries pieces = .ok params := by
  induction pieces generalizing entries with
  | nil => exact h
  | cons piece rest ih =>
      rw [readAll] at h ⊢
      rcases mapError_eq_cases (mapError_read text base other piece) with
        ⟨fault, otherFault, hfault, _, _⟩ | ⟨entry, hentry, hother⟩
      · rw [hfault] at h
        cases h
      · rw [hentry] at h
        rw [hother]
        cases entry with
        | none => exact ih h
        | some pair => exact ih h

end Piece

theorem readParameters_of_value {raw other : Spanned Text} (h : raw.value = other.value)
    {params : Entries Value} (hread : readParameters raw = .ok params) :
    readParameters other = .ok params := by
  unfold readParameters at hread ⊢
  rw [← h]
  exact Piece.readAll_of_ok hread other.span.start

/-! ## Verdicts -/

/-- A header that says nothing but its type. -/
def ShapeHeader.ofKind (kind : Text) : ShapeHeader :=
  ⟨⟨kind, .emptyAt 0⟩, none, ⟨[], .emptyAt 0⟩, .emptyAt 0⟩

/-- A header that says nothing but its name. -/
def ListHeader.ofName (name : Text) : ListHeader :=
  ⟨⟨name, .emptyAt 0⟩, .emptyAt 0⟩

namespace Violation

theorem verdict_missingName {a b : ShapeHeader} (h : a.kind.value = b.kind.value) :
    (missingName a).verdict = (missingName b).verdict :=
  calc
    (missingName a).verdict = (missingName (.ofKind a.kind.value)).verdict := rfl
    _ = (missingName (.ofKind b.kind.value)).verdict := by rw [h]
    _ = (missingName b).verdict := rfl

theorem verdict_missingStyle {a b : ShapeHeader} (h : a.title.value = b.title.value) :
    (missingStyle a).verdict = (missingStyle b).verdict :=
  calc
    (missingStyle a).verdict = (missingStyle (.ofKind a.title.value)).verdict := rfl
    _ = (missingStyle (.ofKind b.title.value)).verdict := by rw [h]
    _ = (missingStyle b).verdict := rfl

section List

variable {a b : ListHeader} (h : a.name.value = b.name.value)
include h

theorem verdict_duplicateList (first other : ListHeader) :
    (duplicateList a first).verdict = (duplicateList b other).verdict :=
  calc
    (duplicateList a first).verdict = (duplicateList (.ofName a.name.value) first).verdict := rfl
    _ = (duplicateList (.ofName b.name.value) first).verdict := by rw [h]
    _ = (duplicateList b other).verdict := rfl

theorem verdict_lowercaseList : (lowercaseList a).verdict = (lowercaseList b).verdict :=
  calc
    (lowercaseList a).verdict = (lowercaseList (.ofName a.name.value)).verdict := rfl
    _ = (lowercaseList (.ofName b.name.value)).verdict := by rw [h]
    _ = (lowercaseList b).verdict := rfl

theorem verdict_fileNameMismatch (stem : Text) :
    (fileNameMismatch a stem).verdict = (fileNameMismatch b stem).verdict :=
  calc
    (fileNameMismatch a stem).verdict =
        (fileNameMismatch (.ofName a.name.value) stem).verdict := rfl
    _ = (fileNameMismatch (.ofName b.name.value) stem).verdict := by rw [h]
    _ = (fileNameMismatch b stem).verdict := rfl

end List

end Violation

/-! ## Faults -/

section Faults

variable {a b : Candidate} {earlier others : List Candidate}

/-- Both candidates have a name, the same one, or none of them has. -/
theorem Candidate.SameText.name_cases (h : a.SameText b) :
    (a.header.name = none ∧ b.header.name = none) ∨
      ∃ name other, a.header.name = some name ∧ b.header.name = some other ∧
        name.value = other.value := by
  have hname := h.name
  unfold Candidate.name? at hname
  cases ha : a.header.name with
  | none =>
      cases hb : b.header.name with
      | none => exact .inl ⟨rfl, rfl⟩
      | some other =>
          rw [ha, hb] at hname
          cases hname
  | some name =>
      cases hb : b.header.name with
      | none =>
          rw [ha, hb] at hname
          cases hname
      | some other =>
          rw [ha, hb] at hname
          exact .inr ⟨name, other, rfl, rfl, Option.some.inj hname⟩

theorem Candidate.SameText.title (h : a.SameText b) :
    a.header.title.value = b.header.title.value := by
  unfold ShapeHeader.title
  rcases h.name_cases with ⟨ha, hb⟩ | ⟨name, other, ha, hb, hvalue⟩
  · rw [ha, hb]
    exact h.kind
  · rw [ha, hb]
    exact hvalue

theorem find?_name?_isSome (h : List.Forall₂ Candidate.SameText earlier others) (name : Text) :
    (earlier.find? fun other => other.name? = some name).isSome =
      (others.find? fun other => other.name? = some name).isSome := by
  induction h with
  | nil => rfl
  | @cons a b earlier others hsame _ ih =>
      rw [List.find?_cons, List.find?_cons, hsame.name]
      split
      next => rfl
      next => exact ih

theorem map_verdict_nameFaults (h : a.SameText b)
    (hearlier : List.Forall₂ Candidate.SameText earlier others) :
    (a.nameFaults earlier).map Violation.verdict =
      (b.nameFaults others).map Violation.verdict := by
  unfold Candidate.nameFaults
  rcases h.name_cases with ⟨ha, hb⟩ | ⟨name, other, ha, hb, hvalue⟩
  · rw [ha, hb]
    exact congrArg (fun verdict => [verdict]) (Violation.verdict_missingName h.kind)
  · have hduplicate : ((earlier.find? fun other => other.name? = some name.value).map fun other =>
        Violation.duplicateName a.header name.value other.header.span).toList.map
          Violation.verdict =
        ((others.find? fun other => other.name? = some name.value).map fun other =>
          Violation.duplicateName b.header name.value other.header.span).toList.map
            Violation.verdict := by
      have htaken := find?_name?_isSome hearlier name.value
      cases hfind : earlier.find? fun other => other.name? = some name.value with
      | none =>
          rw [hfind] at htaken
          have hnone := Option.isNone_iff_eq_none.mp (Option.isSome_eq_false_iff.mp htaken.symm)
          rw [hnone]
          rfl
      | some first =>
          rw [hfind] at htaken
          obtain ⟨otherFirst, hother⟩ := Option.isSome_iff_exists.mp htaken.symm
          rw [hother]
          rfl
    rw [ha, hb]
    simp only [List.map_append, hduplicate, ← hvalue]
    congr 1
    · split <;> rfl
    · congr 1
      split <;> rfl

theorem map_verdict_parameterFaults (h : a.SameText b) :
    a.parameterFaults.map Violation.verdict = b.parameterFaults.map Violation.verdict := by
  unfold Candidate.parameterFaults
  rw [List.map_filterMap, List.map_filterMap, h.params]
  apply List.filterMap_congr
  intro piece _
  exact Piece.map_verdict_fault? _ _ _ piece

theorem map_verdict_styleFaults (h : a.SameText b) :
    a.styleFaults.map Violation.verdict = b.styleFaults.map Violation.verdict := by
  have hstyle := congrArg Option.isSome h.style
  rw [Option.isSome_map, Option.isSome_map] at hstyle
  unfold Candidate.styleFaults
  rw [hstyle]
  split
  next => rfl
  next => exact congrArg (fun verdict => [verdict]) (Violation.verdict_missingStyle h.title)

theorem map_verdict_faults (h : a.SameText b)
    (hearlier : List.Forall₂ Candidate.SameText earlier others) :
    (a.faults earlier).map Violation.verdict = (b.faults others).map Violation.verdict := by
  unfold Candidate.faults
  simp only [List.map_append, map_verdict_nameFaults h hearlier, map_verdict_parameterFaults h,
    map_verdict_styleFaults h]

theorem Candidate.SameText.declares (h : a.SameText b) {shape : Shape}
    (hdeclares : a.Declares shape) : b.Declares shape where
  kind := hdeclares.kind.trans h.kind
  name := h.name.symm.trans hdeclares.name
  params := readParameters_of_value h.params hdeclares.params
  style := h.style.symm.trans hdeclares.style

theorem declared_of_sameText {shapes : List Shape}
    (h : List.Forall₂ Candidate.SameText earlier others)
    (hshapes : List.Forall₂ Candidate.Declares earlier shapes) :
    List.Forall₂ Candidate.Declares others shapes := by
  induction h generalizing shapes with
  | nil =>
      cases hshapes
      exact .nil
  | cons hsame _ ih =>
      cases hshapes with
      | cons hshape hrest => exact .cons (hsame.declares hshape) (ih hrest)

end Faults

/-! ## The first fault of all -/

section Declarations

variable {found others : List Declaration}

theorem ListHeader.map_verdict_faults {a b : ListHeader} (h : a.name.value = b.name.value)
    (fileName : Option Text) :
    (a.faults fileName).map Violation.verdict = (b.faults fileName).map Violation.verdict := by
  unfold ListHeader.faults
  rw [List.map_append, List.map_append, h]
  congr 1
  · split
    next => rfl
    next => exact congrArg (fun verdict => [verdict]) (Violation.verdict_lowercaseList h)
  · cases fileName with
    | none => rfl
    | some path =>
        dsimp only
        split
        next => rfl
        next =>
          exact congrArg (fun verdict => [verdict]) (Violation.verdict_fileNameMismatch h _)

theorem map_verdict_faultsAfter (first other : ListHeader) {earlier held : List Candidate}
    (h : List.Forall₂ Declaration.SameText found others)
    (hearlier : List.Forall₂ Candidate.SameText earlier held) :
    (faultsAfter first earlier found).map Violation.verdict =
      (faultsAfter other held others).map Violation.verdict := by
  induction h generalizing earlier held with
  | nil => rfl
  | cons hsame _ ih =>
      cases hsame with
      | list hname =>
          rw [faultsAfter, faultsAfter, List.map_cons, List.map_cons, ih hearlier,
            Violation.verdict_duplicateList hname first other]
      | shape hsame =>
          rw [faultsAfter, faultsAfter, List.map_append, List.map_append,
            SceneScript.map_verdict_faults hsame hearlier,
            ih (List.rel_append hearlier (.cons hsame .nil))]

theorem listHeaders_sameText (h : List.Forall₂ Declaration.SameText found others) :
    List.Forall₂ (fun a b => a.name.value = b.name.value) (listHeaders found)
      (listHeaders others) := by
  induction h with
  | nil => exact .nil
  | cons hsame _ ih =>
      cases hsame with
      | list hname => exact .cons hname ih
      | shape hsame => exact ih

theorem candidates_sameText (h : List.Forall₂ Declaration.SameText found others) :
    List.Forall₂ Candidate.SameText (candidates found) (candidates others) := by
  induction h with
  | nil => exact .nil
  | cons hsame _ ih =>
      cases hsame with
      | list hname => exact ih
      | shape hsame => exact .cons hsame ih

theorem eraseP_sameText (h : List.Forall₂ Declaration.SameText found others) :
    List.Forall₂ Declaration.SameText (found.eraseP (·.list?.isSome))
      (others.eraseP (·.list?.isSome)) := by
  induction h with
  | nil => exact .nil
  | cons hsame hrest ih =>
      cases hsame with
      | list hname => exact hrest
      | shape hsame => exact .cons (.shape hsame) ih

theorem rel_of_mem_head? {α : Type} {R : α → α → Prop} {front back : List α}
    (h : List.Forall₂ R front back) {a b : α} (ha : a ∈ front.head?) (hb : b ∈ back.head?) :
    R a b := by
  cases h with
  | nil => cases ha
  | cons hrel _ =>
      obtain rfl := Option.some.inj ha
      obtain rfl := Option.some.inj hb
      exact hrel

/-- The two have list headers of the same names, and say the same in the same order apart from the
first of these headers, which may stand anywhere. -/
structure SameOutline (found others : List Declaration) : Prop where
  lists : List.Forall₂ (fun a b => a.name.value = b.name.value) (listHeaders found)
    (listHeaders others)
  rest : List.Forall₂ Declaration.SameText (found.eraseP (·.list?.isSome))
    (others.eraseP (·.list?.isSome))

theorem SameOutline.of_sameText (h : List.Forall₂ Declaration.SameText found others) :
    SameOutline found others :=
  ⟨listHeaders_sameText h, eraseP_sameText h⟩

theorem SameOutline.candidates (h : SameOutline found others) :
    List.Forall₂ Candidate.SameText (candidates found) (candidates others) := by
  have hrest := candidates_sameText h.rest
  rwa [candidates_eraseP_list, candidates_eraseP_list] at hrest

theorem SameOutline.map_verdict_faults (h : SameOutline found others) (fileName : Option Text) :
    (faults fileName found).map Violation.verdict =
      (faults fileName others).map Violation.verdict := by
  have hlists := h.lists
  have hempty : SceneScript.candidates found = [] ↔ SceneScript.candidates others = [] := by
    rw [← List.length_eq_zero_iff, h.candidates.length_eq, List.length_eq_zero_iff]
  unfold faults
  generalize listHeaders found = lists at hlists ⊢
  generalize listHeaders others = otherLists at hlists ⊢
  cases hlists with
  | nil => rfl
  | @cons first other _ _ hname _ =>
      have hafter := map_verdict_faultsAfter first other h.rest .nil
      simp only [List.map_append, hempty, ListHeader.map_verdict_faults hname, hafter]

end Declarations

/-! ## The outcome -/

/-- Sources that declare the same, wherever their list header stands, have the same document, or
break the same rule in the same way. -/
theorem SameOutline.mapError_parse {source other : Text}
    (h : SameOutline (declarations source) (declarations other)) (fileName : Option Text) :
    (parse source fileName).mapError Diagnostic.verdict =
      (parse other fileName).mapError Diagnostic.verdict := by
  have hfaults := h.map_verdict_faults fileName
  unfold parse
  rcases (build_reports source fileName).elim with
    ⟨violation, rest, hsource, hbuild⟩ | ⟨hsource, document, hbuild, first, hfirst, hname, hshapes⟩
  · rcases (build_reports other fileName).elim with
      ⟨otherViolation, more, hother, hotherBuild⟩ | ⟨hother, _⟩
    · rw [hsource, hother, List.map_cons, List.map_cons] at hfaults
      obtain ⟨hcode, hmessage⟩ := Prod.mk.inj (List.cons.inj hfaults).1
      rw [hbuild, hotherBuild]
      exact congrArg Except.error (Prod.ext (congrArg some hcode) hmessage)
    · rw [hsource, hother] at hfaults
      cases hfaults
  · rcases (build_reports other fileName).elim with
      ⟨otherViolation, more, hother, _⟩ |
      ⟨_, otherDocument, hotherBuild, list, hlist, hotherName, hotherShapes⟩
    · rw [hsource, hother] at hfaults
      cases hfaults
    · have hshapesEq := declared_unique (declared_of_sameText h.candidates hshapes) hotherShapes
      have hnames := rel_of_mem_head? h.lists hfirst hlist
      obtain ⟨listName, shapes⟩ := document
      obtain ⟨otherListName, otherShapes⟩ := otherDocument
      simp only at hname hotherName hshapesEq
      rw [hbuild, hotherBuild, hname, hotherName, hnames, hshapesEq]

/-- Sources that declare the same in the same order have the same document, or break the same rule
in the same way. -/
theorem mapError_parse {source other : Text}
    (h : List.Forall₂ Declaration.SameText (declarations source) (declarations other))
    (fileName : Option Text) :
    (parse source fileName).mapError Diagnostic.verdict =
      (parse other fileName).mapError Diagnostic.verdict :=
  (SameOutline.of_sameText h).mapError_parse fileName

end SceneScript
