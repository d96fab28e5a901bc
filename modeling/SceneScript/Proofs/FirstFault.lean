import Mathlib.Data.List.Forall2
import SceneScript.Proofs.Citations
import SceneScript.Proofs.Declarations

/-! # The violation that is reported

All violations of a source can be listed in one fixed order, from the declarations of its complete
scan. The builder reports the first of them although it never sees the rest: it stops scanning at
once, and it holds back the shapes in front of the list header until that header has been checked.
-/

namespace SceneScript

/-- The outcome of checks that stop at the first of `faults`: that violation, or a result with the
property `P` when there is none. -/
def Reports {α : Type} (faults : List Violation) (P : α → Prop) (outcome : Except Violation α) :
    Prop :=
  match faults with
  | [] => ∃ result, outcome = .ok result ∧ P result
  | violation :: _ => outcome = .error violation

namespace Reports

variable {α : Type} {P : α → Prop} {faults : List Violation} {outcome : Except Violation α}

theorem ok {result : α} (h : P result) : Reports [] P (.ok result) :=
  ⟨result, rfl, h⟩

theorem elim (h : Reports faults P outcome) :
    (∃ violation rest, faults = violation :: rest ∧ outcome = .error violation) ∨
      faults = [] ∧ ∃ result, outcome = .ok result ∧ P result := by
  cases faults with
  | nil => exact .inr ⟨rfl, h⟩
  | cons violation rest => exact .inl ⟨violation, rest, rfl, h⟩

theorem eq_error_iff (h : Reports faults P outcome) (violation : Violation) :
    outcome = .error violation ↔ faults.head? = some violation := by
  rcases h.elim with ⟨first, rest, rfl, rfl⟩ | ⟨rfl, result, rfl, _⟩ <;> simp

theorem exists_ok_iff (h : Reports faults P outcome) :
    (∃ result, outcome = .ok result) ↔ faults = [] := by
  rcases h.elim with ⟨first, rest, rfl, rfl⟩ | ⟨rfl, result, rfl, _⟩ <;> simp

theorem of_eq_ok {result : α} (h : Reports faults P outcome) (hok : outcome = .ok result) :
    P result := by
  rcases h.elim with ⟨first, rest, rfl, herror⟩ | ⟨rfl, other, hother, hP⟩
  · rw [hok] at herror
    cases herror
  · rw [hok] at hother
    exact Except.ok.inj hother ▸ hP

end Reports

/-! ## All faults in order -/

/-- What is wrong with a piece of parameter text. -/
def Piece.fault? (text : Text) (base : Nat) (piece : Piece) : Option Violation :=
  match piece.read text base with
  | .error violation => some violation
  | .ok _ => none

namespace Candidate

/-- The name that the header gives, if there is one. -/
def name? (candidate : Candidate) : Option Text :=
  candidate.header.name.map (·.value)

/-- What is wrong with the name, where the names of the `earlier` candidates are taken. -/
def nameFaults (earlier : List Candidate) (candidate : Candidate) : List Violation :=
  match candidate.header.name with
  | none => [.missingName candidate.header]
  | some name =>
    (if Naming.isReserved name.value then [.reservedName candidate.header name.value] else []) ++
      ((if Naming.startsUppercase name.value then []
        else [.lowercaseName candidate.header name.value]) ++
      ((earlier.find? fun other => other.name? = some name.value).map fun other =>
        .duplicateName candidate.header name.value other.header.span).toList)

/-- What is wrong with the parameters, piece by piece. -/
def parameterFaults (candidate : Candidate) : List Violation :=
  (Piece.all candidate.header.params.value).filterMap
    (Piece.fault? candidate.header.params.value candidate.header.params.span.start)

def styleFaults (candidate : Candidate) : List Violation :=
  if candidate.block.isSome then [] else [.missingStyle candidate.header]

/-- What is wrong with a candidate that follows the `earlier` ones. -/
def faults (earlier : List Candidate) (candidate : Candidate) : List Violation :=
  candidate.nameFaults earlier ++ (candidate.parameterFaults ++ candidate.styleFaults)

/-- The shape that a candidate stands for. -/
structure Declares (candidate : Candidate) (shape : Shape) : Prop where
  kind : shape.kind = candidate.header.kind.value
  name : candidate.name? = some shape.name
  params : readParameters candidate.header.params = .ok shape.params
  style : candidate.block.map (fun block => Style.read block.body.value) = some shape.style

end Candidate

/-- What is wrong with the name of the list. -/
def ListHeader.faults (fileName : Option Text) (header : ListHeader) : List Violation :=
  (if Naming.startsUppercase header.name.value then [] else [.lowercaseList header]) ++
    match fileName with
    | none => []
    | some fileName =>
      if Path.stem fileName = header.name.value then []
      else [.fileNameMismatch header (Path.stem fileName)]

/-- What is wrong with declarations other than the first list header, after the `earlier`
candidates. -/
def faultsAfter (first : ListHeader) (earlier : List Candidate) : List Declaration → List Violation
  | [] => []
  | .list header :: rest => .duplicateList header first :: faultsAfter first earlier rest
  | .shape candidate :: rest =>
    candidate.faults earlier ++ faultsAfter first (earlier ++ [candidate]) rest

/-- All violations of the declarations of a complete scan. The first list header comes first,
wherever it stands; all other declarations follow in source order. -/
def faults (fileName : Option Text) (found : List Declaration) : List Violation :=
  match listHeaders found with
  | [] => [.missingList]
  | first :: _ =>
    first.faults fileName ++
      (faultsAfter first [] (found.eraseP (·.list?.isSome)) ++
        if candidates found = [] then [.noShapes] else [])

/-! ## Each check reports its first fault -/

theorem Naming.checkList_reports (fileName : Option Text) (header : ListHeader) :
    Reports (header.faults fileName) (fun _ => True)
      ((Naming.ofFileName fileName).checkList header) := by
  unfold Naming.checkList ListHeader.faults
  by_cases hupper : Naming.startsUppercase header.name.value
  · cases fileName with
    | none => simpa [hupper, Naming.ofFileName] using Reports.ok trivial
    | some fileName =>
        by_cases hstem : Path.stem fileName = header.name.value
        · simpa [hupper, Naming.ofFileName, hstem] using Reports.ok trivial
        · simp [hupper, Naming.ofFileName, hstem, Reports]
  · simp [hupper, Reports]

/-- The names that `naming` remembers are those of the `earlier` candidates, with the headers that
took them. -/
def Naming.Remembers (naming : Naming) (earlier : List Candidate) : Prop :=
  ∀ name, naming.accepted.lookup name =
    (earlier.find? fun other => other.name? = some name).map (·.header.span)

theorem Naming.acceptShape_reports {naming : Naming} {earlier : List Candidate}
    (h : naming.Remembers earlier) (candidate : Candidate) :
    Reports (candidate.nameFaults earlier)
      (fun next => candidate.name?.isSome ∧ next.Remembers (earlier ++ [candidate]))
      (naming.acceptShape candidate.header) := by
  unfold Naming.acceptShape Candidate.nameFaults
  cases hname : candidate.header.name with
  | none => exact rfl
  | some name =>
      have hname? : candidate.name? = some name.value := by simp [Candidate.name?, hname]
      by_cases hreserved : Naming.isReserved name.value
      · simp [hreserved, Reports]
      · by_cases hupper : Naming.startsUppercase name.value
        · simp only [hreserved, hupper, h name.value]
          cases hfind : earlier.find? fun other => other.name? = some name.value with
          | some other => exact rfl
          | none =>
              -- The new name is found where it was added, and every other name where it was.
              refine Reports.ok ⟨by simp [hname?], fun other => ?_⟩
              rw [List.find?_append, List.lookup_cons, h other]
              by_cases hother : other = name.value
              · simp [hother, hfind, hname?]
              · simp [hname?, Ne.symm hother, beq_eq_false_iff_ne.mpr hother]
        · simp [hreserved, hupper, Reports]

/-- Reading parameters stops at the first bad piece. -/
theorem Piece.readAll_reports (text : Text) (base : Nat) (entries : Entries Value)
    (pieces : List Piece) :
    Reports (pieces.filterMap (Piece.fault? text base)) (fun _ => True)
      (Piece.readAll text base entries pieces) := by
  induction pieces generalizing entries with
  | nil => exact Reports.ok trivial
  | cons piece rest ih =>
      rw [List.filterMap_cons, Piece.fault?, Piece.readAll]
      cases piece.read text base with
      | error violation => exact rfl
      | ok entry =>
          cases entry with
          | none => exact ih entries
          | some pair => exact ih (entries.insert pair.1 pair.2)

theorem readParameters_reports (candidate : Candidate) :
    Reports candidate.parameterFaults
      (fun params => readParameters candidate.header.params = .ok params)
      (readParameters candidate.header.params) := by
  have h := Piece.readAll_reports candidate.header.params.value candidate.header.params.span.start
    .empty (Piece.all candidate.header.params.value)
  unfold Candidate.parameterFaults
  cases hfaults : (Piece.all candidate.header.params.value).filterMap
      (Piece.fault? candidate.header.params.value candidate.header.params.span.start) with
  | nil =>
      rw [hfaults] at h
      obtain ⟨params, hparams, _⟩ := h
      exact ⟨params, hparams, hparams⟩
  | cons violation rest =>
      rw [hfaults] at h
      exact h

/-! ## The builder reports the first fault of all -/

/-- The draft holds the shapes of the `earlier` candidates, and their names are taken. -/
structure Draft.Holds (draft : Draft) (earlier : List Candidate) : Prop where
  names : draft.naming.Remembers earlier
  shapes : List.Forall₂ Candidate.Declares earlier draft.shapes

namespace Draft

theorem start_holds (fileName : Option Text) : Draft.Holds ⟨.ofFileName fileName, []⟩ [] :=
  ⟨fun _ => rfl, .nil⟩

/-- Adding a candidate reports its first fault, or extends what the draft holds. -/
theorem add_reports {draft : Draft} {earlier : List Candidate} (h : draft.Holds earlier)
    (candidate : Candidate) :
    Reports (candidate.faults earlier) (fun next => next.Holds (earlier ++ [candidate]))
      (draft.add candidate) := by
  unfold add Candidate.faults
  rcases (Naming.acceptShape_reports h.names candidate).elim with
    ⟨violation, rest, hfaults, herror⟩ | ⟨hfaults, naming, hok, hname, hnames⟩
  · rw [hfaults, herror]
    exact rfl
  rw [hfaults, hok, List.nil_append]
  rcases (readParameters_reports candidate).elim with
    ⟨violation, rest, hfaults, herror⟩ | ⟨hfaults, params, hok, hparams⟩
  · rw [hfaults, herror]
    exact rfl
  rw [hfaults, hok, List.nil_append, Candidate.styleFaults]
  cases hblock : candidate.block with
  | none => exact rfl
  | some block =>
      obtain ⟨name, hname⟩ := Option.isSome_iff_exists.mp hname
      refine Reports.ok ⟨hnames, List.rel_append h.shapes (.cons ⟨rfl, ?_, hparams, ?_⟩ .nil)⟩
      · unfold Candidate.name? at hname ⊢
        rw [hname, Option.getD_some]
      · rw [hblock, Option.map_some]

/-- Taking in all further declarations reports their first fault, and that there is no shape at the
very end only. -/
theorem settle_reports {draft : Draft} {earlier : List Candidate} (h : draft.Holds earlier)
    (first : ListHeader) (rest : List Declaration) :
    Reports (faultsAfter first earlier rest ++
        if earlier ++ candidates rest = [] then [.noShapes] else [])
      (fun document => document.listName = first.name.value ∧
        List.Forall₂ Candidate.Declares (earlier ++ candidates rest) document.shapes)
      (settle first draft rest) := by
  -- What the draft holds is the invariant: the candidates that were taken in so far.
  induction rest generalizing draft earlier with
  | nil =>
      rw [settle, faultsAfter, List.nil_append, candidates_nil, List.append_nil]
      obtain ⟨naming, shapes⟩ := draft
      cases h.shapes with
      | nil => exact rfl
      | cons hshape hshapes => exact Reports.ok ⟨rfl, .cons hshape hshapes⟩
  | cons declaration rest ih =>
      cases declaration with
      | list header => exact rfl
      | shape candidate =>
          rw [settle, faultsAfter]
          rcases (add_reports h candidate).elim with
            ⟨violation, more, hfaults, herror⟩ | ⟨hfaults, next, hok, hnext⟩
          · rw [hfaults, herror]
            exact rfl
          · rw [hfaults, hok, List.nil_append]
            have hrest := ih hnext
            rwa [List.append_assoc, List.singleton_append] at hrest

end Draft

/-- Building reports the first of all faults of the complete scan. Without a fault, the document
takes its name from the first list header and its shapes from all candidates. -/
theorem build_reports (source : Text) (fileName : Option Text) :
    Reports (faults fileName (declarations source))
      (fun document => ∃ first ∈ (listHeaders (declarations source)).head?,
        document.listName = first.name.value ∧
          List.Forall₂ Candidate.Declares (candidates (declarations source)) document.shapes)
      (build source fileName) := by
  unfold build faults
  rcases eq_map_or_eq_append_list (declarations source) with
    ⟨held, hfound⟩ | ⟨held, first, after, hfound⟩
  · rw [hfound, Draft.start_of_map hfound, listHeaders_map_shape]
    exact rfl
  · rw [hfound, Draft.start_of_map_append_list hfound]
    simp only [listHeaders_append, listHeaders_map_shape, listHeaders_list, List.nil_append,
      candidates_append, candidates_map_shape, candidates_list, List.head?_cons]
    rcases (Naming.checkList_reports fileName first).elim with
      ⟨violation, rest, hfaults, herror⟩ | ⟨hfaults, _, hok, _⟩
    · rw [hfaults, herror]
      exact rfl
    · rw [hfaults, hok, List.nil_append, eraseP_map_append_list]
      have hsettle := Draft.settle_reports (Draft.start_holds fileName) first
        (held.map .shape ++ after)
      simpa using hsettle

theorem parse_eq_error_of_head?_faults {source : Text} {fileName : Option Text}
    {violation : Violation}
    (h : (faults fileName (declarations source)).head? = some violation) :
    parse source fileName = .error (violation.diagnostic.locate (.ofSource source)) := by
  rw [parse, ((build_reports source fileName).eq_error_iff violation).mpr h]

theorem exists_fault_of_parse_eq_error {source : Text} {fileName : Option Text}
    {diagnostic : Diagnostic} (h : parse source fileName = .error diagnostic) :
    ∃ violation, (faults fileName (declarations source)).head? = some violation ∧
      diagnostic = violation.diagnostic.locate (.ofSource source) := by
  unfold parse at h
  cases hresult : build source fileName with
  | ok document =>
      rw [hresult] at h
      cases h
  | error violation =>
      have hfirst := ((build_reports source fileName).eq_error_iff violation).mp hresult
      rw [hresult] at h
      exact ⟨violation, hfirst, (Except.error.inj h).symm⟩

/-- A rejected source is reported by the first of its faults, located in the source: under the code
of the broken rule, in words that name what breaks it, and with labels on what breaks it. -/
theorem parse_eq_error_iff (source : Text) (fileName : Option Text) (diagnostic : Diagnostic) :
    parse source fileName = .error diagnostic ↔
      ∃ violation, (faults fileName (declarations source)).head? = some violation ∧
        diagnostic.Describes violation ∧
        diagnostic = violation.diagnostic.locate (.ofSource source) := by
  constructor
  · intro herror
    obtain ⟨violation, hfirst, rfl⟩ := exists_fault_of_parse_eq_error herror
    exact ⟨violation, hfirst, violation.describes.locate (.ofSource source), rfl⟩
  · rintro ⟨violation, hfirst, _, rfl⟩
    exact parse_eq_error_of_head?_faults hfirst

end SceneScript
