import SceneScript.Document.Build

/-! # The declarations of a complete scan

A complete scan moves one cursor to the end of a source: to every next header, and after every
shape header once to its style block. The builder moves its cursor in the same way but stops at the
first violation, so building a document is a fold over the declarations of the complete scan.
-/

namespace SceneScript

/-- What a complete scan meets: a list header, or a shape header with the style block that was
found for it. -/
inductive Declaration where
  | list (header : ListHeader)
  | shape (candidate : Candidate)
  deriving DecidableEq, Repr

namespace Declaration

/-- The list header, if the declaration is one. -/
def list? : Declaration → Option ListHeader
  | list header => some header
  | shape _ => none

/-- The candidate for a shape, if the declaration is one. -/
def candidate? : Declaration → Option Candidate
  | list _ => none
  | shape candidate => some candidate

end Declaration

/-- Everything that a complete scan finds from the cursor on, in source order. -/
def declarationsFrom (source : Text) (tokens : Tokens) : List Declaration :=
  match _found : nextHeader source tokens with
  | none => []
  | some (.list header, rest) => .list header :: declarationsFrom source rest
  | some (.shape header, rest) =>
    .shape ⟨header, (findStyle source rest).1⟩ :: declarationsFrom source (findStyle source rest).2
termination_by tokens.length
decreasing_by
  · exact length_of_nextHeader _found
  · exact Nat.lt_of_le_of_lt (length_findStyle source rest) (length_of_nextHeader _found)

/-- The declarations of the complete scan of a source. -/
def declarations (source : Text) : List Declaration :=
  declarationsFrom source (significantTokens source)

/-- The list headers among the declarations. -/
def listHeaders (found : List Declaration) : List ListHeader :=
  found.filterMap Declaration.list?

/-- The shape headers among the declarations, each with its style block. -/
def candidates (found : List Declaration) : List Candidate :=
  found.filterMap Declaration.candidate?

/-! ## One step of the scan -/

theorem declarationsFrom_of_none {source : Text} {tokens : Tokens}
    (h : nextHeader source tokens = none) : declarationsFrom source tokens = [] := by
  rw [declarationsFrom]
  split <;> simp_all

theorem declarationsFrom_of_list {source : Text} {tokens rest : Tokens} {header : ListHeader}
    (h : nextHeader source tokens = some (.list header, rest)) :
    declarationsFrom source tokens = .list header :: declarationsFrom source rest := by
  rw [declarationsFrom]
  split <;> simp_all

theorem declarationsFrom_of_shape {source : Text} {tokens rest after : Tokens}
    {header : ShapeHeader} {block : Option StyleBlock}
    (h : nextHeader source tokens = some (.shape header, rest))
    (hstyle : findStyle source rest = (block, after)) :
    declarationsFrom source tokens = .shape ⟨header, block⟩ :: declarationsFrom source after := by
  rw [declarationsFrom]
  split <;> simp_all

/-- Induction over a complete scan, one declaration at a time. -/
@[elab_as_elim]
theorem scan_induction (source : Text) {motive : Tokens → Prop}
    (none : ∀ tokens, nextHeader source tokens = none → motive tokens)
    (list : ∀ tokens header rest, nextHeader source tokens = some (.list header, rest) →
      motive rest → motive tokens)
    (shape : ∀ tokens header rest block after,
      nextHeader source tokens = some (.shape header, rest) →
      findStyle source rest = (block, after) → motive after → motive tokens)
    (tokens : Tokens) : motive tokens := by
  induction hlength : tokens.length using Nat.strongRecOn generalizing tokens with
  | ind length ih =>
      cases hnext : nextHeader source tokens with
      | none => exact none tokens hnext
      | some found =>
          obtain ⟨header, rest⟩ := found
          have hless := length_of_nextHeader hnext
          cases header with
          | list header => exact list tokens header rest hnext (ih _ (hlength ▸ hless) rest rfl)
          | shape header =>
              have hstyle := length_findStyle source rest
              exact shape tokens header rest _ _ hnext rfl (ih _ (by omega) _ rfl)

/-- The declarations depend on the next header alone. -/
theorem declarationsFrom_congr {source : Text} {tokens others : Tokens}
    (h : nextHeader source tokens = nextHeader source others) :
    declarationsFrom source tokens = declarationsFrom source others := by
  cases hnext : nextHeader source others with
  | none => rw [declarationsFrom_of_none hnext, declarationsFrom_of_none (h.trans hnext)]
  | some found =>
      obtain ⟨header, rest⟩ := found
      cases header with
      | list header =>
          rw [declarationsFrom_of_list hnext, declarationsFrom_of_list (h.trans hnext)]
      | shape header =>
          rw [declarationsFrom_of_shape hnext rfl, declarationsFrom_of_shape (h.trans hnext) rfl]

/-! ## Lists and candidates among the declarations -/

@[simp] theorem listHeaders_nil : listHeaders [] = [] := rfl

@[simp] theorem listHeaders_list (header : ListHeader) (rest : List Declaration) :
    listHeaders (.list header :: rest) = header :: listHeaders rest := rfl

@[simp] theorem listHeaders_shape (candidate : Candidate) (rest : List Declaration) :
    listHeaders (.shape candidate :: rest) = listHeaders rest := rfl

@[simp] theorem listHeaders_append (front back : List Declaration) :
    listHeaders (front ++ back) = listHeaders front ++ listHeaders back :=
  List.filterMap_append

@[simp] theorem candidates_nil : candidates [] = [] := rfl

@[simp] theorem candidates_list (header : ListHeader) (rest : List Declaration) :
    candidates (.list header :: rest) = candidates rest := rfl

@[simp] theorem candidates_shape (candidate : Candidate) (rest : List Declaration) :
    candidates (.shape candidate :: rest) = candidate :: candidates rest := rfl

@[simp] theorem candidates_append (front back : List Declaration) :
    candidates (front ++ back) = candidates front ++ candidates back :=
  List.filterMap_append

@[simp] theorem listHeaders_map_shape (held : List Candidate) :
    listHeaders (held.map .shape) = [] := by
  induction held with
  | nil => rfl
  | cons candidate rest ih => simpa using ih

@[simp] theorem candidates_map_shape (held : List Candidate) :
    candidates (held.map .shape) = held := by
  induction held with
  | nil => rfl
  | cons candidate rest ih => simpa using ih

/-- Declarations either hold no list header, or split at the first one. -/
theorem eq_map_or_eq_append_list (found : List Declaration) :
    (∃ held : List Candidate, found = held.map .shape) ∨
      ∃ (held : List Candidate) (first : ListHeader) (after : List Declaration),
        found = held.map .shape ++ .list first :: after := by
  induction found with
  | nil => exact .inl ⟨[], rfl⟩
  | cons declaration rest ih =>
      cases declaration with
      | list header => exact .inr ⟨[], header, rest, rfl⟩
      | shape candidate =>
          rcases ih with ⟨held, rfl⟩ | ⟨held, first, after, rfl⟩
          · exact .inl ⟨candidate :: held, rfl⟩
          · exact .inr ⟨candidate :: held, first, after, rfl⟩

theorem exists_map_of_listHeaders_eq_nil {found : List Declaration} (h : listHeaders found = []) :
    ∃ held : List Candidate, found = held.map .shape := by
  rcases eq_map_or_eq_append_list found with hheld | ⟨held, first, after, rfl⟩
  · exact hheld
  · simp at h

/-- Without the first list header, the declarations on both sides of it follow one another. -/
theorem eraseP_map_append_list (held : List Candidate) (first : ListHeader)
    (after : List Declaration) :
    (held.map Declaration.shape ++ .list first :: after).eraseP (·.list?.isSome) =
      held.map .shape ++ after := by
  rw [List.eraseP_append_right, List.eraseP_cons_of_pos rfl]
  intro declaration hmem
  obtain ⟨candidate, _, rfl⟩ := List.mem_map.mp hmem
  simp [Declaration.list?]

@[simp] theorem candidates_eraseP_list (found : List Declaration) :
    candidates (found.eraseP (·.list?.isSome)) = candidates found := by
  induction found with
  | nil => rfl
  | cons declaration rest ih =>
      cases declaration with
      | list header => rfl
      | shape candidate => exact congrArg (candidate :: ·) ih

/-! ## Building as a fold over the declarations -/

namespace Draft

/-- Takes declarations that follow the accepted list header `list` into the draft, one by one. -/
def settle (list : ListHeader) (draft : Draft) : List Declaration → Except Violation Document
  | [] => if draft.shapes.isEmpty then .error .noShapes else .ok ⟨list.name.value, draft.shapes⟩
  | .list header :: _ => .error (.duplicateList header list)
  | .shape candidate :: rest =>
    match draft.add candidate with
    | .error violation => .error violation
    | .ok next => next.settle list rest

/-- Building from the cursor on depends on the declarations from there on alone. -/
theorem finish_eq_settle (source : Text) (list : ListHeader) (draft : Draft) (tokens : Tokens) :
    finish source list draft tokens = settle list draft (declarationsFrom source tokens) := by
  induction tokens using scan_induction source generalizing draft with
  | none tokens hnone =>
      rw [declarationsFrom_of_none hnone, finish]
      split <;> simp_all [settle]
  | list tokens header rest hlist _ =>
      rw [declarationsFrom_of_list hlist, finish]
      split <;> simp_all [settle]
  | shape tokens header rest block after hshape hstyle ih =>
      rw [declarationsFrom_of_shape hshape hstyle, finish]
      split
      next hnone => simp [hshape] at hnone
      next hlist => simp [hshape] at hlist
      next other ahead hother =>
        rw [hshape, Option.some.injEq, Prod.mk.injEq, Header.shape.injEq] at hother
        obtain ⟨rfl, rfl⟩ := hother
        rw [settle, hstyle]
        cases draft.add ⟨header, block⟩ with
        | error violation => rfl
        | ok next => exact ih next

/-- Candidates that were held back are taken in before the declarations that follow. -/
theorem settle_map_append (list : ListHeader) (draft : Draft) (held : List Candidate)
    (rest : List Declaration) :
    settle list draft (held.map .shape ++ rest) =
      match draft.addAll held with
      | .error violation => .error violation
      | .ok next => next.settle list rest := by
  induction held generalizing draft with
  | nil => rfl
  | cons candidate more ih =>
      rw [List.map_cons, List.cons_append, settle, addAll]
      cases draft.add candidate with
      | error violation => rfl
      | ok next => exact ih next

/-- Without a list header nothing is built, whatever was held back. -/
theorem start_of_map {source : Text} {naming : Naming} {held more : List Candidate}
    {tokens : Tokens} (h : declarationsFrom source tokens = more.map .shape) :
    start source naming held tokens = .error .missingList := by
  induction more generalizing held tokens with
  | nil =>
      rw [start]
      split
      next => rfl
      next header rest hlist => simp [declarationsFrom_of_list hlist] at h
      next header rest hshape => simp [declarationsFrom_of_shape hshape rfl] at h
  | cons candidate more ih =>
      rw [start]
      split
      next => rfl
      next header rest hlist => simp [declarationsFrom_of_list hlist] at h
      next header rest hshape =>
        rw [declarationsFrom_of_shape hshape rfl, List.map_cons] at h
        exact ih (List.cons.inj h).2

/-- The first list header is checked before any shape, and then all shapes are taken in by source
order but for that header. -/
theorem start_of_map_append_list {source : Text} {naming : Naming} {held more : List Candidate}
    {first : ListHeader} {after : List Declaration} {tokens : Tokens}
    (h : declarationsFrom source tokens = more.map .shape ++ .list first :: after) :
    start source naming held tokens =
      match naming.checkList first with
      | .error violation => .error violation
      | .ok () => settle first ⟨naming, []⟩ ((held ++ more).map .shape ++ after) := by
  -- Each shape in front of the list header moves from the declarations ahead to those held back.
  induction more generalizing held tokens with
  | nil =>
      rw [start]
      split
      next hnone => simp [declarationsFrom_of_none hnone] at h
      next header rest hlist =>
        rw [declarationsFrom_of_list hlist, List.map_nil, List.nil_append] at h
        obtain ⟨hheader, hafter⟩ := List.cons.inj h
        rw [Declaration.list.inj hheader]
        cases naming.checkList first with
        | error violation => rfl
        | ok _ =>
            simp only [List.append_nil, settle_map_append, ← hafter]
            cases addAll ⟨naming, []⟩ held with
            | error violation => rfl
            | ok next => exact finish_eq_settle source first next rest
      next header rest hshape => simp [declarationsFrom_of_shape hshape rfl] at h
  | cons candidate more ih =>
      rw [start]
      split
      next hnone => simp [declarationsFrom_of_none hnone] at h
      next header rest hlist => simp [declarationsFrom_of_list hlist] at h
      next header rest hshape =>
        rw [declarationsFrom_of_shape hshape rfl, List.map_cons, List.cons_append] at h
        obtain ⟨hcandidate, hrest⟩ := List.cons.inj h
        rw [ih hrest, Declaration.shape.inj hcandidate, List.append_assoc, List.singleton_append]

end Draft

end SceneScript
