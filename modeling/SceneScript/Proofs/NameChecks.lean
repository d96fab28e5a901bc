import SceneScript.Proofs.DataModel

/-! # Name checks in a row

A run of name checks goes on when one of them fails. What a check answers depends on the names that
the checks before it have accepted, and on nothing else of what was checked: a header that is turned
down takes no name, and the name of the list takes none either.
-/

namespace SceneScript.Naming

/-! ## Answers and the names they take -/

/-- The checks of a run, each with its outcome. -/
def answers (naming : Naming) (steps : List Step) : List (Step × Except Violation Unit) :=
  steps.zip (naming.checkAll steps)

/-- The checks of a run that succeed, with their outcomes. -/
def succeeding (naming : Naming) (steps : List Step) : List (Step × Except Violation Unit) :=
  (naming.answers steps).filter fun answer => answer.2.isOk

/-- What is remembered after a run. -/
def after (naming : Naming) (steps : List Step) : Naming :=
  steps.foldl (fun naming step => (naming.check step).2) naming

/-- The name that a check takes, with the header that takes it: a shape header that was accepted
takes its name. -/
def taken? : Step × Except Violation Unit → Option (Text × Span)
  | (.shape header, .ok ()) => header.name.map fun name => (name.value, header.span)
  | _ => none

/-- The names that are taken in a run, in the order of the checks. -/
def taken (naming : Naming) (steps : List Step) : List (Text × Span) :=
  (naming.answers steps).filterMap taken?

/-- A shape may have the name when the names in `taken` are in use. -/
structure IsFree (taken : List (Text × Span)) (name : Text) : Prop where
  not_list : name.map Char.toLower ≠ ['l', 'i', 's', 't']
  uppercase : StartsUppercase name
  fresh : name ∉ taken.map Prod.fst

/-- The first rule that a shape header breaks when the names in `taken` are in use, with its code
and the other places that are marked. -/
inductive Breaks (taken : List (Text × Span)) (header : ShapeHeader) :
    Violation → String → List Span → Prop where
  | unnamed (missing : header.name = none) : Breaks taken header (.missingName header) "E202" []
  | list {name : Spanned Text} (named : header.name = some name)
      (list : name.value.map Char.toLower = ['l', 'i', 's', 't']) :
      Breaks taken header (.reservedName header name.value) "E203" []
  | lowercase {name : Spanned Text} (named : header.name = some name)
      (not_list : name.value.map Char.toLower ≠ ['l', 'i', 's', 't'])
      (lowercase : ¬ StartsUppercase name.value) :
      Breaks taken header (.lowercaseName header name.value) "E204" []
  /-- Just one header has taken the name. -/
  | inUse {name : Spanned Text} {first : Span} (named : header.name = some name)
      (not_list : name.value.map Char.toLower ≠ ['l', 'i', 's', 't'])
      (uppercase : StartsUppercase name.value)
      (used : taken.filter (fun entry => entry.1 = name.value) = [(name.value, first)]) :
      Breaks taken header (.duplicateName header name.value first) "E205" [first]

/-- What the check of a shape header answers when the names in `taken` are in use. -/
structure Judges (taken : List (Text × Span)) (header : ShapeHeader)
    (outcome : Except Violation Unit) : Prop where
  ok_iff : outcome = .ok () ↔ ∃ name ∈ header.name, IsFree taken name.value
  /-- The header is reported under the code of the first rule that it breaks. -/
  error_iff : ∀ violation, outcome = .error violation ↔
    ∃ written others, Breaks taken header violation written others ∧
      violation.diagnostic.Cites written header.span others
  /-- The other place that a duplicate name is labelled with is the header that has taken it. -/
  secondary : ∀ violation, outcome = .error violation → toString violation.code = "E205" →
    ∃ name ∈ header.name, ∃ first,
      taken.filter (fun entry => entry.1 = name.value) = [(name.value, first)] ∧
        (violation.labels.filter fun label => !label.isPrimary).map (·.span) = [first]

section Rules

variable {taken : List (Text × Span)} {header : ShapeHeader} {violation : Violation}
  {written : String} {others : List Span}

/-- There is one first rule that is broken. -/
theorem Breaks.unique {other : Violation} {otherWritten : String} {otherOthers : List Span}
    (h : Breaks taken header violation written others)
    (hother : Breaks taken header other otherWritten otherOthers) : violation = other := by
  cases h <;> cases hother <;> simp_all

theorem Breaks.cites (h : Breaks taken header violation written others) :
    violation.diagnostic.Cites written header.span others := by
  have hdescribes := violation.describes
  cases h <;> exact hdescribes.1

theorem Breaks.not_isFree (h : Breaks taken header violation written others) :
    ¬ ∃ name ∈ header.name, IsFree taken name.value := by
  rintro ⟨name, hname, hlist, hupper, hfresh⟩
  rw [Option.mem_def] at hname
  cases h with
  | unnamed missing =>
      rw [missing] at hname
      cases hname
  | list named list =>
      rw [named, Option.some.injEq] at hname
      exact hlist (hname ▸ list)
  | lowercase named _ lowercase =>
      rw [named, Option.some.injEq] at hname
      exact lowercase (hname ▸ hupper)
  | @inUse _ first named _ _ used =>
      rw [named, Option.some.injEq] at hname
      rw [hname] at used
      have hmem : (name.value, first) ∈ taken := by
        apply List.mem_of_mem_filter
        rw [used]
        exact List.mem_singleton_self _
      exact hfresh (List.mem_map_of_mem hmem)

theorem Judges.of_breaks (h : Breaks taken header violation written others) :
    Judges taken header (.error violation) where
  ok_iff := ⟨nofun, fun hfree => absurd hfree h.not_isFree⟩
  error_iff := by
    intro other
    rw [Except.error.injEq]
    constructor
    · rintro rfl
      exact ⟨written, others, h, h.cites⟩
    · rintro ⟨_, _, hother, _⟩
      exact h.unique hother
  secondary := by
    intro other heq hcode
    obtain rfl := Except.error.inj heq
    have hwritten : written = "E205" := (Option.some.inj h.cites.code).symm.trans hcode
    cases h with
    | @inUse name first named _ _ used => exact ⟨name, named, first, used, rfl⟩
    | _ => exact absurd hwritten (by decide)

theorem Judges.of_isFree {name : Spanned Text} (hname : header.name = some name)
    (h : IsFree taken name.value) : Judges taken header (.ok ()) where
  ok_iff := ⟨fun _ => ⟨name, hname, h⟩, fun _ => rfl⟩
  error_iff := by
    intro other
    refine ⟨nofun, ?_⟩
    rintro ⟨_, _, hbreaks, _⟩
    exact absurd ⟨name, hname, h⟩ hbreaks.not_isFree
  secondary := by
    intro other heq
    cases heq

end Rules

/-! ## One check -/

/-- A shape header is turned down, or its name is new and is remembered. -/
theorem acceptShape_cases (naming : Naming) (header : ShapeHeader) :
    (∃ violation, naming.acceptShape header = .error violation) ∨
      ∃ name, header.name = some name ∧ naming.accepted.lookup name.value = none ∧
        naming.acceptShape header =
          .ok { naming with accepted := (name.value, header.span) :: naming.accepted } := by
  unfold acceptShape
  cases hname : header.name with
  | none => exact .inl ⟨_, rfl⟩
  | some name =>
      dsimp only
      split
      next => exact .inl ⟨_, rfl⟩
      next =>
        split
        next => exact .inl ⟨_, rfl⟩
        next =>
          cases hlookup : naming.accepted.lookup name.value with
          | some first => exact .inl ⟨_, rfl⟩
          | none => exact .inr ⟨name, rfl, hlookup, rfl⟩

/-- A check takes no name and leaves no trace, or takes a new name and remembers it. -/
theorem check_cases (naming : Naming) (step : Step) :
    (taken? (step, (naming.check step).1) = none ∧ (naming.check step).2 = naming) ∨
      ∃ entry, taken? (step, (naming.check step).1) = some entry ∧
        naming.accepted.lookup entry.1 = none ∧
        (naming.check step).2 = { naming with accepted := entry :: naming.accepted } := by
  cases step with
  | list header => exact .inl ⟨rfl, rfl⟩
  | shape header =>
      rw [check]
      rcases naming.acceptShape_cases header with ⟨violation, herror⟩ | ⟨name, hname, hnew, hok⟩
      · rw [herror]
        exact .inl ⟨rfl, rfl⟩
      · rw [hok]
        refine .inr ⟨(name.value, header.span), ?_, hnew, rfl⟩
        rw [taken?, hname]
        rfl

/-- A check that takes no name leaves no trace. -/
theorem check_of_taken?_eq_none {naming : Naming} {step : Step}
    (h : taken? (step, (naming.check step).1) = none) : (naming.check step).2 = naming := by
  rcases naming.check_cases step with ⟨_, hsame⟩ | ⟨entry, hsome, _⟩
  · exact hsame
  · rw [h] at hsome
    cases hsome

theorem taken?_error (step : Step) (violation : Violation) :
    taken? (step, .error violation) = none := by
  cases step <;> rfl

/-- A check that fails leaves no trace. -/
theorem check_of_error {naming : Naming} {step : Step} {violation : Violation}
    (h : (naming.check step).1 = .error violation) : (naming.check step).2 = naming := by
  apply check_of_taken?_eq_none
  rw [h]
  exact taken?_error step violation

/-! ## Names in use -/

/-- Where all names differ, a name leads to one entry only. -/
theorem filter_eq_singleton {taken : List (Text × Span)} (h : (taken.map Prod.fst).Nodup)
    {name : Text} {first : Span} (hmem : (name, first) ∈ taken) :
    taken.filter (fun entry => entry.1 = name) = [(name, first)] := by
  induction taken with
  | nil => cases hmem
  | cons entry rest ih =>
      obtain ⟨hentry, hrest⟩ := List.nodup_cons.mp h
      rcases List.mem_cons.mp hmem with rfl | hmem
      · have hothers : rest.filter (fun entry => entry.1 = name) = [] := by
          apply List.filter_eq_nil_iff.mpr
          intro other hother heq
          exact hentry (List.mem_map.mpr ⟨other, hother, of_decide_eq_true heq⟩)
        rw [List.filter_cons_of_pos (by simp), hothers]
      · have hne : entry.1 ≠ name := by
          intro heq
          exact hentry (List.mem_map.mpr ⟨_, hmem, heq.symm⟩)
        rw [List.filter_cons_of_neg (by simpa using hne)]
        exact ih hrest hmem

/-- The names in `taken` differ, and `naming` remembers them, the last one first. -/
structure Keeps (naming : Naming) (taken : List (Text × Span)) : Prop where
  accepted : naming.accepted = taken.reverse
  nodup : (taken.map Prod.fst).Nodup

namespace Keeps

variable {naming : Naming} {taken : List (Text × Span)} (h : naming.Keeps taken) {name : Text}
include h

theorem lookup_eq_none_iff :
    naming.accepted.lookup name = none ↔ name ∉ taken.map Prod.fst := by
  rw [h.accepted, List.lookup_eq_none_iff]
  constructor
  · intro hne hmem
    obtain ⟨entry, hentry, rfl⟩ := List.mem_map.mp hmem
    simpa using hne entry (List.mem_reverse.mpr hentry)
  · intro hnot entry hentry
    rw [bne_iff_ne]
    rintro rfl
    exact hnot (List.mem_map_of_mem (List.mem_reverse.mp hentry))

/-- A name is found where it was taken, and there is one such place. -/
theorem lookup_eq_some_iff {first : Span} :
    naming.accepted.lookup name = some first ↔
      taken.filter (fun entry => entry.1 = name) = [(name, first)] := by
  have hfilter : ∀ {span : Span}, naming.accepted.lookup name = some span →
      taken.filter (fun entry => entry.1 = name) = [(name, span)] := by
    intro span hfound
    obtain ⟨later, earlier, hsplit, _⟩ := List.lookup_eq_some_iff.mp hfound
    apply filter_eq_singleton h.nodup
    rw [← List.mem_reverse, ← h.accepted, hsplit]
    exact List.mem_append_right _ List.mem_cons_self
  refine ⟨hfilter, fun hused => ?_⟩
  cases hfound : naming.accepted.lookup name with
  | none =>
      have hmem : (name, first) ∈ taken := by
        apply List.mem_of_mem_filter
        rw [hused]
        exact List.mem_singleton_self _
      exact absurd (List.mem_map_of_mem hmem) (h.lookup_eq_none_iff.mp hfound)
  | some span =>
      rw [hfilter hfound, List.singleton_inj, Prod.mk.injEq] at hused
      rw [hused.2]

/-- A check keeps what it takes together with what was taken before. -/
theorem check (step : Step) :
    (naming.check step).2.Keeps (taken ++ (taken? (step, (naming.check step).1)).toList) := by
  rcases naming.check_cases step with ⟨hnone, hsame⟩ | ⟨entry, htaken, hnew, hnext⟩
  · rw [hnone, hsame, Option.toList_none, List.append_nil]
    exact h
  · rw [htaken, hnext, Option.toList_some]
    refine ⟨?_, ?_⟩
    · rw [List.reverse_append, h.accepted]
      rfl
    · rw [List.map_append, List.nodup_append]
      refine ⟨h.nodup, by simp, ?_⟩
      intro name hname other hother heq
      rw [List.map_singleton, List.mem_singleton] at hother
      exact h.lookup_eq_none_iff.mp hnew (hother ▸ heq ▸ hname)

/-- A shape header is judged by the names that are in use, in the order of the rules. -/
theorem judges (header : ShapeHeader) :
    Judges taken header (naming.check (.shape header)).1 := by
  rw [Naming.check, acceptShape]
  cases hname : header.name with
  | none => exact .of_breaks (.unnamed hname)
  | some name =>
      dsimp only
      by_cases hlist : isReserved name.value
      · rw [if_pos hlist]
        exact .of_breaks (.list hname (of_decide_eq_true hlist))
      · have hother : name.value.map Char.toLower ≠ ['l', 'i', 's', 't'] := by
          simpa [isReserved] using hlist
        rw [if_neg hlist]
        by_cases hupper : startsUppercase name.value
        · have hstarts := (startsUppercase_iff name.value).mp hupper
          rw [hupper, Bool.not_true, if_neg Bool.false_ne_true]
          cases hfound : naming.accepted.lookup name.value with
          | some first =>
              exact .of_breaks (.inUse hname hother hstarts (h.lookup_eq_some_iff.mp hfound))
          | none =>
              exact .of_isFree hname ⟨hother, hstarts, h.lookup_eq_none_iff.mp hfound⟩
        · rw [Bool.of_not_eq_true hupper, Bool.not_false, if_pos rfl]
          apply Judges.of_breaks
          exact .lowercase hname hother fun hstarts =>
            hupper ((startsUppercase_iff name.value).mpr hstarts)

end Keeps

/-! ## Runs -/

theorem checkAll_cons (naming : Naming) (step : Step) (steps : List Step) :
    naming.checkAll (step :: steps) =
      (naming.check step).1 :: (naming.check step).2.checkAll steps :=
  rfl

theorem length_checkAll (naming : Naming) (steps : List Step) :
    (naming.checkAll steps).length = steps.length := by
  induction steps generalizing naming with
  | nil => rfl
  | cons step rest ih => rw [checkAll_cons, List.length_cons, List.length_cons, ih]

theorem answers_cons (naming : Naming) (step : Step) (steps : List Step) :
    naming.answers (step :: steps) =
      (step, (naming.check step).1) :: (naming.check step).2.answers steps :=
  rfl

theorem checkAll_append (naming : Naming) (front back : List Step) :
    naming.checkAll (front ++ back) =
      naming.checkAll front ++ (naming.after front).checkAll back := by
  induction front generalizing naming with
  | nil => rfl
  | cons step rest ih =>
      rw [List.cons_append, checkAll_cons, checkAll_cons, ih, List.cons_append]
      rfl

theorem filterMap_taken?_cons (answer : Step × Except Violation Unit)
    (answers : List (Step × Except Violation Unit)) :
    (answer :: answers).filterMap taken? = (taken? answer).toList ++ answers.filterMap taken? := by
  rw [List.filterMap_cons]
  cases taken? answer <;> rfl

theorem taken_cons (naming : Naming) (step : Step) (steps : List Step) :
    naming.taken (step :: steps) =
      (taken? (step, (naming.check step).1)).toList ++ (naming.check step).2.taken steps :=
  filterMap_taken?_cons _ _

/-- A run keeps what its checks take. -/
theorem Keeps.after {naming : Naming} {taken : List (Text × Span)} (h : naming.Keeps taken)
    (steps : List Step) : (naming.after steps).Keeps (taken ++ naming.taken steps) := by
  induction steps generalizing naming taken with
  | nil =>
      rw [Naming.taken, answers, checkAll, List.zip_nil_right, List.filterMap_nil, List.append_nil]
      exact h
  | cons step rest ih =>
      rw [taken_cons, ← List.append_assoc]
      exact ih (h.check step)

/-- Leaving out checks that take no name changes none of the other answers. -/
theorem answers_of_sublist {naming : Naming} {steps : List Step}
    {fewer : List (Step × Except Violation Unit)} (h : fewer.Sublist (naming.answers steps))
    (htaken : fewer.filterMap taken? = naming.taken steps) :
    naming.answers (fewer.map Prod.fst) = fewer := by
  induction steps generalizing naming fewer with
  | nil =>
      obtain rfl := List.sublist_nil.mp h
      rfl
  | cons step rest ih =>
      rw [answers_cons] at h
      rw [taken_cons] at htaken
      cases h with
      | cons _ hrest =>
          -- A check that is left out took no name, since the others take them all.
          cases hstep : taken? (step, (naming.check step).1) with
          | some entry =>
              have hlength := (hrest.filterMap taken?).length_le
              rw [htaken, hstep, Option.toList_some, List.singleton_append,
                List.length_cons] at hlength
              exact absurd hlength (Nat.not_succ_le_self _)
          | none =>
              rw [hstep, Option.toList_none, List.nil_append] at htaken
              rw [check_of_taken?_eq_none hstep] at hrest htaken
              exact ih hrest htaken
      | cons_cons _ hrest =>
          rw [filterMap_taken?_cons] at htaken
          rw [List.map_cons, answers_cons, ih hrest (List.append_cancel_left htaken)]

/-- The checks that succeed take all the names that are taken. -/
theorem filterMap_succeeding (naming : Naming) (steps : List Step) :
    (naming.succeeding steps).filterMap taken? = naming.taken steps := by
  rw [succeeding, List.filterMap_filter, taken]
  apply List.filterMap_congr
  rintro ⟨step, outcome⟩ _
  cases outcome with
  | ok _ => rfl
  | error violation => exact (taken?_error step violation).symm

theorem keeps_ofFileName (fileName : Option Text) : (ofFileName fileName).Keeps [] :=
  ⟨rfl, List.nodup_nil⟩

/-- Every shape header of a run is judged by the names that the shape headers before it have taken.
The check of the list and a check that fails leave no trace, so leaving out the checks that fail, or
any others that take no name, changes none of the other answers. -/
theorem checkAll_judges (fileName : Option Text) (steps : List Step) :
    ((ofFileName fileName).checkAll steps).length = steps.length ∧
    (∀ before header later, steps = before ++ .shape header :: later →
      ∃ outcome, ((ofFileName fileName).checkAll steps)[before.length]? = some outcome ∧
        Judges ((ofFileName fileName).taken before) header outcome) ∧
    (∀ (naming : Naming) (step : Step), (∃ header, step = .list header) ∨
      (∃ violation, (naming.check step).1 = .error violation) → (naming.check step).2 = naming) ∧
    (ofFileName fileName).answers (((ofFileName fileName).succeeding steps).map Prod.fst) =
      (ofFileName fileName).succeeding steps ∧
    (∀ fewer, fewer.Sublist ((ofFileName fileName).answers steps) →
      fewer.filterMap taken? = (ofFileName fileName).taken steps →
      (ofFileName fileName).answers (fewer.map Prod.fst) = fewer) := by
  refine ⟨length_checkAll _ steps, ?_, ?_, ?_, fun _ hfewer => answers_of_sublist hfewer⟩
  · rintro before header later rfl
    have hkeeps := (keeps_ofFileName fileName).after before
    rw [List.nil_append] at hkeeps
    refine ⟨_, ?_, hkeeps.judges header⟩
    rw [checkAll_append, List.getElem?_append_right (length_checkAll _ _).le, length_checkAll,
      Nat.sub_self, checkAll_cons]
    rfl
  · rintro naming step (⟨header, rfl⟩ | ⟨violation, hfails⟩)
    · rfl
    · exact check_of_error hfails
  · exact answers_of_sublist List.filter_sublist (filterMap_succeeding _ steps)

end SceneScript.Naming
