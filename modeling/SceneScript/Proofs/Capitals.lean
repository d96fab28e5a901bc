import SceneScript.Document.Naming
import SceneScript.Proofs.WrittenForms

/-! # Names with a capital

A hint to rename something gives its name with the first character in upper case. The upper case
form is that of the whole of Unicode, and it may have several characters, while a name has to begin
with one of `A` to `Z`. So only with some first characters the hint is a name that may be given, and
then it may still be a keyword.
-/

namespace SceneScript

/-- The characters with an upper case form that begins with one of `A` to `Z` and goes on as a word,
without these capitals themselves. -/
def capitalizable : Text :=
  "abcdefghijklmnopqrstuvwxyz".toList ++
    "\u00df\u0131\u017f\u1e9a\ufb00\ufb01\ufb02\ufb03\ufb04\ufb05\ufb06".toList

/-- The words that become a keyword with a capital; the last one begins with a long s. -/
def smallKeywords : List Text :=
  ["create".toList, "style".toList, "\u017ftyle".toList]

/-- With a capital, the name may be given to a list or to a shape. -/
def Mendable (name : Text) : Prop :=
  name.head?.any (· ∈ capitalizable) ∧ name ∉ smallKeywords

/-! ## Upper case forms -/

/-- Where the upper case form of a character comes from. -/
inductive HasUppercase (c : Char) : Text → Prop
  | expansion {entry : Nat × List Nat} (mem : entry ∈ caseExpansions) (eq : entry.1 = c.toNat) :
    HasUppercase c (entry.2.map Char.ofNat)
  | run {run : CaseRun} (mem : run ∈ caseRuns) (first : run.first ≤ c.toNat)
    (last : c.toNat ≤ run.last) :
    HasUppercase c [Char.ofNat (run.target + (c.toNat - run.first))]
  | self (none : caseRuns.findSome? (·.map? c.toNat) = none) : HasUppercase c [c]

theorem hasUppercase (c : Char) : HasUppercase c (uppercase c) := by
  unfold uppercase
  split
  next expansion hlookup =>
    obtain ⟨front, back, hsplit, _⟩ := List.lookup_eq_some_iff.mp hlookup
    have hmem : (c.toNat, expansion) ∈ caseExpansions := by
      rw [hsplit]
      simp
    exact .expansion hmem rfl
  next =>
    cases hfound : caseRuns.findSome? (·.map? c.toNat) with
    | none => exact .self hfound
    | some target =>
        obtain ⟨run, hmem, hmap⟩ := List.exists_of_findSome?_eq_some hfound
        obtain ⟨⟨hfirst, hlast, _⟩, htarget⟩ := Option.ite_none_right_eq_some.mp hmap
        rw [← Option.some.inj htarget]
        exact .run hmem hfirst hlast

theorem HasUppercase.ne_nil {c : Char} {upper : Text} (h : HasUppercase c upper) : upper ≠ [] := by
  cases h with
  | expansion hmem =>
      have hall : ∀ entry ∈ caseExpansions, entry.2.map Char.ofNat ≠ [] := by decide
      exact hall _ hmem
  | run => exact List.cons_ne_nil _ _
  | self => exact List.cons_ne_nil _ _

theorem toNat_ofNat_of_ne_zero {n : Nat} (h : (Char.ofNat n).toNat ≠ 0) :
    (Char.ofNat n).toNat = n := by
  unfold Char.ofNat at h ⊢
  by_cases hvalid : n.isValidChar
  · rw [dif_pos hvalid]
    rfl
  · rw [dif_neg hvalid] at h
    exact absurd rfl h

/-- The table of upper case forms leads to a word with one of `A` to `Z` in front only from the
listed characters. -/
theorem HasUppercase.mem_capitalizable {c : Char} {upper : Text} (h : HasUppercase c upper)
    (hlower : ¬ Naming.startsUppercase [c]) (hupper : Naming.startsUppercase upper)
    (hword : upper.all isWordChar) : c ∈ capitalizable := by
  rw [← Char.ofNat_toNat c]
  cases h with
  | expansion hmem heq =>
      have hall : ∀ entry ∈ caseExpansions, Naming.startsUppercase (entry.2.map Char.ofNat) →
          (entry.2.map Char.ofNat).all isWordChar → Char.ofNat entry.1 ∈ capitalizable := by
        decide +kernel
      exact heq ▸ hall _ hmem hupper hword
  | @run run hmem hfirst hlast =>
      have hall : ∀ run ∈ caseRuns, run.target ≤ 90 →
          ∀ n ∈ List.range' run.first (run.last + 1 - run.first), Char.ofNat n ∈ capitalizable := by
        decide +kernel
      have htarget : run.target ≤ 90 := by
        obtain ⟨hlow, hhigh⟩ := Bool.and_eq_true_iff.mp hupper
        replace hlow : 65 ≤ (Char.ofNat _).toNat := of_decide_eq_true hlow
        replace hhigh : (Char.ofNat _).toNat ≤ 90 := of_decide_eq_true hhigh
        rw [toNat_ofNat_of_ne_zero (by omega)] at hhigh
        exact Nat.le_of_add_right_le hhigh
      exact hall run hmem htarget _ (List.mem_range'_1.mpr ⟨hfirst, by omega⟩)
  | self => exact absurd hupper hlower

/-- No upper case form begins with one of `a` to `z`. -/
theorem HasUppercase.isLower_head {c d : Char} {rest : Text} (h : HasUppercase c (d :: rest)) :
    d.isLower = false := by
  rw [Bool.eq_false_iff]
  intro hlower
  obtain ⟨hlow, hhigh⟩ := Bool.and_eq_true_iff.mp hlower
  replace hlow : 97 ≤ d.toNat := of_decide_eq_true hlow
  replace hhigh : d.toNat ≤ 122 := of_decide_eq_true hhigh
  generalize hupper : d :: rest = upper at h
  cases h with
  | expansion hmem =>
      have hall : ∀ entry ∈ caseExpansions,
          ¬ (entry.2.map Char.ofNat).head?.any Char.isLower := by
        decide +kernel
      exact hall _ hmem (by rw [← hupper]; exact hlower)
  | @run run hmem hfirst hlast =>
      have hall : ∀ run ∈ caseRuns,
          run.target + (run.last - run.first) < 97 ∨ 122 < run.target := by
        decide +kernel
      have hvalue : (Char.ofNat (run.target + (c.toNat - run.first))).toNat = _ :=
        toNat_ofNat_of_ne_zero (by rw [← (List.cons.inj hupper).1]; omega)
      rw [(List.cons.inj hupper).1, hvalue] at hlow hhigh
      have hrun := hall run hmem
      omega
  | self hnone =>
      have hall : ∀ n ∈ List.range' 97 26, caseRuns.findSome? (·.map? n) ≠ none := by decide
      rw [← (List.cons.inj hupper).1] at hnone
      exact hall d.toNat (List.mem_range'_1.mpr ⟨hlow, by omega⟩) hnone

theorem uppercase_of_mem_capitalizable {c : Char} (h : c ∈ capitalizable) :
    Naming.startsUppercase (uppercase c) ∧ Text.isIdentifier (uppercase c) := by
  have hall : capitalizable.all fun c =>
      Naming.startsUppercase (uppercase c) && Text.isIdentifier (uppercase c) := by
    decide +kernel
  exact Bool.and_eq_true_iff.mp (List.all_eq_true.mp hall c h)

/-! ## Names with a capital -/

theorem startsUppercase_append {front : Text} (h : front ≠ []) (back : Text) :
    Naming.startsUppercase (front ++ back) = Naming.startsUppercase front := by
  cases front with
  | nil => exact absurd rfl h
  | cons c rest => rfl

theorem isIdentifier_append {front back : Text} (h : Text.isIdentifier front) :
    Text.isIdentifier (front ++ back) = back.all isWordChar := by
  cases front with
  | nil => cases h
  | cons c rest =>
      rw [Text.isIdentifier, Bool.and_eq_true] at h
      rw [List.cons_append, Text.isIdentifier, List.all_append, h.1, h.2, Bool.true_and,
        Bool.true_and]

/-- A hint without a capital is not the reserved name either. -/
theorem isReserved_capitalized {name : Text}
    (h : ¬ Naming.startsUppercase (Violation.capitalized name)) :
    Naming.isReserved (Violation.capitalized name) = false := by
  rw [Bool.eq_false_iff]
  intro hreserved
  cases name with
  | nil => cases hreserved
  | cons c rest =>
      have hupper := hasUppercase c
      obtain ⟨d, more, hcons⟩ := List.exists_cons_of_ne_nil hupper.ne_nil
      rw [hcons] at hupper
      have hlower := hupper.isLower_head
      rw [Violation.capitalized, hcons] at h hreserved
      have hd : d.toLower = 'l' := (List.cons.inj (of_decide_eq_true hreserved)).1
      have hsame : d.toLower = d := by
        refine dif_neg fun hcapital => h (Bool.and_eq_true_iff.mpr ?_)
        exact ⟨decide_eq_true hcapital.1, decide_eq_true hcapital.2⟩
      rw [hsame] at hd
      rw [hd] at hlower
      cases hlower

section Name

variable {c : Char} {rest : Text}

theorem mem_capitalizable_iff (h : Text.isIdentifier (c :: rest))
    (hlower : ¬ Naming.startsUppercase (c :: rest)) :
    c ∈ capitalizable ↔ Text.isIdentifier (Violation.capitalized (c :: rest)) ∧
      Naming.startsUppercase (Violation.capitalized (c :: rest)) := by
  rw [Violation.capitalized, startsUppercase_append (hasUppercase c).ne_nil]
  constructor
  · intro hmem
    obtain ⟨hupper, hword⟩ := uppercase_of_mem_capitalizable hmem
    rw [Text.isIdentifier, Bool.and_eq_true] at h
    rw [isIdentifier_append hword]
    exact ⟨h.2, hupper⟩
  · rintro ⟨hidentifier, hupper⟩
    obtain ⟨_, hall⟩ := Text.all_isWordChar_of_isIdentifier hidentifier
    rw [List.all_append, Bool.and_eq_true] at hall
    exact (hasUppercase c).mem_capitalizable hlower hupper hall.1

/-- The hint is a keyword for the listed words only. -/
theorem mem_smallKeywords_iff (hmem : c ∈ capitalizable) :
    c :: rest ∈ smallKeywords ↔ Violation.capitalized (c :: rest) = Token.create.shown ∨
      Violation.capitalized (c :: rest) = Token.style.shown := by
  have hcreate : capitalizable.filter (fun c => (uppercase c).isPrefixOf Token.create.shown) =
      ['c'] := by
    decide +kernel
  have hstyle : capitalizable.filter (fun c => (uppercase c).isPrefixOf Token.style.shown) =
      ['s', '\u017f'] := by
    decide +kernel
  constructor
  · intro h
    have hall : ∀ word ∈ smallKeywords, Violation.capitalized word = Token.create.shown ∨
        Violation.capitalized word = Token.style.shown := by
      decide +kernel
    exact hall _ h
  · rw [Violation.capitalized]
    rintro (hkeyword | hkeyword)
    · have hc : c ∈ capitalizable.filter fun c => (uppercase c).isPrefixOf Token.create.shown :=
        List.mem_filter.mpr ⟨hmem, List.isPrefixOf_iff_prefix.mpr ⟨rest, hkeyword⟩⟩
      rw [hcreate, List.mem_singleton] at hc
      subst hc
      have hrest : rest = "reate".toList := (List.cons.inj hkeyword).2
      rw [hrest]
      decide
    · have hc : c ∈ capitalizable.filter fun c => (uppercase c).isPrefixOf Token.style.shown :=
        List.mem_filter.mpr ⟨hmem, List.isPrefixOf_iff_prefix.mpr ⟨rest, hkeyword⟩⟩
      rw [hstyle, List.mem_cons, List.mem_singleton] at hc
      rcases hc with rfl | rfl
      · have hrest : rest = "tyle".toList := (List.cons.inj hkeyword).2
        rw [hrest]
        decide
      · have hrest : rest = "tyle".toList := (List.cons.inj hkeyword).2
        rw [hrest]
        decide

end Name

/-- Exactly the mendable names have a hint that may be given. -/
theorem mendable_iff {name : Text} (h : Text.isIdentifier name)
    (hlower : ¬ Naming.startsUppercase name) :
    Mendable name ↔ IsName (Violation.capitalized name) ∧
      Naming.startsUppercase (Violation.capitalized name) := by
  cases name with
  | nil => cases h
  | cons c rest =>
      have hfirst : Mendable (c :: rest) ↔ c ∈ capitalizable ∧ c :: rest ∉ smallKeywords := by
        simp [Mendable]
      rw [hfirst, IsName, ← not_or, and_right_comm, ← mem_capitalizable_iff h hlower]
      exact and_congr_right fun hmem => (mem_smallKeywords_iff hmem).not

end SceneScript
