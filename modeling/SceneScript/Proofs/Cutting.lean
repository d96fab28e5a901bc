import Mathlib.Data.List.TakeWhile
import SceneScript.Entries
import SceneScript.Text.Blank

/-! # Cutting a text that was put together

A text that was joined at a separator is cut into the same pieces again, as long as no piece holds
the separator, and trimming takes away the white space that was put around a piece.
-/

namespace SceneScript

namespace Text

section Separator

variable {separator : Char} {piece : Text}

/-- A separator cuts a text in two that are cut on their own. -/
theorem splitAt_append (separator : Char) (front back : Text) :
    splitAt separator (front ++ separator :: back) =
      splitAt separator front ++ splitAt separator back := by
  induction front with
  | nil => simp [splitAt]
  | cons c rest ih =>
      rw [List.cons_append, splitAt, splitAt, ih]
      split
      next => rfl
      next =>
        cases hsplit : splitAt separator rest with
        | nil => exact absurd hsplit (splitAt_ne_nil separator rest)
        | cons piece pieces => rfl

theorem splitAt_cons_of_ne {c : Char} (h : c ≠ separator) (rest : Text) :
    splitAt separator (c :: rest) = (splitAt separator rest).modifyHead (c :: ·) := by
  rw [splitAt, if_neg h]
  cases hsplit : splitAt separator rest with
  | nil => exact absurd hsplit (splitAt_ne_nil separator rest)
  | cons piece pieces => rfl

theorem splitAt_of_not_mem (h : separator ∉ piece) : splitAt separator piece = [piece] := by
  induction piece with
  | nil => rfl
  | cons c tail ih =>
      rw [List.mem_cons, not_or] at h
      rw [splitAt, if_neg (Ne.symm h.1), ih h.2]

theorem splitAt_append_cons (h : separator ∉ piece) (rest : Text) :
    splitAt separator (piece ++ separator :: rest) = piece :: splitAt separator rest := by
  rw [splitAt_append, splitAt_of_not_mem h, List.singleton_append]

theorem not_mem_of_mem_splitAt {text : Text} (h : piece ∈ splitAt separator text) :
    separator ∉ piece := by
  induction text generalizing piece with
  | nil =>
      rw [splitAt, List.mem_singleton] at h
      simp [h]
  | cons c rest ih =>
      rw [splitAt] at h
      split at h
      next =>
        rcases List.mem_cons.mp h with rfl | hmem
        · exact List.not_mem_nil
        · exact ih hmem
      next hc =>
        cases hsplit : splitAt separator rest with
        | nil => exact absurd hsplit (splitAt_ne_nil separator rest)
        | cons first pieces =>
            rw [hsplit] at h ih
            rcases List.mem_cons.mp h with rfl | hmem
            · rw [List.mem_cons, not_or]
              exact ⟨Ne.symm hc, ih List.mem_cons_self⟩
            · exact ih (List.mem_cons_of_mem first hmem)

/-- What is written behind a text without a separator belongs to the last piece. -/
theorem exists_splitAt_append {tail : Text} (h : separator ∉ tail) (text : Text) :
    ∃ front last, splitAt separator text = front ++ [last] ∧
      splitAt separator (text ++ tail) = front ++ [last ++ tail] := by
  induction text with
  | nil => exact ⟨[], [], rfl, splitAt_of_not_mem h⟩
  | cons c rest ih =>
      obtain ⟨front, last, hrest, hlonger⟩ := ih
      by_cases hc : c = separator
      · refine ⟨[] :: front, last, ?_, ?_⟩
        · rw [splitAt, if_pos hc, hrest, List.cons_append]
        · rw [List.cons_append, splitAt, if_pos hc, hlonger, List.cons_append]
      · rw [List.cons_append, splitAt_cons_of_ne hc, splitAt_cons_of_ne hc, hrest, hlonger]
        cases front with
        | nil => exact ⟨[], c :: last, rfl, rfl⟩
        | cons first pieces => exact ⟨(c :: first) :: pieces, last, rfl, rfl⟩

theorem cutAt_append_cons (h : separator ∉ piece) (rest : Text) :
    cutAt separator (piece ++ separator :: rest) = some (piece, rest) := by
  induction piece with
  | nil => simp [cutAt]
  | cons c tail ih =>
      rw [List.mem_cons, not_or] at h
      rw [List.cons_append, cutAt, if_neg (Ne.symm h.1), ih h.2]
      rfl

theorem cutAt_of_not_mem (h : separator ∉ piece) : cutAt separator piece = none := by
  induction piece with
  | nil => rfl
  | cons c tail ih =>
      rw [List.mem_cons, not_or] at h
      rw [cutAt, if_neg (Ne.symm h.1), ih h.2]
      rfl

theorem cutAt_append {tail : Text} (h : separator ∉ tail) (text : Text) :
    cutAt separator (text ++ tail) =
      (cutAt separator text).map fun parts => (parts.1, parts.2 ++ tail) := by
  induction text with
  | nil => exact cutAt_of_not_mem h
  | cons c rest ih =>
      rw [List.cons_append, cutAt, cutAt, ih]
      split
      next => rfl
      next => cases cutAt separator rest <;> rfl

theorem join_append_cons (before : Text) (pieces : List Text) :
    join separator ((before ++ piece) :: pieces) = before ++ join separator (piece :: pieces) := by
  cases pieces with
  | nil => rfl
  | cons next rest => rw [join, join, List.append_assoc]

/-- Pieces without the separator are cut at the separators that join them. -/
theorem splitAt_join {pieces : List Text} (hne : pieces ≠ [])
    (h : ∀ piece ∈ pieces, separator ∉ piece) :
    splitAt separator (join separator pieces) = pieces := by
  induction pieces with
  | nil => exact absurd rfl hne
  | cons piece rest ih =>
      obtain ⟨hpiece, hrest⟩ := List.forall_mem_cons.mp h
      cases rest with
      | nil => exact splitAt_of_not_mem hpiece
      | cons next more =>
          rw [join, splitAt_append_cons hpiece, ih (List.cons_ne_nil next more) hrest]

theorem prefix_join (separator : Char) (piece : Text) (pieces : List Text) :
    piece <+: join separator (piece :: pieces) := by
  cases pieces with
  | nil => exact List.prefix_rfl
  | cons next more => exact List.prefix_append piece _

theorem isInfix_join (separator : Char) {pieces : List Text} (h : piece ∈ pieces) :
    piece <:+: join separator pieces := by
  induction pieces with
  | nil => cases h
  | cons first rest ih =>
      rcases List.mem_cons.mp h with rfl | hmem
      · exact (prefix_join separator piece rest).isInfix
      · cases rest with
        | nil => cases hmem
        | cons next more =>
            have hsuffix : join separator (next :: more) <:+:
                join separator (first :: next :: more) :=
              ⟨first ++ [separator], [], by simp [join]⟩
            exact (ih hmem).trans hsuffix

theorem isInfix_of_mem_splitAt {text : Text} (h : piece ∈ splitAt separator text) :
    piece <:+: text := by
  have hpart := isInfix_join separator h
  rwa [join_splitAt] at hpart

/-- The pieces stand between the occurrences of the separator in the text. -/
structure IsCutInto (separator : Char) (text : Text) (pieces : List Text) : Prop where
  ne_nil : pieces ≠ []
  join_eq : join separator pieces = text
  not_mem : ∀ piece ∈ pieces, separator ∉ piece

theorem isCutInto_iff (separator : Char) (text : Text) (pieces : List Text) :
    IsCutInto separator text pieces ↔ splitAt separator text = pieces := by
  constructor
  · rintro ⟨hne, rfl, hpieces⟩
    exact splitAt_join hne hpieces
  · rintro rfl
    exact ⟨splitAt_ne_nil separator text, join_splitAt separator text,
      fun _ => not_mem_of_mem_splitAt⟩

/-- A blank after each separator belongs to the piece that follows it. -/
theorem intercalate_eq_join (blank : Char) (pieces : List Text) :
    [separator, blank].intercalate (piece :: pieces) =
      join separator (piece :: pieces.map ([blank] ++ ·)) := by
  induction pieces generalizing piece with
  | nil => simp [List.intercalate, join]
  | cons next rest ih =>
      have hnext := @ih next
      rw [List.map_cons, join, join_append_cons, ← hnext]
      simp [List.intercalate]

end Separator

/-! ## Trimming -/

section Trim

variable {before after text : Text}

theorem trimStart_append (h : before.all isBlank) (text : Text) :
    trimStart (before ++ text) = trimStart text :=
  List.dropWhile_append_of_pos (List.all_eq_true.mp h)

/-- Trimming the start goes no further than a character that is not white space. -/
theorem trimStart_append_cons {c : Char} (hfirst : isBlank c = false) (front back : Text) :
    trimStart (front ++ c :: back) = trimStart front ++ c :: back := by
  have hstop : (c :: back).dropWhile isBlank = c :: back :=
    List.dropWhile_cons_of_neg (by simp [hfirst])
  rw [trimStart, List.dropWhile_append, hstop, trimStart]
  split
  next hempty =>
    rw [List.isEmpty_iff.mp hempty]
    rfl
  next => rfl

theorem trimEnd_append (h : after.all isBlank) (text : Text) :
    trimEnd (text ++ after) = trimEnd text := by
  have hreverse : after.reverse.all isBlank := by rwa [List.all_reverse]
  rw [trimEnd, List.reverse_append, List.dropWhile_append_of_pos (List.all_eq_true.mp hreverse),
    trimEnd]

/-- Trimming the end goes no further than a character that is not white space. -/
theorem trimEnd_append_cons {c : Char} (hlast : isBlank c = false) (front back : Text) :
    trimEnd (front ++ c :: back) = front ++ c :: trimEnd back := by
  have hstop : (c :: front.reverse).dropWhile isBlank = c :: front.reverse :=
    List.dropWhile_cons_of_neg (by simp [hlast])
  have hreverse : (front ++ c :: back).reverse = back.reverse ++ c :: front.reverse := by simp
  rw [trimEnd, hreverse, List.dropWhile_append, hstop, trimEnd]
  split
  next hempty =>
    rw [List.isEmpty_iff.mp hempty]
    simp
  next => simp

theorem trim_prefix (text : Text) : trim text <+: trimStart text := by
  rw [← List.reverse_suffix, trim, trimEnd, List.reverse_reverse]
  exact List.dropWhile_suffix isBlank

theorem length_trimStart_le (text : Text) : (trimStart text).length ≤ text.length :=
  (List.dropWhile_suffix isBlank).length_le

theorem length_trimEnd_le (text : Text) : (trimEnd text).length ≤ text.length := by
  have hdrop := length_trimStart_le text.reverse
  rwa [trimStart, List.length_reverse, ← List.length_reverse] at hdrop

/-- A text that trimming leaves as it is has no white space at its front. -/
theorem trimStart_eq_self (h : trim text = text) : trimStart text = text := by
  have hend := length_trimEnd_le (trimStart text)
  rw [← trim, h] at hend
  exact (List.dropWhile_suffix isBlank).eq_of_length_le hend

/-- Trimming takes away the white space around a text that has none at its ends. -/
theorem trim_append_append (hbefore : before.all isBlank) (hafter : after.all isBlank)
    (h : trim text = text) : trim (before ++ (text ++ after)) = text := by
  rw [trim, trimStart_append hbefore]
  cases text with
  | nil =>
      have hnil := trimStart_append hafter []
      rw [List.append_nil] at hnil
      rw [List.nil_append, hnil]
      rfl
  | cons c rest =>
      have hstart := trimStart_eq_self h
      -- White space at the front would make the trimmed text shorter than the text.
      have hc : isBlank c = false := by
        cases hblank : isBlank c with
        | false => rfl
        | true =>
            have hlength := length_trimStart_le rest
            rw [trimStart, List.dropWhile_cons_of_pos hblank] at hstart
            rw [trimStart, hstart, List.length_cons] at hlength
            omega
      rw [List.cons_append, trimStart, List.dropWhile_cons_of_neg (by simp [hc]),
        ← List.cons_append, trimEnd_append hafter]
      rw [trim, hstart] at h
      exact h

/-- Trimming leaves something of a text that is not all white space. -/
theorem trim_ne_nil {c : Char} (hmem : c ∈ text) (hc : isBlank c = false) : trim text ≠ [] := by
  intro h
  rw [trim, trimEnd, List.reverse_eq_nil_iff, List.dropWhile_eq_nil_iff] at h
  rw [← takeWhile_append_trimStart text, List.mem_append] at hmem
  have hblank : isBlank c := by
    rcases hmem with hfront | hback
    · exact List.mem_takeWhile_imp hfront
    · exact h c (List.mem_reverse.mpr hback)
  rw [hc] at hblank
  cases hblank

theorem isBlank_of_mem_head?_dropWhile {c : Char} (h : c ∈ (text.dropWhile isBlank).head?) :
    isBlank c = false := by
  have hhead := List.head?_dropWhile_not isBlank text
  rw [Option.mem_def.mp h] at hhead
  exact hhead

theorem isBlank_of_mem_head?_trim {c : Char} (h : c ∈ (trim text).head?) : isBlank c = false := by
  obtain ⟨after, hafter⟩ := trim_prefix text
  have hstart : c ∈ (text.dropWhile isBlank).head? := by
    rw [← trimStart, ← hafter, List.head?_append, Option.mem_def.mp h]
    rfl
  exact isBlank_of_mem_head?_dropWhile hstart

theorem isBlank_of_mem_getLast?_trim {c : Char} (h : c ∈ (trim text).getLast?) :
    isBlank c = false := by
  rw [trim, trimEnd, List.getLast?_reverse] at h
  exact isBlank_of_mem_head?_dropWhile h

theorem mem_of_mem_trimEnd {c : Char} (h : c ∈ trimEnd text) : c ∈ text := by
  rw [trimEnd, List.mem_reverse] at h
  exact List.mem_reverse.mp ((List.dropWhile_suffix isBlank).subset h)

theorem mem_of_mem_trim {c : Char} (h : c ∈ trim text) : c ∈ text := by
  have hfront := trim_prefix text
  exact (List.dropWhile_suffix isBlank).subset (hfront.subset h)

/-- A text that does not begin with white space is trimmed at its end. -/
theorem trim_cons {c : Char} (hc : isBlank c = false) (text : Text) :
    trim (c :: text) = c :: trimEnd text := by
  rw [trim, trimStart, List.dropWhile_cons_of_neg (by simp [hc])]
  exact trimEnd_append_cons hc [] text

/-- Trimming takes white space from both ends of a text. -/
theorem exists_eq_append_trim (text : Text) :
    ∃ before after, before.all isBlank ∧ after.all isBlank ∧
      text = before ++ (trim text ++ after) := by
  refine ⟨text.takeWhile isBlank, ((trimStart text).reverse.takeWhile isBlank).reverse,
    List.all_takeWhile, ?_, ?_⟩
  · rw [List.all_reverse]
    exact List.all_takeWhile
  · rw [trim, trimEnd, ← List.reverse_append, List.takeWhile_append_dropWhile,
      List.reverse_reverse, takeWhile_append_trimStart]

theorem trim_isInfix (text : Text) : trim text <:+: text := by
  obtain ⟨before, after, _, _, htext⟩ := exists_eq_append_trim text
  exact ⟨before, after, by rw [List.append_assoc, ← htext]⟩

/-- A text without white space at its ends is not changed by trimming. -/
theorem trim_eq_self (hfirst : ∀ c ∈ text.head?, isBlank c = false)
    (hlast : ∀ c ∈ text.getLast?, isBlank c = false) : trim text = text := by
  have hstart : trimStart text = text := by
    cases text with
    | nil => rfl
    | cons c rest => exact List.dropWhile_cons_of_neg (by simp [hfirst c rfl])
  rw [trim, hstart, trimEnd, ← List.reverse_inj, List.reverse_reverse]
  rw [← List.head?_reverse] at hlast
  cases hreverse : text.reverse with
  | nil => rfl
  | cons c rest =>
      rw [hreverse] at hlast
      exact List.dropWhile_cons_of_neg (by simp [hlast c rfl])

theorem not_mem_of_all_isBlank (h : text.all isBlank) {c : Char} (hc : isBlank c = false) :
    c ∉ text := by
  intro hmem
  have hblank := List.all_eq_true.mp h c hmem
  rw [hc] at hblank
  cases hblank

theorem trim_eq_nil_iff (text : Text) : trim text = [] ↔ text.all isBlank := by
  constructor
  · intro hnil
    rw [List.all_eq_true]
    intro c hmem
    by_contra hc
    exact trim_ne_nil hmem (Bool.of_not_eq_true hc) hnil
  · intro hblank
    by_contra hne
    obtain ⟨c, rest, htrim⟩ := List.exists_cons_of_ne_nil hne
    have hhead : c ∈ (trim text).head? := by
      rw [htrim]
      rfl
    have hmem : c ∈ text := mem_of_mem_trim (List.mem_of_mem_head? hhead)
    exact not_mem_of_all_isBlank hblank (isBlank_of_mem_head?_trim hhead) hmem

theorem trim_trim (text : Text) : trim (trim text) = trim text :=
  trim_eq_self (fun _ => isBlank_of_mem_head?_trim) fun _ => isBlank_of_mem_getLast?_trim

theorem trim_append (hafter : after.all isBlank) (text : Text) :
    trim (text ++ after) = trim text := by
  obtain ⟨before, blank, hbefore, hblank, htext⟩ := exists_eq_append_trim text
  have hboth : (blank ++ after).all isBlank := by
    rw [List.all_append, hblank, hafter, Bool.and_self]
  have htrim := trim_append_append hbefore hboth (trim_trim text)
  rwa [← List.append_assoc (trim text), ← List.append_assoc, ← htext] at htrim

/-- White space at the end of a text that has something else is not at its front. -/
theorem leadingBlank_append (h : trim text ≠ []) (after : Text) :
    leadingBlank (text ++ after) = leadingBlank text := by
  have hlength : (text.takeWhile isBlank).length ≠ text.length := by
    intro hall
    have hblank := (List.takeWhile_prefix isBlank).eq_of_length hall
    have hstart : trimStart text = [] :=
      List.dropWhile_eq_nil_iff.mpr (List.takeWhile_eq_self_iff.mp hblank)
    apply h
    rw [trim, hstart]
    rfl
  rw [leadingBlank, leadingBlank, List.takeWhile_append, if_neg hlength]

end Trim

end Text

/-! ## Writing distinct entries -/

theorem putEntry_of_not_mem {α : Type} {key : Text} {pairs : List (Text × α)}
    (h : key ∉ pairs.map Prod.fst) (value : α) :
    putEntry key value pairs = pairs ++ [(key, value)] := by
  induction pairs with
  | nil => rfl
  | cons pair rest ih =>
      obtain ⟨k, v⟩ := pair
      rw [List.map_cons, List.mem_cons, not_or] at h
      rw [putEntry, if_neg (Ne.symm h.1), ih h.2, List.cons_append]

namespace Entries

/-- Pairs with new keys are written one after another at the end. -/
theorem toList_foldl_insert {α : Type} {entries : Entries α} {pairs : List (Text × α)}
    (h : ((entries.toList ++ pairs).map Prod.fst).Nodup) :
    (pairs.foldl (fun entries pair => entries.insert pair.1 pair.2) entries).toList =
      entries.toList ++ pairs := by
  induction pairs generalizing entries with
  | nil => simp
  | cons pair rest ih =>
      have hfresh : pair.1 ∉ entries.toList.map Prod.fst := by
        rw [List.map_append, List.map_cons, List.nodup_append] at h
        intro hmem
        exact h.2.2 _ hmem _ List.mem_cons_self rfl
      have hnext : (entries.insert pair.1 pair.2).toList = entries.toList ++ [pair] :=
        putEntry_of_not_mem hfresh pair.2
      rw [List.foldl_cons, ih (by rw [hnext, List.append_assoc]; exact h), hnext,
        List.append_assoc, List.singleton_append]

theorem forall_mem_insert {α : Type} {P : Text × α → Prop} {entries : Entries α} {key : Text}
    {value : α} (h : ∀ entry ∈ entries.toList, P entry) (hnew : P (key, value)) :
    ∀ entry ∈ (entries.insert key value).toList, P entry := by
  change ∀ entry ∈ putEntry key value entries.toList, P entry
  generalize entries.toList = pairs at h
  induction pairs with
  | nil => simpa [putEntry] using hnew
  | cons pair rest ih =>
      obtain ⟨hpair, hrest⟩ := List.forall_mem_cons.mp h
      rw [putEntry]
      split
      next => exact List.forall_mem_cons.mpr ⟨hnew, hrest⟩
      next => exact List.forall_mem_cons.mpr ⟨hpair, ih hrest⟩

/-- What holds of all pairs holds of the entries that they are written to. -/
theorem forall_mem_ofList {α : Type} {P : Text × α → Prop} {pairs : List (Text × α)}
    (h : ∀ pair ∈ pairs, P pair) : ∀ entry ∈ (ofList pairs).toList, P entry := by
  suffices hfold : ∀ entries : Entries α, (∀ entry ∈ entries.toList, P entry) →
      ∀ entry ∈ (pairs.foldl (fun entries pair => entries.insert pair.1 pair.2) entries).toList,
        P entry from hfold empty (by simp [empty])
  induction pairs with
  | nil => exact fun entries hentries => hentries
  | cons pair rest ih =>
      obtain ⟨hpair, hrest⟩ := List.forall_mem_cons.mp h
      exact fun entries hentries => ih hrest _ (forall_mem_insert hentries hpair)

/-- The entries with every value replaced by its image. -/
def map {α β : Type} (f : α → β) (entries : Entries α) : Entries β where
  toList := entries.toList.map fun entry => (entry.1, f entry.2)
  nodup_keys := by
    rw [List.map_map]
    exact entries.nodup_keys

/-- Writing the pairs of entries gives these entries back. -/
theorem ofList_toList {α : Type} (entries : Entries α) : ofList entries.toList = entries := by
  apply Entries.ext
  rw [ofList, toList_foldl_insert entries.nodup_keys]
  rfl

end Entries

end SceneScript
