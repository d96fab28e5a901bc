import Mathlib.Order.MinMax
import SceneScript.Proofs.Places
import SceneScript.Proofs.Positions

/-! # Line breaks of two characters

A line may end with a newline alone or with a carriage return in front of it. The carriage return is
white space, it is no separator, and it stands behind everything else on its line. So it is lost in
trimming, and it moves offsets but no line and no column.
-/

namespace SceneScript

namespace Text

/-- The text with a carriage return in front of every newline. -/
def crlf (text : Text) : Text :=
  text.flatMap fun c => if c = '\n' then ['\r', '\n'] else [c]

/-- The text without the carriage returns that stand right in front of a newline. -/
def lf : Text → Text
  | [] => []
  | c :: rest => if c = '\r' ∧ rest.head? = some '\n' then lf rest else c :: lf rest

@[simp] theorem crlf_nil : crlf [] = [] := rfl

@[simp] theorem crlf_newline (rest : Text) : crlf ('\n' :: rest) = '\r' :: '\n' :: crlf rest := rfl

theorem crlf_cons {c : Char} (h : c ≠ '\n') (rest : Text) : crlf (c :: rest) = c :: crlf rest := by
  rw [crlf, List.flatMap_cons, if_neg h]
  rfl

@[simp] theorem crlf_append (front back : Text) : crlf (front ++ back) = crlf front ++ crlf back :=
  List.flatMap_append

theorem crlf_of_not_mem {text : Text} (h : '\n' ∉ text) : crlf text = text := by
  induction text with
  | nil => rfl
  | cons c rest ih =>
      rw [List.mem_cons, not_or] at h
      rw [crlf_cons (Ne.symm h.1), ih h.2]

/-- A line and its newline, and what follows them. -/
theorem crlf_line {line : Text} (h : '\n' ∉ line) (rest : Text) :
    crlf (line ++ '\n' :: rest) = line ++ '\r' :: '\n' :: crlf rest := by
  rw [crlf_append, crlf_of_not_mem h, crlf_newline]

theorem head?_crlf_ne (text : Text) : (crlf text).head? ≠ some '\n' := by
  cases text with
  | nil => simp
  | cons c rest =>
      by_cases h : c = '\n'
      · simp [h]
      · simp [crlf_cons h, h]

/-- Whatever carriage returns a text has of its own, those that were added can be taken away. -/
@[simp] theorem lf_crlf (text : Text) : lf (crlf text) = text := by
  induction text with
  | nil => rfl
  | cons c rest ih =>
      by_cases h : c = '\n'
      · subst h
        rw [crlf_newline, lf, if_pos ⟨rfl, rfl⟩, lf, if_neg (by simp), ih]
      · rw [crlf_cons h, lf, if_neg (fun hboth => head?_crlf_ne rest hboth.2), ih]

theorem crlf_injective : Function.Injective crlf :=
  Function.LeftInverse.injective lf_crlf

@[simp] theorem crlf_eq_nil_iff {text : Text} : crlf text = [] ↔ text = [] :=
  crlf_injective.eq_iff' crlf_nil

/-- A test that does not tell a carriage return from a newline. -/
theorem all_crlf {p : Char → Bool} (h : p '\r' = p '\n') (text : Text) :
    (crlf text).all p = text.all p := by
  induction text with
  | nil => rfl
  | cons c rest ih =>
      by_cases hc : c = '\n'
      · subst hc
        rw [crlf_newline, List.all_cons, List.all_cons, List.all_cons, ih, h, Bool.and_self_left]
      · rw [crlf_cons hc, List.all_cons, List.all_cons, ih]

theorem all_isBlank_crlf (text : Text) : (crlf text).all isBlank = text.all isBlank :=
  all_crlf rfl text

/-- Each newline takes one byte more. -/
theorem byteLength_crlf (text : Text) :
    byteLength (crlf text) = byteLength text + text.count '\n' := by
  induction text with
  | nil => rfl
  | cons c rest ih =>
      by_cases h : c = '\n'
      · subst h
        rw [crlf_newline, List.count_cons_self, byteLength_cons, byteLength_cons, byteLength_cons,
          ih]
        have hreturn : '\r'.utf8Size = 1 := rfl
        omega
      · rw [crlf_cons h, List.count_cons_of_ne h, byteLength_cons, byteLength_cons, ih, Nat.add_assoc]

/-- Where the next line begins. -/
theorem byteLength_append_line (front line : Text) :
    byteLength (front ++ (line ++ ['\n'])) = byteLength front + byteLength line + 1 := by
  rw [byteLength_append, byteLength_append, ← Nat.add_assoc]
  rfl

theorem byteLength_crlf_append_line {line : Text} (h : '\n' ∉ line) (front : Text) :
    byteLength (crlf (front ++ (line ++ ['\n']))) =
      byteLength (crlf front) + byteLength (line ++ ['\r']) + 1 := by
  rw [crlf_append, crlf_line h, List.append_cons line, byteLength_append, byteLength_append,
    ← Nat.add_assoc]
  rfl

/-- Induction over the lines of a text. -/
@[elab_as_elim]
theorem line_induction {motive : Text → Prop} (last : ∀ line, '\n' ∉ line → motive line)
    (line : ∀ line rest, '\n' ∉ line → motive rest → motive (line ++ '\n' :: rest))
    (text : Text) : motive text := by
  suffices h : ∀ front, '\n' ∉ front → motive (front ++ text) from h [] List.not_mem_nil
  -- The line that was begun is carried along until its newline is met.
  induction text with
  | nil =>
      intro front hfront
      rw [List.append_nil]
      exact last front hfront
  | cons c rest ih =>
      intro front hfront
      by_cases h : c = '\n'
      · subst h
        exact line front rest hfront (ih [] List.not_mem_nil)
      · rw [List.append_cons]
        refine ih (front ++ [c]) ?_
        rw [List.mem_append, List.mem_singleton, not_or]
        exact ⟨hfront, Ne.symm h⟩

/-! ## Offsets -/

/-- Where an offset goes when the carriage returns are added. -/
def crlfOffset (text : Text) (offset : Nat) : Nat :=
  offset + (takeBytes offset text).count '\n'

theorem crlfOffset_byteLength (front back : Text) :
    crlfOffset (front ++ back) (byteLength front) = byteLength (crlf front) := by
  rw [crlfOffset, takeBytes_byteLength, byteLength_crlf]

theorem crlfOffset_middle (front middle back : Text) :
    crlfOffset (front ++ (middle ++ back)) (byteLength front + byteLength middle) =
      byteLength (crlf front) + byteLength (crlf middle) := by
  have hoffset := crlfOffset_byteLength (front ++ middle) back
  rwa [List.append_assoc, crlf_append, byteLength_append, byteLength_append] at hoffset

@[simp] theorem crlfOffset_zero (text : Text) : crlfOffset text 0 = 0 := by
  rw [crlfOffset, takeBytes_zero]
  rfl

theorem crlfOffset_strictMono (text : Text) : StrictMono (crlfOffset text) := by
  intro a b h
  have hcount := (takeBytes_prefix_of_le (Nat.le_of_lt h) text).sublist.count_le '\n'
  unfold crlfOffset
  omega

/-- Within a line, all offsets are moved by the number of earlier lines. -/
theorem crlfOffset_of_line {line : Text} (h : '\n' ∉ line) (front back : Text) {offset : Nat}
    (hstart : byteLength front ≤ offset) (hstop : offset ≤ byteLength front + byteLength line) :
    crlfOffset (front ++ (line ++ back)) offset = offset + front.count '\n' := by
  obtain ⟨count, rfl⟩ := Nat.exists_eq_add_of_le hstart
  have hnone : '\n' ∉ takeBytes count line := by
    intro hmem
    exact h (takeBytes_append_dropBytes count line ▸ List.mem_append_left _ hmem)
  rw [crlfOffset, takeBytes_byteLength_add, takeBytes_append_of_le (by omega), List.count_append,
    List.count_eq_zero_of_not_mem hnone, Nat.add_zero]

end Text

namespace Span

/-- Where a span goes when the carriage returns are added. -/
def crlf (text : Text) (span : Span) : Span :=
  ⟨text.crlfOffset span.start, text.crlfOffset span.stop,
    (text.crlfOffset_strictMono).monotone span.start_le_stop⟩

theorem crlf_injective (text : Text) : Function.Injective (crlf text) := by
  intro a b h
  have hinj := text.crlfOffset_strictMono.injective
  obtain ⟨aStart, aStop, _⟩ := a
  obtain ⟨bStart, bStop, _⟩ := b
  simp only [crlf, Span.mk.injEq] at h ⊢
  exact ⟨hinj h.1, hinj h.2⟩

theorem crlf_union (text : Text) (a b : Span) :
    crlf text (a.union b) = (crlf text a).union (crlf text b) := by
  have hmono := text.crlfOffset_strictMono.monotone
  simp only [crlf, union, hmono.map_min, hmono.map_max]

theorem crlf_eq_shift {line : Text} (h : '\n' ∉ line) (front back : Text) {span : Span}
    (hstart : Text.byteLength front ≤ span.start)
    (hstop : span.stop ≤ Text.byteLength front + Text.byteLength line) :
    crlf (front ++ (line ++ back)) span = span.shift (front.count '\n') := by
  have hle := span.start_le_stop
  simp only [crlf, shift, Text.crlfOffset_of_line h front back hstart (by omega),
    Text.crlfOffset_of_line h front back (Nat.le_trans hstart hle) hstop]

end Span

/-! ## Positions -/

theorem Text.count_newline_crlf (text : Text) : (crlf text).count '\n' = text.count '\n' := by
  induction text with
  | nil => rfl
  | cons c rest ih =>
      by_cases h : c = '\n'
      · subst h
        rw [crlf_newline, List.count_cons_of_ne (by decide), List.count_cons_self,
          List.count_cons_self, ih]
      · rw [crlf_cons h, List.count_cons_of_ne h, List.count_cons_of_ne h, ih]

theorem Text.lastLine_crlf (text : Text) : lastLine (crlf text) = lastLine text := by
  induction text using List.reverseRecOn with
  | nil => rfl
  | append_singleton front c ih =>
      by_cases h : c = '\n'
      · subst h
        rw [crlf_append, crlf_newline, crlf_nil, List.append_cons, lastLine, lastLine,
          List.rtakeWhile_concat_neg _ _ _ (by simp), List.rtakeWhile_concat_neg _ _ _ (by simp)]
      · rw [crlf_append, crlf_cons h, crlf_nil, lastLine, lastLine,
          List.rtakeWhile_concat_pos _ _ _ (by simpa using h),
          List.rtakeWhile_concat_pos _ _ _ (by simpa using h), ← lastLine, ih, lastLine]

theorem LineTable.position_crlf {source : Text} {offset : Nat} (h : source.IsCut offset) :
    (ofSource (Text.crlf source)).position (source.crlfOffset offset) =
      (ofSource source).position offset := by
  obtain ⟨front, back, rfl, rfl⟩ := h
  have hafter : Position.after (Text.crlf front) = Position.after front := by
    simp only [Position.after, Text.count_newline_crlf, Text.lastLine_crlf]
  rw [Text.crlfOffset_byteLength, Text.crlf_append, position_byteLength, position_byteLength,
    hafter]

namespace Text

/-! ## Trimming -/

theorem takeWhile_isBlank_crlf (text : Text) :
    (crlf text).takeWhile isBlank = crlf (text.takeWhile isBlank) := by
  induction text with
  | nil => rfl
  | cons c rest ih =>
      by_cases h : c = '\n'
      · subst h
        have hreturn : isBlank '\r' := by decide
        have hnewline : isBlank '\n' := by decide
        rw [crlf_newline, List.takeWhile_cons_of_pos hreturn, List.takeWhile_cons_of_pos hnewline,
          List.takeWhile_cons_of_pos hnewline, crlf_newline, ih]
      · rw [crlf_cons h, List.takeWhile_cons, List.takeWhile_cons]
        split
        next => rw [crlf_cons h, ih]
        next => rfl

theorem isBlank_eq_false_of_head?_crlf {text : Text} (h : ∀ c ∈ text.head?, isBlank c = false) :
    ∀ c ∈ (crlf text).head?, isBlank c = false := by
  cases text with
  | nil => exact h
  | cons c rest =>
      have hnewline : c ≠ '\n' := by
        rintro rfl
        cases h '\n' rfl
      rw [crlf_cons hnewline]
      exact h

theorem isBlank_eq_false_of_getLast?_crlf {text : Text}
    (h : ∀ c ∈ text.getLast?, isBlank c = false) :
    ∀ c ∈ (crlf text).getLast?, isBlank c = false := by
  rcases List.eq_nil_or_concat text with rfl | ⟨front, last, rfl⟩
  · exact h
  · have hlast : isBlank last = false := h last (by simp)
    have hnewline : last ≠ '\n' := by
      rintro rfl
      cases hlast
    rw [List.concat_eq_append, crlf_append, crlf_cons hnewline, crlf_nil]
    intro c hc
    rw [List.getLast?_concat, Option.mem_some_iff] at hc
    exact hc ▸ hlast

/-- What is left after trimming has its newlines inside. -/
theorem trim_crlf (text : Text) : trim (crlf text) = crlf (trim text) := by
  obtain ⟨before, after, hbefore, hafter, htext⟩ := exists_eq_append_trim text
  have hcore : trim (crlf (trim text)) = crlf (trim text) :=
    trim_eq_self (isBlank_eq_false_of_head?_crlf fun _ => isBlank_of_mem_head?_trim)
      (isBlank_eq_false_of_getLast?_crlf fun _ => isBlank_of_mem_getLast?_trim)
  rw [← all_isBlank_crlf] at hbefore hafter
  have htrim := trim_append_append hbefore hafter hcore
  rwa [← crlf_append, ← crlf_append, ← htext] at htrim

/-! ## Cutting -/

section Separator

variable {separator : Char} (hreturn : separator ≠ '\r') (hnewline : separator ≠ '\n')
include hreturn hnewline

theorem cutAt_crlf (text : Text) :
    cutAt separator (crlf text) =
      (cutAt separator text).map fun parts => (crlf parts.1, crlf parts.2) := by
  induction text with
  | nil => rfl
  | cons c rest ih =>
      by_cases h : c = '\n'
      · subst h
        rw [crlf_newline, cutAt, if_neg (Ne.symm hreturn), cutAt, if_neg (Ne.symm hnewline), ih,
          cutAt, if_neg (Ne.symm hnewline)]
        simp only [Option.map_map]
        rfl
      · rw [crlf_cons h, cutAt, cutAt, ih]
        split
        next => rfl
        next =>
          simp only [Option.map_map, Function.comp_def, crlf_cons h]

theorem splitAt_crlf (text : Text) :
    splitAt separator (crlf text) = (splitAt separator text).map crlf := by
  induction text with
  | nil => rfl
  | cons c rest ih =>
      by_cases hc : c = separator
      · subst hc
        rw [crlf_cons hnewline, splitAt, splitAt, if_pos rfl, if_pos rfl, ih]
        rfl
      · by_cases h : c = '\n'
        · subst h
          rw [crlf_newline, splitAt_cons_of_ne (Ne.symm hreturn), splitAt_cons_of_ne hc,
            splitAt_cons_of_ne hc, ih]
          cases splitAt separator rest <;> rfl
        · rw [crlf_cons h, splitAt_cons_of_ne hc, splitAt_cons_of_ne hc, ih]
          cases splitAt separator rest with
          | nil => rfl
          | cons piece pieces => simp [crlf_cons h]

end Separator

end Text

end SceneScript
