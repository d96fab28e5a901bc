import SceneScript.Proofs.LintLines

/-! # Warnings and their lines

A warning is about one line and marks text of it: the whole line without the white space around it,
or the last character of that. So the line number of a warning, which is looked up in the whole
source, is the number of the line that was checked.
-/

namespace SceneScript

/-! ## Lines by number -/

/-- The line with this number: it begins behind a newline or at the start of the source, and the
newlines in front of it are the ends of the lines before. -/
def Spanned.IsLine (source : Text) (number : Nat) (line : Spanned Text) : Prop :=
  ∃ front back, source = front ++ (line.value ++ back) ∧
    line.span = .ofText (Text.byteLength front) line.value ∧
    EndsLine front ∧ '\n' ∉ line.value ∧ number = front.count '\n' + 1

theorem isLine_of_getElem?_placeLines {source front : Text} {lines : List Text}
    (hsource : source = front ++ Text.join '\n' lines) (hfront : EndsLine front)
    (hlines : ∀ line ∈ lines, '\n' ∉ line) {i : Nat} {line : Spanned Text}
    (h : (placeLines (Text.byteLength front) lines)[i]? = some line) :
    line.IsLine source (front.count '\n' + 1 + i) := by
  induction lines generalizing front i with
  | nil => cases h
  | cons first rest ih =>
      obtain ⟨hfirst, hrest⟩ := List.forall_mem_cons.mp hlines
      obtain ⟨back, hback⟩ := Text.prefix_join '\n' first rest
      cases i with
      | zero =>
          obtain rfl := Option.some.inj h
          exact ⟨front, back, by rw [hsource, ← hback], rfl, hfront, hfirst, rfl⟩
      | succ i =>
          cases rest with
          | nil => cases h
          | cons next more =>
              have hnumber : front.count '\n' + 1 + (i + 1) =
                  (front ++ (first ++ ['\n'])).count '\n' + 1 + i := by
                rw [List.count_append, List.count_append, List.count_eq_zero.mpr hfirst,
                  List.count_singleton_self]
                omega
              rw [hnumber]
              refine ih ?_ (.inr ⟨front ++ first, by simp⟩) hrest ?_
              · rw [hsource, Text.join]
                simp only [List.append_assoc, List.singleton_append]
              · rw [Text.byteLength_append, Text.byteLength_append, ← Nat.add_assoc]
                exact h

theorem isLine_of_getElem? {source : Text} {i : Nat} {line : Spanned Text}
    (h : (linesFrom 0 source)[i]? = some line) : line.IsLine source (i + 1) := by
  have hline := @isLine_of_getElem?_placeLines source [] (Text.splitAt '\n' source)
    (Text.join_splitAt '\n' source).symm (.inl rfl)
    (fun _ hmem => Text.not_mem_of_mem_splitAt hmem) i line h
  rwa [List.count_nil, Nat.zero_add, Nat.add_comm] at hline

/-- On a line, the position counts the characters of the line in front of it. -/
theorem Spanned.IsLine.position {source : Text} {number : Nat} {line : Spanned Text}
    (h : line.IsLine source number) {before rest : Text} (hvalue : line.value = before ++ rest) :
    ((LineTable.ofSource source).position (line.span.start + Text.byteLength before)).line = number ∧
      ((LineTable.ofSource source).position
        (line.span.start + Text.byteLength before)).column = before.length + 1 := by
  obtain ⟨front, back, rfl, hspan, hfront, hnewline, rfl⟩ := h
  rw [hvalue, List.mem_append, not_or] at hnewline
  have hlast : Text.lastLine front = [] := by
    rcases hfront with rfl | ⟨lines, rfl⟩
    · rfl
    · exact Text.lastLine_append_newline lines []
  have hplace : line.span.start + Text.byteLength before = Text.byteLength (front ++ before) := by
    rw [hspan, Text.byteLength_append]
    rfl
  have hsource : front ++ (line.value ++ back) = (front ++ before) ++ (rest ++ back) := by
    rw [hvalue]
    simp only [List.append_assoc]
  rw [hplace, hsource, LineTable.position_byteLength]
  constructor
  · change (front ++ before).count '\n' + 1 = front.count '\n' + 1
    rw [List.count_append, List.count_eq_zero.mpr hnewline.1, Nat.add_zero]
  · change (Text.lastLine (front ++ before)).length + 1 = before.length + 1
    rw [Text.lastLine_append_of_not_mem hnewline.1, hlast, List.nil_append]

/-! ## What is found on a line -/

/-- The line without the white space at its ends, where it stands in the source. -/
def Spanned.trim (line : Spanned Text) : Spanned Text :=
  line.value.placedTrim.shift line.span.start

theorem Spanned.span_trim (line : Spanned Text) :
    line.trim.span =
      .ofText (line.span.start + Text.leadingBlank line.value) (Text.trim line.value) :=
  Span.shift_ofText _ _ _

theorem Spanned.StandsIn.trim {source : Text} {line : Spanned Text} (h : line.StandsIn source) :
    line.trim.StandsIn source :=
  (Text.placedTrim_standsIn line.value).shift h

namespace Lint

theorem checkLines_eq_flatMap (start : Nat) (lines : List Text) :
    checkLines start lines =
      (placeLines start lines).flatMap fun line => checkLine line.span.start line.value := by
  induction lines generalizing start with
  | nil => rfl
  | cons raw rest ih =>
      rw [checkLines, placeLines, List.flatMap_cons, ih]
      rfl

theorem findings_eq_flatMap (source : Text) :
    findings source =
      (linesFrom 0 source).flatMap fun line => checkLine line.span.start line.value :=
  checkLines_eq_flatMap 0 _

/-- The place of the last character, which may have several bytes. -/
theorem lastCharacter_concat (front : Text) (last : Char) (offset : Nat) :
    lastCharacter (front ++ [last]) offset = .ofText (offset + Text.byteLength front) [last] := by
  simp only [lastCharacter, Span.ofText, Span.mk.injEq, List.getLast?_append, Text.byteLength_append,
    Text.byteLength_cons, Text.byteLength_nil, List.getLast?_singleton, Option.some_or,
    Option.map_some, Option.getD_some]
  omega

end Lint

/-- What a finding marks: the last character of a trimmed line, or the whole of it. -/
inductive Finding.Marks (trimmed : Spanned Text) : Finding → Prop
  | create {front : Text} {last : Char} (value : trimmed.value = front ++ [last]) :
    Marks trimmed
      (.createWithoutBrace (.ofText (trimmed.span.start + Text.byteLength front) [last]))
  | style {front : Text} {last : Char} (value : trimmed.value = front ++ [last]) :
    Marks trimmed
      (.styleWithoutBrace (.ofText (trimmed.span.start + Text.byteLength front) [last]))
  | unknown : Marks trimmed (.unknownInstruction trimmed)

theorem Lint.marks_of_mem_checkLine {line : Spanned Text} {finding : Finding}
    (h : finding ∈ checkLine line.span.start line.value) : finding.Marks line.trim := by
  have hspan := line.span_trim
  rw [checkLine_eq, checkTrimmed] at h
  simp only [List.mem_ite_nil_left, List.mem_append, List.mem_ite_nil_right,
    List.mem_singleton, not_or] at h
  obtain ⟨⟨hne, _⟩, h⟩ := h
  obtain ⟨front, last, hvalue⟩ := (List.eq_nil_or_concat (Text.trim line.value)).resolve_left hne
  rw [List.concat_eq_append] at hvalue
  have hlast : lastCharacter (Text.trim line.value)
      (line.span.start + Text.leadingBlank line.value) =
        .ofText (line.trim.span.start + Text.byteLength front) [last] := by
    rw [hvalue, lastCharacter_concat, hspan]
    rfl
  rcases h with (⟨_, rfl⟩ | ⟨_, rfl⟩) | ⟨_, rfl⟩
  · rw [hlast]
    exact .create hvalue
  · rw [hlast]
    exact .style hvalue
  · rw [← hspan]
    exact .unknown

/-- A warning marks text of the trimmed line: by its code, all of it, which is also what the message
quotes, or its last character. -/
structure Diagnostic.SitsOn (line : Spanned Text) (warning : Diagnostic) : Prop where
  inside : ∃ span, warning.primarySpan? = some span ∧ line.trim.span.start ≤ span.start ∧
    span.stop ≤ line.trim.span.stop
  marks : match warning.code with
    | some .unknownInstruction =>
      warning.primarySpan? = some line.trim.span ∧
        warning.message = "unknown instruction: " ++ String.ofList (Text.trim line.value) ∧
        warning.position.column = 1 + (line.value.takeWhile isBlank).length
    | some .createWithoutBrace | some .styleWithoutBrace =>
      ∃ front last, Text.trim line.value = front ++ [last] ∧ warning.primarySpan? =
        some (.ofText (line.trim.span.start + Text.byteLength front) [last])
    | _ => False

section Located

variable {source : Text} {number : Nat} {line : Spanned Text} (h : line.IsLine source number)
include h

/-- On the trimmed line, the position counts the leading white space too. -/
theorem Spanned.IsLine.position_trim {front rest : Text}
    (hvalue : line.trim.value = front ++ rest) :
    ((LineTable.ofSource source).position
        (line.trim.span.start + Text.byteLength front)).line = number ∧
      ((LineTable.ofSource source).position
        (line.trim.span.start + Text.byteLength front)).column =
          (line.value.takeWhile isBlank).length + front.length + 1 := by
  obtain ⟨after, hafter⟩ := Text.trim_prefix line.value
  have htrim : Text.trim line.value = front ++ rest := hvalue
  have hsplit : line.value = (line.value.takeWhile isBlank ++ front) ++ (rest ++ after) := by
    have hblank := Text.takeWhile_append_trimStart line.value
    rw [← hafter, htrim, List.append_assoc] at hblank
    rw [List.append_assoc]
    exact hblank.symm
  have hposition := h.position hsplit
  have hplace : line.trim.span.start + Text.byteLength front =
      line.span.start + Text.byteLength (line.value.takeWhile isBlank ++ front) := by
    rw [line.span_trim, Text.byteLength_append, ← Nat.add_assoc]
    rfl
  rwa [hplace, ← List.length_append]

theorem Finding.Marks.line_locate {finding : Finding} (hmarks : finding.Marks line.trim) :
    (finding.diagnostic.locate (.ofSource source)).position.line = number := by
  cases hmarks with
  | create value => exact (h.position_trim value).1
  | style value => exact (h.position_trim value).1
  | unknown => exact (h.position_trim (List.nil_append _).symm).1

theorem Finding.Marks.sitsOn_locate {finding : Finding} (hmarks : finding.Marks line.trim) :
    (finding.diagnostic.locate (.ofSource source)).SitsOn line := by
  have hlast : ∀ {front : Text} {last : Char}, line.trim.value = front ++ [last] →
      line.trim.span.start + Text.byteLength front + Text.byteLength [last] ≤
        line.trim.span.stop := by
    intro front last hvalue
    have hlength := congrArg Text.byteLength hvalue
    rw [Text.byteLength_append] at hlength
    rw [Nat.add_assoc, ← hlength, line.span_trim]
    exact Nat.le_refl _
  cases hmarks with
  | create value =>
      exact ⟨⟨_, rfl, Nat.le_add_right _ _, hlast value⟩, _, _, value, rfl⟩
  | style value =>
      exact ⟨⟨_, rfl, Nat.le_add_right _ _, hlast value⟩, _, _, value, rfl⟩
  | unknown =>
      have hcolumn := (h.position_trim (List.nil_append _).symm).2
      refine ⟨⟨_, rfl, Nat.le_refl _, Nat.le_refl _⟩, rfl, rfl, ?_⟩
      rw [Nat.add_comm]
      exact hcolumn

end Located

/-! ## A `Create` without a brace -/

/-- Somewhere in the text stands `Create` with white space and then a word character behind it. -/
def HasCreate (text : Text) : Prop :=
  ∃ before blank c after, text = before ++ (Lint.createWord ++ (blank ++ c :: after)) ∧
    blank ≠ [] ∧ blank.all isBlank ∧ isWordChar c

namespace Lint

theorem startsArgument_iff (text : Text) :
    startsArgument text ↔
      ∃ blank c after, text = blank ++ c :: after ∧ blank ≠ [] ∧ blank.all isBlank ∧
        isWordChar c := by
  rw [startsArgument, Bool.and_eq_true, Option.any_eq_true, Option.any_eq_true]
  constructor
  · rintro ⟨⟨first, hfirst, hblank⟩, c, hc, hword⟩
    obtain ⟨after, hafter⟩ := List.head?_eq_some_iff.mp hc
    have hsplit := Text.takeWhile_append_trimStart text
    rw [hafter] at hsplit
    refine ⟨text.takeWhile isBlank, c, after, hsplit.symm, ?_, List.all_takeWhile, hword⟩
    intro hnil
    rw [hnil] at hsplit
    -- Without white space in front, the first character would be blank and of a word.
    subst hsplit
    obtain rfl : c = first := Option.some.inj hfirst
    rw [isBlank_of_isWordChar hword] at hblank
    cases hblank
  · rintro ⟨blank, c, after, rfl, hne, hblank, hword⟩
    obtain ⟨first, rest, rfl⟩ := List.exists_cons_of_ne_nil hne
    refine ⟨⟨first, rfl, ?_⟩, c, ?_, hword⟩
    · exact List.all_eq_true.mp hblank first List.mem_cons_self
    · rw [Text.trimStart_append hblank, Text.trimStart,
        List.dropWhile_cons_of_neg (by simp [isBlank_of_isWordChar hword])]
      rfl

theorem hasCreateCommand_iff (text : Text) : hasCreateCommand text ↔ HasCreate text := by
  induction text with
  | nil =>
      constructor
      · intro h
        cases h
      · rintro ⟨before, blank, c, after, htext, _⟩
        simp at htext
  | cons first rest ih =>
      rw [hasCreateCommand, Bool.or_eq_true, Bool.and_eq_true, startsArgument_iff, ih,
        List.isPrefixOf_iff_prefix]
      constructor
      · rintro (⟨hopens, blank, c, after, hdrop, hblank⟩ | ⟨before, blank, c, after, hrest, hblank⟩)
        · refine ⟨[], blank, c, after, ?_, hblank⟩
          rw [List.nil_append, ← hdrop]
          exact (List.prefix_iff_eq_append.mp hopens).symm
        · exact ⟨first :: before, blank, c, after, by rw [hrest, List.cons_append], hblank⟩
      · rintro ⟨before, blank, c, after, htext, hblank⟩
        cases before with
        | nil =>
            rw [List.nil_append] at htext
            refine .inl ⟨htext ▸ List.prefix_append _ _, blank, c, after, ?_, hblank⟩
            rw [htext, List.drop_left]
        | cons d before =>
            exact .inr ⟨before, blank, c, after, (List.cons.inj htext).2, hblank⟩

end Lint

/-- Trimming takes away neither the `Create` nor the word behind it. -/
theorem hasCreate_trim_iff (text : Text) : HasCreate (Text.trim text) ↔ HasCreate text := by
  constructor
  · rintro ⟨before, blank, c, after, htrim, hblank⟩
    obtain ⟨left, right, _, _, htext⟩ := Text.exists_eq_append_trim text
    refine ⟨left ++ before, blank, c, after ++ right, ?_, hblank⟩
    rw [htext, htrim]
    simp only [List.append_assoc, List.cons_append]
  · rintro ⟨before, blank, c, after, rfl, hne, hblank, hword⟩
    have hfront : Text.trimStart (before ++ (Lint.createWord ++ (blank ++ c :: after))) =
        Text.trimStart before ++ (Lint.createWord ++ (blank ++ c :: after)) :=
      Text.trimStart_append_cons (by decide) before _
    have hback := Text.trimEnd_append_cons (isBlank_of_isWordChar hword)
      (Text.trimStart before ++ (Lint.createWord ++ blank)) after
    simp only [List.append_assoc] at hback
    exact ⟨Text.trimStart before, blank, c, Text.trimEnd after, by rw [Text.trim, hfront, hback],
      hne, hblank, hword⟩

/-- The line is neither blank nor a comment, and it has a `Create` with a word behind it, but no
brace at its end. -/
structure LacksBrace (line : Text) : Prop where
  not_blank : ¬ line.all isBlank
  not_comment : ¬ ['/', '/'] <+: Text.trimStart line
  hasCreate : HasCreate line
  no_brace : (Text.trim line).getLast? ≠ some '{'

namespace Lint

theorem pairwise_code_checkLine (start : Nat) (raw : Text) :
    (checkLine start raw).Pairwise fun first second =>
      first.diagnostic.code ≠ second.diagnostic.code := by
  rw [checkLine_eq, checkTrimmed]
  split_ifs <;> simp [Finding.diagnostic, Diagnostic.withCode, Diagnostic.withPrimary]

theorem exists_createWithoutBrace_iff (start : Nat) (raw : Text) :
    (∃ finding ∈ checkLine start raw, finding.diagnostic.code = some .createWithoutBrace) ↔
      LacksBrace raw := by
  constructor
  · rintro ⟨finding, hfound, hcode⟩
    have hcomment : ¬ ['/', '/'] <+: Text.trimStart raw := by
      intro hopens
      rw [checkLine_of_isCommentLine (List.isPrefixOf_iff_prefix.mpr hopens)] at hfound
      cases hfound
    rw [checkLine_eq, checkTrimmed] at hfound
    simp only [List.mem_ite_nil_left, List.mem_append, List.mem_ite_nil_right,
      List.mem_singleton, not_or] at hfound
    obtain ⟨⟨hne, _⟩, (⟨⟨hcreate, hbrace⟩, _⟩ | ⟨_, rfl⟩) | ⟨_, rfl⟩⟩ := hfound
    · rw [hasCreateCommand_iff, hasCreate_trim_iff] at hcreate
      exact ⟨(Text.trim_eq_nil_iff raw).not.mp hne, hcomment, hcreate, hbrace⟩
    · cases hcode
    · cases hcode
  · rintro ⟨hblank, hcomment, hcreate, hbrace⟩
    have hkept : ¬ (Text.trim raw = [] ∨ ['/', '/'].isPrefixOf (Text.trim raw)) := by
      rw [Text.trim_eq_nil_iff, List.isPrefixOf_iff_prefix, not_or]
      exact ⟨hblank, fun hopens => hcomment (hopens.trans (Text.trim_prefix raw))⟩
    have hcommand : hasCreateCommand (Text.trim raw) :=
      (hasCreateCommand_iff _).mpr ((hasCreate_trim_iff raw).mpr hcreate)
    rw [checkLine_eq, checkTrimmed, if_neg hkept, if_pos ⟨hcommand, hbrace⟩]
    exact ⟨_, List.mem_append_left _ (List.mem_append_left _ (List.mem_singleton_self _)), rfl⟩

end Lint

/-! ## The warnings of a source -/

section Source

variable {source : Text}

/-- A warning is what is found on one of the lines, and its line number is that of the line. -/
theorem mem_lint_iff {warning : Diagnostic} :
    warning ∈ lint source ↔
      ∃ (i : Nat) (line : Spanned Text), (linesFrom 0 source)[i]? = some line ∧
        ∃ finding ∈ Lint.checkLine line.span.start line.value,
          warning = finding.diagnostic.locate (.ofSource source) := by
  rw [lint, List.mem_map, Lint.findings_eq_flatMap]
  constructor
  · rintro ⟨finding, hfinding, rfl⟩
    obtain ⟨line, hline, hfound⟩ := List.mem_flatMap.mp hfinding
    obtain ⟨i, hi⟩ := List.mem_iff_getElem?.mp hline
    exact ⟨i, line, hi, finding, hfound, rfl⟩
  · rintro ⟨i, line, hline, finding, hfound, rfl⟩
    exact ⟨finding, List.mem_flatMap.mpr ⟨line, List.mem_of_getElem? hline, hfound⟩, rfl⟩

theorem line_of_mem_checkLine {i : Nat} {line : Spanned Text}
    (hline : (linesFrom 0 source)[i]? = some line) {finding : Finding}
    (hfound : finding ∈ Lint.checkLine line.span.start line.value) :
    (finding.diagnostic.locate (.ofSource source)).position.line = i + 1 :=
  (Lint.marks_of_mem_checkLine hfound).line_locate (isLine_of_getElem? hline)

theorem exists_warning_iff {i : Nat} {line : Spanned Text}
    (hline : (linesFrom 0 source)[i]? = some line) (code : Code) :
    (∃ warning ∈ lint source, warning.position.line = i + 1 ∧ warning.code = some code) ↔
      ∃ finding ∈ Lint.checkLine line.span.start line.value,
        finding.diagnostic.code = some code := by
  constructor
  · rintro ⟨warning, hwarning, hnumber, hcode⟩
    obtain ⟨j, other, hother, finding, hfound, rfl⟩ := mem_lint_iff.mp hwarning
    -- The line number tells on which line the warning was found.
    obtain rfl : j = i := Nat.succ.inj ((line_of_mem_checkLine hother hfound).symm.trans hnumber)
    obtain rfl := Option.some.inj (hother.symm.trans hline)
    exact ⟨finding, hfound, hcode⟩
  · rintro ⟨finding, hfound, hcode⟩
    exact ⟨_, mem_lint_iff.mpr ⟨i, line, hline, finding, hfound, rfl⟩,
      line_of_mem_checkLine hline hfound, hcode⟩

/-- Warnings stand in the order of the lines, and those of one line have different codes. -/
theorem pairwise_lint (source : Text) :
    (lint source).Pairwise fun first second =>
      first.position.line < second.position.line ∨
        first.position.line = second.position.line ∧ first.code ≠ second.code := by
  rw [lint, List.pairwise_map, Lint.findings_eq_flatMap, List.pairwise_flatMap]
  constructor
  · intro line hmem
    obtain ⟨i, hline⟩ := List.mem_iff_getElem?.mp hmem
    refine (Lint.pairwise_code_checkLine line.span.start line.value).imp_of_mem ?_
    intro first second hfirst hsecond hcode
    exact .inr ⟨(line_of_mem_checkLine hline hfirst).trans
      (line_of_mem_checkLine hline hsecond).symm, hcode⟩
  · rw [List.pairwise_iff_getElem]
    intro i j hi hj hlt first hfirst second hsecond
    rw [line_of_mem_checkLine (List.getElem?_eq_getElem hi) hfirst,
      line_of_mem_checkLine (List.getElem?_eq_getElem hj) hsecond]
    exact .inl (Nat.succ_lt_succ hlt)

end Source

/-- Every warning sits on the line that caused it. The line numbers never decrease, and no line has
two warnings with one code. The line with the number of a warning stands in the source, and the
warning marks text of it: the whole trimmed line, with the column behind the leading white space, or
the last character of the trimmed line. A line lacks a brace in the sense of the first rule exactly
if it has a warning with that code. -/
theorem warnings_sit_on_lines (source : Text) :
    (lint source).Pairwise (fun first second =>
      first.position.line < second.position.line ∨
        first.position.line = second.position.line ∧ first.code ≠ second.code) ∧
    (∀ warning ∈ lint source, ∃ line,
      (linesFrom 0 source)[warning.position.line - 1]? = some line ∧
        line.StandsIn source ∧ line.trim.StandsIn source ∧ warning.SitsOn line) ∧
    ∀ i line, (linesFrom 0 source)[i]? = some line →
      ((∃ warning ∈ lint source, warning.position.line = i + 1 ∧
        warning.code = some .createWithoutBrace) ↔ LacksBrace line.value) := by
  refine ⟨pairwise_lint source, ?_, ?_⟩
  · intro warning hwarning
    obtain ⟨i, line, hline, finding, hfound, rfl⟩ := mem_lint_iff.mp hwarning
    have hstands := standsIn_of_mem_linesFrom (List.mem_of_getElem? hline)
    refine ⟨line, ?_, hstands, hstands.trim, ?_⟩
    · rw [line_of_mem_checkLine hline hfound]
      exact hline
    · exact (Lint.marks_of_mem_checkLine hfound).sitsOn_locate (isLine_of_getElem? hline)
  · intro i line hline
    rw [exists_warning_iff hline, Lint.exists_createWithoutBrace_iff]

end SceneScript
