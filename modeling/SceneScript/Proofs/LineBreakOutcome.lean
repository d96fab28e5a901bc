import SceneScript.Proofs.LineBreakFaults
import SceneScript.Proofs.LintLines

/-! # Line breaks have no say in the outcome

A source whose lines end with a carriage return and a newline has the document of the source whose
lines end with a newline, or the same rule is broken at the same line and column. The lint trims
each line, so it gives the same warnings.
-/

namespace SceneScript

/-! ## Labels -/

/-- The label, at the place where carriage returns move it. -/
def Label.crlf (source : Text) (label : Label) : Label :=
  { label with span := label.span.crlf source }

/-- A diagnostic whose labels are moved has the same line and column. -/
theorem Diagnostic.position_crlf {source : Text} {diagnostic moved : Diagnostic}
    (hlabels : moved.labels = diagnostic.labels.map (Label.crlf source))
    (hcuts : ∀ label ∈ diagnostic.labels, source.Cuts label.span.start label.span.stop) :
    (moved.locate (.ofSource (Text.crlf source))).position =
      (diagnostic.locate (.ofSource source)).position := by
  have hprimary : moved.labels.find? (·.isPrimary) =
      (diagnostic.labels.find? (·.isPrimary)).map (Label.crlf source) := by
    rw [hlabels, List.find?_map]
    rfl
  rw [locate, locate, primarySpan?, primarySpan?, hprimary]
  cases hfound : diagnostic.labels.find? (·.isPrimary) with
  | none =>
      have hzero := LineTable.position_crlf source.isCut_zero
      rwa [Text.crlfOffset_zero] at hzero
  | some label =>
      exact LineTable.position_crlf (hcuts label (List.mem_of_find?_eq_some hfound)).start_isCut

namespace Violation

theorem labels_crlf (source : Text) (violation : Violation) :
    (violation.crlf source).labels = violation.labels.map (Label.crlf source) := by
  have hzero : Span.crlf source (.emptyAt 0) = .emptyAt 0 := by
    simp only [Span.crlf, Span.emptyAt, Text.crlfOffset_zero]
  cases violation with
  | missingList | noShapes =>
      rw [crlf, labels, List.map_singleton, Label.crlf, hzero]
  | _ => rfl

theorem code_crlf (source : Text) (violation : Violation) :
    (violation.crlf source).code = violation.code := by
  cases violation <;> rfl

end Violation

/-! ## Warnings -/

/-- The finding, at the place where carriage returns move it. -/
def Finding.crlf (source : Text) : Finding → Finding
  | createWithoutBrace last => createWithoutBrace (last.crlf source)
  | styleWithoutBrace last => styleWithoutBrace (last.crlf source)
  | unknownInstruction line => unknownInstruction (line.relocate (Span.crlf source))

theorem Finding.crlf_eq_relocate (source : Text) (finding : Finding) :
    finding.crlf source = finding.relocate (Span.crlf source) := by
  cases finding <;> rfl

theorem Finding.labels_crlf (source : Text) (finding : Finding) :
    (finding.crlf source).diagnostic.labels =
      finding.diagnostic.labels.map (Label.crlf source) := by
  cases finding <;> rfl

theorem Finding.code_message_crlf (source : Text) (finding : Finding) :
    (finding.crlf source).diagnostic.code = finding.diagnostic.code ∧
      (finding.crlf source).diagnostic.message = finding.diagnostic.message := by
  cases finding <;> exact ⟨rfl, rfl⟩

namespace Lint

/-- White space at the end of a line makes no difference to what is found on it. -/
theorem checkLine_append_blank {gap : Text} (hgap : gap.all isBlank) (start : Nat) (raw : Text) :
    checkLine start (raw ++ gap) = checkLine start raw := by
  rw [checkLine_eq, checkLine_eq, Text.trim_append hgap]
  by_cases hempty : Text.trim raw = []
  · rw [hempty]
    rfl
  · rw [Text.leadingBlank_append hempty]

theorem checkTrimmed_crlf {source line : Text} {offset moved : Nat}
    (hline : .ofText moved line = Span.crlf source (.ofText offset line))
    (hlast : lastCharacter line moved = Span.crlf source (lastCharacter line offset)) :
    checkTrimmed moved line = (checkTrimmed offset line).map (Finding.crlf source) := by
  rw [checkTrimmed_relocate hline hlast]
  exact List.map_congr_left fun finding _ => (finding.crlf_eq_relocate source).symm

/-- A line behind a front is moved by the number of earlier lines. -/
theorem checkLine_crlf {line : Text} (h : '\n' ∉ line) (front back : Text) :
    checkLine (Text.byteLength (Text.crlf front)) line =
      (checkLine (Text.byteLength front) line).map (Finding.crlf (front ++ (line ++ back))) := by
  have htrim := byteLength_trim_le line
  have hsize := size_getLast?_le (Text.trim line)
  rw [checkLine_eq, checkLine_eq, Text.byteLength_crlf]
  apply checkTrimmed_crlf
  · rw [Span.crlf_eq_shift h front back (Nat.le_add_right _ _)
      (by simp only [Span.ofText]; omega), Span.shift_ofText]
    congr 1
    omega
  · rw [Span.crlf_eq_shift h front back (by simp only [lastCharacter]; omega)
      (by simp only [lastCharacter]; omega)]
    simp only [lastCharacter, Span.shift, Span.mk.injEq]
    omega

theorem checkLines_crlf (front text : Text) :
    checkLines (Text.byteLength (Text.crlf front)) (Text.splitAt '\n' (Text.crlf text)) =
      (checkLines (Text.byteLength front) (Text.splitAt '\n' text)).map
        (Finding.crlf (front ++ text)) := by
  induction text using Text.line_induction generalizing front with
  | last line hline =>
      have hfound := checkLine_crlf hline front []
      rw [List.append_nil] at hfound
      rw [Text.crlf_of_not_mem hline, Text.splitAt_of_not_mem hline, checkLines, checkLines,
        checkLines, checkLines, List.append_nil, List.append_nil, hfound]
  | line line rest hline ih =>
      have hreturn := not_mem_append_return hline
      have hfound := checkLine_crlf hline front ('\n' :: rest)
      have hrest := ih (front ++ (line ++ ['\n']))
      rw [Text.byteLength_append_line, Text.byteLength_crlf_append_line hline, List.append_assoc,
        List.append_assoc, List.singleton_append] at hrest
      rw [Text.crlf_line hline, List.append_cons line '\r', Text.splitAt_append_cons hreturn,
        Text.splitAt_append_cons hline, checkLines, checkLines, checkLine_append_blank rfl, hfound,
        hrest, List.map_append]

end Lint

theorem findings_crlf (source : Text) :
    Lint.findings (Text.crlf source) = (Lint.findings source).map (Finding.crlf source) :=
  Lint.checkLines_crlf [] source

/-! ## The outcome -/

/-- The rule that is broken, and where. -/
def Diagnostic.reason (diagnostic : Diagnostic) : Option Code × Position :=
  (diagnostic.code, diagnostic.position)

/-- What a warning says, and where. -/
def Diagnostic.remark (diagnostic : Diagnostic) : Option Code × String × Position :=
  (diagnostic.code, diagnostic.message, diagnostic.position)

theorem mapError_parse_crlf (source : Text) (fileName : Option Text) :
    (parse (Text.crlf source) fileName).mapError Diagnostic.reason =
      ((parse source fileName).map (Document.mapContent Text.crlf)).mapError
        Diagnostic.reason := by
  have hbuild := build_crlf source fileName
  unfold parse
  cases hsource : build source fileName with
  | ok document =>
      rw [hsource] at hbuild
      rw [hbuild]
      rfl
  | error violation =>
      have hfirst := ((build_reports source fileName).eq_error_iff violation).mp hsource
      have hstands := standsIn_of_mem_faults (@standsIn_of_mem_declarations source) fileName
        violation (List.mem_of_head? hfirst)
      have hposition := @Diagnostic.position_crlf source violation.diagnostic
        (violation.crlf source).diagnostic (violation.labels_crlf source)
        (Violation.cuts_of_mem_labels hstands)
      rw [hsource] at hbuild
      rw [hbuild]
      exact congrArg Except.error
        (Prod.ext (congrArg some (violation.code_crlf source)) hposition)

theorem map_remark_lint_crlf (source : Text) :
    (lint (Text.crlf source)).map Diagnostic.remark = (lint source).map Diagnostic.remark := by
  unfold lint
  rw [findings_crlf, List.map_map, List.map_map, List.map_map]
  apply List.map_congr_left
  intro finding hmem
  have hwarning : finding.diagnostic.locate (.ofSource source) ∈ lint source :=
    List.mem_map_of_mem hmem
  have hposition := Diagnostic.position_crlf (finding.labels_crlf source)
    (anchored_of_mem_lint hwarning).cuts
  obtain ⟨hcode, hmessage⟩ := finding.code_message_crlf source
  exact Prod.ext hcode (Prod.ext hmessage hposition)

/-- How lines end has no say in the outcome. With a carriage return in front of every newline, a
source has the document that it has without them, where the line breaks inside of quoted texts and
of style entries have one too; taking them out again gives the document of the source. Where there
is no document, the same rule is broken at the same line and column. The warnings of the lint are
the same, at the same lines and columns. -/
theorem line_breaks_agree (source : Text) :
    (∀ fileName,
      (parse (Text.crlf source) fileName).mapError Diagnostic.reason =
          ((parse source fileName).map (Document.mapContent Text.crlf)).mapError
            Diagnostic.reason ∧
        ((parse (Text.crlf source) fileName).map (Document.mapContent Text.lf)).mapError
            Diagnostic.reason =
          (parse source fileName).mapError Diagnostic.reason) ∧
      (lint (Text.crlf source)).map Diagnostic.remark = (lint source).map Diagnostic.remark := by
  refine ⟨fun fileName => ?_, map_remark_lint_crlf source⟩
  have hparse := mapError_parse_crlf source fileName
  refine ⟨hparse, ?_⟩
  calc
    ((parse (Text.crlf source) fileName).map (Document.mapContent Text.lf)).mapError
        Diagnostic.reason
    _ = ((parse (Text.crlf source) fileName).mapError Diagnostic.reason).map
          (Document.mapContent Text.lf) := by
      cases parse (Text.crlf source) fileName <;> rfl
    _ = (((parse source fileName).map (Document.mapContent Text.crlf)).mapError
          Diagnostic.reason).map (Document.mapContent Text.lf) := by
      rw [hparse]
    _ = (parse source fileName).mapError Diagnostic.reason := by
      cases parse source fileName with
      | error diagnostic => rfl
      | ok document =>
          exact congrArg Except.ok (Document.mapContent_leftInverse Text.lf_crlf document)

end SceneScript
