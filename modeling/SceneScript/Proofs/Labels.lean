import SceneScript.Proofs.CommentLines
import SceneScript.Proofs.FirstFault
import SceneScript.Proofs.Places
import SceneScript.Proofs.Positions

/-! # Where diagnostics point

A violation keeps the header or the text that breaks a rule, and both stand in the source. So every
label marks text of the source, and the position of a diagnostic counts up to its primary label.
-/

namespace SceneScript

/-! ## What a violation keeps -/

/-- The header of the declaration stands in the source, and so do its parameters. -/
def Declaration.StandsIn (source : Text) : Declaration → Prop
  | .list header => MarksHeader source header.span
  | .shape candidate =>
    MarksHeader source candidate.header.span ∧ candidate.header.params.StandsIn source

/-- The headers and the text that the violation keeps stand in the source. -/
def Violation.StandsIn (source : Text) : Violation → Prop
  | .missingList | .noShapes => True
  | .missingStyle header | .missingName header | .reservedName header _ | .lowercaseName header _ =>
    MarksHeader source header.span
  | .lowercaseList header | .fileNameMismatch header _ => MarksHeader source header.span
  | .duplicateList header first => MarksHeader source header.span ∧ MarksHeader source first.span
  | .duplicateName header _ first => MarksHeader source header.span ∧ MarksHeader source first
  | .malformedParameter piece => piece.StandsIn source
  | .invalidKey key => key.StandsIn source
  | .invalidValue key value => Text.isIdentifier key ∧ value.StandsIn source

section Faults

variable {source : Text}

theorem MarksHeader.cuts {span : Span} (h : MarksHeader source span) :
    source.Cuts span.start span.stop := by
  obtain ⟨text, hstands, _, _⟩ := h
  exact hstands.cuts

theorem standsIn_of_mem_declarations :
    ∀ declaration ∈ declarations source, declaration.StandsIn source := by
  apply forall_mem_declarationsFrom
  · intro consumed header form hpart
    exact (Header.Form.list form).marksHeader hpart
  · intro consumed header block form hpart
    exact ⟨(Header.Form.shape form).marksHeader hpart, form.params_standsIn hpart⟩

theorem ListHeader.standsIn_of_mem_faults {header : ListHeader}
    (h : MarksHeader source header.span) (fileName : Option Text) :
    ∀ violation ∈ header.faults fileName, violation.StandsIn source := by
  intro violation hmem
  unfold faults at hmem
  rcases List.mem_append.mp hmem with hmem | hmem
  · obtain ⟨_, rfl⟩ := List.mem_ite_nil_left.mp hmem |>.imp_right List.mem_singleton.mp
    exact h
  · cases fileName with
    | none => cases hmem
    | some fileName =>
        obtain ⟨_, rfl⟩ := List.mem_ite_nil_left.mp hmem |>.imp_right List.mem_singleton.mp
        exact h

/-- A bad piece is marked as a whole, or at its key or its value. -/
theorem Piece.standsIn_of_read {params : Spanned Text} (h : params.StandsIn source) {piece : Piece}
    (hfits : piece.Fits params.value) {violation : Violation}
    (hread : piece.read params.value params.span.start = .error violation) :
    violation.StandsIn source := by
  have hwhole := (trimmed_standsIn hfits.whole).shift h
  simp only [read] at hread
  split at hread
  next => cases hread
  next =>
    split at hread
    next =>
      obtain rfl := Except.error.inj hread
      exact hwhole
    next colon hcolon =>
      have hkey := (trimmed_standsIn (hfits.key colon hcolon)).shift h
      have hvalue := (trimmed_standsIn (hfits.value colon hcolon)).shift h
      split at hread
      next =>
        obtain rfl := Except.error.inj hread
        exact hwhole
      next =>
        split at hread
        next =>
          obtain rfl := Except.error.inj hread
          exact hkey
        next hidentifier =>
          split at hread
          next => cases hread
          next =>
            obtain rfl := Except.error.inj hread
            exact ⟨by simpa using hidentifier, hvalue⟩

namespace Candidate

variable {candidate : Candidate} {earlier : List Candidate}

theorem standsIn_of_mem_nameFaults (h : MarksHeader source candidate.header.span)
    (hearlier : ∀ other ∈ earlier, MarksHeader source other.header.span) :
    ∀ violation ∈ candidate.nameFaults earlier, violation.StandsIn source := by
  intro violation hmem
  unfold nameFaults at hmem
  split at hmem
  next =>
    obtain rfl := List.mem_singleton.mp hmem
    exact h
  next name _ =>
    simp only [List.mem_append, List.mem_ite_nil_left, List.mem_ite_nil_right, List.mem_singleton,
      Option.mem_toList, Option.map_eq_some_iff] at hmem
    rcases hmem with ⟨_, rfl⟩ | ⟨_, rfl⟩ | ⟨other, hother, rfl⟩
    · exact h
    · exact h
    · exact ⟨h, hearlier other (List.mem_of_find?_eq_some hother)⟩

theorem standsIn_of_mem_parameterFaults (h : candidate.header.params.StandsIn source) :
    ∀ violation ∈ candidate.parameterFaults, violation.StandsIn source := by
  intro violation hmem
  obtain ⟨piece, hpiece, hfault⟩ := List.mem_filterMap.mp hmem
  unfold Piece.fault? at hfault
  split at hfault
  next other hread =>
    obtain rfl := Option.some.inj hfault
    exact Piece.standsIn_of_read h (Piece.fits_of_mem_all hpiece) hread
  next => cases hfault

theorem standsIn_of_mem_faults (h : (Declaration.shape candidate).StandsIn source)
    (hearlier : ∀ other ∈ earlier, MarksHeader source other.header.span) :
    ∀ violation ∈ candidate.faults earlier, violation.StandsIn source := by
  intro violation hmem
  rw [faults, List.mem_append, List.mem_append] at hmem
  rcases hmem with hmem | hmem | hmem
  · exact standsIn_of_mem_nameFaults h.1 hearlier violation hmem
  · exact standsIn_of_mem_parameterFaults h.2 violation hmem
  · obtain ⟨_, rfl⟩ := List.mem_ite_nil_left.mp hmem |>.imp_right List.mem_singleton.mp
    exact h.1

end Candidate

theorem standsIn_of_mem_faultsAfter {first : ListHeader} (hfirst : MarksHeader source first.span)
    {earlier : List Candidate} (hearlier : ∀ other ∈ earlier, MarksHeader source other.header.span)
    {found : List Declaration} (h : ∀ declaration ∈ found, declaration.StandsIn source) :
    ∀ violation ∈ faultsAfter first earlier found, violation.StandsIn source := by
  induction found generalizing earlier with
  | nil => simp [faultsAfter]
  | cons declaration rest ih =>
      obtain ⟨hdeclaration, hrest⟩ := List.forall_mem_cons.mp h
      cases declaration with
      | list header =>
          rw [faultsAfter, List.forall_mem_cons]
          exact ⟨⟨hdeclaration, hfirst⟩, ih hearlier hrest⟩
      | shape candidate =>
          have hnext : ∀ other ∈ earlier ++ [candidate], MarksHeader source other.header.span :=
            List.forall_mem_append.mpr ⟨hearlier, by simpa using hdeclaration.1⟩
          rw [faultsAfter, List.forall_mem_append]
          exact ⟨Candidate.standsIn_of_mem_faults hdeclaration hearlier, ih hnext hrest⟩

/-- Whatever is wrong with declarations that stand in the source stands there too. -/
theorem standsIn_of_mem_faults {found : List Declaration}
    (h : ∀ declaration ∈ found, declaration.StandsIn source) (fileName : Option Text) :
    ∀ violation ∈ faults fileName found, violation.StandsIn source := by
  unfold faults
  split
  next => simp [Violation.StandsIn]
  next first more hlists =>
    have hfirst : MarksHeader source first.span := by
      obtain ⟨declaration, hmem, hlist⟩ :=
        List.mem_filterMap.mp (hlists ▸ List.mem_cons_self : first ∈ listHeaders found)
      cases declaration with
      | list header => exact Option.some.inj hlist ▸ h _ hmem
      | shape candidate => cases hlist
    rw [List.forall_mem_append, List.forall_mem_append]
    refine ⟨ListHeader.standsIn_of_mem_faults hfirst fileName, ?_, ?_⟩
    · exact standsIn_of_mem_faultsAfter hfirst (by simp)
        fun declaration hmem => h declaration (List.mem_of_mem_eraseP hmem)
    · split <;> simp [Violation.StandsIn]

end Faults

/-! ## Diagnostics -/

namespace Diagnostic

/-- All labels lie in the source, the first one is the only primary one, and the position counts the
lines and characters in front of it. -/
structure Anchored (source : Text) (diagnostic : Diagnostic) : Prop where
  cuts : ∀ label ∈ diagnostic.labels, source.Cuts label.span.start label.span.stop
  one_primary : ∃ primary others, diagnostic.labels = primary :: others ∧ primary.isPrimary ∧
    ∀ other ∈ others, ¬ other.isPrimary
  position : ∃ primary ∈ diagnostic.labels.head?, ∃ front back, source = front ++ back ∧
    primary.span.start = Text.byteLength front ∧ diagnostic.position = .after front

/-- What the primary label of an error marks, by the code: a header, the place behind the header
that lacks a style block, or the text that the message quotes. -/
def MarksText (source : Text) (diagnostic : Diagnostic) : Prop :=
  ∃ primary others, diagnostic.labels = primary :: others ∧
    match diagnostic.code with
    | some .duplicateList | some .lowercaseList | some .fileNameMismatch | some .missingName
    | some .reservedName | some .lowercaseName | some .duplicateName =>
      MarksHeader source primary.span
    | some .missingStyle =>
      ∃ header, others = [header] ∧ MarksHeader source header.span ∧
        primary.span = .emptyAt header.span.stop
    | some .malformedParameter =>
      ∃ text, (⟨text, primary.span⟩ : Spanned Text).StandsIn source ∧
        (diagnostic.message =
            "invalid parameter '" ++ String.ofList text ++ "', expected 'key:value'" ∨
          diagnostic.message = "invalid parameter name '" ++ String.ofList text ++ "'")
    | some .invalidValue =>
      ∃ key text, Text.isIdentifier key ∧
        (⟨text, primary.span⟩ : Spanned Text).StandsIn source ∧
          diagnostic.message = "invalid value for parameter '" ++ String.ofList key ++ "': '" ++
            String.ofList text ++ "'"
    | _ => True

/-- Locating a diagnostic anchors it, if its labels lie in the source and start with the only
primary one. -/
theorem locate_anchored {source : Text} {diagnostic : Diagnostic} {primary : Label}
    {others : List Label} (hlabels : diagnostic.labels = primary :: others)
    (hprimary : primary.isPrimary) (hothers : ∀ other ∈ others, ¬ other.isPrimary)
    (hcuts : ∀ label ∈ diagnostic.labels, source.Cuts label.span.start label.span.stop) :
    (diagnostic.locate (.ofSource source)).Anchored source := by
  obtain ⟨front, back, hsource, hstart⟩ :=
    (hcuts primary (hlabels ▸ List.mem_cons_self)).start_isCut
  have hspan : diagnostic.primarySpan? = some primary.span := by
    rw [primarySpan?, hlabels, List.find?_cons_of_pos hprimary, Option.map_some]
  refine ⟨hcuts, ⟨primary, others, hlabels, hprimary, hothers⟩, primary, ?_, front, back, hsource,
    hstart, ?_⟩
  · rw [locate, hlabels]
    rfl
  · rw [locate, hspan, Option.map_some, Option.getD_some, hstart, hsource,
      LineTable.position_byteLength]

end Diagnostic

namespace Violation

theorem exists_labels (violation : Violation) :
    ∃ primary others, violation.labels = primary :: others ∧ primary.isPrimary ∧
      ∀ other ∈ others, ¬ other.isPrimary := by
  cases violation <;> exact ⟨_, _, rfl, rfl, by simp⟩

variable {source : Text} {violation : Violation}

theorem cuts_of_mem_labels (h : violation.StandsIn source) :
    ∀ label ∈ violation.labels, source.Cuts label.span.start label.span.stop := by
  have hzero : source.Cuts 0 0 := ⟨source.isCut_zero, source.isCut_zero, Nat.le_refl 0⟩
  cases violation with
  | missingList | noShapes => simpa [labels, Span.emptyAt] using hzero
  | missingStyle header =>
      have hstop := h.cuts.stop_isCut
      simpa [labels, Span.emptyAt] using ⟨⟨hstop, hstop, Nat.le_refl _⟩, h.cuts⟩
  | duplicateList header first => simpa [labels] using ⟨h.1.cuts, h.2.cuts⟩
  | duplicateName header name first => simpa [labels] using ⟨h.1.cuts, h.2.cuts⟩
  | invalidValue key value => simpa [labels] using h.2.cuts
  | _ => simpa [labels] using h.cuts

theorem located_anchored (h : violation.StandsIn source) :
    (violation.diagnostic.locate (.ofSource source)).Anchored source := by
  obtain ⟨primary, others, hlabels, hprimary, hothers⟩ := violation.exists_labels
  exact Diagnostic.locate_anchored hlabels hprimary hothers (cuts_of_mem_labels h)

theorem located_marksText (h : violation.StandsIn source) :
    (violation.diagnostic.locate (.ofSource source)).MarksText source := by
  cases violation with
  | missingList | noShapes => exact ⟨_, _, rfl, trivial⟩
  | missingStyle header => exact ⟨_, _, rfl, _, rfl, h, rfl⟩
  | duplicateList header first => exact ⟨_, _, rfl, h.1⟩
  | duplicateName header name first => exact ⟨_, _, rfl, h.1⟩
  | malformedParameter piece => exact ⟨_, _, rfl, piece.value, h, .inl rfl⟩
  | invalidKey key => exact ⟨_, _, rfl, key.value, h, .inr rfl⟩
  | invalidValue key value => exact ⟨_, _, rfl, key, value.value, h.1, h.2, rfl⟩
  | _ => exact ⟨_, _, rfl, h⟩

end Violation

/-- An error is about a violation whose headers and texts stand in the source. -/
theorem exists_standsIn_of_parse_eq_error {source : Text} {fileName : Option Text}
    {diagnostic : Diagnostic} (h : parse source fileName = .error diagnostic) :
    ∃ violation : Violation, violation.StandsIn source ∧
      diagnostic = violation.diagnostic.locate (.ofSource source) := by
  obtain ⟨violation, hfirst, hlocated⟩ := exists_fault_of_parse_eq_error h
  exact ⟨violation, standsIn_of_mem_faults standsIn_of_mem_declarations fileName violation
    (List.mem_of_head? hfirst), hlocated⟩

theorem anchored_of_parse_eq_error {source : Text} {fileName : Option Text}
    {diagnostic : Diagnostic} (h : parse source fileName = .error diagnostic) :
    diagnostic.Anchored source := by
  obtain ⟨violation, hstands, rfl⟩ := exists_standsIn_of_parse_eq_error h
  exact violation.located_anchored hstands

/-! ## Warnings -/

section Lines

variable {source : Text}

theorem standsIn_of_mem_placeLines {front : Text} {lines : List Text}
    (hsource : source = front ++ Text.join '\n' lines) {line : Spanned Text}
    (h : line ∈ placeLines (Text.byteLength front) lines) : line.StandsIn source := by
  induction lines generalizing front with
  | nil => cases h
  | cons first rest ih =>
      rcases List.mem_cons.mp h with rfl | hlater
      · cases rest with
        | nil => exact ⟨front, [], by rw [hsource, Text.join, List.append_nil], rfl⟩
        | cons next more => exact ⟨front, _, hsource, rfl⟩
      · cases rest with
        | nil => cases hlater
        | cons next more =>
            refine @ih (front ++ (first ++ ['\n'])) ?_ ?_
            · rw [hsource, Text.join]
              simp only [List.append_assoc, List.singleton_append]
            · rw [Text.byteLength_append, Text.byteLength_append, ← Nat.add_assoc]
              exact hlater

theorem standsIn_of_mem_linesFrom {line : Spanned Text} (h : line ∈ linesFrom 0 source) :
    line.StandsIn source :=
  @standsIn_of_mem_placeLines source [] (Text.splitAt '\n' source)
    (Text.join_splitAt '\n' source).symm line h

namespace Lint

theorem lastCharacter_cuts {line : Text} {offset : Nat}
    (h : (⟨line, .ofText offset line⟩ : Spanned Text).StandsIn source) :
    source.Cuts (lastCharacter line offset).start (lastCharacter line offset).stop := by
  refine ⟨?_, h.cuts.stop_isCut, (lastCharacter line offset).start_le_stop⟩
  obtain ⟨before, after, hsource, hspan⟩ := h
  have hoffset : offset = Text.byteLength before := congrArg Span.start hspan
  rcases List.eq_nil_or_concat line with rfl | ⟨front, last, rfl⟩
  · exact ⟨before, after, hsource, hoffset⟩
  · refine ⟨before ++ front, last :: after, ?_, ?_⟩
    · rw [hsource]
      simp
    · simp only [lastCharacter, List.concat_eq_append, List.getLast?_append, Text.byteLength_append]
      simp [hoffset]
      omega

/-- What is found on a line marks text of that line. -/
theorem located_anchored_of_mem_checkLine {line : Spanned Text} (h : line.StandsIn source)
    {finding : Finding} (hfound : finding ∈ checkLine line.span.start line.value) :
    (finding.diagnostic.locate (.ofSource source)).Anchored source := by
  have htrim : (⟨Text.trim line.value, .ofText (line.span.start + Text.leadingBlank line.value)
      (Text.trim line.value)⟩ : Spanned Text).StandsIn source := by
    rw [← Span.shift_ofText]
    exact (Text.placedTrim_standsIn line.value).shift h
  have hlast := lastCharacter_cuts htrim
  simp only [checkLine, List.mem_ite_nil_left, List.mem_append, List.mem_ite_nil_right,
    List.mem_singleton] at hfound
  rcases hfound with ⟨_, (⟨_, rfl⟩ | ⟨_, rfl⟩) | ⟨_, rfl⟩⟩
  · exact Diagnostic.locate_anchored rfl rfl (by simp) (List.forall_mem_singleton.mpr hlast)
  · exact Diagnostic.locate_anchored rfl rfl (by simp) (List.forall_mem_singleton.mpr hlast)
  · exact Diagnostic.locate_anchored rfl rfl (by simp) (List.forall_mem_singleton.mpr htrim.cuts)

end Lint

theorem anchored_of_mem_lint {warning : Diagnostic} (h : warning ∈ lint source) :
    warning.Anchored source := by
  obtain ⟨finding, hfinding, rfl⟩ := List.mem_map.mp h
  obtain ⟨line, hline, hfound⟩ := Lint.exists_line_of_mem_checkLines hfinding
  exact Lint.located_anchored_of_mem_checkLine (standsIn_of_mem_linesFrom hline) hfound

end Lines

/-! ## Every cut and every label -/

section Slices

variable {source : Text} {steps : List ScanStep}

theorem exists_form_of_scanned {answer : ScanAnswer} {construct : Construct}
    (h : answer ∈ scan source steps) (hfound : answer.found? = some construct) :
    ∃ consumed, construct.Form source consumed ∧ consumed <:+: significantTokens source := by
  obtain ⟨skipped, consumed, rest, form, htokens⟩ :=
    exists_form_of_mem_scan (List.mem_filterMap.mpr ⟨answer, h, hfound⟩)
  exact ⟨consumed, form, skipped, rest, by rw [htokens, List.append_assoc]⟩

/-- The column of a position is counted over a piece of one line. -/
theorem LineTable.cuts_lineStart (source : Text) (offset : Nat) :
    source.Cuts ((ofSource source).lineStart (Text.floorOffset source offset))
      (Text.floorOffset source offset) := by
  have hsource := Text.takeBytes_append_dropBytes offset source
  have hline := Text.earlierLines_append_lastLine (Text.takeBytes offset source)
  have hstart := lineStart_ofSource (Text.takeBytes offset source) (Text.dropBytes offset source)
  rw [hsource] at hstart
  rw [Text.floorOffset, hstart]
  refine ⟨⟨Text.earlierLines (Text.takeBytes offset source),
    Text.lastLine (Text.takeBytes offset source) ++ Text.dropBytes offset source, ?_, rfl⟩,
    ⟨_, _, hsource.symm, rfl⟩, ?_⟩
  · rw [← List.append_assoc, hline, hsource]
  · have hlength := congrArg Text.byteLength hline
    rw [Text.byteLength_append] at hlength
    omega

end Slices

/-- Every diagnostic points at the right text. The first label is the only primary one, all labels
lie between characters of the source, the position counts lines and characters up to the primary
label, and that label marks what the code of an error says. Every text that is cut out on the way
lies between characters too: the parameters of a header and the pieces of them, the body of a style
block, and the part of a line in front of a position. -/
theorem diagnostics_point_at_text (source : Text) :
    (∀ fileName diagnostic, parse source fileName = .error diagnostic →
      diagnostic.Anchored source ∧ diagnostic.MarksText source) ∧
    (∀ warning ∈ lint source, warning.Anchored source) ∧
    (∀ steps header, .header (some (.shape header)) ∈ scan source steps →
      header.params.StandsIn source ∧
        ∀ piece ∈ Piece.all header.params.value, piece.Fits header.params.value) ∧
    (∀ steps block, .style (some block) ∈ scan source steps → block.body.StandsIn source) ∧
    ∀ offset, source.Cuts
      ((LineTable.ofSource source).lineStart (Text.floorOffset source offset))
      (Text.floorOffset source offset) := by
  refine ⟨?_, fun _ => anchored_of_mem_lint, ?_, ?_, LineTable.cuts_lineStart source⟩
  · intro fileName diagnostic hparse
    obtain ⟨violation, hstands, rfl⟩ := exists_standsIn_of_parse_eq_error hparse
    exact ⟨violation.located_anchored hstands, violation.located_marksText hstands⟩
  · intro steps header hscan
    obtain ⟨consumed, form, hplace⟩ := exists_form_of_scanned hscan rfl
    cases form with
    | shape form => exact ⟨form.params_standsIn hplace, fun _ => Piece.fits_of_mem_all⟩
  · intro steps block hscan
    obtain ⟨consumed, form, hplace⟩ := exists_form_of_scanned hscan rfl
    exact StyleBlock.Form.body_standsIn hplace form

/-- Columns count characters, and labels count bytes. -/
example :
    (match parse "Create List Foo() \x7b\nCreate Square A(x:\n «é»ß ) \x7b".toList none with
      | .error diagnostic => some (diagnostic.primarySpan?, diagnostic.position)
      | .ok _ => none) = some (some ⟨40, 48, by omega⟩, ⟨3, 2, by omega, by omega⟩) := by
  decide +kernel

end SceneScript
