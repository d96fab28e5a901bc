import SceneScript.Proofs.CommentLines
import SceneScript.Proofs.DataModel
import SceneScript.Proofs.ParameterPieces
import SceneScript.Proofs.WrittenStyle

/-! # Style entries, clause by clause

A style body without its comment lines is cut into clauses, and the clauses with text on both sides
of a colon are its entries. Written as clauses again, the entries are read as they were: what is
written holds line breaks and slashes only as they stood in the body, so that no line of it has
become a comment.
-/

namespace SceneScript.Style

/-! ## Clauses -/

/-- The clauses that have an entry yield the entries, in order; the others are passed over. -/
inductive Yields : List Text → List (Text × Text) → Prop where
  | nil : Yields [] []
  | kept {clause : Text} {entry : Text × Text} {clauses : List Text} {entries : List (Text × Text)}
      (head : IsEntryOf clause entry) (tail : Yields clauses entries) :
    Yields (clause :: clauses) (entry :: entries)
  | dropped {clause : Text} {clauses : List Text} {entries : List (Text × Text)}
      (head : ∀ entry, ¬ IsEntryOf clause entry) (tail : Yields clauses entries) :
    Yields (clause :: clauses) entries

theorem yields_filterMap (clauses : List Text) :
    Yields clauses (clauses.filterMap readClause?) := by
  induction clauses with
  | nil => exact .nil
  | cons clause rest ih =>
      rw [List.filterMap_cons]
      cases hread : readClause? clause with
      | none =>
          refine .dropped (fun entry hentry => ?_) ih
          rw [(readClause?_eq_some_iff clause entry).mpr hentry] at hread
          cases hread
      | some entry => exact .kept ((readClause?_eq_some_iff clause entry).mp hread) ih

/-! ## Comment lines -/

/-- Lines that start a comment together hold one that is a comment. -/
theorem exists_isCommentLine_of_join {lines : List Text}
    (h : isCommentLine (Text.join '\n' lines)) : ∃ line ∈ lines, isCommentLine line := by
  induction lines with
  | nil => cases h
  | cons line rest ih =>
      cases rest with
      | nil => exact ⟨line, List.mem_singleton_self line, h⟩
      | cons next more =>
          rcases isCommentLine_append_cons (by decide) h with hline | ⟨_, hmore⟩
          · exact ⟨line, List.mem_cons_self, hline⟩
          · obtain ⟨found, hmem, hfound⟩ := ih hmore
            exact ⟨found, List.mem_cons_of_mem line hmem, hfound⟩

/-! ## Texts without a comment line -/

/-- No line break in the text is followed by a comment. -/
def Uncommented (text : Text) : Prop :=
  ∀ front back, text = front ++ '\n' :: back → ¬ isCommentLine back

theorem Uncommented.of_part {text part : Text} (h : Uncommented text) (hpart : part <:+: text) :
    Uncommented part := by
  obtain ⟨before, after, rfl⟩ := hpart
  rintro front back rfl hcomment
  exact h (before ++ front) (back ++ after) (by simp) (isCommentLine_append hcomment after)

/-- A character that is neither white space nor a slash joins two such texts to another one. -/
theorem Uncommented.append_cons {c : Char} (hblank : isBlank c = false) (hslash : c ≠ '/')
    {left right : Text} (hleft : Uncommented left) (hright : Uncommented right) :
    Uncommented (left ++ c :: right) := by
  have hc : c ≠ '\n' := by
    rintro rfl
    cases hblank
  intro front back heq hcomment
  rcases List.append_eq_append_iff.mp heq with ⟨gap, _, hgap⟩ | ⟨text, hfront, htext⟩
  · cases gap with
    | nil => exact hc (List.cons.inj hgap).1
    | cons d gap => exact hright gap back (List.cons.inj hgap).2 hcomment
  · cases text with
    | nil => exact hc (List.cons.inj htext).1.symm
    | cons d text =>
        obtain ⟨rfl, rfl⟩ := List.cons.inj htext
        rcases isCommentLine_append_cons hslash hcomment with htext | ⟨hc, _⟩
        · exact hleft front text hfront htext
        · rw [hblank] at hc
          cases hc

theorem uncommented_join {first : Text} {rest : List Text}
    (hnewline : ∀ line ∈ first :: rest, '\n' ∉ line)
    (hrest : ∀ line ∈ rest, ¬ isCommentLine line) :
    Uncommented (Text.join '\n' (first :: rest)) := by
  intro front back heq hcomment
  have hlines : Text.splitAt '\n' front ++ Text.splitAt '\n' back = first :: rest := by
    rw [← Text.splitAt_append, ← heq, Text.splitAt_join (List.cons_ne_nil first rest) hnewline]
  obtain ⟨start, more, hfront, _⟩ := exists_lines front
  rw [hfront, List.cons_append] at hlines
  rw [← Text.join_splitAt '\n' back] at hcomment
  obtain ⟨line, hmem, hline⟩ := exists_isCommentLine_of_join hcomment
  exact hrest line ((List.cons.inj hlines).2 ▸ List.mem_append_right more hmem) hline

/-- What is left without the comment lines has none. -/
theorem uncommented_dropCommentLines (body : Text) : Uncommented (dropCommentLines body) := by
  obtain ⟨first, rest, hsplit, _⟩ := exists_lines body
  rw [dropCommentLines, hsplit]
  apply uncommented_join
  · intro line hmem
    have hline : line ∈ Text.splitAt '\n' body :=
      hsplit ▸ (List.filter_sublist.cons_cons first).subset hmem
    exact Text.not_mem_of_mem_splitAt hline
  · intro line hmem
    simpa using (List.mem_filter.mp hmem).2

theorem Uncommented.not_isCommentLine {first : Text} {rest : List Text}
    (h : Uncommented (Text.join '\n' (first :: rest))) : ∀ line ∈ rest, ¬ isCommentLine line := by
  induction rest generalizing first with
  | nil => exact nofun
  | cons next more ih =>
      have hnext := h first (Text.join '\n' (next :: more)) rfl
      have hpart : Text.join '\n' (next :: more) <:+: Text.join '\n' (first :: next :: more) :=
        ⟨first ++ ['\n'], [], by simp [Text.join]⟩
      refine List.forall_mem_cons.mpr ⟨fun hcomment => ?_, ih (h.of_part hpart)⟩
      obtain ⟨after, hafter⟩ := Text.prefix_join '\n' next more
      exact hnext (hafter ▸ isCommentLine_append hcomment after)

theorem Uncommented.dropCommentLines_eq {text : Text} (h : Uncommented text) :
    dropCommentLines text = text := by
  obtain ⟨first, rest, hsplit, htext⟩ := exists_lines text
  have hkept : rest.filter (fun line => !isCommentLine line) = rest := by
    rw [List.filter_eq_self]
    intro line hmem
    simpa using Uncommented.not_isCommentLine (htext ▸ h) line hmem
  rw [dropCommentLines, hsplit]
  simp only [hkept, htext]

/-! ## Entries that are written back -/

/-- The entries as clauses, one behind the other. -/
def written (entries : Entries Text) : Text :=
  entries.toList.flatMap fun entry => clauseText entry ++ [';']

/-- The parts of an entry stand in its clause. -/
theorem IsEntryOf.isInfix {clause : Text} {entry : Text × Text} (h : IsEntryOf clause entry) :
    entry.1 <:+: clause ∧ entry.2 <:+: clause := by
  obtain ⟨before, after, rfl, _, _, _, rfl⟩ := h
  exact ⟨(Text.trim_isInfix before).trans (List.prefix_append before _).isInfix,
    (Text.trim_isInfix after).trans ⟨before ++ [':'], [], by simp⟩⟩

/-- The parts of the entries of a body have no comment lines. -/
theorem uncommented_of_mem_read {body : Text} :
    ∀ entry ∈ (read body).toList, Uncommented entry.1 ∧ Uncommented entry.2 := by
  apply Entries.forall_mem_ofList
  intro entry hmem
  obtain ⟨clause, hclause, hread⟩ := List.mem_filterMap.mp hmem
  have hentry := ((readClause?_eq_some_iff clause entry).mp hread).isInfix
  have hpart := Text.isInfix_of_mem_splitAt hclause
  have hbody := uncommented_dropCommentLines body
  exact ⟨hbody.of_part (hentry.1.trans hpart), hbody.of_part (hentry.2.trans hpart)⟩

theorem IsPart.trim_eq_self {text : Text} (h : IsPart text) : Text.trim text = text :=
  Text.trim_eq_self h.first h.last

theorem IsPart.not_blank {text : Text} (h : IsPart text) : ¬ text.all isBlank := by
  rw [← Text.trim_eq_nil_iff, h.trim_eq_self]
  exact h.ne_nil

theorem isEntryOf_clauseText {entry : Text × Text} (hkey : IsPart entry.1)
    (hcolon : ':' ∉ entry.1) (hvalue : IsPart entry.2) : IsEntryOf (clauseText entry) entry :=
  ⟨entry.1, entry.2, rfl, hcolon, hkey.not_blank, hvalue.not_blank,
    by rw [hkey.trim_eq_self, hvalue.trim_eq_self]⟩

/-- Entries of which no part holds a comment line are written without one. -/
theorem uncommented_written {entries : List (Text × Text)}
    (h : ∀ entry ∈ entries, Uncommented entry.1 ∧ Uncommented entry.2) :
    Uncommented (entries.flatMap fun entry => clauseText entry ++ [';']) := by
  induction entries with
  | nil =>
      intro front back hnil
      simp at hnil
  | cons entry rest ih =>
      obtain ⟨⟨hkey, hvalue⟩, hrest⟩ := List.forall_mem_cons.mp h
      have hclause : Uncommented (clauseText entry) := hkey.append_cons rfl (by decide) hvalue
      rw [List.flatMap_cons, List.append_assoc]
      exact hclause.append_cons rfl (by decide) (ih hrest)

/-- Written entries are cut at the semicolons that end them. -/
theorem filterMap_splitAt_written {entries : List (Text × Text)}
    (h : ∀ entry ∈ entries, (IsPart entry.1 ∧ ':' ∉ entry.1) ∧ IsPart entry.2) :
    (Text.splitAt ';' (entries.flatMap fun entry => clauseText entry ++ [';'])).filterMap
      readClause? = entries := by
  induction entries with
  | nil => rfl
  | cons entry rest ih =>
      obtain ⟨⟨⟨hkey, hcolon⟩, hvalue⟩, hrest⟩ := List.forall_mem_cons.mp h
      have hsemicolon : ';' ∉ clauseText entry := by
        rw [clauseText, List.mem_append, List.mem_cons]
        rintro (hmem | hmem | hmem)
        · exact hkey.semicolon hmem
        · cases hmem
        · exact hvalue.semicolon hmem
      rw [List.flatMap_cons, List.append_assoc, List.singleton_append,
        Text.splitAt_append_cons hsemicolon, List.filterMap_cons,
        (readClause?_eq_some_iff _ _).mpr (isEntryOf_clauseText hkey hcolon hvalue), ih hrest]

/-- Written entries are read back, if no part of them holds a comment line. -/
theorem read_written {entries : Entries Text}
    (hparts : ∀ entry ∈ entries.toList, (IsPart entry.1 ∧ ':' ∉ entry.1) ∧ IsPart entry.2)
    (hlines : ∀ entry ∈ entries.toList, Uncommented entry.1 ∧ Uncommented entry.2) :
    read (written entries) = entries := by
  rw [read, written, (uncommented_written hlines).dropCommentLines_eq,
    filterMap_splitAt_written hparts, Entries.ofList_toList]

/-! ## Reading a body -/

/-- The later comment lines go, every clause with a key and a value is kept, a key stays where it
came first and has its last value, and the entries are read back from the clauses that they are
written as. -/
theorem read_keeps_clauses (body : Text) :
    (∃ first rest clauses pairs,
      Text.IsCutInto '\n' body (first :: rest) ∧
      Text.IsCutInto ';'
        (Text.join '\n' (first :: rest.filter fun line => !isCommentLine line)) clauses ∧
      Yields clauses pairs ∧
      (read body).keys = (pairs.map Prod.fst).eraseDups ∧
      ∀ key, (read body).get? key = pairs.reverse.lookup key) ∧
    read (written (read body)) = read body := by
  refine ⟨?_, read_written isPart_of_mem_read uncommented_of_mem_read⟩
  obtain ⟨first, rest, hsplit, _⟩ := exists_lines body
  have hdrop : dropCommentLines body =
      Text.join '\n' (first :: rest.filter fun line => !isCommentLine line) := by
    rw [dropCommentLines, hsplit]
  refine ⟨first, rest, _, _, (Text.isCutInto_iff ..).mpr hsplit, (Text.isCutInto_iff ..).mpr rfl,
    yields_filterMap _, ?_, fun key => ?_⟩
  · rw [read, hdrop, Entries.keys_ofList]
  · rw [read, hdrop, Entries.get?_ofList]

-- The first line is no comment, and a value may go on over a line break.
example :
    (read " // fill: red;\n  // fill: blue;\n width :80:\n9; label".toList).toList =
      [("// fill".toList, "red".toList), ("width".toList, "80:\n9".toList)] := by
  decide +kernel

end SceneScript.Style
