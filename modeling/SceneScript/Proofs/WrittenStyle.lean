import SceneScript.Document.Style
import SceneScript.Proofs.Cutting
import SceneScript.Proofs.Reading

/-! # Style entries as they are written

Style entries are written as clauses `key:value;` on one line. Reading them gives the entries back,
and a scan that looks for the end of the block finds it behind the last clause, whatever words stand
in the values.
-/

namespace SceneScript

/-- The characters that the text of a style block on one line cannot hold. -/
def blockMarks : List Char :=
  ['\n', '"', '\'', '}']

/-- The clause can be written: key and value have no white space at their ends, and no character in
them ends a line, a clause, the key or the block. -/
structure ProperClause (clause : Text × Text) : Prop where
  key_ne_nil : clause.1 ≠ []
  value_ne_nil : clause.2 ≠ []
  trim_key : Text.trim clause.1 = clause.1
  trim_value : Text.trim clause.2 = clause.2
  key : ∀ c ∈ clause.1, c ∉ ':' :: ';' :: blockMarks
  value : ∀ c ∈ clause.2, c ∉ ';' :: blockMarks

-- The lists are searched: a library instance would try every character there is.
instance : DecidablePred ProperClause := fun clause =>
  haveI : Decidable (∀ c ∈ clause.1, c ∉ ':' :: ';' :: blockMarks) := List.decidableBAll _ _
  haveI : Decidable (∀ c ∈ clause.2, c ∉ ';' :: blockMarks) := List.decidableBAll _ _
  decidable_of_iff
    ((clause.1 ≠ [] ∧ clause.2 ≠ []) ∧
      (Text.trim clause.1 = clause.1 ∧ Text.trim clause.2 = clause.2) ∧
      (∀ c ∈ clause.1, c ∉ ':' :: ';' :: blockMarks) ∧ ∀ c ∈ clause.2, c ∉ ';' :: blockMarks)
    ⟨fun ⟨⟨hkey, hvalue⟩, ⟨htrimKey, htrimValue⟩, hkeyMarks, hvalueMarks⟩ =>
      ⟨hkey, hvalue, htrimKey, htrimValue, hkeyMarks, hvalueMarks⟩,
    fun h => ⟨⟨h.key_ne_nil, h.value_ne_nil⟩, ⟨h.trim_key, h.trim_value⟩, h.key, h.value⟩⟩

/-- A clause without its semicolon. -/
def clauseText (clause : Text × Text) : Text :=
  clause.1 ++ ':' :: clause.2

/-- The text between the braces of a style block with the given clauses. -/
def styleText (clauses : List (Text × Text)) : Text :=
  ' ' :: clauses.flatMap fun clause => clauseText clause ++ [';', ' ']

/-! ## Reading clauses -/

namespace Style

theorem dropCommentLines_of_not_mem {body : Text} (h : '\n' ∉ body) :
    dropCommentLines body = body := by
  rw [dropCommentLines, Text.splitAt_of_not_mem h]
  rfl

/-- There is text on both sides of the first colon of the clause, and the entry is the two sides
without the white space around them. -/
def IsEntryOf (clause : Text) (entry : Text × Text) : Prop :=
  ∃ before after, clause = before ++ ':' :: after ∧ ':' ∉ before ∧
    ¬ before.all isBlank ∧ ¬ after.all isBlank ∧ entry = (Text.trim before, Text.trim after)

theorem readClause?_eq_some_iff (clause : Text) (entry : Text × Text) :
    readClause? clause = some entry ↔ IsEntryOf clause entry := by
  constructor
  · intro hread
    unfold readClause? at hread
    split at hread
    next => cases hread
    next before after hcut =>
      obtain ⟨hclause, hcolon⟩ := Text.eq_of_cutAt hcut
      obtain ⟨hboth, hentry⟩ := Option.ite_none_left_eq_some.mp hread
      rw [Text.trim_eq_nil_iff, Text.trim_eq_nil_iff, not_or] at hboth
      exact ⟨before, after, hclause, hcolon, hboth.1, hboth.2, (Option.some.inj hentry).symm⟩
  · rintro ⟨before, after, rfl, hcolon, hbefore, hafter, rfl⟩
    rw [readClause?, Text.cutAt_append_cons hcolon]
    simp only [Text.trim_eq_nil_iff]
    rw [if_neg (not_or.mpr ⟨hbefore, hafter⟩)]

theorem readClause?_clauseText {clause : Text × Text} (h : ProperClause clause) :
    readClause? (' ' :: clauseText clause) = some clause := by
  obtain ⟨key, value⟩ := clause
  have hcolon : ':' ∉ ' ' :: key := by
    intro hmem
    rcases List.mem_cons.mp hmem with hspace | hkey
    · cases hspace
    · exact h.key _ hkey List.mem_cons_self
  have hkey : Text.trim (' ' :: key) = key := by
    have htrim : Text.trim ([' '] ++ (key ++ [])) = key :=
      Text.trim_append_append rfl rfl h.trim_key
    rwa [List.append_nil] at htrim
  have hcut : Text.cutAt ':' (' ' :: clauseText (key, value)) = some (' ' :: key, value) :=
    Text.cutAt_append_cons hcolon value
  simp only [readClause?, hcut, hkey, h.trim_value]
  rw [if_neg]
  simp [h.key_ne_nil, h.value_ne_nil]

theorem semicolon_not_mem_clauseText {clause : Text × Text} (h : ProperClause clause) :
    ';' ∉ ' ' :: clauseText clause := by
  intro hmem
  rw [clauseText, List.mem_cons, List.mem_append, List.mem_cons] at hmem
  rcases hmem with hspace | hkey | hcolon | hvalue
  · cases hspace
  · exact h.key _ hkey (by decide)
  · cases hcolon
  · exact h.value _ hvalue (by decide)

/-- Cutting at semicolons gives every clause back. -/
theorem filterMap_splitAt_styleText {clauses : List (Text × Text)}
    (h : ∀ clause ∈ clauses, ProperClause clause) :
    (Text.splitAt ';' (styleText clauses)).filterMap readClause? = clauses := by
  induction clauses with
  | nil => rfl
  | cons clause rest ih =>
      obtain ⟨hclause, hlater⟩ := List.forall_mem_cons.mp h
      have htext : styleText (clause :: rest) =
          (' ' :: clauseText clause) ++ ';' :: styleText rest := by
        rw [styleText, List.flatMap_cons, List.append_assoc]
        rfl
      rw [htext, Text.splitAt_append_cons (semicolon_not_mem_clauseText hclause),
        List.filterMap_cons, readClause?_clauseText hclause, ih hlater]

/-- Neither a clause nor what stands around it ends the block or the line. -/
theorem not_mem_blockMarks_of_mem {clauses : List (Text × Text)}
    (h : ∀ clause ∈ clauses, ProperClause clause) {c : Char} (hmem : c ∈ styleText clauses) :
    c ∉ blockMarks := by
  rcases List.mem_cons.mp hmem with rfl | hmem
  · decide
  · obtain ⟨clause, hclause, hmem⟩ := List.mem_flatMap.mp hmem
    have hproper := h clause hclause
    simp only [clauseText, List.mem_append, List.mem_cons, List.not_mem_nil, or_false] at hmem
    rcases hmem with (hkey | rfl | hvalue) | rfl | rfl
    · intro hmark
      exact hproper.key c hkey (List.mem_cons_of_mem _ (List.mem_cons_of_mem _ hmark))
    · decide
    · intro hmark
      exact hproper.value c hvalue (List.mem_cons_of_mem _ hmark)
    · decide
    · decide

/-- Reading written entries gives these entries. -/
theorem read_styleText {entries : Entries Text}
    (h : ∀ clause ∈ entries.toList, ProperClause clause) :
    read (styleText entries.toList) = entries := by
  have hline : '\n' ∉ styleText entries.toList := by
    intro hmem
    exact not_mem_blockMarks_of_mem h hmem List.mem_cons_self
  rw [read, dropCommentLines_of_not_mem hline, filterMap_splitAt_styleText h, Entries.ofList_toList]

end Style

/-! ## The end of a block -/

/-- In the middle of a line, text without quotes is read up to the brace behind it, and no token of
it is that brace. -/
theorem lexFrom_append_rightBrace {body : Text} (h : ∀ c ∈ body, c ∉ blockMarks) (offset : Nat)
    (more : Text) :
    ∃ inner : List (Spanned Token), (∀ token ∈ inner, token.value ≠ .rightBrace) ∧
      lexFrom false offset (body ++ '}' :: more) =
        inner ++ lexFrom false (offset + Text.byteLength body) ('}' :: more) := by
  generalize hline : false = lineStart
  induction lineStart, offset, body using lexFrom_induction with
  | nil lineStart offset => exact ⟨[], by simp, rfl⟩
  | cons lineStart offset c rest found hfound ih =>
      subst hline
      have hc := h c List.mem_cons_self
      have hquote : Lexeme.isQuote c = false := by
        simp only [blockMarks, List.mem_cons, not_or] at hc
        simp [Lexeme.isQuote, hc]
      have hlexeme : lexeme false c (rest ++ '}' :: more) = found := by
        rw [lexeme_append_break (by decide) (fun _ => .inr rfl) (by simp [hquote])
          (fun hstart => by cases hstart), hfound]
      obtain ⟨htail, hspells⟩ := hfound ▸ lexeme_reads false c rest
      -- Neither a newline nor the brace itself can be read here.
      have hnewline : found.token ≠ .newline := by
        intro htoken
        rw [htoken] at hspells
        exact hc ((List.cons.inj hspells).1 ▸ List.mem_cons_self)
      have hbrace : found.token ≠ .rightBrace := by
        intro htoken
        rw [htoken] at hspells
        exact hc ((List.cons.inj hspells).1 ▸ by decide)
      have hafter : false = found.token.lineStartAfter false := by
        cases htoken : found.token <;> first | rfl | exact absurd htoken hnewline
      obtain ⟨inner, hinner, hrest⟩ := ih
        (fun d hmem => h d (List.mem_cons_of_mem c (List.mem_of_mem_drop hmem))) hafter
      have hstop : offset + Text.byteLength (c :: rest.take found.tail) +
          Text.byteLength (rest.drop found.tail) = offset + Text.byteLength (c :: rest) := by
        have hbytes := Text.byteLength_take_add_drop found.tail rest
        simp only [Text.byteLength_cons]
        omega
      refine ⟨⟨found.token, .ofText offset (c :: rest.take found.tail)⟩ :: inner, ?_, ?_⟩
      · intro token hmem
        rcases List.mem_cons.mp hmem with rfl | hmem
        · exact hbrace
        · exact hinner token hmem
      · rw [← hafter, hstop] at hrest
        rw [List.cons_append, lexFrom_cons hlexeme, List.take_append_of_le_length htail,
          List.drop_append_of_le_length htail, ← hafter, hrest]
        rfl

/-- The same holds of the tokens that are kept. -/
theorem keptTokens_append_rightBrace (keep : Token → Bool) {body : Text}
    (h : ∀ c ∈ body, c ∉ blockMarks) (offset : Nat) (more : Text) :
    ∃ inner : List (Spanned Token), (∀ token ∈ inner, token.value ≠ .rightBrace) ∧
      keptTokens keep false offset (body ++ '}' :: more) =
        inner ++ keptTokens keep false (offset + Text.byteLength body) ('}' :: more) := by
  obtain ⟨inner, hinner, htokens⟩ := lexFrom_append_rightBrace h offset more
  refine ⟨inner.filter fun token => keep token.value, ?_, ?_⟩
  · intro token hmem
    exact hinner token (List.mem_filter.mp hmem).1
  · rw [keptTokens, htokens, List.filter_append, keptTokens]

end SceneScript
