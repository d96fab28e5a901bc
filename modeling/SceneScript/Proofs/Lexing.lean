import SceneScript.Proofs.Bytes
import SceneScript.Proofs.Lexeme

/-! # The tokens of a text

The tokens of a text lie in its bytes, and a newline cuts the tokens in two: what stands in front of
it is read as if the text ended there, and what stands after it as a text of its own.
-/

namespace SceneScript

theorem lexFrom_nil (lineStart : Bool) (offset : Nat) : lexFrom lineStart offset [] = [] := by
  rw [lexFrom]

/-- The first token takes its lexeme, and the rest is read from where that ends. -/
theorem lexFrom_cons {lineStart : Bool} {c : Char} {rest : Text} {found : Lexeme}
    (h : lexeme lineStart c rest = found) (offset : Nat) :
    lexFrom lineStart offset (c :: rest) =
      ⟨found.token, ⟨offset, offset + Text.byteLength (c :: rest.take found.tail),
        Nat.le_add_right ..⟩⟩ ::
        lexFrom (found.token.lineStartAfter lineStart)
          (offset + Text.byteLength (c :: rest.take found.tail)) (rest.drop found.tail) := by
  rw [lexFrom]
  simp only [h]

/-- Induction over the tokens of a text, from the first one on. -/
@[elab_as_elim]
theorem lexFrom_induction {motive : Bool → Nat → Text → Prop}
    (nil : ∀ lineStart offset, motive lineStart offset [])
    (cons : ∀ lineStart offset c rest found, lexeme lineStart c rest = found →
      motive (found.token.lineStartAfter lineStart)
        (offset + Text.byteLength (c :: rest.take found.tail)) (rest.drop found.tail) →
      motive lineStart offset (c :: rest))
    (lineStart : Bool) (offset : Nat) (text : Text) : motive lineStart offset text :=
  lexFrom.induct motive nil
    (fun lineStart offset c rest => cons lineStart offset c rest _ rfl) lineStart offset text

/-- Every token lies in the bytes of the text. -/
theorem span_of_mem_lexFrom {lineStart : Bool} {offset : Nat} {text : Text}
    {token : Spanned Token} (h : token ∈ lexFrom lineStart offset text) :
    offset ≤ token.span.start ∧ token.span.stop ≤ offset + Text.byteLength text := by
  induction lineStart, offset, text using lexFrom_induction with
  | nil lineStart offset =>
      rw [lexFrom_nil] at h
      cases h
  | cons lineStart offset c rest found hfound ih =>
      have hbytes := Text.byteLength_take_add_drop found.tail rest
      rw [lexFrom_cons hfound] at h
      rcases List.mem_cons.mp h with rfl | hmem
      · simp only [Text.byteLength_cons]
        omega
      · have hrest := ih hmem
        simp only [Text.byteLength_cons] at hrest ⊢
        omega

theorem nonempty_of_mem_lexFrom {lineStart : Bool} {offset : Nat} {text : Text}
    {token : Spanned Token} (h : token ∈ lexFrom lineStart offset text) :
    token.span.start < token.span.stop := by
  induction lineStart, offset, text using lexFrom_induction with
  | nil lineStart offset =>
      rw [lexFrom_nil] at h
      cases h
  | cons lineStart offset c rest found hfound ih =>
      rw [lexFrom_cons hfound] at h
      rcases List.mem_cons.mp h with rfl | hmem
      · have hsize := c.utf8Size_pos
        simp only [Text.byteLength_cons]
        omega
      · exact ih hmem

/-- Each token ends before the later ones start. -/
theorem pairwise_lexFrom (lineStart : Bool) (offset : Nat) (text : Text) :
    (lexFrom lineStart offset text).Pairwise fun a b => a.span.stop ≤ b.span.start := by
  induction lineStart, offset, text using lexFrom_induction with
  | nil lineStart offset =>
      rw [lexFrom_nil]
      exact .nil
  | cons lineStart offset c rest found hfound ih =>
      rw [lexFrom_cons hfound]
      refine List.pairwise_cons.mpr ⟨?_, ih⟩
      intro token hmem
      exact (span_of_mem_lexFrom hmem).1

/-- What stands in front of a newline is read as if the text ended there, and what stands after it
as a text of its own. -/
theorem lexFrom_append_newline (lineStart : Bool) (offset : Nat) (front back : Text) :
    lexFrom lineStart offset (front ++ '\n' :: back) =
      lexFrom lineStart offset front ++
        ⟨.newline, ⟨offset + Text.byteLength front, offset + Text.byteLength front + 1,
          Nat.le_succ _⟩⟩ :: lexFrom true (offset + Text.byteLength front + 1) back := by
  induction lineStart, offset, front using lexFrom_induction with
  | nil lineStart offset =>
      rw [lexFrom_nil, List.nil_append, lexFrom_cons (lexeme_newline lineStart back)]
      rfl
  | cons lineStart offset c rest found hfound ih =>
      have htail : found.tail ≤ rest.length := hfound ▸ (lexeme_reads lineStart c rest).tail_le
      have hstop : offset + Text.byteLength (c :: rest.take found.tail) +
          Text.byteLength (rest.drop found.tail) = offset + Text.byteLength (c :: rest) := by
        have hbytes := Text.byteLength_take_add_drop found.tail rest
        simp only [Text.byteLength_cons]
        omega
      have hnewline : lexeme lineStart c (rest ++ '\n' :: back) = found := by
        rw [lexeme_append_newline, hfound]
      -- The first token is the same, and it ends in front of the newline.
      rw [List.cons_append, lexFrom_cons hnewline, lexFrom_cons hfound,
        List.take_append_of_le_length htail, List.drop_append_of_le_length htail, ih]
      simp only [hstop, List.cons_append]

end SceneScript
