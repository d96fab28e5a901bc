import SceneScript.Proofs.Places

/-! # Tokens tile the text

Some form stands at the front of every text that is not empty, and a lexeme takes a spelling of its
token, as far as that goes. So the tokens lie end to end over the whole text, each of them over its
own spelling, and a newline is never part of another token.
-/

namespace SceneScript

/-! ## How far a lexeme goes -/

/-- What may follow the text that a token is read from: words, numbers, comments and white space are
taken as far as they go. -/
def Token.EndsBefore : Token → Text → Prop
  | create, back | style, back | identifier _, back | number _, back =>
    back.head?.any isWordChar = false
  | comment _, back => back.head?.any (· ≠ '\n') = false
  | space, back => back.head?.any (fun c => isBlank c && c ≠ '\n') = false
  | _, _ => True

theorem any_head?_dropWhile {α : Type} (p : α → Bool) (list : List α) :
    (list.dropWhile p).head?.any p = false := by
  have hhead := List.head?_dropWhile_not p list
  cases h : (list.dropWhile p).head? with
  | none => rfl
  | some a => simpa [h] using hhead

namespace Lexeme

variable {c : Char} {rest : Text} {found : Lexeme}

theorem comment?_endsBefore (h : comment? c rest = some found) :
    found.token.EndsBefore (rest.drop found.tail) := by
  cases rest with
  | nil => cases h
  | cons d body =>
      rw [comment?] at h
      split at h
      next =>
        obtain rfl := Option.some.inj h
        rw [List.drop_succ_cons, drop_length_takeWhile]
        exact any_head?_dropWhile _ body
      next => cases h

theorem quoted?_endsBefore (h : quoted? c rest = some found) :
    found.token.EndsBefore (rest.drop found.tail) := by
  obtain ⟨_, content, more, _, _, _, rfl⟩ := quoted?_eq_some h
  trivial

theorem number?_endsBefore (h : number? c rest = some found) :
    found.token.EndsBefore (rest.drop found.tail) := by
  obtain ⟨length, hlength, rfl⟩ := Option.map_eq_some_iff.mp h
  obtain ⟨hliteral, hwhole, hword⟩ := eq_literalLength_of_numberLength? hlength
  have hpos : length ≠ 0 := by
    unfold literalLength at hliteral
    omega
  obtain ⟨tail, rfl⟩ := Nat.exists_eq_succ_of_ne_zero hpos
  exact hword

theorem ofWord_endsBefore {word back : Text} (h : back.head?.any isWordChar = false) :
    (Token.ofWord word).EndsBefore back := by
  unfold Token.ofWord
  split
  next => exact h
  next => split <;> exact h

theorem word?_endsBefore (h : word? c rest = some found) :
    found.token.EndsBefore (rest.drop found.tail) := by
  unfold word? at h
  split at h
  next =>
    obtain rfl := Option.some.inj h
    apply ofWord_endsBefore
    rw [drop_length_takeWhile]
    exact any_head?_dropWhile _ rest
  next => cases h

theorem punctuation?_endsBefore {token : Token} (h : punctuation? c = some token) (back : Text) :
    token.EndsBefore back := by
  have hmem := mem_of_punctuation? h
  simp only [List.mem_cons, List.not_mem_nil, or_false] at hmem
  rcases hmem with rfl | rfl | rfl | rfl | rfl | rfl | rfl <;> obtain rfl := Option.some.inj h <;>
    trivial

theorem blank?_endsBefore (h : blank? c rest = some found) :
    found.token.EndsBefore (rest.drop found.tail) := by
  unfold blank? at h
  split at h
  next =>
    obtain rfl := Option.some.inj h
    trivial
  next =>
    split at h
    next =>
      obtain rfl := Option.some.inj h
      rw [drop_length_takeWhile]
      exact any_head?_dropWhile _ rest
    next => cases h

theorem run_endsBefore (c : Char) (rest back : Text) : (run c rest).token.EndsBefore back := by
  unfold run
  split <;> trivial

end Lexeme

theorem lexeme_endsBefore (lineStart : Bool) (c : Char) (rest : Text) :
    (lexeme lineStart c rest).token.EndsBefore (rest.drop (lexeme lineStart c rest).tail) := by
  rcases lexeme_cases lineStart c rest with
    ⟨_, h⟩ | h | h | h | ⟨token, htoken, h⟩ | h | ⟨_, _, h⟩
  · exact Lexeme.comment?_endsBefore h
  · exact Lexeme.quoted?_endsBefore h
  · exact Lexeme.number?_endsBefore h
  · exact Lexeme.word?_endsBefore h
  · exact h ▸ Lexeme.punctuation?_endsBefore htoken _
  · exact Lexeme.blank?_endsBefore h
  · exact h ▸ Lexeme.run_endsBefore c rest _

/-! ## Tokens end to end -/

/-- The tokens lie end to end from `start` to `stop`, and none is empty. -/
def Tokens.Tile (start stop : Nat) : Tokens → Prop
  | [] => start = stop
  | token :: rest =>
    token.span.start = start ∧ start < token.span.stop ∧ Tokens.Tile token.span.stop stop rest

theorem lexFrom_tile (lineStart : Bool) (offset : Nat) (text : Text) :
    Tokens.Tile offset (offset + Text.byteLength text) (lexFrom lineStart offset text) := by
  induction lineStart, offset, text using lexFrom_induction with
  | nil lineStart offset =>
      rw [lexFrom_nil]
      exact rfl
  | cons lineStart offset c rest found hfound ih =>
      rw [byteLength_lexeme] at ih
      rw [lexFrom_cons hfound]
      refine ⟨rfl, ?_, ih⟩
      have hsize := c.utf8Size_pos
      simp only [Text.byteLength_cons]
      omega

/-- The token stands over one of its spellings, which goes as far as it can. -/
def Token.StandsOver (source : Text) (token : Spanned Token) : Prop :=
  ∃ front spelling back, source = front ++ (spelling ++ back) ∧
    token.span = .ofText (Text.byteLength front) spelling ∧
    token.value.Spells spelling ∧ token.value.EndsBefore back

theorem standsOver_of_mem_lexFrom {lineStart : Bool} {text : Text} {token : Spanned Token}
    (h : token ∈ lexFrom lineStart 0 text) : Token.StandsOver text token := by
  obtain ⟨earlier, later, hsplit⟩ := List.append_of_mem h
  obtain ⟨front, back, before, rfl, _, _, hback⟩ := exists_readsThrough hsplit
  cases back with
  | nil =>
      rw [lexFrom_nil] at hback
      cases hback
  | cons c rest =>
      rw [lexFrom_cons rfl, Nat.zero_add] at hback
      obtain ⟨rfl, _⟩ := List.cons.inj hback
      refine ⟨front, c :: rest.take (lexeme before c rest).tail,
        rest.drop (lexeme before c rest).tail, ?_, rfl, (lexeme_reads before c rest).spells,
        lexeme_endsBefore before c rest⟩
      rw [List.cons_append, List.take_append_drop]

/-- The tokens take the source apart: they lie end to end over it, each over the text that it is
read from, and every newline is a token of its own. -/
structure Tokens.Divide (source : Text) (tokens : Tokens) : Prop where
  tile : tokens.Tile 0 (Text.byteLength source)
  cuts : ∀ token ∈ tokens, source.Cuts token.span.start token.span.stop
  standsOver : ∀ token ∈ tokens, Token.StandsOver source token
  newline : ∀ front back, source = front ++ '\n' :: back →
    ⟨.newline, .ofText (Text.byteLength front) ['\n']⟩ ∈ tokens

theorem lexFrom_divide (lineStart : Bool) (source : Text) :
    Tokens.Divide source (lexFrom lineStart 0 source) where
  tile := by
    have htile := lexFrom_tile lineStart 0 source
    rwa [Nat.zero_add] at htile
  cuts := fun _ => cuts_of_mem_lexFrom
  standsOver := fun _ => standsOver_of_mem_lexFrom
  newline := by
    rintro front back rfl
    rw [lexFrom_append_newline, Nat.zero_add]
    exact List.mem_append_right _ List.mem_cons_self

/-- Every text is taken apart by its tokens, whether or not it stands at the start of a line, and no
character is left over for which no form is found. -/
theorem tokens_divide (source : Text) :
    Tokens.Divide source (tokenize source) ∧ Tokens.Divide source (tokenizeInline source) ∧
      ∀ lineStart c rest, (Lexeme.read? lineStart c rest).isSome := by
  refine ⟨lexFrom_divide true source, lexFrom_divide false source, ?_⟩
  intro lineStart c rest
  rw [Lexeme.read?_eq_some]
  rfl

end SceneScript
