import SceneScript.Proofs.Reading

/-! # Token boundaries

Most forms look beyond the text that they take. Nevertheless a lexeme that ends within a front of a
text is the lexeme of that front, so the tokens up to a boundary are those of the text in front of
it, and the tokens between two boundaries are those of the text between them.
-/

namespace SceneScript

theorem takeWhile_append_of_length_le {α : Type} {p : α → Bool} {front back : List α}
    (h : ((front ++ back).takeWhile p).length ≤ front.length) :
    (front ++ back).takeWhile p = front.takeWhile p := by
  induction front with
  | nil => exact List.eq_nil_of_length_eq_zero (Nat.le_zero.mp h)
  | cons a rest ih =>
      rw [List.cons_append, List.takeWhile_cons] at h ⊢
      rw [List.takeWhile_cons]
      split
      next ha =>
        rw [if_pos ha, List.length_cons, List.length_cons] at h
        rw [ih (Nat.le_of_succ_le_succ h)]
      next => rfl

namespace Lexeme

/-! ## Forms that end within a front -/

section Within

variable {c : Char} {rest more : Text}

theorem comment?_of_append (h : ∀ found ∈ comment? c (rest ++ more), found.tail ≤ rest.length) :
    comment? c (rest ++ more) = comment? c rest := by
  cases rest with
  | nil =>
      rw [List.nil_append] at h ⊢
      cases hfound : comment? c more with
      | none => rfl
      | some found =>
          have htail := h found hfound
          cases more with
          | nil => cases hfound
          | cons d body =>
              rw [comment?] at hfound
              split at hfound
              next =>
                obtain rfl := Option.some.inj hfound
                exact absurd htail (Nat.not_succ_le_zero _)
              next => cases hfound
  | cons d body =>
      rw [List.cons_append, comment?] at h ⊢
      rw [comment?]
      split
      next hslashes =>
        rw [if_pos hslashes] at h
        have htail := h _ rfl
        simp only [takeWhile_append_of_length_le (Nat.le_of_succ_le_succ htail)]
      next => rfl

theorem quoted?_append {found : Lexeme} (h : quoted? c rest = some found) (more : Text) :
    quoted? c (rest ++ more) = some found := by
  obtain ⟨hquote, content, later, rfl, hclose, hline, rfl⟩ := quoted?_eq_some h
  rw [List.append_assoc, List.cons_append, quoted?_append_cons hquote hclose hline]

theorem quoted?_of_append (h : ∀ found ∈ quoted? c (rest ++ more), found.tail ≤ rest.length) :
    quoted? c (rest ++ more) = quoted? c rest := by
  cases hfound : quoted? c (rest ++ more) with
  | none =>
      cases hshort : quoted? c rest with
      | none => rfl
      | some found =>
          rw [quoted?_append hshort] at hfound
          cases hfound
  | some found =>
      have htail := h found hfound
      obtain ⟨hquote, content, later, hsplit, hclose, hline, rfl⟩ := quoted?_eq_some hfound
      -- The closing quote stands in the front.
      have hrest : rest = content ++ c :: rest.drop (content.length + 1) := by
        have htake := congrArg (List.take (content.length + 1)) hsplit
        rw [List.take_append_of_le_length htail, List.append_cons,
          List.take_left' (by simp)] at htake
        rw [List.append_cons, ← htake, List.take_append_drop]
      rw [hrest, quoted?_append_cons hquote hclose hline]

end Within

section Numbers

variable {text more : Text}

theorem signLength_append (h : text ≠ []) : signLength (text ++ more) = signLength text := by
  cases text with
  | nil => exact absurd rfl h
  | cons c rest => rfl

theorem wholeLength_of_append
    (h : signLength (text ++ more) + wholeLength (text ++ more) ≤ text.length)
    (hne : text ≠ []) : wholeLength (text ++ more) = wholeLength text := by
  have hsign := signLength_le text
  unfold wholeLength at h ⊢
  rw [signLength_append hne, List.drop_append_of_le_length hsign] at h ⊢
  rw [takeWhile_append_of_length_le (by rw [List.length_drop]; omega)]

theorem fractionLength_of_append (h : fractionLength (text ++ more) ≤ text.length) :
    fractionLength (text ++ more) = fractionLength text := by
  cases text with
  | nil => exact Nat.le_zero.mp h
  | cons c rest =>
      rw [List.cons_append, fractionLength] at h ⊢
      rw [fractionLength]
      by_cases hdot : c = '.'
      · have hdigits : ((rest ++ more).takeWhile isDigit).length ≤ rest.length := by
          by_cases hzero : ((rest ++ more).takeWhile isDigit).length = 0
          · omega
          · rw [if_pos ⟨hdot, hzero⟩, List.length_cons] at h
            omega
        rw [takeWhile_append_of_length_le hdigits]
      · rw [if_neg (fun hboth => hdot hboth.1), if_neg (fun hboth => hdot hboth.1)]

theorem literalLength_of_append (h : literalLength (text ++ more) ≤ text.length)
    (hne : text ≠ []) :
    literalLength (text ++ more) = literalLength text ∧
      wholeLength (text ++ more) = wholeLength text := by
  have hfront : signLength (text ++ more) + wholeLength (text ++ more) ≤ text.length := by
    rw [literalLength] at h
    omega
  have hwhole := wholeLength_of_append hfront hne
  refine ⟨?_, hwhole⟩
  rw [literalLength, signLength_append hne, hwhole] at h ⊢
  rw [signLength_append hne, hwhole] at hfront
  rw [List.drop_append_of_le_length hfront] at h ⊢
  rw [fractionLength_of_append (by rw [List.length_drop]; omega), literalLength]

theorem numberLength?_of_append {length : Nat} (h : numberLength? (text ++ more) = some length)
    (hlength : length ≤ text.length) (hne : text ≠ []) : numberLength? text = some length := by
  obtain ⟨rfl, hwhole, hword⟩ := eq_literalLength_of_numberLength? h
  obtain ⟨hliteral, hwholeEq⟩ := literalLength_of_append hlength hne
  rw [hliteral] at hlength hword ⊢
  rw [hwholeEq] at hwhole
  rw [List.drop_append_of_le_length hlength] at hword
  rw [numberLength?_eq, if_neg hwhole, if_neg]
  cases hdrop : text.drop (literalLength text) with
  | nil => simp
  | cons d tail =>
      rw [hdrop] at hword
      simpa using hword

variable {c : Char} {rest : Text}

theorem number?_of_append {found : Lexeme} (h : number? c (rest ++ more) = some found)
    (htail : found.tail ≤ rest.length) : number? c rest = some found := by
  obtain ⟨length, hlength, rfl⟩ := Option.map_eq_some_iff.mp h
  rw [← List.cons_append] at hlength
  have hle : length ≤ (c :: rest).length := by
    rw [List.length_cons]
    exact Nat.sub_le_iff_le_add.mp htail
  rw [number?, numberLength?_of_append hlength hle (List.cons_ne_nil _ _), Option.map_some,
    ← List.cons_append, List.take_append_of_le_length hle]

/-- A number looks no further than the run of characters that it stands in. -/
theorem number?_takeWhile (c : Char) (rest : Text) :
    number? c (rest.takeWhile isRunChar) = number? c rest := by
  have hsplit := List.takeWhile_append_dropWhile (p := isRunChar) (l := rest)
  cases hdrop : rest.dropWhile isRunChar with
  | nil =>
      rw [hdrop, List.append_nil] at hsplit
      rw [hsplit]
  | cons d later =>
      have hd : isRunChar d = false := by
        have hhead := List.head_dropWhile_not isRunChar (l := rest) (by rw [hdrop]; simp)
        simpa [hdrop] using hhead
      have hnumber := number?_append_stop (c := c) hd (rest.takeWhile isRunChar) later
      rw [← hdrop, hsplit] at hnumber
      exact hnumber.symm

end Numbers

end Lexeme

/-! ## Lexemes that end within a front -/

/-- A lexeme that ends within a front of the text is the lexeme of that front. -/
theorem lexeme_of_append {lineStart : Bool} {c : Char} {rest more : Text}
    (h : (lexeme lineStart c (rest ++ more)).tail ≤ rest.length) :
    lexeme lineStart c (rest ++ more) = lexeme lineStart c rest := by
  rcases character_cases c with hbreak | hquote | hword | ⟨hrun, hword⟩
  · by_cases hblank : isBlank c
    · by_cases hnewline : c = '\n'
      · subst hnewline
        rw [lexeme_newline, lexeme_newline]
      · rw [lexeme_space hblank hnewline] at h ⊢
        rw [lexeme_space hblank hnewline, takeWhile_append_of_length_le h]
    · rw [isBreak, Bool.of_not_eq_true hblank, Bool.false_or] at hbreak
      obtain ⟨token, htoken⟩ := Option.isSome_iff_exists.mp hbreak
      rw [lexeme_punctuation htoken, lexeme_punctuation htoken]
  · rw [lexeme_of_isQuote hquote] at h ⊢
    rw [lexeme_of_isQuote hquote, Lexeme.quoted?_of_append]
    intro found hfound
    rwa [hfound] at h
  · rw [lexeme_of_isWordStart hword] at h ⊢
    rw [lexeme_of_isWordStart hword, takeWhile_append_of_length_le h]
  · rw [lexeme_of_isRunChar hrun hword] at h ⊢
    rw [lexeme_of_isRunChar hrun hword]
    have hcomment : (if lineStart then Lexeme.comment? c (rest ++ more) else none) =
        if lineStart then Lexeme.comment? c rest else none := by
      cases lineStart with
      | false => rfl
      | true =>
          apply Lexeme.comment?_of_append
          intro found hfound
          rw [if_pos rfl, hfound] at h
          exact h
    rw [hcomment] at h ⊢
    cases hline : if lineStart then Lexeme.comment? c rest else none with
    | some found => rfl
    | none =>
        rw [hline] at h
        cases hnumber : Lexeme.number? c (rest ++ more) with
        | some found =>
            rw [hnumber] at h
            rw [Lexeme.number?_of_append hnumber h]
            rfl
        | none =>
            -- The whole run ends within the front, so no number is cut out of it there.
            rw [hnumber] at h
            have htake := takeWhile_append_of_length_le h
            rw [← Lexeme.number?_takeWhile c rest, ← htake, Lexeme.number?_takeWhile, hnumber]

/-! ## Cutting at a boundary -/

/-- In front of `back`, the tokens of the first text end where it ends. The flags say whether the
first text and `back` stand at the start of a line. -/
inductive ReadsThrough : Bool → Text → Text → Bool → Prop where
  | done (lineStart : Bool) (back : Text) : ReadsThrough lineStart [] back lineStart
  | token {lineStart after : Bool} {c : Char} {rest back : Text} {found : Lexeme}
      (reads : lexeme lineStart c (rest ++ back) = found) (inside : found.tail ≤ rest.length)
      (later : ReadsThrough (found.token.lineStartAfter lineStart) (rest.drop found.tail) back
        after) :
      ReadsThrough lineStart (c :: rest) back after

theorem byteLength_lexeme {offset : Nat} (c : Char) (rest : Text) (tail : Nat) :
    offset + Text.byteLength (c :: rest.take tail) + Text.byteLength (rest.drop tail) =
      offset + Text.byteLength (c :: rest) := by
  have hbytes := Text.byteLength_take_add_drop tail rest
  simp only [Text.byteLength_cons]
  omega

theorem ReadsThrough.lexeme_eq {lineStart : Bool} {c : Char} {rest back : Text} {found : Lexeme}
    (reads : lexeme lineStart c (rest ++ back) = found) (inside : found.tail ≤ rest.length) :
    lexeme lineStart c rest = found := by
  rw [← lexeme_of_append (by rwa [reads]), reads]

/-- The tokens on both sides of a boundary are those of the two texts. -/
theorem ReadsThrough.lexFrom_append {lineStart after : Bool} {front back : Text}
    (h : ReadsThrough lineStart front back after) (offset : Nat) :
    lexFrom lineStart offset (front ++ back) =
      lexFrom lineStart offset front ++ lexFrom after (offset + Text.byteLength front) back := by
  induction h generalizing offset with
  | done lineStart back =>
      rw [lexFrom_nil, List.nil_append, List.nil_append]
      rfl
  | @token lineStart after c rest back found reads inside later ih =>
      rw [List.cons_append, lexFrom_cons reads, lexFrom_cons (ReadsThrough.lexeme_eq reads inside),
        List.take_append_of_le_length inside, List.drop_append_of_le_length inside, ih,
        byteLength_lexeme, List.cons_append]

/-- Wherever the tokens of a text are cut in two, the text is. -/
theorem exists_readsThrough {lineStart : Bool} {offset : Nat} {text : Text}
    {earlier later : List (Spanned Token)} (h : lexFrom lineStart offset text = earlier ++ later) :
    ∃ front back after, text = front ++ back ∧ ReadsThrough lineStart front back after ∧
      lexFrom lineStart offset front = earlier ∧
        lexFrom after (offset + Text.byteLength front) back = later := by
  induction earlier generalizing lineStart offset text with
  | nil => exact ⟨[], text, lineStart, rfl, .done lineStart text, lexFrom_nil lineStart offset, h⟩
  | cons token earlier ih =>
      cases text with
      | nil =>
          rw [lexFrom_nil] at h
          cases h
      | cons c rest =>
          obtain ⟨found, hfound⟩ : ∃ found, lexeme lineStart c rest = found := ⟨_, rfl⟩
          have htail : found.tail ≤ rest.length := hfound ▸ (lexeme_reads lineStart c rest).tail_le
          rw [lexFrom_cons hfound, List.cons_append] at h
          obtain ⟨htoken, hlater⟩ := List.cons.inj h
          obtain ⟨front, back, after, hrest, hreads, hfront, hback⟩ := ih hlater
          have hwhole : rest = (rest.take found.tail ++ front) ++ back := by
            rw [List.append_assoc, ← hrest, List.take_append_drop]
          have hlength : (rest.take found.tail).length = found.tail := List.length_take_of_le htail
          have hinside : found.tail ≤ (rest.take found.tail ++ front).length := by
            rw [List.length_append, hlength]
            exact Nat.le_add_right _ _
          have hdrop : (rest.take found.tail ++ front).drop found.tail = front :=
            List.drop_left' hlength
          have htake : (rest.take found.tail ++ front).take found.tail = rest.take found.tail :=
            List.take_left' hlength
          have hlexeme : lexeme lineStart c ((rest.take found.tail ++ front) ++ back) = found := by
            rw [← hwhole, hfound]
          refine ⟨c :: (rest.take found.tail ++ front), back, after, ?_, ?_, ?_, ?_⟩
          · rw [List.cons_append, ← hwhole]
          · exact .token hlexeme hinside (hdrop.symm ▸ hreads)
          · rw [lexFrom_cons (ReadsThrough.lexeme_eq hlexeme hinside), htake, hdrop, hfront, htoken]
          · rw [← hback, Text.byteLength_cons, Text.byteLength_append, Text.byteLength_cons]
            simp only [Nat.add_assoc]

/-- Text that begins later has the same tokens, moved right. -/
theorem lexFrom_shift (lineStart : Bool) (offset size : Nat) (text : Text) :
    lexFrom lineStart (offset + size) text =
      (lexFrom lineStart offset text).map (·.shift size) := by
  induction lineStart, offset, text using lexFrom_induction with
  | nil lineStart offset => rw [lexFrom_nil, lexFrom_nil, List.map_nil]
  | cons lineStart offset c rest found hfound ih =>
      have hstop : offset + size + Text.byteLength (c :: rest.take found.tail) =
          offset + Text.byteLength (c :: rest.take found.tail) + size := Nat.add_right_comm _ _ _
      rw [lexFrom_cons hfound, lexFrom_cons hfound, List.map_cons, ← ih]
      simp only [hstop]
      rfl

/-- A token cuts the text in three: what stands in front of it, its spelling, and what follows. -/
theorem exists_spelling {lineStart : Bool} {offset : Nat} {text : Text}
    {earlier later : List (Spanned Token)} {token : Spanned Token}
    (h : lexFrom lineStart offset text = earlier ++ token :: later) :
    ∃ front spelling back before, text = front ++ (spelling ++ back) ∧
      ReadsThrough lineStart front (spelling ++ back) before ∧
      lexFrom lineStart offset front = earlier ∧
      token.value.Spells spelling ∧
      token.span = .ofText (offset + Text.byteLength front) spelling ∧
      lexFrom (token.value.lineStartAfter before) token.span.stop back = later := by
  obtain ⟨front, rest, before, rfl, hreads, hfront, hrest⟩ := exists_readsThrough h
  cases rest with
  | nil =>
      rw [lexFrom_nil] at hrest
      cases hrest
  | cons c rest =>
      obtain ⟨found, hfound⟩ : ∃ found, lexeme before c rest = found := ⟨_, rfl⟩
      have hspells := hfound ▸ (lexeme_reads before c rest).spells
      rw [lexFrom_cons hfound] at hrest
      obtain ⟨rfl, hlater⟩ := List.cons.inj hrest
      have hsplit : c :: rest.take found.tail ++ rest.drop found.tail = c :: rest := by
        rw [List.cons_append, List.take_append_drop]
      refine ⟨front, c :: rest.take found.tail, rest.drop found.tail, before, ?_, ?_, hfront,
        hspells, rfl, hlater⟩
      · rw [hsplit]
      · rwa [hsplit]

end SceneScript
