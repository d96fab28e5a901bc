import Mathlib.Data.List.TakeWhile
import SceneScript.Decimal.Digits
import SceneScript.Proofs.Characters

/-! # What a lexeme is read from, and what ends it

A lexeme looks no further than the first break after it, but for quoted texts and comments, which
only a newline ends. What it takes from the text is a spelling of its token.
-/

namespace SceneScript

/-! ## Longest fronts -/

section Front

variable {α : Type} {p : α → Bool}

theorem takeWhile_append_cons {d : α} (h : p d = false) (front back : List α) :
    (front ++ d :: back).takeWhile p = front.takeWhile p := by
  induction front with
  | nil => simp [h]
  | cons a rest ih => simp [List.takeWhile_cons, ih]

theorem take_length_takeWhile (list : List α) :
    list.take (list.takeWhile p).length = list.takeWhile p :=
  (List.prefix_iff_eq_take.mp (List.takeWhile_prefix p)).symm

theorem drop_length_takeWhile (list : List α) :
    list.drop (list.takeWhile p).length = list.dropWhile p := by
  induction list with
  | nil => rfl
  | cons a rest ih =>
      cases hp : p a with
      | false => simp [hp]
      | true => simpa [hp] using ih

theorem length_takeWhile_le (list : List α) : (list.takeWhile p).length ≤ list.length :=
  (List.takeWhile_prefix p).length_le

theorem head?_append_cons_eq_some_iff {a d : α} (h : d ≠ a) (front back : List α) :
    (front ++ d :: back).head? = some a ↔ front.head? = some a := by
  cases front with
  | nil => simp [h]
  | cons b rest => simp

end Front

namespace Lexeme

/-! ## The parts of a number -/

/-- The number of characters of the sign at the front of a text. -/
def signLength (text : Text) : Nat :=
  if text.head? = some '-' then 1 else 0

/-- The number of digits that follow the sign. -/
def wholeLength (text : Text) : Nat :=
  ((text.drop (signLength text)).takeWhile isDigit).length

/-- The number of characters of the sign, the digits and the fraction. -/
def literalLength (text : Text) : Nat :=
  signLength text + wholeLength text +
    fractionLength (text.drop (signLength text + wholeLength text))

theorem numberLength?_eq (text : Text) :
    numberLength? text =
      if wholeLength text = 0 then none
      else if (text.drop (literalLength text)).head?.any isWordChar then none
      else some (literalLength text) :=
  rfl

theorem eq_literalLength_of_numberLength? {text : Text} {length : Nat}
    (h : numberLength? text = some length) :
    length = literalLength text ∧ wholeLength text ≠ 0 ∧
      (text.drop length).head?.any isWordChar = false := by
  rw [numberLength?_eq] at h
  split at h
  next => cases h
  next hwhole =>
    split at h
    next => cases h
    next hword =>
      obtain rfl := Option.some.inj h
      exact ⟨rfl, hwhole, Bool.of_not_eq_true hword⟩

theorem signLength_le (text : Text) : signLength text ≤ text.length := by
  cases text with
  | nil => exact Nat.le_refl 0
  | cons c rest =>
      rw [signLength, List.length_cons]
      split <;> omega

theorem signLength_add_wholeLength_le (text : Text) :
    signLength text + wholeLength text ≤ text.length := by
  have hsign := signLength_le text
  have hwhole := length_takeWhile_le (p := isDigit) (text.drop (signLength text))
  rw [List.length_drop] at hwhole
  unfold wholeLength
  omega

theorem fractionLength_le (text : Text) : fractionLength text ≤ text.length := by
  cases text with
  | nil => exact Nat.le_refl 0
  | cons c rest =>
      have hdigits := length_takeWhile_le (p := isDigit) rest
      rw [fractionLength, List.length_cons]
      split <;> omega

theorem literalLength_le (text : Text) : literalLength text ≤ text.length := by
  have hfront := signLength_add_wholeLength_le text
  have hfraction := fractionLength_le (text.drop (signLength text + wholeLength text))
  rw [List.length_drop] at hfraction
  unfold literalLength
  omega

/-! ## The forms in turn -/

/-- What is read when no other form stands at the front: a run of free text, or a single character
that may not stand in one. -/
def run (c : Char) (rest : Text) : Lexeme :=
  if isRunChar c then
    let tail := rest.takeWhile isRunChar
    ⟨.run (c :: tail), tail.length⟩
  else
    ⟨.run [c], 0⟩

/-- Some form always stands at the front, since the last one takes any character. -/
theorem read?_eq_some (lineStart : Bool) (c : Char) (rest : Text) :
    read? lineStart c rest = some (((if lineStart then comment? c rest else none)
      <|> quoted? c rest
      <|> number? c rest
      <|> word? c rest
      <|> (punctuation? c).map (fun token => (⟨token, 0⟩ : Lexeme))
      <|> blank? c rest).getD (run c rest)) := by
  have hfree : (run? c rest <|> stray? (c :: rest)) = some (run c rest) := by
    unfold run? run
    split <;> rfl
  rw [read?, hfree]
  simp only [Option.orElse_eq_orElse, Option.orElse_eq_or, Option.or_some, Option.getD_or]

/-! ## Characters that open a form -/

theorem comment?_eq_none {c : Char} (h : c ≠ '/') (rest : Text) : comment? c rest = none := by
  cases rest with
  | nil => rfl
  | cons d body => rw [comment?, if_neg (fun hslashes => h hslashes.1)]

theorem quoted?_eq_none {c : Char} (h : isQuote c = false) (rest : Text) :
    quoted? c rest = none := by
  rw [quoted?, if_neg (by simp [h])]

theorem number?_eq_none {c : Char} (hminus : c ≠ '-') (hdigit : isDigit c = false) (rest : Text) :
    number? c rest = none := by
  have hwhole : wholeLength (c :: rest) = 0 := by
    simp [wholeLength, signLength, hminus, hdigit]
  rw [number?, numberLength?_eq, if_pos hwhole, Option.map_none]

/-! ## What ends a lexeme -/

section Stop

variable {c d : Char} (hd : isRunChar d = false) (rest more : Text)
include hd

theorem signLength_append_stop : signLength (rest ++ d :: more) = signLength rest := by
  have hminus : d ≠ '-' := ne_of_isRunChar hd (by decide)
  simp only [signLength, head?_append_cons_eq_some_iff hminus]

theorem wholeLength_append_stop : wholeLength (rest ++ d :: more) = wholeLength rest := by
  rw [wholeLength, signLength_append_stop hd, List.drop_append_of_le_length (signLength_le rest),
    takeWhile_append_cons (isDigit_of_isRunChar hd), wholeLength]

theorem fractionLength_append_stop :
    fractionLength (rest ++ d :: more) = fractionLength rest := by
  cases rest with
  | nil =>
      have hdot : d ≠ '.' := ne_of_isRunChar hd (by decide)
      simp [fractionLength, hdot]
  | cons first tail =>
      rw [List.cons_append, fractionLength, takeWhile_append_cons (isDigit_of_isRunChar hd)]
      rfl

theorem literalLength_append_stop :
    literalLength (rest ++ d :: more) = literalLength rest := by
  rw [literalLength, signLength_append_stop hd, wholeLength_append_stop hd,
    List.drop_append_of_le_length (signLength_add_wholeLength_le rest),
    fractionLength_append_stop hd, literalLength]

theorem numberLength?_append_stop :
    numberLength? (rest ++ d :: more) = numberLength? rest := by
  have hword : ((rest ++ d :: more).drop (literalLength rest)).head?.any isWordChar =
      (rest.drop (literalLength rest)).head?.any isWordChar := by
    rw [List.drop_append_of_le_length (literalLength_le rest)]
    cases rest.drop (literalLength rest) with
    | nil => simp [isWordChar_of_isRunChar hd]
    | cons first tail => rfl
  rw [numberLength?_eq, wholeLength_append_stop hd, literalLength_append_stop hd, hword,
    ← numberLength?_eq]

theorem number?_append_stop : number? c (rest ++ d :: more) = number? c rest := by
  have hlength := numberLength?_append_stop hd (c :: rest) more
  rw [List.cons_append] at hlength
  rw [number?, hlength, number?]
  cases hfound : numberLength? (c :: rest) with
  | none => rfl
  | some length =>
      have hle : length ≤ (c :: rest).length := by
        rw [(eq_literalLength_of_numberLength? hfound).1]
        exact literalLength_le _
      rw [Option.map_some, Option.map_some, ← List.cons_append,
        List.take_append_of_le_length hle]

theorem word?_append_stop : word? c (rest ++ d :: more) = word? c rest := by
  rw [word?, takeWhile_append_cons (isWordChar_of_isRunChar hd), word?]

theorem run_append_stop : run c (rest ++ d :: more) = run c rest := by
  rw [run, takeWhile_append_cons hd, run]

omit hd in
/-- White space goes on over white space, but not over a newline. -/
theorem blank?_append_stop (hblank : isBlank c → d = '\n' ∨ isBlank d = false) :
    blank? c (rest ++ d :: more) = blank? c rest := by
  unfold blank?
  split
  next => rfl
  next =>
    split
    next hc =>
      have hstop : (isBlank d && d ≠ '\n') = false := by
        rcases hblank hc with rfl | hd
        · decide
        · simp [hd]
      rw [takeWhile_append_cons (p := fun d => isBlank d && d ≠ '\n') hstop]
    next => rfl

end Stop

theorem quoted?_append_newline (c : Char) (rest more : Text) :
    quoted? c (rest ++ '\n' :: more) = quoted? c rest := by
  unfold quoted?
  split
  next hquote =>
    have hnewline : '\n' ≠ c := by
      rintro rfl
      exact absurd hquote (by decide)
    have hstop : ('\n' ≠ c && '\n' ≠ '\n') = false := by simp
    simp only [takeWhile_append_cons (p := fun d => d ≠ c && d ≠ '\n') (d := '\n') (by simp),
      List.drop_append_of_le_length (length_takeWhile_le rest),
      head?_append_cons_eq_some_iff hnewline]
  next => rfl

theorem comment?_append_newline (c : Char) (rest more : Text) :
    comment? c (rest ++ '\n' :: more) = comment? c rest := by
  cases rest with
  | nil => simp [comment?]
  | cons first body =>
      simp only [List.cons_append, comment?,
        takeWhile_append_cons (p := (· ≠ '\n')) (d := '\n') (by decide)]

theorem slashes_of_comment? {c : Char} {rest : Text} {found : Lexeme}
    (h : comment? c rest = some found) : c = '/' ∧ ∃ body, rest = '/' :: body := by
  cases rest with
  | nil => cases h
  | cons d body =>
      obtain ⟨⟨hc, rfl⟩, _⟩ := Option.ite_none_right_eq_some.mp h
      exact ⟨hc, body, rfl⟩

/-- No character but a slash makes a comment of a text in front of it. -/
theorem comment?_append_of_ne {c d : Char} {rest : Text} (hd : d ≠ '/')
    (h : comment? c rest = none) (more : Text) : comment? c (rest ++ d :: more) = none := by
  cases hcomment : comment? c (rest ++ d :: more) with
  | none => rfl
  | some found =>
      obtain ⟨rfl, body, hbody⟩ := slashes_of_comment? hcomment
      cases rest with
      | nil => exact absurd (List.cons.inj hbody).1 hd
      | cons e tail =>
          obtain ⟨rfl, _⟩ := List.cons.inj hbody
          cases h

end Lexeme

theorem lexeme_eq (lineStart : Bool) (c : Char) (rest : Text) :
    lexeme lineStart c rest = ((if lineStart then Lexeme.comment? c rest else none)
      <|> Lexeme.quoted? c rest
      <|> Lexeme.number? c rest
      <|> Lexeme.word? c rest
      <|> (Lexeme.punctuation? c).map (fun token => (⟨token, 0⟩ : Lexeme))
      <|> Lexeme.blank? c rest).getD (Lexeme.run c rest) := by
  rw [lexeme, Lexeme.read?_eq_some, Option.getD_some]

/-- A character that may not stand in a run ends the lexeme in front of it, unless that is white
space, a quoted text or a comment that goes on over it. -/
theorem lexeme_append_stop {lineStart : Bool} {c d : Char} (hd : Lexeme.isRunChar d = false)
    (hblank : isBlank c → d = '\n' ∨ isBlank d = false) {rest more : Text}
    (hquoted : Lexeme.quoted? c (rest ++ d :: more) = Lexeme.quoted? c rest)
    (hcomment : lineStart → Lexeme.comment? c (rest ++ d :: more) = Lexeme.comment? c rest) :
    lexeme lineStart c (rest ++ d :: more) = lexeme lineStart c rest := by
  have hcommented : (if lineStart then Lexeme.comment? c (rest ++ d :: more) else none) =
      if lineStart then Lexeme.comment? c rest else none := by
    cases lineStart with
    | false => rfl
    | true => exact hcomment rfl
  rw [lexeme_eq, hcommented, hquoted, Lexeme.number?_append_stop hd, Lexeme.word?_append_stop hd,
    Lexeme.blank?_append_stop rest more hblank, Lexeme.run_append_stop hd, lexeme_eq]

/-- A break ends the lexeme in front of it, unless it stands in a longer stretch of white space, in
a quoted text or in a comment; a newline ends those as well. -/
theorem lexeme_append_break {lineStart : Bool} {c d : Char} (hd : isBreak d)
    (hblank : isBlank c → d = '\n' ∨ isBlank d = false)
    (hquote : Lexeme.isQuote c → d = '\n') (hcomment : lineStart → c = '/' → d = '\n')
    (rest more : Text) :
    lexeme lineStart c (rest ++ d :: more) = lexeme lineStart c rest := by
  apply lexeme_append_stop (isRunChar_of_isBreak hd) hblank
  · by_cases h : Lexeme.isQuote c
    · rw [hquote h, Lexeme.quoted?_append_newline]
    · rw [Lexeme.quoted?, if_neg h, Lexeme.quoted?, if_neg h]
  · intro hstart
    by_cases h : c = '/'
    · rw [hcomment hstart h, Lexeme.comment?_append_newline]
    · rw [Lexeme.comment?_eq_none h, Lexeme.comment?_eq_none h]

theorem lexeme_append_newline (lineStart : Bool) (c : Char) (rest more : Text) :
    lexeme lineStart c (rest ++ '\n' :: more) = lexeme lineStart c rest :=
  lexeme_append_break (by decide) (fun _ => .inl rfl) (fun _ => rfl) (fun _ _ => rfl) rest more

/-! ## What a lexeme is read from -/

/-- The literals of the forms `-?digits` and `-?digits.digits`. -/
def IsNumberLiteral (literal : Text) : Prop :=
  ∃ sign whole fraction : Text, literal = sign ++ (whole ++ fraction) ∧
    (sign = [] ∨ sign = ['-']) ∧ Decimal.isDigits whole ∧
    (fraction = [] ∨ ∃ digits, fraction = '.' :: digits ∧ Decimal.isDigits digits)

theorem IsNumberLiteral.mem_cases {literal : Text} (h : IsNumberLiteral literal) {c : Char}
    (hmem : c ∈ literal) : c = '-' ∨ c = '.' ∨ isDigit c := by
  obtain ⟨sign, whole, fraction, rfl, hsign, hwhole, hfraction⟩ := h
  have hdigits : ∀ {digits : Text}, Decimal.isDigits digits → c ∈ digits → isDigit c := by
    intro digits hall hc
    rw [Decimal.isDigits, Bool.and_eq_true] at hall
    exact List.all_eq_true.mp hall.2 c hc
  rw [List.mem_append, List.mem_append] at hmem
  rcases hmem with hc | hc | hc
  · rcases hsign with rfl | rfl
    · cases hc
    · exact .inl (List.mem_singleton.mp hc)
  · exact .inr (.inr (hdigits hwhole hc))
  · rcases hfraction with rfl | ⟨digits, rfl, hall⟩
    · cases hc
    · rcases List.mem_cons.mp hc with rfl | hc
      · exact .inr (.inl rfl)
      · exact .inr (.inr (hdigits hall hc))

/-- The texts that a token is read from. -/
def Token.Spells : Token → Text → Prop
  | create, text => text = ['C', 'r', 'e', 'a', 't', 'e']
  | style, text => text = ['S', 't', 'y', 'l', 'e']
  | identifier name, text =>
    text = name ∧ Text.isIdentifier name ∧ ofWord name = identifier name
  | number literal, text => text = literal ∧ IsNumberLiteral literal
  | quoted content, text => ∃ quote, Lexeme.isQuote quote ∧ quote ∉ content ∧ '\n' ∉ content ∧
      text = quote :: (content ++ [quote])
  | run free, text => text = free ∧
      ((free ≠ [] ∧ free.all Lexeme.isRunChar) ∨ ∃ quote, Lexeme.isQuote quote ∧ free = [quote])
  | leftParen, text => text = ['(']
  | rightParen, text => text = [')']
  | leftBrace, text => text = ['{']
  | rightBrace, text => text = ['}']
  | colon, text => text = [':']
  | semicolon, text => text = [';']
  | comma, text => text = [',']
  | comment body, text => '\n' ∉ body ∧ text = '/' :: '/' :: body
  | space, text => text ≠ [] ∧ text.all fun c => isBlank c && c ≠ '\n'
  | newline, text => text = ['\n']

namespace Lexeme

/-- The lexeme takes a spelling of its token from the front of `c :: rest`. -/
structure Reads (found : Lexeme) (c : Char) (rest : Text) : Prop where
  tail_le : found.tail ≤ rest.length
  spells : found.token.Spells (c :: rest.take found.tail)

theorem comment?_reads {c : Char} {rest : Text} {found : Lexeme}
    (h : comment? c rest = some found) : found.Reads c rest := by
  cases rest with
  | nil => cases h
  | cons d body =>
      rw [comment?] at h
      split at h
      next hslashes =>
        obtain rfl := Option.some.inj h
        refine ⟨Nat.succ_le_succ (length_takeWhile_le body), ?_, ?_⟩
        · exact fun hmem => by simpa using List.mem_takeWhile_imp hmem
        · rw [List.take_succ_cons, take_length_takeWhile, hslashes.1, hslashes.2]
      next => cases h

/-- A quoted text is closed by the next quote of its kind, which stands on the same line. -/
theorem quoted?_eq_some {c : Char} {rest : Text} {found : Lexeme}
    (h : quoted? c rest = some found) :
    isQuote c ∧ ∃ content more, rest = content ++ c :: more ∧ c ∉ content ∧ '\n' ∉ content ∧
      found = ⟨.quoted content, content.length + 1⟩ := by
  simp only [quoted?, drop_length_takeWhile] at h
  split at h
  next hquote =>
    split at h
    next hclose =>
      refine ⟨hquote, rest.takeWhile (fun d => d ≠ c && d ≠ '\n'), ?_⟩
      have hsplit := List.takeWhile_append_dropWhile (p := fun d => d ≠ c && d ≠ '\n') (l := rest)
      cases hdrop : rest.dropWhile fun d => d ≠ c && d ≠ '\n' with
      | nil =>
          rw [hdrop] at hclose
          cases hclose
      | cons first more =>
          rw [hdrop, List.head?_cons] at hclose
          rw [hdrop, Option.some.inj hclose] at hsplit
          refine ⟨more, hsplit.symm, ?_, ?_, (Option.some.inj h).symm⟩
          · exact fun hmem => by simpa using List.mem_takeWhile_imp hmem
          · exact fun hmem => by simpa using List.mem_takeWhile_imp hmem
    next => cases h
  next => cases h

theorem quoted?_append_cons {quote : Char} {content : Text} (hquote : isQuote quote)
    (hclose : quote ∉ content) (hline : '\n' ∉ content) (more : Text) :
    quoted? quote (content ++ quote :: more) = some ⟨.quoted content, content.length + 1⟩ := by
  have hcontent : ∀ c ∈ content, (c ≠ quote && c ≠ '\n') = true := by
    intro c hmem
    have hne : c ≠ quote := fun h => hclose (h ▸ hmem)
    have hnewline : c ≠ '\n' := fun h => hline (h ▸ hmem)
    simp [hne, hnewline]
  have htake : (content ++ quote :: more).takeWhile (fun c => c ≠ quote && c ≠ '\n') =
      content := by
    rw [List.takeWhile_append_of_pos hcontent, List.takeWhile_cons_of_neg (by simp),
      List.append_nil]
  simp only [quoted?, if_pos hquote, htake, List.drop_left, List.head?_cons, if_true]

theorem quoted?_reads {c : Char} {rest : Text} {found : Lexeme}
    (h : quoted? c rest = some found) : found.Reads c rest := by
  obtain ⟨hquote, content, more, rfl, hclose, hline, rfl⟩ := quoted?_eq_some h
  refine ⟨by simp, c, hquote, hclose, hline, ?_⟩
  rw [List.append_cons, List.take_left' (by simp)]

/-- The front of a text that is taken for a number is a number literal. -/
theorem isNumberLiteral_take_literalLength {text : Text} (h : wholeLength text ≠ 0) :
    IsNumberLiteral (text.take (literalLength text)) := by
  have hwhole : ((text.drop (signLength text)).take (wholeLength text)) =
      (text.drop (signLength text)).takeWhile isDigit := take_length_takeWhile _
  refine ⟨text.take (signLength text), (text.drop (signLength text)).takeWhile isDigit,
    (text.drop (signLength text + wholeLength text)).take
      (fractionLength (text.drop (signLength text + wholeLength text))), ?_, ?_, ?_, ?_⟩
  · rw [literalLength, List.take_add, List.take_add, hwhole, List.append_assoc]
  · unfold signLength
    cases text with
    | nil => exact .inl rfl
    | cons c rest =>
        by_cases hminus : c = '-'
        · simp [hminus]
        · simp [hminus]
  · rw [Decimal.isDigits, Bool.and_eq_true]
    refine ⟨?_, List.all_takeWhile⟩
    unfold wholeLength at h
    simpa [List.isEmpty_iff] using h
  · cases text.drop (signLength text + wholeLength text) with
    | nil => exact .inl rfl
    | cons c rest =>
        rw [fractionLength]
        split
        next hdot =>
          refine .inr ⟨rest.takeWhile isDigit, ?_, ?_⟩
          · rw [List.take_succ_cons, take_length_takeWhile, hdot.1]
          · rw [Decimal.isDigits, Bool.and_eq_true]
            exact ⟨by simpa [List.isEmpty_iff] using hdot.2, List.all_takeWhile⟩
        next => exact .inl rfl

theorem number?_reads {c : Char} {rest : Text} {found : Lexeme}
    (h : number? c rest = some found) : found.Reads c rest := by
  obtain ⟨length, hlength, rfl⟩ := Option.map_eq_some_iff.mp h
  obtain ⟨rfl, hwhole, _⟩ := eq_literalLength_of_numberLength? hlength
  have hle := literalLength_le (c :: rest)
  have hpos : 0 < literalLength (c :: rest) := by
    unfold literalLength
    omega
  rw [List.length_cons] at hle
  refine ⟨by simp only; omega, ?_, isNumberLiteral_take_literalLength hwhole⟩
  rw [← List.take_succ_cons, Nat.sub_add_cancel hpos]

theorem ofWord_spells {word : Text} (h : Text.isIdentifier word) :
    (Token.ofWord word).Spells word := by
  unfold Token.ofWord
  split
  next hcreate => exact hcreate
  next hcreate =>
    split
    next hstyle => exact hstyle
    next hstyle => exact ⟨rfl, h, by rw [Token.ofWord, if_neg hcreate, if_neg hstyle]⟩

theorem word?_reads {c : Char} {rest : Text} {found : Lexeme}
    (h : word? c rest = some found) : found.Reads c rest := by
  unfold word? at h
  split at h
  next hstart =>
    obtain rfl := Option.some.inj h
    refine ⟨length_takeWhile_le rest, ?_⟩
    rw [take_length_takeWhile]
    apply ofWord_spells
    rw [Text.isIdentifier, hstart, List.all_takeWhile, Bool.and_true]
  next => cases h

theorem punctuation?_reads {c : Char} {rest : Text} {token : Token}
    (h : punctuation? c = some token) : Reads ⟨token, 0⟩ c rest := by
  refine ⟨Nat.zero_le _, ?_⟩
  have hmem := mem_of_punctuation? h
  simp only [List.mem_cons, List.not_mem_nil, or_false] at hmem
  rcases hmem with rfl | rfl | rfl | rfl | rfl | rfl | rfl <;> obtain rfl := Option.some.inj h <;>
    exact rfl

theorem blank?_reads {c : Char} {rest : Text} {found : Lexeme}
    (h : blank? c rest = some found) : found.Reads c rest := by
  unfold blank? at h
  split at h
  next hnewline =>
    obtain rfl := Option.some.inj h
    exact ⟨Nat.zero_le _, by rw [hnewline]; exact rfl⟩
  next hnewline =>
    split at h
    next hblank =>
      obtain rfl := Option.some.inj h
      refine ⟨length_takeWhile_le rest, List.cons_ne_nil _ _, ?_⟩
      rw [take_length_takeWhile, List.all_cons, List.all_takeWhile]
      simp [hblank, hnewline]
    next => cases h

/-- What no other form takes is free text: a character that is neither white space nor punctuation
is a quote or may stand in a run. -/
theorem run_reads {c : Char} {rest : Text} (hpunctuation : punctuation? c = none)
    (hblank : blank? c rest = none) : (run c rest).Reads c rest := by
  unfold run
  split
  next hrun =>
    refine ⟨length_takeWhile_le rest, ?_, .inl ⟨List.cons_ne_nil _ _, ?_⟩⟩
    · rw [take_length_takeWhile]
    · rw [List.all_cons, List.all_takeWhile, hrun, Bool.and_true]
  next hrun =>
    refine ⟨Nat.zero_le _, rfl, .inr ⟨c, ?_, rfl⟩⟩
    have hc : isBlank c = false := by
      unfold blank? at hblank
      split at hblank
      next => cases hblank
      next =>
        split at hblank
        next => cases hblank
        next h => exact Bool.of_not_eq_true h
    simpa [isRunChar, hc, hpunctuation] using hrun

end Lexeme

/-- The forms in the order in which they are tried. -/
theorem lexeme_cases (lineStart : Bool) (c : Char) (rest : Text) :
    (lineStart ∧ Lexeme.comment? c rest = some (lexeme lineStart c rest)) ∨
      Lexeme.quoted? c rest = some (lexeme lineStart c rest) ∨
      Lexeme.number? c rest = some (lexeme lineStart c rest) ∨
      Lexeme.word? c rest = some (lexeme lineStart c rest) ∨
      (∃ token, Lexeme.punctuation? c = some token ∧ lexeme lineStart c rest = ⟨token, 0⟩) ∨
      Lexeme.blank? c rest = some (lexeme lineStart c rest) ∨
      (Lexeme.punctuation? c = none ∧ Lexeme.blank? c rest = none ∧
        lexeme lineStart c rest = Lexeme.run c rest) := by
  cases hcomment : if lineStart then Lexeme.comment? c rest else none with
  | some found =>
      cases lineStart with
      | false => cases hcomment
      | true =>
          refine .inl ⟨rfl, ?_⟩
          rw [if_pos rfl] at hcomment
          simp [lexeme_eq, hcomment]
  | none =>
      apply Or.inr
      rw [lexeme_eq, hcomment]
      cases Lexeme.quoted? c rest with
      | some found => exact .inl rfl
      | none =>
          apply Or.inr
          cases Lexeme.number? c rest with
          | some found => exact .inl rfl
          | none =>
              apply Or.inr
              cases Lexeme.word? c rest with
              | some found => exact .inl rfl
              | none =>
                  apply Or.inr
                  cases Lexeme.punctuation? c with
                  | some token => exact .inl ⟨token, rfl, rfl⟩
                  | none =>
                      apply Or.inr
                      cases Lexeme.blank? c rest with
                      | some found => exact .inl rfl
                      | none => exact .inr ⟨rfl, rfl, rfl⟩

/-- The lexeme at the front of a text takes a spelling of its token. -/
theorem lexeme_reads (lineStart : Bool) (c : Char) (rest : Text) :
    (lexeme lineStart c rest).Reads c rest := by
  rcases lexeme_cases lineStart c rest with
    ⟨_, h⟩ | h | h | h | ⟨token, htoken, h⟩ | h | ⟨hpunctuation, hblank, h⟩
  · exact Lexeme.comment?_reads h
  · exact Lexeme.quoted?_reads h
  · exact Lexeme.number?_reads h
  · exact Lexeme.word?_reads h
  · exact h ▸ Lexeme.punctuation?_reads htoken
  · exact Lexeme.blank?_reads h
  · exact h ▸ Lexeme.run_reads hpunctuation hblank

/-! ## Lexemes that begin with a break -/

/-- A break opens no comment, quoted text, number or word. -/
theorem lexeme_of_isBreak {c : Char} (h : isBreak c) (lineStart : Bool) (rest : Text) :
    lexeme lineStart c rest =
      (((Lexeme.punctuation? c).map fun token => (⟨token, 0⟩ : Lexeme)) <|>
        Lexeme.blank? c rest).getD (Lexeme.run c rest) := by
  have hslash : c ≠ '/' := ne_of_isBreak h (by decide)
  have hminus : c ≠ '-' := ne_of_isBreak h (by decide)
  have hquote : Lexeme.isQuote c = false := by
    simp [Lexeme.isQuote, ne_of_isBreak (d := '"') h (by decide),
      ne_of_isBreak (d := '\'') h (by decide)]
  have hword : Lexeme.word? c rest = none := by
    have hstart : ¬ isWordStart c := fun hstart => by
      have := isWordChar_of_isWordStart hstart
      rw [isWordChar_of_isBreak h] at this
      cases this
    rw [Lexeme.word?, if_neg hstart]
  rw [lexeme_eq, Lexeme.comment?_eq_none hslash, Lexeme.quoted?_eq_none hquote,
    Lexeme.number?_eq_none hminus (isDigit_of_isBreak h), hword, ite_self]
  rfl

theorem lexeme_punctuation {c : Char} {token : Token} (h : Lexeme.punctuation? c = some token)
    (lineStart : Bool) (rest : Text) : lexeme lineStart c rest = ⟨token, 0⟩ := by
  have hbreak : isBreak c := by simp [isBreak, h]
  rw [lexeme_of_isBreak hbreak, h]
  rfl

theorem lexeme_newline (lineStart : Bool) (rest : Text) :
    lexeme lineStart '\n' rest = ⟨.newline, 0⟩ := by
  rw [lexeme_of_isBreak (by decide)]
  rfl

theorem lexeme_space {c : Char} (hblank : isBlank c) (hnewline : c ≠ '\n') (lineStart : Bool)
    (rest : Text) :
    lexeme lineStart c rest =
      ⟨.space, (rest.takeWhile fun d => isBlank d && d ≠ '\n').length⟩ := by
  have hpunctuation : Lexeme.punctuation? c = none := by
    cases h : Lexeme.punctuation? c with
    | none => rfl
    | some token =>
        have hmem := mem_of_punctuation? h
        simp only [List.mem_cons, List.not_mem_nil, or_false] at hmem
        rcases hmem with rfl | rfl | rfl | rfl | rfl | rfl | rfl <;> exact absurd hblank (by decide)
  have hbreak : isBreak c := by simp [isBreak, hblank]
  rw [lexeme_of_isBreak hbreak, hpunctuation, Lexeme.blank?, if_neg hnewline, if_pos hblank]
  rfl

/-! ## Lexemes that begin with another character -/

/-- The classes of characters that decide which forms a lexeme can have. -/
theorem character_cases (c : Char) :
    isBreak c ∨ Lexeme.isQuote c ∨ isWordStart c ∨
      (Lexeme.isRunChar c ∧ isWordStart c = false) := by
  by_cases hrun : Lexeme.isRunChar c
  · cases hword : isWordStart c with
    | true => exact .inr (.inr (.inl rfl))
    | false => exact .inr (.inr (.inr ⟨hrun, rfl⟩))
  · by_cases hquote : Lexeme.isQuote c
    · exact .inr (.inl hquote)
    · refine .inl ?_
      cases hpunctuation : Lexeme.punctuation? c <;>
        simp_all [Lexeme.isRunChar, isBreak]

theorem lexeme_of_isQuote {c : Char} (h : Lexeme.isQuote c) (lineStart : Bool) (rest : Text) :
    lexeme lineStart c rest = (Lexeme.quoted? c rest).getD ⟨.run [c], 0⟩ := by
  rw [Lexeme.isQuote, Bool.or_eq_true, decide_eq_true_eq, decide_eq_true_eq] at h
  rw [lexeme_eq]
  rcases h with rfl | rfl
  · rw [Lexeme.comment?_eq_none (by decide), Lexeme.number?_eq_none (by decide) (by decide),
      ite_self]
    cases Lexeme.quoted? '"' rest <;> rfl
  · rw [Lexeme.comment?_eq_none (by decide), Lexeme.number?_eq_none (by decide) (by decide),
      ite_self]
    cases Lexeme.quoted? '\'' rest <;> rfl

theorem lexeme_of_isWordStart {c : Char} (h : isWordStart c) (lineStart : Bool) (rest : Text) :
    lexeme lineStart c rest =
      ⟨.ofWord (c :: rest.takeWhile isWordChar), (rest.takeWhile isWordChar).length⟩ := by
  have hword := isWordChar_of_isWordStart h
  have hslash : c ≠ '/' := ne_of_isWordChar hword (by decide)
  have hminus : c ≠ '-' := ne_of_isWordChar hword (by decide)
  rw [lexeme_eq, Lexeme.comment?_eq_none hslash, Lexeme.quoted?_eq_none (isQuote_of_isWordChar hword),
    Lexeme.number?_eq_none hminus (isDigit_of_isWordStart h), Lexeme.word?, if_pos h, ite_self]
  rfl

theorem lexeme_of_isRunChar {c : Char} (h : Lexeme.isRunChar c) (hword : isWordStart c = false)
    (lineStart : Bool) (rest : Text) :
    lexeme lineStart c rest =
      ((if lineStart then Lexeme.comment? c rest else none) <|> Lexeme.number? c rest).getD
        ⟨.run (c :: rest.takeWhile Lexeme.isRunChar),
          (rest.takeWhile Lexeme.isRunChar).length⟩ := by
  have hrun : Lexeme.run c rest =
      ⟨.run (c :: rest.takeWhile Lexeme.isRunChar),
        (rest.takeWhile Lexeme.isRunChar).length⟩ := by
    rw [Lexeme.run, if_pos h]
  simp only [Lexeme.isRunChar, Bool.and_eq_true, Bool.not_eq_true', Option.isNone_iff_eq_none] at h
  obtain ⟨⟨hblank, hpunctuation⟩, hquote⟩ := h
  have hnewline : c ≠ '\n' := by
    rintro rfl
    cases hblank
  rw [lexeme_eq, Lexeme.quoted?_eq_none hquote, Lexeme.word?, hword, hpunctuation, Lexeme.blank?,
    if_neg hnewline, hblank, hrun]
  cases (if lineStart then Lexeme.comment? c rest else none) <;>
    cases Lexeme.number? c rest <;> rfl

end SceneScript
