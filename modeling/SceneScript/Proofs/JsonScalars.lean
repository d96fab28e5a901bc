import SceneScript.Proofs.Forms
import SceneScript.Proofs.JsonTexts
import SceneScript.Proofs.ValueForms

/-! # Reading the strings and numbers of JSON

Strings and numbers are read from the front of a text, character by character. What is taken is
exactly what spells the string or the number, where a number is taken as far as it goes.
-/

namespace SceneScript.Json

/-! ## White space -/

/-- What follows the white space at the front of a text. -/
def skip (text : Text) : Text :=
  text.dropWhile isSpacing

theorem exists_skip (text : Text) : ∃ gap : Text, gap.all isSpacing ∧ text = gap ++ skip text :=
  ⟨text.takeWhile isSpacing, List.all_takeWhile, List.takeWhile_append_dropWhile.symm⟩

theorem skip_append_cons {gap : Text} (hgap : gap.all isSpacing) {c : Char}
    (hc : isSpacing c = false) (rest : Text) : skip (gap ++ c :: rest) = c :: rest :=
  dropWhile_append_cons (List.all_eq_true.mp hgap) hc

/-- A result that is made of what was found at the front of a text, with the same rest. -/
theorem exists_of_map {α β : Type} {f : α → β} {found : Option (α × Text)} {b : β} {rest : Text}
    (h : (found.map fun (a, rest) => (f a, rest)) = some (b, rest)) :
    ∃ a, found = some (a, rest) ∧ b = f a := by
  obtain ⟨⟨a, _⟩, hfound, heq⟩ := Option.map_eq_some_iff.mp h
  obtain ⟨rfl, rfl⟩ := Prod.mk.inj heq
  exact ⟨a, hfound, rfl⟩

/-! ## Strings -/

/-- The number that four hexadecimal digits stand for. -/
def unit? : Text → Option (Nat × Text)
  | a :: b :: c :: d :: rest => do
    let i ← hexValue? a
    let j ← hexValue? b
    let k ← hexValue? c
    let l ← hexValue? d
    return (((i * 16 + j) * 16 + k) * 16 + l, rest)
  | _ => none

theorem unit?_eq_some_iff {text rest : Text} {unit : Nat} :
    unit? text = some (unit, rest) ↔ ∃ digits, SpellsUnit unit digits ∧ text = digits ++ rest := by
  constructor
  · intro h
    unfold unit? at h
    split at h
    next a b c d rest =>
      simp only [Option.bind_eq_bind, Option.bind_eq_some_iff, Option.pure_def, Option.some.injEq,
        Prod.mk.injEq] at h
      obtain ⟨i, ha, j, hb, k, hc, l, hd, rfl, rfl⟩ := h
      exact ⟨[a, b, c, d], .intro ha hb hc hd, rfl⟩
    next => cases h
  · rintro ⟨_, ⟨ha, hb, hc, hd⟩, rfl⟩
    simp [unit?, ha, hb, hc, hd]

/-- The second half of a character, escaped like the first. -/
def lowHalf? : Text → Option (Nat × Text)
  | '\\' :: 'u' :: rest => (unit? rest).filter fun (unit, _) => isLowHalf unit
  | _ => none

/-- The character that one number stands for, or two. -/
def escaped? (text : Text) : Option (Char × Text) := do
  let (unit, rest) ← unit? text
  if isHighHalf unit then
    let (low, rest) ← lowHalf? rest
    return (Char.ofNat (ofHalves unit low), rest)
  else if isLowHalf unit then none
  else return (Char.ofNat unit, rest)

/-- A character inside a string. -/
def character? : Text → Option (Char × Text)
  | '\\' :: 'u' :: rest => escaped? rest
  | '\\' :: letter :: rest => (shortEscapes.lookup letter).map (·, rest)
  | c :: rest => if isPlain c then some (c, rest) else none
  | [] => none

theorem hexValue?_lt {c : Char} {n : Nat} (h : hexValue? c = some n) : n < 16 := by
  have hle : ∀ a b : Char, a ≤ b ↔ a.toNat ≤ b.toNat := fun _ _ => Iff.rfl
  simp only [hexValue?, isDigit, hle, Bool.and_eq_true, decide_eq_true_eq, Char.reduceToNat] at h
  split at h
  next hdigit =>
    obtain rfl := Option.some.inj h
    omega
  next =>
    split at h
    next hlower =>
      obtain rfl := Option.some.inj h
      omega
    next =>
      obtain ⟨hupper, hvalue⟩ := Option.ite_none_right_eq_some.mp h
      obtain rfl := Option.some.inj hvalue
      omega

theorem SpellsUnit.lt {unit : Nat} {digits : Text} (h : SpellsUnit unit digits) :
    unit < 0x10000 := by
  obtain ⟨ha, hb, hc, hd⟩ := h
  have hi := hexValue?_lt ha
  have hj := hexValue?_lt hb
  have hk := hexValue?_lt hc
  have hl := hexValue?_lt hd
  omega

theorem lowHalf?_eq_some_iff {text rest : Text} {low : Nat} :
    lowHalf? text = some (low, rest) ↔
      ∃ digits, SpellsUnit low digits ∧ isLowHalf low ∧ text = '\\' :: 'u' :: (digits ++ rest) := by
  constructor
  · intro h
    unfold lowHalf? at h
    split at h
    next =>
      obtain ⟨hunit, hlow⟩ := Option.filter_eq_some_iff.mp h
      obtain ⟨digits, hdigits, rfl⟩ := unit?_eq_some_iff.mp hunit
      exact ⟨digits, hdigits, hlow, rfl⟩
    next => cases h
  · rintro ⟨digits, hdigits, hlow, rfl⟩
    exact Option.filter_eq_some_iff.mpr ⟨unit?_eq_some_iff.mpr ⟨digits, hdigits, rfl⟩, hlow⟩

theorem isValidChar_ofHalves {high low : Nat} (hhigh : isHighHalf high) (hlow : isLowHalf low) :
    (ofHalves high low).isValidChar := by
  simp only [isHighHalf, isLowHalf, Bool.and_eq_true, decide_eq_true_eq] at hhigh hlow
  right
  unfold ofHalves
  omega

theorem toNat_ofNat_of_isValidChar {n : Nat} (h : n.isValidChar) : (Char.ofNat n).toNat = n := by
  rw [Char.ofNat, dif_pos h]
  rfl

theorem isValidChar_of_not_half {unit : Nat} (hunit : unit < 0x10000)
    (hhigh : isHighHalf unit = false) (hlow : isLowHalf unit = false) : unit.isValidChar := by
  simp only [isHighHalf, isLowHalf, Bool.and_eq_false_imp, decide_eq_true_eq,
    decide_eq_false_iff_not] at hhigh hlow
  unfold Nat.isValidChar
  omega

/-- The number of a character is not that of a half. -/
theorem not_half_toNat (c : Char) : isHighHalf c.toNat = false ∧ isLowHalf c.toNat = false := by
  have h : c.toNat < 0xD800 ∨ 0xDFFF < c.toNat ∧ c.toNat < 0x110000 := c.valid
  simp only [isHighHalf, isLowHalf, Bool.and_eq_false_imp, decide_eq_true_eq,
    decide_eq_false_iff_not]
  omega

theorem escaped?_eq_some_iff {text rest : Text} {c : Char} :
    escaped? text = some (c, rest) ↔
      ∃ body, SpellsCharacter c ('\\' :: 'u' :: body) ∧ text = body ++ rest := by
  constructor
  · intro h
    simp only [escaped?, Option.bind_eq_bind, Option.bind_eq_some_iff, Prod.exists] at h
    obtain ⟨unit, more, hunit, h⟩ := h
    obtain ⟨digits, hdigits, rfl⟩ := unit?_eq_some_iff.mp hunit
    split at h
    next hhigh =>
      simp only [Option.bind_eq_some_iff, Prod.exists, Option.pure_def, Option.some.injEq,
        Prod.mk.injEq] at h
      obtain ⟨low, _, hhalf, rfl, rfl⟩ := h
      obtain ⟨second, hsecond, hlow, rfl⟩ := lowHalf?_eq_some_iff.mp hhalf
      have hc := toNat_ofNat_of_isValidChar (isValidChar_ofHalves hhigh hlow)
      exact ⟨digits ++ '\\' :: 'u' :: second, .pair hdigits hhigh hsecond hlow hc,
        by rw [List.append_assoc]; rfl⟩
    next hhigh =>
      obtain ⟨hlow, hc⟩ := Option.ite_none_left_eq_some.mp h
      obtain ⟨rfl, rfl⟩ := Prod.mk.inj (Option.some.inj hc)
      rw [Bool.not_eq_true] at hhigh hlow
      have hvalid := isValidChar_of_not_half hdigits.lt hhigh hlow
      exact ⟨digits, .unit (by rwa [toNat_ofNat_of_isValidChar hvalid]), rfl⟩
  · rintro ⟨body, hc, rfl⟩
    cases hc with
    | short h => cases h
    | unit h =>
        obtain ⟨hhigh, hlow⟩ := not_half_toNat c
        have hunit : unit? (body ++ rest) = some (c.toNat, rest) :=
          unit?_eq_some_iff.mpr ⟨body, h, rfl⟩
        simp [escaped?, hunit, hhigh, hlow, Char.ofNat_toNat]
    | @pair high low first second hfirst hhigh hsecond hlow hvalue =>
        have hunit : unit? (first ++ '\\' :: 'u' :: (second ++ rest)) =
            some (high, '\\' :: 'u' :: (second ++ rest)) :=
          unit?_eq_some_iff.mpr ⟨first, hfirst, rfl⟩
        have hhalf : lowHalf? ('\\' :: 'u' :: (second ++ rest)) = some (low, rest) :=
          lowHalf?_eq_some_iff.mpr ⟨second, hsecond, hlow, rfl⟩
        simp [escaped?, hunit, hhigh, hhalf, ← hvalue, Char.ofNat_toNat]

/-- What is read as a character of a string is exactly what spells it. -/
theorem character?_eq_some_iff {text rest : Text} {c : Char} :
    character? text = some (c, rest) ↔ ∃ front, SpellsCharacter c front ∧ text = front ++ rest := by
  constructor
  · intro h
    unfold character? at h
    split at h
    next =>
      obtain ⟨body, hc, rfl⟩ := escaped?_eq_some_iff.mp h
      exact ⟨'\\' :: 'u' :: body, hc, rfl⟩
    next letter rest _ =>
      obtain ⟨c, hlookup, heq⟩ := Option.map_eq_some_iff.mp h
      obtain ⟨rfl, rfl⟩ := Prod.mk.inj heq
      exact ⟨['\\', letter], .short hlookup, rfl⟩
    next d rest _ _ =>
      obtain ⟨hplain, heq⟩ := Option.ite_none_right_eq_some.mp h
      obtain ⟨rfl, rfl⟩ := Prod.mk.inj (Option.some.inj heq)
      exact ⟨[d], .plain hplain, rfl⟩
    next => cases h
  · rintro ⟨front, hc, rfl⟩
    cases hc with
    | plain h =>
        have hc : c ≠ '\\' := by
          rintro rfl
          cases h
        simp [character?, hc, h]
    | @short letter h =>
        have hletter : letter ≠ 'u' := by
          rintro rfl
          cases h
        rw [List.cons_append, List.cons_append, character?, h]
        · rfl
        · exact hletter
    | unit h => exact escaped?_eq_some_iff.mpr ⟨_, .unit h, rfl⟩
    | pair hfirst hhigh hsecond hlow hvalue =>
        exact escaped?_eq_some_iff.mpr ⟨_, .pair hfirst hhigh hsecond hlow hvalue, rfl⟩

theorem length_lt_of_character? {text rest : Text} {c : Char}
    (h : character? text = some (c, rest)) : rest.length < text.length := by
  obtain ⟨front, hc, rfl⟩ := character?_eq_some_iff.mp h
  have hfront : front ≠ [] := by
    cases hc <;> exact List.cons_ne_nil _ _
  rw [List.length_append]
  exact Nat.lt_add_of_pos_left (List.length_pos_of_ne_nil hfront)

/-- The characters of a string up to the quote that ends it. -/
def characters? (text : Text) : Option (Text × Text) :=
  match _hc : character? text with
  | some (c, rest) => (characters? rest).map fun (content, rest) => (c :: content, rest)
  | none => if text.head? = some '"' then some ([], text.tail) else none
termination_by text.length
decreasing_by exact length_lt_of_character? _hc

theorem characters?_eq_some_iff {text content rest : Text} :
    characters? text = some (content, rest) ↔
      ∃ front, SpellsCharacters content front ∧ text = front ++ rest := by
  constructor
  · intro h
    fun_induction characters? text generalizing content rest with
    | case1 text c more hc ih =>
        obtain ⟨others, hmore, rfl⟩ := exists_of_map h
        obtain ⟨inner, hinner, rfl⟩ := ih hmore
        obtain ⟨front, hfront, rfl⟩ := character?_eq_some_iff.mp hc
        exact ⟨front ++ inner, .next hfront hinner, (List.append_assoc _ _ _).symm⟩
    | case2 text _ hquote =>
        obtain ⟨rfl, rfl⟩ := Prod.mk.inj (Option.some.inj h)
        exact ⟨['"'], .close, (List.cons_head?_tail hquote).symm⟩
    | case3 => cases h
  · rintro ⟨front, hfront, rfl⟩
    induction hfront with
    | close =>
        have hquote : character? ('"' :: rest) = none := rfl
        rw [List.cons_append, List.nil_append, characters?, hquote]
        rfl
    | @next c front content inner hc _ ih =>
        have hread : character? (front ++ (inner ++ rest)) = some (c, inner ++ rest) :=
          character?_eq_some_iff.mpr ⟨front, hc, rfl⟩
        rw [List.append_assoc, characters?, hread]
        simp [ih]

/-! ## Numbers -/

/-- Whether `c` may continue a number that could also end before it. -/
def continuesNumber (c : Char) : Bool :=
  isDigit c || c = '.' || c = 'e' || c = 'E'

/-- What may follow a value, so that it is clear where the value ends. -/
def EndsValue (rest : Text) : Prop :=
  rest.head?.any continuesNumber = false

theorem continuesNumber_of_isSpacing {c : Char} (h : isSpacing c) : continuesNumber c = false := by
  simp only [isSpacing, Bool.or_eq_true, decide_eq_true_eq] at h
  obtain ((rfl | rfl) | rfl) | rfl := h <;> rfl

theorem EndsValue.spacing_append {gap rest : Text} (hgap : gap.all isSpacing)
    (hrest : EndsValue rest) : EndsValue (gap ++ rest) := by
  cases gap with
  | nil => exact hrest
  | cons c gap => exact continuesNumber_of_isSpacing (Bool.and_eq_true_iff.mp hgap).1

theorem EndsValue.any_isDigit {rest : Text} (h : EndsValue rest) :
    rest.head?.any isDigit = false := by
  cases rest with
  | nil => rfl
  | cons c more =>
      simp only [EndsValue, List.head?_cons, Option.any_some, continuesNumber, Bool.or_eq_false_iff]
        at h
      exact h.1.1.1

theorem EndsValue.head?_ne {rest : Text} (h : EndsValue rest) : rest.head? ≠ some '.' := by
  intro hpoint
  rw [EndsValue, hpoint] at h
  cases h

theorem ne_nil_of_isDigits {digits : Text} (h : Decimal.isDigits digits) : digits ≠ [] := by
  rintro rfl
  cases h

/-- The digits at the front of a text, of which there is at least one. -/
def digits? (text : Text) : Option (Text × Text) :=
  let digits := text.takeWhile isDigit
  if digits.isEmpty then none else some (digits, text.dropWhile isDigit)

theorem of_digits? {text digits rest : Text} (h : digits? text = some (digits, rest)) :
    Decimal.isDigits digits ∧ text = digits ++ rest := by
  obtain ⟨hne, heq⟩ := Option.ite_none_left_eq_some.mp h
  obtain ⟨rfl, rfl⟩ := Prod.mk.inj (Option.some.inj heq)
  refine ⟨?_, List.takeWhile_append_dropWhile.symm⟩
  rw [Decimal.isDigits, List.all_takeWhile, Bool.and_true, Bool.not_eq_true']
  exact Bool.eq_false_of_not_eq_true hne

theorem digits?_append {digits rest : Text} (h : Decimal.isDigits digits)
    (hrest : rest.head?.any isDigit = false) : digits? (digits ++ rest) = some (digits, rest) := by
  obtain ⟨hne, hall⟩ := Bool.and_eq_true_iff.mp h
  rw [List.all_eq_true] at hall
  have htake : (digits ++ rest).takeWhile isDigit = digits := by
    rw [List.takeWhile_append_of_pos hall]
    cases rest with
    | nil => simp
    | cons c more => simp_all
  have hdrop : (digits ++ rest).dropWhile isDigit = rest := by
    rw [List.dropWhile_append_of_pos hall]
    cases rest with
    | nil => rfl
    | cons c more => simp_all
  rw [digits?, htake, hdrop]
  simpa using hne

/-- A point and digits, or nothing. -/
def fraction? : Text → Option (Option Text × Text)
  | '.' :: rest => (digits? rest).map fun (digits, rest) => (some digits, rest)
  | text => some (none, text)

theorem of_fraction? {text rest : Text} {fraction : Option Text}
    (h : fraction? text = some (fraction, rest)) :
    ∃ front, SpellsFraction fraction front ∧ text = front ++ rest := by
  unfold fraction? at h
  split at h
  next =>
    obtain ⟨digits, hdigits, rfl⟩ := exists_of_map h
    obtain ⟨hall, rfl⟩ := of_digits? hdigits
    exact ⟨'.' :: digits, .present hall, rfl⟩
  next =>
    obtain ⟨rfl, rfl⟩ := Prod.mk.inj (Option.some.inj h)
    exact ⟨[], .absent, rfl⟩

theorem fraction?_append {front rest : Text} {fraction : Option Text}
    (h : SpellsFraction fraction front) (hdigit : rest.head?.any isDigit = false)
    (hpoint : rest.head? ≠ some '.') : fraction? (front ++ rest) = some (fraction, rest) := by
  cases h with
  | absent =>
      rw [List.nil_append, fraction?]
      rintro more rfl
      exact hpoint rfl
  | present h =>
      rw [List.cons_append, fraction?, digits?_append h hdigit]
      rfl

/-- Whether a sign makes an exponent negative, and what follows it. -/
def cutExponentSign : Text → Bool × Text
  | '+' :: rest => (false, rest)
  | '-' :: rest => (true, rest)
  | text => (false, text)

/-- An exponent behind its letter, or nothing. -/
def exponent? : Text → Option (Option Int × Text)
  | [] => some (none, [])
  | letter :: rest =>
    if letter = 'e' ∨ letter = 'E' then
      let (negative, unsigned) := cutExponentSign rest
      (digits? unsigned).map fun (digits, rest) =>
        (some (Literal.integerValue negative digits), rest)
    else some (none, letter :: rest)

theorem exists_sign_of_cutExponentSign {text unsigned : Text} {negative : Bool}
    (h : cutExponentSign text = (negative, unsigned)) :
    ∃ sign, (sign, negative) ∈ exponentSigns ∧ text = sign ++ unsigned := by
  unfold cutExponentSign at h
  split at h <;> obtain ⟨rfl, rfl⟩ := Prod.mk.inj h
  · exact ⟨['+'], by simp [exponentSigns], rfl⟩
  · exact ⟨['-'], by simp [exponentSigns], rfl⟩
  · exact ⟨[], by simp [exponentSigns], rfl⟩

theorem cutExponentSign_append {sign digits : Text} {negative : Bool}
    (hsign : (sign, negative) ∈ exponentSigns) (hdigits : Decimal.isDigits digits) (rest : Text) :
    cutExponentSign (sign ++ (digits ++ rest)) = (negative, digits ++ rest) := by
  simp only [exponentSigns, List.mem_cons, Prod.mk.injEq, List.not_mem_nil, or_false] at hsign
  obtain ⟨rfl, rfl⟩ | ⟨rfl, rfl⟩ | ⟨rfl, rfl⟩ := hsign
  · obtain ⟨c, more, rfl⟩ := List.exists_cons_of_ne_nil (ne_nil_of_isDigits hdigits)
    have hplus : c ≠ '+' := by
      rintro rfl
      cases hdigits
    have hminus : c ≠ '-' := by
      rintro rfl
      cases hdigits
    rw [List.nil_append, List.cons_append, cutExponentSign]
    · exact fun _ h => hplus (List.cons.inj h).1
    · exact fun _ h => hminus (List.cons.inj h).1
  · rfl
  · rfl

theorem of_exponent? {text rest : Text} {exponent : Option Int}
    (h : exponent? text = some (exponent, rest)) :
    ∃ front, SpellsExponent exponent front ∧ text = front ++ rest := by
  unfold exponent? at h
  split at h
  next =>
    obtain ⟨rfl, rfl⟩ := Prod.mk.inj (Option.some.inj h)
    exact ⟨[], .absent, rfl⟩
  next letter more =>
    split at h
    next hletter =>
      cases hcut : cutExponentSign more with
      | mk negative unsigned =>
          rw [hcut] at h
          obtain ⟨digits, hdigits, rfl⟩ :=
            exists_of_map (f := fun digits => some (Literal.integerValue negative digits)) h
          obtain ⟨hall, rfl⟩ := of_digits? hdigits
          obtain ⟨sign, hsign, rfl⟩ := exists_sign_of_cutExponentSign hcut
          exact ⟨letter :: (sign ++ digits), .present hletter hsign hall, by simp⟩
    next =>
      obtain ⟨rfl, rfl⟩ := Prod.mk.inj (Option.some.inj h)
      exact ⟨[], .absent, rfl⟩

theorem exponent?_append {front rest : Text} {exponent : Option Int}
    (h : SpellsExponent exponent front) (hrest : EndsValue rest) :
    exponent? (front ++ rest) = some (exponent, rest) := by
  cases h with
  | absent =>
      cases rest with
      | nil => rfl
      | cons c more =>
          have hletter : ¬ (c = 'e' ∨ c = 'E') := by
            rintro (rfl | rfl) <;> cases hrest
          rw [List.nil_append, exponent?, if_neg hletter]
  | present hletter hsign hdigits =>
      rw [List.cons_append, List.append_assoc, exponent?, if_pos hletter,
        cutExponentSign_append hsign hdigits]
      simp only [digits?_append hdigits hrest.any_isDigit, Option.map_some]

/-- A number. -/
def number? (text : Text) : Option (Json × Text) := do
  let (negative, unsigned) := Decimal.cutSign text
  let (whole, rest) ← digits? unsigned
  let (fraction, rest) ← fraction? rest
  let (exponent, rest) ← exponent? rest
  if isWhole whole then return (ofParts negative whole fraction exponent, rest) else none

theorem of_number? {text rest : Text} {value : Json} (h : number? text = some (value, rest)) :
    ∃ front, SpellsNumber value front ∧ text = front ++ rest := by
  cases hcut : Decimal.cutSign text with
  | mk negative unsigned =>
      rw [number?, hcut] at h
      simp only [Option.bind_eq_bind, Option.bind_eq_some_iff, Prod.exists, Option.pure_def,
        Option.ite_none_right_eq_some, Option.some.injEq, Prod.mk.injEq] at h
      obtain ⟨whole, _, hdigits, fraction, _, hfraction, exponent, _, hexponent, hwhole, rfl,
        rfl⟩ := h
      obtain ⟨_, rfl⟩ := of_digits? hdigits
      obtain ⟨fractionText, hspelled, rfl⟩ := of_fraction? hfraction
      obtain ⟨exponentText, hend, rfl⟩ := of_exponent? hexponent
      exact ⟨_, .intro negative hwhole hspelled hend, by simp [Decimal.eq_of_cutSign hcut]⟩

/-- The text of an exponent continues no digits and no fraction, nor does what follows a value. -/
theorem SpellsExponent.endsFraction {front rest : Text} {exponent : Option Int}
    (h : SpellsExponent exponent front) (hrest : EndsValue rest) :
    (front ++ rest).head?.any isDigit = false ∧ (front ++ rest).head? ≠ some '.' := by
  cases h with
  | absent => exact ⟨hrest.any_isDigit, hrest.head?_ne⟩
  | present hletter =>
      obtain rfl | rfl := hletter <;> exact ⟨rfl, by simp⟩

theorem SpellsFraction.endsDigits {front rest : Text} {fraction : Option Text}
    (h : SpellsFraction fraction front) (hrest : rest.head?.any isDigit = false) :
    (front ++ rest).head?.any isDigit = false := by
  cases h with
  | absent => exact hrest
  | present => rfl

theorem number?_append {front rest : Text} {value : Json} (h : SpellsNumber value front)
    (hrest : EndsValue rest) : number? (front ++ rest) = some (value, rest) := by
  obtain @⟨negative, whole, fractionText, exponentText, fraction, exponent, hwhole, hfraction,
    hexponent⟩ := h
  obtain ⟨hdigit, hpoint⟩ := hexponent.endsFraction hrest
  have hdigits : Decimal.isDigits whole := (Bool.and_eq_true_iff.mp hwhole).1
  have hcut := Literal.cutSign_append
    (Literal.head?_ne_of_isDigits hdigits (fractionText ++ (exponentText ++ rest))) negative
  have htext : Literal.sign negative ++ (whole ++ (fractionText ++ exponentText)) ++ rest =
      Literal.sign negative ++ (whole ++ (fractionText ++ (exponentText ++ rest))) := by
    simp
  rw [htext, number?, hcut]
  simp only [digits?_append hdigits (hfraction.endsDigits hdigit), Option.bind_eq_bind,
    Option.bind_some, fraction?_append hfraction hdigit hpoint, exponent?_append hexponent hrest,
    hwhole, if_true, Option.pure_def]

end SceneScript.Json
