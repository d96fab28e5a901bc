import SceneScript.Proofs.JsonScalars

/-! # Reading JSON

A reader of JSON texts that knows nothing of how values are written here. Each of its parts takes
from the front of a text exactly what spells the value that it answers, so a whole text is read as a
value if and only if it stands for that value.
-/

namespace SceneScript.Json

variable {α : Type}

/-! ## Readers -/

/-- Whether a part of an array or an object may begin with `c`. -/
def isOpening (c : Char) : Bool :=
  !isSpacing c && c ≠ ',' && c ≠ ']' && c ≠ '}'

theorem isSpacing_of_isOpening {c : Char} (h : isOpening c) : isSpacing c = false := by
  simp only [isOpening, Bool.and_eq_true, Bool.not_eq_true'] at h
  exact h.1.1.1

/-- A reader takes from the front of a text exactly what `spells` says. -/
structure Reader (spells : α → Text → Prop) where
  read : Text → Option (α × Text)
  opens : ∀ {a : α} {front : Text}, spells a front → ∃ c more, front = c :: more ∧ isOpening c
  sound : ∀ {text rest : Text} {a : α}, read text = some (a, rest) →
    ∃ front, spells a front ∧ text = front ++ rest
  complete : ∀ {front rest : Text} {a : α}, spells a front → EndsValue rest →
    read (front ++ rest) = some (a, rest)

/-- A string in its quotes. -/
def string? : Text → Option (Text × Text)
  | '"' :: rest => characters? rest
  | _ => none

/-- The reader of strings. -/
def Reader.string : Reader SpellsString where
  read := string?
  opens := fun ⟨_⟩ => ⟨_, _, rfl, rfl⟩
  sound := by
    intro text rest content h
    unfold string? at h
    split at h
    next =>
      obtain ⟨inner, hinner, rfl⟩ := characters?_eq_some_iff.mp h
      exact ⟨'"' :: inner, .intro hinner, rfl⟩
    next => cases h
  complete := fun ⟨h⟩ _ => characters?_eq_some_iff.mpr ⟨_, h, rfl⟩

/-- Whether a number begins with `c`. -/
def startsNumber (c : Char) : Bool :=
  c = '-' || isDigit c

/-- A word or a string. -/
def wordOrString? : Text → Option (Json × Text)
  | 'n' :: 'u' :: 'l' :: 'l' :: rest => some (null, rest)
  | 't' :: 'r' :: 'u' :: 'e' :: rest => some (bool true, rest)
  | 'f' :: 'a' :: 'l' :: 's' :: 'e' :: rest => some (bool false, rest)
  | text => (string? text).map fun (content, rest) => (.string content, rest)

/-- A value that holds no other. -/
def scalar? (text : Text) : Option (Json × Text) :=
  if text.head?.any startsNumber then number? text else wordOrString? text

theorem SpellsNumber.exists_cons {value : Json} {front : Text} (h : SpellsNumber value front) :
    ∃ c more, front = c :: more ∧ startsNumber c := by
  obtain @⟨negative, whole, _, _, _, _, hwhole, _, _⟩ := h
  have hdigits : Decimal.isDigits whole := (Bool.and_eq_true_iff.mp hwhole).1
  cases negative with
  | true => exact ⟨'-', _, rfl, rfl⟩
  | false =>
      obtain ⟨c, more, rfl⟩ := List.exists_cons_of_ne_nil (ne_nil_of_isDigits hdigits)
      refine ⟨c, _, rfl, ?_⟩
      rw [startsNumber, List.all_eq_true.mp (Bool.and_eq_true_iff.mp hdigits).2 c
        List.mem_cons_self, Bool.or_true]

theorem isOpening_of_startsNumber {c : Char} (h : startsNumber c) : isOpening c := by
  have hne : ∀ d, startsNumber d = false → c ≠ d := by
    rintro d hd rfl
    rw [hd] at h
    cases h
  simp only [isOpening, isSpacing, Bool.and_eq_true, Bool.not_eq_true', Bool.or_eq_false_iff,
    decide_eq_false_iff_not, decide_eq_true_eq]
  exact ⟨⟨⟨⟨⟨⟨hne _ rfl, hne _ rfl⟩, hne _ rfl⟩, hne _ rfl⟩, hne _ rfl⟩, hne _ rfl⟩, hne _ rfl⟩

theorem of_scalar? {text rest : Text} {value : Json} (h : scalar? text = some (value, rest)) :
    ∃ front, SpellsScalar value front ∧ text = front ++ rest := by
  unfold scalar? at h
  split at h
  next =>
    obtain ⟨front, hfront, rfl⟩ := of_number? h
    exact ⟨front, .number hfront, rfl⟩
  next =>
    unfold wordOrString? at h
    split at h
    next =>
      obtain ⟨rfl, rfl⟩ := Prod.mk.inj (Option.some.inj h)
      exact ⟨_, .null, rfl⟩
    next =>
      obtain ⟨rfl, rfl⟩ := Prod.mk.inj (Option.some.inj h)
      exact ⟨_, .isTrue, rfl⟩
    next =>
      obtain ⟨rfl, rfl⟩ := Prod.mk.inj (Option.some.inj h)
      exact ⟨_, .isFalse, rfl⟩
    next =>
      obtain ⟨content, hcontent, rfl⟩ := exists_of_map h
      obtain ⟨front, hfront, rfl⟩ := Reader.string.sound hcontent
      exact ⟨front, .string hfront, rfl⟩

theorem scalar?_append {front rest : Text} {value : Json} (h : SpellsScalar value front)
    (hrest : EndsValue rest) : scalar? (front ++ rest) = some (value, rest) := by
  cases h with
  | null | isTrue | isFalse => rfl
  | string h =>
      have hread := Reader.string.complete h hrest
      obtain ⟨_⟩ := h
      exact congrArg (Option.map _) hread
  | number h =>
      obtain ⟨c, more, rfl, hc⟩ := h.exists_cons
      have hnumber : ((c :: more) ++ rest).head?.any startsNumber := hc
      rw [scalar?, if_pos hnumber]
      exact number?_append h hrest

/-- The reader of scalars. -/
def Reader.scalar : Reader SpellsScalar where
  read := scalar?
  opens := by
    intro value front h
    cases h with
    | null | isTrue | isFalse => exact ⟨_, _, rfl, rfl⟩
    | string h => exact Reader.string.opens h
    | number h =>
        obtain ⟨c, more, rfl, hc⟩ := h.exists_cons
        exact ⟨c, more, rfl, isOpening_of_startsNumber hc⟩
  sound := of_scalar?
  complete := scalar?_append

namespace Reader

variable {spells : α → Text → Prop} (reader : Reader spells)

/-- An item with the character behind it and what follows that. -/
def item? (text : Text) : Option (α × Char × Text) := do
  let (a, rest) ← reader.read (skip text)
  let behind := skip rest
  return (a, ← behind.head?, behind.tail)

variable {reader}

theorem of_item? {text more : Text} {a : α} {c : Char} (h : reader.item? text = some (a, c, more)) :
    ∃ item, Padded spells a item ∧ text = item ++ c :: more := by
  simp only [item?, Option.bind_eq_bind, Option.bind_eq_some_iff, Option.pure_def,
    Option.some.injEq, Prod.mk.injEq, Prod.exists] at h
  obtain ⟨a, rest, hread, c, hhead, rfl, rfl, rfl⟩ := h
  obtain ⟨before, hbefore, htext⟩ := exists_skip text
  obtain ⟨inner, hinner, hskip⟩ := reader.sound hread
  obtain ⟨after, hafter, hrest⟩ := exists_skip rest
  refine ⟨before ++ (inner ++ after), ⟨before, inner, after, hbefore, hinner, hafter, rfl⟩, ?_⟩
  calc text = before ++ (inner ++ rest) := by rw [← hskip, ← htext]
    _ = before ++ (inner ++ (after ++ skip rest)) := by rw [← hrest]
    _ = before ++ (inner ++ after) ++ c :: (skip rest).tail := by
      rw [List.cons_head?_tail hhead, List.append_assoc, List.append_assoc]

theorem item?_append {item more : Text} {a : α} (h : Padded spells a item) {c : Char}
    (hspacing : isSpacing c = false) (hends : EndsValue (c :: more)) :
    reader.item? (item ++ c :: more) = some (a, c, more) := by
  obtain ⟨before, inner, after, hbefore, hinner, hafter, rfl⟩ := h
  obtain ⟨d, body, rfl, hd⟩ := reader.opens hinner
  have hskip : skip (before ++ ((d :: body) ++ after) ++ c :: more) =
      (d :: body) ++ (after ++ c :: more) := by
    rw [List.append_assoc, List.append_assoc]
    exact skip_append_cons hbefore (isSpacing_of_isOpening hd) _
  have hread := reader.complete hinner (EndsValue.spacing_append hafter hends)
  simp only [item?, hskip, hread, Option.bind_eq_bind, Option.bind_some,
    skip_append_cons hafter hspacing, List.head?_cons, List.tail_cons, Option.pure_def]

theorem length_lt_of_item? {text more : Text} {a : α} {c : Char}
    (h : reader.item? text = some (a, c, more)) : more.length < text.length := by
  obtain ⟨item, _, rfl⟩ := of_item? h
  rw [List.length_append, List.length_cons]
  omega

variable (reader)

/-- The items up to the bracket that ends them. There is at least one. -/
def items? (close : Char) (text : Text) : Option (List α × Text) :=
  match _hitem : reader.item? text with
  | none => none
  | some (a, c, more) =>
    if c = close then some ([a], more)
    else if c = ',' then (items? close more).map fun (list, rest) => (a :: list, rest)
    else none
termination_by text.length
decreasing_by exact length_lt_of_item? _hitem

/-- The items up to the bracket that ends them, if there are any. -/
def list? (close : Char) (text : Text) : Option (List α × Text) :=
  let front := skip text
  if front.head? = some close then some ([], front.tail) else reader.items? close text

variable {reader} {close : Char}

theorem of_items? {text rest : Text} {list : List α}
    (h : reader.items? close text = some (list, rest)) :
    ∃ front, SpellsItems spells close list front ∧ text = front ++ rest := by
  fun_induction items? reader close text generalizing list rest with
  | case1 => cases h
  | case2 text a more hitem =>
      obtain ⟨rfl, rfl⟩ := Prod.mk.inj (Option.some.inj h)
      obtain ⟨item, hpadded, rfl⟩ := of_item? hitem
      exact ⟨item ++ [close], .last hpadded, (List.append_cons _ _ _)⟩
  | case3 text a more hitem _ ih =>
      obtain ⟨others, hmore, rfl⟩ := exists_of_map h
      obtain ⟨item, hpadded, rfl⟩ := of_item? hitem
      obtain ⟨front, hfront, rfl⟩ := ih hmore
      exact ⟨item ++ ',' :: front, .next hpadded hfront, by simp⟩
  | case4 => cases h

theorem isSpacing_of_closing (hclose : close = ']' ∨ close = '}') : isSpacing close = false := by
  obtain rfl | rfl := hclose <;> rfl

theorem items?_append (hclose : close = ']' ∨ close = '}') {list : List α} {front : Text}
    (h : SpellsItems spells close list front) (rest : Text) :
    reader.items? close (front ++ rest) = some (list, rest) := by
  have hspacing := isSpacing_of_closing hclose
  have hends : EndsValue (close :: rest) := by
    obtain rfl | rfl := hclose <;> rfl
  have hcomma : ',' ≠ close := by
    obtain rfl | rfl := hclose <;> decide
  induction h with
  | last hpadded =>
      rw [List.append_assoc, List.singleton_append, items?, item?_append hpadded hspacing hends]
      exact if_pos rfl
  | next hpadded _ ih =>
      rw [List.append_assoc, List.cons_append, items?, item?_append (c := ',') hpadded rfl rfl]
      simp [hcomma, ih]

theorem of_list? {text rest : Text} {list : List α}
    (h : reader.list? close text = some (list, rest)) :
    ∃ front, SpellsList spells close list front ∧ text = front ++ rest := by
  rw [list?] at h
  split at h
  next hhead =>
    obtain ⟨rfl, rfl⟩ := Prod.mk.inj (Option.some.inj h)
    obtain ⟨gap, hgap, htext⟩ := exists_skip text
    refine ⟨gap ++ [close], .empty hgap, ?_⟩
    rw [List.append_assoc, List.singleton_append, List.cons_head?_tail hhead, ← htext]
  next =>
    obtain ⟨front, hfront, rfl⟩ := of_items? h
    exact ⟨front, .items hfront, rfl⟩

/-- No item begins with a bracket that ends a list. -/
theorem head?_skip_items (hclose : close = ']' ∨ close = '}') {list : List α} {front : Text}
    (h : SpellsItems spells close list front) (reader : Reader spells) (rest : Text) :
    (skip (front ++ rest)).head? ≠ some close := by
  have hpadded : ∀ {a : α} {item : Text}, Padded spells a item → ∀ more,
      (skip (item ++ more)).head? ≠ some close := by
    rintro a item ⟨before, inner, after, hbefore, hinner, _, rfl⟩ more
    obtain ⟨c, body, rfl, hc⟩ := reader.opens hinner
    rw [List.append_assoc, List.cons_append, List.cons_append,
      skip_append_cons hbefore (isSpacing_of_isOpening hc)]
    rintro ⟨rfl⟩
    obtain rfl | rfl := hclose <;> cases hc
  cases h with
  | last h =>
      rw [List.append_assoc]
      exact hpadded h _
  | next h _ =>
      rw [List.append_assoc]
      exact hpadded h _

theorem list?_append (hclose : close = ']' ∨ close = '}') {list : List α} {front : Text}
    (h : SpellsList spells close list front) (rest : Text) :
    reader.list? close (front ++ rest) = some (list, rest) := by
  cases h with
  | @empty gap hgap =>
      rw [list?, List.append_assoc, List.singleton_append,
        skip_append_cons hgap (isSpacing_of_closing hclose)]
      exact if_pos rfl
  | items h =>
      rw [list?, if_neg (head?_skip_items hclose h reader rest)]
      exact items?_append hclose h rest

end Reader

/-! ## Members and nested values -/

/-- What follows the colon at the front of a text. -/
def afterColon? : Text → Option Text
  | ':' :: rest => some rest
  | _ => none

theorem afterColon?_eq_some_iff {text rest : Text} :
    afterColon? text = some rest ↔ text = ':' :: rest := by
  constructor
  · intro h
    unfold afterColon? at h
    split at h
    next => rw [Option.some.inj h]
    next => cases h
  · rintro rfl
    rfl

namespace Reader

variable {spells : Json → Text → Prop} (reader : Reader spells)

/-- A key, a colon and a value. -/
def member? (text : Text) : Option ((Text × Json) × Text) := do
  let (key, rest) ← string.read text
  let rest ← afterColon? (skip rest)
  let (value, rest) ← reader.read (skip rest)
  return ((key, value), rest)

variable {reader}

theorem of_member? {text rest : Text} {entry : Text × Json}
    (h : reader.member? text = some (entry, rest)) :
    ∃ front, SpellsMember spells entry front ∧ text = front ++ rest := by
  simp only [member?, Option.bind_eq_bind, Option.bind_eq_some_iff, Option.pure_def,
    Option.some.injEq, Prod.mk.injEq, Prod.exists] at h
  obtain ⟨key, behind, hkey, more, hcolon, value, _, hvalue, rfl, rfl⟩ := h
  obtain ⟨keyText, hkeyText, rfl⟩ := string.sound hkey
  obtain ⟨before, hbefore, hbehind⟩ := exists_skip behind
  obtain ⟨after, hafter, hmore⟩ := exists_skip more
  obtain ⟨valueText, hvalueText, hskip⟩ := reader.sound hvalue
  refine ⟨_, .intro hkeyText hbefore hafter hvalueText, ?_⟩
  rw [hbehind, afterColon?_eq_some_iff.mp hcolon, hmore, hskip]
  simp only [List.append_assoc, List.cons_append]

theorem member?_append {front rest : Text} {entry : Text × Json}
    (h : SpellsMember spells entry front) (hrest : EndsValue rest) :
    reader.member? (front ++ rest) = some (entry, rest) := by
  obtain @⟨key, keyText, before, after, valueText, value, hkey, hbefore, hafter, hvalue⟩ := h
  obtain ⟨c, body, rfl, hc⟩ := reader.opens hvalue
  have htext : keyText ++ (before ++ ':' :: (after ++ c :: body)) ++ rest =
      keyText ++ (before ++ ':' :: (after ++ c :: (body ++ rest))) := by
    simp
  have hread : string.read (keyText ++ (before ++ ':' :: (after ++ c :: (body ++ rest)))) =
      some (key, before ++ ':' :: (after ++ c :: (body ++ rest))) :=
    string.complete hkey (EndsValue.spacing_append hbefore rfl)
  have hcolon : afterColon? (skip (before ++ ':' :: (after ++ c :: (body ++ rest)))) =
      some (after ++ c :: (body ++ rest)) := by
    rw [skip_append_cons hbefore rfl, afterColon?]
  have hskip : skip (after ++ c :: (body ++ rest)) = (c :: body) ++ rest :=
    skip_append_cons hafter (isSpacing_of_isOpening hc) _
  simp only [htext, member?, hread, Option.bind_eq_bind, Option.bind_some, hcolon, hskip,
    reader.complete hvalue hrest, Option.pure_def]

/-- The reader of members whose values are read by `reader`. -/
def member (reader : Reader spells) : Reader (SpellsMember spells) where
  read := reader.member?
  opens := by
    rintro _ _ ⟨⟨_⟩, _, _, _⟩
    exact ⟨_, _, rfl, rfl⟩
  sound := of_member?
  complete := member?_append

variable (reader)

/-- An array or an object of values that are read by `reader`, or a scalar. -/
def nested? : Text → Option (Json × Text)
  | '[' :: rest => (reader.list? ']' rest).map fun (items, rest) => (.array items, rest)
  | '{' :: rest =>
    (reader.member.list? '}' rest).map fun (members, rest) => (.object members, rest)
  | text => scalar.read text

variable {reader}

theorem of_nested? {text rest : Text} {value : Json}
    (h : reader.nested? text = some (value, rest)) :
    ∃ front, SpellsNested spells value front ∧ text = front ++ rest := by
  unfold nested? at h
  split at h
  next =>
    obtain ⟨items, hitems, rfl⟩ := exists_of_map h
    obtain ⟨inner, hinner, rfl⟩ := of_list? hitems
    exact ⟨'[' :: inner, .array hinner, rfl⟩
  next =>
    obtain ⟨members, hmembers, rfl⟩ := exists_of_map h
    obtain ⟨inner, hinner, rfl⟩ := of_list? hmembers
    exact ⟨'{' :: inner, .object hinner, rfl⟩
  next =>
    obtain ⟨front, hfront, rfl⟩ := scalar.sound h
    exact ⟨front, .scalar hfront, rfl⟩

theorem nested?_append {front rest : Text} {value : Json} (h : SpellsNested spells value front)
    (hrest : EndsValue rest) : reader.nested? (front ++ rest) = some (value, rest) := by
  cases h with
  | scalar h =>
      -- No scalar is read where a bracket stands.
      have hread := scalar.complete h hrest
      rw [nested?]
      · exact hread
      all_goals
        intro more hbracket
        rw [hbracket] at hread
        cases hread
  | array h =>
      rw [List.cons_append, nested?, list?_append (.inl rfl) h]
      rfl
  | object h =>
      rw [List.cons_append, nested?, list?_append (.inr rfl) h]
      rfl

/-- The reader of arrays and objects of values that are read by `reader`, and of scalars. -/
def nested (reader : Reader spells) : Reader (SpellsNested spells) where
  read := reader.nested?
  opens := by
    intro value front h
    cases h with
    | scalar h => exact scalar.opens h
    | array | object => exact ⟨_, _, rfl, rfl⟩
  sound := of_nested?
  complete := nested?_append

/-- The reader of values that are nested at most `limit` deep. -/
def value : (limit : Nat) → Reader (Spells limit)
  | 0 => scalar
  | limit + 1 => (value limit).nested

end Reader

/-- Reads a whole text as a value that is nested at most `limit` deep. -/
def read? (limit : Nat) (text : Text) : Option Json := do
  let (value, rest) ← (Reader.value limit).read (skip text)
  if rest.all isSpacing then return value else none

/-- A text is read as a value if and only if it stands for that value. -/
theorem read?_eq_some_iff {limit : Nat} {text : Text} {value : Json} :
    read? limit text = some value ↔ IsText limit value text := by
  constructor
  · intro h
    simp only [read?, Option.bind_eq_bind, Option.bind_eq_some_iff, Option.pure_def,
      Option.ite_none_right_eq_some, Option.some.injEq, Prod.exists] at h
    obtain ⟨_, after, hread, hafter, rfl⟩ := h
    obtain ⟨before, hbefore, htext⟩ := exists_skip text
    obtain ⟨inner, hinner, hskip⟩ := (Reader.value limit).sound hread
    exact ⟨before, inner, after, hbefore, hinner, hafter, by rw [← hskip, ← htext]⟩
  · rintro ⟨before, inner, after, hbefore, hinner, hafter, rfl⟩
    obtain ⟨c, body, rfl, hc⟩ := (Reader.value limit).opens hinner
    have hskip : skip (before ++ ((c :: body) ++ after)) = (c :: body) ++ after :=
      skip_append_cons hbefore (isSpacing_of_isOpening hc) _
    have hends : EndsValue after := by
      rw [← List.append_nil after]
      exact EndsValue.spacing_append hafter rfl
    simp only [read?, hskip, (Reader.value limit).complete hinner hends, Option.bind_eq_bind,
      Option.bind_some, hafter, if_true, Option.pure_def]

/-- Spaces, escapes and exponents may stand in a text; superfluous zeros and commas, halves of a
character and deeper values may not. -/
example :
    (["[ \"\\u00e9\\ud83d\\ude00\\/\" , -1 ]", "1.5e-3", "01", "1.", "[1,]", "\"\\ud800\"",
      "[[]]"].map fun text => (read? 1 text.toList).isSome) =
      [true, true, false, false, false, false, false] := by
  decide +kernel

end SceneScript.Json
