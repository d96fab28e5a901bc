import SceneScript.Proofs.JsonTexts

/-! # Written JSON

The indented text of a value is a JSON text of that value: the lines and their indentation are white
space, every character of a string is escaped where it has to be, and integers have no superfluous
zeros.
-/

namespace SceneScript.Json

variable {α : Type}

/-! ## Strings -/

theorem hexValue?_hexDigit {n : Nat} (h : n < 16) : hexValue? (hexDigit n) = some n := by
  have hall : ∀ n < 16, hexValue? (hexDigit n) = some n := by decide
  exact hall n h

/-- A control character has two hexadecimal digits. -/
theorem spellsUnit_hexDigit {n : Nat} (h : n < 0x20) :
    SpellsUnit n ['0', '0', hexDigit (n / 16), hexDigit (n % 16)] := by
  have hunit := SpellsUnit.intro (i := 0) (j := 0) (a := '0') (b := '0') rfl rfl
    (hexValue?_hexDigit (n := n / 16) (by omega)) (hexValue?_hexDigit (n := n % 16) (by omega))
  have hvalue : ((0 * 16 + 0) * 16 + n / 16) * 16 + n % 16 = n := by omega
  rwa [hvalue] at hunit

theorem spellsCharacter_escape (c : Char) : SpellsCharacter c (escape c) := by
  unfold escape
  split_ifs with hquote hbackslash hback hfeed hline hreturn htab hcontrol
  · exact .short (by rw [hquote]; rfl)
  · exact .short (by rw [hbackslash]; rfl)
  · exact .short (by rw [hback]; rfl)
  · exact .short (by rw [hfeed]; rfl)
  · exact .short (by rw [hline]; rfl)
  · exact .short (by rw [hreturn]; rfl)
  · exact .short (by rw [htab]; rfl)
  · exact .unit (spellsUnit_hexDigit hcontrol)
  · exact .plain (by simp [isPlain, hquote, hbackslash, Nat.le_of_not_lt hcontrol])

theorem spellsString_quote (text : Text) : SpellsString text (quote text) := by
  refine .intro ?_
  induction text with
  | nil => exact .close
  | cons c rest ih =>
      rw [List.flatMap_cons, List.append_assoc]
      exact .next (spellsCharacter_escape c) ih

/-! ## Integers -/

/-- The digits of a positive number do not begin with a zero. -/
theorem head?_ofNat_ne {n : Nat} (h : 0 < n) : (Decimal.ofNat n).head? ≠ some '0' := by
  induction n using Nat.strongRecOn with
  | ind n ih =>
      rw [Decimal.ofNat, Nat.toDigits_eq_if (by decide)]
      split
      next hsmall =>
        have hall : ∀ n < 10, 0 < n → [n.digitChar].head? ≠ some '0' := by decide
        exact hall n hsmall h
      next hlarge =>
        have hfront := ih (n / 10) (by omega) (by omega)
        rw [Decimal.ofNat] at hfront
        cases hdigits : Nat.toDigits 10 (n / 10) with
        | nil => exact absurd hdigits Nat.toDigits_ne_nil
        | cons c more =>
            rw [hdigits] at hfront
            exact hfront

theorem isWhole_ofNat (n : Nat) : isWhole (Decimal.ofNat n) := by
  rw [isWhole, Literal.isDigits_ofNat, Bool.true_and, Bool.or_eq_true, decide_eq_true_eq,
    decide_eq_true_eq]
  obtain rfl | hpos := Nat.eq_zero_or_pos n
  · exact .inr rfl
  · exact .inl (head?_ofNat_ne hpos)

theorem spellsNumber_ofInt (n : Int) : SpellsNumber (integer n) (Decimal.ofInt n) := by
  have hvalue := Value.integer.inj (Literal.value_ofInt n)
  have hnumber := SpellsNumber.intro (n < 0) (isWhole_ofNat n.natAbs) .absent .absent
  rw [ofParts, hvalue, List.append_nil, List.append_nil] at hnumber
  rw [← Literal.text_ofInt n]
  exact hnumber

/-! ## Values on lines -/

theorem all_isSpacing_lineStart (depth : Nat) : (lineStart depth).all isSpacing := by
  simp [lineStart, isSpacing]

/-- The texts with a line start before each, and a comma before each but the first. -/
def onLines (depth : Nat) (first : Bool) : List Text → Text
  | [] => []
  | item :: rest =>
    (if first then [] else [',']) ++ lineStart depth ++ item ++ onLines depth false rest

theorem prettyItems_eq (depth : Nat) (first : Bool) (items : List Json) :
    prettyItems depth first items = onLines depth first (items.map (pretty depth)) := by
  induction items generalizing first with
  | nil => rfl
  | cons item rest ih => rw [prettyItems, ih, List.map_cons, onLines]

theorem prettyMembers_eq (depth : Nat) (first : Bool) (members : List (Text × Json)) :
    prettyMembers depth first members = onLines depth first (members.map (prettyMember depth)) := by
  induction members generalizing first with
  | nil => rfl
  | cons member rest ih => rw [prettyMembers, ih, List.map_cons, onLines]

/-- Items on lines of their own, each with a text of its own, are a list up to the bracket. -/
theorem spellsItems_onLines {spells : α → Text → Prop} {write : α → Text} {a : α} {rest : List α}
    (h : ∀ item ∈ a :: rest, spells item (write item)) (close : Char) (inner outer : Nat) :
    SpellsItems spells close (a :: rest)
      (onLines inner true ((a :: rest).map write) ++ (lineStart outer ++ [close])) := by
  induction rest generalizing a with
  | nil =>
      have hpadded : Padded spells a (lineStart inner ++ (write a ++ lineStart outer)) :=
        ⟨_, _, _, all_isSpacing_lineStart inner, h a List.mem_cons_self,
          all_isSpacing_lineStart outer, rfl⟩
      have hlast : SpellsItems spells close [a] _ := .last hpadded
      simpa [onLines] using hlast
  | cons b rest ih =>
      have hpadded : Padded spells a (lineStart inner ++ (write a ++ [])) :=
        ⟨_, _, _, all_isSpacing_lineStart inner, h a List.mem_cons_self, rfl, rfl⟩
      have hmore := ih fun item hitem => h item (List.mem_cons_of_mem a hitem)
      simpa [onLines] using SpellsItems.next hpadded hmore

/-- The text of a list in brackets. -/
theorem spellsList_onLines {spells : α → Text → Prop} {write : α → Text} {list : List α}
    (h : ∀ item ∈ list, spells item (write item)) (close : Char) (inner outer : Nat) :
    SpellsList spells close list
      (if list.isEmpty then [close]
        else onLines inner true (list.map write) ++ (lineStart outer ++ [close])) := by
  cases list with
  | nil =>
      have hgap : ([] : Text).all isSpacing := rfl
      exact .empty hgap
  | cons a rest => exact .items (spellsItems_onLines h close inner outer)

/-- At every depth, the text of the value is one of a value nested at most `limit` deep. -/
def IsWritten (limit : Nat) (value : Json) : Prop :=
  ∀ depth, Spells limit value (value.pretty depth)

theorem isWritten_of_spellsScalar {value : Json}
    (h : ∀ depth, SpellsScalar value (value.pretty depth)) (limit : Nat) :
    IsWritten limit value := by
  intro depth
  cases limit with
  | zero => exact h depth
  | succ limit => exact .scalar (h depth)

theorem isWritten_null (limit : Nat) : IsWritten limit null :=
  isWritten_of_spellsScalar (fun _ => .null) limit

theorem isWritten_bool (limit : Nat) (b : Bool) : IsWritten limit (bool b) := by
  cases b with
  | false => exact isWritten_of_spellsScalar (fun _ => .isFalse) limit
  | true => exact isWritten_of_spellsScalar (fun _ => .isTrue) limit

theorem isWritten_integer (limit : Nat) (n : Int) : IsWritten limit (integer n) :=
  isWritten_of_spellsScalar (fun _ => .number (spellsNumber_ofInt n)) limit

theorem isWritten_string (limit : Nat) (text : Text) : IsWritten limit (string text) :=
  isWritten_of_spellsScalar (fun _ => .string (spellsString_quote text)) limit

theorem isWritten_array {limit : Nat} {items : List Json}
    (h : ∀ item ∈ items, IsWritten limit item) : IsWritten (limit + 1) (array items) := by
  intro depth
  have harray := SpellsNested.array
    (spellsList_onLines (fun item hitem => h item hitem (depth + 1)) ']' (depth + 1) depth)
  rw [pretty, prettyItems_eq]
  cases items with
  | nil => exact harray
  | cons item rest =>
      rw [List.append_assoc]
      exact harray

theorem spellsMember_prettyMember {limit : Nat} {member : Text × Json}
    (h : IsWritten limit member.2) (depth : Nat) :
    SpellsMember (Spells limit) member (prettyMember depth member) := by
  obtain ⟨key, value⟩ := member
  have hbefore : ([] : Text).all isSpacing := rfl
  have hafter : [' '].all isSpacing := rfl
  rw [prettyMember]
  exact .intro (spellsString_quote key) hbefore hafter (h depth)

theorem isWritten_object {limit : Nat} {members : List (Text × Json)}
    (h : ∀ member ∈ members, IsWritten limit member.2) :
    IsWritten (limit + 1) (object members) := by
  intro depth
  have hobject := SpellsNested.object (spellsList_onLines
    (fun member hmember => spellsMember_prettyMember (h member hmember) (depth + 1)) '}'
    (depth + 1) depth)
  rw [pretty, prettyMembers_eq]
  cases members with
  | nil => exact hobject
  | cons member rest =>
      rw [List.append_assoc]
      exact hobject

/-- The text of a value on lines of its own is a JSON text of it. -/
theorem IsWritten.isText {limit : Nat} {value : Json} (h : IsWritten limit value) :
    IsText limit value (value.pretty 0 ++ ['\n']) :=
  ⟨[], value.pretty 0, ['\n'], rfl, h 0, rfl, rfl⟩

end SceneScript.Json
