import SceneScript.Proofs.Literals
import SceneScript.Report.Json

/-! # JSON texts

Which texts stand for a JSON value, whoever wrote them: white space may stand between any two parts,
a string may escape any of its characters, and a number may have a fraction and an exponent. Arrays
and objects are nested up to a limit, since whoever reads a text may set one.
-/

namespace SceneScript.Json

variable {α : Type}

/-! ## White space -/

/-- The white space that may stand between the parts of a text. -/
def isSpacing (c : Char) : Bool :=
  c = ' ' || c = '\t' || c = '\n' || c = '\r'

/-- A text of a value with white space around it. -/
def Padded (spells : α → Text → Prop) (a : α) (text : Text) : Prop :=
  ∃ before inner after, before.all isSpacing ∧ spells a inner ∧ after.all isSpacing ∧
    text = before ++ (inner ++ after)

/-! ## Strings -/

/-- Whether `c` may stand in a string as it is. -/
def isPlain (c : Char) : Bool :=
  c ≠ '"' && c ≠ '\\' && 0x20 ≤ c.toNat

/-- The letters that a character may be escaped by. -/
def shortEscapes : List (Char × Char) :=
  [('"', '"'), ('\\', '\\'), ('/', '/'), ('b', '\x08'), ('f', '\x0c'), ('n', '\n'), ('r', '\r'),
   ('t', '\t')]

/-- The value of a hexadecimal digit. -/
def hexValue? (c : Char) : Option Nat :=
  if isDigit c then some (c.toNat - '0'.toNat)
  else if 'a' ≤ c ∧ c ≤ 'f' then some (c.toNat - 'a'.toNat + 10)
  else if 'A' ≤ c ∧ c ≤ 'F' then some (c.toNat - 'A'.toNat + 10)
  else none

/-- A number of 16 bits in four hexadecimal digits. -/
inductive SpellsUnit : Nat → Text → Prop where
  | intro {a b c d : Char} {i j k l : Nat} (ha : hexValue? a = some i) (hb : hexValue? b = some j)
      (hc : hexValue? c = some k) (hd : hexValue? d = some l) :
    SpellsUnit (((i * 16 + j) * 16 + k) * 16 + l) [a, b, c, d]

/-- The first half of a character beyond those of 16 bits. -/
def isHighHalf (unit : Nat) : Bool :=
  0xD800 ≤ unit && unit < 0xDC00

/-- The second half of a character beyond those of 16 bits. -/
def isLowHalf (unit : Nat) : Bool :=
  0xDC00 ≤ unit && unit < 0xE000

/-- The code point of two halves. -/
def ofHalves (high low : Nat) : Nat :=
  0x10000 + (high - 0xD800) * 0x400 + (low - 0xDC00)

/-- A character inside a string. The number of a half alone is that of no character. -/
inductive SpellsCharacter : Char → Text → Prop where
  | plain {c : Char} (h : isPlain c) : SpellsCharacter c [c]
  | short {c letter : Char} (h : shortEscapes.lookup letter = some c) :
    SpellsCharacter c ['\\', letter]
  | unit {c : Char} {digits : Text} (h : SpellsUnit c.toNat digits) :
    SpellsCharacter c ('\\' :: 'u' :: digits)
  | pair {c : Char} {high low : Nat} {first second : Text} (hfirst : SpellsUnit high first)
      (hhigh : isHighHalf high) (hsecond : SpellsUnit low second) (hlow : isLowHalf low)
      (hc : c.toNat = ofHalves high low) :
    SpellsCharacter c ('\\' :: 'u' :: (first ++ '\\' :: 'u' :: second))

/-- The characters of a string up to the quote that ends it. -/
inductive SpellsCharacters : Text → Text → Prop where
  | close : SpellsCharacters [] ['"']
  | next {c : Char} {front content rest : Text} (hc : SpellsCharacter c front)
      (hrest : SpellsCharacters content rest) : SpellsCharacters (c :: content) (front ++ rest)

/-- A string in its quotes. -/
inductive SpellsString : Text → Text → Prop where
  | intro {content inner : Text} (h : SpellsCharacters content inner) :
    SpellsString content ('"' :: inner)

/-! ## Numbers -/

/-- Digits without superfluous zeros in front. -/
def isWhole (digits : Text) : Bool :=
  Decimal.isDigits digits && (digits.head? ≠ some '0' || digits = ['0'])

/-- The digits of a fraction behind a point, or nothing. -/
inductive SpellsFraction : Option Text → Text → Prop where
  | absent : SpellsFraction none []
  | present {digits : Text} (h : Decimal.isDigits digits) :
    SpellsFraction (some digits) ('.' :: digits)

/-- The signs that an exponent may have, and whether they make it negative. -/
def exponentSigns : List (Text × Bool) :=
  [([], false), (['+'], false), (['-'], true)]

/-- An exponent behind its letter, or nothing. -/
inductive SpellsExponent : Option Int → Text → Prop where
  | absent : SpellsExponent none []
  | present {letter : Char} {sign digits : Text} {negative : Bool}
      (hletter : letter = 'e' ∨ letter = 'E') (hsign : (sign, negative) ∈ exponentSigns)
      (hdigits : Decimal.isDigits digits) :
    SpellsExponent (some (Literal.integerValue negative digits)) (letter :: (sign ++ digits))

/-- The double nearest to a natural number times a power of ten. -/
def scaled (negative : Bool) (n : Nat) (exponent : Int) : Float :=
  Binary64.ofRatio negative (n * tenTo exponent.toNat) (tenTo (-exponent).toNat)

/-- The number of these parts. With neither fraction nor exponent it is an integer. -/
def ofParts (negative : Bool) (whole : Text) : Option Text → Option Int → Json
  | none, none => .integer (Literal.integerValue negative whole)
  | fraction, exponent =>
    let places := fraction.getD []
    .decimal (scaled negative (Decimal.value (whole ++ places)) (exponent.getD 0 - places.length))

/-- A number. -/
inductive SpellsNumber : Json → Text → Prop where
  | intro (negative : Bool) {whole fractionText exponentText : Text} {fraction : Option Text}
      {exponent : Option Int} (hwhole : isWhole whole)
      (hfraction : SpellsFraction fraction fractionText)
      (hexponent : SpellsExponent exponent exponentText) :
    SpellsNumber (ofParts negative whole fraction exponent)
      (Literal.sign negative ++ (whole ++ (fractionText ++ exponentText)))

/-! ## Values -/

/-- A value that holds no other. -/
inductive SpellsScalar : Json → Text → Prop where
  | null : SpellsScalar null ['n', 'u', 'l', 'l']
  | isTrue : SpellsScalar (bool true) ['t', 'r', 'u', 'e']
  | isFalse : SpellsScalar (bool false) ['f', 'a', 'l', 's', 'e']
  | string {content text : Text} (h : SpellsString content text) :
    SpellsScalar (string content) text
  | number {value : Json} {text : Text} (h : SpellsNumber value text) : SpellsScalar value text

/-- One item or more with commas between them, up to the bracket that ends them. -/
inductive SpellsItems (spells : α → Text → Prop) (close : Char) : List α → Text → Prop where
  | last {a : α} {item : Text} (h : Padded spells a item) :
    SpellsItems spells close [a] (item ++ [close])
  | next {a : α} {item text : Text} {more : List α} (h : Padded spells a item)
      (hmore : SpellsItems spells close more text) :
    SpellsItems spells close (a :: more) (item ++ ',' :: text)

/-- Any number of items, up to the bracket that ends them. -/
inductive SpellsList (spells : α → Text → Prop) (close : Char) : List α → Text → Prop where
  | empty {gap : Text} (h : gap.all isSpacing) : SpellsList spells close [] (gap ++ [close])
  | items {list : List α} {text : Text} (h : SpellsItems spells close list text) :
    SpellsList spells close list text

/-- A key, a colon and a value. -/
inductive SpellsMember (spells : Json → Text → Prop) : Text × Json → Text → Prop where
  | intro {key keyText before after valueText : Text} {value : Json}
      (hkey : SpellsString key keyText) (hbefore : before.all isSpacing)
      (hafter : after.all isSpacing) (hvalue : spells value valueText) :
    SpellsMember spells (key, value) (keyText ++ (before ++ ':' :: (after ++ valueText)))

/-- A scalar, or an array or object of such values as `spells` says. -/
inductive SpellsNested (spells : Json → Text → Prop) : Json → Text → Prop where
  | scalar {value : Json} {text : Text} (h : SpellsScalar value text) :
    SpellsNested spells value text
  | array {items : List Json} {inner : Text} (h : SpellsList spells ']' items inner) :
    SpellsNested spells (array items) ('[' :: inner)
  | object {members : List (Text × Json)} {inner : Text}
      (h : SpellsList (SpellsMember spells) '}' members inner) :
    SpellsNested spells (object members) ('{' :: inner)

/-- A value in which arrays and objects are nested at most `limit` deep. -/
def Spells : Nat → Json → Text → Prop
  | 0 => SpellsScalar
  | limit + 1 => SpellsNested (Spells limit)

/-- A whole text that stands for a value. -/
def IsText (limit : Nat) (value : Json) (text : Text) : Prop :=
  Padded (Spells limit) value text

end SceneScript.Json
