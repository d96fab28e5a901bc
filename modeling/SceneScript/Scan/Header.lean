import SceneScript.Source.Span
import SceneScript.Token.Basic

/-! # Headers and style blocks

The three constructs that a scene text is read for, matched at the front of its significant tokens:

* `Create List Name ( ) {`
* `Create Type Name ( … ) {`, where the name may be missing
* `Style { … }`

What stands between the parentheses or the braces is handed on as it is written.
-/

namespace SceneScript

/-- The significant tokens from some place on. -/
abbrev Tokens := List (Spanned Token)

/-- The type word that is reserved for the list declaration. -/
def listKeyword : Text := ['L', 'i', 's', 't']

/-- The declaration of the list, from `Create` to the opening brace. -/
structure ListHeader where
  name : Spanned Text
  span : Span
  deriving DecidableEq, Repr

/-- The declaration of a shape, from `Create` to the opening brace. -/
structure ShapeHeader where
  kind : Spanned Text
  name : Option (Spanned Text)
  /-- The text between the parentheses. -/
  params : Spanned Text
  span : Span
  deriving DecidableEq, Repr

/-- A declaration of either sort. -/
inductive Header where
  | list (header : ListHeader)
  | shape (header : ShapeHeader)
  deriving DecidableEq, Repr

/-- A style block, by the text between its braces. -/
structure StyleBlock where
  body : Spanned Text
  deriving DecidableEq, Repr

/-- The name with its place, or the type where the name is missing. -/
def ShapeHeader.title (header : ShapeHeader) : Spanned Text :=
  header.name.getD header.kind

namespace Tokens

/-- The place of the first token and the rest, if the first token is `token`. -/
def expect? (token : Token) : Tokens → Option (Span × Tokens)
  | [] => none
  | first :: rest => if first.value = token then some (first.span, rest) else none

/-- The first token and the rest, if the first token is an identifier. -/
def identifier? : Tokens → Option (Spanned Text × Tokens)
  | [] => none
  | first :: rest =>
    match first.value with
    | .identifier name => some (⟨name, first.span⟩, rest)
    | _ => none

theorem length_of_expect? {token : Token} {tokens rest : Tokens} {span : Span}
    (h : expect? token tokens = some (span, rest)) : tokens.length = rest.length + 1 := by
  cases tokens with
  | nil => simp [expect?] at h
  | cons first more =>
    simp only [expect?] at h
    split at h
    · simp only [Option.some.injEq, Prod.mk.injEq] at h
      simp [h.2]
    · simp at h

theorem length_of_identifier? {tokens rest : Tokens} {name : Spanned Text}
    (h : identifier? tokens = some (name, rest)) : tokens.length = rest.length + 1 := by
  cases tokens with
  | nil => simp [identifier?] at h
  | cons first more =>
    simp only [identifier?] at h
    split at h
    · simp only [Option.some.injEq, Prod.mk.injEq] at h
      simp [h.2]
    · simp at h

end Tokens

/-- Whether a token may stand between the parentheses of a shape header. -/
def Token.isParameterToken : Token → Bool
  | .leftParen | .rightParen | .leftBrace | .rightBrace | .create | .style => false
  | _ => true

/-- The list header at the front of the tokens, with what follows it. -/
def ListHeader.match? (tokens : Tokens) : Option (ListHeader × Tokens) := do
  let (first, afterCreate) ← Tokens.expect? .create tokens
  let (_, afterKeyword) ← (Tokens.identifier? afterCreate).filter fun found =>
    found.1.value = listKeyword
  let (name, afterName) ← Tokens.identifier? afterKeyword
  let (_, afterOpen) ← Tokens.expect? .leftParen afterName
  let (_, afterClose) ← Tokens.expect? .rightParen afterOpen
  let (last, rest) ← Tokens.expect? .leftBrace afterClose
  return (⟨name, first.union last⟩, rest)

/-- The name at the front of the tokens, or none, with what follows it. -/
def ShapeHeader.matchName (tokens : Tokens) : Option (Spanned Text) × Tokens :=
  match Tokens.identifier? tokens with
  | some (name, rest) => (some name, rest)
  | none => (none, tokens)

/-- The shape header at the front of the tokens of `source`, with what follows it. -/
def ShapeHeader.match? (source : Text) (tokens : Tokens) : Option (ShapeHeader × Tokens) := do
  let (first, afterCreate) ← Tokens.expect? .create tokens
  let (kind, afterKind) ← (Tokens.identifier? afterCreate).filter fun found =>
    found.1.value ≠ listKeyword
  let (name, afterName) := ShapeHeader.matchName afterKind
  let (opening, afterOpen) ← Tokens.expect? .leftParen afterName
  let atClose := afterOpen.dropWhile fun token => token.value.isParameterToken
  let (closing, afterClose) ← Tokens.expect? .rightParen atClose
  let (last, rest) ← Tokens.expect? .leftBrace afterClose
  return (⟨kind, name, Spanned.slice source opening.stop closing.start, first.union last⟩, rest)

/-- The header at the front of the tokens of `source`, with what follows it. -/
def Header.match? (source : Text) (tokens : Tokens) : Option (Header × Tokens) :=
  match ListHeader.match? tokens with
  | some (header, rest) => some (.list header, rest)
  | none =>
    match ShapeHeader.match? source tokens with
    | some (header, rest) => some (.shape header, rest)
    | none => none

/-- The style block at the front of the tokens of `source`, with what follows it. It ends at the
first closing brace, whatever stands before that. -/
def StyleBlock.match? (source : Text) (tokens : Tokens) : Option (StyleBlock × Tokens) := do
  let (_, afterStyle) ← Tokens.expect? .style tokens
  let (opening, afterOpen) ← Tokens.expect? .leftBrace afterStyle
  let atClose := afterOpen.dropWhile fun token => token.value ≠ .rightBrace
  let (closing, rest) ← Tokens.expect? .rightBrace atClose
  return (⟨Spanned.slice source opening.stop closing.start⟩, rest)

theorem ListHeader.length_of_match? {tokens rest : Tokens} {header : ListHeader}
    (h : ListHeader.match? tokens = some (header, rest)) : rest.length < tokens.length := by
  simp only [ListHeader.match?, Option.bind_eq_bind, Option.bind_eq_some_iff,
    Option.filter_eq_some_iff, Prod.exists] at h
  obtain ⟨_, _, h₁, _, _, ⟨h₂, _⟩, _, _, h₃, _, _, h₄, _, _, h₅, _, _, h₆, h₇⟩ := h
  have := Tokens.length_of_expect? h₁
  have := Tokens.length_of_identifier? h₂
  have := Tokens.length_of_identifier? h₃
  have := Tokens.length_of_expect? h₄
  have := Tokens.length_of_expect? h₅
  have := Tokens.length_of_expect? h₆
  simp only [Option.pure_def, Option.some.injEq, Prod.mk.injEq] at h₇
  rw [← h₇.2]
  omega

theorem ShapeHeader.length_matchName (tokens : Tokens) :
    (ShapeHeader.matchName tokens).2.length ≤ tokens.length := by
  unfold ShapeHeader.matchName
  split
  next name rest h =>
    have := Tokens.length_of_identifier? h
    simp only
    omega
  next => simp

theorem ShapeHeader.length_of_match? {source : Text} {tokens rest : Tokens} {header : ShapeHeader}
    (h : ShapeHeader.match? source tokens = some (header, rest)) : rest.length < tokens.length := by
  simp only [ShapeHeader.match?, Option.bind_eq_bind, Option.bind_eq_some_iff,
    Option.filter_eq_some_iff, Prod.exists] at h
  obtain ⟨_, _, h₁, _, afterKind, ⟨h₂, _⟩, _, afterOpen, h₃, _, _, h₄, _, _, h₅, h₆⟩ := h
  have := Tokens.length_of_expect? h₁
  have := Tokens.length_of_identifier? h₂
  have := ShapeHeader.length_matchName afterKind
  have := Tokens.length_of_expect? h₃
  have := Tokens.length_of_expect? h₄
  have := (afterOpen.dropWhile_sublist fun token => token.value.isParameterToken).length_le
  have := Tokens.length_of_expect? h₅
  simp only [Option.pure_def, Option.some.injEq, Prod.mk.injEq] at h₆
  rw [← h₆.2]
  omega

/-- A header is not empty, so matching one moves on. -/
theorem Header.length_of_match? {source : Text} {tokens rest : Tokens} {header : Header}
    (h : Header.match? source tokens = some (header, rest)) : rest.length < tokens.length := by
  unfold Header.match? at h
  split at h
  next found =>
    simp only [Option.some.injEq, Prod.mk.injEq] at h
    exact h.2 ▸ ListHeader.length_of_match? found
  next =>
    split at h
    next found =>
      simp only [Option.some.injEq, Prod.mk.injEq] at h
      exact h.2 ▸ ShapeHeader.length_of_match? found
    next => simp at h

/-- A style block is not empty, so matching one moves on. -/
theorem StyleBlock.length_of_match? {source : Text} {tokens rest : Tokens} {block : StyleBlock}
    (h : StyleBlock.match? source tokens = some (block, rest)) : rest.length < tokens.length := by
  simp only [StyleBlock.match?, Option.bind_eq_bind, Option.bind_eq_some_iff, Prod.exists] at h
  obtain ⟨_, _, h₁, _, afterOpen, h₂, _, _, h₃, h₄⟩ := h
  have := Tokens.length_of_expect? h₁
  have := Tokens.length_of_expect? h₂
  have := (afterOpen.dropWhile_sublist fun token => decide (token.value ≠ .rightBrace)).length_le
  have := Tokens.length_of_expect? h₃
  simp only [Option.pure_def, Option.some.injEq, Prod.mk.injEq] at h₄
  rw [← h₄.2]
  omega

end SceneScript
