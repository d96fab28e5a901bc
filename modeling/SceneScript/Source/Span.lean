import SceneScript.Text.Basic

/-! # Spans

A span is a half-open range of bytes of a source text. A `Spanned` value remembers where it was
read; whether two such values agree is asked of the values alone.
-/

namespace SceneScript

/-- The bytes from `start` up to, and without, `stop`. -/
structure Span where
  start : Nat
  stop : Nat
  start_le_stop : start ≤ stop := by omega
  deriving DecidableEq, Repr

namespace Span

/-- The span between two offsets, empty when the second lies before the first. -/
def between (start stop : Nat) : Span :=
  ⟨start, max start stop, by omega⟩

/-- The empty span at an offset. -/
def emptyAt (offset : Nat) : Span :=
  ⟨offset, offset, by omega⟩

/-- The number of bytes. -/
def length (span : Span) : Nat :=
  span.stop - span.start

/-- Whether the span has no bytes. -/
def isEmpty (span : Span) : Bool :=
  span.start = span.stop

/-- The least span that holds both. -/
def union (a b : Span) : Span :=
  ⟨min a.start b.start, max a.stop b.stop, by have := a.start_le_stop; omega⟩

/-- The span moved right by `offset` bytes. -/
def shift (span : Span) (offset : Nat) : Span :=
  ⟨span.start + offset, span.stop + offset, by have := span.start_le_stop; omega⟩

end Span

/-- A value and the place in the source that it was read from. -/
structure Spanned (α : Type) where
  value : α
  span : Span
  deriving DecidableEq, Repr

namespace Spanned

/-- The image of the value, at the same place. -/
def map {α β : Type} (f : α → β) (spanned : Spanned α) : Spanned β :=
  ⟨f spanned.value, spanned.span⟩

/-- The same value, moved right by `offset` bytes. -/
def shift {α : Type} (spanned : Spanned α) (offset : Nat) : Spanned α :=
  ⟨spanned.value, spanned.span.shift offset⟩

/-- Whether two values are equal, wherever they stand. -/
def sameValue {α : Type} [DecidableEq α] (a b : Spanned α) : Bool :=
  a.value = b.value

/-- The text of a source between two offsets, with its place. -/
def slice (source : Text) (start stop : Nat) : Spanned Text :=
  ⟨Text.slice source start stop, Span.between start stop⟩

end Spanned

end SceneScript
