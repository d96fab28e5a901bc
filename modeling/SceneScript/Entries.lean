import SceneScript.Text.Basic

/-! # Ordered entries

Entries are keyed by text and keep the order in which their keys were first written. A key that is
written again keeps its place and takes the new value.
-/

namespace SceneScript

/-- The pairs with `value` under `key`: in the place of that key, or at the end. -/
def putEntry {α : Type} (key : Text) (value : α) : List (Text × α) → List (Text × α)
  | [] => [(key, value)]
  | (k, v) :: rest => if k = key then (key, value) :: rest else (k, v) :: putEntry key value rest

/-- Writing a key changes the sequence of keys only when the key is new. -/
theorem map_fst_putEntry {α : Type} (key : Text) (value : α) (pairs : List (Text × α)) :
    (putEntry key value pairs).map Prod.fst =
      if key ∈ pairs.map Prod.fst then pairs.map Prod.fst else pairs.map Prod.fst ++ [key] := by
  induction pairs with
  | nil => simp [putEntry]
  | cons pair rest ih =>
    obtain ⟨k, v⟩ := pair
    by_cases h : k = key
    · simp [putEntry, h]
    · simp only [putEntry, h, if_false, List.map_cons, ih, List.mem_cons, Ne.symm h, false_or]
      split <;> rfl

/-- A list of pairs in which no key occurs twice. -/
structure Entries (α : Type) where
  toList : List (Text × α)
  nodup_keys : (toList.map Prod.fst).Nodup

namespace Entries

variable {α : Type}

/-- No entries. -/
def empty : Entries α :=
  ⟨[], List.nodup_nil⟩

instance : Inhabited (Entries α) :=
  ⟨empty⟩

/-- The keys in the order in which they were first written. -/
def keys (entries : Entries α) : List Text :=
  entries.toList.map Prod.fst

/-- Writes `value` under `key`. -/
def insert (entries : Entries α) (key : Text) (value : α) : Entries α where
  toList := putEntry key value entries.toList
  nodup_keys := by
    rw [map_fst_putEntry]
    split
    · exact entries.nodup_keys
    next h =>
      refine List.nodup_append.mpr ⟨entries.nodup_keys, by simp, ?_⟩
      intro a ha b hb
      rw [List.mem_singleton] at hb
      exact fun hab => h (hb ▸ hab ▸ ha)

/-- The entries that result from writing the pairs one after another. -/
def ofList (pairs : List (Text × α)) : Entries α :=
  pairs.foldl (fun entries pair => entries.insert pair.1 pair.2) empty

/-- The value under `key`. -/
def get? (entries : Entries α) (key : Text) : Option α :=
  entries.toList.lookup key

@[ext] theorem ext {a b : Entries α} (h : a.toList = b.toList) : a = b := by
  cases a
  cases b
  cases h
  rfl

end Entries

end SceneScript
