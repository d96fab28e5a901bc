import SceneScript.Source.Span

/-! # Cutting texts at byte offsets

A cut at the byte length of a front gives back that front, and a slice of a longer text does not
depend on what follows it.
-/

namespace SceneScript.Text

theorem dropBytes_zero (text : Text) : dropBytes 0 text = text := by
  cases text with
  | nil => rfl
  | cons c rest =>
      have hsize := c.utf8Size_pos
      rw [dropBytes, if_neg (by omega)]

theorem takeBytes_zero (text : Text) : takeBytes 0 text = [] := by
  cases text with
  | nil => rfl
  | cons c rest =>
      have hsize := c.utf8Size_pos
      rw [takeBytes, if_neg (by omega)]

/-- Dropping past a front goes on in what follows it. -/
theorem dropBytes_byteLength_add (front back : Text) (count : Nat) :
    dropBytes (byteLength front + count) (front ++ back) = dropBytes count back := by
  induction front with
  | nil => simp
  | cons c rest ih =>
      rw [List.cons_append, dropBytes, byteLength_cons, if_pos (by omega), ← ih]
      congr 1
      omega

/-- Taking more than a front goes on in what follows it. -/
theorem takeBytes_byteLength_add (front back : Text) (count : Nat) :
    takeBytes (byteLength front + count) (front ++ back) = front ++ takeBytes count back := by
  induction front with
  | nil => rw [byteLength_nil, Nat.zero_add, List.nil_append, List.nil_append]
  | cons c rest ih =>
      have hcount : c.utf8Size + byteLength rest + count - c.utf8Size =
          byteLength rest + count := by omega
      rw [List.cons_append, takeBytes, byteLength_cons, if_pos (by omega), hcount, ih,
        List.cons_append]

theorem takeBytes_byteLength (front back : Text) :
    takeBytes (byteLength front) (front ++ back) = front := by
  have htake := takeBytes_byteLength_add front back 0
  rwa [Nat.add_zero, takeBytes_zero, List.append_nil] at htake

theorem dropBytes_append_of_le {front : Text} {count : Nat} (h : count ≤ byteLength front)
    (back : Text) : dropBytes count (front ++ back) = dropBytes count front ++ back := by
  induction front generalizing count with
  | nil =>
      obtain rfl := Nat.le_zero.mp h
      exact dropBytes_zero back
  | cons c rest ih =>
      rw [byteLength_cons] at h
      rw [List.cons_append, dropBytes, dropBytes]
      split
      next => exact ih (by omega)
      next => rfl

theorem takeBytes_append_of_le {front : Text} {count : Nat} (h : count ≤ byteLength front)
    (back : Text) : takeBytes count (front ++ back) = takeBytes count front := by
  induction front generalizing count with
  | nil =>
      obtain rfl := Nat.le_zero.mp h
      exact takeBytes_zero back
  | cons c rest ih =>
      rw [byteLength_cons] at h
      rw [List.cons_append, takeBytes, takeBytes]
      split
      next => rw [ih (by omega)]
      next => rfl

theorem takeBytes_prefix_of_le {count more : Nat} (h : count ≤ more) (text : Text) :
    takeBytes count text <+: takeBytes more text := by
  induction text generalizing count more with
  | nil => exact List.prefix_refl []
  | cons c rest ih =>
      rw [takeBytes]
      split
      next hsize =>
        rw [takeBytes, if_pos (Nat.le_trans hsize h), List.cons_prefix_cons]
        exact ⟨rfl, ih (Nat.sub_le_sub_right h _)⟩
      next => exact List.nil_prefix

/-- A cut inside a character leaves that character to the back. -/
theorem byteLength_sub_le_dropBytes (text : Text) (count : Nat) :
    byteLength text - count ≤ byteLength (dropBytes count text) := by
  induction text generalizing count with
  | nil => exact Nat.sub_le 0 count
  | cons c rest ih =>
      rw [dropBytes, byteLength_cons]
      split
      next =>
        have hrest := ih (count - c.utf8Size)
        omega
      next =>
        rw [byteLength_cons]
        omega

/-- A slice within a front does not depend on what follows. -/
theorem slice_append_of_le {front : Text} {stop : Nat} (h : stop ≤ byteLength front)
    (start : Nat) (back : Text) : slice (front ++ back) start stop = slice front start stop := by
  unfold slice
  by_cases hstart : start ≤ stop
  · have hrest := byteLength_sub_le_dropBytes front start
    rw [dropBytes_append_of_le (by omega), takeBytes_append_of_le (by omega)]
  · rw [Nat.sub_eq_zero_of_le (by omega), takeBytes_zero, takeBytes_zero]

/-- A slice that begins behind a front and ends `count` bytes behind what follows it. -/
theorem slice_append_append (front middle back : Text) {stop count : Nat}
    (h : stop = byteLength front + (byteLength middle + count)) :
    slice (front ++ (middle ++ back)) (byteLength front) stop = middle ++ takeBytes count back := by
  have hdrop := dropBytes_byteLength_add front (middle ++ back) 0
  rw [Nat.add_zero, dropBytes_zero] at hdrop
  rw [slice, hdrop, h, Nat.add_sub_cancel_left, takeBytes_byteLength_add]

/-- The slice from the end of a front to the end of what follows it is what follows it. -/
theorem slice_eq {text front middle back : Text} (h : text = front ++ (middle ++ back))
    {start stop : Nat} (hstart : start = byteLength front)
    (hstop : stop = start + byteLength middle) : slice text start stop = middle := by
  subst h hstart hstop
  have hslice := slice_append_append front middle back (Nat.add_assoc _ _ 0)
  rwa [takeBytes_zero, List.append_nil] at hslice

theorem slice_eq_nil {start stop : Nat} (h : stop ≤ start) (text : Text) :
    slice text start stop = [] := by
  rw [slice, Nat.sub_eq_zero_of_le h, takeBytes_zero]

/-- A slice behind an insertion is the slice of the text without it. -/
theorem slice_insert {front : Text} {start : Nat} (h : byteLength front ≤ start)
    (inserted back : Text) (stop : Nat) :
    slice (front ++ (inserted ++ back)) (start + byteLength inserted)
      (stop + byteLength inserted) = slice (front ++ back) start stop := by
  obtain ⟨count, rfl⟩ := Nat.exists_eq_add_of_le h
  have hplace : byteLength front + count + byteLength inserted =
      byteLength front + (byteLength inserted + count) := by omega
  rw [slice, slice, Nat.add_sub_add_right, hplace, dropBytes_byteLength_add,
    dropBytes_byteLength_add, dropBytes_byteLength_add]

theorem byteLength_take_add_drop (count : Nat) (text : Text) :
    byteLength (text.take count) + byteLength (text.drop count) = byteLength text := by
  rw [← byteLength_append, List.take_append_drop]

end SceneScript.Text
