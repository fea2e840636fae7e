import Mathlib.Tactic.Common

/-! A queue kept in a circular array between a front and a back position. -/

namespace Ring

variable {α : Type} {slots : List α} {front back : Nat}

/-- The position after `i` in an array of `n` slots. -/
def next (n i : Nat) : Nat := if i + 1 = n then 0 else i + 1

/-- The slots from the front position up to the back position. -/
def items (slots : List α) (front back : Nat) : List α :=
  if front ≤ back then (slots.drop front).take (back - front)
  else slots.drop front ++ slots.take back

theorem next_lt {n i : Nat} (hi : i < n) : next n i < n := by
  unfold next
  split <;> omega

@[simp] theorem items_self (slots : List α) (i : Nat) : items slots i i = [] := by
  simp [items]

theorem length_items (hf : front < slots.length) (hb : back < slots.length) :
    (items slots front back).length =
      if front ≤ back then back - front else slots.length - front + back := by
  unfold items
  split
  · simp
    omega
  · simp
    omega

/-- A queue in use leaves one slot free. -/
theorem length_items_lt (hf : front < slots.length) (hb : back < slots.length) :
    (items slots front back).length < slots.length := by
  rw [length_items hf hb]
  split <;> omega

theorem items_ne_nil (hf : front < slots.length) (hb : back < slots.length) (h : front ≠ back) :
    items slots front back ≠ [] := by
  intro hnil
  have hlength := length_items hf hb
  rw [hnil] at hlength
  split at hlength <;> simp at hlength <;> omega

/-- The back position reaches the front when the last free slot is filled. -/
theorem next_back_eq_front (hf : front < slots.length) (hb : back < slots.length) :
    next slots.length back = front ↔ (items slots front back).length + 1 = slots.length := by
  rw [length_items hf hb]
  unfold next
  split <;> split <;> omega

/-- Clearing the front slot and moving past it takes the first item off. -/
theorem items_pop (hf : front < slots.length) (hb : back < slots.length) (h : front ≠ back)
    (cleared : α) : items slots front back =
      slots[front] :: items (slots.set front cleared) (next slots.length front) back := by
  have hdrop : slots.drop front = slots[front] :: slots.drop (front + 1) :=
    List.drop_eq_getElem_cons hf
  have hrest : (slots.set front cleared).drop (front + 1) = slots.drop (front + 1) :=
    List.drop_set_of_lt (Nat.lt_succ_self front)
  by_cases hle : front ≤ back
  · have hnext : next slots.length front = front + 1 := by
      simp [next]
      omega
    have hsub : back - front = back - (front + 1) + 1 := by omega
    rw [hnext, items, items, if_pos hle, if_pos (by omega), hdrop, hrest, hsub,
      List.take_succ_cons]
  · have htake : (slots.set front cleared).take back = slots.take back :=
      List.take_set_of_le (by omega)
    rw [items, if_neg hle, hdrop, List.cons_append]
    congr 1
    by_cases hlast : front + 1 = slots.length
    · simp [next, hlast, items, htake]
    · rw [next, if_neg hlast, items, if_neg (by omega), hrest, htake]

theorem take_succ_set {l : List α} {i : Nat} (hi : i < l.length) (a : α) :
    (l.set i a).take (i + 1) = l.take i ++ [a] := by
  rw [List.take_add_one, List.take_set_of_le (Nat.le_refl i), List.getElem?_set_self hi]
  rfl

/-- Filling the back slot and moving past it appends an item, unless the queue becomes full. -/
theorem items_push (hf : front < slots.length) (hb : back < slots.length)
    (h : next slots.length back ≠ front) (a : α) :
    items (slots.set back a) front (next slots.length back) = items slots front back ++ [a] := by
  by_cases hle : front ≤ back
  · have hdrop : (slots.set back a).drop front = (slots.drop front).set (back - front) a := by
      rw [List.drop_set, if_neg (by omega)]
    have hlength : back - front < (slots.drop front).length := by
      simp
      omega
    have htake := take_succ_set hlength a
    rw [items.eq_def slots, if_pos hle]
    by_cases hlast : back + 1 = slots.length
    · have hall : back - front + 1 = ((slots.drop front).set (back - front) a).length := by
        simp
        omega
      rw [next, if_pos hlast] at h
      rw [next, if_pos hlast, items, if_neg (by omega), List.take_zero, List.append_nil, hdrop,
        ← htake, hall, List.take_length]
    · rw [next, if_neg hlast, items, if_pos (by omega), hdrop,
        show back + 1 - front = back - front + 1 by omega, htake]
  · have hdrop : (slots.set back a).drop front = slots.drop front :=
      List.drop_set_of_lt (by omega)
    have hnext : next slots.length back = back + 1 := by
      simp [next]
      omega
    rw [hnext] at h ⊢
    rw [items, if_neg (by omega), items, if_neg hle, hdrop, take_succ_set hb, List.append_assoc]

end Ring
