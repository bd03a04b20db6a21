import Mathlib.Data.List.GetD
/-!
# Heaps of values named by their index

Where the code holds pointers, a model keeps the values on a heap, a
list, and names each by its index; reading outside the list gives a
default value. Writing one index changes what that index reads and
nothing else, and allocating appends a value at the next index.
-/

namespace GcsFuse

namespace Heap

variable {α : Type*} (l : List α) (d : α)

/-- **Writing one index**: it reads the new value; every other index
reads what it read. -/
theorem getD_set {b : ℕ} (hb : b < l.length) (x : α) (c : ℕ) :
    (l.set b x).getD c d = if b = c then x else l.getD c d := by
  simp only [List.getD_eq_getElem?_getD, List.getElem?_set]
  split <;> simp_all

/-- **Allocating** at the end of the heap. -/
theorem getD_concat (x : α) (c : ℕ) :
    (l ++ [x]).getD c d = if c = l.length then x else l.getD c d := by
  simp only [List.getD_eq_getElem?_getD]
  rcases Nat.lt_or_ge c l.length with hlt | hge
  · rw [List.getElem?_append_left hlt, if_neg (by omega)]
  · rw [List.getElem?_append_right hge, List.getElem?_eq_none (l := l) hge]
    split
    · simp_all
    · have : 1 ≤ c - l.length := by omega
      simp [List.getElem?_eq_none, this]

end Heap

end GcsFuse
