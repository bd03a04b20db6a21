import Mathlib.Algebra.Order.Ring.Int
import Mathlib.Data.UInt
import Mathlib.Algebra.BigOperators.Group.List.Basic
import Mathlib.Data.List.Perm.Basic
/-!
# Doubly linked lists, as lists of identified elements

Go's `container/list` hands out `*list.Element` pointers, and a structure
that indexes its elements keeps those pointers elsewhere. A list here is a
`List (ℕ × β)`: each element carries the identity its pointer stands for,
and the operations a cache uses (`PushFront`, `MoveToFront`, `Remove`,
`Back` and the write `e.Value = x`) act through that identity.

On a list whose identities are distinct (`ids l` has no duplicates, which
every operation keeps) the elements behave as the pointed-to objects do:
`moveToFront` permutes, `remove` drops exactly one element, and a weight
summed over the list moves by exactly that element's weight.
-/

namespace GcsFuse

namespace ElementList

variable {β : Type*}

/-- The identities of a list's elements, front first. -/
def ids (l : List (ℕ × β)) : List ℕ := l.map Prod.fst

/-- `l.Back()`: the last element, if any. -/
def back (l : List (ℕ × β)) : Option (ℕ × β) := l.getLast?

/-- `l.PushFront(x)`, with `i` the identity of the new element. -/
def pushFront (l : List (ℕ × β)) (i : ℕ) (x : β) : List (ℕ × β) := (i, x) :: l

/-- `l.Remove(e)` for the element of identity `i`. -/
def remove (l : List (ℕ × β)) (i : ℕ) : List (ℕ × β) := l.filter fun e => e.1 ≠ i

/-- `e.Value = x` for the element of identity `i`. -/
def setValue (l : List (ℕ × β)) (i : ℕ) (x : β) : List (ℕ × β) :=
  l.map fun e => if e.1 = i then (i, x) else e

/-- `l.MoveToFront(e)` for the element of identity `i`. -/
def moveToFront (l : List (ℕ × β)) (i : ℕ) : List (ℕ × β) :=
  match l.find? (fun e => e.1 = i) with
  | some e => e :: remove l i
  | none => l

/-- The element of identity `i`, where the list holds it. -/
def get? (l : List (ℕ × β)) (i : ℕ) : Option β := (l.find? fun e => e.1 = i).map Prod.snd

/-- A weight summed over the elements. -/
def total (w : β → ℕ) (l : List (ℕ × β)) : ℕ := (l.map fun e => w e.2).sum

@[simp] theorem ids_nil : ids ([] : List (ℕ × β)) = [] := rfl

@[simp] theorem ids_cons (e : ℕ × β) (l : List (ℕ × β)) : ids (e :: l) = e.1 :: ids l := rfl

@[simp] theorem total_nil (w : β → ℕ) : total w ([] : List (ℕ × β)) = 0 := rfl

@[simp] theorem total_cons (w : β → ℕ) (e : ℕ × β) (l : List (ℕ × β)) :
    total w (e :: l) = w e.2 + total w l := by
  simp [total]

theorem mem_ids {l : List (ℕ × β)} {i : ℕ} : i ∈ ids l ↔ ∃ x, (i, x) ∈ l := by
  simp [ids]

/-! ## Membership -/

@[simp] theorem mem_pushFront {l : List (ℕ × β)} {i : ℕ} {x : β} {e : ℕ × β} :
    e ∈ pushFront l i x ↔ e = (i, x) ∨ e ∈ l := List.mem_cons

@[simp] theorem mem_remove {l : List (ℕ × β)} {i : ℕ} {e : ℕ × β} :
    e ∈ remove l i ↔ e ∈ l ∧ e.1 ≠ i := by
  simp [remove]

theorem mem_setValue {l : List (ℕ × β)} {i : ℕ} {x : β} {e : ℕ × β} :
    e ∈ setValue l i x ↔ (e ∈ l ∧ e.1 ≠ i) ∨ (e = (i, x) ∧ i ∈ ids l) := by
  simp only [setValue, List.mem_map, mem_ids]
  constructor
  · rintro ⟨⟨j, y⟩, hmem, rfl⟩
    by_cases hj : j = i
    · subst hj; exact .inr ⟨if_pos rfl, y, hmem⟩
    · simp only [hj, if_false]; exact .inl ⟨hmem, hj⟩
  · rintro (⟨hmem, hne⟩ | ⟨rfl, y, hy⟩)
    · exact ⟨e, hmem, if_neg hne⟩
    · exact ⟨(i, y), hy, if_pos rfl⟩

/-- Distinct identities name distinct elements. -/
theorem eq_of_mem_of_mem {l : List (ℕ × β)} (hl : (ids l).Nodup) {i : ℕ} {x y : β}
    (hx : (i, x) ∈ l) (hy : (i, y) ∈ l) : x = y := by
  induction l with
  | nil => simp at hx
  | cons e l ih =>
    simp only [ids_cons, List.nodup_cons, mem_ids] at hl
    rcases List.mem_cons.1 hx with rfl | hx' <;> rcases List.mem_cons.1 hy with h | hy'
    · exact (Prod.mk.inj h).2.symm
    · exact absurd ⟨y, hy'⟩ hl.1
    · obtain rfl := h
      exact absurd ⟨x, hx'⟩ hl.1
    · exact ih hl.2 hx' hy'

theorem get?_eq_some {l : List (ℕ × β)} {i : ℕ} {x : β} (hl : (ids l).Nodup) :
    get? l i = some x ↔ (i, x) ∈ l := by
  induction l with
  | nil => simp [get?]
  | cons e l ih =>
    obtain ⟨j, y⟩ := e
    simp only [ids_cons, List.nodup_cons, mem_ids] at hl
    by_cases hj : j = i
    · subst hj
      simp only [get?, List.find?_cons, decide_true, Option.map_some, Option.some.injEq,
        List.mem_cons, Prod.mk.injEq, true_and]
      exact ⟨fun h => .inl h.symm, fun h => h.elim Eq.symm fun hx => absurd ⟨x, hx⟩ hl.1⟩
    · have hne : ¬ (i, x) = (j, y) := fun h => hj (congrArg Prod.fst h).symm
      simp only [get?, List.find?_cons, hj, decide_false] at ih ⊢
      rw [ih hl.2, List.mem_cons, or_iff_right hne]

/-! ## Distinct identities -/

theorem ids_remove_sublist (l : List (ℕ × β)) (i : ℕ) : (ids (remove l i)).Sublist (ids l) :=
  (List.filter_sublist).map _

@[simp] theorem ids_setValue (l : List (ℕ × β)) (i : ℕ) (x : β) : ids (setValue l i x) = ids l := by
  simp only [ids, setValue, List.map_map]
  congr 1
  funext e
  by_cases h : e.1 = i <;> simp [h]

theorem nodup_remove {l : List (ℕ × β)} (hl : (ids l).Nodup) (i : ℕ) :
    (ids (remove l i)).Nodup :=
  (ids_remove_sublist l i).nodup hl

theorem nodup_pushFront {l : List (ℕ × β)} (hl : (ids l).Nodup) {i : ℕ} (hi : i ∉ ids l)
    (x : β) : (ids (pushFront l i x)).Nodup :=
  List.nodup_cons.2 ⟨hi, hl⟩

/-- With distinct identities, the element of identity `i` is the only one
`remove` drops. -/
theorem perm_cons_remove {l : List (ℕ × β)} (hl : (ids l).Nodup) {i : ℕ} {x : β}
    (hx : (i, x) ∈ l) : l.Perm ((i, x) :: remove l i) := by
  induction l with
  | nil => simp at hx
  | cons e l ih =>
    simp only [ids_cons, List.nodup_cons, mem_ids] at hl
    rcases List.mem_cons.1 hx with rfl | hx
    · have hnot : ∀ y, (i, y) ∉ l := fun y hy => hl.1 ⟨y, hy⟩
      have hrem : remove l i = l := by
        simp only [remove, List.filter_eq_self, decide_eq_true_eq]
        intro e he hei
        exact hnot e.2 (hei ▸ he)
      have hhead : remove ((i, x) :: l) i = l := by
        rw [← hrem]
        simp [remove]
      rw [hhead]
    · have hne : e.1 ≠ i := fun h => hl.1 ⟨x, h ▸ hx⟩
      have hcons : remove (e :: l) i = e :: remove l i := by simp [remove, hne]
      rw [hcons]
      exact ((ih hl.2 hx).cons e).trans (List.Perm.swap _ _ _)

theorem moveToFront_perm {l : List (ℕ × β)} (hl : (ids l).Nodup) (i : ℕ) :
    (moveToFront l i).Perm l := by
  unfold moveToFront
  split
  · rename_i e he
    have hmem := List.mem_of_find?_eq_some he
    have hi : e.1 = i := by simpa using List.find?_some he
    obtain ⟨j, y⟩ := e
    simp only at hi
    subst hi
    exact (perm_cons_remove hl hmem).symm
  · exact List.Perm.refl l

/-- With distinct identities, moving an element to the front puts it
before the others, which keep their order. -/
theorem moveToFront_eq {l : List (ℕ × β)} (hl : (ids l).Nodup) {i : ℕ} {x : β} (hx : (i, x) ∈ l) :
    moveToFront l i = (i, x) :: remove l i := by
  unfold moveToFront
  split
  · rename_i e he
    have hi : e.1 = i := by simpa using List.find?_some he
    obtain ⟨j, y⟩ := e
    simp only at hi
    subst hi
    rw [eq_of_mem_of_mem hl (List.mem_of_find?_eq_some he) hx]
  · rename_i hnone
    exact absurd (List.find?_eq_none.1 hnone (i, x) hx) (by simp)

/-! ## Weights -/

theorem total_remove {l : List (ℕ × β)} (hl : (ids l).Nodup) (w : β → ℕ) {i : ℕ} {x : β}
    (hx : (i, x) ∈ l) : total w l = w x + total w (remove l i) := by
  have h := ((perm_cons_remove hl hx).map fun e => w e.2).sum_eq
  simpa [total] using h

theorem total_moveToFront {l : List (ℕ × β)} (hl : (ids l).Nodup) (w : β → ℕ) (i : ℕ) :
    total w (moveToFront l i) = total w l := by
  unfold total
  exact ((moveToFront_perm hl i).map fun e => w e.2).sum_eq

theorem remove_setValue (l : List (ℕ × β)) (i : ℕ) (y : β) :
    remove (setValue l i y) i = remove l i := by
  induction l with
  | nil => rfl
  | cons e l ih =>
    by_cases h : e.1 = i
    · simpa [remove, setValue, h] using ih
    · simpa [remove, setValue, h] using ih

theorem total_setValue {l : List (ℕ × β)} (hl : (ids l).Nodup) (w : β → ℕ) {i : ℕ}
    {x y : β} (hx : (i, x) ∈ l) : total w (setValue l i y) + w x = total w l + w y := by
  have hy : (i, y) ∈ setValue l i y := mem_setValue.2 (.inr ⟨rfl, mem_ids.2 ⟨x, hx⟩⟩)
  have h1 := total_remove (by rwa [ids_setValue]) w hy
  have h2 := total_remove hl w hx
  rw [remove_setValue] at h1
  omega

/-! ## The back element -/

theorem back_mem {l : List (ℕ × β)} {e : ℕ × β} (h : back l = some e) : e ∈ l :=
  List.mem_of_getLast? h

theorem back_eq_none {l : List (ℕ × β)} : back l = none ↔ l = [] := List.getLast?_eq_none_iff

/-- With distinct identities, removing the back element leaves the rest. -/
theorem remove_concat {l : List (ℕ × β)} {i : ℕ} {x : β} (hl : (ids (l ++ [(i, x)])).Nodup) :
    remove (l ++ [(i, x)]) i = l := by
  have hi : ∀ y, (i, y) ∉ l := by
    intro y hy
    simp only [ids, List.map_append, List.map_cons, List.map_nil, List.nodup_append] at hl
    exact hl.2.2 i (List.mem_map_of_mem hy) i (List.mem_singleton_self i) rfl
  have hrest : remove l i = l := by
    simp only [remove, List.filter_eq_self, ne_eq, decide_eq_true_eq]
    intro e he hei
    exact hi e.2 (hei ▸ he)
  have happ : remove (l ++ [(i, x)]) i = remove l i ++ remove [(i, x)] i := List.filter_append _ _
  rw [happ, hrest]
  simp [remove]

theorem length_remove {l : List (ℕ × β)} (hl : (ids l).Nodup) {i : ℕ} {x : β}
    (hx : (i, x) ∈ l) : (remove l i).length + 1 = l.length := by
  have := (perm_cons_remove hl hx).length_eq
  simp only [List.length_cons] at this
  omega

end ElementList

end GcsFuse
