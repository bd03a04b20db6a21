import Mathlib.Data.List.Perm.Basic
import Mathlib.Data.List.Pairwise
import Mathlib.Data.Int.Notation
/-!
# Go's `slices.SortFunc`

`slices.SortFunc(x, cmp)` is pattern-defeating quicksort. Of it, a caller
may rely on three things: it permutes the slice; on a comparator that
orders by a key (`cmp a b < 0` exactly when `a`'s key is below `b`'s) it
returns the elements in key order; and a slice of at most twelve elements
is sorted by `insertionSortCmpFunc`, which moves each element left past
the ones it compares below, so that elements no comparison puts below one
another keep their order (`insertionSortCmpFunc_of_forall`). `SortFunc`
states the three; `SortFunc.insertion`, the insertion sort at every
length, meets them.
-/

namespace GoSort

variable {α : Type}

/-- One round of `insertionSortCmpFunc`: the element `x` after the sorted
prefix, given reversed, swaps left past every element it compares
below. -/
def insertBack (cmp : α → α → ℤ) (x : α) : List α → List α
  | [] => [x]
  | y :: ys => if cmp x y < 0 then y :: insertBack cmp x ys else x :: y :: ys

/-- `insertionSortCmpFunc`, on the whole slice. -/
def insertionSortCmpFunc (cmp : α → α → ℤ) (xs : List α) : List α :=
  (xs.foldl (fun acc x => insertBack cmp x acc) []).reverse

/-- What a caller may assume of `slices.SortFunc`. -/
structure SortFunc where
  sort : {α : Type} → (α → α → ℤ) → List α → List α
  perm : ∀ {α : Type} (cmp : α → α → ℤ) (xs : List α), (sort cmp xs).Perm xs
  sorted : ∀ {α : Type} (cmp : α → α → ℤ) (key : α → ℤ), (∀ a b, cmp a b < 0 ↔ key a < key b) →
    ∀ xs, (sort cmp xs).Pairwise fun a b => key a ≤ key b
  small : ∀ {α : Type} (cmp : α → α → ℤ) (xs : List α), xs.length ≤ 12 → sort cmp xs = insertionSortCmpFunc cmp xs

variable {cmp : α → α → ℤ}

theorem insertBack_perm (x : α) : ∀ l : List α, (insertBack cmp x l).Perm (x :: l)
  | [] => List.Perm.refl _
  | y :: ys => by
    unfold insertBack
    split_ifs
    · exact ((insertBack_perm x ys).cons y).trans (List.Perm.swap x y ys)
    · exact List.Perm.refl _

/-- The prefix, kept reversed, stays in descending key order. -/
theorem insertBack_pairwise {key : α → ℤ} (hkey : ∀ a b, cmp a b < 0 ↔ key a < key b) (x : α) :
    ∀ {l : List α}, l.Pairwise (fun a b => key b ≤ key a) →
      (insertBack cmp x l).Pairwise fun a b => key b ≤ key a
  | [], _ => List.pairwise_singleton _ _
  | y :: ys, h => by
    obtain ⟨hy, hys⟩ := List.pairwise_cons.1 h
    unfold insertBack
    split_ifs with hxy
    · -- `x` goes below `y`, which stays above all of the rest
      have hlt := (hkey x y).1 hxy
      refine List.pairwise_cons.2 ⟨fun z hz => ?_, insertBack_pairwise hkey x hys⟩
      rcases List.mem_cons.1 ((insertBack_perm x ys).mem_iff.1 hz) with rfl | hz
      · exact Int.le_of_lt hlt
      · exact hy z hz
    · have hle : key y ≤ key x := Int.not_lt.1 fun h => hxy ((hkey x y).2 h)
      refine List.pairwise_cons.2 ⟨fun z hz => ?_, h⟩
      rcases List.mem_cons.1 hz with rfl | hz
      · exact hle
      · exact Int.le_trans (hy z hz) hle

theorem foldl_insertBack_perm : ∀ (xs acc : List α),
    (xs.foldl (fun acc x => insertBack cmp x acc) acc).Perm (xs.reverse ++ acc)
  | [], _ => by simp
  | x :: xs, acc => by
    rw [List.foldl_cons, List.reverse_cons, List.append_assoc, List.singleton_append]
    exact (foldl_insertBack_perm xs _).trans ((insertBack_perm x acc).append_left _)

theorem insertionSortCmpFunc_perm (xs : List α) : (insertionSortCmpFunc cmp xs).Perm xs := by
  unfold insertionSortCmpFunc
  have h := @foldl_insertBack_perm _ cmp xs []
  rw [List.append_nil] at h
  exact (List.reverse_perm _).trans (h.trans (List.reverse_perm xs))

/-- **Insertion sort sorts** on a comparator that orders by a key. -/
theorem insertionSortCmpFunc_sorted {key : α → ℤ} (hkey : ∀ a b, cmp a b < 0 ↔ key a < key b)
    (xs : List α) : (insertionSortCmpFunc cmp xs).Pairwise fun a b => key a ≤ key b := by
  have hfold : ∀ (ys acc : List α), acc.Pairwise (fun a b => key b ≤ key a) →
      (ys.foldl (fun acc x => insertBack cmp x acc) acc).Pairwise fun a b => key b ≤ key a := by
    intro ys
    induction ys with
    | nil => exact fun _ h => h
    | cons y ys ih => exact fun acc h => ih _ (insertBack_pairwise hkey y h)
  exact List.pairwise_reverse.2 (hfold xs [] List.Pairwise.nil)

/-- An element that compares below nothing of the prefix stays where it
is. -/
theorem insertBack_of_forall {x : α} : ∀ {l : List α}, (∀ y ∈ l, ¬ cmp x y < 0) → insertBack cmp x l = x :: l
  | [], _ => rfl
  | y :: ys, h => by
    rw [insertBack, if_neg (h y List.mem_cons_self)]

theorem foldl_insertBack_of_forall : ∀ (xs acc : List α), (∀ x ∈ xs, ∀ y ∈ xs ++ acc, ¬ cmp x y < 0) →
    xs.foldl (fun acc x => insertBack cmp x acc) acc = xs.reverse ++ acc
  | [], _, _ => rfl
  | x :: xs, acc, h => by
    have hx : insertBack cmp x acc = x :: acc :=
      insertBack_of_forall fun y hy => h x List.mem_cons_self y (List.mem_append_right _ hy)
    -- the rest sees `x` on top of the prefix
    have hrest : ∀ x' ∈ xs, ∀ y ∈ xs ++ x :: acc, ¬ cmp x' y < 0 := by
      intro x' hx' y hy
      apply h x' (List.mem_cons_of_mem x hx') y
      simp only [List.cons_append, List.mem_append, List.mem_cons] at hy ⊢
      tauto
    rw [List.foldl_cons, hx, foldl_insertBack_of_forall xs (x :: acc) hrest, List.reverse_cons,
      List.append_assoc, List.singleton_append]

/-- **Insertion sort keeps the order of elements no comparison puts below
one another.** -/
theorem insertionSortCmpFunc_of_forall {xs : List α} (h : ∀ x ∈ xs, ∀ y ∈ xs, ¬ cmp x y < 0) :
    insertionSortCmpFunc cmp xs = xs := by
  unfold insertionSortCmpFunc
  rw [foldl_insertBack_of_forall xs [] (by simpa using h), List.append_nil, List.reverse_reverse]

/-- Insertion sort at every length is a `SortFunc`. -/
def SortFunc.insertion : SortFunc where
  sort := insertionSortCmpFunc
  perm _ := insertionSortCmpFunc_perm
  sorted _ _ hkey := insertionSortCmpFunc_sorted hkey
  small _ _ _ := rfl

end GoSort
