import Mathlib.Data.List.Basic
/-!
# Singly linked lists on a heap

Where the code links cells by pointers, a model keeps the cells on a
heap, a list, and names each by its index (as in `GcsFuse.Common.Heap`).
A cell has a value and a link to the next cell. `Seg value next heap ps
xs` says that the cells at the addresses `ps`, in order, hold the values
`xs` and each links to the one after it; the last cell's link is not
read.

A segment reads only its own cells (`Seg.frame`). Its first cell comes
off with the rest still a segment (`Seg.cons_inv`), and a cell appended
at the end, with the last cell linked to it, makes a longer segment
(`Seg.snoc`).
-/

namespace GcsFuse

namespace ListSeg

variable {β α : Type*} (value : β → α) (next : β → Option ℕ)

/-- The cells at the addresses `ps` hold `xs`, each linked to the next. -/
inductive Seg (heap : List β) : List ℕ → List α → Prop
  /-- No cells. -/
  | nil : Seg heap [] []
  /-- The last cell, whose link is not read. -/
  | last {p : ℕ} {c : β} (hp : heap[p]? = some c) : Seg heap [p] [value c]
  /-- A cell linked to the next one. -/
  | cons {p q : ℕ} {c : β} {ps : List ℕ} {xs : List α} (hp : heap[p]? = some c) (hnext : next c = some q)
      (h : Seg heap (q :: ps) xs) : Seg heap (p :: q :: ps) (value c :: xs)

variable {value next} {heap heap' : List β} {ps : List ℕ} {xs : List α}

namespace Seg

theorem length_eq (h : Seg value next heap ps xs) : ps.length = xs.length := by
  induction h with
  | nil => rfl
  | last _ => rfl
  | cons _ _ _ ih => simp only [List.length_cons, ih]

/-- A segment's cells are on the heap. -/
theorem lt_length (h : Seg value next heap ps xs) {p : ℕ} (hp : p ∈ ps) : p < heap.length := by
  induction h with
  | nil => cases hp
  | last hc =>
    rw [List.mem_singleton] at hp
    subst hp
    exact (List.getElem?_eq_some_iff.mp hc).1
  | cons hc _ _ ih =>
    rcases List.mem_cons.mp hp with rfl | hp'
    · exact (List.getElem?_eq_some_iff.mp hc).1
    · exact ih hp'

/-- **A segment reads only its own cells.** -/
theorem frame (h : Seg value next heap ps xs) (hsame : ∀ p ∈ ps, heap'[p]? = heap[p]?) :
    Seg value next heap' ps xs := by
  induction h with
  | nil => exact .nil
  | last hc => exact .last ((hsame _ List.mem_cons_self).trans hc)
  | cons hc hnext _ ih =>
    exact .cons ((hsame _ List.mem_cons_self).trans hc) hnext
      (ih fun p hp => hsame p (List.mem_cons_of_mem _ hp))

/-- **The first cell comes off**: it holds the first value, the rest is a
segment, and when there is a rest the first cell links to it. -/
theorem cons_inv {p : ℕ} (h : Seg value next heap (p :: ps) xs) :
    ∃ c xs', heap[p]? = some c ∧ xs = value c :: xs' ∧ Seg value next heap ps xs' ∧
      (ps = [] ∨ next c = ps.head?) := by
  cases h with
  | last hc => exact ⟨_, [], hc, rfl, .nil, .inl rfl⟩
  | cons hc hnext h => exact ⟨_, _, hc, rfl, h, .inr hnext⟩

/-- **Appending a cell.** The last cell `e` of a segment, now linked to the
cell at `a`, with its value kept and the other cells untouched, makes a
segment one cell longer. -/
theorem snoc {e a : ℕ} {c c' d : β} (h : Seg value next heap (ps ++ [e]) xs)
    (hsame : ∀ p ∈ ps, heap'[p]? = heap[p]?) (he : heap[e]? = some c) (he' : heap'[e]? = some c')
    (hvalue : value c' = value c) (hlink : next c' = some a) (ha : heap'[a]? = some d) :
    Seg value next heap' (ps ++ [e, a]) (xs ++ [value d]) := by
  -- on the segment's structure, with the addresses before `e` peeled one at a time
  generalize hqs : ps ++ [e] = qs at h
  induction h generalizing ps with
  | nil => simp at hqs
  | @last p c₀ hc =>
    -- `e` is the only cell: it now links to `a`
    obtain ⟨rfl, rfl⟩ : ps = [] ∧ e = p := by simpa [List.append_eq_singleton_iff] using hqs
    obtain rfl : c₀ = c := Option.some.inj (hc.symm.trans he)
    rw [← hvalue]
    exact .cons he' hlink (.last ha)
  | @cons p q c₀ qs xs' hc hnext _ ih =>
    -- a cell before `e`, untouched, still links to the rest
    cases ps with
    | nil => simp at hqs
    | cons p₀ ps₀ =>
      rw [List.cons_append, List.cons.injEq] at hqs
      obtain ⟨rfl, hrest⟩ := hqs
      have htail := ih (fun p hp => hsame p (List.mem_cons_of_mem _ hp)) hrest
      have haddrs : ps₀ ++ [e, a] = q :: (qs ++ [a]) := by
        rw [← List.singleton_append, ← List.append_assoc, hrest, List.cons_append]
      rw [haddrs] at htail
      rw [List.cons_append, haddrs, List.cons_append]
      exact .cons ((hsame _ List.mem_cons_self).trans hc) hnext htail

end Seg

end ListSeg

end GcsFuse
