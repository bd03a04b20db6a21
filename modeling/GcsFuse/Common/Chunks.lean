import Mathlib.Algebra.Order.Ring.Int
import Mathlib.Data.UInt
import Mathlib.Algebra.BigOperators.Group.Finset.Basic
import Mathlib.Order.Interval.Finset.Nat
/-!
# A file cut into chunks

A file of `size` bytes cut into chunks of `c` bytes: chunk `k` holds the
offsets `o` with `o / c = k`, that is `[k * c, (k + 1) * c)`
(`div_eq_iff`), and the last one is cut at `size`. `len c size k` is how
many of its bytes lie in the file: the offsets of the file in the chunk
(`len_eq_card`). Chunks do not overlap, so distinct chunks hold at most
the file (`sum_len_le`).
-/

namespace GcsFuse

namespace Chunks

variable {c : ℕ}

/-- The bytes of chunk `k` that lie in a file of `size` bytes. -/
def len (c size k : ℕ) : ℕ := min ((k + 1) * c) size - k * c

/-- The chunk of an offset is the one whose bounds hold it. -/
theorem div_eq_iff (hc : 0 < c) {o k : ℕ} : o / c = k ↔ k * c ≤ o ∧ o < (k + 1) * c := by
  rw [← Nat.le_div_iff_mul_le hc, ← Nat.div_lt_iff_lt_mul hc]
  omega

/-- A chunk's bytes in the file are the file's offsets in the chunk. -/
theorem len_eq_card (hc : 0 < c) (size k : ℕ) :
    len c size k = ((Finset.range size).filter fun o => o / c = k).card := by
  have hset : ((Finset.range size).filter fun o => o / c = k) =
      Finset.Ico (k * c) (min ((k + 1) * c) size) := by
    ext o
    simp only [Finset.mem_filter, Finset.mem_range, Finset.mem_Ico, div_eq_iff hc, lt_min_iff]
    omega
  rw [hset, Nat.card_Ico, len]

/-- **Distinct chunks hold at most the file**: their bytes in it are
distinct offsets of it. -/
theorem sum_len_le (hc : 0 < c) (size : ℕ) {l : List ℕ} (hl : l.Nodup) :
    (l.map (len c size)).sum ≤ size := by
  classical
  rw [← List.sum_toFinset _ hl]
  set s := (Finset.range size).filter fun o => o / c ∈ l.toFinset
  have hmaps : Set.MapsTo (fun o => o / c) (s : Set ℕ) (l.toFinset : Set ℕ) :=
    fun o ho => (Finset.mem_filter.1 ho).2
  -- each chunk's fibre in `s` is its bytes in the file
  have hfibre : ∀ k ∈ l.toFinset, len c size k = (s.filter fun o => o / c = k).card := by
    intro k hk
    rw [len_eq_card hc, Finset.filter_filter]
    congr 1
    refine Finset.filter_congr fun o _ => ?_
    constructor
    · intro ho
      exact ⟨ho ▸ hk, ho⟩
    · exact And.right
  calc ∑ k ∈ l.toFinset, len c size k
      = ∑ k ∈ l.toFinset, (s.filter fun o => o / c = k).card := Finset.sum_congr rfl hfibre
    _ = s.card := (Finset.card_eq_sum_card_fiberwise hmaps).symm
    _ ≤ (Finset.range size).card := Finset.card_filter_le _ _
    _ = size := Finset.card_range size

end Chunks

end GcsFuse
