import Mathlib.Data.List.Basic
/-!
# A file of bytes under `pwrite` and `ftruncate`

The meaning a file system gives the contents of a regular file: `pwrite`
puts its data at an offset, first filling any hole between the end of
the file and the offset with zeros, and a write of no bytes changes
nothing (`os.File.WriteAt` makes no call for it); `ftruncate` cuts the
file or extends it with zeros. A write leaves the bytes below its offset
as they were (`take_pwrite`), and so does a truncation below its size
(`take_ftruncate`).
-/

namespace GcsFuse

namespace ByteFile

variable {α : Type*} [Zero α] (a : List α)

/-- `ftruncate`: cut to `n` bytes, or extended with zeros. -/
def ftruncate (n : ℕ) : List α := a.take n ++ List.replicate (n - a.length) 0

/-- `pwrite`: `data` at `offset`, a hole before it filled with zeros; no
bytes leave the file as it is. -/
def pwrite (offset : ℕ) (data : List α) : List α :=
  if data.isEmpty then a
  else
    let a' := a ++ List.replicate (offset - a.length) 0
    a'.take offset ++ data ++ a'.drop (offset + data.length)

@[simp] theorem length_ftruncate (n : ℕ) : (ftruncate a n).length = n := by
  simp only [ftruncate, List.length_append, List.length_take, List.length_replicate]
  omega

@[simp] theorem pwrite_nil (offset : ℕ) : pwrite a offset [] = a := rfl

theorem length_pwrite (offset : ℕ) {data : List α} (hd : data ≠ []) :
    (pwrite a offset data).length = max a.length (offset + data.length) := by
  simp only [pwrite, List.isEmpty_eq_false_iff.2 hd, Bool.false_eq_true, if_false, List.length_append,
    List.length_take, List.length_replicate, List.length_drop]
  omega

/-- A write never makes the file shorter. -/
theorem length_le_length_pwrite (offset : ℕ) (data : List α) : a.length ≤ (pwrite a offset data).length := by
  by_cases hd : data = []
  · simp only [hd, pwrite_nil, Nat.le_refl]
  · rw [length_pwrite a offset hd]
    exact Nat.le_max_left _ _

/-- A truncation leaves the bytes below its size. -/
theorem take_ftruncate {n k : ℕ} (hk : k ≤ n) (hka : k ≤ a.length) :
    (ftruncate a n).take k = a.take k := by
  have hlen : k ≤ (a.take n).length := by
    rw [List.length_take]
    omega
  rw [ftruncate, List.take_append_of_le_length hlen, List.take_take, Nat.min_eq_left hk]

/-- A write leaves the bytes below its offset. -/
theorem take_pwrite {offset k : ℕ} (data : List α) (hk : k ≤ offset) (hka : k ≤ a.length) :
    (pwrite a offset data).take k = a.take k := by
  by_cases hd : data = []
  · rw [hd, pwrite_nil]
  have hlen : k ≤ ((a ++ List.replicate (offset - a.length) 0).take offset).length := by
    simp only [List.length_take, List.length_append, List.length_replicate]
    omega
  rw [pwrite, if_neg (by simpa using hd), List.append_assoc, List.take_append_of_le_length hlen, List.take_take,
    Nat.min_eq_left hk, List.take_append_of_le_length hka]

end ByteFile

end GcsFuse
