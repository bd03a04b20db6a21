import Mathlib.Order.Basic
import Mathlib.Data.Int.Notation
/-!
# A streamed file — what the buffered write handler stands for

A file written from the front and never read back: the bytes written so
far after the object's first `base` bytes, and the size of the file,
which a truncation to a larger size puts past them. A write at the end
appends; a write at the truncated size appends the zeros up to it first;
a truncation may not cut written bytes; closing the file writes the zeros
up to its size. Any other write is refused.

This is the file the handler's caller means, so the handler is right when
the bytes GCS receives are the `content` of this file after the same
calls.
-/

namespace GcsFuse

namespace BufferedWrite

/-- A call on a streamed file. -/
inductive StreamOp
  | write (offset : ℤ) (data : List UInt8)
  | truncate (size : ℤ)
  | flush
  deriving DecidableEq, Repr

/-- A streamed file: the bytes written after the first `base`, and its
size. -/
structure StreamFile where
  content : List UInt8
  size : ℤ
  deriving DecidableEq, Repr

namespace StreamFile

variable (base : ℕ) (f : StreamFile)

/-- The file before any call: nothing written after the object's
`base` bytes. -/
def start : StreamFile := ⟨[], base⟩

/-- Where the written bytes end. -/
def extent : ℤ := base + f.content.length

/-- A write at the end appends; one at a size past the end appends the
zeros up to it first. -/
def write (offset : ℤ) (data : List UInt8) : StreamFile :=
  if offset = f.extent base then ⟨f.content ++ data, max f.size (offset + data.length)⟩
  else if offset = f.size ∧ f.extent base < f.size then
    ⟨f.content ++ List.replicate (f.size - f.extent base).toNat 0 ++ data, f.size + data.length⟩
  else f

/-- A truncation never below the written bytes. -/
def truncate (size : ℤ) : StreamFile :=
  if size < f.extent base then f else { f with size := size }

/-- Closing: the zeros up to the size. -/
def flush : StreamFile :=
  { f with content := f.content ++ List.replicate (f.size - f.extent base).toNat 0 }

/-- One call. -/
def apply : StreamOp → StreamFile
  | .write offset data => f.write base offset data
  | .truncate size => f.truncate base size
  | .flush => f.flush base

/-- The size never falls below the written bytes. -/
def Sound : Prop := f.extent base ≤ f.size

theorem sound_start : (start base).Sound base := by
  simp [Sound, start, extent]

theorem extent_append (l : List UInt8) :
    ({ f with content := f.content ++ l } : StreamFile).extent base = f.extent base + l.length := by
  simp only [extent, List.length_append, Int.natCast_add]
  omega

theorem extent_nonneg : 0 ≤ f.extent base := by
  simp only [extent]
  omega

variable {base f}

theorem Sound.write (hf : f.Sound base) (offset : ℤ) (data : List UInt8) :
    (f.write base offset data).Sound base := by
  unfold Sound at hf ⊢
  unfold StreamFile.write
  split
  · -- at the end
    rename_i h
    simp only [extent, List.length_append, Int.natCast_add] at hf h ⊢
    omega
  · split
    · -- at the truncated size, past the end
      rename_i h
      simp only [extent, List.length_append, List.length_replicate, Int.natCast_add] at hf h ⊢
      omega
    · exact hf

theorem Sound.truncate (hf : f.Sound base) (size : ℤ) : (f.truncate base size).Sound base := by
  unfold StreamFile.truncate
  split
  · exact hf
  · simp only [Sound, extent] at *
    omega

/-- **Closing fills the file to its size.** -/
theorem extent_flush (hf : f.Sound base) : (f.flush base).extent base = f.size := by
  simp only [Sound, flush, extent, List.length_append, List.length_replicate, Int.natCast_add] at hf ⊢
  omega

/-- **Every call keeps the file sound.** -/
theorem Sound.apply (hf : f.Sound base) : ∀ op, (f.apply base op).Sound base
  | .write offset data => hf.write offset data
  | .truncate size => hf.truncate size
  | .flush => Int.le_of_eq (extent_flush hf)

end StreamFile

end BufferedWrite

end GcsFuse
