import Mathlib.Data.String.Basic
/-!
# Length-prefixed fields

A field written as Go's `%d:%s`: the text's length in UTF-8 bytes, in
decimal, a colon, then the text. The list facts the field is read back by
are here: a separator the first part does not hold cuts two lists alike
(`eq_of_append_cons_eq`), decimal digits hold no colon
(`not_mem_toString`), and a first part's length in bytes says where it ends,
since every character takes at least one byte
(`eq_of_append_eq_of_utf8Len`). `GcsFuse.Common.ReadBack` reads the field
back from these.
-/

namespace LengthPrefix

variable {α : Type*}

/-- Two lists cut at their first separator are cut alike. -/
theorem eq_of_append_cons_eq {sep : α} {l₁ l₂ r₁ r₂ : List α} (h₁ : sep ∉ l₁) (h₂ : sep ∉ l₂)
    (h : l₁ ++ sep :: r₁ = l₂ ++ sep :: r₂) : l₁ = l₂ ∧ r₁ = r₂ := by
  induction l₁ generalizing l₂ with
  | nil =>
    cases l₂ with
    | nil => exact ⟨rfl, (List.cons.inj h).2⟩
    | cons b l₂ =>
      -- the separator would be the first element of `l₂`
      obtain ⟨rfl, -⟩ := List.cons.inj h
      exact absurd List.mem_cons_self h₂
  | cons a l₁ ih =>
    cases l₂ with
    | nil =>
      obtain ⟨rfl, -⟩ := List.cons.inj h
      exact absurd List.mem_cons_self h₁
    | cons b l₂ =>
      rw [List.cons_append, List.cons_append] at h
      obtain ⟨rfl, htail⟩ := List.cons.inj h
      obtain ⟨rfl, rfl⟩ :=
        ih (fun hm => h₁ (List.mem_cons_of_mem a hm)) (fun hm => h₂ (List.mem_cons_of_mem a hm)) htail
      exact ⟨rfl, rfl⟩

/-- Two splits of one string whose first parts take as many UTF-8 bytes
are one split. -/
theorem eq_of_append_eq_of_utf8Len {l₁ l₂ r₁ r₂ : List Char} (h : l₁ ++ r₁ = l₂ ++ r₂)
    (hs : String.utf8Len l₁ = String.utf8Len l₂) : l₁ = l₂ ∧ r₁ = r₂ := by
  rcases List.append_eq_append_iff.mp h with ⟨as, rfl, rfl⟩ | ⟨bs, rfl, rfl⟩
  · -- `l₂` runs past `l₁` by `as`, which takes no bytes
    rw [String.utf8Len_append] at hs
    obtain rfl : as = [] := String.utf8Len_eq_zero.mp (by omega)
    simp
  · rw [String.utf8Len_append] at hs
    obtain rfl : bs = [] := String.utf8Len_eq_zero.mp (by omega)
    simp

/-- Decimal digits hold no other character. -/
theorem not_mem_toString {c : Char} (hc : c.isDigit = false) (n : ℕ) : c ∉ (toString n).toList := by
  intro h
  rw [Nat.toString_eq_repr, Nat.repr, String.toList_ofList] at h
  rw [Nat.isDigit_of_mem_toDigits (by decide) (by decide) h] at hc
  cases hc

/-- Go's `%d:%s` of a text: its length in bytes, a colon, the text. -/
def lengthPrefixed (s : String) : String := toString s.utf8ByteSize ++ ":" ++ s

end LengthPrefix
