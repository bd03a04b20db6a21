import Mathlib
import GcsFuse.Common.LengthPrefix
/-!
# Reading length-prefixed fields back

A number written in decimal is read back from the front of any string
that a character which is no digit goes on with
(`eq_of_toString_append_eq`): the digits end at that character, and the
standard library's `Nat.repr_inj` gives the number from its digits. A
length-prefixed field is then read back from the front of any longer
string (`lengthPrefixed_append_inj`), so a string made of such fields is
written by one tuple of texts only, whatever characters the texts hold.
-/

namespace LengthPrefix

/-- **A number in decimal is read back from the front of any string**
when a character that is no digit ends it. -/
theorem eq_of_toString_append_eq {c : Char} (hc : c.isDigit = false) {n n' : ℕ} {r r' : List Char}
    (h : (toString n).toList ++ c :: r = (toString n').toList ++ c :: r') : n = n' ∧ r = r' := by
  obtain ⟨hdigits, hrest⟩ := eq_of_append_cons_eq (not_mem_toString hc n) (not_mem_toString hc n') h
  refine ⟨?_, hrest⟩
  rw [← Nat.repr_inj, ← Nat.toString_eq_repr, ← Nat.toString_eq_repr]
  exact String.ext hdigits

/-- **A length-prefixed field is read back from the front of any string.** -/
theorem lengthPrefixed_append_inj {s s' x x' : String} (h : lengthPrefixed s ++ x = lengthPrefixed s' ++ x') :
    s = s' ∧ x = x' := by
  have hcolon : ":".toList = [':'] := rfl
  have hl := congrArg String.toList h
  simp only [lengthPrefixed, String.toList_append, hcolon, List.append_assoc, List.singleton_append] at hl
  -- the length ends at the first colon
  obtain ⟨hbytes, hrest⟩ := eq_of_toString_append_eq (by decide) hl
  have hlen : String.utf8Len s.toList = String.utf8Len s'.toList := by
    rw [← String.utf8ByteSize_ofList, ← String.utf8ByteSize_ofList, String.ofList_toList, String.ofList_toList]
    exact hbytes
  -- the text ends where its length says
  obtain ⟨htext, htail⟩ := eq_of_append_eq_of_utf8Len hrest hlen
  exact ⟨String.ext htext, String.ext htail⟩

end LengthPrefix
