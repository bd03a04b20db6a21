import GcsFuse.Lru.Shape
import GcsFuse.Common.Run
/-!
# lru.Cache — the documented invariant, and where `uint64` breaks it

`Wf` adds to `Shape` what `lru.go` states of `currentSize`: the exact sum
of the entries' sizes, at most `maxSize`. Erasing, looking up and
updating keep it for any `maxSize`. `Insert` adds `valueSize` to a
`currentSize` that may already be near `maxSize`, so the sum stays below
`2^64` only while `maxSize < 2^63`; under that bound every call keeps
`Wf` (`step_wf`), and any sequence of calls from `NewCache` ends in a
cache the code's own `checkInvariants` accepts (`run_wf`).

Past `2^63` the addition wraps. `fs.go` builds the file-info cache with
`maxSize = MaxUint64` for an unlimited cache, and two entries of `2^63`
bytes then leave `currentSize = 0` (`insert_wraps_currentSize`).
-/

namespace GcsFuse

namespace Lru

open ElementList Run

variable {V : Type} {sz : V → UInt64} {c c' : Cache V}

/-- Dropping an element keeps an exact `currentSize` exact: it holds at
least the dropped element's size. -/
theorem Shape.dropElement_exact (h : Shape sz c) {i : ℕ} {x : Entry V} (hx : (i, x) ∈ c.entries)
    (he : c.currentSize.toNat = total (weight sz) c.entries) :
    (c.currentSize - sz x.value).toNat = total (weight sz) (remove c.entries i) := by
  have htot := total_remove h.nodup (weight sz) hx
  have hs := UInt64.toNat_lt (sz x.value)
  have hc := UInt64.toNat_lt c.currentSize
  simp only [UInt64.toNat_sub, weight] at htot he ⊢
  omega

theorem Wf.dropElement (h : Wf sz c) {i : ℕ} {x : Entry V} (hx : (i, x) ∈ c.entries) :
    Wf sz { c with
      currentSize := c.currentSize - sz x.value
      entries := remove c.entries i
      index := c.index.erase x.key } := by
  have hex := h.toShape.dropElement_exact hx h.size_eq
  refine { h.toShape.dropElement hx with size_eq := hex, size_le := ?_ }
  have htot := total_remove h.nodup (weight sz) hx
  have hle := UInt64.le_iff_toNat_le.1 h.size_le
  have heq := h.size_eq
  show c.currentSize - sz x.value ≤ c.maxSize
  rw [UInt64.le_iff_toNat_le, hex]
  simp only [weight] at htot heq
  omega

theorem evictOne_exact (h : Shape sz c) (he : c.currentSize.toNat = total (weight sz) c.entries)
    {v : V} (hev : evictOne sz c = some (c', v)) :
    c'.currentSize.toNat = total (weight sz) c'.entries := by
  unfold evictOne at hev
  split at hev
  · cases hev
  · rename_i i x hb
    obtain ⟨rfl, -⟩ := Prod.mk.inj (Option.some.inj hev)
    exact h.dropElement_exact (back_mem hb) he

/-- Below `2^63`, placing an entry of at most `maxSize` cannot wrap. -/
theorem place_exact (h : Wf sz c) (hmax : c.maxSize.toNat < 2 ^ 63) (key : String) {v : V}
    (hv : sz v ≤ c.maxSize) :
    (place sz c key v).currentSize.toNat = total (weight sz) (place sz c key v).entries := by
  have hle := UInt64.le_iff_toNat_le.1 h.size_le
  have hvle := UInt64.le_iff_toNat_le.1 hv
  have heq := h.size_eq
  unfold place
  cases he : c.element key with
  | some e =>
    obtain ⟨i, x⟩ := e
    obtain ⟨hx, -⟩ := h.element_eq_some.1 he
    have hsv : (ids (setValue c.entries i ⟨key, v⟩)).Nodup := by rw [ids_setValue]; exact h.nodup
    have htot := total_setValue h.nodup (weight sz) (y := ⟨key, v⟩) hx
    have hmove := total_moveToFront hsv (weight sz) i
    have hrem := total_remove h.nodup (weight sz) hx
    simp only [UInt64.toNat_add, UInt64.toNat_sub, weight] at htot hmove hrem heq ⊢
    omega
  | none =>
    simp only [pushFront, total_cons, UInt64.toNat_add, weight] at heq ⊢
    omega

/-- **Below `2^63`, `Insert` keeps the documented invariant.** -/
theorem insert_wf (h : Wf sz c) (hmax : c.maxSize.toNat < 2 ^ 63) {key : String}
    {value : Option V} {r : Option (Cache V × List V)} (hi : insert sz c key value = .ok r) :
    ∃ c' ev, r = some (c', ev) ∧ Wf sz c' ∧ c'.maxSize = c.maxSize := by
  unfold insert at hi
  cases value with
  | none => cases hi
  | some v =>
    simp only at hi
    split at hi
    · cases hi
    · rename_i hv
      obtain ⟨hp, hpmax⟩ := place_shape h.toShape key v
      have hex := place_exact h hmax key (UInt64.not_lt.1 hv)
      obtain ⟨c', ev, hrun, hs', hex', hle, hmax'⟩ :=
        evictLoop_spec (P := fun c => c.currentSize.toNat = total (weight sz) c.entries)
          (fun _ _ _ hs he hev => evictOne_exact hs he hev) _ _ [] hp hex (Nat.lt_succ_self _)
      refine ⟨c', ev, ?_, { hs' with size_eq := hex', size_le := hle }, hmax'.trans hpmax⟩
      rw [← Except.ok.inj hi, hrun, List.nil_append]

theorem eraseInternal_wf (h : Wf sz c) (key : String) : Wf sz (eraseInternal sz c key).1 := by
  unfold eraseInternal
  cases he : c.element key with
  | none => exact h
  | some e =>
    obtain ⟨i, x⟩ := e
    obtain ⟨hx, rfl⟩ := h.element_eq_some.1 he
    exact h.dropElement hx

theorem eraseKeys_wf : ∀ (keys : List String) (c : Cache V), Wf sz c → Wf sz (eraseKeys sz c keys)
  | [], _, h => h
  | key :: keys, _, h => eraseKeys_wf keys _ (eraseInternal_wf h key)

theorem lookUp_wf (h : Wf sz c) (key : String) : Wf sz (lookUp c key).1 := by
  refine { lookUp_shape h.toShape key with size_eq := ?_, size_le := ?_ }
  all_goals
    unfold lookUp
    cases he : c.element key with
    | none => first | exact h.size_eq | exact h.size_le
    | some e => first | exact (total_moveToFront h.nodup _ _).symm ▸ h.size_eq | exact h.size_le

theorem updateWithoutChangingOrder_wf (h : Wf sz c) {key : String} {value : Option V}
    (hu : updateWithoutChangingOrder sz c key value = .ok c') : Wf sz c' := by
  have hs := updateWithoutChangingOrder_shape h.toShape hu
  unfold updateWithoutChangingOrder at hu
  cases value with
  | none => cases hu
  | some v =>
    simp only at hu
    cases he : c.element key with
    | none => rw [he] at hu; cases hu
    | some e =>
      obtain ⟨i, x⟩ := e
      rw [he] at hu
      simp only at hu
      split at hu
      · cases hu
      · rename_i hsize
        obtain rfl := Except.ok.inj hu
        obtain ⟨hx, -⟩ := h.element_eq_some.1 he
        have htot := total_setValue h.nodup (weight sz) (y := ⟨key, v⟩) hx
        have hsz : (sz v).toNat = (sz x.value).toNat := by rw [not_not.1 hsize]
        refine { hs with size_eq := ?_, size_le := h.size_le }
        have heq := h.size_eq
        simp only [weight] at htot heq ⊢
        omega

theorem eraseEntriesWithGivenPrefix_wf (h : Wf sz c) (pre : String) :
    Wf sz (eraseEntriesWithGivenPrefix sz c pre) := by
  unfold eraseEntriesWithGivenPrefix
  dsimp only
  split
  · exact h
  · exact eraseKeys_wf _ _ h

/-! ## Sequences of calls -/

/-- **No call panics**, whatever the sizes, and each keeps the shape. -/
theorem step_shape (h : Shape sz c) (op : Op V) : ∃ c', step sz c op = some c' ∧ Shape sz c' := by
  cases op with
  | insert key value =>
    simp only [step]
    cases hi : insert sz c key value with
    | error e => exact ⟨c, rfl, h⟩
    | ok r =>
      obtain ⟨c', ev, rfl, hs', -⟩ := insert_shape h hi
      exact ⟨c', rfl, hs'⟩
  | erase key => exact ⟨_, rfl, eraseInternal_shape h key⟩
  | lookUp key => exact ⟨_, rfl, lookUp_shape h key⟩
  | lookUpWithoutChangingOrder key => exact ⟨c, rfl, h⟩
  | updateWithoutChangingOrder key value =>
    simp only [step]
    cases hu : updateWithoutChangingOrder sz c key value with
    | error e => exact ⟨c, rfl, h⟩
    | ok c' => exact ⟨c', rfl, updateWithoutChangingOrder_shape h hu⟩
  | eraseEntriesWithGivenPrefix pre => exact ⟨_, rfl, eraseEntriesWithGivenPrefix_shape h pre⟩

/-- Every cache a sequence of calls reaches from `NewCache` has the shape. -/
theorem Shape.of_reachable {maxSize : UInt64} (hm : 0 < maxSize)
    (hc : Reachable (step sz) (newCache maxSize) c) : Shape sz c := by
  refine hc.invariant (shape_newCache hm) fun c op c' hs hstep => ?_
  obtain ⟨c'', hstep', hs''⟩ := step_shape hs op
  rw [hstep] at hstep'
  exact Option.some.inj hstep' ▸ hs''

/-- **Below `2^63` every call keeps the documented invariant.** -/
theorem step_wf (h : Wf sz c) (hmax : c.maxSize.toNat < 2 ^ 63) (op : Op V) :
    ∃ c', step sz c op = some c' ∧ Wf sz c' ∧ c'.maxSize = c.maxSize := by
  cases op with
  | insert key value =>
    simp only [step]
    cases hi : insert sz c key value with
    | error e => exact ⟨c, rfl, h, rfl⟩
    | ok r =>
      obtain ⟨c', ev, rfl, hs', hmax'⟩ := insert_wf h hmax hi
      exact ⟨c', rfl, hs', hmax'⟩
  | erase key => exact ⟨_, rfl, eraseInternal_wf h key, eraseInternal_maxSize sz c key⟩
  | lookUp key => exact ⟨_, rfl, lookUp_wf h key, lookUp_maxSize c key⟩
  | lookUpWithoutChangingOrder key => exact ⟨c, rfl, h, rfl⟩
  | updateWithoutChangingOrder key value =>
    simp only [step]
    cases hu : updateWithoutChangingOrder sz c key value with
    | error e => exact ⟨c, rfl, h, rfl⟩
    | ok c' => exact ⟨c', rfl, updateWithoutChangingOrder_wf h hu, updateWithoutChangingOrder_maxSize sz hu⟩
  | eraseEntriesWithGivenPrefix pre =>
    exact ⟨_, rfl, eraseEntriesWithGivenPrefix_wf h pre, eraseEntriesWithGivenPrefix_maxSize sz c pre⟩

/-- **Below `2^63`, every sequence of calls from `NewCache` keeps the
documented invariant**, and the code's own `checkInvariants` passes. -/
theorem run_wf {maxSize : UInt64} (hm : 0 < maxSize) (hm' : maxSize.toNat < 2 ^ 63)
    (ops : List (Op V)) :
    ∃ c, run (step sz) (newCache maxSize) ops = some c ∧ Wf sz c ∧ c.checkInvariants = true := by
  have hstep : ∀ (c : Cache V) (op : Op V), Wf sz c ∧ c.maxSize = maxSize →
      ∃ c', step sz c op = some c' ∧ Wf sz c' ∧ c'.maxSize = maxSize := by
    rintro c op ⟨hc, rfl⟩
    exact step_wf hc hm' op
  obtain ⟨c, hrun, hwf, -⟩ := run_exists hstep ops _ ⟨wf_newCache hm, rfl⟩
  exact ⟨c, hrun, hwf, hwf.toShape.checkInvariants hwf.size_le⟩

/-- **Past `2^63` the sum wraps.** The unlimited file-info cache of
`fs.go` (`maxSize = MaxUint64`) takes two entries of `2^63` bytes: no
eviction happens, both are held, and `currentSize` is `0` while their
sizes add up to `2^64`. -/
theorem insert_wraps_currentSize :
    ∃ c₁ c₂ : Cache UInt64,
      insert id (newCache 18446744073709551615) "a" (some 9223372036854775808) =
        .ok (some (c₁, [])) ∧
      insert id c₁ "b" (some 9223372036854775808) = .ok (some (c₂, [])) ∧
      c₂.currentSize = 0 ∧ total (weight id) c₂.entries = 2 ^ 64 :=
  ⟨_, _, rfl, rfl, rfl, rfl⟩

end Lru

end GcsFuse
