import GcsFuse.Lru.Cache
/-!
# lru.Cache — the shape every call keeps

`lru.go` documents its invariants on the fields of `Cache`: `maxSize > 0`,
the list and the index hold the same elements, each index key maps to the
element of that key, `currentSize` is the sum of the entries' `Size()`,
and `currentSize ≤ maxSize`.

`Shape` is that invariant with the sum read modulo `2^64`, as `uint64`
arithmetic computes it, and without the bound. It holds after every call,
whatever `maxSize` is, and it is what makes the eviction loop safe: on an
empty list the sum is `0`, so `currentSize` is `0` and the loop stops
before `evictOne` can see an empty list (`insert_shape`).

`Wf` is the documented invariant itself, which `Lru.Wf` takes up.
-/

namespace GcsFuse

namespace Lru

open ElementList

variable {V : Type} (sz : V → UInt64)

/-- An entry's `Size()`, as a number. -/
def weight (x : Entry V) : ℕ := (sz x.value).toNat

/-- The invariant of `Cache`, with the sum of the sizes modulo `2^64`. -/
structure Shape (c : Cache V) : Prop where
  maxSize_pos : 0 < c.maxSize
  nodup : (ids c.entries).Nodup
  lookup_iff : ∀ key i, c.index.lookup key = some i ↔ ∃ v, (i, (⟨key, v⟩ : Entry V)) ∈ c.entries
  fresh : ∀ i ∈ ids c.entries, i < c.nextId
  size_mod : c.currentSize.toNat = total (weight sz) c.entries % 2 ^ 64

/-- **The invariant `lru.go` documents.** -/
structure Wf (c : Cache V) : Prop extends Shape sz c where
  size_eq : c.currentSize.toNat = total (weight sz) c.entries
  size_le : c.currentSize ≤ c.maxSize

variable {sz}

theorem shape_newCache {maxSize : UInt64} (h : 0 < maxSize) : Shape sz (newCache maxSize : Cache V) where
  maxSize_pos := h
  nodup := List.nodup_nil
  lookup_iff key i := by simp [newCache, AList.lookup_empty]
  fresh i hi := by simp [newCache] at hi
  size_mod := rfl

theorem wf_newCache {maxSize : UInt64} (h : 0 < maxSize) : Wf sz (newCache maxSize : Cache V) :=
  { shape_newCache h with size_eq := rfl, size_le := UInt64.zero_le }

namespace Shape

variable {c : Cache V}

/-- Keys are unique: two elements with one key are one element. -/
theorem key_inj (h : Shape sz c) {i j : ℕ} {x y : Entry V} (hx : (i, x) ∈ c.entries)
    (hy : (j, y) ∈ c.entries) (hk : x.key = y.key) : i = j := by
  have h1 : c.index.lookup x.key = some i := (h.lookup_iff _ _).2 ⟨x.value, hx⟩
  have h2 : c.index.lookup x.key = some j := (h.lookup_iff _ _).2 ⟨y.value, by rw [hk]; exact hy⟩
  rw [h1] at h2
  exact Option.some.inj h2

theorem element_eq_some (h : Shape sz c) {key : String} {i : ℕ} {x : Entry V} :
    c.element key = some (i, x) ↔ (i, x) ∈ c.entries ∧ x.key = key := by
  constructor
  · intro he
    unfold Cache.element at he
    split at he
    · cases he
    · rename_i j hj
      obtain ⟨y, hy, hyx⟩ := Option.map_eq_some_iff.1 he
      obtain ⟨rfl, rfl⟩ := Prod.mk.inj hyx
      have hmem := (get?_eq_some h.nodup).1 hy
      obtain ⟨v, hv⟩ := (h.lookup_iff key j).1 hj
      exact ⟨hmem, by rw [eq_of_mem_of_mem h.nodup hmem hv]⟩
  · rintro ⟨hmem, rfl⟩
    have hj : c.index.lookup x.key = some i := (h.lookup_iff _ _).2 ⟨x.value, hmem⟩
    simp only [Cache.element, hj, (get?_eq_some h.nodup).2 hmem, Option.map_some]

theorem element_eq_none (h : Shape sz c) {key : String} :
    c.element key = none ↔ ∀ i x, (i, x) ∈ c.entries → x.key ≠ key := by
  constructor
  · intro he i x hx hk
    have hsome := h.element_eq_some.2 ⟨hx, hk⟩
    rw [he] at hsome
    cases hsome
  · intro hall
    cases hc : c.element key with
    | none => rfl
    | some e =>
      obtain ⟨hx, hk⟩ := h.element_eq_some.1 hc
      exact absurd hk (hall _ _ hx)

/-- An empty cache has size `0`: the sum is `0`, even modulo `2^64`. -/
theorem currentSize_eq_zero (h : Shape sz c) (hnil : c.entries = []) : c.currentSize = 0 := by
  have h0 : c.currentSize.toNat = 0 := by rw [h.size_mod, hnil, total_nil, Nat.zero_mod]
  exact UInt64.toNat_inj.1 h0

/-- **Dropping an element and its key keeps the shape**: the step `evictOne`
and `eraseInternal` share. -/
theorem dropElement (h : Shape sz c) {i : ℕ} {x : Entry V} (hx : (i, x) ∈ c.entries) :
    Shape sz { c with
      currentSize := c.currentSize - sz x.value
      entries := remove c.entries i
      index := c.index.erase x.key } where
  maxSize_pos := h.maxSize_pos
  nodup := nodup_remove h.nodup i
  lookup_iff key j := by
    simp only [mem_remove]
    by_cases hk : key = x.key
    · subst hk
      simp only [AList.lookup_erase, reduceCtorEq, false_iff, not_exists, not_and]
      intro v hv hne
      exact hne (h.key_inj hv hx rfl)
    · rw [AList.lookup_erase_ne hk, h.lookup_iff]
      constructor
      · rintro ⟨v, hv⟩
        refine ⟨v, hv, fun hji => hk ?_⟩
        subst hji
        exact congrArg Entry.key (eq_of_mem_of_mem h.nodup hv hx)
      · rintro ⟨v, hv, -⟩
        exact ⟨v, hv⟩
  fresh j hj := h.fresh j ((ids_remove_sublist _ _).subset hj)
  size_mod := by
    have htot := total_remove h.nodup (weight sz) hx
    have hs := UInt64.toNat_lt (sz x.value)
    have hc := h.size_mod
    simp only [UInt64.toNat_sub, weight] at htot hc ⊢
    omega

/-- Distinct elements carry distinct keys. -/
theorem nodup_keys (h : Shape sz c) : (c.entries.map fun e => e.2.key).Nodup := by
  refine List.Nodup.map_on (fun e he e' he' hk => ?_) (List.Nodup.of_map Prod.fst h.nodup)
  obtain ⟨i, x⟩ := e
  obtain ⟨j, y⟩ := e'
  obtain rfl := h.key_inj he he' hk
  rw [eq_of_mem_of_mem h.nodup he he']

/-- **`checkInvariants` passes** on a cache of this shape within its bound:
the list and the index have one element per key. -/
theorem checkInvariants (h : Shape sz c) (hle : c.currentSize ≤ c.maxSize) :
    c.checkInvariants = true := by
  have hkeys : (c.entries.map fun e => e.2.key).Perm c.index.keys := by
    refine (List.perm_ext_iff_of_nodup h.nodup_keys (AList.keys_nodup _)).2 fun k => ?_
    simp only [List.mem_map, ← AList.mem_keys, ← AList.lookup_isSome, Option.isSome_iff_exists,
      h.lookup_iff]
    constructor
    · rintro ⟨⟨i, x⟩, hx, rfl⟩
      exact ⟨i, x.value, hx⟩
    · rintro ⟨i, v, hv⟩
      exact ⟨(i, ⟨k, v⟩), hv, rfl⟩
  simp only [Cache.checkInvariants, Bool.and_eq_true, decide_eq_true_eq, beq_iff_eq,
    List.all_eq_true]
  refine ⟨⟨⟨h.maxSize_pos, hle⟩, ?_⟩, fun e he => ?_⟩
  · rw [← hkeys.length_eq, List.length_map]
  · exact (h.lookup_iff _ _).2 ⟨e.2.value, he⟩

end Shape

/-! ## Each call keeps the shape -/

variable {c c' : Cache V}

theorem evictOne_shape (h : Shape sz c) {v : V} (he : evictOne sz c = some (c', v)) :
    Shape sz c' ∧ c'.entries.length + 1 = c.entries.length ∧ c'.maxSize = c.maxSize := by
  unfold evictOne at he
  split at he
  · cases he
  · rename_i i x hb
    obtain ⟨rfl, -⟩ := Prod.mk.inj (Option.some.inj he)
    have hx := back_mem hb
    exact ⟨h.dropElement hx, length_remove h.nodup hx, rfl⟩

theorem evictOne_isSome (sz : V → UInt64) (hne : c.entries ≠ []) : ∃ r, evictOne sz c = some r := by
  unfold evictOne
  cases hb : back c.entries with
  | none => exact absurd (back_eq_none.1 hb) hne
  | some e => exact ⟨_, rfl⟩

/-- **The eviction loop never reaches an empty list**, and stops at or below
`maxSize`, keeping whatever the evictions keep. Induction on the rounds
left, one element fewer each round. -/
theorem evictLoop_spec {P : Cache V → Prop}
    (hP : ∀ c c' v, Shape sz c → P c → evictOne sz c = some (c', v) → P c') :
    ∀ (n : ℕ) (c : Cache V) (acc : List V), Shape sz c → P c → c.entries.length < n →
      ∃ c' ev, evictLoop sz n c acc = some (c', acc ++ ev) ∧ Shape sz c' ∧ P c' ∧
        c'.currentSize ≤ c'.maxSize ∧ c'.maxSize = c.maxSize
  | 0, _, _, _, _, hn => absurd hn (Nat.not_lt_zero _)
  | n + 1, c, acc, hs, hp, hn => by
    by_cases hover : c.maxSize < c.currentSize
    · -- over the bound, so not empty: an empty cache has size `0`
      have hne : c.entries ≠ [] := by
        intro hnil
        rw [hs.currentSize_eq_zero hnil] at hover
        exact UInt64.not_lt_zero hover
      obtain ⟨⟨c₁, v⟩, he⟩ := evictOne_isSome sz hne
      obtain ⟨hs₁, hlen, hmax⟩ := evictOne_shape hs he
      obtain ⟨c', ev, hrun, hs', hp', hle, hmax'⟩ :=
        evictLoop_spec hP n c₁ (acc ++ [v]) hs₁ (hP _ _ _ hs hp he) (by omega)
      refine ⟨c', v :: ev, ?_, hs', hp', hle, hmax'.trans hmax⟩
      rw [evictLoop, if_pos hover, he]
      simpa using hrun
    · refine ⟨c, [], ?_, hs, hp, UInt64.not_lt.1 hover, rfl⟩
      rw [evictLoop, if_neg hover, List.append_nil]

theorem place_shape (h : Shape sz c) (key : String) (v : V) :
    Shape sz (place sz c key v) ∧ (place sz c key v).maxSize = c.maxSize := by
  unfold place
  cases he : c.element key with
  | some e =>
    obtain ⟨i, x⟩ := e
    obtain ⟨hx, hk⟩ := h.element_eq_some.1 he
    have hsv : (ids (setValue c.entries i ⟨key, v⟩)).Nodup := by rw [ids_setValue]; exact h.nodup
    have hperm := moveToFront_perm hsv i
    refine ⟨⟨h.maxSize_pos, ?_, fun key' j => ?_, fun j hj => ?_, ?_⟩, rfl⟩
    · exact (hperm.map Prod.fst).nodup_iff.2 hsv
    · simp only [hperm.mem_iff, mem_setValue, h.lookup_iff, Prod.mk.injEq, Entry.mk.injEq]
      constructor
      · rintro ⟨w, hw⟩
        by_cases hji : j = i
        · subst hji
          have hxw := eq_of_mem_of_mem h.nodup hx hw
          exact ⟨v, .inr ⟨⟨rfl, by rw [← hk, hxw], rfl⟩, mem_ids.2 ⟨x, hx⟩⟩⟩
        · exact ⟨w, .inl ⟨hw, hji⟩⟩
      · rintro ⟨w, ⟨hw, -⟩ | ⟨⟨rfl, rfl, -⟩, -⟩⟩
        · exact ⟨w, hw⟩
        · exact ⟨x.value, by rw [← hk]; exact hx⟩
    · have hj' : j ∈ ids (setValue c.entries i ⟨key, v⟩) := ((hperm.map Prod.fst).mem_iff).1 hj
      rw [ids_setValue] at hj'
      exact h.fresh j hj'
    · have htot := total_setValue h.nodup (weight sz) (y := ⟨key, v⟩) hx
      have hmove := total_moveToFront hsv (weight sz) i
      have hs := UInt64.toNat_lt (sz x.value)
      have hc := h.size_mod
      simp only [UInt64.toNat_add, UInt64.toNat_sub, weight] at htot hmove hc ⊢
      omega
  | none =>
    have hnone := h.element_eq_none.1 he
    have hfresh : c.nextId ∉ ids c.entries := fun hmem => lt_irrefl _ (h.fresh _ hmem)
    refine ⟨⟨h.maxSize_pos, nodup_pushFront h.nodup hfresh _, fun key' j => ?_, fun j hj => ?_, ?_⟩,
      rfl⟩
    · simp only [mem_pushFront, Prod.mk.injEq, Entry.mk.injEq]
      by_cases hk : key' = key
      · subst hk
        rw [AList.lookup_insert]
        constructor
        · rintro ⟨rfl⟩
          exact ⟨v, .inl ⟨rfl, rfl, rfl⟩⟩
        · rintro ⟨w, ⟨rfl, -, -⟩ | hw⟩
          · rfl
          · exact absurd rfl (hnone _ _ hw)
      · rw [AList.lookup_insert_ne hk, h.lookup_iff]
        constructor
        · rintro ⟨w, hw⟩
          exact ⟨w, .inr hw⟩
        · rintro ⟨w, ⟨-, rfl, -⟩ | hw⟩
          · exact absurd rfl hk
          · exact ⟨w, hw⟩
    · simp only [pushFront, ids_cons, List.mem_cons] at hj
      rcases hj with rfl | hj
      · exact Nat.lt_succ_self _
      · exact Nat.lt_succ_of_lt (h.fresh j hj)
    · have hc := h.size_mod
      simp only [pushFront, total_cons, UInt64.toNat_add, weight] at hc ⊢
      omega

/-- **`Insert` never calls `evictOne` on an empty list**, and leaves a cache
of the same shape, at or below `maxSize`. -/
theorem insert_shape (h : Shape sz c) {key : String} {value : Option V}
    {r : Option (Cache V × List V)} (hi : insert sz c key value = .ok r) :
    ∃ c' ev, r = some (c', ev) ∧ Shape sz c' ∧ c'.currentSize ≤ c'.maxSize := by
  unfold insert at hi
  cases value with
  | none => cases hi
  | some v =>
    simp only at hi
    split at hi
    · cases hi
    · obtain ⟨hp, -⟩ := place_shape h key v
      obtain ⟨c', ev, hrun, hs', -, hle, -⟩ :=
        evictLoop_spec (P := fun _ => True) (fun _ _ _ _ _ _ => trivial) _ _ [] hp trivial
          (Nat.lt_succ_self _)
      refine ⟨c', ev, ?_, hs', hle⟩
      rw [← Except.ok.inj hi, hrun, List.nil_append]

theorem eraseInternal_shape (h : Shape sz c) (key : String) :
    Shape sz (eraseInternal sz c key).1 := by
  unfold eraseInternal
  cases he : c.element key with
  | none => exact h
  | some e =>
    obtain ⟨i, x⟩ := e
    obtain ⟨hx, rfl⟩ := h.element_eq_some.1 he
    exact h.dropElement hx

theorem eraseKeys_shape : ∀ (keys : List String) (c : Cache V), Shape sz c →
    Shape sz (eraseKeys sz c keys)
  | [], _, h => h
  | key :: keys, _, h => eraseKeys_shape keys _ (eraseInternal_shape h key)

theorem lookUp_shape (h : Shape sz c) (key : String) : Shape sz (lookUp c key).1 := by
  unfold lookUp
  cases he : c.element key with
  | none => exact h
  | some e =>
    obtain ⟨i, x⟩ := e
    have hperm := moveToFront_perm h.nodup i
    refine ⟨h.maxSize_pos, (hperm.map Prod.fst).nodup_iff.2 h.nodup, fun key' j => ?_,
      fun j hj => h.fresh j ((hperm.map Prod.fst).mem_iff.1 hj), ?_⟩
    · simp only [hperm.mem_iff]
      exact h.lookup_iff key' j
    · simp only
      rw [total_moveToFront h.nodup]
      exact h.size_mod

theorem updateWithoutChangingOrder_shape (h : Shape sz c) {key : String} {value : Option V}
    (hu : updateWithoutChangingOrder sz c key value = .ok c') : Shape sz c' := by
  unfold updateWithoutChangingOrder at hu
  cases value with
  | none => cases hu
  | some v =>
    simp only at hu
    cases he : c.element key with
    | none => rw [he] at hu; cases hu
    | some e =>
      obtain ⟨i, x⟩ := e
      rw [he] at hu
      simp only at hu
      split at hu
      · cases hu
      · rename_i hsize
        obtain rfl := Except.ok.inj hu
        obtain ⟨hx, hk⟩ := h.element_eq_some.1 he
        have hidx : c.index.lookup key = some i := (h.lookup_iff _ _).2 ⟨x.value, hk ▸ hx⟩
        refine ⟨h.maxSize_pos, by rw [ids_setValue]; exact h.nodup, fun key' j => ?_,
          fun j hj => h.fresh j (by rwa [ids_setValue] at hj), ?_⟩
        · simp only [mem_setValue, Prod.mk.injEq, Entry.mk.injEq]
          by_cases hk' : key' = key
          · subst hk'
            rw [AList.lookup_insert]
            constructor
            · rintro ⟨rfl⟩
              exact ⟨v, .inr ⟨⟨rfl, rfl, rfl⟩, mem_ids.2 ⟨x, hx⟩⟩⟩
            · rintro ⟨w, ⟨hw, hne⟩ | ⟨⟨rfl, -, -⟩, -⟩⟩
              · exact absurd (h.key_inj hw hx hk.symm) hne
              · rfl
          · rw [AList.lookup_insert_ne hk', h.lookup_iff]
            constructor
            · rintro ⟨w, hw⟩
              refine ⟨w, .inl ⟨hw, fun hji => hk' ?_⟩⟩
              subst hji
              rw [← hk]
              exact congrArg Entry.key (eq_of_mem_of_mem h.nodup hw hx)
            · rintro ⟨w, ⟨hw, -⟩ | ⟨⟨-, rfl, -⟩, -⟩⟩
              · exact ⟨w, hw⟩
              · exact absurd rfl hk'
        · have htot := total_setValue h.nodup (weight sz) (y := ⟨key, v⟩) hx
          have hsz : (sz v).toNat = (sz x.value).toNat := by
            rw [not_not] at hsize
            rw [hsize]
          have hc := h.size_mod
          simp only [weight] at htot hc ⊢
          omega

theorem eraseEntriesWithGivenPrefix_shape (h : Shape sz c) (pre : String) :
    Shape sz (eraseEntriesWithGivenPrefix sz c pre) := by
  unfold eraseEntriesWithGivenPrefix
  dsimp only
  split
  · exact h
  · exact eraseKeys_shape _ _ h

end Lru

end GcsFuse
