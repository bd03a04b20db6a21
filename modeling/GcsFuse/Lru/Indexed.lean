import GcsFuse.Lru.Insert
/-!
# lru.Cache — its index, whatever the sizes

`Shape` reads the values' `Size()` through one `sz`. A cache whose values
change size while they sit in it, as `MrdInstance` values do, keeps no
`Shape` for any one `sz`: `currentSize` drifts from the sum. What it does
keep is its index. `Indexed` is `Shape` with every size `0` and the size
`0`: the list and the index hold the same elements, with distinct
identities, and nothing is said of sizes.

Every call keeps it whatever sizes it reads, and it is what fixes the
entries a call leaves: `Erase` drops the entry of its key and keeps the
others (`eraseInternal_entries`), and `Insert` puts its entry first and
keeps some of the others (`Indexed.insert`).
-/

namespace GcsFuse

namespace Lru

open ElementList

variable {V : Type} {sz : V → UInt64}

/-- The cache with its size forgotten. -/
def Cache.unsized (c : Cache V) : Cache V := { c with currentSize := 0 }

/-- **The index, apart from sizes**: `Shape` with every size `0`. -/
def Indexed (c : Cache V) : Prop := Shape (fun _ : V => 0) c.unsized

variable {c c' : Cache V}

theorem indexed_newCache {maxSize : UInt64} (h : 0 < maxSize) : Indexed (newCache maxSize : Cache V) :=
  shape_newCache h

/-! ## The calls, on the cache with its size forgotten

Forgetting the size commutes with each call that writes the cache, read
at size `0`: a call changes the size by what it reads, and reads `0`. -/

theorem eraseInternal_unsized (c : Cache V) (key : String) :
    (eraseInternal sz c key).1.unsized = (eraseInternal (fun _ => 0) c.unsized key).1 := by
  have he : c.unsized.element key = c.element key := rfl
  unfold eraseInternal
  rw [he]
  cases c.element key with
  | none => rfl
  | some e =>
    -- the size read back is `0 - 0` (and `+ 0`), which is `0`
    obtain ⟨i, x⟩ := e
    simp [Cache.unsized]

theorem place_unsized (c : Cache V) (key : String) (v : V) :
    (place sz c key v).unsized = place (fun _ => 0) c.unsized key v := by
  have he : c.unsized.element key = c.element key := rfl
  unfold place
  rw [he]
  cases c.element key with
  | none => rfl
  | some e =>
    -- the size read back is `0 - 0` (and `+ 0`), which is `0`
    obtain ⟨i, x⟩ := e
    simp [Cache.unsized]

theorem evictOne_unsized {v : V} (he : evictOne sz c = some (c', v)) :
    evictOne (fun _ => 0) c.unsized = some (c'.unsized, v) := by
  unfold evictOne at he ⊢
  have hb : back c.unsized.entries = back c.entries := rfl
  rw [hb]
  split at he
  · cases he
  · obtain ⟨rfl, rfl⟩ := Prod.mk.inj (Option.some.inj he)
    simp [Cache.unsized]

namespace Indexed

theorem element_eq_some (h : Indexed c) {key : String} {i : ℕ} {x : Entry V} :
    c.element key = some (i, x) ↔ (i, x) ∈ c.entries ∧ x.key = key :=
  Shape.element_eq_some h

theorem element_eq_none (h : Indexed c) {key : String} :
    c.element key = none ↔ ∀ i x, (i, x) ∈ c.entries → x.key ≠ key :=
  Shape.element_eq_none h

/-- Keys are unique, so the element of identity `i` is the one of its key. -/
theorem remove_eq_filter (h : Indexed c) {i : ℕ} {x : Entry V} (hx : (i, x) ∈ c.entries) :
    remove c.entries i = c.entries.filter fun e => e.2.key ≠ x.key := by
  refine List.filter_congr fun e he => ?_
  obtain ⟨j, y⟩ := e
  have hiff : j = i ↔ y.key = x.key := by
    constructor
    · rintro rfl
      rw [eq_of_mem_of_mem (Shape.nodup h) he hx]
    · exact Shape.key_inj h he hx
  simp only [ne_eq, decide_not, hiff]

theorem eraseInternal (h : Indexed c) (key : String) : Indexed (eraseInternal sz c key).1 := by
  unfold Indexed
  rw [eraseInternal_unsized]
  exact eraseInternal_shape h key

theorem place (h : Indexed c) (key : String) (v : V) : Indexed (place sz c key v) := by
  unfold Indexed
  rw [place_unsized]
  exact (place_shape h key v).1

theorem evictOne (h : Indexed c) {v : V} (he : evictOne sz c = some (c', v)) :
    Indexed c' ∧ c'.entries.Sublist c.entries := by
  refine ⟨(evictOne_shape h (evictOne_unsized he)).1, ?_⟩
  unfold Lru.evictOne at he
  split at he
  · cases he
  · obtain ⟨rfl, -⟩ := Prod.mk.inj (Option.some.inj he)
    exact List.filter_sublist

/-- **The eviction loop keeps the index and drops elements only.** -/
theorem evictLoop : ∀ (n : ℕ) (c : Cache V) (acc : List V) {c' : Cache V} {ev : List V}, Indexed c →
    Lru.evictLoop sz n c acc = some (c', ev) → Indexed c' ∧ c'.entries.Sublist c.entries
  | 0, c, acc, _, _, h, hl => by
    unfold Lru.evictLoop at hl
    split at hl
    · cases hl
    · obtain ⟨rfl, -⟩ := Prod.mk.inj (Option.some.inj hl)
      exact ⟨h, List.Sublist.refl _⟩
  | n + 1, c, acc, _, _, h, hl => by
    unfold Lru.evictLoop at hl
    split at hl
    · -- one element goes, then the rest of the loop
      split at hl
      · cases hl
      · rename_i c₁ v he
        obtain ⟨h₁, hsub₁⟩ := h.evictOne he
        obtain ⟨h', hsub'⟩ := evictLoop n c₁ (acc ++ [v]) h₁ hl
        exact ⟨h', hsub'.trans hsub₁⟩
    · obtain ⟨rfl, -⟩ := Prod.mk.inj (Option.some.inj hl)
      exact ⟨h, List.Sublist.refl _⟩

/-- **`Erase` drops the entry of its key and keeps the others.** -/
theorem eraseInternal_entries (h : Indexed c) (key : String) :
    (Lru.eraseInternal sz c key).1.entries = c.entries.filter fun e => e.2.key ≠ key := by
  unfold Lru.eraseInternal
  cases he : c.element key with
  | none =>
    have hall := h.element_eq_none.1 he
    exact (List.filter_eq_self.2 fun e he' => by simpa using hall e.1 e.2 he').symm
  | some e =>
    obtain ⟨i, x⟩ := e
    obtain ⟨hx, rfl⟩ := h.element_eq_some.1 he
    exact h.remove_eq_filter hx

/-- **`Insert` of a value** leaves an indexed cache whose entries are its
own, first, and entries of other keys it had. -/
theorem insert (h : Indexed c) {key : String} {v : V} {ev : List V}
    (hi : Lru.insert sz c key (some v) = .ok (some (c', ev))) :
    Indexed c' ∧ ∀ e ∈ c'.entries, e.2 = ⟨key, v⟩ ∨ (e ∈ c.entries ∧ e.2.key ≠ key) := by
  unfold Lru.insert at hi
  simp only at hi
  split at hi
  · cases hi
  · have hl := Except.ok.inj hi
    obtain ⟨hc', hsub⟩ := evictLoop _ _ _ (h.place key v) hl
    obtain ⟨j, hj⟩ := Shape.place_entries h key v
    rw [← place_unsized] at hj
    refine ⟨hc', fun e he => ?_⟩
    have hmem : e ∈ (Lru.place sz c key v).entries := hsub.subset he
    change e ∈ (Lru.place sz c key v).unsized.entries at hmem
    rw [hj, List.mem_cons, List.mem_filter] at hmem
    rcases hmem with rfl | ⟨he', hk⟩
    · exact .inl rfl
    · exact .inr ⟨he', by simpa using hk⟩

end Indexed

end Lru

end GcsFuse
