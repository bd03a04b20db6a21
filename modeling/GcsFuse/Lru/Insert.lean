import GcsFuse.Lru.Wf
/-!
# lru.Cache — what `Insert` does

`Insert(key, v)` puts the entry of `key`, holding `v`, at the front of the
list and evicts from the back while `currentSize > maxSize`. On a cache of
the shape every call keeps (`Shape.of_reachable`) the other entries stay
behind it in their order (`Shape.place_entries`), and the loop evicts the
shortest run of them at the back whose removal brings `currentSize` to at
most `maxSize`, the back first (`evictLoop_suffix`). The entry of `key` is
never reached: on its own it fits.

`currentSize` is the sizes summed in `uint64` (`usage`,
`Shape.currentSize_eq_usage`), and the loop reads that value: below `2 ^ 63`
it is the sum itself (`Lru.Wf`), past it the sum wraps
(`insert_wraps_currentSize`) and the eviction follows the wrapped value.
-/

namespace GcsFuse

namespace Lru

open ElementList Run

variable {V : Type} (sz : V → UInt64)

/-- The `currentSize` of a cache holding these entries: their `Size()`s
summed in `uint64`. -/
def usage (es : List (ℕ × Entry V)) : UInt64 := (es.map fun e => sz e.2.value).sum

variable {sz}

@[simp] theorem usage_nil : usage sz ([] : List (ℕ × Entry V)) = 0 := rfl

@[simp] theorem usage_cons (e : ℕ × Entry V) (es : List (ℕ × Entry V)) :
    usage sz (e :: es) = sz e.2.value + usage sz es := by
  simp [usage]

theorem toNat_usage (es : List (ℕ × Entry V)) :
    (usage sz es).toNat = total (weight sz) es % 2 ^ 64 := by
  induction es with
  | nil => rfl
  | cons e es ih =>
    rw [usage_cons, UInt64.toNat_add, ih, total_cons]
    simp only [weight]
    omega

variable {c : Cache V}

/-- On a cache of the shape, `currentSize` is the usage of its entries. -/
theorem Shape.currentSize_eq_usage (h : Shape sz c) : c.currentSize = usage sz c.entries :=
  UInt64.toNat_inj.1 (by rw [h.size_mod, toNat_usage])

/-- **The entries `Insert` leaves before its loop**: the entry of `key`,
then the others in their order. -/
theorem Shape.place_entries (h : Shape sz c) (key : String) (v : V) :
    ∃ j, (place sz c key v).entries = (j, ⟨key, v⟩) :: c.entries.filter (fun e => e.2.key ≠ key) := by
  unfold place
  cases he : c.element key with
  | some e =>
    obtain ⟨i, x⟩ := e
    obtain ⟨hx, hk⟩ := h.element_eq_some.1 he
    have hsv : (ids (setValue c.entries i ⟨key, v⟩)).Nodup := by rw [ids_setValue]; exact h.nodup
    have hmem : (i, (⟨key, v⟩ : Entry V)) ∈ setValue c.entries i ⟨key, v⟩ :=
      mem_setValue.2 (.inr ⟨rfl, mem_ids.2 ⟨x, hx⟩⟩)
    -- keys are unique, so the element of identity `i` is the one of `key`
    have hrem : remove c.entries i = c.entries.filter (fun e => e.2.key ≠ key) := by
      refine List.filter_congr fun e he' => ?_
      obtain ⟨j, y⟩ := e
      have hiff : j = i ↔ y.key = key := by
        constructor
        · rintro rfl
          rw [eq_of_mem_of_mem h.nodup he' hx, hk]
        · intro hy
          exact h.key_inj he' hx (hy.trans hk.symm)
      simp only [ne_eq, decide_not, hiff]
    refine ⟨i, ?_⟩
    show moveToFront (setValue c.entries i ⟨key, v⟩) i = _
    rw [moveToFront_eq hsv hmem, remove_setValue, hrem]
  | none =>
    have hall := h.element_eq_none.1 he
    refine ⟨c.nextId, ?_⟩
    show pushFront c.entries c.nextId ⟨key, v⟩ = _
    rw [pushFront, List.filter_eq_self.2 fun e he' => by simpa using hall e.1 e.2 he']

/-- `evictOne` on a list ending in `(i, x)`: the rest is left. -/
theorem Shape.evictOne_concat (h : Shape sz c) {es : List (ℕ × Entry V)} {i : ℕ} {x : Entry V}
    (hc : c.entries = es ++ [(i, x)]) :
    ∃ c₁, evictOne sz c = some (c₁, x.value) ∧ c₁.entries = es ∧ Shape sz c₁ ∧ c₁.maxSize = c.maxSize := by
  have hb : back c.entries = some (i, x) := by
    rw [hc]
    exact List.getLast?_concat
  have he : evictOne sz c = some ({ c with
      currentSize := c.currentSize - sz x.value
      entries := remove c.entries i
      index := c.index.erase x.key }, x.value) := by
    simp only [evictOne, hb]
  obtain ⟨hs₁, -, hmax⟩ := evictOne_shape h he
  refine ⟨_, he, ?_, hs₁, hmax⟩
  show remove c.entries i = es
  rw [hc]
  exact remove_concat (hc ▸ h.nodup)

/-- **The eviction loop drops the shortest run at the back whose removal
brings the usage to at most `maxSize`**, and returns it back first.
Induction on the rounds left; each evicts the back element. -/
theorem evictLoop_suffix : ∀ (n : ℕ) (c : Cache V) (acc : List V), Shape sz c → c.entries.length < n →
    ∃ kept evicted c', c.entries = kept ++ evicted ∧
      evictLoop sz n c acc = some (c', acc ++ (evicted.map fun e => e.2.value).reverse) ∧
      c'.entries = kept ∧ Shape sz c' ∧ c'.maxSize = c.maxSize ∧ usage sz kept ≤ c.maxSize ∧
      ∀ kept' evicted', c.entries = kept' ++ evicted' → evicted'.length < evicted.length →
        c.maxSize < usage sz kept'
  | 0, _, _, _, hn => absurd hn (Nat.not_lt_zero _)
  | n + 1, c, acc, hs, hn => by
    by_cases hover : c.maxSize < c.currentSize
    · -- over the bound, so not empty: an empty cache has size `0`
      have hne : c.entries ≠ [] := by
        intro hnil
        rw [hs.currentSize_eq_zero hnil] at hover
        exact UInt64.not_lt_zero hover
      obtain ⟨es, ⟨i, x⟩, hc⟩ : ∃ es e, c.entries = es ++ [e] := by
        obtain ⟨es, e, hc⟩ := (List.eq_nil_or_concat c.entries).resolve_left hne
        exact ⟨es, e, by rw [hc, List.concat_eq_append]⟩
      obtain ⟨c₁, he, hes, hs₁, hmax₁⟩ := hs.evictOne_concat hc
      have hlen : c₁.entries.length < n := by
        rw [hes]
        rw [hc, List.length_append, List.length_singleton] at hn
        omega
      obtain ⟨kept, ev, c', hsplit, hrun, hkept, hs', hmax', husage, hshort⟩ :=
        evictLoop_suffix n c₁ (acc ++ [x.value]) hs₁ hlen
      refine ⟨kept, ev ++ [(i, x)], c', ?_, ?_, hkept, hs', hmax'.trans hmax₁, hmax₁ ▸ husage, ?_⟩
      · rw [hc, ← hes, hsplit, List.append_assoc]
      · rw [evictLoop, if_pos hover, he]
        dsimp only
        rw [hrun]
        simp
      · intro kept' evicted' hsplit' hlt
        rcases List.eq_nil_or_concat evicted' with rfl | ⟨ev', y, rfl⟩
        · -- evicting nothing leaves the cache over the bound
          rw [List.append_nil] at hsplit'
          rw [← hsplit', ← hs.currentSize_eq_usage]
          exact hover
        · -- a shorter run ending in the back element is a shorter run of the rest
          rw [hc, List.concat_eq_append, ← List.append_assoc] at hsplit'
          obtain ⟨hrest, -⟩ := List.append_inj' hsplit' rfl
          have hshorter := hshort kept' ev' (by rw [hes, hrest]) (by simp at hlt; omega)
          rwa [hmax₁] at hshorter
    · -- at or below the bound: nothing is evicted
      refine ⟨c.entries, [], c, (List.append_nil _).symm, ?_, rfl, hs, rfl, ?_, ?_⟩
      · rw [evictLoop, if_neg hover]
        simp
      · rw [← hs.currentSize_eq_usage]
        exact UInt64.not_lt.1 hover
      · intro _ _ _ hlt
        exact absurd hlt (Nat.not_lt_zero _)

/-- On a cache of the shape, an element's key reads its value back. -/
theorem Shape.lookUpWithoutChangingOrder_of_mem (h : Shape sz c) {j : ℕ} {x : Entry V}
    (hx : (j, x) ∈ c.entries) : lookUpWithoutChangingOrder c x.key = some x.value := by
  rw [lookUpWithoutChangingOrder, h.element_eq_some.2 ⟨hx, rfl⟩]
  rfl

/-- **`Insert` on any cache a sequence of calls reaches.** A value of at
most `maxSize` is put at the front and read back; the others stay behind it
in their order, keeping their values; what is evicted is the shortest run
of them at the back whose removal brings `currentSize` to at most
`maxSize`, the back first, so never the entry of `key`. A nil value, or
one larger than `maxSize`, is refused and the cache left as it was. -/
theorem insert_evicts_least_recently_used {maxSize : UInt64} (hm : 0 < maxSize)
    (hc : Reachable (step sz) (newCache maxSize) c) (key : String) :
    (∀ v, sz v ≤ c.maxSize → ∃ c' j kept evicted,
      insert sz c key (some v) = .ok (some (c', (evicted.map fun e => e.2.value).reverse)) ∧
      c.entries.filter (fun e => e.2.key ≠ key) = kept ++ evicted ∧
      c'.entries = (j, ⟨key, v⟩) :: kept ∧
      c'.currentSize = usage sz c'.entries ∧ c'.currentSize ≤ c.maxSize ∧
      (∀ kept' evicted', c.entries.filter (fun e => e.2.key ≠ key) = kept' ++ evicted' →
        evicted'.length < evicted.length → c.maxSize < usage sz ((j, ⟨key, v⟩) :: kept')) ∧
      lookUpWithoutChangingOrder c' key = some v ∧
      ∀ e ∈ kept, lookUpWithoutChangingOrder c' e.2.key = some e.2.value) ∧
    (∀ v, c.maxSize < sz v →
      insert sz c key (some v) = .error .invalidEntrySize ∧ step sz c (.insert key (some v)) = some c) ∧
    insert sz c key none = .error .invalidEntry ∧ step sz c (.insert key none) = some c := by
  have hs := Shape.of_reachable hm hc
  refine ⟨fun v hv => ?_, fun v hv => ?_, rfl, rfl⟩
  · obtain ⟨j, hplace⟩ := hs.place_entries key v
    obtain ⟨hsp, hmaxp⟩ := place_shape hs key v
    obtain ⟨kept₀, evicted, c', hsplit, hrun, hkept, hs', hmax', husage, hshort⟩ :=
      evictLoop_suffix _ (place sz c key v) [] hsp (Nat.lt_succ_self _)
    rw [hmaxp] at husage hshort
    rw [hplace] at hsplit hshort
    -- the entry of `key` fits on its own, so the loop stops before it
    obtain ⟨kept, rfl, hrest⟩ : ∃ kept, kept₀ = (j, ⟨key, v⟩) :: kept ∧
        c.entries.filter (fun e => e.2.key ≠ key) = kept ++ evicted := by
      rcases kept₀ with _ | ⟨e, kept⟩
      · rw [List.nil_append] at hsplit
        have hfits := hshort [(j, ⟨key, v⟩)] (c.entries.filter fun e => e.2.key ≠ key) rfl
          (by rw [← hsplit, List.length_cons]; exact Nat.lt_succ_self _)
        simp only [usage_cons, usage_nil, UInt64.add_zero] at hfits
        exact absurd hfits (UInt64.not_lt.2 hv)
      · obtain ⟨rfl, hrest⟩ := List.cons.inj hsplit
        exact ⟨kept, rfl, hrest⟩
    have hcur := hs'.currentSize_eq_usage
    refine ⟨c', j, kept, evicted, ?_, hrest, hkept, hcur, hcur ▸ hkept ▸ husage, ?_, ?_, ?_⟩
    · simp only [insert, if_neg (UInt64.not_lt.2 hv)]
      rw [hrun, List.nil_append]
    · intro kept' evicted' hsplit' hlt
      exact hshort _ evicted' (by rw [hsplit', List.cons_append]) hlt
    · exact hs'.lookUpWithoutChangingOrder_of_mem (hkept ▸ List.mem_cons_self)
    · intro e he
      exact hs'.lookUpWithoutChangingOrder_of_mem (hkept ▸ List.mem_cons_of_mem _ he)
  · simp only [step, insert, if_pos hv, and_self]

/-- "a" then "b", each of size `1`, in a cache of size `2`. -/
def twoEntries : Cache UInt64 :=
  ⟨2, 2, [(1, ⟨"b", 1⟩), (0, ⟨"a", 1⟩)], ((∅ : AList fun _ : String => ℕ).insert "a" 0).insert "b" 1, 2⟩

/-- A third entry of size `1` reads back at once. -/
theorem insert_reads_back_third_entry :
    ∃ c' ev, insert id twoEntries "c" (some 1) = .ok (some (c', ev)) ∧
      lookUpWithoutChangingOrder c' "c" = some 1 := by
  obtain ⟨c', j, kept, evicted, hins, -, -, -, -, -, hlook, -⟩ :=
    (@insert_evicts_least_recently_used UInt64 id twoEntries 2 (by decide)
      ⟨[.insert "a" (some 1), .insert "b" (some 1)], rfl⟩ "c").1 1 (by decide)
  exact ⟨c', _, hins, hlook⟩

/-- It evicts "a", the least recently used, alone. -/
example : ((insert id twoEntries "c" (some 1)).map fun r => r.map Prod.snd) = .ok (some [1]) := rfl

end Lru

end GcsFuse
