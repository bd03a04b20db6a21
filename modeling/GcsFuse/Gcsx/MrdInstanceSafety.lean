import GcsFuse.Gcsx.MrdInstance
import GcsFuse.Lru.Indexed
/-!
# MrdInstance — what every interleaving keeps

The instances of one file system share the inactive-MRD cache, and each
call runs under the locks it takes; a list of `Action`s is one
interleaving of the calls of all instances. Two things hold after every
one.

* **The cache holds only idle instances** (`mrd_cache_holds_idle_instances`):
  each entry is an instance no reader holds, filed under its own inode's
  key. `IncrementRefCount` takes the instance out under that key when its
  first reader comes, and `DecrementRefCount` puts it in only when its
  last reader goes. This holds even after `SetMinObject` resizes a cached
  instance and `currentSize` drifts from the sum of the sizes: what it
  needs of the cache is its index (`Lru.Indexed`), not its sizes.
* **No instance reads through a closed pool** (`mrd_pools_open_and_unshared`):
  each pool an instance holds is open, and no two instances hold one
  pool. `closePool` lets go of the pool before closing it, and
  `createAndSwapPool` closes the old pool once the new one is in place, so
  a pool is closed only when no instance holds it.

Each invariant is proved once per method, and `step` only dispatches.
-/

namespace GcsFuse

namespace Gcsx

open Lru Run

/-! ## The state, field by field -/

namespace State

variable (s : State) (i : ℕ) (f : MrdInstance → MrdInstance)

@[simp] theorem modify_pools : (s.modify i f).pools = s.pools := rfl

@[simp] theorem modify_instances : (s.modify i f).instances = s.instances.modify i f := rfl

end State

@[simp] theorem closePoolWithTimeout_instances (s : State) (p : Option ℕ) :
    (closePoolWithTimeout s p).instances = s.instances := by
  cases p <;> rfl

@[simp] theorem closePoolWithTimeout_mrdCache (s : State) (p : Option ℕ) :
    (closePoolWithTimeout s p).mrdCache = s.mrdCache := by
  cases p <;> rfl

/-! ## The cache holds only idle instances -/

/-- An entry of the cache is an instance no reader holds, filed under the
key of its inode. -/
def Idle (instances : List MrdInstance) (e : ℕ × Entry ℕ) : Prop :=
  ∃ mi, instances[e.2.value]? = some mi ∧ mi.refCount = 0 ∧ getKey mi.inodeId = e.2.key

namespace Idle

variable {l : List MrdInstance} {e : ℕ × Entry ℕ} {i : ℕ} {mi : MrdInstance}
  {f : MrdInstance → MrdInstance}

/-- An instance a reader holds is not the one of an idle entry. -/
theorem ne_of_refCount (h : Idle l e) (hmi : l[i]? = some mi) (hr : mi.refCount ≠ 0) :
    e.2.value ≠ i := by
  rintro rfl
  obtain ⟨mi', hmi', hr', -⟩ := h
  obtain rfl : mi = mi' := Option.some.inj (hmi.symm.trans hmi')
  exact hr hr'

/-- An entry under another key than the instance's is not the instance. -/
theorem ne_of_key (h : Idle l e) (hmi : l[i]? = some mi) (hk : e.2.key ≠ getKey mi.inodeId) :
    e.2.value ≠ i := by
  rintro rfl
  obtain ⟨mi', hmi', -, hk'⟩ := h
  obtain rfl : mi = mi' := Option.some.inj (hmi.symm.trans hmi')
  exact hk hk'.symm

theorem modify_ne (h : Idle l e) (hne : e.2.value ≠ i) : Idle (l.modify i f) e := by
  obtain ⟨mi, hmi, hr, hk⟩ := h
  refine ⟨mi, ?_, hr, hk⟩
  simp [hmi, Ne.symm hne]

/-- Changing an instance but its count and its inode keeps it idle. -/
theorem modify_keep (h : Idle l e)
    (hf : ∀ mi, (f mi).refCount = mi.refCount ∧ (f mi).inodeId = mi.inodeId) :
    Idle (l.modify i f) e := by
  by_cases hi : i = e.2.value
  · obtain ⟨mi, hmi, hr, hk⟩ := h
    refine ⟨f mi, ?_, (hf mi).1.trans hr, (hf mi).2.symm ▸ hk⟩
    simp [hmi, hi]
  · exact h.modify_ne (Ne.symm hi)

theorem append (h : Idle l e) (l' : List MrdInstance) : Idle (l ++ l') e := by
  obtain ⟨mi, hmi, hr, hk⟩ := h
  obtain ⟨hlt, -⟩ := List.getElem?_eq_some_iff.1 hmi
  exact ⟨mi, by rw [List.getElem?_append_left hlt, hmi], hr, hk⟩

end Idle

/-- **The invariant of the cache**: its index is sound and every entry is
idle. -/
structure CacheInv (s : State) : Prop where
  indexed : Indexed s.mrdCache
  idle : ∀ e ∈ s.mrdCache.entries, Idle s.instances e

namespace CacheInv

variable {s s' : State} {i : ℕ} {mi : MrdInstance} {f : MrdInstance → MrdInstance}

theorem init {maxSize : UInt64} (hm : 0 < maxSize) : CacheInv (State.init maxSize) where
  indexed := indexed_newCache hm
  idle e he := by simp [State.init, newCache] at he

/-- The invariant reads the cache and the instances only. -/
theorem of_eq (h : CacheInv s) (hc : s'.mrdCache = s.mrdCache) (hi : s'.instances = s.instances) :
    CacheInv s' where
  indexed := hc ▸ h.indexed
  idle e he := hi ▸ h.idle e (hc ▸ he)

theorem modify_keep (h : CacheInv s)
    (hf : ∀ mi, (f mi).refCount = mi.refCount ∧ (f mi).inodeId = mi.inodeId) :
    CacheInv (s.modify i f) where
  indexed := h.indexed
  idle e he := (h.idle e he).modify_keep hf

/-- Changing an instance the cache does not hold keeps the invariant. -/
theorem modify_absent (h : CacheInv s) (habsent : ∀ e ∈ s.mrdCache.entries, e.2.value ≠ i) :
    CacheInv (s.modify i f) where
  indexed := h.indexed
  idle e he := (h.idle e he).modify_ne (habsent e he)

theorem closePoolWithTimeout (h : CacheInv s) (p : Option ℕ) :
    CacheInv (closePoolWithTimeout s p) :=
  h.of_eq (closePoolWithTimeout_mrdCache s p) (closePoolWithTimeout_instances s p)

theorem closePool (h : CacheInv s) (i : ℕ) (mi : MrdInstance) : CacheInv (closePool s i mi) := by
  unfold Gcsx.closePool
  apply CacheInv.closePoolWithTimeout
  exact h.modify_keep fun _ => ⟨rfl, rfl⟩

/-- `Erase` keeps the invariant: what it leaves, the cache had. -/
theorem erase (h : CacheInv s) (sz : ℕ → UInt64) (key : String) :
    CacheInv { s with mrdCache := (erase sz s.mrdCache key).1 } where
  indexed := h.indexed.eraseInternal key
  idle e he := by
    change e ∈ (eraseInternal sz s.mrdCache key).1.entries at he
    rw [h.indexed.eraseInternal_entries, List.mem_filter] at he
    exact h.idle e he.1

section Methods

variable (poolSize : ℕ)

theorem createAndSwapPool (h : CacheInv s) (i : ℕ) (mi : MrdInstance) (obj : Gcs.MinObject)
    (created : Bool) : CacheInv (createAndSwapPool poolSize s i mi obj created) := by
  unfold Gcsx.createAndSwapPool
  split
  · dsimp only
    apply CacheInv.closePoolWithTimeout
    refine (CacheInv.modify_keep h ?_).of_eq rfl rfl
    exact fun _ => ⟨rfl, rfl⟩
  · exact h

theorem setMinObject (h : CacheInv s) (i : ℕ) (mi : MrdInstance) (obj : Gcs.MinObject)
    (created : Bool) : CacheInv (setMinObject poolSize s i mi obj created) := by
  unfold Gcsx.setMinObject
  split
  · exact h.modify_keep fun _ => ⟨rfl, rfl⟩
  · exact h.createAndSwapPool poolSize i mi obj created

theorem ensureMrdPool (h : CacheInv s) (i : ℕ) (mi : MrdInstance) (created : Bool) :
    CacheInv (ensureMrdPool poolSize s i mi created) := by
  unfold Gcsx.ensureMrdPool
  split
  · exact h
  · split
    · refine (CacheInv.modify_keep h ?_).of_eq rfl rfl
      exact fun _ => ⟨rfl, rfl⟩
    · exact h

end Methods

/-- **`IncrementRefCount` keeps the invariant.** The first reader erases
the instance's key, which is the key of its entry if it has one; a later
reader finds the instance out of the cache. -/
theorem incrementRefCount (h : CacheInv s) (hmi : s.instances[i]? = some mi) :
    CacheInv (incrementRefCount s i mi) := by
  unfold Gcsx.incrementRefCount
  split
  · refine ⟨h.indexed.eraseInternal _, fun e he => ?_⟩
    change e ∈ (eraseInternal _ s.mrdCache (getKey mi.inodeId)).1.entries at he
    rw [h.indexed.eraseInternal_entries, List.mem_filter] at he
    obtain ⟨he, hk⟩ := he
    exact (h.idle e he).modify_ne ((h.idle e he).ne_of_key hmi (by simpa using hk))
  · rename_i hfirst
    exact h.modify_absent fun e he => (h.idle e he).ne_of_refCount hmi (by omega)

/-- **`DecrementRefCount` keeps the invariant.** While readers remain the
instance is out of the cache; the last one files it under its key at
count `0`, and what `Insert` keeps of the rest is idle still. -/
theorem decrementRefCount (h : CacheInv s) (hmi : s.instances[i]? = some mi)
    (hd : decrementRefCount s i mi = some s') : CacheInv s' := by
  unfold Gcsx.decrementRefCount at hd
  split at hd
  · cases hd
    exact h
  · rename_i hpos
    -- held by a reader, so not in the cache: the new count is safe to write
    have h' : CacheInv (s.modify i fun mi => { mi with refCount := mi.refCount - 1 }) :=
      h.modify_absent fun e he => (h.idle e he).ne_of_refCount hmi (by omega)
    split at hd
    · cases hd
      exact h'
    · rename_i hlast
      dsimp only at hd
      split at hd
      · cases hd
        exact h'.closePool _ _
      · cases hd
      · rename_i c ev hins
        cases hd
        obtain ⟨hidx, hentries⟩ := h'.indexed.insert hins
        refine ⟨hidx, fun e he => ?_⟩
        rcases hentries e he with hnew | ⟨hold, -⟩
        · -- the instance itself, now at count `0`
          rw [Idle, hnew]
          refine ⟨{ mi with refCount := mi.refCount - 1 }, ?_, by simp only; omega, rfl⟩
          simp [hmi]
        · exact h'.idle e hold

theorem handleEviction (h : CacheInv s) (i : ℕ) (mi : MrdInstance) :
    CacheInv (handleEviction s i mi) := by
  unfold Gcsx.handleEviction
  split
  · exact h
  · split
    · exact h
    · exact h.closePool i mi

/-- **Every step keeps the invariant.** -/
theorem step {poolSize : ℕ} {a : Action} (h : CacheInv s) (hs : step poolSize s a = some s') :
    CacheInv s' := by
  cases a with
  | newMrdInstance object inodeId =>
    cases hs
    exact ⟨h.indexed, fun e he => (h.idle e he).append _⟩
  | setMinObject i object created =>
    obtain ⟨mi, -, rfl⟩ := Option.map_eq_some_iff.1 hs
    exact h.setMinObject poolSize i mi object created
  | recreateMrd i created =>
    obtain ⟨mi, -, rfl⟩ := Option.map_eq_some_iff.1 hs
    exact h.createAndSwapPool poolSize i mi mi.object created
  | read i created =>
    obtain ⟨mi, -, rfl⟩ := Option.map_eq_some_iff.1 hs
    exact h.ensureMrdPool poolSize i mi created
  | destroy i =>
    obtain ⟨mi, -, rfl⟩ := Option.map_eq_some_iff.1 hs
    exact (h.erase _ _).closePool i mi
  | incrementRefCount i =>
    obtain ⟨mi, hmi, rfl⟩ := Option.map_eq_some_iff.1 hs
    exact h.incrementRefCount hmi
  | decrementRefCount i =>
    obtain ⟨mi, hmi, hd⟩ := Option.bind_eq_some_iff.1 hs
    exact h.decrementRefCount hmi hd
  | handleEviction i =>
    dsimp only [Gcsx.step] at hs
    split at hs
    · obtain ⟨mi, -, rfl⟩ := Option.map_eq_some_iff.1 hs
      apply CacheInv.handleEviction
      exact h.of_eq rfl rfl
    · cases hs

end CacheInv

/-- **The inactive-MRD cache holds only idle instances.** After every
interleaving of the calls of all instances, from a cache of any positive
size, each entry of the cache is an instance no reader holds, filed under
the key of its own inode. -/
theorem mrd_cache_holds_idle_instances {maxSize : UInt64} (hm : 0 < maxSize) (poolSize : ℕ)
    (as : List Action) {s : State} (hrun : run (step poolSize) (State.init maxSize) as = some s) :
    ∀ e ∈ s.mrdCache.entries,
      ∃ mi, s.instances[e.2.value]? = some mi ∧ mi.refCount = 0 ∧ getKey mi.inodeId = e.2.key :=
  (run_invariant (fun _ _ _ h hs => CacheInv.step h hs) as _ s (CacheInv.init hm) hrun).idle

/-- The first five calls of `regrownPool`: `a` is read and closed, and
sits in the cache at count `0`. -/
theorem mrd_cache_holds_idle_instances_closed :
    ∃ s, run (step 4) (State.init 1000) (regrownPool.take 5) = some s ∧
      ∀ e ∈ s.mrdCache.entries,
        ∃ mi, s.instances[e.2.value]? = some mi ∧ mi.refCount = 0 ∧ getKey mi.inodeId = e.2.key :=
  ⟨_, rfl, mrd_cache_holds_idle_instances (by decide : (0 : UInt64) < 1000) 4 (regrownPool.take 5) rfl⟩

/-! ## No instance reads through a closed pool -/

/-- Instance `i` reads through pool `p`. -/
def Holds (instances : List MrdInstance) (i p : ℕ) : Prop :=
  ∃ mi, instances[i]? = some mi ∧ mi.mrdPool = some p

section Holds

variable {l : List MrdInstance} {i j p : ℕ} {mi : MrdInstance} {f : MrdInstance → MrdInstance}

/-- After a change that gives instance `i` no pool it did not hold, each
instance holds what it held. -/
theorem Holds.of_modify (hf : ∀ mi p, (f mi).mrdPool = some p → mi.mrdPool = some p)
    (h : Holds (l.modify i f) j p) : Holds l j p := by
  obtain ⟨mi, hmi, hp⟩ := h
  by_cases hij : i = j
  · obtain ⟨mi₀, h₀, rfl⟩ : ∃ mi₀, l[j]? = some mi₀ ∧ f mi₀ = mi := by simpa [hij] using hmi
    exact ⟨mi₀, h₀, hf mi₀ p hp⟩
  · exact ⟨mi, by simpa [hij] using hmi, hp⟩

/-- After a change to instance `i`, it holds what the change gives it and
the others hold what they held. -/
theorem Holds.modify_cases (h : Holds (l.modify i f) j p) :
    (j = i ∧ ∃ mi, l[i]? = some mi ∧ (f mi).mrdPool = some p) ∨ (j ≠ i ∧ Holds l j p) := by
  obtain ⟨mi, hmi, hp⟩ := h
  by_cases hij : i = j
  · subst hij
    obtain ⟨mi₀, h₀, rfl⟩ : ∃ mi₀, l[i]? = some mi₀ ∧ f mi₀ = mi := by simpa using hmi
    exact .inl ⟨rfl, mi₀, h₀, hp⟩
  · exact .inr ⟨Ne.symm hij, mi, by simpa [hij] using hmi, hp⟩

/-- A new instance holds no pool. -/
theorem Holds.of_append_new {object : Gcs.MinObject} {inodeId : ℕ}
    (h : Holds (l ++ [⟨none, object, 0, inodeId⟩]) j p) : Holds l j p := by
  obtain ⟨mi, hmi, hp⟩ := h
  rcases Nat.lt_or_ge j l.length with hj | hj
  · exact ⟨mi, by rwa [List.getElem?_append_left hj] at hmi, hp⟩
  · -- at or past the end, only the new instance, which holds nothing
    rw [List.getElem?_append_right hj, List.getElem?_singleton] at hmi
    split at hmi
    · cases hmi
      cases hp
    · cases hmi

end Holds

/-- **The invariant of the pools**: each pool an instance holds is open,
and no two instances hold one pool. -/
structure PoolInv (s : State) : Prop where
  pool_open : ∀ i p, Holds s.instances i p → ∃ q, s.pools[p]? = some q ∧ q.closed = false
  unshared : ∀ i j p, Holds s.instances i p → Holds s.instances j p → i = j

namespace PoolInv

variable {s s' : State} {i : ℕ} {mi : MrdInstance} {f : MrdInstance → MrdInstance}

theorem init (maxSize : UInt64) : PoolInv (State.init maxSize) where
  pool_open _ _ h := by simp [Holds, State.init] at h
  unshared _ _ _ h := by simp [Holds, State.init] at h

/-- The invariant reads the pools and the instances only. -/
theorem of_eq (h : PoolInv s) (hp : s'.pools = s.pools) (hi : s'.instances = s.instances) :
    PoolInv s' where
  pool_open j p hh := hp ▸ h.pool_open j p (hi ▸ hh)
  unshared j k p hj hk := h.unshared j k p (hi ▸ hj) (hi ▸ hk)

/-- A pool an instance holds is one of the state's. -/
theorem lt_length (h : PoolInv s) {j p : ℕ} (hh : Holds s.instances j p) : p < s.pools.length := by
  obtain ⟨q, hq, -⟩ := h.pool_open j p hh
  exact (List.getElem?_eq_some_iff.1 hq).1

/-- A change that gives instance `i` no pool it did not hold keeps the
invariant. -/
theorem modify_release (h : PoolInv s) (hf : ∀ mi p, (f mi).mrdPool = some p → mi.mrdPool = some p) :
    PoolInv (s.modify i f) where
  pool_open j p hh := h.pool_open j p (hh.of_modify hf)
  unshared j k p hj hk := h.unshared j k p (hj.of_modify hf) (hk.of_modify hf)

theorem modify_keep (h : PoolInv s) (hf : ∀ mi, (f mi).mrdPool = mi.mrdPool) :
    PoolInv (s.modify i f) :=
  h.modify_release fun mi _ hp => (hf mi).symm.trans hp

/-- **Closing a pool no instance holds keeps the invariant.** -/
theorem closePoolWithTimeout (h : PoolInv s) {o : Option ℕ}
    (hfree : ∀ p, o = some p → ∀ j, ¬ Holds s.instances j p) : PoolInv (closePoolWithTimeout s o) := by
  cases o with
  | none => exact h
  | some p =>
    refine ⟨fun j p' hh => ?_, h.unshared⟩
    have hne : p ≠ p' := by
      rintro rfl
      exact hfree p rfl j hh
    obtain ⟨q, hq, hc⟩ := h.pool_open j p' hh
    exact ⟨q, by simpa [Gcsx.closePoolWithTimeout, hne] using hq, hc⟩

/-- **`closePool` keeps the invariant**: the instance lets go of its pool
first, and no other instance holds it. -/
theorem closePool (h : PoolInv s) (hmi : ∃ mi', s.instances[i]? = some mi' ∧ mi'.mrdPool = mi.mrdPool) :
    PoolInv (closePool s i mi) := by
  unfold Gcsx.closePool
  have hrel : ∀ (mi : MrdInstance) (p : ℕ), ({ mi with mrdPool := none } : MrdInstance).mrdPool = some p →
      mi.mrdPool = some p := fun _ _ hp => by cases hp
  refine (h.modify_release hrel).closePoolWithTimeout fun p hp j hh => ?_
  obtain ⟨mi', hmi', hpool⟩ := hmi
  rcases hh.modify_cases with ⟨-, _, -, hnone⟩ | ⟨hne, hj⟩
  · cases hnone
  · exact hne (h.unshared j i p hj ⟨mi', hmi', hpool.trans hp⟩)

section Attach

variable {q : MrdPool}

/-- **A new open pool for instance `i`** keeps the invariant: no other
instance can hold a pool the state did not have. -/
theorem attach (h : PoolInv s) (hf : ∀ mi, (f mi).mrdPool = some s.pools.length) (hq : q.closed = false) :
    PoolInv ({ s with pools := s.pools ++ [q] }.modify i f) := by
  -- an instance other than `i` holds one of the old pools
  have hold : ∀ j p, Holds ({ s with pools := s.pools ++ [q] }.modify i f).instances j p → j ≠ i →
      Holds s.instances j p ∧ p < s.pools.length := by
    intro j p hh hne
    rcases hh.modify_cases with ⟨hji, -⟩ | ⟨-, hj⟩
    · exact absurd hji hne
    · exact ⟨hj, h.lt_length hj⟩
  -- instance `i` holds the new one
  have hnew : ∀ p, Holds ({ s with pools := s.pools ++ [q] }.modify i f).instances i p →
      p = s.pools.length := by
    intro p hh
    rcases hh.modify_cases with ⟨-, mi, -, hp⟩ | ⟨hne, -⟩
    · exact (Option.some.inj ((hf mi).symm.trans hp)).symm
    · exact absurd rfl hne
  constructor
  · intro j p hh
    by_cases hji : j = i
    · subst hji
      obtain rfl := hnew p hh
      exact ⟨q, List.getElem?_concat_length, hq⟩
    · obtain ⟨hj, hlt⟩ := hold j p hh hji
      obtain ⟨q', hq', hc⟩ := h.pool_open j p hj
      exact ⟨q', by simpa [List.getElem?_append_left hlt] using hq', hc⟩
  · intro j k p hj hk
    by_cases hji : j = i <;> by_cases hki : k = i
    · rw [hji, hki]
    · exact absurd (hnew p (hji ▸ hj)) (Nat.ne_of_lt (hold k p hk hki).2)
    · exact absurd (hnew p (hki ▸ hk)) (Nat.ne_of_lt (hold j p hj hji).2)
    · exact h.unshared j k p (hold j p hj hji).1 (hold k p hk hki).1

/-- After `attach`, no instance holds the pool `i` held before. -/
theorem attach_frees (h : PoolInv s) (hmi : s.instances[i]? = some mi)
    (hf : ∀ mi, (f mi).mrdPool = some s.pools.length) :
    ∀ p, mi.mrdPool = some p → ∀ j, ¬ Holds ({ s with pools := s.pools ++ [q] }.modify i f).instances j p := by
  intro p hp j hh
  have hi : Holds s.instances i p := ⟨mi, hmi, hp⟩
  rcases hh.modify_cases with ⟨-, mi', -, hp'⟩ | ⟨hne, hj⟩
  · -- the new pool is not one of the old ones
    have hlt := h.lt_length hi
    rw [hf mi'] at hp'
    exact Nat.ne_of_lt hlt (Option.some.inj hp').symm
  · exact hne (h.unshared j i p hj hi)

end Attach

section Methods

variable (poolSize : ℕ)

theorem createAndSwapPool (h : PoolInv s) (hmi : s.instances[i]? = some mi) (obj : Gcs.MinObject)
    (created : Bool) : PoolInv (createAndSwapPool poolSize s i mi obj created) := by
  unfold Gcsx.createAndSwapPool
  split
  · have hf : ∀ mi' : MrdInstance, ({ mi' with mrdPool := some s.pools.length, object := obj } :
        MrdInstance).mrdPool = some s.pools.length := fun _ => rfl
    exact (h.attach hf rfl).closePoolWithTimeout (h.attach_frees hmi hf)
  · exact h

theorem setMinObject (h : PoolInv s) (hmi : s.instances[i]? = some mi) (obj : Gcs.MinObject)
    (created : Bool) : PoolInv (setMinObject poolSize s i mi obj created) := by
  unfold Gcsx.setMinObject
  split
  · exact h.modify_keep fun _ => rfl
  · exact h.createAndSwapPool poolSize hmi obj created

theorem ensureMrdPool (h : PoolInv s) (created : Bool) :
    PoolInv (ensureMrdPool poolSize s i mi created) := by
  unfold Gcsx.ensureMrdPool
  split
  · exact h
  · split
    · exact h.attach (fun _ => rfl) rfl
    · exact h

end Methods

theorem incrementRefCount (h : PoolInv s) : PoolInv (incrementRefCount s i mi) := by
  unfold Gcsx.incrementRefCount
  split
  · dsimp only
    refine (PoolInv.modify_keep h ?_).of_eq rfl rfl
    exact fun _ => rfl
  · exact h.modify_keep fun _ => rfl

theorem decrementRefCount (h : PoolInv s) (hmi : s.instances[i]? = some mi)
    (hd : decrementRefCount s i mi = some s') : PoolInv s' := by
  unfold Gcsx.decrementRefCount at hd
  have h' : PoolInv (s.modify i fun mi => { mi with refCount := mi.refCount - 1 }) :=
    h.modify_keep fun _ => rfl
  split at hd
  · cases hd
    exact h
  · split at hd
    · cases hd
      exact h'
    · dsimp only at hd
      split at hd
      · cases hd
        -- an `Insert` error closes the pool the instance holds
        exact h'.closePool ⟨{ mi with refCount := mi.refCount - 1 }, by simp [hmi], rfl⟩
      · cases hd
      · cases hd
        exact h'.of_eq rfl rfl

theorem handleEviction (h : PoolInv s) (hmi : s.instances[i]? = some mi) :
    PoolInv (handleEviction s i mi) := by
  unfold Gcsx.handleEviction
  split
  · exact h
  · split
    · exact h
    · exact h.closePool ⟨mi, hmi, rfl⟩

/-- **Every step keeps the invariant.** -/
theorem step {poolSize : ℕ} {a : Action} (h : PoolInv s) (hs : step poolSize s a = some s') :
    PoolInv s' := by
  cases a with
  | newMrdInstance object inodeId =>
    cases hs
    exact ⟨fun j p hh => h.pool_open j p hh.of_append_new,
      fun j k p hj hk => h.unshared j k p hj.of_append_new hk.of_append_new⟩
  | setMinObject i object created =>
    obtain ⟨mi, hmi, rfl⟩ := Option.map_eq_some_iff.1 hs
    exact h.setMinObject poolSize hmi object created
  | recreateMrd i created =>
    obtain ⟨mi, hmi, rfl⟩ := Option.map_eq_some_iff.1 hs
    exact h.createAndSwapPool poolSize hmi mi.object created
  | read i created =>
    obtain ⟨mi, -, rfl⟩ := Option.map_eq_some_iff.1 hs
    exact h.ensureMrdPool poolSize created
  | destroy i =>
    obtain ⟨mi, hmi, rfl⟩ := Option.map_eq_some_iff.1 hs
    refine PoolInv.closePool ?_ ?_
    · exact h.of_eq rfl rfl
    · exact ⟨mi, hmi, rfl⟩
  | incrementRefCount i =>
    obtain ⟨mi, -, rfl⟩ := Option.map_eq_some_iff.1 hs
    exact h.incrementRefCount
  | decrementRefCount i =>
    obtain ⟨mi, hmi, hd⟩ := Option.bind_eq_some_iff.1 hs
    exact h.decrementRefCount hmi hd
  | handleEviction i =>
    dsimp only [Gcsx.step] at hs
    split at hs
    · obtain ⟨mi, hmi, rfl⟩ := Option.map_eq_some_iff.1 hs
      refine PoolInv.handleEviction ?_ hmi
      exact h.of_eq rfl rfl
    · cases hs

end PoolInv

/-- **No instance reads through a closed pool.** After every interleaving
of the calls of all instances, each pool an instance holds is open, and
no two instances hold one pool. -/
theorem mrd_pools_open_and_unshared (poolSize : ℕ) (maxSize : UInt64) (as : List Action) {s : State}
    (hrun : run (step poolSize) (State.init maxSize) as = some s) :
    (∀ (i : ℕ) (mi : MrdInstance) (p : ℕ), s.instances[i]? = some mi → mi.mrdPool = some p →
      ∃ q : MrdPool, s.pools[p]? = some q ∧ q.closed = false) ∧
    ∀ (i j : ℕ) (mi mj : MrdInstance) (p : ℕ), s.instances[i]? = some mi → s.instances[j]? = some mj →
      mi.mrdPool = some p → mj.mrdPool = some p → i = j := by
  have h := run_invariant (fun _ _ _ h hs => PoolInv.step h hs) as _ s (PoolInv.init maxSize) hrun
  exact ⟨fun i mi p hmi hp => h.pool_open i p ⟨mi, hmi, hp⟩,
    fun i j mi mj p hmi hmj hp hq => h.unshared i j p ⟨mi, hmi, hp⟩ ⟨mj, hmj, hq⟩⟩

/-- `regrownPool`: `SetMinObject` swaps the pool of `a` while it sits in
the cache, and both readers end on open pools of their own. -/
theorem mrd_pools_open_and_unshared_regrown :
    ∃ s, run (step 4) (State.init 1000) regrownPool = some s ∧
      (∀ (i : ℕ) (mi : MrdInstance) (p : ℕ), s.instances[i]? = some mi → mi.mrdPool = some p →
        ∃ q : MrdPool, s.pools[p]? = some q ∧ q.closed = false) ∧
      ∀ (i j : ℕ) (mi mj : MrdInstance) (p : ℕ), s.instances[i]? = some mi → s.instances[j]? = some mj →
        mi.mrdPool = some p → mj.mrdPool = some p → i = j :=
  ⟨_, rfl, mrd_pools_open_and_unshared 4 1000 regrownPool rfl⟩

end Gcsx

end GcsFuse
