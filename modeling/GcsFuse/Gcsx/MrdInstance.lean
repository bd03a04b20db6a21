import GcsFuse.Lru.Cache
import GcsFuse.Gcs.Object
import GcsFuse.Common.Run
/-!
# MrdInstance — the cache of inactive downloader pools

`internal/gcsx/mrd_instance.go`. Each file inode has an `MrdInstance`
holding a pool of multi-range downloaders. While no reader holds it
(`refCount = 0`) the instance sits in an `lru.Cache` shared by all
inodes, of `inactive-mrd-cache-size` slots, and its `Size()` is the
`PoolSize` of its current pool, which `determinePoolSize` derives from
the object's size when the pool is built.

`SetMinObject` with a new generation builds a new pool while the instance
may sit in the cache, and the cache re-reads `Size()` when it erases or
evicts the instance. The state holds the instances and the pools by
reference, and each step is one method, atomic under the locks it takes.
`DecrementRefCount` runs the `handleEviction` of what its `Insert`
evicted after it releases its lock; those calls are steps of their own.
-/

namespace GcsFuse

namespace Gcsx

open Gcs Lru Run

/-- `smallFileThresholdMiB`. -/
def smallFileThresholdMiB : UInt64 := 100

/-- `mediumFileThresholdMiB`. -/
def mediumFileThresholdMiB : UInt64 := 500

/-- `determinePoolSize`: one downloader below 100 MiB, two below 500 MiB,
the configured `mrd-pool-size` above. -/
def determinePoolSize (poolSize : ℕ) (object : MinObject) : ℕ :=
  if object.size < smallFileThresholdMiB * miB then 1
  else if object.size < mediumFileThresholdMiB * miB then 2
  else poolSize

/-- `MRDPool`: its configuration, and whether `Close` has been called. -/
structure MrdPool where
  poolSize : ℕ
  object : MinObject
  closed : Bool

/-- `MRDPool.Size`: `uint64(p.poolConfig.PoolSize)`. -/
def MrdPool.size (p : MrdPool) : UInt64 := UInt64.ofNat p.poolSize

/-- `MrdInstance`. `mrdPool` refers to a pool of the state; `object` is
never nil, as `NewMrdInstance` and `SetMinObject` set it. -/
structure MrdInstance where
  mrdPool : Option ℕ
  object : MinObject
  refCount : Int
  inodeId : ℕ

/-- The instances of one file system, the pools they built, the shared
cache (its values are instances, by reference), and the instances an
`Insert` evicted whose `handleEviction` has not run yet. -/
structure State where
  mrdCache : Cache ℕ
  instances : List MrdInstance
  pools : List MrdPool
  evicted : List ℕ

/-- `getKey`: the inode ID in decimal. -/
def getKey (id : ℕ) : String := toString id

namespace State

/-- The pool an instance holds. -/
def pool? (s : State) (mi : MrdInstance) : Option MrdPool := mi.mrdPool.bind fun p => s.pools[p]?

/-- `MrdInstance.Size`: the size of its pool, `0` without one. -/
def size (s : State) (i : ℕ) : UInt64 :=
  match s.instances[i]?.bind s.pool? with
  | some p => p.size
  | none => 0

/-- The state of a file system with an inactive-MRD cache of `maxSize`. -/
def init (maxSize : UInt64) : State := ⟨newCache maxSize, [], [], []⟩

/-- Apply `f` to instance `i`. -/
def modify (s : State) (i : ℕ) (f : MrdInstance → MrdInstance) : State :=
  { s with instances := s.instances.modify i f }

end State

/-- The calls on instances, each with what the bucket answers when it
matters: whether `NewMRDPool` creates its first downloader. -/
inductive Action
  | newMrdInstance (object : MinObject) (inodeId : ℕ)
  | setMinObject (i : ℕ) (object : MinObject) (created : Bool)
  | recreateMrd (i : ℕ) (created : Bool)
  | read (i : ℕ) (created : Bool)
  | destroy (i : ℕ)
  | incrementRefCount (i : ℕ)
  | decrementRefCount (i : ℕ)
  | handleEviction (i : ℕ)

section Methods

-- `mrd-pool-size`, the pool size of large objects
variable (poolSize : ℕ)

/-- `closePoolWithTimeout`: the pool is closed; that runs in the
background changes nothing that is modelled here. -/
def closePoolWithTimeout (s : State) (p : Option ℕ) : State :=
  match p with
  | none => s
  | some p => { s with pools := s.pools.modify p fun q => { q with closed := true } }

/-- `closePool`. -/
def closePool (s : State) (i : ℕ) (mi : MrdInstance) : State :=
  closePoolWithTimeout (s.modify i fun mi => { mi with mrdPool := none }) mi.mrdPool

/-- `createAndSwapPool`: a new pool for `obj`, the old one closed. A
failed `NewMRDPool` changes nothing. -/
def createAndSwapPool (s : State) (i : ℕ) (mi : MrdInstance) (obj : MinObject) (created : Bool) :
    State :=
  if created then
    let s' := { s with pools := s.pools ++ [MrdPool.mk (determinePoolSize poolSize obj) obj false] }
    closePoolWithTimeout (s'.modify i fun mi => { mi with mrdPool := some s.pools.length, object := obj })
      mi.mrdPool
  else s

/-- `SetMinObject`: a new pool only when there is one and the generation
changed. -/
def setMinObject (s : State) (i : ℕ) (mi : MrdInstance) (minObj : MinObject) (created : Bool) :
    State :=
  if mi.mrdPool.isNone ∨ mi.object.generation = minObj.generation then
    s.modify i fun mi => { mi with object := minObj }
  else createAndSwapPool poolSize s i mi minObj created

/-- `RecreateMRD`. -/
def recreateMrd (s : State) (i : ℕ) (mi : MrdInstance) (created : Bool) : State :=
  createAndSwapPool poolSize s i mi mi.object created

/-- `ensureMRDPool`, the step of `Read` that can change the instance: a
pool for its object if it has none. -/
def ensureMrdPool (s : State) (i : ℕ) (mi : MrdInstance) (created : Bool) : State :=
  match mi.mrdPool with
  | some _ => s
  | none =>
    if created then
      { s with
        pools := s.pools ++ [MrdPool.mk (determinePoolSize poolSize mi.object) mi.object false]
        instances := s.instances.modify i fun mi => { mi with mrdPool := some s.pools.length } }
    else s

/-- `Destroy`: erase from the cache, close the pool. -/
def destroy (s : State) (i : ℕ) (mi : MrdInstance) : State :=
  closePool { s with mrdCache := (erase s.size s.mrdCache (getKey mi.inodeId)).1 } i mi

/-- `IncrementRefCount`: the first reader takes the instance out of the
cache. -/
def incrementRefCount (s : State) (i : ℕ) (mi : MrdInstance) : State :=
  let s' := s.modify i fun mi => { mi with refCount := mi.refCount + 1 }
  if mi.refCount + 1 = 1 then
    { s' with mrdCache := (erase s'.size s'.mrdCache (getKey mi.inodeId)).1 }
  else s'

/-- `handleEviction`: close the pool unless the instance was reopened or
re-added to the cache. -/
def handleEviction (s : State) (i : ℕ) (mi : MrdInstance) : State :=
  if 0 < mi.refCount then s
  else if lookUpWithoutChangingOrder s.mrdCache (getKey mi.inodeId) = some i then s
  else closePool s i mi

/-- `DecrementRefCount`: the last reader puts the instance in the cache;
what the `Insert` evicts waits for its `handleEviction`. An `Insert`
error closes the pool; `none` is the panic of `Insert`. -/
def decrementRefCount (s : State) (i : ℕ) (mi : MrdInstance) : Option State :=
  if mi.refCount ≤ 0 then some s
  else
    let s' := s.modify i fun mi => { mi with refCount := mi.refCount - 1 }
    if 0 < mi.refCount - 1 then some s'
    else
      match insert s'.size s'.mrdCache (getKey mi.inodeId) (some i) with
      | .error _ => some (closePool s' i mi)
      | .ok none => none
      | .ok (some (c, ev)) => some { s' with mrdCache := c, evicted := s'.evicted ++ ev }

/-- One call. A call on an instance that does not exist, or a
`handleEviction` that no `Insert` scheduled, is `none`. -/
def step (s : State) : Action → Option State
  | .newMrdInstance object inodeId =>
    some { s with instances := s.instances ++ [⟨none, object, 0, inodeId⟩] }
  | .setMinObject i object created =>
    s.instances[i]?.map fun mi => setMinObject poolSize s i mi object created
  | .recreateMrd i created => s.instances[i]?.map fun mi => recreateMrd poolSize s i mi created
  | .read i created => s.instances[i]?.map fun mi => ensureMrdPool poolSize s i mi created
  | .destroy i => s.instances[i]?.map fun mi => destroy s i mi
  | .incrementRefCount i => s.instances[i]?.map fun mi => incrementRefCount s i mi
  | .decrementRefCount i => s.instances[i]?.bind fun mi => decrementRefCount s i mi
  | .handleEviction i =>
    if i ∈ s.evicted then
      s.instances[i]?.map fun mi => handleEviction { s with evicted := s.evicted.erase i } i mi
    else none

end Methods

/-- Two inodes with objects of 1 MiB. `a` is read and closed, so its pool
of one downloader goes to the cache; a sync then gives `a` a new
generation of 1 GiB, and `SetMinObject` builds it a pool of four while
it sits in the cache; `a` is reopened; `b` is opened and read. -/
def regrownPool : List Action :=
  [.newMrdInstance ⟨"a", 1, 1048576⟩ 1, .newMrdInstance ⟨"b", 1, 1048576⟩ 2,
   .incrementRefCount 0, .read 0 true, .decrementRefCount 0,
   .setMinObject 0 ⟨"a", 2, 1073741824⟩ true,
   .incrementRefCount 0,
   .incrementRefCount 1, .read 1 true]

/-- With the default `mrd-pool-size` of 4 and `inactive-mrd-cache-size` of
1000: reopening `a` erases it at its new size 4 from a `currentSize` of
1, which wraps to `2^64 - 3` over an empty cache, and closing `b` then
inserts it, evicts it, and reads the back of the empty list. -/
theorem mrd_resize_wraps_and_panics :
    ∃ s, run (step 4) (State.init 1000) regrownPool = some s ∧
      s.mrdCache.currentSize = 18446744073709551613 ∧ s.mrdCache.entries = [] ∧
      ∃ mi, s.instances[1]? = some mi ∧ decrementRefCount s 1 mi = none :=
  ⟨_, rfl, rfl, rfl, _, rfl, rfl⟩

end Gcsx

end GcsFuse
