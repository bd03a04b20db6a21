import GcsFuse.Common.ElementList
import Mathlib.Data.List.AList
/-!
# lru.Cache — state and operations

The LRU cache of `internal/cache/lru/lru.go`: a `container/list` of
entries, most recently used at the front, an index from key to list
element, and a `currentSize` that is meant to be the sum of the entries'
`Size()`. Sizes are `uint64`, so `currentSize` is a `UInt64` and its
updates wrap as Go's do.

`Size()` is read at the moment an operation calls it. Every operation
therefore takes the size function `sz` it sees as an argument: a cache
of values whose size never changes passes the same `sz` to every call,
and the callers whose values grow in place (`FileInfo` of a sparse file,
`MrdInstance`) pass the one their shared state gives at that moment.

A Go panic (`evictOne` reading `Back()` of an empty list) is `none`.
-/

namespace GcsFuse

namespace Lru

open ElementList

/-- The errors `lru.go` predefines. -/
inductive LruError
  /-- `ErrInvalidEntrySize`: the entry is larger than `maxSize`. -/
  | invalidEntrySize
  /-- `ErrInvalidEntry`: a nil value. -/
  | invalidEntry
  /-- `ErrInvalidUpdateEntrySize`: an update that changes the size. -/
  | invalidUpdateEntrySize
  /-- `ErrEntryNotExist`. -/
  | entryNotExist
  deriving DecidableEq, Repr

/-- `entry`: what each element of the list holds. -/
structure Entry (V : Type) where
  key : String
  value : V

/-- `Cache`. An element of `entries` is a `list.Element` with its identity;
`index` maps a key to the identity of its element, and `nextId` is the
identity the next `PushFront` allocates. -/
structure Cache (V : Type) where
  maxSize : UInt64
  currentSize : UInt64
  entries : List (ℕ × Entry V)
  index : AList (fun _ : String => ℕ)
  nextId : ℕ

variable {V : Type}

/-- `NewCache`. -/
def newCache (maxSize : UInt64) : Cache V := ⟨maxSize, 0, [], ∅, 0⟩

namespace Cache

/-- `e, ok := c.index[key]` and the entry `e.Value` holds. On a cache the
invariant holds of, the indexed element is on the list. -/
def element (c : Cache V) (key : String) : Option (ℕ × Entry V) :=
  match c.index.lookup key with
  | none => none
  | some i => (get? c.entries i).map fun x => (i, x)

/-- `checkInvariants`, `true` where the Go code does not panic. -/
def checkInvariants (c : Cache V) : Bool :=
  0 < c.maxSize && c.currentSize ≤ c.maxSize && c.entries.length == c.index.keys.length &&
    c.entries.all fun e => c.index.lookup e.2.key == some e.1

end Cache

section Operations

variable (sz : V → UInt64)

/-- `evictOne`: drop the back element, `none` on an empty list. -/
def evictOne (c : Cache V) : Option (Cache V × V) :=
  match back c.entries with
  | none => none
  | some (i, x) =>
    some ({ c with
      currentSize := c.currentSize - sz x.value
      entries := remove c.entries i
      index := c.index.erase x.key }, x.value)

/-- The loop of `Insert`: evict until at or below `maxSize`, collecting
the evicted values. Each round removes an element, so `Insert` gives it
one more round than the list has elements: the last is the round that
finds the list empty. -/
def evictLoop : ℕ → Cache V → List V → Option (Cache V × List V)
  | 0, c, acc => if c.maxSize < c.currentSize then none else some (c, acc)
  | n + 1, c, acc =>
    if c.maxSize < c.currentSize then
      match evictOne sz c with
      | none => none
      | some (c', v) => evictLoop n c' (acc ++ [v])
    else some (c, acc)

/-- The body of `Insert` between its size check and its loop: overwrite
the entry of `key` and move it to the front, or push a new one. -/
def place (c : Cache V) (key : String) (v : V) : Cache V :=
  match c.element key with
  | some (i, x) =>
    { c with
      currentSize := c.currentSize - sz x.value + sz v
      entries := moveToFront (setValue c.entries i ⟨key, v⟩) i }
  | none =>
    { c with
      currentSize := c.currentSize + sz v
      entries := pushFront c.entries c.nextId ⟨key, v⟩
      index := c.index.insert key c.nextId
      nextId := c.nextId + 1 }

/-- `Insert`. An error leaves the cache as it was; `.ok none` is the panic
of `evictOne` on an empty list. -/
def insert (c : Cache V) (key : String) (value : Option V) :
    Except LruError (Option (Cache V × List V)) :=
  match value with
  | none => .error .invalidEntry
  | some v =>
    if c.maxSize < sz v then .error .invalidEntrySize
    else
      let c' := place sz c key v
      .ok (evictLoop sz (c'.entries.length + 1) c' [])

/-- `eraseInternal`. -/
def eraseInternal (c : Cache V) (key : String) : Cache V × Option V :=
  match c.element key with
  | none => (c, none)
  | some (i, x) =>
    ({ c with
      currentSize := c.currentSize - sz x.value
      index := c.index.erase key
      entries := remove c.entries i }, some x.value)

/-- `eraseKeys`. -/
def eraseKeys (c : Cache V) : List String → Cache V
  | [] => c
  | key :: keys => eraseKeys (eraseInternal sz c key).1 keys

/-- `Erase`. -/
def erase (c : Cache V) (key : String) : Cache V × Option V := eraseInternal sz c key

/-- `LookUp`: the value, made the most recently used. -/
def lookUp (c : Cache V) (key : String) : Cache V × Option V :=
  match c.element key with
  | none => (c, none)
  | some (i, x) => ({ c with entries := moveToFront c.entries i }, some x.value)

/-- `LookUpWithoutChangingOrder`. -/
def lookUpWithoutChangingOrder (c : Cache V) (key : String) : Option V :=
  (c.element key).map fun e => e.2.value

/-- `UpdateWithoutChangingOrder`. -/
def updateWithoutChangingOrder (c : Cache V) (key : String) (value : Option V) :
    Except LruError (Cache V) :=
  match value with
  | none => .error .invalidEntry
  | some v =>
    match c.element key with
    | none => .error .entryNotExist
    | some (i, x) =>
      if sz v ≠ sz x.value then .error .invalidUpdateEntrySize
      else .ok { c with entries := setValue c.entries i ⟨key, v⟩, index := c.index.insert key i }

/-- `EraseEntriesWithGivenPrefix`: the keys are collected under the read
lock and erased under the write lock. -/
def eraseEntriesWithGivenPrefix (c : Cache V) (pre : String) : Cache V :=
  let keysToDelete := c.index.keys.filter fun key => key.startsWith pre
  if keysToDelete.isEmpty then c else eraseKeys sz c keysToDelete

@[simp] theorem eraseInternal_maxSize (c : Cache V) (key : String) :
    (eraseInternal sz c key).1.maxSize = c.maxSize := by
  unfold eraseInternal
  split <;> rfl

@[simp] theorem eraseKeys_maxSize : ∀ (c : Cache V) (keys : List String),
    (eraseKeys sz c keys).maxSize = c.maxSize
  | _, [] => rfl
  | c, key :: keys => by rw [eraseKeys, eraseKeys_maxSize, eraseInternal_maxSize]

@[simp] theorem lookUp_maxSize (c : Cache V) (key : String) : (lookUp c key).1.maxSize = c.maxSize := by
  unfold lookUp
  split <;> rfl

theorem updateWithoutChangingOrder_maxSize {c c' : Cache V} {key : String} {value : Option V}
    (hu : updateWithoutChangingOrder sz c key value = .ok c') : c'.maxSize = c.maxSize := by
  unfold updateWithoutChangingOrder at hu
  split at hu
  · cases hu
  · split at hu
    · cases hu
    · split at hu
      · cases hu
      · rw [← Except.ok.inj hu]

@[simp] theorem eraseEntriesWithGivenPrefix_maxSize (c : Cache V) (pre : String) :
    (eraseEntriesWithGivenPrefix sz c pre).maxSize = c.maxSize := by
  unfold eraseEntriesWithGivenPrefix
  dsimp only
  split
  · rfl
  · exact eraseKeys_maxSize sz c _

/-- The calls a caller makes on a `Cache`, with their arguments. -/
inductive Op (V : Type)
  | insert (key : String) (value : Option V)
  | erase (key : String)
  | lookUp (key : String)
  | lookUpWithoutChangingOrder (key : String)
  | updateWithoutChangingOrder (key : String) (value : Option V)
  | eraseEntriesWithGivenPrefix (pre : String)

/-- The cache after one call, `none` if the call panicked. A call that
returns an error leaves the cache as it was. -/
def step (c : Cache V) : Op V → Option (Cache V)
  | .insert key value =>
    match insert sz c key value with
    | .error _ => some c
    | .ok r => r.map Prod.fst
  | .erase key => some (erase sz c key).1
  | .lookUp key => some (lookUp c key).1
  | .lookUpWithoutChangingOrder _ => some c
  | .updateWithoutChangingOrder key value =>
    match updateWithoutChangingOrder sz c key value with
    | .error _ => some c
    | .ok c' => some c'
  | .eraseEntriesWithGivenPrefix pre => some (eraseEntriesWithGivenPrefix sz c pre)

end Operations

/-- `UpdateSize`: the size of an entry grew by `sizeDelta`; eviction waits
for the next `Insert`. -/
def updateSize (c : Cache V) (key : String) (sizeDelta : UInt64) : Except LruError (Cache V) :=
  match c.index.lookup key with
  | none => .error .entryNotExist
  | some _ => .ok { c with currentSize := c.currentSize + sizeDelta }

end Lru

end GcsFuse
