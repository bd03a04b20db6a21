import Mathlib.Data.Prod.Lex
import GcsFuse.Gcs.Bucket
/-!
# The stat cache

`internal/cache/metadata/stat_cache.go`: the records of objects and
folders by name that `fastStatBucket` answers `StatObject` and
`GetFolder` from. An entry holds a record, a folder, or neither, which
is a negative entry (the name does not exist), and a flag for the marker
of an implicit directory. `Insert` keeps an entry whose record is newer
(`shouldReplace`); every other insertion overwrites.

The cache is a bucket's view of the shared LRU, whose keys it prefixes
with the bucket's name. Here the LRU never evicts and its entries never
expire, so it is the map from keys to entries it holds; the move to the
front of a lookup changes nothing a later lookup sees.

Every operation is described by what it does to the entry of each name
(`entry_*`), and the proofs above this module use those lemmas only.
-/

namespace GcsFuse

namespace Metadata

open Gcs

/-- The version of a record: newer is a greater generation, then a
greater metageneration. -/
def version (o : Object) : ℕ ×ₗ ℕ := toLex (o.generation, o.metaGeneration)

/-- `entry`: `m` and `f` both `nil` is a negative entry. -/
structure Entry where
  m : Option Object
  f : Option ObjectName
  implicitDir : Bool
  deriving DecidableEq, Repr

/-- `shouldReplace`: should the record `m` replace the entry `existing`? -/
def shouldReplace (m : Object) (existing : Entry) : Bool :=
  match existing.m with
  | none => true
  | some e =>
    if m.generation ≠ e.generation then e.generation < m.generation
    else if m.metaGeneration ≠ e.metaGeneration then e.metaGeneration < m.metaGeneration
    else true

/-- `statCacheBucketView`. -/
structure StatCacheBucketView where
  sharedCache : AList (fun _ : ObjectName => Entry)
  bucketName : ObjectName

namespace StatCacheBucketView

variable (sc : StatCacheBucketView)

/-- `key`: `bucketName/objectName`, or the name alone when the bucket's
name is empty (a static mount). -/
def key (objectName : ObjectName) : ObjectName :=
  if sc.bucketName ≠ [] then sc.bucketName ++ [47] ++ objectName else objectName

/-- `sharedCache.Insert`, which never evicts here. -/
def put (name : ObjectName) (e : Entry) : StatCacheBucketView :=
  { sc with sharedCache := sc.sharedCache.insert name e }

/-- `sharedCacheLookup`: the entry of a name, which never expires here. -/
def entry (objectName : ObjectName) : Option Entry := sc.sharedCache.lookup (sc.key objectName)

/-- `Insert`: the record, unless there is a better entry. -/
def insert (name : ObjectName) (m : Object) : StatCacheBucketView :=
  if (sc.entry name).all (shouldReplace m) then sc.put (sc.key name) ⟨some m, none, false⟩ else sc

/-- `InsertImplicitDir`: the marker, unless there is an entry with a record. -/
def insertImplicitDir (objectName : ObjectName) : StatCacheBucketView :=
  if (sc.entry objectName).all fun e => e.m.isNone then sc.put (sc.key objectName) ⟨none, none, true⟩ else sc

/-- `AddNegativeEntry`. -/
def addNegativeEntry (objectName : ObjectName) : StatCacheBucketView :=
  sc.put (sc.key objectName) ⟨none, none, false⟩

/-- `AddNegativeEntryForFolder`: `entry{f: nil}` is the same negative
entry as `entry{m: nil}`. -/
def addNegativeEntryForFolder (folderName : ObjectName) : StatCacheBucketView :=
  sc.addNegativeEntry folderName

/-- `Erase`. -/
def erase (objectName : ObjectName) : StatCacheBucketView :=
  { sc with sharedCache := sc.sharedCache.erase (sc.key objectName) }

/-- `LookUp`: `none` is a miss, `some none` a negative entry; an implicit
directory's marker reads as a record with only the name. -/
def lookUp (objectName : ObjectName) : Option (Option Object) :=
  (sc.entry objectName).map fun e => if e.implicitDir then some ⟨0, 0, [], 0⟩ else e.m

/-- `LookUpFolder`. -/
def lookUpFolder (folderName : ObjectName) : Option (Option ObjectName) :=
  (sc.entry folderName).map (·.f)

/-- `InsertFolder`. -/
def insertFolder (name : ObjectName) : StatCacheBucketView :=
  sc.put (sc.key name) ⟨none, some name, false⟩

/-- `EraseEntriesWithGivenPrefix`: the keys under the prefix's key are
collected, then erased. -/
def eraseEntriesWithGivenPrefix (pre : ObjectName) : StatCacheBucketView :=
  let keysToDelete := sc.sharedCache.keys.filter fun k => (sc.key pre).isPrefixOf k
  { sc with sharedCache := keysToDelete.foldl (fun c k => c.erase k) sc.sharedCache }

/-! ## Keys -/

variable {sc}

theorem key_inj {a n : ObjectName} : sc.key a = sc.key n ↔ a = n := by
  unfold key
  split <;> simp

theorem key_isPrefixOf (p n : ObjectName) : (sc.key p).isPrefixOf (sc.key n) = p.isPrefixOf n := by
  unfold key
  split
  · rw [Bool.eq_iff_iff, List.isPrefixOf_iff_prefix, List.isPrefixOf_iff_prefix]
    exact List.prefix_append_right_inj _
  · rfl

/-! ## The entry of each name after each operation -/

variable (sc)

@[simp] theorem put_bucketName (k : ObjectName) (e : Entry) : (sc.put k e).bucketName = sc.bucketName := rfl

theorem entry_put (n k : ObjectName) (e : Entry) :
    (sc.put (sc.key n) e).entry k = if k = n then some e else sc.entry k := by
  unfold entry put
  split
  · subst k
    exact AList.lookup_insert _
  · exact AList.lookup_insert_ne (mt key_inj.1 ‹_›)

theorem entry_insert (n k : ObjectName) (m : Object) :
    (sc.insert n m).entry k =
      if k = n ∧ (sc.entry n).all (shouldReplace m) then some ⟨some m, none, false⟩ else sc.entry k := by
  unfold insert
  split
  · rw [entry_put]
    simp only [*, and_true]
  · exact (if_neg fun h => ‹¬_› h.2).symm

theorem entry_insertImplicitDir (n k : ObjectName) :
    (sc.insertImplicitDir n).entry k =
      if k = n ∧ (sc.entry n).all (fun e => e.m.isNone) then some ⟨none, none, true⟩ else sc.entry k := by
  unfold insertImplicitDir
  split
  · rw [entry_put]
    simp only [*, and_true]
  · exact (if_neg fun h => ‹¬_› h.2).symm

theorem entry_addNegativeEntry (n k : ObjectName) :
    (sc.addNegativeEntry n).entry k = if k = n then some ⟨none, none, false⟩ else sc.entry k :=
  entry_put sc n k _

theorem entry_insertFolder (n k : ObjectName) :
    (sc.insertFolder n).entry k = if k = n then some ⟨none, some n, false⟩ else sc.entry k :=
  entry_put sc n k _

theorem entry_erase (n k : ObjectName) : (sc.erase n).entry k = if k = n then none else sc.entry k := by
  unfold entry erase
  split
  · subst k
    exact AList.lookup_erase _ _
  · exact AList.lookup_erase_ne (mt key_inj.1 ‹_›)

/-- Erasing a list of keys one by one. -/
theorem lookup_foldl_erase (k : ObjectName) :
    ∀ (ks : List ObjectName) (c : AList (fun _ : ObjectName => Entry)),
      (ks.foldl (fun c k => c.erase k) c).lookup k = if k ∈ ks then none else c.lookup k
  | [], c => by simp
  | k' :: ks, c => by
    rw [List.foldl_cons, lookup_foldl_erase k ks]
    by_cases hk : k = k'
    · subst hk
      simp [AList.lookup_erase]
    · simp [hk, AList.lookup_erase_ne hk]

theorem entry_eraseEntriesWithGivenPrefix (p k : ObjectName) :
    (sc.eraseEntriesWithGivenPrefix p).entry k = if p.isPrefixOf k then none else sc.entry k := by
  have hkey : (sc.eraseEntriesWithGivenPrefix p).key k = sc.key k := rfl
  unfold entry
  rw [hkey]
  unfold eraseEntriesWithGivenPrefix
  rw [lookup_foldl_erase]
  simp only [List.mem_filter, key_isPrefixOf]
  by_cases hp : p.isPrefixOf k = true
  · -- a name under the prefix: erased if it was there at all
    simp only [hp, and_true, if_true]
    split
    · rfl
    · exact AList.lookup_eq_none.2 (mt AList.mem_keys.1 ‹_›)
  · simp [hp]

/-! ## Which record replaces which -/

theorem shouldReplace_iff {m : Object} {e : Entry} :
    shouldReplace m e = true ↔ ∀ o ∈ e.m, version o ≤ version m := by
  unfold shouldReplace
  cases e.m with
  | none => simp
  | some o =>
    simp only [Option.mem_def, Option.some.injEq, forall_eq', version, Prod.Lex.toLex_le_toLex]
    split_ifs <;> simp only [decide_eq_true_eq, true_iff] <;> omega

/-- The entry of `n` holds no record newer than `o`. -/
def NoNewer (n : ObjectName) (o : Object) : Prop := ∀ e, sc.entry n = some e → ∀ o' ∈ e.m, version o' ≤ version o

/-- The entry of `n` holds a record no older than `o`. -/
def NoOlder (n : ObjectName) (o : Object) : Prop :=
  ∃ e o', sc.entry n = some e ∧ e.m = some o' ∧ version o ≤ version o'

variable {sc}

/-- **An entry never gets older by `Insert`**: a record replaces it only
if it is at least as new. -/
theorem NoOlder.insert {n : ObjectName} {o : Object} (h : sc.NoOlder n o) (k : ObjectName) (m : Object) :
    (sc.insert k m).NoOlder n o := by
  obtain ⟨e, o', he, hm, hv⟩ := h
  rw [NoOlder, entry_insert]
  split
  · rename_i hk
    obtain ⟨rfl, hall⟩ := hk
    rw [he, Option.all_some, shouldReplace_iff] at hall
    exact ⟨_, m, rfl, rfl, hv.trans (hall o' (hm ▸ rfl))⟩
  · exact ⟨e, o', he, hm, hv⟩

theorem NoOlder.insertImplicitDir {n : ObjectName} {o : Object} (h : sc.NoOlder n o) (k : ObjectName) :
    (sc.insertImplicitDir k).NoOlder n o := by
  obtain ⟨e, o', he, hm, hv⟩ := h
  rw [NoOlder, entry_insertImplicitDir]
  split
  · -- a marker only replaces an entry with no record
    rename_i hk
    obtain ⟨rfl, hall⟩ := hk
    rw [he, Option.all_some, hm] at hall
    cases hall
  · exact ⟨e, o', he, hm, hv⟩

theorem NoNewer.insert {n : ObjectName} {o : Object} (h : sc.NoNewer n o) {k : ObjectName} {m : Object}
    (hm : k = n → version m ≤ version o) : (sc.insert k m).NoNewer n o := by
  intro e he o' ho'
  rw [entry_insert] at he
  split at he
  · rename_i hk
    cases he
    cases ho'
    exact hm hk.1.symm
  · exact h e he o' ho'

theorem NoNewer.insertImplicitDir {n : ObjectName} {o : Object} (h : sc.NoNewer n o) (k : ObjectName) :
    (sc.insertImplicitDir k).NoNewer n o := by
  intro e he o' ho'
  rw [entry_insertImplicitDir] at he
  split at he
  · cases he
    cases ho'
  · exact h e he o' ho'

theorem noNewer_erase (n : ObjectName) (o : Object) : (sc.erase n).NoNewer n o := by
  intro e he
  rw [entry_erase, if_pos rfl] at he
  cases he

/-- Inserting the record `o` where nothing newer is: the entry then holds it. -/
theorem NoNewer.insert_self {n : ObjectName} {o : Object} (h : sc.NoNewer n o) : (sc.insert n o).NoOlder n o := by
  have hall : (sc.entry n).all (shouldReplace o) = true := by
    cases he : sc.entry n with
    | none => rfl
    | some e =>
      rw [Option.all_some, shouldReplace_iff]
      exact h e he
  rw [NoOlder, entry_insert, if_pos ⟨rfl, hall⟩]
  exact ⟨_, o, rfl, rfl, le_rfl⟩

end StatCacheBucketView

end Metadata

end GcsFuse
