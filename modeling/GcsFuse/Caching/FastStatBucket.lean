import GcsFuse.Common.Run
import GcsFuse.Metadata.StatCache
/-!
# The fast stat bucket

`internal/storage/caching/fast_stat_bucket.go`: a bucket that answers
`StatObject` and `GetFolder` from the stat cache where it can, and keeps
the cache in step with what it does to the bucket it wraps. A call that
writes one object throws the name's entry away even when it fails, then
records what the call returned; a successful delete leaves a negative
entry; a listing records every object it saw. A `StatObject` that misses
the cache asks the wrapped bucket, whose not-found answer leaves a
negative entry and whose other errors leave the cache as it was.

The client is the only writer of the wrapped bucket, the cache never
evicts, and its entries never expire. Then `Coherent` (every entry that
is not an implicit directory's marker says what the bucket holds) is
kept by every call on the objects of a flat bucket
(`Coherent.step`, `Coherent.run`). `RenameFolder` does not keep it: it
erases the entries under the folder's old name only, so a negative
entry under the new name survives the objects that arrive there
(`rename_folder_keeps_negative_entry`).
-/

namespace GcsFuse

namespace Caching

open Gcs Metadata

/-- The errors of the calls: the wrapped bucket's, or a miss where only
the cache may answer. -/
inductive FastStatError
  | gcs (e : GcsError)
  | cacheMiss
  deriving DecidableEq, Repr

/-- `gcs.StatObjectRequest`: the fields `StatObject` reads. -/
structure StatObjectRequest where
  name : ObjectName
  forceFetchFromGcs : Bool
  returnExtendedObjectAttributes : Bool
  fetchOnlyFromCache : Bool

/-- `fastStatBucket`, with the bucket it wraps. The clock and the TTLs
are left out: entries never expire here. `statFails` holds the names
whose wrapped `StatObject` fails with an error other than not-found, as
the service or the network answer it. -/
structure FastStatBucket where
  cache : StatCacheBucketView
  wrapped : Remote
  isTypeCacheDeprecated : Bool
  implicitDir : Bool
  statFails : ObjectName → Bool

namespace FastStatBucket

variable (b : FastStatBucket)

/-! ## Helpers -/

/-- The bucket after a wrapped call on objects: a call that fails
changes nothing. -/
def call (r : Except GcsError Bucket) : FastStatBucket :=
  match r with
  | .ok bk => { b with wrapped := { b.wrapped with bucket := bk } }
  | .error _ => b

/-- The bucket after a wrapped call on folders. -/
def callRemote (r : Except GcsError Remote) : FastStatBucket :=
  match r with
  | .ok w => { b with wrapped := w }
  | .error _ => b

/-- The record a wrapped call on objects returns: the object it wrote. -/
def objectOf (r : Except GcsError Bucket) (name : ObjectName) : Except GcsError Object :=
  r.bind fun bk => (bk.get name).elim (.error .notFound) .ok

/-- `insertMultipleMinObjects`. -/
def insertMultipleMinObjects (minObjs : List (ObjectName × Object)) : FastStatBucket :=
  { b with cache := minObjs.foldl (fun c o => c.insert o.1 o.2) b.cache }

/-- `insert` and `insertMinObject`: one record. -/
def insert (name : ObjectName) (o : Object) : FastStatBucket := b.insertMultipleMinObjects [(name, o)]

/-- `insertListing`: the listed directory's marker where the listing has
contents but not the directory's own object, the objects, and with
implicit directories the markers of the collapsed runs. -/
def insertListing (listing : List (ObjectName × Object) × List ObjectName) (dirName : ObjectName) :
    FastStatBucket :=
  let dirHasContents := listing.1 ≠ [] ∨ listing.2 ≠ []
  let isDirInListing := listing.1.head?.map Prod.fst = some dirName
  let c := if b.implicitDir ∧ dirHasContents ∧ ¬isDirInListing then b.cache.insertImplicitDir dirName
    else b.cache
  let c := listing.1.foldl (fun c o => c.insert o.1 o.2) c
  if !b.implicitDir then { b with cache := c }
  else { b with cache := listing.2.foldl (fun c p => if p.getLast? = some 47 then c.insertImplicitDir p else c) c }

/-- `insertHierarchicalListing`: the objects but those named like
folders, and a folder for each collapsed run. -/
def insertHierarchicalListing (listing : List (ObjectName × Object) × List ObjectName) : FastStatBucket :=
  let c := listing.1.foldl (fun c o => if o.1.getLast? = some 47 then c else c.insert o.1 o.2) b.cache
  { b with cache := listing.2.foldl (fun c p => if p.getLast? = some 47 then c.insertFolder p else c) c }

/-- `insertFolder`. -/
def insertFolder (name : ObjectName) : FastStatBucket := { b with cache := b.cache.insertFolder name }

/-- `addNegativeEntry`. -/
def addNegativeEntry (name : ObjectName) : FastStatBucket := { b with cache := b.cache.addNegativeEntry name }

/-- `addNegativeEntryForFolder`. -/
def addNegativeEntryForFolder (name : ObjectName) : FastStatBucket :=
  { b with cache := b.cache.addNegativeEntryForFolder name }

/-- `invalidate`. -/
def invalidate (name : ObjectName) : FastStatBucket := { b with cache := b.cache.erase name }

/-- `eraseEntriesWithGivenPrefix`. -/
def eraseEntriesWithGivenPrefix (folderName : ObjectName) : FastStatBucket :=
  { b with cache := b.cache.eraseEntriesWithGivenPrefix folderName }

/-- The end of a call that writes one object: the record it returned,
if it succeeded. -/
def recordResult (name : ObjectName) (o : Except GcsError Object) : FastStatBucket :=
  match o with
  | .ok o => b.insert name o
  | .error _ => b

/-- The pattern of every call that writes one object: throw away the
name's entry even if there was an error, then record the new object. -/
def invalidateThenInsert (r : Except GcsError Bucket) (name : ObjectName) :
    FastStatBucket × Except GcsError Object :=
  (((b.call r).invalidate name).recordResult name (objectOf r name), objectOf r name)

/-! ## The calls -/

/-- `CreateObject`. -/
def createObject (name : ObjectName) (contents : List UInt8) (doesNotExist : Bool) :
    FastStatBucket × Except GcsError Object :=
  b.invalidateThenInsert (b.wrapped.bucket.createObject name contents doesNotExist) name

/-- `CreateObjectChunkWriter`, then `FinalizeUpload` of its writer. -/
def finalizeUpload (name : ObjectName) (contents : List UInt8) (doesNotExist : Bool) :
    FastStatBucket × Except GcsError Object :=
  b.invalidateThenInsert (b.wrapped.bucket.createObject name contents doesNotExist) name

/-- `FlushPendingWrites` of an appendable writer: the bytes so far
become the object. -/
def flushPendingWrites (name : ObjectName) (contents : List UInt8) :
    FastStatBucket × Except GcsError Object :=
  b.invalidateThenInsert (b.wrapped.bucket.createObject name contents false) name

/-- `CopyObject`. -/
def copyObject (src : ObjectName) (srcGeneration : ℕ) (srcMetaGeneration : Option ℕ) (dst : ObjectName) :
    FastStatBucket × Except GcsError Object :=
  b.invalidateThenInsert (b.wrapped.bucket.copyObject src srcGeneration srcMetaGeneration dst) dst

/-- `ComposeObjects`. -/
def composeObjects (dst : ObjectName) (sources : List ObjectName) : FastStatBucket × Except GcsError Object :=
  b.invalidateThenInsert (b.wrapped.bucket.composeObjects dst sources) dst

/-- `UpdateObject`. -/
def updateObject (name : ObjectName) (generation : ℕ) (metaGeneration : Option ℕ) :
    FastStatBucket × Except GcsError Object :=
  b.invalidateThenInsert (b.wrapped.bucket.updateObject name generation metaGeneration) name

/-- The cache part of `DeleteObject`, once the wrapped call returned:
a negative entry on success, and the entry thrown away on a
precondition or not-found error; another error leaves it. -/
def deleteObjectCache (name : ObjectName) (err : Except GcsError Unit) : FastStatBucket :=
  match err with
  | .ok () => b.addNegativeEntry name
  | .error e => if e = .precondition ∨ e = .notFound then b.invalidate name else b

/-- `DeleteObject`; with `OnlyDeleteFromCache`, the negative entry alone. -/
def deleteObject (name : ObjectName) (generation : ℕ) (metaGeneration : Option ℕ)
    (onlyDeleteFromCache : Bool) : FastStatBucket × Except GcsError Unit :=
  if onlyDeleteFromCache then (b.addNegativeEntry name, .ok ())
  else
    let r := b.wrapped.bucket.deleteObject name generation metaGeneration
    let err : Except GcsError Unit := r.map fun _ => ()
    ((b.call r).deleteObjectCache name err, err)

/-- `MoveObject`: both names' entries are thrown away. -/
def moveObject (src : ObjectName) (srcGeneration : ℕ) (srcMetaGeneration : Option ℕ) (dst : ObjectName) :
    FastStatBucket × Except GcsError Object :=
  let r := b.wrapped.bucket.moveObject src srcGeneration srcMetaGeneration dst
  ((((b.call r).invalidate src).invalidate dst).recordResult dst (objectOf r dst), objectOf r dst)

/-- `StatObjectFromGcs`: the wrapped `StatObject`. A not-found error
leaves a negative entry, any other error leaves the cache as it is, and
a record is inserted. -/
def statObjectFromGcs (name : ObjectName) : FastStatBucket × Except FastStatError Object :=
  if b.statFails name then (b, .error (.gcs .unavailable))
  else
    match b.wrapped.bucket.get name with
    | none => (b.addNegativeEntry name, .error (.gcs .notFound))
    | some m => (b.insert name m, .ok m)

/-- `StatObject`; `none` is the panic on a request for extended
attributes that may come from the cache. -/
def statObject (req : StatObjectRequest) : Option (FastStatBucket × Except FastStatError Object) :=
  if !req.forceFetchFromGcs ∧ req.returnExtendedObjectAttributes then none
  else if req.forceFetchFromGcs then some (b.statObjectFromGcs req.name)
  else
    match b.cache.lookUp req.name with
    | some none => some (b, .error (.gcs .notFound))
    | some (some m) => some (b, .ok m)
    | none => if req.fetchOnlyFromCache then some (b, .error .cacheMiss) else some (b.statObjectFromGcs req.name)

/-- The cache part of `ListObjects`, once the wrapped call returned. -/
def insertListed (pre : ObjectName) (listing : List (ObjectName × Object) × List ObjectName) :
    FastStatBucket :=
  if b.wrapped.hierarchical then b.insertHierarchicalListing listing
  else if b.isTypeCacheDeprecated then b.insertListing listing pre
  else b.insertMultipleMinObjects listing.1

/-- `ListObjects` of a prefix, with or without the delimiter `/`. -/
def listObjects (pre : ObjectName) (delimiter : Bool) :
    FastStatBucket × (List (ObjectName × Object) × List ObjectName) :=
  let listing := b.wrapped.bucket.listObjects pre delimiter
  (b.insertListed pre listing, listing)

/-- `CreateFolder`. -/
def createFolder (folderName : ObjectName) : FastStatBucket × Except GcsError ObjectName :=
  let r := b.wrapped.createFolder folderName
  let t := (b.callRemote r).invalidate folderName
  match r with
  | .ok _ => (t.insertFolder folderName, .ok folderName)
  | .error e => (t, .error e)

/-- `DeleteFolder`. -/
def deleteFolder (folderName : ObjectName) : FastStatBucket × Except GcsError Unit :=
  match b.wrapped.deleteFolder folderName with
  | .ok w => ((b.callRemote (.ok w)).addNegativeEntryForFolder folderName, .ok ())
  | .error e => (b.invalidate folderName, .error e)

/-- `getFolderFromGCS`. -/
def getFolderFromGCS (name : ObjectName) : FastStatBucket × Except FastStatError ObjectName :=
  match b.wrapped.getFolder name with
  | .ok f => (b.insertFolder f, .ok f)
  | .error e => (if e = .notFound then b.addNegativeEntryForFolder name else b, .error (.gcs e))

/-- `GetFolder`. -/
def getFolder (name : ObjectName) (fetchOnlyFromCache : Bool) : FastStatBucket × Except FastStatError ObjectName :=
  match b.cache.lookUpFolder name with
  | some none => (b, .error (.gcs .notFound))
  | some (some f) => (b, .ok f)
  | none => if fetchOnlyFromCache then (b, .error .cacheMiss) else b.getFolderFromGCS name

/-- `RenameFolder`: on success, the entries under the old name go and the
new folder is recorded. -/
def renameFolder (folderName destinationFolderId : ObjectName) : FastStatBucket × Except GcsError ObjectName :=
  match b.wrapped.renameFolder folderName destinationFolderId with
  | .ok w =>
    (((b.callRemote (.ok w)).eraseEntriesWithGivenPrefix folderName).insertFolder destinationFolderId,
      .ok destinationFolderId)
  | .error e => (b, .error e)

/-- The calls of one client. -/
inductive Call
  | createObject (name : ObjectName) (contents : List UInt8) (doesNotExist : Bool)
  | finalizeUpload (name : ObjectName) (contents : List UInt8) (doesNotExist : Bool)
  | flushPendingWrites (name : ObjectName) (contents : List UInt8)
  | copyObject (src : ObjectName) (srcGeneration : ℕ) (srcMetaGeneration : Option ℕ) (dst : ObjectName)
  | composeObjects (dst : ObjectName) (sources : List ObjectName)
  | updateObject (name : ObjectName) (generation : ℕ) (metaGeneration : Option ℕ)
  | deleteObject (name : ObjectName) (generation : ℕ) (metaGeneration : Option ℕ) (onlyDeleteFromCache : Bool)
  | moveObject (src : ObjectName) (srcGeneration : ℕ) (srcMetaGeneration : Option ℕ) (dst : ObjectName)
  | statObject (req : StatObjectRequest)
  | listObjects (pre : ObjectName) (delimiter : Bool)
  | createFolder (folderName : ObjectName)
  | deleteFolder (folderName : ObjectName)
  | getFolder (name : ObjectName) (fetchOnlyFromCache : Bool)
  | renameFolder (folderName destinationFolderId : ObjectName)

/-- One call, and the bucket it leaves; `none` is a panic. -/
def step : Call → Option FastStatBucket
  | .createObject name contents doesNotExist => some (b.createObject name contents doesNotExist).1
  | .finalizeUpload name contents doesNotExist => some (b.finalizeUpload name contents doesNotExist).1
  | .flushPendingWrites name contents => some (b.flushPendingWrites name contents).1
  | .copyObject src g m dst => some (b.copyObject src g m dst).1
  | .composeObjects dst sources => some (b.composeObjects dst sources).1
  | .updateObject name g m => some (b.updateObject name g m).1
  | .deleteObject name g m onlyDeleteFromCache => some (b.deleteObject name g m onlyDeleteFromCache).1
  | .moveObject src g m dst => some (b.moveObject src g m dst).1
  | .statObject req => (b.statObject req).map Prod.fst
  | .listObjects pre delimiter => some (b.listObjects pre delimiter).1
  | .createFolder folderName => some (b.createFolder folderName).1
  | .deleteFolder folderName => some (b.deleteFolder folderName).1
  | .getFolder name fetchOnlyFromCache => some (b.getFolder name fetchOnlyFromCache).1
  | .renameFolder folderName destinationFolderId => some (b.renameFolder folderName destinationFolderId).1

/-- The calls on the objects of a bucket that go to the bucket: all but
those on folders and a delete from the cache alone. -/
def Call.onObjects : Call → Bool
  | .deleteObject _ _ _ onlyDeleteFromCache => !onlyDeleteFromCache
  | .createFolder _ | .deleteFolder _ | .getFolder _ _ | .renameFolder _ _ => false
  | _ => true

end FastStatBucket

/-! ## Coherence -/

/-- The cache agrees with the bucket: each entry that is not an implicit
directory's marker holds what the bucket holds at its name, a folder's
entry and a negative entry both reading as a name that is not there. -/
def Agrees (c : StatCacheBucketView) (bk : Bucket) : Prop :=
  ∀ n e, c.entry n = some e → e.implicitDir = false → e.m = bk.get n

section Agrees

variable {c : StatCacheBucketView} {bk : Bucket}

theorem Agrees.insert (h : Agrees c bk) {n : ObjectName} {o : Object} (hn : bk.get n = some o) :
    Agrees (c.insert n o) bk := by
  intro k e hk himp
  rw [StatCacheBucketView.entry_insert] at hk
  split at hk
  · rename_i hkn
    cases hk
    rw [hkn.1, hn]
  · exact h k e hk himp

theorem Agrees.insertImplicitDir (h : Agrees c bk) (n : ObjectName) : Agrees (c.insertImplicitDir n) bk := by
  intro k e hk himp
  rw [StatCacheBucketView.entry_insertImplicitDir] at hk
  split at hk
  · cases hk
    cases himp
  · exact h k e hk himp

/-- A negative entry for a name the bucket, changed there at most, no
longer holds. -/
theorem Agrees.addNegativeEntry (h : Agrees c bk) {bk' : Bucket} {n : ObjectName}
    (hf : Bucket.Frame bk bk' [n]) (hn : bk'.get n = none) : Agrees (c.addNegativeEntry n) bk' := by
  intro k e hk himp
  rw [StatCacheBucketView.entry_addNegativeEntry] at hk
  split at hk
  · subst k
    cases hk
    exact hn.symm
  · rename_i hkn
    rw [hf k fun hm => hkn (List.mem_singleton.1 hm)]
    exact h k e hk himp

theorem Agrees.erase (h : Agrees c bk) (n : ObjectName) : Agrees (c.erase n) bk := by
  intro k e hk himp
  rw [StatCacheBucketView.entry_erase] at hk
  split at hk
  · cases hk
  · exact h k e hk himp

/-- **Throwing away the names a call wrote.** A call that changed the
bucket at most at `ns`, followed by the erasure of their entries. -/
theorem Agrees.frame (h : Agrees c bk) {bk' : Bucket} {ns : List ObjectName} (hf : Bucket.Frame bk bk' ns) :
    Agrees (ns.foldl (fun c n => c.erase n) c) bk' := by
  intro k e hk himp
  -- the entries of `ns` are gone; elsewhere the cache and the bucket are as they were
  have hkeep : ∀ (ns : List ObjectName) (c : StatCacheBucketView),
      (ns.foldl (fun c n => c.erase n) c).entry k = some e → k ∉ ns ∧ c.entry k = some e := by
    intro ns
    induction ns with
    | nil => exact fun c hc => ⟨List.not_mem_nil, hc⟩
    | cons n ns ih =>
      intro c hc
      obtain ⟨hk, hc⟩ := ih _ hc
      rw [StatCacheBucketView.entry_erase] at hc
      split at hc
      · cases hc
      · rename_i hkn
        exact ⟨fun hm => (List.mem_cons.1 hm).elim hkn hk, hc⟩
  obtain ⟨hkns, hk⟩ := hkeep ns c hk
  rw [hf k hkns]
  exact h k e hk himp

end Agrees

namespace FastStatBucket

variable {b : FastStatBucket}

/-- The cache agrees with the wrapped bucket. -/
def Coherent (b : FastStatBucket) : Prop := Agrees b.cache b.wrapped.bucket

@[simp] theorem call_cache (r : Except GcsError Bucket) : (b.call r).cache = b.cache := by
  cases r <;> rfl

theorem call_frame {r : Except GcsError Bucket} {ns : List ObjectName}
    (hf : ∀ bk, r = .ok bk → Bucket.Frame b.wrapped.bucket bk ns) :
    Bucket.Frame b.wrapped.bucket (b.call r).wrapped.bucket ns := by
  cases r with
  | ok bk => exact hf bk rfl
  | error e => exact fun _ _ => rfl

theorem get_of_objectOf {r : Except GcsError Bucket} {name : ObjectName} {o : Object}
    (h : objectOf r name = .ok o) : (b.call r).wrapped.bucket.get name = some o := by
  cases r with
  | error e => cases h
  | ok bk =>
    simp only [objectOf, Except.bind] at h
    cases hg : bk.get name with
    | none => rw [hg] at h; cases h
    | some o' => rw [hg] at h; cases h; exact hg

theorem Coherent.recordResult (h : b.Coherent) {name : ObjectName} {o : Except GcsError Object}
    (ho : ∀ m, o = .ok m → b.wrapped.bucket.get name = some m) : (b.recordResult name o).Coherent := by
  cases o with
  | error e => exact h
  | ok m => exact h.insert (ho m rfl)

/-- **A call that writes one object** keeps the cache coherent: the
bucket changed at `name` at most, whose entry is thrown away before the
returned record goes in. -/
theorem Coherent.invalidateThenInsert (h : b.Coherent) {r : Except GcsError Bucket} {name : ObjectName}
    (hf : ∀ bk, r = .ok bk → Bucket.Frame b.wrapped.bucket bk [name]) :
    (b.invalidateThenInsert r name).1.Coherent := by
  have hinv : ((b.call r).invalidate name).Coherent := by
    have := (show Agrees (b.call r).cache b.wrapped.bucket by rw [call_cache]; exact h).frame (call_frame hf)
    exact this
  exact hinv.recordResult fun m hm => get_of_objectOf hm

theorem Coherent.deleteObject (h : b.Coherent) (name : ObjectName) (generation : ℕ)
    (metaGeneration : Option ℕ) : (b.deleteObject name generation metaGeneration false).1.Coherent := by
  unfold FastStatBucket.deleteObject
  cases hr : b.wrapped.bucket.deleteObject name generation metaGeneration with
  | ok bk =>
    -- the object is gone: a negative entry says so
    obtain rfl := Bucket.deleteObject_eq_ok hr
    exact h.addNegativeEntry (Bucket.deleteObject_frame hr) (Bucket.get_remove name)
  | error e =>
    -- the bucket is as it was; the entry may be thrown away
    show (if e = .precondition ∨ e = .notFound then b.invalidate name else b).Coherent
    split
    · exact Agrees.erase h name
    · exact h

theorem Coherent.moveObject (h : b.Coherent) (src : ObjectName) (srcGeneration : ℕ)
    (srcMetaGeneration : Option ℕ) (dst : ObjectName) :
    (b.moveObject src srcGeneration srcMetaGeneration dst).1.Coherent := by
  have hinv : (((b.call (b.wrapped.bucket.moveObject src srcGeneration srcMetaGeneration dst)).invalidate
      src).invalidate dst).Coherent := by
    have hf : Bucket.Frame b.wrapped.bucket
        (b.call (b.wrapped.bucket.moveObject src srcGeneration srcMetaGeneration dst)).wrapped.bucket [src, dst] :=
      call_frame fun _ hr => Bucket.moveObject_frame hr
    have := (show Agrees (b.call (b.wrapped.bucket.moveObject src srcGeneration srcMetaGeneration dst)).cache
      b.wrapped.bucket by rw [call_cache]; exact h).frame hf
    exact this
  exact hinv.recordResult fun m hm => get_of_objectOf hm

theorem Coherent.statObjectFromGcs (h : b.Coherent) (name : ObjectName) : (b.statObjectFromGcs name).1.Coherent := by
  unfold FastStatBucket.statObjectFromGcs
  split
  · exact h
  · split
    · exact h.addNegativeEntry (fun _ _ => rfl) ‹_›
    · exact h.insert ‹_›

/-- What `StatObject` can do to the bucket: nothing, or what
`StatObjectFromGcs` does. -/
theorem statObject_cases {req : StatObjectRequest} {t : FastStatBucket} {a : Except FastStatError Object}
    (hs : b.statObject req = some (t, a)) : t = b ∨ t = (b.statObjectFromGcs req.name).1 := by
  unfold FastStatBucket.statObject at hs
  by_cases hp : (!req.forceFetchFromGcs) = true ∧ req.returnExtendedObjectAttributes = true
  · rw [if_pos hp] at hs
    cases hs
  rw [if_neg hp] at hs
  by_cases hf : req.forceFetchFromGcs = true
  · rw [if_pos hf] at hs
    exact .inr (congrArg Prod.fst (Option.some.inj hs)).symm
  rw [if_neg hf] at hs
  -- the cache answers, or misses
  cases hl : b.cache.lookUp req.name with
  | some m =>
    rw [hl] at hs
    cases m <;> exact .inl (congrArg Prod.fst (Option.some.inj hs)).symm
  | none =>
    rw [hl] at hs
    by_cases ho : req.fetchOnlyFromCache = true
    · rw [if_pos ho] at hs
      exact .inl (congrArg Prod.fst (Option.some.inj hs)).symm
    · rw [if_neg ho] at hs
      exact .inr (congrArg Prod.fst (Option.some.inj hs)).symm

theorem Coherent.statObject (h : b.Coherent) {req : StatObjectRequest} {t : FastStatBucket}
    {a : Except FastStatError Object} (hs : b.statObject req = some (t, a)) : t.Coherent := by
  rcases statObject_cases hs with rfl | rfl
  · exact h
  · exact h.statObjectFromGcs _

@[simp] theorem call_hierarchical (r : Except GcsError Bucket) :
    (b.call r).wrapped.hierarchical = b.wrapped.hierarchical := by
  cases r <;> rfl

@[simp] theorem recordResult_wrapped (name : ObjectName) (o : Except GcsError Object) :
    (b.recordResult name o).wrapped = b.wrapped := by
  cases o <;> rfl

@[simp] theorem invalidate_wrapped (name : ObjectName) : (b.invalidate name).wrapped = b.wrapped := rfl

@[simp] theorem addNegativeEntry_wrapped (name : ObjectName) : (b.addNegativeEntry name).wrapped = b.wrapped := rfl

@[simp] theorem deleteObjectCache_wrapped (name : ObjectName) (err : Except GcsError Unit) :
    (b.deleteObjectCache name err).wrapped = b.wrapped := by
  unfold deleteObjectCache
  split
  · rfl
  · split <;> rfl

@[simp] theorem statObjectFromGcs_wrapped (name : ObjectName) :
    (b.statObjectFromGcs name).1.wrapped = b.wrapped := by
  unfold FastStatBucket.statObjectFromGcs
  split
  · rfl
  · split <;> rfl

@[simp] theorem insertListed_wrapped (pre : ObjectName) (listing : List (ObjectName × Object) × List ObjectName) :
    (b.insertListed pre listing).wrapped = b.wrapped := by
  unfold insertListed insertHierarchicalListing insertListing insertMultipleMinObjects
  dsimp only
  split_ifs <;> rfl

/-- **What a listing does to the cache of a flat bucket**: markers of
implicit directories and the listed records, so a property of caches
that both keep survives it. -/
theorem insertListed_induction (hflat : b.wrapped.hierarchical = false) {pre : ObjectName}
    {listing : List (ObjectName × Object) × List ObjectName} {P : StatCacheBucketView → Prop} (h : P b.cache)
    (himp : ∀ c k, P c → P (c.insertImplicitDir k))
    (hins : ∀ c p, p ∈ listing.1 → P c → P (c.insert p.1 p.2)) : P (b.insertListed pre listing).cache := by
  have hrec : ∀ l : List (ObjectName × Object), (∀ p ∈ l, p ∈ listing.1) →
      ∀ c, P c → P (l.foldl (fun c o => c.insert o.1 o.2) c) := by
    intro l
    induction l with
    | nil => exact fun _ c hc => hc
    | cons p l ih =>
      intro hl c hc
      exact ih (fun q hq => hl q (List.mem_cons_of_mem p hq)) _ (hins c p (hl p List.mem_cons_self) hc)
  have hmarks : ∀ (l : List ObjectName) c, P c →
      P (l.foldl (fun c p => if p.getLast? = some 47 then c.insertImplicitDir p else c) c) := by
    intro l
    induction l with
    | nil => exact fun c hc => hc
    | cons p l ih =>
      intro c hc
      rw [List.foldl_cons]
      apply ih
      split
      · exact himp c p hc
      · exact hc
  have hdir : ∀ (q : Prop) [Decidable q], P (if q then b.cache.insertImplicitDir pre else b.cache) := by
    intro q _
    split
    · exact himp _ pre h
    · exact h
  unfold FastStatBucket.insertListed
  rw [hflat, if_neg Bool.false_ne_true]
  split
  · -- the directory's marker, then the records, then the markers of the runs
    unfold FastStatBucket.insertListing
    dsimp only
    split
    · exact hrec _ (fun _ hp => hp) _ (hdir _)
    · exact hmarks _ _ (hrec _ (fun _ hp => hp) _ (hdir _))
  · exact hrec _ (fun _ hp => hp) _ h

/-- On a flat bucket a listing records what the bucket holds, and the
markers of implicit directories. -/
theorem Coherent.insertListed (h : b.Coherent) (hflat : b.wrapped.hierarchical = false) (pre : ObjectName)
    {delimiter : Bool} : (b.insertListed pre (b.wrapped.bucket.listObjects pre delimiter)).Coherent := by
  have hw := insertListed_wrapped (b := b) pre (b.wrapped.bucket.listObjects pre delimiter)
  unfold Coherent
  rw [hw]
  exact insertListed_induction (P := fun c => Agrees c b.wrapped.bucket) hflat h
    (fun _ k hc => Agrees.insertImplicitDir hc k) fun _ _ hp hc => Agrees.insert hc (Bucket.get_of_mem_listObjects hp)

/-- The calls on objects leave the namespace as it was. -/
theorem step_hierarchical {c : Call} (hc : c.onObjects = true) {t : FastStatBucket} (hs : b.step c = some t) :
    t.wrapped.hierarchical = b.wrapped.hierarchical := by
  cases c with
  | deleteObject name g m onlyDeleteFromCache =>
    cases onlyDeleteFromCache
    · cases hs
      simp [FastStatBucket.deleteObject]
    · cases hc
  | statObject req =>
    simp only [step, Option.map_eq_some_iff] at hs
    obtain ⟨⟨t', a⟩, hs, rfl⟩ := hs
    rcases statObject_cases hs with rfl | rfl
    · rfl
    · simp
  | createFolder | deleteFolder | getFolder | renameFolder => cases hc
  | _ => cases hs; simp [createObject, finalizeUpload, flushPendingWrites, copyObject, composeObjects,
      updateObject, moveObject, invalidateThenInsert, listObjects]

/-- **One call on objects keeps the cache coherent.** -/
theorem Coherent.step (h : b.Coherent) (hflat : b.wrapped.hierarchical = false) {c : Call}
    (hc : c.onObjects = true) {t : FastStatBucket} (hs : b.step c = some t) : t.Coherent := by
  have hframe := fun name (r : Except GcsError Bucket) (hf : ∀ bk, r = .ok bk → Bucket.Frame b.wrapped.bucket bk [name]) =>
    h.invalidateThenInsert hf
  cases c with
  | createObject name contents doesNotExist =>
    cases hs; exact hframe _ _ fun _ hr => Bucket.createObject_frame hr
  | finalizeUpload name contents doesNotExist =>
    cases hs; exact hframe _ _ fun _ hr => Bucket.createObject_frame hr
  | flushPendingWrites name contents =>
    cases hs; exact hframe _ _ fun _ hr => Bucket.createObject_frame hr
  | copyObject src g m dst =>
    cases hs; exact hframe _ _ fun _ hr => Bucket.copyObject_frame hr
  | composeObjects dst sources =>
    cases hs; exact hframe _ _ fun _ hr => Bucket.composeObjects_frame hr
  | updateObject name g m =>
    cases hs; exact hframe _ _ fun _ hr => Bucket.updateObject_frame hr
  | deleteObject name g m onlyDeleteFromCache =>
    cases onlyDeleteFromCache
    · cases hs; exact h.deleteObject name g m
    · cases hc
  | moveObject src g m dst => cases hs; exact h.moveObject src g m dst
  | statObject req =>
    simp only [FastStatBucket.step, Option.map_eq_some_iff] at hs
    obtain ⟨⟨t', a⟩, hs, rfl⟩ := hs
    exact h.statObject hs
  | listObjects pre delimiter => cases hs; exact h.insertListed hflat pre
  | createFolder | deleteFolder | getFolder | renameFolder => cases hc

/-- **Runs of calls on objects keep the cache coherent**, on a flat
bucket that only this client writes. -/
theorem Coherent.run (h : b.Coherent) (hflat : b.wrapped.hierarchical = false) {calls : List Call}
    (hc : ∀ c ∈ calls, c.onObjects = true) {t : FastStatBucket}
    (hr : Run.run FastStatBucket.step b calls = some t) : t.Coherent := by
  have hinv := Run.run_invariant_of_forall (I := fun s : FastStatBucket => s.Coherent ∧ s.wrapped.hierarchical = false)
    (P := fun c => c.onObjects = true)
    (fun s c s' hc hs hstep => ⟨hs.1.step hs.2 hc hstep, (step_hierarchical hc hstep).trans hs.2⟩)
    calls b t hc ⟨h, hflat⟩ hr
  exact hinv.1

/-- **What the cache answers is what the bucket answers.** A `StatObject`
answered from a coherent cache, other than by an implicit directory's
marker, returns what the wrapped bucket returns for the name. -/
theorem Coherent.statObject_of_entry (h : b.Coherent) {req : StatObjectRequest} (hforce : req.forceFetchFromGcs = false)
    (hattrs : req.returnExtendedObjectAttributes = false) {e : Entry} (he : b.cache.entry req.name = some e)
    (himp : e.implicitDir = false) :
    (b.statObject req).map Prod.snd = some ((b.wrapped.bucket.get req.name).elim (.error (.gcs .notFound)) .ok) := by
  have hm := h req.name e he himp
  have hlook : b.cache.lookUp req.name = some e.m := by
    simp [StatCacheBucketView.lookUp, he, himp]
  unfold FastStatBucket.statObject
  rw [hforce, hattrs, hlook, ← hm]
  cases e.m <;> rfl

/-- An empty cache agrees with any bucket. -/
theorem Coherent.of_empty (hempty : b.cache.sharedCache = ∅) : b.Coherent := by
  intro n e he _
  simp [StatCacheBucketView.entry, hempty] at he

/-- **Over any run, what the cache answers is what the bucket holds.**
From an empty cache over a flat bucket, after any run of calls on its
objects, a `StatObject` of a name the cache holds, other than as an
implicit directory's marker, answers what the wrapped bucket holds: its
record, or not-found. -/
theorem stat_from_cache_matches_bucket (hempty : b.cache.sharedCache = ∅) (hflat : b.wrapped.hierarchical = false)
    {calls : List Call} (hc : ∀ c ∈ calls, c.onObjects = true) {t : FastStatBucket}
    (hr : Run.run FastStatBucket.step b calls = some t) {req : StatObjectRequest}
    (hforce : req.forceFetchFromGcs = false) (hattrs : req.returnExtendedObjectAttributes = false)
    {e : Entry} (he : t.cache.entry req.name = some e) (himp : e.implicitDir = false) :
    (t.statObject req).map Prod.snd = some ((t.wrapped.bucket.get req.name).elim (.error (.gcs .notFound)) .ok) :=
  ((Coherent.of_empty hempty).run hflat hc hr).statObject_of_entry hforce hattrs he himp

/-- A flat bucket with no object, and an empty cache. -/
def emptyStart : FastStatBucket := ⟨⟨∅, []⟩, ⟨⟨∅, 1⟩, [], false⟩, false, false, fun _ => false⟩

/-- After creating "x", the cache answers a `StatObject` of "x" with the
record the bucket holds. -/
theorem stat_after_create_matches_bucket :
    ∃ t, Run.run FastStatBucket.step emptyStart [.createObject [120] [1] false] = some t ∧
      (t.statObject ⟨[120], false, false, false⟩).map Prod.snd =
        some ((t.wrapped.bucket.get [120]).elim (.error (.gcs .notFound)) .ok) :=
  ⟨_, rfl, @stat_from_cache_matches_bucket emptyStart rfl rfl [.createObject [120] [1] false]
    (fun c hc => by simp only [List.mem_singleton] at hc; subst hc; rfl) _ rfl ⟨[120], false, false, false⟩
    rfl rfl _ rfl rfl⟩

/-- A hierarchical bucket whose folder "a/" holds the object "a/x", and
an empty cache. -/
def folderStart : FastStatBucket :=
  ⟨⟨∅, []⟩, ⟨(⟨∅, 1⟩ : Bucket).write [97, 47, 120] [1], [[97, 47]], true⟩, false, false, fun _ => false⟩

/-- **A renamed folder's objects are hidden by negative entries.** A
`StatObject` of "b/x" leaves a negative entry; `RenameFolder("a/",
"b/")` moves "a/x" to "b/x" but erases only the entries under "a/", so
the next `StatObject` of "b/x" answers not-found from the cache while
the bucket holds the object. -/
theorem rename_folder_keeps_negative_entry :
    ∃ t, Run.run FastStatBucket.step folderStart
        [.statObject ⟨[98, 47, 120], false, false, false⟩, .renameFolder [97, 47] [98, 47]] = some t ∧
      t.cache.lookUp [98, 47, 120] = some none ∧
      (t.statObject ⟨[98, 47, 120], false, false, false⟩).map Prod.snd = some (.error (.gcs .notFound)) ∧
      t.wrapped.bucket.get [98, 47, 120] = some ⟨1, 1, [1], 1⟩ :=
  ⟨_, rfl, rfl, rfl, rfl⟩

end FastStatBucket

end Caching

end GcsFuse
