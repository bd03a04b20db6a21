import GcsFuse.Common.Interleave
import GcsFuse.Caching.FastStatBucket
/-!
# A listing racing a write

`ListObjects` takes `fastStatBucket`'s lock only to record what it
listed, once the wrapped call has returned, and a write of an object
takes it only after its own wrapped call: two calls of one client on two
goroutines interleave at those points. Each call is a list of steps
here, and a schedule is an interleaving of the two lists; run alone, the
steps are the call (`run_updateThread`, ...).

`Insert` keeps a newer record, so a listing that read an object before
an update or a creation of it cannot bring the old record back: once
both calls have returned, the cache holds a record of the name at least
as new as the one the write returned (`write_outlives_listing`). A
negative entry is always replaced, so the same race with a delete brings
the deleted object back (`listing_resurrects_deleted_object`).
-/

namespace GcsFuse

namespace Caching

open Gcs Metadata

/-- Two goroutines on one `fastStatBucket`: the bucket, what the
listing's wrapped call returned, and what the write's or the delete's
returned. -/
structure Race where
  b : FastStatBucket
  listing : List (ObjectName × Object) × List ObjectName
  result : Except GcsError Object
  deleted : Except GcsError Unit

namespace Race

/-- The steps, between the points where the goroutines interleave. -/
inductive Action
  /-- The wrapped `ListObjects`. -/
  | listFetch (pre : ObjectName) (delimiter : Bool)
  /-- The listing's insertion, under the lock. -/
  | listInsert (pre : ObjectName)
  /-- The wrapped `CreateObject`. -/
  | createGcs (name : ObjectName) (contents : List UInt8) (doesNotExist : Bool)
  /-- The wrapped `UpdateObject`. -/
  | updateGcs (name : ObjectName) (generation : ℕ) (metaGeneration : Option ℕ)
  /-- The wrapped `DeleteObject`. -/
  | deleteGcs (name : ObjectName) (generation : ℕ) (metaGeneration : Option ℕ)
  /-- `invalidate`, under the lock. -/
  | invalidate (name : ObjectName)
  /-- The write's `insert`, under the lock. -/
  | record (name : ObjectName)
  /-- The delete's cache part, under the lock. -/
  | deleteCache (name : ObjectName)

/-- One step of either goroutine. -/
def step (s : Race) : Action → Option Race
  | .listFetch pre delimiter => some { s with listing := s.b.wrapped.bucket.listObjects pre delimiter }
  | .listInsert pre => some { s with b := s.b.insertListed pre s.listing }
  | .createGcs name contents doesNotExist =>
    let r := s.b.wrapped.bucket.createObject name contents doesNotExist
    some { s with b := s.b.call r, result := FastStatBucket.objectOf r name }
  | .updateGcs name generation metaGeneration =>
    let r := s.b.wrapped.bucket.updateObject name generation metaGeneration
    some { s with b := s.b.call r, result := FastStatBucket.objectOf r name }
  | .deleteGcs name generation metaGeneration =>
    let r := s.b.wrapped.bucket.deleteObject name generation metaGeneration
    some { s with b := s.b.call r, deleted := r.map fun _ => () }
  | .invalidate name => some { s with b := s.b.invalidate name }
  | .record name => some { s with b := s.b.recordResult name s.result }
  | .deleteCache name => some { s with b := s.b.deleteObjectCache name s.deleted }

/-- `ListObjects`. -/
def listThread (pre : ObjectName) (delimiter : Bool) : List Action := [.listFetch pre delimiter, .listInsert pre]

/-- `CreateObject`. -/
def createThread (name : ObjectName) (contents : List UInt8) (doesNotExist : Bool) : List Action :=
  [.createGcs name contents doesNotExist, .invalidate name, .record name]

/-- `UpdateObject`. -/
def updateThread (name : ObjectName) (generation : ℕ) (metaGeneration : Option ℕ) : List Action :=
  [.updateGcs name generation metaGeneration, .invalidate name, .record name]

/-- `DeleteObject`. -/
def deleteThread (name : ObjectName) (generation : ℕ) (metaGeneration : Option ℕ) : List Action :=
  [.deleteGcs name generation metaGeneration, .deleteCache name]

/-! ## Run alone, the steps are the calls -/

theorem run_listThread (s : Race) (pre : ObjectName) (delimiter : Bool) :
    (Run.run step s (listThread pre delimiter)).map (·.b) = some (s.b.listObjects pre delimiter).1 := rfl

theorem run_createThread (s : Race) (name : ObjectName) (contents : List UInt8) (doesNotExist : Bool) :
    (Run.run step s (createThread name contents doesNotExist)).map (·.b) =
      some (s.b.createObject name contents doesNotExist).1 := rfl

theorem run_updateThread (s : Race) (name : ObjectName) (generation : ℕ) (metaGeneration : Option ℕ) :
    (Run.run step s (updateThread name generation metaGeneration)).map (·.b) =
      some (s.b.updateObject name generation metaGeneration).1 := rfl

theorem run_deleteThread (s : Race) (name : ObjectName) (generation : ℕ) (metaGeneration : Option ℕ) :
    (Run.run step s (deleteThread name generation metaGeneration)).map (·.b) =
      some (s.b.deleteObject name generation metaGeneration false).1 := rfl

/-! ## A write against a listing -/

section Write

variable (name : ObjectName) (gcs : Action) (bk₀ : Bucket) (pre : ObjectName) (delimiter : Bool)

/-- Once the write's wrapped call has returned, the bucket holds the
record it returned. -/
def Written (b : FastStatBucket) (result : Except GcsError Object) : Prop :=
  ∀ o, result = .ok o → b.wrapped.bucket.get name = some o

/-- The write's goroutine, by the steps it has left: before its wrapped
call the bucket is the one it started from; between its `invalidate`
and its `insert` the entry holds nothing newer than its record, and
after them something at least as new. -/
def WritePart : List Action → FastStatBucket → Except GcsError Object → Prop
  | [g, i, r], b, _ => g = gcs ∧ i = .invalidate name ∧ r = .record name ∧ b.wrapped.bucket = bk₀
  | [i, r], b, result => i = .invalidate name ∧ r = .record name ∧ Written name b result
  | [r], b, result => r = .record name ∧ Written name b result ∧ ∀ o, result = .ok o → b.cache.NoNewer name o
  | [], b, result => Written name b result ∧ ∀ o, result = .ok o → b.cache.NoOlder name o
  | _, _, _ => False

/-- The listing's goroutine, by the steps it has left and the number the
write has: a listing read before the write's wrapped call holds the
bucket's record of the name, one read after holds none newer than the
write's. -/
def ListPart : List Action → ℕ → List (ObjectName × Object) → FastStatBucket → Except GcsError Object → Prop
  | [f, l], _, _, _, _ => f = .listFetch pre delimiter ∧ l = .listInsert pre
  | [l], k, listed, b, result => l = .listInsert pre ∧
      (k = 3 → ∀ o', (name, o') ∈ listed → b.wrapped.bucket.get name = some o') ∧
      (k < 3 → ∀ o, result = .ok o → ∀ o', (name, o') ∈ listed → version o' ≤ version o)
  | [], _, _, _, _ => True
  | _, _, _, _, _ => False

/-- The invariant of the two goroutines. -/
def WriteInv (xs ys : List Action) (s : Race) : Prop :=
  s.b.wrapped.hierarchical = false ∧ ListPart name pre delimiter xs ys.length s.listing.1 s.b s.result ∧
    WritePart name gcs bk₀ ys s.b s.result

/-- The write's wrapped call changes only the bucket, and returns a
record newer than the one the bucket held. -/
def Advances : Prop :=
  ∀ s t, s.b.wrapped.bucket = bk₀ → step s gcs = some t →
    t.listing = s.listing ∧ t.b.cache = s.b.cache ∧ t.b.wrapped.hierarchical = s.b.wrapped.hierarchical ∧
    ∀ o, t.result = .ok o → t.b.wrapped.bucket.get name = some o ∧ ∀ o', bk₀.get name = some o' → version o' < version o

variable {name gcs bk₀ pre delimiter}

theorem WritePart.written {ys : List Action} {b : FastStatBucket} {result : Except GcsError Object}
    (h : WritePart name gcs bk₀ ys b result) (hys : ys.length < 3) : Written name b result := by
  match ys, h with
  | [_, _], ⟨_, _, hw⟩ => exact hw
  | [_], ⟨_, hw, _⟩ => exact hw
  | [], ⟨hw, _⟩ => exact hw
  | [_, _, _], _ => simp at hys

/-- The listing's insertion keeps the write's goroutine's part: it adds
only records no newer than the write's, and markers. -/
theorem WritePart.insertListed {ys : List Action} {b : FastStatBucket} {result : Except GcsError Object}
    (h : WritePart name gcs bk₀ ys b result) (hflat : b.wrapped.hierarchical = false)
    {listing : List (ObjectName × Object) × List ObjectName}
    (hlisted : ys.length < 3 → ∀ o, result = .ok o → ∀ o', (name, o') ∈ listing.1 → version o' ≤ version o) :
    WritePart name gcs bk₀ ys (b.insertListed pre listing) result := by
  have hw : (b.insertListed pre listing).wrapped = b.wrapped := FastStatBucket.insertListed_wrapped _ _
  have hwritten : Written name b result → Written name (b.insertListed pre listing) result :=
    fun hwr o ho => by rw [hw]; exact hwr o ho
  match ys, h with
  | [_, _, _], ⟨hg, hi, hr, hbk⟩ => exact ⟨hg, hi, hr, by rw [hw]; exact hbk⟩
  | [_, _], ⟨hi, hr, hwr⟩ => exact ⟨hi, hr, hwritten hwr⟩
  | [_], ⟨hr, hwr, hno⟩ =>
    refine ⟨hr, hwritten hwr, fun o ho => ?_⟩
    exact FastStatBucket.insertListed_induction (P := fun c => c.NoNewer name o) hflat (hno o ho)
      (fun _ k hc => hc.insertImplicitDir k)
      fun _ p hp hc => hc.insert fun hk => hlisted (by simp) o ho p.2 (hk ▸ hp)
  | [], ⟨hwr, hno⟩ =>
    refine ⟨hwritten hwr, fun o ho => ?_⟩
    exact FastStatBucket.insertListed_induction (P := fun c => c.NoOlder name o) hflat (hno o ho)
      (fun _ k hc => hc.insertImplicitDir k) fun _ p _ hc => hc.insert p.1 p.2

/-- A listing's part holds whatever the write's bucket, once the write's
wrapped call is behind it. -/
theorem ListPart.mono {xs : List Action} {k k' : ℕ} {listed : List (ObjectName × Object)}
    {b b' : FastStatBucket} {result : Except GcsError Object}
    (h : ListPart name pre delimiter xs k listed b result) (hk : k < 3) (hk' : k' < 3) :
    ListPart name pre delimiter xs k' listed b' result := by
  match xs, h with
  | [_, _], h => exact h
  | [_], ⟨hl, _, hle⟩ => exact ⟨hl, fun h3 => absurd h3 (by omega), fun _ => hle hk⟩
  | [], _ => trivial

/-- **A step of the listing** keeps the invariant. -/
theorem writeInv_left {x : Action} {xs ys : List Action} {s t : Race}
    (h : WriteInv name gcs bk₀ pre delimiter (x :: xs) ys s) (hs : step s x = some t) :
    WriteInv name gcs bk₀ pre delimiter xs ys t := by
  obtain ⟨hflat, hl, hw⟩ := h
  match xs, hl with
  | [_], hl =>
    -- the wrapped `ListObjects`: what it returns is what the bucket holds
    obtain ⟨rfl, rfl⟩ := hl
    cases hs
    refine ⟨hflat, ⟨rfl, fun _ o' hm => Bucket.get_of_mem_listObjects hm, fun hys o ho o' hm => ?_⟩, hw⟩
    have hget := Bucket.get_of_mem_listObjects hm
    rw [hw.written hys o ho] at hget
    cases hget
    exact le_rfl
  | [], hl =>
    -- the insertion under the lock
    obtain ⟨rfl, -, hle⟩ := hl
    cases hs
    have hwr : (s.b.insertListed pre s.listing).wrapped = s.b.wrapped := FastStatBucket.insertListed_wrapped _ _
    exact ⟨hwr ▸ hflat, trivial, hw.insertListed hflat hle⟩

/-- **A step of the write** keeps the invariant. -/
theorem writeInv_right (hadv : Advances name gcs bk₀) {y : Action} {xs ys : List Action} {s t : Race}
    (h : WriteInv name gcs bk₀ pre delimiter xs (y :: ys) s) (hs : step s y = some t) :
    WriteInv name gcs bk₀ pre delimiter xs ys t := by
  obtain ⟨hflat, hl, hw⟩ := h
  match ys, hw with
  | [_, _], hw =>
    -- the wrapped call: a listing read before it holds an older record
    obtain ⟨rfl, rfl, rfl, hbk⟩ := hw
    obtain ⟨hL, -, hh, hres⟩ := hadv s t hbk hs
    refine ⟨hh ▸ hflat, ?_, rfl, rfl, fun o ho => (hres o ho).1⟩
    rw [hL]
    match xs, hl with
    | [_, _], hl => exact hl
    | [_], ⟨hlt, hsnap, _⟩ =>
      refine ⟨hlt, fun h3 => absurd h3 (by simp), fun _ o ho o' hm => ?_⟩
      have hold := hsnap rfl o' hm
      rw [hbk] at hold
      exact ((hres o ho).2 o' hold).le
    | [], _ => trivial
  | [_], hw =>
    -- `invalidate`: the entry is gone
    obtain ⟨rfl, rfl, hwr⟩ := hw
    cases hs
    exact ⟨hflat, hl.mono (by simp) (by simp), rfl, hwr, fun o _ => StatCacheBucketView.noNewer_erase _ o⟩
  | [], hw =>
    -- the write's `insert`: nothing newer is there, so its record goes in
    obtain ⟨rfl, hwr, hno⟩ := hw
    cases hs
    have hwrap : (s.b.recordResult name s.result).wrapped = s.b.wrapped := FastStatBucket.recordResult_wrapped _ _
    refine ⟨by rw [hwrap]; exact hflat, hl.mono (by simp) (by simp), fun o ho => by rw [hwrap]; exact hwr o ho,
      fun o ho => ?_⟩
    rw [ho]
    exact (hno o ho).insert_self

/-- **A listing never brings back an older record.** Whatever the
schedule of a listing and a write whose wrapped call returns a record
newer than the one the bucket held, once both are done the bucket holds
the write's record and the cache holds a record of the name at least as
new. -/
theorem write_outlives_listing (hadv : Advances name gcs bk₀) {s t : Race}
    (hflat : s.b.wrapped.hierarchical = false) (hbk : s.b.wrapped.bucket = bk₀) {zs : List Action}
    (hz : Interleave (listThread pre delimiter) [gcs, .invalidate name, .record name] zs)
    (hr : Run.run step s zs = some t) {o : Object} (ho : t.result = .ok o) :
    t.b.wrapped.bucket.get name = some o ∧ t.b.cache.NoOlder name o := by
  have hinv := Interleave.run_invariant (I := WriteInv name gcs bk₀ pre delimiter)
    (fun _ _ _ _ _ h hs => writeInv_left h hs) (fun _ _ _ _ _ h hs => writeInv_right hadv h hs) hz
    ⟨hflat, ⟨rfl, rfl⟩, rfl, rfl, rfl, hbk⟩ hr
  obtain ⟨-, -, hw, hno⟩ := hinv
  exact ⟨hw o ho, hno o ho⟩

/-- `UpdateObject` raises the metageneration of the record it updates. -/
theorem advances_updateGcs (generation : ℕ) (metaGeneration : Option ℕ) (bk₀ : Bucket) :
    Advances name (.updateGcs name generation metaGeneration) bk₀ := by
  intro s t hbk hs
  simp only [step, Option.some.injEq] at hs
  subst hs
  refine ⟨rfl, FastStatBucket.call_cache _, FastStatBucket.call_hierarchical _, fun o ho => ?_⟩
  refine ⟨FastStatBucket.get_of_objectOf ho, fun o' ho' => ?_⟩
  cases hr : s.b.wrapped.bucket.updateObject name generation metaGeneration with
  | error e => simp only [hr, FastStatBucket.objectOf, Except.bind] at ho; cases ho
  | ok bk =>
    obtain ⟨o₀, h₀, rfl⟩ := Bucket.updateObject_eq_ok hr
    rw [hbk, ho'] at h₀
    cases h₀
    -- the record returned is the updated one
    simp only [hr, FastStatBucket.objectOf, Except.bind, Bucket.get, AList.lookup_insert, Option.elim] at ho
    cases ho
    simp [version, Prod.Lex.toLex_lt_toLex]

/-- `CreateObject` writes a new generation, above every generation the
bucket holds. -/
theorem advances_createGcs (contents : List UInt8) (doesNotExist : Bool) {bk₀ : Bucket}
    (hgen : ∀ n o, bk₀.get n = some o → o.generation < bk₀.nextGeneration) :
    Advances name (.createGcs name contents doesNotExist) bk₀ := by
  intro s t hbk hs
  simp only [step, Option.some.injEq] at hs
  subst hs
  refine ⟨rfl, FastStatBucket.call_cache _, FastStatBucket.call_hierarchical _, fun o ho => ?_⟩
  refine ⟨FastStatBucket.get_of_objectOf ho, fun o' ho' => ?_⟩
  cases hr : s.b.wrapped.bucket.createObject name contents doesNotExist with
  | error e => simp only [hr, FastStatBucket.objectOf, Except.bind] at ho; cases ho
  | ok bk =>
    simp only [hr, Bucket.createObject_eq_write hr, FastStatBucket.objectOf, Except.bind, Bucket.get_write,
      Option.elim] at ho
    cases ho
    have hlt := hgen name o' ho'
    rw [← hbk] at hlt
    simp [version, Prod.Lex.toLex_lt_toLex, hlt]

/-- **An update against a listing.** -/
theorem update_outlives_listing {generation : ℕ} {metaGeneration : Option ℕ} {s t : Race}
    (hflat : s.b.wrapped.hierarchical = false) {zs : List Action}
    (hz : Interleave (listThread pre delimiter) (updateThread name generation metaGeneration) zs)
    (hr : Run.run step s zs = some t) {o : Object} (ho : t.result = .ok o) :
    t.b.wrapped.bucket.get name = some o ∧ t.b.cache.NoOlder name o :=
  write_outlives_listing (advances_updateGcs generation metaGeneration _) hflat rfl hz hr ho

/-- **A creation against a listing**, in a bucket whose generations are
below the next one it hands out. -/
theorem create_outlives_listing {contents : List UInt8} {doesNotExist : Bool} {s t : Race}
    (hflat : s.b.wrapped.hierarchical = false)
    (hgen : ∀ n o, s.b.wrapped.bucket.get n = some o → o.generation < s.b.wrapped.bucket.nextGeneration)
    {zs : List Action} (hz : Interleave (listThread pre delimiter) (createThread name contents doesNotExist) zs)
    (hr : Run.run step s zs = some t) {o : Object} (ho : t.result = .ok o) :
    t.b.wrapped.bucket.get name = some o ∧ t.b.cache.NoOlder name o :=
  write_outlives_listing (advances_createGcs contents doesNotExist hgen) hflat rfl hz hr ho

end Write

/-- A flat bucket holding the object "x", an empty cache, and nothing
returned yet. -/
def deleteRaceStart : Race :=
  ⟨⟨⟨∅, []⟩, ⟨(⟨∅, 1⟩ : Bucket).write [120] [1], [], false⟩, false, false, fun _ => false⟩, ([], []), .error .notFound,
    .error .notFound⟩

/-- The listing reads "x" at metageneration `1`; the update raises it to
`2` and records it before the listing's insertion, which keeps it. -/
theorem update_between_listing_steps_recorded :
    ∃ t o, Run.run step deleteRaceStart
        [.listFetch [] false, .updateGcs [120] 0 none, .invalidate [120], .record [120], .listInsert []] = some t ∧
      t.result = .ok o ∧ t.b.wrapped.bucket.get [120] = some o ∧ t.b.cache.NoOlder [120] o :=
  ⟨_, _, rfl, rfl, @update_outlives_listing [120] [] false 0 none deleteRaceStart _ rfl _
    (.left (.right (.right (.right (.left .nil))))) rfl _ rfl⟩

/-- The listing reads "x" of generation `1`; a creation of generation `2`
runs between the listing's two steps, and the cache keeps its record. -/
theorem create_between_listing_steps_recorded :
    ∃ t o, Run.run step deleteRaceStart
        [.listFetch [] false, .createGcs [120] [2] false, .invalidate [120], .record [120], .listInsert []] =
          some t ∧
      t.result = .ok o ∧ t.b.wrapped.bucket.get [120] = some o ∧ t.b.cache.NoOlder [120] o :=
  ⟨_, _, rfl, rfl, @create_outlives_listing [120] [] false [2] false deleteRaceStart _ rfl
    (fun n o h => by
      change ((⟨∅, 1⟩ : Bucket).write [120] [1]).get n = some o at h
      change o.generation < 2
      by_cases hn : n = [120]
      · subst hn
        rw [Bucket.get_write, Option.some.injEq] at h
        subst h
        decide
      · rw [Bucket.get_write_ne hn] at h
        simp [Bucket.get] at h)
    _ (.left (.right (.right (.right (.left .nil))))) rfl _ rfl⟩

/-! ## A delete against a listing -/

/-- **A listing brings a deleted object back.** The listing reads "x";
the delete removes it and leaves its negative entry; then the listing's
insertion replaces the negative entry, as `shouldReplace` always does, by
the record it read. Once both calls have returned, the cache says "x"
exists while the bucket no longer holds it. -/
theorem listing_resurrects_deleted_object :
    Interleave (listThread [] false) (deleteThread [120] 0 none)
        [.listFetch [] false, .deleteGcs [120] 0 none, .deleteCache [120], .listInsert []] ∧
      ∃ t, Run.run step deleteRaceStart
          [.listFetch [] false, .deleteGcs [120] 0 none, .deleteCache [120], .listInsert []] = some t ∧
        t.deleted = .ok () ∧ t.b.wrapped.bucket.get [120] = none ∧
        t.b.cache.lookUp [120] = some (some ⟨1, 1, [1], 1⟩) :=
  ⟨.left (.right (.right (.left .nil))), _, rfl, rfl, rfl, rfl⟩

end Race

end Caching

end GcsFuse
