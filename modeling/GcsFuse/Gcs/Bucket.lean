import Mathlib.Algebra.Order.Ring.Int
import Mathlib.Data.List.AList
/-!
# A GCS bucket

What the code expects of the bucket it calls: objects by name, each with
a generation that every write of the name renews, a metageneration, and
contents. A request may name the generation it acts on (`0` for the
live one) and a metageneration precondition; a generation that is not
the live one is `NotFoundError`, a metageneration that differs is
`PreconditionError`. A creation with the precondition "does not exist"
fails with `PreconditionError` on a live name.

The bucket is the only writer here: what it holds changes only by these
calls, and a call that fails changes nothing. Names are the bytes of Go
strings. A bucket with a hierarchical namespace also holds folders,
resources of their own named like directories (`a/`); `RenameFolder`
moves a folder with everything under it, and the objects keep their
records.
-/

namespace GcsFuse

namespace Gcs

/-- An object name. -/
abbrev ObjectName := List UInt8

/-- A live object. `componentCount` is `ComponentCount`: `1` for an
uploaded object, the sum of its sources' for a composed one. -/
structure Object where
  generation : ℕ
  metaGeneration : ℕ
  contents : List UInt8
  componentCount : ℕ
  deriving DecidableEq, Repr

/-- `MaxComponentCount`: the most components a composite object may have. -/
def maxComponentCount : ℕ := 1024

/-- The errors of the calls; `unavailable` is any other, of the network
or the service. -/
inductive GcsError
  | notFound
  | precondition
  | unavailable
  deriving DecidableEq, Repr

/-- The bucket: its live objects, and the generation the next write gets. -/
structure Bucket where
  objects : AList (fun _ : ObjectName => Object)
  nextGeneration : ℕ

namespace Bucket

variable (b : Bucket)

/-- The live object of a name. -/
def get (n : ObjectName) : Option Object := b.objects.lookup n

/-- A new generation of `n`, of `componentCount` components. -/
def put (n : ObjectName) (contents : List UInt8) (componentCount : ℕ) : Bucket :=
  ⟨b.objects.insert n ⟨b.nextGeneration, 1, contents, componentCount⟩, b.nextGeneration + 1⟩

/-- A new generation of `n`, uploaded whole. -/
def write (n : ObjectName) (contents : List UInt8) : Bucket := b.put n contents 1

/-- `n` is no longer live. -/
def remove (n : ObjectName) : Bucket := { b with objects := b.objects.erase n }

/-- The object a request for generation `generation` of `n` acts on. -/
def select (n : ObjectName) (generation : ℕ) : Option Object :=
  (b.get n).filter fun o => generation = 0 ∨ o.generation = generation

/-- The object a request acts on, once its metageneration precondition
holds. -/
def target (n : ObjectName) (generation : ℕ) (metaGeneration : Option ℕ) : Except GcsError Object :=
  match b.select n generation with
  | none => .error .notFound
  | some o => if metaGeneration.all (· = o.metaGeneration) then .ok o else .error .precondition

/-- `CreateObject`, with the precondition that the name is not live when
`doesNotExist`. -/
def createObject (n : ObjectName) (contents : List UInt8) (doesNotExist : Bool) : Except GcsError Bucket :=
  if doesNotExist ∧ (b.get n).isSome then .error .precondition else .ok (b.write n contents)

/-- `CopyObject`: a new generation of `dst` with the contents and the
components of `src`. -/
def copyObject (src : ObjectName) (srcGeneration : ℕ) (srcMetaGeneration : Option ℕ) (dst : ObjectName) :
    Except GcsError Bucket :=
  (b.target src srcGeneration srcMetaGeneration).map fun o => b.put dst o.contents o.componentCount

/-- `DeleteObject`. -/
def deleteObject (n : ObjectName) (generation : ℕ) (metaGeneration : Option ℕ) : Except GcsError Bucket :=
  (b.target n generation metaGeneration).map fun _ => b.remove n

/-- `MoveObject`: `src` goes, and `dst` gets its contents, at once. -/
def moveObject (src : ObjectName) (srcGeneration : ℕ) (srcMetaGeneration : Option ℕ) (dst : ObjectName) :
    Except GcsError Bucket :=
  (b.target src srcGeneration srcMetaGeneration).map fun o => (b.remove src).put dst o.contents o.componentCount

/-- `UpdateObject`: the object's metadata changes, so its metageneration
grows; its generation and contents stay. -/
def updateObject (n : ObjectName) (generation : ℕ) (metaGeneration : Option ℕ) : Except GcsError Bucket :=
  (b.target n generation metaGeneration).map fun o =>
    { b with objects := b.objects.insert n { o with metaGeneration := o.metaGeneration + 1 } }

/-- `ComposeObjects`: a new generation of `dst` with the contents of the
live sources, in order, and the sum of their components, which may not
pass `MaxComponentCount`. -/
def composeObjects (dst : ObjectName) (sources : List ObjectName) : Except GcsError Bucket :=
  match sources.mapM b.get with
  | none => .error .notFound
  | some os =>
    if maxComponentCount < (os.map Object.componentCount).sum then .error .unavailable
    else .ok (b.put dst (os.flatMap Object.contents) (os.map Object.componentCount).sum)

/-- `ListObjects` of a prefix: the live objects under it, and with the
delimiter `/` the runs collapsed at the first `/` past the prefix (an
object ending at that `/` is listed too, as `IncludeTrailingDelimiter`
has it). -/
def listObjects (pre : ObjectName) (delimiter : Bool) : List (ObjectName × Object) × List ObjectName :=
  let under := b.objects.entries.filterMap fun e => if pre.isPrefixOf e.1 then some (e.1, e.2) else none
  let collapsed (n : ObjectName) : Option ObjectName :=
    let rest := n.drop pre.length
    if delimiter ∧ rest.idxOf 47 + 1 < rest.length then some (pre ++ rest.take (rest.idxOf 47 + 1)) else none
  (under.filter fun e => (collapsed e.1).isNone, (under.filterMap fun e => collapsed e.1).dedup)

/-- The live names strictly under a prefix: what a recursive listing of
the prefix returns, the prefix itself left out. -/
def descendants (pre : ObjectName) : List ObjectName :=
  b.objects.keys.filter fun n => pre.isPrefixOf n && n != pre

/-! ## Reading after writing -/

variable {b}

@[simp] theorem get_put (n : ObjectName) (contents : List UInt8) (componentCount : ℕ) :
    (b.put n contents componentCount).get n = some ⟨b.nextGeneration, 1, contents, componentCount⟩ :=
  AList.lookup_insert _

@[simp] theorem get_put_ne {n m : ObjectName} (h : m ≠ n) (contents : List UInt8) (componentCount : ℕ) :
    (b.put n contents componentCount).get m = b.get m :=
  AList.lookup_insert_ne h

@[simp] theorem get_write (n : ObjectName) (contents : List UInt8) :
    (b.write n contents).get n = some ⟨b.nextGeneration, 1, contents, 1⟩ :=
  get_put n contents 1

@[simp] theorem get_write_ne {n m : ObjectName} (h : m ≠ n) (contents : List UInt8) :
    (b.write n contents).get m = b.get m :=
  get_put_ne h contents 1

@[simp] theorem get_remove (n : ObjectName) : (b.remove n).get n = none :=
  AList.lookup_erase _ _

@[simp] theorem get_remove_ne {n m : ObjectName} (h : m ≠ n) : (b.remove n).get m = b.get m :=
  AList.lookup_erase_ne h

theorem mem_descendants {pre n : ObjectName} :
    n ∈ b.descendants pre ↔ (b.get n).isSome ∧ pre <+: n ∧ n ≠ pre := by
  simp [descendants, get, AList.lookup_isSome, AList.mem_keys, List.isPrefixOf_iff_prefix]

/-- A request for the live generation and metageneration of an object
acts on it. -/
theorem target_self {n : ObjectName} {o : Object} (h : b.get n = some o) :
    b.target n o.generation (some o.metaGeneration) = .ok o := by
  simp [target, select, h, Option.filter_some]

/-- A request for the live object, with no precondition, acts on it. -/
theorem target_live {n : ObjectName} {o : Object} (h : b.get n = some o) : b.target n 0 none = .ok o := by
  simp [target, select, h, Option.filter_some]

theorem createObject_eq_ok {n : ObjectName} {contents : List UInt8} {b' : Bucket}
    (h : b.createObject n contents true = .ok b') : b.get n = none ∧ b' = b.write n contents := by
  unfold createObject at h
  split at h
  · cases h
  · rename_i hne
    cases h
    simpa using hne

theorem createObject_eq_write {n : ObjectName} {contents : List UInt8} {doesNotExist : Bool} {b' : Bucket}
    (h : b.createObject n contents doesNotExist = .ok b') : b' = b.write n contents := by
  unfold createObject at h
  split at h
  · cases h
  · cases h
    rfl

theorem deleteObject_eq_ok {n : ObjectName} {generation : ℕ} {metaGeneration : Option ℕ} {b' : Bucket}
    (h : b.deleteObject n generation metaGeneration = .ok b') : b' = b.remove n := by
  unfold deleteObject at h
  cases ht : b.target n generation metaGeneration with
  | error e => rw [ht] at h; cases h
  | ok o => rw [ht] at h; cases h; rfl

/-- A request's target is the live object. -/
theorem target_eq_ok {n : ObjectName} {generation : ℕ} {metaGeneration : Option ℕ} {o : Object}
    (h : b.target n generation metaGeneration = .ok o) : b.get n = some o := by
  unfold target select at h
  split at h
  · cases h
  · rename_i o' ho
    split at h
    · cases h
      exact (Option.filter_eq_some_iff.1 ho).1
    · cases h

theorem updateObject_eq_ok {n : ObjectName} {generation : ℕ} {metaGeneration : Option ℕ} {b' : Bucket}
    (h : b.updateObject n generation metaGeneration = .ok b') :
    ∃ o, b.get n = some o ∧ b' = { b with objects := b.objects.insert n { o with metaGeneration := o.metaGeneration + 1 } } := by
  unfold updateObject at h
  cases ht : b.target n generation metaGeneration with
  | error e => rw [ht] at h; cases h
  | ok o => rw [ht] at h; cases h; exact ⟨o, target_eq_ok ht, rfl⟩

theorem composeObjects_eq_ok {dst : ObjectName} {sources : List ObjectName} {b' : Bucket}
    (h : b.composeObjects dst sources = .ok b') : ∃ contents componentCount, b' = b.put dst contents componentCount := by
  unfold composeObjects at h
  split at h
  · cases h
  · split_ifs at h
    cases h
    exact ⟨_, _, rfl⟩

/-- Every object a listing returns is live, with its record. -/
theorem get_of_mem_listObjects {pre : ObjectName} {delimiter : Bool} {n : ObjectName} {o : Object}
    (h : (n, o) ∈ (b.listObjects pre delimiter).1) : b.get n = some o := by
  simp only [listObjects, List.mem_filter, List.mem_filterMap] at h
  obtain ⟨⟨⟨n', o'⟩, hmem, hsome⟩, -⟩ := h
  split at hsome
  · cases hsome
    exact AList.mem_lookup_iff.2 hmem
  · cases hsome

/-! ## What a call changes -/

/-- `b'` differs from `b` at most at the names `ns`. -/
def Frame (b b' : Bucket) (ns : List ObjectName) : Prop := ∀ k ∉ ns, b'.get k = b.get k

theorem frame_put (n : ObjectName) (contents : List UInt8) (componentCount : ℕ) :
    Frame b (b.put n contents componentCount) [n] :=
  fun _ hk => get_put_ne (List.ne_of_not_mem_cons hk) _ _

theorem frame_write (n : ObjectName) (contents : List UInt8) : Frame b (b.write n contents) [n] :=
  frame_put n contents 1

theorem createObject_frame {n : ObjectName} {contents : List UInt8} {doesNotExist : Bool} {b' : Bucket}
    (h : b.createObject n contents doesNotExist = .ok b') : Frame b b' [n] := by
  rw [createObject_eq_write h]
  exact frame_write _ _

theorem copyObject_frame {src dst : ObjectName} {srcGeneration : ℕ} {srcMetaGeneration : Option ℕ}
    {b' : Bucket} (h : b.copyObject src srcGeneration srcMetaGeneration dst = .ok b') : Frame b b' [dst] := by
  unfold copyObject at h
  cases ht : b.target src srcGeneration srcMetaGeneration with
  | error e => rw [ht] at h; cases h
  | ok o => rw [ht] at h; cases h; exact frame_put _ _ _

theorem composeObjects_frame {dst : ObjectName} {sources : List ObjectName} {b' : Bucket}
    (h : b.composeObjects dst sources = .ok b') : Frame b b' [dst] := by
  obtain ⟨contents, componentCount, rfl⟩ := composeObjects_eq_ok h
  exact frame_put _ _ _

theorem updateObject_frame {n : ObjectName} {generation : ℕ} {metaGeneration : Option ℕ} {b' : Bucket}
    (h : b.updateObject n generation metaGeneration = .ok b') : Frame b b' [n] := by
  obtain ⟨o, -, rfl⟩ := updateObject_eq_ok h
  exact fun _ hk => AList.lookup_insert_ne (List.ne_of_not_mem_cons hk)

theorem deleteObject_frame {n : ObjectName} {generation : ℕ} {metaGeneration : Option ℕ} {b' : Bucket}
    (h : b.deleteObject n generation metaGeneration = .ok b') : Frame b b' [n] := by
  rw [deleteObject_eq_ok h]
  exact fun _ hk => get_remove_ne (List.ne_of_not_mem_cons hk)

theorem moveObject_frame {src dst : ObjectName} {srcGeneration : ℕ} {srcMetaGeneration : Option ℕ}
    {b' : Bucket} (h : b.moveObject src srcGeneration srcMetaGeneration dst = .ok b') :
    Frame b b' [src, dst] := by
  unfold moveObject at h
  cases ht : b.target src srcGeneration srcMetaGeneration with
  | error e => rw [ht] at h; cases h
  | ok o =>
    rw [ht] at h
    cases h
    intro k hk
    simp only [List.mem_cons, List.not_mem_nil, or_false, not_or] at hk
    rw [get_put_ne hk.2, get_remove_ne hk.1]

/-! ## Folders -/

variable (b)

/-- Move the live object `n`, record and all, to `m`. -/
def moveLive (n m : ObjectName) : Bucket :=
  match b.get n with
  | none => b
  | some o => ⟨(b.objects.erase n).insert m o, b.nextGeneration⟩

/-- Every live object at or under `src` moves under `dst`. -/
def renamePrefix (src dst : ObjectName) : Bucket :=
  (b.objects.keys.filter (src.isPrefixOf ·)).foldl (fun b' n => b'.moveLive n (dst ++ n.drop src.length)) b

end Bucket

/-- A bucket as the service holds it: its objects, its folders, and
whether its namespace is hierarchical (a flat bucket has no folders). -/
structure Remote where
  bucket : Bucket
  folders : List ObjectName
  hierarchical : Bool

namespace Remote

variable (r : Remote)

/-- `CreateFolder`. -/
def createFolder (n : ObjectName) : Except GcsError Remote :=
  if n ∈ r.folders then .error .precondition else .ok { r with folders := r.folders ++ [n] }

/-- `DeleteFolder`. -/
def deleteFolder (n : ObjectName) : Except GcsError Remote :=
  if n ∈ r.folders then .ok { r with folders := r.folders.erase n } else .error .notFound

/-- `GetFolder`. -/
def getFolder (n : ObjectName) : Except GcsError ObjectName :=
  if n ∈ r.folders then .ok n else .error .notFound

/-- `RenameFolder`: the folder, with every folder and object under it,
moves under the new name in one call. -/
def renameFolder (src dst : ObjectName) : Except GcsError Remote :=
  if src ∉ r.folders then .error .notFound
  else if dst ∈ r.folders then .error .precondition
  else .ok { r with
    bucket := r.bucket.renamePrefix src dst
    folders := r.folders.map fun f => if src.isPrefixOf f then dst ++ f.drop src.length else f }

end Remote

end Gcs

end GcsFuse
