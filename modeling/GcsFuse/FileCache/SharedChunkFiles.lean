import GcsFuse.Common.ReadBack
import GcsFuse.FileCache.SharedStore
/-!
# Which chunk a file of the shared cache holds

The hash input writes each name with its length in front, so it is read
back as one triple only (`computeObjectHashInput_inj`), unlike the key of
the file-info cache. Two chunks therefore share a path only when they are
one chunk, or when SHA-256 gives two different hash inputs one digest
(`eq_of_getChunkPath_eq`).

With the invariant of the shared directory this reads a chunk back from
its path: in every state any interleaving of the mounts and the collector
reaches, a chunk's file holds that chunk unless SHA-256 maps the hash
input of a generation the interleaving downloaded and another one to one
digest (`chunk_file_holds_its_chunk`), and each generation's view of the
directory is what the reader's model assumes (`view_valid`).
-/

namespace GcsFuse

namespace FileCache

open LengthPrefix

namespace SharedChunkCacheManager

variable (sha256 : String → String)

/-- **The hash input is read back as one triple**: the length prefixes
keep apart what the key of the file-info cache runs together. -/
theorem computeObjectHashInput_inj {b b' o o' : String} {g g' : ℤ}
    (h : computeObjectHashInput b o g = computeObjectHashInput b' o' g') : b = b' ∧ o = o' ∧ g = g' := by
  simp only [computeObjectHashInput, String.append_assoc] at h
  -- the bucket's field, then the object's, then the generation
  obtain ⟨hb, hrest⟩ := lengthPrefixed_append_inj h
  obtain ⟨ho, hgen⟩ := lengthPrefixed_append_inj hrest
  rw [String.append_right_inj] at hgen
  exact ⟨hb, ho, Int.repr_inj.mp hgen⟩

/-- A chunk's file name gives back its start offset. -/
theorem eq_of_chunkFileName_eq {s s' e e' : ℕ} (h : chunkFileName s e = chunkFileName s' e') : s = s' := by
  have hunderscore : "_".toList = ['_'] := rfl
  have hl := congrArg String.toList h
  simp only [chunkFileName, String.toList_append, hunderscore, List.append_assoc, List.singleton_append] at hl
  exact (eq_of_toString_append_eq (by decide) hl).1

/-- A chunk's path gives back its index, whatever generation it is of. -/
theorem index_eq_of_getChunkPath_eq {m : SharedChunkCacheManager} (hC : 0 < m.chunkSize) {b b' o o' : String}
    {g g' : ℤ} {k k' : ℕ} (h : m.getChunkPath sha256 b o g k = m.getChunkPath sha256 b' o' g' k') : k = k' := by
  simp only [getChunkPath] at h
  obtain ⟨-, hname⟩ := List.append_inj' h rfl
  exact Nat.eq_of_mul_eq_mul_right hC (eq_of_chunkFileName_eq (List.singleton_inj.mp hname))

/-- **Two chunks share a file only when they are one chunk, or through a
SHA-256 collision** between two different hash inputs. -/
theorem eq_of_getChunkPath_eq {m : SharedChunkCacheManager} (hC : 0 < m.chunkSize) {b b' o o' : String}
    {g g' : ℤ} {k k' : ℕ} (h : m.getChunkPath sha256 b o g k = m.getChunkPath sha256 b' o' g' k') :
    (b = b' ∧ o = o' ∧ g = g' ∧ k = k') ∨
      (computeObjectHashInput b o g ≠ computeObjectHashInput b' o' g' ∧
        computeObjectHash sha256 b o g = computeObjectHash sha256 b' o' g') := by
  have hk := index_eq_of_getChunkPath_eq sha256 hC h
  simp only [getChunkPath, getObjectDir, List.append_assoc, List.cons_append, List.nil_append,
    List.append_cancel_left_eq, List.cons.injEq] at h
  obtain ⟨-, -, hhash, -⟩ := h
  by_cases hinput : computeObjectHashInput b o g = computeObjectHashInput b' o' g'
  · obtain ⟨rfl, rfl, rfl⟩ := computeObjectHashInput_inj hinput
    exact .inl ⟨rfl, rfl, rfl, hk⟩
  · exact .inr ⟨hinput, hhash⟩

end SharedChunkCacheManager

namespace SharedStore

open SharedChunkCacheManager Gcsx.SharedChunkCacheReader

variable (sha256 : String → String) (m : SharedChunkCacheManager)

/-- A generation's view of the directory: the bytes of its chunk files,
by index, as the reader's model has them. -/
def view (s : Store) (x : ObjectId) : Gcsx.ChunkDir := fun k => (s.disk.files (chunkPath sha256 m x k)).map s.disk.bytes

variable {sha256 m} {content : ObjectId → List UInt8} {s : Store}

/-- The file at a chunk's path holds a chunk, of a generation the run
started a download of, whose path it is. -/
theorem chunk_of_path_of_run (hC : 0 < m.chunkSize) {as : List Action}
    (h : Run.run (step sha256 m content) Store.empty as = some s)
    {x : ObjectId} {k i : ℕ} (hf : s.disk.files (chunkPath sha256 m x k) = some i) :
    ∃ y : ObjectId, DownloadedIn as y ∧ s.disk.bytes i = chunkBytes (content y) m.chunkSize k ∧
      (y = x ∨ computeObjectHashInput y.bucketName y.objectName y.generation ≠
          computeObjectHashInput x.bucketName x.objectName x.generation ∧
        computeObjectHash sha256 y.bucketName y.objectName y.generation =
          computeObjectHash sha256 x.bucketName x.objectName x.generation) := by
  obtain ⟨y, k', hy, hpath, hbytes⟩ := (inv_of_run h).chunk x k i hf
  -- the path gives the index whatever the hash; the generation only without a collision
  obtain rfl := index_eq_of_getChunkPath_eq sha256 hC hpath
  rcases eq_of_getChunkPath_eq sha256 hC hpath with ⟨hb, ho, hg, -⟩ | hcollision
  · exact ⟨y, hy, hbytes, .inl (ObjectId.ext hb ho hg)⟩
  · exact ⟨y, hy, hbytes, .inr hcollision⟩

/-- **A chunk's file holds that chunk, or SHA-256 has a collision**: in
every state that an interleaving of the mounts' downloads, their deaths
and the collector's removals and expiries reaches from the empty
directory, the file at the path of chunk `k` of `x` holds that chunk's
bytes, or a generation the interleaving downloaded has another hash
input with the digest of `x`'s. -/
theorem chunk_file_holds_its_chunk (hC : 0 < m.chunkSize) {as : List Action}
    (h : Run.run (step sha256 m content) Store.empty as = some s)
    {x : ObjectId} {k i : ℕ} (hf : s.disk.files (chunkPath sha256 m x k) = some i) :
    s.disk.bytes i = chunkBytes (content x) m.chunkSize k ∨
      ∃ y : ObjectId, DownloadedIn as y ∧
        computeObjectHashInput y.bucketName y.objectName y.generation ≠
          computeObjectHashInput x.bucketName x.objectName x.generation ∧
        computeObjectHash sha256 y.bucketName y.objectName y.generation =
          computeObjectHash sha256 x.bucketName x.objectName x.generation := by
  obtain ⟨y, hy, hbytes, rfl | hcollision⟩ := chunk_of_path_of_run hC h hf
  · exact .inl hbytes
  · exact .inr ⟨y, hy, hcollision⟩

theorem chunk_published_by_one_download :
    let as := [.start ⟨"b", "o", 1⟩ 0 0, .create (tmpPathOf id ⟨[], 1⟩ ⟨"b", "o", 1⟩ 0 0),
      .copy (tmpPathOf id ⟨[], 1⟩ ⟨"b", "o", 1⟩ 0 0) 1, .rename (tmpPathOf id ⟨[], 1⟩ ⟨"b", "o", 1⟩ 0 0)]
    let s := (Run.run (step id ⟨[], 1⟩ fun _ => [7]) Store.empty as).getD Store.empty
    s.disk.bytes 0 = chunkBytes [7] 1 0 ∨
      ∃ y : ObjectId, DownloadedIn as y ∧
        computeObjectHashInput y.bucketName y.objectName y.generation ≠ computeObjectHashInput "b" "o" 1 ∧
        computeObjectHash id y.bucketName y.objectName y.generation = computeObjectHash id "b" "o" 1 :=
  @chunk_file_holds_its_chunk id ⟨[], 1⟩ (fun _ => [7]) _ (by decide)
    [.start ⟨"b", "o", 1⟩ 0 0, .create (tmpPathOf id ⟨[], 1⟩ ⟨"b", "o", 1⟩ 0 0),
      .copy (tmpPathOf id ⟨[], 1⟩ ⟨"b", "o", 1⟩ 0 0) 1, .rename (tmpPathOf id ⟨[], 1⟩ ⟨"b", "o", 1⟩ 0 0)] rfl
    ⟨"b", "o", 1⟩ 0 0 rfl

/-- **Each generation's view is what the reader's model assumes**, when
no generation the run downloaded has another hash input with its
digest. -/
theorem view_valid (hC : 0 < m.chunkSize) {as : List Action}
    (h : Run.run (step sha256 m content) Store.empty as = some s) (x : ObjectId)
    (hsha : ∀ y : ObjectId, DownloadedIn as y → computeObjectHash sha256 y.bucketName y.objectName y.generation =
        computeObjectHash sha256 x.bucketName x.objectName x.generation →
      computeObjectHashInput y.bucketName y.objectName y.generation =
        computeObjectHashInput x.bucketName x.objectName x.generation) :
    Valid (content x) m.chunkSize (view sha256 m s x) := by
  intro k bytes hk
  obtain ⟨i, hi, rfl⟩ := Option.map_eq_some_iff.mp hk
  obtain ⟨y, hy, hbytes, rfl | ⟨hinput, hhash⟩⟩ := chunk_of_path_of_run hC h hi
  · exact hbytes
  · exact absurd (hsha y hy hhash) hinput

end SharedStore

end FileCache

end GcsFuse
