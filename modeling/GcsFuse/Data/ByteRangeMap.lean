import GcsFuse.Data.FileInfo
import GcsFuse.Common.Chunks
/-!
# ByteRangeMap — what it records

`AddRange(start, end)` marks the chunks from the one of `start` to the one
of `end - 1`, and the loops of `ContainsRange` and `GetMissingChunks` visit
the same chunks (`chunkRange`). It marks exactly the chunks
`GetMissingChunks` reports and returns their sizes (`addRange_eq`); so a
range just added is contained, and so is any range inside it
(`addRange_containsRange`), and a contained range touches marked chunks
only (`chunkID_mem_of_containsRange`), each of which some `AddRange`
visited (`marked_of_foldl`).

`totalBytes` is meant to count the bytes of the file the marked chunks
hold. With `fileSize < 2 ^ 64 - chunkSize` nothing in `chunkSizeOf` wraps,
and the size it returns is the chunk's bytes in the file
(`chunkSizeOf_toNat`); each chunk is marked once, so the sizes add up to at
most `fileSize` and `totalBytes` does not wrap either (`Accounts`, kept by
every call).
-/

namespace GcsFuse

namespace Data

namespace ByteRangeMap

/-- The calls that change a map. -/
inductive Op
  | addRange (start stop : UInt64)
  | clear
  deriving DecidableEq, Repr

/-- One call. -/
def apply (brm : ByteRangeMap) : Op → ByteRangeMap
  | .addRange start stop => (brm.addRange start stop).1
  | .clear => brm.clear

/-- The map `NewByteRangeMap` makes, after a sequence of calls. -/
def run (chunkSize fileSize : UInt64) (ops : List Op) : ByteRangeMap :=
  ops.foldl apply (new chunkSize fileSize)

/-- A sum of `uint64`s is the sum of the numbers modulo `2 ^ 64`. -/
theorem toNat_sum_map {α : Type} (f : α → UInt64) (l : List α) :
    (l.map f).sum.toNat = (l.map fun a => (f a).toNat).sum % 2 ^ 64 := by
  induction l with
  | nil => rfl
  | cons a l ih =>
    simp only [List.map_cons, List.sum_cons, UInt64.toNat_add, ih]
    omega

variable (brm : ByteRangeMap)

/-! ## The chunks a range covers -/

theorem mem_chunkRange {start stop : UInt64} {id : ℕ} :
    id ∈ brm.chunkRange start stop ↔
      (brm.chunkID start).toNat ≤ id ∧ id ≤ (brm.chunkID (stop - 1)).toNat := by
  simp only [chunkRange, List.mem_range'_1]
  omega

theorem nodup_chunkRange (start stop : UInt64) : (brm.chunkRange start stop).Nodup :=
  List.nodup_range' ..

theorem chunkID_le {a b : UInt64} (h : a ≤ b) : (brm.chunkID a).toNat ≤ (brm.chunkID b).toNat := by
  simp only [chunkID, UInt64.toNat_div]
  exact Nat.div_le_div_right (UInt64.le_iff_toNat_le.1 h)

theorem toNat_sub_one {e : UInt64} (h : 0 < e) : (e - 1).toNat = e.toNat - 1 := by
  have hpos : 0 < e.toNat := by simpa using UInt64.lt_iff_toNat_lt.1 h
  rw [UInt64.toNat_sub_of_le _ _ (UInt64.le_iff_toNat_le.2 (by rw [UInt64.toNat_one]; omega)),
    UInt64.toNat_one]

theorem pos_of_lt {o e : UInt64} (h : o < e) : 0 < e := by
  have hlt := UInt64.lt_iff_toNat_lt.1 h
  exact UInt64.lt_iff_toNat_lt.2 (by rw [UInt64.toNat_zero]; omega)

/-- The offsets of a nonempty range lie at or below its last byte. -/
theorem le_sub_one {o e : UInt64} (h : o < e) : o ≤ e - 1 := by
  have hlt := UInt64.lt_iff_toNat_lt.1 h
  rw [UInt64.le_iff_toNat_le, toNat_sub_one (pos_of_lt h)]
  omega

/-- The chunk of every byte of a range is among the range's chunks. -/
theorem chunkID_mem_chunkRange {s e o : UInt64} (hso : s ≤ o) (hoe : o < e) :
    (brm.chunkID o).toNat ∈ brm.chunkRange s e :=
  (brm.mem_chunkRange).2 ⟨brm.chunkID_le hso, brm.chunkID_le (le_sub_one hoe)⟩

/-- A range inside another covers some of its chunks. -/
theorem chunkRange_mono {s e s' e' : UInt64} (hs : s ≤ s') (hlt : s' < e') (he : e' ≤ e) {id : ℕ}
    (hid : id ∈ brm.chunkRange s' e') : id ∈ brm.chunkRange s e := by
  have hlast : e' - 1 ≤ e - 1 := by
    have hle := UInt64.le_iff_toNat_le.1 he
    have hlt' := UInt64.lt_iff_toNat_lt.1 hlt
    rw [UInt64.le_iff_toNat_le, toNat_sub_one (pos_of_lt hlt),
      toNat_sub_one (pos_of_lt (UInt64.lt_iff_toNat_lt.2 (by omega : s'.toNat < e.toNat)))]
    omega
  rw [mem_chunkRange] at hid ⊢
  exact ⟨le_trans (brm.chunkID_le hs) hid.1, le_trans hid.2 (brm.chunkID_le hlast)⟩

/-! ## What `AddRange` marks -/

/-- The loop of `AddRange` over distinct IDs marks, in turn, those not
marked yet, and adds up their sizes. -/
theorem foldl_markChunk : ∀ (ids base : List ℕ) (s : UInt64), ids.Nodup →
    ids.foldl brm.markChunk (base, s) =
      ((ids.filter (· ∉ base)).reverse ++ base, s + ((ids.filter (· ∉ base)).map brm.chunkSizeOf).sum)
  | [], base, s, _ => by simp
  | id :: ids, base, s, hnd => by
    rw [List.nodup_cons] at hnd
    by_cases hid : id ∈ base
    · rw [List.foldl_cons, markChunk, if_pos hid, foldl_markChunk ids base s hnd.2]
      simp [hid]
    · rw [List.foldl_cons, markChunk, if_neg hid, foldl_markChunk ids (id :: base) _ hnd.2]
      -- `id` is not among the rest, so marking it first changes no later test
      have hrest : ids.filter (· ∉ id :: base) = ids.filter (· ∉ base) := by
        refine List.filter_congr fun x hx => ?_
        have hne : x ≠ id := fun h => hnd.1 (h ▸ hx)
        simp [hne]
      rw [hrest]
      simp [hid, UInt64.add_assoc]

/-- **`AddRange` marks the chunks `GetMissingChunks` reports**, and returns
the sum of their sizes. -/
theorem addRange_eq (start stop : UInt64) :
    brm.addRange start stop =
      ({ brm with
        chunks := (brm.getMissingChunks start stop).reverse ++ brm.chunks
        totalBytes := brm.totalBytes + ((brm.getMissingChunks start stop).map brm.chunkSizeOf).sum },
       ((brm.getMissingChunks start stop).map brm.chunkSizeOf).sum) := by
  unfold addRange getMissingChunks
  split_ifs with h
  · simp
  · rw [foldl_markChunk brm _ _ _ (brm.nodup_chunkRange start stop)]
    simp

theorem containsRange_iff (start stop : UInt64) :
    brm.containsRange start stop = true ↔ brm.getMissingChunks start stop = [] := by
  unfold containsRange getMissingChunks
  split_ifs with h
  · simp [h]
  · simp [h, List.all_eq_true, List.filter_eq_nil_iff]

/-- After `AddRange(s, e)` every range inside `[s, e)` is contained. -/
theorem addRange_containsRange {s e s' e' : UInt64} (hs : s ≤ s') (hlt : s' < e') (he : e' ≤ e) :
    (brm.addRange s e).1.containsRange s' e' = true := by
  have hse : ¬ e ≤ s := by
    have := UInt64.le_iff_toNat_le.1 hs
    have := UInt64.lt_iff_toNat_lt.1 hlt
    have := UInt64.le_iff_toNat_le.1 he
    rw [UInt64.le_iff_toNat_le]
    omega
  rw [addRange_eq]
  simp only [containsRange, Bool.or_eq_true, decide_eq_true_eq, List.all_eq_true]
  refine .inr fun id hid => ?_
  have hid' : id ∈ brm.chunkRange s e := brm.chunkRange_mono hs hlt he hid
  by_cases hm : id ∈ brm.chunks
  · simp [hm]
  · have hmiss : id ∈ brm.getMissingChunks s e := by simp [getMissingChunks, hse, hid', hm]
    simp [hmiss]

/-- **A contained range touches marked chunks only.** -/
theorem chunkID_mem_of_containsRange {s e : UInt64} (h : brm.containsRange s e = true) {o : UInt64}
    (hso : s ≤ o) (hoe : o < e) : (brm.chunkID o).toNat ∈ brm.chunks := by
  have hse : ¬ e ≤ s := by
    have := UInt64.le_iff_toNat_le.1 hso
    have := UInt64.lt_iff_toNat_lt.1 hoe
    rw [UInt64.le_iff_toNat_le]
    omega
  simp only [containsRange, hse, decide_false, Bool.false_or, List.all_eq_true, decide_eq_true_eq] at h
  exact h _ (brm.chunkID_mem_chunkRange hso hoe)

theorem mem_getMissingChunks {start stop : UInt64} {id : ℕ} :
    id ∈ brm.getMissingChunks start stop ↔
      ¬ stop ≤ start ∧ id ∈ brm.chunkRange start stop ∧ id ∉ brm.chunks := by
  unfold getMissingChunks
  split_ifs with h <;> simp [h]

theorem nodup_getMissingChunks (start stop : UInt64) : (brm.getMissingChunks start stop).Nodup := by
  unfold getMissingChunks
  split_ifs
  · exact List.nodup_nil
  · exact (brm.nodup_chunkRange start stop).filter _

/-! ## What `totalBytes` counts -/

/-- Where nothing wraps, `chunkSizeOf` is the chunk's bytes in the file. -/
theorem chunkSizeOf_toNat (hpos : 0 < brm.chunkSize)
    (hfs : brm.fileSize.toNat < 2 ^ 64 - brm.chunkSize.toNat) {id : ℕ}
    (hid : id * brm.chunkSize.toNat < 2 ^ 64) :
    (brm.chunkSizeOf id).toNat = Chunks.len brm.chunkSize.toNat brm.fileSize.toNat id := by
  have hc : 0 < brm.chunkSize.toNat := by simpa using UInt64.lt_iff_toNat_lt.1 hpos
  have hid' : id < 2 ^ 64 := lt_of_le_of_lt (Nat.le_mul_of_pos_right id hc) hid
  have hstart : (UInt64.ofNat id * brm.chunkSize).toNat = id * brm.chunkSize.toNat := by
    rw [UInt64.toNat_mul, UInt64.toNat_ofNat', Nat.mod_eq_of_lt hid', Nat.mod_eq_of_lt hid]
  unfold chunkSizeOf Chunks.len
  dsimp only
  rw [Nat.succ_mul]
  split_ifs with h1 h2
  · rw [UInt64.le_iff_toNat_le, hstart] at h1
    rw [UInt64.toNat_zero]
    generalize id * brm.chunkSize.toNat = S at *
    omega
  · -- the last chunk, cut at the end of the file
    rw [UInt64.le_iff_toNat_le, hstart] at h1
    rw [UInt64.lt_iff_toNat_lt, UInt64.toNat_add, hstart] at h2
    rw [UInt64.toNat_sub_of_le _ _ (UInt64.le_iff_toNat_le.2 (by rw [hstart]; omega)), hstart]
    generalize id * brm.chunkSize.toNat = S at *
    omega
  · rw [UInt64.le_iff_toNat_le, hstart] at h1
    rw [UInt64.lt_iff_toNat_lt, UInt64.toNat_add, hstart] at h2
    generalize id * brm.chunkSize.toNat = S at *
    omega

/-- The chunks a range covers start below `2 ^ 64`. -/
theorem lt_of_mem_chunkRange {start stop : UInt64} {id : ℕ} (hid : id ∈ brm.chunkRange start stop) :
    id * brm.chunkSize.toNat < 2 ^ 64 := by
  have hle := ((brm.mem_chunkRange).1 hid).2
  simp only [chunkID, UInt64.toNat_div] at hle
  calc id * brm.chunkSize.toNat
      ≤ (stop - 1).toNat / brm.chunkSize.toNat * brm.chunkSize.toNat := Nat.mul_le_mul_right _ hle
    _ ≤ (stop - 1).toNat := Nat.div_mul_le_self _ _
    _ < 2 ^ 64 := UInt64.toNat_lt _

/-- **What `totalBytes` counts**: the file's bytes in the marked chunks,
each marked once, in a map where nothing in `chunkSizeOf` wraps. -/
structure Accounts : Prop where
  chunkSize_pos : 0 < brm.chunkSize
  fileSize_lt : brm.fileSize.toNat < 2 ^ 64 - brm.chunkSize.toNat
  nodup : brm.chunks.Nodup
  in_range : ∀ id ∈ brm.chunks, id * brm.chunkSize.toNat < 2 ^ 64
  total : brm.totalBytes.toNat = (brm.chunks.map (Chunks.len brm.chunkSize.toNat brm.fileSize.toNat)).sum

variable {brm}

theorem Accounts.chunkSize_toNat_pos (h : brm.Accounts) : 0 < brm.chunkSize.toNat := by
  simpa using UInt64.lt_iff_toNat_lt.1 h.chunkSize_pos

theorem Accounts.totalBytes_le (h : brm.Accounts) : brm.totalBytes.toNat ≤ brm.fileSize.toNat := by
  rw [h.total]
  exact Chunks.sum_len_le h.chunkSize_toNat_pos _ h.nodup

theorem accounts_new {chunkSize fileSize : UInt64} (hc : 0 < chunkSize)
    (hfs : fileSize.toNat < 2 ^ 64 - chunkSize.toNat) : (new chunkSize fileSize).Accounts := by
  have hne : chunkSize ≠ 0 := fun h0 => by
    rw [h0] at hc
    exact UInt64.lt_irrefl 0 hc
  refine ⟨?_, ?_, List.nodup_nil, fun id hid => absurd hid List.not_mem_nil, rfl⟩
  · simpa [new, hne] using hc
  · simpa [new, hne] using hfs

theorem Accounts.clear (h : brm.Accounts) : brm.clear.Accounts :=
  ⟨h.chunkSize_pos, h.fileSize_lt, List.nodup_nil, fun _ hid => absurd hid List.not_mem_nil, rfl⟩

/-- **`AddRange` keeps the count**: `totalBytes` grows by what it returns,
the file's bytes in the chunks it marks. -/
theorem Accounts.addRange (h : brm.Accounts) (start stop : UInt64) :
    (brm.addRange start stop).1.Accounts ∧
      (brm.addRange start stop).1.totalBytes.toNat =
        brm.totalBytes.toNat + (brm.addRange start stop).2.toNat ∧
      (brm.addRange start stop).2.toNat =
        ((brm.getMissingChunks start stop).map (Chunks.len brm.chunkSize.toNat brm.fileSize.toNat)).sum := by
  set missing := brm.getMissingChunks start stop with hmissing
  have hmem : ∀ id ∈ missing, id ∈ brm.chunkRange start stop ∧ id ∉ brm.chunks := fun id hid =>
    ((brm.mem_getMissingChunks).1 hid).2
  -- the chunks it marks are new, so every chunk stays marked once
  have hnd : (missing.reverse ++ brm.chunks).Nodup := by
    refine List.nodup_append.2 ⟨List.nodup_reverse.2 (brm.nodup_getMissingChunks start stop), h.nodup, ?_⟩
    intro a ha b hb hab
    exact (hmem a (List.mem_reverse.1 ha)).2 (hab ▸ hb)
  have hrange : ∀ id ∈ missing, id * brm.chunkSize.toNat < 2 ^ 64 := fun id hid =>
    brm.lt_of_mem_chunkRange (hmem id hid).1
  have hbound : (missing.map (Chunks.len brm.chunkSize.toNat brm.fileSize.toNat)).sum +
      (brm.chunks.map (Chunks.len brm.chunkSize.toNat brm.fileSize.toNat)).sum ≤ brm.fileSize.toNat := by
    have hle := Chunks.sum_len_le h.chunkSize_toNat_pos brm.fileSize.toNat hnd
    rwa [List.map_append, List.sum_append, List.map_reverse, List.sum_reverse] at hle
  have hcongr : missing.map (fun id => (brm.chunkSizeOf id).toNat) =
      missing.map (Chunks.len brm.chunkSize.toNat brm.fileSize.toNat) :=
    List.map_congr_left fun id hid => brm.chunkSizeOf_toNat h.chunkSize_pos h.fileSize_lt (hrange id hid)
  have hadded : ((missing.map brm.chunkSizeOf).sum).toNat =
      (missing.map (Chunks.len brm.chunkSize.toNat brm.fileSize.toNat)).sum := by
    rw [toNat_sum_map, hcongr]
    exact Nat.mod_eq_of_lt (by have := h.fileSize_lt; omega)
  have hsum : (brm.totalBytes + (missing.map brm.chunkSizeOf).sum).toNat =
      brm.totalBytes.toNat + (missing.map (Chunks.len brm.chunkSize.toNat brm.fileSize.toNat)).sum := by
    rw [UInt64.toNat_add, hadded, h.total]
    exact Nat.mod_eq_of_lt (by have := h.fileSize_lt; omega)
  rw [addRange_eq]
  refine ⟨⟨h.chunkSize_pos, h.fileSize_lt, hnd, fun id hid => ?_, ?_⟩, by rw [hsum, hadded], hadded⟩
  · rcases List.mem_append.1 hid with hm | hc
    · exact hrange id (List.mem_reverse.1 hm)
    · exact h.in_range id hc
  · show (brm.totalBytes + (missing.map brm.chunkSizeOf).sum).toNat =
      ((missing.reverse ++ brm.chunks).map (Chunks.len brm.chunkSize.toNat brm.fileSize.toNat)).sum
    rw [hsum, h.total, List.map_append, List.sum_append, List.map_reverse, List.sum_reverse]
    omega

@[simp] theorem chunkSize_apply (brm : ByteRangeMap) (op : Op) : (brm.apply op).chunkSize = brm.chunkSize := by
  cases op with
  | addRange start stop => rw [apply, addRange_eq]
  | clear => rfl

@[simp] theorem fileSize_apply (brm : ByteRangeMap) (op : Op) : (brm.apply op).fileSize = brm.fileSize := by
  cases op with
  | addRange start stop => rw [apply, addRange_eq]
  | clear => rfl

theorem Accounts.apply (h : brm.Accounts) : ∀ op, (brm.apply op).Accounts
  | .addRange start stop => (h.addRange start stop).1
  | .clear => h.clear

/-- **Every sequence of calls keeps the count**: induction on the calls. -/
theorem Accounts.foldl : ∀ (ops : List Op) {brm : ByteRangeMap}, brm.Accounts →
    (ops.foldl ByteRangeMap.apply brm).Accounts
  | [], _, h => h
  | op :: ops, _, h => Accounts.foldl ops (h.apply op)

theorem foldl_chunkSize : ∀ (ops : List Op) (brm : ByteRangeMap), (ops.foldl apply brm).chunkSize = brm.chunkSize
  | [], _ => rfl
  | op :: ops, brm => by rw [List.foldl_cons, foldl_chunkSize ops, chunkSize_apply]

theorem foldl_fileSize : ∀ (ops : List Op) (brm : ByteRangeMap), (ops.foldl apply brm).fileSize = brm.fileSize
  | [], _ => rfl
  | op :: ops, brm => by rw [List.foldl_cons, foldl_fileSize ops, fileSize_apply]

/-- The chunks of a range depend on the chunk size only. -/
theorem chunkRange_congr {brm' : ByteRangeMap} (h : brm'.chunkSize = brm.chunkSize) :
    brm'.chunkRange = brm.chunkRange := by
  unfold chunkRange chunkID
  rw [h]

/-- **Every marked chunk was visited by some `AddRange` of the run**, or
was marked before it. -/
theorem marked_of_foldl : ∀ (ops : List Op) (brm : ByteRangeMap) (id : ℕ),
    id ∈ (ops.foldl apply brm).chunks →
      id ∈ brm.chunks ∨ ∃ a b, Op.addRange a b ∈ ops ∧ a < b ∧ id ∈ brm.chunkRange a b
  | [], _, _, h => .inl h
  | op :: ops, brm, id, h => by
    have hr : (brm.apply op).chunkRange = brm.chunkRange := chunkRange_congr (chunkSize_apply brm op)
    rcases marked_of_foldl ops (brm.apply op) id h with h₁ | ⟨a, b, hop, hab, hid⟩
    · cases op with
      | addRange a b =>
        rw [apply, addRange_eq] at h₁
        rcases List.mem_append.1 h₁ with hm | hold
        · obtain ⟨hba, hid, -⟩ := (brm.mem_getMissingChunks).1 (List.mem_reverse.1 hm)
          exact .inr ⟨a, b, List.mem_cons_self, UInt64.not_le.1 hba, hid⟩
        · exact .inl hold
      | clear => exact absurd h₁ List.not_mem_nil
    · exact .inr ⟨a, b, List.mem_cons_of_mem _ hop, hab, hr ▸ hid⟩

/-- **`totalBytes` over any sequence of `AddRange` and `Clear`** from
`NewByteRangeMap(chunkSize, fileSize)`, `chunkSize > 0` and
`fileSize < 2 ^ 64 - chunkSize`: it is the sum over the marked chunks of
their bytes in the file, which is what `chunkSizeOf` returns for them, so
at most `fileSize`; and each further `AddRange` returns exactly what
`totalBytes` grows by, the bytes in the file of the chunks it newly marks. -/
theorem total_bytes_counts_marked_chunks {chunkSize fileSize : UInt64} (hc : 0 < chunkSize)
    (hfs : fileSize.toNat < 2 ^ 64 - chunkSize.toNat) (ops : List Op) :
    let brm := run chunkSize fileSize ops
    brm.totalBytes.toNat = (brm.chunks.map (Chunks.len chunkSize.toNat fileSize.toNat)).sum ∧
      (∀ id ∈ brm.chunks, (brm.chunkSizeOf id).toNat = Chunks.len chunkSize.toNat fileSize.toNat id) ∧
      brm.totalBytes.toNat ≤ fileSize.toNat ∧
      ∀ start stop,
        (brm.addRange start stop).1.totalBytes.toNat = brm.totalBytes.toNat + (brm.addRange start stop).2.toNat ∧
        (brm.addRange start stop).2.toNat =
          ((brm.getMissingChunks start stop).map (Chunks.len chunkSize.toNat fileSize.toNat)).sum ∧
        (brm.addRange start stop).1.chunks.Perm (brm.getMissingChunks start stop ++ brm.chunks) := by
  intro brm
  have h : brm.Accounts := Accounts.foldl ops (accounts_new hc hfs)
  -- the run keeps the size of the chunks and of the file `new` set
  have hne : chunkSize ≠ 0 := fun h0 => by
    rw [h0] at hc
    exact UInt64.lt_irrefl 0 hc
  have hcs : brm.chunkSize = chunkSize := by
    show (ops.foldl apply (new chunkSize fileSize)).chunkSize = chunkSize
    rw [foldl_chunkSize]
    simp [new, hne]
  have hfile : brm.fileSize = fileSize := by
    show (ops.foldl apply (new chunkSize fileSize)).fileSize = fileSize
    rw [foldl_fileSize]
    rfl
  rw [← hcs, ← hfile]
  refine ⟨h.total, fun id hid => brm.chunkSizeOf_toNat h.chunkSize_pos h.fileSize_lt (h.in_range id hid),
    h.totalBytes_le, fun start stop => ?_⟩
  obtain ⟨-, hgrow, hret⟩ := h.addRange start stop
  refine ⟨hgrow, hret, ?_⟩
  rw [addRange_eq]
  exact (List.reverse_perm _).append_right _

/-- A range past the end of a file of `10` bytes in chunks of `4`: the
count stays within the file. -/
theorem total_bytes_within_ten_byte_file :
    (run 4 10 [.addRange 6 12]).totalBytes.toNat ≤ 10 :=
  (total_bytes_counts_marked_chunks (by decide) (by decide) [.addRange 6 12]).2.2.1

/-- **`ContainsRange`, `GetMissingChunks` and `AddRange` agree.** For every
map, a range is contained exactly when no chunk of it is missing; after
`AddRange(s, e)` every range inside `[s, e)` is contained; and on a map a
sequence of calls made, a contained range touches only marked chunks, each
visited by some `AddRange` of the sequence. -/
theorem contains_range_covers_marked_chunks :
    (∀ (brm : ByteRangeMap) start stop,
      brm.containsRange start stop = true ↔ brm.getMissingChunks start stop = []) ∧
    (∀ (brm : ByteRangeMap) (s e s' e' : UInt64), s ≤ s' → s' < e' → e' ≤ e →
      (brm.addRange s e).1.containsRange s' e' = true) ∧
    ∀ (chunkSize fileSize : UInt64) (ops : List Op) (s e o : UInt64),
      (run chunkSize fileSize ops).containsRange s e = true → s ≤ o → o < e →
        ((run chunkSize fileSize ops).chunkID o).toNat ∈ (run chunkSize fileSize ops).chunks ∧
        ∃ a b, Op.addRange a b ∈ ops ∧ a < b ∧
          ((run chunkSize fileSize ops).chunkID o).toNat ∈ (run chunkSize fileSize ops).chunkRange a b := by
  refine ⟨fun brm start stop => brm.containsRange_iff start stop,
    fun brm s e s' e' hs hlt he => brm.addRange_containsRange hs hlt he,
    fun chunkSize fileSize ops s e o hcont hso hoe => ?_⟩
  have hmarked := (run chunkSize fileSize ops).chunkID_mem_of_containsRange hcont hso hoe
  refine ⟨hmarked, ?_⟩
  rcases marked_of_foldl ops (new chunkSize fileSize) _ hmarked with hnew | ⟨a, b, hop, hab, hid⟩
  · exact absurd hnew List.not_mem_nil
  · exact ⟨a, b, hop, hab, by rwa [run, chunkRange_congr (foldl_chunkSize ops _)]⟩

end ByteRangeMap

end Data

end GcsFuse
