import GcsFuse.Downloader.ParallelJob
/-!
# Parallel downloads — what the range map and the offset track

Each call of `updateRangeMap` with a range disjoint from the ranges
reported before keeps the map an encoding of their maximal runs and the
offset at most their covered prefix, and moves the offset to that prefix
when its `updateStatusOffset` succeeds (`updateRangeMap_tracks`). The
driver's ranges tile `[0, object.Size)`, so any order of reports of
distinct ranges meets that condition at every call.
-/

namespace GcsFuse

namespace Downloader

open Data Lru Runs

variable {S : Set ℕ} {m : AList (fun _ : ℕ => ℕ)} {s e : ℕ}

/-! ## The map half -/

theorem mergeLeft_lookup (m : AList (fun _ : ℕ => ℕ)) (s k : ℕ) (hk : k ≠ (mergeLeft m s).2) :
    (mergeLeft m s).1.lookup k = if k = s then none else m.lookup k := by
  unfold mergeLeft at hk ⊢
  by_cases hs : s ≠ 0
  · rw [if_pos hs] at hk ⊢
    cases hl : m.lookup s with
    | some l =>
      simp only [hl] at hk ⊢
      rw [AList.lookup_erase_ne hk]
      split_ifs with hks
      · rw [hks, AList.lookup_erase]
      · exact AList.lookup_erase_ne hks
    | none =>
      simp only [hl] at hk ⊢
      rw [if_neg hk]
  · rw [if_neg hs] at hk ⊢
    rw [if_neg hk]

theorem mergeRight_lookup (m : AList (fun _ : ℕ => ℕ)) (e k : ℕ) (hk : k ≠ (mergeRight m e).2) :
    (mergeRight m e).1.lookup k = if k = e then none else m.lookup k := by
  unfold mergeRight at hk ⊢
  cases hr : m.lookup e with
  | some r =>
    simp only [hr] at hk ⊢
    rw [AList.lookup_erase_ne hk]
    split_ifs with hke
    · rw [hke, AList.lookup_erase]
    · exact AList.lookup_erase_ne hke
  | none =>
    simp only [hr] at hk ⊢
    rw [if_neg hk]

theorem mergeRight_snd (m : AList (fun _ : ℕ => ℕ)) (e : ℕ) :
    (mergeRight m e).2 = (m.lookup e).getD e := by
  unfold mergeRight
  cases m.lookup e <;> rfl

/-- The left half finds where the joined run starts. At `0` nothing can
end, which is why the code does not look. -/
theorem mergeLeft_startsAt (hm : Encodes (fun k => m.lookup k) S) (hs : s ∉ S) :
    StartsAt S s (mergeLeft m s).2 := by
  by_cases h0 : s = 0
  · have hfs : (mergeLeft m s).2 = s := by
      unfold mergeLeft
      rw [if_neg (not_not.2 h0)]
    rw [hfs]
    exact .inr ⟨rfl, .inl h0⟩
  · have hfs : (mergeLeft m s).2 = (m.lookup s).getD s := by
      unfold mergeLeft
      rw [if_pos h0]
      cases m.lookup s <;> rfl
    rw [hfs]
    exact hm.startsAt hs

/-- **The map half of `updateRangeMap` is the library's merge.** -/
theorem mergeRange_encodes (hm : Encodes (fun k => m.lookup k) S) (hb : BddAbove S) (hse : s < e)
    (hdisj : ∀ x, s ≤ x → x < e → x ∉ S) :
    Encodes (fun k => (mergeRange m s e).1.lookup k) (S ∪ Set.Ico s e) ∧
      StartsAt S s (mergeRange m s e).2.1 ∧ EndsAt S e (mergeRange m s e).2.2 := by
  have hs : s ∉ S := hdisj s le_rfl hse
  have hfs : StartsAt S s (mergeLeft m s).2 := mergeLeft_startsAt hm hs
  have hfss := hfs.le hse hdisj
  -- the right half reads the original map at `e`, which the left half left alone
  have hle : (mergeLeft m s).1.lookup e = m.lookup e := by
    rw [mergeLeft_lookup m s e (by omega), if_neg (by omega)]
  have hfe : EndsAt S e (mergeRight (mergeLeft m s).1 e).2 := by
    rw [mergeRight_snd, hle]
    exact hm.endsAt hb (.inr (hdisj (e - 1) (by omega) (by omega)))
  have hfee := hfe.ge hse hdisj
  refine ⟨?_, hfs, hfe⟩
  refine hm.union hse hdisj hfs hfe ?_ ?_ fun k hkfs hkfe => ?_
  · show AList.lookup _ (AList.insert _ _ (AList.insert _ _ _)) = _
    rw [AList.lookup_insert_ne (by omega), AList.lookup_insert]
  · show AList.lookup _ (AList.insert _ _ (AList.insert _ _ _)) = _
    rw [AList.lookup_insert]
  · show AList.lookup _ (AList.insert _ _ (AList.insert _ _ _)) = _
    rw [AList.lookup_insert_ne hkfe, AList.lookup_insert_ne hkfs,
      mergeRight_lookup _ e k hkfe, mergeLeft_lookup m s k hkfs]
    by_cases hke : k = e
    · simp [hke]
    · by_cases hks : k = s
      · simp [hks]
      · simp [hke, hks]

/-! ## One call -/

/-- **What one call does**: the map is merged, and the offset moves to
the joined run's end exactly when the run starts at `0` and
`updateStatusOffset` succeeds. -/
theorem updateRangeMap_spec (job : JobSpec) (c : Cache FileInfo) (st : ParallelJob) (s e : ℕ) :
    (updateRangeMap job c st s e).1.rangeMap = (mergeRange st.rangeMap s e).1 ∧
      (((mergeRange st.rangeMap s e).2.1 = 0 ∧ (updateRangeMap job c st s e).2.isOk = true ∧
          (updateRangeMap job c st s e).1.offset = (mergeRange st.rangeMap s e).2.2) ∨
        ((updateRangeMap job c st s e).1.offset = st.offset ∧
          ((updateRangeMap job c st s e).2.isOk = true → (mergeRange st.rangeMap s e).2.1 ≠ 0))) := by
  unfold updateRangeMap
  dsimp only
  split
  · rename_i h0
    split
    · exact ⟨rfl, .inl ⟨h0, rfl, rfl⟩⟩
    · exact ⟨rfl, .inr ⟨rfl, fun h => nomatch h⟩⟩
  · rename_i h0
    exact ⟨rfl, .inr ⟨rfl, fun _ => h0⟩⟩

/-- What the state says of the ranges `done` reported so far: the map
encodes their runs, and the offset is at most their covered prefix. -/
structure Tracks (st : ParallelJob) (done : List (ℕ × ℕ)) : Prop where
  encodes : Encodes (fun k => st.rangeMap.lookup k) (covered done)
  offset_le : ∀ R, PrefixEnd (covered done) R → st.offset ≤ R

theorem tracks_init : Tracks ⟨∅, 0⟩ [] where
  encodes := by
    simp only [AList.lookup_empty, covered_nil]
    exact encodes_empty
  offset_le _ _ := Nat.zero_le _

/-- **A merge keeps the tracking**, with the offset where it was or, when
the joined run starts at `0`, at the run's end; the offset does not go
down. -/
theorem Tracks.merge {st : ParallelJob} {done : List (ℕ × ℕ)} (h : Tracks st done) (hse : s < e)
    (hdisj : ∀ x, s ≤ x → x < e → x ∉ covered done) {o : ℕ}
    (ho : o = st.offset ∨
      ((mergeRange st.rangeMap s e).2.1 = 0 ∧ o = (mergeRange st.rangeMap s e).2.2)) :
    Tracks ⟨(mergeRange st.rangeMap s e).1, o⟩ (done ++ [(s, e)]) ∧ st.offset ≤ o := by
  obtain ⟨henc, hfs, hfe⟩ := mergeRange_encodes h.encodes (bddAbove_covered done) hse hdisj
  obtain ⟨R, hR⟩ := exists_prefixEnd (bddAbove_covered done)
  -- the prefix after the merge, and the old one below it
  have hR' := hR.union hse hdisj hfs hfe
  have hRle : R ≤ (if (mergeRange st.rangeMap s e).2.1 = 0 then
      (mergeRange st.rangeMap s e).2.2 else R) := hR.le_of_subset hR' Set.subset_union_left
  have hoff := h.offset_le R hR
  have hcov := covered_append_singleton done s e
  refine ⟨⟨by rw [hcov]; exact henc, fun R'' hR'' => ?_⟩, ?_⟩
  · rw [hcov] at hR''
    rw [← hR'.eq hR'']
    rcases ho with rfl | ⟨h0, rfl⟩
    · exact hoff.trans hRle
    · rw [if_pos h0]
  · rcases ho with rfl | ⟨h0, rfl⟩
    · exact le_rfl
    · rw [if_pos h0] at hRle
      exact hoff.trans hRle

/-- **One call keeps the tracking**, never lowers the offset, and keeps it
at the covered prefix when it succeeds. -/
theorem updateRangeMap_tracks (job : JobSpec) (c : Cache FileInfo) {st : ParallelJob}
    {done : List (ℕ × ℕ)} (h : Tracks st done) (hse : s < e)
    (hdisj : ∀ x, s ≤ x → x < e → x ∉ covered done) :
    Tracks (updateRangeMap job c st s e).1 (done ++ [(s, e)]) ∧
      st.offset ≤ (updateRangeMap job c st s e).1.offset ∧
      ((updateRangeMap job c st s e).2.isOk = true → PrefixEnd (covered done) st.offset →
        PrefixEnd (covered (done ++ [(s, e)])) (updateRangeMap job c st s e).1.offset) := by
  obtain ⟨hmap, hcase⟩ := updateRangeMap_spec job c st s e
  -- the map and the offset are those of a merge
  have ho : (updateRangeMap job c st s e).1.offset = st.offset ∨
      ((mergeRange st.rangeMap s e).2.1 = 0 ∧
        (updateRangeMap job c st s e).1.offset = (mergeRange st.rangeMap s e).2.2) := by
    rcases hcase with ⟨h0, -, hoff'⟩ | ⟨hoff', -⟩
    · exact .inr ⟨h0, hoff'⟩
    · exact .inl hoff'
  have heq : (updateRangeMap job c st s e).1 =
      ⟨(mergeRange st.rangeMap s e).1, (updateRangeMap job c st s e).1.offset⟩ := by
    rw [← hmap]
  obtain ⟨htracks, hle⟩ := h.merge hse hdisj ho
  refine ⟨heq ▸ htracks, hle, fun hok hexact => ?_⟩
  -- a successful call lands on the prefix: from the new one, or an unchanged one
  obtain ⟨-, hfs, hfe⟩ := mergeRange_encodes h.encodes (bddAbove_covered done) hse hdisj
  rw [covered_append_singleton]
  rcases hcase with ⟨h0, -, hoff'⟩ | ⟨hoff', hne⟩
  · obtain ⟨R, hR⟩ := exists_prefixEnd (bddAbove_covered done)
    have hR' := hR.union hse hdisj hfs hfe
    rw [if_pos h0] at hR'
    rwa [hoff']
  · have hR' := hexact.union hse hdisj hfs hfe
    rw [if_neg (hne hok)] at hR'
    rwa [hoff']

/-! ## Runs of calls -/

theorem updateRangeMaps_append (job : JobSpec) (st : ParallelJob)
    (pre post : List (Cache FileInfo × ℕ × ℕ)) :
    updateRangeMaps job st (pre ++ post) =
      ((updateRangeMaps job (updateRangeMaps job st pre).1 post).1,
        (updateRangeMaps job st pre).2 && (updateRangeMaps job (updateRangeMaps job st pre).1 post).2) := by
  induction pre generalizing st with
  | nil => simp [updateRangeMaps]
  | cons call pre ih =>
    obtain ⟨c, s, e⟩ := call
    simp only [List.cons_append, updateRangeMaps, ih, Bool.and_assoc]

/-- **A run of calls keeps the tracking.** Induction on the calls, each
range disjoint from those reported before it. -/
theorem updateRangeMaps_tracks (job : JobSpec) : ∀ (calls : List (Cache FileInfo × ℕ × ℕ))
    (st : ParallelJob) (done : List (ℕ × ℕ)), Tracks st done →
    (calls.map Prod.snd).Pairwise Apart → (∀ r ∈ calls, r.2.1 < r.2.2) →
    (∀ r ∈ calls, ∀ x, r.2.1 ≤ x → x < r.2.2 → x ∉ covered done) →
    Tracks (updateRangeMaps job st calls).1 (done ++ calls.map Prod.snd) ∧
      st.offset ≤ (updateRangeMaps job st calls).1.offset ∧
      ((updateRangeMaps job st calls).2 = true → PrefixEnd (covered done) st.offset →
        PrefixEnd (covered (done ++ calls.map Prod.snd)) (updateRangeMaps job st calls).1.offset)
  | [], st, done, h, _, _, _ => by
    simp only [updateRangeMaps, List.map_nil, List.append_nil]
    exact ⟨h, le_rfl, fun _ hp => hp⟩
  | (c, s, e) :: calls, st, done, h, hpw, hne, hdisj => by
    simp only [List.map_cons, List.pairwise_cons] at hpw
    obtain ⟨hstep, hmono, hexact⟩ := updateRangeMap_tracks job c h
      (hne _ List.mem_cons_self) (hdisj _ List.mem_cons_self)
    -- the later ranges miss the one just reported
    have hdisj' : ∀ r ∈ calls, ∀ x, r.2.1 ≤ x → x < r.2.2 → x ∉ covered (done ++ [(s, e)]) := by
      intro r hr x h1 h2 hx
      rw [covered_append_singleton] at hx
      rcases hx with hx | ⟨h3, h4⟩
      · exact hdisj r (List.mem_cons_of_mem _ hr) x h1 h2 hx
      · rcases hpw.1 r.2 (List.mem_map_of_mem hr) with hap | hap
        · dsimp only at hap
          omega
        · dsimp only at hap
          omega
    obtain ⟨ih, ihmono, ihexact⟩ := updateRangeMaps_tracks job calls _ _ hstep hpw.2
      (fun r hr => hne r (List.mem_cons_of_mem _ hr)) hdisj'
    have hdone : done ++ (s, e) :: calls.map Prod.snd = done ++ [(s, e)] ++ calls.map Prod.snd := by
      simp
    simp only [updateRangeMaps, List.map_cons, hdone, Bool.and_eq_true]
    exact ⟨ih, hmono.trans ihmono, fun hok hp => ihexact hok.2 (hexact hok.1 hp)⟩

/-! ## The job's parallel phase -/

/-- What the parallel phase of a job keeps: the map and the offset track
the ranges reported so far, which are apart from each other and from the
ranges still to report, and those are not empty. -/
def ParallelTracks (offset : ℕ) (pending : List (ℕ × ℕ)) (rangeMap : AList (fun _ : ℕ => ℕ)) : Prop :=
  ∃ done, Tracks ⟨rangeMap, offset⟩ done ∧ (done ++ pending).Pairwise Apart ∧ ∀ r ∈ pending, r.1 < r.2

theorem parallelTracks_start {ranges : List (ℕ × ℕ)} {size : ℕ} (h : Tiles ranges 0 size) :
    ParallelTracks 0 ranges ∅ :=
  ⟨[], tracks_init, h.pairwise, fun r hr => (h.bounds r hr).2.1⟩

/-- A range that is no longer to report, and was not reported. -/
theorem ParallelTracks.drop {o : ℕ} {pending : List (ℕ × ℕ)} (h : ParallelTracks o pending m) (i : ℕ) :
    ParallelTracks o (pending.eraseIdx i) m := by
  obtain ⟨done, htr, hpw, hne⟩ := h
  exact ⟨done, htr, hpw.sublist ((List.eraseIdx_sublist pending i).append_left done),
    fun r hr => hne r ((List.eraseIdx_sublist pending i).subset hr)⟩

/-- **A range reported**: it joins the map, and the offset stays or moves
to the end of a joined run from `0`, never down. -/
theorem ParallelTracks.report {o o' i : ℕ} {pending : List (ℕ × ℕ)} (h : ParallelTracks o pending m)
    (hi : pending[i]? = some (s, e))
    (ho : o' = o ∨ ((mergeRange m s e).2.1 = 0 ∧ o' = (mergeRange m s e).2.2)) :
    ParallelTracks o' (pending.eraseIdx i) (mergeRange m s e).1 ∧ o ≤ o' := by
  obtain ⟨done, htr, hpw, hne⟩ := h
  obtain ⟨hlt, hget⟩ := List.getElem?_eq_some_iff.1 hi
  have hmem : (s, e) ∈ pending := hget ▸ List.getElem_mem hlt
  -- the range misses every range reported before it
  have hdisj : ∀ x, s ≤ x → x < e → x ∉ covered done := by
    rintro x h1 h2 ⟨d, hd, h3, h4⟩
    rcases (List.pairwise_append.1 hpw).2.2 d hd _ hmem with hap | hap <;>
      · dsimp only at hap
        omega
  obtain ⟨htr', hle⟩ := htr.merge (hne _ hmem) hdisj ho
  -- the ranges reported and to report are the same, one moved over
  have hperm : (done ++ [(s, e)] ++ pending.eraseIdx i).Perm (done ++ pending) := by
    rw [List.append_assoc, List.singleton_append]
    refine List.Perm.append_left done ?_
    have := List.getElem_cons_eraseIdx_perm hlt
    rwa [hget] at this
  exact ⟨⟨done ++ [(s, e)], htr', hperm.symm.pairwise hpw fun h => Or.symm h,
    fun r hr => hne r ((List.eraseIdx_sublist pending i).subset hr)⟩, hle⟩

/-! ## The driver's ranges -/

theorem objectRanges_tiles (size chunk : ℕ) (hchunk : 0 < chunk) (start : ℕ) (hle : start ≤ size) :
    Tiles (objectRanges size chunk start) start size := by
  induction hn : size - start using Nat.strong_induction_on generalizing start with
  | _ n ih =>
    rw [objectRanges]
    split
    · rename_i hlt
      exact ⟨rfl, by omega, ih _ (by omega) _ (by omega) rfl⟩
    · show start = size
      omega

theorem writeRanges_tiles (start stop : ℕ) (hle : start ≤ stop) :
    Tiles (writeRanges start stop) start stop := by
  have hpos : 0 < readChunkSize := by decide
  induction hn : stop - start using Nat.strong_induction_on generalizing start with
  | _ n ih =>
    rw [writeRanges]
    split
    · rename_i hlt
      exact ⟨rfl, by omega, ih _ (by omega) _ (by omega) rfl⟩
    · show start = stop
      omega

/-- **The reported ranges tile the object**, on either path. -/
theorem reportedRanges_tiles (job : JobSpec) (hchunk : 0 < job.downloadChunkSizeMb) :
    Tiles (reportedRanges job) 0 job.object.size.toNat := by
  have hchunks := objectRanges_tiles job.object.size.toNat (job.downloadChunkSizeMb * 1024 * 1024)
    (by omega) 0 (Nat.zero_le _)
  unfold reportedRanges
  split
  · exact hchunks.flatMap _ fun r _ => writeRanges_tiles r.1 r.2 (by
      obtain ⟨-, hlt, -⟩ := hchunks.bounds r ‹_›
      omega)
  · exact hchunks

/-- **Parallel downloads track the finished prefix.** For any object, any
chunk size of at least 1 MiB, either path, and any order in which
distinct ranges of the driver are reported, each with the file-info
cache in any state: the range map encodes the maximal runs of the
reported ranges; the offset never decreases and never passes the longest
finished prefix `[0, R)`; and while every `updateStatusOffset` succeeds
the offset is `R`, which is the object's size exactly when every range
has been reported. -/
theorem parallel_download_offset_tracks_prefix (job : JobSpec) (hchunk : 0 < job.downloadChunkSizeMb)
    (calls : List (Cache FileInfo × ℕ × ℕ)) (hnodup : (calls.map Prod.snd).Nodup)
    (hranges : ∀ r ∈ calls.map Prod.snd, r ∈ reportedRanges job) :
    Encodes (fun k => (updateRangeMaps job ⟨∅, 0⟩ calls).1.rangeMap.lookup k)
        (covered (calls.map Prod.snd)) ∧
      (∀ R, PrefixEnd (covered (calls.map Prod.snd)) R →
        (updateRangeMaps job ⟨∅, 0⟩ calls).1.offset ≤ R) ∧
      (∀ n, (updateRangeMaps job ⟨∅, 0⟩ (calls.take n)).1.offset ≤
        (updateRangeMaps job ⟨∅, 0⟩ calls).1.offset) ∧
      ((updateRangeMaps job ⟨∅, 0⟩ calls).2 = true →
        PrefixEnd (covered (calls.map Prod.snd)) (updateRangeMaps job ⟨∅, 0⟩ calls).1.offset ∧
        ((updateRangeMaps job ⟨∅, 0⟩ calls).1.offset = job.object.size.toNat ↔
          ∀ p ∈ reportedRanges job, p ∈ calls.map Prod.snd)) := by
  have htiles := reportedRanges_tiles job hchunk
  -- distinct pieces of a tiling are apart, nonempty, and miss the empty start
  have hpw : ∀ (l : List (Cache FileInfo × ℕ × ℕ)), (l.map Prod.snd).Nodup →
      (∀ r ∈ l.map Prod.snd, r ∈ reportedRanges job) → (l.map Prod.snd).Pairwise Apart :=
    fun l hl hr => hl.pairwise_of_forall_ne fun a ha b hb hab =>
      htiles.pairwise.forall (hr a ha) (hr b hb) hab
  have hne : ∀ (l : List (Cache FileInfo × ℕ × ℕ)), (∀ r ∈ l.map Prod.snd, r ∈ reportedRanges job) →
      ∀ r ∈ l, r.2.1 < r.2.2 :=
    fun l hr r hmem => (htiles.bounds r.2 (hr r.2 (List.mem_map_of_mem hmem))).2.1
  have hrun := fun (l : List (Cache FileInfo × ℕ × ℕ)) hl hr =>
    updateRangeMaps_tracks job l ⟨∅, 0⟩ [] tracks_init (hpw l hl hr) (hne l hr)
      (fun _ _ x _ _ hx => by simp at hx)
  obtain ⟨htr, -, hexact⟩ := hrun calls hnodup hranges
  simp only [List.nil_append] at htr hexact
  refine ⟨htr.encodes, htr.offset_le, fun n => ?_, fun hok => ?_⟩
  · -- the calls after the first `n` start from a state that tracks the first `n`
    have hsplit := updateRangeMaps_append job ⟨∅, 0⟩ (calls.take n) (calls.drop n)
    rw [List.take_append_drop] at hsplit
    have htake : ∀ r ∈ (calls.take n).map Prod.snd, r ∈ reportedRanges job := fun r hr =>
      hranges r (List.map_subset _ (List.take_subset n calls) hr)
    obtain ⟨htr₁, -, -⟩ := hrun (calls.take n) (hnodup.sublist
      ((List.take_sublist n calls).map Prod.snd)) htake
    simp only [List.nil_append] at htr₁
    have hall : calls.map Prod.snd = (calls.take n).map Prod.snd ++ (calls.drop n).map Prod.snd := by
      rw [← List.map_append, List.take_append_drop]
    have hpw' := hpw calls hnodup hranges
    rw [hall, List.pairwise_append] at hpw'
    obtain ⟨-, hmono, -⟩ := updateRangeMaps_tracks job (calls.drop n) _ _ htr₁ hpw'.2.1
      (fun r hr => hne calls hranges r (List.drop_subset n calls hr))
      (fun r hr x h1 h2 ⟨q, hq, hx⟩ => by
        rcases hpw'.2.2 q hq r.2 (List.mem_map_of_mem hr) with hap | hap <;> omega)
    rw [hsplit]
    exact hmono
  · have hpre := hexact hok (by rw [covered_nil]; exact prefixEnd_empty)
    refine ⟨hpre, ?_⟩
    rw [← htiles.covered_eq_iff hranges]
    have hsub : covered (calls.map Prod.snd) ⊆ Set.Ico 0 job.object.size.toNat := by
      rw [← htiles.covered_eq]
      exact covered_mono hranges
    constructor
    · intro hoff
      refine Set.Subset.antisymm hsub fun x hx => hpre.sub x ?_
      rw [hoff]
      exact hx.2
    · intro hcov
      exact hpre.eq ⟨fun x hx => by rw [hcov]; exact ⟨Nat.zero_le x, hx⟩,
        by rw [hcov]; exact fun hx => lt_irrefl _ hx.2⟩

/-- A one-chunk object of 3 bytes, reported as one range. -/
def tinyJob : JobSpec := ⟨"bucket", ⟨"a", 1, 3⟩, 1, 1, false⟩

/-- The one report of `tinyJob`. -/
def tinyCalls : List (Cache FileInfo × ℕ × ℕ) := [(newCache 1, (0, 3))]

theorem parallel_download_offset_tracks_tiny :
    0 < tinyJob.downloadChunkSizeMb ∧ (tinyCalls.map Prod.snd).Nodup ∧
      (∀ r ∈ tinyCalls.map Prod.snd, r ∈ reportedRanges tinyJob) ∧
      (Encodes (fun k => (updateRangeMaps tinyJob ⟨∅, 0⟩ tinyCalls).1.rangeMap.lookup k)
          (covered (tinyCalls.map Prod.snd)) ∧
        (∀ R, PrefixEnd (covered (tinyCalls.map Prod.snd)) R →
          (updateRangeMaps tinyJob ⟨∅, 0⟩ tinyCalls).1.offset ≤ R) ∧
        (∀ n, (updateRangeMaps tinyJob ⟨∅, 0⟩ (tinyCalls.take n)).1.offset ≤
          (updateRangeMaps tinyJob ⟨∅, 0⟩ tinyCalls).1.offset) ∧
        ((updateRangeMaps tinyJob ⟨∅, 0⟩ tinyCalls).2 = true →
          PrefixEnd (covered (tinyCalls.map Prod.snd)) (updateRangeMaps tinyJob ⟨∅, 0⟩ tinyCalls).1.offset ∧
          ((updateRangeMaps tinyJob ⟨∅, 0⟩ tinyCalls).1.offset = tinyJob.object.size.toNat ↔
            ∀ p ∈ reportedRanges tinyJob, p ∈ tinyCalls.map Prod.snd))) := by
  have hranges : ∀ r ∈ tinyCalls.map Prod.snd, r ∈ reportedRanges tinyJob := by
    simp [tinyCalls, reportedRanges, tinyJob, objectRanges]
  exact ⟨by decide, by decide, hranges,
    parallel_download_offset_tracks_prefix tinyJob (by decide) tinyCalls (by decide) hranges⟩

/-- A job of a 2 MiB object in 1 MiB chunks whose file-info entry has been
evicted before its first report: the cache no longer holds it. -/
def orphanedJob : JobSpec := ⟨"bucket", ⟨"a", 1, 2097152⟩, 1, 1, false⟩

/-- The first chunk's report merges `[0, 1 MiB)` into the map and returns
`ErrEntryNotExist` from `updateStatusOffset`: the offset stays at `0`
while the finished prefix is 1 MiB. -/
theorem updateRangeMap_offset_lags :
    (updateRangeMap orphanedJob (newCache 4194304) ⟨∅, 0⟩ 0 1048576).1.offset = 0 ∧
      (updateRangeMap orphanedJob (newCache 4194304) ⟨∅, 0⟩ 0 1048576).2 =
        .error (.update .entryNotExist) ∧
      PrefixEnd (covered [(0, 1048576)]) 1048576 := by
  refine ⟨rfl, rfl, fun x hx => ⟨(0, 1048576), List.mem_singleton_self _, Nat.zero_le x, hx⟩, ?_⟩
  simp

end Downloader

end GcsFuse
