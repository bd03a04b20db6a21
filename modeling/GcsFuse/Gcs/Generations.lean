import GcsFuse.Gcs.Bucket
/-!
# Generations, over the calls of any client

Every write of the bucket takes the next generation, so no generation is
given out twice. What a request that names a generation rests on follows:
once a generation has been given out, whatever holds at the name while it
is live there keeps holding, as long as it survives a change of
metageneration (`Fixed`). So a generation keeps its contents, and a name
that has left a generation, or a metageneration of it, never comes back to
it. Every object call of every client keeps this (`Fixed.call`); folder
renames, which move objects with their records to other names, are not
among these calls.

`composeObjectsAt` is `ComposeObjects` with the request's preconditions
and the sources' generations, as the fake bucket of
`internal/storage/fake/bucket.go` has it and the service's client is
asked for it in `internal/storage/bucket_handle.go`.
-/

namespace GcsFuse

namespace Gcs

namespace Bucket

variable (b : Bucket)

/-- `preconditionChecks` of the fake bucket: a generation precondition of
`0` is that the name is not live, any other that it is live at that
generation; a metageneration precondition is that it is live at that
metageneration. -/
def preconditionChecks (n : ObjectName) (generationPrecondition metaGenerationPrecondition : Option ℕ) : Bool :=
  (match generationPrecondition with
    | none => true
    | some g => if g = 0 then (b.get n).isNone else (b.get n).any (·.generation = g)) &&
  (match metaGenerationPrecondition with
    | none => true
    | some m => (b.get n).any (·.metaGeneration = m))

/-- `MaxSourcesPerComposeRequest`. -/
def maxSourcesPerComposeRequest : ℕ := 32

/-- `ComposeObjects` with the request's preconditions: too few or too many
sources is an error of its own, each source is read at its generation
(`0` for the live one), a sum of their components past
`MaxComponentCount` is an error of its own, and the destination is then
created under its preconditions, with the sources' contents in order and
that sum of components. -/
def composeObjectsAt (dst : ObjectName) (dstGenerationPrecondition dstMetaGenerationPrecondition : Option ℕ)
    (sources : List (ObjectName × ℕ)) : Except GcsError Bucket :=
  if sources.length < 1 ∨ maxSourcesPerComposeRequest < sources.length then .error .unavailable
  else
    match sources.mapM fun src => b.select src.1 src.2 with
    | none => .error .notFound
    | some os =>
      if maxComponentCount < (os.map Object.componentCount).sum then .error .unavailable
      else if b.preconditionChecks dst dstGenerationPrecondition dstMetaGenerationPrecondition then
        .ok (b.put dst (os.flatMap Object.contents) (os.map Object.componentCount).sum)
      else .error .precondition

/-- An object call of any client of the bucket. -/
inductive Call
  | createObject (n : ObjectName) (contents : List UInt8) (doesNotExist : Bool)
  | copyObject (src : ObjectName) (srcGeneration : ℕ) (srcMetaGeneration : Option ℕ) (dst : ObjectName)
  | deleteObject (n : ObjectName) (generation : ℕ) (metaGeneration : Option ℕ)
  | moveObject (src : ObjectName) (srcGeneration : ℕ) (srcMetaGeneration : Option ℕ) (dst : ObjectName)
  | updateObject (n : ObjectName) (generation : ℕ) (metaGeneration : Option ℕ)
  | composeObjects (dst : ObjectName) (sources : List ObjectName)
  | composeObjectsAt (dst : ObjectName) (dstGenerationPrecondition dstMetaGenerationPrecondition : Option ℕ)
      (sources : List (ObjectName × ℕ))

/-- What a call does to the bucket. -/
def call : Call → Except GcsError Bucket
  | .createObject n contents doesNotExist => b.createObject n contents doesNotExist
  | .copyObject src srcGeneration srcMetaGeneration dst => b.copyObject src srcGeneration srcMetaGeneration dst
  | .deleteObject n generation metaGeneration => b.deleteObject n generation metaGeneration
  | .moveObject src srcGeneration srcMetaGeneration dst => b.moveObject src srcGeneration srcMetaGeneration dst
  | .updateObject n generation metaGeneration => b.updateObject n generation metaGeneration
  | .composeObjects dst sources => b.composeObjects dst sources
  | .composeObjectsAt dst dstGenerationPrecondition dstMetaGenerationPrecondition sources =>
    b.composeObjectsAt dst dstGenerationPrecondition dstMetaGenerationPrecondition sources

/-- Every live generation was given out, and none is `0`, which a request
reads as the live one. -/
structure WF : Prop where
  next_pos : 0 < b.nextGeneration
  live : ∀ n o, b.get n = some o → 0 < o.generation ∧ o.generation < b.nextGeneration

/-- Generation `g` has been given out, and wherever it is live at `n` it
has `P`. -/
def Fixed (n : ObjectName) (g : ℕ) (P : Object → Prop) : Prop :=
  g < b.nextGeneration ∧ ∀ o, b.get n = some o → o.generation = g → P o

/-! ## What a call can do -/

variable {b}

/-- The bucket after a metageneration change of `n`'s live object `o`. -/
def bump (b : Bucket) (n : ObjectName) (o : Object) : Bucket :=
  { b with objects := b.objects.insert n { o with metaGeneration := o.metaGeneration + 1 } }

theorem select_eq_some {n : ObjectName} {g : ℕ} {o : Object} (hg : g ≠ 0) :
    b.select n g = some o ↔ b.get n = some o ∧ o.generation = g := by
  simp only [select, Option.filter_eq_some_iff, hg, false_or, decide_eq_true_eq]

/-- Preconditions on a generation that is not `0` and a metageneration
hold when the name is live at both. -/
theorem preconditionChecks_some {n : ObjectName} {g m : ℕ} (hg : g ≠ 0) :
    b.preconditionChecks n (some g) (some m) = true ↔
      ∃ o, b.get n = some o ∧ o.generation = g ∧ o.metaGeneration = m := by
  unfold preconditionChecks
  cases hget : b.get n with
  | none => simp
  | some o => simp [hg]

theorem copyObject_eq_ok {src dst : ObjectName} {srcGeneration : ℕ} {srcMetaGeneration : Option ℕ}
    {b' : Bucket} (h : b.copyObject src srcGeneration srcMetaGeneration dst = .ok b') :
    ∃ contents componentCount, b' = b.put dst contents componentCount := by
  unfold copyObject at h
  cases ht : b.target src srcGeneration srcMetaGeneration with
  | error e => rw [ht] at h; cases h
  | ok o => rw [ht] at h; cases h; exact ⟨_, _, rfl⟩

theorem moveObject_eq_ok {src dst : ObjectName} {srcGeneration : ℕ} {srcMetaGeneration : Option ℕ}
    {b' : Bucket} (h : b.moveObject src srcGeneration srcMetaGeneration dst = .ok b') :
    ∃ contents componentCount, b' = (b.remove src).put dst contents componentCount := by
  unfold moveObject at h
  cases ht : b.target src srcGeneration srcMetaGeneration with
  | error e => rw [ht] at h; cases h
  | ok o => rw [ht] at h; cases h; exact ⟨_, _, rfl⟩

/-- `ComposeObjects` with preconditions, once it succeeds: its sources were
live at their generations, their components were few enough and its
preconditions held. -/
theorem composeObjectsAt_eq_ok {dst : ObjectName} {dstGenerationPrecondition dstMetaGenerationPrecondition : Option ℕ}
    {sources : List (ObjectName × ℕ)} {b' : Bucket}
    (h : b.composeObjectsAt dst dstGenerationPrecondition dstMetaGenerationPrecondition sources = .ok b') :
    ∃ os, (sources.mapM fun src => b.select src.1 src.2) = some os ∧
      (os.map Object.componentCount).sum ≤ maxComponentCount ∧
      b.preconditionChecks dst dstGenerationPrecondition dstMetaGenerationPrecondition = true ∧
      b' = b.put dst (os.flatMap Object.contents) (os.map Object.componentCount).sum := by
  unfold composeObjectsAt at h
  rw [if_neg] at h
  · -- the sources read, then the count, then the preconditions
    cases hos : sources.mapM (fun src => b.select src.1 src.2) with
    | none => rw [hos] at h; cases h
    | some os =>
      rw [hos] at h
      dsimp only at h
      split_ifs at h with hmax hpre
      cases h
      exact ⟨os, rfl, Nat.le_of_not_lt hmax, hpre, rfl⟩
  · intro hcount
    rw [if_pos hcount] at h
    cases h

/-- **Every call writes one name, removes one, moves one, or changes the
metageneration of a live object.** -/
theorem call_eq_ok {c : Call} {b' : Bucket} (h : b.call c = .ok b') :
    (∃ n contents k, b' = b.put n contents k) ∨ (∃ n, b' = b.remove n) ∨
      (∃ n m contents k, b' = (b.remove n).put m contents k) ∨ (∃ n o, b.get n = some o ∧ b' = b.bump n o) := by
  cases c with
  | createObject n contents doesNotExist => exact .inl ⟨n, contents, 1, createObject_eq_write h⟩
  | copyObject src srcGeneration srcMetaGeneration dst =>
    obtain ⟨contents, k, rfl⟩ := copyObject_eq_ok h
    exact .inl ⟨dst, contents, k, rfl⟩
  | deleteObject n generation metaGeneration => exact .inr (.inl ⟨n, deleteObject_eq_ok h⟩)
  | moveObject src srcGeneration srcMetaGeneration dst =>
    obtain ⟨contents, k, rfl⟩ := moveObject_eq_ok h
    exact .inr (.inr (.inl ⟨src, dst, contents, k, rfl⟩))
  | updateObject n generation metaGeneration =>
    obtain ⟨o, ho, rfl⟩ := updateObject_eq_ok h
    exact .inr (.inr (.inr ⟨n, o, ho, rfl⟩))
  | composeObjects dst sources =>
    obtain ⟨contents, k, rfl⟩ := composeObjects_eq_ok h
    exact .inl ⟨dst, contents, k, rfl⟩
  | composeObjectsAt dst dstGenerationPrecondition dstMetaGenerationPrecondition sources =>
    obtain ⟨os, -, -, -, rfl⟩ := composeObjectsAt_eq_ok h
    exact .inl ⟨dst, _, _, rfl⟩

@[simp] theorem put_nextGeneration (n : ObjectName) (contents : List UInt8) (k : ℕ) :
    (b.put n contents k).nextGeneration = b.nextGeneration + 1 := rfl

@[simp] theorem write_nextGeneration (n : ObjectName) (contents : List UInt8) :
    (b.write n contents).nextGeneration = b.nextGeneration + 1 := rfl

@[simp] theorem remove_nextGeneration (n : ObjectName) : (b.remove n).nextGeneration = b.nextGeneration := rfl

@[simp] theorem bump_nextGeneration (n : ObjectName) (o : Object) : (b.bump n o).nextGeneration = b.nextGeneration :=
  rfl

theorem get_bump {n m : ObjectName} {o : Object} :
    (b.bump n o).get m = if m = n then some { o with metaGeneration := o.metaGeneration + 1 } else b.get m := by
  split_ifs with hm
  · subst hm
    exact AList.lookup_insert _
  · exact AList.lookup_insert_ne hm

/-! ## Well-formed buckets -/

/-- The empty bucket, whose first write takes generation `1`. -/
theorem WF.empty : (⟨∅, 1⟩ : Bucket).WF where
  next_pos := Nat.one_pos
  live _ _ h := by simp [Bucket.get] at h

theorem WF.put (hb : b.WF) (n : ObjectName) (contents : List UInt8) (k : ℕ) : (b.put n contents k).WF where
  next_pos := Nat.succ_pos _
  live m o ho := by
    by_cases hm : m = n
    · subst hm
      rw [get_put, Option.some.injEq] at ho
      subst ho
      exact ⟨hb.next_pos, Nat.lt_succ_self _⟩
    · rw [get_put_ne hm] at ho
      have hlive := hb.live m o ho
      exact ⟨hlive.1, Nat.lt_succ_of_lt hlive.2⟩

theorem WF.write (hb : b.WF) (n : ObjectName) (contents : List UInt8) : (b.write n contents).WF :=
  hb.put n contents 1

theorem WF.remove (hb : b.WF) (n : ObjectName) : (b.remove n).WF where
  next_pos := hb.next_pos
  live m o ho := by
    by_cases hm : m = n
    · subst hm
      rw [get_remove] at ho
      cases ho
    · rw [get_remove_ne hm] at ho
      exact hb.live m o ho

theorem WF.bump (hb : b.WF) {n : ObjectName} {o : Object} (ho : b.get n = some o) : (b.bump n o).WF where
  next_pos := hb.next_pos
  live m o' ho' := by
    rw [get_bump] at ho'
    split_ifs at ho' with hm
    · rw [Option.some.injEq] at ho'
      subst ho'
      exact hb.live n o ho
    · exact hb.live m o' ho'

/-- **Every call keeps a bucket well formed.** -/
theorem WF.call (hb : b.WF) {c : Call} {b' : Bucket} (h : b.call c = .ok b') : b'.WF := by
  rcases call_eq_ok h with ⟨n, contents, k, rfl⟩ | ⟨n, rfl⟩ | ⟨n, m, contents, k, rfl⟩ | ⟨n, o, ho, rfl⟩
  · exact hb.put n contents k
  · exact hb.remove n
  · exact (hb.remove n).put m contents k
  · exact hb.bump ho

/-! ## What a generation keeps -/

section Fixed

variable {n : ObjectName} {g : ℕ} {P : Object → Prop}

/-- A live object is `Fixed` at its own generation for what it has. -/
theorem Fixed.of_get (hb : b.WF) {o : Object} (ho : b.get n = some o) : b.Fixed n o.generation (· = o) := by
  refine ⟨(hb.live n o ho).2, fun o' ho' _ => ?_⟩
  rw [ho, Option.some.injEq] at ho'
  exact ho'.symm

theorem Fixed.mono {Q : Object → Prop} (hf : b.Fixed n g P) (hPQ : ∀ o, P o → Q o) : b.Fixed n g Q :=
  ⟨hf.1, fun o ho hgen => hPQ o (hf.2 o ho hgen)⟩

/-- A write takes a generation that was never given out. -/
theorem Fixed.put (hf : b.Fixed n g P) (m : ObjectName) (contents : List UInt8) (k : ℕ) :
    (b.put m contents k).Fixed n g P := by
  refine ⟨Nat.lt_succ_of_lt hf.1, fun o ho hgen => ?_⟩
  by_cases hm : n = m
  · subst hm
    rw [get_put, Option.some.injEq] at ho
    subst ho
    exact absurd hgen (Nat.ne_of_gt hf.1)
  · rw [get_put_ne hm] at ho
    exact hf.2 o ho hgen

theorem Fixed.write (hf : b.Fixed n g P) (m : ObjectName) (contents : List UInt8) : (b.write m contents).Fixed n g P :=
  hf.put m contents 1

theorem Fixed.remove (hf : b.Fixed n g P) (m : ObjectName) : (b.remove m).Fixed n g P := by
  refine ⟨hf.1, fun o ho hgen => ?_⟩
  by_cases hm : n = m
  · subst hm
    rw [get_remove] at ho
    cases ho
  · rw [get_remove_ne hm] at ho
    exact hf.2 o ho hgen

theorem Fixed.bump (hP : ∀ o, P o → P { o with metaGeneration := o.metaGeneration + 1 }) (hf : b.Fixed n g P)
    {m : ObjectName} {o : Object} (ho : b.get m = some o) : (b.bump m o).Fixed n g P := by
  refine ⟨hf.1, fun o' ho' hgen => ?_⟩
  rw [get_bump] at ho'
  split_ifs at ho' with hm
  · -- the bumped object keeps its generation, so it had `P` before
    subst hm
    rw [Option.some.injEq] at ho'
    subst ho'
    exact hP o (hf.2 o ho hgen)
  · exact hf.2 o' ho' hgen

/-- **Every call keeps what a given-out generation has**, where that
survives a change of metageneration. -/
theorem Fixed.call (hP : ∀ o, P o → P { o with metaGeneration := o.metaGeneration + 1 }) (hf : b.Fixed n g P)
    {c : Call} {b' : Bucket} (h : b.call c = .ok b') : b'.Fixed n g P := by
  rcases call_eq_ok h with ⟨m, contents, k, rfl⟩ | ⟨m, rfl⟩ | ⟨m, m', contents, k, rfl⟩ | ⟨m, o, ho, rfl⟩
  · exact hf.put m contents k
  · exact hf.remove m
  · exact (hf.remove m).put m' contents k
  · exact hf.bump hP ho

end Fixed

end Bucket

end Gcs

end GcsFuse
