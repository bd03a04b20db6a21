import GcsFuse.Gcs.Generations
import GcsFuse.Common.Run
import GcsFuse.FileCache.SharedChunkCacheManager
import GcsFuse.Inode.File
/-!
# Appending by composition

`composeObjectCreator` (`internal/gcsx/compose_object_creator.go`) is how
the syncer writes a file whose object only grew. `Create` uploads the new
bytes to a temporary object under a random name, composes the source
generation and that object into a new generation of the source's name,
with the source's generation and metageneration as preconditions, and
deletes the temporary object in a deferred call. Other clients call the
bucket between any two of these calls: the file's other writers, other
mounts, the collector of temporary objects. So `Create` is a machine whose
steps interleave with the object calls of any client (`step`).

Over every interleaving from a well-formed bucket that holds the source:
once the compose succeeds, the new generation holds the source
generation's contents followed by the new bytes (`create_appends`); and
the name held the source object, untouched, at every point of the run
before the compose (`create_no_lost_update`). Any other client's write,
deletion or metadata change of the object in that time makes the compose
fail, so no one's update is lost. The syncer of `GcsFuse.Inode.File`,
which makes that append in one call, composes what `Create` does
(`create_refines_syncObject`).
-/

namespace GcsFuse

namespace Gcsx

open Gcs Bucket

namespace ComposeObjectCreator

/-- The random value `chooseName` assembles from eight bytes of
`crypto/rand`, the first the least significant. -/
def randomValue (buf : Fin 8 → UInt8) : UInt64 :=
  (buf 0).toUInt64 <<< 0 ||| (buf 1).toUInt64 <<< 8 ||| (buf 2).toUInt64 <<< 16 ||| (buf 3).toUInt64 <<< 24 |||
    (buf 4).toUInt64 <<< 32 ||| (buf 5).toUInt64 <<< 40 ||| (buf 6).toUInt64 <<< 48 ||| (buf 7).toUInt64 <<< 56

/-- `chooseName`: the prefix, then `%016x` of the random value. -/
def chooseName (tmpObjectPrefix : ObjectName) (buf : Fin 8 → UInt8) : ObjectName :=
  tmpObjectPrefix ++ (FileCache.SharedChunkCacheManager.hex16 (randomValue buf)).toUTF8.toList

/-- The call of `Create` an error comes from, as its message begins, with
the bucket's error it wraps. -/
inductive CreateError
  /-- "chooseName: ReadFull: ...": `crypto/rand` gave no bytes. -/
  | chooseName
  /-- "CreateObject: ..." -/
  | createObject (e : GcsError)
  /-- "ComposeObjects: ..." -/
  | composeObjects (e : GcsError)
  /-- "DeleteObject: ...", of the deferred call. -/
  | deleteObject (e : GcsError)
  deriving DecidableEq, Repr

/-- Where `Create` is between its calls. -/
inductive Phase
  | start
  /-- `CreateObject` made the temporary object, of generation
  `tmpGeneration`. -/
  | created (tmpGeneration : ℕ)
  /-- `ComposeObjects` returned; the deferred `DeleteObject` is left. -/
  | composed (o : Option Object) (err : Option CreateError)
  /-- `Create` returned. -/
  | done (o : Option Object) (err : Option CreateError)
  deriving DecidableEq, Repr

/-- The object `Create` has from its compose, once it has composed. -/
def Phase.object : Phase → Option Object
  | .composed o _ | .done o _ => o
  | _ => none

/-- The bucket, and where `Create` is. -/
structure State where
  bucket : Bucket
  phase : Phase

/-- A step: another client's call, or the next call of `Create`. -/
inductive Action
  /-- Another client's call on the bucket. -/
  | env (c : Call)
  /-- `crypto/rand` fails in `chooseName`. -/
  | readFullFails
  /-- `CreateObject` of the temporary object. -/
  | createObject
  /-- `ComposeObjects` of the source generation and the temporary object. -/
  | composeObjects
  /-- The deferred `DeleteObject` of the temporary object. -/
  | deleteObject

/-- `Create` of `r` after the source object `src` at `name`, with
`tmpName` what `chooseName` gave; `none` where the call cannot happen.
The temporary object is created with the precondition that its name is
not live (`NewCreateObjectRequest` of no source), and the deferred call
deletes whatever generation of it is live. -/
def step (name : ObjectName) (src : Object) (tmpName : ObjectName) (r : List UInt8) (s : State) :
    Action → Option State
  | .env c =>
    match s.bucket.call c with
    | .ok b => some { s with bucket := b }
    | .error _ => none
  | .readFullFails =>
    match s.phase with
    | .start => some { s with phase := .done none (some .chooseName) }
    | _ => none
  | .createObject =>
    match s.phase with
    | .start =>
      match s.bucket.createObject tmpName r true with
      | .ok b => (b.get tmpName).map fun tmp => ⟨b, .created tmp.generation⟩
      | .error e => some { s with phase := .done none (some (.createObject e)) }
    | _ => none
  | .composeObjects =>
    match s.phase with
    | .created tmpGeneration =>
      match s.bucket.composeObjectsAt name (some src.generation) (some src.metaGeneration)
          [(name, src.generation), (tmpName, tmpGeneration)] with
      | .ok b => some ⟨b, .composed (b.get name) none⟩
      -- a source generation that is gone is the object clobbered, as a failed precondition is
      | .error e =>
        some { s with phase := .composed none (some (.composeObjects (if e = .notFound then .precondition else e))) }
    | _ => none
  | .deleteObject =>
    match s.phase with
    | .composed o err =>
      match s.bucket.deleteObject tmpName 0 none with
      | .ok b => some ⟨b, .done o err⟩
      -- the deferred call's error is returned only when there was none before
      | .error e => some { s with phase := .done o (err.or (some (.deleteObject e))) }
    | _ => none

/-! ## What each step does -/

theorem mapM_pair_eq_some {α β : Type} {f : α → Option β} {a₁ a₂ : α} {os : List β}
    (h : [a₁, a₂].mapM f = some os) : ∃ o₁ o₂, f a₁ = some o₁ ∧ f a₂ = some o₂ ∧ os = [o₁, o₂] := by
  cases h₁ : f a₁ with
  | none => simp [h₁] at h
  | some o₁ =>
    cases h₂ : f a₂ with
    | none => simp [h₁, h₂] at h
    | some o₂ =>
      simp only [List.mapM_cons, List.mapM_nil, h₁, h₂] at h
      exact ⟨o₁, o₂, rfl, rfl, (Option.some.inj h).symm⟩

section Steps

variable {name : ObjectName} {src : Object} {tmpName : ObjectName} {r : List UInt8} {s s' : State}

theorem step_env {c : Call} (h : step name src tmpName r s (.env c) = some s') :
    s.bucket.call c = .ok s'.bucket ∧ s'.phase = s.phase := by
  dsimp only [step] at h
  cases hc : s.bucket.call c with
  | error e => rw [hc] at h; cases h
  | ok b => rw [hc] at h; cases h; exact ⟨rfl, rfl⟩

theorem step_readFullFails (h : step name src tmpName r s .readFullFails = some s') :
    s.phase = .start ∧ s' = { s with phase := .done none (some .chooseName) } := by
  dsimp only [step] at h
  split at h
  next hp => exact ⟨hp, (Option.some.inj h).symm⟩
  next => cases h

theorem step_createObject (h : step name src tmpName r s .createObject = some s') :
    s.phase = .start ∧
      ((s.bucket.createObject tmpName r true = .ok s'.bucket ∧ s'.bucket = s.bucket.write tmpName r ∧
          s'.phase = .created s.bucket.nextGeneration) ∨
        ∃ e, s' = { s with phase := .done none (some (.createObject e)) }) := by
  dsimp only [step] at h
  split at h
  next hp =>
    refine ⟨hp, ?_⟩
    cases hc : s.bucket.createObject tmpName r true with
    | error e => rw [hc] at h; exact .inr ⟨e, (Option.some.inj h).symm⟩
    | ok b =>
      obtain ⟨-, rfl⟩ := createObject_eq_ok hc
      rw [hc] at h
      simp only [get_write, Option.map_some, Option.some.injEq] at h
      subst h
      exact .inl ⟨rfl, rfl, rfl⟩
  next => cases h

theorem step_composeObjects (h : step name src tmpName r s .composeObjects = some s') :
    ∃ g, s.phase = .created g ∧
      ((∃ o₁ o₂, s.bucket.select name src.generation = some o₁ ∧ s.bucket.select tmpName g = some o₂ ∧
          s.bucket.preconditionChecks name (some src.generation) (some src.metaGeneration) = true ∧
          s.bucket.composeObjectsAt name (some src.generation) (some src.metaGeneration)
            [(name, src.generation), (tmpName, g)] = .ok s'.bucket ∧
          s'.bucket = s.bucket.put name (o₁.contents ++ o₂.contents) (o₁.componentCount + o₂.componentCount) ∧
          s'.phase = .composed (some ⟨s.bucket.nextGeneration, 1, o₁.contents ++ o₂.contents,
            o₁.componentCount + o₂.componentCount⟩) none) ∨
        ∃ e, s' = { s with phase := .composed none (some (.composeObjects e)) }) := by
  dsimp only [step] at h
  split at h
  next g hp =>
    refine ⟨g, hp, ?_⟩
    cases hc : s.bucket.composeObjectsAt name (some src.generation) (some src.metaGeneration)
        [(name, src.generation), (tmpName, g)] with
    | error e => rw [hc] at h; exact .inr ⟨_, (Option.some.inj h).symm⟩
    | ok b =>
      obtain ⟨os, hos, -, hpre, rfl⟩ := composeObjectsAt_eq_ok hc
      obtain ⟨o₁, o₂, h₁, h₂, rfl⟩ := mapM_pair_eq_some hos
      have hcontents : [o₁, o₂].flatMap Object.contents = o₁.contents ++ o₂.contents := by simp
      have hcount : ([o₁, o₂].map Object.componentCount).sum = o₁.componentCount + o₂.componentCount := by simp
      rw [hc] at h
      simp only [get_put, Option.some.injEq] at h
      subst h
      exact .inl ⟨o₁, o₂, h₁, h₂, hpre, rfl, by rw [hcontents, hcount], by rw [hcontents, hcount]⟩
  next => cases h

theorem step_deleteObject (h : step name src tmpName r s .deleteObject = some s') :
    ∃ o err, s.phase = .composed o err ∧
      ((s.bucket.deleteObject tmpName 0 none = .ok s'.bucket ∧ s'.phase = .done o err) ∨
        ∃ e, s' = { s with phase := .done o (err.or (some (.deleteObject e))) }) := by
  dsimp only [step] at h
  split at h
  next o err hp =>
    refine ⟨o, err, hp, ?_⟩
    cases hc : s.bucket.deleteObject tmpName 0 none with
    | error e => rw [hc] at h; exact .inr ⟨e, (Option.some.inj h).symm⟩
    | ok b => rw [hc] at h; cases h; exact .inl ⟨rfl, rfl⟩
  next => cases h

/-- The deferred call returns what the compose returned, whatever it meets. -/
theorem step_deleteObject_phase (h : step name src tmpName r s .deleteObject = some s') :
    ∃ o err err', s.phase = .composed o err ∧ s'.phase = .done o err' := by
  obtain ⟨o, err, hp, ⟨-, hphase⟩ | ⟨e, rfl⟩⟩ := step_deleteObject h
  · exact ⟨o, err, err, hp, hphase⟩
  · exact ⟨o, err, _, hp, rfl⟩

/-- **`Create`'s own calls are calls like any client's.** -/
theorem step_bucket {a : Action} (h : step name src tmpName r s a = some s') :
    s'.bucket = s.bucket ∨ ∃ c, s.bucket.call c = .ok s'.bucket := by
  cases a with
  | env c => exact .inr ⟨c, (step_env h).1⟩
  | readFullFails =>
    obtain ⟨-, rfl⟩ := step_readFullFails h
    exact .inl rfl
  | createObject =>
    obtain ⟨-, ⟨hc, -⟩ | ⟨e, rfl⟩⟩ := step_createObject h
    · exact .inr ⟨.createObject tmpName r true, hc⟩
    · exact .inl rfl
  | composeObjects =>
    obtain ⟨g, -, ⟨o₁, o₂, -, -, -, hc, -⟩ | ⟨e, rfl⟩⟩ := step_composeObjects h
    · exact .inr ⟨.composeObjectsAt _ _ _ _, hc⟩
    · exact .inl rfl
  | deleteObject =>
    obtain ⟨o, err, -, ⟨hc, -⟩ | ⟨e, rfl⟩⟩ := step_deleteObject h
    · exact .inr ⟨.deleteObject tmpName 0 none, hc⟩
    · exact .inl rfl

theorem WF.step {a : Action} (h : step name src tmpName r s a = some s') (hb : s.bucket.WF) : s'.bucket.WF := by
  rcases step_bucket h with heq | ⟨c, hc⟩
  · exact heq ▸ hb
  · exact hb.call hc

theorem Fixed.step {n : ObjectName} {g : ℕ} {P : Object → Prop}
    (hP : ∀ o, P o → P { o with metaGeneration := o.metaGeneration + 1 }) {a : Action}
    (h : step name src tmpName r s a = some s') (hf : s.bucket.Fixed n g P) : s'.bucket.Fixed n g P := by
  rcases step_bucket h with heq | ⟨c, hc⟩
  · exact heq ▸ hf
  · exact hf.call hP hc

end Steps

/-! ## The invariant of `Create` -/

variable (name : ObjectName) (src : Object) (tmpName : ObjectName) (r : List UInt8)

/-- **The invariant of `Create`**, under any other clients. -/
structure Inv (s : State) : Prop where
  wf : s.bucket.WF
  /-- The source generation, wherever it is live at the name, holds the
  source's contents and components, at its metageneration or a later one. -/
  src_contents : s.bucket.Fixed name src.generation
    (fun o => o.contents = src.contents ∧ o.componentCount = src.componentCount)
  src_metaGeneration : s.bucket.Fixed name src.generation (src.metaGeneration ≤ ·.metaGeneration)
  /-- The temporary object's generation holds the new bytes, uploaded whole. -/
  tmp_contents : ∀ g, s.phase = .created g → 0 < g ∧
    s.bucket.Fixed tmpName g (fun o => o.contents = r ∧ o.componentCount = 1)
  /-- What the compose made is the append, of one more component. -/
  appended : ∀ o, s.phase.object = some o →
    o.contents = src.contents ++ r ∧ o.componentCount = src.componentCount + 1

/-- The object has left the source: where the name is at the source's
generation, its metageneration is past the source's; and `Create` has
composed nothing. -/
structure Clobbered (s : State) : Prop where
  past : s.bucket.Fixed name src.generation (src.metaGeneration < ·.metaGeneration)
  no_object : s.phase.object = none

section Invariant

variable {name src tmpName r} {s s' : State}

theorem Inv.init {b₀ : Bucket} (hwf : b₀.WF) (hsrc : b₀.get name = some src) :
    Inv name src tmpName r ⟨b₀, .start⟩ where
  wf := hwf
  src_contents := (Fixed.of_get hwf hsrc).mono fun o ho => by rw [ho]; exact ⟨rfl, rfl⟩
  src_metaGeneration := (Fixed.of_get hwf hsrc).mono fun o ho => by rw [ho]
  tmp_contents _ h := nomatch h
  appended _ h := nomatch h

/-- The temporary object `CreateObject` made holds the new bytes. -/
theorem tmp_contents_write (b : Bucket) :
    (b.write tmpName r).Fixed tmpName b.nextGeneration (fun o => o.contents = r ∧ o.componentCount = 1) := by
  refine ⟨Nat.lt_succ_self _, fun o ho _ => ?_⟩
  rw [get_write, Option.some.injEq] at ho
  rw [← ho]
  exact ⟨rfl, rfl⟩

/-- The compose reads the source's contents and the new bytes, and the
source's components and the one of the temporary object. -/
theorem contents_of_select (hsrc : 0 < src.generation) (hi : Inv name src tmpName r s) {g : ℕ}
    (hg : s.phase = .created g) {o₁ o₂ : Object} (h₁ : s.bucket.select name src.generation = some o₁)
    (h₂ : s.bucket.select tmpName g = some o₂) :
    o₁.contents ++ o₂.contents = src.contents ++ r ∧
      o₁.componentCount + o₂.componentCount = src.componentCount + 1 := by
  obtain ⟨hg0, htmp⟩ := hi.tmp_contents g hg
  obtain ⟨hget₁, hgen₁⟩ := (select_eq_some (Nat.pos_iff_ne_zero.mp hsrc)).mp h₁
  obtain ⟨hget₂, hgen₂⟩ := (select_eq_some (Nat.pos_iff_ne_zero.mp hg0)).mp h₂
  obtain ⟨hc₁, hk₁⟩ := hi.src_contents.2 o₁ hget₁ hgen₁
  obtain ⟨hc₂, hk₂⟩ := htmp.2 o₂ hget₂ hgen₂
  rw [hc₁, hk₁, hc₂, hk₂]
  exact ⟨rfl, rfl⟩

theorem Inv.step (hsrc : 0 < src.generation) (hi : Inv name src tmpName r s) {a : Action}
    (h : step name src tmpName r s a = some s') : Inv name src tmpName r s' := by
  -- the bucket's part holds across any call; the phase's part is per step
  have hwf := WF.step h hi.wf
  have hcontents := Fixed.step (fun _ ho => ho) h hi.src_contents
  have hmeta := Fixed.step (fun _ ho => Nat.le_succ_of_le ho) h hi.src_metaGeneration
  cases a with
  | env c =>
    obtain ⟨hc, hphase⟩ := step_env h
    refine ⟨hwf, hcontents, hmeta, fun g hg => ?_, fun o ho => hi.appended o (hphase ▸ ho)⟩
    obtain ⟨hg0, htmp⟩ := hi.tmp_contents g (hphase ▸ hg)
    exact ⟨hg0, htmp.call (fun _ ho => ho) hc⟩
  | readFullFails =>
    obtain ⟨-, rfl⟩ := step_readFullFails h
    refine ⟨hwf, hcontents, hmeta, ?_, ?_⟩
    · rintro g ⟨⟩
    · rintro o ⟨⟩
  | createObject =>
    obtain ⟨-, ⟨-, hb, hphase⟩ | ⟨e, rfl⟩⟩ := step_createObject h
    · refine ⟨hwf, hcontents, hmeta, ?_, ?_⟩
      · -- the temporary object is the one just written
        intro g hg
        rw [hphase, Phase.created.injEq] at hg
        subst hg
        rw [hb]
        exact ⟨hi.wf.next_pos, tmp_contents_write s.bucket⟩
      · intro o ho
        rw [hphase] at ho
        cases ho
    · refine ⟨hwf, hcontents, hmeta, ?_, ?_⟩
      · rintro g ⟨⟩
      · rintro o ⟨⟩
  | composeObjects =>
    obtain ⟨g, hg, ⟨o₁, o₂, h₁, h₂, -, -, -, hphase⟩ | ⟨e, rfl⟩⟩ := step_composeObjects h
    · refine ⟨hwf, hcontents, hmeta, ?_, ?_⟩
      · intro g' hg'
        rw [hphase] at hg'
        cases hg'
      · -- the object the compose returns
        intro o ho
        rw [hphase] at ho
        cases ho
        exact contents_of_select hsrc hi hg h₁ h₂
    · refine ⟨hwf, hcontents, hmeta, ?_, ?_⟩
      · rintro g' ⟨⟩
      · rintro o ⟨⟩
  | deleteObject =>
    -- the object `Create` returns is the one the compose returned
    obtain ⟨o, err, err', hp, hphase⟩ := step_deleteObject_phase h
    refine ⟨hwf, hcontents, hmeta, ?_, fun o' ho => hi.appended o' ?_⟩
    · intro g hg
      rw [hphase] at hg
      cases hg
    · rw [hp]
      rw [hphase] at ho
      exact ho

/-- The invariant holds after every run from a well-formed bucket that
holds the source. -/
theorem inv_of_run {b₀ : Bucket} (hwf : b₀.WF) (hsrc : b₀.get name = some src) {as : List Action}
    (h : Run.run (step name src tmpName r) ⟨b₀, .start⟩ as = some s) : Inv name src tmpName r s :=
  Run.run_invariant (fun _ _ _ hi hs => hi.step (hwf.live name src hsrc).1 hs) as _ _ (Inv.init hwf hsrc) h

theorem Clobbered.step (hsrc : 0 < src.generation) (hc : Clobbered name src s) {a : Action}
    (h : step name src tmpName r s a = some s') : Clobbered name src s' := by
  refine ⟨Fixed.step (fun _ ho => Nat.lt_succ_of_lt ho) h hc.past, ?_⟩
  cases a with
  | env c =>
    obtain ⟨-, hphase⟩ := step_env h
    rw [hphase]
    exact hc.no_object
  | readFullFails =>
    obtain ⟨-, rfl⟩ := step_readFullFails h
    rfl
  | createObject =>
    obtain ⟨-, ⟨-, -, hphase⟩ | ⟨e, rfl⟩⟩ := step_createObject h
    · rw [hphase]
      rfl
    · rfl
  | composeObjects =>
    obtain ⟨g, -, ⟨o₁, o₂, -, -, hpre, -⟩ | ⟨e, rfl⟩⟩ := step_composeObjects h
    · -- the preconditions need the source's metageneration, which the name is past
      obtain ⟨o, ho, hgen, hmeta⟩ := (preconditionChecks_some (Nat.pos_iff_ne_zero.mp hsrc)).mp hpre
      exact absurd hmeta (Nat.ne_of_gt (hc.past.2 o ho hgen))
    · rfl
  | deleteObject =>
    -- `Create` returns the object the compose returned, which is none
    obtain ⟨o, err, err', hp, hphase⟩ := step_deleteObject_phase h
    have hno := hc.no_object
    rw [hp] at hno
    rw [hphase]
    exact hno

end Invariant

/-! ## Every interleaving -/

section Runs

variable {name src tmpName r} {b₀ : Bucket} {s : State}

/-- **A `Create` that composed appended the new bytes to the source
generation**: in any interleaving with the calls of other clients, from a
well-formed bucket where the source is live, once `Create` has returned
an object (even with the deferred delete's error), that object holds the
source's contents followed by the new bytes. -/
theorem create_appends (hwf : b₀.WF) (hsrc : b₀.get name = some src) {as : List Action}
    (h : Run.run (step name src tmpName r) ⟨b₀, .start⟩ as = some s) {o : Object} {err : Option CreateError}
    (hdone : s.phase = .done (some o) err) : o.contents = src.contents ++ r :=
  ((inv_of_run hwf hsrc h).appended o (by rw [hdone]; rfl)).1

theorem create_appends_to_live_source :
    (⟨3, 1, [5, 6], 2⟩ : Object).contents = (⟨1, 1, [5], 1⟩ : Object).contents ++ [6] :=
  @create_appends [1] ⟨1, 1, [5], 1⟩ [2] [6] ((⟨∅, 1⟩ : Bucket).write [1] [5]) _
    (WF.empty.write [1] [5]) rfl [.createObject, .composeObjects, .deleteObject] rfl
    ⟨3, 1, [5, 6], 2⟩ none rfl

/-- **No update of the object is lost**: in any interleaving with the
calls of other clients, if `Create` returns an object, the name held the
source object itself, at its generation and metageneration, at every
point of the run before the compose. Another client's write, deletion or
metadata change of the object in that time makes `Create` return no
object. -/
theorem create_no_lost_update (hwf : b₀.WF) (hsrc : b₀.get name = some src) {as₁ as₂ : List Action}
    {s₁ s₂ : State} (h₁ : Run.run (step name src tmpName r) ⟨b₀, .start⟩ as₁ = some s₁)
    (hbefore : s₁.phase = .start ∨ ∃ g, s₁.phase = .created g)
    (h₂ : Run.run (step name src tmpName r) s₁ as₂ = some s₂) {o : Object} {err : Option CreateError}
    (hdone : s₂.phase = .done (some o) err) : s₁.bucket.get name = some src := by
  have hpos := (hwf.live name src hsrc).1
  have hi := inv_of_run hwf hsrc h₁
  by_contra hne
  -- from a state where the name is not the source, `Create` composes nothing
  have hc : Clobbered name src s₁ := by
    refine ⟨⟨hi.src_contents.1, fun o' ho' hgen => ?_⟩, ?_⟩
    · have hle := hi.src_metaGeneration.2 o' ho' hgen
      obtain ⟨hcontents, hcount⟩ := hi.src_contents.2 o' ho' hgen
      refine lt_of_le_of_ne hle fun hmeta => hne ?_
      -- the generation, the metageneration, the contents and the components are the source's
      rw [ho']
      cases o'
      cases src
      simp only at hgen hmeta hcontents hcount
      rw [hgen, hmeta, hcontents, hcount]
    · rcases hbefore with hp | ⟨g, hp⟩ <;> rw [hp] <;> rfl
  have hno := (Run.run_invariant (fun _ _ _ hc hs => hc.step hpos hs) as₂ _ _ hc h₂).no_object
  rw [hdone] at hno
  cases hno

theorem no_update_lost_in_one_create :
    ((⟨∅, 1⟩ : Bucket).write [1] [5]).get [1] = some ⟨1, 1, [5], 1⟩ :=
  @create_no_lost_update [1] ⟨1, 1, [5], 1⟩ [2] [6] ((⟨∅, 1⟩ : Bucket).write [1] [5])
    (WF.empty.write [1] [5]) rfl [] [.createObject, .composeObjects, .deleteObject]
    _ _ rfl (.inl rfl) rfl ⟨3, 1, [5, 6], 2⟩ none rfl

/-- The syncer of the file inode, where it composes, writes the source's
contents followed by the temp file's bytes past the source's end, of one
more component than the source. -/
theorem syncObject_compose {sy : Inode.Syncer} {t : Inode.TempFile} {o' : Object} {b' : Bucket}
    (hcompose : sy.composes src t) (h : sy.syncObject b₀ name (some src) t = .ok (some o', b')) :
    o'.contents = src.contents ++ t.contents.drop src.contents.length ∧
      o'.componentCount = src.componentCount + 1 := by
  unfold Inode.Syncer.syncObject at h
  simp only [hcompose, if_true] at h
  split_ifs at h with hweird hclean hdirty
  · -- a clean temp file returns no object
    simp at h
  · cases ht : b₀.target name src.generation (some src.metaGeneration) with
    | error e => rw [ht] at h; cases h
    | ok o =>
      rw [ht] at h
      simp only [get_put, Except.ok.injEq, Prod.mk.injEq, Option.some.injEq] at h
      rw [← h.1]
      exact ⟨rfl, rfl⟩

/-- **`Create` is the syncer's compose**: in any interleaving with the
calls of other clients, the object `Create` returns holds what the
one-call syncer of the file inode writes where it composes, contents and
components, with the temp file's bytes past the source's end as the new
bytes. -/
theorem create_refines_syncObject {sy : Inode.Syncer} {t : Inode.TempFile} {o' : Object} {b' : Bucket}
    (hcompose : sy.compose = true ∧ sy.composeThreshold ≤ src.contents.length ∧
      t.dirtyThreshold = src.contents.length ∧ src.componentCount < maxComponentCount)
    (hsync : sy.syncObject b₀ name (some src) t = .ok (some o', b')) (hwf : b₀.WF) (hsrc : b₀.get name = some src)
    {as : List Action}
    (h : Run.run (step name src tmpName (t.contents.drop src.contents.length)) ⟨b₀, .start⟩ as = some s)
    {o : Object} {err : Option CreateError} (hdone : s.phase = .done (some o) err) :
    o.contents = o'.contents ∧ o.componentCount = o'.componentCount := by
  obtain ⟨hc', hk'⟩ := syncObject_compose hcompose hsync
  obtain ⟨hc, hk⟩ := (inv_of_run hwf hsrc h).appended o (by rw [hdone]; rfl)
  rw [hc, hk, hc', hk']
  exact ⟨rfl, rfl⟩

theorem create_composes_what_syncer_writes :
    (⟨3, 1, [5, 6], 2⟩ : Object).contents = (⟨2, 1, [5, 6], 2⟩ : Object).contents ∧
      (⟨3, 1, [5, 6], 2⟩ : Object).componentCount = (⟨2, 1, [5, 6], 2⟩ : Object).componentCount :=
  @create_refines_syncObject [1] ⟨1, 1, [5], 1⟩ [2] ((⟨∅, 1⟩ : Bucket).write [1] [5]) _ ⟨0, true⟩ ⟨[5, 6], 1, true⟩
    ⟨2, 1, [5, 6], 2⟩ _ ⟨rfl, Nat.zero_le _, rfl, by decide⟩ rfl
    (WF.empty.write [1] [5]) rfl
    [.createObject, .composeObjects, .deleteObject] rfl ⟨3, 1, [5, 6], 2⟩ none rfl

end Runs

end ComposeObjectCreator

end Gcsx

end GcsFuse
