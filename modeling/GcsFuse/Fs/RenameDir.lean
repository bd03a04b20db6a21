import GcsFuse.Gcs.Bucket
/-!
# Renaming a directory of a flat bucket

`fileSystem.renameNonHierarchicalDir`: in a bucket without folders a
directory is a prefix, so renaming it moves every object under the old
prefix to the same name under the new one. The call lists the old
directory's descendants, creates the new directory's placeholder
(one that exists is fine), checks that nothing is under the new prefix,
and then, one descendant at a time in the order Go iterates the listing's
map, copies it and deletes it behind, or moves it when atomic rename is on
and it is not a directory, and invalidates its file-cache entry; last it
deletes the old placeholder, unless the directory is implicit. Any call
can fail, and the call then returns with what is done so far.

Nothing is lost (`rename_dir_loses_nothing`): at every return each
listed object is under its old name or its new one with its contents, and
after a successful return under the new name only. What makes it hold is
the emptiness check: no new name is a name the loop has yet to move.
-/

namespace GcsFuse

namespace Fs

open Gcs

/-- The steps of `renameNonHierarchicalDir` that can fail for a reason of
their own; a step that fails changes nothing. -/
inductive Call
  | lookUpOldDir
  | listOld
  | createDir
  | lookUpNewDir
  | listNew
  | copy (name : ObjectName)
  | delete (name : ObjectName)
  | move (name : ObjectName)
  | invalidate (name : ObjectName)
  | deleteDir
  deriving DecidableEq, Repr

section Rename

variable (fails : Call → Bool) (atomic : Bool) (oldPrefix newPrefix : ObjectName)

/-- A bucket call, unless it fails. -/
def call (c : Call) (x : Except GcsError Bucket) : Except GcsError Bucket :=
  if fails c then .error .unavailable else x

/-- `strings.TrimPrefix`. -/
def trimPrefix (s pre : ObjectName) : ObjectName := if pre.isPrefixOf s then s.drop pre.length else s

/-- Where a descendant goes: the new prefix, then its name under the old
one. -/
def newName (n : ObjectName) : ObjectName := newPrefix ++ trimPrefix n oldPrefix

/-- A turn of the loop, for descendant `n` as listed (`o`): a directory,
or any object when atomic rename is off, is copied and deleted behind,
with the listed generation and metageneration as preconditions; a file is
moved. The bucket, and whether the turn ended without error. -/
def moveDescendant (b : Bucket) (n : ObjectName) (o : Object) : Bucket × Bool :=
  if trimPrefix n oldPrefix = n then (b, false)
  else if !atomic || n.getLast? = some 47 then
    match call fails (.copy n) (b.copyObject n o.generation (some o.metaGeneration) (newName oldPrefix newPrefix n)) with
    | .error _ => (b, false)
    | .ok b =>
      match call fails (.delete n) (b.deleteObject n o.generation (some o.metaGeneration)) with
      | .error _ => (b, false)
      | .ok b => (b, !fails (.invalidate n))
  else
    match call fails (.move n) (b.moveObject n o.generation (some o.metaGeneration) (newName oldPrefix newPrefix n)) with
    | .error _ => (b, false)
    | .ok b => (b, !fails (.invalidate n))

/-- The loop over the listed descendants, stopping at the first error. -/
def moveDescendants : Bucket → List (ObjectName × Object) → Bucket × Bool
  | b, [] => (b, true)
  | b, (n, o) :: rest =>
    match moveDescendant fails atomic oldPrefix newPrefix b n o with
    | (b, true) => moveDescendants b rest
    | (b, false) => (b, false)

/-- The listing's map, in the order Go iterates it: the listed record of
each name of `order`. -/
def listed (b : Bucket) (order : List ObjectName) : List (ObjectName × Object) :=
  order.filterMap fun n => (b.get n).map fun o => (n, o)

/-- After the placeholder: the new directory must be empty, then the loop,
then the old placeholder goes, unless the directory is implicit. -/
def renameAfterCreate (isImplicitDir : Bool) (entries : List (ObjectName × Object)) (b : Bucket) :
    Bucket × Bool :=
  if fails .lookUpNewDir ∨ fails .listNew then (b, false)
  else if b.descendants newPrefix ≠ [] then (b, false)
  else
    match moveDescendants fails atomic oldPrefix newPrefix b entries with
    | (b, false) => (b, false)
    | (b, true) =>
      if isImplicitDir then (b, true)
      else
        match call fails .deleteDir (b.deleteObject oldPrefix 0 none) with
        | .ok b => (b, true)
        | .error _ => (b, false)

/-- `renameNonHierarchicalDir` of the directory `oldPrefix` to
`newPrefix`, with the listing's map iterated in `order`: the bucket, and
whether the call returned `nil`. -/
def renameNonHierarchicalDir (renameDirLimit : ℕ) (openFiles isImplicitDir : Bool) (order : List ObjectName)
    (b : Bucket) : Bucket × Bool :=
  if fails .lookUpOldDir ∨ openFiles ∨ fails .listOld then (b, false)
  else if renameDirLimit < (b.descendants oldPrefix).length then (b, false)
  else
    let entries := listed b order
    match call fails .createDir (b.createObject newPrefix [] true) with
    | .ok b' => renameAfterCreate fails atomic oldPrefix newPrefix isImplicitDir entries b'
    | .error .precondition => renameAfterCreate fails atomic oldPrefix newPrefix isImplicitDir entries b
    | .error _ => (b, false)

/-! ## Nothing is lost -/

/-- What the loop needs of its entries: they are live, under the old
prefix and not the prefix, named once, and no new name is an entry. -/
structure Entries (b : Bucket) (entries : List (ObjectName × Object)) : Prop where
  live : ∀ e ∈ entries, b.get e.1 = some e.2
  under : ∀ e ∈ entries, oldPrefix <+: e.1 ∧ e.1 ≠ oldPrefix
  nodup : (entries.map Prod.fst).Nodup
  fresh : ∀ e ∈ entries, ∀ e' ∈ entries, newName oldPrefix newPrefix e'.1 ≠ e.1

variable {fails atomic oldPrefix newPrefix}

theorem trimPrefix_eq_drop {s pre : ObjectName} (h : pre <+: s) : trimPrefix s pre = s.drop pre.length := by
  simp [trimPrefix, List.isPrefixOf_iff_prefix.2 h]

/-- Under the old prefix, a descendant is the prefix and its own part. -/
theorem eq_append_trimPrefix {n : ObjectName} (h : oldPrefix <+: n) :
    n = oldPrefix ++ trimPrefix n oldPrefix := by
  rw [trimPrefix_eq_drop h]
  exact (List.prefix_iff_eq_append.1 h).symm

theorem trimPrefix_ne_nil {n : ObjectName} (h : oldPrefix <+: n) (hne : n ≠ oldPrefix) :
    trimPrefix n oldPrefix ≠ [] := fun h' => hne (by rw [eq_append_trimPrefix h, h', List.append_nil])

/-- **Distinct descendants go to distinct names.** -/
theorem newName_inj {m n : ObjectName} (hm : oldPrefix <+: m) (hn : oldPrefix <+: n)
    (h : newName oldPrefix newPrefix m = newName oldPrefix newPrefix n) : m = n := by
  rw [eq_append_trimPrefix hm, eq_append_trimPrefix hn, List.append_cancel_left h]

/-- **A new name is under the new prefix**: with nothing live under it, no
live object has a descendant's new name. -/
theorem newName_ne_live {b : Bucket} (hempty : b.descendants newPrefix = []) {m n : ObjectName}
    (hm : oldPrefix <+: m) (hmne : m ≠ oldPrefix) (hn : (b.get n).isSome) :
    newName oldPrefix newPrefix m ≠ n := by
  intro h
  have hd := trimPrefix_ne_nil hm hmne
  have hmem : n ∈ b.descendants newPrefix := by
    rw [Bucket.mem_descendants]
    refine ⟨hn, ⟨trimPrefix m oldPrefix, h⟩, fun heq => hd ?_⟩
    rw [← h, newName] at heq
    simpa using heq
  simp [hempty] at hmem

/-- **One turn**: it touches only the descendant and its new name; the
descendant's contents are under one of them, and under the new name only
when the turn ends without error. -/
theorem moveDescendant_spec {b : Bucket} {n : ObjectName} {o : Object} (ho : b.get n = some o)
    (hN : newName oldPrefix newPrefix n ≠ n) :
    let r := moveDescendant fails atomic oldPrefix newPrefix b n o
    (∀ k, k ≠ n → k ≠ newName oldPrefix newPrefix n → r.1.get k = b.get k) ∧
    ((r.1.get n).map Object.contents = some o.contents ∨
      (r.1.get (newName oldPrefix newPrefix n)).map Object.contents = some o.contents) ∧
    (r.2 = true → r.1.get n = none ∧
      (r.1.get (newName oldPrefix newPrefix n)).map Object.contents = some o.contents) := by
  unfold moveDescendant
  set N := newName oldPrefix newPrefix n
  have hNn : n ≠ N := Ne.symm hN
  split
  · exact ⟨fun _ _ _ => rfl, .inl (by simp [ho]), fun h => by cases h⟩
  split
  · -- copied, then deleted behind
    have hb₁ : (b.put N o.contents o.componentCount).get n = some o := by rw [Bucket.get_put_ne hNn, ho]
    cases hc : fails (.copy n)
    · cases hd : fails (.delete n)
      · simp only [call, hc, hd, Bool.false_eq_true, if_false, Bucket.copyObject, Bucket.deleteObject,
          Bucket.target_self ho, Bucket.target_self hb₁, Except.map]
        refine ⟨fun k hk hkN => ?_, .inr ?_, fun _ => ⟨by simp, ?_⟩⟩
        · rw [Bucket.get_remove_ne hk, Bucket.get_put_ne hkN]
        · rw [Bucket.get_remove_ne hN]
          simp
        · rw [Bucket.get_remove_ne hN]
          simp
      · simp only [call, hc, hd, Bool.false_eq_true, if_false, if_true, Bucket.copyObject,
          Bucket.target_self ho, Except.map]
        exact ⟨fun k _ hk => Bucket.get_put_ne hk _ _, .inr (by simp), fun h => (by cases h)⟩
    · simp [call, hc, ho]
  · -- moved at once
    cases hm : fails (.move n)
    · simp only [call, hm, Bool.false_eq_true, if_false, Bucket.moveObject, Bucket.target_self ho,
        Except.map]
      refine ⟨fun k hk hkN => ?_, .inr (by simp), fun _ => ⟨?_, by simp⟩⟩
      · rw [Bucket.get_put_ne hkN, Bucket.get_remove_ne hk]
      · rw [Bucket.get_put_ne hNn, Bucket.get_remove]
    · simp [call, hm, ho]

/-- **The loop**: each entry's contents are under its name or its new
name, under the new name only after a loop without error, and every other
name is untouched. -/
theorem moveDescendants_spec :
    ∀ (entries : List (ObjectName × Object)) (b : Bucket),
    Entries oldPrefix newPrefix b entries →
    let r := moveDescendants fails atomic oldPrefix newPrefix b entries
    (∀ e ∈ entries, (r.1.get e.1).map Object.contents = some e.2.contents ∨
      (r.1.get (newName oldPrefix newPrefix e.1)).map Object.contents = some e.2.contents) ∧
    (r.2 = true → ∀ e ∈ entries, r.1.get e.1 = none ∧
      (r.1.get (newName oldPrefix newPrefix e.1)).map Object.contents = some e.2.contents) ∧
    (∀ k, (∀ e ∈ entries, k ≠ e.1 ∧ k ≠ newName oldPrefix newPrefix e.1) → r.1.get k = b.get k)
  | [], b, _ => ⟨by simp, fun _ => by simp, fun _ _ => rfl⟩
  | (n, o) :: rest, b, he => by
    have hrest : ∀ e ∈ rest, n ≠ e.1 := fun e hmem h =>
      (List.nodup_cons.1 he.nodup).1 (List.mem_map.2 ⟨e, hmem, h.symm⟩)
    obtain ⟨hframe, hkeep, hok⟩ := @moveDescendant_spec fails atomic oldPrefix newPrefix b n o
      (he.live _ List.mem_cons_self) (he.fresh _ List.mem_cons_self _ List.mem_cons_self)
    rcases ht : moveDescendant fails atomic oldPrefix newPrefix b n o with ⟨b₁, ok₁⟩
    rw [ht] at hframe hkeep hok
    -- the entries still to move are as listed
    have hlive : ∀ e ∈ rest, b₁.get e.1 = some e.2 := fun e hmem => by
      rw [hframe _ (hrest e hmem).symm (he.fresh e (List.mem_cons_of_mem _ hmem) _ List.mem_cons_self).symm]
      exact he.live e (List.mem_cons_of_mem _ hmem)
    cases ok₁ with
    | false =>
      simp only [moveDescendants, ht]
      refine ⟨fun e hmem => ?_, fun h => (by cases h), fun k hk => hframe k (hk _ List.mem_cons_self).1
        (hk _ List.mem_cons_self).2⟩
      rcases List.mem_cons.1 hmem with rfl | hmem
      · exact hkeep
      · exact .inl (by rw [hlive e hmem]; rfl)
    | true =>
      have he' : Entries oldPrefix newPrefix b₁ rest :=
        ⟨hlive, fun e h => he.under e (List.mem_cons_of_mem _ h), (List.nodup_cons.1 he.nodup).2,
          fun e h e' h' => he.fresh e (List.mem_cons_of_mem _ h) e' (List.mem_cons_of_mem _ h')⟩
      obtain ⟨ihkeep, ihok, ihframe⟩ := moveDescendants_spec rest b₁ he'
      simp only [moveDescendants, ht]
      obtain ⟨hgone, hnew⟩ := hok rfl
      -- the rest of the loop leaves this entry's two names alone
      have hn' : (moveDescendants fails atomic oldPrefix newPrefix b₁ rest).1.get n = none := by
        rw [ihframe n fun e hmem => ⟨hrest e hmem,
          (he.fresh _ List.mem_cons_self e (List.mem_cons_of_mem _ hmem)).symm⟩, hgone]
      have hN' : (moveDescendants fails atomic oldPrefix newPrefix b₁ rest).1.get
          (newName oldPrefix newPrefix n) = b₁.get (newName oldPrefix newPrefix n) := by
        refine ihframe _ fun e hmem => ⟨he.fresh e (List.mem_cons_of_mem _ hmem) _ List.mem_cons_self,
          fun h => hrest e hmem ?_⟩
        exact newName_inj (he.under _ List.mem_cons_self).1 (he.under e (List.mem_cons_of_mem _ hmem)).1 h
      refine ⟨fun e hmem => ?_, fun h e hmem => ?_, fun k hk => ?_⟩
      · rcases List.mem_cons.1 hmem with rfl | hmem
        · exact .inr (by rw [hN']; exact hnew)
        · exact ihkeep e hmem
      · rcases List.mem_cons.1 hmem with rfl | hmem
        · exact ⟨hn', by rw [hN']; exact hnew⟩
        · exact ihok h e hmem
      · rw [ihframe k fun e h => hk e (List.mem_cons_of_mem _ h)]
        exact hframe k (hk _ List.mem_cons_self).1 (hk _ List.mem_cons_self).2

theorem call_eq_ok {c : Call} {x : Except GcsError Bucket} {b : Bucket} (h : call fails c x = .ok b) :
    x = .ok b := by
  unfold call at h
  split at h
  · cases h
  · exact h

/-- The placeholder of the old directory is no descendant's new name. -/
theorem newName_ne_oldPrefix {b : Bucket} (hempty : b.descendants newPrefix = []) {n : ObjectName}
    (hn : oldPrefix <+: n) (hne : n ≠ oldPrefix) (hlive : (b.get n).isSome) :
    newName oldPrefix newPrefix n ≠ oldPrefix := by
  intro h
  have hd := trimPrefix_ne_nil hn hne
  -- the descendant would be under the new prefix, twice its own part past it
  have hn' : n = newPrefix ++ (trimPrefix n oldPrefix ++ trimPrefix n oldPrefix) := by
    have hsplit := eq_append_trimPrefix hn
    have h' : newPrefix ++ trimPrefix n oldPrefix = oldPrefix := h
    generalize trimPrefix n oldPrefix = t at hsplit h' ⊢
    rw [hsplit, ← h', List.append_assoc]
  have hmem : n ∈ b.descendants newPrefix := by
    rw [Bucket.mem_descendants]
    refine ⟨hlive, ⟨_, hn'.symm⟩, fun heq => hd ?_⟩
    have := congrArg List.length (hn'.symm.trans heq)
    simp only [List.length_append] at this
    exact List.eq_nil_of_length_eq_zero (by omega)
  simp [hempty] at hmem

section Listing

variable {b : Bucket} {order : List ObjectName}

theorem mem_listed {e : ObjectName × Object} : e ∈ listed b order ↔ e.1 ∈ order ∧ b.get e.1 = some e.2 := by
  obtain ⟨n, o⟩ := e
  simp [listed]

theorem nodup_listed (hnd : order.Nodup) : ((listed b order).map Prod.fst).Nodup := by
  have hsub : ((listed b order).map Prod.fst).Sublist order := by
    unfold listed
    induction order with
    | nil => simp
    | cons n rest ih =>
      cases hn : b.get n with
      | none => simpa [List.filterMap_cons, hn] using (ih (List.nodup_cons.1 hnd).2).cons n
      | some o => simpa [List.filterMap_cons, hn] using (ih (List.nodup_cons.1 hnd).2).cons_cons n
  exact hsub.nodup hnd

end Listing

/-- **After the placeholder**, from a bucket that agrees with the listed
one on every descendant. -/
theorem renameAfterCreate_spec {isImplicitDir : Bool} {b bc : Bucket} {order : List ObjectName}
    (horder : order.Perm (b.descendants oldPrefix)) (hc : ∀ n ∈ b.descendants oldPrefix, bc.get n = b.get n) :
    let r := renameAfterCreate fails atomic oldPrefix newPrefix isImplicitDir (listed b order) bc
    (∀ n ∈ b.descendants oldPrefix, (r.1.get n).map Object.contents = (b.get n).map Object.contents ∨
        (r.1.get (newName oldPrefix newPrefix n)).map Object.contents = (b.get n).map Object.contents) ∧
    (r.2 = true → (∀ n ∈ b.descendants oldPrefix, r.1.get n = none ∧
        (r.1.get (newName oldPrefix newPrefix n)).map Object.contents = (b.get n).map Object.contents) ∧
      (isImplicitDir = false → r.1.get oldPrefix = none)) := by
  -- a descendant, as listed
  have hlisted : ∀ n ∈ b.descendants oldPrefix, ∃ o, b.get n = some o ∧ (n, o) ∈ listed b order := by
    intro n hn
    obtain ⟨o, ho⟩ := Option.isSome_iff_exists.1 (Bucket.mem_descendants.1 hn).1
    exact ⟨o, ho, mem_listed.2 ⟨horder.mem_iff.2 hn, ho⟩⟩
  have hdesc : ∀ e ∈ listed b order, e.1 ∈ b.descendants oldPrefix := fun e he =>
    horder.mem_iff.1 (mem_listed.1 he).1
  have hunder : ∀ n ∈ b.descendants oldPrefix, oldPrefix <+: n ∧ n ≠ oldPrefix := fun n hn =>
    (Bucket.mem_descendants.1 hn).2
  have hlive : ∀ n ∈ b.descendants oldPrefix, (bc.get n).isSome := fun n hn => by
    rw [hc n hn]
    exact (Bucket.mem_descendants.1 hn).1
  -- a return before the loop leaves every descendant where it was
  have hstay : ∀ n ∈ b.descendants oldPrefix, (bc.get n).map Object.contents = (b.get n).map Object.contents ∨
      (bc.get (newName oldPrefix newPrefix n)).map Object.contents = (b.get n).map Object.contents :=
    fun n hn => .inl (by rw [hc n hn])
  unfold renameAfterCreate
  split
  · exact ⟨hstay, fun h => (by cases h)⟩
  split
  · exact ⟨hstay, fun h => (by cases h)⟩
  rename_i hempty
  simp only [ne_eq, not_not] at hempty
  have he : Entries oldPrefix newPrefix bc (listed b order) :=
    ⟨fun e hmem => by rw [hc _ (hdesc e hmem)]; exact (mem_listed.1 hmem).2,
      fun e hmem => hunder _ (hdesc e hmem), nodup_listed (horder.nodup_iff.2 (b.objects.keys_nodup.filter _)),
      fun e hmem e' hmem' => newName_ne_live hempty (hunder _ (hdesc e' hmem')).1 (hunder _ (hdesc e' hmem')).2
        (hlive _ (hdesc e hmem))⟩
  obtain ⟨hkeep, hok, -⟩ := @moveDescendants_spec fails atomic oldPrefix newPrefix _ bc he
  -- what the loop did, descendant by descendant
  have hkeep' : ∀ n ∈ b.descendants oldPrefix,
      ((moveDescendants fails atomic oldPrefix newPrefix bc (listed b order)).1.get n).map Object.contents =
        (b.get n).map Object.contents ∨
      ((moveDescendants fails atomic oldPrefix newPrefix bc (listed b order)).1.get
        (newName oldPrefix newPrefix n)).map Object.contents = (b.get n).map Object.contents := by
    intro n hn
    obtain ⟨o, ho, hmem⟩ := hlisted n hn
    rw [ho]
    exact hkeep _ hmem
  have hok' : (moveDescendants fails atomic oldPrefix newPrefix bc (listed b order)).2 = true →
      ∀ n ∈ b.descendants oldPrefix,
      (moveDescendants fails atomic oldPrefix newPrefix bc (listed b order)).1.get n = none ∧
      ((moveDescendants fails atomic oldPrefix newPrefix bc (listed b order)).1.get
        (newName oldPrefix newPrefix n)).map Object.contents = (b.get n).map Object.contents := by
    intro h n hn
    obtain ⟨o, ho, hmem⟩ := hlisted n hn
    rw [ho]
    exact hok h _ hmem
  rcases hr : moveDescendants fails atomic oldPrefix newPrefix bc (listed b order) with ⟨b', ok⟩
  rw [hr] at hkeep' hok'
  cases ok with
  | false => exact ⟨hkeep', fun h => (by cases h)⟩
  | true =>
    dsimp only
    split
    · exact ⟨hkeep', fun _ => ⟨hok' rfl, fun h => by simp_all⟩⟩
    split
    · -- the old placeholder goes: it is neither a descendant nor a new name
      rename_i b'' hdel
      rw [Bucket.deleteObject_eq_ok (call_eq_ok hdel)]
      have hne : ∀ n ∈ b.descendants oldPrefix, n ≠ oldPrefix ∧ newName oldPrefix newPrefix n ≠ oldPrefix :=
        fun n hn => ⟨(hunder n hn).2, newName_ne_oldPrefix hempty (hunder n hn).1 (hunder n hn).2 (hlive n hn)⟩
      refine ⟨fun n hn => ?_, fun _ => ⟨fun n hn => ?_, fun _ => Bucket.get_remove _⟩⟩
      · rw [Bucket.get_remove_ne (hne n hn).1, Bucket.get_remove_ne (hne n hn).2]
        exact hkeep' n hn
      · rw [Bucket.get_remove_ne (hne n hn).1, Bucket.get_remove_ne (hne n hn).2]
        exact hok' rfl n hn
    · exact ⟨hkeep', fun h => (by cases h)⟩

/-- **Nothing is lost.** Whatever fails, and in whatever order the
listing's map is iterated, each object listed under the old directory is,
with its contents, under its old name or its new one; after a `nil`
return it is under its new name only, and the old placeholder is gone
unless the directory is implicit. -/
theorem rename_dir_loses_nothing {renameDirLimit : ℕ} {openFiles isImplicitDir : Bool}
    {order : List ObjectName} {b : Bucket} (horder : order.Perm (b.descendants oldPrefix)) :
    let r := renameNonHierarchicalDir fails atomic oldPrefix newPrefix renameDirLimit openFiles isImplicitDir
      order b
    (∀ n ∈ b.descendants oldPrefix, (r.1.get n).map Object.contents = (b.get n).map Object.contents ∨
        (r.1.get (newName oldPrefix newPrefix n)).map Object.contents = (b.get n).map Object.contents) ∧
    (r.2 = true → (∀ n ∈ b.descendants oldPrefix, r.1.get n = none ∧
        (r.1.get (newName oldPrefix newPrefix n)).map Object.contents = (b.get n).map Object.contents) ∧
      (isImplicitDir = false → r.1.get oldPrefix = none)) := by
  have hstay : ∀ n ∈ b.descendants oldPrefix, (b.get n).map Object.contents = (b.get n).map Object.contents ∨
      (b.get (newName oldPrefix newPrefix n)).map Object.contents = (b.get n).map Object.contents :=
    fun _ _ => .inl rfl
  unfold renameNonHierarchicalDir
  split
  · exact ⟨hstay, fun h => (by cases h)⟩
  split
  · exact ⟨hstay, fun h => (by cases h)⟩
  dsimp only
  split
  · -- the new placeholder is created: a name that was not live, so no descendant
    rename_i b' hcreate
    obtain ⟨hnone, rfl⟩ := Bucket.createObject_eq_ok (call_eq_ok hcreate)
    refine renameAfterCreate_spec horder fun n hn => Bucket.get_write_ne (fun h => ?_) _
    have := (Bucket.mem_descendants.1 hn).1
    rw [h, hnone] at this
    cases this
  · exact renameAfterCreate_spec horder fun _ _ => rfl
  · exact ⟨hstay, fun h => (by cases h)⟩

/-- A bucket with the placeholder "a/" and the object "a/x" of one byte. -/
def twoObjects : Bucket := ((⟨∅, 1⟩ : Bucket).write [97, 47] []).write [97, 47, 120] [1]

/-- Renaming "a/" to "b/" when every call succeeds puts the byte under "b/x". -/
theorem rename_dir_moves_object :
    [[97, 47, 120]].Perm (twoObjects.descendants [97, 47]) ∧
    ((renameNonHierarchicalDir (fun _ => false) false [97, 47] [98, 47] 10 false false [[97, 47, 120]]
      twoObjects).1.get [98, 47, 120]).map Object.contents = some [1] := by
  have h := (@rename_dir_loses_nothing (fun _ => false) false [97, 47] [98, 47] 10 false false [[97, 47, 120]] twoObjects
    (by decide)).2 (by decide)
  have hx := (h.1 [97, 47, 120] (by decide)).2
  exact ⟨by decide, hx⟩

end Rename

end Fs

end GcsFuse
