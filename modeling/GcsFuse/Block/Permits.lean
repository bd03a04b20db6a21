import GcsFuse.Block.Pool
import GcsFuse.Common.Run
/-!
# The pool's permits over a run of calls

A `GenBlockPool` holds permits of the semaphore every reader shares: the
reserved blocks' from `NewGenBlockPool` on, and one for each block past
them, which `canAllocateBlock` takes and `ClearFreeBlockChannel` gives
back. `PoolState` is a pool with its one caller: the heap, the permits
free on the semaphore, and the blocks the caller obtained and has not
released. Its calls are `Get`/`TryGet`, `Release` of a held block and
`ClearFreeBlockChannel(false)`.

While every `createBlockFunc` succeeds, `Accounts` holds along the run:
the free and held blocks are `totalBlocks` distinct blocks, at most
`maxBlocks`, and the permits taken from the semaphore are
`max reservedBlocks totalBlocks` (`Accounts.run`). `Release` then never
panics, and `ClearFreeBlockChannel(true)` with every block free gives
every permit back (`Accounts.clear_true`).

A creation that fails past the reserved blocks returns its error with the
permit `canAllocateBlock` took still taken (`Accounts.get_failed`), and no
later call gives it back.
-/

namespace GcsFuse

namespace Block

/-- A pool and its caller: the heap of blocks, the permits free on the
shared semaphore, and the blocks obtained and not yet released. -/
structure PoolState where
  pool : GenBlockPool
  heap : List PrefetchBlock
  permits : ℕ
  held : List ℕ
  deriving DecidableEq, Repr

/-- The pool's calls. `get created` is `Get` or `TryGet`, with whether
`createBlockFunc` succeeds if it is called. -/
inductive PoolCall
  | get (created : Bool)
  | release (b : ℕ)
  | clear
  deriving DecidableEq, Repr

namespace PoolState

/-- A caller of a new pool, holding nothing. -/
def init (p : GenBlockPool) (permits : ℕ) : PoolState := ⟨p, [], permits, []⟩

/-- One call. A `Get` that can allocate nothing returns
`CantAllocateAnyBlockError` and changes nothing (`Get` itself waits for
another caller's `Release`). `Release` of a block the caller does not
hold is outside the pool's contract; it and a panic are `none`. -/
def step (s : PoolState) : PoolCall → Option PoolState
  | .get created =>
    match s.pool.tryGetWith s.heap s.permits created with
    | some (p, heap, permits, b) => some ⟨p, heap, permits, b.toList ++ s.held⟩
    | none => some s
  | .release b =>
    if b ∈ s.held then (s.pool.release b).map fun p => { s with pool := p, held := s.held.erase b }
    else none
  | .clear =>
    let r := s.pool.clear false s.permits
    some { s with pool := r.1, permits := r.2 }

/-- What a `Get` does: hands out the head of the free channel, creates a
block at the end of the heap after `canAllocateBlock` took its permits,
keeps that permit with no block when the creation fails, or changes
nothing. -/
theorem step_get_eq_some {s s' : PoolState} {created : Bool} (h : s.step (.get created) = some s') :
    (∃ b rest, s.pool.freeBlocksCh = b :: rest ∧
      s' = ⟨{ s.pool with freeBlocksCh := rest }, s.heap.set b .create, s.permits, b :: s.held⟩) ∨
    (s.pool.freeBlocksCh = [] ∧ ∃ k, s.pool.canAllocateBlock s.permits = some k ∧
      s' = if created then
          ⟨{ s.pool with totalBlocks := s.pool.totalBlocks + 1 }, s.heap ++ [.create], k, s.heap.length :: s.held⟩
        else { s with permits := k }) ∨
    s' = s := by
  dsimp only [step] at h
  rcases hfree : s.pool.freeBlocksCh with _ | ⟨b, rest⟩
  · rw [GenBlockPool.tryGetWith_nil hfree] at h
    cases hk : s.pool.canAllocateBlock s.permits with
    | none =>
      rw [hk, Option.map_none] at h
      cases h
      exact .inr (.inr rfl)
    | some k =>
      rw [hk, Option.map_some] at h
      refine .inr (.inl ⟨rfl, k, rfl, ?_⟩)
      cases created <;> cases h <;> rfl
  · rw [GenBlockPool.tryGetWith_cons hfree] at h
    cases h
    exact .inl ⟨b, rest, rfl, rfl⟩

/-- **The pool's accounting**, for a semaphore that had `K` permits free
when the pool was made: the free and held blocks are `totalBlocks`
distinct blocks of the heap, at most `maxBlocks`, and the pool holds
`max reservedBlocks totalBlocks` of the `K` permits. -/
structure Accounts (K : ℕ) (s : PoolState) : Prop where
  total_le : s.pool.totalBlocks ≤ s.pool.maxBlocks
  nodup : (s.pool.freeBlocksCh ++ s.held).Nodup
  length_eq : (s.pool.freeBlocksCh ++ s.held).length = s.pool.totalBlocks
  lt_heap : ∀ b ∈ s.pool.freeBlocksCh ++ s.held, b < s.heap.length
  permits_eq : s.permits + max s.pool.reservedBlocks s.pool.totalBlocks = K

variable {K : ℕ} {s : PoolState}

/-- A new pool and its caller keep the accounts of the permits free
before `NewGenBlockPool`. -/
theorem accounts_init {blockSize maxBlocks reservedBlocks permits : ℕ} {p : GenBlockPool}
    (hnew : GenBlockPool.new blockSize maxBlocks reservedBlocks K = some (p, permits)) :
    Accounts K (init p permits) := by
  unfold GenBlockPool.new at hnew
  split_ifs at hnew with h0 hmax hK
  cases hnew
  exact ⟨Nat.zero_le _, List.nodup_nil, rfl, fun _ hb => absurd hb List.not_mem_nil,
    by simp only [init, Nat.max_zero]; omega⟩

/-- The free and the held blocks count the pool's blocks. -/
theorem Accounts.free_add_held (h : Accounts K s) :
    s.pool.freeBlocksCh.length + s.held.length = s.pool.totalBlocks := by
  rw [← List.length_append]
  exact h.length_eq

/-- A call that moves blocks between the free channel and the caller,
with the counts as they were, keeps the accounts. -/
theorem Accounts.of_perm (h : Accounts K s) {s' : PoolState}
    (hperm : (s'.pool.freeBlocksCh ++ s'.held).Perm (s.pool.freeBlocksCh ++ s.held))
    (hheap : s'.heap.length = s.heap.length) (hpool : s'.pool.totalBlocks = s.pool.totalBlocks ∧
      s'.pool.maxBlocks = s.pool.maxBlocks ∧ s'.pool.reservedBlocks = s.pool.reservedBlocks)
    (hpermits : s'.permits = s.permits) : Accounts K s' where
  total_le := by
    rw [hpool.1, hpool.2.1]
    exact h.total_le
  nodup := hperm.nodup_iff.2 h.nodup
  length_eq := by rw [hperm.length_eq, hpool.1, h.length_eq]
  lt_heap b hb := hheap ▸ h.lt_heap b (hperm.mem_iff.1 hb)
  permits_eq := by rw [hpermits, hpool.1, hpool.2.2, h.permits_eq]

/-- `Get` of a free block moves it to the caller. -/
theorem Accounts.get_reuse (h : Accounts K s) {b : ℕ} {rest : List ℕ} (hfree : s.pool.freeBlocksCh = b :: rest) :
    Accounts K ⟨{ s.pool with freeBlocksCh := rest }, s.heap.set b .create, s.permits, b :: s.held⟩ := by
  refine h.of_perm ?_ (List.length_set ..) ⟨rfl, rfl, rfl⟩ rfl
  rw [hfree, List.cons_append]
  exact List.perm_middle

/-- `Get` of a new block: a fresh block, and the permit it took. -/
theorem Accounts.get_create (h : Accounts K s) (hfree : s.pool.freeBlocksCh = []) {k : ℕ}
    (hk : s.pool.canAllocateBlock s.permits = some k) :
    Accounts K ⟨{ s.pool with totalBlocks := s.pool.totalBlocks + 1 }, s.heap ++ [.create], k,
      s.heap.length :: s.held⟩ := by
  have hheld := h.lt_heap
  have hnd := h.nodup
  have hlen := h.length_eq
  rw [hfree, List.nil_append] at hheld hnd hlen
  have hperm := h.permits_eq
  have hbal := GenBlockPool.canAllocateBlock_eq_some hk
  refine ⟨Nat.succ_le_of_lt (GenBlockPool.lt_of_canAllocateBlock hk), ?_, ?_, ?_, ?_⟩
  · -- the new block is past every block of the heap
    show (s.pool.freeBlocksCh ++ s.heap.length :: s.held).Nodup
    rw [hfree, List.nil_append]
    exact List.nodup_cons.2 ⟨fun hm => Nat.lt_irrefl _ (hheld _ hm), hnd⟩
  · show (s.pool.freeBlocksCh ++ s.heap.length :: s.held).length = s.pool.totalBlocks + 1
    rw [hfree, List.nil_append, List.length_cons, hlen]
  · intro b hb
    change b ∈ s.pool.freeBlocksCh ++ s.heap.length :: s.held at hb
    rw [hfree, List.nil_append, List.mem_cons] at hb
    show b < (s.heap ++ [PrefetchBlock.create]).length
    rw [List.length_append, List.length_singleton]
    rcases hb with rfl | hb
    · exact Nat.lt_succ_self _
    · exact Nat.lt_succ_of_lt (hheld b hb)
  · show k + max s.pool.reservedBlocks (s.pool.totalBlocks + 1) = K
    omega

/-- `Release` of a held block puts it back in the free channel; with a
block held the channel is never full, so it never panics. -/
theorem Accounts.release (h : Accounts K s) {b : ℕ} (hb : b ∈ s.held) :
    ∃ p, s.pool.release b = some p ∧ Accounts K { s with pool := p, held := s.held.erase b } := by
  have hlen := h.free_add_held
  have hpos : 0 < s.held.length := List.length_pos_of_mem hb
  have hroom : s.pool.freeBlocksCh.length < s.pool.maxBlocks := by
    have := h.total_le
    omega
  refine ⟨_, if_pos hroom, h.of_perm ?_ rfl ⟨rfl, rfl, rfl⟩ rfl⟩
  -- the block moves from the caller to the end of the channel
  dsimp only
  rw [List.append_assoc, List.singleton_append]
  exact (List.perm_cons_erase hb).symm.append_left _

/-- `ClearFreeBlockChannel(false)` deallocates the free blocks and gives
back the permits of those past the reserved ones. -/
theorem Accounts.clear (h : Accounts K s) :
    Accounts K { s with pool := (s.pool.clear false s.permits).1, permits := (s.pool.clear false s.permits).2 } := by
  have hlen := h.free_add_held
  have hloop := GenBlockPool.clearLoop_eq_add_min s.pool.reservedBlocks s.pool.freeBlocksCh
    s.pool.totalBlocks s.permits (by omega)
  have hperm := h.permits_eq
  refine ⟨Nat.le_trans (Nat.sub_le _ _) h.total_le, ?_, ?_, ?_, ?_⟩
  · exact (List.nodup_append.1 h.nodup).2.1
  · simp only [GenBlockPool.clear, List.nil_append]
    omega
  · intro b hb
    rw [GenBlockPool.clear, List.nil_append] at hb
    exact h.lt_heap b (List.mem_append_right _ hb)
  · simp only [GenBlockPool.clear, Bool.false_eq_true, if_false, hloop]
    omega

/-- **Every call but a failed creation keeps the accounts.** -/
theorem Accounts.step (h : Accounts K s) {c : PoolCall} (hc : c ≠ .get false) {s' : PoolState}
    (hs : s.step c = some s') : Accounts K s' := by
  cases c with
  | get created =>
    have hcreated : created = true := by
      cases created
      · exact absurd rfl hc
      · rfl
    subst hcreated
    rcases step_get_eq_some hs with ⟨b, rest, hfree, rfl⟩ | ⟨hfree, k, hk, rfl⟩ | rfl
    · exact h.get_reuse hfree
    · exact h.get_create hfree hk
    · exact h
  | release b =>
    dsimp only [PoolState.step] at hs
    split_ifs at hs with hb
    obtain ⟨p, hp, hacc⟩ := h.release hb
    rw [hp, Option.map_some, Option.some.injEq] at hs
    exact hs ▸ hacc
  | clear =>
    cases hs
    exact h.clear

/-- **The accounts hold along every run** of calls whose creations
succeed. -/
theorem Accounts.run (h : Accounts K s) (calls : List PoolCall) (hcreated : ∀ c ∈ calls, c ≠ .get false)
    {s' : PoolState} (hrun : Run.run PoolState.step s calls = some s') : Accounts K s' :=
  Run.run_invariant_of_forall (fun _ _ _ hc hs => Accounts.step hs hc) calls s s' hcreated h hrun

/-- **`ClearFreeBlockChannel(true)` with every block free** deallocates
them all and gives back every permit the pool took. -/
theorem Accounts.clear_true (h : Accounts K s) (hheld : s.held = []) :
    (s.pool.clear true s.permits).1.totalBlocks = 0 ∧ (s.pool.clear true s.permits).2 = K := by
  have hlen := h.length_eq
  rw [hheld, List.append_nil] at hlen
  have hloop := GenBlockPool.clearLoop_eq_add_min s.pool.reservedBlocks s.pool.freeBlocksCh
    s.pool.totalBlocks s.permits (Nat.le_of_eq hlen)
  have hperm := h.permits_eq
  simp only [GenBlockPool.clear, if_true, hloop]
  omega

/-- **A failed creation keeps its permit**: where `canAllocateBlock` may
create a block past the reserved ones and `createBlockFunc` fails, the
call returns with no block and one permit fewer on the semaphore than the
pool's blocks account for. -/
theorem Accounts.get_failed (h : Accounts K s) (hfree : s.pool.freeBlocksCh = []) {k : ℕ}
    (hk : s.pool.canAllocateBlock s.permits = some k) (hres : s.pool.reservedBlocks ≤ s.pool.totalBlocks) :
    s.step (.get false) = some { s with permits := k } ∧
      k + max s.pool.reservedBlocks s.pool.totalBlocks + 1 = K := by
  refine ⟨?_, ?_⟩
  · dsimp only [PoolState.step]
    rw [GenBlockPool.tryGetWith_nil hfree, hk, Option.map_some]
    rfl
  · have hbal := GenBlockPool.canAllocateBlock_eq_some hk
    have hperm := h.permits_eq
    omega

/-- A pool of two blocks, none reserved, on a semaphore of one permit: a
`TryGet` whose `createBlockFunc` fails returns with no block created and
the one permit taken, and `ClearFreeBlockChannel(true)`, with every block
free, leaves it taken. -/
theorem failed_block_creation_leaks_permit :
    ∃ p s, GenBlockPool.new 1 2 0 1 = some (p, 1) ∧ (init p 1).step (.get false) = some s ∧
      s.pool.totalBlocks = 0 ∧ s.pool.freeBlocksCh = [] ∧ s.held = [] ∧
      1 - s.permits = 1 ∧ max s.pool.reservedBlocks s.pool.totalBlocks = 0 ∧
      1 - (s.pool.clear true s.permits).2 = 1 :=
  ⟨_, _, rfl, rfl, rfl, rfl, rfl, rfl, rfl, rfl⟩

/-- **The permits balance while every block creation succeeds**: after any
run of `Get`/`TryGet`, `Release` of held blocks and
`ClearFreeBlockChannel(false)` from a new pool, at most `maxBlocks`
blocks exist, the free channel holds at most those, the pool holds
`max reservedBlocks totalBlocks` of the permits that were free, a held
block's `Release` never panics, and `ClearFreeBlockChannel(true)` with
every block free deallocates them all and gives every permit back. -/
theorem pool_permits_balance {blockSize maxBlocks reservedBlocks K permits : ℕ} {p : GenBlockPool}
    (hnew : GenBlockPool.new blockSize maxBlocks reservedBlocks K = some (p, permits))
    (calls : List PoolCall) (hcreated : ∀ c ∈ calls, c ≠ .get false) {s : PoolState}
    (hrun : Run.run step (init p permits) calls = some s) :
    s.pool.totalBlocks ≤ s.pool.maxBlocks ∧ s.pool.freeBlocksCh.length ≤ s.pool.totalBlocks ∧
      K - s.permits = max s.pool.reservedBlocks s.pool.totalBlocks ∧
      (∀ b ∈ s.held, s.step (.release b) ≠ none) ∧
      (s.held = [] → (s.pool.clear true s.permits).1.totalBlocks = 0 ∧ (s.pool.clear true s.permits).2 = K) := by
  have h : Accounts K s := (accounts_init hnew).run calls hcreated hrun
  have hlen := h.free_add_held
  have hperm := h.permits_eq
  refine ⟨h.total_le, by omega, by omega, ?_, h.clear_true⟩
  intro b hb
  obtain ⟨p', hp', -⟩ := h.release hb
  dsimp only [step]
  rw [if_pos hb, hp', Option.map_some]
  exact Option.some_ne_none _

/-- A block obtained and released from a pool of two with none reserved:
the pool holds the permit of the one block, and gives it back at the
end. -/
theorem get_release_balances_permits :
    let s : PoolState := ⟨⟨[0], 2, 1, 0⟩, [.create], 0, []⟩
    s.pool.totalBlocks ≤ s.pool.maxBlocks ∧ s.pool.freeBlocksCh.length ≤ s.pool.totalBlocks ∧
      1 - s.permits = max s.pool.reservedBlocks s.pool.totalBlocks ∧
      (∀ b ∈ s.held, s.step (.release b) ≠ none) ∧
      (s.held = [] → (s.pool.clear true s.permits).1.totalBlocks = 0 ∧ (s.pool.clear true s.permits).2 = 1) :=
  pool_permits_balance (show GenBlockPool.new 1 2 0 1 = some (⟨[], 2, 0, 0⟩, 1) from rfl)
    [.get true, .release 0] (by decide) rfl

end PoolState

end Block

end GcsFuse
