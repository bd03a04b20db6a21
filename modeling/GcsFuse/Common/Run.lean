import Mathlib.Order.Basic
/-!
# Runs of a step function

A component is a state and a step function `next : σ → α → Option σ`; a
step that cannot happen, or a call that panics, is `none`. Concurrent
callers are interleavings of atomic steps, so one list of actions is one
interleaving, and `run` plays it.

`run_invariant` and `run_exists` are the two induction rules the models
use: a property every step keeps holds after every run, and a step that
succeeds from every state of an invariant never makes a run fail.
`run_simulates` is the first for a relation to a second machine that
takes the same actions.
`Reachable` names the states some run reaches.

A machine that answers its calls is played by `trace`, which collects
the answers. `trace_eq_of_rel` is the refinement rule for two such
machines: where each call fails in both or answers alike in both, from
related states, every list of calls gets the same answers.
-/

namespace GcsFuse

namespace Run

variable {σ α : Type*} (next : σ → α → Option σ)

/-- Play a list of actions, stopping at the first that fails. -/
def run : σ → List α → Option σ
  | s, [] => some s
  | s, a :: as => (next s a).bind fun s' => run s' as

/-- The states some run reaches from `init`. -/
def Reachable (init s : σ) : Prop := ∃ as, run next init as = some s

variable {next}

@[simp] theorem run_nil (s : σ) : run next s [] = some s := rfl

theorem run_cons (s : σ) (a : α) (as : List α) :
    run next s (a :: as) = (next s a).bind fun s' => run next s' as := rfl

theorem run_append (s : σ) (as bs : List α) :
    run next s (as ++ bs) = (run next s as).bind fun s' => run next s' bs := by
  induction as generalizing s with
  | nil => rfl
  | cons a as ih =>
    simp only [List.cons_append, run_cons]
    cases next s a with
    | none => rfl
    | some s' => exact ih s'

/-- Invariants hold along runs whose actions all satisfy `P`, when the
steps of those actions keep them. -/
theorem run_invariant_of_forall {I : σ → Prop} {P : α → Prop}
    (hstep : ∀ s a s', P a → I s → next s a = some s' → I s') :
    ∀ (as : List α) (s s' : σ), (∀ a ∈ as, P a) → I s → run next s as = some s' → I s'
  | [], s, s', _, hs, h => by
    simp only [run_nil, Option.some.injEq] at h
    exact h ▸ hs
  | a :: as, s, s', hP, hs, h => by
    rw [run_cons] at h
    cases hn : next s a with
    | none => rw [hn] at h; cases h
    | some s₁ =>
      rw [hn, Option.bind_some] at h
      exact run_invariant_of_forall hstep as s₁ s' (fun a' ha' => hP a' (List.mem_cons_of_mem a ha'))
        (hstep s a s₁ (hP a List.mem_cons_self) hs hn) h

/-- **Invariants hold along runs.** -/
theorem run_invariant {I : σ → Prop} (hstep : ∀ s a s', I s → next s a = some s' → I s')
    (as : List α) (s s' : σ) (hs : I s) (h : run next s as = some s') : I s' :=
  run_invariant_of_forall (P := fun _ => True) (fun s a s' _ => hstep s a s') as s s' (fun _ _ => trivial) hs h

/-- **Runs do not fail** from a state of an invariant every step keeps
and never fails from. -/
theorem run_exists {I : σ → Prop} (hstep : ∀ s a, I s → ∃ s', next s a = some s' ∧ I s') :
    ∀ (as : List α) (s : σ), I s → ∃ s', run next s as = some s' ∧ I s'
  | [], s, hs => ⟨s, rfl, hs⟩
  | a :: as, s, hs => by
    obtain ⟨s₁, hn, hs₁⟩ := hstep s a hs
    rw [run_cons, hn, Option.bind_some]
    exact run_exists hstep as s₁ hs₁

/-- **Simulation along runs.** A relation to a second machine, stepped
by the same actions, that every step keeps, holds after every run. -/
theorem run_simulates {τ : Type*} (spec : τ → α → τ) {R : τ → σ → Prop}
    (hstep : ∀ f s a s', R f s → next s a = some s' → R (spec f a) s') :
    ∀ (as : List α) (f : τ) (s s' : σ), R f s → run next s as = some s' → R (as.foldl spec f) s'
  | [], f, s, s', hs, h => by
    simp only [run_nil, Option.some.injEq] at h
    exact h ▸ hs
  | a :: as, f, s, s', hs, h => by
    rw [run_cons] at h
    cases hn : next s a with
    | none => rw [hn] at h; cases h
    | some s₁ =>
      rw [hn, Option.bind_some] at h
      exact run_simulates spec hstep as (spec f a) s₁ s' (hstep f s a s₁ hs hn) h

theorem Reachable.init (s : σ) : Reachable next s s := ⟨[], rfl⟩

theorem Reachable.step {init s s' : σ} {a : α} (h : Reachable next init s)
    (hs : next s a = some s') : Reachable next init s' := by
  obtain ⟨as, has⟩ := h
  refine ⟨as ++ [a], ?_⟩
  rw [run_append, has, Option.bind_some, run_cons, hs, Option.bind_some, run_nil]

/-- The invariant rule, on reachable states. -/
theorem Reachable.invariant {I : σ → Prop} {init s : σ} (h : Reachable next init s)
    (hinit : I init) (hstep : ∀ s a s', I s → next s a = some s' → I s') : I s := by
  obtain ⟨as, has⟩ := h
  exact run_invariant hstep as init s hinit has

/-! ## Machines that answer -/

/-- Play a list of calls of a machine that answers each, and collect the
answers; `none` at the first call that fails. -/
def trace {β : Type*} (call : σ → α → Option (σ × β)) : σ → List α → Option (List β)
  | _, [] => some []
  | s, a :: as => (call s a).bind fun r => (trace call r.1 as).map (r.2 :: ·)

/-- **Lockstep refinement.** Where every call, from states related by
`R`, fails in both machines or gives the same answer in both and related
states again, the two machines answer every list of calls alike. -/
theorem trace_eq_of_rel {τ β : Type*} {call : σ → α → Option (σ × β)} {call' : τ → α → Option (τ × β)}
    {R : σ → τ → Prop}
    (hstep : ∀ s t a, R s t → Option.Rel (fun r r' => R r.1 r'.1 ∧ r.2 = r'.2) (call s a) (call' t a))
    (as : List α) : ∀ (s : σ) (t : τ), R s t → trace call s as = trace call' t as := by
  induction as with
  | nil => intro _ _ _; rfl
  | cons a as ih =>
    intro s t hst
    have hrel := hstep s t a hst
    simp only [trace]
    -- the first call fails in both, or answers alike from related states
    generalize call s a = x at hrel
    generalize call' t a = y at hrel
    cases hrel with
    | none => rfl
    | some hr => simp only [Option.bind_some, ih _ _ hr.1, hr.2]

end Run

end GcsFuse
