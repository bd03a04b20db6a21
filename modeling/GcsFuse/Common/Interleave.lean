import GcsFuse.Common.Run
/-!
# Interleavings of two threads

Two goroutines that each take their steps in order, with a scheduler
choosing which goes next, run one of the interleavings of their two
lists of steps. `Interleave.run_invariant` is the induction rule for
them: an invariant indexed by the steps each thread has left, kept by
the next step of either thread, holds once both have finished, whatever
the schedule.
-/

namespace GcsFuse

/-- `Interleave xs ys zs`: `zs` merges `xs` and `ys`, keeping the order of each. -/
inductive Interleave {α : Type*} : List α → List α → List α → Prop
  | nil : Interleave [] [] []
  | left {x : α} {xs ys zs : List α} : Interleave xs ys zs → Interleave (x :: xs) ys (x :: zs)
  | right {y : α} {xs ys zs : List α} : Interleave xs ys zs → Interleave xs (y :: ys) (y :: zs)

namespace Interleave

variable {σ α : Type*} {next : σ → α → Option σ}

/-- **Invariants of two threads.** `I xs ys s`: the first thread has
`xs` left to do, the second `ys`, and the state is `s`. -/
theorem run_invariant {I : List α → List α → σ → Prop}
    (hleft : ∀ x xs ys s t, I (x :: xs) ys s → next s x = some t → I xs ys t)
    (hright : ∀ y xs ys s t, I xs (y :: ys) s → next s y = some t → I xs ys t)
    {xs ys zs : List α} (h : Interleave xs ys zs) :
    ∀ {s t : σ}, I xs ys s → Run.run next s zs = some t → I [] [] t := by
  induction h with
  | nil =>
    intro s t hs hr
    cases hr
    exact hs
  | @left x xs ys zs _ ih =>
    intro s t hs hr
    rw [Run.run_cons] at hr
    cases hn : next s x with
    | none => rw [hn] at hr; cases hr
    | some s₁ =>
      rw [hn, Option.bind_some] at hr
      exact ih (hleft x xs ys s s₁ hs hn) hr
  | @right y xs ys zs _ ih =>
    intro s t hs hr
    rw [Run.run_cons] at hr
    cases hn : next s y with
    | none => rw [hn] at hr; cases hr
    | some s₁ =>
      rw [hn, Option.bind_some] at hr
      exact ih (hright y xs ys s s₁ hs hn) hr

end Interleave

end GcsFuse
