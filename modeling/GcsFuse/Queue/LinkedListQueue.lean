import GcsFuse.Common.ListSeg
import GcsFuse.Common.Run
import Mathlib.Data.List.Nodup
/-!
# The linked-list queue

`common/queue.go`: `linkedListQueue` is the one implementation of the
generic `Queue` interface, and the buffered reader's queue of prefetched
blocks, which `GcsFuse.BufferedRead` holds as a list. Its nodes are linked
by pointers; the model keeps them on a heap (`GcsFuse.Common.ListSeg`),
where the node `Push` allocates takes the next index and none is freed.
`Peek` and `Pop` on an empty queue panic, as a nil dereference would; both
are `none`.

The queue is a list (`ListQueue`). Where its nodes from `start` to `end`
hold the list at distinct addresses (`Layout`), every call answers as the
list's does and leaves such a layout again (`call_refines`). So a new
queue answers every sequence of calls as an empty list does, panics
included (`linked_list_queue_refines_list`).
-/

namespace GcsFuse

namespace Queue

open ListSeg

/-- `node[T]`: a value and the pointer to the next node. -/
structure Node (α : Type) where
  value : α
  next : Option ℕ
  deriving DecidableEq, Repr

/-- `linkedListQueue[T]`, its nodes on a heap: `start` and `«end»` point at
the first and the last node. -/
structure LinkedListQueue (α : Type) where
  nodes : List (Node α)
  start : Option ℕ
  «end» : Option ℕ
  size : ℕ
  deriving DecidableEq, Repr

/-- A call of the `Queue` interface. -/
inductive Call (α : Type)
  | isEmpty
  | peek
  | push (value : α)
  | pop
  | len
  deriving DecidableEq, Repr

/-- What a call returns; `Push` returns nothing. -/
inductive Reply (α : Type)
  | bool (b : Bool)
  | value (v : α)
  | unit
  | int (n : ℕ)
  deriving DecidableEq, Repr

namespace LinkedListQueue

variable {α : Type} (q : LinkedListQueue α)

/-- `NewLinkedListQueue`. -/
def new : LinkedListQueue α := ⟨[], none, none, 0⟩

/-- `IsEmpty`. -/
def isEmpty : Bool := q.size == 0

/-- `Peek`: the value at `start`; `none` where it panics, on an empty
queue. -/
def peek : Option α :=
  if q.size = 0 then none
  else q.start.bind fun p => q.nodes[p]?.map Node.value

/-- `Push`: a new node at the next index, the first of an empty queue, or
linked after `end` (`q.end.next = n`). -/
def push (value : α) : Option (LinkedListQueue α) :=
  let n := q.nodes.length
  let nodes := q.nodes ++ [⟨value, none⟩]
  if q.size = 0 then some ⟨nodes, some n, some n, q.size + 1⟩
  else
    q.«end».bind fun e => nodes[e]?.map fun last =>
      ⟨nodes.set e { last with next := some n }, q.start, some n, q.size + 1⟩

/-- `Pop`: the value at `start`, with `start` moved to the next node, or
both ends cleared when it was the only one; `none` where it panics, on an
empty queue. -/
def pop : Option (α × LinkedListQueue α) :=
  if q.size = 0 then none
  else
    q.start.bind fun p => q.nodes[p]?.map fun n =>
      if q.size = 1 then (n.value, ⟨q.nodes, none, none, q.size - 1⟩)
      else (n.value, ⟨q.nodes, n.next, q.«end», q.size - 1⟩)

/-- `Len`. -/
def len : ℕ := q.size

/-- A call on the queue. -/
def call : Call α → Option (LinkedListQueue α × Reply α)
  | .isEmpty => some (q, .bool q.isEmpty)
  | .peek => q.peek.map fun v => (q, .value v)
  | .push v => (q.push v).map fun q' => (q', .unit)
  | .pop => q.pop.map fun r => (r.2, .value r.1)
  | .len => some (q, .int q.len)

end LinkedListQueue

/-! ## The queue a list is -/

namespace ListQueue

variable {α : Type}

/-- **The specification**: a first-in first-out list. `Peek` and `Pop` of
the empty list fail. -/
def call (xs : List α) : Call α → Option (List α × Reply α)
  | .isEmpty => some (xs, .bool xs.isEmpty)
  | .peek => xs.head?.map fun x => (xs, .value x)
  | .push v => some (xs ++ [v], .unit)
  | .pop =>
    match xs with
    | [] => none
    | x :: xs' => some (xs', .value x)
  | .len => some (xs, .int xs.length)

end ListQueue

/-! ## Layouts -/

namespace LinkedListQueue

variable {α : Type} {q : LinkedListQueue α} {ps : List ℕ} {xs : List α}

/-- The nodes at the distinct addresses `ps`, from `start` to `end`, hold
`xs`, and `size` counts them. -/
structure Layout (q : LinkedListQueue α) (ps : List ℕ) (xs : List α) : Prop where
  seg : Seg Node.value Node.next q.nodes ps xs
  nodup : ps.Nodup
  start : q.start = ps.head?
  last : q.«end» = ps.getLast?
  size : q.size = xs.length

/-- The queue holds the list `xs` in some layout. -/
def Represents (q : LinkedListQueue α) (xs : List α) : Prop := ∃ ps, Layout q ps xs

theorem Layout.new : Layout (new : LinkedListQueue α) [] [] :=
  ⟨.nil, List.nodup_nil, rfl, rfl, rfl⟩

theorem Layout.isEmpty (h : Layout q ps xs) : q.isEmpty = xs.isEmpty := by
  cases xs with
  | nil => simp [LinkedListQueue.isEmpty, h.size]
  | cons x xs => simp [LinkedListQueue.isEmpty, h.size]

theorem Layout.peek (h : Layout q ps xs) : q.peek = xs.head? := by
  cases ps with
  | nil =>
    -- no nodes: the queue is empty
    have hxs : xs = [] := List.eq_nil_of_length_eq_zero (h.seg.length_eq.symm.trans rfl)
    subst hxs
    simp [LinkedListQueue.peek, h.size]
  | cons p ps =>
    obtain ⟨c, xs', hc, rfl, -, -⟩ := h.seg.cons_inv
    simp [LinkedListQueue.peek, h.size, h.start, hc]

theorem Layout.pop_nil (h : Layout q ps []) : q.pop = none := by
  simp [LinkedListQueue.pop, h.size]

/-- **`Pop` takes the first value off**, and the rest keeps its layout. -/
theorem Layout.pop {x : α} (h : Layout q ps (x :: xs)) : ∃ q', q.pop = some (x, q') ∧ Layout q' ps.tail xs := by
  cases ps with
  | nil => exact absurd h.seg.length_eq (by simp)
  | cons p ps =>
    obtain ⟨c, xs', hc, hxs, hseg, hlink⟩ := h.seg.cons_inv
    obtain ⟨rfl, rfl⟩ := List.cons.inj hxs
    have hlen := hseg.length_eq
    by_cases h1 : xs = []
    · -- the only node: both ends are cleared
      subst h1
      obtain rfl : ps = [] := List.eq_nil_of_length_eq_zero hlen
      refine ⟨⟨q.nodes, none, none, 0⟩, ?_, ⟨.nil, List.nodup_nil, rfl, rfl, rfl⟩⟩
      simp [LinkedListQueue.pop, h.size, h.start, hc]
    · -- `start` moves to the next node, which the first links to
      have hps : ps ≠ [] := fun hps => h1 (List.eq_nil_of_length_eq_zero (hps ▸ hlen).symm)
      have hnext : c.next = ps.head? := hlink.resolve_left hps
      refine ⟨⟨q.nodes, c.next, q.«end», q.size - 1⟩, ?_, ⟨hseg, (List.nodup_cons.mp h.nodup).2, hnext, ?_, ?_⟩⟩
      · simp [LinkedListQueue.pop, h.size, h.start, hc, h1]
      · obtain ⟨p', ps', rfl⟩ := List.exists_cons_of_ne_nil hps
        rw [h.last, List.getLast?_cons_cons, List.tail_cons]
      · rw [h.size, List.length_cons, Nat.add_sub_cancel]

/-- **`Push` appends the value**: at the next index, linked after the last
node. -/
theorem Layout.push (h : Layout q ps xs) (v : α) :
    ∃ q', q.push v = some q' ∧ Layout q' (ps ++ [q.nodes.length]) (xs ++ [v]) := by
  have hfresh : q.nodes.length ∉ ps := fun hn => Nat.lt_irrefl _ (h.seg.lt_length hn)
  have hnodup : (ps ++ [q.nodes.length]).Nodup :=
    List.nodup_append.mpr ⟨h.nodup, List.nodup_singleton _, fun a ha b hb => by
      rw [List.mem_singleton] at hb
      subst hb
      exact fun hab => hfresh (hab ▸ ha)⟩
  rcases List.eq_nil_or_concat' ps with rfl | ⟨ps₀, e, rfl⟩
  · -- an empty queue: the new node is both ends
    have hxs : xs = [] := List.eq_nil_of_length_eq_zero h.seg.length_eq.symm
    subst hxs
    refine ⟨_, if_pos h.size, ⟨.last List.getElem?_concat_length, hnodup, rfl, rfl, ?_⟩⟩
    simp [h.size]
  · -- the last node `e` links to the new one
    have he : e < q.nodes.length := h.seg.lt_length (List.mem_append_right _ List.mem_cons_self)
    obtain ⟨c, hc⟩ : ∃ c, q.nodes[e]? = some c := ⟨q.nodes[e], List.getElem?_eq_getElem he⟩
    have hsize : q.size ≠ 0 := by
      rw [h.size, ← h.seg.length_eq]
      simp
    have hne : e ≠ q.nodes.length := Nat.ne_of_lt he
    have he_notin : e ∉ ps₀ := fun he' =>
      (List.nodup_append.mp h.nodup).2.2 e he' e List.mem_cons_self rfl
    obtain ⟨nodes, hnodes⟩ : ∃ nodes, nodes = (q.nodes ++ [Node.mk v none]).set e
        { c with next := some q.nodes.length } := ⟨_, rfl⟩
    have hlast : (q.nodes ++ [Node.mk v none])[e]? = some c := by rw [List.getElem?_append_left he, hc]
    refine ⟨⟨nodes, q.start, some q.nodes.length, q.size + 1⟩, ?_, ⟨?_, hnodup, ?_, ?_, ?_⟩⟩
    · simp [LinkedListQueue.push, hsize, h.last, hlast, hnodes]
    · -- the nodes before `e` are untouched, `e` links to the new node, which holds `v`
      have hsame : ∀ p ∈ ps₀, nodes[p]? = q.nodes[p]? := by
        intro p hp
        have hpe : e ≠ p := fun hep => he_notin (hep ▸ hp)
        have hp' : p < q.nodes.length := h.seg.lt_length (List.mem_append_left _ hp)
        rw [hnodes, List.getElem?_set_ne hpe, List.getElem?_append_left hp']
      have he' : nodes[e]? = some { c with next := some q.nodes.length } := by
        rw [hnodes]
        exact List.getElem?_set_self (by simpa using Nat.lt_succ_of_lt he)
      have ha : nodes[q.nodes.length]? = some (Node.mk v none) := by
        rw [hnodes, List.getElem?_set_ne hne, List.getElem?_concat_length]
      simpa using h.seg.snoc hsame hc he' rfl rfl ha
    · rw [h.start, List.head?_append]
      simp
    · exact List.getLast?_concat.symm
    · rw [h.size, List.length_append, List.length_singleton]

/-- **Every call answers as the list's does**, from a queue that holds
the list, and leaves a queue that holds the list's next value. -/
theorem call_refines (h : Represents q xs) (c : Call α) :
    Option.Rel (fun r r' => Represents r.1 r'.1 ∧ r.2 = r'.2) (q.call c) (ListQueue.call xs c) := by
  obtain ⟨ps, hl⟩ := h
  cases c with
  | isEmpty => exact .some ⟨⟨ps, hl⟩, by rw [hl.isEmpty]⟩
  | peek =>
    simp only [call, ListQueue.call, hl.peek]
    cases xs.head? with
    | none => exact .none
    | some x => exact .some ⟨⟨ps, hl⟩, rfl⟩
  | push v =>
    obtain ⟨q', hq', hl'⟩ := hl.push v
    simp only [call, ListQueue.call, hq', Option.map_some]
    exact .some ⟨⟨_, hl'⟩, rfl⟩
  | pop =>
    cases xs with
    | nil =>
      simp only [call, ListQueue.call, hl.pop_nil, Option.map_none]
      exact .none
    | cons x xs =>
      obtain ⟨q', hq', hl'⟩ := hl.pop
      simp only [call, ListQueue.call, hq', Option.map_some]
      exact .some ⟨⟨_, hl'⟩, rfl⟩
  | len => exact .some ⟨⟨ps, hl⟩, by rw [len, hl.size]⟩

/-- **The linked-list queue is a list queue**: a new queue answers every
sequence of `Queue` calls exactly as the empty list does, and panics
exactly where the list has no first value. -/
theorem linked_list_queue_refines_list (calls : List (Call α)) :
    Run.trace call new calls = Run.trace ListQueue.call [] calls :=
  Run.trace_eq_of_rel (fun (q : LinkedListQueue α) (xs : List α) c (h : Represents q xs) => call_refines h c)
    calls _ _ ⟨[], Layout.new⟩

end LinkedListQueue

end Queue

end GcsFuse
