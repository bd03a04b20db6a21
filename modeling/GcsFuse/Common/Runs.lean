import Mathlib.Order.Interval.Set.Basic
import Mathlib.Order.Bounds.Basic
import Mathlib.Algebra.Order.BigOperators.Group.List
import Mathlib.Algebra.Order.Group.Nat
import Mathlib.Data.Nat.Find
import Mathlib.Data.List.Pairwise
/-!
# Maximal runs of a set of naturals

A set `S` of naturals splits into maximal runs `[a, b)`. A map that sends
each run's start to its end and its end to its start, and holds no other
key, describes `S` by its runs; adding a range `[s, e)` disjoint from
`S` joins it with the run that ends at `s` and the one that starts at
`e`, and changes the map at those four endpoints only (`Encodes.union`).
The longest prefix `[0, R)` of `S` is one of its runs, or empty
(`PrefixEnd`).

Ranges come as pairs `(start, end)`. A list of ranges tiles `[a, b)` when
it lists consecutive nonempty pieces from `a` to `b`; a set of pieces of a
tiling covers `[a, b)` exactly when it holds every piece.
-/

namespace GcsFuse

namespace Runs

/-- `[a, b)` is a maximal run of `S`: nonempty, inside `S`, and neither
`a - 1` nor `b` is in `S`. -/
structure IsRun (S : Set ℕ) (a b : ℕ) : Prop where
  lt : a < b
  sub : ∀ x, a ≤ x → x < b → x ∈ S
  left : a = 0 ∨ a - 1 ∉ S
  right : b ∉ S

/-- `m` maps each endpoint of each maximal run of `S` to the other
endpoint, and holds no other key. -/
def Encodes (m : ℕ → Option ℕ) (S : Set ℕ) : Prop :=
  ∀ k v, m k = some v ↔ IsRun S k v ∨ IsRun S v k

/-- `[0, R)` is the longest prefix of `S`. -/
structure PrefixEnd (S : Set ℕ) (R : ℕ) : Prop where
  sub : ∀ x < R, x ∈ S
  not_mem : R ∉ S

/-- `fs` is where the run through `[s, e)` starts once `[s, e)` is added
to `S`: the start of the run of `S` that ends at `s`, or `s` itself. -/
def StartsAt (S : Set ℕ) (s fs : ℕ) : Prop := IsRun S fs s ∨ (fs = s ∧ (s = 0 ∨ s - 1 ∉ S))

/-- `fe` is where that run ends: the end of the run of `S` that starts at
`e`, or `e` itself. -/
def EndsAt (S : Set ℕ) (e fe : ℕ) : Prop := IsRun S e fe ∨ (fe = e ∧ e ∉ S)

variable {S T : Set ℕ} {m m' : ℕ → Option ℕ} {a b a' b' s e fs fe R R' : ℕ}

/-! ## Runs -/

theorem IsRun.start_mem (h : IsRun S a b) : a ∈ S := h.sub a le_rfl h.lt

/-- **Two maximal runs through one point are one run.** -/
theorem IsRun.eq_of_mem (h : IsRun S a b) (h' : IsRun S a' b') {x : ℕ} (hx : a ≤ x ∧ x < b)
    (hx' : a' ≤ x ∧ x < b') : a = a' ∧ b = b' := by
  have hb : b = b' := by
    by_contra hne
    rcases Nat.lt_or_gt_of_ne hne with hlt | hlt
    · exact h.right (h'.sub b (by omega) hlt)
    · exact h'.right (h.sub b' (by omega) hlt)
  have ha : a = a' := by
    by_contra hne
    rcases Nat.lt_or_gt_of_ne hne with hlt | hlt
    · -- `a' - 1` lies in `[a, b)` although it is outside `S`
      rcases h'.left with h0 | hn
      · omega
      · exact hn (h.sub (a' - 1) (by omega) (by omega))
    · rcases h.left with h0 | hn
      · omega
      · exact hn (h'.sub (a - 1) (by omega) (by omega))
  exact ⟨ha, hb⟩

theorem IsRun.eq_of_start (h : IsRun S a b) (h' : IsRun S a b') : b = b' :=
  (h.eq_of_mem h' ⟨le_rfl, h.lt⟩ ⟨le_rfl, h'.lt⟩).2

theorem IsRun.eq_of_end (h : IsRun S a b) (h' : IsRun S a' b) : a = a' :=
  (h.eq_of_mem h' (x := b - 1) ⟨by have := h.lt; omega, by have := h.lt; omega⟩
    ⟨by have := h'.lt; omega, by have := h'.lt; omega⟩).1

/-- A point of `S` just below a point outside it ends a run. -/
theorem exists_run_ending (hs : s ∉ S) (hs0 : s ≠ 0) (hprev : s - 1 ∈ S) : ∃ a, IsRun S a s := by
  classical
  have hex : ∃ a, ∀ x, a ≤ x → x < s → x ∈ S := ⟨s - 1, fun x h1 h2 => by
    rwa [show x = s - 1 by omega]⟩
  refine ⟨Nat.find hex, ⟨?_, Nat.find_spec hex, ?_, hs⟩⟩
  · have := Nat.find_min' hex (m := s - 1) (fun x h1 h2 => by rwa [show x = s - 1 by omega])
    omega
  · -- the least start: one step further down leaves `S`
    by_cases h0 : Nat.find hex = 0
    · exact .inl h0
    · refine .inr fun hmem => Nat.find_min hex (m := Nat.find hex - 1) (by omega) ?_
      intro x h1 h2
      by_cases hx : x = Nat.find hex - 1
      · rwa [hx]
      · exact Nat.find_spec hex x (by omega) h2

/-- In a bounded set, a point that starts a run ends one too. -/
theorem exists_run_starting (hb : BddAbove S) (he : e ∈ S) (hl : e = 0 ∨ e - 1 ∉ S) :
    ∃ r, IsRun S e r := by
  classical
  obtain ⟨n, hn⟩ := hb
  have hex : ∃ r, e ≤ r ∧ r ∉ S :=
    ⟨max e (n + 1), le_max_left _ _, fun hmem => by have := hn hmem; omega⟩
  have hspec := Nat.find_spec hex
  have hlt : e < Nat.find hex := by
    rcases Nat.eq_or_lt_of_le hspec.1 with heq | hlt
    · exact absurd (heq ▸ he) hspec.2
    · exact hlt
  refine ⟨Nat.find hex, ⟨hlt, fun x h1 h2 => ?_, hl, hspec.2⟩⟩
  by_contra hx
  exact Nat.find_min hex h2 ⟨h1, hx⟩

/-! ## Prefixes -/

theorem PrefixEnd.eq (h : PrefixEnd S R) (h' : PrefixEnd S R') : R = R' := by
  by_contra hne
  rcases Nat.lt_or_gt_of_ne hne with hlt | hlt
  · exact h.not_mem (h'.sub R hlt)
  · exact h'.not_mem (h.sub R' hlt)

/-- The prefix grows with the set. -/
theorem PrefixEnd.le_of_subset (h : PrefixEnd S R) (h' : PrefixEnd T R') (hST : S ⊆ T) :
    R ≤ R' := by
  by_contra hlt
  exact h'.not_mem (hST (h.sub R' (by omega)))

theorem exists_prefixEnd (hb : BddAbove S) : ∃ R, PrefixEnd S R := by
  classical
  obtain ⟨n, hn⟩ := hb
  have hex : ∃ r, r ∉ S := ⟨n + 1, fun hmem => by have := hn hmem; omega⟩
  exact ⟨Nat.find hex, fun x hx => not_not.1 (Nat.find_min hex hx), Nat.find_spec hex⟩

theorem prefixEnd_empty : PrefixEnd ∅ 0 := ⟨fun _ hx => absurd hx (Nat.not_lt_zero _), id⟩

/-- A prefix that is not empty is a run. -/
theorem PrefixEnd.isRun (h : PrefixEnd S R) (hR : 0 < R) : IsRun S 0 R :=
  ⟨hR, fun x _ hx => h.sub x hx, .inl rfl, h.not_mem⟩

/-! ## Encodings -/

theorem encodes_empty : Encodes (fun _ => none) ∅ := by
  intro k v
  simp only [reduceCtorEq, false_iff, not_or]
  exact ⟨fun h => h.start_mem, fun h => h.start_mem⟩

/-- At a point outside `S`, the map holds the run that ends there. -/
theorem Encodes.lookup_left (hm : Encodes m S) (hs : s ∉ S) {l : ℕ} :
    m s = some l ↔ IsRun S l s := by
  rw [hm]
  exact ⟨fun h => h.resolve_left fun hr => hs hr.start_mem, .inr⟩

/-- At a point whose predecessor is outside `S`, the map holds the run
that starts there. -/
theorem Encodes.lookup_right (hm : Encodes m S) (he : e = 0 ∨ e - 1 ∉ S) {r : ℕ} :
    m e = some r ↔ IsRun S e r := by
  rw [hm]
  refine ⟨fun h => h.resolve_right fun hr => ?_, .inl⟩
  have hlt := hr.lt
  rcases he with h0 | hn
  · omega
  · exact hn (hr.sub (e - 1) (by omega) (by omega))

theorem Encodes.startsAt (hm : Encodes m S) (hs : s ∉ S) : StartsAt S s ((m s).getD s) := by
  cases hms : m s with
  | some l => exact .inl ((hm.lookup_left hs).1 hms)
  | none =>
    refine .inr ⟨rfl, ?_⟩
    by_contra hcon
    rw [not_or, not_not] at hcon
    obtain ⟨a, ha⟩ := exists_run_ending hs hcon.1 hcon.2
    rw [(hm.lookup_left hs).2 ha] at hms
    cases hms

theorem Encodes.endsAt (hm : Encodes m S) (hb : BddAbove S) (he : e = 0 ∨ e - 1 ∉ S) :
    EndsAt S e ((m e).getD e) := by
  cases hme : m e with
  | some r => exact .inl ((hm.lookup_right he).1 hme)
  | none =>
    refine .inr ⟨rfl, fun hmem => ?_⟩
    obtain ⟨r, hr⟩ := exists_run_starting hb hmem he
    rw [(hm.lookup_right he).2 hr] at hme
    cases hme

/-! ## Adding a range -/

section Union

variable (hse : s < e) (hdisj : ∀ x, s ≤ x → x < e → x ∉ S)
include hse hdisj

theorem StartsAt.le (hfs : StartsAt S s fs) : fs ≤ s := by
  rcases hfs with h | ⟨rfl, -⟩
  · exact le_of_lt h.lt
  · exact le_rfl

theorem EndsAt.ge (hfe : EndsAt S e fe) : e ≤ fe := by
  rcases hfe with h | ⟨rfl, -⟩
  · exact le_of_lt h.lt
  · exact le_rfl

/-- The only run of `S` that can end at `s` is the one `fs` starts. -/
theorem StartsAt.eq_of_isRun (hfs : StartsAt S s fs) (h : IsRun S a s) : a = fs := by
  rcases hfs with hr | ⟨rfl, hl⟩
  · exact h.eq_of_end hr
  · have hlt := h.lt
    rcases hl with h0 | hn
    · omega
    · exact absurd (h.sub (fs - 1) (by omega) (by omega)) hn

/-- The only run of `S` that can start at `e` is the one `fe` ends. -/
theorem EndsAt.eq_of_isRun (hfe : EndsAt S e fe) (h : IsRun S e b) : b = fe := by
  rcases hfe with hr | ⟨rfl, hn⟩
  · exact h.eq_of_start hr
  · exact absurd h.start_mem hn

/-- **`[fs, fe)` is a run once `[s, e)` is added.** -/
theorem isRun_merged (hfs : StartsAt S s fs) (hfe : EndsAt S e fe) :
    IsRun (S ∪ Set.Ico s e) fs fe := by
  have hfss := hfs.le hse hdisj
  have hfee := hfe.ge hse hdisj
  refine ⟨by omega, fun x h1 h2 => ?_, ?_, ?_⟩
  · -- below `s` the left run, above `e` the right run, between the range
    by_cases hxs : x < s
    · rcases hfs with hr | ⟨rfl, -⟩
      · exact .inl (hr.sub x h1 hxs)
      · omega
    · by_cases hxe : x < e
      · exact .inr ⟨by omega, hxe⟩
      · rcases hfe with hr | ⟨rfl, -⟩
        · exact .inl (hr.sub x (by omega) h2)
        · omega
  · by_cases h0 : fs = 0
    · exact .inl h0
    · refine .inr fun hmem => hmem.elim ?_ fun hico => ?_
      · rcases hfs with hr | ⟨rfl, hl⟩
        · exact hr.left.resolve_left h0
        · exact hl.resolve_left h0
      · have := hico.1
        omega
  · rintro (hmem | hico)
    · rcases hfe with hr | ⟨rfl, hn⟩
      · exact hr.right hmem
      · exact hn hmem
    · have := hico.2
      omega

/-- A run of `S` that does not touch `[s, e)` stays a run. -/
theorem IsRun.union_of_ne (h : IsRun S a b) (hbs : b ≠ s) (hae : a ≠ e) :
    IsRun (S ∪ Set.Ico s e) a b := by
  refine ⟨h.lt, fun x h1 h2 => .inl (h.sub x h1 h2), ?_, ?_⟩
  · rcases h.left with h0 | hn
    · exact .inl h0
    · refine .inr fun hmem => hmem.elim hn fun hico => ?_
      -- `a - 1` in the range puts `a` at its end, as `a` is in `S`
      have ha := h.start_mem
      by_cases hae' : a < e
      · exact hdisj a (by have := hico.1; omega) hae' ha
      · have := hico.2
        omega
  · rintro (hmem | hico)
    · exact h.right hmem
    · -- `b` in the range puts `b - 1` before it, in `S`
      have hb1 := h.sub (b - 1) (by have := h.lt; omega) (by have := h.lt; omega)
      by_cases hbs' : s < b
      · exact hdisj (b - 1) (by omega) (by have := hico.2; omega) hb1
      · have := hico.1
        omega

/-- A run of the enlarged set that misses `[s, e)` is a run of `S`. -/
theorem IsRun.of_union_apart (h : IsRun (S ∪ Set.Ico s e) a b) (hapart : b ≤ s ∨ e ≤ a) :
    IsRun S a b ∧ b ≠ s ∧ a ≠ e := by
  have hlt := h.lt
  have hsub : ∀ x, a ≤ x → x < b → x ∈ S := fun x h1 h2 =>
    (h.sub x h1 h2).resolve_right fun hico => by have := hico.1; have := hico.2; omega
  refine ⟨⟨hlt, hsub, ?_, fun hmem => h.right (.inl hmem)⟩, ?_, ?_⟩
  · rcases h.left with h0 | hn
    · exact .inl h0
    · exact .inr fun hmem => hn (.inl hmem)
  · rintro rfl
    exact h.right (.inr ⟨le_rfl, hse⟩)
  · rintro rfl
    rcases h.left with h0 | hn
    · omega
    · exact hn (.inr ⟨by omega, by omega⟩)

/-- **The runs after adding `[s, e)`**: the merged run, and the runs of
`S` that neither end at `s` nor start at `e`. -/
theorem isRun_union_iff (hfs : StartsAt S s fs) (hfe : EndsAt S e fe) :
    IsRun (S ∪ Set.Ico s e) a b ↔ (a = fs ∧ b = fe) ∨ (IsRun S a b ∧ b ≠ s ∧ a ≠ e) := by
  have hm := isRun_merged hse hdisj hfs hfe
  have hfss := hfs.le hse hdisj
  have hfee := hfe.ge hse hdisj
  constructor
  · intro h
    by_cases hmeet : a < e ∧ s < b
    · -- it meets the range, so it shares a point with the merged run
      have hlt := h.lt
      exact .inl (h.eq_of_mem hm (x := max a s) ⟨le_max_left _ _, by omega⟩
        ⟨by omega, by omega⟩)
    · exact .inr (h.of_union_apart hse hdisj (by omega))
  · rintro (⟨rfl, rfl⟩ | ⟨h, hbs, hae⟩)
    · exact hm
    · exact h.union_of_ne hse hdisj hbs hae

/-- **Adding `[s, e)` to the encoding.** A map that holds `fs ↦ fe` and
`fe ↦ fs`, drops `s` and `e`, and keeps every other key, encodes the
enlarged set. -/
theorem Encodes.union (hm : Encodes m S) (hfs : StartsAt S s fs) (hfe : EndsAt S e fe)
    (hfsm : m' fs = some fe) (hfem : m' fe = some fs)
    (hother : ∀ k, k ≠ fs → k ≠ fe → m' k = if k = s ∨ k = e then none else m k) :
    Encodes m' (S ∪ Set.Ico s e) := by
  have hmerged := isRun_merged hse hdisj hfs hfe
  have hiff := fun a b => isRun_union_iff (a := a) (b := b) hse hdisj hfs hfe
  have hs : s ∉ S := hdisj s le_rfl hse
  have he1 : e - 1 ∉ S := hdisj (e - 1) (by omega) (by omega)
  intro k v
  by_cases hkfs : k = fs
  · subst hkfs
    rw [hfsm, Option.some.injEq]
    refine ⟨fun h => .inl (h ▸ hmerged), ?_⟩
    rintro (h | h)
    · exact hmerged.eq_of_start h
    · exact absurd hmerged.start_mem h.right
  by_cases hkfe : k = fe
  · subst hkfe
    rw [hfem, Option.some.injEq]
    refine ⟨fun h => .inr (h ▸ hmerged), ?_⟩
    rintro (h | h)
    · exact absurd h.start_mem hmerged.right
    · exact hmerged.eq_of_end h
  rw [hother k hkfs hkfe, hiff k v, hiff v k]
  split
  · -- `s` and `e` are no endpoints of a run afterwards
    rename_i hse'
    refine ⟨fun h => absurd h.symm (Option.some_ne_none v), ?_⟩
    rintro ((⟨hk, -⟩ | ⟨h, -, hke⟩) | (⟨-, hk⟩ | ⟨h, hks, -⟩))
    · exact absurd hk hkfs
    · rcases hse' with rfl | rfl
      · exact absurd h.start_mem hs
      · exact absurd rfl hke
    · exact absurd hk hkfe
    · rcases hse' with rfl | rfl
      · exact absurd rfl hks
      · have hlt := h.lt
        exact absurd (h.sub (k - 1) (by omega) (by omega)) he1
  · rename_i hse'
    rw [not_or] at hse'
    rw [hm k v]
    constructor
    · rintro (h | h)
      · refine .inl (.inr ⟨h, fun hv => hkfs ?_, hse'.2⟩)
        subst hv
        exact hfs.eq_of_isRun hse hdisj h
      · refine .inr (.inr ⟨h, hse'.1, fun hv => hkfe ?_⟩)
        subst hv
        exact hfe.eq_of_isRun hse hdisj h
    · rintro ((⟨rfl, -⟩ | ⟨h, -, -⟩) | (⟨-, rfl⟩ | ⟨h, -, -⟩))
      · exact absurd rfl hkfs
      · exact .inl h
      · exact absurd rfl hkfe
      · exact .inr h

/-- **The prefix after adding `[s, e)`**: the merged run's end if the
merged run starts at `0`, the old prefix otherwise. -/
theorem PrefixEnd.union (hp : PrefixEnd S R) (hfs : StartsAt S s fs) (hfe : EndsAt S e fe) :
    PrefixEnd (S ∪ Set.Ico s e) (if fs = 0 then fe else R) := by
  split
  · rename_i h0
    have hmerged := isRun_merged hse hdisj hfs hfe
    rw [h0] at hmerged
    exact ⟨fun x hx => hmerged.sub x (Nat.zero_le x) hx, hmerged.right⟩
  · rename_i h0
    refine ⟨fun x hx => .inl (hp.sub x hx), ?_⟩
    rintro (hmem | hico)
    · exact hp.not_mem hmem
    · -- `R` in the range would make `[0, R)` the run ending at `s`
      have hsR : s = R := by
        by_contra hne
        exact hdisj s le_rfl hse (hp.sub s (by have := hico.1; omega))
      have hfss := hfs.le hse hdisj
      have hR : 0 < R := by omega
      exact h0 (hfs.eq_of_isRun hse hdisj (hsR ▸ hp.isRun hR)).symm

end Union

/-! ## Ranges and tilings -/

/-- The points a list of ranges covers. -/
def covered (rs : List (ℕ × ℕ)) : Set ℕ := {x | ∃ r ∈ rs, r.1 ≤ x ∧ x < r.2}

@[simp] theorem mem_covered {rs : List (ℕ × ℕ)} {x : ℕ} :
    x ∈ covered rs ↔ ∃ r ∈ rs, r.1 ≤ x ∧ x < r.2 := Iff.rfl

@[simp] theorem covered_nil : covered [] = ∅ := by
  ext x
  simp

theorem covered_append_singleton (rs : List (ℕ × ℕ)) (s e : ℕ) :
    covered (rs ++ [(s, e)]) = covered rs ∪ Set.Ico s e := by
  ext x
  simp only [mem_covered, List.mem_append, List.mem_singleton, Set.mem_union, Set.mem_Ico]
  constructor
  · rintro ⟨r, hr | rfl, hx⟩
    · exact .inl ⟨r, hr, hx⟩
    · exact .inr hx
  · rintro (⟨r, hr, hx⟩ | hx)
    · exact ⟨r, .inl hr, hx⟩
    · exact ⟨(s, e), .inr rfl, hx⟩

theorem covered_mono {rs rs' : List (ℕ × ℕ)} (h : ∀ r ∈ rs, r ∈ rs') : covered rs ⊆ covered rs' :=
  fun _ ⟨r, hr, hx⟩ => ⟨r, h r hr, hx⟩

theorem bddAbove_covered (rs : List (ℕ × ℕ)) : BddAbove (covered rs) := by
  refine ⟨(rs.map Prod.snd).sum, fun x ⟨r, hr, _, hx⟩ => ?_⟩
  have := List.le_sum_of_mem (List.mem_map_of_mem (f := Prod.snd) hr)
  omega

/-- Two ranges that share no point, whichever comes first. -/
def Apart (r r' : ℕ × ℕ) : Prop := r.2 ≤ r'.1 ∨ r'.2 ≤ r.1

instance : Std.Symm Apart := ⟨fun _ _ h => h.symm⟩

/-- `rs` lists consecutive nonempty ranges from `a` to `b`. -/
def Tiles : List (ℕ × ℕ) → ℕ → ℕ → Prop
  | [], a, b => a = b
  | r :: rs, a, b => r.1 = a ∧ r.1 < r.2 ∧ Tiles rs r.2 b

theorem Tiles.le : ∀ {rs : List (ℕ × ℕ)} {a b : ℕ}, Tiles rs a b → a ≤ b
  | [], _, _, h => le_of_eq h
  | _ :: _, _, _, ⟨rfl, hlt, ht⟩ => le_of_lt (lt_of_lt_of_le hlt ht.le)

/-- Every piece of a tiling of `[a, b)` lies inside `[a, b)` and is nonempty. -/
theorem Tiles.bounds : ∀ {rs : List (ℕ × ℕ)} {a b : ℕ}, Tiles rs a b →
    ∀ r ∈ rs, a ≤ r.1 ∧ r.1 < r.2 ∧ r.2 ≤ b
  | [], _, _, _, _, hr => absurd hr List.not_mem_nil
  | _ :: _, _, _, ⟨rfl, hlt, ht⟩, r, hr => by
    rcases List.mem_cons.1 hr with rfl | hr
    · exact ⟨le_rfl, hlt, ht.le⟩
    · obtain ⟨h1, h2, h3⟩ := ht.bounds r hr
      exact ⟨by omega, h2, h3⟩

theorem Tiles.covered_eq : ∀ {rs : List (ℕ × ℕ)} {a b : ℕ}, Tiles rs a b →
    covered rs = Set.Ico a b
  | [], _, _, h => by
    subst h
    simp
  | r :: rs, _, _, ⟨rfl, hlt, ht⟩ => by
    have ih := ht.covered_eq
    have hle := ht.le
    ext x
    simp only [mem_covered, List.mem_cons, Set.mem_Ico]
    constructor
    · rintro ⟨q, rfl | hq, hx⟩
      · omega
      · have hq' := Set.mem_Ico.1 (ih ▸ (mem_covered.2 ⟨q, hq, hx⟩) : x ∈ Set.Ico r.2 _)
        omega
    · rintro ⟨h1, h2⟩
      by_cases hx : x < r.2
      · exact ⟨r, .inl rfl, h1, hx⟩
      · obtain ⟨q, hq, hxq⟩ : x ∈ covered rs := by
          rw [ih]
          exact ⟨by omega, h2⟩
        exact ⟨q, .inr hq, hxq⟩

theorem Tiles.pairwise : ∀ {rs : List (ℕ × ℕ)} {a b : ℕ}, Tiles rs a b → rs.Pairwise Apart
  | [], _, _, _ => List.Pairwise.nil
  | r :: _, _, _, ⟨rfl, _, ht⟩ =>
    List.Pairwise.cons (fun q hq => .inl (ht.bounds q hq).1) ht.pairwise

theorem Tiles.append {rs rs' : List (ℕ × ℕ)} {a b c : ℕ} (h : Tiles rs a b) (h' : Tiles rs' b c) :
    Tiles (rs ++ rs') a c := by
  induction rs generalizing a with
  | nil =>
    have hab : a = b := h
    subst hab
    exact h'
  | cons r rs ih =>
    obtain ⟨rfl, hlt, ht⟩ := h
    exact ⟨rfl, hlt, ih ht⟩

/-- Tiling each piece of a tiling tiles the whole. -/
theorem Tiles.flatMap {rs : List (ℕ × ℕ)} {a b : ℕ} (h : Tiles rs a b) (f : ℕ × ℕ → List (ℕ × ℕ))
    (hf : ∀ r ∈ rs, Tiles (f r) r.1 r.2) : Tiles (rs.flatMap f) a b := by
  induction rs generalizing a with
  | nil => exact h
  | cons r rs ih =>
    obtain ⟨rfl, -, ht⟩ := h
    rw [List.flatMap_cons]
    exact (hf r List.mem_cons_self).append (ih ht fun q hq => hf q (List.mem_cons_of_mem r hq))

/-- The ends of a tiling's pieces strictly increase. -/
theorem Tiles.pairwise_snd : ∀ {rs : List (ℕ × ℕ)} {a b : ℕ}, Tiles rs a b →
    (rs.map Prod.snd).Pairwise (· < ·)
  | [], _, _, _ => List.Pairwise.nil
  | r :: _, _, _, ⟨rfl, _, ht⟩ => by
    rw [List.map_cons, List.pairwise_cons]
    refine ⟨fun e he => ?_, ht.pairwise_snd⟩
    obtain ⟨q, hq, rfl⟩ := List.mem_map.1 he
    obtain ⟨h1, h2, -⟩ := ht.bounds q hq
    omega

/-- The last piece of a tiling of a nonempty range ends at its end. -/
theorem Tiles.last_snd : ∀ {rs : List (ℕ × ℕ)} {a b : ℕ}, Tiles rs a b →
    (rs.map Prod.snd).getLast? = if a = b then none else some b
  | [], _, _, h => by
    rw [if_pos (show _ = _ from h)]
    rfl
  | r :: _, _, _, ⟨rfl, hlt, ht⟩ => by
    have hle := ht.le
    rw [List.map_cons, List.getLast?_cons, ht.last_snd, if_neg (show ¬ r.1 = _ by omega)]
    split_ifs with hend
    · rw [hend]
      rfl
    · rfl

/-- **A set of pieces covers the tiled range exactly when it holds every
piece**: each point lies in one piece only. -/
theorem Tiles.covered_eq_iff {rs done : List (ℕ × ℕ)} {a b : ℕ} (h : Tiles rs a b)
    (hdone : ∀ r ∈ done, r ∈ rs) : covered done = Set.Ico a b ↔ ∀ r ∈ rs, r ∈ done := by
  constructor
  · intro hcov r hr
    obtain ⟨h1, h2, h3⟩ := h.bounds r hr
    -- the first point of `r` is covered by some piece of `done`, which is `r`
    obtain ⟨q, hq, hxq⟩ : r.1 ∈ covered done := by
      rw [hcov]
      exact ⟨h1, by omega⟩
    by_cases hqr : q = r
    · exact hqr ▸ hq
    · rcases h.pairwise.forall (hdone q hq) hr hqr with hap | hap <;> omega
  · intro hall
    rw [← h.covered_eq]
    exact Set.Subset.antisymm (covered_mono hdone) (covered_mono hall)

end Runs

end GcsFuse
