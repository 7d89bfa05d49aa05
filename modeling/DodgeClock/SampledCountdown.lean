import Mathlib.Tactic
import Mathlib.Algebra.Order.Floor.Div
import Mathlib.Data.List.Destutter

/-!
# A countdown seen at samples

The time left of a countdown is shown in whole units, rounded up: every number stands for
one unit of time, its later end included, and zero for all the time after. Samples that
are never more than a unit apart miss none of these windows. A reader who is told of
changes only misses none of the values either.
-/
namespace SampledCountdown

/-- The units left of `total`, a unit begun counted as a whole one. -/
def unitsLeft (unit total elapsed : ℕ) : ℕ := (total - elapsed) ⌈/⌉ unit

/-- What is shown starts at `n`, never grows or drops by more than one, and reaches zero. -/
structure CountsDown (n : ℕ) (vs : List ℕ) : Prop where
  first : vs.head? = some n
  falls : vs.IsChain fun v w => w ≤ v
  slowly : vs.IsChain fun v w => v ≤ w + 1
  all : ∀ k ≤ n, k ∈ vs

section Windows
variable {unit total elapsed later k n : ℕ} (hunit : 0 < unit)
include hunit

theorem unitsLeft_le_iff : unitsLeft unit total elapsed ≤ k ↔ total ≤ elapsed + unit * k := by
  rw [unitsLeft, ceilDiv_le_iff_le_mul hunit]
  omega

theorem unitsLeft_eq_zero_iff : unitsLeft unit total elapsed = 0 ↔ total ≤ elapsed := by
  rw [← Nat.le_zero, unitsLeft_le_iff hunit]
  omega

theorem unitsLeft_anti (h : elapsed ≤ later) :
    unitsLeft unit total later ≤ unitsLeft unit total elapsed := by
  rw [unitsLeft_le_iff hunit]
  have hle := (unitsLeft_le_iff hunit).mp (le_refl (unitsLeft unit total elapsed))
  omega

/-- No window is shorter than a unit. -/
theorem unitsLeft_le_succ (h : later ≤ elapsed + unit) :
    unitsLeft unit total elapsed ≤ unitsLeft unit total later + 1 := by
  rw [unitsLeft_le_iff hunit, Nat.mul_add, Nat.mul_one]
  have hle := (unitsLeft_le_iff hunit).mp (le_refl (unitsLeft unit total later))
  omega

theorem unitsLeft_of_lt (h : elapsed < unit) : unitsLeft unit (unit * n) elapsed = n := by
  apply le_antisymm
  · rw [unitsLeft_le_iff hunit]
    omega
  · have hle := (unitsLeft_le_iff hunit).mp (le_refl (unitsLeft unit (unit * n) elapsed))
    have hlt : unit * n < unit * (unitsLeft unit (unit * n) elapsed + 1) := by
      rw [Nat.mul_add, Nat.mul_one]
      omega
    exact Nat.lt_succ_iff.mp (Nat.lt_of_mul_lt_mul_left hlt)

end Windows

/-- Numbers that drop by at most one pass through all between the first and any other. -/
theorem mem_of_slowly {vs : List ℕ} {m n k : ℕ} (hslowly : vs.IsChain fun v w => v ≤ w + 1)
    (hfirst : vs.head? = some n) (hmem : m ∈ vs) (hm : m ≤ k) (hk : k ≤ n) : k ∈ vs := by
  induction vs generalizing n with
  | nil => cases hmem
  | cons v vs ih =>
      obtain rfl : v = n := Option.some.inj hfirst
      by_cases heq : k = v
      · exact heq ▸ List.mem_cons_self
      · rcases List.mem_cons.mp hmem with rfl | hmem
        · omega
        · cases vs with
          | nil => cases hmem
          | cons w vs =>
              have hstep : v ≤ w + 1 := hslowly.rel
              exact List.mem_cons_of_mem v (ih hslowly.of_cons rfl hmem (by omega))

/-- Samples from the first unit on, at most a unit apart and beyond the end, show all the
numbers, one after the other. -/
theorem countsDown_of_samples {unit n : ℕ} (hunit : 0 < unit) {times : List ℕ}
    (hfirst : ∃ x, times.head? = some x ∧ x < unit) (hsorted : times.IsChain (· ≤ ·))
    (happart : times.IsChain fun a b => b ≤ a + unit) (hpast : ∃ x ∈ times, unit * n ≤ x) :
    CountsDown n (times.map (unitsLeft unit (unit * n))) := by
  have hhead : (times.map (unitsLeft unit (unit * n))).head? = some n := by
    obtain ⟨x, hx, hlt⟩ := hfirst
    rw [List.head?_map, hx, Option.map_some, unitsLeft_of_lt hunit hlt]
  have hslowly : (times.map (unitsLeft unit (unit * n))).IsChain fun v w => v ≤ w + 1 := by
    rw [List.isChain_map]
    exact happart.imp fun _ _ h => unitsLeft_le_succ hunit h
  have hzero : 0 ∈ times.map (unitsLeft unit (unit * n)) := by
    obtain ⟨x, hx, hle⟩ := hpast
    exact List.mem_map.mpr ⟨x, hx, (unitsLeft_eq_zero_iff hunit).mpr hle⟩
  refine ⟨hhead, ?_, hslowly, fun k hk => mem_of_slowly hslowly hhead hzero k.zero_le hk⟩
  rw [List.isChain_map]
  exact hsorted.imp fun _ _ h => unitsLeft_anti hunit h

section Changes
variable {α : Type*} [DecidableEq α]

/-- Dropping repetitions loses no member. -/
theorem mem_destutter_ne {a x : α} {l : List α} :
    x ∈ l.destutter' (· ≠ ·) a ↔ x ∈ a :: l := by
  induction l generalizing a with
  | nil => simp
  | cons b l ih =>
      by_cases h : a = b
      · subst h
        rw [List.destutter'_cons_neg l (by simp), ih]
        simp
      · rw [List.destutter'_cons_pos l h, List.mem_cons, ih, List.mem_cons (l := b :: l)]

theorem destutter_eq_cons (a : α) (l : List α) :
    l.destutter' (· ≠ ·) a = a :: (l.destutter' (· ≠ ·) a).tail := by
  induction l with
  | nil => rfl
  | cons b l ih =>
      by_cases h : a = b
      · subst h
        rwa [List.destutter'_cons_neg l (by simp)]
      · rw [List.destutter'_cons_pos l h, List.tail_cons]

/-- A member behind another one is there as a change. -/
theorem mem_changes {a b x : α} {l : List α} (hx : x ∈ l) (hne : x ≠ b) :
    x ∈ ((b :: l).destutter' (· ≠ ·) a).tail := by
  by_cases h : a = b
  · subst h
    rw [List.destutter'_cons_neg l (by simp)]
    have hmem : x ∈ l.destutter' (· ≠ ·) a := mem_destutter_ne.mpr (List.mem_cons_of_mem a hx)
    rw [destutter_eq_cons] at hmem
    exact (List.mem_cons.mp hmem).resolve_left hne
  · rw [List.destutter'_cons_pos l h, List.tail_cons]
    exact mem_destutter_ne.mpr (List.mem_cons_of_mem b hx)

end Changes

end SampledCountdown
