import Mathlib.Tactic
import Mathlib.Data.List.TakeWhile

/-!
# Text as C writes it

The conversion `%d` of sprintf, and a text in memory: its characters and a
terminating zero, from a destination on. A variable of some size keeps its
neighbours exactly if the text and the zero fit into it.
-/
namespace CText

/-- The terminating zero. -/
def nul : Char := Char.ofNat 0

/-- The conversion `%d` of a 32-bit value, which it takes as a signed number. -/
def decimal (v : ℕ) : List Char :=
  if v < 2 ^ 31 then Nat.toDigits 10 v else '-' :: Nat.toDigits 10 (2 ^ 32 - v)

/-- The part of a text before its first zero. -/
def untilNul (text : List Char) : List Char := text.takeWhile fun c => decide (c ≠ nul)

/-- The memory after sprintf has written `text` to `dst`. -/
def store (text : List Char) (dst : ℕ) (mem : ℕ → Char) : ℕ → Char := fun i =>
  if dst ≤ i ∧ i ≤ dst + text.length then text.getD (i - dst) nul else mem i

/-- A variable of `size` bytes holds `text` and its terminating zero. -/
def FitsIn (text : List Char) (size : ℕ) : Prop := text.length + 1 ≤ size

instance (text : List Char) (size : ℕ) : Decidable (FitsIn text size) :=
  inferInstanceAs (Decidable (_ ≤ _))

section Decimal
variable {v : ℕ}

theorem decimal_ne_nil : decimal v ≠ [] := by
  unfold decimal
  split_ifs
  · exact Nat.toDigits_ne_nil
  · exact List.cons_ne_nil _ _

end Decimal

section Store
variable {text : List Char} {dst size i : ℕ} {mem : ℕ → Char}

theorem store_outside (h : i < dst ∨ dst + text.length < i) : store text dst mem i = mem i :=
  if_neg (by omega)

theorem store_terminator : store text dst mem (dst + text.length) = nul := by
  simp [store]

/-- A text keeps the neighbours of the variable it is written to exactly if it fits. -/
theorem keeps_neighbours_iff :
    (∀ dst mem i, i < dst ∨ dst + size ≤ i → store text dst mem i = mem i) ↔
      FitsIn text size := by
  constructor
  · intro h
    by_contra hbig
    have hout : 0 + size ≤ 0 + text.length := by unfold FitsIn at hbig; omega
    have hkept := h 0 (fun _ => '0') (0 + text.length) (.inr hout)
    rw [store_terminator] at hkept
    exact absurd hkept (by decide)
  · intro hfit dst mem i hi
    refine store_outside ?_
    unfold FitsIn at hfit
    omega

end Store
end CText
