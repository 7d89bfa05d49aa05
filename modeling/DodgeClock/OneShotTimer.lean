import Mathlib.Tactic

/-!
# One-shot kernel timers

A timer is stopped, or it runs with some number of time units left. It is due
once none is left, and it stays due until its expiry interrupt takes it. Time
never passes over a due timer, so an expiry comes exactly when the duration the
timer was started with has elapsed.
-/
namespace OneShotTimer

structure Timer where
  left : Option ℕ
  deriving DecidableEq, Repr

namespace Timer

def stopped : Timer := ⟨none⟩

/-- Starting a timer that runs already restarts it. -/
def started (duration : ℕ) : Timer := ⟨some duration⟩

def Running (t : Timer) : Prop := t.left ≠ none

instance (t : Timer) : Decidable t.Running := inferInstanceAs (Decidable (_ ≠ _))

/-- The kernel reports zero for a timer that does not run. -/
def remaining (t : Timer) : ℕ := t.left.getD 0

def Due (t : Timer) : Prop := t.left = some 0

instance (t : Timer) : Decidable t.Due := inferInstanceAs (Decidable (_ = _))

/-- `n` units may pass without the timer becoming overdue. -/
def Allows (t : Timer) (n : ℕ) : Prop := t.Running → n ≤ t.remaining

instance (t : Timer) (n : ℕ) : Decidable (t.Allows n) := inferInstanceAs (Decidable (_ → _))

def elapse (n : ℕ) (t : Timer) : Timer := ⟨t.left.map (· - n)⟩

@[simp] theorem not_running_stopped : ¬ stopped.Running := by simp [Running, stopped]
@[simp] theorem running_started (d : ℕ) : (started d).Running := by simp [Running, started]
@[simp] theorem remaining_stopped : stopped.remaining = 0 := rfl
@[simp] theorem remaining_started (d : ℕ) : (started d).remaining = d := rfl

@[simp] theorem running_elapse (n : ℕ) (t : Timer) : (t.elapse n).Running ↔ t.Running := by
  simp [Running, elapse]

@[simp] theorem remaining_elapse (n : ℕ) (t : Timer) :
    (t.elapse n).remaining = t.remaining - n := by
  cases h : t.left <;> simp [remaining, elapse, h]

theorem remaining_eq_zero {t : Timer} (h : ¬ t.Running) : t.remaining = 0 := by
  have hl : t.left = none := by simpa [Running] using h
  simp [remaining, hl]

theorem eq_stopped {t : Timer} (h : ¬ t.Running) : t = stopped := by
  obtain ⟨l⟩ := t
  have hl : l = none := by simpa [Running] using h
  simp [stopped, hl]

@[simp] theorem elapse_stopped (n : ℕ) : stopped.elapse n = stopped := rfl

theorem Due.running {t : Timer} (h : t.Due) : t.Running := by
  unfold Due at h
  simp [Running, h]

theorem Due.remaining {t : Timer} (h : t.Due) : t.remaining = 0 := by
  unfold Due at h
  simp [Timer.remaining, h]

end Timer
end OneShotTimer
