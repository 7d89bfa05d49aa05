import DodgeClock.EventSystem

/-!
# What a shot clock is for

The referee starts and stops the clock, and a countdown that is neither stopped
nor started again ends by itself. This is the clock as its users think of it,
without variables, timers or interrupts. A history lists the signals so far, the
latest first.
-/
namespace DodgeClock
open EventSystem

inductive Signal where
  | start | stop | timeUp
  deriving DecidableEq, Repr

/-- `fresh` is the clock before anything was pressed. -/
inductive Phase where
  | fresh | counting | paused | elapsed
  deriving DecidableEq, Repr

/-- Only a countdown that is running can end. -/
def refereeClock : Machine Phase Signal where
  step
    | _, .start => some .counting
    | _, .stop => some .paused
    | .counting, .timeUp => some .elapsed
    | _, .timeUp => none

/-- The states documented for `dclk_send_state_notify`: running, paused, stopped. -/
def Phase.code : Phase → ℕ
  | .fresh | .counting => 0
  | .paused => 1
  | .elapsed => 2

/-- A stop was signalled after the most recent start. -/
def StoppedSinceStart (h : List Signal) : Prop := .stop ∈ h.takeWhile (· ≠ .start)

/-- The most recent countdown ran to its end, and nothing was signalled since. -/
def RanOut (h : List Signal) : Prop := h.head? = some .timeUp

/-- The phase tells how the history ends. -/
theorem ends_of_run {h : List Signal} {p : Phase}
    (hrun : refereeClock.run .fresh h.reverse = some p) :
    match p with
    | .fresh => h = []
    | .counting => ∃ past, h = .start :: past
    | .paused => ∃ past, h = .stop :: past
    | .elapsed => ∃ past, h = .timeUp :: .start :: past := by
  induction h generalizing p with
  | nil =>
      obtain rfl := Option.some.inj hrun
      rfl
  | cons g h ih =>
      rw [List.reverse_cons, Machine.run_append, Option.bind_eq_some_iff] at hrun
      obtain ⟨q, hq, hrun⟩ := hrun
      obtain ⟨r, hr, hrun⟩ := refereeClock.run_cons_eq_some.mp hrun
      obtain rfl := Option.some.inj hrun
      have hends := ih hq
      cases g with
      | start => obtain rfl := Option.some.inj hr; exact ⟨h, rfl⟩
      | stop => obtain rfl := Option.some.inj hr; exact ⟨h, rfl⟩
      | timeUp =>
          cases q with
          | counting =>
              obtain rfl := Option.some.inj hr
              obtain ⟨past, rfl⟩ := hends
              exact ⟨past, rfl⟩
          | fresh | paused | elapsed => cases hr

variable {h : List Signal} {p : Phase}

theorem paused_iff (hrun : refereeClock.run .fresh h.reverse = some p) :
    p = .paused ↔ StoppedSinceStart h := by
  have hends := ends_of_run hrun
  cases p with
  | fresh => obtain rfl : h = [] := hends; simp [StoppedSinceStart]
  | counting => obtain ⟨past, rfl⟩ := hends; simp [StoppedSinceStart]
  | paused => obtain ⟨past, rfl⟩ := hends; simp [StoppedSinceStart]
  | elapsed => obtain ⟨past, rfl⟩ := hends; simp [StoppedSinceStart]

theorem elapsed_iff (hrun : refereeClock.run .fresh h.reverse = some p) :
    p = .elapsed ↔ RanOut h := by
  have hends := ends_of_run hrun
  cases p with
  | fresh => obtain rfl : h = [] := hends; simp [RanOut]
  | counting => obtain ⟨past, rfl⟩ := hends; simp [RanOut]
  | paused => obtain ⟨past, rfl⟩ := hends; simp [RanOut]
  | elapsed => obtain ⟨past, rfl⟩ := hends; simp [RanOut]

theorem ne_fresh (hrun : refereeClock.run .fresh h.reverse = some p) (hstart : .start ∈ h) :
    p ≠ .fresh := by
  rintro rfl
  have hnil : h = [] := ends_of_run hrun
  simp [hnil] at hstart

/-- Once the clock was started, its code tells the three phases apart. -/
theorem code_iff (hrun : refereeClock.run .fresh h.reverse = some p) (hstart : .start ∈ h) :
    (p.code = 0 ↔ p = .counting) ∧ (p.code = 1 ↔ StoppedSinceStart h) ∧
      (p.code = 2 ↔ RanOut h) := by
  have hne := ne_fresh hrun hstart
  rw [← paused_iff hrun, ← elapsed_iff hrun]
  cases p <;> simp_all [Phase.code]

end DodgeClock
