import DodgeClock.TickConsistency

/-!
# The clock characteristic, read and notified

A client learns the time left by reading the clock characteristic, which calls
DCLK_clock_cb, or from the notifications of dclk_app. The callback looks at d_timer
whatever the state of the clock is, and dclk_app sends whole seconds, while DCLK.h
documents a value in milliseconds.
-/
namespace DodgeClock
open EventSystem OneShotTimer

/-- DCLK_clock_cb, from which read_clock serves a reading client. -/
def dclkClockCb (c : Clock) : ℕ := c.dTimer.remaining

/-- The milliseconds one unit of a notified value stands for, as DCLK.h has it. -/
def documentedUnit : ℕ := 1

/-- A read and a notification made in `c` tell the same time, up to rounding up to a
whole second, if the notified value counts units of `unit` milliseconds. In a paused
clock both tell the frozen clock_value. -/
structure SameTime (unit : ℕ) (c : Clock) : Prop where
  agree : unit * (dclkApp c).dClock = roundUp (dclkClockCb c) 1000
  frozen : c.clockState = 1 → dclkClockCb c = c.clockValue ∧
    unit * (dclkApp c).dClock = roundUp c.clockValue 1000

theorem dClock_dclkApp (c : Clock) :
    (dclkApp c).dClock = (timeLeft c.clockState c + 999) / 1000 :=
  readClock_eq_timeLeft c.clockState c

theorem roundUp_eq (x : ℕ) : roundUp x 1000 = (x + 999) / 1000 * 1000 := by simp [roundUp]

theorem timeLeft_paused {c : Clock} (h : c.clockState = 1) :
    timeLeft c.clockState c = c.clockValue := if_pos h

/-- A paused clock answers a read with zero. -/
theorem dclkClockCb_paused {c : Clock} (hstopped : ¬ c.dTimer.Running) : dclkClockCb c = 0 :=
  Timer.remaining_eq_zero hstopped

/-- Whatever the unit, a read of a paused clock only tells the time if it is zero. -/
theorem sameTime_paused {unit : ℕ} {c : Clock} (h1 : c.clockState = 1)
    (hstopped : ¬ c.dTimer.Running) : SameTime unit c ↔ c.clockValue = 0 := by
  have hzero := dclkClockCb_paused hstopped
  constructor
  · rintro ⟨-, hfrozen⟩
    rw [← (hfrozen h1).1, hzero]
  · intro hval
    refine ⟨?_, fun _ => ⟨by rw [hzero, hval], ?_⟩⟩ <;>
      simp [dClock_dclkApp, timeLeft_paused h1, hzero, hval, roundUp_eq]

/-- In the documented unit the two agree on no time but zero. -/
theorem sameTime_documentedUnit {c : Clock} (hpaused : c.clockState = 1 → ¬ c.dTimer.Running) :
    SameTime documentedUnit c ↔ timeLeft c.clockState c = 0 := by
  by_cases h1 : c.clockState = 1
  · rw [timeLeft_paused h1]
    exact sameTime_paused h1 (hpaused h1)
  · have htime : timeLeft c.clockState c = dclkClockCb c := timeLeft_of_ne h1 c
    rw [htime]
    constructor
    · rintro ⟨hagree, -⟩
      rw [dClock_dclkApp, htime, roundUp_eq, documentedUnit] at hagree
      omega
    · intro hleft
      refine ⟨?_, fun h => absurd h h1⟩
      simp [dClock_dclkApp, htime, hleft, roundUp_eq]

/-- Even read as seconds, a notification differs from a read of a paused clock. -/
theorem sameTime_seconds {c : Clock} (hpaused : c.clockState = 1 → ¬ c.dTimer.Running) :
    SameTime 1000 c ↔ (c.clockState = 1 → c.clockValue = 0) := by
  by_cases h1 : c.clockState = 1
  · rw [sameTime_paused h1 (hpaused h1)]
    simp [h1]
  · have htime : timeLeft c.clockState c = dclkClockCb c := timeLeft_of_ne h1 c
    refine ⟨fun _ h => absurd h h1, fun _ => ⟨?_, fun h => absurd h h1⟩⟩
    rw [dClock_dclkApp, htime, roundUp_eq, Nat.mul_comm]

/-- In every reachable state a read and a notification tell the same time exactly if no
time is left; and if notifications counted seconds, exactly if no paused time is left. -/
theorem sameTime_of_run (bonds acceptList : List Addr) (es : List Event) (s : State)
    (hrun : controller.run (boot bonds acceptList) es = some s) :
    (SameTime documentedUnit s.clock ↔ timeLeft s.clock.clockState s.clock = 0) ∧
      (SameTime 1000 s.clock ↔ (s.clock.clockState = 1 → s.clock.clockValue = 0)) :=
  have hpaused := (clockSound_of_run hrun).paused
  ⟨sameTime_documentedUnit hpaused, sameTime_seconds hpaused⟩

/-- A countdown that has run out. -/
def expiredRun : List Event := wholeEvent .start 1 5 ++ [Event.elapse 10000, .dExpire]

theorem sameTime_expiredRun :
    ∃ s, controller.run (boot [] []) expiredRun = some s ∧ SameTime documentedUnit s.clock :=
  ⟨_, rfl, (sameTime_of_run [] [] expiredRun _ rfl).1.mpr (by decide)⟩

/-- A clock paused with six seconds left is read as 0 and notified as 6. -/
theorem not_sameTime_paused :
    ¬ ∀ (bonds acceptList : List Addr) (es : List Event) (s : State),
      controller.run (boot bonds acceptList) es = some s → SameTime documentedUnit s.clock := by
  intro h
  have hagree := (h [] [] pausedRun _ rfl).agree
  exact absurd hagree (by decide)

end DodgeClock
