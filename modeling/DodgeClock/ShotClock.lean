import DodgeClock.EventSystem
import DodgeClock.OneShotTimer

/-!
# The shot clock of the controller

The variables and timers of main.c, its button callbacks as the statements they
execute, the expiry function of d_timer, and what one iteration of dclk_app
computes from them. A callback is a list of statements because an interrupt may
land between any two of them; `Clock.runAll` executes a callback in one go.
Log output is left out.
-/
namespace DodgeClock
open OneShotTimer

/-- GO_SLEEP_SHORT, in milliseconds. -/
def goSleepShort : ℕ := 10000
/-- GO_SLEEP_LONG, in milliseconds. -/
def goSleepLong : ℕ := 30000
/-- CLOCK_RESET_VALUE, in milliseconds. -/
def clockResetValue : ℕ := 10000

/-- The file-scope variables of main.c. Neither number ever leaves the range of
its C type: a state is 0, 1 or 2 and a value is a remaining time. -/
structure Clock where
  clockState : ℕ
  clockValue : ℕ
  dTimer : Timer
  sleepTimer : Timer
  deriving DecidableEq, Repr

/-- Static initialization, with d_timer initialized and not started. -/
def Clock.boot : Clock := ⟨0, 0, .stopped, .stopped⟩

/-- The statements of the callbacks of main.c that touch its variables. -/
inductive ClockStmt where
  | setClockState (v : ℕ)
  | saveRemaining
  | startDTimer
  | stopDTimer
  | startSleepTimer (duration : ℕ)
  | stopSleepTimer
  deriving DecidableEq, Repr

namespace Clock

def exec : ClockStmt → Clock → Clock
  | .setClockState v, c => { c with clockState := v }
  | .saveRemaining, c => { c with clockValue := c.dTimer.remaining }
  | .startDTimer, c => { c with dTimer := .started clockResetValue }
  | .stopDTimer, c => { c with dTimer := .stopped }
  | .startSleepTimer d, c => { c with sleepTimer := .started d }
  | .stopSleepTimer, c => { c with sleepTimer := .stopped }

def runAll (prog : List ClockStmt) (c : Clock) : Clock := prog.foldl (fun c st => c.exec st) c

end Clock

/-- user_cb only logs. -/
def userCb (_evt : ℕ) : List ClockStmt := []

def startCb (evt : ℕ) : List ClockStmt :=
  (if evt = 1 then [.setClockState 0, .startDTimer] else []) ++ [.stopSleepTimer]

def stopCb (evt : ℕ) : List ClockStmt :=
  if evt = 1 then [.saveRemaining, .stopDTimer, .setClockState 1] else []

/-- d_clock_expire, the expiry function of d_timer. -/
def dClockExpire : List ClockStmt := [.setClockState 2, .startSleepTimer goSleepShort]

namespace Clock

/-- The expiry interrupt of d_timer: the timer stops, then its function runs. -/
def expireDTimer (c : Clock) : Option Clock :=
  if c.dTimer.Due then some (runAll dClockExpire { c with dTimer := .stopped }) else none

/-- Time passes, but never over a due timer. -/
def elapse (n : ℕ) (c : Clock) : Option Clock :=
  if c.dTimer.Allows n ∧ c.sleepTimer.Allows n then
    some { c with dTimer := c.dTimer.elapse n, sleepTimer := c.sleepTimer.elapse n }
  else none

theorem expireDTimer_eq_some {c d : Clock} :
    c.expireDTimer = some d ↔ c.dTimer.Due ∧
      d = { c with clockState := 2, dTimer := .stopped, sleepTimer := .started goSleepShort } := by
  by_cases h : c.dTimer.Due
  · simp [expireDTimer, h, runAll, dClockExpire, exec, eq_comm]
  · simp [expireDTimer, h]

theorem elapse_eq_some {c d : Clock} {n : ℕ} :
    c.elapse n = some d ↔ (c.dTimer.Allows n ∧ c.sleepTimer.Allows n) ∧
      d = { c with dTimer := c.dTimer.elapse n, sleepTimer := c.sleepTimer.elapse n } := by
  unfold elapse
  split_ifs with h
  · simp [h, eq_comm]
  · simp [h]

theorem runAll_startCb_press (c : Clock) : c.runAll (startCb 1) =
    { c with clockState := 0, dTimer := .started clockResetValue, sleepTimer := .stopped } := rfl

theorem runAll_startCb_other {evt : ℕ} (h : evt ≠ 1) (c : Clock) :
    c.runAll (startCb evt) = { c with sleepTimer := .stopped } := by
  simp [runAll, startCb, h, exec]

theorem runAll_stopCb_press (c : Clock) : c.runAll (stopCb 1) =
    { c with clockState := 1, clockValue := c.dTimer.remaining, dTimer := .stopped } := rfl

theorem runAll_stopCb_other {evt : ℕ} (h : evt ≠ 1) (c : Clock) : c.runAll (stopCb evt) = c := by
  simp [runAll, stopCb, h]

end Clock

/-- The macro ROUND_UP. -/
def roundUp (x align : ℕ) : ℕ := (x + (align - 1)) / align * align

/-- The local variables d_clock and d_state of dclk_app. -/
structure Tick where
  dClock : ℕ
  dState : ℕ
  deriving DecidableEq, Repr

/-- The second read of an iteration, made in `c` after `dState` was read. -/
def readClock (dState : ℕ) (c : Clock) : ℕ :=
  if 1 ≠ dState then roundUp c.dTimer.remaining 1000 / 1000
  else roundUp c.clockValue 1000 / 1000

/-- An iteration of dclk_app that nothing preempts. -/
def dclkApp (c : Clock) : Tick := ⟨readClock c.clockState c, c.clockState⟩

theorem roundUp_div (x : ℕ) : roundUp x 1000 / 1000 = (x + 999) / 1000 := by
  simp [roundUp]

theorem readClock_eq (dState : ℕ) (c : Clock) : readClock dState c =
    ((if dState = 1 then c.clockValue else c.dTimer.remaining) + 999) / 1000 := by
  by_cases h : dState = 1
  · simp [readClock, roundUp_div, h]
  · simp [readClock, roundUp_div, h, Ne.symm h]

end DodgeClock
