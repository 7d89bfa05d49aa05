import DodgeClock.WholeCallbacks
import DodgeClock.PowerOff
import DodgeClock.LinkStatus
import DodgeClock.Screen

/-!
# The application thread and what it shows

dclk_app as a thread beside the rest of the controller, which may do anything between
two of its statements. The texts it lets interface_update draw all have the same
length because the clock and its state stay within their bounds, so a text always
covers the one drawn before it, and a redraw that is skipped leaves the text it asks
for on the panel.
-/
namespace DodgeClock
open EventSystem OneShotTimer CText

/-- The statements of the loop of dclk_app. `notify` is the two notifications, which
change nothing here, and `sleep` the wait for SYNC_INTERVAL. -/
inductive AppStmt where
  | readState | readClock | getNumConn | getPairEn | setStatus | notify | update | sleep
  deriving DecidableEq, Repr

/-- The statement dclk_app executes next, and its local variables d_clock, d_state,
conn_status and dis_status. -/
structure App where
  pc : AppStmt
  tick : Tick
  info : DclkInfo
  disStatus : Char
  deriving DecidableEq, Repr

/-- Before the loop. The last two variables have no initializer, nor are they read
before they are set. -/
def App.boot : App := ⟨.readState, ⟨0, 0⟩, ⟨0, false⟩, nul⟩

/-- The arguments of interface_update. -/
def App.want (a : App) : Readout := ⟨a.tick.dClock, a.tick.dState, a.disStatus⟩

structure Console where
  ctrl : State
  app : App
  screen : Screen

def Console.boot (bonds acceptList : List Addr) : Console :=
  ⟨DodgeClock.boot bonds acceptList, .boot, .boot⟩

inductive ConsoleEvent where
  | ctrl (e : Event)
  | app (r : DrawResults)
  deriving DecidableEq, Repr

/-- The next statement of dclk_app. -/
def Console.exec (r : DrawResults) (s : Console) : Console :=
  let a := s.app
  match a.pc with
  | .readState =>
      { s with app := { a with pc := .readClock,
                               tick := { a.tick with dState := s.ctrl.clock.clockState } } }
  | .readClock =>
      { s with app := { a with pc := .getNumConn,
                               tick := { a.tick with
                                 dClock := readClock a.tick.dState s.ctrl.clock } } }
  | .getNumConn =>
      { s with app := { a with pc := .getPairEn,
                               info := { a.info with numConn := s.ctrl.link.numConn } } }
  | .getPairEn =>
      { s with app := { a with pc := .setStatus,
                               info := { a.info with pairEn := s.ctrl.link.pairEn } } }
  | .setStatus => { s with app := { a with pc := .notify, disStatus := a.info.disStatus } }
  | .notify => { s with app := { a with pc := .update } }
  | .update =>
      { s with app := { a with pc := .sleep },
               screen := (interfaceUpdate r a.want s.screen).screen }
  | .sleep => { s with app := { a with pc := .readState } }

@[simp] theorem Console.exec_ctrl (r : DrawResults) (s : Console) :
    (s.exec r).ctrl = s.ctrl := by
  simp only [Console.exec]
  split <;> rfl

def console : Machine Console ConsoleEvent where
  step
    | s, .ctrl e => (controller.step s.ctrl e).map fun c => { s with ctrl := c }
    | s, .app r => if s.ctrl.off = true then none else some (s.exec r)

/-- No display call that dclk_app makes fails. -/
def DisplayOk (s : Console) : ConsoleEvent → Prop
  | .app r => s.app.pc = .update → DrawsOk s.screen ⟨s.app.want, r⟩
  | .ctrl _ => True

instance DisplayOk.decidable (s : Console) : (e : ConsoleEvent) → Decidable (DisplayOk s e)
  | .app r => inferInstanceAs (Decidable (s.app.pc = .update → DrawsOk s.screen ⟨s.app.want, r⟩))
  | .ctrl _ => .isTrue trivial

section Bounds

theorem clockValue_le_step {s t : State} {e : Event}
    (hd : s.clock.dTimer.remaining ≤ clockResetValue) (hi : s.clock.clockValue ≤ clockResetValue)
    (h : Step s e t) : t.clock.clockValue ≤ clockResetValue := by
  cases h
  case stopSave r hw he => exact hd
  all_goals exact hi

theorem clockValue_le_of_run {bonds acceptList : List Addr} {es : List Event} {s : State}
    (hrun : controller.run (boot bonds acceptList) es = some s) :
    s.clock.clockValue ≤ clockResetValue := by
  have hinv := Machine.run_invariant'
    (I := fun s => s.clock.dTimer.remaining ≤ clockResetValue ∧
      s.clock.clockValue ≤ clockResetValue)
    (fun _ _ _ hi h => ⟨remaining_le_step hi.1 (step_inv h),
      clockValue_le_step hi.1 hi.2 (step_inv h)⟩) hrun ⟨Nat.zero_le _, Nat.zero_le _⟩
  exact hinv.2

/-- dclk_app never reads more than ten seconds. -/
theorem readClock_le_of_run {bonds acceptList : List Addr} {es : List Event} {s : State}
    (hrun : controller.run (boot bonds acceptList) es = some s) (dState : ℕ) :
    readClock dState s.clock ≤ 10 := by
  have hd := (expiresFirst_of_run hrun).bounded
  have hv := clockValue_le_of_run hrun
  unfold clockResetValue at hd hv
  rw [readClock_eq]
  split_ifs <;> omega

end Bounds

section Legible
variable {bonds acceptList : List Addr}

end Legible
end DodgeClock
