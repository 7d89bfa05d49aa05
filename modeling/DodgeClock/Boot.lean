import DodgeClock.AppThread
import DodgeClock.Transitions

/-!
# Start-up of the controller

main, the application thread and the buttons from reset on. A button becomes live in the
middle of interface_init, when its callback is added, while main still has most of its
statements to execute. The application thread, which initializes d_timer, has a lower
priority than main and the system work queue, so its first statement waits until main
blocks in a call or ends.
-/
namespace DodgeClock
open EventSystem OneShotTimer OnceQueue

/-- The statements of main, with interface_init and setup_button inlined. `checkErr`
tests what interface_init has got from its last setup_button. -/
inductive MainStmt where
  | pinConfigure (b : Button)
  | interruptConfigure (b : Button)
  | initCallback (b : Button)
  | addCallback (b : Button)
  | workInit (b : Button)
  | setActive (b : Button)
  | checkErr
  | displayInit
  | buzzerInit
  | dclkInit
  | powerManageInit
  | startSleepTimer
  deriving DecidableEq, Repr

def setupButton (b : Button) : List MainStmt :=
  [.pinConfigure b, .interruptConfigure b, .initCallback b, .addCallback b, .workInit b,
    .setActive b]

def interfaceInit : List MainStmt :=
  setupButton .pair ++ setupButton .user ++ setupButton .start ++ setupButton .stop ++
    [.checkErr, .displayInit, .buzzerInit]

def mainProgram : List MainStmt :=
  interfaceInit ++ [.dclkInit, .powerManageInit, .startSleepTimer]

/-- The calls in which main may wait: the display is on a bus and bt_enable on the
controller of the radio. -/
def MainStmt.Blocks (st : MainStmt) : Prop := st = .displayInit ∨ st = .dclkInit

instance (st : MainStmt) : Decidable st.Blocks := inferInstanceAs (Decidable (_ ∨ _))

/-- What setup_button has made of a button: its callback is added to the port, its work
has a handler, and `active_func_cb` is set. -/
structure Setup where
  listening : Bool
  workInit : Bool
  active : Bool
  deriving DecidableEq, Repr

def Setup.initial : Setup := ⟨false, false, false⟩

/-- Results of a call main makes: of gpio_add_callback or dclk_init, and of the calls of
display_init. -/
structure MainResults where
  call : ℤ
  display : InitResults
  deriving DecidableEq, Repr

def MainResults.success : MainResults := ⟨0, .success⟩

/-- The calls on d_timer. -/
inductive TimerOp where
  | init | start | stop | remaining
  deriving DecidableEq, Repr

def ClockStmt.timerOp : ClockStmt → Option TimerOp
  | .saveRemaining => some .remaining
  | .startDTimer => some .start
  | .stopDTimer => some .stop
  | .setClockState _ | .startSleepTimer _ | .stopSleepTimer => none

/-- The call on d_timer that the running handler makes next, if the event runs it. -/
def State.timerOp (s : State) : Event → Option TimerOp
  | .stmt _ => s.next.bind fun st => match st with
      | .clock st => st.timerOp
      | _ => none
  | _ => none

/-- `todo` is what main has still to execute, `blocked` that it waits in the first of
these statements, and `err` the variable of interface_init. `appStarted` says that
dclk_app has executed k_timer_init. The last field only records the run: the calls on
d_timer, in order. -/
structure Boot where
  console : Console
  todo : List MainStmt
  blocked : Bool
  err : ℤ
  setup : Button → Setup
  appStarted : Bool
  ops : List TimerOp

/-- Static initialization. -/
def Boot.reset (bonds acceptList : List Addr) : Boot :=
  ⟨⟨boot bonds acceptList, .boot, ⟨.initial, [], [], none⟩⟩, mainProgram, false, 0,
    fun _ => .initial, false, []⟩

/-- `block` lets main wait in the call it is about to make, and `main` completes its next
statement. -/
inductive BootEvent where
  | block
  | main (r : MainResults)
  | app (r : DrawResults)
  | ctrl (e : Event)
  deriving DecidableEq, Repr

namespace Boot

def ctrl (s : Boot) : State := s.console.ctrl

def setCtrl (c : State) (s : Boot) : Boot := { s with console := { s.console with ctrl := c } }

/-- A statement of main. A failed display_init does not end interface_init, which then
returns `!err`; buzzer_init returns 0 whatever it finds. -/
def execMain (r : MainResults) (s : Boot) : MainStmt → Option Boot
  | .pinConfigure _ | .interruptConfigure _ | .initCallback _ | .buzzerInit
  | .powerManageInit => some s
  | .addCallback b =>
      some { s with
        err := |r.call|
        setup := Function.update s.setup b
          { s.setup b with listening := decide (r.call = 0) } }
  | .workInit b =>
      some { s with setup := Function.update s.setup b { s.setup b with workInit := true } }
  | .setActive b =>
      some { s with setup := Function.update s.setup b { s.setup b with active := true } }
  | .checkErr => some (if s.err = 0 then s else { s with todo := [] })
  | .displayInit =>
      let (screen, err) := DodgeClock.displayInit r.display s.console.screen
      some { s with
        console := { s.console with screen := screen }
        todo := if err = 0 then s.todo else s.todo.tail }
  | .dclkInit =>
      if r.call = 0 then (controller.step s.ctrl .dclkInit).map fun c => s.setCtrl c
      else some { s with todo := [] }
  | .startSleepTimer => (controller.step s.ctrl .arm).map fun c => s.setCtrl c

/-- What an interrupt or the work queue needs. An item without a handler is not run, nor
is a callback that is NULL; d_clock_expire is only known to a timer that is initialized,
and connections need the stack that dclk_init enables. main steps by itself. -/
def allows (s : Boot) : Event → Bool
  | .edge b _ => (s.setup b).listening
  | .dequeue => match s.ctrl.queue.head? with
      | some (.button b) => (s.setup b).workInit
      | _ => true
  | .stmt _ => match s.ctrl.next with
      | some (.callActive b) => (s.setup b).active
      | _ => true
  | .dExpire => s.appStarted
  | .sleepExpire | .elapse _ => true
  | .dclkInit | .arm => false
  | .connected _ _ | .connectFailed _ | .disconnected | .bonded => s.ctrl.ready

/-- The entry of dclk_app, or a statement of its loop. -/
def execApp (r : DrawResults) (s : Boot) : Boot :=
  if s.appStarted then { s with console := s.console.exec r }
  else
    { s.setCtrl { s.ctrl with clock := { s.ctrl.clock with dTimer := .stopped } } with
      appStarted := true }

/-- The call on d_timer that the event makes. -/
def timerOp (s : Boot) : BootEvent → Option TimerOp
  | .block | .main _ => none
  | .app _ =>
      if s.appStarted = false then some .init
      else if s.console.app.pc = .readClock ∧ 1 ≠ s.console.app.tick.dState then some .remaining
      else none
  | .ctrl e => s.ctrl.timerOp e

def exec (s : Boot) : BootEvent → Option Boot
  | .block =>
      if s.ctrl.worker = none ∧ ∃ st ∈ s.todo.head?, st.Blocks then some { s with blocked := true }
      else none
  | .main r =>
      if s.ctrl.worker = none then match s.todo with
        | st :: rest => { s with todo := rest, blocked := false }.execMain r st
        | [] => none
      else none
  | .app r =>
      if s.ctrl.worker = none ∧ (s.blocked = true ∨ s.todo = []) then some (s.execApp r) else none
  | .ctrl e =>
      if s.allows e = true then (controller.step s.ctrl e).map fun c => s.setCtrl c else none

end Boot

/-- main and dclk_app only step while no work item is being run. -/
def startup : Machine Boot BootEvent where
  step s e :=
    if s.ctrl.off = true then none
    else (s.exec e).map fun t => { t with ops := s.ops ++ (s.timerOp e).toList }

/-- The event of the controller that a statement of main is, if it is one. -/
def MainStmt.event (r : MainResults) : MainStmt → Option Event
  | .dclkInit => if r.call = 0 then some .dclkInit else none
  | .startSleepTimer => some .arm
  | _ => none

def Boot.event (s : Boot) : BootEvent → Option Event
  | .ctrl e => some e
  | .main r => s.todo.head?.bind fun st => st.event r
  | .block | .app _ => none

/-- Everything one step of the start-up does to the controller, and to what dclk_app has
done to d_timer. -/
inductive BootStep (s t : Boot) : BootEvent → Prop
  | timerInit (r : DrawResults) (hw : s.ctrl.worker = none) (ha : s.appStarted = false)
      (hstarted : t.appStarted = true) (hops : t.ops = s.ops ++ [.init])
      (hctrl : t.ctrl = { s.ctrl with clock := { s.ctrl.clock with dTimer := .stopped } }) :
      BootStep s t (.app r)
  | stutter {e : BootEvent} (he : s.event e = none) (hops : t.ops = s.ops ++ (s.timerOp e).toList)
      (hstarted : t.appStarted = s.appStarted)
      (hop : s.timerOp e = none ∨ s.appStarted = true ∧ s.timerOp e = some .remaining)
      (hctrl : t.ctrl = s.ctrl) : BootStep s t e
  | ctrl {e : BootEvent} {k : Event} (he : s.event e = some k)
      (hstarted : t.appStarted = s.appStarted) (hop : s.timerOp e = s.ctrl.timerOp k)
      (hops : t.ops = s.ops ++ (s.timerOp e).toList)
      (hctrl : controller.step s.ctrl k = some t.ctrl) : BootStep s t e

section Inversion
variable {s t : Boot}

theorem execMain_inv {r : MainResults} {st : MainStmt} (h : s.execMain r st = some t) :
    t.appStarted = s.appStarted ∧
      (st.event r = none ∧ t.ctrl = s.ctrl ∨
        ∃ k, st.event r = some k ∧ controller.step s.ctrl k = some t.ctrl) := by
  cases st with
  | dclkInit =>
      by_cases hr : r.call = 0
      · simp only [Boot.execMain, if_pos hr, Option.map_eq_some_iff] at h
        obtain ⟨c, hc, rfl⟩ := h
        exact ⟨rfl, .inr ⟨.dclkInit, if_pos hr, hc⟩⟩
      · simp only [Boot.execMain, if_neg hr, Option.some.injEq] at h
        subst h
        exact ⟨rfl, .inl ⟨if_neg hr, rfl⟩⟩
  | startSleepTimer =>
      obtain ⟨c, hc, rfl⟩ := Option.map_eq_some_iff.mp h
      exact ⟨rfl, .inr ⟨.arm, rfl, hc⟩⟩
  | checkErr =>
      obtain rfl := Option.some.inj h
      refine ⟨?_, .inl ⟨rfl, ?_⟩⟩ <;> split_ifs <;> rfl
  | pinConfigure | interruptConfigure | initCallback | addCallback | workInit | setActive
  | displayInit | buzzerInit | powerManageInit =>
      obtain rfl := Option.some.inj h
      exact ⟨rfl, .inl ⟨rfl, rfl⟩⟩

theorem bootStep_inv {e : BootEvent} (h : startup.step s e = some t) : BootStep s t e := by
  simp only [startup, Option.ite_none_left_eq_some, Option.map_eq_some_iff] at h
  obtain ⟨-, u, hu, rfl⟩ := h
  cases e with
  | block =>
      simp only [Boot.exec, Option.ite_none_right_eq_some, Option.some.injEq] at hu
      obtain ⟨-, rfl⟩ := hu
      exact .stutter rfl rfl rfl (.inl rfl) rfl
  | main r =>
      simp only [Boot.exec, Option.ite_none_right_eq_some] at hu
      obtain ⟨-, hu⟩ := hu
      cases htodo : s.todo with
      | nil => simp [htodo] at hu
      | cons st rest =>
          simp only [htodo] at hu
          have hevent : s.event (.main r) = st.event r := by simp [Boot.event, htodo]
          obtain ⟨hstarted, ⟨hnone, hctrl⟩ | ⟨k, hk, hctrl⟩⟩ := execMain_inv hu
          · exact .stutter (hevent.trans hnone) rfl hstarted (.inl rfl) hctrl
          · refine .ctrl (hevent.trans hk) hstarted ?_ rfl hctrl
            -- neither of the two events runs a handler
            cases st with
            | dclkInit =>
                simp only [MainStmt.event, Option.ite_none_right_eq_some, Option.some.injEq] at hk
                obtain ⟨-, rfl⟩ := hk
                rfl
            | startSleepTimer =>
                obtain rfl := Option.some.inj hk
                rfl
            | _ => simp [MainStmt.event] at hk
  | app r =>
      simp only [Boot.exec, Option.ite_none_right_eq_some, Option.some.injEq] at hu
      obtain ⟨⟨hw, -⟩, rfl⟩ := hu
      cases ha : s.appStarted with
      | false =>
          refine .timerInit r hw ha ?_ ?_ ?_
          · simp [Boot.execApp, ha]
          · simp [Boot.timerOp, ha]
          · simp [Boot.execApp, ha, Boot.ctrl, Boot.setCtrl]
      | true =>
          refine .stutter rfl rfl ?_ ?_ ?_
          · simp [Boot.execApp, ha]
          · by_cases hread : s.console.app.pc = .readClock ∧ 1 ≠ s.console.app.tick.dState
            · exact .inr ⟨ha, by simp [Boot.timerOp, ha, hread]⟩
            · exact .inl (by simp [Boot.timerOp, ha, hread])
          · show (s.execApp r).console.ctrl = s.console.ctrl
            simp [Boot.execApp, ha]
  | ctrl e =>
      simp only [Boot.exec, Option.ite_none_right_eq_some, Option.map_eq_some_iff] at hu
      obtain ⟨-, c, hc, rfl⟩ := hu
      exact .ctrl rfl rfl rfl rfl hc

end Inversion
end DodgeClock
