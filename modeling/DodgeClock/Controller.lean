import DodgeClock.ShotClock
import DodgeClock.Interface
import DodgeClock.Link
import DodgeClock.OnceQueue

/-!
# The controller as a machine

Three kinds of activity share the variables of the controller: interrupts (button
edges and timer expiries), the system work queue, which runs one handler at a
time and statement by statement, and the main thread. Interrupts may land
between any two statements of a handler. The thread of the queue is cooperative
and a button handler does not block, so the callbacks of the Bluetooth stack and
the submission made by main come between work items.
-/
namespace DodgeClock
open EventSystem OneShotTimer OnceQueue

/-- The work items: one for each button, and the two of DCLK.c. -/
inductive Work where
  | button (b : Button)
  | pairDCLK
  | advertiseDCLK
  deriving DecidableEq, Repr

/-- The statements a work handler executes, with the functions it calls inlined.
`callActive` is the call of `active_func_cb`. -/
inductive Stmt where
  | readVal (b : Button)
  | callActive (b : Button)
  | clock (st : ClockStmt)
  | link (st : LinkStmt)
  | submit (w : Work)
  deriving DecidableEq, Repr

def dclkPairing (enable : Bool) : List Stmt :=
  [.link (.setPairEn enable), .submit (if enable then .pairDCLK else .advertiseDCLK)]

def pairCb (evt : ℕ) : List Stmt :=
  (if evt = 1 then dclkPairing true else if evt = 0 then dclkPairing false else []) ++
    [.clock .stopSleepTimer]

/-- The callbacks setup_button stores, as main.c lists them in `interface_callbacks`. -/
def activeFunc : Button → ℕ → List Stmt
  | .pair, evt => pairCb evt
  | .user, evt => (userCb evt).map .clock
  | .start, evt => (startCb evt).map .clock
  | .stop, evt => (stopCb evt).map .clock

def handleButtonEvent (b : Button) (evt : ℕ) : List Stmt :=
  .readVal b :: .callActive b :: activeFunc b evt

/-- Only user_cb and, for a release, stop_cb do nothing. -/
theorem user_or_stop_of_empty {b : Button} {evt : ℕ} (h : activeFunc b evt = []) :
    b = .user ∨ b = .stop := by
  cases b with
  | pair => simp [activeFunc, pairCb] at h
  | start => simp [activeFunc, startCb] at h
  | user => exact .inl rfl
  | stop => exact .inr rfl

/-- What has happened so far, for statements about a run. Nothing reads it.
`delivered` carries the number of levels sampled before the handler read `val`,
and `handled` the time its callback returned. -/
inductive Happening where
  | sampled (b : Button) (level : ℕ)
  | delivered (b : Button) (evt asOf : ℕ)
  | handled (b : Button) (evt time : ℕ)
  | countdown
  | stopped
  | expired
  deriving DecidableEq, Repr

/-- The work item being run and the number of its statements already executed. -/
structure Frame where
  item : Work
  pc : ℕ
  deriving DecidableEq, Repr

/-- `queue` and `worker` are the system work queue, `ready` and `armed` say how far
main has come, and `off` that poweroff has been entered. The last two fields only
record the run. -/
structure State where
  clock : Clock
  link : Link
  btns : Button → Btn
  queue : List Work
  worker : Option Frame
  ready : Bool
  armed : Bool
  off : Bool
  now : ℕ
  hist : List Happening

def boot (bonds acceptList : List Addr) : State :=
  ⟨.boot, .boot bonds acceptList, .initial, [], none, false, false, false, 0, []⟩

/-- `stmt` executes the next statement of the running handler; the results are
those of the stack calls it makes. -/
inductive Event where
  | edge (b : Button) (level : ℕ)
  | dequeue
  | stmt (r : BtResults)
  | dExpire
  | sleepExpire
  | elapse (n : ℕ)
  | dclkInit
  | arm
  | connected (peer : Addr) (kept : Bool)
  | connectFailed (kept : Bool)
  | disconnected
  | bonded
  deriving DecidableEq, Repr

/-- `p` holds of the results of the calls, if the event executes a statement. -/
def Event.ForStmt (p : BtResults → Prop) : Event → Prop
  | .stmt r => p r
  | _ => True

instance Event.ForStmt.decidable (p : BtResults → Prop) [DecidablePred p] :
    (e : Event) → Decidable (e.ForStmt p)
  | .stmt r => inferInstanceAs (Decidable (p r))
  | .edge _ _ | .dequeue | .dExpire | .sleepExpire | .elapse _ | .dclkInit | .arm
  | .connected _ _ | .connectFailed _ | .disconnected | .bonded => .isTrue trivial

def samples (b : Button) (hist : List Happening) : ℕ :=
  hist.countP fun h => match h with
    | .sampled c _ => decide (c = b)
    | _ => false

/-- The level of the pin of `b` at its last edge, if there was one. -/
def lastLevel (b : Button) (hist : List Happening) : Option ℕ :=
  hist.findSome? fun h => match h with
    | .sampled c level => if c = b then some level else none
    | _ => none

/-- What a statement of a callback adds to the history. -/
def noted : ClockStmt → List Happening
  | .startDTimer => [.countdown]
  | .stopDTimer => [.stopped]
  | _ => []

namespace State

def program (s : State) : Work → List Stmt
  | .button b => handleButtonEvent b (s.btns b).evt
  | .pairDCLK => DodgeClock.pairDCLK.map .link
  | .advertiseDCLK => DodgeClock.advertiseDCLK.map .link

/-- The statement the running handler executes next. -/
def next (s : State) : Option Stmt := s.worker.bind fun f => (s.program f.item)[f.pc]?

/-- The GPIO interrupt of a button. -/
def buttonEventCb (b : Button) (level : ℕ) (s : State) : State :=
  { s with
    btns := Function.update s.btns b ((s.btns b).sample level)
    queue := submit (.button b) s.queue
    hist := .sampled b level :: s.hist }

def exec (r : BtResults) : Stmt → State → State
  | .readVal b, s =>
      { s with btns := Function.update s.btns b ((s.btns b).readVal (samples b s.hist)) }
  | .callActive b, s => { s with hist := .delivered b (s.btns b).evt (s.btns b).asOf :: s.hist }
  | .clock st, s => { s with clock := s.clock.exec st, hist := noted st ++ s.hist }
  | .link st, s => { s with link := s.link.exec r st }
  | .submit w, s => { s with queue := submit w s.queue }

/-- Go on to the next statement, or end the handler. -/
def advance (f : Frame) (s : State) : State :=
  if f.pc + 1 < (s.program f.item).length then { s with worker := some ⟨f.item, f.pc + 1⟩ }
  else match f.item with
    | .button b => { s with worker := none, hist := .handled b (s.btns b).evt s.now :: s.hist }
    | _ => { s with worker := none }

end State

def controller : Machine State Event where
  step s e :=
    if s.off then none
    else match e with
    | .edge b level => some (s.buttonEventCb b level)
    | .dequeue => match s.worker, s.queue with
        | none, w :: q => some { s with queue := q, worker := some ⟨w, 0⟩ }
        | _, _ => none
    | .stmt r => match s.worker, s.next with
        | some f, some st => some ((s.exec r st).advance f)
        | _, _ => none
    | .dExpire => s.clock.expireDTimer.map fun c =>
        { s with clock := c, hist := .expired :: s.hist }
    | .sleepExpire =>
        if s.clock.sleepTimer.Due then
          some { s with clock := s.clock.exec .stopSleepTimer, off := true }
        else none
    | .elapse n => (s.clock.elapse n).map fun c => { s with clock := c, now := s.now + n }
    | .dclkInit =>
        if s.worker = none ∧ s.ready = false then
          some { s with ready := true, queue := submit .advertiseDCLK s.queue }
        else none
    | .arm =>
        if s.ready = true ∧ s.armed = false then
          some { s with armed := true, clock := s.clock.exec (.startSleepTimer goSleepLong) }
        else none
    | .connected peer kept =>
        if s.worker = none ∧ s.link.peer = none then
          some { s with link := s.link.onConnected peer kept }
        else none
    | .connectFailed kept =>
        if s.worker = none ∧ s.link.peer = none then
          some { s with link := s.link.onConnectFailed kept,
                        queue := submit .advertiseDCLK s.queue }
        else none
    | .disconnected =>
        if s.worker = none ∧ s.link.peer ≠ none then
          some { s with link := s.link.onDisconnected, queue := submit .advertiseDCLK s.queue }
        else none
    | .bonded => s.link.peer.map fun a => { s with link := s.link.bond a }

/-- `n` statements of the running handler, with every stack call succeeding. -/
def stmts (n : ℕ) : List Event := List.replicate n (.stmt .success)

/-- The next work item runs, `n` statements. -/
def work (n : ℕ) : List Event := .dequeue :: stmts n

/-- An edge of the pin of `b` and the whole handler it submits, `n` statements. -/
def wholeEvent (b : Button) (level n : ℕ) : List Event := .edge b level :: work n

/-- dclk_init, and the advertise_DCLK it submits. -/
def startUp : List Event := .dclkInit :: work 3

/-- A countdown is started and, four seconds later, stopped. -/
def pausedRun : List Event :=
  wholeEvent .start 1 5 ++ [Event.elapse 4000] ++ wholeEvent .stop 1 5

section History
variable (b : Button) (hist : List Happening)

@[simp] theorem samples_sampled (c : Button) (level : ℕ) :
    samples b (.sampled c level :: hist) = samples b hist + if c = b then 1 else 0 := by
  by_cases h : c = b <;> simp [samples, h]

@[simp] theorem samples_delivered (c : Button) (evt asOf : ℕ) :
    samples b (.delivered c evt asOf :: hist) = samples b hist := by simp [samples]

@[simp] theorem samples_handled (c : Button) (evt time : ℕ) :
    samples b (.handled c evt time :: hist) = samples b hist := by simp [samples]

@[simp] theorem samples_countdown : samples b (.countdown :: hist) = samples b hist := by
  simp [samples]

@[simp] theorem samples_stopped : samples b (.stopped :: hist) = samples b hist := by
  simp [samples]

@[simp] theorem samples_expired : samples b (.expired :: hist) = samples b hist := by
  simp [samples]

@[simp] theorem lastLevel_sampled (c : Button) (level : ℕ) :
    lastLevel b (.sampled c level :: hist) = if c = b then some level else lastLevel b hist := by
  by_cases h : c = b <;> simp [lastLevel, h]

@[simp] theorem lastLevel_delivered (c : Button) (evt asOf : ℕ) :
    lastLevel b (.delivered c evt asOf :: hist) = lastLevel b hist := rfl

@[simp] theorem lastLevel_handled (c : Button) (evt time : ℕ) :
    lastLevel b (.handled c evt time :: hist) = lastLevel b hist := rfl

@[simp] theorem lastLevel_countdown : lastLevel b (.countdown :: hist) = lastLevel b hist := rfl
@[simp] theorem lastLevel_stopped : lastLevel b (.stopped :: hist) = lastLevel b hist := rfl
@[simp] theorem lastLevel_expired : lastLevel b (.expired :: hist) = lastLevel b hist := rfl

end History

namespace State

@[simp] theorem buttonEventCb_evt (b c : Button) (level : ℕ) (s : State) :
    ((s.buttonEventCb b level).btns c).evt = (s.btns c).evt := by
  by_cases h : c = b <;> simp [buttonEventCb, Btn.sample, h]

@[simp] theorem buttonEventCb_asOf (b c : Button) (level : ℕ) (s : State) :
    ((s.buttonEventCb b level).btns c).asOf = (s.btns c).asOf := by
  by_cases h : c = b <;> simp [buttonEventCb, Btn.sample, h]

@[simp] theorem buttonEventCb_hist (b : Button) (level : ℕ) (s : State) :
    (s.buttonEventCb b level).hist = .sampled b level :: s.hist := rfl

@[simp] theorem buttonEventCb_clock (b : Button) (level : ℕ) (s : State) :
    (s.buttonEventCb b level).clock = s.clock := rfl

@[simp] theorem buttonEventCb_link (b : Button) (level : ℕ) (s : State) :
    (s.buttonEventCb b level).link = s.link := rfl

@[simp] theorem buttonEventCb_worker (b : Button) (level : ℕ) (s : State) :
    (s.buttonEventCb b level).worker = s.worker := rfl

@[simp] theorem buttonEventCb_queue (b : Button) (level : ℕ) (s : State) :
    (s.buttonEventCb b level).queue = submit (.button b) s.queue := rfl

/-- start_cb, called for a press, is about to execute `st`. -/
def InStartPress (s : State) (st : ClockStmt) : Prop :=
  s.worker.map (·.item) = some (.button .start) ∧ (s.btns .start).evt = 1 ∧
    s.next = some (.clock st)

instance (s : State) (st : ClockStmt) : Decidable (s.InStartPress st) :=
  inferInstanceAs (Decidable (_ ∧ _))

end State
end DodgeClock
