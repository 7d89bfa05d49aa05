import DodgeClock.Controller

/-!
# What one step of the controller can do

`Step` lists the transitions of the controller with the states they lead to, one
constructor for each event and, for a handler, one for each statement. Every
invariant of the controller is proved by cases on it; the step function itself is
unfolded only here.
-/
namespace DodgeClock
open EventSystem OneShotTimer OnceQueue

/-- The position of each statement in the handler it belongs to, with the event
that makes the handler contain it. -/
inductive At (evt : Button → ℕ) : Frame → Stmt → Prop
  | readVal (b : Button) : At evt ⟨.button b, 0⟩ (.readVal b)
  | callActive (b : Button) : At evt ⟨.button b, 1⟩ (.callActive b)
  | pairEnable (h : evt .pair = 1) : At evt ⟨.button .pair, 2⟩ (.link (.setPairEn true))
  | pairDisable (h : evt .pair = 0) : At evt ⟨.button .pair, 2⟩ (.link (.setPairEn false))
  | submitPair (h : evt .pair = 1) : At evt ⟨.button .pair, 3⟩ (.submit .pairDCLK)
  | submitAdvertise (h : evt .pair = 0) : At evt ⟨.button .pair, 3⟩ (.submit .advertiseDCLK)
  | pairStopSleep (h : evt .pair < 2) : At evt ⟨.button .pair, 4⟩ (.clock .stopSleepTimer)
  | pairIgnore (h : 2 ≤ evt .pair) : At evt ⟨.button .pair, 2⟩ (.clock .stopSleepTimer)
  | startState (h : evt .start = 1) : At evt ⟨.button .start, 2⟩ (.clock (.setClockState 0))
  | startTimer (h : evt .start = 1) : At evt ⟨.button .start, 3⟩ (.clock .startDTimer)
  | startStopSleep (h : evt .start = 1) : At evt ⟨.button .start, 4⟩ (.clock .stopSleepTimer)
  | startRelease (h : evt .start ≠ 1) : At evt ⟨.button .start, 2⟩ (.clock .stopSleepTimer)
  | stopSave (h : evt .stop = 1) : At evt ⟨.button .stop, 2⟩ (.clock .saveRemaining)
  | stopTimer (h : evt .stop = 1) : At evt ⟨.button .stop, 3⟩ (.clock .stopDTimer)
  | stopState (h : evt .stop = 1) : At evt ⟨.button .stop, 4⟩ (.clock (.setClockState 1))
  | pairAdvStop : At evt ⟨.pairDCLK, 0⟩ (.link .advStop)
  | pairUnpair : At evt ⟨.pairDCLK, 1⟩ (.link .unpair)
  | pairAdvStart : At evt ⟨.pairDCLK, 2⟩ (.link (.advStart .noAcceptList))
  | advertiseStop : At evt ⟨.advertiseDCLK, 0⟩ (.link .advStop)
  | advertiseList : At evt ⟨.advertiseDCLK, 1⟩ (.link .setupAcceptList)
  | advertiseStart : At evt ⟨.advertiseDCLK, 2⟩ (.link .advStartIfAllowed)

theorem at_of_button {evt : Button → ℕ} {b : Button} {pc : ℕ} {st : Stmt}
    (h : (handleButtonEvent b (evt b))[pc]? = some st) : At evt ⟨.button b, pc⟩ st := by
  rcases pc with _ | _ | pc
  · obtain rfl := Option.some.inj h
    exact .readVal b
  · obtain rfl := Option.some.inj h
    exact .callActive b
  · replace h : (activeFunc b (evt b))[pc]? = some st := h
    cases b with
    | pair =>
        by_cases h1 : evt .pair = 1
        · rcases pc with _ | _ | _ | pc <;>
            simp [activeFunc, pairCb, dclkPairing, h1] at h <;> subst h
          · exact .pairEnable h1
          · exact .submitPair h1
          · exact .pairStopSleep (by omega)
        · by_cases h0 : evt .pair = 0
          · rcases pc with _ | _ | _ | pc <;>
              simp [activeFunc, pairCb, dclkPairing, h0] at h <;> subst h
            · exact .pairDisable h0
            · exact .submitAdvertise h0
            · exact .pairStopSleep (by omega)
          · rcases pc with _ | pc <;> simp [activeFunc, pairCb, h0, h1] at h
            subst h
            exact .pairIgnore (by omega)
    | user => simp [activeFunc, userCb] at h
    | start =>
        by_cases h1 : evt .start = 1
        · rcases pc with _ | _ | _ | pc <;> simp [activeFunc, startCb, h1] at h <;> subst h
          · exact .startState h1
          · exact .startTimer h1
          · exact .startStopSleep h1
        · rcases pc with _ | pc <;> simp [activeFunc, startCb, h1] at h
          subst h
          exact .startRelease h1
    | stop =>
        by_cases h1 : evt .stop = 1
        · rcases pc with _ | _ | _ | pc <;> simp [activeFunc, stopCb, h1] at h <;> subst h
          · exact .stopSave h1
          · exact .stopTimer h1
          · exact .stopState h1
        · simp [activeFunc, stopCb, h1] at h

theorem at_of_program {s : State} {f : Frame} {st : Stmt}
    (h : (s.program f.item)[f.pc]? = some st) : At (fun b => (s.btns b).evt) f st := by
  obtain ⟨item, pc⟩ := f
  cases item with
  | button b => exact at_of_button h
  | pairDCLK =>
      rcases pc with _ | _ | _ | pc <;> simp [State.program, pairDCLK] at h <;> subst h
      · exact .pairAdvStop
      · exact .pairUnpair
      · exact .pairAdvStart
  | advertiseDCLK =>
      rcases pc with _ | _ | _ | pc <;> simp [State.program, advertiseDCLK] at h <;> subst h
      · exact .advertiseStop
      · exact .advertiseList
      · exact .advertiseStart

theorem exists_at_of_next {s : State} {st : Stmt} (h : s.next = some st) :
    ∃ f, s.worker = some f ∧ At (fun b => (s.btns b).evt) f st := by
  obtain ⟨f, hf, hst⟩ := Option.bind_eq_some_iff.mp h
  exact ⟨f, hf, at_of_program hst⟩

/-- A thread is at one statement at a time. -/
theorem frame_inj {worker : Option Frame} {b c : Button} {pc k : ℕ}
    (h : worker = some ⟨.button b, pc⟩) (h' : worker = some ⟨.button c, k⟩) :
    b = c ∧ pc = k := by
  simpa using h.symm.trans h'

theorem next_stopSleepTimer {s : State} {b : Button} {pc : ℕ}
    (hw : s.worker = some ⟨.button b, pc⟩)
    (ha : At (fun b => (s.btns b).evt) ⟨.button b, pc⟩ (.clock .stopSleepTimer)) :
    s.next = some (.clock .stopSleepTimer) := by
  cases ha with
  | pairStopSleep h =>
      have h01 : (s.btns .pair).evt = 0 ∨ (s.btns .pair).evt = 1 := by omega
      rcases h01 with h0 | h1
      · simp [State.next, hw, State.program, handleButtonEvent, activeFunc, pairCb, dclkPairing, h0]
      · simp [State.next, hw, State.program, handleButtonEvent, activeFunc, pairCb, dclkPairing, h1]
  | pairIgnore h =>
      have h1 : (s.btns .pair).evt ≠ 1 := by omega
      have h0 : (s.btns .pair).evt ≠ 0 := by omega
      simp [State.next, hw, State.program, handleButtonEvent, activeFunc, pairCb, h0, h1]
  | startStopSleep h | startRelease h =>
      simp [State.next, hw, State.program, handleButtonEvent, activeFunc, startCb, h]

/-- The transitions of a controller that is not powered off. -/
inductive Step (s : State) : Event → State → Prop
  | edge (b : Button) (level : ℕ) : Step s (.edge b level) (s.buttonEventCb b level)
  | dequeue {w : Work} {q : List Work} (hw : s.worker = none) (hq : s.queue = w :: q) :
      Step s .dequeue { s with queue := q, worker := some ⟨w, 0⟩ }
  | dExpire (hd : s.clock.dTimer.Due) :
      Step s .dExpire
        { s with
          clock := ⟨2, s.clock.clockValue, .stopped, .started goSleepShort⟩
          hist := .expired :: s.hist }
  | sleepExpire (hd : s.clock.sleepTimer.Due) :
      Step s .sleepExpire
        { s with
          clock := ⟨s.clock.clockState, s.clock.clockValue, s.clock.dTimer, .stopped⟩
          off := true }
  | elapse (n : ℕ) (hd : s.clock.dTimer.Allows n) (hs : s.clock.sleepTimer.Allows n) :
      Step s (.elapse n)
        { s with
          clock := ⟨s.clock.clockState, s.clock.clockValue, s.clock.dTimer.elapse n,
            s.clock.sleepTimer.elapse n⟩
          now := s.now + n }
  | dclkInit (hw : s.worker = none) (hr : s.ready = false) :
      Step s .dclkInit { s with ready := true, queue := submit .advertiseDCLK s.queue }
  | arm (hr : s.ready = true) (ha : s.armed = false) :
      Step s .arm
        { s with
          clock := ⟨s.clock.clockState, s.clock.clockValue, s.clock.dTimer,
            .started goSleepLong⟩
          armed := true }
  | connected (peer : Addr) (kept : Bool) (hw : s.worker = none) (hp : s.link.peer = none) :
      Step s (.connected peer kept) { s with link := s.link.onConnected peer kept }
  | connectFailed (kept : Bool) (hw : s.worker = none) (hp : s.link.peer = none) :
      Step s (.connectFailed kept)
        { s with link := s.link.onConnectFailed kept, queue := submit .advertiseDCLK s.queue }
  | disconnected (hw : s.worker = none) (hp : s.link.peer ≠ none) :
      Step s .disconnected
        { s with link := s.link.onDisconnected, queue := submit .advertiseDCLK s.queue }
  | bonded {a : Addr} (hp : s.link.peer = some a) :
      Step s .bonded { s with link := s.link.bond a }
  | readVal (r : BtResults) (b : Button) (hw : s.worker = some ⟨.button b, 0⟩) :
      Step s (.stmt r)
        { s with
          btns := Function.update s.btns b ((s.btns b).readVal (samples b s.hist))
          worker := some ⟨.button b, 1⟩ }
  | callActive (r : BtResults) (b : Button) (hw : s.worker = some ⟨.button b, 1⟩)
      (ha : activeFunc b (s.btns b).evt ≠ []) :
      Step s (.stmt r)
        { s with
          worker := some ⟨.button b, 2⟩
          hist := .delivered b (s.btns b).evt (s.btns b).asOf :: s.hist }
  | callActiveEmpty (r : BtResults) (b : Button) (hw : s.worker = some ⟨.button b, 1⟩)
      (ha : activeFunc b (s.btns b).evt = []) :
      Step s (.stmt r)
        { s with
          worker := none
          hist := .handled b (s.btns b).evt s.now ::
            .delivered b (s.btns b).evt (s.btns b).asOf :: s.hist }
  | setPairEn (r : BtResults) (enable : Bool) (hw : s.worker = some ⟨.button .pair, 2⟩)
      (he : (s.btns .pair).evt = if enable then 1 else 0) :
      Step s (.stmt r)
        { s with
          link := s.link.exec r (.setPairEn enable)
          worker := some ⟨.button .pair, 3⟩ }
  | submitPair (r : BtResults) (hw : s.worker = some ⟨.button .pair, 3⟩)
      (he : (s.btns .pair).evt = 1) :
      Step s (.stmt r)
        { s with queue := submit .pairDCLK s.queue, worker := some ⟨.button .pair, 4⟩ }
  | submitAdvertise (r : BtResults) (hw : s.worker = some ⟨.button .pair, 3⟩)
      (he : (s.btns .pair).evt = 0) :
      Step s (.stmt r)
        { s with queue := submit .advertiseDCLK s.queue, worker := some ⟨.button .pair, 4⟩ }
  | stopSleep (r : BtResults) (b : Button) {pc : ℕ} (hw : s.worker = some ⟨.button b, pc⟩)
      (ha : At (fun b => (s.btns b).evt) ⟨.button b, pc⟩ (.clock .stopSleepTimer)) :
      Step s (.stmt r)
        { s with
          clock := ⟨s.clock.clockState, s.clock.clockValue, s.clock.dTimer, .stopped⟩
          worker := none
          hist := .handled b (s.btns b).evt s.now :: s.hist }
  | startState (r : BtResults) (hw : s.worker = some ⟨.button .start, 2⟩)
      (he : (s.btns .start).evt = 1) :
      Step s (.stmt r)
        { s with
          clock := ⟨0, s.clock.clockValue, s.clock.dTimer, s.clock.sleepTimer⟩
          worker := some ⟨.button .start, 3⟩ }
  | startTimer (r : BtResults) (hw : s.worker = some ⟨.button .start, 3⟩)
      (he : (s.btns .start).evt = 1) :
      Step s (.stmt r)
        { s with
          clock := ⟨s.clock.clockState, s.clock.clockValue, .started clockResetValue,
            s.clock.sleepTimer⟩
          worker := some ⟨.button .start, 4⟩
          hist := .countdown :: s.hist }
  | stopSave (r : BtResults) (hw : s.worker = some ⟨.button .stop, 2⟩)
      (he : (s.btns .stop).evt = 1) :
      Step s (.stmt r)
        { s with
          clock := ⟨s.clock.clockState, s.clock.dTimer.remaining, s.clock.dTimer,
            s.clock.sleepTimer⟩
          worker := some ⟨.button .stop, 3⟩ }
  | stopTimer (r : BtResults) (hw : s.worker = some ⟨.button .stop, 3⟩)
      (he : (s.btns .stop).evt = 1) :
      Step s (.stmt r)
        { s with
          clock := ⟨s.clock.clockState, s.clock.clockValue, .stopped, s.clock.sleepTimer⟩
          worker := some ⟨.button .stop, 4⟩
          hist := .stopped :: s.hist }
  | stopState (r : BtResults) (hw : s.worker = some ⟨.button .stop, 4⟩)
      (he : (s.btns .stop).evt = 1) :
      Step s (.stmt r)
        { s with
          clock := ⟨1, s.clock.clockValue, s.clock.dTimer, s.clock.sleepTimer⟩
          worker := none
          hist := .handled .stop (s.btns .stop).evt s.now :: s.hist }
  | pairDCLK (r : BtResults) {pc : ℕ} {st : LinkStmt} (hw : s.worker = some ⟨.pairDCLK, pc⟩)
      (ha : At (fun b => (s.btns b).evt) ⟨.pairDCLK, pc⟩ (.link st)) :
      Step s (.stmt r)
        { s with
          link := s.link.exec r st
          worker := if pc = 2 then none else some ⟨.pairDCLK, pc + 1⟩ }
  | advertiseDCLK (r : BtResults) {pc : ℕ} {st : LinkStmt}
      (hw : s.worker = some ⟨.advertiseDCLK, pc⟩)
      (ha : At (fun b => (s.btns b).evt) ⟨.advertiseDCLK, pc⟩ (.link st)) :
      Step s (.stmt r)
        { s with
          link := s.link.exec r st
          worker := if pc = 2 then none else some ⟨.advertiseDCLK, pc + 1⟩ }

theorem Step.of_eq {s t u : State} {e : Event} (h : Step s e t) (htu : u = t) : Step s e u :=
  htu ▸ h

/-- Executing a statement and going on is the transition listed for it. -/
theorem step_of_at {s : State} {f : Frame} {st : Stmt} {r : BtResults} (hw : s.worker = some f)
    (ha : At (fun b => (s.btns b).evt) f st) : Step s (.stmt r) ((s.exec r st).advance f) := by
  cases ha with
  | readVal b =>
      refine (Step.readVal r b hw).of_eq ?_
      simp [State.exec, State.advance, State.program, handleButtonEvent]
  | callActive b =>
      by_cases he : activeFunc b (s.btns b).evt = []
      · refine (Step.callActiveEmpty r b hw he).of_eq ?_
        simp [State.exec, State.advance, State.program, handleButtonEvent, he]
      · refine (Step.callActive r b hw he).of_eq ?_
        have hpos : 0 < (activeFunc b (s.btns b).evt).length := List.length_pos_iff.mpr he
        simp [State.exec, State.advance, State.program, handleButtonEvent, hpos]
  | pairEnable h =>
      refine (Step.setPairEn r true hw h).of_eq ?_
      simp [State.exec, State.advance, State.program, handleButtonEvent, activeFunc, pairCb,
        dclkPairing, h, Link.exec]
  | pairDisable h =>
      refine (Step.setPairEn r false hw h).of_eq ?_
      simp [State.exec, State.advance, State.program, handleButtonEvent, activeFunc, pairCb,
        dclkPairing, h, Link.exec]
  | submitPair h =>
      refine (Step.submitPair r hw h).of_eq ?_
      simp [State.exec, State.advance, State.program, handleButtonEvent, activeFunc, pairCb,
        dclkPairing, h]
  | submitAdvertise h =>
      refine (Step.submitAdvertise r hw h).of_eq ?_
      simp [State.exec, State.advance, State.program, handleButtonEvent, activeFunc, pairCb,
        dclkPairing, h]
  | pairStopSleep h =>
      refine (Step.stopSleep r .pair hw (.pairStopSleep h)).of_eq ?_
      have h01 : (s.btns .pair).evt = 0 ∨ (s.btns .pair).evt = 1 := by omega
      rcases h01 with h01 | h01 <;>
        simp [State.exec, State.advance, State.program, handleButtonEvent, activeFunc, pairCb,
          dclkPairing, h01, Clock.exec, noted]
  | pairIgnore h =>
      refine (Step.stopSleep r .pair hw (.pairIgnore h)).of_eq ?_
      have h1 : (s.btns .pair).evt ≠ 1 := by omega
      have h0 : (s.btns .pair).evt ≠ 0 := by omega
      simp [State.exec, State.advance, State.program, handleButtonEvent, activeFunc, pairCb,
        h0, h1, Clock.exec, noted]
  | startState h =>
      refine (Step.startState r hw h).of_eq ?_
      simp [State.exec, State.advance, State.program, handleButtonEvent, activeFunc, startCb,
        h, Clock.exec, noted]
  | startTimer h =>
      refine (Step.startTimer r hw h).of_eq ?_
      simp [State.exec, State.advance, State.program, handleButtonEvent, activeFunc, startCb,
        h, Clock.exec, noted]
  | startStopSleep h =>
      refine (Step.stopSleep r .start hw (.startStopSleep h)).of_eq ?_
      simp [State.exec, State.advance, State.program, handleButtonEvent, activeFunc, startCb,
        h, Clock.exec, noted]
  | startRelease h =>
      refine (Step.stopSleep r .start hw (.startRelease h)).of_eq ?_
      simp [State.exec, State.advance, State.program, handleButtonEvent, activeFunc, startCb,
        h, Clock.exec, noted]
  | stopSave h =>
      refine (Step.stopSave r hw h).of_eq ?_
      simp [State.exec, State.advance, State.program, handleButtonEvent, activeFunc, stopCb,
        h, Clock.exec, noted]
  | stopTimer h =>
      refine (Step.stopTimer r hw h).of_eq ?_
      simp [State.exec, State.advance, State.program, handleButtonEvent, activeFunc, stopCb,
        h, Clock.exec, noted]
  | stopState h =>
      refine (Step.stopState r hw h).of_eq ?_
      simp [State.exec, State.advance, State.program, handleButtonEvent, activeFunc, stopCb,
        h, Clock.exec, noted]
  | pairAdvStop => exact (Step.pairDCLK r hw .pairAdvStop).of_eq rfl
  | pairUnpair => exact (Step.pairDCLK r hw .pairUnpair).of_eq rfl
  | pairAdvStart => exact (Step.pairDCLK r hw .pairAdvStart).of_eq rfl
  | advertiseStop => exact (Step.advertiseDCLK r hw .advertiseStop).of_eq rfl
  | advertiseList => exact (Step.advertiseDCLK r hw .advertiseList).of_eq rfl
  | advertiseStart => exact (Step.advertiseDCLK r hw .advertiseStart).of_eq rfl

theorem not_off_of_step {s t : State} {e : Event} (h : controller.step s e = some t) :
    ¬ s.off = true := by
  intro ho
  simp [controller, ho] at h

/-- Inversion of the step function. -/
theorem step_inv {s t : State} {e : Event} (h : controller.step s e = some t) : Step s e t := by
  have ho := not_off_of_step h
  cases e with
  | edge b level =>
      simp only [controller, if_neg ho, Option.some.injEq] at h
      subst h
      exact .edge b level
  | dequeue =>
      simp only [controller, if_neg ho] at h
      split at h
      · next w q hw hq =>
          obtain rfl := Option.some.inj h
          exact .dequeue hw hq
      · cases h
  | stmt r =>
      simp only [controller, if_neg ho] at h
      split at h
      · next f st hw hn =>
          obtain rfl := Option.some.inj h
          have hp : (s.program f.item)[f.pc]? = some st := by simpa [State.next, hw] using hn
          exact step_of_at hw (at_of_program hp)
      · cases h
  | dExpire =>
      simp only [controller, if_neg ho, Option.map_eq_some_iff,
        Clock.expireDTimer_eq_some] at h
      obtain ⟨c, ⟨hd, rfl⟩, rfl⟩ := h
      exact .dExpire hd
  | sleepExpire =>
      simp only [controller, if_neg ho, Option.ite_none_right_eq_some,
        Option.some.injEq] at h
      obtain ⟨hd, rfl⟩ := h
      exact .sleepExpire hd
  | elapse n =>
      simp only [controller, if_neg ho, Option.map_eq_some_iff,
        Clock.elapse_eq_some] at h
      obtain ⟨c, ⟨⟨hd, hs⟩, rfl⟩, rfl⟩ := h
      exact .elapse n hd hs
  | dclkInit =>
      simp only [controller, if_neg ho, Option.ite_none_right_eq_some,
        Option.some.injEq] at h
      obtain ⟨⟨hw, hr⟩, rfl⟩ := h
      exact .dclkInit hw hr
  | arm =>
      simp only [controller, if_neg ho, Option.ite_none_right_eq_some,
        Option.some.injEq] at h
      obtain ⟨⟨hr, ha⟩, rfl⟩ := h
      exact .arm hr ha
  | connected peer kept =>
      simp only [controller, if_neg ho, Option.ite_none_right_eq_some,
        Option.some.injEq] at h
      obtain ⟨⟨hw, hp⟩, rfl⟩ := h
      exact .connected peer kept hw hp
  | connectFailed kept =>
      simp only [controller, if_neg ho, Option.ite_none_right_eq_some,
        Option.some.injEq] at h
      obtain ⟨⟨hw, hp⟩, rfl⟩ := h
      exact .connectFailed kept hw hp
  | disconnected =>
      simp only [controller, if_neg ho, Option.ite_none_right_eq_some,
        Option.some.injEq] at h
      obtain ⟨⟨hw, hp⟩, rfl⟩ := h
      exact .disconnected hw hp
  | bonded =>
      simp only [controller, if_neg ho, Option.map_eq_some_iff] at h
      obtain ⟨a, ha, rfl⟩ := h
      exact .bonded ha

section Positions
variable {s : State}

theorem at_of_next {b : Button} {st : Stmt} (hw : s.worker.map (·.item) = some (.button b))
    (hn : s.next = some st) :
    ∃ pc, s.worker = some ⟨.button b, pc⟩ ∧ At (fun c => (s.btns c).evt) ⟨.button b, pc⟩ st := by
  obtain ⟨⟨item, pc⟩, hf, rfl⟩ := Option.map_eq_some_iff.mp hw
  refine ⟨pc, hf, at_of_program ?_⟩
  simpa [State.next, hf] using hn

theorem inStartPress_startDTimer : s.InStartPress .startDTimer ↔
    s.worker = some ⟨.button .start, 3⟩ ∧ (s.btns .start).evt = 1 := by
  constructor
  · rintro ⟨hw, he, hn⟩
    obtain ⟨pc, hf, ha⟩ := at_of_next hw hn
    cases ha
    exact ⟨hf, he⟩
  · rintro ⟨hw, he⟩
    refine ⟨by rw [hw]; rfl, he, ?_⟩
    simp [State.next, hw, State.program, handleButtonEvent, activeFunc, startCb, he]

theorem inStartPress_stopSleepTimer : s.InStartPress .stopSleepTimer ↔
    s.worker = some ⟨.button .start, 4⟩ ∧ (s.btns .start).evt = 1 := by
  constructor
  · rintro ⟨hw, he, hn⟩
    obtain ⟨pc, hf, ha⟩ := at_of_next hw hn
    cases ha with
    | startStopSleep => exact ⟨hf, he⟩
    | startRelease h => exact absurd he h
  · rintro ⟨hw, he⟩
    refine ⟨by rw [hw]; rfl, he, ?_⟩
    simp [State.next, hw, State.program, handleButtonEvent, activeFunc, startCb, he]

end Positions
end DodgeClock
