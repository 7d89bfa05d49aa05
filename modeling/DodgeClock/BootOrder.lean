import DodgeClock.Boot

/-!
# When d_timer is initialized

dclk_app initializes d_timer in its first statement, which waits until main blocks or
ends; the buttons do not wait for it. A press of start or stop that is handled before
reaches the timer uninitialized, and a start also makes dclk_app initialize a timer that
runs. Everything is in order as long as no press is handled that early.
-/
namespace DodgeClock
open EventSystem OneShotTimer OnceQueue

/-- A call is made after k_timer_init, and k_timer_init not after k_timer_start. -/
def TimerOp.Admitted (before : List TimerOp) (op : TimerOp) : Prop :=
  if op = .init then .start ∉ before else .init ∈ before

def SafeOrder (ops : List TimerOp) : Prop := Obeys TimerOp.Admitted ops

/-- Any call but k_timer_init needs it, and nothing else. -/
theorem safeOrder_append {ops : List TimerOp} {op : Option TimerOp} (h : op ≠ some .init) :
    SafeOrder (ops ++ op.toList) ↔ SafeOrder ops ∧ (op ≠ none → .init ∈ ops) := by
  cases op with
  | none => simp
  | some op =>
      have hne : op ≠ .init := fun he => h (congrArg some he)
      simp [SafeOrder, TimerOp.Admitted, hne]

/-- handle_button_event is about to make a press of the level it finds. -/
def State.ReadsPress (s : State) (b : Button) : Prop :=
  s.worker = some ⟨.button b, 0⟩ ∧ (s.btns b).val ≠ 0

instance (s : State) (b : Button) : Decidable (s.ReadsPress b) :=
  inferInstanceAs (Decidable (_ ∧ _))

/-- A press of start or stop is handled only once dclk_app has initialized the timer. -/
def PressAfterInit (s : Boot) : BootEvent → Prop
  | .ctrl (.stmt _) =>
      s.ctrl.ReadsPress .start ∨ s.ctrl.ReadsPress .stop → s.appStarted = true
  | _ => True

instance PressAfterInit.decidable (s : Boot) : (e : BootEvent) → Decidable (PressAfterInit s e)
  | .ctrl e => match e with
      | .stmt _ => inferInstanceAs (Decidable (_ ∨ _ → _))
      | .edge _ _ | .dequeue | .dExpire | .sleepExpire | .elapse _ | .dclkInit | .arm
      | .connected _ _ | .connectFailed _ | .disconnected | .bonded => .isTrue trivial
  | .block | .main _ | .app _ => .isTrue trivial

/-- The handler of `b` has made a press of the level, and `pc` statements are executed. -/
@[mk_iff] structure State.InPress (s : State) (b : Button) (pc : ℕ) : Prop where
  worker : s.worker = some ⟨.button b, pc⟩
  read : 1 ≤ pc
  press : (s.btns b).evt = 1

section Handlers
variable {s t : State} {e : Event}

/-- A handler that calls d_timer is that of start or stop, and handles a press. -/
theorem inPress_of_timerOp {op : TimerOp} (h : s.timerOp e = some op) :
    op ≠ .init ∧ ∃ b pc, (b = .start ∨ b = .stop) ∧ s.InPress b pc := by
  cases e with
  | stmt r =>
      obtain ⟨st, hn, hop⟩ := Option.bind_eq_some_iff.mp h
      obtain ⟨f, hw, hp⟩ := Option.bind_eq_some_iff.mp hn
      cases at_of_program hp with
      | startTimer he =>
          obtain rfl := Option.some.inj hop
          exact ⟨by decide, .start, 3, .inl rfl, hw, by omega, he⟩
      | stopSave he =>
          obtain rfl := Option.some.inj hop
          exact ⟨by decide, .stop, 2, .inr rfl, hw, by omega, he⟩
      | stopTimer he =>
          obtain rfl := Option.some.inj hop
          exact ⟨by decide, .stop, 3, .inr rfl, hw, by omega, he⟩
      | _ => simp [ClockStmt.timerOp] at hop
  | _ => simp [State.timerOp] at h

theorem timerOp_ne_init : s.timerOp e ≠ some .init := fun h => (inPress_of_timerOp h).1 rfl

/-- A handler gets into a press by reading one. -/
theorem inPress_step {b : Button} {pc : ℕ} (h : Step s e t) (ht : t.InPress b pc) :
    (∃ pc, s.InPress b pc) ∨ (∃ r, e = .stmt r) ∧ s.ReadsPress b := by
  obtain ⟨hworker, hread, hpress⟩ := ht
  cases h
  case edge c level =>
    rw [State.buttonEventCb_evt] at hpress
    exact .inl ⟨pc, hworker, hread, hpress⟩
  case dequeue w q hw hq =>
    obtain ⟨-, rfl⟩ := Frame.mk.inj (Option.some.inj hworker)
    omega
  case readVal r c hw =>
    obtain ⟨rfl, -⟩ := frame_inj rfl hworker
    refine .inr ⟨⟨r, rfl⟩, hw, ?_⟩
    simpa [Btn.readVal] using hpress
  case callActive r c hw ha =>
    obtain ⟨rfl, -⟩ := frame_inj rfl hworker
    exact .inl ⟨1, hw, le_rfl, hpress⟩
  case setPairEn hw he | submitPair hw he | submitAdvertise hw he | startState hw he
      | startTimer hw he | stopSave hw he | stopTimer hw he =>
    obtain ⟨rfl, -⟩ := frame_inj rfl hworker
    exact .inl ⟨_, hw, by omega, hpress⟩
  case callActiveEmpty | stopSleep | stopState => exact absurd hworker (by simp)
  case pairDCLK | advertiseDCLK =>
    split_ifs at hworker
    simp at hworker
  all_goals exact .inl ⟨pc, hworker, hread, hpress⟩

/-- Neither start_cb nor stop_cb has been, or is to be, called for a press read. -/
def State.NoPress (s : State) : Prop := ∀ b pc, b = .start ∨ b = .stop → ¬ s.InPress b pc

theorem timerOp_of_noPress (hs : s.NoPress) : s.timerOp e = none := by
  cases hop : s.timerOp e with
  | none => rfl
  | some op =>
      obtain ⟨-, b, pc, hb, hp⟩ := inPress_of_timerOp hop
      exact absurd hp (hs b pc hb)

theorem dTimer_stopped_step (h : Step s e t) (hno : s.NoPress)
    (hs : s.clock.dTimer = .stopped) : t.clock.dTimer = .stopped := by
  cases h
  case startTimer r hw he => exact absurd ⟨hw, by omega, he⟩ (hno .start 3 (.inl rfl))
  case elapse n hd hsl => exact congrArg (Timer.elapse n) hs
  all_goals first | exact hs | rfl

/-- A press read by start or stop that has not reached the timer yet. -/
def State.Pending (s : State) : Prop :=
  (∃ pc ≤ 3, s.InPress .start pc) ∨ ∃ pc ≤ 2, s.InPress .stop pc

theorem State.Pending.busy (hs : s.Pending) : s.worker ≠ none := by
  rcases hs with ⟨pc, -, hp⟩ | ⟨pc, -, hp⟩
  all_goals simp [hp.worker]

theorem State.Pending.frame (hs : s.Pending) (hw : t.worker = s.worker)
    (he : ∀ b, (t.btns b).evt = (s.btns b).evt) : t.Pending := by
  rcases hs with ⟨pc, hle, hp⟩ | ⟨pc, hle, hp⟩
  · exact .inl ⟨pc, hle, hw.trans hp.worker, hp.read, (he .start).trans hp.press⟩
  · exact .inr ⟨pc, hle, hw.trans hp.worker, hp.read, (he .stop).trans hp.press⟩

theorem pending_of_readsPress {b : Button} {r : BtResults} (h : Step s (.stmt r) t)
    (hb : b = .start ∨ b = .stop) (hs : s.ReadsPress b) : t.Pending := by
  obtain ⟨hworker, hval⟩ := hs
  have hpress : t.InPress b 1 := by
    cases h
    case readVal c hw =>
      obtain ⟨rfl, -⟩ := frame_inj hw hworker
      exact ⟨rfl, le_rfl, by simpa [Btn.readVal] using hval⟩
    case stopSleep c pc hw ha =>
      obtain ⟨-, rfl⟩ := frame_inj hw hworker
      cases ha
    case callActive hw _ | callActiveEmpty hw _ | setPairEn hw _ | submitPair hw _
        | submitAdvertise hw _ | startState hw _ | startTimer hw _ | stopSave hw _
        | stopTimer hw _ | stopState hw _ | pairDCLK hw _ | advertiseDCLK hw _ =>
      simp [hw] at hworker
  rcases hb with rfl | rfl
  · exact .inl ⟨1, by omega, hpress⟩
  · exact .inr ⟨1, by omega, hpress⟩

/-- The press goes on to the timer, unless this step is the call. -/
theorem pending_step (h : Step s e t) (hs : s.Pending) :
    t.Pending ∨ ∃ op, s.timerOp e = some op := by
  cases h
  case edge c level => exact .inl (hs.frame rfl fun b => s.buttonEventCb_evt c b level)
  case startTimer r hw he =>
    exact .inr ⟨.start, by simp [State.timerOp, (inStartPress_startDTimer.mpr ⟨hw, he⟩).2.2,
      ClockStmt.timerOp]⟩
  case stopSave r hw he =>
    have hnext : s.next = some (.clock .saveRemaining) := by
      simp [State.next, hw, State.program, handleButtonEvent, activeFunc, stopCb, he]
    exact .inr ⟨.remaining, by simp [State.timerOp, hnext, ClockStmt.timerOp]⟩
  case callActive r c hw ha =>
    left
    rcases hs with ⟨pc, -, hp⟩ | ⟨pc, -, hp⟩
    all_goals
      obtain ⟨rfl, -⟩ := frame_inj hw hp.worker
    · exact .inl ⟨2, by omega, rfl, by omega, hp.press⟩
    · exact .inr ⟨2, by omega, rfl, by omega, hp.press⟩
  case startState r hw he => exact .inl (.inl ⟨3, by omega, rfl, by omega, he⟩)
  case callActiveEmpty r c hw ha =>
    rcases hs with ⟨pc, -, hp⟩ | ⟨pc, -, hp⟩
    all_goals
      obtain ⟨rfl, -⟩ := frame_inj hw hp.worker
      simp [activeFunc, startCb, stopCb, hp.press] at ha
  case stopSleep r c pc hw ha =>
    rcases hs with ⟨pc', hle, hp⟩ | ⟨pc', hle, hp⟩
    all_goals
      obtain ⟨rfl, rfl⟩ := frame_inj hw hp.worker
      cases ha
    · omega
    · next hrelease => exact absurd hp.press hrelease
  case dequeue hw _ | connected hw _ | connectFailed hw _ | disconnected hw _ | readVal hw
      | setPairEn hw _ | submitPair hw _ | submitAdvertise hw _ | stopTimer hw _
      | stopState hw _ | pairDCLK hw _ | advertiseDCLK hw _ =>
    simp [State.Pending, State.inPress_iff, hw] at hs
  all_goals exact .inl (hs.frame rfl fun _ => rfl)

end Handlers

section Boot
variable {s t : Boot} {e : BootEvent}

/-- Only the entry of dclk_app makes the call k_timer_init. -/
theorem calls_of_step (h : BootStep s t e) :
    s.ctrl.worker = none ∧ s.appStarted = false ∧ t.appStarted = true ∧
        t.ops = s.ops ++ [.init] ∨
      t.appStarted = s.appStarted ∧ t.ops = s.ops ++ (s.timerOp e).toList ∧
        s.timerOp e ≠ some .init := by
  cases h with
  | timerInit r hw ha hstarted hops => exact .inl ⟨hw, ha, hstarted, hops⟩
  | stutter he hops hstarted hop =>
      refine .inr ⟨hstarted, hops, ?_⟩
      rcases hop with hop | ⟨-, hop⟩
      all_goals simp [hop]
  | ctrl he hstarted hop hops =>
      refine .inr ⟨hstarted, hops, ?_⟩
      rw [hop]
      exact timerOp_ne_init

/-- Before k_timer_init nothing has happened to d_timer, nor is about to. -/
structure Orderly (s : Boot) : Prop where
  ordered : SafeOrder s.ops
  initialized : s.appStarted = true → .init ∈ s.ops
  untouched : s.appStarted = false →
    s.ops = [] ∧ s.ctrl.clock.dTimer = .stopped ∧ s.ctrl.NoPress

theorem orderly_reset (bonds acceptList : List Addr) : Orderly (.reset bonds acceptList) where
  ordered := obeys_nil
  initialized := by simp [Boot.reset]
  untouched _ := ⟨rfl, rfl, fun _ _ _ hp =>
    absurd hp.worker (by simp [Boot.reset, boot, Boot.ctrl])⟩

theorem eq_ctrl_of_event {r : BtResults} (h : s.event e = some (.stmt r)) :
    e = .ctrl (.stmt r) := by
  cases e with
  | ctrl k => exact congrArg _ (Option.some.inj h)
  | main r' =>
      obtain ⟨st, -, hst⟩ := Option.bind_eq_some_iff.mp h
      cases st <;> simp [MainStmt.event] at hst
  | block | app => simp [Boot.event] at h

theorem orderly_step (hi : Orderly s) (hc : PressAfterInit s e) (h : BootStep s t e) :
    Orderly t := by
  cases ha : s.appStarted with
  | true =>
      have hinit := hi.initialized ha
      rcases calls_of_step h with ⟨-, hearly, -⟩ | ⟨hstarted, hops, hne⟩
      · simp [ha] at hearly
      · refine ⟨?_, fun _ => by simp [hops, hinit], by simp [hstarted, ha]⟩
        rw [hops, safeOrder_append hne]
        exact ⟨hi.ordered, fun _ => hinit⟩
  | false =>
      obtain ⟨hnone, hstopped, hno⟩ := hi.untouched ha
      cases h with
      | timerInit r hw _ hstarted hops hctrl =>
          rw [hnone] at hops
          refine ⟨?_, fun _ => by simp [hops], by simp [hstarted]⟩
          rw [SafeOrder, hops, obeys_concat]
          exact ⟨obeys_nil, by simp [TimerOp.Admitted]⟩
      | stutter he hops hstarted hop hctrl =>
          have hcall : s.timerOp e = none := hop.resolve_right (by simp [ha])
          have hempty : t.ops = [] := by
            rw [hops, hcall, hnone]
            rfl
          refine ⟨hempty ▸ obeys_nil, by simp [hstarted, ha], fun _ => ⟨hempty, ?_, ?_⟩⟩
          · rw [hctrl]
            exact hstopped
          · rw [hctrl]
            exact hno
      | ctrl he hstarted hop hops hctrl =>
          have hstep := step_inv hctrl
          have hempty : t.ops = [] := by
            rw [hops, hop, hnone, timerOp_of_noPress hno]
            rfl
          refine ⟨hempty ▸ obeys_nil, by simp [hstarted, ha], fun _ => ⟨hempty, ?_, ?_⟩⟩
          · exact dTimer_stopped_step hstep hno hstopped
          · intro b pc hb hp
            rcases inPress_step hstep hp with ⟨pc', hold⟩ | ⟨⟨r, rfl⟩, hread⟩
            · exact hno b pc' hb hold
            · -- a press has just been read, so dclk_app must have run
              obtain rfl := eq_ctrl_of_event he
              have hlate : s.appStarted = true := by
                apply hc
                rcases hb with rfl | rfl
                · exact .inl hread
                · exact .inr hread
              simp [ha] at hlate

/-- What the buttons and the work queue do during such a start-up is a run of the controller,
whose timer is initialized from the beginning. -/
theorem startup_refined :
    Refines (startup.restrict PressAfterInit) controller Orderly Boot.ctrl Boot.event where
  keeps hi h := by
    obtain ⟨hc, h⟩ := Option.ite_none_right_eq_some.mp h
    exact orderly_step hi hc (bootStep_inv h)
  stutters hi h hnone := by
    obtain ⟨-, h⟩ := Option.ite_none_right_eq_some.mp h
    cases bootStep_inv h with
    | timerInit r hw ha hstarted hops hctrl =>
        obtain ⟨-, hstopped, -⟩ := hi.untouched ha
        rw [hctrl, ← hstopped]
    | stutter he hops hstarted hop hctrl => exact hctrl
    | ctrl he => simp [he] at hnone
  steps hi h hk := by
    obtain ⟨-, h⟩ := Option.ite_none_right_eq_some.mp h
    cases bootStep_inv h with
    | timerInit r => cases hk
    | stutter he => simp [he] at hk
    | ctrl he hstarted hop hops hctrl =>
        obtain rfl := Option.some.inj (he.symm.trans hk)
        exact hctrl

theorem controller_run_of_startup {bonds acceptList : List Addr} {es : List BootEvent}
    (hrun : startup.run (.reset bonds acceptList) es = some s)
    (hc : startup.Meets PressAfterInit (.reset bonds acceptList) es) :
    ∃ events, controller.run (boot bonds acceptList) events = some s.ctrl :=
  ⟨_, startup_refined.run (orderly_reset bonds acceptList) (Machine.run_restrict hrun hc)⟩

theorem init_not_mem_step (hi : s.appStarted = false → .init ∉ s.ops) (h : BootStep s t e) :
    t.appStarted = false → .init ∉ t.ops := by
  intro ha
  rcases calls_of_step h with ⟨-, -, hstarted, -⟩ | ⟨hstarted, hops, hne⟩
  · simp [ha] at hstarted
  · have hnot := hi (hstarted.symm.trans ha)
    simpa [hops, hnot] using hne

theorem init_not_mem_of_run {bonds acceptList : List Addr} {es : List BootEvent}
    (hrun : startup.run (.reset bonds acceptList) es = some s) :
    s.appStarted = false → .init ∉ s.ops :=
  Machine.run_invariant' (I := fun s => s.appStarted = false → .init ∉ s.ops)
    (fun _ _ _ hi h => init_not_mem_step hi (bootStep_inv h)) hrun (by simp [Boot.reset])

theorem pending_or_call (h : BootStep s t e) (hp : s.ctrl.Pending) :
    t.ctrl.Pending ∨ s.timerOp e ≠ none := by
  cases h with
  | timerInit r hw => exact absurd hw hp.busy
  | stutter he hops hstarted hop hctrl =>
      left
      rw [hctrl]
      exact hp
  | ctrl he hstarted hop hops hctrl =>
      rcases pending_step (step_inv hctrl) hp with hp | ⟨op, hcall⟩
      · exact .inl hp
      · right
        simp [hop, hcall]

/-- The order is broken, or it will be once the handler of the press is through. -/
def Spoiled (s : Boot) : Prop :=
  ¬ SafeOrder s.ops ∨ s.appStarted = false ∧ .init ∉ s.ops ∧ s.ctrl.Pending

theorem spoiled_step (hs : Spoiled s) (h : BootStep s t e) : Spoiled t := by
  have hcalls := calls_of_step h
  rcases hs with hs | ⟨ha, hinit, hp⟩
  · left
    intro hsafe
    apply hs
    rcases hcalls with ⟨-, -, -, hops⟩ | ⟨-, hops, -⟩
    all_goals
      rw [hops] at hsafe
      exact Obeys.of_append hsafe
  · rcases hcalls with ⟨hw, -⟩ | ⟨hstarted, hops, hne⟩
    · -- dclk_app does not run while a handler does
      exact absurd hw hp.busy
    · rcases pending_or_call h hp with hp | hcall
      · have hearly := hstarted.trans ha
        exact .inr ⟨hearly, init_not_mem_step (fun _ => hinit) h hearly, hp⟩
      · left
        rw [hops, safeOrder_append hne]
        exact fun hsafe => hinit (hsafe.2 hcall)

/-- A press read too early spoils the order. -/
theorem spoiled_of_not_pressAfterInit (hinit : s.appStarted = false → .init ∉ s.ops)
    (hc : ¬ PressAfterInit s e) (h : BootStep s t e) : Spoiled t := by
  obtain ⟨r, rfl⟩ : ∃ r, e = .ctrl (.stmt r) := by
    by_contra hne
    apply hc
    cases e with
    | ctrl k =>
        cases k with
        | stmt r => exact absurd ⟨r, rfl⟩ hne
        | _ => trivial
    | _ => trivial
  obtain ⟨hread, hearly⟩ := Classical.not_imp.mp hc
  have hnot := init_not_mem_step hinit h
  cases h with
  | stutter he => cases he
  | ctrl he hstarted hop hops hctrl =>
      obtain rfl := Option.some.inj he
      have ha : t.appStarted = false := by simpa [hstarted] using hearly
      refine .inr ⟨ha, hnot ha, ?_⟩
      rcases hread with hread | hread
      · exact pending_of_readsPress (step_inv hctrl) (.inl rfl) hread
      · exact pending_of_readsPress (step_inv hctrl) (.inr rfl) hread

end Boot

/-- In every run in which dclk_app has initialized the timer whenever a press of start or
stop is handled, the calls on d_timer are in order. A run that leaves no handler half done
and has them in order is such a run. -/
theorem safeOrder_of_run (bonds acceptList : List Addr) (es : List BootEvent) (s : Boot)
    (hrun : startup.run (.reset bonds acceptList) es = some s) :
    (startup.Meets PressAfterInit (.reset bonds acceptList) es → SafeOrder s.ops) ∧
      (s.ctrl.worker = none → SafeOrder s.ops →
        startup.Meets PressAfterInit (.reset bonds acceptList) es) := by
  refine ⟨fun hc => ?_, fun hidle hsafe => ?_⟩
  · have hinv := Machine.run_invariant
      (fun _ _ _ hi hc h => orderly_step hi hc (bootStep_inv h)) hrun hc
      (orderly_reset bonds acceptList)
    exact hinv.ordered
  · by_contra hc
    obtain ⟨before, e, after, m, n, rfl, hm, he, hn, hend⟩ :=
      Machine.exists_of_not_meets hrun hc
    have hspoiled : Spoiled n :=
      spoiled_of_not_pressAfterInit (init_not_mem_of_run hm) he (bootStep_inv hn)
    have hend : Spoiled s := Machine.run_invariant' (I := Spoiled)
      (fun _ _ _ hi h => spoiled_step hi (bootStep_inv h)) hend hspoiled
    rcases hend with hbad | ⟨-, -, hp⟩
    · exact hbad hsafe
    · exact hp.busy hidle

/-- `n` statements of main, all calls succeeding. -/
def mainStmts (n : ℕ) : List BootEvent := List.replicate n (.main .success)

/-- main waits for the display, and dclk_app runs for the first time. -/
def firstApp : List BootEvent := [.block, .app .success]

/-- start is pressed when start-up is over. -/
def lateStart : List BootEvent :=
  mainStmts 25 ++ firstApp ++ mainStmts 3 ++ (work 3).map .ctrl ++ mainStmts 2 ++
    (wholeEvent .start 1 5).map .ctrl

theorem safeOrder_lateStart :
    ∃ s, startup.run (.reset [] []) lateStart = some s ∧ SafeOrder s.ops :=
  ⟨_, rfl, (safeOrder_of_run [] [] lateStart _ rfl).1 (by decide)⟩

/-- start is pressed when it has just become live. -/
def earlyStart : List BootEvent :=
  mainStmts 18 ++ (wholeEvent .start 1 5).map .ctrl ++ mainStmts 7 ++ firstApp

/-- The timer is started, and initialized while it runs. -/
theorem not_safeOrder : ¬ ∀ (bonds acceptList : List Addr) (es : List BootEvent) (s : Boot),
    startup.run (.reset bonds acceptList) es = some s → SafeOrder s.ops := by
  intro h
  have hsafe := h [] [] earlyStart _ rfl
  have hstart : TimerOp.Admitted [] .start := hsafe [] .start [.init] rfl
  simp [TimerOp.Admitted] at hstart

end DodgeClock
