import DodgeClock.RemoteCountdown

/-!
# A standing clock at the display

While d_timer is stopped and neither start_cb nor stop_cb is called for a press, whatever
else happens leaves the clock as it is: dclk_app reads the same values again and again,
and what reaches the display is the clock of the controller.
-/
namespace DodgeClock
open EventSystem OneShotTimer

/-- No press of start or stop is read. -/
def Untouched (s : State) (e : Event) : Prop :=
  e.ForStmt fun _ => ¬ s.ReadsPress .start ∧ ¬ s.ReadsPress .stop

instance (s : State) (e : Event) : Decidable (Untouched s e) :=
  inferInstanceAs (Decidable (Event.ForStmt _ e))

/-- The clock stands still: d_timer is stopped, and no press is being handled. -/
structure Standstill (s : State) : Prop where
  stopped : s.clock.dTimer = .stopped
  noPress : s.NoPress

/-- The delivery is the clock or its state. -/
def Delivery.Tells (k : Tick) (d : Delivery) : Prop :=
  d = .clock (UInt32.ofNat k.dClock) ∨ d = .state (UInt8.ofNat k.dState)

/-- No press of start or stop is read on the controller. -/
def UntouchedNet (s : Net) : NetEvent → Prop
  | .console (.ctrl e) => Untouched s.console.ctrl e
  | _ => True

instance UntouchedNet.decidable (s : Net) : (e : NetEvent) → Decidable (UntouchedNet s e)
  | .console (.ctrl e) => inferInstanceAs (Decidable (Untouched s.console.ctrl e))
  | .console (.app _) | .notifyClock _ | .notifyState _ | .cfgChanged _ _ | .display _
  | .deliver _ | .lost _ => .isTrue trivial

section Controller
variable {s t : State} {e : Event}

theorem noPress_of_idle (h : s.worker = none) : s.NoPress := fun b pc _ hpress => by
  simp [hpress.worker] at h

theorem noPress_step (hi : s.NoPress) (hc : Untouched s e) (h : Step s e t) : t.NoPress := by
  intro b pc hb hpress
  rcases inPress_step h hpress with ⟨pc, hold⟩ | ⟨⟨r, rfl⟩, hread⟩
  · exact hi b pc hb hold
  · obtain ⟨hstart, hstop⟩ := hc
    rcases hb with rfl | rfl
    · exact hstart hread
    · exact hstop hread

theorem standstill_step (hi : Standstill s) (hc : Untouched s e) (h : Step s e t) :
    Standstill t ∧ dclkApp t.clock = dclkApp s.clock := by
  obtain ⟨hstopped, hno⟩ := hi
  refine ⟨⟨dTimer_stopped_step h hno hstopped, noPress_step hno hc h⟩, ?_⟩
  cases h
  case dExpire hd =>
    have hrun := hd.running
    rw [hstopped] at hrun
    exact absurd hrun Timer.not_running_stopped
  case elapse n hd hs => simp [dclkApp, readClock, hstopped]
  case startState r hw he => exact absurd ⟨hw, by omega, he⟩ (hno .start 2 (.inl rfl))
  case startTimer r hw he => exact absurd ⟨hw, by omega, he⟩ (hno .start 3 (.inl rfl))
  case stopSave r hw he => exact absurd ⟨hw, by omega, he⟩ (hno .stop 2 (.inr rfl))
  case stopTimer r hw he => exact absurd ⟨hw, by omega, he⟩ (hno .stop 3 (.inr rfl))
  case stopState r hw he => exact absurd ⟨hw, by omega, he⟩ (hno .stop 4 (.inr rfl))
  all_goals rfl

end Controller

/-- What dclk_app holds between reading and telling is `k`. -/
def Net.HoldsTick (k : Tick) (s : Net) : Prop :=
  s.BetweenTicks ∨ s.console.app.tick.dState = k.dState ∧
    (s.console.app.pc = .readClock ∨ s.console.app.tick.dClock = k.dClock)

section HoldsTick
variable {k : Tick} {s t : Net} {e : NetEvent}

/-- What dclk_app reads is the clock as it is. -/
theorem Net.HoldsTick.exec (hi : s.HoldsTick k) (hk : dclkApp s.console.ctrl.clock = k)
    (r : DrawResults) : { s with console := s.console.exec r }.HoldsTick k := by
  subst hk
  cases hpc : s.console.app.pc
  case readState => exact .inr ⟨by simp [Console.exec, hpc, dclkApp],
    .inl (by simp [Console.exec, hpc])⟩
  case readClock =>
    obtain ⟨hstate, -⟩ := hi.resolve_left (by simp [Net.BetweenTicks, hpc])
    right
    simp [Console.exec, hpc, hstate, dclkApp]
  case notify | update | sleep =>
    left
    simp [Net.BetweenTicks, Console.exec, hpc]
  all_goals
    right
    simpa [Net.HoldsTick, Net.BetweenTicks, Console.exec, hpc] using hi

theorem Net.HoldsTick.frame (hi : s.HoldsTick k) (hconsole : t.console = s.console) :
    t.HoldsTick k := by
  rw [Net.HoldsTick, Net.BetweenTicks, hconsole]
  exact hi

/-- What dclk_app notifies is what it holds. -/
theorem Net.HoldsTick.tells {d : Delivery} (hi : s.HoldsTick k) (h : network.step s e = some t)
    (hd : told s e = some d) : d.Tells k := by
  cases e with
  | notifyClock err | notifyState err =>
      simp only [network, Option.ite_none_right_eq_some] at h
      obtain ⟨-, hpc, -⟩ := h.1
      obtain rfl := Option.some.inj hd
      obtain ⟨hstate, hclock⟩ := hi.resolve_left (by simp [Net.BetweenTicks, hpc])
      have hclock := hclock.resolve_left (by simp [hpc])
      simp [Delivery.Tells, Send.delivery, App.clockSend, App.stateSend, hstate, hclock]
  | console e | cfgChanged chrc value | display e | deliver beyond | lost keep => cases hd

end HoldsTick

/-- What is known of both sides while the clock stands at `k`. -/
structure StandsAt (k : Tick) (s : Net) : Prop where
  still : Standstill s.console.ctrl
  reading : dclkApp s.console.ctrl.clock = k
  fresh : s.HoldsTick k

section StandsAt
variable {k : Tick} {s t : Net} {e : NetEvent}

/-- dclk_app goes on, and whatever it reads is the standing clock. -/
theorem StandsAt.exec (hi : StandsAt k s) (r : DrawResults) (readAt : ℕ) :
    StandsAt k { s with console := s.console.exec r, readAt := readAt } := by
  have hfresh := hi.fresh.exec hi.reading r
  refine ⟨?_, ?_, hfresh.frame rfl⟩
  · rw [Console.exec_ctrl]
    exact hi.still
  · rw [Console.exec_ctrl]
    exact hi.reading

theorem StandsAt.frame (hi : StandsAt k s) (hconsole : t.console = s.console) :
    StandsAt k t := by
  refine ⟨?_, ?_, hi.fresh.frame hconsole⟩
  · rw [hconsole]
    exact hi.still
  · rw [hconsole]
    exact hi.reading

theorem standsAt_step (hi : StandsAt k s) (hc : UntouchedNet s e)
    (h : network.step s e = some t) : StandsAt k t := by
  cases e with
  | console e =>
      simp only [network, Option.ite_none_left_eq_some, Option.map_eq_some_iff] at h
      obtain ⟨-, c, hstep, rfl⟩ := h
      cases e with
      | ctrl e =>
          simp only [console, Option.map_eq_some_iff] at hstep
          obtain ⟨m, hm, rfl⟩ := hstep
          obtain ⟨hstill, hsame⟩ := standstill_step hi.still hc (step_inv hm)
          exact ⟨hstill, hsame.trans hi.reading, hi.fresh⟩
      | app r =>
          simp only [console, Option.ite_none_left_eq_some, Option.some.injEq] at hstep
          obtain ⟨-, rfl⟩ := hstep
          exact hi.exec r _
  | notifyClock err =>
      simp only [network, Option.ite_none_right_eq_some, Option.some.injEq] at h
      obtain ⟨-, rfl⟩ := h
      exact hi.frame (by simp)
  | notifyState err =>
      simp only [network, Option.ite_none_right_eq_some, Option.some.injEq] at h
      obtain ⟨-, rfl⟩ := h
      exact (hi.exec .success s.readAt).frame rfl
  | cfgChanged chrc value =>
      obtain rfl := Option.some.inj h
      exact hi.frame rfl
  | display e =>
      obtain ⟨-, d, -, rfl⟩ := network_step_display h
      exact hi.frame rfl
  | deliver beyond =>
      obtain ⟨n, rest, -, rfl⟩ := network_step_deliver h
      exact hi.frame rfl
  | lost keep =>
      obtain rfl := Option.some.inj h
      exact hi.frame rfl

end StandsAt

/-- As long as d_timer is stopped and no press of start or stop is read, over a connection
that lasts and with nothing left on the air, every notification reaches the display and
each is the clock, or the state, that the controller has at the end. -/
theorem tells_of_standstill (bonds acceptList : List Addr) (base : ℕ) (scanning : Bool)
    (before after : List NetEvent) (s t : Net)
    (hbefore : network.run (.boot bonds acceptList base scanning) before = some s)
    (hstill : Standstill s.console.ctrl) (hbetween : s.BetweenTicks)
    (hafter : network.run s after = some t) (huntouched : network.Meets UntouchedNet s after)
    (hcarries : network.Meets Carries s after) (hs : s.air = []) (ht : t.air = []) :
    t.got = s.got ++ network.outputs told s after ∧
      ∀ d ∈ network.outputs told s after, d.Tells (dclkApp t.console.ctrl.clock) := by
  have hstart : StandsAt (dclkApp s.console.ctrl.clock) s := ⟨hstill, rfl, .inl hbetween⟩
  have hend : StandsAt (dclkApp s.console.ctrl.clock) t :=
    Machine.run_invariant (fun _ _ _ hi hc h => standsAt_step hi hc h) hafter huntouched hstart
  have hgot := got_append_air (aimed_of_run hbefore) hafter hcarries
  rw [hend.reading]
  refine ⟨by simpa [hs, ht] using hgot, ?_⟩
  exact Machine.forall_mem_outputs_of_step (fun _ _ _ hi hc h => standsAt_step hi hc h)
    (fun _ _ _ _ hi h hd => hi.fresh.tells h hd) hafter huntouched hstart

/-- The countdown is stopped four seconds after its start. -/
def untilRemotePause : List NetEvent :=
  untilRemoteStart ++ (stmts 2).map (fun e => .console (.ctrl e)) ++ iterationAfter 0 ++
    (Event.elapse 4000 :: wholeEvent .stop 1 5).map fun e => .console (.ctrl e)

/-- stop is released between two iterations. -/
def pausedNet : List NetEvent :=
  iterationAfter 500 ++ (wholeEvent .stop 0 2).map (fun e => .console (.ctrl e)) ++
    iterationAfter 3000

theorem tells_pausedNet : ∃ s t, network.run (.boot [] [] 16 true) untilRemotePause = some s ∧
    network.run s pausedNet = some t ∧ dclkApp t.console.ctrl.clock = ⟨6, 1⟩ ∧
      t.got = s.got ++ network.outputs told s pausedNet ∧
        ∀ d ∈ network.outputs told s pausedNet, d.Tells (dclkApp t.console.ctrl.clock) :=
  ⟨_, _, rfl, rfl, by decide +kernel, tells_of_standstill [] [] 16 true untilRemotePause pausedNet
    _ _ rfl ⟨by decide +kernel, noPress_of_idle rfl⟩ (by decide +kernel) rfl (by decide +kernel)
    (by decide +kernel) rfl rfl⟩

end DodgeClock
