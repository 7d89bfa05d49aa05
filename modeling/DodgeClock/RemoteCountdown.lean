import DodgeClock.CountdownShown
import DodgeClock.NetworkChannel

/-!
# The countdown at the display

The numbers that reach the clock callback of a display are those dclk_app has read, and
during a countdown these follow from the time they were read at. Over an uninterrupted
countdown and a connection that lasts, the display therefore counts from 10 to 0 and
skips nothing, although both sides and the radio go their own pace.
-/
namespace DodgeClock
open EventSystem OneShotTimer SampledCountdown

/-- A clock that is notified, with the time it was read at. -/
def sentTick (s : Net) : NetEvent → Option Shown
  | .notifyClock _ => some ⟨s.readAt, s.console.app.tick.dClock⟩
  | _ => none

/-- dclk_app has shown what it read, or has read nothing yet. -/
def Net.BetweenTicks (s : Net) : Prop :=
  s.console.app.pc = .readState ∨ s.console.app.pc = .update ∨ s.console.app.pc = .sleep

instance (s : Net) : Decidable s.BetweenTicks := inferInstanceAs (Decidable (_ ∨ _))

/-- The countdown is not interrupted on the controller. -/
def QuietNet (s : Net) : NetEvent → Prop
  | .console (.ctrl e) => Uninterrupted s.console.ctrl (.ctrl e)
  | _ => True

instance QuietNet.decidable (s : Net) : (e : NetEvent) → Decidable (QuietNet s e)
  | .console (.ctrl e) => inferInstanceAs (Decidable (Uninterrupted s.console.ctrl (.ctrl e)))
  | .console (.app _) | .notifyClock _ | .notifyState _ | .cfgChanged _ _ | .display _
  | .deliver _ | .lost _ => .isTrue trivial

section Controller
variable {p : ℕ} {s t : State} {e : Event}

/-- The value saved by stop_cb is the only new one clock_value gets. -/
theorem clockValue_step (h : Step s e t) : t.clock.clockValue = s.clock.clockValue ∨
    t.clock.clockValue = s.clock.dTimer.remaining := by
  cases h
  case stopSave r hw he => exact .inr rfl
  all_goals exact .inl rfl

theorem CountsFrom.remaining (hi : CountsFrom p s) :
    s.clock.dTimer.remaining = clockResetValue - (s.now - p) := by
  have hpast := hi.past
  by_cases hrun : s.clock.dTimer.Running
  · have htime := (hi.counting hrun).1
    omega
  · have hended := hi.ended hrun
    rw [Timer.remaining_eq_zero hrun]
    omega

/-- A paused clock has run out, and stays at zero. -/
def RunOut (p : ℕ) (s : State) : Prop := s.clock.clockValue = 0 ∧ p + clockResetValue ≤ s.now

theorem CountsFrom.runOut (hi : CountsFrom p s) (h : s.clock.clockState = 1) : RunOut p s :=
  ⟨hi.paused h, hi.ended fun hrun => (hi.counting hrun).2 h⟩

theorem RunOut.step (hi : CountsFrom p s) (hr : RunOut p s) (h : Step s e t) : RunOut p t := by
  obtain ⟨hzero, hpast⟩ := hr
  refine ⟨?_, hpast.trans (now_le_step h)⟩
  rcases clockValue_step h with hsame | hsaved
  · rw [hsame, hzero]
  · rw [hsaved, hi.remaining]
    omega

/-- What dclk_app reads, however long ago it has read clock_state. -/
theorem CountsFrom.readClock {dState : ℕ} (hi : CountsFrom p s) (h : dState = 1 → RunOut p s) :
    DodgeClock.readClock dState s.clock = unitsLeft 1000 clockResetValue (s.now - p) := by
  rw [readClock_eq, unitsLeft, Nat.ceilDiv_eq_add_pred_div, ← hi.remaining]
  split_ifs with h1
  · obtain ⟨hzero, hpast⟩ := h h1
    have hleft := hi.remaining
    rw [hzero, hleft]
    have hnone : clockResetValue - (s.now - p) = 0 := by omega
    rw [hnone]
  · rfl

end Controller

/-- What is known of both sides during a countdown that has begun at `p`. -/
structure Ticking (p : ℕ) (s : Net) : Prop where
  counts : CountsFrom p s.console.ctrl
  paused : s.console.app.pc = .readClock → s.console.app.tick.dState = 1 →
    RunOut p s.console.ctrl
  fresh : s.BetweenTicks ∨ s.console.app.pc = .readClock ∨
    s.console.app.tick.dClock = unitsLeft 1000 clockResetValue (s.readAt - p)

section Ticking
variable {p : ℕ} {s t : Net} {e : NetEvent} {es : List NetEvent}

/-- dclk_app goes on: a value it holds after reading is the one of the time of reading. -/
theorem Ticking.exec (hi : Ticking p s) (r : DrawResults) :
    Ticking p { s with
      console := s.console.exec r
      readAt := if s.console.Executes .readClock (.app r) then s.console.ctrl.now
        else s.readAt } := by
  obtain ⟨hcounts, hpaused, hfresh⟩ := hi
  have hctrl : (s.console.exec r).ctrl = s.console.ctrl := Console.exec_ctrl r s.console
  refine ⟨by rwa [hctrl], ?_, ?_⟩
  · rw [hctrl]
    cases hpc : s.console.app.pc <;> simp only [Console.exec, hpc] <;> intro h
    case readState => exact hcounts.runOut
    all_goals cases h
  · cases hpc : s.console.app.pc
    case readState => exact .inr (.inl (by simp [Console.exec, hpc]))
    case readClock =>
      right; right
      have hread := hcounts.readClock (hpaused hpc)
      simp [Console.exec, hpc, Console.Executes, hread]
    case notify | update | sleep =>
      left
      simp [Net.BetweenTicks, Console.exec, hpc]
    all_goals
      right; right
      simpa [Net.BetweenTicks, Console.exec, hpc, Console.Executes] using hfresh

theorem Ticking.frame (hi : Ticking p s) (hconsole : t.console = s.console)
    (hread : t.readAt = s.readAt) : Ticking p t := by
  obtain ⟨hcounts, hpaused, hfresh⟩ := hi
  refine ⟨by rwa [hconsole], by rwa [hconsole], ?_⟩
  rw [Net.BetweenTicks, hconsole, hread]
  exact hfresh

@[simp] theorem Net.notify_readAt (err : ℤ) (m : Send) (s : Net) :
    (s.notify err m).readAt = s.readAt := by
  rw [Net.notify_eq]
  split_ifs <;> rfl

theorem ticking_step (hi : Ticking p s) (hc : QuietNet s e) (h : network.step s e = some t) :
    Ticking p t := by
  cases e with
  | console e =>
      simp only [network, Option.ite_none_left_eq_some, Option.map_eq_some_iff] at h
      obtain ⟨-, c, hstep, rfl⟩ := h
      cases e with
      | ctrl k =>
          simp only [console, Option.map_eq_some_iff] at hstep
          obtain ⟨m, hm, rfl⟩ := hstep
          have hk := step_inv hm
          refine ⟨countsFrom_step hi.counts hc hk, fun hpc h1 => ?_, ?_⟩
          · exact (hi.paused hpc h1).step hi.counts hk
          · rw [if_neg (by exact id)]
            exact hi.fresh
      | app r =>
          simp only [console, Option.ite_none_left_eq_some, Option.some.injEq] at hstep
          obtain ⟨-, rfl⟩ := hstep
          exact hi.exec r
  | notifyClock err =>
      simp only [network, Option.ite_none_right_eq_some, Option.some.injEq] at h
      obtain ⟨-, rfl⟩ := h
      exact hi.frame (by simp) (by simp)
  | notifyState err =>
      simp only [network, Option.ite_none_right_eq_some, Option.some.injEq] at h
      obtain ⟨⟨-, hpc, -⟩, rfl⟩ := h
      have hnext := hi.exec .success
      refine hnext.frame rfl ?_
      simp [Console.Executes, hpc]
  | cfgChanged chrc value =>
      obtain rfl := Option.some.inj h
      exact hi.frame rfl rfl
  | display e =>
      obtain ⟨-, d, -, rfl⟩ := network_step_display h
      exact hi.frame rfl rfl
  | deliver beyond =>
      obtain ⟨n, rest, -, rfl⟩ := network_step_deliver h
      exact hi.frame rfl rfl
  | lost keep =>
      obtain rfl := Option.some.inj h
      exact hi.frame rfl rfl

/-- Every clock notified during the countdown is the one of the time it was read at. -/
theorem sentTick_of_run (hi : Ticking p s) (hrun : network.run s es = some t)
    (hc : network.Meets QuietNet s es) :
    ∀ x ∈ network.outputs sentTick s es,
      x.dClock = unitsLeft 1000 clockResetValue (x.time - p) := by
  refine Machine.forall_mem_outputs_of_step (fun _ _ _ hi hc h => ticking_step hi hc h) ?_
    hrun hc hi
  intro s e t x hi h hx
  cases e with
  | notifyClock err =>
      simp only [network, Option.ite_none_right_eq_some] at h
      obtain ⟨-, hpc, -⟩ := h.1
      obtain rfl := Option.some.inj hx
      simpa [Net.BetweenTicks, hpc] using hi.fresh
  | console e | notifyState err | cfgChanged chrc value | display e | deliver beyond
  | lost keep => cases hx

/-- d_clock is read again and again, and never in the future. -/
theorem readAt_step (hle : s.readAt ≤ s.console.ctrl.now) (h : network.step s e = some t) :
    s.readAt ≤ t.readAt ∧ t.readAt ≤ t.console.ctrl.now := by
  cases e with
  | console e =>
      simp only [network, Option.ite_none_left_eq_some, Option.map_eq_some_iff] at h
      obtain ⟨-, c, hstep, rfl⟩ := h
      cases e with
      | ctrl k =>
          simp only [console, Option.map_eq_some_iff] at hstep
          obtain ⟨m, hm, rfl⟩ := hstep
          rw [if_neg (by exact id)]
          exact ⟨le_rfl, hle.trans (now_le_step (step_inv hm))⟩
      | app r =>
          simp only [console, Option.ite_none_left_eq_some, Option.some.injEq] at hstep
          obtain ⟨-, rfl⟩ := hstep
          simp only [Console.exec_ctrl]
          split_ifs
          · exact ⟨hle, le_rfl⟩
          · exact ⟨le_rfl, hle⟩
  | notifyClock err | notifyState err =>
      simp only [network, Option.ite_none_right_eq_some, Option.some.injEq] at h
      obtain ⟨-, rfl⟩ := h
      simpa using hle
  | cfgChanged chrc value =>
      obtain rfl := Option.some.inj h
      exact ⟨le_rfl, hle⟩
  | display e =>
      obtain ⟨-, d, -, rfl⟩ := network_step_display h
      exact ⟨le_rfl, hle⟩
  | deliver beyond =>
      obtain ⟨n, rest, -, rfl⟩ := network_step_deliver h
      exact ⟨le_rfl, hle⟩
  | lost keep =>
      obtain rfl := Option.some.inj h
      exact ⟨le_rfl, hle⟩

theorem readAt_le_of_run (hrun : network.run s es = some t)
    (hle : s.readAt ≤ s.console.ctrl.now) : t.readAt ≤ t.console.ctrl.now :=
  Machine.run_invariant' (I := fun s => s.readAt ≤ s.console.ctrl.now)
    (fun _ _ _ hi h => (readAt_step hi h).2) hrun hle

/-- Ticks reported with the time they were read at come in the order of their times. -/
theorem times_of_ticks {tick : Net → NetEvent → Option Shown}
    (htick : ∀ s e x, tick s e = some x → x.time = s.readAt)
    (hrun : network.run s es = some t) (hle : s.readAt ≤ s.console.ctrl.now) :
    (s.readAt :: (network.outputs tick s es).map (·.time)).IsChain (· ≤ ·) := by
  induction es generalizing s with
  | nil => simp [Machine.outputs]
  | cons e es ih =>
      obtain ⟨m, hm, hrest⟩ := network.run_cons_eq_some.mp hrun
      obtain ⟨hread, hnow⟩ := readAt_step hle hm
      have hsorted : (s.readAt :: (network.outputs tick m es).map (·.time)).IsChain (· ≤ ·) :=
        (ih hrest hnow).cons_of_imp fun _ h => hread.trans h
      rw [Machine.outputs_cons hm]
      cases hx : tick s e with
      | none => exact hsorted
      | some x => simpa [htick s e x hx] using hsorted

theorem sentTick_time {x : Shown} (h : sentTick s e = some x) : x.time = s.readAt := by
  cases e <;> simp [sentTick] at h
  rw [← h]

/-- The clocks told are the ticks notified. -/
theorem told_clock (s : Net) (es : List NetEvent) :
    (network.outputs told s es).filterMap Delivery.clock? =
      (network.outputs sentTick s es).map fun x => UInt32.ofNat x.dClock := by
  rw [← List.filterMap_eq_map, Machine.outputs_filterMap, Machine.outputs_filterMap]
  refine Machine.outputs_congr (Machine.Meets.of_forall (fun s e => ?_) s es)
  cases e <;> rfl

end Ticking

theorem network_step_ctrl {s t : Net} {e : Event}
    (h : network.step s (.console (.ctrl e)) = some t) :
    ∃ c, Step s.console.ctrl e c ∧ t = { s with console := { s.console with ctrl := c } } := by
  simp only [network, Option.ite_none_left_eq_some, Option.map_eq_some_iff, console] at h
  obtain ⟨-, d, ⟨c, hc, rfl⟩, rfl⟩ := h
  exact ⟨c, step_inv hc, rfl⟩

/-- A countdown begins while dclk_app is between two ticks. -/
theorem ticking_start {bonds acceptList : List Addr} {base : ℕ} {scanning : Bool}
    {before : List NetEvent} {s : Net} {r : BtResults} {c : State}
    (hbefore : network.run (.boot bonds acceptList base scanning) before = some s)
    (hpress : s.console.ctrl.InStartPress .startDTimer) (hbetween : s.BetweenTicks)
    (hc : Step s.console.ctrl (.stmt r) c) :
    Ticking s.console.ctrl.now { s with console := { s.console with ctrl := c } } := by
  have hbounded : Bounded bonds acceptList s :=
    Machine.run_invariant' (fun _ _ _ hi h => bounded_step hi h) hbefore
      (bounded_boot base scanning)
  obtain ⟨es, hreach⟩ := hbounded.reach
  refine ⟨countsFrom_start (clockSound_of_run hreach) hpress hc, fun hpc => ?_, .inl hbetween⟩
  rcases hbetween with h | h | h <;> exact absurd (h.symm.trans hpc) (by simp)

/-- Ticks read at most 999 ms apart, from before the start on and beyond the expiry, count
down. -/
theorem countsDown_of_ticks {p last : ℕ} {ticks : List Shown} (hlast : last ≤ p)
    (hshown : ∀ x ∈ ticks, x.dClock = unitsLeft 1000 clockResetValue (x.time - p))
    (hsorted : (last :: ticks.map (·.time)).IsChain (· ≤ ·))
    (hapart : (last :: ticks.map (·.time)).IsChain fun a b => b ≤ a + 999)
    (hpast : ∃ x ∈ ticks, p + clockResetValue ≤ x.time) :
    CountsDown 10 (ticks.map (·.dClock)) := by
  have hunit : 0 < 1000 := by decide
  have hnumbers : ticks.map (·.dClock) =
      ((ticks.map (·.time)).map (· - p)).map (unitsLeft 1000 (1000 * 10)) := by
    rw [List.map_map, List.map_map]
    exact List.map_congr_left hshown
  rw [hnumbers]
  refine countsDown_of_samples hunit ?_ ?_ ?_ ?_
  · obtain ⟨x, hx, -⟩ := hpast
    cases ticks with
    | nil => cases hx
    | cons y ys =>
        have hnear : y.time ≤ last + 999 := hapart.rel
        refine ⟨y.time - p, rfl, ?_⟩
        omega
  · rw [List.isChain_map]
    exact hsorted.of_cons.imp fun a b hab => Nat.sub_le_sub_right hab p
  · rw [List.isChain_map]
    refine hapart.of_cons.imp fun a b hab => ?_
    omega
  · obtain ⟨x, hx, hle⟩ := hpast
    refine ⟨x.time - p, List.mem_map.mpr ⟨x.time, List.mem_map_of_mem hx, rfl⟩, ?_⟩
    show clockResetValue ≤ x.time - p
    omega

/-- From the statement that starts the timer on, with dclk_app between two ticks at that
time, readings at most 999 ms apart, no loss on the way and nothing left on the air, the
clock callback of the display is given 10, 9 and so on to 0, and nothing else. -/
theorem countsDown_received (bonds acceptList : List Addr) (base : ℕ) (scanning : Bool)
    (before after : List NetEvent) (r : BtResults) (s t u : Net)
    (hbefore : network.run (.boot bonds acceptList base scanning) before = some s)
    (hpress : s.console.ctrl.InStartPress .startDTimer) (hbetween : s.BetweenTicks)
    (hstart : network.step s (.console (.ctrl (.stmt r))) = some t)
    (hafter : network.run t after = some u) (hquiet : network.Meets QuietNet t after)
    (hcarries : network.Meets Carries t after) (hs : s.air = []) (hu : u.air = [])
    (hapart : (s.readAt :: (network.outputs sentTick t after).map (·.time)).IsChain
      fun a b => b ≤ a + 999)
    (hpast : ∃ x ∈ network.outputs sentTick t after,
      s.console.ctrl.now + clockResetValue ≤ x.time) :
    ∃ shown, CountsDown 10 shown ∧ u.got.filterMap Delivery.clock? =
      s.got.filterMap Delivery.clock? ++ shown.map UInt32.ofNat := by
  have hread : s.readAt ≤ s.console.ctrl.now := readAt_le_of_run hbefore le_rfl
  have haimed : Aimed t := aimed_step (aimed_of_run hbefore) hstart
  obtain ⟨c, hc, rfl⟩ := network_step_ctrl hstart
  set t : Net := { s with console := { s.console with ctrl := c } } with ht
  have hp : Ticking s.console.ctrl.now t := ticking_start hbefore hpress hbetween hc
  have hnow : t.readAt ≤ t.console.ctrl.now := hread.trans (now_le_step hc)
  have hgot : u.got = s.got ++ network.outputs told t after := by
    have heq := got_append_air haimed hafter hcarries
    rw [hu, show t.air = [] from hs] at heq
    simpa using heq
  refine ⟨(network.outputs sentTick t after).map (·.dClock), ?_, ?_⟩
  · exact countsDown_of_ticks hread (sentTick_of_run hp hafter hquiet)
      (times_of_ticks (fun _ _ _ => sentTick_time) hafter hnow) hapart hpast
  · rw [hgot, List.filterMap_append, told_clock, List.map_map]
    rfl

/-- A display subscribes, dclk_app shows an iteration and, half a second later, start is
pressed. -/
def untilRemoteStart : List NetEvent :=
  subscribedNet ++ notifiedIteration ++ List.replicate 2 (.deliver fun _ => 0) ++
    (Event.elapse 500 :: .edge .start 1 :: work 3).map fun e => .console (.ctrl e)

/-- After `n` milliseconds an iteration follows, and its notifications arrive. -/
def iterationAfter (n : ℕ) : List NetEvent :=
  .console (.ctrl (.elapse n)) :: notifiedIteration ++ List.replicate 2 (.deliver fun _ => 0)

/-- The rest of start_cb, iterations 999 ms apart, and one more after the expiry. -/
def untilRemoteExpiry : List NetEvent :=
  .console (.ctrl (.stmt .success)) :: iterationAfter 499 ++
    (List.replicate 9 (iterationAfter 999)).flatten ++
    [.console (.ctrl (.elapse 510)), .console (.ctrl .dExpire)] ++ iterationAfter 0

theorem countsDown_remoteExpiry : ∃ s t u,
    network.run (.boot [] [] 16 true) untilRemoteStart = some s ∧
      network.step s (.console (.ctrl (.stmt .success))) = some t ∧
      network.run t untilRemoteExpiry = some u ∧
      ∃ shown, CountsDown 10 shown ∧ u.got.filterMap Delivery.clock? =
        s.got.filterMap Delivery.clock? ++ shown.map UInt32.ofNat :=
  ⟨_, _, _, rfl, rfl, rfl, countsDown_received [] [] 16 true untilRemoteStart untilRemoteExpiry
    .success _ _ _ rfl (by decide +kernel) (by decide +kernel) rfl rfl (by decide +kernel)
    (by decide +kernel) rfl rfl (by decide +kernel) (by decide +kernel)⟩

end DodgeClock
