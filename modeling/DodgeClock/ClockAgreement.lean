import DodgeClock.Transitions
import DodgeClock.RefereeClock

/-!
# The controller keeps a shot clock

The countdowns, stops and expiries of a run of the controller are a run of the
referee's clock, and d_timer runs exactly while that clock counts. As long as
d_timer does not expire between the two assignments of start_cb, clock_state is
the code of the phase whenever no callback is part-way through.
-/
namespace DodgeClock
open EventSystem OneShotTimer

def signalOf : Happening → Option Signal
  | .countdown => some .start
  | .stopped => some .stop
  | .expired => some .timeUp
  | _ => none

/-- The signals of a run, the latest first. -/
def signals (hist : List Happening) : List Signal := hist.filterMap signalOf

/-- Neither start_cb nor stop_cb is part-way through: a callback begins with the third
statement of its handler. -/
def Settled (s : State) : Prop :=
  ∀ f ∈ s.worker, f.item = .button .start ∨ f.item = .button .stop → f.pc ≤ 2

instance (s : State) : Decidable (Settled s) :=
  match hw : s.worker with
  | none => .isTrue (by simp [Settled, hw])
  | some f => decidable_of_iff (f.item = .button .start ∨ f.item = .button .stop → f.pc ≤ 2)
      (by simp [Settled, hw])

/-- clock_state, d_timer and the events of the run tell the same story. -/
structure ClockAgrees (s : State) : Prop where
  running : s.clock.clockState = 0 ↔ s.clock.dTimer.Running
  paused : s.clock.clockState = 1 ↔ StoppedSinceStart (signals s.hist)
  elapsed : s.clock.clockState = 2 ↔ RanOut (signals s.hist)

/-- d_timer does not expire after start_cb set clock_state and before it starts d_timer. -/
def NoExpiryInStart (s : State) (e : Event) : Prop :=
  e = .dExpire → ¬ s.InStartPress .startDTimer

instance (s : State) (e : Event) : Decidable (NoExpiryInStart s e) :=
  inferInstanceAs (Decidable (_ → _))

/-- The referee's clock is in phase `p`, also while a callback is part-way through. -/
structure Tracks (s : State) (p : Phase) : Prop where
  run : refereeClock.run .fresh (signals s.hist).reverse = some p
  running : s.clock.dTimer.Running ↔ p = .counting
  starting : s.worker = some ⟨.button .start, 3⟩ →
    (s.btns .start).evt = 1 ∧ s.clock.clockState = 0
  stopping : s.worker = some ⟨.button .stop, 4⟩ → p = .paused
  code : p ≠ .fresh → s.worker ≠ some ⟨.button .start, 3⟩ →
    s.worker ≠ some ⟨.button .stop, 4⟩ → s.clock.clockState = p.code

theorem tracks_boot (bonds acceptList : List Addr) : Tracks (boot bonds acceptList) .fresh :=
  ⟨rfl, by simp [boot, Clock.boot], by simp [boot], by simp [boot], fun h => absurd rfl h⟩

/-- A signal is one step of the referee's clock. -/
theorem run_signal {hist : List Happening} {p q : Phase} {g : Signal}
    (hrun : refereeClock.run .fresh (signals hist).reverse = some p)
    (hg : refereeClock.step p g = some q) :
    refereeClock.run .fresh (g :: signals hist).reverse = some q := by
  rw [List.reverse_cons]
  exact Machine.run_concat _ hrun hg

theorem tracks_step {s t : State} {e : Event} {p : Phase} (hi : Tracks s p)
    (hc : NoExpiryInStart s e) (h : Step s e t) : ∃ q, Tracks t q := by
  obtain ⟨hrun, hd, hstart, hstop, hcode⟩ := hi
  cases h
  case dExpire hdue =>
    -- the countdown that ends is the one the referee's clock is counting
    have hp : p = .counting := hd.mp hdue.running
    have hnot : s.worker ≠ some ⟨.button .start, 3⟩ := fun hw =>
      hc rfl (inStartPress_startDTimer.mpr ⟨hw, (hstart hw).1⟩)
    have hnot' : s.worker ≠ some ⟨.button .stop, 4⟩ := fun hw => by simp [hstop hw] at hp
    refine ⟨.elapsed, run_signal hrun (by rw [hp]; rfl), by simp, fun hw => absurd hw hnot,
      fun hw => absurd hw hnot', ?_⟩
    intro _ _ _
    rfl
  case startTimer r hw he =>
    have h0 := (hstart hw).2
    exact ⟨.counting, run_signal hrun rfl, by simp, by simp, by simp, fun _ _ _ => h0⟩
  case stopTimer r hw he =>
    exact ⟨.paused, run_signal hrun rfl, by simp, by simp, fun _ => rfl, fun _ _ h => absurd rfl h⟩
  case stopState r hw he =>
    have hp := hstop hw
    exact ⟨p, hrun, hd, by simp, by simp, fun _ _ _ => by rw [hp]; rfl⟩
  case startState r hw he =>
    exact ⟨p, hrun, hd, fun _ => ⟨he, rfl⟩, by simp, fun _ h => absurd rfl h⟩
  case stopSleep r b pc hw ha =>
    have h3 : s.worker ≠ some ⟨.button .start, 3⟩ := by
      rw [hw]
      rintro ⟨⟩
      cases ha
    have h4 : s.worker ≠ some ⟨.button .stop, 4⟩ := by
      rw [hw]
      rintro ⟨⟩
      cases ha
    exact ⟨p, hrun, hd, by simp, by simp, fun hp _ _ => hcode hp h3 h4⟩
  case edge b level =>
    exact ⟨p, hrun, hd, by simpa using hstart, hstop, hcode⟩
  case elapse n _ _ => exact ⟨p, hrun, by simpa using hd, hstart, hstop, hcode⟩
  -- the other transitions touch neither clock_state nor d_timer
  all_goals
    refine ⟨p, hrun, hd, ?_, ?_, ?_⟩
    all_goals simp_all

/-- Every run without such an expiry refines a run of the referee's clock. -/
theorem tracks_of_run {bonds acceptList : List Addr} {es : List Event} {s : State}
    (hrun : controller.run (boot bonds acceptList) es = some s)
    (hc : controller.Meets NoExpiryInStart (boot bonds acceptList) es) : ∃ p, Tracks s p := by
  have hstep : ∀ s e t, (∃ p, Tracks s p) → NoExpiryInStart s e →
      controller.step s e = some t → ∃ p, Tracks t p := by
    rintro s e t ⟨p, hp⟩ hc h
    exact tracks_step hp hc (step_inv h)
  exact Machine.run_invariant hstep hrun hc ⟨_, tracks_boot bonds acceptList⟩

/-- Between callbacks clock_state is the code of the phase, so after the first
start press it agrees with d_timer and with the history. -/
theorem clockAgrees_of_run (bonds acceptList : List Addr) (es : List Event) (s : State)
    (hrun : controller.run (boot bonds acceptList) es = some s)
    (hc : controller.Meets NoExpiryInStart (boot bonds acceptList) es)
    (hstarted : .countdown ∈ s.hist) (hs : Settled s) : ClockAgrees s := by
  obtain ⟨p, hp⟩ := tracks_of_run hrun hc
  have hstart : Signal.start ∈ signals s.hist := List.mem_filterMap.mpr ⟨_, hstarted, rfl⟩
  have h3 : s.worker ≠ some ⟨.button .start, 3⟩ := fun hw =>
    absurd (hs _ hw (.inl rfl)) (by decide)
  have h4 : s.worker ≠ some ⟨.button .stop, 4⟩ := fun hw =>
    absurd (hs _ hw (.inr rfl)) (by decide)
  have hcode := hp.code (ne_fresh hp.run hstart) h3 h4
  obtain ⟨h0, h1, h2⟩ := code_iff hp.run hstart
  rw [← hcode] at h0 h1 h2
  exact ⟨h0.trans hp.running.symm, h1, h2⟩

theorem clockAgrees_pausedRun :
    ∃ s, controller.run (boot [] []) pausedRun = some s ∧ ClockAgrees s :=
  ⟨_, rfl, clockAgrees_of_run [] [] pausedRun _ rfl (by decide) (by decide) (by decide)⟩

/-- The countdown of a first press ends while start_cb handles a second one. -/
def expiryInStartRun : List Event :=
  wholeEvent .start 1 5 ++ [Event.elapse 10000] ++ wholeEvent .start 1 3 ++
    [Event.dExpire] ++ stmts 2

/-- The expiry overwrites the state start_cb has set: the clock counts down and is
shown as stopped. -/
theorem not_clockAgrees_of_expiry_in_start :
    ¬ ∀ (bonds acceptList : List Addr) (es : List Event) (s : State),
      controller.run (boot bonds acceptList) es = some s → .countdown ∈ s.hist → Settled s →
        ClockAgrees s := by
  intro h
  have hagrees := h [] [] expiryInStartRun _ rfl (by decide) (by decide)
  exact absurd (hagrees.running.mpr (by decide)) (by decide)

end DodgeClock
