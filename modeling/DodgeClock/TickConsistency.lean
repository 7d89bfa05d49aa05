import DodgeClock.WholeCallbacks

/-!
# One iteration of dclk_app

An iteration reads clock_state first and, depending on what it read, the time left
later. Callbacks and the expiry of d_timer may run in between. The pair it sends
belongs to one instant unless a stop press lands on a countdown or a start press
lands on a clock read as stopped.
-/
namespace DodgeClock
open EventSystem OneShotTimer

/-- What may happen between the two reads of an iteration. -/
inductive WindowEvent where
  | startButton (evt : ℕ)
  | stopButton (evt : ℕ)
  | dExpire
  | elapse (n : ℕ)
  deriving DecidableEq, Repr

def window : Machine Clock WindowEvent where
  step
    | c, .startButton evt => some (c.runAll (startCb evt))
    | c, .stopButton evt => some (c.runAll (stopCb evt))
    | c, .dExpire => c.expireDTimer
    | c, .elapse n => c.elapse n

/-- The pair sent by an iteration whose first read is made in `c` and whose second
read is made in `d`. -/
def dclkAppAcross (c d : Clock) : Tick := ⟨readClock c.clockState d, c.clockState⟩

/-- At some instant between the reads an unpreempted iteration sends the same pair. -/
def OneInstant (c : Clock) (w : List WindowEvent) (d : Clock) : Prop :=
  ∃ i ∈ window.visited c w, dclkAppAcross c d = dclkApp i

/-- `e` does not take away the time left that a `dState` read before stands for. -/
def Undisturbed (dState : ℕ) (c : Clock) : WindowEvent → Prop
  | .startButton evt => evt = 1 → dState ≠ 2
  | .stopButton evt => evt = 1 → dState = 1 ∨ c.dTimer.remaining = 0
  | _ => True

instance Undisturbed.decidable (dState : ℕ) (c : Clock) :
    (e : WindowEvent) → Decidable (Undisturbed dState c e)
  | .startButton evt => inferInstanceAs (Decidable (evt = 1 → dState ≠ 2))
  | .stopButton evt => inferInstanceAs (Decidable (evt = 1 → dState = 1 ∨ c.dTimer.remaining = 0))
  | .dExpire | .elapse _ => .isTrue trivial

/-- The time left, from where an iteration that read `dState` looks for it. -/
def timeLeft (dState : ℕ) (c : Clock) : ℕ :=
  if dState = 1 then c.clockValue else c.dTimer.remaining

theorem readClock_eq_timeLeft (dState : ℕ) (c : Clock) :
    readClock dState c = (timeLeft dState c + 999) / 1000 := readClock_eq dState c

theorem timeLeft_of_ne {dState : ℕ} (h : dState ≠ 1) (c : Clock) :
    timeLeft dState c = c.dTimer.remaining := if_neg h

/-- One of the instants `vs` has the state `dState` and the time left of `c`. -/
def Witnessed (dState : ℕ) (vs : List Clock) (c : Clock) : Prop :=
  ∃ i ∈ vs, i.clockState = dState ∧ timeLeft dState i = timeLeft dState c

theorem Witnessed.self {dState : ℕ} {c : Clock} (vs : List Clock) (h : c.clockState = dState) :
    Witnessed dState (vs ++ [c]) c :=
  ⟨c, by simp, h, rfl⟩

theorem Witnessed.of_timeLeft {dState : ℕ} {vs : List Clock} {c d : Clock}
    (h : Witnessed dState vs c) (heq : timeLeft dState d = timeLeft dState c) :
    Witnessed dState (vs ++ [d]) d := by
  obtain ⟨i, hi, hstate, htime⟩ := h
  exact ⟨i, List.mem_append_left _ hi, hstate, htime.trans heq.symm⟩

/-- The clock is still in the state that was read, or nothing is left on d_timer. -/
structure Followed (dState : ℕ) (vs : List Clock) (c : Clock) : Prop where
  state : dState ≠ 1 → c.clockState = dState ∨ c.dTimer.remaining = 0
  witness : Witnessed dState vs c

theorem followed_step {dState : ℕ} (hrange : dState ≤ 2) {vs : List Clock} {c d : Clock}
    {e : WindowEvent} (hi : Followed dState vs c) (hc : Undisturbed dState c e)
    (h : window.step c e = some d) : Followed dState (vs ++ [d]) d := by
  obtain ⟨hstate, hwit⟩ := hi
  cases e with
  | startButton evt =>
      obtain rfl := Option.some.inj h
      by_cases hevt : evt = 1
      · subst hevt
        have hne2 : dState ≠ 2 := hc rfl
        rw [Clock.runAll_startCb_press]
        by_cases h1 : dState = 1
        · subst h1
          exact ⟨fun hne => absurd rfl hne, hwit.of_timeLeft rfl⟩
        · have h0 : dState = 0 := by omega
          subst h0
          exact ⟨fun _ => .inl rfl, .self vs rfl⟩
      · rw [Clock.runAll_startCb_other hevt]
        exact ⟨hstate, hwit.of_timeLeft rfl⟩
  | stopButton evt =>
      obtain rfl := Option.some.inj h
      by_cases hevt : evt = 1
      · subst hevt
        rw [Clock.runAll_stopCb_press]
        by_cases h1 : dState = 1
        · subst h1
          exact ⟨fun hne => absurd rfl hne, .self vs rfl⟩
        · have hzero : c.dTimer.remaining = 0 := (hc rfl).resolve_left h1
          refine ⟨fun _ => .inr rfl, hwit.of_timeLeft ?_⟩
          rw [timeLeft_of_ne h1, timeLeft_of_ne h1, hzero]
          rfl
      · rw [Clock.runAll_stopCb_other hevt]
        exact ⟨hstate, hwit.of_timeLeft rfl⟩
  | dExpire =>
      obtain ⟨hdue, rfl⟩ := Clock.expireDTimer_eq_some.mp h
      refine ⟨fun _ => .inr rfl, hwit.of_timeLeft ?_⟩
      by_cases h1 : dState = 1
      · subst h1
        rfl
      · rw [timeLeft_of_ne h1, timeLeft_of_ne h1, hdue.remaining]
        rfl
  | elapse n =>
      obtain ⟨_, rfl⟩ := Clock.elapse_eq_some.mp h
      by_cases h1 : dState = 1
      · subst h1
        exact ⟨fun hne => absurd rfl hne, hwit.of_timeLeft rfl⟩
      · rcases hstate h1 with hs | hzero
        · exact ⟨fun _ => .inl hs, .self vs hs⟩
        · -- nothing is left on d_timer, and time does not change that
          have hstill : (c.dTimer.elapse n).remaining = 0 := by
            rw [Timer.remaining_elapse]
            omega
          refine ⟨fun _ => .inr hstill, hwit.of_timeLeft ?_⟩
          rw [timeLeft_of_ne h1, timeLeft_of_ne h1, hzero]
          exact hstill

/-- A whole window of undisturbing events leaves a pair of one of its instants. -/
theorem oneInstant_of_meets {c d : Clock} {w : List WindowEvent} (hrange : c.clockState ≤ 2)
    (hrun : window.run c w = some d) (hw : window.Meets (Undisturbed c.clockState) c w) :
    OneInstant c w d := by
  have hstart : Followed c.clockState [c] c := ⟨fun _ => .inl rfl, .self [] rfl⟩
  have hend := Machine.visited_invariant (fun _ _ _ _ hi hc h => followed_step hrange hi hc h)
    hrun hw hstart
  obtain ⟨i, hi, hstate, htime⟩ := hend.witness
  refine ⟨i, hi, ?_⟩
  simp only [dclkAppAcross, dclkApp, readClock_eq_timeLeft, hstate, htime]

theorem visited_single {c d : Clock} {e : WindowEvent} (h : window.step c e = some d) :
    window.visited c [e] = [c, d] := by
  simp [Machine.visited, h]

/-- A single disturbing press leaves a pair of no instant. -/
theorem not_oneInstant_of_disturbed {c d : Clock} {e : WindowEvent}
    (hstopped : c.clockState = 2 → ¬ c.dTimer.Running) (hstep : window.step c e = some d)
    (hdist : ¬ Undisturbed c.clockState c e) : ¬ OneInstant c [e] d := by
  rintro ⟨i, hi, heq⟩
  rw [visited_single hstep, List.mem_pair] at hi
  have hclock : readClock c.clockState d = readClock i.clockState i := congrArg Tick.dClock heq
  have hstate : c.clockState = i.clockState := congrArg Tick.dState heq
  cases e with
  | startButton evt =>
      obtain ⟨rfl, h2⟩ : evt = 1 ∧ c.clockState = 2 := by
        simpa [Undisturbed, Classical.not_imp] using hdist
      obtain rfl := Option.some.inj hstep
      have hzero := Timer.remaining_eq_zero (hstopped h2)
      rcases hi with rfl | rfl
      · rw [Clock.runAll_startCb_press, h2] at hclock
        simp [readClock_eq, hzero, clockResetValue] at hclock
      · rw [Clock.runAll_startCb_press, h2] at hstate
        cases hstate
  | stopButton evt =>
      obtain ⟨rfl, h1, hpos⟩ : evt = 1 ∧ c.clockState ≠ 1 ∧ c.dTimer.remaining ≠ 0 := by
        simpa [Undisturbed, Classical.not_imp] using hdist
      obtain rfl := Option.some.inj hstep
      rcases hi with rfl | rfl
      · rw [Clock.runAll_stopCb_press] at hclock
        simp only [readClock_eq, if_neg h1, Timer.remaining_stopped] at hclock
        omega
      · rw [Clock.runAll_stopCb_press] at hstate
        exact h1 hstate
  | dExpire | elapse n => exact hdist trivial

/-- From every reachable clock, an iteration sends the pair of one instant if all that
happens between its reads is undisturbing. For a single event that is exact, unless
the clock is stopped while d_timer runs. -/
theorem oneInstant_of_window (bonds acceptList : List Addr) (es : List Event) (s : State)
    (hrun : controller.run (boot bonds acceptList) es = some s) :
    (∀ (w : List WindowEvent) (d : Clock), window.run s.clock w = some d →
      window.Meets (Undisturbed s.clock.clockState) s.clock w → OneInstant s.clock w d) ∧
    (∀ (e : WindowEvent) (d : Clock), window.step s.clock e = some d →
      (s.clock.clockState = 2 → ¬ s.clock.dTimer.Running) →
      (OneInstant s.clock [e] d ↔ Undisturbed s.clock.clockState s.clock e)) := by
  have hrange := (clockSound_of_run hrun).range
  refine ⟨fun w d hw hmeets => oneInstant_of_meets hrange hw hmeets, ?_⟩
  intro e d hstep hstopped
  constructor
  · intro hone
    by_contra hdist
    exact not_oneInstant_of_disturbed hstopped hstep hdist hone
  · intro hok
    have hw : window.run s.clock [e] = some d := by simp [Machine.run, hstep]
    have hmeets : window.Meets (Undisturbed s.clock.clockState) s.clock [e] := by
      simp [Machine.Meets, hstep, hok]
    exact oneInstant_of_meets hrange hw hmeets

/-- A countdown with six seconds left. -/
def countingRun : List Event := wholeEvent .start 1 5 ++ [Event.elapse 4000]

/-- The countdown ends and is started again between the reads. -/
def restartWindow : List WindowEvent := [.elapse 6000, .dExpire, .elapse 1, .startButton 1]

theorem oneInstant_restart :
    ∃ s d, controller.run (boot [] []) countingRun = some s ∧
      window.run s.clock restartWindow = some d ∧ OneInstant s.clock restartWindow d ∧
      OneInstant s.clock [.stopButton 0] (s.clock.runAll (stopCb 0)) :=
  have hwindow := oneInstant_of_window [] [] countingRun _ rfl
  ⟨_, _, rfl, rfl, hwindow.1 restartWindow _ rfl (by decide),
    (hwindow.2 (.stopButton 0) _ rfl (by decide)).mpr (by decide)⟩

/-- A stop press lands between the reads of a running clock: the pair says running
with no time left, while six seconds are. -/
theorem not_oneInstant_of_stop_press :
    ¬ ∀ (bonds acceptList : List Addr) (es : List Event) (s : State) (w : List WindowEvent)
      (d : Clock), controller.run (boot bonds acceptList) es = some s →
        window.run s.clock w = some d → OneInstant s.clock w d := by
  intro h
  obtain ⟨i, hi, heq⟩ := h [] [] countingRun _ [.stopButton 1] _ rfl rfl
  rw [visited_single rfl, List.mem_pair] at hi
  rcases hi with rfl | rfl
  · exact absurd heq (by decide)
  · exact absurd heq (by decide)

end DodgeClock
