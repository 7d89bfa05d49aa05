import DodgeClock.WholeCallbacks

/-!
# A paused clock and further stop presses

While the clock is paused the time left lives in clock_value only; the timer it
was read from is stopped. Each further press of the stop button reads that timer
again, so the first of them replaces the time left by zero.
-/
namespace DodgeClock
open EventSystem OneShotTimer

/-- What may happen to a paused clock as long as start is not pressed. -/
inductive PauseEvent where
  | stopButton (evt : ℕ)
  | appIteration
  | elapse (n : ℕ)
  deriving DecidableEq, Repr

def pausedClock : Machine Clock PauseEvent where
  step
    | c, .stopButton evt => some (c.runAll (stopCb evt))
    | c, .appIteration => some c
    | c, .elapse n => c.elapse n

/-- The pair an iteration of dclk_app sends. -/
def sent : Clock → PauseEvent → Option Tick
  | c, .appIteration => some (dclkApp c)
  | _, _ => none

/-- `d` and the pairs sent on the way to it are those of the paused clock `c`. -/
structure StaysPaused (c d : Clock) (ticks : List Tick) : Prop where
  value : d.clockValue = c.clockValue
  state : d.clockState = c.clockState
  timer : d.dTimer = c.dTimer
  ticks : ∀ k ∈ ticks, k = dclkApp c

/-- A paused clock that shows `v` milliseconds. -/
structure PausedAt (v : ℕ) (c : Clock) : Prop where
  state : c.clockState = 1
  timer : c.dTimer = .stopped
  value : c.clockValue = v

theorem PausedAt.dclkApp {v : ℕ} {c : Clock} (h : PausedAt v c) :
    dclkApp c = ⟨(v + 999) / 1000, 1⟩ := by
  simp [DodgeClock.dclkApp, readClock_eq, h.state, h.value]

/-- One event keeps the clock paused; a press also sets the value to zero. -/
theorem pausedAt_step {v : ℕ} {c d : Clock} {e : PauseEvent} (hc : PausedAt v c)
    (h : pausedClock.step c e = some d) : PausedAt (if e = .stopButton 1 then 0 else v) d := by
  obtain ⟨hstate, htimer, hvalue⟩ := hc
  cases e with
  | stopButton evt =>
      obtain rfl := Option.some.inj h
      by_cases hevt : evt = 1
      · subst hevt
        rw [Clock.runAll_stopCb_press]
        exact ⟨rfl, rfl, by simp [htimer]⟩
      · rw [Clock.runAll_stopCb_other hevt]
        exact ⟨hstate, htimer, by simpa [hevt] using hvalue⟩
  | appIteration =>
      obtain rfl := Option.some.inj h
      exact ⟨hstate, htimer, by simpa using hvalue⟩
  | elapse n =>
      obtain ⟨_, rfl⟩ := Clock.elapse_eq_some.mp h
      exact ⟨hstate, by simp [htimer], by simpa using hvalue⟩

/-- Over a run: the value survives unless a press is among the events. -/
theorem pausedAt_run {v : ℕ} {c d : Clock} {ops : List PauseEvent} (hc : PausedAt v c)
    (h : pausedClock.run c ops = some d) : PausedAt (if .stopButton 1 ∈ ops then 0 else v) d := by
  induction ops generalizing c v with
  | nil =>
      obtain rfl := Option.some.inj h
      simpa using hc
  | cons e ops ih =>
      obtain ⟨m, hm, hrest⟩ := pausedClock.run_cons_eq_some.mp h
      have hd := ih (pausedAt_step hc hm) hrest
      by_cases hmem : PauseEvent.stopButton 1 ∈ ops
      · simpa [hmem] using hd
      · simpa [hmem, eq_comm] using hd

/-- As long as each press finds the value zero already, the same pair is sent. -/
theorem sent_of_pausedAt {v : ℕ} {c d : Clock} {ops : List PauseEvent} (hc : PausedAt v c)
    (h : pausedClock.run c ops = some d) (hok : .stopButton 1 ∉ ops ∨ v = 0) :
    ∀ k ∈ pausedClock.outputs sent c ops, k = ⟨(v + 999) / 1000, 1⟩ := by
  induction ops generalizing c with
  | nil => simp [Machine.outputs]
  | cons e ops ih =>
      obtain ⟨m, hm, hrest⟩ := pausedClock.run_cons_eq_some.mp h
      have hv : (if e = .stopButton 1 then 0 else v) = v := by
        rcases hok with hok | rfl
        · have hne : e ≠ .stopButton 1 := fun he => hok (by simp [he])
          rw [if_neg hne]
        · simp
      have hmp : PausedAt v m := hv ▸ pausedAt_step hc hm
      have hok' : .stopButton 1 ∉ ops ∨ v = 0 :=
        hok.imp (fun hne hmem => hne (List.mem_cons_of_mem e hmem)) id
      rw [Machine.outputs_cons hm]
      intro k hk
      rcases List.mem_append.mp hk with hk | hk
      · cases e with
        | appIteration =>
            obtain rfl : k = dclkApp c := by simpa [sent] using hk
            exact hc.dclkApp
        | stopButton evt | elapse n => simp [sent] at hk
      · exact ih hmp hrest hok' k hk

/-- From every reachable paused state, further stop events and iterations leave the
clock as it is exactly if no press is among them or the time left is zero. -/
theorem staysPaused_iff (bonds acceptList : List Addr) (es : List Event) (s : State)
    (ops : List PauseEvent) (d : Clock)
    (hrun : controller.run (boot bonds acceptList) es = some s) (hs : s.clock.clockState = 1)
    (hops : pausedClock.run s.clock ops = some d) :
    StaysPaused s.clock d (pausedClock.outputs sent s.clock ops) ↔
      .stopButton 1 ∉ ops ∨ s.clock.clockValue = 0 := by
  have hstopped : s.clock.dTimer = .stopped :=
    Timer.eq_stopped ((clockSound_of_run hrun).paused hs)
  have hc : PausedAt s.clock.clockValue s.clock := ⟨hs, hstopped, rfl⟩
  have hd := pausedAt_run hc hops
  constructor
  · intro h
    by_contra hcon
    obtain ⟨hmem, hne⟩ := not_or.mp hcon
    have h0 : d.clockValue = 0 := by simpa [not_not.mp hmem] using hd.value
    exact hne (h.value.symm.trans h0)
  · intro hok
    have hv : d.clockValue = s.clock.clockValue := by
      rcases hok with hok | hok
      · simpa [hok] using hd.value
      · simpa [hok] using hd.value
    refine ⟨hv, hd.state.trans hs.symm, hd.timer.trans hstopped.symm, ?_⟩
    rw [hc.dclkApp]
    exact sent_of_pausedAt hc hops hok

/-- A release and an iteration half a second later leave the six seconds that are left. -/
theorem staysPaused_release :
    ∃ s d, controller.run (boot [] []) pausedRun = some s ∧
      pausedClock.run s.clock [.stopButton 0, .elapse 500, .appIteration] = some d ∧
      StaysPaused s.clock d
        (pausedClock.outputs sent s.clock [.stopButton 0, .elapse 500, .appIteration]) :=
  ⟨_, _, rfl, rfl,
    (staysPaused_iff [] [] pausedRun _ _ _ rfl (by decide) rfl).mpr (.inl (by decide))⟩

/-- A second press, such as a bounce of the contact, loses the six seconds. -/
theorem not_staysPaused_of_second_press :
    ¬ ∀ (bonds acceptList : List Addr) (es : List Event) (s : State) (ops : List PauseEvent)
      (d : Clock), controller.run (boot bonds acceptList) es = some s →
        s.clock.clockState = 1 → pausedClock.run s.clock ops = some d →
          StaysPaused s.clock d (pausedClock.outputs sent s.clock ops) := by
  intro h
  have hstays := h [] [] pausedRun _ [.stopButton 1] _ rfl (by decide) rfl
  exact absurd hstays.value (by decide)

end DodgeClock
