import DodgeClock.BootOrder
import DodgeClock.SampledCountdown

/-!
# What a countdown shows

dclk_app reads the time left of d_timer now and then, and sends and displays it in
seconds, rounded up. From the statement of start_cb that starts the timer to its expiry,
and on until the next press of start, the number follows from the time alone.
-/
namespace DodgeClock
open EventSystem OneShotTimer SampledCountdown

/-- `iteration` is an iteration of dclk_app that nothing preempts. -/
inductive AppEvent where
  | ctrl (e : Event)
  | iteration
  deriving DecidableEq, Repr

def sampledClock : Machine State AppEvent where
  step s
    | .ctrl e => controller.step s e
    | .iteration => if s.off then none else some s

/-- A value of d_clock and the time it was computed at. -/
structure Shown where
  time : ℕ
  dClock : ℕ
  deriving DecidableEq, Repr

/-- What an iteration sends and displays. -/
def shown (s : State) : AppEvent → Option Shown
  | .iteration => some ⟨s.now, (dclkApp s.clock).dClock⟩
  | .ctrl _ => none

/-- No press of start is read, which would begin another countdown, and none of stop before
the timer has expired. -/
def Uninterrupted (s : State) : AppEvent → Prop
  | .ctrl e => e.ForStmt fun _ =>
      ¬ s.ReadsPress .start ∧ (s.clock.dTimer.Running → ¬ s.ReadsPress .stop)
  | .iteration => True

instance Uninterrupted.decidable (s : State) : (e : AppEvent) → Decidable (Uninterrupted s e)
  | .ctrl e => inferInstanceAs (Decidable (Event.ForStmt _ e))
  | .iteration => .isTrue trivial

/-- d_timer was started at `p`, with nothing to stop or restart it on its way. -/
structure CountsFrom (p : ℕ) (s : State) : Prop where
  past : p ≤ s.now
  counting : s.clock.dTimer.Running →
    s.clock.dTimer.remaining + s.now = p + clockResetValue ∧ s.clock.clockState ≠ 1
  ended : ¬ s.clock.dTimer.Running → p + clockResetValue ≤ s.now
  paused : s.clock.clockState = 1 → s.clock.clockValue = 0
  starting : ∀ pc, s.InPress .start pc → pc = 4
  stopping : ∀ pc, s.InPress .stop pc →
    ¬ s.clock.dTimer.Running ∧ (3 ≤ pc → s.clock.clockValue = 0)

section Countdown
variable {p : ℕ} {s t : State} {e : Event}

/-- start_cb starts the timer in this very step. -/
theorem countsFrom_start {r : BtResults} (hsound : ClockSound s)
    (hpress : s.InStartPress .startDTimer) (h : Step s (.stmt r) t) : CountsFrom s.now t := by
  obtain ⟨hworker, -⟩ := inStartPress_startDTimer.mp hpress
  cases h
  case startTimer hw he =>
    have hne := hsound.starting hworker
    refine ⟨le_rfl, fun _ => ⟨Nat.add_comm _ _, hne⟩,
      fun hnot => absurd (Timer.running_started _) hnot, fun h1 => absurd h1 hne,
      fun pc hp => ?_, fun pc hp => ?_⟩
    · exact (frame_inj rfl hp.worker).2.symm
    · exact absurd (frame_inj rfl hp.worker).1 (by decide)
  case stopSleep c pc hw ha =>
    obtain ⟨rfl, rfl⟩ := frame_inj hw hworker
    cases ha
  case readVal hw | callActive hw _ | callActiveEmpty hw _ | setPairEn hw _ | submitPair hw _
      | submitAdvertise hw _ | startState hw _ | stopSave hw _ | stopTimer hw _
      | stopState hw _ | pairDCLK hw _ | advertiseDCLK hw _ =>
    simp [hw] at hworker

/-- What leaves d_timer, the variables and the time alone, and no handler in a press it was
not in, is no matter to the countdown. -/
theorem CountsFrom.frame (hi : CountsFrom p s) (htimer : t.clock.dTimer = s.clock.dTimer)
    (hstate : t.clock.clockState = s.clock.clockState)
    (hvalue : t.clock.clockValue = s.clock.clockValue) (hnow : t.now = s.now)
    (hpress : ∀ b pc, b = .start ∨ b = .stop → t.InPress b pc → s.InPress b pc) :
    CountsFrom p t := by
  obtain ⟨hpast, hcounting, hended, hpaused, hstarting, hstopping⟩ := hi
  refine ⟨?_, ?_, ?_, ?_, fun pc hp => ?_, fun pc hp => ?_⟩
  · rwa [hnow]
  · rwa [htimer, hnow, hstate]
  · rwa [htimer, hnow]
  · rwa [hstate, hvalue]
  · exact hstarting pc (hpress _ pc (.inl rfl) hp)
  · rw [htimer, hvalue]
    exact hstopping pc (hpress _ pc (.inr rfl) hp)

theorem countsFrom_step (hi : CountsFrom p s) (hc : Uninterrupted s (.ctrl e)) (h : Step s e t) :
    CountsFrom p t := by
  have hstarting := hi.starting
  have hstopping := hi.stopping
  cases h
  case edge b level =>
    refine hi.frame rfl rfl rfl rfl fun c pc _ hp => ⟨hp.worker, hp.read, ?_⟩
    rw [← s.buttonEventCb_evt b c level]
    exact hp.press
  case dequeue w q hw hq =>
    refine hi.frame rfl rfl rfl rfl fun c pc _ hp => ?_
    obtain ⟨-, rfl⟩ := Frame.mk.inj (Option.some.inj hp.worker)
    exact absurd hp.read (by omega)
  case dExpire hd =>
    have hnow := (hi.counting hd.running).1
    rw [hd.remaining] at hnow
    refine ⟨hi.past, fun hr => absurd hr Timer.not_running_stopped, fun _ => ?_,
      fun h1 => absurd h1 (by simp), fun pc hp => ?_, fun pc hp => ?_⟩
    · show p + clockResetValue ≤ s.now
      omega
    · exact hstarting pc ⟨hp.worker, hp.read, hp.press⟩
    · exact absurd hd.running (hstopping pc ⟨hp.worker, hp.read, hp.press⟩).1
  case elapse n hd hs =>
    refine ⟨Nat.le_add_right_of_le hi.past, fun hr => ?_, fun hr => ?_, hi.paused,
      fun pc hp => ?_, fun pc hp => ?_⟩
    · have hrun : s.clock.dTimer.Running := (Timer.running_elapse n _).mp hr
      obtain ⟨htime, hne⟩ := hi.counting hrun
      have hn := hd hrun
      refine ⟨?_, hne⟩
      show (s.clock.dTimer.elapse n).remaining + (s.now + n) = p + clockResetValue
      rw [Timer.remaining_elapse]
      omega
    · have hnot : ¬ s.clock.dTimer.Running := fun hrun => hr ((Timer.running_elapse n _).mpr hrun)
      exact Nat.le_add_right_of_le (hi.ended hnot)
    · exact hstarting pc ⟨hp.worker, hp.read, hp.press⟩
    · obtain ⟨hnot, hvalue⟩ := hstopping pc ⟨hp.worker, hp.read, hp.press⟩
      exact ⟨fun hr => hnot ((Timer.running_elapse n _).mp hr), hvalue⟩
  case readVal r b hw =>
    obtain ⟨hnostart, hnostop⟩ := hc
    refine ⟨hi.past, hi.counting, hi.ended, hi.paused, fun pc hp => ?_, fun pc hp => ?_⟩
    · obtain ⟨rfl, -⟩ := frame_inj rfl hp.worker
      exact absurd ⟨hw, by simpa [Btn.readVal] using hp.press⟩ hnostart
    · obtain ⟨rfl, rfl⟩ := frame_inj rfl hp.worker
      have hread : s.ReadsPress .stop := ⟨hw, by simpa [Btn.readVal] using hp.press⟩
      exact ⟨fun hrun => hnostop hrun hread, fun hle => absurd hle (by omega)⟩
  case callActive r b hw ha =>
    refine ⟨hi.past, hi.counting, hi.ended, hi.paused, fun pc hp => ?_, fun pc hp => ?_⟩
    · obtain ⟨rfl, -⟩ := frame_inj rfl hp.worker
      exact absurd (hstarting 1 ⟨hw, le_rfl, hp.press⟩) (by omega)
    · obtain ⟨rfl, rfl⟩ := frame_inj rfl hp.worker
      exact ⟨(hstopping 1 ⟨hw, le_rfl, hp.press⟩).1, fun hle => absurd hle (by omega)⟩
  case startState r hw he => exact absurd (hstarting 2 ⟨hw, by omega, he⟩) (by omega)
  case startTimer r hw he => exact absurd (hstarting 3 ⟨hw, by omega, he⟩) (by omega)
  case stopSave r hw he =>
    have hnot := (hstopping 2 ⟨hw, by omega, he⟩).1
    have hzero := Timer.remaining_eq_zero hnot
    refine ⟨hi.past, hi.counting, hi.ended, fun _ => hzero, fun pc hp => ?_,
      fun pc hp => ⟨hnot, fun _ => hzero⟩⟩
    exact absurd (frame_inj rfl hp.worker).1 (by decide)
  case stopTimer r hw he =>
    obtain ⟨hnot, hvalue⟩ := hstopping 3 ⟨hw, by omega, he⟩
    refine ⟨hi.past, fun hr => absurd hr Timer.not_running_stopped, fun _ => hi.ended hnot,
      hi.paused, fun pc hp => ?_, fun pc hp => ⟨Timer.not_running_stopped, fun _ => hvalue le_rfl⟩⟩
    exact absurd (frame_inj rfl hp.worker).1 (by decide)
  case stopState r hw he =>
    obtain ⟨hnot, hvalue⟩ := hstopping 4 ⟨hw, by omega, he⟩
    exact ⟨hi.past, fun hr => absurd hr hnot, hi.ended, fun _ => hvalue (by omega),
      fun pc hp => absurd hp.worker (by simp), fun pc hp => absurd hp.worker (by simp)⟩
  case callActiveEmpty | stopSleep =>
    exact hi.frame rfl rfl rfl rfl fun b pc _ hp => absurd hp.worker (by simp)
  case setPairEn | submitPair | submitAdvertise =>
    refine hi.frame rfl rfl rfl rfl fun b pc hb hp => ?_
    obtain ⟨rfl, -⟩ := frame_inj rfl hp.worker
    exact absurd hb (by decide)
  case pairDCLK | advertiseDCLK =>
    refine hi.frame rfl rfl rfl rfl fun b pc _ hp => absurd hp.worker ?_
    show (if _ then _ else _) ≠ _
    split_ifs <;> simp
  all_goals exact hi.frame rfl rfl rfl rfl fun b pc _ hp => ⟨hp.worker, hp.read, hp.press⟩

/-- The seconds shown follow from the time. -/
theorem CountsFrom.dClock (hi : CountsFrom p s) :
    (dclkApp s.clock).dClock = unitsLeft 1000 clockResetValue (s.now - p) := by
  have hshown : (dclkApp s.clock).dClock =
      ((if s.clock.clockState = 1 then s.clock.clockValue else s.clock.dTimer.remaining) + 999) /
        1000 := readClock_eq _ _
  rw [hshown, unitsLeft, Nat.ceilDiv_eq_add_pred_div]
  by_cases hrun : s.clock.dTimer.Running
  · obtain ⟨htime, hne⟩ := hi.counting hrun
    have hleft : s.clock.dTimer.remaining = clockResetValue - (s.now - p) := by
      have hpast := hi.past
      omega
    rw [if_neg hne, hleft]
    rfl
  · have hended := hi.ended hrun
    have hzero : clockResetValue - (s.now - p) = 0 := by omega
    rw [hzero]
    split_ifs with h1
    · rw [hi.paused h1]
    · rw [Timer.remaining_eq_zero hrun]

end Countdown

section Runs
variable {s t : State} {es : List AppEvent}

/-- Iterations read the clock and leave the controller as it is. -/
theorem sampledClock_refined : Refines sampledClock controller (fun _ => True) id
    fun _ e => match e with
      | .ctrl e => some e
      | .iteration => none where
  keeps _ _ := trivial
  stutters {s t e} _ h hnone := by
    cases e with
    | ctrl e => cases hnone
    | iteration => exact (Option.some.inj (Option.ite_none_left_eq_some.mp h).2).symm
  steps {s t e k} _ h hk := by
    cases e with
    | ctrl e =>
        obtain rfl := Option.some.inj hk
        exact h
    | iteration => cases hk

theorem clockSound_of_sampled {bonds acceptList : List Addr}
    (hrun : sampledClock.run (boot bonds acceptList) es = some s) : ClockSound s :=
  clockSound_of_run (sampledClock_refined.run trivial hrun)

theorem sampledClock_step {e : AppEvent} (h : sampledClock.step s e = some t) :
    (∃ k, e = .ctrl k ∧ Step s k t) ∨ e = .iteration ∧ t = s := by
  cases e with
  | ctrl k => exact .inl ⟨k, rfl, step_inv h⟩
  | iteration => exact .inr ⟨rfl, (Option.some.inj (Option.ite_none_left_eq_some.mp h).2).symm⟩

theorem countsFrom_sampled {p : ℕ} {e : AppEvent} (hi : CountsFrom p s) (hc : Uninterrupted s e)
    (h : sampledClock.step s e = some t) : CountsFrom p t := by
  rcases sampledClock_step h with ⟨k, rfl, hk⟩ | ⟨rfl, rfl⟩
  · exact countsFrom_step hi hc hk
  · exact hi

/-- Every iteration of an uninterrupted countdown shows the seconds left at its time. -/
theorem shown_of_run {p : ℕ} (hi : CountsFrom p s) (hrun : sampledClock.run s es = some t)
    (hc : sampledClock.Meets Uninterrupted s es) :
    ∀ x ∈ sampledClock.outputs shown s es,
      x.dClock = unitsLeft 1000 clockResetValue (x.time - p) := by
  refine Machine.forall_mem_outputs (fun _ _ _ hi hc h => countsFrom_sampled hi hc h) ?_ hrun hc hi
  intro s e x hi hx
  cases e with
  | ctrl k => cases hx
  | iteration =>
      obtain rfl := Option.some.inj hx
      exact hi.dClock

theorem now_le_sampled {e : AppEvent} (h : sampledClock.step s e = some t) : s.now ≤ t.now := by
  rcases sampledClock_step h with ⟨k, rfl, hk⟩ | ⟨rfl, rfl⟩
  · exact now_le_step hk
  · exact le_rfl

theorem now_le_of_run (hrun : sampledClock.run s es = some t) : s.now ≤ t.now :=
  Machine.run_invariant' (I := fun u => s.now ≤ u.now)
    (fun _ _ _ hi h => hi.trans (now_le_sampled h)) hrun le_rfl

/-- The iterations of a run come in the order of their times. -/
theorem times_of_run (hrun : sampledClock.run s es = some t) :
    (s.now :: (sampledClock.outputs shown s es).map (·.time)).IsChain (· ≤ ·) ∧
      ∀ x ∈ sampledClock.outputs shown s es, x.time ≤ t.now := by
  induction es generalizing s with
  | nil => simp [Machine.outputs]
  | cons e es ih =>
      obtain ⟨m, hm, hrest⟩ := Machine.run_cons_eq_some _ |>.mp hrun
      obtain ⟨hsorted, hle⟩ := ih hrest
      rw [Machine.outputs_cons hm]
      rcases sampledClock_step hm with ⟨k, rfl, hk⟩ | ⟨rfl, rfl⟩
      · exact ⟨hsorted.cons_of_imp fun _ h => (now_le_step hk).trans h, hle⟩
      · exact ⟨.cons_cons le_rfl hsorted, List.forall_mem_cons.mpr ⟨now_le_of_run hrest, hle⟩⟩

end Runs

/-- From the statement that starts the timer on, with iterations at most 999 ms apart, the
last one before it and the first one after it included, the numbers shown are 10, 9 and so
on to 0, and 0 is shown from the expiry on. -/
theorem countsDown_of_run (bonds acceptList : List Addr) (before after : List AppEvent)
    (r : BtResults) (s t u : State) (last : Shown)
    (hbefore : sampledClock.run (boot bonds acceptList) before = some s)
    (hlast : (sampledClock.outputs shown (boot bonds acceptList) before).getLast? = some last)
    (hpress : s.InStartPress .startDTimer)
    (hstart : sampledClock.step s (.ctrl (.stmt r)) = some t)
    (hafter : sampledClock.run t after = some u)
    (hquiet : sampledClock.Meets Uninterrupted t after)
    (hapart : (last :: sampledClock.outputs shown t after).IsChain
      fun a b => b.time ≤ a.time + 999)
    (hpast : ∃ x ∈ sampledClock.outputs shown t after, s.now + clockResetValue ≤ x.time) :
    CountsDown 10 ((sampledClock.outputs shown t after).map (·.dClock)) ∧
      ∀ x ∈ sampledClock.outputs shown t after,
        x.dClock = 0 ↔ s.now + clockResetValue ≤ x.time := by
  have hp : CountsFrom s.now t :=
    countsFrom_start (clockSound_of_sampled hbefore) hpress (step_inv hstart)
  have hshown := shown_of_run hp hafter hquiet
  have hunit : 0 < 1000 := by decide
  have hlate : last.time ≤ s.now := (times_of_run hbefore).2 last (List.mem_of_getLast? hlast)
  have hnumbers : (sampledClock.outputs shown t after).map (·.dClock) =
      ((sampledClock.outputs shown t after).map fun x => x.time - s.now).map
        (unitsLeft 1000 (1000 * 10)) := by
    rw [List.map_map]
    exact List.map_congr_left hshown
  refine ⟨?_, fun x hx => ?_⟩
  · rw [hnumbers]
    refine countsDown_of_samples hunit ?_ ?_ ?_ ?_
    · obtain ⟨x, hx, -⟩ := hpast
      cases houts : sampledClock.outputs shown t after with
      | nil => simp [houts] at hx
      | cons y ys =>
          rw [houts] at hapart
          have hnear : y.time ≤ last.time + 999 := hapart.rel
          refine ⟨y.time - s.now, rfl, ?_⟩
          omega
    · have hsorted := (times_of_run hafter).1.of_cons
      rw [List.isChain_map] at hsorted ⊢
      exact hsorted.imp fun a b hab => Nat.sub_le_sub_right hab s.now
    · rw [List.isChain_map]
      refine hapart.of_cons.imp fun a b hab => ?_
      omega
    · obtain ⟨x, hx, hle⟩ := hpast
      refine ⟨x.time - s.now, List.mem_map.mpr ⟨x, hx, rfl⟩, ?_⟩
      show clockResetValue ≤ x.time - s.now
      omega
  · rw [hshown x hx, unitsLeft_eq_zero_iff hunit]
    have hpos : 0 < clockResetValue := by decide
    omega

/-- An iteration, and 100 ms later a press of start up to the statement that starts the
timer. -/
def untilStart : List AppEvent :=
  [.iteration, .ctrl (.elapse 100)] ++ (Event.edge .start 1 :: work 3).map .ctrl

/-- The rest of start_cb, and iterations every 500 ms up to the expiry. -/
def untilExpiry : List AppEvent :=
  .ctrl (.stmt .success) ::
    (List.replicate 20 [AppEvent.ctrl (.elapse 500), .iteration]).flatten ++ [.ctrl .dExpire]

theorem countsDown_untilExpiry :
    ∃ s t u, sampledClock.run (boot [] []) untilStart = some s ∧
      sampledClock.step s (.ctrl (.stmt .success)) = some t ∧
      sampledClock.run t untilExpiry = some u ∧
      CountsDown 10 ((sampledClock.outputs shown t untilExpiry).map (·.dClock)) ∧
      ∀ x ∈ sampledClock.outputs shown t untilExpiry,
        x.dClock = 0 ↔ s.now + clockResetValue ≤ x.time :=
  ⟨_, _, _, rfl, rfl, rfl, countsDown_of_run [] [] untilStart untilExpiry .success _ _ _ ⟨0, 0⟩
    rfl (by decide) (by decide) rfl rfl (by decide) (by decide) (by decide)⟩

end DodgeClock
