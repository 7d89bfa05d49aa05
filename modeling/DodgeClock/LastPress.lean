import DodgeClock.Advertising
import DodgeClock.WholeCallbacks

/-!
# Start or stop

Start and stop are told apart only by the order in which their handlers run, and a press
asks for a handler that may be queued already, from an earlier edge of the same pin. So
the button pressed last decides whether the clock is paused, unless its handler had kept
its place before the one of the other button, which then finds a press as well.
-/
namespace DodgeClock
open EventSystem OneShotTimer OnceQueue

/-- The two buttons that set clock_state. -/
def Button.OnClock (b : Button) : Prop := b = .start ∨ b = .stop

instance (b : Button) : Decidable b.OnClock := inferInstanceAs (Decidable (_ ∨ _))

def Button.rival : Button → Button
  | .start => .stop
  | _ => .start

/-- No press of start or stop, and a release of one only when its handler has read the
level before. -/
def OnlyReleases (s : State) : Event → Prop
  | .edge b level =>
      b.OnClock → level = 0 ∧ .button b ∉ s.queue ∧ s.worker ≠ some ⟨.button b, 0⟩
  | _ => True

instance OnlyReleases.decidable (s : State) : (e : Event) → Decidable (OnlyReleases s e)
  | .edge b level => inferInstanceAs (Decidable (b.OnClock → level = 0 ∧ _ ∧ _))
  | .dequeue | .stmt _ | .dExpire | .sleepExpire | .elapse _ | .dclkInit | .arm | .connected _ _
  | .connectFailed _ | .disconnected | .bonded => .isTrue trivial

/-- The handler of the other button comes after that of `b`, and finds a press. -/
def State.Overtaken (s : State) (b : Button) : Prop :=
  Ahead s.queue (.button b) (.button b.rival) ∧ (s.btns b.rival).val ≠ 0

instance (s : State) (b : Button) : Decidable (s.Overtaken b) :=
  inferInstanceAs (Decidable ([_, _].Sublist _ ∧ _))

/-- The button whose press is handled last, when `b` has just been pressed. -/
def State.decider (s : State) (b : Button) : Button := if s.Overtaken b then b.rival else b

/-- The event the handler of `b` works with, when it has come to `pc`. -/
def State.eventAt (s : State) (b : Button) (pc : ℕ) : ℕ :=
  if pc = 0 then evtOf (s.btns b).val else (s.btns b).evt

theorem Button.rival_ne (b : Button) : b.rival ≠ b := by
  cases b <;> decide

theorem Button.OnClock.rival {b : Button} (h : b.OnClock) :
    b.rival.OnClock ∧ b.rival.rival = b := by
  rcases h with rfl | rfl <;> decide

section Frame
variable {s t : State} {e : Event} {b : Button}

/-- A level is replaced by that of a release only, and when it has been read. -/
theorem val_step (hb : b.OnClock) (hc : OnlyReleases s e) (h : Step s e t) :
    (t.btns b).val = (s.btns b).val ∨ (t.btns b).val = 0 ∧ .button b ∉ s.queue ∧
      s.worker ≠ some ⟨.button b, 0⟩ := by
  cases h
  case edge c level =>
    by_cases heq : b = c
    · subst heq
      obtain ⟨rfl, hread⟩ := hc hb
      exact .inr ⟨by simp [State.buttonEventCb, Btn.sample], hread⟩
    · exact .inl (by simp [State.buttonEventCb, heq])
  case readVal r c hw =>
    by_cases heq : b = c
    · simp [heq, Btn.readVal]
    · simp [heq]
  all_goals exact .inl rfl

theorem val_eq_zero_step (hb : b.OnClock) (hc : OnlyReleases s e) (h0 : (s.btns b).val = 0)
    (h : Step s e t) : (t.btns b).val = 0 := by
  rcases val_step hb hc h with hsame | ⟨hzero, -⟩
  · rw [hsame, h0]
  · exact hzero

/-- Whoever submits the handlers of start and stop has seen a release. -/
theorem queue_releases (hc : OnlyReleases s e) (hne : e ≠ .dequeue) (h : Step s e t) :
    t.queue = s.queue ∨ ∃ x, t.queue = submit x s.queue ∧
      ∀ b : Button, b.OnClock → .button b = x → (t.btns b).val = 0 := by
  cases h
  case edge c level =>
    refine .inr ⟨.button c, rfl, fun b hb heq => ?_⟩
    obtain rfl := Work.button.inj heq
    obtain ⟨rfl, -⟩ := hc hb
    simp [State.buttonEventCb, Btn.sample]
  case dequeue w q hw hq => exact absurd rfl hne
  case dclkInit | connectFailed | disconnected | submitAdvertise =>
    exact .inr ⟨.advertiseDCLK, rfl, fun b _ heq => by cases heq⟩
  case submitPair => exact .inr ⟨.pairDCLK, rfl, fun b _ heq => by cases heq⟩
  all_goals exact .inl rfl

theorem mem_queue_releases (hb : b.OnClock) (hc : OnlyReleases s e) (hne : e ≠ .dequeue)
    (h : Step s e t) :
    (.button b ∈ s.queue → .button b ∈ t.queue) ∧
      (.button b ∈ t.queue → .button b ∈ s.queue ∨ (t.btns b).val = 0) := by
  rcases queue_releases hc hne h with hsame | ⟨x, hsubmit, hx⟩
  · rw [hsame]
    exact ⟨id, .inl⟩
  · rw [hsubmit, mem_submit]
    exact ⟨.inl, fun hmem => hmem.imp id (hx b hb)⟩

theorem not_overtaken_step (hb : b.OnClock) (hc : OnlyReleases s e) (hne : e ≠ .dequeue)
    (hnot : ¬ s.Overtaken b) (h : Step s e t) : ¬ t.Overtaken b := by
  rintro ⟨hahead, hval⟩
  have hval' : (s.btns b.rival).val ≠ 0 :=
    fun h0 => hval (val_eq_zero_step hb.rival.1 hc h0 h)
  refine hnot ⟨?_, hval'⟩
  rcases queue_releases hc hne h with hsame | ⟨x, hsubmit, hx⟩
  · rwa [hsame] at hahead
  · rw [hsubmit] at hahead
    exact hahead.of_submit.resolve_right fun hlast => hval (hx b.rival hb.rival.1 hlast.1)

/-- A handler that runs on works with the same event. -/
theorem eventAt_step {pc : ℕ} (hb : b.OnClock) (hc : OnlyReleases s e) (h : Step s e t)
    (hw : t.worker = some ⟨.button b, pc⟩) :
    (e = .dequeue ∧ pc = 0 ∧ .button b ∈ s.queue) ∨
      ∃ n, s.worker = some ⟨.button b, n⟩ ∧ t.eventAt b pc = s.eventAt b n := by
  have hval := val_step hb hc h
  cases h
  case edge c level =>
    refine .inr ⟨pc, hw, ?_⟩
    by_cases hpc : pc = 0
    · subst hpc
      have hsame := hval.resolve_right fun hread => hread.2.2 hw
      simp [State.eventAt, hsame]
    · simp [State.eventAt, hpc]
  case dequeue w q hnone hq =>
    simp only [Option.some.injEq, Frame.mk.injEq] at hw
    obtain ⟨rfl, rfl⟩ := hw
    exact .inl ⟨rfl, rfl, by simp [hq]⟩
  case readVal r c hn =>
    simp only [Option.some.injEq, Frame.mk.injEq, Work.button.injEq] at hw
    obtain ⟨rfl, rfl⟩ := hw
    exact .inr ⟨0, hn, by simp [State.eventAt, Btn.readVal]⟩
  case pairDCLK r n st hn ha | advertiseDCLK r n st hn ha =>
    exact absurd hw (by split_ifs <;> simp)
  case callActiveEmpty | stopSleep | stopState => cases hw
  case setPairEn | submitPair | submitAdvertise =>
    simp only [Option.some.injEq, Frame.mk.injEq, Work.button.injEq] at hw
    obtain ⟨rfl, rfl⟩ := hw
    exact absurd hb (by decide)
  case callActive r c hn ha =>
    simp only [Option.some.injEq, Frame.mk.injEq, Work.button.injEq] at hw
    obtain ⟨rfl, rfl⟩ := hw
    exact .inr ⟨1, hn, rfl⟩
  case startState hn hevt | startTimer hn hevt | stopSave hn hevt | stopTimer hn hevt =>
    simp only [Option.some.injEq, Frame.mk.injEq, Work.button.injEq] at hw
    obtain ⟨rfl, rfl⟩ := hw
    exact .inr ⟨_, hn, rfl⟩
  all_goals exact .inr ⟨pc, hw, rfl⟩

/-- A handler that is not queued goes last when it is asked for. -/
theorem not_overtaken_of_press {level : ℕ} (hnot : .button b ∉ s.queue)
    (h : Step s (.edge b level) t) : ¬ t.Overtaken b := by
  cases h
  rintro ⟨hahead, -⟩
  rcases hahead.of_submit with hold | ⟨hlast, -⟩
  · exact hnot hold.mem_left
  · exact b.rival_ne (Work.button.inj hlast)

end Frame

section Decider
variable {s t : State} {e : Event} {w : Button}

/-- The statement of the handler that sets clock_state for a press. -/
def Button.deciding : Button → ℕ
  | .start => 2
  | _ => 4

/-- The handler of the other button, if it is still to run, finds a release. -/
def State.Unopposed (s : State) (w : Button) : Prop :=
  .button w.rival ∈ s.queue → (s.btns w.rival).val = 0

/-- How far the press of `w` has come: its handler waits, or runs, or has set clock_state,
and no handler of the other button has yet to undo that. -/
inductive Deciding (w : Button) (s : State) : Prop
  | queued (hmem : .button w ∈ s.queue) (hpress : (s.btns w).val ≠ 0) (hnot : ¬ s.Overtaken w)
  | running (pc : ℕ) (hrun : s.worker = some ⟨.button w, pc⟩) (hpc : pc ≤ w.deciding)
      (hevt : s.eventAt w pc = 1) (hclear : s.Unopposed w)
  | decided (hstate : s.clock.clockState = 1 ↔ w = .stop) (hclear : s.Unopposed w)
      (hrival : ∀ pc, s.worker = some ⟨.button w.rival, pc⟩ → s.eventAt w.rival pc ≠ 1)

theorem unopposed_step (hw : w.OnClock) (hc : OnlyReleases s e) (hi : s.Unopposed w)
    (h : Step s e t) : t.Unopposed w := by
  intro hmem
  by_cases hne : e = .dequeue
  · subst hne
    have hold : .button w.rival ∈ s.queue := by
      cases h with
      | dequeue hnone hq =>
          rw [hq]
          exact List.mem_cons_of_mem _ hmem
    exact val_eq_zero_step hw.rival.1 hc (hi hold) h
  · rcases (mem_queue_releases hw.rival.1 hc hne h).2 hmem with hold | hzero
    · exact val_eq_zero_step hw.rival.1 hc (hi hold) h
    · exact hzero

theorem deciding_of_queued (hw : w.OnClock) (hc : OnlyReleases s e) (hmem : .button w ∈ s.queue)
    (hpress : (s.btns w).val ≠ 0) (hnot : ¬ s.Overtaken w) (h : Step s e t) : Deciding w t := by
  by_cases hne : e = .dequeue
  · subst hne
    cases h with
    | @dequeue x q hnone hq =>
        rw [hq] at hmem
        by_cases hx : x = .button w
        · subst hx
          refine .running 0 rfl (Nat.zero_le _) (by simpa [State.eventAt] using hpress) ?_
          intro hrival
          by_contra hother
          refine hnot ⟨?_, hother⟩
          rw [hq]
          exact ahead_cons.mpr (.inr ⟨rfl, hrival⟩)
        · refine .queued ((List.mem_cons.mp hmem).resolve_left (Ne.symm hx)) hpress ?_
          rintro ⟨hahead, hother⟩
          refine hnot ⟨?_, hother⟩
          rw [hq]
          exact ahead_cons.mpr (.inl hahead)
  · have hsame := (val_step hw hc h).resolve_right fun hread => hread.2.1 hmem
    refine .queued ((mem_queue_releases hw hc hne h).1 hmem) ?_
      (not_overtaken_step hw hc hne hnot h)
    rwa [hsame]

theorem deciding_of_running {pc : ℕ} (hw : w.OnClock) (hc : OnlyReleases s e)
    (hrun : s.worker = some ⟨.button w, pc⟩) (hpc : pc ≤ w.deciding) (hevt : s.eventAt w pc = 1)
    (hclear : s.Unopposed w) (h : Step s e t) : Deciding w t := by
  have hclear' := unopposed_step hw hc hclear h
  have hgo : ∀ n, t.worker = some ⟨.button w, n⟩ → n ≤ w.deciding → Deciding w t := by
    intro n hn hle
    refine .running n hn hle ?_ hclear'
    rcases eventAt_step hw hc h hn with ⟨rfl, -, -⟩ | ⟨m, hm, heq⟩
    · cases h with
      | dequeue hnone hq => simp [hnone] at hrun
    · rw [hrun] at hm
      obtain rfl := (Frame.mk.inj (Option.some.inj hm)).2
      rw [heq, hevt]
  cases h
  case dequeue x q hnone hq => simp [hnone] at hrun
  case pairDCLK r n st hn ha | advertiseDCLK r n st hn ha => simp [hn] at hrun
  case setPairEn r enable hn hen | submitPair r hn hen | submitAdvertise r hn hen =>
    obtain ⟨rfl, -⟩ := frame_inj hn hrun
    exact absurd hw (by decide)
  case readVal r b hn =>
    obtain ⟨rfl, rfl⟩ := frame_inj hn hrun
    exact hgo 1 rfl (by rcases hw with rfl | rfl <;> decide)
  case callActive r b hn ha =>
    obtain ⟨rfl, rfl⟩ := frame_inj hn hrun
    exact hgo 2 rfl (by rcases hw with rfl | rfl <;> decide)
  case callActiveEmpty r b hn ha =>
    obtain ⟨rfl, rfl⟩ := frame_inj hn hrun
    have hone : (s.btns b).evt = 1 := hevt
    rw [hone] at ha
    rcases hw with rfl | rfl <;> cases ha
  case stopSleep r b n hn ha =>
    obtain ⟨rfl, rfl⟩ := frame_inj hn hrun
    cases ha with
    | pairStopSleep | pairIgnore => exact absurd hw (by decide)
    | startStopSleep => exact absurd hpc (by decide)
    | startRelease hne => exact absurd hevt hne
  case startState r hn hone =>
    obtain ⟨rfl, rfl⟩ := frame_inj hn hrun
    exact .decided (by simp) hclear' (by simp [Button.rival])
  case startTimer r hn hone =>
    obtain ⟨rfl, rfl⟩ := frame_inj hn hrun
    exact absurd hpc (by decide)
  case stopSave r hn hone =>
    obtain ⟨rfl, rfl⟩ := frame_inj hn hrun
    exact hgo 3 rfl (by decide)
  case stopTimer r hn hone =>
    obtain ⟨rfl, rfl⟩ := frame_inj hn hrun
    exact hgo 4 rfl le_rfl
  case stopState r hn hone =>
    obtain ⟨rfl, rfl⟩ := frame_inj hn hrun
    exact .decided (by simp) hclear' (by simp)
  all_goals exact hgo pc hrun hpc

/-- Only an expiry or the other button could undo it. -/
theorem deciding_of_decided (hw : w.OnClock) (hc : OnlyReleases s e) (hsound : ClockSound s)
    (hstate : s.clock.clockState = 1 ↔ w = .stop) (hclear : s.Unopposed w)
    (hrival : ∀ pc, s.worker = some ⟨.button w.rival, pc⟩ → s.eventAt w.rival pc ≠ 1)
    (h : Step s e t) : Deciding w t := by
  refine .decided ?_ (unopposed_step hw hc hclear h) fun pc hpc => ?_
  · cases h
    case dExpire hd =>
      -- a paused clock has d_timer stopped
      have hne : s.clock.clockState ≠ 1 := fun h1 => hsound.paused h1 hd.running
      simpa using fun hstop => hne (hstate.mpr hstop)
    case startState r hn hone =>
      rcases hw with rfl | rfl
      · simp
      · exact absurd hone (hrival 2 hn)
    case stopState r hn hone =>
      rcases hw with rfl | rfl
      · exact absurd hone (hrival 4 hn)
      · simp
    all_goals exact hstate
  · rcases eventAt_step hw.rival.1 hc h hpc with ⟨rfl, rfl, hmem⟩ | ⟨n, hn, heq⟩
    · have hrelease := val_eq_zero_step hw.rival.1 hc (hclear hmem) h
      simp [State.eventAt, hrelease]
    · rw [heq]
      exact hrival n hn

/-- The press of `w` decides, as far as is known in a state. -/
structure Decides (w : Button) (s : State) : Prop where
  sound : ClockSound s
  stage : Deciding w s

theorem decides_step (hw : w.OnClock) (hi : Decides w s) (hc : OnlyReleases s e)
    (h : Step s e t) : Decides w t := by
  refine ⟨clockSound_step hi.sound h, ?_⟩
  cases hi.stage with
  | queued hmem hpress hnot => exact deciding_of_queued hw hc hmem hpress hnot h
  | running pc hrun hpc hevt hclear => exact deciding_of_running hw hc hrun hpc hevt hclear h
  | decided hstate hclear hrival => exact deciding_of_decided hw hc hi.sound hstate hclear hrival h

theorem Decides.of_drained (hi : Decides w s) (hdrained : Drained s) :
    s.clock.clockState = 1 ↔ w = .stop := by
  obtain ⟨hqueue, hworker⟩ := hdrained
  cases hi.stage with
  | queued hmem hpress hnot => simp [hqueue] at hmem
  | running pc hrun hpc hevt hclear => simp [hworker] at hrun
  | decided hstate hclear hrival => exact hstate

/-- A press puts its own handler or that of the other button last. -/
theorem decides_of_press {b : Button} {level : ℕ} (hb : b.OnClock) (hlevel : level ≠ 0)
    (hsound : ClockSound s) (hnodup : s.queue.Nodup) (h : Step s (.edge b level) t) :
    Decides (t.decider b) t := by
  have hsound' := clockSound_step hsound h
  have hnodup' := nodup_step hnodup h
  cases h
  obtain ⟨-, hback⟩ := hb.rival
  have hpress : ((s.buttonEventCb b level).btns b).val ≠ 0 := by
    simpa [State.buttonEventCb, Btn.sample] using hlevel
  by_cases hover : (s.buttonEventCb b level).Overtaken b
  · rw [State.decider, if_pos hover]
    refine ⟨hsound', .queued hover.1.mem_right hover.2 ?_⟩
    rintro ⟨hahead, -⟩
    rw [hback] at hahead
    exact hover.1.asymm hnodup' hahead
  · rw [State.decider, if_neg hover]
    exact ⟨hsound', .queued (by simp) hpress hover⟩

end Decider

/-- After a press of start or stop and no further one of either, once the work queue has
drained, the clock is paused exactly if stop is the button that decides; and the one
pressed does decide unless its handler was queued already. -/
theorem paused_iff_decider (bonds acceptList : List Addr) (before after : List Event)
    (s t u : State) (b : Button) (level : ℕ) (hb : b.OnClock) (hlevel : level ≠ 0)
    (hbefore : controller.run (boot bonds acceptList) before = some s)
    (hpress : controller.step s (.edge b level) = some t)
    (hafter : controller.run t after = some u)
    (hreleases : controller.Meets OnlyReleases t after) (hdrained : Drained u) :
    (u.clock.clockState = 1 ↔ t.decider b = .stop) ∧
      (.button b ∉ s.queue → t.decider b = b) := by
  have hnodup : s.queue.Nodup :=
    Machine.run_invariant' (fun _ _ _ hn h => nodup_step hn (step_inv h)) hbefore List.nodup_nil
  have hdecides : Decides (t.decider b) t :=
    decides_of_press hb hlevel (clockSound_of_run hbefore) hnodup (step_inv hpress)
  have honClock : (t.decider b).OnClock := by
    unfold State.decider
    split_ifs
    · exact hb.rival.1
    · exact hb
  have hend : Decides (t.decider b) u :=
    Machine.run_invariant (fun _ _ _ hi hc h => decides_step honClock hi hc (step_inv h)) hafter
      hreleases hdecides
  refine ⟨hend.of_drained hdrained, fun hnot => ?_⟩
  have hlast := not_overtaken_of_press hnot (step_inv hpress)
  rw [State.decider, if_neg hlast]

/-- start is released and stop pressed before the queue goes on. -/
def overtakenRun : List Event := wholeEvent .start 1 5 ++ [.edge .start 0, .edge .stop 1]

/-- The handlers run, and stop is released. -/
def overtakenRest : List Event := work 5 ++ work 5 ++ wholeEvent .stop 0 2

theorem paused_iff_decider_overtaken : ∃ s t u,
    controller.run (boot [] []) overtakenRun = some s ∧
      controller.step s (.edge .start 1) = some t ∧
      controller.run t overtakenRest = some u ∧
      (u.clock.clockState = 1 ↔ t.decider .start = .stop) ∧ t.decider .start = .stop :=
  ⟨_, _, _, rfl, rfl, rfl,
    (paused_iff_decider [] [] overtakenRun overtakenRest _ _ _ .start 1 (by decide)
      (by decide) rfl rfl rfl (by decide) (by decide)).1, by decide⟩

end DodgeClock
