import DodgeClock.Buzzer
import DodgeClock.RemoteCountdown

/-!
# The end of a countdown is heard

interface_update calls buzz when it has written a clock below three, and it writes what it
is given unless that is what it was given before. Over an uninterrupted countdown
dclk_app gives it the numbers from 10 to 0, so buzz is called for two, for one and for
zero, whatever else changes on the panel meanwhile.
-/
namespace DodgeClock
open EventSystem OneShotTimer SampledCountdown

/-- What dclk_app gives to interface_update. -/
def asked (s : Net) : NetEvent → Option Readout
  | .console (.app _) => if s.console.app.pc = .update then some s.console.app.want else none
  | _ => none

/-- The clock of it, with the time it was read at. -/
def askedTick (s : Net) : NetEvent → Option Shown
  | .console (.app _) =>
      if s.console.app.pc = .update then some ⟨s.readAt, s.console.app.tick.dClock⟩ else none
  | _ => none

/-- A call of buzz, with the clock it is made for. -/
def beep (s : Net) : NetEvent → Option ℕ
  | .console (.app r) => if s.console.Buzzes r then some s.console.app.want.clock else none
  | _ => none

/-- No display call fails. -/
def PanelOk (s : Net) : NetEvent → Prop
  | .console e => DisplayOk s.console e
  | _ => True

instance PanelOk.decidable (s : Net) : (e : NetEvent) → Decidable (PanelOk s e)
  | .console e => inferInstanceAs (Decidable (DisplayOk s.console e))
  | .notifyClock _ | .notifyState _ | .cfgChanged _ _ | .display _ | .deliver _ | .lost _ =>
      .isTrue trivial

section Beeps
variable {s t : Net} {e : NetEvent} {es : List NetEvent}

/-- The calls of buzz for readouts that are given one after the other, `dis` being the one
given before. -/
def beepsOf (dis : Readout) (rs : List Readout) : List ℕ :=
  ((rs.destutter' (· ≠ ·) dis).tail.filter fun r => r.clock < 3).map (·.clock)

theorem exec_dis (r : DrawResults) (c : Console) : (c.exec r).screen.dis =
    if c.app.pc = .update then c.app.want else c.screen.dis := by
  cases hpc : c.app.pc <;> simp [Console.exec, hpc]

theorem buzzes_iff {r : DrawResults} {c : Console} (hok : DisplayOk c (.app r)) :
    c.Buzzes r ↔ c.app.pc = .update ∧ c.screen.dis ≠ c.app.want ∧ c.app.want.clock < 3 := by
  refine and_congr_right fun hpc => ?_
  by_cases hskip : c.screen.dis = c.app.want
  · simp [interfaceUpdate_skip hskip, hskip]
  · simp [interfaceUpdate_draw hskip (hok hpc hskip), hskip]

/-- A step of the whole is one of dclk_app and the controller, or leaves both alone. -/
theorem network_step_console (hok : PanelOk s e) (h : network.step s e = some t) :
    t.console = s.console ∧ asked s e = none ∧ beep s e = none ∨
      ∃ k, console.step s.console k = some t.console ∧ DisplayOk s.console k ∧
        asked s e = asked s (.console k) ∧ beep s e = beep s (.console k) := by
  cases e with
  | console e =>
      simp only [network, Option.ite_none_left_eq_some, Option.map_eq_some_iff] at h
      obtain ⟨-, c, hc, rfl⟩ := h
      exact .inr ⟨e, hc, hok, rfl, rfl⟩
  | notifyState err =>
      simp only [network, Option.ite_none_right_eq_some, Option.some.injEq] at h
      obtain ⟨⟨hoff, hpc, -⟩, rfl⟩ := h
      refine .inr ⟨.app .success, ?_, ?_, ?_, ?_⟩
      · simp [console, hoff]
      · simp [DisplayOk, hpc]
      · simp [asked, hpc]
      · simp [beep, Console.Buzzes, hpc]
  | notifyClock err =>
      simp only [network, Option.ite_none_right_eq_some, Option.some.injEq] at h
      obtain ⟨-, rfl⟩ := h
      exact .inl ⟨by simp, rfl, rfl⟩
  | cfgChanged chrc value =>
      obtain rfl := Option.some.inj h
      exact .inl ⟨rfl, rfl, rfl⟩
  | display e =>
      obtain ⟨-, d, -, rfl⟩ := network_step_display h
      exact .inl ⟨rfl, rfl, rfl⟩
  | deliver beyond =>
      obtain ⟨n, rest, -, rfl⟩ := network_step_deliver h
      exact .inl ⟨rfl, rfl, rfl⟩
  | lost keep =>
      obtain rfl := Option.some.inj h
      exact .inl ⟨rfl, rfl, rfl⟩

/-- interface_update remembers what it is given, and calls buzz if that is new and its
clock is below three. -/
theorem asked_step (hok : PanelOk s e) (h : network.step s e = some t) :
    t.console.screen.dis = (asked s e).getD s.console.screen.dis ∧
      beep s e = (asked s e).bind fun r =>
        if s.console.screen.dis ≠ r ∧ r.clock < 3 then some r.clock else none := by
  rcases network_step_console hok h with ⟨hsame, hasked, hbeep⟩ |
    ⟨k, hk, hdisplay, hasked, hbeep⟩
  · rw [hsame, hasked, hbeep]
    exact ⟨rfl, rfl⟩
  · rw [hasked, hbeep]
    cases k with
    | ctrl k =>
        obtain ⟨c, -, hc⟩ := Option.map_eq_some_iff.mp hk
        rw [← hc]
        exact ⟨rfl, rfl⟩
    | app r =>
        simp only [console, Option.ite_none_left_eq_some, Option.some.injEq] at hk
        obtain ⟨-, hexec⟩ := hk
        have hbuzzes := buzzes_iff hdisplay
        rw [← hexec, exec_dis]
        by_cases hpc : s.console.app.pc = .update
        · simp [asked, beep, hpc, hbuzzes]
        · simp [asked, beep, hpc, hbuzzes]

/-- buzz is called for the changes of what is asked for. -/
theorem beeps_of_run (hrun : network.run s es = some t) (hok : network.Meets PanelOk s es) :
    network.outputs beep s es =
      beepsOf s.console.screen.dis (network.outputs asked s es) := by
  induction es generalizing s with
  | nil => rfl
  | cons e es ih =>
      obtain ⟨m, hm, hrest⟩ := network.run_cons_eq_some.mp hrun
      obtain ⟨hdis, hbeep⟩ := asked_step hok.head hm
      have hlater := ih hrest (hok.tail hm)
      rw [Machine.outputs_cons hm, Machine.outputs_cons hm, hlater, hbeep, hdis]
      cases hasked : asked s e with
      | none => rfl
      | some r =>
          simp only [Option.getD_some, Option.toList_some, List.singleton_append,
            Option.bind_some]
          by_cases hsame : s.console.screen.dis = r
          · simp [beepsOf, hsame]
          · rw [beepsOf, beepsOf, List.destutter'_cons_pos _ hsame, List.tail_cons,
              destutter_eq_cons r]
            by_cases hlow : r.clock < 3 <;> simp [hsame, hlow]

theorem beepsOf_sublist (dis : Readout) (rs : List Readout) :
    (beepsOf dis rs).Sublist (rs.map (·.clock)) := by
  have hchanges : (rs.destutter' (· ≠ ·) dis).tail.Sublist rs := by
    have hsub := rs.destutter'_sublist (· ≠ ·) dis
    rw [destutter_eq_cons] at hsub
    exact List.cons_sublist_cons.mp hsub
  exact (List.filter_sublist.trans hchanges).map _

/-- A countdown that is asked for is announced at two, at one and at zero. -/
theorem beepsOf_countsDown {dis : Readout} {rs : List Readout}
    (h : CountsDown 10 (rs.map (·.clock))) :
    (∀ k, k ∈ beepsOf dis rs ↔ k < 3) ∧ (beepsOf dis rs).IsChain fun v w => w ≤ v := by
  refine ⟨fun k => ⟨fun hk => ?_, fun hk => ?_⟩, ?_⟩
  · obtain ⟨r, hr, rfl⟩ := List.mem_map.mp hk
    simpa using (List.mem_filter.mp hr).2
  · -- the first readout has a ten, so that it is not the one in question
    obtain ⟨r, hr, rfl⟩ := List.mem_map.mp (h.all k (by omega))
    cases rs with
    | nil => cases hr
    | cons b rs =>
        have hten : b.clock = 10 := by simpa using h.first
        have hne : r ≠ b := by
          rintro rfl
          omega
        have hmem := mem_changes (a := dis) ((List.mem_cons.mp hr).resolve_left hne) hne
        exact List.mem_map.mpr ⟨r, List.mem_filter.mpr ⟨hmem, by simpa using hk⟩, rfl⟩
  · have : Trans (fun v w : ℕ => w ≤ v) (fun v w => w ≤ v) (fun v w => w ≤ v) :=
      ⟨fun hab hbc => le_trans hbc hab⟩
    exact h.falls.sublist (beepsOf_sublist dis rs)

end Beeps

section Given
variable {p : ℕ} {s t : Net} {e : NetEvent} {es : List NetEvent}

/-- What dclk_app gives to interface_update during a countdown that has begun at `p`. -/
def Given (p : ℕ) (s : Net) : Prop :=
  s.console.app.pc = .update →
    s.console.app.tick.dClock = unitsLeft 1000 clockResetValue (s.readAt - p)

/-- dclk_app comes to interface_update by its second notification. -/
theorem given_step (hi : Ticking p s) (hg : Given p s) (h : network.step s e = some t) :
    Given p t := by
  cases e with
  | console e =>
      cases e with
      | ctrl k =>
          obtain ⟨c, -, rfl⟩ := network_step_ctrl h
          exact hg
      | app r =>
          simp only [network, Option.ite_none_left_eq_some, Option.map_eq_some_iff, console,
            Option.some.injEq] at h
          obtain ⟨hnotify, c, ⟨-, rfl⟩, rfl⟩ := h
          intro hupd
          cases hpc : s.console.app.pc
          case notify => exact absurd hpc hnotify
          all_goals simp [Console.exec, hpc] at hupd
  | notifyState err =>
      simp only [network, Option.ite_none_right_eq_some, Option.some.injEq] at h
      obtain ⟨⟨-, hpc, -⟩, rfl⟩ := h
      intro _
      have hfresh := hi.fresh
      simp only [Net.BetweenTicks, hpc, reduceCtorEq, or_self, false_or] at hfresh
      simpa [Console.exec, hpc] using hfresh
  | notifyClock err =>
      simp only [network, Option.ite_none_right_eq_some, Option.some.injEq] at h
      obtain ⟨-, rfl⟩ := h
      simpa [Given] using hg
  | cfgChanged chrc value =>
      obtain rfl := Option.some.inj h
      exact hg
  | display e =>
      obtain ⟨-, d, -, rfl⟩ := network_step_display h
      exact hg
  | deliver beyond =>
      obtain ⟨n, rest, -, rfl⟩ := network_step_deliver h
      exact hg
  | lost keep =>
      obtain rfl := Option.some.inj h
      exact hg

theorem askedTick_some {x : Shown} (h : askedTick s e = some x) :
    s.console.app.pc = .update ∧ x = ⟨s.readAt, s.console.app.tick.dClock⟩ := by
  unfold askedTick at h
  split at h
  · obtain ⟨hpc, heq⟩ := Option.ite_none_right_eq_some.mp h
    exact ⟨hpc, (Option.some.inj heq).symm⟩
  · cases h

/-- Every clock given to interface_update is the one of the time it was read at. -/
theorem askedTick_of_run (hi : Ticking p s) (hg : Given p s) (hrun : network.run s es = some t)
    (hc : network.Meets QuietNet s es) :
    ∀ x ∈ network.outputs askedTick s es,
      x.dClock = unitsLeft 1000 clockResetValue (x.time - p) := by
  refine Machine.forall_mem_outputs (I := fun s => Ticking p s ∧ Given p s)
    (fun _ _ _ hi hc h => ⟨ticking_step hi.1 hc h, given_step hi.1 hi.2 h⟩)
    (fun s e x hi hx => ?_) hrun hc ⟨hi, hg⟩
  obtain ⟨hpc, rfl⟩ := askedTick_some hx
  exact hi.2 hpc

theorem asked_clock (s : Net) (es : List NetEvent) :
    (network.outputs asked s es).map (·.clock) =
      (network.outputs askedTick s es).map (·.dClock) := by
  rw [← List.filterMap_eq_map, ← List.filterMap_eq_map, Machine.outputs_filterMap,
    Machine.outputs_filterMap]
  refine Machine.outputs_congr (Machine.Meets.of_forall (fun s e => ?_) s es)
  unfold asked askedTick
  split
  · split_ifs <;> rfl
  · rfl

end Given

/-- From the statement that starts the timer on, with dclk_app between two iterations at
that time, readings at most 999 ms apart and beyond the expiry, and no display call that
fails, buzz is called for two, one and zero, for nothing else and in this order. -/
theorem beeps_of_countdown (bonds acceptList : List Addr) (base : ℕ) (scanning : Bool)
    (before after : List NetEvent) (r : BtResults) (s t u : Net)
    (hbefore : network.run (.boot bonds acceptList base scanning) before = some s)
    (hpress : s.console.ctrl.InStartPress .startDTimer)
    (hidle : s.console.app.pc = .readState ∨ s.console.app.pc = .sleep)
    (hstart : network.step s (.console (.ctrl (.stmt r))) = some t)
    (hafter : network.run t after = some u) (hquiet : network.Meets QuietNet t after)
    (hpanel : network.Meets PanelOk t after)
    (hapart : (s.readAt :: (network.outputs askedTick t after).map (·.time)).IsChain
      fun a b => b ≤ a + 999)
    (hpast : ∃ x ∈ network.outputs askedTick t after,
      s.console.ctrl.now + clockResetValue ≤ x.time) :
    (∀ k, k ∈ network.outputs beep t after ↔ k < 3) ∧
      (network.outputs beep t after).IsChain fun v w => w ≤ v := by
  have hread : s.readAt ≤ s.console.ctrl.now := readAt_le_of_run hbefore le_rfl
  have hbetween : s.BetweenTicks := hidle.imp id .inr
  obtain ⟨c, hc, rfl⟩ := network_step_ctrl hstart
  set t : Net := { s with console := { s.console with ctrl := c } } with ht
  have hp : Ticking s.console.ctrl.now t := ticking_start hbefore hpress hbetween hc
  have hg : Given s.console.ctrl.now t := by
    intro hupd
    rcases hidle with h | h <;> exact absurd (h.symm.trans hupd) (by simp)
  have hnow : t.readAt ≤ t.console.ctrl.now := hread.trans (now_le_step hc)
  have hasked := askedTick_of_run hp hg hafter hquiet
  have htime : ∀ s e x, askedTick s e = some x → x.time = s.readAt := fun _ _ _ hx => by
    rw [(askedTick_some hx).2]
  have hsorted := times_of_ticks htime hafter hnow
  have hdown := countsDown_of_ticks hread hasked hsorted hapart hpast
  rw [beeps_of_run hafter hpanel]
  rw [← asked_clock] at hdown
  exact beepsOf_countsDown hdown

theorem beeps_of_countdown_remoteExpiry : ∃ s t,
    network.run (.boot [] [] 16 true) untilRemoteStart = some s ∧
      network.step s (.console (.ctrl (.stmt .success))) = some t ∧
      (∀ k, k ∈ network.outputs beep t untilRemoteExpiry ↔ k < 3) ∧
      (network.outputs beep t untilRemoteExpiry).IsChain fun v w => w ≤ v :=
  ⟨_, _, rfl, rfl, beeps_of_countdown [] [] 16 true untilRemoteStart untilRemoteExpiry
    .success _ _ _ rfl (by decide +kernel) (by decide +kernel) rfl rfl (by decide +kernel)
    (by decide +kernel) (by decide +kernel) (by decide +kernel)⟩

end DodgeClock
