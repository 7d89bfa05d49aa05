import DodgeClock.PanelAgreement
import DodgeClock.RemoteStandstill

/-!
# A display catches up

Over a live connection the thread of dclk_app and the radio bring a display up to date
whatever has happened before: the thread is never stuck, passes each of its statements
within one turn of its loop, and after 15 of its steps has told the clock it has read
meanwhile. Nothing else has to happen, so that no time passes and the clock stands.
-/
namespace DodgeClock
open EventSystem

/-- A connection on which both values are notified and subscribed to, while the controller
is powered. -/
structure Net.Live (s : Net) : Prop where
  on : s.console.ctrl.off = false
  peer : s.console.ctrl.link.peer ≠ none
  enabled : ∀ chrc, s.srv.enabled chrc = true
  link : ∃ conn, s.display.link = .established conn
  active : ∀ chrc, s.display.active chrc = true

/-- A step of the thread of dclk_app. -/
def NetEvent.IsThread : NetEvent → Prop
  | .console (.app _) | .notifyClock _ | .notifyState _ => True
  | _ => False

instance NetEvent.IsThread.decidable : DecidablePred NetEvent.IsThread
  | .console (.app _) | .notifyClock _ | .notifyState _ => .isTrue trivial
  | .console (.ctrl _) | .cfgChanged _ _ | .display _ | .deliver _ | .lost _ => .isFalse id

/-- The step is one of the thread or a delivery, and bt_gatt_notify does not fail. -/
def NetEvent.Refreshes : NetEvent → Prop
  | .console (.app _) | .deliver _ => True
  | .notifyClock err | .notifyState err => err = 0
  | _ => False

instance NetEvent.Refreshes.decidable : DecidablePred NetEvent.Refreshes
  | .console (.app _) | .deliver _ => .isTrue trivial
  | .notifyClock _ | .notifyState _ => inferInstanceAs (Decidable (_ = _))
  | .console (.ctrl _) | .cfgChanged _ _ | .display _ | .lost _ => .isFalse id

/-- Where dclk_app is in its loop, the two notifications being two of its nine steps. -/
def Net.place (s : Net) : ℕ :=
  match s.console.app.pc with
  | .readState => 0
  | .readClock => 1
  | .getNumConn => 2
  | .getPairEn => 3
  | .setStatus => 4
  | .notify => if s.halfway = true then 6 else 5
  | .update => 7
  | .sleep => 8

section Steps
variable {k : Tick} {s t : Net} {e : NetEvent}

/-- What is known along a run of the thread and the radio alone. -/
structure Net.Turning (s : Net) : Prop where
  live : s.Live
  aimed : Aimed s
  halfway : s.HalfwayInNotify

/-- The thread takes its next step, and only the thread and the radio are at work. -/
theorem turning_step (hi : s.Turning) (he : e.Refreshes) (h : network.step s e = some t) :
    t.Turning ∧ t.console.ctrl = s.console.ctrl ∧
      t.place = if e.IsThread then (s.place + 1) % 9 else s.place := by
  have haimed := aimed_step hi.aimed h
  have hhalfway := (told_step hi.halfway h).1
  obtain ⟨hon, hpeer, henabled, hlink, hactive⟩ := hi.live
  cases e with
  | console e =>
      cases e with
      | ctrl k => exact he.elim
      | app r =>
          simp only [network, Option.ite_none_left_eq_some, Option.map_eq_some_iff, console,
            Option.some.injEq] at h
          obtain ⟨hnotify, c, ⟨-, rfl⟩, rfl⟩ := h
          have hctrl := Console.exec_ctrl r s.console
          refine ⟨⟨⟨by rwa [hctrl], by rwa [hctrl], henabled, hlink, hactive⟩, haimed, hhalfway⟩,
            hctrl, ?_⟩
          have hwhole : s.halfway = false := by
            by_contra hhalf
            exact hnotify (hi.halfway (by simpa using hhalf))
          cases hpc : s.console.app.pc
          case notify => exact absurd hpc hnotify
          all_goals simp [Net.place, NetEvent.IsThread, Console.exec, hpc, hwhole]
  | notifyClock err =>
      simp only [network, Option.ite_none_right_eq_some, Option.some.injEq] at h
      obtain ⟨⟨-, hpc, hhalf⟩, rfl⟩ := h
      refine ⟨⟨⟨by simpa using hon, by simpa using hpeer, by simpa using henabled,
        by simpa using hlink, by simpa using hactive⟩, haimed, hhalfway⟩, by simp, ?_⟩
      simp [Net.place, NetEvent.IsThread, hpc, hhalf]
  | notifyState err =>
      simp only [network, Option.ite_none_right_eq_some, Option.some.injEq] at h
      obtain ⟨⟨-, hpc, hhalf⟩, rfl⟩ := h
      have hctrl := Console.exec_ctrl .success s.console
      refine ⟨⟨⟨by rwa [hctrl], by rwa [hctrl], by simpa using henabled, by simpa using hlink,
        by simpa using hactive⟩, haimed, hhalfway⟩, hctrl, ?_⟩
      simp [Net.place, NetEvent.IsThread, Console.exec, hpc, hhalf]
  | deliver beyond =>
      obtain ⟨m, rest, -, rfl⟩ := hi.aimed.deliver h
      exact ⟨⟨⟨hon, hpeer, henabled, hlink, hactive⟩, haimed, hhalfway⟩, rfl, rfl⟩
  | cfgChanged chrc value | display e | lost keep => exact he.elim

theorem carries_of_refreshes (hl : s.Live) (he : e.Refreshes) : Carries s e := by
  cases e with
  | console e | deliver beyond =>
      first
        | exact trivial
        | exact ⟨hl.active .clock, hl.active .state⟩
  | notifyClock err | notifyState err =>
      exact Net.takes_iff.mpr ⟨hl.enabled _, hl.peer, he⟩
  | cfgChanged chrc value | display e | lost keep => exact he.elim

/-- The thread is never stuck. -/
theorem thread_enabled (hon : s.console.ctrl.off = false) :
    ∃ e t, e.IsThread ∧ e.Refreshes ∧ network.step s e = some t := by
  by_cases hpc : s.console.app.pc = .notify
  · cases hhalf : s.halfway with
    | false => exact ⟨.notifyClock 0, _, trivial, rfl, if_pos ⟨hon, hpc, hhalf⟩⟩
    | true => exact ⟨.notifyState 0, _, trivial, rfl, if_pos ⟨hon, hpc, hhalf⟩⟩
  · have hsome : network.step s (.console (.app .success)) ≠ none := by
      simp [network, console, Console.Executes, hpc, hon]
    obtain ⟨t, ht⟩ := Option.ne_none_iff_exists'.mp hsome
    exact ⟨.console (.app .success), t, trivial, trivial, ht⟩

/-- What is on the air can be delivered. -/
theorem deliver_enabled (hi : s.Turning) (hair : s.air ≠ []) :
    ∃ t, network.step s (.deliver fun _ => 0) = some t ∧ t.air.length + 1 = s.air.length := by
  obtain ⟨n, rest, hcons⟩ := List.exists_cons_of_ne_nil hair
  obtain ⟨conn, hlink⟩ := hi.live.link
  have hstep : network.step s (.deliver fun _ => 0) =
      some ({ s with air := rest }.arrive (fun _ => 0) n) := by
    simp only [network, hcons, hlink]
  refine ⟨_, hstep, ?_⟩
  simp [Net.arrive, hcons]

/-- A step of the thread puts at most one notification on the air. -/
theorem air_length_le (he : e.IsThread) (h : network.step s e = some t) :
    t.air.length ≤ s.air.length + 1 := by
  cases e with
  | console e =>
      simp only [network, Option.ite_none_left_eq_some, Option.map_eq_some_iff] at h
      obtain ⟨-, c, -, rfl⟩ := h
      exact Nat.le_succ _
  | notifyClock err | notifyState err =>
      simp only [network, Option.ite_none_right_eq_some, Option.some.injEq] at h
      obtain ⟨-, rfl⟩ := h
      rw [Net.notify_eq]
      split_ifs <;> simp
  | cfgChanged chrc value | display e | deliver beyond | lost keep => exact he.elim

/-- What dclk_app reads while nothing else happens is the clock as it is. -/
theorem holdsTick_step (hk : dclkApp s.console.ctrl.clock = k) (hi : s.HoldsTick k)
    (he : e.Refreshes) (h : network.step s e = some t) : t.HoldsTick k := by
  cases e with
  | console e =>
      cases e with
      | ctrl k => exact he.elim
      | app r =>
          simp only [network, Option.ite_none_left_eq_some, Option.map_eq_some_iff, console,
            Option.some.injEq] at h
          obtain ⟨-, c, ⟨-, rfl⟩, rfl⟩ := h
          exact (hi.exec hk r).frame rfl
  | notifyClock err =>
      simp only [network, Option.ite_none_right_eq_some, Option.some.injEq] at h
      obtain ⟨-, rfl⟩ := h
      exact hi.frame (by simp)
  | notifyState err =>
      simp only [network, Option.ite_none_right_eq_some, Option.some.injEq] at h
      obtain ⟨-, rfl⟩ := h
      exact (hi.exec hk .success).frame rfl
  | deliver beyond =>
      obtain ⟨n, rest, -, rfl⟩ := network_step_deliver h
      exact hi.frame rfl
  | cfgChanged chrc value | display e | lost keep => exact he.elim

/-- The thread and the radio leave the controller alone. -/
theorem turning_of_run {es : List NetEvent} (hi : s.Turning) (hrun : network.run s es = some t)
    (hc : network.Meets (fun _ e => e.Refreshes) s es) :
    t.Turning ∧ t.console.ctrl = s.console.ctrl :=
  Machine.run_invariant (I := fun u => u.Turning ∧ u.console.ctrl = s.console.ctrl)
    (fun _ _ _ hi hc h =>
      ⟨(turning_step hi.1 hc h).1, (turning_step hi.1 hc h).2.1.trans hi.2⟩) hrun hc ⟨hi, rfl⟩

theorem Net.place_lt (s : Net) : s.place < 9 := by
  unfold Net.place
  split <;> first | omega | (split_ifs <;> omega)

/-- The thread comes to every place of its loop within one turn. -/
theorem exists_at_place {es : List NetEvent} {q : ℕ} (hq : q < 9) (hi : s.Turning)
    (hrun : network.run s es = some t) (hc : network.Meets (fun _ e => e.Refreshes) s es)
    (hlong : (q + 9 - s.place) % 9 < es.countP fun e => decide e.IsThread) :
    ∃ before e after m n, es = before ++ e :: after ∧
      before.countP (fun e => decide e.IsThread) ≤ (q + 9 - s.place) % 9 ∧
      network.run s before = some m ∧ network.Meets (fun _ e => e.Refreshes) s before ∧
      (m.place = q ∧ e.IsThread) ∧ e.Refreshes ∧ network.step m e = some n ∧
      network.run n after = some t ∧ network.Meets (fun _ e => e.Refreshes) n after := by
  have hstep : ∀ u e v, u.Turning → e.Refreshes → ¬ (u.place = q ∧ e.IsThread) →
      network.step u e = some v → v.Turning ∧
        (q + 9 - v.place) % 9 + (if e.IsThread then 1 else 0) ≤ (q + 9 - u.place) % 9 := by
    intro u e v hi he hnot h
    obtain ⟨hnext, -, hplace⟩ := turning_step hi he h
    have hlt := u.place_lt
    refine ⟨hnext, ?_⟩
    rw [hplace]
    by_cases hthread : e.IsThread
    · have hne : u.place ≠ q := fun heq => hnot ⟨heq, hthread⟩
      simp only [if_pos hthread]
      omega
    · simp only [if_neg hthread]
      omega
  exact Machine.exists_of_rank hstep hrun hc hi hlong

end Steps

/-- What the callback for the clock was called with last. -/
def Net.lastClock (s : Net) : Option UInt32 := (s.got.filterMap Delivery.clock?).getLast?

/-- What the callback for the state was called with last. -/
def Net.lastState (s : Net) : Option UInt8 := (s.got.filterMap Delivery.state?).getLast?

section Fresh
variable {k : Tick} {s t : Net} {es : List NetEvent}

/-- What is told at a place of the loop is told within one turn. -/
theorem exists_told {q : ℕ} (hq : q < 9) (hi : s.Turning) (hrun : network.run s es = some t)
    (hc : network.Meets (fun _ e => e.Refreshes) s es)
    (hlong : (q + 9 - s.place) % 9 < es.countP fun e => decide e.IsThread) :
    ∃ m e n, m.place = q ∧ e.IsThread ∧ network.step m e = some n ∧
      ∀ d, told m e = some d → d ∈ network.outputs told s es := by
  obtain ⟨before, e, after, m, n, rfl, -, hm, -, ⟨hplace, hthread⟩, -, hstep, -, -⟩ :=
    exists_at_place hq hi hrun hc hlong
  refine ⟨m, e, n, hplace, hthread, hstep, fun d hd => ?_⟩
  rw [Machine.outputs_append _ hm, Machine.outputs_cons hstep, hd]
  simp

theorem pc_of_place_five (h : s.place = 5) : s.console.app.pc = .notify ∧ s.halfway = false := by
  unfold Net.place at h
  split at h <;> simp_all

theorem pc_of_place_six (h : s.place = 6) : s.console.app.pc = .notify ∧ s.halfway = true := by
  unfold Net.place at h
  split at h <;> simp_all

theorem pc_of_place_zero (h : s.place = 0) : s.console.app.pc = .readState := by
  unfold Net.place at h
  split at h
  case h_6 hpc => split_ifs at h
  all_goals first | assumption | cases h

/-- A thread between the notifications of an iteration does nothing but notify. -/
theorem told_of_notify {m n : Net} {e : NetEvent} (hpc : m.console.app.pc = .notify)
    (hthread : e.IsThread) (h : network.step m e = some n) :
    told m e = some (if m.halfway = true then m.console.app.stateSend.delivery
      else m.console.app.clockSend.delivery) := by
  cases e with
  | console e =>
      cases e with
      | ctrl k => exact hthread.elim
      | app r =>
          simp only [network, Option.ite_none_left_eq_some] at h
          exact absurd hpc h.1
  | notifyClock err | notifyState err =>
      simp only [network, Option.ite_none_right_eq_some] at h
      obtain ⟨-, -, hhalf⟩ := h.1
      simp [told, hhalf]
  | cfgChanged chrc value | display e | deliver beyond | lost keep => exact hthread.elim

/-- After 15 steps of the thread, what was told last is the clock and the state as they are. -/
theorem told_fresh (hk : dclkApp s.console.ctrl.clock = k) (hi : s.Turning)
    (hrun : network.run s es = some t) (hc : network.Meets (fun _ e => e.Refreshes) s es)
    (hlong : 15 ≤ es.countP fun e => decide e.IsThread) :
    ∃ old fresh, network.outputs told s es = old ++ fresh ∧ (∀ d ∈ fresh, d.Tells k) ∧
      (∃ v, .clock v ∈ fresh) ∧ ∃ v, .state v ∈ fresh := by
  obtain ⟨before, e, after, m, n, rfl, hcount, hm, hbefore, ⟨hplace, hthread⟩, he, hstep, hn,
    hafter⟩ := exists_at_place (q := 0) (by decide) hi hrun hc (by omega)
  obtain ⟨hm', hctrl⟩ := turning_of_run hi hm hbefore
  obtain ⟨hn', hctrl', hplace'⟩ := turning_step hm' he hstep
  rw [if_pos hthread, hplace] at hplace'
  have hclock : dclkApp n.console.ctrl.clock = k := by rw [hctrl', hctrl, hk]
  have hholds : n.HoldsTick k :=
    holdsTick_step (by rw [hctrl, hk]) (.inl (.inl (pc_of_place_zero hplace))) he hstep
  have hrest : 6 ≤ after.countP fun e => decide e.IsThread := by
    rw [List.countP_append, List.countP_cons, if_pos (decide_eq_true hthread)] at hlong
    omega
  refine ⟨network.outputs told s before ++ (told m e).toList, network.outputs told n after, ?_,
    ?_, ?_, ?_⟩
  · rw [Machine.outputs_append _ hm, Machine.outputs_cons hstep, List.append_assoc]
  · refine Machine.forall_mem_outputs_of_step
      (I := fun u => u.HoldsTick k ∧ dclkApp u.console.ctrl.clock = k ∧ u.Turning)
      (fun u e v hi he h => ?_) (fun u e v d hi h hd => hi.1.tells h hd) hn hafter
      ⟨hholds, hclock, hn'⟩
    obtain ⟨hnext, hsame, -⟩ := turning_step hi.2.2 he h
    exact ⟨holdsTick_step hi.2.1 hi.1 he h, by rw [hsame, hi.2.1], hnext⟩
  · obtain ⟨u, e', v, hu, hthread', hv, hmem⟩ :=
      exists_told (q := 5) (by decide) hn' hn hafter (by omega)
    obtain ⟨hpc, hhalf⟩ := pc_of_place_five hu
    have htold := told_of_notify hpc hthread' hv
    rw [hhalf] at htold
    exact ⟨_, hmem _ htold⟩
  · obtain ⟨u, e', v, hu, hthread', hv, hmem⟩ :=
      exists_told (q := 6) (by decide) hn' hn hafter (by omega)
    obtain ⟨hpc, hhalf⟩ := pc_of_place_six hu
    have htold := told_of_notify hpc hthread' hv
    rw [hhalf] at htold
    exact ⟨_, hmem _ htold⟩

theorem getLast?_filterMap_append {α β : Type*} {pick : α → Option β} {b : β} {xs ys : List α}
    (hall : ∀ y ∈ ys, ∀ v, pick y = some v → v = b) (hmem : ∃ y ∈ ys, (pick y).isSome) :
    ((xs ++ ys).filterMap pick).getLast? = some b := by
  obtain ⟨y, hy, hpick⟩ := hmem
  obtain ⟨v, hv⟩ := Option.isSome_iff_exists.mp hpick
  have hne : ys.filterMap pick ≠ [] := List.ne_nil_of_mem (List.mem_filterMap.mpr ⟨y, hy, hv⟩)
  rw [List.filterMap_append, List.getLast?_append_of_ne_nil _ hne,
    List.getLast?_eq_some_getLast hne]
  obtain ⟨x, hx, hlast⟩ := List.mem_filterMap.mp (List.getLast_mem hne)
  rw [hall x hx _ hlast]

/-- The thread can take its steps, however many. -/
theorem exists_thread_run (hi : s.Turning) (n : ℕ) :
    ∃ es t, network.run s es = some t ∧ (∀ e ∈ es, e.Refreshes ∧ e.IsThread) ∧ es.length = n ∧
      t.Turning ∧ t.air.length ≤ s.air.length + n := by
  induction n generalizing s with
  | zero => exact ⟨[], s, rfl, by simp, rfl, hi, le_rfl⟩
  | succ n ih =>
      obtain ⟨e, m, hthread, he, hstep⟩ := thread_enabled hi.live.on
      obtain ⟨es, t, hrun, hall, hlen, hend, hair⟩ := ih (turning_step hi he hstep).1
      have hmore := air_length_le hthread hstep
      exact ⟨e :: es, t, network.run_cons_eq_some.mpr ⟨m, hstep, hrun⟩,
        List.forall_mem_cons.mpr ⟨⟨he, hthread⟩, hall⟩, by rw [List.length_cons, hlen], hend,
        by omega⟩

/-- What is on the air can be delivered, to the last. -/
theorem exists_delivery_run (hi : s.Turning) :
    ∃ es t, network.run s es = some t ∧ (∀ e ∈ es, e.Refreshes) ∧ es.length ≤ s.air.length ∧
      t.air = [] := by
  have hstep : ∀ s : Net, s.Turning → ¬ s.air = [] → ∃ e t, e.Refreshes ∧
      network.step s e = some t ∧ t.Turning ∧ t.air.length < s.air.length := by
    intro s hi hair
    obtain ⟨m, h, hless⟩ := deliver_enabled hi hair
    have he : (NetEvent.deliver fun _ => 0).Refreshes := trivial
    exact ⟨_, m, he, h, (turning_step hi he h).1, by omega⟩
  obtain ⟨es, t, hrun, hmeets, -, hair, hlen⟩ := Machine.exists_run_of_rank hstep hi
  exact ⟨es, t, hrun, hmeets.forall_mem hrun, hlen, hair⟩

end Fresh

/-- From every reachable state with a live connection, the thread of dclk_app and the radio
alone bring the display up to date: they can always go on until nothing is on the air, and
once the thread has taken 15 steps and nothing is on the air, the callbacks of the display
were last called with the clock and the state as they are. -/
theorem caughtUp_of_live (bonds acceptList : List Addr) (base : ℕ) (scanning : Bool)
    (before : List NetEvent) (s : Net)
    (hbefore : network.run (.boot bonds acceptList base scanning) before = some s)
    (hlive : s.Live) :
    (∀ after t, network.run s after = some t → (∀ e ∈ after, e.Refreshes) →
      15 ≤ after.countP (fun e => decide e.IsThread) → t.air = [] →
        t.lastClock = some (UInt32.ofNat (dclkApp s.console.ctrl.clock).dClock) ∧
          t.lastState = some (UInt8.ofNat (dclkApp s.console.ctrl.clock).dState) ∧
          t.console.ctrl = s.console.ctrl) ∧
      ∃ after t, network.run s after = some t ∧ (∀ e ∈ after, e.Refreshes) ∧
        15 ≤ after.countP (fun e => decide e.IsThread) ∧ t.air = [] ∧
          after.length ≤ s.air.length + 30 := by
  have hturning : s.Turning := ⟨hlive, aimed_of_run hbefore,
    Machine.run_invariant' (fun _ _ _ hi h => (told_step hi h).1) hbefore nofun⟩
  constructor
  · intro after t hafter hall hlong hair
    have hc : network.Meets (fun _ e => e.Refreshes) s after := .of_mem hall s
    obtain ⟨old, fresh, htold, htells, ⟨v, hv⟩, w, hw⟩ :=
      told_fresh rfl hturning hafter hc hlong
    have hcarries : network.Meets Carries s after :=
      Machine.meets_of_invariant (I := Net.Turning)
        (fun _ _ _ hi he h => ⟨(turning_step hi he h).1, carries_of_refreshes hi.live he⟩) hafter
        hc hturning
    have hgot := got_append_air hturning.aimed hafter hcarries
    rw [hair, htold, List.map_nil, List.append_nil, ← List.append_assoc] at hgot
    refine ⟨?_, ?_, (turning_of_run hturning hafter hc).2⟩
    · rw [Net.lastClock, hgot]
      refine getLast?_filterMap_append (fun d hd u hu => ?_) ⟨_, hv, rfl⟩
      rcases htells d hd with rfl | rfl
      · exact (Option.some.inj hu).symm
      · cases hu
    · rw [Net.lastState, hgot]
      refine getLast?_filterMap_append (fun d hd u hu => ?_) ⟨_, hw, rfl⟩
      rcases htells d hd with rfl | rfl
      · cases hu
      · exact (Option.some.inj hu).symm
  · obtain ⟨es, m, hrun, hall, hlen, hm, hair⟩ := exists_thread_run hturning 15
    obtain ⟨fs, t, hrest, hall', hlen', hend⟩ := exists_delivery_run hm
    refine ⟨es ++ fs, t, by rw [Machine.run_append, hrun]; exact hrest, ?_, ?_, hend, ?_⟩
    · exact List.forall_mem_append.mpr ⟨fun e he => (hall e he).1, hall'⟩
    · have hcount : es.countP (fun e => decide e.IsThread) = es.length :=
        List.countP_eq_length.mpr fun e he => decide_eq_true (hall e he).2
      rw [List.countP_append]
      omega
    · rw [List.length_append]
      omega

theorem caughtUp_of_live_paused : ∃ s,
    network.run (.boot [] [] 16 true) untilRemotePause = some s ∧ s.lastClock = some 10 ∧
      ∃ after t, network.run s after = some t ∧ after.length ≤ 30 ∧ t.lastClock = some 6 := by
  have hlive := caughtUp_of_live [] [] 16 true untilRemotePause _ rfl
    ⟨rfl, by decide +kernel, fun chrc => by cases chrc <;> rfl, ⟨0, rfl⟩,
      fun chrc => by cases chrc <;> rfl⟩
  obtain ⟨after, t, hafter, hall, hlong, hair, hlen⟩ := hlive.2
  exact ⟨_, rfl, by decide +kernel, after, t, hafter, hlen,
    (hlive.1 after t hafter hall hlong hair).1⟩

end DodgeClock
