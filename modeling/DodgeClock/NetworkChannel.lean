import DodgeClock.LossyChannel
import DodgeClock.Network

/-!
# What the display gets of what was sent

Seen from its ends, the network is a channel: dclk_app puts values in and the callbacks of
the display take them out. It may lose values, with a connection or where nothing is
subscribed, but never makes one up, repeats or reorders them; and nothing is lost as long
as the connection and both subscriptions last and bt_gatt_notify succeeds.
-/
namespace DodgeClock
open EventSystem LossyChannel

section Channel
variable {s t : Net} {e : NetEvent} {es : List NetEvent}

/-- The way from dclk_app to the callbacks of the display. -/
def Net.channel (s : Net) : Channel Delivery :=
  ⟨s.sent.map Send.delivery, s.air.map (meaning s.srv.base), s.got⟩

/-- What a step does to that way. -/
def Net.op (s : Net) : NetEvent → Option (Op Delivery)
  | .notifyClock err =>
      if s.Takes err s.console.app.clockSend then some (.put s.console.app.clockSend.delivery)
      else none
  | .notifyState err =>
      if s.Takes err s.console.app.stateSend then some (.put s.console.app.stateSend.delivery)
      else none
  | .deliver _ => s.air.head?.map fun n =>
      if s.display.active (addressee s.srv.base n) = true then .take else .miss
  | .display e => if e = .disconnected then some (.lose 0) else none
  | .lost keep => some (.lose keep)
  | .console _ | .cfgChanged _ _ => none

theorem channel_notify {err : ℤ} {m : Send} (h : s.Takes err m) :
    LossyChannel.channel.step s.channel (.put m.delivery) = some (s.notify err m).channel := by
  rw [Net.notify_eq, if_pos h]
  simp [LossyChannel.channel, Net.channel, meaning_onAir]

theorem channel_notify_of_not {err : ℤ} {m : Send} (h : ¬ s.Takes err m) :
    (s.notify err m).channel = s.channel := by
  rw [Net.notify_eq, if_neg h]

/-- The controller, the radio and the display together are a channel that may lose but
never reorders. -/
theorem network_refines : Refines network LossyChannel.channel Aimed Net.channel Net.op where
  keeps := aimed_step
  stutters {s t e} hi h hop := by
    cases e with
    | console e =>
        simp only [network, Option.ite_none_left_eq_some, Option.map_eq_some_iff] at h
        obtain ⟨-, c, -, rfl⟩ := h
        rfl
    | notifyClock err | notifyState err =>
        simp only [network, Option.ite_none_right_eq_some, Option.some.injEq] at h
        obtain ⟨-, rfl⟩ := h
        simp only [Net.op, ite_eq_right_iff, reduceCtorEq, imp_false] at hop
        exact channel_notify_of_not hop
    | cfgChanged chrc value =>
        obtain rfl := Option.some.inj h
        simp [Net.channel, cccCfgChanged_base]
    | display e =>
        obtain ⟨-, d, -, rfl⟩ := network_step_display h
        simp only [Net.op, ite_eq_right_iff, reduceCtorEq, imp_false] at hop
        simp [Net.channel, hop]
    | deliver beyond =>
        obtain ⟨m, rest, hair, -⟩ := hi.deliver h
        simp [Net.op, hair] at hop
    | lost keep => cases hop
  steps {s t e k} hi h hop := by
    cases e with
    | console e => cases hop
    | notifyClock err | notifyState err =>
        simp only [network, Option.ite_none_right_eq_some, Option.some.injEq] at h
        obtain ⟨-, rfl⟩ := h
        simp only [Net.op, Option.ite_none_right_eq_some, Option.some.injEq] at hop
        obtain ⟨htakes, rfl⟩ := hop
        exact channel_notify htakes
    | cfgChanged chrc value => cases hop
    | display e =>
        obtain ⟨-, d, -, rfl⟩ := network_step_display h
        simp only [Net.op, Option.ite_none_right_eq_some, Option.some.injEq] at hop
        obtain ⟨rfl, rfl⟩ := hop
        simp [LossyChannel.channel, Net.channel]
    | deliver beyond =>
        obtain ⟨m, rest, hair, rfl⟩ := hi.deliver h
        simp only [Net.op, hair, List.head?_cons, Option.map_some, Option.some.injEq,
          addressee_onAir] at hop
        subst hop
        split_ifs with hactive
        · simp [LossyChannel.channel, Net.channel, hair, meaning_onAir]
        · simp [LossyChannel.channel, Net.channel, hair]
    | lost keep =>
        obtain rfl := Option.some.inj h
        obtain rfl := Option.some.inj hop
        simp [LossyChannel.channel, Net.channel, List.map_take]

theorem aimed_of_run {bonds acceptList : List Addr} {base : ℕ} {scanning : Bool}
    (hrun : network.run (.boot bonds acceptList base scanning) es = some s) : Aimed s :=
  Machine.run_invariant' (fun _ _ _ hi h => aimed_step hi h) hrun
    (aimed_boot bonds acceptList base scanning)

theorem inOrder_of_network {bonds acceptList : List Addr} {base : ℕ} {scanning : Bool}
    (hrun : network.run (.boot bonds acceptList base scanning) es = some s) :
    s.channel.InOrder := by
  have hchannel := network_refines.run (aimed_boot bonds acceptList base scanning) hrun
  exact LossyChannel.inOrder_of_run hchannel (List.Sublist.refl [])

end Channel

section Bounds

/-- A clock or a state that the controller can show. -/
def Delivery.InRange : Delivery → Prop
  | .clock v => v ≤ 10
  | .state s => s ≤ 2
  | .unsubscribed => True

/-- What is known of the values notified. -/
structure Bounded (bonds acceptList : List Addr) (s : Net) : Prop where
  reach : ∃ es, controller.run (boot bonds acceptList) es = some s.console.ctrl
  dState : s.console.app.tick.dState ≤ 2
  dClock : s.console.app.tick.dClock ≤ 10
  sent : ∀ m ∈ s.sent, m.delivery.InRange

variable {bonds acceptList : List Addr} {s t : Net} {e : NetEvent}

theorem bounded_boot (base : ℕ) (scanning : Bool) :
    Bounded bonds acceptList (.boot bonds acceptList base scanning) :=
  ⟨⟨[], rfl⟩, Nat.zero_le 2, Nat.zero_le 10, fun m hm => by simp [Net.boot] at hm⟩

theorem Bounded.exec (hi : Bounded bonds acceptList s) (r : DrawResults) :
    (s.console.exec r).app.tick.dState ≤ 2 ∧ (s.console.exec r).app.tick.dClock ≤ 10 := by
  obtain ⟨es, hrun⟩ := hi.reach
  simp only [Console.exec]
  split
  · exact ⟨(clockSound_of_run hrun).range, hi.dClock⟩
  · exact ⟨hi.dState, readClock_le_of_run hrun _⟩
  all_goals exact ⟨hi.dState, hi.dClock⟩

theorem Bounded.clockSend (hi : Bounded bonds acceptList s) :
    s.console.app.clockSend.delivery.InRange := by
  show UInt32.ofNat s.console.app.tick.dClock ≤ 10
  have hle := hi.dClock
  have hnum : (UInt32.ofNat s.console.app.tick.dClock).toNat = s.console.app.tick.dClock :=
    UInt32.toNat_ofNat_of_lt' (by show _ < 2 ^ 32; omega)
  exact UInt32.le_iff_toNat_le.mpr (by rw [hnum]; exact hle)

theorem Bounded.stateSend (hi : Bounded bonds acceptList s) :
    s.console.app.stateSend.delivery.InRange := by
  show UInt8.ofNat s.console.app.tick.dState ≤ 2
  have hle := hi.dState
  have hnum : (UInt8.ofNat s.console.app.tick.dState).toNat = s.console.app.tick.dState :=
    UInt8.toNat_ofNat_of_lt' (by show _ < 2 ^ 8; omega)
  exact UInt8.le_iff_toNat_le.mpr (by rw [hnum]; exact hle)

theorem Bounded.notify (hi : Bounded bonds acceptList s) {m : Send} (hm : m.delivery.InRange)
    (err : ℤ) : ∀ x ∈ (s.notify err m).sent, x.delivery.InRange := by
  rw [Net.notify_eq]
  split_ifs
  · intro x hx
    rcases List.mem_append.mp hx with hold | hnew
    · exact hi.sent x hold
    · rw [List.mem_singleton.mp hnew]
      exact hm
  · exact hi.sent

@[simp] theorem Net.notify_console (err : ℤ) (m : Send) (s : Net) :
    (s.notify err m).console = s.console := by
  rw [Net.notify_eq]
  split_ifs <;> rfl

@[simp] theorem Net.notify_srv (err : ℤ) (m : Send) (s : Net) :
    (s.notify err m).srv = s.srv := by
  rw [Net.notify_eq]
  split_ifs <;> rfl

@[simp] theorem Net.notify_display (err : ℤ) (m : Send) (s : Net) :
    (s.notify err m).display = s.display := by
  rw [Net.notify_eq]
  split_ifs <;> rfl

theorem bounded_step (hi : Bounded bonds acceptList s) (h : network.step s e = some t) :
    Bounded bonds acceptList t := by
  cases e with
  | console e =>
      simp only [network, Option.ite_none_left_eq_some, Option.map_eq_some_iff] at h
      obtain ⟨-, c, hc, rfl⟩ := h
      cases e with
      | ctrl k =>
          simp only [console, Option.map_eq_some_iff] at hc
          obtain ⟨m, hm, rfl⟩ := hc
          obtain ⟨es, hrun⟩ := hi.reach
          exact ⟨⟨es ++ [k], controller.run_concat hrun hm⟩, hi.dState, hi.dClock, hi.sent⟩
      | app r =>
          simp only [console, Option.ite_none_left_eq_some, Option.some.injEq] at hc
          obtain ⟨-, rfl⟩ := hc
          obtain ⟨hstate, hclock⟩ := hi.exec r
          refine ⟨?_, hstate, hclock, hi.sent⟩
          rw [Console.exec_ctrl]
          exact hi.reach
  | notifyClock err =>
      simp only [network, Option.ite_none_right_eq_some, Option.some.injEq] at h
      obtain ⟨-, rfl⟩ := h
      have hsent := hi.notify hi.clockSend err
      exact ⟨by simpa using hi.reach, by simpa using hi.dState, by simpa using hi.dClock, hsent⟩
  | notifyState err =>
      simp only [network, Option.ite_none_right_eq_some, Option.some.injEq] at h
      obtain ⟨-, rfl⟩ := h
      have hsent := hi.notify hi.stateSend err
      obtain ⟨hstate, hclock⟩ := hi.exec .success
      exact ⟨by simpa using hi.reach, hstate, hclock, hsent⟩
  | cfgChanged chrc value =>
      obtain rfl := Option.some.inj h
      exact ⟨hi.reach, hi.dState, hi.dClock, hi.sent⟩
  | display e =>
      obtain ⟨-, d, -, rfl⟩ := network_step_display h
      exact ⟨hi.reach, hi.dState, hi.dClock, hi.sent⟩
  | deliver beyond =>
      obtain ⟨n, rest, -, rfl⟩ := network_step_deliver h
      exact ⟨hi.reach, hi.dState, hi.dClock, hi.sent⟩
  | lost keep =>
      obtain rfl := Option.some.inj h
      exact ⟨hi.reach, hi.dState, hi.dClock, hi.sent⟩

end Bounds

/-- Whatever happens on either side and on the air, the callbacks of the display are given
a part of the values notified, each at most once, in the order they were sent and with the
type they were sent with: clocks from 10 down to 0 and states up to 2. -/
theorem got_sublist_sent (bonds acceptList : List Addr) (base : ℕ) (scanning : Bool)
    (es : List NetEvent) (s : Net)
    (hrun : network.run (.boot bonds acceptList base scanning) es = some s) :
    s.got.Sublist (s.sent.map Send.delivery) ∧ ∀ d ∈ s.got, d.InRange := by
  have hbounded : Bounded bonds acceptList s :=
    Machine.run_invariant' (fun _ _ _ hi h => bounded_step hi h) hrun (bounded_boot base scanning)
  have horder : s.got.Sublist (s.sent.map Send.delivery) :=
    (List.sublist_append_left _ _).trans (inOrder_of_network hrun)
  refine ⟨horder, fun d hd => ?_⟩
  obtain ⟨m, hm, rfl⟩ := List.mem_map.mp (horder.subset hd)
  exact hbounded.sent m hm

/-- A display connects, finds the service and subscribes to it. -/
def subscribedNet : List NetEvent :=
  [.console (.ctrl (.connected 0 false)), .display (.matched (some 0)), .display (.connected 0),
    .display (.discovered (.ofService 0 16) .success), .cfgChanged .clock 1, .cfgChanged .state 1]

/-- An iteration of dclk_app, up to its wait. -/
def notifiedIteration : List NetEvent :=
  List.replicate 5 (.console (.app .success)) ++ [.notifyClock 0, .notifyState 0] ++
    List.replicate 2 (.console (.app .success))

/-- The clock of the first iteration arrives, and its state is lost. -/
def halfLostNet : List NetEvent :=
  subscribedNet ++ notifiedIteration ++ [.deliver fun _ => 0, .lost 0]

theorem got_sublist_sent_halfLost : ∃ s, network.run (.boot [] [] 16 true) halfLostNet = some s ∧
    s.got.Sublist (s.sent.map Send.delivery) ∧ ∀ d ∈ s.got, d.InRange :=
  ⟨_, rfl, got_sublist_sent [] [] 16 true halfLostNet _ rfl⟩

example : (network.run (.boot [] [] 16 true) halfLostNet).map (·.got) = some [.clock 0] := rfl

section Lossless
variable {s t : Net} {e : NetEvent} {es : List NetEvent}

/-- The step loses no value: a notification is taken, what arrives is subscribed to, and
the connection lasts. -/
def Carries (s : Net) : NetEvent → Prop
  | .notifyClock err => s.Takes err s.console.app.clockSend
  | .notifyState err => s.Takes err s.console.app.stateSend
  | .deliver _ => s.display.active .clock = true ∧ s.display.active .state = true
  | .display e => e ≠ .disconnected
  | .lost keep => s.air.length ≤ keep
  | .console _ | .cfgChanged _ _ => True

instance Carries.decidable (s : Net) : (e : NetEvent) → Decidable (Carries s e)
  | .notifyClock _ | .notifyState _ => inferInstanceAs (Decidable (s.Takes _ _))
  | .deliver _ => inferInstanceAs (Decidable (_ ∧ _))
  | .display _ => inferInstanceAs (Decidable (_ ≠ _))
  | .lost _ => inferInstanceAs (Decidable (_ ≤ _))
  | .console _ | .cfgChanged _ _ => .isTrue trivial

/-- The values dclk_app has notified, taken or not. -/
def told (s : Net) : NetEvent → Option Delivery
  | .notifyClock _ => some s.console.app.clockSend.delivery
  | .notifyState _ => some s.console.app.stateSend.delivery
  | _ => none

theorem item_of_carries (hc : Carries s e) : (s.op e).bind Op.item = told s e := by
  cases e with
  | notifyClock err | notifyState err =>
      simp only [Carries] at hc
      simp only [Net.op, if_pos hc]
      rfl
  | deliver beyond =>
      simp only [Net.op, told]
      cases s.air with
      | nil => rfl
      | cons n rest =>
          simp only [List.head?_cons, Option.map_some, Option.bind_some]
          split_ifs <;> rfl
  | display e =>
      simp only [Net.op]
      rw [if_neg hc]
      rfl
  | console e | cfgChanged chrc value | lost keep => rfl

theorem keeps_of_carries (hc : Carries s e) (op : Op Delivery) (hop : s.op e = some op) :
    Keeps s.channel op := by
  cases e with
  | console e | cfgChanged chrc value => cases hop
  | notifyClock err | notifyState err =>
      simp only [Net.op, Option.ite_none_right_eq_some, Option.some.injEq] at hop
      obtain ⟨-, rfl⟩ := hop
      trivial
  | deliver beyond =>
      obtain ⟨hclock, hstate⟩ := hc
      have hactive : ∀ chrc, s.display.active chrc = true := by
        intro chrc
        cases chrc
        · exact hclock
        · exact hstate
      simp only [Net.op, hactive, if_true, Option.map_eq_some_iff] at hop
      obtain ⟨n, -, rfl⟩ := hop
      trivial
  | display e =>
      simp only [Net.op] at hop
      rw [if_neg hc] at hop
      cases hop
  | lost keep =>
      obtain rfl := Option.some.inj hop
      show (s.air.map _).length ≤ keep
      rw [List.length_map]
      exact hc

theorem got_append_air (hi : Aimed s) (hrun : network.run s es = some t)
    (hc : network.Meets Carries s es) :
    t.got ++ t.air.map (meaning t.srv.base) =
      s.got ++ s.air.map (meaning s.srv.base) ++ network.outputs told s es := by
  have hkeeps : LossyChannel.channel.Meets Keeps s.channel (network.outputs Net.op s es) :=
    (network_refines.meets_iff hi hrun).mpr (hc.imp fun _ _ h op hop => keeps_of_carries h op hop)
  have hitems : (network.outputs Net.op s es).filterMap Op.item = network.outputs told s es := by
    rw [Machine.outputs_filterMap]
    exact Machine.outputs_congr (hc.imp fun _ _ h => item_of_carries h)
  rw [← hitems]
  exact keeps_of_run (network_refines.run hi hrun) hkeeps

end Lossless

/-- As long as the connection and both subscriptions last and bt_gatt_notify succeeds, the
callbacks of the display are given every value dclk_app notifies, once and in order. -/
theorem got_eq_told (bonds acceptList : List Addr) (base : ℕ) (scanning : Bool)
    (before after : List NetEvent) (s t : Net)
    (hbefore : network.run (.boot bonds acceptList base scanning) before = some s)
    (hafter : network.run s after = some t) (hc : network.Meets Carries s after)
    (hs : s.air = []) (ht : t.air = []) :
    t.got = s.got ++ network.outputs told s after := by
  have heq := got_append_air (aimed_of_run hbefore) hafter hc
  simpa [hs, ht] using heq

/-- Two iterations of dclk_app, the second one while the first one is on the air. -/
def carriedNet : List NetEvent :=
  notifiedIteration ++ [.deliver fun _ => 0] ++ notifiedIteration ++
    List.replicate 3 (.deliver fun _ => 0xFF)

theorem got_eq_told_carried : ∃ s t, network.run (.boot [] [] 16 true) subscribedNet = some s ∧
    network.run s carriedNet = some t ∧ t.got = s.got ++ network.outputs told s carriedNet :=
  ⟨_, _, rfl, rfl, got_eq_told [] [] 16 true subscribedNet carriedNet _ _ rfl rfl (by decide)
    rfl rfl⟩

end DodgeClock
