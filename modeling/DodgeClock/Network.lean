import DodgeClock.AppThread
import DodgeClock.Display
import DodgeClock.Notifications
import DodgeClock.Payload

/-!
# The controller and a display

dclk_app notifies the clock and its state in every iteration, the notifications travel in
order as long as the connection lasts, and the stack of the display hands them to
on_received if it holds a subscription to their handle. Whatever the controller, the
radio and the display do, only values of the service travel, and the display listens at
its handles.
-/
namespace DodgeClock
open EventSystem LittleEndian

/-- What dclk_send_clock_notify is given. -/
def App.clockSend (a : App) : Send := .clock (UInt32.ofNat a.tick.dClock)

/-- What dclk_send_state_notify is given. -/
def App.stateSend (a : App) : Send := .state (UInt8.ofNat a.tick.dState)

/-- dclk_app executes the statement `pc` with the event. -/
def Console.Executes (pc : AppStmt) (s : Console) : ConsoleEvent → Prop
  | .app _ => s.app.pc = pc
  | .ctrl _ => False

instance Console.Executes.decidable (pc : AppStmt) (s : Console) :
    (e : ConsoleEvent) → Decidable (s.Executes pc e)
  | .app _ => inferInstanceAs (Decidable (_ = _))
  | .ctrl _ => .isFalse id

/-- The subscriptions the stack of the display holds. -/
def Display.subscriptions (d : Display) : List Chrc := [.clock, .state].filter d.active

/-- `halfway` is between the two notifications of an iteration; `air` is what the stacks
have still to deliver. The last three fields only record the run: when dclk_app has read
d_clock, what bt_gatt_notify has taken and what the callbacks of the display have got. -/
structure Net where
  console : Console
  srv : DclkService
  halfway : Bool
  air : List Notification
  display : Display
  readAt : ℕ
  sent : List Send
  got : List Delivery

/-- Both sides after start-up, the service registered at `base`. -/
def Net.boot (bonds acceptList : List Addr) (base : ℕ) (scanning : Bool) : Net :=
  ⟨.boot bonds acceptList, ⟨base, false, false⟩, false, [], .boot appCallbacks scanning, 0, [], []⟩

/-- `cfgChanged` is a call of dclk_ccc_clock_cfg_changed or dclk_ccc_state_cfg_changed.
`deliver` carries the memory behind the payload, and `lost` leaves the first `keep`
notifications on the air. -/
inductive NetEvent where
  | console (e : ConsoleEvent)
  | notifyClock (err : ℤ)
  | notifyState (err : ℤ)
  | cfgChanged (chrc : Chrc) (value : ℕ)
  | display (e : DisplayEvent)
  | deliver (beyond : ℕ → UInt8)
  | lost (keep : ℕ)

/-- A discovery finds the service at `base`, and only discovery_complete subscribes. -/
def DisplayEvent.OfService (base : ℕ) : DisplayEvent → Prop
  | .discovered dm _ => dm = .ofService dm.conn base
  | .subscribe _ => False
  | _ => True

instance DisplayEvent.OfService.decidable (base : ℕ) :
    (e : DisplayEvent) → Decidable (e.OfService base)
  | .discovered _ _ => inferInstanceAs (Decidable (_ = _))
  | .subscribe _ => .isFalse id
  | .matched _ | .connected _ | .disconnected | .pairingCall | .pairingReturn
  | .unsubscribed _ => .isTrue trivial

namespace Net

/-- The stack takes a notification: the characteristic is enabled, a peer is connected and
bt_gatt_notify returns 0. -/
def Takes (s : Net) (err : ℤ) (m : Send) : Prop :=
  (m.notify s.srv).toOption ≠ none ∧ s.console.ctrl.link.peer ≠ none ∧ err = 0

instance (s : Net) (err : ℤ) (m : Send) : Decidable (s.Takes err m) :=
  inferInstanceAs (Decidable (_ ∧ _))

/-- A call of dclk_send_clock_notify or dclk_send_state_notify; `err` is the result of
bt_gatt_notify, if it is called. -/
def notify (err : ℤ) (m : Send) (s : Net) : Net :=
  if s.Takes err m then
    { s with air := s.air ++ (m.notify s.srv).toOption.toList, sent := s.sent ++ [m] }
  else s

/-- The stack of the display is handed a notification. -/
def arrive (beyond : ℕ → UInt8) (n : Notification) (s : Net) : Net :=
  let a := s.display.client.notified beyond s.display.subscriptions n
  { s with
    display := { s.display with active := fun chrc => decide (chrc ∈ a.1) }
    got := s.got ++ a.2 }

/-- dclk_app is at the first or at the second notification. -/
def AtNotify (s : Net) (second : Bool) : Prop :=
  s.console.ctrl.off = false ∧ s.console.app.pc = .notify ∧ s.halfway = second

instance (s : Net) (second : Bool) : Decidable (s.AtNotify second) :=
  inferInstanceAs (Decidable (_ ∧ _))

end Net

def network : Machine Net NetEvent where
  step
    | s, .console e =>
        if s.console.Executes .notify e then none
        else (console.step s.console e).map fun c =>
          { s with
            console := c
            readAt := if s.console.Executes .readClock e then s.console.ctrl.now else s.readAt }
    | s, .notifyClock err =>
        if s.AtNotify false then some { s.notify err s.console.app.clockSend with halfway := true }
        else none
    | s, .notifyState err =>
        if s.AtNotify true then
          some { s.notify err s.console.app.stateSend with
            halfway := false, console := s.console.exec .success }
        else none
    | s, .cfgChanged chrc value => some { s with srv := s.srv.cccCfgChanged chrc value }
    | s, .display e =>
        if e.OfService s.srv.base then
          (display.step s.display e).map fun d =>
            { s with display := d, air := if e = .disconnected then [] else s.air }
        else none
    | s, .deliver beyond => match s.air, s.display.link with
        | n :: rest, .established _ => some ({ s with air := rest }.arrive beyond n)
        | _, _ => none
    | s, .lost keep => some { s with air := s.air.take keep }

section OnAir

/-- The characteristic a value is notified for. -/
def Send.chrc : Send → Chrc
  | .clock _ => .clock
  | .state _ => .state

/-- The notification a value travels as. -/
def Send.onAir (base : ℕ) : Send → Notification
  | .clock v => ⟨base + 5, bytes 4 v.toNat⟩
  | .state s => ⟨base + 2, bytes 1 s.toNat⟩

/-- The characteristic a notification of the service at `base` is for. -/
def addressee (base : ℕ) (n : Notification) : Chrc :=
  if n.handle = base + 5 then .clock else .state

/-- What the notification means to the display. -/
def meaning (base : ℕ) (n : Notification) : Delivery :=
  (addressee base n).delivery (load (addressee base n).size (place n.data fun _ => 0))

theorem addressee_onAir (base : ℕ) (m : Send) : addressee base (m.onAir base) = m.chrc := by
  cases m <;> simp [addressee, Send.onAir, Send.chrc]

theorem meaning_onAir (base : ℕ) (m : Send) : meaning base (m.onAir base) = m.delivery := by
  rw [meaning, addressee_onAir]
  cases m with
  | clock v =>
      have hv : v.toNat < 256 ^ 4 := v.toNat_lt
      simp [Send.onAir, Send.chrc, Chrc.delivery, Chrc.size, Send.delivery, load_place_of_lt hv]
  | state s =>
      have hs : s.toNat < 256 ^ 1 := s.toNat_lt
      simp [Send.onAir, Send.chrc, Chrc.delivery, Chrc.size, Send.delivery, load_place_of_lt hs]

/-- The notification of the characteristic is enabled. -/
def DclkService.enabled (srv : DclkService) : Chrc → Bool
  | .clock => srv.notifyClockEnabled
  | .state => srv.notifyStateEnabled

theorem Send.notify_toOption (m : Send) (srv : DclkService) :
    (m.notify srv).toOption =
      if srv.enabled m.chrc = true then some (m.onAir srv.base) else none := by
  cases m with
  | clock v =>
      cases h : srv.notifyClockEnabled <;>
        simp [Send.notify, DclkService.dclkSendClockNotify, DclkService.enabled, Send.chrc, h] <;>
        rfl
  | state s =>
      cases h : srv.notifyStateEnabled <;>
        simp [Send.notify, DclkService.dclkSendStateNotify, DclkService.enabled, Send.chrc, h] <;>
        rfl

theorem Net.takes_iff {s : Net} {err : ℤ} {m : Send} : s.Takes err m ↔
    s.srv.enabled m.chrc = true ∧ s.console.ctrl.link.peer ≠ none ∧ err = 0 := by
  rw [Net.Takes, Send.notify_toOption]
  by_cases h : s.srv.enabled m.chrc = true <;> simp [h]

theorem Net.notify_eq (err : ℤ) (m : Send) (s : Net) : s.notify err m =
    if s.Takes err m then
      { s with air := s.air ++ [m.onAir s.srv.base], sent := s.sent ++ [m] }
    else s := by
  rw [Net.notify]
  split_ifs with h
  · rw [Send.notify_toOption, if_pos (Net.takes_iff.mp h).1]
    rfl
  · rfl

end OnAir

section Arrive
variable {s : Net} {m : Send} (beyond : ℕ → UInt8)

/-- A client that listens at the handles of the service at `base`. -/
abbrev Listens (base : ℕ) (c : DclkClient) : Prop := Wired ⟨base, true, true⟩ c

theorem notified_onAir {base : ℕ} {c : DclkClient} (hw : Listens base c) (active : Chrc → Bool) :
    c.notified beyond ([.clock, .state].filter active) (m.onAir base) =
      ([.clock, .state].filter active, if active m.chrc = true then [m.delivery] else []) := by
  cases m with
  | clock v =>
      have ha := answer_clock beyond hw v
      cases hclock : active .clock <;> cases hstate : active .state <;>
        simp [DclkClient.notified, DclkClient.params, Send.onAir, Send.chrc, Send.delivery,
          hw.clockHandle, hw.stateHandle, hclock, hstate, ha]
  | state v =>
      have ha := answer_state beyond hw v
      cases hclock : active .clock <;> cases hstate : active .state <;>
        simp [DclkClient.notified, DclkClient.params, Send.onAir, Send.chrc, Send.delivery,
          hw.clockHandle, hw.stateHandle, hclock, hstate, ha]

/-- A value that arrives goes to its callback, if that is subscribed. -/
theorem Net.arrive_onAir
    (hw : (∃ chrc, s.display.active chrc = true) → Listens s.srv.base s.display.client) :
    s.arrive beyond (m.onAir s.srv.base) =
      { s with got := s.got ++ if s.display.active m.chrc = true then [m.delivery] else [] } := by
  by_cases hany : ∃ chrc, s.display.active chrc = true
  · rw [Net.arrive, Display.subscriptions, notified_onAir beyond (hw hany)]
    have hactive : (fun chrc => decide (chrc ∈ [.clock, .state].filter s.display.active)) =
        s.display.active := by
      funext chrc
      cases chrc <;> simp
    rw [hactive]
  · have hnone : ∀ chrc, s.display.active chrc = false := by simpa using hany
    have hactive : s.display.active = fun _ => false := funext hnone
    simp [Net.arrive, Display.subscriptions, DclkClient.notified, hactive]
    rw [← hactive]

end Arrive

/-- On the air there are values of the service only, and a subscription is one to its
handles. -/
structure Aimed (s : Net) : Prop where
  air : ∀ n ∈ s.air, ∃ m : Send, n = m.onAir s.srv.base
  callbacks : s.display.client.cb = appCallbacks
  listens : (∃ chrc, s.display.active chrc = true) → Listens s.srv.base s.display.client
  held : s.display.Held

section Aimed
variable {s t : Net} {e : NetEvent}

theorem aimed_boot (bonds acceptList : List Addr) (base : ℕ) (scanning : Bool) :
    Aimed (.boot bonds acceptList base scanning) where
  air n hn := by simp [Net.boot] at hn
  callbacks := rfl
  listens h := by simp [Net.boot, Display.boot] at h
  held := held_boot appCallbacks scanning

/-- The steps that neither notify nor deliver leave what is on the air and the client, or
drop some of it. -/
theorem Aimed.frame (hi : Aimed s) (hair : t.air ⊆ s.air) (hbase : t.srv.base = s.srv.base)
    (hdisplay : t.display = s.display) : Aimed t := by
  refine ⟨fun n hn => ?_, ?_, ?_, ?_⟩
  · rw [hbase]
    exact hi.air n (hair hn)
  · rw [hdisplay]
    exact hi.callbacks
  · rw [hdisplay, hbase]
    exact hi.listens
  · rw [hdisplay]
    exact hi.held

theorem Aimed.notify (hi : Aimed s) (err : ℤ) (m : Send) : Aimed (s.notify err m) := by
  rw [Net.notify_eq]
  split_ifs with h
  · refine ⟨fun n hn => ?_, hi.callbacks, hi.listens, hi.held⟩
    rcases List.mem_append.mp hn with hold | hnew
    · exact hi.air n hold
    · exact ⟨m, List.mem_singleton.mp hnew⟩
  · exact hi

theorem cccCfgChanged_base (chrc : Chrc) (value : ℕ) (srv : DclkService) :
    (srv.cccCfgChanged chrc value).base = srv.base := by
  cases chrc <;> rfl

/-- discovery_complete leaves the client listening to the service it was called for. -/
theorem listens_discovered {c : DclkClient} (hcb : c.cb = appCallbacks) (conn : Conn) (base : ℕ)
    (r : SubscribeResults) :
    Listens base (discoveryComplete (.ofService conn base) r c).client := by
  rw [discoveryComplete, handlesAssign_ofService, dclkClientSubscribe_client]
  exact ⟨rfl, rfl, hcb, rfl, rfl⟩

theorem Aimed.display {d : Display} {e : DisplayEvent} (hi : Aimed s) (he : e.OfService s.srv.base)
    (h : DisplayStep s.display e d) :
    Aimed { s with display := d, air := if e = .disconnected then [] else s.air } := by
  have hair : ∀ n ∈ (if e = .disconnected then [] else s.air), ∃ m : Send,
      n = m.onAir s.srv.base := by
    intro n hn
    split_ifs at hn
    · cases hn
    · exact hi.air n hn
  have hheld := held_step hi.held h
  cases h
  case discovered dm r hl =>
    obtain ⟨conn, rfl⟩ : ∃ conn, dm = .ofService conn s.srv.base := ⟨dm.conn, he⟩
    have hlistens := listens_discovered hi.callbacks conn s.srv.base r
    exact ⟨hair, hlistens.callbacks, fun _ => hlistens, hheld⟩
  case subscribe r => exact he.elim
  case disconnected conn hl =>
    exact ⟨hair, hi.callbacks, fun h => absurd h (by simp), hheld⟩
  case unsubscribed chrc ha =>
    exact ⟨hair, hi.callbacks, fun _ => hi.listens ⟨chrc, ha⟩, hheld⟩
  all_goals exact ⟨hair, hi.callbacks, hi.listens, hheld⟩

theorem network_step_display {e : DisplayEvent} (h : network.step s (.display e) = some t) :
    e.OfService s.srv.base ∧ ∃ d, display.step s.display e = some d ∧
      t = { s with display := d, air := if e = .disconnected then [] else s.air } := by
  simp only [network, Option.ite_none_right_eq_some, Option.map_eq_some_iff] at h
  obtain ⟨he, d, hd, rfl⟩ := h
  exact ⟨he, d, hd, rfl⟩

theorem network_step_deliver {beyond : ℕ → UInt8}
    (h : network.step s (.deliver beyond) = some t) :
    ∃ n rest, s.air = n :: rest ∧ t = { s with air := rest }.arrive beyond n := by
  simp only [network] at h
  split at h
  · next n rest conn hair hlink =>
      exact ⟨n, rest, hair, (Option.some.inj h).symm⟩
  · cases h

/-- A delivery takes the first value off the air and, if it is subscribed to, gives it to
its callback. -/
theorem Aimed.deliver {beyond : ℕ → UInt8} (hi : Aimed s)
    (h : network.step s (.deliver beyond) = some t) :
    ∃ (m : Send) (rest : List Notification), s.air = m.onAir s.srv.base :: rest ∧
      t = { s with
        air := rest
        got := s.got ++ if s.display.active m.chrc = true then [m.delivery] else [] } := by
  obtain ⟨n, rest, hair, rfl⟩ := network_step_deliver h
  obtain ⟨m, rfl⟩ := hi.air n (by rw [hair]; exact List.mem_cons_self)
  exact ⟨m, rest, hair, Net.arrive_onAir (s := { s with air := rest }) beyond hi.listens⟩

theorem aimed_step (hi : Aimed s) (h : network.step s e = some t) : Aimed t := by
  cases e with
  | console e =>
      simp only [network, Option.ite_none_left_eq_some, Option.map_eq_some_iff] at h
      obtain ⟨-, c, -, rfl⟩ := h
      exact hi.frame (List.Subset.refl _) rfl rfl
  | notifyClock err | notifyState err =>
      simp only [network, Option.ite_none_right_eq_some, Option.some.injEq] at h
      obtain ⟨-, rfl⟩ := h
      exact (hi.notify err _).frame (List.Subset.refl _) rfl rfl
  | cfgChanged chrc value =>
      obtain rfl := Option.some.inj h
      exact hi.frame (List.Subset.refl _) (cccCfgChanged_base chrc value s.srv) rfl
  | display e =>
      obtain ⟨he, d, hd, rfl⟩ := network_step_display h
      exact hi.display he (displayStep_inv hi.held hd)
  | deliver beyond =>
      obtain ⟨m, rest, hair, rfl⟩ := hi.deliver h
      refine hi.frame (fun n hn => ?_) rfl rfl
      rw [hair]
      exact List.mem_cons_of_mem _ hn
  | lost keep =>
      obtain rfl := Option.some.inj h
      exact hi.frame (List.take_subset keep s.air) rfl rfl

end Aimed

end DodgeClock
