import DodgeClock.DclkClient

/-!
# From the controller to the callbacks of the display

The controller names the attribute it notifies by an index into its service, the client
tells its subscriptions apart by handles it has looked up by UUID, and the value crosses
as bytes. Put together, the two callbacks receive exactly the values sent.
-/
namespace DodgeClock
open AttributeTable LittleEndian

/-- A call of dclk_send_clock_notify or dclk_send_state_notify. -/
inductive Send where
  | clock (v : UInt32)
  | state (s : UInt8)
  deriving DecidableEq, Repr

namespace Send

def notify (srv : DclkService) : Send → Except ℤ Notification
  | .clock v => srv.dclkSendClockNotify v
  | .state s => srv.dclkSendStateNotify s

def clock? : Send → Option UInt32
  | .clock v => some v
  | .state _ => none

def state? : Send → Option UInt8
  | .clock _ => none
  | .state s => some s

/-- The callback the value is meant for. -/
def delivery : Send → Delivery
  | .clock v => .clock v
  | .state s => .state s

end Send

namespace Delivery

def clock? : Delivery → Option UInt32
  | .clock v => some v
  | _ => none

def state? : Delivery → Option UInt8
  | .state s => some s
  | _ => none

end Delivery

namespace DclkClient

/-- on_received, called for one subscription. `beyond` is the memory behind the payload. -/
def answer (c : DclkClient) (beyond : ℕ → UInt8) (n : Notification) (chrc : Chrc) :
    Option Delivery × GattIter :=
  onReceived c (c.params chrc).valueHandle (some (place n.data beyond)) n.data.length

/-- The stack calls on_received for each active subscription to the handle, and ends those
for which it answers BT_GATT_ITER_STOP. -/
def notified (c : DclkClient) (beyond : ℕ → UInt8) (active : List Chrc) (n : Notification) :
    List Chrc × List Delivery :=
  let hit := fun chrc => decide ((c.params chrc).valueHandle = n.handle)
  (active.filter fun chrc => !(hit chrc && decide ((c.answer beyond n chrc).2 = .iterStop)),
    (active.filter hit).filterMap fun chrc => (c.answer beyond n chrc).1)

end DclkClient

/-- What the client's callbacks are given while the service sends, the link delivering
each notification once and in order. -/
def exchange (srv : DclkService) (c : DclkClient) (beyond : ℕ → UInt8) :
    List Chrc → List Send → List Delivery
  | _, [] => []
  | active, m :: sends => match m.notify srv with
    | .error _ => exchange srv c beyond active sends
    | .ok n =>
        let a := c.notified beyond active n
        a.2 ++ exchange srv c beyond a.1 sends

/-- The client listens where the service sends, and both callbacks want to hear more. -/
structure Wired (srv : DclkService) (c : DclkClient) : Prop where
  clockHandle : c.dclockNotifParams.valueHandle = srv.base + 5
  stateHandle : c.dstateNotifParams.valueHandle = srv.base + 2
  callbacks : c.cb = appCallbacks
  clockEnabled : srv.notifyClockEnabled = true
  stateEnabled : srv.notifyStateEnabled = true

section Wired
variable {srv : DclkService} {c : DclkClient} (beyond : ℕ → UInt8)

theorem notify_clock (hw : Wired srv c) (v : UInt32) :
    (Send.clock v).notify srv = .ok ⟨srv.base + 5, bytes 4 v.toNat⟩ := by
  simp only [Send.notify, DclkService.dclkSendClockNotify, hw.clockEnabled]
  rfl

theorem notify_state (hw : Wired srv c) (s : UInt8) :
    (Send.state s).notify srv = .ok ⟨srv.base + 2, bytes 1 s.toNat⟩ := by
  simp only [Send.notify, DclkService.dclkSendStateNotify, hw.stateEnabled]
  rfl

theorem answer_clock (hw : Wired srv c) (v : UInt32) :
    c.answer beyond ⟨srv.base + 5, bytes 4 v.toNat⟩ .clock =
      (some (.clock v), .iterContinue) := by
  have hv : v.toNat < 256 ^ 4 := v.toNat_lt
  simp [DclkClient.answer, DclkClient.params, onReceived, hw.callbacks, appCallbacks,
    load_place_of_lt hv]

theorem answer_state (hw : Wired srv c) (s : UInt8) :
    c.answer beyond ⟨srv.base + 2, bytes 1 s.toNat⟩ .state =
      (some (.state s), .iterContinue) := by
  have hs : s.toNat < 256 ^ 1 := s.toNat_lt
  simp [DclkClient.answer, DclkClient.params, onReceived, hw.clockHandle, hw.stateHandle,
    hw.callbacks, appCallbacks, load_place_of_lt hs]

theorem notified_clock (hw : Wired srv c) (v : UInt32) :
    c.notified beyond [.clock, .state] ⟨srv.base + 5, bytes 4 v.toNat⟩ =
      ([.clock, .state], [.clock v]) := by
  simp [DclkClient.notified, DclkClient.params, hw.clockHandle, hw.stateHandle,
    answer_clock beyond hw]

theorem notified_state (hw : Wired srv c) (s : UInt8) :
    c.notified beyond [.clock, .state] ⟨srv.base + 2, bytes 1 s.toNat⟩ =
      ([.clock, .state], [.state s]) := by
  simp [DclkClient.notified, DclkClient.params, hw.clockHandle, hw.stateHandle,
    answer_state beyond hw]

/-- Every value sent reaches the callback it is meant for, in order. -/
theorem exchange_eq (hw : Wired srv c) (sends : List Send) :
    exchange srv c beyond [.clock, .state] sends = sends.map Send.delivery := by
  induction sends with
  | nil => rfl
  | cons m sends ih =>
      cases m with
      | clock v =>
          simp only [exchange, notify_clock hw, notified_clock beyond hw, ih]
          rfl
      | state s =>
          simp only [exchange, notify_state hw, notified_state beyond hw, ih]
          rfl

end Wired

/-- The handles found in `dclk_svc`, whatever the client held before. -/
theorem handlesAssign_ofService (conn : Conn) (base : ℕ) (c : DclkClient) :
    dclkClientHandlesAssign (.ofService conn base) c =
      ({ c with handles := ⟨base + 2, base + 6, base + 5, base + 3⟩, conn := some conn }, 0) := by
  have hclock : assignChrc (.ofService conn base) .clock .unassigned =
      .ok ⟨0xFFFF, base + 6, base + 5, 0xFFFF⟩ := by
    simp [assignChrc, Dm.ofService, discovered, dclkSvc, btGattCharacteristic, charByUuid,
      descByUuid, Chrc.uuid, GattAttr.chrc, GattAttr.uuid, Handles.unassigned, Handles.setValue,
      Handles.setCcc]
  have hstate : assignChrc (.ofService conn base) .state ⟨0xFFFF, base + 6, base + 5, 0xFFFF⟩ =
      .ok ⟨base + 2, base + 6, base + 5, base + 3⟩ := by
    simp [assignChrc, Dm.ofService, discovered, dclkSvc, btGattCharacteristic, charByUuid,
      descByUuid, Chrc.uuid, GattAttr.chrc, GattAttr.uuid, Handles.setValue, Handles.setCcc]
  have hservice : (Dm.ofService conn base).service = btUuidDclk := rfl
  rw [dclkClientHandlesAssign, if_neg (not_not.mpr hservice), hclock]
  simp only [hstate]
  rfl

theorem wired_of_assigned {base : ℕ} {conn : Conn} {c₀ c₁ : DclkClient} {srv : DclkService}
    (hcb : c₀.cb = appCallbacks) (hbase : srv.base = base)
    (hassign : dclkClientHandlesAssign (.ofService conn base) c₀ = (c₁, 0))
    (hclock : srv.notifyClockEnabled = true) (hstate : srv.notifyStateEnabled = true)
    (r : SubscribeResults) : Wired srv (dclkClientSubscribe r c₁).client := by
  rw [handlesAssign_ofService] at hassign
  obtain rfl := congrArg Prod.fst hassign
  rw [dclkClientSubscribe_client]
  exact ⟨by rw [hbase]; rfl, by rw [hbase]; rfl, hcb, hclock, hstate⟩

/-- bt_gatt_subscribe writes the CCC descriptor it is given. -/
def cccWrite (srv : DclkService) (call : SubscribeCall) : DclkService :=
  srv.write call.params.cccHandle call.params.value

/-- The CCC values the client writes enable both notifications of the service. -/
theorem enabled_of_subscribe {base : ℕ} {conn : Conn} {c₀ c₁ : DclkClient}
    (hassign : dclkClientHandlesAssign (.ofService conn base) c₀ = (c₁, 0))
    (r : SubscribeResults) :
    (dclkClientSubscribe r c₁).calls.foldl cccWrite ⟨base, false, false⟩ = ⟨base, true, true⟩ := by
  rw [handlesAssign_ofService] at hassign
  obtain rfl := congrArg Prod.fst hassign
  rw [dclkClientSubscribe_calls]
  simp [cccWrite, DclkService.write, DclkClient.wanted, Handles.ccc, dclkSvc, btGattCharacteristic,
    DclkService.cccCfgChanged]

/-- For any base handle, any client that has assigned the handles of the service and
subscribed to both characteristics, and any values sent, the two callbacks receive the
values sent to them and no others. -/
theorem received_eq_sent (base : ℕ) (conn : Conn) (c₀ c₁ : DclkClient) (srv : DclkService)
    (sends : List Send) (beyond : ℕ → UInt8) (hcb : c₀.cb = appCallbacks)
    (hbase : srv.base = base)
    (hassign : dclkClientHandlesAssign (.ofService conn base) c₀ = (c₁, 0))
    (hclock : srv.notifyClockEnabled = true) (hstate : srv.notifyStateEnabled = true) :
    let sub := dclkClientSubscribe .success c₁
    let received := exchange srv sub.client beyond (sub.calls.map (·.chrc)) sends
    received.filterMap Delivery.clock? = sends.filterMap Send.clock? ∧
      received.filterMap Delivery.state? = sends.filterMap Send.state? := by
  have hw := wired_of_assigned hcb hbase hassign hclock hstate .success
  have hactive : (dclkClientSubscribe .success c₁).calls.map (·.chrc) = [.clock, .state] := by
    rw [dclkClientSubscribe_calls]
    rfl
  have hsame := exchange_eq beyond hw sends
  intro sub received
  have hreceived : received = sends.map Send.delivery := by rw [← hsame, ← hactive]
  rw [hreceived, List.filterMap_map, List.filterMap_map]
  refine ⟨congrFun (congrArg _ ?_) _, congrFun (congrArg _ ?_) _⟩ <;>
    · funext m
      cases m <;> rfl

theorem received_eq_sent_assignedClient :
    let sub := dclkClientSubscribe .success assignedClient
    let received := exchange ⟨10, true, true⟩ sub.client (fun _ => 0xFF) (sub.calls.map (·.chrc))
      [.clock 9, .state 0, .clock 8]
    received.filterMap Delivery.clock? = [9, 8] ∧ received.filterMap Delivery.state? = [0] :=
  received_eq_sent 10 0 (.boot appCallbacks) assignedClient ⟨10, true, true⟩
    [.clock 9, .state 0, .clock 8] (fun _ => 0xFF) rfl rfl (handlesAssign_ofService 0 10 _) rfl rfl

end DodgeClock
