import DodgeClock.DclkService

/-!
# The client of the display

The functions of DCLK_client.c that work on `DCLK_client`: handle assignment after a
discovery, subscription, and the callback that receives notifications. The results of
the stack calls they make are arguments, and the subscriptions they ask for are part of
what they return. Log output is left out.
-/
namespace DodgeClock
open AttributeTable LittleEndian

/-- A connection object (`struct bt_conn *`), only ever compared. -/
abbrev Conn := ℕ

/-- A discovery: its connection, the UUID of the service and the attributes found. -/
structure Dm where
  conn : Conn
  service : Uuid
  attrs : List (Attr Uuid)
  deriving DecidableEq, Repr

/-- `struct dclk_client_handles`. -/
structure Handles where
  dstate : ℕ
  dclockCcc : ℕ
  dclock : ℕ
  dstateCcc : ℕ
  deriving DecidableEq, Repr

/-- A discovery of `dclk_svc`, registered at `base`. -/
def Dm.ofService (conn : Conn) (base : ℕ) : Dm := ⟨conn, btUuidDclk, discovered base⟩

namespace Handles

/-- What memset leaves, with every byte 0xFF. -/
def unassigned : Handles := ⟨0xFFFF, 0xFFFF, 0xFFFF, 0xFFFF⟩

def value (h : Handles) : Chrc → ℕ
  | .clock => h.dclock
  | .state => h.dstate

def ccc (h : Handles) : Chrc → ℕ
  | .clock => h.dclockCcc
  | .state => h.dstateCcc

def setValue (chrc : Chrc) (handle : ℕ) (h : Handles) : Handles :=
  match chrc with
  | .clock => { h with dclock := handle }
  | .state => { h with dstate := handle }

def setCcc (chrc : Chrc) (handle : ℕ) (h : Handles) : Handles :=
  match chrc with
  | .clock => { h with dclockCcc := handle }
  | .state => { h with dstateCcc := handle }

end Handles

/-- The fields of `struct bt_gatt_subscribe_params` that the client sets; its callback
`notify` is always on_received. -/
structure SubscribeParams where
  valueHandle : ℕ
  cccHandle : ℕ
  value : ℕ
  volatile : Bool
  deriving DecidableEq, Repr

inductive GattIter where
  | iterStop | iterContinue
  deriving DecidableEq, Repr

/-- `struct dclk_client_cb`: what each callback answers a notification with, if it is
set. -/
structure ClientCb where
  receivedClock : Option GattIter
  receivedState : Option GattIter
  deriving DecidableEq, Repr

/-- The callbacks of the display's main.c. -/
def appCallbacks : ClientCb := ⟨some .iterContinue, some .iterContinue⟩

/-- `struct dclk_client_t`. The flags are the bits DCLK_CLOCK_NOTIF_ENABLED and
DCLK_STATE_NOTIF_ENABLED of conn_state. -/
structure DclkClient where
  conn : Option Conn
  clockNotifEnabled : Bool
  stateNotifEnabled : Bool
  handles : Handles
  dclockNotifParams : SubscribeParams
  dstateNotifParams : SubscribeParams
  cb : ClientCb
  deriving DecidableEq, Repr

/-- Static initialization, with the callbacks of dclk_client_init. -/
def DclkClient.boot (cb : ClientCb) : DclkClient :=
  ⟨none, false, false, ⟨0, 0, 0, 0⟩, ⟨0, 0, 0, false⟩, ⟨0, 0, 0, false⟩, cb⟩

/-- A client that has found the service at handle 10 over connection 0. -/
def assignedClient : DclkClient :=
  { DclkClient.boot appCallbacks with handles := ⟨12, 16, 15, 13⟩, conn := some 0 }

/-- A call of bt_gatt_subscribe, with the characteristic whose parameters it is given. -/
structure SubscribeCall where
  chrc : Chrc
  conn : Option Conn
  params : SubscribeParams
  deriving DecidableEq, Repr

/-- Results of the two calls of bt_gatt_subscribe. -/
structure SubscribeResults where
  clock : ℤ
  state : ℤ
  deriving DecidableEq, Repr

def SubscribeResults.success : SubscribeResults := ⟨0, 0⟩

/-- What dclk_client_subscribe leaves, asks for and returns. -/
structure Subscribed where
  client : DclkClient
  calls : List SubscribeCall
  err : ℤ
  deriving DecidableEq, Repr

/-- What on_received calls, if it calls something. -/
inductive Delivery where
  | unsubscribed
  | clock (v : UInt32)
  | state (s : UInt8)
  deriving DecidableEq, Repr

def DclkClient.params (c : DclkClient) : Chrc → SubscribeParams
  | .clock => c.dclockNotifParams
  | .state => c.dstateNotifParams

/-- The part of dclk_client_handles_assign for one characteristic. An error comes with
the handles as they are by then. -/
def assignChrc (dm : Dm) (chrc : Chrc) (h : Handles) : Except Handles Handles :=
  match charByUuid chrc.uuid dm.attrs with
  | none => .error h
  | some gattChrc => match descByUuid chrc.uuid gattChrc with
    | none => .error h
    | some gattDesc =>
        let h := h.setValue chrc gattDesc.handle
        match descByUuid btUuidGattCcc gattChrc with
        | none => .error h
        | some gattDesc => .ok (h.setCcc chrc gattDesc.handle)

def dclkClientHandlesAssign (dm : Dm) (c : DclkClient) : DclkClient × ℤ :=
  if dm.service ≠ btUuidDclk then (c, -enotsup)
  else match assignChrc dm .clock .unassigned with
    | .error h => ({ c with handles := h }, -einval)
    | .ok h => match assignChrc dm .state h with
      | .error h => ({ c with handles := h }, -einval)
      | .ok h => ({ c with handles := h, conn := some dm.conn }, 0)

/-- dclk_client_subscribe. -/
def dclkClientSubscribe (r : SubscribeResults) (c : DclkClient) : Subscribed :=
  let c := { c with clockNotifEnabled := true }
  let c := { c with
    dclockNotifParams := ⟨c.handles.dclock, c.handles.dclockCcc, btGattCccNotify, true⟩ }
  let clockCall : SubscribeCall := ⟨.clock, c.conn, c.dclockNotifParams⟩
  let c := if r.clock ≠ 0 then { c with clockNotifEnabled := false } else c
  let c := { c with
    dstateNotifParams := ⟨c.handles.dstate, c.handles.dstateCcc, btGattCccNotify, true⟩ }
  let stateCall : SubscribeCall := ⟨.state, c.conn, c.dstateNotifParams⟩
  let c := if r.state ≠ 0 then { c with stateNotifEnabled := false } else c
  ⟨c, [clockCall, stateCall], r.state⟩

/-- discovery_complete, with the results of the calls made by dclk_client_subscribe. -/
def discoveryComplete (dm : Dm) (r : SubscribeResults) (c : DclkClient) : Subscribed :=
  dclkClientSubscribe r (dclkClientHandlesAssign dm c).1

/-- on_received, called for the subscription with the handle `valueHandle`; `data`, if it
is not NULL, is the memory at the payload. -/
def onReceived (c : DclkClient) (valueHandle : ℕ) (data : Option (ℕ → UInt8)) (_length : ℕ) :
    Option Delivery × GattIter :=
  match data with
  | none => (some .unsubscribed, .iterStop)
  | some mem =>
      if valueHandle = c.dclockNotifParams.valueHandle then
        match c.cb.receivedClock with
        | some iter => (some (.clock (UInt32.ofNat (load 4 mem))), iter)
        | none => (none, .iterContinue)
      else if valueHandle = c.dstateNotifParams.valueHandle then
        match c.cb.receivedState with
        | some iter => (some (.state (UInt8.ofNat (load 1 mem))), iter)
        | none => (none, .iterContinue)
      else (none, .iterContinue)

/-- The first characteristic of its kind has a value attribute and a CCC descriptor. -/
def Dm.Provides (dm : Dm) (chrc : Chrc) : Prop :=
  Has dm.attrs chrc.uuid chrc.uuid ∧ Has dm.attrs chrc.uuid btUuidGattCcc

instance (dm : Dm) (chrc : Chrc) : Decidable (dm.Provides chrc) :=
  inferInstanceAs (Decidable (_ ∧ _))

/-- The table is that of a DCLK service with both characteristics. -/
def Dm.Complete (dm : Dm) : Prop :=
  dm.service = btUuidDclk ∧ dm.Provides .clock ∧ dm.Provides .state

instance (dm : Dm) : Decidable dm.Complete := inferInstanceAs (Decidable (_ ∧ _))

/-- `value` and `ccc` are the handles of the value attribute and of a CCC descriptor of one
characteristic `chrc` of the table. -/
def Dm.Offers (dm : Dm) (chrc : Chrc) (value ccc : ℕ) : Prop :=
  ∃ as, Declares dm.attrs chrc.uuid as ∧ (∃ v, Holds as chrc.uuid v ∧ v.handle = value) ∧
    ∃ d, Holds as btUuidGattCcc d ∧ d.handle = ccc

section Subscribe
variable {r : SubscribeResults} {c : DclkClient}

/-- The parameters dclk_client_subscribe sets for a characteristic. -/
def DclkClient.wanted (c : DclkClient) (chrc : Chrc) : SubscribeParams :=
  ⟨c.handles.value chrc, c.handles.ccc chrc, btGattCccNotify, true⟩

theorem dclkClientSubscribe_client : (dclkClientSubscribe r c).client =
    { c with
      clockNotifEnabled := decide (r.clock = 0)
      stateNotifEnabled := c.stateNotifEnabled && decide (r.state = 0)
      dclockNotifParams := c.wanted .clock
      dstateNotifParams := c.wanted .state } := by
  by_cases hclock : r.clock = 0 <;> by_cases hstate : r.state = 0 <;>
    simp [dclkClientSubscribe, hclock, hstate, DclkClient.wanted, Handles.value, Handles.ccc]

theorem dclkClientSubscribe_calls : (dclkClientSubscribe r c).calls =
    [⟨.clock, c.conn, c.wanted .clock⟩, ⟨.state, c.conn, c.wanted .state⟩] := by
  by_cases hclock : r.clock = 0 <;>
    simp [dclkClientSubscribe, hclock, DclkClient.wanted, Handles.value, Handles.ccc]

theorem dclkClientSubscribe_err : (dclkClientSubscribe r c).err = r.state := rfl

end Subscribe
end DodgeClock
