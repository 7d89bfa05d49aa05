import DodgeClock.AttributeTable
import DodgeClock.LittleEndian

/-!
# The service of the controller

The attributes of `dclk_svc` in DCLK.c, the two functions that notify its
characteristics, and what a client discovers of it. The notifying functions name an
attribute by its index in the service; on the air an attribute is known by its handle.
-/
namespace DodgeClock
open AttributeTable LittleEndian

/-- A UUID, as the number its 128 bits make. -/
abbrev Uuid := ℕ

/-- BT_UUID_128_ENCODE. -/
def btUuid128Encode (w32 w1 w2 w3 w48 : ℕ) : Uuid :=
  (((w32 * 2 ^ 16 + w1) * 2 ^ 16 + w2) * 2 ^ 16 + w3) * 2 ^ 48 + w48

/-- A 16-bit UUID stands for the Bluetooth base UUID with it put in. -/
def btUuid16 (v : ℕ) : Uuid := btUuid128Encode v 0x0000 0x1000 0x8000 0x00805f9b34fb

def btUuidGattPrimary : Uuid := btUuid16 0x2800
def btUuidGattChrc : Uuid := btUuid16 0x2803
def btUuidGattCcc : Uuid := btUuid16 0x2902

/-- BT_UUID_DCLK, BT_UUID_DCLK_STATE and BT_UUID_DCLK_CLOCK, in DCLK.h and, with the
same values, in DCLK_client.h. -/
def btUuidDclk : Uuid := btUuid128Encode 0x00001553 0x1212 0xefde 0x1523 0x785feabcd123
def btUuidDclkState : Uuid := btUuid128Encode 0x00001554 0x1212 0xefde 0x1523 0x785feabcd123
def btUuidDclkClock : Uuid := btUuid128Encode 0x00001556 0x1212 0xefde 0x1523 0x785feabcd123

@[simp] theorem state_ne_clock : btUuidDclkState ≠ btUuidDclkClock := by decide
@[simp] theorem clock_ne_ccc : btUuidDclkClock ≠ btUuidGattCcc := by decide
@[simp] theorem state_ne_ccc : btUuidDclkState ≠ btUuidGattCcc := by decide

/-- The two characteristics of the service. -/
inductive Chrc where
  | clock | state
  deriving DecidableEq, Repr

def Chrc.uuid : Chrc → Uuid
  | .clock => btUuidDclkClock
  | .state => btUuidDclkState

/-- An attribute of a service; `ccc` carries the characteristic its callback is for. -/
inductive GattAttr where
  | primaryService (uuid : Uuid)
  | chrcDecl (uuid : Uuid)
  | value (uuid : Uuid)
  | ccc (chrc : Chrc)
  deriving DecidableEq, Repr

def GattAttr.uuid : GattAttr → Uuid
  | .primaryService _ => btUuidGattPrimary
  | .chrcDecl _ => btUuidGattChrc
  | .value u => u
  | .ccc _ => btUuidGattCcc

def GattAttr.chrc : GattAttr → Option Uuid
  | .chrcDecl u => some u
  | _ => none

/-- BT_GATT_CHARACTERISTIC: a declaration and, after it, the value attribute. -/
def btGattCharacteristic (uuid : Uuid) : List GattAttr := [.chrcDecl uuid, .value uuid]

def dclkSvc : List GattAttr :=
  [.primaryService btUuidDclk] ++ btGattCharacteristic btUuidDclkState ++ [.ccc .state] ++
    btGattCharacteristic btUuidDclkClock ++ [.ccc .clock]

/-- What discovery reports of the service registered at `base`. -/
def discovered (base : ℕ) : List (Attr Uuid) :=
  dclkSvc.zipIdx.map fun (a, i) => ⟨base + i, a.uuid, a.chrc⟩

/-- `base` is the handle of the first attribute; the others follow it. The flags are
notify_clock_enabled and notify_state_enabled. -/
structure DclkService where
  base : ℕ
  notifyClockEnabled : Bool
  notifyStateEnabled : Bool
  deriving DecidableEq, Repr

/-- BT_GATT_CCC_NOTIFY. -/
def btGattCccNotify : ℕ := 1

/-- The error numbers EACCES, EINVAL and ENOTSUP. -/
def eacces : ℤ := 13
def einval : ℤ := 22
def enotsup : ℤ := 134

/-- A notification on the air. -/
structure Notification where
  handle : ℕ
  data : List UInt8
  deriving DecidableEq, Repr

namespace DclkService

/-- dclk_ccc_clock_cfg_changed and dclk_ccc_state_cfg_changed. -/
def cccCfgChanged (chrc : Chrc) (value : ℕ) (s : DclkService) : DclkService :=
  match chrc with
  | .clock => { s with notifyClockEnabled := decide (value = btGattCccNotify) }
  | .state => { s with notifyStateEnabled := decide (value = btGattCccNotify) }

/-- A client writes `value` to the attribute with a handle. -/
def write (handle value : ℕ) (s : DclkService) : DclkService :=
  if handle < s.base then s
  else match dclkSvc[handle - s.base]? with
    | some (.ccc chrc) => s.cccCfgChanged chrc value
    | _ => s

/-- bt_gatt_notify of an attribute of the service. The notification carries the handle
of the value, also if the declaration of the characteristic is given. -/
def btGattNotify (i : Fin dclkSvc.length) (data : List UInt8) (s : DclkService) : Notification :=
  ⟨if (dclkSvc.get i).chrc = none then s.base + i else s.base + i + 1, data⟩

/-- dclk_send_state_notify. -/
def dclkSendStateNotify (state : UInt8) (s : DclkService) : Except ℤ Notification :=
  if s.notifyStateEnabled = false then .error (-eacces)
  else .ok (s.btGattNotify ⟨2, by decide⟩ (bytes 1 state.toNat))

/-- dclk_send_clock_notify. -/
def dclkSendClockNotify (clock : UInt32) (s : DclkService) : Except ℤ Notification :=
  if s.notifyClockEnabled = false then .error (-eacces)
  else .ok (s.btGattNotify ⟨5, by decide⟩ (bytes 4 clock.toNat))

end DclkService
end DodgeClock
