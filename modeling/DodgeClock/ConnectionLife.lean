import DodgeClock.Display

/-!
# The life of a connection of the display

What the callbacks of DCLK_client.c do to a connection object from its creation to its
end: they reference it when a connection is tried, ask for security and a discovery when
it is established, and release it when the attempt fails or the connection is lost. The
callbacks `connected` and `disconnected` do none of it if the object they are called with
is not DCLK_C_conn. An object that goes through these calls in any other order, or
without one of them, is at fault.
-/
namespace DodgeClock
open EventSystem

/-- BT_SECURITY_L4. -/
def btSecurityL4 : ℕ := 4

/-- Calls of bt_conn_ref, bt_conn_unref, bt_conn_set_security and bt_gatt_dm_start; those
of bt_gatt_subscribe and bt_conn_get_dst do not belong to the life of an object. -/
inductive ConnCall where
  | ref (conn : Conn)
  | unref (conn : Option Conn)
  | setSecurity (conn : Conn) (level : ℕ)
  | gattDmStart (conn : Conn) (service : Uuid)
  deriving DecidableEq, Repr

/-- gatt_discover. -/
def gattDiscover (conn : Conn) : List ConnCall := [.gattDmStart conn btUuidDclk]

namespace Display

/-- The calls of scan_connecting. -/
def scanConnectingCalls (conn : Conn) : List ConnCall := [.ref conn]

/-- The calls of `connected`; an error of bt_conn_set_security is only logged. -/
def connectedCalls (conn : Conn) (err : ℕ) (d : Display) : List ConnCall :=
  if err ≠ 0 then [.unref d.dclkCConn]
  else if some conn ≠ d.dclkCConn then []
  else .setSecurity conn btSecurityL4 :: gattDiscover conn

/-- The calls of `disconnected`. -/
def disconnectedCalls (conn : Conn) (d : Display) : List ConnCall :=
  if some conn ≠ d.dclkCConn then [] else [.unref d.dclkCConn]

/-- Which of the four functions an event calls. -/
def connCalls (d : Display) : DisplayEvent → Option (List ConnCall)
  | .matched created => created.map scanConnectingCalls
  | .connected err => d.link.conn.map fun conn => d.connectedCalls conn err
  | .disconnected => d.link.conn.map fun conn => d.disconnectedCalls conn
  | _ => none

end Display

/-- Where a connection object is in its life. -/
inductive Life where
  | unused
  | tried (conn : Conn)
  | secured (conn : Conn)
  | served (conn : Conn)
  deriving DecidableEq, Repr

/-- The calls a life consists of; any other call is a fault. -/
def life : Machine Life ConnCall where
  step
    | .unused, .ref conn => some (.tried conn)
    | .tried conn, .setSecurity obj level =>
        if obj = conn ∧ level = btSecurityL4 then some (.secured conn) else none
    | .secured conn, .gattDmStart obj service =>
        if obj = conn ∧ service = btUuidDclk then some (.served conn) else none
    | .tried conn, .unref obj | .served conn, .unref obj =>
        if obj = some conn then some .unused else none
    | _, _ => none

/-- What the stack says of the connection object. -/
def PeerLink.life : PeerLink → Life
  | .none => .unused
  | .creating conn => .tried conn
  | .established conn => .served conn

theorem life_step {d t : Display} {e : DisplayEvent} (hheld : d.Held) (h : DisplayStep d e t) :
    life.run d.link.life ((d.connCalls e).getD []) = some t.link.life := by
  cases h
  case matched conn hs hl hr =>
    rw [hl]
    rfl
  case connected conn hl =>
    have hconn : d.dclkCConn = some conn := by rw [hheld, hl]; rfl
    simp [Display.connCalls, Display.connectedCalls, gattDiscover, hl, hconn, PeerLink.conn,
      PeerLink.life, Machine.run, life]
  case connectError conn err he hl =>
    have hconn : d.dclkCConn = some conn := by rw [hheld, hl]; rfl
    simp [Display.connCalls, Display.connectedCalls, hl, hconn, he, PeerLink.conn, PeerLink.life,
      Machine.run, life]
  case disconnected conn hl =>
    have hconn : d.dclkCConn = some conn := by rw [hheld, hl]; rfl
    simp [Display.connCalls, Display.disconnectedCalls, hl, hconn, PeerLink.conn, PeerLink.life,
      Machine.run, life]
  all_goals rfl

/-- In every run each connection object lives such a life: it is referenced once, secured
and discovered once each when it is established, and released once, in this order, and
the life has come as far as the connection has. -/
theorem life_of_run (cb : ClientCb) (scanning : Bool) (es : List DisplayEvent) (d : Display)
    (hrun : display.run (.boot cb scanning) es = some d) :
    life.run .unused (display.outputs Display.connCalls (.boot cb scanning) es).flatten =
      some d.link.life :=
  Machine.run_flatten_outputs (f := fun d : Display => d.link.life)
    (fun _ _ _ hheld h => ⟨held_step hheld (displayStep_inv hheld h),
      life_step hheld (displayStep_inv hheld h)⟩) hrun (held_boot cb scanning)

/-- An attempt fails, the next one succeeds, and its connection is lost. -/
def livesRun : List DisplayEvent :=
  [.matched (some 0), .connected 2, .matched (some 0), .pairingCall, .connected 0, .disconnected]

theorem life_of_run_lives : ∃ d, display.run (.boot appCallbacks true) livesRun = some d ∧
    life.run .unused
      (display.outputs Display.connCalls (.boot appCallbacks true) livesRun).flatten =
        some d.link.life :=
  ⟨_, rfl, life_of_run appCallbacks true livesRun _ rfl⟩

end DodgeClock
