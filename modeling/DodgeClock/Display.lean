import DodgeClock.DclkClient
import DodgeClock.RefHolder

/-!
# The display and its connection

The callbacks of DCLK_client.c around scanning, connecting and disconnecting, with the
part of the Bluetooth stack they act on. The scan library stops scanning when an
advertiser matches and then tries to create a connection. There is one connection
object, and it is free for a new connection only when no reference to it is left. A
call of dclk_pairing takes time, so anything may happen between its first call to the
stack and its last.
-/
namespace DodgeClock
open EventSystem RefHolder

/-- The connection of the stack: being created, or established. -/
inductive PeerLink where
  | none
  | creating (conn : Conn)
  | established (conn : Conn)
  deriving DecidableEq, Repr

def PeerLink.conn : PeerLink → Option Conn
  | .none => .none
  | .creating conn | .established conn => some conn

/-- `dclkCConn` is DCLK_C_conn and `pairing` that dclk_pairing has been called and has not
returned. `scanning`, `link` and `active`, the subscriptions, belong to the stack; `refs`
are the references to connection objects that the application holds. The last field only
records the calls of bt_conn_ref and bt_conn_unref. -/
structure Display where
  dclkCConn : Option Conn
  client : DclkClient
  pairing : Bool
  scanning : Bool
  link : PeerLink
  active : Chrc → Bool
  refs : List Conn
  calls : List (RefCall Conn)

/-- After dclk_client_init, with scanning started or not. -/
def Display.boot (cb : ClientCb) (scanning : Bool) : Display :=
  ⟨none, .boot cb, false, scanning, .none, fun _ => false, [], []⟩

namespace Display

def btConnRef (conn : Conn) (d : Display) : Display :=
  { d with refs := conn :: d.refs, calls := d.calls ++ [.ref conn] }

def btConnUnref (conn : Option Conn) (d : Display) : Display :=
  { d with
    refs := match conn with
      | some c => d.refs.erase c
      | none => d.refs
    calls := d.calls ++ [.unref conn] }

/-- stop_auto_connection. -/
def stopAutoConnection (d : Display) : Display := { d with scanning := false }

/-- start_auto_connection; bt_scan_start succeeds, or scanning is active already. -/
def startAutoConnection (d : Display) : Display := { d with scanning := true }

/-- scan_connecting_error only logs. -/
def scanConnectingError (d : Display) : Display := d

def scanConnecting (conn : Conn) (d : Display) : Display :=
  { d.btConnRef conn with dclkCConn := some conn }

/-- The callback `connected`. Without an error it asks for security and discovery, if
`conn` is DCLK_C_conn, and changes nothing here. -/
def connected (_conn : Conn) (err : ℕ) (d : Display) : Display :=
  if err ≠ 0 then { d.btConnUnref d.dclkCConn with dclkCConn := none }.startAutoConnection else d

/-- The callback `disconnected`. -/
def disconnected (conn : Conn) (d : Display) : Display :=
  if some conn ≠ d.dclkCConn then d
  else { d.btConnUnref d.dclkCConn with dclkCConn := none }.startAutoConnection

end Display

/-- The result of the call of bt_gatt_subscribe for a characteristic. -/
def SubscribeResults.of (r : SubscribeResults) : Chrc → ℤ
  | .clock => r.clock
  | .state => r.state

/-- A subscription is active once a call has succeeded; a failing call changes nothing. -/
def activate (r : SubscribeResults) (active : Chrc → Bool) : Chrc → Bool := fun chrc =>
  active chrc || decide (r.of chrc = 0)

/-- `matched` carries the connection object bt_conn_le_create made, if it succeeded.
dclk_pairing is called, and returns. `unsubscribed` is a subscription that the stack
ends, calling on_received without data; `discovered` and `subscribe` are calls of
discovery_complete and of dclk_client_subscribe. -/
inductive DisplayEvent where
  | matched (created : Option Conn)
  | connected (err : ℕ)
  | disconnected
  | pairingCall
  | pairingReturn
  | discovered (dm : Dm) (r : SubscribeResults)
  | subscribe (r : SubscribeResults)
  | unsubscribed (chrc : Chrc)
  deriving DecidableEq, Repr

def display : Machine Display DisplayEvent where
  step
    | d, .matched created =>
        if d.scanning = false then none
        else match created with
          | none => some { d with scanning := false }.scanConnectingError
          | some conn =>
              if d.link = .none ∧ d.refs = [] then
                some ({ d with scanning := false, link := .creating conn }.scanConnecting conn)
              else none
    | d, .connected err => match d.link with
        | .creating conn =>
            some ({ d with link := if err = 0 then .established conn else .none }.connected
              conn err)
        | _ => none
    | d, .disconnected => match d.link with
        | .established conn =>
            some ({ d with link := .none, active := fun _ => false }.disconnected conn)
        | _ => none
    | d, .pairingCall =>
        if d.pairing = false then some { d.stopAutoConnection with pairing := true } else none
    | d, .pairingReturn =>
        if d.pairing = true then some { d.startAutoConnection with pairing := false } else none
    | d, .discovered dm r =>
        if d.link = .established dm.conn then
          some { d with client := (discoveryComplete dm r d.client).client,
                        active := activate r d.active }
        else none
    | d, .subscribe r =>
        some { d with client := (dclkClientSubscribe r d.client).client,
                      active := activate r d.active }
    | d, .unsubscribed chrc =>
        if d.active chrc = true then
          some { d with active := Function.update d.active chrc false }
        else none

/-- The transitions of the display in a state in which DCLK_C_conn is the connection of
the stack. -/
inductive DisplayStep (d : Display) : DisplayEvent → Display → Prop
  | matchedError (hs : d.scanning = true) :
      DisplayStep d (.matched none) { d with scanning := false }
  | matched (conn : Conn) (hs : d.scanning = true) (hl : d.link = .none) (hr : d.refs = []) :
      DisplayStep d (.matched (some conn))
        { d with
          dclkCConn := some conn
          scanning := false
          link := .creating conn
          refs := [conn]
          calls := d.calls ++ [.ref conn] }
  | connected (conn : Conn) (hl : d.link = .creating conn) :
      DisplayStep d (.connected 0) { d with link := .established conn }
  | connectError (conn : Conn) (err : ℕ) (he : err ≠ 0) (hl : d.link = .creating conn) :
      DisplayStep d (.connected err)
        { d with
          dclkCConn := none
          scanning := true
          link := .none
          refs := d.refs.erase conn
          calls := d.calls ++ [.unref (some conn)] }
  | disconnected (conn : Conn) (hl : d.link = .established conn) :
      DisplayStep d .disconnected
        { d with
          dclkCConn := none
          scanning := true
          link := .none
          active := fun _ => false
          refs := d.refs.erase conn
          calls := d.calls ++ [.unref (some conn)] }
  | pairingCall (hp : d.pairing = false) :
      DisplayStep d .pairingCall { d with scanning := false, pairing := true }
  | pairingReturn (hp : d.pairing = true) :
      DisplayStep d .pairingReturn { d with scanning := true, pairing := false }
  | discovered (dm : Dm) (r : SubscribeResults) (hl : d.link = .established dm.conn) :
      DisplayStep d (.discovered dm r)
        { d with
          client := (discoveryComplete dm r d.client).client
          active := activate r d.active }
  | subscribe (r : SubscribeResults) :
      DisplayStep d (.subscribe r)
        { d with
          client := (dclkClientSubscribe r d.client).client
          active := activate r d.active }
  | unsubscribed (chrc : Chrc) (ha : d.active chrc = true) :
      DisplayStep d (.unsubscribed chrc)
        { d with active := Function.update d.active chrc false }

/-- DCLK_C_conn is the connection of the stack. -/
def Display.Held (d : Display) : Prop := d.dclkCConn = d.link.conn

theorem displayStep_inv {d t : Display} {e : DisplayEvent} (hheld : d.Held)
    (h : display.step d e = some t) : DisplayStep d e t := by
  cases e with
  | matched created =>
      by_cases hs : d.scanning = true
      · cases created with
        | none =>
            simp only [display, hs, Bool.true_eq_false, if_false, Option.some.injEq] at h
            subst h
            exact .matchedError hs
        | some conn =>
            simp only [display, hs, Bool.true_eq_false, if_false, Option.ite_none_right_eq_some,
              Option.some.injEq] at h
            obtain ⟨⟨hl, hr⟩, rfl⟩ := h
            have hstep := DisplayStep.matched conn hs hl hr
            simpa [Display.scanConnecting, Display.btConnRef, hr] using hstep
      · simp [display, hs] at h
  | connected err =>
      cases hl : d.link with
      | creating conn =>
          simp only [display, hl, Option.some.injEq] at h
          subst h
          by_cases he : err = 0
          · subst he
            exact .connected conn hl
          · have hconn : d.dclkCConn = some conn := by rw [hheld, hl]; rfl
            have hstep := DisplayStep.connectError conn err he hl
            simpa [Display.connected, Display.btConnUnref, Display.startAutoConnection, he, hconn]
              using hstep
      | none | established conn => simp [display, hl] at h
  | disconnected =>
      cases hl : d.link with
      | established conn =>
          simp only [display, hl, Option.some.injEq] at h
          subst h
          have hconn : d.dclkCConn = some conn := by rw [hheld, hl]; rfl
          have hstep := DisplayStep.disconnected conn hl
          simpa [Display.disconnected, Display.btConnUnref, Display.startAutoConnection, hconn]
            using hstep
      | none | creating conn => simp [display, hl] at h
  | pairingCall =>
      simp only [display, Option.ite_none_right_eq_some, Option.some.injEq] at h
      obtain ⟨hp, rfl⟩ := h
      exact .pairingCall hp
  | pairingReturn =>
      simp only [display, Option.ite_none_right_eq_some, Option.some.injEq] at h
      obtain ⟨hp, rfl⟩ := h
      exact .pairingReturn hp
  | discovered dm r =>
      simp only [display, Option.ite_none_right_eq_some, Option.some.injEq] at h
      obtain ⟨hl, rfl⟩ := h
      exact .discovered dm r hl
  | subscribe r =>
      obtain rfl := Option.some.inj h
      exact .subscribe r
  | unsubscribed chrc =>
      simp only [display, Option.ite_none_right_eq_some, Option.some.injEq] at h
      obtain ⟨ha, rfl⟩ := h
      exact .unsubscribed chrc ha

theorem held_boot (cb : ClientCb) (scanning : Bool) : (Display.boot cb scanning).Held := rfl

theorem held_step {d t : Display} {e : DisplayEvent} (hheld : d.Held) (h : DisplayStep d e t) :
    t.Held := by
  cases h
  case connected conn hl =>
    show d.dclkCConn = some conn
    rw [hheld, hl]
    rfl
  case matched conn hs hl hr => exact rfl
  case connectError conn err he hl => exact rfl
  case disconnected conn hl => exact rfl
  all_goals exact hheld

end DodgeClock
