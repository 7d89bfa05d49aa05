import DodgeClock.Display
import DodgeClock.HandleAssignment

/-!
# What DCLK_client says about its subscriptions

The flags of conn_state, the connection pointer and the subscriptions themselves are
changed in different functions. DCLK_STATE_NOTIF_ENABLED is never set, nothing clears
DCLK_CLOCK_NOTIF_ENABLED or the pointer when a subscription or the connection ends, and
dclk_client_subscribe returns the result of its second call only.
-/
namespace DodgeClock
open EventSystem

/-- The pointer is NULL or DCLK_C_conn, and each flag says whether its subscription is
active. -/
structure Matches (d : Display) : Prop where
  conn : d.client.conn = none ∨ d.client.conn = d.dclkCConn
  clock : d.client.clockNotifEnabled = d.active .clock
  state : d.client.stateNotifEnabled = d.active .state

/-- A call of dclk_client_subscribe returns 0 exactly if both subscriptions succeeded. -/
def ReturnsRight (d : Display) : DisplayEvent → Prop
  | .discovered dm r => (discoveryComplete dm r d.client).err = 0 ↔ r.clock = 0 ∧ r.state = 0
  | .subscribe r => (dclkClientSubscribe r d.client).err = 0 ↔ r.clock = 0 ∧ r.state = 0
  | _ => True

/-- The state subscription fails, and the clock subscription succeeds unless there was
none. -/
def ClockOnly (d : Display) (r : SubscribeResults) : Prop :=
  r.state ≠ 0 ∧ (r.clock = 0 ∨ d.active .clock = false)

instance (d : Display) (r : SubscribeResults) : Decidable (ClockOnly d r) :=
  inferInstanceAs (Decidable (_ ∧ _))

/-- Subscribing never reaches the state characteristic, no subscription is ended, and a
connection ends only if nothing was discovered or subscribed on it. -/
def Unnoticed (d : Display) : DisplayEvent → Prop
  | .discovered _ r | .subscribe r => ClockOnly d r
  | .unsubscribed _ => False
  | .disconnected => d.client.conn = none ∧ d.active .clock = false
  | _ => True

instance Unnoticed.decidable (d : Display) : (e : DisplayEvent) → Decidable (Unnoticed d e)
  | .discovered _ r | .subscribe r => inferInstanceAs (Decidable (ClockOnly d r))
  | .unsubscribed _ => .isFalse id
  | .disconnected => inferInstanceAs (Decidable (_ ∧ _))
  | .matched _ | .connected _ | .pairingCall | .pairingReturn => .isTrue trivial

/-- What else is known as long as the client's view matches. -/
structure Quiet (d : Display) : Prop where
  held : d.Held
  stateOff : d.client.stateNotifEnabled = false
  linked : d.client.conn ≠ none → ∃ conn, d.link = .established conn

section Subscribe
variable {c : DclkClient} {r : SubscribeResults}

/-- Assigning handles leaves the flags, and sets the connection only as a whole. -/
theorem handlesAssign_frame (dm : Dm) (c : DclkClient) :
    (dclkClientHandlesAssign dm c).1.stateNotifEnabled = c.stateNotifEnabled ∧
      (dclkClientHandlesAssign dm c).1.conn = if dm.Complete then some dm.conn else c.conn := by
  by_cases hc : dm.Complete
  · obtain ⟨h, heq, -⟩ := handlesAssign_complete hc c
    simp [heq, hc]
  · obtain ⟨h, err, -, heq⟩ := handlesAssign_incomplete hc c
    simp [heq, hc]

/-- After a call of dclk_client_subscribe the flags are right, and so is its result,
exactly if only the clock subscription may have succeeded. -/
theorem flags_subscribe {active : Chrc → Bool} (hoff : c.stateNotifEnabled = false)
    (hinactive : active .state = false) :
    ((dclkClientSubscribe r c).client.clockNotifEnabled = activate r active .clock ∧
        (dclkClientSubscribe r c).client.stateNotifEnabled = activate r active .state ∧
        ((dclkClientSubscribe r c).err = 0 ↔ r.clock = 0 ∧ r.state = 0)) ↔
      r.state ≠ 0 ∧ (r.clock = 0 ∨ active .clock = false) := by
  simp only [dclkClientSubscribe_client, dclkClientSubscribe_err, activate, SubscribeResults.of,
    hoff, hinactive]
  by_cases hclock : r.clock = 0 <;> by_cases hstate : r.state = 0 <;>
    cases active .clock <;> simp [hclock, hstate]

theorem subscribe_conn : (dclkClientSubscribe r c).client.conn = c.conn := by
  rw [dclkClientSubscribe_client]

theorem subscribe_stateOff (hoff : c.stateNotifEnabled = false) :
    (dclkClientSubscribe r c).client.stateNotifEnabled = false := by
  rw [dclkClientSubscribe_client, hoff]
  rfl

end Subscribe

theorem quiet_boot (cb : ClientCb) (scanning : Bool) : Quiet (.boot cb scanning) :=
  ⟨rfl, rfl, fun h => absurd rfl h⟩

/-- Without an established connection there is no connection in the client. -/
theorem Quiet.conn_eq_none {d : Display} (hi : Quiet d)
    (hl : ∀ conn, d.link ≠ .established conn) : d.client.conn = none := by
  by_contra hne
  obtain ⟨conn, hconn⟩ := hi.linked hne
  exact hl conn hconn

theorem quiet_step {d t : Display} {e : DisplayEvent} (hi : Quiet d) (hc : Unnoticed d e)
    (h : DisplayStep d e t) : Quiet t := by
  have hheld := held_step hi.held h
  cases h
  case matched conn hs hl hr =>
    have hnone := hi.conn_eq_none (by simp [hl])
    exact ⟨hheld, hi.stateOff, fun h => absurd hnone h⟩
  case connected conn hl => exact ⟨hheld, hi.stateOff, fun _ => ⟨conn, rfl⟩⟩
  case connectError conn err he hl =>
    have hnone := hi.conn_eq_none (by simp [hl])
    exact ⟨hheld, hi.stateOff, fun h => absurd hnone h⟩
  case disconnected conn hl => exact ⟨hheld, hi.stateOff, fun h => absurd hc.1 h⟩
  case discovered dm r hl =>
    refine ⟨hheld, subscribe_stateOff ?_, fun _ => ⟨dm.conn, hl⟩⟩
    rw [(handlesAssign_frame dm d.client).1]
    exact hi.stateOff
  case subscribe r =>
    refine ⟨hheld, subscribe_stateOff hi.stateOff, ?_⟩
    rw [subscribe_conn]
    exact hi.linked
  all_goals exact ⟨hheld, hi.stateOff, hi.linked⟩

theorem matches_step {d t : Display} {e : DisplayEvent} (hi : Quiet d) (hd : Matches d)
    (h : DisplayStep d e t) : Matches t ∧ ReturnsRight d e ↔ Unnoticed d e := by
  have hinactive : d.active .state = false := hd.state.symm.trans hi.stateOff
  cases h
  case matched conn hs hl hr =>
    have hnone := hi.conn_eq_none (by simp [hl])
    exact iff_of_true ⟨⟨.inl hnone, hd.clock, hd.state⟩, trivial⟩ trivial
  case connectError conn err he hl =>
    have hnone := hi.conn_eq_none (by simp [hl])
    exact iff_of_true ⟨⟨.inl hnone, hd.clock, hd.state⟩, trivial⟩ trivial
  case disconnected conn hl =>
    constructor
    · rintro ⟨⟨hconn, hclock, -⟩, -⟩
      exact ⟨by simpa using hconn, hd.clock.symm.trans hclock⟩
    · rintro ⟨hconn, hclock⟩
      exact ⟨⟨.inl hconn, hd.clock.trans hclock, hi.stateOff⟩, trivial⟩
  case discovered dm r hl =>
    obtain ⟨hstate, hconn⟩ := handlesAssign_frame dm d.client
    have hflags := flags_subscribe (r := r) (hstate.trans hi.stateOff) hinactive
    have hpointer : (discoveryComplete dm r d.client).client.conn = none ∨
        (discoveryComplete dm r d.client).client.conn = d.dclkCConn := by
      rw [discoveryComplete, subscribe_conn, hconn, hi.held, hl]
      split_ifs
      · exact .inr rfl
      · rcases hd.conn with hnone | hsame
        · exact .inl hnone
        · right
          rw [hsame, hi.held, hl]
    refine Iff.trans ⟨?_, ?_⟩ hflags
    · rintro ⟨hm, hr⟩
      exact ⟨hm.clock, hm.state, hr⟩
    · rintro ⟨hclock, hstate, hr⟩
      exact ⟨⟨hpointer, hclock, hstate⟩, hr⟩
  case subscribe r =>
    have hflags := flags_subscribe (r := r) hi.stateOff hinactive
    refine Iff.trans ⟨?_, ?_⟩ hflags
    · rintro ⟨hm, hr⟩
      exact ⟨hm.clock, hm.state, hr⟩
    · rintro ⟨hclock, hstate, hr⟩
      refine ⟨⟨?_, hclock, hstate⟩, hr⟩
      rw [subscribe_conn]
      exact hd.conn
  case unsubscribed chrc ha =>
    refine iff_of_false ?_ id
    rintro ⟨hm, -⟩
    cases chrc with
    | clock =>
        have hclock := hm.clock
        simp [hd.clock, ha] at hclock
    | state => simp [hinactive] at ha
  all_goals exact iff_of_true ⟨⟨hd.conn, hd.clock, hd.state⟩, trivial⟩ trivial

/-- Over any events, the client's view is right in every state and every subscribing call
returns the right result exactly if all that is unnoticed by it does not happen. -/
theorem matches_iff (cb : ClientCb) (scanning : Bool) (es : List DisplayEvent) (d : Display)
    (hrun : display.run (.boot cb scanning) es = some d) :
    (∀ v ∈ display.visited (.boot cb scanning) es, Matches v) ∧
        display.Meets ReturnsRight (.boot cb scanning) es ↔
      display.Meets Unnoticed (.boot cb scanning) es :=
  Machine.stays_iff_meets
    (fun _ _ _ hi _ hc h => quiet_step hi hc (displayStep_inv hi.held h))
    (fun _ _ _ hi hd h => matches_step hi hd (displayStep_inv hi.held h)) hrun
    (quiet_boot cb scanning) ⟨.inl rfl, rfl, rfl⟩

/-- A controller whose state characteristic cannot be subscribed. -/
def clockOnlyRun : List DisplayEvent :=
  [.matched (some 0), .connected 2, .matched (some 0), .connected 0,
    .discovered (.ofService 0 10) ⟨0, -12⟩, .pairingCall, .pairingReturn]

theorem matches_clockOnlyRun :
    ∃ d, display.run (.boot appCallbacks true) clockOnlyRun = some d ∧
      (∀ v ∈ display.visited (.boot appCallbacks true) clockOnlyRun, Matches v) ∧
        display.Meets ReturnsRight (.boot appCallbacks true) clockOnlyRun :=
  ⟨_, rfl, (matches_iff appCallbacks true clockOnlyRun _ rfl).mpr (by decide)⟩

/-- After the first discovery of the controller both subscriptions are active, and the
flag of the state subscription is not set. -/
theorem not_matches : ¬ ∀ (cb : ClientCb) (scanning : Bool) (es : List DisplayEvent) (d : Display),
    display.run (.boot cb scanning) es = some d →
      (∀ v ∈ display.visited (.boot cb scanning) es, Matches v) ∧
        display.Meets ReturnsRight (.boot cb scanning) es := by
  intro h
  let es : List DisplayEvent :=
    [.matched (some 0), .connected 0, .discovered (.ofService 0 10) .success]
  have hall := (h appCallbacks true es _ rfl).1
  have hflag := (hall _ (List.mem_of_getLast? rfl)).state
  exact absurd hflag (by decide)

end DodgeClock
