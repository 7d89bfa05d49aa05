import DodgeClock.Display

/-!
# The reference to the connection

scan_connecting takes a reference and stores it in DCLK_C_conn; `connected`, if called
with an error, and `disconnected` drop what is stored there. They do not all check for
which connection they were called, but with a single connection object it is always the
one that is stored.
-/
namespace DodgeClock
open EventSystem RefHolder

/-- The application holds exactly one reference to what DCLK_C_conn points to, as its
calls so far have it, and DCLK_C_conn is the connection of the stack. -/
structure Balanced (d : Display) : Prop where
  held : d.Held
  refs : d.refs = d.dclkCConn.toList
  calls : holder.run none d.calls = some d.dclkCConn

theorem balanced_boot (cb : ClientCb) (scanning : Bool) : Balanced (.boot cb scanning) :=
  ⟨rfl, rfl, rfl⟩

/-- The end of an attempt or of a connection drops the one reference held. -/
theorem balanced_drop {d : Display} {conn : Conn} (hi : Balanced d)
    (hl : d.link.conn = some conn) :
    d.refs.erase conn = [] ∧ holder.run none (d.calls ++ [.unref (some conn)]) = some none := by
  have hconn : d.dclkCConn = some conn := hi.held.trans hl
  have hcalls := hi.calls
  rw [hconn] at hcalls
  refine ⟨?_, Machine.run_concat holder hcalls (holder_unref conn)⟩
  rw [hi.refs, hconn]
  simp

theorem balanced_step {d t : Display} {e : DisplayEvent} (hi : Balanced d)
    (h : DisplayStep d e t) : Balanced t := by
  have hheld := held_step hi.held h
  cases h
  case matched conn hs hl hr =>
    have hnone : d.dclkCConn = none := by rw [hi.held, hl]; rfl
    have hcalls := hi.calls
    rw [hnone] at hcalls
    exact ⟨hheld, rfl, Machine.run_concat holder hcalls (holder_ref conn)⟩
  case connectError conn err he hl =>
    obtain ⟨hrefs, hcalls⟩ := balanced_drop hi (by rw [hl]; rfl)
    exact ⟨hheld, hrefs, hcalls⟩
  case disconnected conn hl =>
    obtain ⟨hrefs, hcalls⟩ := balanced_drop hi (by rw [hl]; rfl)
    exact ⟨hheld, hrefs, hcalls⟩
  all_goals exact ⟨hheld, hi.refs, hi.calls⟩

theorem balanced_of_run {cb : ClientCb} {scanning : Bool} {es : List DisplayEvent} {d : Display}
    (hrun : display.run (.boot cb scanning) es = some d) : Balanced d :=
  Machine.run_invariant' (fun _ _ _ hi h => balanced_step hi (displayStep_inv hi.held h)) hrun
    (balanced_boot cb scanning)

/-- In every reachable state the application holds one reference to the connection in
DCLK_C_conn and no other, has never dropped NULL, and has released every reference it has
taken exactly once, but for the one it holds; and it holds none once the attempt or the
connection it was taken for has ended. -/
theorem refs_balanced (cb : ClientCb) (scanning : Bool) (es : List DisplayEvent) (d : Display)
    (hrun : display.run (.boot cb scanning) es = some d) :
    d.refs = d.dclkCConn.toList ∧ .unref none ∉ d.calls ∧
      (∀ conn, d.calls.count (.ref conn) =
        d.calls.count (.unref (some conn)) + d.dclkCConn.toList.count conn) ∧
      holder.run none d.calls = some d.dclkCConn ∧ (d.link = .none → d.dclkCConn = none) := by
  obtain ⟨hheld, hrefs, hcalls⟩ := balanced_of_run hrun
  refine ⟨hrefs, unref_none_not_mem hcalls, ?_, hcalls, fun hl => by rw [hheld, hl]; rfl⟩
  intro conn
  have hcount := count_of_run hcalls conn
  simpa using hcount

/-- An attempt fails, and a connection is ended while dclk_pairing is under way. -/
def unpairedRun : List DisplayEvent :=
  [.matched (some 0), .connected 2, .matched (some 0), .connected 0, .pairingCall, .disconnected,
    .pairingReturn]

theorem refs_balanced_unpairedRun :
    ∃ d, display.run (.boot appCallbacks true) unpairedRun = some d ∧ d.refs = [] ∧
      d.calls.count (.ref 0) = 2 ∧ d.calls.count (.unref (some 0)) = 2 :=
  have h := refs_balanced appCallbacks true unpairedRun _ rfl
  ⟨_, rfl, h.1, rfl, rfl⟩

end DodgeClock
