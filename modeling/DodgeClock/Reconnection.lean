import DodgeClock.Display

/-!
# Whether the display finds its controller again

Scanning is stopped by the scan library on a match and started again by hand. The
callbacks for a failed attempt and for a disconnection do so, scan_connecting_error
does not: if no connection can even be tried, nothing scans any more.
-/
namespace DodgeClock
open EventSystem

/-- The display scans, tries to connect or is connected, unless dclk_pairing is under
way, which will start scanning before it returns. -/
def Display.Seeking (d : Display) : Prop :=
  d.pairing = false → d.scanning = true ∨ d.link ≠ .none

instance (d : Display) : Decidable d.Seeking := inferInstanceAs (Decidable (_ → _))

/-- A match that makes no connection attempt comes while there is a connection or an
attempt already, or while dclk_pairing is under way. -/
def MatchServed (d : Display) : DisplayEvent → Prop
  | .matched none => d.pairing = false → d.link ≠ .none
  | _ => True

instance MatchServed.decidable (d : Display) : (e : DisplayEvent) → Decidable (MatchServed d e)
  | .matched none => inferInstanceAs (Decidable (d.pairing = false → d.link ≠ .none))
  | .matched (some _) | .connected _ | .disconnected | .pairingCall | .pairingReturn
  | .discovered _ _ | .subscribe _ | .unsubscribed _ => .isTrue trivial

theorem seeking_step {d t : Display} {e : DisplayEvent} (hd : d.Seeking) (h : DisplayStep d e t) :
    t.Seeking ↔ MatchServed d e := by
  cases h
  case matchedError hs =>
    show (d.pairing = false → false = true ∨ d.link ≠ .none) ↔ (d.pairing = false → d.link ≠ .none)
    simp
  case matched conn hs hl hr => exact iff_of_true (fun _ => .inr PeerLink.noConfusion) trivial
  case connected conn hl => exact iff_of_true (fun _ => .inr PeerLink.noConfusion) trivial
  case connectError conn err he hl => exact iff_of_true (fun _ => .inl rfl) trivial
  case disconnected conn hl => exact iff_of_true (fun _ => .inl rfl) trivial
  case pairingCall hp => exact iff_of_true (fun h => absurd h (by simp)) trivial
  case pairingReturn hp => exact iff_of_true (fun _ => .inl rfl) trivial
  all_goals exact iff_of_true hd trivial

/-- Once scanning has been started, the display is never stuck exactly if every match is
served. -/
theorem seeking_iff (cb : ClientCb) (es : List DisplayEvent) (d : Display)
    (hrun : display.run (.boot cb true) es = some d) :
    (∀ v ∈ display.visited (.boot cb true) es, v.Seeking) ↔
      display.Meets MatchServed (.boot cb true) es :=
  Machine.forall_visited_iff_meets
    (fun _ _ _ hheld _ _ h => held_step hheld (displayStep_inv hheld h))
    (fun _ _ _ hheld hs h => seeking_step hs (displayStep_inv hheld h)) hrun
    (held_boot cb true) (fun _ => .inl rfl)

/-- A connection is lost and found again, and dclk_pairing is called while connected; a
match in between has no connection object left. -/
def reconnectingRun : List DisplayEvent :=
  [.matched (some 0), .connected 2, .matched (some 0), .connected 0, .pairingCall, .pairingReturn,
    .matched none, .disconnected, .matched (some 0), .connected 0]

theorem seeking_reconnectingRun :
    ∃ d, display.run (.boot appCallbacks true) reconnectingRun = some d ∧
      ∀ v ∈ display.visited (.boot appCallbacks true) reconnectingRun, v.Seeking :=
  ⟨_, rfl, (seeking_iff appCallbacks reconnectingRun _ rfl).mpr (by decide)⟩

/-- The first match already leaves the display without a scan if no connection can be
created. -/
theorem not_seeking : ¬ ∀ (cb : ClientCb) (es : List DisplayEvent) (d : Display),
    display.run (.boot cb true) es = some d →
      ∀ v ∈ display.visited (.boot cb true) es, v.Seeking := by
  intro h
  have hall := h appCallbacks [.matched none] _ rfl
  exact absurd hall (by decide)

end DodgeClock
