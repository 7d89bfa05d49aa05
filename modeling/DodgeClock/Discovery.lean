import DodgeClock.HandleAssignment

/-!
# What a completed discovery subscribes to

discovery_complete does not look at the result of dclk_client_handles_assign. Where
that fails, it subscribes all the same: to handles that were never found, and over the
connection of an earlier discovery, if there was one.
-/
namespace DodgeClock
open AttributeTable

/-- Every subscription asked for is on the connection of this discovery and on handles
its table has for the characteristic; and a failed assignment asks for none. -/
structure OnlyDiscovered (dm : Dm) (r : SubscribeResults) (c : DclkClient) : Prop where
  offered : ∀ call ∈ (discoveryComplete dm r c).calls, call.conn = some dm.conn ∧
    dm.Offers call.chrc call.params.valueHandle call.params.cccHandle
  failed : (dclkClientHandlesAssign dm c).2 ≠ 0 → (discoveryComplete dm r c).calls = []

/-- It always asks for both subscriptions. -/
theorem discoveryComplete_calls_ne_nil (dm : Dm) (r : SubscribeResults) (c : DclkClient) :
    (discoveryComplete dm r c).calls ≠ [] := by
  rw [discoveryComplete, dclkClientSubscribe_calls]
  exact List.cons_ne_nil _ _

/-- Whatever the client holds, only discovered handles are subscribed exactly if the table
is that of a DCLK service in which both characteristics have their two attributes. -/
theorem onlyDiscovered_iff (dm : Dm) (r : SubscribeResults) (c : DclkClient) :
    OnlyDiscovered dm r c ↔ dm.Complete := by
  constructor
  · intro h
    by_contra hc
    have herr : (dclkClientHandlesAssign dm c).2 ≠ 0 := fun h0 => hc (handlesAssign_eq_zero.mp h0)
    exact discoveryComplete_calls_ne_nil dm r c (h.failed herr)
  · intro hc
    refine ⟨?_, fun herr => absurd (handlesAssign_eq_zero.mpr hc) herr⟩
    obtain ⟨handles, heq, hfound⟩ := handlesAssign_complete hc c
    intro call hcall
    rw [discoveryComplete, dclkClientSubscribe_calls, heq] at hcall
    rcases List.mem_pair.mp hcall with rfl | rfl
    · exact ⟨rfl, hfound.offers .clock⟩
    · exact ⟨rfl, hfound.offers .state⟩

/-- The second discovery subscribes over the first connection. -/
theorem not_onlyDiscovered : ¬ ∀ (dm : Dm) (r : SubscribeResults) (c : DclkClient),
    OnlyDiscovered dm r c := by
  intro h
  have hstale := ((h clockOnlyTable .success assignedClient).offered _ List.mem_cons_self).1
  exact absurd hstale (by decide)

end DodgeClock
