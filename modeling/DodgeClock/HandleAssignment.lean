import DodgeClock.DclkClient

/-!
# What handle assignment leaves

dclk_client_handles_assign fills the handles of the instance one after the other, once
it has overwritten them all. The handles up to the first that is not found are the ones
of the table, the others are no handles at all, and none is left over from an earlier
discovery.
-/
namespace DodgeClock
open AttributeTable

/-- The members of the handles, in the order of their assignment. -/
inductive Slot where
  | clockValue | clockCcc | stateValue | stateCcc
  deriving DecidableEq, Repr

namespace Slot

def chrc : Slot → Chrc
  | .clockValue | .clockCcc => .clock
  | .stateValue | .stateCcc => .state

/-- The type of the attribute whose handle the member holds. -/
def uuid : Slot → Uuid
  | .clockValue => btUuidDclkClock
  | .stateValue => btUuidDclkState
  | .clockCcc | .stateCcc => btUuidGattCcc

/-- The members that are assigned by then, if nothing is missing. -/
def upTo : Slot → List Slot
  | .clockValue => [.clockValue]
  | .clockCcc => [.clockValue, .clockCcc]
  | .stateValue => [.clockValue, .clockCcc, .stateValue]
  | .stateCcc => [.clockValue, .clockCcc, .stateValue, .stateCcc]

theorem self_mem_upTo (s : Slot) : s ∈ s.upTo := by
  cases s <;> decide

end Slot

def Handles.get (h : Handles) : Slot → ℕ
  | .clockValue => h.dclock
  | .clockCcc => h.dclockCcc
  | .stateValue => h.dstate
  | .stateCcc => h.dstateCcc

namespace Dm

/-- The attribute of type `u` in the characteristic `chrc`. -/
def lookup (dm : Dm) (chrc : Chrc) (u : Uuid) : Option (Attr Uuid) :=
  (charByUuid chrc.uuid dm.attrs).bind (descByUuid u)

/-- The attribute looked up for a member. -/
def find (dm : Dm) (s : Slot) : Option (Attr Uuid) := dm.lookup s.chrc s.uuid

/-- Nothing is missing up to the member. -/
def Reaches (dm : Dm) (s : Slot) : Prop := ∀ s' ∈ s.upTo, (dm.find s').isSome = true

instance (dm : Dm) (s : Slot) : Decidable (dm.Reaches s) :=
  inferInstanceAs (Decidable (∀ s' ∈ s.upTo, _))

/-- What a member is left at. -/
def left (dm : Dm) (s : Slot) : ℕ :=
  if dm.Reaches s then (dm.find s).elim 0xFFFF Attr.handle else 0xFFFF

def leftHandles (dm : Dm) : Handles :=
  ⟨dm.left .stateValue, dm.left .clockCcc, dm.left .clockValue, dm.left .stateCcc⟩

theorem get_leftHandles (dm : Dm) (s : Slot) : dm.leftHandles.get s = dm.left s := by
  cases s <;> rfl

theorem left_of_reaches {dm : Dm} {s : Slot} (h : dm.Reaches s) :
    ∃ a, dm.find s = some a ∧ dm.left s = a.handle := by
  obtain ⟨a, ha⟩ := Option.isSome_iff_exists.mp (h s s.self_mem_upTo)
  refine ⟨a, ha, ?_⟩
  rw [left, if_pos h, ha]
  rfl

theorem reaches_of_last {dm : Dm} (h : dm.Reaches .stateCcc) (s : Slot) : dm.Reaches s :=
  fun s' hs' => h s' (by cases s' <;> decide)

/-- The two lookups for a characteristic search the same one. -/
theorem offers_of_lookup {dm : Dm} {chrc : Chrc} {v d : Attr Uuid}
    (hv : dm.lookup chrc chrc.uuid = some v) (hd : dm.lookup chrc btUuidGattCcc = some d) :
    dm.Offers chrc v.handle d.handle := by
  obtain ⟨as, hc, hvalue⟩ := Option.bind_eq_some_iff.mp hv
  obtain ⟨as', hc', hccc⟩ := Option.bind_eq_some_iff.mp hd
  obtain rfl : as = as' := Option.some.inj (hc.symm.trans hc')
  exact ⟨as, declares_of_charByUuid hc, ⟨v, holds_of_descByUuid hvalue, rfl⟩,
    d, holds_of_descByUuid hccc, rfl⟩

/-- The members are the handles found in the table, for each characteristic those of the
value attribute and of the CCC descriptor inside one and the same. -/
structure Found (dm : Dm) (h : Handles) : Prop where
  slots : ∀ s, ∃ a, dm.find s = some a ∧ h.get s = a.handle
  offers : ∀ chrc, dm.Offers chrc (h.value chrc) (h.ccc chrc)

theorem found_leftHandles {dm : Dm} (h : dm.Reaches .stateCcc) : dm.Found dm.leftHandles := by
  have hslots : ∀ s, ∃ a, dm.find s = some a ∧ dm.leftHandles.get s = a.handle := by
    intro s
    simpa only [get_leftHandles] using left_of_reaches (reaches_of_last h s)
  refine ⟨hslots, fun chrc => ?_⟩
  cases chrc with
  | clock =>
      obtain ⟨v, hv, hvalue⟩ := hslots .clockValue
      obtain ⟨d, hd, hccc⟩ := hslots .clockCcc
      show dm.Offers .clock (dm.leftHandles.get .clockValue) (dm.leftHandles.get .clockCcc)
      rw [hvalue, hccc]
      exact offers_of_lookup hv hd
  | state =>
      obtain ⟨v, hv, hvalue⟩ := hslots .stateValue
      obtain ⟨d, hd, hccc⟩ := hslots .stateCcc
      show dm.Offers .state (dm.leftHandles.get .stateValue) (dm.leftHandles.get .stateCcc)
      rw [hvalue, hccc]
      exact offers_of_lookup hv hd

end Dm

section Assign
variable {dm : Dm} {c : DclkClient}

theorem assignChrc_eq (dm : Dm) (chrc : Chrc) (h : Handles) : assignChrc dm chrc h =
    match dm.lookup chrc chrc.uuid, dm.lookup chrc btUuidGattCcc with
    | none, _ => .error h
    | some v, none => .error (h.setValue chrc v.handle)
    | some v, some d => .ok ((h.setValue chrc v.handle).setCcc chrc d.handle) := by
  unfold assignChrc Dm.lookup
  cases charByUuid chrc.uuid dm.attrs with
  | none => rfl
  | some as =>
      simp only [Option.bind_some]
      cases descByUuid chrc.uuid as with
      | none => rfl
      | some v => cases descByUuid btUuidGattCcc as <;> rfl

theorem assignChrc_clock (dm : Dm) (h : Handles) : assignChrc dm .clock h =
    match dm.find .clockValue, dm.find .clockCcc with
    | none, _ => .error h
    | some v, none => .error { h with dclock := v.handle }
    | some v, some d => .ok { h with dclock := v.handle, dclockCcc := d.handle } :=
  assignChrc_eq dm .clock h

theorem assignChrc_state (dm : Dm) (h : Handles) : assignChrc dm .state h =
    match dm.find .stateValue, dm.find .stateCcc with
    | none, _ => .error h
    | some v, none => .error { h with dstate := v.handle }
    | some v, some d => .ok { h with dstate := v.handle, dstateCcc := d.handle } :=
  assignChrc_eq dm .state h

/-- Each lookup either ends the assignment or fills the next member. -/
theorem handlesAssign_of_service (hservice : dm.service = btUuidDclk) (c : DclkClient) :
    dclkClientHandlesAssign dm c =
      if dm.Reaches .stateCcc then ({ c with handles := dm.leftHandles, conn := some dm.conn }, 0)
      else ({ c with handles := dm.leftHandles }, -einval) := by
  rw [dclkClientHandlesAssign, if_neg (not_not.mpr hservice), assignChrc_clock]
  simp only [Dm.leftHandles, Dm.left, Dm.Reaches, Slot.upTo, List.forall_mem_cons]
  cases h₁ : dm.find .clockValue with
  | none => simp [Handles.unassigned]
  | some v₁ =>
      cases h₂ : dm.find .clockCcc with
      | none => simp [Handles.unassigned]
      | some d₁ =>
          simp only [assignChrc_state]
          cases h₃ : dm.find .stateValue with
          | none => simp [Handles.unassigned]
          | some v₂ =>
              cases h₄ : dm.find .stateCcc with
              | none => simp [Handles.unassigned]
              | some d₂ => simp

theorem provides_iff {chrc : Chrc} : dm.Provides chrc ↔
    (dm.lookup chrc chrc.uuid).isSome = true ∧ (dm.lookup chrc btUuidGattCcc).isSome = true := by
  simp only [Dm.Provides, Has, Dm.lookup, Option.isSome_bind]

theorem complete_iff : dm.Complete ↔ dm.service = btUuidDclk ∧ dm.Reaches .stateCcc := by
  rw [Dm.Complete, provides_iff, provides_iff, Dm.Reaches, Slot.upTo]
  simp only [List.forall_mem_cons, List.not_mem_nil, false_implies, implies_true, and_true,
    and_assoc]
  rfl

/-- On a complete table all four handles are found, and the connection is set. -/
theorem handlesAssign_complete (hc : dm.Complete) (c : DclkClient) :
    ∃ h : Handles, dclkClientHandlesAssign dm c =
        ({ c with handles := h, conn := some dm.conn }, 0) ∧ dm.Found h := by
  obtain ⟨hservice, hr⟩ := complete_iff.mp hc
  refine ⟨dm.leftHandles, ?_, Dm.found_leftHandles hr⟩
  rw [handlesAssign_of_service hservice, if_pos hr]

/-- On any other the handles are left in some state, and the connection as it was. -/
theorem handlesAssign_incomplete (hc : ¬ dm.Complete) (c : DclkClient) :
    ∃ (h : Handles) (err : ℤ), err ≠ 0 ∧
      dclkClientHandlesAssign dm c = ({ c with handles := h }, err) := by
  by_cases hservice : dm.service = btUuidDclk
  · have hr : ¬ dm.Reaches .stateCcc := fun hr => hc (complete_iff.mpr ⟨hservice, hr⟩)
    refine ⟨dm.leftHandles, -einval, by decide, ?_⟩
    rw [handlesAssign_of_service hservice, if_neg hr]
  · refine ⟨c.handles, -enotsup, by decide, ?_⟩
    rw [dclkClientHandlesAssign, if_pos hservice]

theorem handlesAssign_eq_zero : (dclkClientHandlesAssign dm c).2 = 0 ↔ dm.Complete := by
  by_cases hc : dm.Complete
  · obtain ⟨h, heq, -⟩ := handlesAssign_complete hc c
    simp [heq, hc]
  · obtain ⟨h, err, herr, heq⟩ := handlesAssign_incomplete hc c
    simp [heq, herr, hc]

/-- It succeeds with the four handles found in the table and the connection of the
discovery. Or the service is another one, and the instance is left as it was. Or something
is missing, and nothing but the handles is changed: the members up to it have the handles
found, the others none. -/
theorem handlesAssign_cases (dm : Dm) (c : DclkClient) : ∃ (c' : DclkClient) (err : ℤ),
    dclkClientHandlesAssign dm c = (c', err) ∧
      (err = 0 ∧ c' = { c with handles := c'.handles, conn := some dm.conn } ∧
          dm.Found c'.handles ∨
        err = -enotsup ∧ dm.service ≠ btUuidDclk ∧ c' = c ∨
        err = -einval ∧ c' = { c with handles := c'.handles } ∧
          (∃ s, dm.find s = none) ∧
          ∀ s, (dm.Reaches s → ∃ a, dm.find s = some a ∧ c'.handles.get s = a.handle) ∧
            (¬ dm.Reaches s → c'.handles.get s = 0xFFFF)) := by
  by_cases hservice : dm.service = btUuidDclk
  · rw [handlesAssign_of_service hservice]
    by_cases hr : dm.Reaches .stateCcc
    · rw [if_pos hr]
      exact ⟨_, _, rfl, .inl ⟨rfl, rfl, Dm.found_leftHandles hr⟩⟩
    · rw [if_neg hr]
      refine ⟨_, _, rfl, .inr (.inr ⟨rfl, rfl, ?_, fun s => ⟨fun hs => ?_, fun hs => ?_⟩⟩)⟩
      · obtain ⟨s, -, hs⟩ := not_forall₂.mp hr
        exact ⟨s, by simpa using hs⟩
      · simpa only [Dm.get_leftHandles] using Dm.left_of_reaches hs
      · rw [Dm.get_leftHandles]
        exact if_neg hs
  · rw [dclkClientHandlesAssign, if_pos hservice]
    exact ⟨c, _, rfl, .inr (.inl ⟨rfl, hservice, rfl⟩)⟩

/-- A service without the state characteristic, discovered over a second connection. -/
def clockOnlyTable : Dm := ⟨1, btUuidDclk, (discovered 20).filter fun a => 24 ≤ a.handle⟩

/-- A second discovery that finds no state characteristic has replaced the handles of the
first by its own. -/
theorem not_handlesAssign_all_or_nothing : ¬ ∀ (dm : Dm) (c : DclkClient),
    ∃ (c' : DclkClient) (err : ℤ), dclkClientHandlesAssign dm c = (c', err) ∧
      (err = 0 ∧ c'.conn = some dm.conn ∧ dm.Found c'.handles ∨
        err < 0 ∧ c'.handles = c.handles ∧ c'.conn = c.conn) := by
  intro h
  obtain ⟨c', err, heq, h0 | hneg⟩ := h clockOnlyTable assignedClient
  · have herr : (dclkClientHandlesAssign clockOnlyTable assignedClient).2 = -einval := by decide
    rw [heq, h0.1] at herr
    have hne : (0 : ℤ) ≠ -einval := by decide
    exact hne herr
  · have hreplaced : (dclkClientHandlesAssign clockOnlyTable assignedClient).1.handles ≠
        assignedClient.handles := by decide
    rw [heq] at hreplaced
    exact hreplaced hneg.2.1

end Assign
end DodgeClock
