import Mathlib.Tactic

/-!
# Buttons

The part of Interface.c between a pin and a callback of main.c: one stored level
and one work item for each button. The GPIO interrupt stores the level and
submits the work; the handler, run later by the system work queue, turns the
level stored by then into an event.
-/
namespace DodgeClock

/-- The buttons of Interface.c; each names its callback in `struct interface_cb`. -/
inductive Button where
  | pair | user | start | stop
  deriving DecidableEq, Repr

/-- `val` and `evt` of `struct button_t`. The last field is not in the source: it
counts the levels sampled before the handler last read `val`. -/
structure Btn where
  val : ℕ
  evt : ℕ
  asOf : ℕ
  deriving DecidableEq, Repr

/-- The static initializers pair_btn, user_btn, start_btn and stop_btn. -/
def Btn.initial : Button → Btn
  | .pair => ⟨1, 0, 0⟩
  | .user => ⟨2, 0, 0⟩
  | .start => ⟨3, 0, 0⟩
  | .stop => ⟨4, 0, 0⟩

/-- button_event_cb stores the level read from the pin. -/
def Btn.sample (level : ℕ) (b : Btn) : Btn := { b with val := level }

/-- The event handle_button_event makes of the stored level: 0 release, 1 push. -/
def evtOf (val : ℕ) : ℕ := if 0 = val then 0 else 1

/-- handle_button_event sets `evt`; `samples` levels had been sampled by then. -/
def Btn.readVal (samples : ℕ) (b : Btn) : Btn := { b with evt := evtOf b.val, asOf := samples }

@[simp] theorem evtOf_eq_zero {val : ℕ} : evtOf val = 0 ↔ val = 0 := by
  simp [evtOf, eq_comm]

@[simp] theorem evtOf_eq_one {val : ℕ} : evtOf val = 1 ↔ val ≠ 0 := by
  simp [evtOf, eq_comm]

theorem evtOf_zero_or_one (val : ℕ) : evtOf val = 0 ∨ evtOf val = 1 := by
  unfold evtOf
  split_ifs <;> simp

end DodgeClock
