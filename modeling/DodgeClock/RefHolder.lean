import DodgeClock.EventSystem

/-!
# Holding one counted reference at a time

An object is reference counted. Its holder takes a reference when it holds none and
drops the one it holds; to take a second one, to drop what it does not hold or to drop
a null pointer is a fault. A sequence of calls without a fault releases every reference
taken, except the one still held, and releases none twice.
-/
namespace RefHolder
open EventSystem

inductive RefCall (κ : Type*) where
  | ref (obj : κ)
  | unref (obj : Option κ)
  deriving DecidableEq, Repr

variable {κ : Type*} [DecidableEq κ]

/-- The state is the object of which a reference is held. -/
def holder : Machine (Option κ) (RefCall κ) where
  step
    | none, .ref obj => some (some obj)
    | some held, .unref (some obj) => if held = obj then some none else none
    | _, _ => none

theorem holder_ref (obj : κ) : holder.step none (.ref obj) = some (some obj) := rfl

theorem holder_unref (obj : κ) : holder.step (some obj) (.unref (some obj)) = some none := by
  simp [holder]

/-- A step takes a reference or drops the one held. -/
theorem holder_cases {s t : Option κ} {c : RefCall κ} (h : holder.step s c = some t) :
    (∃ obj, s = none ∧ c = .ref obj ∧ t = some obj) ∨
      ∃ obj, s = some obj ∧ c = .unref (some obj) ∧ t = none := by
  match s, c with
  | none, .ref obj => exact .inl ⟨obj, rfl, rfl, (Option.some.inj h).symm⟩
  | some held, .unref (some obj) =>
      simp only [holder, Option.ite_none_right_eq_some, Option.some.injEq] at h
      obtain ⟨rfl, rfl⟩ := h
      exact .inr ⟨held, rfl, rfl, rfl⟩
  | none, .unref _ | some _, .ref _ | some _, .unref none => simp [holder] at h

/-- No null pointer is ever dropped. -/
theorem unref_none_not_mem {s t : Option κ} {calls : List (RefCall κ)}
    (h : holder.run s calls = some t) : .unref none ∉ calls := by
  induction calls generalizing s with
  | nil => simp
  | cons c calls ih =>
      obtain ⟨m, hm, hrest⟩ := holder.run_cons_eq_some.mp h
      rw [List.mem_cons, not_or]
      refine ⟨?_, ih hrest⟩
      rcases holder_cases hm with ⟨obj, -, rfl, -⟩ | ⟨obj, -, rfl, -⟩ <;> simp

/-- What is taken is released exactly once, up to what was held before and is held yet. -/
theorem count_of_run {s t : Option κ} {calls : List (RefCall κ)}
    (h : holder.run s calls = some t) (obj : κ) :
    calls.count (.ref obj) + s.toList.count obj =
      calls.count (.unref (some obj)) + t.toList.count obj := by
  induction calls generalizing s with
  | nil =>
      obtain rfl := Option.some.inj h
      rfl
  | cons c calls ih =>
      obtain ⟨m, hm, hrest⟩ := holder.run_cons_eq_some.mp h
      have hcount := ih hrest
      rcases holder_cases hm with ⟨o, rfl, rfl, rfl⟩ | ⟨o, rfl, rfl, rfl⟩
      · by_cases ho : o = obj
        · subst ho
          simp at hcount ⊢
          omega
        · simpa [ho] using hcount
      · by_cases ho : o = obj
        · subst ho
          simp at hcount ⊢
          omega
        · simpa [ho] using hcount

end RefHolder
