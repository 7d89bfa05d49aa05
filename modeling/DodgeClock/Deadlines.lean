import DodgeClock.EventSystem
import DodgeClock.OneShotTimer

/-!
# Deadlines of a timer in a machine

A machine may have a timer and a clock of its own. Between the steps that set the timer,
time passes for both alike, and never beyond what the timer has left. A timer is then due
exactly when the duration it was last started with has passed since.
-/
namespace OneShotTimer
open EventSystem

namespace Timer

theorem elapse_zero (t : Timer) : t.elapse 0 = t := by
  obtain ⟨left⟩ := t
  cases left <;> rfl

theorem elapse_elapse (m n : ℕ) (t : Timer) : (t.elapse m).elapse n = t.elapse (m + n) := by
  obtain ⟨left⟩ := t
  cases left with
  | none => rfl
  | some d => simp [elapse, Nat.sub_sub]

theorem Allows.elapse {t : Timer} {m n : ℕ} (hm : t.Allows m) (hn : (t.elapse m).Allows n) :
    t.Allows (m + n) := by
  intro hrun
  have hle := hm hrun
  have hle' := hn ((running_elapse m t).mpr hrun)
  rw [remaining_elapse] at hle'
  omega

/-- A timer that time does not pass over is due once what it had left has passed. -/
theorem due_elapse {t : Timer} {n : ℕ} (hrun : t.Running) (hn : t.Allows n) :
    (t.elapse n).Due ↔ n = t.remaining := by
  obtain ⟨left⟩ := t
  cases left with
  | none => exact absurd rfl hrun
  | some d =>
      have hle : n ≤ d := hn hrun
      simp only [Due, elapse, Option.map_some, Option.some.injEq, remaining, Option.getD_some]
      omega

end Timer

variable {σ ι : Type*}

/-- Only the steps in `sets` do more to the timer than let time pass. -/
structure Timed (M : Machine σ ι) (timer : σ → Timer) (now : σ → ℕ) (sets : σ → ι → Prop) :
    Prop where
  passes : ∀ {s t : σ} {e : ι}, M.step s e = some t → ¬ sets s e →
    ∃ n, (timer s).Allows n ∧ timer t = (timer s).elapse n ∧ now t = now s + n

namespace Timed
variable {M : Machine σ ι} {timer : σ → Timer} {now : σ → ℕ} {sets : σ → ι → Prop} {s t : σ}
  {es : List ι}

theorem run (h : Timed M timer now sets) (hrun : M.run s es = some t)
    (hsets : M.Meets (fun s e => ¬ sets s e) s es) :
    ∃ n, (timer s).Allows n ∧ timer t = (timer s).elapse n ∧ now t = now s + n := by
  induction es generalizing s with
  | nil =>
      obtain rfl := Option.some.inj hrun
      exact ⟨0, fun _ => Nat.zero_le _, (Timer.elapse_zero _).symm, rfl⟩
  | cons e es ih =>
      obtain ⟨m, hm, hrest⟩ := M.run_cons_eq_some.mp hrun
      obtain ⟨a, ha, htimer, hnow⟩ := h.passes hm hsets.head
      obtain ⟨b, hb, htimer', hnow'⟩ := ih hrest (hsets.tail hm)
      rw [htimer] at hb htimer'
      refine ⟨a + b, ha.elapse hb, ?_, ?_⟩
      · rw [htimer', Timer.elapse_elapse]
      · rw [hnow', hnow, Nat.add_assoc]

/-- Time does not go beyond the deadline of a timer that is left alone. -/
theorem now_le (h : Timed M timer now sets) (hrun : M.run s es = some t)
    (hsets : M.Meets (fun s e => ¬ sets s e) s es) (hs : (timer s).Running) :
    now t ≤ now s + (timer s).remaining := by
  obtain ⟨n, hn, -, hnow⟩ := h.run hrun hsets
  have hle := hn hs
  omega

theorem due_iff (h : Timed M timer now sets) (hrun : M.run s es = some t)
    (hsets : M.Meets (fun s e => ¬ sets s e) s es) (hs : (timer s).Running) :
    (timer t).Due ↔ now t = now s + (timer s).remaining := by
  obtain ⟨n, hn, htimer, hnow⟩ := h.run hrun hsets
  rw [htimer, Timer.due_elapse hs hn]
  omega

/-- A timer that runs after a run that began with it stopped was left running by the last
step that set it. -/
theorem exists_last_of_running (h : Timed M timer now sets) (hrun : M.run s es = some t)
    (hs : ¬ (timer s).Running) (ht : (timer t).Running) :
    ∃ u e v, M.Last sets s es u e v ∧ (timer v).Running := by
  have hset : ¬ M.Meets (fun s e => ¬ sets s e) s es := by
    intro hsets
    obtain ⟨n, -, htimer, -⟩ := h.run hrun hsets
    rw [htimer, Timer.running_elapse] at ht
    exact hs ht
  obtain ⟨u, e, v, hlast⟩ := Machine.exists_last hrun hset
  obtain ⟨after, hafter, hsets⟩ := hlast.rest hrun
  obtain ⟨n, -, htimer, -⟩ := h.run hafter hsets
  rw [htimer, Timer.running_elapse] at ht
  exact ⟨u, e, v, hlast, ht⟩

/-- In a run that begins with the timer stopped, the timer is due exactly if the last step
that set it started it, as long ago as it was started for. -/
theorem due_iff_last (h : Timed M timer now sets) (hrun : M.run s es = some t)
    (hs : ¬ (timer s).Running) :
    (timer t).Due ↔ ∃ u e v, M.Last sets s es u e v ∧ (timer v).Running ∧
      now t = now v + (timer v).remaining := by
  constructor
  · intro hdue
    obtain ⟨u, e, v, hlast, hrunning⟩ := h.exists_last_of_running hrun hs hdue.running
    obtain ⟨after, hafter, hsets⟩ := hlast.rest hrun
    exact ⟨u, e, v, hlast, hrunning, (h.due_iff hafter hsets hrunning).mp hdue⟩
  · rintro ⟨u, e, v, hlast, hrunning, hnow⟩
    obtain ⟨after, hafter, hsets⟩ := hlast.rest hrun
    exact (h.due_iff hafter hsets hrunning).mpr hnow

end Timed
end OneShotTimer
