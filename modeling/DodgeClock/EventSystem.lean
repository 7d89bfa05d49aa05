import Mathlib.Tactic
import Mathlib.Data.List.Basic

/-!
# Machines driven by events

A machine is a partial step function. Everything that is not determined by the
state (which interrupt comes next, what a call returns) is part of the event, so
a run is a list of events and can be evaluated. Properties of whole runs are
proved from one rule, `run_invariant`, whose premise speaks of a single step.
-/
namespace EventSystem

/-- An event that cannot happen in a state has no successor there. -/
structure Machine (σ ι : Type*) where
  step : σ → ι → Option σ

namespace Machine
variable {σ ι ω : Type*} (M : Machine σ ι)

def run : σ → List ι → Option σ
  | s, [] => some s
  | s, e :: es => (M.step s e).bind fun t => run t es

@[simp] theorem run_nil (s : σ) : M.run s [] = some s := rfl

theorem run_cons_eq_some {s t : σ} {e : ι} {es : List ι} :
    M.run s (e :: es) = some t ↔ ∃ m, M.step s e = some m ∧ M.run m es = some t := by
  simp [run, Option.bind_eq_some_iff]

theorem run_append (s : σ) (es fs : List ι) :
    M.run s (es ++ fs) = (M.run s es).bind fun t => M.run t fs := by
  induction es generalizing s with
  | nil => rfl
  | cons e es ih =>
      cases h : M.step s e with
      | none => simp [run, h]
      | some m => simp [run, h, ih]

theorem run_concat {s m t : σ} {es : List ι} {e : ι} (h : M.run s es = some m)
    (he : M.step m e = some t) : M.run s (es ++ [e]) = some t := by
  simp [run_append, h, run, he]

/-- Every step the run takes satisfies `cond` in the state it is taken from. -/
def Meets (cond : σ → ι → Prop) : σ → List ι → Prop
  | _, [] => True
  | s, e :: es => cond s e ∧ match M.step s e with
    | some t => Meets cond t es
    | none => True

instance Meets.decidable (cond : σ → ι → Prop) [∀ s e, Decidable (cond s e)] :
    (s : σ) → (es : List ι) → Decidable (M.Meets cond s es)
  | _, [] => .isTrue trivial
  | s, e :: es =>
      have : Decidable (match M.step s e with
          | some t => M.Meets cond t es
          | none => True) :=
        match M.step s e with
        | some t => Meets.decidable cond t es
        | none => .isTrue trivial
      inferInstanceAs (Decidable (_ ∧ _))

variable {M}

theorem Meets.head {cond : σ → ι → Prop} {s : σ} {e : ι} {es : List ι}
    (h : M.Meets cond s (e :: es)) : cond s e := h.1

theorem Meets.tail {cond : σ → ι → Prop} {s t : σ} {e : ι} {es : List ι}
    (h : M.Meets cond s (e :: es)) (hs : M.step s e = some t) : M.Meets cond t es := by
  have h2 := h.2
  simpa only [hs] using h2

theorem Meets.and {cond cond' : σ → ι → Prop} {s : σ} {es : List ι} (h : M.Meets cond s es)
    (h' : M.Meets cond' s es) : M.Meets (fun s e => cond s e ∧ cond' s e) s es := by
  induction es generalizing s with
  | nil => trivial
  | cons e es ih =>
      refine ⟨⟨h.head, h'.head⟩, ?_⟩
      cases hs : M.step s e with
      | none => trivial
      | some t => exact ih (h.tail hs) (h'.tail hs)

theorem Meets.of_forall {cond : σ → ι → Prop} (h : ∀ s e, cond s e) (s : σ) (es : List ι) :
    M.Meets cond s es := by
  induction es generalizing s with
  | nil => trivial
  | cons e es ih =>
      refine ⟨h s e, ?_⟩
      cases M.step s e with
      | none => trivial
      | some t => exact ih t

theorem Meets.of_mem {P : ι → Prop} {es : List ι} (h : ∀ e ∈ es, P e) (s : σ) :
    M.Meets (fun _ e => P e) s es := by
  induction es generalizing s with
  | nil => trivial
  | cons e es ih =>
      obtain ⟨he, hes⟩ := List.forall_mem_cons.mp h
      refine ⟨he, ?_⟩
      cases M.step s e with
      | none => trivial
      | some t => exact ih hes t

theorem Meets.forall_mem {P : ι → Prop} {s t : σ} {es : List ι}
    (h : M.Meets (fun _ e => P e) s es) (hrun : M.run s es = some t) : ∀ e ∈ es, P e := by
  induction es generalizing s with
  | nil => simp
  | cons e es ih =>
      obtain ⟨m, hm, hrest⟩ := M.run_cons_eq_some.mp hrun
      exact List.forall_mem_cons.mpr ⟨h.head, ih (h.tail hm) hrest⟩

theorem Meets.imp {cond cond' : σ → ι → Prop} (h : ∀ s e, cond s e → cond' s e) {s : σ}
    {es : List ι} (hc : M.Meets cond s es) : M.Meets cond' s es := by
  induction es generalizing s with
  | nil => trivial
  | cons e es ih =>
      refine ⟨h s e hc.head, ?_⟩
      cases hs : M.step s e with
      | none => trivial
      | some t => exact ih (hc.tail hs)

/-- What every step preserves under `cond`, every run meeting `cond` preserves. -/
theorem run_invariant {cond : σ → ι → Prop} {I : σ → Prop}
    (hstep : ∀ s e t, I s → cond s e → M.step s e = some t → I t)
    {s t : σ} {es : List ι} (hrun : M.run s es = some t) (hc : M.Meets cond s es)
    (hs : I s) : I t := by
  induction es generalizing s with
  | nil => obtain rfl := Option.some.inj hrun; exact hs
  | cons e es ih =>
      obtain ⟨m, hm, hrest⟩ := M.run_cons_eq_some.mp hrun
      exact ih hrest (hc.tail hm) (hstep s e m hs hc.head hm)

/-- Under an invariant, a condition on the steps may bring another one with it. -/
theorem meets_of_invariant {cond Q : σ → ι → Prop} {I : σ → Prop}
    (hstep : ∀ s e t, I s → cond s e → M.step s e = some t → I t ∧ Q s e)
    {s t : σ} {es : List ι} (hrun : M.run s es = some t) (hc : M.Meets cond s es)
    (hs : I s) : M.Meets Q s es := by
  induction es generalizing s with
  | nil => trivial
  | cons e es ih =>
      obtain ⟨m, hm, hrest⟩ := M.run_cons_eq_some.mp hrun
      obtain ⟨hi, hq⟩ := hstep s e m hs hc.head hm
      refine ⟨hq, ?_⟩
      simpa only [hm] using ih hrest (hc.tail hm) hi

/-- A run that does not meet `cond` has a first part that ends where `cond` fails. -/
theorem exists_of_not_meets {cond : σ → ι → Prop} {s t : σ} {es : List ι}
    (hrun : M.run s es = some t) (hc : ¬ M.Meets cond s es) :
    ∃ before e after m n, es = before ++ e :: after ∧ M.run s before = some m ∧ ¬ cond m e ∧
      M.step m e = some n ∧ M.run n after = some t := by
  induction es generalizing s with
  | nil => exact absurd trivial hc
  | cons e es ih =>
      obtain ⟨m, hm, hrest⟩ := M.run_cons_eq_some.mp hrun
      by_cases he : cond s e
      · have hc' : ¬ M.Meets cond m es := fun h => hc ⟨he, by simpa only [hm] using h⟩
        obtain ⟨before, e', after, u, v, rfl, hu, hne, hv, hend⟩ := ih hrest hc'
        exact ⟨e :: before, e', after, u, v, rfl, M.run_cons_eq_some.mpr ⟨m, hm, hu⟩, hne, hv,
          hend⟩
      · exact ⟨[], e, es, s, m, rfl, rfl, he, hm, hrest⟩

/-- If each step of a kind brings the state nearer to a step that satisfies `Q`, and no other
step takes it away, enough of them lead to such a step. -/
theorem exists_of_rank {cond Q : σ → ι → Prop} {work : ι → Prop} [DecidablePred work]
    {I : σ → Prop} {rank : σ → ℕ}
    (hstep : ∀ s e t, I s → cond s e → ¬ Q s e → M.step s e = some t →
      I t ∧ rank t + (if work e then 1 else 0) ≤ rank s)
    {s t : σ} {es : List ι} (hrun : M.run s es = some t) (hc : M.Meets cond s es) (hs : I s)
    (hlong : rank s < es.countP fun e => decide (work e)) :
    ∃ before e after m n, es = before ++ e :: after ∧
      before.countP (fun e => decide (work e)) ≤ rank s ∧ M.run s before = some m ∧
      M.Meets cond s before ∧ Q m e ∧ cond m e ∧ M.step m e = some n ∧ M.run n after = some t ∧
      M.Meets cond n after := by
  induction es generalizing s with
  | nil => simp at hlong
  | cons e es ih =>
      obtain ⟨m, hm, hrest⟩ := M.run_cons_eq_some.mp hrun
      by_cases hQ : Q s e
      · exact ⟨[], e, es, s, m, rfl, Nat.zero_le _, rfl, trivial, hQ, hc.head, hm, hrest,
          hc.tail hm⟩
      · obtain ⟨hi, hrank⟩ := hstep s e m hs hc.head hQ hm
        have hlong' : rank m < es.countP fun e => decide (work e) := by
          rw [List.countP_cons] at hlong
          simp only [decide_eq_true_eq] at hlong
          omega
        obtain ⟨before, e', after, u, v, rfl, hcount, hu, hmeets, hq, hce, hv, hend, hafter⟩ :=
          ih hrest (hc.tail hm) hi hlong'
        refine ⟨e :: before, e', after, u, v, rfl, ?_, M.run_cons_eq_some.mpr ⟨m, hm, hu⟩,
          ⟨hc.head, by simpa only [hm] using hmeets⟩, hq, hce, hv, hend, hafter⟩
        rw [List.countP_cons]
        simp only [decide_eq_true_eq]
        omega

/-- If a step of lower rank leads on from every state before the goal, a run leads to the
goal in no more steps than the rank. -/
theorem exists_run_of_rank {cond : σ → ι → Prop} {I goal : σ → Prop} {rank : σ → ℕ}
    (hstep : ∀ s, I s → ¬ goal s → ∃ e t, cond s e ∧ M.step s e = some t ∧ I t ∧
      rank t < rank s)
    {s : σ} (hs : I s) :
    ∃ es t, M.run s es = some t ∧ M.Meets cond s es ∧ I t ∧ goal t ∧ es.length ≤ rank s := by
  induction hn : rank s using Nat.strong_induction_on generalizing s with
  | _ n ih =>
      by_cases hgoal : goal s
      · exact ⟨[], s, rfl, trivial, hs, hgoal, Nat.zero_le n⟩
      · obtain ⟨e, m, hc, hm, hi, hless⟩ := hstep s hs hgoal
        obtain ⟨es, t, hrun, hmeets, ht, hend, hlen⟩ := ih (rank m) (hn ▸ hless) hi rfl
        refine ⟨e :: es, t, M.run_cons_eq_some.mpr ⟨m, hm, hrun⟩, ⟨hc, ?_⟩, ht, hend, ?_⟩
        · simpa only [hm] using hmeets
        · rw [List.length_cons]
          omega

variable (M) in
/-- `e`, taken from `u`, is the last step of the run that satisfies `Q`, and leads to `v`. -/
def Last (Q : σ → ι → Prop) (s : σ) (es : List ι) (u : σ) (e : ι) (v : σ) : Prop :=
  ∃ before after, es = before ++ e :: after ∧ M.run s before = some u ∧ Q u e ∧
    M.step u e = some v ∧ M.Meets (fun s e => ¬ Q s e) v after

/-- A run with a step that satisfies `Q` has a last one. -/
theorem exists_last {Q : σ → ι → Prop} {s t : σ} {es : List ι} (hrun : M.run s es = some t)
    (hQ : ¬ M.Meets (fun s e => ¬ Q s e) s es) : ∃ u e v, M.Last Q s es u e v := by
  induction es generalizing s with
  | nil => exact absurd trivial hQ
  | cons e es ih =>
      obtain ⟨m, hm, hrest⟩ := M.run_cons_eq_some.mp hrun
      by_cases hlater : M.Meets (fun s e => ¬ Q s e) m es
      · have he : Q s e := by
          by_contra he
          exact hQ ⟨he, by simpa only [hm] using hlater⟩
        exact ⟨s, e, m, [], es, rfl, rfl, he, hm, hlater⟩
      · obtain ⟨u, e', v, before, after, rfl, hbefore, hlast⟩ := ih hrest hlater
        exact ⟨u, e', v, e :: before, after, rfl,
          M.run_cons_eq_some.mpr ⟨m, hm, hbefore⟩, hlast⟩

theorem Last.holds {Q : σ → ι → Prop} {s u v : σ} {es : List ι} {e : ι}
    (h : M.Last Q s es u e v) : Q u e := by
  obtain ⟨before, after, -, -, hQ, -, -⟩ := h
  exact hQ

theorem Last.reach {Q : σ → ι → Prop} {s u v : σ} {es : List ι} {e : ι}
    (h : M.Last Q s es u e v) : ∃ before, M.run s before = some u := by
  obtain ⟨before, after, -, hbefore, -, -, -⟩ := h
  exact ⟨before, hbefore⟩

theorem Last.step_eq {Q : σ → ι → Prop} {s u v : σ} {es : List ι} {e : ι}
    (h : M.Last Q s es u e v) : M.step u e = some v := by
  obtain ⟨before, after, -, -, -, hstep, -⟩ := h
  exact hstep

/-- The rest of the run after its last step that satisfies `Q`. -/
theorem Last.rest {Q : σ → ι → Prop} {s t u v : σ} {es : List ι} {e : ι}
    (h : M.Last Q s es u e v) (hrun : M.run s es = some t) :
    ∃ after, M.run v after = some t ∧ M.Meets (fun s e => ¬ Q s e) v after := by
  obtain ⟨before, after, rfl, hbefore, -, hstep, hmeets⟩ := h
  rw [run_append, hbefore, Option.bind_some] at hrun
  obtain ⟨m, hm, hrest⟩ := M.run_cons_eq_some.mp hrun
  obtain rfl := Option.some.inj (hstep.symm.trans hm)
  exact ⟨after, hrest, hmeets⟩

/-- The rule for machines all of whose steps preserve the invariant. -/
theorem run_invariant' {I : σ → Prop} (hstep : ∀ s e t, I s → M.step s e = some t → I t)
    {s t : σ} {es : List ι} (hrun : M.run s es = some t) (hs : I s) : I t :=
  have hc : M.Meets (fun _ _ => True) s es := .of_forall (fun _ _ => trivial) s es
  run_invariant (fun s e t hi _ => hstep s e t hi) hrun hc hs

variable (M)

/-- The machine that only takes the steps that meet `cond`. -/
def restrict (cond : σ → ι → Prop) [∀ s e, Decidable (cond s e)] : Machine σ ι where
  step s e := if cond s e then M.step s e else none

variable {M} in
theorem run_restrict {cond : σ → ι → Prop} [∀ s e, Decidable (cond s e)] {s t : σ} {es : List ι}
    (hrun : M.run s es = some t) (hc : M.Meets cond s es) :
    (M.restrict cond).run s es = some t := by
  induction es generalizing s with
  | nil => exact hrun
  | cons e es ih =>
      obtain ⟨m, hm, hrest⟩ := M.run_cons_eq_some.mp hrun
      refine Machine.run_cons_eq_some _ |>.mpr ⟨m, ?_, ih hrest (hc.tail hm)⟩
      simp only [restrict, if_pos hc.head, hm]

/-- The states a run passes through, the first one included. -/
def visited : σ → List ι → List σ
  | s, [] => [s]
  | s, e :: es => s :: match M.step s e with
    | some t => visited t es
    | none => []

variable {M}

/-- The same rule when the property also speaks of the states already passed. -/
theorem visited_invariant {cond : σ → ι → Prop} {I : List σ → σ → Prop}
    (hstep : ∀ vs s e t, I vs s → cond s e → M.step s e = some t → I (vs ++ [t]) t)
    {s t : σ} {es : List ι} (hrun : M.run s es = some t) (hc : M.Meets cond s es)
    (hs : I [s] s) : I (M.visited s es) t := by
  suffices h : ∀ (es : List ι) (s : σ) (vs : List σ), M.run s es = some t → M.Meets cond s es →
      I (vs ++ [s]) s → I (vs ++ M.visited s es) t from h es s [] hrun hc hs
  intro es
  induction es with
  | nil =>
      intro s vs hrun _ hs
      obtain rfl := Option.some.inj hrun
      exact hs
  | cons e es ih =>
      intro s vs hrun hc hs
      obtain ⟨m, hm, hrest⟩ := M.run_cons_eq_some.mp hrun
      have h := ih m (vs ++ [s]) hrest (hc.tail hm) (hstep _ s e m hs hc.head hm)
      simpa [visited, hm] using h

theorem visited_cons {s t : σ} {e : ι} {es : List ι} (h : M.step s e = some t) :
    M.visited s (e :: es) = s :: M.visited t es := by
  simp [visited, h]

theorem mem_visited_self (s : σ) (es : List ι) : s ∈ M.visited s es := by
  cases es <;> simp [visited]

/-- Where a step from a good state is a good one and leads to a good state exactly under
`cond`, a run stays good exactly if all its steps meet `cond`. `I` may record what else
is known as long as it does. -/
theorem stays_iff_meets {P I : σ → Prop} {Q cond : σ → ι → Prop}
    (hkeep : ∀ s e t, I s → P s → cond s e → M.step s e = some t → I t)
    (hstep : ∀ s e t, I s → P s → M.step s e = some t → (P t ∧ Q s e ↔ cond s e))
    {s t : σ} {es : List ι} (hrun : M.run s es = some t) (hi : I s) (hs : P s) :
    (∀ v ∈ M.visited s es, P v) ∧ M.Meets Q s es ↔ M.Meets cond s es := by
  induction es generalizing s with
  | nil => simp [visited, Meets, hs]
  | cons e es ih =>
      obtain ⟨m, hm, hrest⟩ := M.run_cons_eq_some.mp hrun
      have hiff := hstep s e m hi hs hm
      simp only [visited_cons hm, List.forall_mem_cons, Meets, hm]
      constructor
      · rintro ⟨⟨-, hall⟩, hq, hqs⟩
        have hpm : P m := hall m (mem_visited_self m es)
        have hc := hiff.mp ⟨hpm, hq⟩
        exact ⟨hc, (ih hrest (hkeep s e m hi hs hc hm) hpm).mp ⟨hall, hqs⟩⟩
      · rintro ⟨hc, hcs⟩
        obtain ⟨hpm, hq⟩ := hiff.mpr hc
        obtain ⟨hall, hqs⟩ := (ih hrest (hkeep s e m hi hs hc hm) hpm).mpr hcs
        exact ⟨⟨hs, hall⟩, hq, hqs⟩

/-- The same for a property of states alone. -/
theorem forall_visited_iff_meets {P I : σ → Prop} {cond : σ → ι → Prop}
    (hkeep : ∀ s e t, I s → P s → cond s e → M.step s e = some t → I t)
    (hstep : ∀ s e t, I s → P s → M.step s e = some t → (P t ↔ cond s e))
    {s t : σ} {es : List ι} (hrun : M.run s es = some t) (hi : I s) (hs : P s) :
    (∀ v ∈ M.visited s es, P v) ↔ M.Meets cond s es := by
  have h := stays_iff_meets (Q := fun _ _ => True) hkeep
    (fun s e t hi hs hm => by rw [and_true, hstep s e t hi hs hm]) hrun hi hs
  rw [← h, and_iff_left (Meets.of_forall (fun _ _ => trivial) s es)]

/-- What `out` reports along a run, in order. -/
def outputs (M : Machine σ ι) (out : σ → ι → Option ω) : σ → List ι → List ω
  | _, [] => []
  | s, e :: es => (out s e).toList ++ match M.step s e with
    | some t => outputs M out t es
    | none => []

theorem outputs_cons {out : σ → ι → Option ω} {s t : σ} {e : ι} {es : List ι}
    (h : M.step s e = some t) :
    M.outputs out s (e :: es) = (out s e).toList ++ M.outputs out t es := by
  simp [outputs, h]

theorem outputs_append {out : σ → ι → Option ω} {s t : σ} {es : List ι} (fs : List ι)
    (hrun : M.run s es = some t) :
    M.outputs out s (es ++ fs) = M.outputs out s es ++ M.outputs out t fs := by
  induction es generalizing s with
  | nil =>
      obtain rfl := Option.some.inj hrun
      rfl
  | cons e es ih =>
      obtain ⟨m, hm, hrest⟩ := M.run_cons_eq_some.mp hrun
      rw [List.cons_append, outputs_cons hm, outputs_cons hm, ih hrest, List.append_assoc]

/-- Picking from the reports is reporting what is picked. -/
theorem outputs_filterMap {κ : Type*} (out : σ → ι → Option ω) (pick : ω → Option κ) (s : σ)
    (es : List ι) :
    (M.outputs out s es).filterMap pick = M.outputs (fun s e => (out s e).bind pick) s es := by
  induction es generalizing s with
  | nil => rfl
  | cons e es ih =>
      have hhead : (out s e).toList.filterMap pick = ((out s e).bind pick).toList := by
        cases h : out s e with
        | none => rfl
        | some w => cases hw : pick w <;> simp [hw]
      rw [outputs, outputs, List.filterMap_append, hhead]
      cases M.step s e with
      | none => rfl
      | some t => rw [ih]

/-- Reports that agree at every step of a run agree over the run. -/
theorem outputs_congr {out out' : σ → ι → Option ω} {s : σ} {es : List ι}
    (h : M.Meets (fun s e => out s e = out' s e) s es) :
    M.outputs out s es = M.outputs out' s es := by
  induction es generalizing s with
  | nil => rfl
  | cons e es ih =>
      have hhead : out s e = out' s e := h.head
      rw [outputs, outputs, hhead]
      cases hs : M.step s e with
      | none => rfl
      | some t => exact congrArg _ (ih (h.tail hs))

/-- What holds of every report made under an invariant holds of all a run reports. -/
theorem forall_mem_outputs {cond : σ → ι → Prop} {I : σ → Prop} {P : ω → Prop}
    {out : σ → ι → Option ω} (hstep : ∀ s e t, I s → cond s e → M.step s e = some t → I t)
    (hout : ∀ s e w, I s → out s e = some w → P w) {s t : σ} {es : List ι}
    (hrun : M.run s es = some t) (hc : M.Meets cond s es) (hs : I s) :
    ∀ w ∈ M.outputs out s es, P w := by
  induction es generalizing s with
  | nil => simp [outputs]
  | cons e es ih =>
      obtain ⟨m, hm, hrest⟩ := M.run_cons_eq_some.mp hrun
      rw [outputs_cons hm, List.forall_mem_append]
      refine ⟨fun w hw => ?_, ih hrest (hc.tail hm) (hstep s e m hs hc.head hm)⟩
      exact hout s e w hs (Option.mem_toList.mp hw)

/-- The same where a report is known to come with a step. -/
theorem forall_mem_outputs_of_step {cond : σ → ι → Prop} {I : σ → Prop} {P : ω → Prop}
    {out : σ → ι → Option ω} (hstep : ∀ s e t, I s → cond s e → M.step s e = some t → I t)
    (hout : ∀ s e t w, I s → M.step s e = some t → out s e = some w → P w) {s t : σ}
    {es : List ι} (hrun : M.run s es = some t) (hc : M.Meets cond s es) (hs : I s) :
    ∀ w ∈ M.outputs out s es, P w := by
  induction es generalizing s with
  | nil => simp [outputs]
  | cons e es ih =>
      obtain ⟨m, hm, hrest⟩ := M.run_cons_eq_some.mp hrun
      rw [outputs_cons hm, List.forall_mem_append]
      refine ⟨fun w hw => ?_, ih hrest (hc.tail hm) (hstep s e m hs hc.head hm)⟩
      exact hout s e m w hs hm (Option.mem_toList.mp hw)

end Machine

/-- Every step of `M` from a state in `I` is, seen through `f`, the step of `N` that `g`
names, or no step at all. -/
structure Refines {σ ι τ κ : Type*} (M : Machine σ ι) (N : Machine τ κ) (I : σ → Prop)
    (f : σ → τ) (g : σ → ι → Option κ) : Prop where
  keeps : ∀ {s t : σ} {e : ι}, I s → M.step s e = some t → I t
  stutters : ∀ {s t : σ} {e : ι}, I s → M.step s e = some t → g s e = none → f t = f s
  steps : ∀ {s t : σ} {e : ι} {k : κ}, I s → M.step s e = some t → g s e = some k →
    N.step (f s) k = some (f t)

namespace Refines
variable {σ ι τ κ : Type*} {M : Machine σ ι} {N : Machine τ κ} {I : σ → Prop} {f : σ → τ}
  {g : σ → ι → Option κ}

/-- A run of `M` is a run of `N`. -/
theorem run (h : Refines M N I f g) {s t : σ} {es : List ι} (hs : I s)
    (hrun : M.run s es = some t) : N.run (f s) (M.outputs g s es) = some (f t) := by
  induction es generalizing s with
  | nil =>
      obtain rfl := Option.some.inj hrun
      rfl
  | cons e es ih =>
      obtain ⟨m, hm, hrest⟩ := M.run_cons_eq_some.mp hrun
      have hnext := ih (h.keeps hs hm) hrest
      rw [Machine.outputs_cons hm]
      cases hg : g s e with
      | none =>
          rw [h.stutters hs hm hg] at hnext
          exact hnext
      | some k => exact N.run_cons_eq_some.mpr ⟨f m, h.steps hs hm hg, hnext⟩

/-- The run of `N` meets a condition if the run of `M` meets it at the steps it names. -/
theorem meets_iff (h : Refines M N I f g) {cond : τ → κ → Prop} {s t : σ} {es : List ι}
    (hs : I s) (hrun : M.run s es = some t) :
    N.Meets cond (f s) (M.outputs g s es) ↔
      M.Meets (fun s e => ∀ k, g s e = some k → cond (f s) k) s es := by
  induction es generalizing s with
  | nil => exact ⟨fun _ => trivial, fun _ => trivial⟩
  | cons e es ih =>
      obtain ⟨m, hm, hrest⟩ := M.run_cons_eq_some.mp hrun
      have hnext := ih (h.keeps hs hm) hrest
      rw [Machine.outputs_cons hm]
      simp only [Machine.Meets, hm]
      cases hg : g s e with
      | none =>
          rw [h.stutters hs hm hg] at hnext
          simpa using hnext
      | some k => simpa [Machine.Meets, h.steps hs hm hg] using fun _ => hnext

end Refines

/-- Where each step of `M` takes `N` through the calls it makes, a run takes it through all
of them. -/
theorem Machine.run_flatten_outputs {σ ι τ κ : Type*} {M : Machine σ ι} {N : Machine τ κ}
    {I : σ → Prop} {f : σ → τ} {calls : σ → ι → Option (List κ)}
    (hstep : ∀ s e t, I s → M.step s e = some t →
      I t ∧ N.run (f s) ((calls s e).getD []) = some (f t))
    {s t : σ} {es : List ι} (hrun : M.run s es = some t) (hs : I s) :
    N.run (f s) (M.outputs calls s es).flatten = some (f t) := by
  induction es generalizing s with
  | nil =>
      obtain rfl := Option.some.inj hrun
      rfl
  | cons e es ih =>
      obtain ⟨m, hm, hrest⟩ := M.run_cons_eq_some.mp hrun
      obtain ⟨hi, hfirst⟩ := hstep s e m hs hm
      have hhead : (calls s e).toList.flatten = (calls s e).getD [] := by
        cases calls s e <;> simp
      rw [Machine.outputs_cons hm, List.flatten_append, hhead, Machine.run_append, hfirst]
      exact ih hrest hi

/-- Every entry of the log is one that `ok` admits after the entries before it. -/
def Obeys {α : Type*} (ok : List α → α → Prop) (log : List α) : Prop :=
  ∀ before a after, log = before ++ a :: after → ok before a

section Obeys
variable {α : Type*} {ok : List α → α → Prop} {log : List α} {a : α}

@[simp] theorem obeys_nil : Obeys ok [] := fun _ _ _ h => by simp at h

theorem Obeys.of_append {more : List α} (h : Obeys ok (log ++ more)) : Obeys ok log :=
  fun before a after hb => h before a (after ++ more) (by simp [hb])

@[simp] theorem obeys_concat : Obeys ok (log ++ [a]) ↔ Obeys ok log ∧ ok log a := by
  constructor
  · exact fun h => ⟨h.of_append, h log a [] rfl⟩
  · rintro ⟨hlog, ha⟩ before b after hb
    rcases List.eq_nil_or_concat after with rfl | ⟨after, c, rfl⟩
    · obtain ⟨rfl, hcons⟩ := List.append_inj' hb rfl
      obtain rfl := List.singleton_inj.mp hcons
      exact ha
    · rw [List.concat_eq_append, ← List.cons_append, ← List.append_assoc] at hb
      exact hlog before b after (List.append_inj' hb rfl).1

end Obeys
end EventSystem
