import Mathlib.Tactic
import Mathlib.Data.List.Nodup

/-!
# First-in first-out queues that hold an item at most once

Submitting an item that is queued already changes nothing; otherwise the item
goes to the back. The order of the items is described by `Ahead` and, for
three items, `Chain`. Each operation has one lemma saying what it does to them.
-/
namespace OnceQueue

variable {α : Type*}

def submit [DecidableEq α] (w : α) (q : List α) : List α := if w ∈ q then q else q ++ [w]

section Order

/-- Some `a` is ahead of some `b`. -/
def Ahead (q : List α) (a b : α) : Prop := [a, b].Sublist q

/-- Some `a` is ahead of some `b` that is ahead of some `c`. -/
def Chain (q : List α) (a b c : α) : Prop := [a, b, c].Sublist q

/-- `b` is queued, and every `a` in the queue stands before every `b`. -/
def Covers (q : List α) (b a : α) : Prop := b ∈ q ∧ ¬ Ahead q b a

theorem sublist_concat_iff (l q : List α) (x y : α) :
    (l ++ [x]).Sublist (q ++ [y]) ↔ (l ++ [x]).Sublist q ∨ (x = y ∧ l.Sublist q) := by
  have hrev : ∀ m : List α, (l ++ [x]).Sublist m ↔ (x :: l.reverse).Sublist m.reverse := by
    intro m
    rw [← List.reverse_sublist, List.reverse_concat']
  rw [hrev, hrev, List.reverse_concat', List.cons_sublist_cons', List.reverse_sublist]

@[simp] theorem not_ahead_nil (a b : α) : ¬ Ahead [] a b := by simp [Ahead]
@[simp] theorem not_chain_nil (a b c : α) : ¬ Chain [] a b c := by simp [Chain]

theorem ahead_cons {x : α} {q : List α} {a b : α} :
    Ahead (x :: q) a b ↔ Ahead q a b ∨ (a = x ∧ b ∈ q) := by
  simp [Ahead, List.cons_sublist_cons']

theorem chain_cons {x : α} {q : List α} {a b c : α} :
    Chain (x :: q) a b c ↔ Chain q a b c ∨ (a = x ∧ Ahead q b c) := by
  simp [Chain, Ahead, List.cons_sublist_cons']

theorem ahead_concat {x : α} {q : List α} {a b : α} :
    Ahead (q ++ [x]) a b ↔ Ahead q a b ∨ (b = x ∧ a ∈ q) := by
  simpa [Ahead] using sublist_concat_iff [a] q b x

theorem chain_concat {x : α} {q : List α} {a b c : α} :
    Chain (q ++ [x]) a b c ↔ Chain q a b c ∨ (c = x ∧ Ahead q a b) := by
  simpa [Chain, Ahead] using sublist_concat_iff [a, b] q c x

theorem Ahead.mem_left {q : List α} {a b : α} (h : Ahead q a b) : a ∈ q :=
  h.subset (by simp)

theorem Ahead.mem_right {q : List α} {a b : α} (h : Ahead q a b) : b ∈ q :=
  h.subset (by simp)

/-- Two items that are queued once each stand in one order. -/
theorem Ahead.asymm {q : List α} {a b : α} (h : Ahead q a b) (hn : q.Nodup) : ¬ Ahead q b a := by
  induction q with
  | nil => exact not_ahead_nil b a
  | cons x q ih =>
      obtain ⟨hx, hq⟩ := List.nodup_cons.mp hn
      intro h'
      rcases ahead_cons.mp h with hab | ⟨rfl, hb⟩ <;> rcases ahead_cons.mp h' with hba | ⟨rfl, ha⟩
      · exact ih hab hq hba
      · exact hx hab.mem_right
      · exact hx hba.mem_right
      · exact hx hb

theorem Covers.tail {x : α} {q : List α} {a b : α} (h : Covers (x :: q) b a) (hx : b ≠ x) :
    Covers q b a := by
  refine ⟨by simpa [hx] using h.1, fun hp => h.2 ?_⟩
  exact ahead_cons.mpr (.inl hp)

/-- Taking the covering item from the front leaves none of the covered ones. -/
theorem Covers.head {q : List α} {a b : α} (h : Covers (b :: q) b a) : a ∉ q :=
  fun ha => h.2 (ahead_cons.mpr (.inr ⟨rfl, ha⟩))

end Order

section Submit
variable [DecidableEq α]

@[simp] theorem mem_submit {w x : α} {q : List α} : x ∈ submit w q ↔ x ∈ q ∨ x = w := by
  by_cases h : w ∈ q
  · simp only [submit, if_pos h]
    exact ⟨.inl, fun hx => hx.elim id fun he => he ▸ h⟩
  · simp [submit, h]

theorem nodup_submit {w : α} {q : List α} (h : q.Nodup) : (submit w q).Nodup := by
  by_cases hw : w ∈ q
  · simpa [submit, hw] using h
  · simp only [submit, if_neg hw, List.nodup_append]
    refine ⟨h, List.nodup_singleton w, ?_⟩
    intro a ha b hb
    obtain rfl := List.mem_singleton.mp hb
    exact fun he => hw (he ▸ ha)

/-- A submission leaves the items that wait where they are. -/
theorem idxOf_submit {w x : α} {q : List α} (h : x ∈ q) : (submit w q).idxOf x = q.idxOf x := by
  unfold submit
  split_ifs
  · rfl
  · rw [List.idxOf_append_of_mem h]

/-- Taking the front item brings every other one forward. -/
theorem idxOf_tail {w x : α} {q : List α} (hx : x ∈ w :: q) (hne : w ≠ x) :
    x ∈ q ∧ (w :: q).idxOf x = q.idxOf x + 1 := by
  refine ⟨(List.mem_cons.mp hx).resolve_left (Ne.symm hne), ?_⟩
  exact List.idxOf_cons_ne q hne

/-- A submission makes an item precede another only by putting the other last. -/
theorem Ahead.of_submit {w : α} {q : List α} {a b : α} (h : Ahead (submit w q) a b) :
    Ahead q a b ∨ (b = w ∧ w ∉ q) := by
  by_cases hw : w ∈ q
  · simp only [submit, if_pos hw] at h
    exact .inl h
  · simp only [submit, if_neg hw] at h
    exact (ahead_concat.mp h).imp id fun hb => ⟨hb.1, hw⟩

theorem Chain.of_submit {w : α} {q : List α} {a b c : α} (h : Chain (submit w q) a b c) :
    Chain q a b c ∨ (c = w ∧ Ahead q a b) := by
  by_cases hw : w ∈ q
  · simp only [submit, if_pos hw] at h
    exact .inl h
  · simp only [submit, if_neg hw] at h
    exact chain_concat.mp h

theorem not_ahead_submit {w : α} {q : List α} {a b : α} (h : ¬ Ahead q a b) (hb : b ≠ w) :
    ¬ Ahead (submit w q) a b := by
  intro hp
  rcases Ahead.of_submit hp with hold | ⟨he, _⟩
  · exact h hold
  · exact hb he

theorem not_chain_submit {w : α} {q : List α} {a b c : α} (h : ¬ Chain q a b c)
    (hc : c = w → ¬ Ahead q a b) : ¬ Chain (submit w q) a b c := by
  intro hp
  rcases Chain.of_submit hp with hold | ⟨he, hahead⟩
  · exact h hold
  · exact hc he hahead

theorem Covers.submit {w : α} {q : List α} {a b : α} (h : Covers q b a) (hw : w ≠ a) :
    Covers (submit w q) b a :=
  ⟨mem_submit.mpr (.inl h.1), not_ahead_submit h.2 hw.symm⟩

/-- Submitting `b` makes it cover `a`, unless it stands before an `a` already. -/
theorem covers_submit_self {q : List α} {a b : α} (h : ¬ Ahead q b a) (hab : a ≠ b) :
    Covers (OnceQueue.submit b q) b a :=
  ⟨mem_submit.mpr (.inr rfl), not_ahead_submit h hab⟩

end Submit
end OnceQueue
