import DodgeClock.EventSystem

/-!
# Channels that may lose but never reorder

Items are put in at one end and come out at the other in the same order. An item may be
lost on its way, alone or with all that come after it, and it may arrive where nobody
takes it. What comes out is then a part of what was put in, in order; it is all of it if
nothing was lost.
-/
namespace LossyChannel
open EventSystem

/-- What was put in, what is on its way, and what has been taken out. -/
structure Channel (α : Type*) where
  put : List α
  onWay : List α
  got : List α
  deriving DecidableEq, Repr

/-- `miss` is an arrival that nobody takes; after `lose keep` only the first `keep` items
are still on their way. -/
inductive Op (α : Type*) where
  | put (a : α)
  | take
  | miss
  | lose (keep : ℕ)
  deriving DecidableEq, Repr

variable {α : Type*}

def channel : Machine (Channel α) (Op α) where
  step
    | c, .put a => some ⟨c.put ++ [a], c.onWay ++ [a], c.got⟩
    | c, .take => match c.onWay with
        | a :: rest => some ⟨c.put, rest, c.got ++ [a]⟩
        | [] => none
    | c, .miss => match c.onWay with
        | _ :: rest => some ⟨c.put, rest, c.got⟩
        | [] => none
    | c, .lose keep => some ⟨c.put, c.onWay.take keep, c.got⟩

/-- What came out and what may still come out are a part of what was put in. -/
def Channel.InOrder (c : Channel α) : Prop := (c.got ++ c.onWay).Sublist c.put

/-- What the operation puts in. -/
def Op.item : Op α → Option α
  | .put a => some a
  | _ => none

/-- Nothing is lost by the operation. -/
def Keeps (c : Channel α) : Op α → Prop
  | .put _ | .take => True
  | .miss => False
  | .lose keep => c.onWay.length ≤ keep

section Step
variable {c d : Channel α} {op : Op α}

theorem inOrder_step (hi : c.InOrder) (h : channel.step c op = some d) : d.InOrder := by
  unfold Channel.InOrder at hi ⊢
  cases op with
  | put a =>
      obtain rfl := Option.some.inj h
      rw [← List.append_assoc]
      exact hi.append_right [a]
  | take =>
      cases hway : c.onWay with
      | nil => simp [channel, hway] at h
      | cons a rest =>
          simp only [channel, hway, Option.some.injEq] at h
          subst h
          rw [hway] at hi
          simpa using hi
  | miss =>
      cases hway : c.onWay with
      | nil => simp [channel, hway] at h
      | cons a rest =>
          simp only [channel, hway, Option.some.injEq] at h
          subst h
          rw [hway] at hi
          exact ((List.sublist_cons_self a rest).append_left c.got).trans hi
  | lose keep =>
      obtain rfl := Option.some.inj h
      exact ((List.take_sublist keep c.onWay).append_left c.got).trans hi

/-- An operation that loses nothing adds to what comes out just what it puts in. -/
theorem keeps_step (hk : Keeps c op) (h : channel.step c op = some d) :
    d.got ++ d.onWay = c.got ++ c.onWay ++ op.item.toList := by
  cases op with
  | put a =>
      obtain rfl := Option.some.inj h
      exact (List.append_assoc ..).symm
  | take =>
      cases hway : c.onWay with
      | nil => simp [channel, hway] at h
      | cons a rest =>
          simp only [channel, hway, Option.some.injEq] at h
          subst h
          simp [Op.item]
  | miss => exact hk.elim
  | lose keep =>
      obtain rfl := Option.some.inj h
      show c.got ++ c.onWay.take keep = _
      rw [List.take_of_length_le hk]
      exact (List.append_nil _).symm

end Step

section Runs
variable {c d : Channel α} {ops : List (Op α)}

theorem inOrder_of_run (hrun : channel.run c ops = some d) (hi : c.InOrder) : d.InOrder :=
  Machine.run_invariant' (I := Channel.InOrder) (fun _ _ _ hi h => inOrder_step hi h) hrun hi

/-- A run that loses nothing lets everything through, in order. -/
theorem keeps_of_run (hrun : channel.run c ops = some d) (hk : channel.Meets Keeps c ops) :
    d.got ++ d.onWay = c.got ++ c.onWay ++ ops.filterMap Op.item := by
  induction ops generalizing c with
  | nil =>
      obtain rfl := Option.some.inj hrun
      simp
  | cons op ops ih =>
      obtain ⟨m, hm, hrest⟩ := channel.run_cons_eq_some.mp hrun
      rw [ih hrest (hk.tail hm), keeps_step hk.head hm, List.append_assoc]
      cases h : op.item <;> simp [h]

end Runs
end LossyChannel
