import DodgeClock.EventSystem

/-!
# Reading a value in parts

A client that reads a value longer than one answer asks again, each time from where the
last answer ended, until nothing more comes. Whatever lengths it asks for, what it has
is a first part of the value, and the whole of it once nothing more comes.
-/
namespace BlobRead
open EventSystem

variable {σ ε β : Type*}

/-- The answer to a request for `len` items of `value` from `offset` on. -/
def serve (value : List β) (len offset : ℕ) : List β := (value.drop offset).take len

/-- The server, and what the client has got so far. -/
structure Reading (σ β : Type*) where
  server : σ
  got : List β
  deriving DecidableEq, Repr

/-- `read len offset` is how the server answers. An event is the length of a request; an
error ends the read. -/
def reading (read : ℕ → ℕ → σ → Except ε (List β) × σ) : Machine (Reading σ β) ℕ where
  step s len := match read len s.got.length s.server with
    | (.ok part, server) => some ⟨server, s.got ++ part⟩
    | (.error _, _) => none

/-- Nothing more comes, however much is asked for. -/
def Exhausted (read : ℕ → ℕ → σ → Except ε (List β) × σ) (s : Reading σ β) : Prop :=
  ∀ len, (read len s.got.length s.server).1 = .ok []

/-- The server answers from one value. -/
def Serves (read : ℕ → ℕ → σ → Except ε (List β) × σ) (value : List β) : Prop :=
  ∀ len offset s, offset ≤ value.length → (read len offset s).1 = .ok (serve value len offset)

section Reading
variable {read : ℕ → ℕ → σ → Except ε (List β) × σ} {value : List β} {s t : Reading σ β}
  {len : ℕ} {lens : List ℕ}

theorem reading_step (h : Serves read value) (hs : s.got.length ≤ value.length) (len : ℕ) :
    ∃ server, (reading read).step s len =
      some ⟨server, s.got ++ serve value len s.got.length⟩ := by
  have hread := h len s.got.length s.server hs
  refine ⟨(read len s.got.length s.server).2, ?_⟩
  simp only [reading]
  rw [← Prod.eta (read len s.got.length s.server), hread]

/-- A further part goes on where a first part ended. -/
theorem take_append_serve (n : ℕ) (len : ℕ) :
    value.take n ++ serve value len n = value.take (n + len) := by
  rw [serve, List.take_add]

theorem prefix_step (h : Serves read value) (hs : s.got <+: value)
    (hstep : (reading read).step s len = some t) : t.got <+: value := by
  obtain ⟨server, heq⟩ := reading_step h hs.length_le len
  obtain rfl := Option.some.inj (heq.symm.trans hstep)
  show s.got ++ serve value len s.got.length <+: value
  nth_rewrite 1 [List.prefix_iff_eq_take.mp hs]
  rw [take_append_serve]
  exact List.take_prefix _ _

theorem prefix_of_run (h : Serves read value)
    (hrun : (reading read).run s lens = some t) (hs : s.got <+: value) : t.got <+: value :=
  Machine.run_invariant' (I := fun s => s.got <+: value)
    (fun _ _ _ hi hstep => prefix_step h hi hstep) hrun hs

/-- A read that has come to its end has the whole value. -/
theorem got_eq_of_exhausted (h : Serves read value) (hs : s.got <+: value)
    (hend : Exhausted read s) : s.got = value := by
  have hempty := hend value.length
  rw [h _ _ _ hs.length_le, Except.ok.injEq, serve, List.take_eq_nil_iff,
    List.drop_eq_nil_iff] at hempty
  have hlen : value.length ≤ s.got.length := by
    rcases hempty with hzero | hle
    · omega
    · exact hle
  exact hs.eq_of_length_le hlen

theorem exists_run (h : Serves read value) (hs : s.got <+: value) (lens : List ℕ) :
    ∃ t, (reading read).run s lens = some t := by
  induction lens generalizing s with
  | nil => exact ⟨s, rfl⟩
  | cons len lens ih =>
      obtain ⟨server, hstep⟩ := reading_step h hs.length_le len
      obtain ⟨t, hrest⟩ := ih (prefix_step h hs hstep)
      exact ⟨t, (reading read).run_cons_eq_some.mpr ⟨_, hstep, hrest⟩⟩

/-- Every request for at least one item gets one, if there is one left. -/
theorem length_got_of_run (h : Serves read value) (hlens : ∀ len ∈ lens, 1 ≤ len)
    (hrun : (reading read).run s lens = some t) (hs : s.got <+: value) :
    min (s.got.length + lens.length) value.length ≤ t.got.length := by
  induction lens generalizing s with
  | nil =>
      obtain rfl := Option.some.inj hrun
      exact min_le_left _ _
  | cons len lens ih =>
      obtain ⟨m, hm, hrest⟩ := (reading read).run_cons_eq_some.mp hrun
      obtain ⟨server, heq⟩ := reading_step h hs.length_le len
      have hgot : m.got = s.got ++ serve value len s.got.length := by
        rw [hm] at heq
        exact congrArg Reading.got (Option.some.inj heq)
      have hone : 1 ≤ len := hlens len List.mem_cons_self
      have hlong : m.got.length = min (s.got.length + len) value.length := by
        rw [hgot, List.length_append, serve, List.length_take, List.length_drop]
        have hle := hs.length_le
        omega
      have hnext := ih (fun l hl => hlens l (List.mem_cons_of_mem len hl)) hrest
        (prefix_step h hs hm)
      rw [List.length_cons]
      omega

/-- As many requests as the value has items always exhaust it. -/
theorem exhausted_of_run (h : Serves read value) (hlens : ∀ len ∈ lens, 1 ≤ len)
    (hmany : value.length ≤ lens.length) (hrun : (reading read).run s lens = some t)
    (hs : s.got <+: value) : Exhausted read t := by
  have hlong := length_got_of_run h hlens hrun hs
  have hle := (prefix_of_run h hrun hs).length_le
  intro len
  rw [h len _ _ hle, serve, List.drop_eq_nil_of_le (by omega), List.take_nil]

end Reading
end BlobRead
