import DodgeClock.DclkClient

/-!
# What on_received makes of a payload

The payload of a notification and its length come from the peer. on_received takes the
value from the memory at the payload as its type has it, four bytes for a clock and one
for a state, and does not look at the length.
-/
namespace DodgeClock
open LittleEndian

/-- The size of the value of a characteristic. -/
def Chrc.size : Chrc → ℕ
  | .clock => 4
  | .state => 1

/-- The characteristic whose value on_received takes for a handle, if its callback is
set. -/
def DclkClient.decodes (c : DclkClient) (valueHandle : ℕ) : Option Chrc :=
  if valueHandle = c.dclockNotifParams.valueHandle then c.cb.receivedClock.map fun _ => .clock
  else if valueHandle = c.dstateNotifParams.valueHandle then
    c.cb.receivedState.map fun _ => .state
  else none

/-- on_received looks at the byte `i` of the memory at the payload. -/
def DclkClient.Reads (c : DclkClient) (valueHandle length i : ℕ) : Prop :=
  Depends (fun mem => onReceived c valueHandle (some mem) length) i

/-- on_received stays within the payload, with `beyond` in the memory behind it, and takes
a value only from a payload that is the encoding of that value. -/
structure WithinPayload (c : DclkClient) (valueHandle : ℕ) (payload : List UInt8)
    (beyond : ℕ → UInt8) : Prop where
  reads : ∀ i, c.Reads valueHandle payload.length i → i < payload.length
  clock : ∀ v, (onReceived c valueHandle (some (place payload beyond)) payload.length).1 =
    some (.clock v) → payload = bytes 4 v.toNat
  state : ∀ s, (onReceived c valueHandle (some (place payload beyond)) payload.length).1 =
    some (.state s) → payload = [s]

/-- What on_received calls with the number it has taken. -/
def Chrc.delivery : Chrc → ℕ → Delivery
  | .clock, n => .clock (UInt32.ofNat n)
  | .state, n => .state (UInt8.ofNat n)

theorem Chrc.delivery_inj {chrc : Chrc} {m n : ℕ} (hm : m < 256 ^ chrc.size)
    (hn : n < 256 ^ chrc.size) (h : chrc.delivery m = chrc.delivery n) : m = n := by
  cases chrc with
  | clock =>
      have hnum := congrArg UInt32.toNat (Delivery.clock.inj h)
      rwa [UInt32.toNat_ofNat_of_lt' hm, UInt32.toNat_ofNat_of_lt' hn] at hnum
  | state =>
      have hnum := congrArg UInt8.toNat (Delivery.state.inj h)
      rwa [UInt8.toNat_ofNat_of_lt' hm, UInt8.toNat_ofNat_of_lt' hn] at hnum

section Received
variable {c : DclkClient} {valueHandle n : ℕ}

theorem onReceived_of_none (h : c.decodes valueHandle = none) (mem : ℕ → UInt8) :
    onReceived c valueHandle (some mem) n = (none, .iterContinue) := by
  unfold DclkClient.decodes at h
  unfold onReceived
  split_ifs at h ⊢ with hclock hstate
  · rw [Option.map_eq_none_iff.mp h]
  · rw [Option.map_eq_none_iff.mp h]
  · rfl

theorem onReceived_of_decodes {chrc : Chrc} (h : c.decodes valueHandle = some chrc) :
    ∃ iter, ∀ mem, onReceived c valueHandle (some mem) n =
      (some (chrc.delivery (load chrc.size mem)), iter) := by
  unfold DclkClient.decodes at h
  split_ifs at h with hclock hstate
  · obtain ⟨iter, hiter, rfl⟩ := Option.map_eq_some_iff.mp h
    refine ⟨iter, fun mem => ?_⟩
    rw [onReceived, if_pos hclock, hiter]
    rfl
  · obtain ⟨iter, hiter, rfl⟩ := Option.map_eq_some_iff.mp h
    refine ⟨iter, fun mem => ?_⟩
    rw [onReceived, if_neg hclock, if_pos hstate, hiter]
    rfl

/-- It takes as many bytes as the value has, whatever the length. -/
theorem reads_iff {chrc : Chrc} (h : c.decodes valueHandle = some chrc) (i : ℕ) :
    c.Reads valueHandle n i ↔ i < chrc.size := by
  obtain ⟨iter, heq⟩ := @onReceived_of_decodes c valueHandle n chrc h
  unfold DclkClient.Reads
  simp only [heq]
  refine depends_load (f := fun n => (some (chrc.delivery n), iter)) ?_
  intro m n hm hn hsame
  exact Chrc.delivery_inj hm hn (Option.some.inj (Prod.mk.inj hsame).1)

theorem not_reads (h : c.decodes valueHandle = none) (i : ℕ) : ¬ c.Reads valueHandle n i := by
  unfold DclkClient.Reads
  simp only [onReceived_of_none h]
  exact not_depends_const _ i

end Received

section Payload
variable {c : DclkClient} {valueHandle : ℕ} {payload : List UInt8} {beyond : ℕ → UInt8}

theorem withinPayload_of_none (h : c.decodes valueHandle = none) :
    WithinPayload c valueHandle payload beyond where
  reads i hi := absurd hi (not_reads h i)
  clock v hv := by simp [onReceived_of_none h] at hv
  state s hs := by simp [onReceived_of_none h] at hs

theorem withinPayload_of_decodes {chrc : Chrc} (h : c.decodes valueHandle = some chrc) :
    WithinPayload c valueHandle payload beyond ↔ payload.length = chrc.size := by
  obtain ⟨iter, heq⟩ := @onReceived_of_decodes c valueHandle payload.length chrc h
  constructor
  · intro hw
    cases chrc with
    | clock => rw [hw.clock _ (by rw [heq]; rfl), length_bytes, Chrc.size]
    | state => rw [hw.state _ (by rw [heq]; rfl), List.length_singleton, Chrc.size]
  · intro hlen
    refine ⟨fun i hi => ?_, fun v hv => ?_, fun s hs => ?_⟩
    · rw [hlen]
      exact (reads_iff h i).mp hi
    · cases chrc with
      | clock =>
          rw [heq] at hv
          obtain rfl := Delivery.clock.inj (Option.some.inj hv)
          rw [Chrc.size] at hlen ⊢
          rw [UInt32.toNat_ofNat_of_lt' (load_lt 4 _), ← hlen, bytes_load_place]
      | state => simp [heq, Chrc.delivery] at hv
    · cases chrc with
      | clock => simp [heq, Chrc.delivery] at hs
      | state =>
          rw [heq] at hs
          obtain rfl := Delivery.state.inj (Option.some.inj hs)
          obtain ⟨b, rfl⟩ := List.length_eq_one_iff.mp hlen
          simp [load, Chrc.size]

/-- For every handle, client and payload, on_received stays within the payload and decodes
it right exactly if the payload is as long as the value it takes for that handle, if it
takes one. -/
theorem withinPayload_iff (c : DclkClient) (valueHandle : ℕ) (payload : List UInt8)
    (beyond : ℕ → UInt8) : WithinPayload c valueHandle payload beyond ↔
      ∀ chrc, c.decodes valueHandle = some chrc → payload.length = chrc.size := by
  cases h : c.decodes valueHandle with
  | none => simp [withinPayload_of_none h]
  | some chrc => simp [withinPayload_of_decodes h]

/-- From a clock notification of one byte four are taken. -/
theorem not_withinPayload : ¬ ∀ (c : DclkClient) (valueHandle : ℕ) (payload : List UInt8)
    (beyond : ℕ → UInt8), WithinPayload c valueHandle payload beyond := by
  intro h
  let c := (discoveryComplete (.ofService 0 10) .success (.boot appCallbacks)).client
  have hdecodes : c.decodes 15 = some .clock := by decide
  have hreads : c.Reads 15 1 3 := (reads_iff hdecodes 3).mpr (by decide)
  exact absurd ((h c 15 [9] fun _ => 0).reads 3 hreads) (by decide)

end Payload
end DodgeClock
