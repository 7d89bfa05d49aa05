import DodgeClock.Crc
import DodgeClock.RamRetention

/-!
# Data kept over System OFF

retained.c keeps a record in RAM that start-up does not clear, with a CRC that tells it
from what else the RAM may hold. retained_validate sets uptime_latest to zero and leaves the
CRC as it is, so the record is not valid again until retained_update is called; from then
on the RAM holds what a store that never loses anything would.
-/
namespace DodgeClock
open Crc LittleEndian

/-- CRC-32/ISO-HDLC. -/
def crc32IsoHdlc : Params 32 := ⟨0xEDB88320#32, 0xFFFFFFFF#32, 0xFFFFFFFF#32, by decide⟩

example : crc32IsoHdlc.crc ("123456789".toList.map fun c => UInt8.ofNat c.toNat) =
    0xCBF43926#32 := by decide +kernel

/-- What is known of crc32_ieee. -/
def IsCrc32 (crc32Ieee : List UInt8 → UInt32) : Prop :=
  ∀ data, (crc32Ieee data).toBitVec = crc32IsoHdlc.crc data

/-- crc32_ieee as the standard has it. -/
def isoCrc32 (data : List UInt8) : UInt32 := ⟨crc32IsoHdlc.crc data⟩

/-- `struct retained_data`. -/
structure RetainedData where
  uptimeLatest : UInt64
  uptimeSum : UInt64
  boots : UInt32
  offCount : UInt32
  crc : UInt32
  deriving DecidableEq, Repr

namespace RetainedData

def zero : RetainedData := ⟨0, 0, 0, 0, 0⟩

/-- Everything behind uptime_latest up to the CRC. -/
def tail (d : RetainedData) : List UInt8 :=
  bytes 8 d.uptimeSum.toNat ++ bytes 4 d.boots.toNat ++ bytes 4 d.offCount.toNat

/-- The first RETAINED_CRC_OFFSET bytes of the record. -/
def covered (d : RetainedData) : List UInt8 := bytes 8 d.uptimeLatest.toNat ++ d.tail

/-- The first RETAINED_CHECKED_SIZE bytes; sys_cpu_to_le32 changes nothing here. -/
def image (d : RetainedData) : List UInt8 := d.covered ++ bytes 4 d.crc.toNat

def checkedSize : ℕ := 28

/-- The CRC of the record and its own CRC is `residue`. -/
def Valid (crc32Ieee : List UInt8 → UInt32) (d : RetainedData) : Prop :=
  crc32Ieee d.image = 0x2144df1c

instance (crc32Ieee : List UInt8 → UInt32) (d : RetainedData) : Decidable (d.Valid crc32Ieee) :=
  inferInstanceAs (Decidable (_ = _))

end RetainedData

/-- The record as retained_validate leaves it, and what it returns. -/
def validated (crc32Ieee : List UInt8 → UInt32) (d : RetainedData) : RetainedData × Bool :=
  let valid := decide (d.Valid crc32Ieee)
  let d := if valid then d else .zero
  ({ d with uptimeLatest := 0 }, valid)

/-- retained_validate, with the record at `ptr`. -/
def retainedValidate (crc32Ieee : List UInt8 → UInt32) (m : Sram) (ptr : ℕ) (d : RetainedData)
    (p : Power) : Option (RetainedData × Power × Bool) :=
  let (d, valid) := validated crc32Ieee d
  (ramRangeRetain m ptr RetainedData.checkedSize true p).map fun r => (d, r.1, valid)

/-- retained_update; `now` is k_uptime_ticks(). -/
def retainedUpdate (crc32Ieee : List UInt8 → UInt32) (now : UInt64) (d : RetainedData) :
    RetainedData :=
  let d := { d with uptimeSum := d.uptimeSum + (now - d.uptimeLatest), uptimeLatest := now }
  { d with crc := crc32Ieee d.covered }

section Format
variable {crc32Ieee : List UInt8 → UInt32} {d d' : RetainedData}

@[simp] theorem length_image (d : RetainedData) : d.image.length = RetainedData.checkedSize := by
  simp [RetainedData.image, RetainedData.covered, RetainedData.tail, RetainedData.checkedSize]

/-- The bytes tell the record. -/
theorem image_injective : Function.Injective RetainedData.image := by
  intro d d' h
  obtain ⟨hcovered, hcrc⟩ := List.append_inj' h (by simp)
  obtain ⟨hlatest, htail⟩ := List.append_inj hcovered (by simp)
  obtain ⟨hfront, hoff⟩ := List.append_inj' htail (by simp)
  obtain ⟨hsum, hboots⟩ := List.append_inj' hfront (by simp)
  have hlong : ∀ {m n : UInt64}, bytes 8 m.toNat = bytes 8 n.toNat → m = n := fun {m n} heq =>
    UInt64.toNat_inj.mp (bytes_inj m.toNat_lt n.toNat_lt heq)
  have hword : ∀ {m n : UInt32}, bytes 4 m.toNat = bytes 4 n.toNat → m = n := fun {m n} heq =>
    UInt32.toNat_inj.mp (bytes_inj m.toNat_lt n.toNat_lt heq)
  obtain ⟨latest, sum, boots, off, crc⟩ := d
  obtain ⟨latest', sum', boots', off', crc'⟩ := d'
  obtain rfl : latest = latest' := hlong hlatest
  obtain rfl : sum = sum' := hlong hsum
  obtain rfl : boots = boots' := hword hboots
  obtain rfl : off = off' := hword hoff
  obtain rfl : crc = crc' := hword hcrc
  rfl

/-- The constant of the source is the residue of the CRC. -/
theorem residue_eq : crc32IsoHdlc.residue = 0x2144df1c#32 := by decide +kernel

theorem valid_iff_residue (hcrc : IsCrc32 crc32Ieee) :
    d.Valid crc32Ieee ↔ crc32IsoHdlc.crc d.image = crc32IsoHdlc.residue := by
  rw [RetainedData.Valid, ← UInt32.toBitVec_inj, hcrc, residue_eq]
  rfl

/-- A record is valid exactly if it holds the CRC of what is before it. -/
theorem valid_iff (hcrc : IsCrc32 crc32Ieee) :
    d.Valid crc32Ieee ↔ d.crc = crc32Ieee d.covered := by
  have hlt : d.crc.toNat < 256 ^ 4 := d.crc.toNat_lt
  rw [valid_iff_residue hcrc, RetainedData.image,
    crc32IsoHdlc.crc_append_eq_residue (by decide) hlt, ← hcrc, ← UInt32.toBitVec_inj]
  simp

theorem valid_retainedUpdate (hcrc : IsCrc32 crc32Ieee) (now : UInt64) (d : RetainedData) :
    (retainedUpdate crc32Ieee now d).Valid crc32Ieee := (valid_iff hcrc).mpr rfl

theorem validated_of_valid (h : d.Valid crc32Ieee) :
    validated crc32Ieee d = ({ d with uptimeLatest := 0 }, true) := by
  simp [validated, h]

theorem validated_of_not_valid (h : ¬ d.Valid crc32Ieee) :
    validated crc32Ieee d = (.zero, false) := by
  simp [validated, h, RetainedData.zero]

/-- A valid record of which up to four consecutive bytes are changed is not valid. -/
theorem not_valid_of_burst (hcrc : IsCrc32 crc32Ieee) {before b b' after : List UInt8}
    (h : d.Valid crc32Ieee) (himage : d.image = before ++ b ++ after)
    (himage' : d'.image = before ++ b' ++ after) (hlen : b.length = b'.length)
    (hfour : b.length ≤ 4) (hne : b ≠ b') : ¬ d'.Valid crc32Ieee := by
  intro h'
  rw [valid_iff_residue hcrc, himage] at h
  rw [valid_iff_residue hcrc, himage'] at h'
  exact crc32IsoHdlc.crc_ne_of_burst hlen (by omega) hne (h.trans h'.symm)

/-- Once retained_update has been called, a record of which some four consecutive bytes may
have changed is kept if none of them has, and reset otherwise. -/
theorem validated_of_burst (crc32Ieee : List UInt8 → UInt32) (hcrc : IsCrc32 crc32Ieee)
    (now : UInt64) (d d' : RetainedData) (before b b' after : List UInt8)
    (himage : (retainedUpdate crc32Ieee now d).image = before ++ b ++ after)
    (himage' : d'.image = before ++ b' ++ after) (hlen : b.length = b'.length)
    (hfour : b.length ≤ 4) : validated crc32Ieee d' =
      if b = b' then ({ retainedUpdate crc32Ieee now d with uptimeLatest := 0 }, true)
      else (.zero, false) := by
  have hvalid := valid_retainedUpdate hcrc now d
  split_ifs with hb
  · obtain rfl : d' = retainedUpdate crc32Ieee now d :=
      image_injective (by rw [himage, himage', hb])
    exact validated_of_valid hvalid
  · exact validated_of_not_valid (not_valid_of_burst hcrc hvalid himage himage' hlen hfour hb)

/-- A record updated at five ticks, with another number of boots. -/
theorem validated_of_burst_boots :
    validated isoCrc32 { retainedUpdate isoCrc32 5 .zero with boots := 1 } = (.zero, false) :=
  (validated_of_burst isoCrc32 (fun _ => rfl) 5 .zero
    { retainedUpdate isoCrc32 5 .zero with boots := 1 }
    ((retainedUpdate isoCrc32 5 .zero).image.take 16) [0] [1]
    ((retainedUpdate isoCrc32 5 .zero).image.drop 17) (by decide +kernel) (by decide +kernel) rfl
    (by decide)).trans (if_neg (by decide))

/-- The record after a validation, if it has been valid, is valid once more exactly if the
upper half of uptime_latest is what the CRC makes of the lower half. -/
theorem valid_again_iff (hcrc : IsCrc32 crc32Ieee) (h : d.Valid crc32Ieee) :
    { d with uptimeLatest := 0 }.Valid crc32Ieee ↔
      crc32IsoHdlc.shifts 32 (BitVec.ofNat 32 (d.uptimeLatest.toNat % 256 ^ 4)) =
        BitVec.ofNat 32 (d.uptimeLatest.toNat / 256 ^ 4) := by
  have hlt : d.uptimeLatest.toNat < 256 ^ 8 := d.uptimeLatest.toNat_lt
  have hfeed : ∀ n < 256 ^ 8, crc32IsoHdlc.feed crc32IsoHdlc.init (bytes 8 n) =
      crc32IsoHdlc.shifts 32 (crc32IsoHdlc.shifts 32 crc32IsoHdlc.init ^^^
        (crc32IsoHdlc.shifts 32 (BitVec.ofNat 32 (n % 256 ^ 4)) ^^^
          BitVec.ofNat 32 (n / 256 ^ 4))) := by
    intro n hn
    have hsplit : bytes 8 n = bytes 4 (n % 256 ^ 4) ++ bytes 4 (n / 256 ^ 4) := by
      rw [bytes_mod]
      exact bytes_add 4 4 n
    have hlow := crc32IsoHdlc.shifts_xor 32 crc32IsoHdlc.init (BitVec.ofNat 32 (n % 256 ^ 4))
    rw [hsplit, Params.feed_append, crc32IsoHdlc.feed_bytes (by decide) (by omega),
      crc32IsoHdlc.feed_bytes (by decide) (by omega), hlow, BitVec.xor_assoc]
  have hzero : crc32IsoHdlc.feed crc32IsoHdlc.init (bytes 8 0) =
      crc32IsoHdlc.shifts 32 (crc32IsoHdlc.shifts 32 crc32IsoHdlc.init ^^^ 0#32) := by
    rw [hfeed 0 (by decide)]
    have hnone : crc32IsoHdlc.shifts 32 (BitVec.ofNat 32 (0 % 256 ^ 4)) ^^^
        BitVec.ofNat 32 (0 / 256 ^ 4) = 0#32 := by decide +kernel
    rw [hnone]
  rw [valid_iff hcrc] at h ⊢
  show d.crc = _ ↔ _
  rw [h, ← UInt32.toBitVec_inj, hcrc, hcrc, Params.crc, Params.crc, BitVec.xor_left_inj,
    RetainedData.covered, RetainedData.covered, Params.feed_append, Params.feed_append]
  refine (crc32IsoHdlc.feed_injective d.tail).eq_iff.trans ?_
  show crc32IsoHdlc.feed _ _ = crc32IsoHdlc.feed _ (bytes 8 0) ↔ _
  rw [hfeed _ hlt, hzero, (crc32IsoHdlc.shifts_injective 32).eq_iff, BitVec.xor_right_inj]
  exact BitVec.xor_eq_zero_iff

/-- retained_validate, called once more without retained_update, keeps the record exactly if
the two halves of uptime_latest fit together: never for an uptime of less than 2^32 ticks,
unless that is zero. -/
theorem validated_twice_iff (crc32Ieee : List UInt8 → UInt32) (hcrc : IsCrc32 crc32Ieee)
    (d : RetainedData) (h : d.Valid crc32Ieee) :
    ((validated crc32Ieee (validated crc32Ieee d).1).2 = true ↔
        crc32IsoHdlc.shifts 32 (BitVec.ofNat 32 (d.uptimeLatest.toNat % 256 ^ 4)) =
          BitVec.ofNat 32 (d.uptimeLatest.toNat / 256 ^ 4)) ∧
      (d.uptimeLatest.toNat < 256 ^ 4 →
        ((validated crc32Ieee (validated crc32Ieee d).1).2 = true ↔ d.uptimeLatest = 0)) := by
  have hiff : (validated crc32Ieee (validated crc32Ieee d).1).2 = true ↔
      crc32IsoHdlc.shifts 32 (BitVec.ofNat 32 (d.uptimeLatest.toNat % 256 ^ 4)) =
        BitVec.ofNat 32 (d.uptimeLatest.toNat / 256 ^ 4) := by
    rw [validated_of_valid h, ← valid_again_iff hcrc h]
    exact decide_eq_true_iff
  refine ⟨hiff, fun hlt => hiff.trans ?_⟩
  have hnone : crc32IsoHdlc.shifts 32 (BitVec.ofNat 32 0) = BitVec.ofNat 32 0 := by decide +kernel
  rw [Nat.mod_eq_of_lt hlt, Nat.div_eq_of_lt hlt, ← hnone,
    (crc32IsoHdlc.shifts_injective 32).eq_iff, ← UInt64.toNat_inj]
  constructor
  · intro heq
    have hnum := congrArg BitVec.toNat heq
    have hsmall : d.uptimeLatest.toNat % 2 ^ 32 = d.uptimeLatest.toNat := Nat.mod_eq_of_lt hlt
    rwa [BitVec.toNat_ofNat, hsmall] at hnum
  · intro heq
    rw [heq]
    rfl

/-- A record updated at five ticks does not survive two validations. -/
theorem validated_twice_iff_short :
    ((validated isoCrc32 (validated isoCrc32 (retainedUpdate isoCrc32 5 .zero)).1).2 = true ↔
        crc32IsoHdlc.shifts 32 (BitVec.ofNat 32 (5 % 256 ^ 4)) = BitVec.ofNat 32 (5 / 256 ^ 4)) ∧
      (5 < 256 ^ 4 →
        ((validated isoCrc32 (validated isoCrc32 (retainedUpdate isoCrc32 5 .zero)).1).2 = true ↔
          (5 : UInt64) = 0)) :=
  validated_twice_iff isoCrc32 (fun _ => rfl) (retainedUpdate isoCrc32 5 .zero) (by decide +kernel)

/-- The RAM of a record that is validated stays powered. -/
theorem retainedValidate_spec (crc32Ieee : List UInt8 → UInt32) (m : Sram) (ptr : ℕ)
    (d : RetainedData) (p : Power) (hbegin : m.sramBegin ≤ ptr)
    (hend : ptr + RetainedData.checkedSize ≤ m.sramEnd) :
    ∃ p', retainedValidate crc32Ieee m ptr d p =
        some ((validated crc32Ieee d).1, p', (validated crc32Ieee d).2) ∧
      ∀ sec a, ptr ≤ a → a < ptr + RetainedData.checkedSize → m.Holds sec a →
        (p' sec.block).getLsbD (sec.index + retentionPos) = true := by
  obtain ⟨p', heq, hbits⟩ := @ramRangeRetain_inside m ptr RetainedData.checkedSize true p
    (by decide) hbegin hend
  refine ⟨p', ?_, fun sec a hle hlt hholds => (hbits _ _).1 ⟨sec, a, hle, hlt, hholds, rfl, rfl⟩⟩
  simp only [retainedValidate, heq, Option.map_some]

end Format

section Sessions

/-- What happens to the record after its validation, up to the next reset. -/
inductive RetainOp where
  | elapse (n : ℕ)
  | setBoots (v : UInt32)
  | setOffCount (v : UInt32)
  | update
  deriving DecidableEq, Repr

/-- The ticks before retained_validate is called, and what happens then. -/
structure Session where
  early : ℕ
  ops : List RetainOp
  deriving DecidableEq, Repr

/-- The uptime and the record. -/
structure Awake where
  now : ℕ
  data : RetainedData
  deriving DecidableEq, Repr

def Awake.exec (crc32Ieee : List UInt8 → UInt32) (a : Awake) : RetainOp → Awake
  | .elapse n => { a with now := a.now + n }
  | .setBoots v => { a with data := { a.data with boots := v } }
  | .setOffCount v => { a with data := { a.data with offCount := v } }
  | .update => { a with data := retainedUpdate crc32Ieee (UInt64.ofNat a.now) a.data }

/-- The record a session leaves behind, and what retained_validate has returned in it. -/
def Session.run (crc32Ieee : List UInt8 → UInt32) (s : Session) (d : RetainedData) :
    RetainedData × Bool :=
  let v := validated crc32Ieee d
  ((s.ops.foldl (Awake.exec crc32Ieee) ⟨s.early, v.1⟩).data, v.2)

def runSessions (crc32Ieee : List UInt8 → UInt32) :
    List Session → RetainedData → RetainedData × List Bool
  | [], d => (d, [])
  | s :: ss, d =>
      let r := s.run crc32Ieee d
      let rest := runSessions crc32Ieee ss r.1
      (rest.1, r.2 :: rest.2)

/-- What the record is for: the ticks of all sessions, each up to its last update, and the
two counters, in a store that loses nothing. `last` is that part of this session, and
`closed` says that nothing has been written since the last update. -/
structure Ledger where
  total : ℕ
  now : ℕ
  last : ℕ
  boots : UInt32
  offCount : UInt32
  closed : Bool
  deriving DecidableEq, Repr

namespace Ledger

def empty : Ledger := ⟨0, 0, 0, 0, 0, true⟩

def exec (l : Ledger) : RetainOp → Ledger
  | .elapse n => { l with now := l.now + n }
  | .setBoots v => { l with boots := v, closed := false }
  | .setOffCount v => { l with offCount := v, closed := false }
  | .update => { l with last := l.now, closed := true }

/-- A session begins. -/
def start (early : ℕ) (l : Ledger) : Ledger :=
  { l with total := l.total + l.last, now := early, last := 0, closed := false }

def session (l : Ledger) (s : Session) : Ledger := s.ops.foldl exec (l.start s.early)

/-- What a record found in the RAM stands for. -/
def found (crc32Ieee : List UInt8 → UInt32) (d : RetainedData) : Ledger :=
  if d.Valid crc32Ieee then { empty with total := d.uptimeSum.toNat, boots := d.boots,
                                         offCount := d.offCount }
  else empty

end Ledger

/-- The session ends with an update behind everything that is written. -/
def Session.Closed (s : Session) : Prop := (Ledger.empty.session s).closed = true

instance (s : Session) : Decidable s.Closed := inferInstanceAs (Decidable (_ = _))

/-- The record holds what the ledger does, modulo 2^64, and is valid once closed. -/
structure Holds (crc32Ieee : List UInt8 → UInt32) (l : Ledger) (d : RetainedData) : Prop where
  uptimeSum : d.uptimeSum = UInt64.ofNat (l.total + l.last)
  uptimeLatest : d.uptimeLatest = UInt64.ofNat l.last
  boots : d.boots = l.boots
  offCount : d.offCount = l.offCount
  valid : l.closed = true → d.Valid crc32Ieee

variable {crc32Ieee : List UInt8 → UInt32} {l l' : Ledger} {a : Awake} {d : RetainedData}

theorem holds_exec (hcrc : IsCrc32 crc32Ieee) (h : Holds crc32Ieee l a.data) (hnow : a.now = l.now)
    (op : RetainOp) : Holds crc32Ieee (l.exec op) (a.exec crc32Ieee op).data ∧
      (a.exec crc32Ieee op).now = (l.exec op).now := by
  obtain ⟨hsum, hlatest, hboots, hoff, hvalid⟩ := h
  cases op with
  | elapse n => exact ⟨⟨hsum, hlatest, hboots, hoff, hvalid⟩, congrArg (· + n) hnow⟩
  | setBoots v => exact ⟨⟨hsum, hlatest, rfl, hoff, fun h => by cases h⟩, hnow⟩
  | setOffCount v => exact ⟨⟨hsum, hlatest, hboots, rfl, fun h => by cases h⟩, hnow⟩
  | update =>
      refine ⟨⟨?_, congrArg UInt64.ofNat hnow, hboots, hoff,
        fun _ => valid_retainedUpdate hcrc _ a.data⟩, hnow⟩
      -- what is added is the time since the last update
      show a.data.uptimeSum + (UInt64.ofNat a.now - a.data.uptimeLatest) =
        UInt64.ofNat (l.total + l.now)
      rw [hsum, hlatest, hnow, UInt64.ofNat_add, UInt64.ofNat_add]
      grind

theorem holds_ops (hcrc : IsCrc32 crc32Ieee) (h : Holds crc32Ieee l a.data) (hnow : a.now = l.now)
    (ops : List RetainOp) :
    Holds crc32Ieee (ops.foldl Ledger.exec l) (ops.foldl (Awake.exec crc32Ieee) a).data := by
  induction ops generalizing l a with
  | nil => exact h
  | cons op ops ih =>
      obtain ⟨hnext, hnow'⟩ := holds_exec hcrc h hnow op
      exact ih hnext hnow'

/-- Whatever is in the RAM, after its validation the record stands for it. -/
theorem holds_validated (early : ℕ) (d : RetainedData) :
    Holds crc32Ieee ((Ledger.found crc32Ieee d).start early) (validated crc32Ieee d).1 := by
  by_cases h : d.Valid crc32Ieee
  · rw [validated_of_valid h, Ledger.found, if_pos h]
    exact ⟨by simp [Ledger.start, Ledger.empty], rfl, rfl, rfl, fun hc => by cases hc⟩
  · rw [validated_of_not_valid h, Ledger.found, if_neg h]
    exact ⟨rfl, rfl, rfl, rfl, fun hc => by cases hc⟩

/-- The next session takes over what the last one has left closed. -/
theorem holds_next (h : Holds crc32Ieee l d) (hclosed : l.closed = true) (early : ℕ) :
    (validated crc32Ieee d).2 = true ∧
      Holds crc32Ieee (l.start early) (validated crc32Ieee d).1 := by
  rw [validated_of_valid (h.valid hclosed)]
  exact ⟨rfl, h.uptimeSum, rfl, h.boots, h.offCount, fun hc => by cases hc⟩

theorem closed_foldl (h : l.closed = l'.closed) (ops : List RetainOp) :
    (ops.foldl Ledger.exec l).closed = (ops.foldl Ledger.exec l').closed := by
  induction ops generalizing l l' with
  | nil => exact h
  | cons op ops ih =>
      apply ih
      cases op with
      | elapse n => exact h
      | setBoots v | setOffCount v | update => rfl

theorem Session.Closed.session {s : Session} (h : s.Closed) (l : Ledger) :
    (l.session s).closed = true :=
  (@closed_foldl (l.start s.early) (Ledger.empty.start s.early) rfl s.ops).trans h

theorem holds_runSessions (hcrc : IsCrc32 crc32Ieee) {ss : List Session}
    (hss : ∀ s ∈ ss, s.Closed) (h : Holds crc32Ieee l d) (hclosed : l.closed = true) :
    (runSessions crc32Ieee ss d).2 = List.replicate ss.length true ∧
      Holds crc32Ieee (ss.foldl Ledger.session l) (runSessions crc32Ieee ss d).1 := by
  induction ss generalizing l d with
  | nil => exact ⟨rfl, h⟩
  | cons s ss ih =>
      obtain ⟨hs, hrest⟩ := List.forall_mem_cons.mp hss
      obtain ⟨hvalid, hstart⟩ := holds_next h hclosed s.early
      have hops := holds_ops (a := ⟨s.early, (validated crc32Ieee d).1⟩) hcrc hstart rfl s.ops
      obtain ⟨hresults, hend⟩ := ih hrest hops (hs.session l)
      exact ⟨congrArg₂ List.cons hvalid hresults, hend⟩

/-- From whatever the RAM holds at first, and over any number of sessions that each end with
an update, retained_validate resets the record at most in the first session, and the record
is that of a store that loses nothing. -/
theorem holds_of_sessions (crc32Ieee : List UInt8 → UInt32) (hcrc : IsCrc32 crc32Ieee)
    (s : Session) (ss : List Session) (d : RetainedData) (hclosed : ∀ t ∈ s :: ss, t.Closed) :
    (runSessions crc32Ieee (s :: ss) d).2 =
        decide (d.Valid crc32Ieee) :: List.replicate ss.length true ∧
      Holds crc32Ieee ((s :: ss).foldl Ledger.session (.found crc32Ieee d))
        (runSessions crc32Ieee (s :: ss) d).1 := by
  obtain ⟨hs, hss⟩ := List.forall_mem_cons.mp hclosed
  have hfirst := holds_ops (a := ⟨s.early, (validated crc32Ieee d).1⟩) hcrc
    (holds_validated s.early d) rfl s.ops
  obtain ⟨hresults, hend⟩ := holds_runSessions hcrc hss hfirst (hs.session _)
  exact ⟨congrArg₂ List.cons rfl hresults, hend⟩

end Sessions

/-- Two boots, the second one with an update on the way. -/
def bootSessions : List Session :=
  [⟨3, [.setBoots 1, .update, .elapse 500, .setOffCount 1, .update, .elapse 20]⟩,
    ⟨0, [.elapse 10, .setBoots 2, .update]⟩]

theorem holds_of_sessions_boot :
    (runSessions isoCrc32 bootSessions ⟨7, 7, 7, 7, 7⟩).2 = [false, true] ∧
      Holds isoCrc32 (bootSessions.foldl Ledger.session .empty)
        (runSessions isoCrc32 bootSessions ⟨7, 7, 7, 7, 7⟩).1 := by
  have hgarbage : ¬ RetainedData.Valid isoCrc32 ⟨7, 7, 7, 7, 7⟩ := by decide +kernel
  have h := holds_of_sessions isoCrc32 (fun _ => rfl) _ [_] ⟨7, 7, 7, 7, 7⟩
    (show ∀ t ∈ bootSessions, t.Closed by decide)
  rw [Ledger.found, if_neg hgarbage, decide_eq_false hgarbage] at h
  exact h

end DodgeClock
