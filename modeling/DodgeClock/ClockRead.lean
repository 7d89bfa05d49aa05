import DodgeClock.DclkService
import DodgeClock.BlobRead

/-!
# Reading the clock characteristic

read_clock of DCLK.c, served in as many requests as the client likes. The length it
gives to bt_gatt_attr_read is that of what `value` points to by its type, a `char`, so a
client gets the first of the four bytes of the clock and no more.
-/
namespace DodgeClock
open EventSystem LittleEndian BlobRead

/-- A function in the place of bt_gatt_attr_read: of the memory at `value`, its length and
the length and offset of the request. -/
abbrev AttrRead := (value : ℕ → UInt8) → (valueLen len offset : ℕ) → Except ℤ (List UInt8)

/-- min(len, value_len - offset) bytes are copied from value + offset. -/
def AttrRead.Copies (attrRead : AttrRead) : Prop :=
  ∀ value valueLen len offset, offset ≤ valueLen → attrRead value valueLen len offset =
    .ok ((List.range (min len (valueLen - offset))).map fun i => value (offset + i))

/-- sizeof(*value), where `value` is a `const char *`. -/
def sizeofValue : ℕ := 1

/-- read_clock: `clockCb` is what the callback returns, if it is set, and `beyond` the
memory behind the variable `clock`. The answer comes with the variable. -/
def DclkService.readClock (attrRead : AttrRead) (clockCb : Option UInt32) (beyond : ℕ → UInt8)
    (len offset : ℕ) (clock : UInt32) : Except ℤ (List UInt8) × UInt32 :=
  match clockCb with
  | some v => (attrRead (place (bytes 4 v.toNat) beyond) sizeofValue len offset, v)
  | none => (.ok [], clock)

/-- The bytes as a little-endian `uint32_t`; bytes that are not there count as zero. -/
def decodeClock (data : List UInt8) : UInt32 := UInt32.ofNat (load 4 (place data fun _ => 0))

section Read
variable {attrRead : AttrRead}

theorem AttrRead.Copies.eq_serve (hcopies : attrRead.Copies) {value : ℕ → UInt8}
    {valueLen offset : ℕ} (h : offset ≤ valueLen) (len : ℕ) :
    attrRead value valueLen len offset =
      .ok (serve ((List.range valueLen).map value) len offset) := by
  rw [hcopies value valueLen len offset h]
  congr 1
  apply List.ext_getElem
  · simp [serve]
  · intro i h₁ h₂
    simp [serve]

/-- A client is served the low byte of the clock. -/
theorem serves_readClock (hcopies : attrRead.Copies) (v : UInt32) (beyond : ℕ → UInt8) :
    Serves (DclkService.readClock attrRead (some v) beyond) [UInt8.ofNat v.toNat] := by
  intro len offset clock hoffset
  exact hcopies.eq_serve hoffset len

theorem load_low_byte (v : UInt32) :
    load 4 (place [UInt8.ofNat v.toNat] fun _ => 0) = v.toNat % 256 := by
  simp [load, place]

theorem decodeClock_low_byte (v : UInt32) :
    decodeClock [UInt8.ofNat v.toNat] = v ↔ v.toNat < 256 := by
  rw [decodeClock, load_low_byte, ← UInt32.toNat_inj, UInt32.toNat_ofNat']
  have hlt : v.toNat < 2 ^ 32 := v.toNat_lt
  omega

/-- However a client splits its read, one that has come to its end has read one byte, the
low one. -/
theorem got_of_exhausted (hcopies : attrRead.Copies) {v clock : UInt32} {beyond : ℕ → UInt8}
    {lens : List ℕ} {t : Reading UInt32 UInt8}
    (hrun : (reading (DclkService.readClock attrRead (some v) beyond)).run ⟨clock, []⟩ lens =
      some t)
    (hend : Exhausted (DclkService.readClock attrRead (some v) beyond) t) :
    t.got = [UInt8.ofNat v.toNat] := by
  have hserves := serves_readClock hcopies v beyond
  have hprefix := prefix_of_run hserves hrun (List.nil_prefix)
  exact got_eq_of_exhausted hserves hprefix hend

/-- Every read with at least one request comes to its end without an error. -/
theorem exhausted_readClock (hcopies : attrRead.Copies) (v clock : UInt32)
    (beyond : ℕ → UInt8) {lens : List ℕ} (hlens : ∀ len ∈ lens, 1 ≤ len) (hne : lens ≠ []) : ∃ t,
    (reading (DclkService.readClock attrRead (some v) beyond)).run ⟨clock, []⟩ lens = some t ∧
      Exhausted (DclkService.readClock attrRead (some v) beyond) t := by
  have hserves := serves_readClock hcopies v beyond
  obtain ⟨t, hrun⟩ := exists_run hserves (s := ⟨clock, []⟩) List.nil_prefix lens
  exact ⟨t, hrun, exhausted_of_run hserves hlens (List.length_pos_iff.mpr hne) hrun
    List.nil_prefix⟩

/-- However a client splits its read of the clock, it ends up with the value of clock_cb
exactly if that value fits into a byte. -/
theorem decodeClock_eq_iff (hcopies : attrRead.Copies) (v clock : UInt32) (beyond : ℕ → UInt8)
    (lens : List ℕ) (t : Reading UInt32 UInt8)
    (hrun : (reading (DclkService.readClock attrRead (some v) beyond)).run ⟨clock, []⟩ lens =
      some t)
    (hend : Exhausted (DclkService.readClock attrRead (some v) beyond) t) :
    decodeClock t.got = v ↔ v.toNat < 256 := by
  rw [got_of_exhausted hcopies hrun hend]
  exact decodeClock_low_byte v

end Read

/-- BT_ATT_ERR_INVALID_OFFSET. -/
def btAttErrInvalidOffset : ℤ := 7

/-- bt_gatt_attr_read as documented: an offset behind the end is an error. -/
def btGattAttrRead : AttrRead := fun value valueLen len offset =>
  if valueLen < offset then .error (-btAttErrInvalidOffset)
  else .ok ((List.range (min len (valueLen - offset))).map fun i => value (offset + i))

theorem copies_btGattAttrRead : AttrRead.Copies btGattAttrRead :=
  fun _ _ _ _ h => if_neg (not_lt.mpr h)

/-- The client reads the clock, `beyond` being all zeros. -/
abbrev clockReading (v : UInt32) : Machine (Reading UInt32 UInt8) ℕ :=
  reading (DclkService.readClock btGattAttrRead (some v) fun _ => 0)

/-- 200 ms are left, and read in two requests, of one byte and of 22. -/
theorem decodeClock_eq_short : ∃ t, (clockReading 200).run ⟨0, []⟩ [1, 22] = some t ∧
    decodeClock t.got = 200 :=
  have hrun : (clockReading 200).run ⟨0, []⟩ [1, 22] = some ⟨200, [200]⟩ := rfl
  have hserves := serves_readClock copies_btGattAttrRead 200 fun _ => 0
  have hend := exhausted_of_run hserves (by decide) (by decide) hrun List.nil_prefix
  ⟨_, hrun, (decodeClock_eq_iff copies_btGattAttrRead 200 0 (fun _ => 0) [1, 22] _ hrun
    hend).mpr (by decide)⟩

/-- 9000 ms are read as 40. -/
theorem not_decodeClock_eq : ¬ ∀ (attrRead : AttrRead) (v clock : UInt32) (beyond : ℕ → UInt8)
    (lens : List ℕ) (t : Reading UInt32 UInt8), attrRead.Copies →
    (reading (DclkService.readClock attrRead (some v) beyond)).run ⟨clock, []⟩ lens = some t →
      Exhausted (DclkService.readClock attrRead (some v) beyond) t → decodeClock t.got = v := by
  intro h
  have hrun : (clockReading 9000).run ⟨0, []⟩ [22] = some ⟨9000, [40]⟩ := rfl
  have hserves := serves_readClock copies_btGattAttrRead 9000 fun _ => 0
  have hend := exhausted_of_run hserves (by decide) (by decide) hrun List.nil_prefix
  have heq := h btGattAttrRead 9000 0 (fun _ => 0) [22] _ copies_btGattAttrRead hrun hend
  exact absurd heq (by decide)

end DodgeClock
