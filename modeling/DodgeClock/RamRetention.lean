import DodgeClock.DclkService

/-!
# Which RAM stays powered

ram_range_retain of retained.c goes through the sections of the RAM that an object lies in
and sets, or clears, the bit of each that keeps it powered in System OFF. Small sections
come two to a block, and behind the first eight blocks there is one of large sections. The
addresses are 32 bits wide.
-/
namespace DodgeClock

/-- Size of a controllable RAM section in the small blocks. -/
def smallSectionSize : ℕ := 4096

def smallSectionsPerBlock : ℕ := 2

def smallBlockCount : ℕ := 8

def smallSectionSpan : ℕ := smallBlockCount * (smallSectionsPerBlock * smallSectionSize)

/-- Size of a controllable RAM section in large blocks. -/
def largeSectionSize : ℕ := 32768

/-- As many as the bits of a register allow for. -/
def largeSectionsPerBlock : ℕ := 16

/-- The node `sram0` of the devicetree. It begins at a multiple of the size of a large
section, the address space goes on for another one behind it, and the number of a block
fits into a byte. -/
structure Sram where
  sramBegin : ℕ
  size : ℕ
  aligned : largeSectionSize ∣ sramBegin
  fits : sramBegin + size + largeSectionSize ≤ 2 ^ 32
  blocks : size ≤ smallSectionSpan + (256 - smallBlockCount) *
    (largeSectionsPerBlock * largeSectionSize)

/-- The number of a block and of a section in it. -/
structure RamSection where
  block : ℕ
  index : ℕ
  deriving DecidableEq, Repr

/-- The register of each block; its upper half is one retention bit a section. -/
abbrev Power := ℕ → BitVec 32

/-- POWER_RAM_POWERSET_S0RETENTION_Pos. -/
def retentionPos : ℕ := 16

/-- POWER_RAM_POWERSET_S0RETENTION_On, moved to the bit of the section. -/
def RamSection.mask (sec : RamSection) : BitVec 32 := 1#32 <<< (sec.index + retentionPos)

/-- nrf_power_rampower_mask_on and nrf_power_rampower_mask_off. -/
def Power.rampower (enable : Bool) (sec : RamSection) (p : Power) : Power :=
  Function.update p sec.block
    (if enable then p sec.block ||| sec.mask else p sec.block &&& ~~~sec.mask)

namespace Sram

def sramEnd (m : Sram) : ℕ := m.sramBegin + m.size

def largeSectionBegin (m : Sram) : ℕ := m.sramBegin + smallSectionSpan

def sectionSize (m : Sram) (addr : ℕ) : ℕ :=
  if m.largeSectionBegin ≤ addr then largeSectionSize else smallSectionSize

/-- The section of an address, as an iteration computes it; `block` is a `uint8_t`. -/
def sectionAt (m : Sram) (addr : ℕ) : RamSection :=
  let isLarge := decide (m.largeSectionBegin ≤ addr)
  let block := if isLarge then 8 else 0
  let blockBase := if isLarge then m.largeSectionBegin else m.sramBegin
  let sectionsPerBlock := if isLarge then largeSectionsPerBlock else smallSectionsPerBlock
  let sec := (addr - blockBase) / m.sectionSize addr
  if sectionsPerBlock ≤ sec then
    ⟨(block + sec / sectionsPerBlock) % 256, sec % sectionsPerBlock⟩
  else ⟨block, sec⟩

/-- The first address in the next section. -/
def nextSection (m : Sram) (addr : ℕ) : ℕ :=
  (addr + (m.sectionSize addr - addr % m.sectionSize addr)) % 2 ^ 32

/-- The loop, if it ends within `fuel` iterations. -/
def retainLoop (m : Sram) (addrEnd : ℕ) (enable : Bool) : ℕ → ℕ → Power → Option Power
  | 0, _, _ => none
  | fuel + 1, addr, p =>
      let p := p.rampower enable (m.sectionAt addr)
      let addr := m.nextSection addr
      if addr < addrEnd then m.retainLoop addrEnd enable fuel addr p else some p

end Sram

/-- ram_range_retain; an iteration for each byte is more than enough. -/
def ramRangeRetain (m : Sram) (ptr len : ℕ) (enable : Bool) (p : Power) : Option (Power × ℤ) :=
  let addrEnd := (ptr + len) % 2 ^ 32
  if len = 0 ∨ ptr < m.sramBegin ∨ (m.sramEnd + 2 ^ 32 - len) % 2 ^ 32 < ptr then
    some (p, -einval)
  else (m.retainLoop addrEnd enable len ptr p).map fun p => (p, 0)

section Bits
variable {sec : RamSection} {p : Power}

theorem mask_getLsbD (hsec : sec.index < 16) (i : ℕ) :
    sec.mask.getLsbD i = decide (i = sec.index + retentionPos) := by
  rw [RamSection.mask, BitVec.getLsbD_shiftLeft, BitVec.getLsbD_one, retentionPos]
  by_cases heq : i = sec.index + 16
  · have hlt : sec.index + 16 < 32 := by omega
    simp [heq, hlt]
  · by_cases hlt : i < sec.index + 16
    · simp [heq, hlt]
    · have hne : ¬ i - (sec.index + 16) = 0 := by omega
      simp [heq, hne]

/-- One bit is changed. -/
theorem rampower_getLsbD (enable : Bool) (hsec : sec.index < 16) (block i : ℕ) :
    (p.rampower enable sec block).getLsbD i =
      if block = sec.block ∧ i = sec.index + retentionPos then enable
      else (p block).getLsbD i := by
  by_cases hblock : block = sec.block
  · subst hblock
    have hmask := mask_getLsbD hsec i
    cases enable with
    | true =>
        simp only [Power.rampower, Function.update_self, if_true, BitVec.getLsbD_or, hmask]
        by_cases hi : i = sec.index + retentionPos <;> simp [hi]
    | false =>
        simp only [Power.rampower, Function.update_self, Bool.false_eq_true, if_false,
          BitVec.getLsbD_and, BitVec.getLsbD_not, hmask]
        by_cases hi : i = sec.index + retentionPos
        · simp [hi]
        · by_cases hlt : i < 32
          · simp [hi, hlt]
          · simp [hi, hlt, BitVec.getLsbD_of_ge (p sec.block) i (by omega)]
  · simp [Power.rampower, hblock]

end Bits

section Sections
variable {m : Sram} {addr a : ℕ}

/-- The loop goes forward, and stays in the address space. -/
theorem nextSection_eq (h : addr < m.sramEnd) : m.nextSection addr =
    addr + (m.sectionSize addr - addr % m.sectionSize addr) := by
  have hfits := m.fits
  have hsize : m.sectionSize addr ≤ largeSectionSize := by
    unfold Sram.sectionSize
    split_ifs <;> decide
  rw [Sram.sramEnd] at h
  rw [Sram.nextSection, Nat.mod_eq_of_lt (by omega)]

theorem lt_nextSection (h : addr < m.sramEnd) : addr < m.nextSection addr := by
  have hpos : addr % m.sectionSize addr < m.sectionSize addr := by
    apply Nat.mod_lt
    unfold Sram.sectionSize
    split_ifs <;> decide
  rw [nextSection_eq h]
  omega

theorem sectionAt_index (m : Sram) (addr : ℕ) : (m.sectionAt addr).index < 16 := by
  simp only [Sram.sectionAt, Sram.sectionSize, Sram.largeSectionBegin, smallSectionSpan,
    smallBlockCount, smallSectionsPerBlock, smallSectionSize, largeSectionsPerBlock,
    largeSectionSize]
  by_cases hlarge : m.sramBegin + 65536 ≤ addr
  · simp only [hlarge, decide_true, if_true]
    split_ifs <;> simp only <;> omega
  · simp only [hlarge, decide_false, if_false, Bool.false_eq_true]
    split_ifs <;> simp only <;> omega

/-- Up to the next section the addresses lie in the same one. -/
theorem sectionAt_eq (hbegin : m.sramBegin ≤ addr) (hend : addr < m.sramEnd) (hle : addr ≤ a)
    (hlt : a < m.nextSection addr) : m.sectionAt a = m.sectionAt addr := by
  obtain ⟨q, hq⟩ := m.aligned
  rw [nextSection_eq hend] at hlt
  simp only [Sram.sectionAt, Sram.sectionSize, Sram.largeSectionBegin, smallSectionSpan,
    smallBlockCount, smallSectionsPerBlock, smallSectionSize, largeSectionSize] at hq hlt ⊢
  by_cases hlarge : m.sramBegin + 65536 ≤ addr
  · have hlarge' : m.sramBegin + 65536 ≤ a := by omega
    have hsame : (a - (m.sramBegin + 65536)) / 32768 = (addr - (m.sramBegin + 65536)) / 32768 := by
      simp only [hlarge, if_true] at hlt
      omega
    simp [hlarge, hlarge', hsame]
  · have hlarge' : ¬ m.sramBegin + 65536 ≤ a := by
      simp only [hlarge, if_false] at hlt
      omega
    have hsame : (a - m.sramBegin) / 4096 = (addr - m.sramBegin) / 4096 := by
      simp only [hlarge, if_false] at hlt
      omega
    simp [hlarge, hlarge', hsame]

end Sections

section Layout

/-- The sections that exist: eight blocks of two small ones each, then blocks of sixteen
large ones. -/
def RamSection.Valid (sec : RamSection) : Prop :=
  sec.index < if sec.block < smallBlockCount then smallSectionsPerBlock else largeSectionsPerBlock

def RamSection.size (sec : RamSection) : ℕ :=
  if sec.block < smallBlockCount then smallSectionSize else largeSectionSize

/-- The address of a section. Whatever comes before it in the RAM is a block, or a section
of its block. -/
def Sram.sectionBegin (m : Sram) (sec : RamSection) : ℕ :=
  if sec.block < smallBlockCount then
    m.sramBegin + sec.block * (smallSectionsPerBlock * smallSectionSize) +
      sec.index * smallSectionSize
  else
    m.sramBegin + smallSectionSpan +
      (sec.block - smallBlockCount) * (largeSectionsPerBlock * largeSectionSize) +
      sec.index * largeSectionSize

/-- The address lies in the section. -/
def Sram.Holds (m : Sram) (sec : RamSection) (addr : ℕ) : Prop :=
  sec.Valid ∧ m.sectionBegin sec ≤ addr ∧ addr < m.sectionBegin sec + sec.size

/-- The bit keeps a section powered that some byte from `addr` on, and before `addrEnd`, is
in. -/
def Sram.Covers (m : Sram) (addr addrEnd block i : ℕ) : Prop :=
  ∃ sec a, addr ≤ a ∧ a < addrEnd ∧ m.Holds sec a ∧ block = sec.block ∧
    i = sec.index + retentionPos

variable {m : Sram} {a : ℕ} {sec : RamSection}

theorem RamSection.eq_mk_iff {block index : ℕ} :
    sec = ⟨block, index⟩ ↔ sec.block = block ∧ sec.index = index := by
  cases sec
  exact RamSection.mk.injEq .. ▸ Iff.rfl

theorem sectionAt_small (hbegin : m.sramBegin ≤ a) (h : a < m.sramBegin + 65536) :
    m.sectionAt a = ⟨(a - m.sramBegin) / 8192, (a - m.sramBegin) / 4096 % 2⟩ := by
  have hsmall : ¬ m.sramBegin + 65536 ≤ a := not_le.mpr h
  simp only [Sram.sectionAt, Sram.sectionSize, Sram.largeSectionBegin, smallSectionSpan,
    smallBlockCount, smallSectionsPerBlock, smallSectionSize, hsmall, decide_false,
    Bool.false_eq_true, if_false, Nat.reduceMul]
  split_ifs <;> simp only [RamSection.mk.injEq, and_true] <;> omega

theorem sectionAt_large (h : m.sramBegin + 65536 ≤ a) (hend : a < m.sramEnd) :
    m.sectionAt a = ⟨8 + (a - (m.sramBegin + 65536)) / 524288,
      (a - (m.sramBegin + 65536)) / 32768 % 16⟩ := by
  have hblocks := m.blocks
  simp only [smallSectionSpan, smallBlockCount, smallSectionsPerBlock, smallSectionSize,
    largeSectionsPerBlock, largeSectionSize, Nat.reduceMul, Nat.reduceSub] at hblocks
  rw [Sram.sramEnd] at hend
  simp only [Sram.sectionAt, Sram.sectionSize, Sram.largeSectionBegin, smallSectionSpan,
    smallBlockCount, smallSectionsPerBlock, smallSectionSize, largeSectionsPerBlock,
    largeSectionSize, h, decide_true, if_true, Nat.reduceMul]
  split_ifs <;> simp only [RamSection.mk.injEq, and_true] <;> omega

/-- What an iteration computes is the one section that holds the address. -/
theorem holds_iff (hbegin : m.sramBegin ≤ a) (hend : a < m.sramEnd) :
    m.Holds sec a ↔ sec = m.sectionAt a := by
  have hat : m.sectionAt a =
      if m.sramBegin + 65536 ≤ a then ⟨8 + (a - (m.sramBegin + 65536)) / 524288,
        (a - (m.sramBegin + 65536)) / 32768 % 16⟩
      else ⟨(a - m.sramBegin) / 8192, (a - m.sramBegin) / 4096 % 2⟩ := by
    split_ifs with hlarge
    · exact sectionAt_large hlarge hend
    · exact sectionAt_small hbegin (not_le.mp hlarge)
  by_cases hblock : sec.block < 8
  · simp only [Sram.Holds, RamSection.Valid, RamSection.size, Sram.sectionBegin,
      smallBlockCount, smallSectionsPerBlock, smallSectionSize, hblock, if_true, Nat.reduceMul]
    rw [hat]
    split_ifs <;> rw [RamSection.eq_mk_iff] <;> omega
  · simp only [Sram.Holds, RamSection.Valid, RamSection.size, Sram.sectionBegin,
      smallSectionSpan, smallBlockCount, smallSectionsPerBlock, smallSectionSize,
      largeSectionsPerBlock, largeSectionSize, hblock, if_false, Nat.reduceMul]
    rw [hat]
    split_ifs <;> rw [RamSection.eq_mk_iff] <;> omega

theorem covers_iff_sectionAt {addr addrEnd : ℕ} (hbegin : m.sramBegin ≤ addr)
    (hend : addrEnd ≤ m.sramEnd) (block i : ℕ) : m.Covers addr addrEnd block i ↔
      ∃ a, addr ≤ a ∧ a < addrEnd ∧ block = (m.sectionAt a).block ∧
        i = (m.sectionAt a).index + retentionPos := by
  constructor
  · rintro ⟨sec, a, hle, hlt, hholds, hblock, hi⟩
    obtain rfl := (holds_iff (hbegin.trans hle) (hlt.trans_le hend)).mp hholds
    exact ⟨a, hle, hlt, hblock, hi⟩
  · rintro ⟨a, hle, hlt, hblock, hi⟩
    exact ⟨m.sectionAt a, a, hle, hlt,
      (holds_iff (hbegin.trans hle) (hlt.trans_le hend)).mpr rfl, hblock, hi⟩

end Layout

section Loop
variable {m : Sram} {addr addrEnd len fuel : ℕ} {enable : Bool} {p : Power}

/-- The bytes up to the next section, and those from there on. -/
theorem covers_iff (hbegin : m.sramBegin ≤ addr) (hlt : addr < addrEnd)
    (hend : addrEnd ≤ m.sramEnd) (block i : ℕ) : m.Covers addr addrEnd block i ↔
      (block = (m.sectionAt addr).block ∧ i = (m.sectionAt addr).index + retentionPos) ∨
        m.Covers (m.nextSection addr) addrEnd block i := by
  have hin : addr < m.sramEnd := hlt.trans_le hend
  have hforward : addr < m.nextSection addr := lt_nextSection hin
  rw [covers_iff_sectionAt hbegin hend, covers_iff_sectionAt (hbegin.trans hforward.le) hend]
  constructor
  · rintro ⟨a, hle, ha, hblock, hi⟩
    by_cases hnext : a < m.nextSection addr
    · rw [sectionAt_eq hbegin hin hle hnext] at hblock hi
      exact .inl ⟨hblock, hi⟩
    · exact .inr ⟨a, by omega, ha, hblock, hi⟩
  · rintro (⟨hblock, hi⟩ | ⟨a, hle, ha, hblock, hi⟩)
    · exact ⟨addr, le_rfl, hlt, hblock, hi⟩
    · exact ⟨a, by omega, ha, hblock, hi⟩

/-- The loop ends, and changes the bits of the sections it goes through. -/
theorem retainLoop_spec (hbegin : m.sramBegin ≤ addr) (hlt : addr < addrEnd)
    (hend : addrEnd ≤ m.sramEnd) (hfuel : addrEnd - addr ≤ fuel) :
    ∃ p', m.retainLoop addrEnd enable fuel addr p = some p' ∧ ∀ block i,
      (m.Covers addr addrEnd block i → (p' block).getLsbD i = enable) ∧
        (¬ m.Covers addr addrEnd block i → (p' block).getLsbD i = (p block).getLsbD i) := by
  induction fuel generalizing addr p with
  | zero => omega
  | succ fuel ih =>
      have hforward : addr < m.nextSection addr := lt_nextSection (hlt.trans_le hend)
      have hbit := fun block i => rampower_getLsbD (p := p) enable (sectionAt_index m addr) block i
      simp only [Sram.retainLoop]
      by_cases hnext : m.nextSection addr < addrEnd
      · obtain ⟨p', hloop, hbits⟩ := ih (p := p.rampower enable (m.sectionAt addr))
          (by omega) hnext (by omega)
        refine ⟨p', by rw [if_pos hnext, hloop], fun block i => ?_⟩
        obtain ⟨hset, hkept⟩ := hbits block i
        rw [covers_iff hbegin hlt hend]
        by_cases hrest : m.Covers (m.nextSection addr) addrEnd block i
        · exact ⟨fun _ => hset hrest, fun hno => absurd (.inr hrest) hno⟩
        · rw [hkept hrest, hbit]
          exact ⟨fun h => if_pos (h.resolve_right hrest), fun hno => if_neg fun h => hno (.inl h)⟩
      · refine ⟨_, if_neg hnext, fun block i => ?_⟩
        have hrest : ¬ m.Covers (m.nextSection addr) addrEnd block i := by
          rintro ⟨-, a, hle, ha, -⟩
          omega
        rw [covers_iff hbegin hlt hend, hbit]
        exact ⟨fun h => if_pos (h.resolve_right hrest), fun hno => if_neg fun h => hno (.inl h)⟩

theorem sramEnd_lt (m : Sram) : m.sramEnd < 2 ^ 32 := by
  have hfits := m.fits
  have hpos : 0 < largeSectionSize := by decide
  rw [Sram.sramEnd]
  omega

/-- An object in the RAM is accepted, and its bits are changed. -/
theorem ramRangeRetain_inside (hne : len ≠ 0) (hbegin : m.sramBegin ≤ addr)
    (hend : addr + len ≤ m.sramEnd) :
    ∃ p', ramRangeRetain m addr len enable p = some (p', 0) ∧ ∀ block i,
      (m.Covers addr (addr + len) block i → (p' block).getLsbD i = enable) ∧
        (¬ m.Covers addr (addr + len) block i →
          (p' block).getLsbD i = (p block).getLsbD i) := by
  have hlast := sramEnd_lt m
  have hin : ¬ (len = 0 ∨ addr < m.sramBegin ∨ (m.sramEnd + 2 ^ 32 - len) % 2 ^ 32 < addr) := by
    omega
  have hwrap : (addr + len) % 2 ^ 32 = addr + len := Nat.mod_eq_of_lt (by omega)
  obtain ⟨p', hloop, hbits⟩ := @retainLoop_spec m addr (addr + len) len enable p hbegin
    (by omega) hend (by omega)
  refine ⟨p', ?_, hbits⟩
  simp only [ramRangeRetain]
  rw [if_neg hin, hwrap, hloop]
  rfl

end Loop

/-- ram_range_retain accepts exactly the nonempty objects in the RAM, as long as SRAM_END
less their length does not wrap around, and it sets, or clears, the bits of the sections
that hold a byte of the object and no others. -/
theorem ramRangeRetain_spec (m : Sram) (ptr len : ℕ) (enable : Bool) (p : Power)
    (hlen : len ≤ m.sramEnd) :
    ∃ p' err, ramRangeRetain m ptr len enable p = some (p', err) ∧
      (err = 0 ↔ len ≠ 0 ∧ m.sramBegin ≤ ptr ∧ ptr + len ≤ m.sramEnd) ∧
      (err ≠ 0 → err = -einval ∧ p' = p) ∧
      (err = 0 → ∀ block i,
        (m.Covers ptr (ptr + len) block i → (p' block).getLsbD i = enable) ∧
          (¬ m.Covers ptr (ptr + len) block i → (p' block).getLsbD i = (p block).getLsbD i)) := by
  by_cases hin : len ≠ 0 ∧ m.sramBegin ≤ ptr ∧ ptr + len ≤ m.sramEnd
  · obtain ⟨hne, hbegin, hend⟩ := hin
    obtain ⟨p', heq, hbits⟩ := @ramRangeRetain_inside m ptr len enable p hne hbegin hend
    exact ⟨p', 0, heq, iff_of_true rfl ⟨hne, hbegin, hend⟩, fun h => absurd rfl h, fun _ => hbits⟩
  · have hlast := sramEnd_lt m
    have hout : len = 0 ∨ ptr < m.sramBegin ∨ (m.sramEnd + 2 ^ 32 - len) % 2 ^ 32 < ptr := by
      omega
    have herr : -einval ≠ 0 := by decide
    exact ⟨p, -einval, if_pos hout, iff_of_false herr hin, fun _ => ⟨rfl, rfl⟩,
      fun h => absurd h herr⟩

/-- The RAM of an nRF52840. -/
def sram0 : Sram := ⟨0x20000000, 0x40000, by decide, by decide, by decide⟩

/-- An object in the last small section and the first large one. -/
theorem ramRangeRetain_spec_boundary :
    ∃ p' err, ramRangeRetain sram0 0x2000FFF0 28 true (fun _ => 0) = some (p', err) ∧
      (err = 0 ↔ 28 ≠ 0 ∧ sram0.sramBegin ≤ 0x2000FFF0 ∧ 0x2000FFF0 + 28 ≤ sram0.sramEnd) ∧
      (err ≠ 0 → err = -einval ∧ p' = fun _ => 0) ∧
      (err = 0 → ∀ block i, (sram0.Covers 0x2000FFF0 (0x2000FFF0 + 28) block i →
          (p' block).getLsbD i = true) ∧
        (¬ sram0.Covers 0x2000FFF0 (0x2000FFF0 + 28) block i →
          (p' block).getLsbD i = BitVec.getLsbD 0#32 i)) :=
  ramRangeRetain_spec sram0 0x2000FFF0 28 true (fun _ => 0) (by decide)

example : (ramRangeRetain sram0 0x2000FFF0 28 true fun _ => 0).map
    (fun r => (r.1 7, r.1 8, r.2)) = some (0x20000#32, 0x10000#32, 0) := by
  decide +kernel

/-- Where the subtraction wraps around, more than the RAM is accepted. -/
example : (ramRangeRetain sram0 0x20000000 0xF0000000 true fun _ => 0).map (·.2) = some 0 := by
  decide +kernel

end DodgeClock
