import DodgeClock.LittleEndian

/-!
# Cyclic redundancy checks

A reflected CRC of any width: the register is shifted right bit by bit, and the polynomial
is added when a one leaves it. Shifting is linear and loses nothing, so a change of no more
bytes than the register has always changes the result, and a message followed by its own
CRC gives the same residue for every message.
-/
namespace Crc
open LittleEndian

/-- `top` is the constant term of the polynomial, which is the bit shifted in. -/
structure Params (w : ℕ) where
  poly : BitVec w
  init : BitVec w
  final : BitVec w
  top : poly.msb = true

namespace Params
variable {w : ℕ} (P : Params w)

def shift (r : BitVec w) : BitVec w :=
  if r.getLsbD 0 = true then (r >>> 1) ^^^ P.poly else r >>> 1

def shifts (n : ℕ) : BitVec w → BitVec w := P.shift^[n]

def step (r : BitVec w) (b : UInt8) : BitVec w := P.shifts 8 (r ^^^ BitVec.ofNat w b.toNat)

def feed (r : BitVec w) (data : List UInt8) : BitVec w := data.foldl P.step r

def crc (data : List UInt8) : BitVec w := P.feed P.init data ^^^ P.final

/-- The CRC of a message with its CRC behind it. -/
def residue : BitVec w := P.shifts w P.final ^^^ P.final

section Shift

theorem shift_xor (r s : BitVec w) : P.shift (r ^^^ s) = P.shift r ^^^ P.shift s := by
  simp only [shift, BitVec.getLsbD_xor, BitVec.ushiftRight_xor_distrib]
  cases r.getLsbD 0 <;> cases s.getLsbD 0
  · simp
  · simp [BitVec.xor_assoc]
  · simp [BitVec.xor_assoc, BitVec.xor_comm P.poly]
  · have hcancel : (r >>> 1 ^^^ P.poly) ^^^ (s >>> 1 ^^^ P.poly) = r >>> 1 ^^^ s >>> 1 := by
      rw [BitVec.xor_assoc, BitVec.xor_comm (s >>> 1), ← BitVec.xor_assoc P.poly,
        BitVec.xor_self, BitVec.zero_xor]
    simp [hcancel]

/-- A register that becomes zero was zero. -/
theorem eq_zero_of_shift {r : BitVec w} (h : P.shift r = 0) : r = 0 := by
  have hpos : 0 < w := by
    by_contra hzero
    have htop := P.top
    obtain rfl : w = 0 := by omega
    simp [BitVec.msb, BitVec.getMsbD] at htop
  cases hlow : r.getLsbD 0 with
  | true =>
      -- the bit shifted in would be that of the polynomial
      rw [shift, if_pos hlow] at h
      replace h := BitVec.xor_eq_zero_iff.mp h
      have htop := P.top
      rw [← h, BitVec.msb_eq_getLsbD_last, BitVec.getLsbD_ushiftRight] at htop
      rw [BitVec.getLsbD_of_ge _ _ (by omega)] at htop
      cases htop
  | false =>
      rw [shift, hlow, if_neg Bool.false_ne_true] at h
      apply BitVec.eq_of_getLsbD_eq
      intro i hi
      cases i with
      | zero => simpa using hlow
      | succ i =>
          have hbit : (r >>> 1).getLsbD i = (0 : BitVec w).getLsbD i := by rw [h]
          simpa [BitVec.getLsbD_ushiftRight, Nat.add_comm] using hbit

theorem shift_injective : Function.Injective P.shift := by
  intro r s h
  have hzero : P.shift (r ^^^ s) = 0 := by rw [shift_xor, h, BitVec.xor_self]; rfl
  exact BitVec.xor_eq_zero_iff.mp (P.eq_zero_of_shift hzero)

theorem shifts_injective (n : ℕ) : Function.Injective (P.shifts n) := P.shift_injective.iterate n

theorem shifts_xor (n : ℕ) (r s : BitVec w) :
    P.shifts n (r ^^^ s) = P.shifts n r ^^^ P.shifts n s := by
  induction n generalizing r s with
  | zero => rfl
  | succ n ih =>
      simp only [shifts, Function.iterate_succ_apply, shift_xor] at ih ⊢
      exact ih _ _

theorem shifts_add (m n : ℕ) (r : BitVec w) : P.shifts (m + n) r = P.shifts n (P.shifts m r) := by
  rw [shifts, Nat.add_comm, Function.iterate_add_apply]
  rfl

/-- What is in the upper bits moves down. -/
theorem shifts_shiftLeft {n : ℕ} {y : BitVec w} (h : y.toNat < 2 ^ (w - n)) (hn : n ≤ w) :
    P.shifts n (y <<< n) = y := by
  induction n with
  | zero => simp [shifts]
  | succ n ih =>
      have hlt : y.toNat < 2 ^ (w - n) :=
        h.trans_le (Nat.pow_le_pow_right Nat.two_pos (by omega))
      have hstep : P.shift (y <<< (n + 1)) = y <<< n := by
        have hlow : (y <<< (n + 1)).getLsbD 0 = false := by simp
        rw [shift, hlow, if_neg Bool.false_ne_true]
        apply BitVec.eq_of_getLsbD_eq
        intro i hi
        simp only [BitVec.getLsbD_ushiftRight, BitVec.getLsbD_shiftLeft]
        by_cases htop : 1 + i < w
        · have htop' : i + 1 < w := by omega
          simp [htop', hi, Nat.add_comm 1 i]
        · have hbit : y.getLsbD (i - n) = false := by
            have hle : 2 ^ (w - (n + 1)) ≤ 2 ^ (i - n) :=
              Nat.pow_le_pow_right Nat.two_pos (by omega)
            exact Nat.testBit_lt_two_pow (h.trans_le hle)
          simp [htop, hbit]
      rw [shifts, Function.iterate_succ_apply, hstep]
      exact ih hlt (by omega)

end Shift

section Feed
variable {k n : ℕ}

theorem feed_append (r : BitVec w) (a b : List UInt8) :
    P.feed r (a ++ b) = P.feed (P.feed r a) b := List.foldl_append

theorem step_injective (b : UInt8) : Function.Injective fun r => P.step r b := by
  intro r s h
  have hxor := P.shifts_injective 8 h
  simpa using hxor

/-- No difference between two registers is ever lost. -/
theorem feed_injective (data : List UInt8) : Function.Injective fun r => P.feed r data := by
  induction data with
  | nil => exact Function.injective_id
  | cons b data ih =>
      intro r s h
      exact P.step_injective b (ih h)

/-- The low byte, and the others above it. -/
theorem ofNat_eq_xor (n : ℕ) :
    BitVec.ofNat w n = BitVec.ofNat w (n % 256) ^^^ BitVec.ofNat w (n / 256) <<< 8 := by
  apply BitVec.eq_of_getLsbD_eq
  intro i hi
  have hmod : (n % 256).testBit i = (decide (i < 8) && n.testBit i) := Nat.testBit_mod_two_pow n 8 i
  have hdiv : (n / 256).testBit (i - 8) = n.testBit (i - 8 + 8) :=
    @Nat.testBit_div_two_pow 8 n (i - 8)
  simp only [BitVec.getLsbD_xor, BitVec.getLsbD_shiftLeft, BitVec.getLsbD_ofNat, hmod, hdiv]
  by_cases hlow : i < 8
  · simp [hi, hlow]
  · have hback : i - 8 + 8 = i := by omega
    have hlt : i - 8 < w := by omega
    simp [hi, hlow, hback, hlt]

/-- A register takes a number that it has room for all at once. -/
theorem feed_bytes (hk : 8 * k ≤ w) (hn : n < 256 ^ k) (r : BitVec w) :
    P.feed r (bytes k n) = P.shifts (8 * k) (r ^^^ BitVec.ofNat w n) := by
  induction k generalizing n r with
  | zero =>
      obtain rfl : n = 0 := by simpa using hn
      simp [feed, bytes, shifts]
  | succ k ih =>
      have hrest : n / 256 < 256 ^ k := by
        rw [pow_succ] at hn
        omega
      have hroom : n / 256 < 2 ^ (w - 8) := by
        refine hrest.trans_le ?_
        rw [show 256 = 2 ^ 8 from rfl, ← pow_mul]
        exact Nat.pow_le_pow_right Nat.two_pos (by omega)
      have hupper : P.shifts 8 (BitVec.ofNat w (n / 256) <<< 8) = BitVec.ofNat w (n / 256) := by
        refine P.shifts_shiftLeft ?_ (by omega)
        exact (Nat.mod_le _ _).trans_lt hroom
      have hbyte : (UInt8.ofNat n).toNat = n % 256 := by simp
      calc P.feed r (bytes (k + 1) n)
          = P.feed (P.step r (UInt8.ofNat n)) (bytes k (n / 256)) := rfl
        _ = P.shifts (8 * k) (P.shifts 8 (r ^^^ BitVec.ofNat w (n % 256)) ^^^
              P.shifts 8 (BitVec.ofNat w (n / 256) <<< 8)) := by
            rw [ih (by omega) hrest, step, hbyte, hupper]
        _ = P.shifts (8 * k) (P.shifts 8 (r ^^^ BitVec.ofNat w n)) := by
            rw [← shifts_xor, BitVec.xor_assoc, ← ofNat_eq_xor]
        _ = P.shifts (8 * (k + 1)) (r ^^^ BitVec.ofNat w n) := by
            rw [← shifts_add, show 8 + 8 * k = 8 * (k + 1) by omega]

/-- Only the CRC of a message, put behind it, gives the residue. -/
theorem crc_append_eq_residue (hk : 8 * k = w) (hn : n < 256 ^ k) (data : List UInt8) :
    P.crc (data ++ bytes k n) = P.residue ↔ BitVec.ofNat w n = P.crc data := by
  have hcrc : P.crc (data ++ bytes k n) =
      P.shifts w (P.feed P.init data ^^^ BitVec.ofNat w n) ^^^ P.final := by
    rw [crc, feed_append, P.feed_bytes hk.le hn, hk]
  have hcancel : ∀ x y z : BitVec w, x ^^^ y = z ↔ y = x ^^^ z := by
    intro x y z
    constructor
    · rintro rfl
      rw [← BitVec.xor_assoc, BitVec.xor_self, BitVec.zero_xor]
    · rintro rfl
      rw [← BitVec.xor_assoc, BitVec.xor_self, BitVec.zero_xor]
  rw [hcrc, residue, BitVec.xor_left_inj, (P.shifts_injective w).eq_iff, hcancel]
  rfl

/-- A change of consecutive bytes that the register has room for changes the CRC. -/
theorem crc_ne_of_burst {before b b' after : List UInt8} (hlen : b.length = b'.length)
    (hroom : 8 * b.length ≤ w) (hne : b ≠ b') :
    P.crc (before ++ b ++ after) ≠ P.crc (before ++ b' ++ after) := by
  intro heq
  simp only [crc, feed_append, BitVec.xor_left_inj] at heq
  have hfeed := P.feed_injective after heq
  have hload : ∀ data : List UInt8, data.length = b.length → P.feed (P.feed P.init before) data =
      P.shifts (8 * b.length) (P.feed P.init before ^^^
        BitVec.ofNat w (load b.length (place data fun _ => 0))) := by
    intro data hdata
    rw [← P.feed_bytes hroom (load_lt _ _), ← hdata, bytes_load_place]
  rw [hload b rfl, hload b' hlen.symm] at hfeed
  have hnum := (BitVec.xor_right_inj _).mp (P.shifts_injective _ hfeed)
  have hlt : ∀ mem, load b.length mem < 2 ^ w := fun mem => by
    refine (load_lt _ mem).trans_le ?_
    rw [show 256 = 2 ^ 8 from rfl, ← pow_mul]
    exact Nat.pow_le_pow_right Nat.two_pos hroom
  have hsame := congrArg BitVec.toNat hnum
  rw [BitVec.toNat_ofNat, BitVec.toNat_ofNat, Nat.mod_eq_of_lt (hlt _),
    Nat.mod_eq_of_lt (hlt _)] at hsame
  apply hne
  rw [← bytes_load_place b fun _ => 0, hsame, hlen, bytes_load_place]

end Feed

end Params
end Crc
