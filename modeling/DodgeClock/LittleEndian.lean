import Mathlib.Tactic

/-!
# Numbers in little-endian memory

A number is stored as bytes, the least significant first, and loaded from the
memory at a pointer. A load of as many bytes as were stored finds the number again,
whatever follows it in memory.
-/
namespace LittleEndian

/-- The `w` bytes of `n`. -/
def bytes : ℕ → ℕ → List UInt8
  | 0, _ => []
  | w + 1, n => UInt8.ofNat n :: bytes w (n / 256)

/-- The number in the first `w` bytes of the memory at a pointer. -/
def load : ℕ → (ℕ → UInt8) → ℕ
  | 0, _ => 0
  | w + 1, mem => (mem 0).toNat + 256 * load w fun i => mem (i + 1)

/-- The memory at a pointer to `data`, with `beyond` after it. -/
def place (data : List UInt8) (beyond : ℕ → UInt8) : ℕ → UInt8 := fun i => data.getD i (beyond i)

@[simp] theorem length_bytes (w n : ℕ) : (bytes w n).length = w := by
  induction w generalizing n with
  | zero => rfl
  | succ w ih => simp [bytes, ih]

/-- The low bytes, and the others above them. -/
theorem bytes_add (v w n : ℕ) : bytes (v + w) n = bytes v n ++ bytes w (n / 256 ^ v) := by
  induction v generalizing n with
  | zero => simp [bytes]
  | succ v ih =>
      rw [Nat.succ_add, bytes, bytes, ih, List.cons_append, Nat.div_div_eq_div_mul, pow_succ']

/-- More than the bytes hold makes no difference. -/
theorem bytes_mod (w n : ℕ) : bytes w (n % 256 ^ w) = bytes w n := by
  induction w generalizing n with
  | zero => rfl
  | succ w ih =>
      have hbyte : UInt8.ofNat (n % 256 ^ (w + 1)) = UInt8.ofNat n := by
        apply UInt8.toNat_inj.mp
        rw [UInt8.toNat_ofNat', UInt8.toNat_ofNat', pow_succ']
        exact Nat.mod_mul_right_mod n 256 _
      have hrest : n % 256 ^ (w + 1) / 256 = n / 256 % 256 ^ w := by
        rw [pow_succ', Nat.mod_mul_right_div_self]
      rw [bytes, bytes, hbyte, hrest, ih]

@[simp] theorem place_cons_zero (b : UInt8) (data : List UInt8) (beyond : ℕ → UInt8) :
    place (b :: data) beyond 0 = b := rfl

theorem place_cons_tail (b : UInt8) (data : List UInt8) (beyond : ℕ → UInt8) :
    (fun i => place (b :: data) beyond (i + 1)) = place data fun i => beyond (i + 1) := by
  funext i
  simp [place]

theorem load_place (w n : ℕ) (beyond : ℕ → UInt8) :
    load w (place (bytes w n) beyond) = n % 256 ^ w := by
  induction w generalizing n beyond with
  | zero => simp [load, Nat.mod_one]
  | succ w ih =>
      have hbyte : (UInt8.ofNat n).toNat = n % 256 := by simp
      have htail : load w (fun i => place (bytes (w + 1) n) beyond (i + 1)) =
          n / 256 % 256 ^ w := by
        rw [bytes, place_cons_tail, ih]
      calc load (w + 1) (place (bytes (w + 1) n) beyond)
          = (UInt8.ofNat n).toNat +
              256 * load w (fun i => place (bytes (w + 1) n) beyond (i + 1)) := rfl
        _ = n % 256 + 256 * (n / 256 % 256 ^ w) := by rw [hbyte, htail]
        _ = n % 256 ^ (w + 1) := by rw [pow_succ', Nat.mod_mul]

theorem load_place_of_lt {w n : ℕ} (h : n < 256 ^ w) (beyond : ℕ → UInt8) :
    load w (place (bytes w n) beyond) = n := by
  rw [load_place, Nat.mod_eq_of_lt h]

theorem bytes_inj {w m n : ℕ} (hm : m < 256 ^ w) (hn : n < 256 ^ w)
    (h : bytes w m = bytes w n) : m = n := by
  rw [← load_place_of_lt hm fun _ => 0, h, load_place_of_lt hn]

theorem load_congr {w : ℕ} {mem mem' : ℕ → UInt8} (h : ∀ i < w, mem i = mem' i) :
    load w mem = load w mem' := by
  induction w generalizing mem mem' with
  | zero => rfl
  | succ w ih =>
      have htail := @ih (fun i => mem (i + 1)) (fun i => mem' (i + 1))
        fun i hi => h (i + 1) (by omega)
      rw [load, load, h 0 (by omega), htail]

/-- A load tells every byte it is made of. -/
theorem eq_of_load_eq {w : ℕ} {mem mem' : ℕ → UInt8} (h : load w mem = load w mem') {i : ℕ}
    (hi : i < w) : mem i = mem' i := by
  induction w generalizing mem mem' i with
  | zero => omega
  | succ w ih =>
      have hlt : (mem 0).toNat < 256 := (mem 0).toNat_lt
      have hlt' : (mem' 0).toNat < 256 := (mem' 0).toNat_lt
      simp only [load] at h
      cases i with
      | zero =>
          apply UInt8.toNat_inj.mp
          omega
      | succ i =>
          apply @ih (fun i => mem (i + 1)) (fun i => mem' (i + 1))
          · omega
          · omega

theorem load_lt (w : ℕ) (mem : ℕ → UInt8) : load w mem < 256 ^ w := by
  induction w generalizing mem with
  | zero => simp [load]
  | succ w ih =>
      have hlt : (mem 0).toNat < 256 := (mem 0).toNat_lt
      have htail := ih fun i => mem (i + 1)
      rw [load, pow_succ]
      omega

/-- Storing a load again gives the bytes loaded. -/
theorem bytes_load (w : ℕ) (mem : ℕ → UInt8) :
    bytes w (load w mem) = (List.range w).map mem := by
  induction w generalizing mem with
  | zero => rfl
  | succ w ih =>
      have hlt : (mem 0).toNat < 256 := (mem 0).toNat_lt
      have hdiv : load (w + 1) mem / 256 = load w fun i => mem (i + 1) := by
        rw [load]
        omega
      have hbyte : UInt8.ofNat (load (w + 1) mem) = mem 0 := by
        apply UInt8.toNat_inj.mp
        rw [load, UInt8.toNat_ofNat']
        omega
      rw [bytes, hdiv, hbyte, ih, List.range_succ_eq_map, List.map_cons, List.map_map]
      rfl

theorem bytes_load_place (data : List UInt8) (beyond : ℕ → UInt8) :
    bytes data.length (load data.length (place data beyond)) = data := by
  rw [bytes_load]
  apply List.ext_getElem
  · simp
  · intro i h₁ h₂
    simp [place, h₂]

/-- A change of the byte `i` alone may change what `f` makes of the memory. -/
def Depends {α : Type*} (f : (ℕ → UInt8) → α) (i : ℕ) : Prop :=
  ∃ mem b, f (Function.update mem i b) ≠ f mem

theorem not_depends_const {α : Type*} (a : α) (i : ℕ) : ¬ Depends (fun _ => a) i := by
  rintro ⟨mem, b, h⟩
  exact h rfl

/-- A load depends on the bytes it is made of, and so does whatever tells the numbers
loaded apart. -/
theorem depends_load {α : Type*} {w i : ℕ} {f : ℕ → α}
    (hf : ∀ m n, m < 256 ^ w → n < 256 ^ w → f m = f n → m = n) :
    Depends (fun mem => f (load w mem)) i ↔ i < w := by
  constructor
  · rintro ⟨mem, b, hne⟩
    by_contra hi
    apply hne
    refine congrArg f (load_congr fun j hj => ?_)
    have hne : j ≠ i := by omega
    exact Function.update_of_ne hne b mem
  · intro hi
    refine ⟨fun _ => 0, 1, fun heq => ?_⟩
    have hload := hf _ _ (load_lt w _) (load_lt w _) heq
    have hbyte := eq_of_load_eq hload hi
    rw [Function.update_self] at hbyte
    exact absurd hbyte (by decide)

end LittleEndian
