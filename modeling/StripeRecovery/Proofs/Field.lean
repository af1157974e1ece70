import StripeRecovery.Field
import Mathlib.Algebra.CharP.Lemmas
import Mathlib.Algebra.CharP.Two
import Mathlib.Algebra.Field.Basic
import Mathlib.Data.Fintype.Basic

/-!
The bytes are a field. Multiplication keeps exclusive or in both factors, so its laws need
checking on the eight single bits only; the inverse is found by the eightfold square, which
keeps sums and so is the identity.
-/
namespace StripeRecovery
namespace GF256

def KeepsXor (f : UInt8 → UInt8) : Prop := ∀ a b, f (a ^^^ b) = f a ^^^ f b

def bit (i : Nat) : UInt8 := 1 <<< UInt8.ofNat i

def bitsAt (b : UInt8) : List Nat → UInt8
  | [] => 0
  | i :: is => (if b >>> UInt8.ofNat i &&& 1 = 1 then bit i else 0) ^^^ bitsAt b is

theorem bitsAt_all (b : UInt8) : bitsAt b (List.range 8) = b := by
  have small : ∀ n : Fin 256, bitsAt (UInt8.ofNat n) (List.range 8) = UInt8.ofNat n := by
    decide +kernel
  simpa using small ⟨b.toNat, b.toNat_lt⟩

theorem keepsXor_zero {f : UInt8 → UInt8} (keeps : KeepsXor f) : f 0 = 0 := by
  have twice := keeps 0 0
  simpa using twice

theorem keepsXor_ext {f g : UInt8 → UInt8} (hf : KeepsXor f) (hg : KeepsXor g)
    (bits : ∀ i < 8, f (bit i) = g (bit i)) (b : UInt8) : f b = g b := by
  have onBits : ∀ is : List Nat, (∀ i ∈ is, i < 8) → f (bitsAt b is) = g (bitsAt b is) := by
    intro is
    induction is with
    | nil => intro _; simp [bitsAt, keepsXor_zero hf, keepsXor_zero hg]
    | cons i is ih =>
      intro within
      rw [bitsAt, hf, hg, ih fun j hj => within j (by simp [hj])]
      split
      · rw [bits i (within i (by simp))]
      · rw [keepsXor_zero hf, keepsXor_zero hg]
  have whole := onBits (List.range 8) (by simp)
  rwa [bitsAt_all] at whole

theorem highBit_cases (a : UInt8) : a &&& 0x80 = 0 ∨ a &&& 0x80 = 0x80 := by
  have small : ∀ n : Fin 256, UInt8.ofNat n &&& 0x80 = 0 ∨ UInt8.ofNat n &&& 0x80 = 0x80 := by
    decide +kernel
  simpa using small ⟨a.toNat, a.toNat_lt⟩

theorem lowBit_cases (a : UInt8) : a &&& 1 = 0 ∨ a &&& 1 = 1 := by
  have small : ∀ n : Fin 256, UInt8.ofNat n &&& 1 = 0 ∨ UInt8.ofNat n &&& 1 = 1 := by
    decide +kernel
  simpa using small ⟨a.toNat, a.toNat_lt⟩

theorem and_xor (a b c : UInt8) : (a ^^^ b) &&& c = (a &&& c) ^^^ (b &&& c) := by
  apply UInt8.toBitVec_inj.mp
  ext i hi
  simp [Bool.and_xor_distrib_right]

theorem xor_shared (a b c : UInt8) : (a ^^^ c) ^^^ (b ^^^ c) = a ^^^ b := by
  calc (a ^^^ c) ^^^ (b ^^^ c) = (a ^^^ b) ^^^ (c ^^^ c) := by ac_rfl
    _ = a ^^^ b := by simp

theorem timesX_keepsXor : KeepsXor timesX := by
  intro a b
  simp only [timesX, and_xor, UInt8.shiftLeft_xor]
  rcases highBit_cases a with ha | ha <;> rcases highBit_cases b with hb | hb <;> simp [ha, hb]
  · ac_rfl
  · ac_rfl
  · exact (xor_shared _ _ _).symm

theorem mulBits_succ (n : Nat) (a b : UInt8) : mulBits (n + 1) a b =
    (if b &&& 1 = 1 then a else 0) ^^^ mulBits n (timesX a) (b >>> 1) := rfl

theorem mulBits_keepsXor_left (n : Nat) (b : UInt8) : KeepsXor (mulBits n · b) := by
  induction n generalizing b with
  | zero => intro a a'; simp [mulBits]
  | succ n ih =>
    intro a a'
    simp only [mulBits, timesX_keepsXor a a', ih (b >>> 1) (timesX a) (timesX a')]
    split
    · ac_rfl
    · simp

theorem mulBits_keepsXor_right (n : Nat) (a : UInt8) : KeepsXor (mulBits n a ·) := by
  induction n generalizing a with
  | zero => intro b b'; simp [mulBits]
  | succ n ih =>
    intro b b'
    simp only [mulBits, UInt8.shiftRight_xor, and_xor, ih (timesX a) (b >>> 1) (b' >>> 1)]
    rcases lowBit_cases b with hb | hb <;> rcases lowBit_cases b' with hb' | hb' <;>
      simp [hb, hb']
    · ac_rfl
    · ac_rfl
    · rw [UInt8.xor_comm a, UInt8.xor_comm a, xor_shared]

theorem mulBits_timesX (n : Nat) (a b : UInt8) :
    mulBits n (timesX a) b = timesX (mulBits n a b) := by
  induction n generalizing a b with
  | zero => exact (keepsXor_zero timesX_keepsXor).symm
  | succ n ih =>
    rw [mulBits_succ, mulBits_succ, timesX_keepsXor, ih]
    split
    · rfl
    · rw [keepsXor_zero timesX_keepsXor]

theorem mulBits_comm (a b : UInt8) : mulBits 8 a b = mulBits 8 b a := by
  have onBits : ∀ i < 8, ∀ j < 8, mulBits 8 (bit i) (bit j) = mulBits 8 (bit j) (bit i) := by
    decide +kernel
  apply keepsXor_ext (mulBits_keepsXor_left 8 b) (mulBits_keepsXor_right 8 b)
  intro i hi
  apply keepsXor_ext (mulBits_keepsXor_right 8 (bit i)) (mulBits_keepsXor_left 8 (bit i))
  exact onBits i hi

theorem mulBits_assoc (n : Nat) (a b c : UInt8) :
    mulBits n (mulBits 8 a b) c = mulBits 8 a (mulBits n b c) := by
  induction n generalizing b c with
  | zero =>
    exact (keepsXor_zero (mulBits_keepsXor_right 8 a)).symm
  | succ n ih =>
    have shifted : timesX (mulBits 8 a b) = mulBits 8 a (timesX b) := by
      rw [mulBits_comm a b, ← mulBits_timesX, mulBits_comm]
    have keeps : ∀ x y, mulBits 8 a (x ^^^ y) = mulBits 8 a x ^^^ mulBits 8 a y :=
      mulBits_keepsXor_right 8 a
    rw [mulBits_succ n, mulBits_succ n, shifted, ih, keeps]
    split
    · rfl
    · rw [keepsXor_zero (mulBits_keepsXor_right 8 a)]

theorem one_mulBits (b : UInt8) : mulBits 8 1 b = b := by
  have onBits : ∀ i < 8, mulBits 8 1 (bit i) = bit i := by decide +kernel
  exact keepsXor_ext (g := id) (mulBits_keepsXor_right 8 1) (fun _ _ => rfl) onBits b

theorem add_eq (a b : GF256) : a + b = ⟨a.byte ^^^ b.byte⟩ := rfl

@[ext]
theorem byte_ext {a b : GF256} (same : a.byte = b.byte) : a = b := by
  cases a; cases b
  simp_all

theorem one_mul_eq (a : GF256) : 1 * a = a := byte_ext (one_mulBits a.byte)

theorem mul_comm_eq (a b : GF256) : a * b = b * a := byte_ext (mulBits_comm a.byte b.byte)

theorem mul_add_eq (a b c : GF256) : a * (b + c) = a * b + a * c :=
  byte_ext (mulBits_keepsXor_right 8 a.byte b.byte c.byte)

theorem add_self_eq (a : GF256) : a + a = 0 := byte_ext UInt8.xor_self

instance : Neg GF256 := ⟨id⟩

instance : CommRing GF256 where
  add_assoc a b c := byte_ext (UInt8.xor_assoc _ _ _)
  zero_add a := byte_ext UInt8.zero_xor
  add_zero a := byte_ext UInt8.xor_zero
  add_comm a b := byte_ext (UInt8.xor_comm _ _)
  neg_add_cancel := add_self_eq
  mul_assoc a b c := byte_ext (mulBits_assoc 8 _ _ _)
  one_mul := one_mul_eq
  mul_one a := by rw [mul_comm_eq, one_mul_eq]
  mul_comm := mul_comm_eq
  left_distrib := mul_add_eq
  right_distrib a b c := by rw [mul_comm_eq, mul_add_eq, mul_comm_eq c, mul_comm_eq c]
  zero_mul a := by rw [mul_comm_eq]; exact byte_ext (keepsXor_zero (mulBits_keepsXor_right 8 a.byte))
  mul_zero a := byte_ext (keepsXor_zero (mulBits_keepsXor_right 8 a.byte))
  nsmul := nsmulRec
  zsmul := zsmulRec

instance : Nontrivial GF256 := ⟨0, 1, by decide⟩

instance : CharP GF256 2 := CharTwo.of_one_ne_zero_of_two_eq_zero one_ne_zero (by
  rw [← one_add_one_eq_two]; exact add_self_eq 1)

theorem iterated_square (n : Nat) (a : GF256) : (fun a => a * a)^[n] a = a ^ 2 ^ n := by
  induction n with
  | zero => simp
  | succ n ih => rw [Function.iterate_succ_apply', ih, pow_succ, pow_mul, sq]

/-- The eightfold square keeps sums and single bits, so it is the identity. -/
theorem pow_256 (a : GF256) : a ^ 256 = a := by
  have keeps : KeepsXor fun b => ((⟨b⟩ : GF256) ^ 2 ^ 8).byte := by
    intro b c
    exact congrArg byte (add_pow_char_pow (⟨b⟩ : GF256) ⟨c⟩ 2 8)
  have squares : ∀ i < 8, (fun a : GF256 => a * a)^[8] ⟨bit i⟩ = ⟨bit i⟩ := by decide +kernel
  have onBits : ∀ i < 8, ((⟨bit i⟩ : GF256) ^ 2 ^ 8).byte = bit i := by
    intro i hi
    rw [← iterated_square, squares i hi]
  exact byte_ext (keepsXor_ext (g := id) keeps (fun _ _ => rfl) onBits a.byte)

theorem squarings_seven (a : GF256) : squarings 7 a = a ^ 254 := by
  simp only [squarings]
  ring

theorem idempotent_cases (a : GF256) (same : a * a = a) : a = 0 ∨ a = 1 := by
  have small : ∀ n : Fin 256, mulBits 8 (UInt8.ofNat n) (UInt8.ofNat n) = UInt8.ofNat n →
      UInt8.ofNat n = 0 ∨ UInt8.ofNat n = 1 := by decide +kernel
  have found := small ⟨a.byte.toNat, a.byte.toNat_lt⟩
  simp only [UInt8.ofNat_toNat] at found
  rcases found (congrArg byte same) with zero | one
  · exact .inl (byte_ext zero)
  · exact .inr (byte_ext one)

theorem mul_inv_eq (a : GF256) (nonzero : a ≠ 0) : a * a⁻¹ = 1 := by
  have power : a * a⁻¹ = a ^ 255 := by
    change a * squarings 7 a = _
    rw [squarings_seven, ← pow_succ']
  have same : a ^ 255 * a ^ 255 = a ^ 255 := by
    calc a ^ 255 * a ^ 255 = a ^ 256 * a ^ 254 := by ring
      _ = a ^ 255 := by rw [pow_256, ← pow_succ']
  rcases idempotent_cases _ same with zero | one
  · have back : a = a ^ 255 * a := by rw [← pow_succ, pow_256]
    rw [zero, zero_mul] at back
    exact absurd back nonzero
  · rw [power, one]

instance : Field GF256 where
  div_eq_mul_inv _ _ := rfl
  mul_inv_cancel := mul_inv_eq
  inv_zero := by decide +kernel
  nnqsmul := _
  nnqsmul_def := fun _ _ => rfl
  qsmul := _
  qsmul_def := fun _ _ => rfl

end GF256
end StripeRecovery
