import Mathlib.Data.Nat.Notation
import Mathlib.Tactic.Ring

/-!
# Byte strings and big-endian integers

`putBE w n` is the `w`-byte big-endian form of `n` (reduced modulo `256 ^ w`), `getBE` reads a byte
string back as a number. They are inverse to each other in both directions: `getBE_putBE` on the
numbers that fit, `putBE_getBE` on all byte strings.
-/

namespace Wire

abbrev Bytes := List UInt8

/-- The `w` low bytes of `n`, most significant first. -/
def putBE : Nat → Nat → Bytes
  | 0, _ => []
  | w + 1, n => UInt8.ofNat (n / 256 ^ w) :: putBE w n

/-- The number whose digits in base 256 are `bs`, most significant first. -/
def getBE : Bytes → Nat
  | [] => 0
  | b :: bs => b.toNat * 256 ^ bs.length + getBE bs

@[simp] theorem putBE_length (w n : Nat) : (putBE w n).length = w := by
  induction w with
  | zero => rfl
  | succ w ih => simp [putBE, ih]

theorem getBE_putBE_mod (w n : Nat) : getBE (putBE w n) = n % 256 ^ w := by
  induction w with
  | zero => simp [putBE, getBE, Nat.mod_one]
  | succ w ih =>
    rw [putBE, getBE, ih, putBE_length, pow_succ, Nat.mod_mul, UInt8.toNat_ofNat']
    ring

theorem getBE_putBE {w n : Nat} (h : n < 256 ^ w) : getBE (putBE w n) = n := by
  rw [getBE_putBE_mod, Nat.mod_eq_of_lt h]

theorem getBE_lt (bs : Bytes) : getBE bs < 256 ^ bs.length := by
  induction bs with
  | nil => simp [getBE]
  | cons b bs ih =>
    have hb : b.toNat + 1 ≤ 256 := b.toNat_lt
    calc getBE (b :: bs) < b.toNat * 256 ^ bs.length + 256 ^ bs.length := Nat.add_lt_add_left ih _
      _ = (b.toNat + 1) * 256 ^ bs.length := by ring
      _ ≤ 256 * 256 ^ bs.length := Nat.mul_le_mul_right _ hb
      _ = 256 ^ (b :: bs).length := by rw [List.length_cons, pow_succ]; ring

theorem putBE_add_mul (w n k : Nat) : putBE w (k * 256 ^ w + n) = putBE w n := by
  induction w generalizing k with
  | zero => rfl
  | succ w ih =>
    have hk : k * 256 ^ (w + 1) + n = k * 256 * 256 ^ w + n := by rw [pow_succ]; ring
    have hd : (k * 256 * 256 ^ w + n) / 256 ^ w = k * 256 + n / 256 ^ w := by
      rw [Nat.add_comm, Nat.add_mul_div_right _ _ (Nat.pow_pos (by decide))]
      ring
    have hb : UInt8.ofNat (k * 256 + n / 256 ^ w) = UInt8.ofNat (n / 256 ^ w) := by
      apply UInt8.toNat_inj.1
      simp only [UInt8.toNat_ofNat']
      omega
    rw [putBE, hk, hd, hb, ih, putBE]

/-- Every byte string is the big-endian form of the number it denotes. -/
theorem putBE_getBE (bs : Bytes) : putBE bs.length (getBE bs) = bs := by
  induction bs with
  | nil => rfl
  | cons b bs ih =>
    have hd : (b.toNat * 256 ^ bs.length + getBE bs) / 256 ^ bs.length = b.toNat := by
      rw [Nat.add_comm, Nat.add_mul_div_right _ _ (Nat.pow_pos (by decide)), Nat.div_eq_of_lt (getBE_lt bs),
        Nat.zero_add]
    rw [List.length_cons, putBE, getBE, hd, putBE_add_mul, ih, UInt8.ofNat_toNat]

@[simp] theorem putBE_one (n : Nat) : putBE 1 n = [UInt8.ofNat n] := by simp [putBE]

@[simp] theorem getBE_singleton (b : UInt8) : getBE [b] = b.toNat := by simp [getBE]

end Wire
