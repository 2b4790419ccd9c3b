import Mathlib.Data.List.Basic
import Mathlib.Algebra.Order.Ring.Nat
import Mathlib.Tactic.Ring

namespace CChat.Library.BigEndian

/-- The low `8 * w` bits of `n`, most significant byte first. -/
def bytes : ℕ → ℕ → List UInt8
  | 0, _ => []
  | w + 1, n => UInt8.ofNat (n / 256 ^ w) :: bytes w n

/-- The number a byte string spells, most significant byte first. -/
def value (bs : List UInt8) : ℕ := bs.foldl (fun acc b ↦ 256 * acc + b.toNat) 0

@[simp] theorem bytes_length (w n : ℕ) : (bytes w n).length = w := by
  induction w with
  | zero => rfl
  | succ w ih => simp only [bytes, List.length_cons, ih]

theorem value_from (bs : List UInt8) (acc : ℕ) :
    bs.foldl (fun acc b ↦ 256 * acc + b.toNat) acc = 256 ^ bs.length * acc + value bs := by
  induction bs generalizing acc with
  | nil => simp [value]
  | cons b bs ih =>
    have h := ih (256 * acc + b.toNat)
    have h₀ := ih (256 * 0 + b.toNat)
    simp only [value, List.foldl_cons, List.length_cons] at h h₀ ⊢
    rw [h, h₀]
    ring

theorem value_cons (b : UInt8) (bs : List UInt8) :
    value (b :: bs) = 256 ^ bs.length * b.toNat + value bs := by
  have h := value_from bs (256 * 0 + b.toNat)
  simpa only [value, List.foldl_cons, Nat.mul_zero, Nat.zero_add] using h

theorem value_bytes (w n : ℕ) : value (bytes w n) = n % 256 ^ w := by
  induction w with
  | zero => simp [bytes, value, Nat.mod_one]
  | succ w ih =>
    rw [bytes, value_cons, ih, bytes_length]
    have hb : (UInt8.ofNat (n / 256 ^ w)).toNat = n / 256 ^ w % 256 := by
      simp [UInt8.toNat_ofNat']
    rw [hb, pow_succ, Nat.mod_mul, Nat.add_comm]

theorem value_bytes_of_lt {w n : ℕ} (h : n < 256 ^ w) : value (bytes w n) = n := by
  rw [value_bytes, Nat.mod_eq_of_lt h]

theorem value_lt (bs : List UInt8) : value bs < 256 ^ bs.length := by
  induction bs with
  | nil => simp [value]
  | cons b bs ih =>
    have hb : b.toNat < 256 := b.toNat_lt
    have hm : 256 ^ bs.length * b.toNat ≤ 256 ^ bs.length * 255 :=
      Nat.mul_le_mul_left _ (by omega)
    rw [value_cons, List.length_cons, pow_succ]
    omega

theorem bytes_high (w d k n : ℕ) : bytes w (256 ^ (w + d) * k + n) = bytes w n := by
  induction w generalizing d with
  | zero => rfl
  | succ w ih =>
    have hlow := ih (d + 1)
    have hsplit : 256 ^ (w + (d + 1)) * k = 256 ^ w * (256 * (256 ^ d * k)) := by ring
    rw [bytes, bytes, Nat.add_right_comm w 1 d, Nat.add_assoc w d 1, hlow, hsplit,
      Nat.mul_add_div (Nat.pow_pos (by decide))]
    congr 1
    apply UInt8.toNat_inj.mp
    rw [UInt8.toNat_ofNat', UInt8.toNat_ofNat']
    exact Nat.mul_add_mod 256 _ _

theorem bytes_value (bs : List UInt8) : bytes bs.length (value bs) = bs := by
  induction bs with
  | nil => rfl
  | cons b bs ih =>
    have hlow := bytes_high bs.length 0 b.toNat (value bs)
    rw [Nat.add_zero] at hlow
    rw [List.length_cons, bytes, value_cons, hlow, ih,
      Nat.mul_add_div (Nat.pow_pos (by decide)), Nat.div_eq_of_lt (value_lt bs), Nat.add_zero]
    congr 1
    exact UInt8.ofNat_toNat

end CChat.Library.BigEndian
