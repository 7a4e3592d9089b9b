import Mathlib.Data.Nat.Basic
import Mathlib.Tactic.Ring

/-!
# Big-endian fixed-width integers

Network formats write an integer as a fixed number of octets, the most
significant first.  `beField w n` is that field and `ofBe` reads one back;
the two are inverse on values that fit the width.

## Main results

* `ofBe_beField` — reading a `w`-octet field returns the value modulo
  `256 ^ w`, so a value that fits is returned exactly.
* `ofBe_lt` — a field of `w` octets denotes a value below `256 ^ w`.
* `beField_ofBe` — writing back what was read restores the octets.
-/

namespace KubePortForward.Verified.BigEndian

/-- The `w` octets of `n`, most significant first. -/
def beField : Nat → Nat → List UInt8
  | 0, _ => []
  | w + 1, n => UInt8.ofNat (n / 256 ^ w) :: beField w n

/-- The integer a big-endian field denotes. -/
def ofBe : List UInt8 → Nat
  | [] => 0
  | b :: bs => b.toNat * 256 ^ bs.length + ofBe bs

@[simp] theorem beField_length (w n : Nat) : (beField w n).length = w := by
  induction w with
  | zero => rfl
  | succ w ih => simp only [beField, List.length_cons, ih]

theorem ofBe_lt (bs : List UInt8) : ofBe bs < 256 ^ bs.length := by
  induction bs with
  | nil => simp [ofBe]
  | cons b bs ih =>
      have hb : b.toNat < 256 := b.toNat_lt
      have hmul : (b.toNat + 1) * 256 ^ bs.length ≤ 256 * 256 ^ bs.length :=
        Nat.mul_le_mul_right _ hb
      rw [ofBe, List.length_cons, Nat.pow_succ]
      rw [Nat.add_mul, Nat.one_mul] at hmul
      omega

/-- Reading a field that was written returns the value, cut to the width. -/
theorem ofBe_beField (w n : Nat) : ofBe (beField w n) = n % 256 ^ w := by
  induction w with
  | zero => simp [beField, ofBe, Nat.mod_one]
  | succ w ih =>
      have hsplit : n % 256 ^ (w + 1) = n % 256 ^ w + 256 ^ w * (n / 256 ^ w % 256) := by
        rw [Nat.pow_succ, Nat.mod_mul]
      rw [beField, ofBe, beField_length, ih, hsplit, UInt8.toNat_ofNat',
        Nat.mul_comm, Nat.add_comm]

theorem ofBe_beField_of_lt {w n : Nat} (h : n < 256 ^ w) :
    ofBe (beField w n) = n := by
  rw [ofBe_beField, Nat.mod_eq_of_lt h]

/-- A field only depends on its value modulo the width. -/
theorem beField_add_mul (w n k : Nat) : beField w (n + k * 256 ^ w) = beField w n := by
  induction w generalizing k with
  | zero => rfl
  | succ w ih =>
      have hpow : k * 256 ^ (w + 1) = k * 256 * 256 ^ w := by ring
      have hdiv : (n + k * 256 * 256 ^ w) / 256 ^ w = n / 256 ^ w + k * 256 :=
        Nat.add_mul_div_right _ _ (Nat.pow_pos (by decide))
      rw [beField, beField, hpow, ih, hdiv]
      congr 1
      apply UInt8.toNat_inj.1
      simp only [UInt8.toNat_ofNat']
      exact Nat.add_mul_mod_self_right _ _ _

/-- Writing back what was read restores the octets. -/
theorem beField_ofBe (bs : List UInt8) : beField bs.length (ofBe bs) = bs := by
  induction bs with
  | nil => rfl
  | cons b bs ih =>
      have hlt := ofBe_lt bs
      have hpos : 0 < 256 ^ bs.length := Nat.pow_pos (by decide)
      rw [ofBe, List.length_cons, beField, Nat.add_comm, beField_add_mul, ih,
        Nat.add_mul_div_right _ _ hpos, Nat.div_eq_of_lt hlt, Nat.zero_add,
        UInt8.ofNat_toNat]

end KubePortForward.Verified.BigEndian
