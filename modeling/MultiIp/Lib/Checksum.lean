import Mathlib.Data.Nat.ModEq

/-!
# One's complement sums

The sum of the 16-bit words of a list of bytes, the most significant byte first
and a last odd byte filled up with 0. Modulo 65535 it can be taken piece by
piece: behind an odd number of bytes the sum of a piece counts with its two bytes swapped.
-/

namespace MultiIp.Lib

def wordSum : List UInt8 → Nat
  | [] => 0
  | [a] => a.toNat * 256
  | a :: b :: rest => a.toNat * 256 + b.toNat + wordSum rest

/-- Brings the carries back in. -/
def foldCarry (x : Nat) : Nat := x / 65536 + x % 65536

def swapBytes (x : Nat) : Nat := x % 256 * 256 + x / 256 % 256

example : wordSum [0x12, 0x34, 0xff] = 0x1234 + 0xff00 ∧ foldCarry 0x1ffff = 0x10000 ∧ swapBytes 0x1234 = 0x3412 := by
  decide

theorem wordSum_cons (a : UInt8) (t : List UInt8) : wordSum (a :: t) ≡ a.toNat * 256 + 256 * wordSum t [MOD 65535] := by
  induction t generalizing a with
  | nil => simp [wordSum, Nat.ModEq]
  | cons b t ih =>
    have hb := (ih b).mul_left 256
    calc a.toNat * 256 + b.toNat + wordSum t
        ≡ a.toNat * 256 + b.toNat + wordSum t + 65535 * (b.toNat + wordSum t) [MOD 65535] := by simp [Nat.ModEq]
      _ = a.toNat * 256 + 256 * (b.toNat * 256 + 256 * wordSum t) := by omega
      _ ≡ a.toNat * 256 + 256 * wordSum (b :: t) [MOD 65535] := (Nat.ModEq.refl _).add hb.symm

theorem wordSum_append (s t : List UInt8) :
    wordSum (s ++ t) ≡ wordSum s + 256 ^ s.length * wordSum t [MOD 65535] := by
  induction s with
  | nil => simp [wordSum, Nat.ModEq]
  | cons a s ih =>
    calc wordSum (a :: (s ++ t))
        ≡ a.toNat * 256 + 256 * wordSum (s ++ t) [MOD 65535] := wordSum_cons a (s ++ t)
      _ ≡ a.toNat * 256 + 256 * (wordSum s + 256 ^ s.length * wordSum t) [MOD 65535] :=
          (Nat.ModEq.refl _).add (ih.mul_left 256)
      _ = a.toNat * 256 + 256 * wordSum s + 256 ^ (s.length + 1) * wordSum t := by
          rw [Nat.pow_succ, Nat.mul_add, ← Nat.mul_assoc, Nat.mul_comm 256 (256 ^ s.length), Nat.add_assoc]
      _ ≡ wordSum (a :: s) + 256 ^ (s.length + 1) * wordSum t [MOD 65535] :=
          (wordSum_cons a s).symm.add (Nat.ModEq.refl _)

theorem pow_even_mul {n : Nat} (h : n % 2 = 0) (x : Nat) : 256 ^ n * x ≡ x [MOD 65535] := by
  obtain ⟨k, rfl⟩ : ∃ k, n = 2 * k := ⟨n / 2, by omega⟩
  rw [Nat.pow_mul]
  have hone : (256 ^ 2) ^ k ≡ 1 ^ k [MOD 65535] := Nat.ModEq.pow k (by decide)
  simpa using hone.mul_right x

theorem wordSum_append_even {s : List UInt8} (h : s.length % 2 = 0) (t : List UInt8) :
    wordSum (s ++ t) ≡ wordSum s + wordSum t [MOD 65535] :=
  (wordSum_append s t).trans ((Nat.ModEq.refl _).add (pow_even_mul h _))

theorem wordSum_append_odd {s : List UInt8} (h : s.length % 2 ≠ 0) (t : List UInt8) :
    wordSum (s ++ t) ≡ wordSum s + 256 * wordSum t [MOD 65535] := by
  obtain ⟨n, hn⟩ : ∃ n, s.length = n + 1 := ⟨s.length - 1, by omega⟩
  refine (wordSum_append s t).trans ((Nat.ModEq.refl _).add ?_)
  rw [hn, Nat.pow_succ, Nat.mul_assoc]
  exact pow_even_mul (by omega) _

theorem wordSum_le (s : List UInt8) : wordSum s ≤ 65535 * (s.length + 1) := by
  fun_induction wordSum s with
  | case1 => omega
  | case2 a =>
    have := a.toNat_lt
    simp only [List.length_singleton]
    omega
  | case3 a b rest ih =>
    have := a.toNat_lt
    have := b.toNat_lt
    simp only [List.length_cons]
    omega

theorem wordSum_pos {a : UInt8} (h : a ≠ 0) (t : List UInt8) : 0 < wordSum (a :: t) := by
  have hpos : 0 < a.toNat := Nat.pos_of_ne_zero (fun h0 => h (UInt8.toNat_inj.mp h0))
  cases t <;>
  · unfold wordSum
    omega

theorem foldCarry_modEq (x : Nat) : foldCarry x ≡ x [MOD 65535] := by
  unfold foldCarry Nat.ModEq
  omega

theorem foldCarry_le {x : Nat} (h : x ≤ 65535 + 65535) : foldCarry x ≤ 65535 := by
  unfold foldCarry
  omega

theorem swapBytes_modEq {x : Nat} (h : x ≤ 65535) : swapBytes x ≡ 256 * x [MOD 65535] := by
  have hsplit : 256 * x = swapBytes x + 65535 * (x / 256) := by
    unfold swapBytes
    omega
  rw [hsplit]
  simp [Nat.ModEq]

theorem swapBytes_le (x : Nat) : swapBytes x ≤ 65535 := by
  unfold swapBytes
  omega

/-- A 32-bit sum that is not 0 folds to all ones if and only if it is a multiple of 65535. -/
theorem foldCarry_twice {x : Nat} (hlt : x < 2 ^ 32) (hpos : 0 < x) :
    foldCarry (foldCarry x) = 65535 ↔ x ≡ 0 [MOD 65535] := by
  unfold foldCarry Nat.ModEq
  omega

theorem foldCarry_twice_le {x : Nat} (hlt : x < 2 ^ 32) : foldCarry (foldCarry x) ≤ 65535 := by
  unfold foldCarry
  omega

theorem wordSum_eq_zero {data : List UInt8} : wordSum data = 0 ↔ ∀ b ∈ data, b = 0 := by
  fun_induction wordSum data with
  | case1 => simp
  | case2 a =>
    have ha : a.toNat = 0 ↔ a = 0 := by rw [← UInt8.toNat_inj]; rfl
    simp only [List.mem_singleton, forall_eq, ← ha]
    omega
  | case3 a b rest ih =>
    have ha : a.toNat = 0 ↔ a = 0 := by rw [← UInt8.toNat_inj]; rfl
    have hb : b.toNat = 0 ↔ b = 0 := by rw [← UInt8.toNat_inj]; rfl
    simp only [List.mem_cons, forall_eq_or_imp, ← ih, ← ha, ← hb]
    omega

theorem foldCarry_eq_zero {x : Nat} : foldCarry x = 0 ↔ x = 0 := by
  unfold foldCarry
  omega

theorem swapBytes_eq_zero {x : Nat} (h : x ≤ 65535) : swapBytes x = 0 ↔ x = 0 := by
  unfold swapBytes
  omega

end MultiIp.Lib
