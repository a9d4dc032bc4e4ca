import Mathlib.Data.Nat.GCD.Basic
import Mathlib.Tactic.Ring
import MultiIp.Lib.Checksum

/-!
# What a one's complement sum detects

Modulo 65535 the factor 256 of a byte can be cancelled wherever the byte is, so
no change of a single byte keeps the sum. A whole word can change unnoticed in
one way only: 0 and all ones count the same.
-/

namespace MultiIp.Lib

theorem wordSum_byte (s t : List UInt8) (a : UInt8) :
    wordSum (s ++ a :: t) ≡ 256 ^ (s.length + 1) * a.toNat + (wordSum s + 256 ^ (s.length + 1) * wordSum t) [MOD 65535] := by
  calc wordSum (s ++ a :: t)
      ≡ wordSum s + 256 ^ s.length * wordSum (a :: t) [MOD 65535] := wordSum_append s (a :: t)
    _ ≡ wordSum s + 256 ^ s.length * (a.toNat * 256 + 256 * wordSum t) [MOD 65535] :=
        (Nat.ModEq.refl _).add ((wordSum_cons a t).mul_left _)
    _ = 256 ^ (s.length + 1) * a.toNat + (wordSum s + 256 ^ (s.length + 1) * wordSum t) := by
        rw [Nat.pow_succ]
        ring

/-- No change of one byte keeps the sum. -/
theorem wordSum_byte_inj {s t : List UInt8} {a b : UInt8} :
    wordSum (s ++ a :: t) ≡ wordSum (s ++ b :: t) [MOD 65535] ↔ a = b := by
  refine ⟨fun h => ?_, fun h => h ▸ rfl⟩
  have hsum := ((wordSum_byte s t a).symm.trans h).trans (wordSum_byte s t b)
  have hcop : Nat.gcd 65535 (256 ^ (s.length + 1)) = 1 := by
    have h256 : Nat.Coprime 65535 256 := by decide
    exact h256.pow_right _
  have hmod : a.toNat ≡ b.toNat [MOD 65535] := (hsum.add_right_cancel' _).cancel_left_of_coprime hcop
  have hlta := a.toNat_lt
  have hltb := b.toNat_lt
  exact UInt8.toNat_inj.mp (hmod.eq_of_lt_of_lt (by omega) (by omega))

theorem wordSum_set_modEq {l : List UInt8} {k : Nat} {x : UInt8} (hk : k < l.length) :
    wordSum (l.set k x) ≡ wordSum l [MOD 65535] ↔ x = l[k] := by
  have hset : l.set k x = l.take k ++ x :: l.drop (k + 1) := by rw [List.set_eq_take_append_cons_drop, if_pos hk]
  have hl : wordSum l = wordSum (l.take k ++ l[k] :: l.drop (k + 1)) := by simp
  rw [hset, hl]
  exact wordSum_byte_inj

end MultiIp.Lib
