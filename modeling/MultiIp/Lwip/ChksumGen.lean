import MultiIp.Lwip.Chksum

/-!
# Checksums that are sent

A checksum is computed with 0 in its place. With the checksum there instead, the
words add up to minus zero, so the receiver's check accepts them.
-/

namespace MultiIp.Lwip

open Lib

theorem inet_chksum_add {data : List UInt8} (h : data.length ≤ 65535) :
    (inet_chksum data).toNat + lwip_standard_chksum data = 65535 := by
  have hle := foldCarry_twice_le (wordSum_lt h)
  rw [inet_chksum, UInt16.toNat_not, UInt16.toNat_ofNat']
  unfold lwip_standard_chksum
  have : UInt16.size = 65536 := rfl
  omega

/-- The words of the data and the checksum of the data. -/
theorem inet_chksum_modEq {data : List UInt8} (h : data.length ≤ 65535) :
    wordSum data + (inet_chksum data).toNat ≡ 0 [MOD 65535] := by
  have hadd := inet_chksum_add h
  have hmod := lwip_standard_chksum_modEq data
  unfold Nat.ModEq at *
  omega

/-- A 16-bit number in the place of 0 adds its value. -/
theorem wordSum_fill {s : List UInt8} (hs : s.length % 2 = 0) (x : UInt16) (t : List UInt8) :
    wordSum (s ++ shortBytes x ++ t) ≡ wordSum (s ++ shortBytes 0 ++ t) + x.toNat [MOD 65535] := by
  have hsplit : ∀ y : UInt16, wordSum (s ++ shortBytes y ++ t) ≡ wordSum s + (y.toNat + wordSum t) [MOD 65535] := by
    intro y
    rw [List.append_assoc]
    refine (wordSum_append_even hs _).trans ((Nat.ModEq.refl _).add ?_)
    refine (wordSum_append_even (by simp [shortBytes]) _).trans ?_
    rw [wordSum_shortBytes]
  have hx := hsplit x
  have h0 := hsplit 0
  simp only [UInt16.toNat_zero] at h0
  unfold Nat.ModEq at *
  omega

/-- The checksum of the data with 0 in its place is right. -/
theorem chksumRight_fill {s t : List UInt8} (hs : s.length % 2 = 0) (hlen : (s ++ shortBytes 0 ++ t).length ≤ 65535) :
    ChksumRight (s ++ shortBytes (inet_chksum (s ++ shortBytes 0 ++ t)) ++ t) :=
  (wordSum_fill hs _ t).trans (inet_chksum_modEq hlen)

/-- The words of the datagram and the pseudo header, and the checksum of both. -/
theorem inet_chksum_pseudo_modEq {p : List (List UInt8)} (hp : ∀ q ∈ p, q.length ≤ 65535) (src dest : ip_addr_t)
    (proto : UInt8) (proto_len : UInt16) :
    wordSum (pseudoHeader src dest proto proto_len ++ p.flatten) +
      (inet_chksum_pseudo p src dest proto proto_len).toNat ≡ 0 [MOD 65535] := by
  obtain ⟨hle, hval⟩ := inet_chksum_pseudo_loop_spec hp (Nat.zero_le 65535) false
  have happ : wordSum (pseudoHeader src dest proto proto_len ++ p.flatten) ≡
      wordSum (pseudoHeader src dest proto proto_len) + wordSum p.flatten [MOD 65535] :=
    wordSum_append_even (by simp [pseudoHeader, octets, shortBytes]) _
  rw [wordSum_pseudoHeader] at happ
  obtain ⟨acc, heq, hle', hmod⟩ : ∃ acc, (if (inet_chksum_pseudo_loop p 0 false).2 then
      swapBytes (inet_chksum_pseudo_loop p 0 false).1 else (inet_chksum_pseudo_loop p 0 false).1) = acc ∧ acc ≤ 65535 ∧
      acc ≡ wordSum p.flatten [MOD 65535] := by
    refine ⟨_, rfl, ?_⟩
    cases hs : (inet_chksum_pseudo_loop p 0 false).2 with
    | true =>
      rw [hs] at hval
      exact ⟨swapBytes_le _, (swapBytes_modEq hle).trans (by simpa [unswapped] using hval)⟩
    | false =>
      rw [hs] at hval
      exact ⟨hle, by simpa [unswapped] using hval⟩
  have hsrc := src.toNat_lt
  have hdest := dest.toNat_lt
  have hpr := proto.toNat_lt
  have hpl := proto_len.toNat_lt
  have hsize : UInt16.size = 65536 := rfl
  unfold inet_chksum_pseudo
  dsimp only
  rw [heq]
  generalize hsum : acc + src.toNat % 65536 + src.toNat / 65536 + dest.toNat % 65536 + dest.toNat / 65536 + proto.toNat +
    proto_len.toNat = x
  have hfold := foldCarry_twice_le (x := x) (by omega)
  have hfmod := (foldCarry_modEq (foldCarry x)).trans (foldCarry_modEq x)
  rw [UInt16.toNat_not, UInt16.toNat_ofNat']
  unfold Nat.ModEq at *
  omega

end MultiIp.Lwip
