import MultiIp.Lib.Checksum
import MultiIp.Lwip.IpAddr

/-!
# Checksums

`lwip-1.4.1/src/core/ipv4/inet_chksum.c`. No buffer is longer than a `u16_t` can
say, so the 32-bit sums do not overflow and are numbers here. Buffers begin at even addresses.
-/

namespace MultiIp.Lwip

open Lib

def lwip_standard_chksum (data : List UInt8) : Nat := foldCarry (foldCarry (wordSum data))

def inet_chksum (data : List UInt8) : UInt16 := ~~~UInt16.ofNat (lwip_standard_chksum data)

/-- The loop of `inet_chksum_pseudo` over the pbufs of a chain. -/
def inet_chksum_pseudo_loop : List (List UInt8) → (acc : Nat) → (swapped : Bool) → Nat × Bool
  | [], acc, swapped => (acc, swapped)
  | q :: rest, acc, swapped =>
    let acc := foldCarry (acc + lwip_standard_chksum q)
    if q.length % 2 ≠ 0 then inet_chksum_pseudo_loop rest (swapBytes acc) (!swapped)
    else inet_chksum_pseudo_loop rest acc swapped

def inet_chksum_pseudo (p : List (List UInt8)) (src dest : ip_addr_t) (proto : UInt8) (proto_len : UInt16) : UInt16 :=
  let r := inet_chksum_pseudo_loop p 0 false
  let acc := if r.2 then swapBytes r.1 else r.1
  let acc := acc + src.toNat % 65536 + src.toNat / 65536 + dest.toNat % 65536 + dest.toNat / 65536 + proto.toNat +
    proto_len.toNat
  ~~~UInt16.ofNat (foldCarry (foldCarry acc))

/-! ## What they check -/

/-- The words add up to minus zero, as they do when the checksum among them is right. -/
def ChksumRight (data : List UInt8) : Prop := wordSum data ≡ 0 [MOD 65535]

instance (data : List UInt8) : Decidable (ChksumRight data) := inferInstanceAs (Decidable (_ % _ = _ % _))

/-- The bytes of a 16-bit number in the order in which they are sent. -/
def shortBytes (x : UInt16) : List UInt8 := [(x >>> 8).toUInt8, x.toUInt8]

/-- What the checksum of a UDP datagram covers besides the datagram. -/
def pseudoHeader (src dest : ip_addr_t) (proto : UInt8) (proto_len : UInt16) : List UInt8 :=
  octets src ++ octets dest ++ [0, proto] ++ shortBytes proto_len

theorem lwip_standard_chksum_modEq (data : List UInt8) : lwip_standard_chksum data ≡ wordSum data [MOD 65535] :=
  (foldCarry_modEq _).trans (foldCarry_modEq _)

theorem wordSum_lt {data : List UInt8} (h : data.length ≤ 65535) : wordSum data < 2 ^ 32 := by
  have := wordSum_le data
  omega

/-- `~x` is 0 for all ones only. -/
theorem complement_eq_zero {x : Nat} (h : x ≤ 65535) : ~~~UInt16.ofNat x = 0 ↔ x = 65535 := by
  rw [← UInt16.toNat_inj, UInt16.toNat_not, UInt16.toNat_ofNat', UInt16.toNat_zero, Nat.mod_eq_of_lt (by omega)]
  have : UInt16.size = 65536 := rfl
  omega

theorem inet_chksum_eq_zero {data : List UInt8} (hlen : data.length ≤ 65535) (hpos : 0 < wordSum data) :
    inet_chksum data = 0 ↔ ChksumRight data := by
  have hlt := wordSum_lt hlen
  rw [inet_chksum, lwip_standard_chksum, complement_eq_zero (foldCarry_twice_le hlt), foldCarry_twice hlt hpos,
    ChksumRight]

/-- The sum so far, without the swap. -/
def unswapped (acc : Nat) (swapped : Bool) : Nat := if swapped then 256 * acc else acc

theorem unswapped_swapBytes {acc : Nat} (h : acc ≤ 65535) (swapped : Bool) :
    unswapped (swapBytes acc) (!swapped) ≡ unswapped acc swapped [MOD 65535] := by
  have hswap := swapBytes_modEq h
  cases swapped with
  | true => exact hswap
  | false =>
    unfold unswapped Nat.ModEq at *
    simp only [Bool.not_false, if_true, Bool.false_eq_true, if_false]
    omega

/-- However the bytes are spread over the chain, the loop adds up their words. -/
theorem inet_chksum_pseudo_loop_spec {p : List (List UInt8)} (hp : ∀ q ∈ p, q.length ≤ 65535) {acc : Nat}
    (hacc : acc ≤ 65535) (swapped : Bool) :
    (inet_chksum_pseudo_loop p acc swapped).1 ≤ 65535 ∧
    unswapped (inet_chksum_pseudo_loop p acc swapped).1 (inet_chksum_pseudo_loop p acc swapped).2 ≡
      unswapped acc swapped + unswapped (wordSum p.flatten) swapped [MOD 65535] := by
  induction p generalizing acc swapped with
  | nil =>
    refine ⟨hacc, ?_⟩
    cases swapped <;> rfl
  | cons q p ih =>
    have hq : lwip_standard_chksum q ≤ 65535 := foldCarry_twice_le (wordSum_lt (hp q List.mem_cons_self))
    have hrest : ∀ r ∈ p, r.length ≤ 65535 := fun r hr => hp r (List.mem_cons_of_mem q hr)
    have hfold : foldCarry (acc + lwip_standard_chksum q) ≤ 65535 := foldCarry_le (by omega)
    have hsum : foldCarry (acc + lwip_standard_chksum q) ≡ acc + wordSum q [MOD 65535] :=
      (foldCarry_modEq _).trans ((Nat.ModEq.refl _).add (lwip_standard_chksum_modEq q))
    unfold inet_chksum_pseudo_loop
    rw [List.flatten_cons]
    dsimp only
    split
    · rename_i hodd
      obtain ⟨hle, hval⟩ := ih hrest (swapBytes_le (foldCarry (acc + lwip_standard_chksum q))) (!swapped)
      refine ⟨hle, hval.trans ?_⟩
      have hback := unswapped_swapBytes hfold swapped
      have happ := wordSum_append_odd hodd p.flatten
      revert hback happ hsum
      cases swapped <;>
      · simp only [unswapped, Bool.not_false, Bool.not_true, if_true, Bool.false_eq_true, if_false, Nat.ModEq]
        omega
    · rename_i heven
      obtain ⟨hle, hval⟩ := ih hrest hfold swapped
      refine ⟨hle, hval.trans ?_⟩
      have happ := wordSum_append_even (not_not.mp heven) p.flatten
      revert happ hsum
      cases swapped <;>
      · simp only [unswapped, if_true, Bool.false_eq_true, if_false, Nat.ModEq]
        omega

theorem wordSum_octets (addr : ip_addr_t) : wordSum (octets addr) = addr.toNat / 65536 + addr.toNat % 65536 := by
  have := addr.toNat_lt
  simp only [octets, wordSum, UInt32.toNat_toUInt8, UInt32.toNat_shiftRight]
  simp only [UInt32.toNat_ofNat, Nat.shiftRight_eq_div_pow, Nat.reducePow, Nat.reduceMod]
  omega

theorem wordSum_shortBytes (x : UInt16) : wordSum (shortBytes x) = x.toNat := by
  have := x.toNat_lt
  simp only [shortBytes, wordSum, UInt16.toNat_toUInt8, UInt16.toNat_shiftRight]
  simp only [UInt16.toNat_ofNat, Nat.shiftRight_eq_div_pow, Nat.reducePow, Nat.reduceMod]
  omega

theorem wordSum_pseudoHeader (src dest : ip_addr_t) (proto : UInt8) (proto_len : UInt16) :
    wordSum (pseudoHeader src dest proto proto_len) =
      src.toNat % 65536 + src.toNat / 65536 + dest.toNat % 65536 + dest.toNat / 65536 + proto.toNat +
        proto_len.toNat := by
  have hsplit : wordSum (pseudoHeader src dest proto proto_len) =
      wordSum (octets src) + wordSum (octets dest) + (0 * 256 + proto.toNat) + wordSum (shortBytes proto_len) := by
    simp only [pseudoHeader, octets, shortBytes, List.cons_append, List.nil_append, wordSum, UInt8.toNat_zero]
    omega
  rw [hsplit, wordSum_octets, wordSum_octets, wordSum_shortBytes]
  omega

/-- However the datagram is spread over the chain, the check is on its bytes and the pseudo header. -/
theorem inet_chksum_pseudo_eq_zero {p : List (List UInt8)} (hp : ∀ q ∈ p, q.length ≤ 65535) (src dest : ip_addr_t)
    {proto : UInt8} (hproto : proto ≠ 0) (proto_len : UInt16) :
    inet_chksum_pseudo p src dest proto proto_len = 0 ↔
      ChksumRight (pseudoHeader src dest proto proto_len ++ p.flatten) := by
  obtain ⟨hle, hval⟩ := inet_chksum_pseudo_loop_spec hp (Nat.zero_le 65535) false
  have hpos : 0 < proto.toNat := Nat.pos_of_ne_zero (fun h => hproto (UInt8.toNat_inj.mp h))
  have happ : wordSum (pseudoHeader src dest proto proto_len ++ p.flatten) ≡
      wordSum (pseudoHeader src dest proto proto_len) + wordSum p.flatten [MOD 65535] :=
    wordSum_append_even (by simp [pseudoHeader, octets, shortBytes]) _
  rw [wordSum_pseudoHeader] at happ
  have hacc : ∃ acc, (if (inet_chksum_pseudo_loop p 0 false).2 then swapBytes (inet_chksum_pseudo_loop p 0 false).1
      else (inet_chksum_pseudo_loop p 0 false).1) = acc ∧ acc ≤ 65535 ∧ acc ≡ wordSum p.flatten [MOD 65535] := by
    refine ⟨_, rfl, ?_⟩
    cases hs : (inet_chksum_pseudo_loop p 0 false).2 with
    | true =>
      rw [hs] at hval
      exact ⟨swapBytes_le _, (swapBytes_modEq hle).trans (by simpa [unswapped] using hval)⟩
    | false =>
      rw [hs] at hval
      exact ⟨hle, by simpa [unswapped] using hval⟩
  obtain ⟨acc, heq, hle', hmod⟩ := hacc
  have hsrc := src.toNat_lt
  have hdest := dest.toNat_lt
  have hpr := proto.toNat_lt
  have hpl := proto_len.toNat_lt
  unfold inet_chksum_pseudo
  dsimp only
  rw [heq, complement_eq_zero (foldCarry_twice_le (by omega)), foldCarry_twice (by omega) (by omega), ChksumRight]
  unfold Nat.ModEq at *
  omega

/-! ## The checksum over a chain -/

/-- The loop is that of `inet_chksum_pseudo`. -/
def inet_chksum_pbuf (p : List (List UInt8)) : UInt16 :=
  let r := inet_chksum_pseudo_loop p 0 false
  ~~~UInt16.ofNat (if r.2 then swapBytes r.1 else r.1)

theorem lwip_standard_chksum_eq_zero {data : List UInt8} : lwip_standard_chksum data = 0 ↔ ∀ b ∈ data, b = 0 := by
  rw [lwip_standard_chksum, foldCarry_eq_zero, foldCarry_eq_zero, wordSum_eq_zero]

theorem inet_chksum_pseudo_loop_zero {p : List (List UInt8)} (hp : ∀ q ∈ p, q.length ≤ 65535) {acc : Nat}
    (hacc : acc ≤ 65535) (swapped : Bool) :
    (inet_chksum_pseudo_loop p acc swapped).1 = 0 ↔ acc = 0 ∧ ∀ b ∈ p.flatten, b = 0 := by
  induction p generalizing acc swapped with
  | nil => simp [inet_chksum_pseudo_loop]
  | cons q p ih =>
    have hq : lwip_standard_chksum q ≤ 65535 := foldCarry_twice_le (wordSum_lt (hp q List.mem_cons_self))
    have hrest : ∀ r ∈ p, r.length ≤ 65535 := fun r hr => hp r (List.mem_cons_of_mem q hr)
    have hfold : foldCarry (acc + lwip_standard_chksum q) ≤ 65535 := foldCarry_le (by omega)
    have hzero : foldCarry (acc + lwip_standard_chksum q) = 0 ↔ acc = 0 ∧ ∀ b ∈ q, b = 0 := by
      rw [foldCarry_eq_zero, Nat.add_eq_zero_iff, lwip_standard_chksum_eq_zero]
    have hall : (∀ b ∈ (q :: p).flatten, b = 0) ↔ (∀ b ∈ q, b = 0) ∧ ∀ b ∈ p.flatten, b = 0 := by
      rw [List.flatten_cons, List.forall_mem_append]
    unfold inet_chksum_pseudo_loop
    dsimp only
    split
    · rw [ih hrest (swapBytes_le _), swapBytes_eq_zero hfold, hzero, hall, and_assoc]
    · rw [ih hrest hfold, hzero, hall, and_assoc]

/-- The sum over nothing but zeros is 0, which is not what a right checksum gives. -/
theorem inet_chksum_pbuf_eq_zero {p : List (List UInt8)} (hp : ∀ q ∈ p, q.length ≤ 65535) :
    inet_chksum_pbuf p = 0 ↔ ChksumRight p.flatten ∧ ∃ b ∈ p.flatten, b ≠ 0 := by
  obtain ⟨hle, hval⟩ := inet_chksum_pseudo_loop_spec hp (Nat.zero_le 65535) false
  have hnull := inet_chksum_pseudo_loop_zero hp (Nat.zero_le 65535) false
  have hacc : ∃ acc, (if (inet_chksum_pseudo_loop p 0 false).2 then swapBytes (inet_chksum_pseudo_loop p 0 false).1
      else (inet_chksum_pseudo_loop p 0 false).1) = acc ∧ acc ≤ 65535 ∧ acc ≡ wordSum p.flatten [MOD 65535] ∧
      (acc = 0 ↔ ∀ b ∈ p.flatten, b = 0) := by
    refine ⟨_, rfl, ?_⟩
    simp only [true_and] at hnull
    cases hs : (inet_chksum_pseudo_loop p 0 false).2 with
    | true =>
      rw [hs] at hval
      rw [if_pos rfl, swapBytes_eq_zero hle]
      exact ⟨swapBytes_le _, (swapBytes_modEq hle).trans (by simpa [unswapped] using hval), hnull⟩
    | false =>
      rw [hs] at hval
      rw [if_neg Bool.false_ne_true]
      exact ⟨hle, by simpa [unswapped] using hval, hnull⟩
  obtain ⟨acc, heq, hle', hmod, hzero⟩ := hacc
  have hsome : (∃ b ∈ p.flatten, b ≠ 0) ↔ acc ≠ 0 := by
    rw [Ne, hzero]
    simp only [not_forall, exists_prop, ne_eq]
  unfold inet_chksum_pbuf
  dsimp only
  rw [heq, complement_eq_zero hle', hsome, ChksumRight]
  unfold Nat.ModEq at *
  omega

end MultiIp.Lwip
