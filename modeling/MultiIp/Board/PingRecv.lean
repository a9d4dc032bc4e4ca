import MultiIp.Board.Ping
import MultiIp.Lwip.RxPbuf

/-!
# `ping_recv` on the bytes of a packet

`ping_recv` gets the chain with the IP header in front. It hides the header with
`pbuf_header`, reads the echo header through the payload pointer, and brings the
IP header back if the packet is not its own.
-/

namespace MultiIp.Board

open Lwip

/-! ## The code -/

/-- `IPH_HL(iphdr) * 4`. -/
def ipHlen (first : UInt8) : Nat := (first &&& 0x0f).toNat * 4

theorem ipHlen_le (first : UInt8) : ipHlen first ≤ 60 := by
  have hle : (first &&& 0x0f).toNat ≤ 15 := by
    rw [UInt8.toNat_and]
    exact Nat.and_le_right
  unfold ipHlen
  omega

/-- Runs in the interrupt. Returns the packet as it leaves it, and whether it was consumed. -/
def ping_recv_pbuf (s : Ping) (p : RxPbuf) (addr : ip_addr_t) (now : UInt32) : Ping × RxPbuf × Bool :=
  if !s.s_waiting || s.s_reply_valid then (s, p, false)
  else
    let ip_hlen := ipHlen (p.byteAt 0)
    if p.tot_len < UInt16.ofNat (ip_hlen + 8) then (s, p, false)
    else
      match p.pbuf_header (-ip_hlen) with
      | (q, false) =>
        if q.byteAt 0 = ICMP_ER ∧ q.shortAt 4 = PING_ID ∧ q.shortAt 6 = s.s_seq then
          -- `iphdr` still points to the IP header.
          ({ s with
              s_result :=
                { from_ := addr, seqno := s.s_seq, data_len := q.tot_len - SIZEOF_ICMP_ECHO_HDR,
                  rtt_ms := (now - s.s_send_tick) / PING_RTI_TICKS_PER_MS, ttl := p.byteAt 8 }
              s_waiting := false, s_reply_valid := true }, q, true)
        else (s, (q.pbuf_header ip_hlen).1, false)
      | (q, true) => (s, q, false)

/-- The packet as the rest of the firmware sees it. -/
def icmpPacket (p : RxPbuf) (addr : ip_addr_t) : IcmpPacket :=
  let ip_hlen := ipHlen (p.byteAt 0)
  { addr := addr, ip_hlen := UInt16.ofNat ip_hlen, len := p.len, tot_len := p.tot_len,
    type := p.byteAt ip_hlen, id := p.shortAt (ip_hlen + 4), seqno := p.shortAt (ip_hlen + 6), ttl := p.byteAt 8 }

/-! ## What it does -/

section Recv

variable (s : Ping) (p : RxPbuf) (addr : ip_addr_t) (now : UInt32)

theorem hlen_toNat : (UInt16.ofNat (ipHlen (p.byteAt 0))).toNat = ipHlen (p.byteAt 0) := by
  have := ipHlen_le (p.byteAt 0)
  rw [UInt16.toNat_ofNat']
  omega

/-- On the fields that it reads it is `ping_recv`, and a packet that it does not consume is as it was. -/
theorem ping_recv_pbuf_eq :
    (ping_recv_pbuf s p addr now).1 = ( ping_recv s (icmpPacket p addr) now).1 ∧
    (ping_recv_pbuf s p addr now).2.2 = ( ping_recv s (icmpPacket p addr) now).2 ∧
    ((ping_recv_pbuf s p addr now).2.2 = false → (ping_recv_pbuf s p addr now).2.1 = p) := by
  have hsum : UInt16.ofNat (ipHlen (p.byteAt 0) + 8) = UInt16.ofNat (ipHlen (p.byteAt 0)) + SIZEOF_ICMP_ECHO_HDR :=
    UInt16.ofNat_add _ _
  have hle := UInt16.le_iff_toNat_le (a := UInt16.ofNat (ipHlen (p.byteAt 0))) (b := p.len)
  rw [hlen_toNat] at hle
  unfold ping_recv_pbuf Board.ping_recv icmpPacket
  dsimp only
  by_cases hwait : (!s.s_waiting || s.s_reply_valid) = true
  · rw [if_pos hwait, if_pos hwait]
    exact ⟨rfl, rfl, fun _ => rfl⟩
  · rw [if_neg hwait, if_neg hwait, hsum]
    split
    · exact ⟨rfl, rfl, fun _ => rfl⟩
    · by_cases hlen : ipHlen (p.byteAt 0) ≤ p.len.toNat
      · rw [RxPbuf.pbuf_header_hide hlen]
        dsimp only
        rw [RxPbuf.hide_byteAt, RxPbuf.hide_shortAt, RxPbuf.hide_shortAt, Nat.add_zero, RxPbuf.pbuf_header_back]
        simp only [hle.mpr hlen, true_and]
        split
        · exact ⟨rfl, rfl, fun h => by cases h⟩
        · exact ⟨rfl, rfl, fun _ => rfl⟩
      · rw [RxPbuf.pbuf_header_hide_fails (Nat.lt_of_not_le hlen)]
        dsimp only
        rw [if_neg (fun h => hlen (hle.mp h.1))]
        exact ⟨rfl, rfl, fun _ => rfl⟩

end Recv

/-- `ping_recv` leaves everything alone, or it takes the reply that is waited for. -/
theorem ping_recv_cases (s : Ping) (k : IcmpPacket) (now : UInt32) :
    ping_recv s k now = (s, false) ∨
    (s.s_waiting = true ∧ s.s_reply_valid = false ∧ k.ip_hlen + SIZEOF_ICMP_ECHO_HDR ≤ k.tot_len ∧
      k.ip_hlen ≤ k.len ∧ k.type = ICMP_ER ∧ k.id = PING_ID ∧ k.seqno = s.s_seq ∧
      ping_recv s k now =
        ({ s with
            s_result :=
              { from_ := k.addr, seqno := s.s_seq, data_len := k.tot_len - k.ip_hlen - SIZEOF_ICMP_ECHO_HDR,
                rtt_ms := (now - s.s_send_tick) / PING_RTI_TICKS_PER_MS, ttl := k.ttl }
            s_waiting := false, s_reply_valid := true }, true)) := by
  unfold ping_recv
  split
  · exact Or.inl rfl
  · rename_i hwait
    split
    · exact Or.inl rfl
    · rename_i hshort
      split
      · rename_i hecho
        simp only [Bool.or_eq_true, Bool.not_eq_true', not_or, Bool.not_eq_false, Bool.not_eq_true] at hwait
        exact Or.inr ⟨hwait.1, hwait.2, UInt16.not_lt.mp hshort, hecho.1, hecho.2.1, hecho.2.2.1, hecho.2.2.2, rfl⟩
      · exact Or.inl rfl

/-! ## What a packet carries -/

/-- Two bytes in network order. -/
def shortOf (bytes : List UInt8) (k : Nat) : Option UInt16 :=
  match bytes[k]?, bytes[k + 1]? with
  | some hi, some lo => some (hi.toUInt16 <<< 8 ||| lo.toUInt16)
  | _, _ => none

/-- The length of the IP header of a packet. -/
def headerLength (bytes : List UInt8) : Nat := ipHlen (bytes.headD 0)

/-- The bytes of the packet are an echo reply with this number. -/
structure IsEchoReply (bytes : List UInt8) (seqno : UInt16) : Prop where
  type : bytes[headerLength bytes]? = some ICMP_ER
  id : shortOf bytes (headerLength bytes + 4) = some PING_ID
  seqno : shortOf bytes (headerLength bytes + 6) = some seqno

instance (bytes : List UInt8) (seqno : UInt16) : Decidable (IsEchoReply bytes seqno) :=
  decidable_of_iff (bytes[headerLength bytes]? = some ICMP_ER ∧
      shortOf bytes (headerLength bytes + 4) = some PING_ID ∧ shortOf bytes (headerLength bytes + 6) = some seqno)
    ⟨fun h => ⟨h.1, h.2.1, h.2.2⟩, fun h => ⟨h.type, h.id, h.seqno⟩⟩

/-- The number of bytes behind the echo header. -/
def echoPayload (bytes : List UInt8) : Nat := bytes.length - headerLength bytes - 8

/-- What `ip_input` has checked of a packet before it gets here. -/
structure Accepted (p : RxPbuf) : Prop where
  version : p.byteAt 0 >>> 4 = 4
  tot_len : p.tot_len.toNat = p.len.toNat + p.next.length
  header : ipHlen (p.byteAt 0) ≤ p.tot_len.toNat → ipHlen (p.byteAt 0) ≤ p.len.toNat

/-- If the packet is long enough for an echo header, the header lies in the first pbuf. -/
def EchoInFirst (p : RxPbuf) : Prop :=
  ipHlen (p.byteAt 0) + 8 ≤ p.tot_len.toNat → ipHlen (p.byteAt 0) + 8 ≤ p.len.toNat

theorem shortOf_bytes {p : RxPbuf} {k : Nat} (h : k + 1 < p.len.toNat) : shortOf p.bytes k = some (p.shortAt k) := by
  rw [shortOf, RxPbuf.bytes_getElem (Nat.lt_of_succ_lt h), RxPbuf.bytes_getElem h]
  rfl

theorem headerLength_bytes {p : RxPbuf} (h : 0 < p.len.toNat) : headerLength p.bytes = ipHlen (p.byteAt 0) := by
  have h0 := RxPbuf.bytes_getElem h
  rw [headerLength, List.headD_eq_head?_getD, List.head?_eq_getElem?, h0]
  rfl

/-- The header of an IPv4 packet whose header starts like an echo reply is not empty. -/
theorem hlen_pos {p : RxPbuf} (h : Accepted p) (htype : p.byteAt (ipHlen (p.byteAt 0)) = ICMP_ER) :
    4 ≤ ipHlen (p.byteAt 0) := by
  rcases Nat.eq_zero_or_pos (p.byteAt 0 &&& 0x0f).toNat with hzero | hpos
  · have hlen : ipHlen (p.byteAt 0) = 0 := by rw [ipHlen, hzero]
    have hversion := h.version
    rw [hlen] at htype
    rw [htype] at hversion
    exact absurd hversion (by decide)
  · unfold ipHlen
    omega

end MultiIp.Board
