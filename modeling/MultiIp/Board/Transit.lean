import MultiIp.Board.TxIntact

/-!
# From the frame to the datagram

The receiver's layers, walked through backwards: where a datagram that comes out
of a frame was in the frame.
-/

namespace MultiIp.Board

open Lwip Lib

/-! ## The datagram that comes out -/

theorem udp_input_header_eq {p : RxPbuf} {src_ip dest_ip : ip_addr_t} {d : Datagram}
    (h : udp_input_header p src_ip dest_ip = some d) :
    ipHlen (p.byteAt 0) ≤ p.len.toNat ∧ d = udpDatagram (p.hide (ipHlen (p.byteAt 0))) src_ip dest_ip := by
  unfold udp_input_header at h
  split at h
  · cases h
  · rcases Nat.lt_or_ge p.len.toNat (ipHlen (p.byteAt 0)) with hlt | hge
    · rw [RxPbuf.pbuf_header_hide_fails hlt] at h
      cases h
    · rw [RxPbuf.pbuf_header_hide hge] at h
      cases h
      exact ⟨hge, rfl⟩

/-- The IP packet behind the Ethernet header, cut to its length. -/
def ipPart (p : RxPbuf) : RxPbuf := (p.hide SIZEOF_ETH_HDR).pbuf_realloc (p.shortAt (SIZEOF_ETH_HDR + 2))

theorem ethernet_input_udp_eq {net : Net} {p : RxPbuf} {inp : NetifPtr} {d : Datagram}
    (h : ethernet_input_udp net p = some (inp, d)) :
    SIZEOF_ETH_HDR < p.len.toNat ∧ ipHlen (p.byteAt SIZEOF_ETH_HDR) ≤ (ipPart p).len.toNat ∧
      d = udpDatagram ((ipPart p).hide (ipHlen (p.byteAt SIZEOF_ETH_HDR))) (p.longAt (SIZEOF_ETH_HDR + 12))
        (p.longAt (SIZEOF_ETH_HDR + 16)) := by
  unfold ethernet_input_udp at h
  split at h
  · cases h
  · rename_i hlen
    rw [RxPbuf.pbuf_header_hide (by omega)] at h
    dsimp only at h
    split at h
    · cases h
    · split at h
      · cases h
      · obtain ⟨d', hip, heq⟩ := Option.map_eq_some_iff.mp h
        obtain ⟨-, rfl⟩ := Prod.mk.inj heq
        obtain ⟨hle, hd⟩ := udp_input_header_eq (ip_input_some hip)
        simp only [RxPbuf.realloc_byteAt, RxPbuf.realloc_longAt, RxPbuf.hide_byteAt, RxPbuf.hide_shortAt,
          RxPbuf.hide_longAt, Nat.add_zero] at hle hd
        exact ⟨by omega, hle, hd⟩

/-- The IP packet is the first bytes behind the Ethernet header. -/
theorem ipPart_spec {p : RxPbuf} (hp : p.Whole) (hlen : SIZEOF_ETH_HDR ≤ p.len.toNat) {ip_len : UInt16}
    (hip_len : p.shortAt (SIZEOF_ETH_HDR + 2) = ip_len) (hfits : SIZEOF_ETH_HDR + ip_len.toNat ≤ p.bytes.length) :
    (ipPart p).Whole ∧ (ipPart p).tot_len = ip_len ∧
      (ipPart p).bytes = (p.bytes.drop SIZEOF_ETH_HDR).take ip_len.toNat ∧
      (ipPart p).len.toNat = min (p.len.toNat - SIZEOF_ETH_HDR) ip_len.toNat := by
  have hbytes : (p.hide SIZEOF_ETH_HDR).bytes = p.bytes.drop SIZEOF_ETH_HDR := RxPbuf.hide_bytes hlen
  have hwhole : (p.hide SIZEOF_ETH_HDR).Whole := hp.hide hlen
  have hle : ip_len ≤ (p.hide SIZEOF_ETH_HDR).tot_len := by
    rw [UInt16.le_iff_toNat_le, hwhole, hbytes, List.length_drop]
    omega
  have hcut := RxPbuf.realloc_bytes hwhole hle
  have hcut_len := RxPbuf.realloc_len hwhole hle
  rw [hbytes] at hcut
  rw [RxPbuf.hide_len hlen] at hcut_len
  unfold ipPart
  rw [hip_len]
  exact ⟨.realloc hwhole hle, RxPbuf.realloc_tot_len hwhole hle, hcut, hcut_len⟩

theorem UdpHeaders.udp_len_toNat {h : UdpHeaders} (hroom : h.hlen ≤ h.ip_len.toNat) :
    h.udp_len.toNat = h.ip_len.toNat - h.hlen := by
  have hlt := h.ip_len.toNat_lt
  have hof : (UInt16.ofNat h.hlen).toNat = h.hlen := by
    rw [UInt16.toNat_ofNat']
    omega
  rw [UdpHeaders.udp_len, UInt16.toNat_sub_of_le _ _ (UInt16.le_iff_toNat_le.mpr (by omega)), hof]

theorem udpPart_bytes {p : RxPbuf} (hp : p.Whole) (hlen : SIZEOF_ETH_HDR ≤ p.len.toNat) {h : UdpHeaders}
    (hip_len : p.shortAt (SIZEOF_ETH_HDR + 2) = h.ip_len) (hfits : SIZEOF_ETH_HDR + h.ip_len.toNat ≤ p.bytes.length)
    (hroom : h.hlen ≤ h.ip_len.toNat) (hhlen : h.hlen ≤ (ipPart p).len.toNat) :
    ((ipPart p).hide h.hlen).Whole ∧ ((ipPart p).hide h.hlen).tot_len = h.udp_len ∧
      ((ipPart p).hide h.hlen).bytes = (p.bytes.drop (SIZEOF_ETH_HDR + h.hlen)).take h.udp_len.toNat := by
  obtain ⟨hwhole, htot, hbytes, -⟩ := ipPart_spec hp hlen hip_len hfits
  refine ⟨hwhole.hide hhlen, ?_, ?_⟩
  · show (ipPart p).tot_len - UInt16.ofNat h.hlen = _
    rw [htot, UdpHeaders.udp_len]
  · rw [RxPbuf.hide_bytes hhlen, hbytes, UdpHeaders.udp_len_toNat hroom, List.drop_take, List.drop_drop]

theorem chainOf_flatten {segs : List (List UInt8)} (h : segs.flatten.length < 65536) :
    (chainOf segs).segs.flatten = segs.flatten := by
  rw [chainOf, dif_pos h]

theorem udpDatagram_payload {p : RxPbuf} (hp : p.Whole) (hlen : UDP_HLEN ≤ p.len.toNat) (src_ip dest_ip : ip_addr_t) :
    (udpDatagram p src_ip dest_ip).payload.segs.flatten = p.bytes.drop UDP_HLEN := by
  have hhide := RxPbuf.pbuf_header_hide hlen
  have hwhole := hp.hide hlen
  have hlt := (p.hide UDP_HLEN).tot_len.toNat_lt
  simp only [udpDatagram, hhide]
  rw [chainOf_flatten, segs_flatten, RxPbuf.hide_bytes hlen]
  rw [segs_flatten, ← hwhole]
  exact hlt

section Intact

variable {net : Net} {p : RxPbuf} {h : UdpHeaders} {inp : NetifPtr} {d : Datagram}

/-- What comes out of a frame with an intact datagram is this datagram. -/
theorem ethernet_input_udp_unchanged (hp : p.Whole) (hf : IntactUdp p.bytes h) (hfirst : HeadersInFirst p h)
    (hin : ethernet_input_udp net p = some (inp, d)) :
    Carries d h ∧
      d.payload.segs.flatten = (p.bytes.drop (SIZEOF_ETH_HDR + h.hlen + UDP_HLEN)).take (h.udp_len.toNat - UDP_HLEN) := by
  obtain ⟨-, hhlen, hd⟩ := ethernet_input_udp_eq hin
  unfold HeadersInFirst at hfirst
  have h14 : SIZEOF_ETH_HDR = 14 := rfl
  have h8 : UDP_HLEN = 8 := rfl
  have h20 : 20 ≤ h.hlen := hf.hlen
  have hroom := hf.room
  have hfits := hf.fits
  have hvhl : p.byteAt SIZEOF_ETH_HDR = h.vhl := byteAt_of_bytes (by omega) hf.vhl
  have hip_len : p.shortAt (SIZEOF_ETH_HDR + 2) = h.ip_len := shortAt_of_bytes (by omega) hf.ip_len
  have hsrc : p.longAt (SIZEOF_ETH_HDR + 12) = h.src_ip := longAt_of_bytes (by omega) hf.src_ip
  have hdest : p.longAt (SIZEOF_ETH_HDR + 16) = h.dest_ip := longAt_of_bytes (by omega) hf.dest_ip
  obtain ⟨c, hc, hcarries⟩ := udp_input_header_carries hp hf hfirst
  obtain ⟨-, hceq⟩ := udp_input_header_eq hc
  have hpart : ipPart p = (p.hide SIZEOF_ETH_HDR).pbuf_realloc h.ip_len := by rw [ipPart, hip_len]
  have hbyte : (ipPart p).byteAt 0 = h.vhl := by
    rw [ipPart, RxPbuf.realloc_byteAt, RxPbuf.hide_byteAt, Nat.add_zero, hvhl]
  rw [← hpart, hbyte] at hceq
  rw [hvhl, hsrc, hdest, show ipHlen h.vhl = h.hlen from rfl] at hd
  rw [hvhl, show ipHlen h.vhl = h.hlen from rfl] at hhlen
  refine ⟨?_, ?_⟩
  · rw [hd]
    exact hceq ▸ hcarries
  · obtain ⟨hwhole, htot, hbytes⟩ := udpPart_bytes hp (by omega) hip_len hfits (by omega) hhlen
    have hlen := (ipPart_spec hp (by omega) hip_len hfits).2.2.2
    have hqlen := RxPbuf.hide_len hhlen
    rw [hd, udpDatagram_payload hwhole (by omega), hbytes]
    simp only [List.drop_take, List.drop_drop, Nat.add_assoc]

end Intact

/-! ## The header of a frame that gets through -/

theorem ethernet_input_udp_header {net : Net} {p : RxPbuf} {inp : NetifPtr} {d : Datagram}
    (h : ethernet_input_udp net p = some (inp, d)) :
    p.shortAt 12 = ETHTYPE_IP ∧ SIZEOF_ETH_HDR + ipHlen (p.byteAt SIZEOF_ETH_HDR) ≤ p.len.toNat ∧
      p.byteAt (SIZEOF_ETH_HDR + 9) = IP_PROTO_UDP := by
  obtain ⟨hlen, hhlen, -⟩ := ethernet_input_udp_eq h
  have hle := RxPbuf.realloc_len_le (p.hide SIZEOF_ETH_HDR) (p.shortAt (SIZEOF_ETH_HDR + 2))
  have hhide := RxPbuf.hide_len (p := p) (h := SIZEOF_ETH_HDR) (by omega)
  unfold ipPart at hhlen
  refine ⟨?_, by omega, ?_⟩
  · unfold ethernet_input_udp at h
    split at h
    · cases h
    · split at h
      · cases h
      · rename_i htype
        exact not_not.mp htype
  · unfold ethernet_input_udp at h
    rw [RxPbuf.pbuf_header_hide (by omega)] at h
    split at h
    · cases h
    · dsimp only at h
      split at h
      · cases h
      · split at h
        · cases h
        · obtain ⟨d', hip, -⟩ := Option.map_eq_some_iff.mp h
          unfold ip_input at hip
          dsimp only at hip
          rw [RxPbuf.realloc_byteAt, RxPbuf.hide_byteAt] at hip
          repeat' split at hip
          all_goals first | cases hip | skip
          all_goals assumption

end MultiIp.Board
