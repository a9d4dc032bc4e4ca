import MultiIp.Board.Transit
import MultiIp.Lib.Detect

/-!
# Damaged frames

A frame with a UDP datagram and its checksum, in which one byte behind the first
of the IP header was changed: the receiver drops it, or the datagram that
comes out is the one that was sent.
-/

namespace MultiIp.Board

open Lwip Lib

/-! ## One changed byte -/

section Set

variable {l : List UInt8} {m k n : Nat} {x : UInt8}

theorem shortOf_set (h : m < k ∨ k + 1 < m) : shortOf (l.set m x) k = shortOf l k := by
  unfold shortOf
  rw [List.getElem?_set_ne (by omega), List.getElem?_set_ne (by omega)]

theorem longOf_set (h : m < k ∨ k + 3 < m) : longOf (l.set m x) k = longOf l k := by
  unfold longOf
  rw [shortOf_set (by omega), shortOf_set (by omega)]

theorem slice_set_outside (h : m < k ∨ k + n ≤ m) : ((l.set m x).drop k).take n = (l.drop k).take n := by
  rcases h with hlt | hge
  · rw [List.drop_set_of_lt hlt]
  · rw [List.drop_set, if_neg (by omega), List.take_set_of_le (by omega)]

theorem slice_set_inside (hle : k ≤ m) : ((l.set m x).drop k).take n = ((l.drop k).take n).set (m - k) x := by
  rw [List.drop_set, if_neg (by omega), List.take_set]

/-- Behind the same front, a right checksum is right for one value of each byte. -/
theorem chksumRight_set (hm : m < l.length) {front : List UInt8} (h : ChksumRight (front ++ l))
    (h' : ChksumRight (front ++ l.set m x)) : x = l[m] := by
  have hset : front ++ l.set m x = (front ++ l).set (front.length + m) x := by simp
  have hlen : front.length + m < (front ++ l).length := by
    rw [List.length_append]
    omega
  rw [hset] at h'
  have hx := (wordSum_set_modEq hlen).mp (h'.trans h.symm)
  simpa [List.getElem_append_right] using hx

/-- A slice with a right checksum: the byte in it was not changed. -/
theorem set_eq_of_chksum (hle : k ≤ m) (hlt : m < k + n) (hm : m < l.length) (front : List UInt8)
    (h : ChksumRight (front ++ (l.drop k).take n)) (h' : ChksumRight (front ++ ((l.set m x).drop k).take n)) :
    l.set m x = l := by
  have hlen : m - k < ((l.drop k).take n).length := by
    rw [List.length_take, List.length_drop]
    omega
  rw [slice_set_inside hle] at h'
  have hx := chksumRight_set hlen h h'
  rw [List.getElem_take, List.getElem_drop] at hx
  rw [hx]
  simp only [Nat.add_sub_cancel' hle, List.set_getElem_self]

end Set

/-! ## What the checks see -/

section Checks

variable {net : Net} {p : RxPbuf} {inp : NetifPtr} {d : Datagram}

/-- The IP header of a datagram that comes out has passed its check. -/
theorem ethernet_input_udp_chksum (h : ethernet_input_udp net p = some (inp, d)) :
    p.byteAt SIZEOF_ETH_HDR >>> 4 = 4 ∧
      inet_chksum ((List.range (ipHlen (p.byteAt SIZEOF_ETH_HDR))).map (p.hide SIZEOF_ETH_HDR).byteAt) = 0 := by
  have hlen := (ethernet_input_udp_eq h).1
  unfold ethernet_input_udp at h
  rw [RxPbuf.pbuf_header_hide (by omega)] at h
  split at h
  · cases h
  · dsimp only at h
    split at h
    · cases h
    · split at h
      · cases h
      · obtain ⟨d', hip, -⟩ := Option.map_eq_some_iff.mp h
        unfold ip_input at hip
        dsimp only at hip
        rw [RxPbuf.hide_byteAt, Nat.add_zero] at hip
        split at hip
        · cases hip
        · rename_i hversion
          split at hip
          · cases hip
          · split at hip
            · cases hip
            · rename_i hsum
              exact ⟨not_not.mp hversion, not_not.mp hsum⟩

theorem ipHeader_chksum (h : ethernet_input_udp net p = some (inp, d)) :
    ChksumRight ((p.bytes.drop SIZEOF_ETH_HDR).take (ipHlen (p.byteAt SIZEOF_ETH_HDR))) := by
  obtain ⟨hversion, hsum⟩ := ethernet_input_udp_chksum h
  obtain ⟨-, hhlen, -⟩ := ethernet_input_udp_header h
  have hle := ipHlen_le (p.byteAt SIZEOF_ETH_HDR)
  have hlen := RxPbuf.hide_len (p := p) (h := SIZEOF_ETH_HDR) (by omega)
  have hbytes : (List.range (ipHlen (p.byteAt SIZEOF_ETH_HDR))).map (p.hide SIZEOF_ETH_HDR).byteAt =
      (p.bytes.drop SIZEOF_ETH_HDR).take (ipHlen (p.byteAt SIZEOF_ETH_HDR)) := by
    rw [← RxPbuf.hide_bytes (by omega)]
    exact map_byteAt_take (by omega)
  rcases Nat.eq_zero_or_pos (ipHlen (p.byteAt SIZEOF_ETH_HDR)) with hzero | hpos
  · rw [hzero]
    rfl
  · rw [← hbytes]
    refine (inet_chksum_eq_zero (by simp; omega) ?_).mp hsum
    obtain ⟨n, hn⟩ : ∃ n, ipHlen (p.byteAt SIZEOF_ETH_HDR) = n + 1 := ⟨_, (Nat.succ_pred_eq_of_pos hpos).symm⟩
    rw [hn, List.range_succ_eq_map, List.map_cons, RxPbuf.hide_byteAt, Nat.add_zero]
    refine wordSum_pos ?_ _
    intro hzero
    rw [hzero] at hversion
    exact absurd hversion (by decide)

/-- The check of an intact datagram: its checksum is 0, or right. -/
theorem udpDatagram_chksum {q : RxPbuf} (hq : q.Whole) {src_ip dest_ip : ip_addr_t}
    (h : (udpDatagram q src_ip dest_ip).intact = true) :
    q.shortAt 6 = 0 ∨ ChksumRight (pseudoHeader src_ip dest_ip IP_PROTO_UDP q.tot_len ++ q.bytes) := by
  simp only [udpDatagram, Bool.and_eq_true, Bool.or_eq_true, beq_iff_eq] at h
  refine h.1.imp_right (fun hsum => ?_)
  rwa [inet_chksum_pseudo_eq_zero (segs_length hq) _ _ (by decide), segs_flatten] at hsum

end Checks

/-! ## A damaged datagram -/

section Damaged

variable {frame : List UInt8} {h : UdpHeaders} {m : Nat} {x : UInt8}

/-- A change in the checksum of the datagram or behind it leaves the headers as they are. -/
theorem IntactUdp.set (hf : IntactUdp frame h) (hm : SIZEOF_ETH_HDR + h.hlen + 6 ≤ m)
    {c : UInt16} (hc : shortOf (frame.set m x) (SIZEOF_ETH_HDR + h.hlen + 6) = some c)
    (hright : c = 0 ∨ ChksumRight (pseudoHeader h.src_ip h.dest_ip IP_PROTO_UDP h.udp_len ++
      ((frame.set m x).drop (SIZEOF_ETH_HDR + h.hlen)).take h.udp_len.toNat)) :
    IntactUdp (frame.set m x) { h with chksum := c } := by
  have h14 : SIZEOF_ETH_HDR = 14 := rfl
  have h20 : 20 ≤ h.hlen := hf.hlen
  obtain ⟨offset, hoffset, hzero⟩ := hf.whole
  refine ⟨?_, ?_, hf.version, hf.hlen, ?_, hf.room, ?_, ⟨offset, ?_, hzero⟩, ?_, ?_, ?_, ?_, ?_, ?_, ?_, hc, hright⟩
  · rw [shortOf_set (by omega)]
    exact hf.type
  · rw [List.getElem?_set_ne (by omega)]
    exact hf.vhl
  · rw [shortOf_set (by omega)]
    exact hf.ip_len
  · rw [List.length_set]
    exact hf.fits
  · rw [shortOf_set (by omega)]
    exact hoffset
  · rw [List.getElem?_set_ne (by omega)]
    exact hf.proto
  · rw [longOf_set (by omega)]
    exact hf.src_ip
  · rw [longOf_set (by omega)]
    exact hf.dest_ip
  · show ChksumRight (((frame.set m x).drop SIZEOF_ETH_HDR).take h.hlen)
    rw [slice_set_outside (by omega)]
    exact hf.ip_chksum
  · show shortOf (frame.set m x) (SIZEOF_ETH_HDR + h.hlen) = some h.src
    rw [shortOf_set (by omega)]
    exact hf.src
  · show shortOf (frame.set m x) (SIZEOF_ETH_HDR + h.hlen + 2) = some h.dest
    rw [shortOf_set (by omega)]
    exact hf.dest
  · show shortOf (frame.set m x) (SIZEOF_ETH_HDR + h.hlen + 4) = some h.udp_len
    rw [shortOf_set (by omega)]
    exact hf.udp_len

/-- The datagram has the addresses, the ports and the data of the frame. -/
structure TakenFrom (d : Datagram) (frame : List UInt8) (h : UdpHeaders) : Prop where
  src_ip : d.src_ip = h.src_ip
  dest_ip : d.dest_ip = h.dest_ip
  src : d.src = h.src
  dest : d.dest = h.dest
  payload : d.payload.segs.flatten =
    (frame.drop (SIZEOF_ETH_HDR + h.hlen + UDP_HLEN)).take (h.udp_len.toNat - UDP_HLEN)

theorem taken_intact {net : Net} {p : RxPbuf} {inp : NetifPtr} {d : Datagram} (hp : p.Whole) (hf : IntactUdp p.bytes h)
    (hfirst : HeadersInFirst p h) (hin : ethernet_input_udp net p = some (inp, d)) : TakenFrom d p.bytes h := by
  obtain ⟨hc, hpay⟩ := ethernet_input_udp_unchanged hp hf hfirst hin
  exact ⟨hc.src_ip, hc.dest_ip, hc.src, hc.dest, hpay⟩

/-- A change in the checksum or behind the datagram is not seen. -/
theorem TakenFrom.of_set {d : Datagram} {c : UInt16} (h' : TakenFrom d (frame.set m x) { h with chksum := c })
    (hm : m < SIZEOF_ETH_HDR + h.hlen + UDP_HLEN ∨
      SIZEOF_ETH_HDR + h.hlen + UDP_HLEN + (h.udp_len.toNat - UDP_HLEN) ≤ m) : TakenFrom d frame h :=
  ⟨h'.src_ip, h'.dest_ip, h'.src, h'.dest, h'.payload.trans (slice_set_outside hm)⟩

/-- What comes out of the frame with one byte changed is what was in it. -/
theorem damaged_unchanged {net : Net} {p : RxPbuf} {inp : NetifPtr} {d : Datagram} (hp : p.Whole)
    (hf : IntactUdp frame h) (hsum : h.chksum ≠ 0) (hm : SIZEOF_ETH_HDR < m) (hb : p.bytes = frame.set m x)
    (hin : ethernet_input_udp net p = some (inp, d)) (hd : d.intact = true) : TakenFrom d frame h := by
  have h14 : SIZEOF_ETH_HDR = 14 := rfl
  have h8 : UDP_HLEN = 8 := rfl
  have h20 : 20 ≤ h.hlen := hf.hlen
  have hroom := hf.room
  have hfits := hf.fits
  have hbytes : p.bytes.length = frame.length := by rw [hb, List.length_set]
  obtain ⟨hlen, hpart, hd_eq⟩ := ethernet_input_udp_eq hin
  have hvhl : p.byteAt SIZEOF_ETH_HDR = h.vhl := by
    refine byteAt_of_bytes (by omega) ?_
    rw [hb, List.getElem?_set_ne (by omega)]
    exact hf.vhl
  have hhlen : ipHlen (p.byteAt SIZEOF_ETH_HDR) = h.hlen := by rw [hvhl]; rfl
  have hfirst := ethernet_input_udp_intact hin hd
  have hip := ipHeader_chksum hin
  rw [hhlen] at hfirst hip hpart hd_eq
  rw [hb] at hip
  have hsame : frame.set m x = frame → TakenFrom d frame h := fun heq => by
    rw [heq] at hb
    exact hb ▸ taken_intact hp (hb ▸ hf) hfirst hin
  rcases Nat.lt_or_ge m (SIZEOF_ETH_HDR + h.hlen) with hlt | hge
  · exact hsame (set_eq_of_chksum (by omega) hlt (by omega) [] hf.ip_chksum hip)
  · have hip_len : p.shortAt (SIZEOF_ETH_HDR + 2) = h.ip_len := by
      refine shortAt_of_bytes (by omega) ?_
      rw [hb, shortOf_set (by omega)]
      exact hf.ip_len
    have hsrc : p.longAt (SIZEOF_ETH_HDR + 12) = h.src_ip := by
      refine longAt_of_bytes (by omega) ?_
      rw [hb, longOf_set (by omega)]
      exact hf.src_ip
    have hdest : p.longAt (SIZEOF_ETH_HDR + 16) = h.dest_ip := by
      refine longAt_of_bytes (by omega) ?_
      rw [hb, longOf_set (by omega)]
      exact hf.dest_ip
    obtain ⟨hwhole, htot, hudp⟩ := udpPart_bytes hp (by omega) hip_len (by omega) (by omega) hpart
    rw [hd_eq, hsrc, hdest] at hd
    have hcheck := udpDatagram_chksum hwhole hd
    have hchksum : ((ipPart p).hide h.hlen).shortAt 6 = p.shortAt (SIZEOF_ETH_HDR + h.hlen + 6) := by
      rw [RxPbuf.hide_shortAt, ipPart, RxPbuf.realloc_shortAt, RxPbuf.hide_shortAt, Nat.add_assoc]
    have hc : shortOf (frame.set m x) (SIZEOF_ETH_HDR + h.hlen + 6) =
        some (p.shortAt (SIZEOF_ETH_HDR + h.hlen + 6)) := by
      rw [← hb]
      exact shortOf_bytes (by omega)
    have hudp_len := UdpHeaders.udp_len_toNat (h := h) (by omega)
    rw [hchksum, htot, hudp, hb] at hcheck
    by_cases hunseen : SIZEOF_ETH_HDR + h.hlen + 6 ≤ m ∧
        (m < SIZEOF_ETH_HDR + h.hlen + UDP_HLEN ∨ SIZEOF_ETH_HDR + h.ip_len.toNat ≤ m)
    · have hset := hf.set hunseen.1 hc hcheck
      rw [← hb] at hset
      exact (hb ▸ taken_intact hp hset hfirst hin).of_set (by omega)
    · have hkept := shortOf_set (l := frame) (x := x) (m := m) (k := SIZEOF_ETH_HDR + h.hlen + 6) (by omega)
      rw [hkept, hf.chksum] at hc
      rw [← Option.some.inj hc] at hcheck
      have hright := hf.udp_chksum.resolve_left hsum
      exact hsame (set_eq_of_chksum hge (by omega) (by omega) _ hright (hcheck.resolve_left hsum))

end Damaged

/-! ## Frames that were sent -/

/-- The frame and what may stand behind it, cut into pbufs. -/
structure Arrives (f : Frame) (p : RxPbuf) : Prop where
  whole : p.Whole
  bytes : ∃ ip_id pad, p.bytes = f.bytes ip_id ++ pad

/-- The same, with one byte behind the first of the IP header changed, or none. -/
structure ArrivesDamaged (f : Frame) (p : RxPbuf) : Prop where
  whole : p.Whole
  bytes : ∃ ip_id pad m x, SIZEOF_ETH_HDR < m ∧ p.bytes = (f.bytes ip_id ++ pad).set m x

theorem Arrives.damaged {f : Frame} {p : RxPbuf} (h : Arrives f p) : ArrivesDamaged f p := by
  obtain ⟨hw, ip_id, pad, hb⟩ := h
  refine ⟨hw, ip_id, pad, (f.bytes ip_id ++ pad).length + SIZEOF_ETH_HDR + 1, 0, by omega, ?_⟩
  rw [hb, List.set_eq_of_length_le (by omega)]

theorem udp_chksum_ne_zero (src_ip dst_ip : ip_addr_t) (src dest : UInt16) (data : List UInt8) :
    udp_chksum src_ip dst_ip src dest data ≠ 0 := by
  unfold udp_chksum
  dsimp only
  split
  · decide
  · assumption

section Sent

variable {net : Net} {p : RxPbuf} {inp : NetifPtr} {d : Datagram}

/-- A datagram comes out of the frame of a datagram only. -/
theorem udp_frame_of_input {f : Frame} (ha : ArrivesDamaged f p) (hin : ethernet_input_udp net p = some (inp, d)) :
    ∃ dest src k sport dport data, f = .ip dest src k ∧ k.payload = .udp sport dport data := by
  obtain ⟨-, ip_id, pad, m, x, hm, hb⟩ := ha
  obtain ⟨htype, hhlen, hproto⟩ := ethernet_input_udp_header hin
  have hlen := (ethernet_input_udp_eq hin).1
  have h14 : SIZEOF_ETH_HDR = 14 := rfl
  have h20 : IP_HLEN = 20 := rfl
  cases f with
  | arp dest src hdr =>
    have hshort : shortOf p.bytes 12 = some ETHTYPE_ARP := by
      rw [hb, shortOf_set (by omega), Frame.bytes, List.append_assoc, eth_hdr_type]
    rw [shortOf_bytes (by omega), htype] at hshort
    cases hshort
  | ip dest src k =>
    have hdrop := frame_drop_eth k dest src ip_id pad
    have hip := ipHeader_chksum hin
    have hright : ChksumRight (k.hdr ip_id (inet_chksum (k.hdr ip_id 0))) := ip_hdr_chksum _ _ _ _ _ _ _
    have hheader : ((Frame.bytes ip_id (.ip dest src k) ++ pad).drop SIZEOF_ETH_HDR).take IP_HLEN =
        k.hdr ip_id (inet_chksum (k.hdr ip_id 0)) := by
      rw [hdrop]
      exact List.take_left' (ip_hdr_length _ _ _ _ _ _ _ _)
    rw [← hheader] at hright
    have hget : ∀ j, (Frame.bytes ip_id (.ip dest src k) ++ pad)[SIZEOF_ETH_HDR + j]? =
        (k.hdr ip_id (inet_chksum (k.hdr ip_id 0)) ++ (k.payload.bytes k.src k.dest ++ pad))[j]? := by
      intro j
      rw [← hdrop, List.getElem?_drop]
    generalize Frame.bytes ip_id (.ip dest src k) ++ pad = frame at *
    have hvhl : p.byteAt SIZEOF_ETH_HDR = 0x45 := by
      refine byteAt_of_bytes hlen ?_
      rw [hb, List.getElem?_set_ne (by omega)]
      exact (hget 0).trans rfl
    have hfive : ipHlen 0x45 = IP_HLEN := by decide
    have hbytes : p.bytes.length = frame.length := by rw [hb, List.length_set]
    have hfits := p.bytes_length
    rw [hvhl, hfive] at hhlen hip
    rw [hb] at hip
    have hkept : (frame.set m x)[SIZEOF_ETH_HDR + 9]? = frame[SIZEOF_ETH_HDR + 9]? := by
      by_cases hm9 : m = SIZEOF_ETH_HDR + 9
      · rw [set_eq_of_chksum (by omega) (by omega) (by omega) [] hright hip]
      · rw [List.getElem?_set_ne hm9]
    have hpayload : p.byteAt (SIZEOF_ETH_HDR + 9) = k.payload.proto := by
      refine byteAt_of_bytes (by omega) ?_
      rw [hb, hkept]
      exact (hget 9).trans rfl
    rw [hproto] at hpayload
    cases hk : k.payload with
    | udp sport dport data => exact ⟨dest, src, k, sport, dport, data, rfl, hk⟩
    | icmp_echo seqno =>
      rw [hk] at hpayload
      exact absurd hpayload (by decide : IP_PROTO_UDP ≠ IP_PROTO_ICMP)

/-- An intact datagram that comes out of a UDP frame is the one that was sent. -/
theorem udp_frame_unchanged {k : ip_packet} {sport dport : UInt16} {data : List UInt8}
    (hk : k.payload = .udp sport dport data) (hfits : IP_HLEN + UDP_HLEN + data.length ≤ 65535) {dest src : eth_addr}
    (ha : ArrivesDamaged (.ip dest src k) p) (hin : ethernet_input_udp net p = some (inp, d)) (hd : d.intact = true) :
    d.src_ip = k.src ∧ d.dest_ip = k.dest ∧ d.src = sport ∧ d.dest = dport ∧ d.payload.segs.flatten = data := by
  obtain ⟨hw, ip_id, pad, m, x, hm, hb⟩ := ha
  have hf := frame_intact hk hfits dest src ip_id pad
  obtain ⟨hsrc_ip, hdest_ip, hsrc, hdest, hpay⟩ :=
    damaged_unchanged hw hf (udp_chksum_ne_zero _ _ _ _ _) hm hb hin hd
  refine ⟨hsrc_ip, hdest_ip, hsrc, hdest, hpay.trans ?_⟩
  rw [udpHeaders_hlen, frame_drop_udp hk, udpHeaders_udp_len, udpLen_toNat hfits, Nat.add_sub_cancel_left,
    List.take_left' rfl]

end Sent

end MultiIp.Board
