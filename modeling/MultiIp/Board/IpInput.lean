import MultiIp.Board.PingRecv
import MultiIp.Board.Statements
import MultiIp.Lwip.Chksum

/-!
# From the frame to the control block

`ethernet_input`, `netif_alias_route_filter`, `ip_input` and `udp_input` on the
bytes of a frame. Each layer reads its header through the payload pointer of the
first pbuf and hides it with `pbuf_header` for the next.
-/

namespace MultiIp.Board

open Lwip Lib

def SIZEOF_ETH_HDR : Nat := 14
def IP_HLEN : Nat := 20
def UDP_HLEN : Nat := 8
def IP_PROTO_UDP : UInt8 := 17
def IP_MF : UInt16 := 0x2000
def IP_OFFMASK : UInt16 := 0x1fff

/-! ## The code -/

/-- A chain as the callbacks get it. No chain is longer than its `tot_len` can say. -/
def chainOf (segs : List (List UInt8)) : pbuf :=
  if h : segs.flatten.length < 65536 then
    { segs := segs, tot_len := UInt16.ofNat segs.flatten.length
      tot_len_eq := by rw [UInt16.toNat_ofNat', Nat.mod_eq_of_lt h] }
  else { segs := [], tot_len := 0, tot_len_eq := rfl }

/-- What `udp_input` reads with the payload pointer at the UDP header. The datagram is also dropped if the
header cannot be hidden, because it does not lie in the first pbuf. -/
def udpDatagram (p : RxPbuf) (src_ip dest_ip : ip_addr_t) : Datagram where
  src_ip := src_ip
  dest_ip := dest_ip
  src := p.shortAt 0
  dest := p.shortAt 2
  intact := (p.shortAt 6 == 0 || inet_chksum_pseudo p.segs src_ip dest_ip IP_PROTO_UDP p.tot_len == 0) &&
    !(p.pbuf_header (-UDP_HLEN)).2
  payload := chainOf (p.pbuf_header (-UDP_HLEN)).1.segs

/-- `udp_input` up to the search for the control block. -/
def udp_input_header (p : RxPbuf) (src_ip dest_ip : ip_addr_t) : Option Datagram :=
  if p.tot_len.toNat < ipHlen (p.byteAt 0) + UDP_HLEN then none
  else
    match p.pbuf_header (-ipHlen (p.byteAt 0)) with
    | (p, false) => some (udpDatagram p src_ip dest_ip)
    | (_, true) => none

/-- The interface is up and configured, and the packet is for its address or is a broadcast on it. -/
def ipAccepts (net : Net) (dest : ip_addr_t) (n : NetifPtr) : Bool :=
  netif_is_up (net.netifs n) && !ip_addr_isany (net.netifs n).ip_addr &&
    (dest == (net.netifs n).ip_addr || ip4_addr_isbroadcast dest (net.netifs n))

/-- The loop of `ip_input`: it begins with `inp` and then walks over the list, in which it skips `inp`. -/
def ip_input_netif (net : Net) (inp : NetifPtr) (dest : ip_addr_t) : Option NetifPtr :=
  (inp :: net.list.filter (· ≠ inp)).find? (ipAccepts net dest)

/-- What `ip_input` hands to `udp_input`, if it does. The control block of the ping program in front of it takes
ICMP packets only. -/
def ip_input (net : Net) (p : RxPbuf) (inp : NetifPtr) : Option Datagram :=
  if p.byteAt 0 >>> 4 ≠ 4 then none
  else
    let iphdr_hlen := ipHlen (p.byteAt 0)
    let iphdr_len := p.shortAt 2
    if iphdr_hlen > p.len.toNat ∨ iphdr_len > p.tot_len then none
    else if inet_chksum ((List.range iphdr_hlen).map p.byteAt) ≠ 0 then none
    else
      let p := p.pbuf_realloc iphdr_len
      let src := p.longAt 12
      let dest := p.longAt 16
      let netif := ip_input_netif net inp dest
      -- Packets to the DHCP client port pass whatever their address.
      let dhcp := netif.isNone && p.byteAt 9 == IP_PROTO_UDP && p.shortAt (iphdr_hlen + 2) == DHCP_CLIENT_PORT
      if !dhcp && !ip_addr_isany src && (ip4_addr_isbroadcast src (net.netifs inp) || ip_addr_ismulticast src) then none
      else if netif.isNone && !dhcp then none
      else if p.shortAt 6 &&& (IP_OFFMASK ||| IP_MF) ≠ 0 then none
      else if p.byteAt 9 = IP_PROTO_UDP then udp_input_header p src dest
      else none

/-- `netif_alias_route_filter` for an IP frame. -/
def netif_alias_route_filter_ip (net : Net) (p : RxPbuf) (def_netif : NetifPtr) : NetifPtr :=
  if p.len.toNat ≥ SIZEOF_ETH_HDR + IP_HLEN then netif_alias_route net def_netif (p.longAt (SIZEOF_ETH_HDR + 16))
  else def_netif

/-- The interface and the datagram for which `ethernet_input` gets to the search in `udp_input`. The driver hands
every frame to the physical interface. -/
def ethernet_input_udp (net : Net) (p : RxPbuf) : Option (NetifPtr × Datagram) :=
  if p.len.toNat ≤ SIZEOF_ETH_HDR then none
  else if p.shortAt 12 ≠ ETHTYPE_IP then none
  else
    let inp := netif_alias_route_filter_ip net p .phys
    if !(net.netifs inp).has NETIF_FLAG_ETHARP then none
    else
      match p.pbuf_header (-SIZEOF_ETH_HDR) with
      | (p, false) => (ip_input net p inp).map (fun d => (inp, d))
      | (_, true) => none

/-- Returns the argument with which `udp_rx_callback` is called, if it is. -/
def ethernet_input (b : Board) (p : RxPbuf) (alloc : Bool) (out : Alloc) : Board × Option Nat :=
  match ethernet_input_udp b.net p with
  | none => (b, none)
  | some (inp, d) => (udp_input b inp d alloc out, handedTo b inp d)

/-! ## What a frame carries -/

/-- Four bytes in network order. -/
def longOf (bytes : List UInt8) (k : Nat) : Option UInt32 :=
  match shortOf bytes k, shortOf bytes (k + 2) with
  | some hi, some lo => some (hi.toUInt32 <<< 16 ||| lo.toUInt32)
  | _, _ => none

/-- What the headers of a UDP datagram say. -/
structure UdpHeaders where
  /-- Version and header length. -/
  vhl : UInt8
  ip_len : UInt16
  src_ip : ip_addr_t
  dest_ip : ip_addr_t
  src : UInt16
  dest : UInt16
  /-- 0 if the sender did not compute it. -/
  chksum : UInt16

namespace UdpHeaders

def hlen (h : UdpHeaders) : Nat := ipHlen h.vhl

/-- The length of the datagram with the UDP header. -/
def udp_len (h : UdpHeaders) : UInt16 := h.ip_len - UInt16.ofNat h.hlen

end UdpHeaders

/-- The bytes are an Ethernet frame with an intact UDP datagram that is not a fragment. The frame may be padded. -/
structure IntactUdp (frame : List UInt8) (h : UdpHeaders) : Prop where
  type : shortOf frame 12 = some ETHTYPE_IP
  vhl : frame[14]? = some h.vhl
  version : h.vhl >>> 4 = 4
  hlen : IP_HLEN ≤ h.hlen
  ip_len : shortOf frame 16 = some h.ip_len
  room : h.hlen + UDP_HLEN ≤ h.ip_len.toNat
  fits : SIZEOF_ETH_HDR + h.ip_len.toNat ≤ frame.length
  whole : ∃ offset, shortOf frame 20 = some offset ∧ offset &&& (IP_OFFMASK ||| IP_MF) = 0
  proto : frame[23]? = some IP_PROTO_UDP
  src_ip : longOf frame 26 = some h.src_ip
  dest_ip : longOf frame 30 = some h.dest_ip
  ip_chksum : ChksumRight ((frame.drop SIZEOF_ETH_HDR).take h.hlen)
  src : shortOf frame (SIZEOF_ETH_HDR + h.hlen) = some h.src
  dest : shortOf frame (SIZEOF_ETH_HDR + h.hlen + 2) = some h.dest
  udp_len : shortOf frame (SIZEOF_ETH_HDR + h.hlen + 4) = some h.udp_len
  chksum : shortOf frame (SIZEOF_ETH_HDR + h.hlen + 6) = some h.chksum
  udp_chksum : h.chksum = 0 ∨
    ChksumRight (pseudoHeader h.src_ip h.dest_ip IP_PROTO_UDP h.udp_len ++
      (frame.drop (SIZEOF_ETH_HDR + h.hlen)).take h.udp_len.toNat)

/-- The headers lie in the first pbuf. -/
def HeadersInFirst (p : RxPbuf) (h : UdpHeaders) : Prop := SIZEOF_ETH_HDR + h.hlen + UDP_HLEN ≤ p.len.toNat

instance (p : RxPbuf) (h : UdpHeaders) : Decidable (HeadersInFirst p h) :=
  inferInstanceAs (Decidable (_ ≤ _))

/-! ## Reading within the first pbuf -/

section Read

variable {p : RxPbuf} {k : Nat}

theorem byteAt_of_bytes {x : UInt8} (hk : k < p.len.toNat) (h : p.bytes[k]? = some x) : p.byteAt k = x := by
  rw [RxPbuf.bytes_getElem hk] at h
  exact Option.some.inj h

theorem shortAt_of_bytes {x : UInt16} (hk : k + 1 < p.len.toNat) (h : shortOf p.bytes k = some x) : p.shortAt k = x := by
  rw [shortOf_bytes hk] at h
  exact Option.some.inj h

theorem longAt_of_bytes {x : UInt32} (hk : k + 3 < p.len.toNat) (h : longOf p.bytes k = some x) : p.longAt k = x := by
  rw [longOf, shortOf_bytes (by omega), shortOf_bytes (by omega)] at h
  exact Option.some.inj h

theorem map_byteAt_take (hk : k ≤ p.len.toNat) : (List.range k).map p.byteAt = p.bytes.take k := by
  rw [RxPbuf.bytes, List.take_append_of_le_length (by simpa using hk), ← List.map_take, List.take_range,
    Nat.min_eq_left hk]

end Read

/-! ## An intact datagram -/

/-- The datagram is intact and has these addresses and ports. -/
structure Carries (d : Datagram) (h : UdpHeaders) : Prop where
  src_ip : d.src_ip = h.src_ip
  dest_ip : d.dest_ip = h.dest_ip
  src : d.src = h.src
  dest : d.dest = h.dest
  intact : d.intact = true

section Intact

variable {p : RxPbuf} {h : UdpHeaders}

theorem segs_flatten : p.segs.flatten = p.bytes := by
  simp [RxPbuf.segs, RxPbuf.bytes]

theorem segs_length (hp : p.Whole) : ∀ q ∈ p.segs, q.length ≤ 65535 := by
  have hlen := hp.symm
  have hlt := p.tot_len.toNat_lt
  rw [RxPbuf.bytes_length] at hlen
  intro q hq
  simp only [RxPbuf.segs, List.mem_cons, List.not_mem_nil, or_false] at hq
  rcases hq with rfl | rfl
  · rw [List.length_map, List.length_range]
    omega
  · omega

/-- `udp_input` with the payload pointer at the UDP header. -/
theorem udpDatagram_carries (hp : p.Whole) (hlen : UDP_HLEN ≤ p.len.toNat) (hsrc : p.shortAt 0 = h.src)
    (hdest : p.shortAt 2 = h.dest) (hchksum : p.shortAt 6 = h.chksum) (htot : p.tot_len = h.udp_len)
    (hright : h.chksum = 0 ∨ ChksumRight (pseudoHeader h.src_ip h.dest_ip IP_PROTO_UDP h.udp_len ++ p.bytes)) :
    Carries (udpDatagram p h.src_ip h.dest_ip) h := by
  refine ⟨rfl, rfl, hsrc, hdest, ?_⟩
  have hsum : (p.shortAt 6 == 0 || inet_chksum_pseudo p.segs h.src_ip h.dest_ip IP_PROTO_UDP p.tot_len == 0) = true := by
    rw [Bool.or_eq_true, beq_iff_eq, beq_iff_eq, hchksum, htot,
      inet_chksum_pseudo_eq_zero (segs_length hp) _ _ (by decide), segs_flatten]
    exact hright
  have hhide := RxPbuf.pbuf_header_hide hlen
  simp only [udpDatagram, hsum, hhide, Bool.not_false, Bool.and_self]

section Frame

variable (hp : p.Whole) (hf : IntactUdp p.bytes h) (hfirst : HeadersInFirst p h)

include hf hfirst

theorem frame_chksum : inet_chksum ((List.range h.hlen).map (p.hide SIZEOF_ETH_HDR).byteAt) = 0 := by
  unfold HeadersInFirst at hfirst
  have h14 : SIZEOF_ETH_HDR = 14 := rfl
  have h20 : 20 ≤ h.hlen := hf.hlen
  have hle : h.hlen ≤ 60 := ipHlen_le _
  have hlen := RxPbuf.hide_len (p := p) (h := SIZEOF_ETH_HDR) (by omega)
  have hvhl : (p.hide SIZEOF_ETH_HDR).byteAt 0 = h.vhl := by
    rw [RxPbuf.hide_byteAt]
    exact byteAt_of_bytes (by omega) hf.vhl
  have hbytes : (List.range h.hlen).map (p.hide SIZEOF_ETH_HDR).byteAt = (p.bytes.drop SIZEOF_ETH_HDR).take h.hlen := by
    rw [← RxPbuf.hide_bytes (by omega)]
    exact map_byteAt_take (by omega)
  refine (inet_chksum_eq_zero (by simp; omega) ?_).mpr ?_
  · obtain ⟨n, hn⟩ : ∃ n, h.hlen = n + 1 := ⟨h.hlen - 1, by omega⟩
    rw [hn, List.range_succ_eq_map, List.map_cons, hvhl]
    refine wordSum_pos ?_ _
    intro hzero
    have hversion := hf.version
    rw [hzero] at hversion
    exact absurd hversion (by decide)
  · rw [hbytes]
    exact hf.ip_chksum

include hp

/-- `udp_input` gets the chain behind the Ethernet header, without the padding. -/
theorem udp_input_header_carries :
    ∃ d, udp_input_header ((p.hide SIZEOF_ETH_HDR).pbuf_realloc h.ip_len) h.src_ip h.dest_ip = some d ∧ Carries d h := by
  unfold HeadersInFirst at hfirst
  have h14 : SIZEOF_ETH_HDR = 14 := rfl
  have h8 : UDP_HLEN = 8 := rfl
  have hroom := hf.room
  have hfits := hf.fits
  have hlen := RxPbuf.hide_len (p := p) (h := SIZEOF_ETH_HDR) (by omega)
  have hbytes : (p.hide SIZEOF_ETH_HDR).bytes = p.bytes.drop SIZEOF_ETH_HDR := RxPbuf.hide_bytes (by omega)
  have hwhole : (p.hide SIZEOF_ETH_HDR).Whole := hp.hide (by omega)
  have hle : h.ip_len ≤ (p.hide SIZEOF_ETH_HDR).tot_len := by
    rw [UInt16.le_iff_toNat_le, hwhole, hbytes, List.length_drop]
    omega
  have hcut := RxPbuf.realloc_len hwhole hle
  have htot := RxPbuf.realloc_tot_len hwhole hle
  have hcutb := RxPbuf.realloc_bytes hwhole hle
  have hqw := RxPbuf.Whole.realloc hwhole hle
  have hbyte : ((p.hide SIZEOF_ETH_HDR).pbuf_realloc h.ip_len).byteAt 0 = h.vhl := by
    rw [RxPbuf.realloc_byteAt, RxPbuf.hide_byteAt]
    exact byteAt_of_bytes (by omega) hf.vhl
  have hshort : ∀ k, (((p.hide SIZEOF_ETH_HDR).pbuf_realloc h.ip_len).hide h.hlen).shortAt k =
      p.shortAt (SIZEOF_ETH_HDR + h.hlen + k) := by
    intro k
    rw [RxPbuf.hide_shortAt, RxPbuf.realloc_shortAt, RxPbuf.hide_shortAt, Nat.add_assoc]
  generalize (p.hide SIZEOF_ETH_HDR).pbuf_realloc h.ip_len = q at *
  have hudp_len : h.udp_len.toNat = h.ip_len.toNat - h.hlen := by
    have hhide := RxPbuf.hide_tot_len (p := q) (h := h.hlen) (by rw [htot]; omega)
    rw [← htot, ← hhide]
    exact congrArg (fun n => (n - UInt16.ofNat h.hlen).toNat) htot.symm
  have hqlen := RxPbuf.hide_len (p := q) (h := h.hlen) (by omega)
  refine ⟨udpDatagram (q.hide h.hlen) h.src_ip h.dest_ip, ?_, ?_⟩
  · unfold udp_input_header
    rw [hbyte, htot, show ipHlen h.vhl = h.hlen from rfl, if_neg (Nat.not_lt.mpr hroom),
      RxPbuf.pbuf_header_hide (by omega)]
  · refine udpDatagram_carries (hqw.hide (by omega)) (by omega) ?_ ?_ ?_ ?_ ?_
    · rw [hshort]
      exact shortAt_of_bytes (by omega) hf.src
    · rw [hshort]
      exact shortAt_of_bytes (by omega) hf.dest
    · rw [hshort]
      exact shortAt_of_bytes (by omega) hf.chksum
    · show q.tot_len - UInt16.ofNat h.hlen = h.ip_len - UInt16.ofNat h.hlen
      rw [htot]
    · rw [RxPbuf.hide_bytes (by omega), hcutb, hbytes, List.drop_take, List.drop_drop, ← hudp_len]
      exact hf.udp_chksum

/-- The datagram gets to `udp_input` if the interface takes packets to its address and its source is no broadcast. -/
theorem ip_input_carries {net : Net} {inp : NetifPtr} (haccept : ipAccepts net h.dest_ip inp = true)
    (hbroadcast : ip4_addr_isbroadcast h.src_ip (net.netifs inp) = false)
    (hmulticast : ip_addr_ismulticast h.src_ip = false) :
    ∃ d, ip_input net (p.hide SIZEOF_ETH_HDR) inp = some d ∧ Carries d h := by
  obtain ⟨d, hd, hc⟩ := udp_input_header_carries hp hf hfirst
  have hsum := frame_chksum hf hfirst
  unfold HeadersInFirst at hfirst
  have h14 : SIZEOF_ETH_HDR = 14 := rfl
  have h20 : 20 ≤ h.hlen := hf.hlen
  obtain ⟨offset, hoffset, hzero⟩ := hf.whole
  have hwhole : (p.hide SIZEOF_ETH_HDR).Whole := hp.hide (by omega)
  have hvhl : p.byteAt (SIZEOF_ETH_HDR + 0) = h.vhl := byteAt_of_bytes (by omega) hf.vhl
  have hip_len : p.shortAt (SIZEOF_ETH_HDR + 2) = h.ip_len := shortAt_of_bytes (by omega) hf.ip_len
  have hoff : p.shortAt (SIZEOF_ETH_HDR + 6) = offset := shortAt_of_bytes (by omega) hoffset
  have hproto : p.byteAt (SIZEOF_ETH_HDR + 9) = IP_PROTO_UDP := byteAt_of_bytes (by omega) hf.proto
  have hsrc : p.longAt (SIZEOF_ETH_HDR + 12) = h.src_ip := longAt_of_bytes (by omega) hf.src_ip
  have hdest : p.longAt (SIZEOF_ETH_HDR + 16) = h.dest_ip := longAt_of_bytes (by omega) hf.dest_ip
  have hlen := RxPbuf.hide_len (p := p) (h := SIZEOF_ETH_HDR) (by omega)
  have htot : h.ip_len ≤ (p.hide SIZEOF_ETH_HDR).tot_len := by
    have hfits := hf.fits
    rw [UInt16.le_iff_toNat_le, hwhole, RxPbuf.hide_bytes (by omega), List.length_drop]
    omega
  have hfind : ip_input_netif net inp h.dest_ip = some inp := by
    rw [ip_input_netif, List.find?_cons_of_pos haccept]
  refine ⟨d, ?_, hc⟩
  unfold ip_input
  simp only [RxPbuf.realloc_byteAt, RxPbuf.realloc_shortAt, RxPbuf.realloc_longAt, RxPbuf.hide_byteAt, RxPbuf.hide_shortAt,
    RxPbuf.hide_longAt, hvhl, hip_len, hoff, hproto, hsrc, hdest, hfind, hf.version, hzero, hbroadcast, hmulticast]
  rw [if_neg (by simp), show ipHlen h.vhl = h.hlen from rfl, if_neg, hsum, if_neg (by simp)]
  · simpa using hd
  · rintro (hgt | hgt)
    · omega
    · exact absurd htot (UInt16.not_le.mpr hgt)

/-- The way of the datagram through the layers, on the interface that the filter has chosen. -/
theorem ethernet_input_udp_carries {net : Net} {inp : NetifPtr} (hroute : netif_alias_route net .phys h.dest_ip = inp)
    (hetharp : (net.netifs inp).has NETIF_FLAG_ETHARP = true) (haccept : ipAccepts net h.dest_ip inp = true)
    (hbroadcast : ip4_addr_isbroadcast h.src_ip (net.netifs inp) = false)
    (hmulticast : ip_addr_ismulticast h.src_ip = false) :
    ∃ d, ethernet_input_udp net p = some (inp, d) ∧ Carries d h := by
  obtain ⟨d, hd, hc⟩ := ip_input_carries hp hf hfirst haccept hbroadcast hmulticast
  unfold HeadersInFirst at hfirst
  have h14 : SIZEOF_ETH_HDR = 14 := rfl
  have h20 : 20 ≤ h.hlen := hf.hlen
  have hip : IP_HLEN = 20 := rfl
  have htype : p.shortAt 12 = ETHTYPE_IP := shortAt_of_bytes (by omega) hf.type
  have hdest : p.longAt (SIZEOF_ETH_HDR + 16) = h.dest_ip := longAt_of_bytes (by omega) hf.dest_ip
  have hfilter : netif_alias_route_filter_ip net p .phys = inp := by
    rw [netif_alias_route_filter_ip, if_pos (by omega), hdest, hroute]
  refine ⟨d, ?_, hc⟩
  unfold ethernet_input_udp
  rw [if_neg (by omega), htype, if_neg (by simp), hfilter]
  dsimp only
  rw [hetharp, if_neg (by simp), RxPbuf.pbuf_header_hide (by omega)]
  dsimp only
  rw [hd]
  rfl

end Frame

end Intact

/-! ## A header behind the first pbuf -/

theorem udp_input_header_intact {p : RxPbuf} {src_ip dest_ip : ip_addr_t} {d : Datagram}
    (h : udp_input_header p src_ip dest_ip = some d) (hd : d.intact = true) :
    ipHlen (p.byteAt 0) + UDP_HLEN ≤ p.len.toNat := by
  unfold udp_input_header at h
  by_cases hlen : ipHlen (p.byteAt 0) ≤ p.len.toNat
  · rw [RxPbuf.pbuf_header_hide hlen] at h
    split at h
    · cases h
    · cases h
      have hhide := RxPbuf.hide_len hlen
      by_contra hshort
      have hfail := RxPbuf.pbuf_header_hide_fails (p := p.hide (ipHlen (p.byteAt 0))) (h := UDP_HLEN) (by omega)
      have hfalse : (udpDatagram (p.hide (ipHlen (p.byteAt 0))) src_ip dest_ip).intact = false := by
        simp [udpDatagram, hfail]
      exact Bool.false_ne_true (hfalse.symm.trans hd)
  · rw [RxPbuf.pbuf_header_hide_fails (Nat.lt_of_not_le hlen)] at h
    split at h <;> cases h

theorem ip_input_some {net : Net} {p : RxPbuf} {inp : NetifPtr} {d : Datagram} (h : ip_input net p inp = some d) :
    udp_input_header (p.pbuf_realloc (p.shortAt 2)) ((p.pbuf_realloc (p.shortAt 2)).longAt 12)
      ((p.pbuf_realloc (p.shortAt 2)).longAt 16) = some d := by
  unfold ip_input at h
  dsimp only at h
  repeat' split at h
  all_goals first | exact h | cases h

/-- A datagram whose UDP header does not lie in the first pbuf is never handed to a callback. -/
theorem ethernet_input_udp_intact {net : Net} {p : RxPbuf} {inp : NetifPtr} {d : Datagram}
    (h : ethernet_input_udp net p = some (inp, d)) (hd : d.intact = true) :
    SIZEOF_ETH_HDR + ipHlen (p.byteAt SIZEOF_ETH_HDR) + UDP_HLEN ≤ p.len.toNat := by
  unfold ethernet_input_udp at h
  split at h
  · cases h
  · rename_i heth
    have hhide := RxPbuf.pbuf_header_hide (p := p) (h := SIZEOF_ETH_HDR) (by omega)
    rw [hhide] at h
    dsimp only at h
    split at h
    · cases h
    · split at h
      · cases h
      · obtain ⟨d', hip, heq⟩ := Option.map_eq_some_iff.mp h
        obtain ⟨-, rfl⟩ := Prod.mk.inj heq
        have hudp := udp_input_header_intact (ip_input_some hip) hd
        have hle := hudp.trans (RxPbuf.realloc_len_le _ _)
        rw [RxPbuf.realloc_byteAt, RxPbuf.hide_byteAt, Nat.add_zero, RxPbuf.hide_len (by omega)] at hle
        omega

end MultiIp.Board
