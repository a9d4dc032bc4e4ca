import MultiIp.Board.Delivery
import MultiIp.Board.IcmpInput

/-!
# Pings are answered

An echo request of `ping_send`, once it arrives where an interface has its address,
is answered, and the reply, once it arrives back, ends the wait.
-/

namespace MultiIp.Board

open Lwip Lib

/-! ## The code -/

/-- `ip_input` up to `raw_input`, with the addresses that it leaves in `current_iphdr_src` and `current_iphdr_dest`. -/
def ip_input_raw (net : Net) (p : RxPbuf) (inp : NetifPtr) : Option (RxPbuf × ip_addr_t × ip_addr_t) :=
  if p.byteAt 0 >>> 4 ≠ 4 then none
  else
    let iphdr_hlen := ipHlen (p.byteAt 0)
    let iphdr_len := p.shortAt 2
    if iphdr_hlen > p.len.toNat ∨ iphdr_len > p.tot_len then none
    else if inet_chksum ((List.range iphdr_hlen).map p.byteAt) ≠ 0 then none
    else
      let p := p.pbuf_realloc iphdr_len
      let src := p.longAt 12
      let dest := p.longAt 16
      let netif := ip_input_netif net inp dest
      let dhcp := netif.isNone && p.byteAt 9 == IP_PROTO_UDP && p.shortAt (iphdr_hlen + 2) == DHCP_CLIENT_PORT
      if !dhcp && !ip_addr_isany src && (ip4_addr_isbroadcast src (net.netifs inp) || ip_addr_ismulticast src) then none
      else if netif.isNone && !dhcp then none
      else if p.shortAt 6 &&& (IP_OFFMASK ||| IP_MF) ≠ 0 then none
      else some (p, src, dest)

/-- The one control block of `raw_input` is that of the ping program. -/
def raw_input (s : Ping) (p : RxPbuf) (src : ip_addr_t) (now : UInt32) : Ping × RxPbuf × Bool :=
  if s.s_ping_pcb ∧ p.byteAt 9 = IP_PROTO_ICMP then ping_recv_pbuf s p src now else (s, p, false)

/-- The ICMP side of `ip_input`. Returns what `icmp_input` hands to `ip_output_if`. -/
def ip_input_icmp (net : Net) (s : Ping) (p : RxPbuf) (inp : NetifPtr) (now : UInt32) (block : Option (Nat → UInt8)) :
    Ping × Option RxPbuf :=
  match ip_input_raw net p inp with
  | none => (s, none)
  | some (p, src, dest) =>
    match raw_input s p src now with
    | (s, _, true) => (s, none)
    | (s, p, false) => (s, if p.byteAt 9 = IP_PROTO_ICMP then icmp_input net p inp src dest block else none)

/-- `ethernet_input` for the ICMP side, with the interface on which the reply is sent. -/
def ethernet_input_icmp (net : Net) (s : Ping) (p : RxPbuf) (now : UInt32) (block : Option (Nat → UInt8)) :
    Ping × Option (NetifPtr × RxPbuf) :=
  if p.len.toNat ≤ SIZEOF_ETH_HDR then (s, none)
  else if p.shortAt 12 ≠ ETHTYPE_IP then (s, none)
  else
    let inp := netif_alias_route_filter_ip net p .phys
    if !(net.netifs inp).has NETIF_FLAG_ETHARP then (s, none)
    else
      match p.pbuf_header (-SIZEOF_ETH_HDR) with
      | (p, false) => ((ip_input_icmp net s p inp now block).1,
          (ip_input_icmp net s p inp now block).2.map (fun r => (inp, r)))
      | (_, true) => (s, none)

/-- `ip_input` on the UDP side makes the same checks. -/
theorem ip_input_eq (net : Net) (p : RxPbuf) (inp : NetifPtr) : ip_input net p inp =
    (ip_input_raw net p inp).bind (fun r =>
      if r.1.byteAt 9 = IP_PROTO_UDP then udp_input_header r.1 r.2.1 r.2.2 else none) := by
  unfold ip_input ip_input_raw
  dsimp only
  repeat' split
  all_goals simp_all

/-! ## A frame with an echo message -/

/-- The bytes are an Ethernet frame with an echo message that is not a fragment. The frame may be padded. -/
structure EchoFrame (frame : List UInt8) (e : EchoPacket) : Prop where
  type : shortOf frame 12 = some ETHTYPE_IP
  packet : ∃ pad, frame.drop SIZEOF_ETH_HDR = e.bytes ++ pad
  formed : e.Formed
  version : e.front.headD 0 >>> 4 = 4
  ip_len : shortOf e.front 2 = some (UInt16.ofNat e.bytes.length)
  whole : ∃ offset, shortOf e.front 6 = some offset ∧ offset &&& (IP_OFFMASK ||| IP_MF) = 0
  proto : e.proto = IP_PROTO_ICMP
  ip_chksum : ChksumRight e.header

/-- The IP header and the echo header lie in the first pbuf. -/
def EchoInFirstOf (p : RxPbuf) (e : EchoPacket) : Prop :=
  SIZEOF_ETH_HDR + IP_HLEN + e.options.length + SIZEOF_ICMP_ECHO_HDR.toNat ≤ p.len.toNat

section Read

variable {s t : List UInt8} {k : Nat}

theorem shortOf_left {x : UInt16} (h : shortOf s k = some x) : shortOf (s ++ t) k = some x := by
  unfold shortOf at h ⊢
  cases hk : s[k]? with
  | none => simp [hk] at h
  | some a =>
    cases hk1 : s[k + 1]? with
    | none => simp [hk, hk1] at h
    | some b =>
      rw [List.getElem?_append_left (List.getElem?_eq_some_iff.mp hk).1,
        List.getElem?_append_left (List.getElem?_eq_some_iff.mp hk1).1, hk, hk1]
      simpa [hk, hk1] using h

end Read

section Frame

variable {p : RxPbuf} {e : EchoPacket} {net : Net} {inp : NetifPtr}

/-- What is read of a packet with an echo message. -/
structure EchoRead (p : RxPbuf) (e : EchoPacket) : Prop where
  hlen : ipHlen (p.byteAt 0) = IP_HLEN + e.options.length
  version : p.byteAt 0 >>> 4 = 4
  ip_len : p.shortAt 2 = UInt16.ofNat e.bytes.length
  whole : p.shortAt 6 &&& (IP_OFFMASK ||| IP_MF) = 0
  ttl : p.byteAt 8 = e.ttl
  proto : p.byteAt 9 = IP_PROTO_ICMP
  src : p.longAt 12 = e.src
  dest : p.longAt 16 = e.dest

theorem EchoFrame.read (hf : EchoFrame p.bytes e) (hfirst : EchoInFirstOf p e) :
    EchoRead (p.hide SIZEOF_ETH_HDR) e := by
  unfold EchoInFirstOf at hfirst
  have h14 : SIZEOF_ETH_HDR = 14 := rfl
  have h20 : IP_HLEN = 20 := rfl
  have h8 : SIZEOF_ICMP_ECHO_HDR.toNat = 8 := rfl
  have hfront := hf.formed.front
  obtain ⟨pad, hpad⟩ := hf.packet
  obtain ⟨offset, hoffset, hzero⟩ := hf.whole
  have hlen := RxPbuf.hide_len (p := p) (h := SIZEOF_ETH_HDR) (by omega)
  have hbytes : (p.hide SIZEOF_ETH_HDR).bytes = e.bytes ++ pad := by
    rw [RxPbuf.hide_bytes (by omega), hpad]
  generalize p.hide SIZEOF_ETH_HDR = q at *
  have hsplit : q.bytes = e.front ++ ([e.ttl, e.proto] ++ shortBytes e.ip_chksum ++ octets e.src ++ octets e.dest ++
      e.options ++ e.message ++ pad) := by
    simp [hbytes, EchoPacket.bytes, EchoPacket.header]
  have hbyte : q.byteAt 0 = e.front.headD 0 := by
    refine byteAt_of_bytes (by omega) ?_
    rw [hsplit]
    cases hcase : e.front with
    | nil => rw [hcase] at hfront; cases hfront
    | cons x l => rfl
  refine ⟨?_, ?_, ?_, ?_, ?_, ?_, ?_, ?_⟩
  · rw [hbyte, hf.formed.hlen]
  · rw [hbyte, hf.version]
  · exact shortAt_of_bytes (by omega) (by rw [hsplit]; exact shortOf_left hf.ip_len)
  · rw [shortAt_of_bytes (by omega) (by rw [hsplit]; exact shortOf_left hoffset), hzero]
  · refine byteAt_of_bytes (by omega) ?_
    rw [hsplit, List.getElem?_append_right (by omega), hfront]
    rfl
  · refine byteAt_of_bytes (by omega) ?_
    rw [hsplit, List.getElem?_append_right (by omega), hfront, ← hf.proto]
    rfl
  · refine longAt_of_bytes (by omega) ?_
    have hsrc : q.bytes = (e.front ++ [e.ttl, e.proto] ++ shortBytes e.ip_chksum) ++ octets e.src ++
        (octets e.dest ++ e.options ++ e.message ++ pad) := by simp [hsplit]
    rw [hsrc]
    exact longOf_append (by simp [hfront]) _
  · refine longAt_of_bytes (by omega) ?_
    have hdest : q.bytes = (e.front ++ [e.ttl, e.proto] ++ shortBytes e.ip_chksum ++ octets e.src) ++ octets e.dest ++
        (e.options ++ e.message ++ pad) := by simp [hsplit]
    rw [hdest]
    exact longOf_append (by simp [hfront]) _

theorem EchoFrame.chksum (hf : EchoFrame p.bytes e) (hfirst : EchoInFirstOf p e) :
    inet_chksum ((List.range (IP_HLEN + e.options.length)).map (p.hide SIZEOF_ETH_HDR).byteAt) = 0 := by
  unfold EchoInFirstOf at hfirst
  have h14 : SIZEOF_ETH_HDR = 14 := rfl
  have h20 : IP_HLEN = 20 := rfl
  have h8 : SIZEOF_ICMP_ECHO_HDR.toNat = 8 := rfl
  have hlen := RxPbuf.hide_len (p := p) (h := SIZEOF_ETH_HDR) (by omega)
  have hheader := hf.formed.length
  obtain ⟨pad, hpad⟩ := hf.packet
  have hbytes : (List.range (IP_HLEN + e.options.length)).map (p.hide SIZEOF_ETH_HDR).byteAt = e.header := by
    rw [map_byteAt_take (by omega), RxPbuf.hide_bytes (by omega), hpad, EchoPacket.bytes, List.append_assoc,
      List.take_left' hheader]
  have hlt := p.len.toNat_lt
  rw [hbytes]
  refine (inet_chksum_eq_zero (by omega) ?_).mpr hf.ip_chksum
  refine Nat.pos_of_ne_zero (fun hz => ?_)
  have hproto := wordSum_eq_zero.mp hz e.proto (by simp [EchoPacket.header])
  rw [hf.proto] at hproto
  exact absurd hproto (by decide)

/-- The message gets to `raw_input` if the interface takes packets to its address and its source is no broadcast. -/
theorem EchoFrame.accepted (hp : p.Whole) (hf : EchoFrame p.bytes e) (hfirst : EchoInFirstOf p e)
    (haccept : ipAccepts net e.dest inp = true) (hbroadcast : ip4_addr_isbroadcast e.src (net.netifs inp) = false)
    (hmulticast : ip_addr_ismulticast e.src = false) :
    ip_input_raw net (p.hide SIZEOF_ETH_HDR) inp =
      some ((p.hide SIZEOF_ETH_HDR).pbuf_realloc (UInt16.ofNat e.bytes.length), e.src, e.dest) := by
  have hread := hf.read hfirst
  have hsum := hf.chksum hfirst
  unfold EchoInFirstOf at hfirst
  have h14 : SIZEOF_ETH_HDR = 14 := rfl
  have h20 : IP_HLEN = 20 := rfl
  have h8 : SIZEOF_ICMP_ECHO_HDR.toNat = 8 := rfl
  have hlen := RxPbuf.hide_len (p := p) (h := SIZEOF_ETH_HDR) (by omega)
  obtain ⟨pad, hpad⟩ := hf.packet
  have hwhole : (p.hide SIZEOF_ETH_HDR).Whole := hp.hide (by omega)
  have hle : UInt16.ofNat e.bytes.length ≤ (p.hide SIZEOF_ETH_HDR).tot_len := by
    have hfits := hf.formed.fits
    rw [UInt16.le_iff_toNat_le, hwhole, RxPbuf.hide_bytes (by omega), hpad, List.length_append, UInt16.toNat_ofNat']
    omega
  have hfind : ip_input_netif net inp e.dest = some inp := by
    rw [ip_input_netif, List.find?_cons_of_pos haccept]
  unfold ip_input_raw
  simp only [RxPbuf.realloc_byteAt, RxPbuf.realloc_shortAt, RxPbuf.realloc_longAt, hread.hlen, hread.ip_len, hread.whole,
    hread.src, hread.dest, hfind, hread.version, hbroadcast, hmulticast]
  rw [if_neg (by simp), if_neg, hsum, if_neg (by simp)]
  · simp
  · rintro (hgt | hgt)
    · omega
    · exact absurd hle (UInt16.not_le.mpr hgt)

/-- The packet as `ip_input` hands it on: without the padding, and with the room of the Ethernet header in front. -/
structure Handed (q : RxPbuf) (e : EchoPacket) : Prop where
  whole : q.Whole
  bytes : q.bytes = e.bytes
  first : IP_HLEN + e.options.length + SIZEOF_ICMP_ECHO_HDR.toNat ≤ q.len.toNat
  room : SIZEOF_ETH_HDR ≤ q.payload

theorem EchoFrame.handed (hp : p.Whole) (hf : EchoFrame p.bytes e) (hfirst : EchoInFirstOf p e) :
    Handed ((p.hide SIZEOF_ETH_HDR).pbuf_realloc (UInt16.ofNat e.bytes.length)) e := by
  unfold EchoInFirstOf at hfirst
  have h14 : SIZEOF_ETH_HDR = 14 := rfl
  have h20 : IP_HLEN = 20 := rfl
  have h8 : SIZEOF_ICMP_ECHO_HDR.toNat = 8 := rfl
  have hlen := RxPbuf.hide_len (p := p) (h := SIZEOF_ETH_HDR) (by omega)
  have hfits := hf.formed.fits
  have hrest := hf.formed.rest
  have hheader := hf.formed.length
  have hsize : e.bytes.length = IP_HLEN + e.options.length + (4 + e.rest.length) := by
    rw [EchoPacket.bytes, List.length_append, hheader]
    simp [EchoPacket.message]
    omega
  obtain ⟨pad, hpad⟩ := hf.packet
  have hwhole : (p.hide SIZEOF_ETH_HDR).Whole := hp.hide (by omega)
  have hbytes : (p.hide SIZEOF_ETH_HDR).bytes = e.bytes ++ pad := by
    rw [RxPbuf.hide_bytes (by omega), hpad]
  have hofNat : (UInt16.ofNat e.bytes.length).toNat = e.bytes.length := by
    rw [UInt16.toNat_ofNat']
    omega
  have hle : UInt16.ofNat e.bytes.length ≤ (p.hide SIZEOF_ETH_HDR).tot_len := by
    rw [UInt16.le_iff_toNat_le, hwhole, hbytes, List.length_append, hofNat]
    omega
  refine ⟨RxPbuf.Whole.realloc hwhole hle, ?_, ?_, ?_⟩
  · rw [RxPbuf.realloc_bytes hwhole hle, hbytes, hofNat, List.take_left]
  · rw [RxPbuf.realloc_len hwhole hle, hofNat]
    omega
  · rw [RxPbuf.realloc_payload]
    exact Nat.le_add_left _ _

end Frame

/-! ## The two ends -/

section Ends

variable {p q : RxPbuf} {e : EchoPacket} {net : Net} {inp : NetifPtr} {s : Ping}

theorem Handed.byteAt (h : e.Formed) (hq : Handed q e) : ipHlen (q.byteAt 0) = IP_HLEN + e.options.length := by
  have hfirst := hq.first
  have h20 : IP_HLEN = 20 := rfl
  exact h.byteAt hq.bytes (by omega)

/-- What stands behind the IP header. -/
theorem Handed.drop (h : e.Formed) (hq : Handed q e) : q.bytes.drop (IP_HLEN + e.options.length) = e.message := by
  rw [hq.bytes, EchoPacket.bytes, List.drop_left' h.length]

theorem Handed.type (h : e.Formed) (hq : Handed q e) : q.byteAt (IP_HLEN + e.options.length) = e.type := by
  have hfirst := hq.first
  have h8 : SIZEOF_ICMP_ECHO_HDR.toNat = 8 := rfl
  have hget : q.bytes[IP_HLEN + e.options.length]? = (q.bytes.drop (IP_HLEN + e.options.length))[0]? := by simp
  refine byteAt_of_bytes (by omega) ?_
  rw [hget, hq.drop h]
  rfl

/-- The bytes in front of the addresses. -/
theorem Handed.front (h : e.Formed) (hq : Handed q e) : q.byteAt 8 = e.ttl ∧ q.byteAt 9 = e.proto := by
  have hfirst := hq.first
  have h20 : IP_HLEN = 20 := rfl
  have hsplit : q.bytes = e.front ++ ([e.ttl, e.proto] ++ (shortBytes e.ip_chksum ++ octets e.src ++ octets e.dest ++
      e.options ++ e.message)) := by
    simp [hq.bytes, EchoPacket.bytes, EchoPacket.header]
  constructor
  · refine byteAt_of_bytes (by omega) ?_
    rw [hsplit, List.getElem?_append_right (by rw [h.front]), h.front]
    rfl
  · refine byteAt_of_bytes (by omega) ?_
    rw [hsplit, List.getElem?_append_right (by rw [h.front]; omega), h.front]
    rfl

/-- The packet with the ping's id and number that `ping_recv` reads. -/
theorem Handed.icmpPacket (h : e.Formed) (hq : Handed q e) {id seqno : UInt16} {data : List UInt8}
    (hrest : e.rest = shortBytes id ++ shortBytes seqno ++ data) (addr : ip_addr_t) :
    (icmpPacket q addr).id = id ∧ (icmpPacket q addr).seqno = seqno := by
  have hfirst := hq.first
  have h8 : SIZEOF_ICMP_ECHO_HDR.toNat = 8 := rfl
  have hdrop := hq.drop h
  have hbyte := hq.byteAt h
  unfold Board.icmpPacket
  dsimp only
  rw [hbyte]
  constructor
  · refine shortAt_of_bytes (by omega) ?_
    rw [← shortOf_drop, hdrop, EchoPacket.message, hrest]
    have hsplit : [e.type, e.code] ++ shortBytes e.chksum ++ (shortBytes id ++ shortBytes seqno ++ data) =
        ([e.type, e.code] ++ shortBytes e.chksum) ++ shortBytes id ++ (shortBytes seqno ++ data) := by simp
    rw [hsplit]
    exact shortOf_append rfl id
  · refine shortAt_of_bytes (by omega) ?_
    rw [← shortOf_drop, hdrop, EchoPacket.message, hrest]
    have hsplit : [e.type, e.code] ++ shortBytes e.chksum ++ (shortBytes id ++ shortBytes seqno ++ data) =
        ([e.type, e.code] ++ shortBytes e.chksum ++ shortBytes id) ++ shortBytes seqno ++ data := by simp
    rw [hsplit]
    exact shortOf_append rfl seqno

/-- `ping_recv` lets everything but echo replies pass. -/
theorem raw_input_passes (h : e.Formed) (hq : Handed q e) (htype : e.type ≠ ICMP_ER) (src : ip_addr_t) (now : UInt32) :
    raw_input s q src now = (s, q, false) := by
  unfold raw_input
  split
  · obtain ⟨hstate, heaten, hpbuf⟩ := ping_recv_pbuf_eq s q src now
    rcases ping_recv_cases s (icmpPacket q src) now with heq | ⟨-, -, -, -, her, -⟩
    · rw [heq] at hstate heaten
      exact Prod.ext hstate (Prod.ext (hpbuf heaten) heaten)
    · have hbyte := hq.byteAt h
      have htype' := hq.type h
      unfold icmpPacket at her
      dsimp only at her
      rw [hbyte, htype'] at her
      exact absurd her htype
  · rfl

/-- The result of the reply that is waited for. -/
def answered (s : Ping) (e : EchoPacket) (now : UInt32) : Ping :=
  { s with
      s_result :=
        { from_ := e.src, seqno := s.s_seq, data_len := UInt16.ofNat (e.rest.length - 4),
          rtt_ms := (now - s.s_send_tick) / PING_RTI_TICKS_PER_MS, ttl := e.ttl }
      s_waiting := false
      s_reply_valid := true }

/-- The wait is for a reply with this number. -/
structure Waits (s : Ping) (seqno : UInt16) : Prop where
  pcb : s.s_ping_pcb = true
  waiting : s.s_waiting = true
  reply : s.s_reply_valid = false
  seqno : s.s_seq = seqno

theorem raw_input_takes (h : e.Formed) (hq : Handed q e) (hproto : e.proto = IP_PROTO_ICMP) (htype : e.type = ICMP_ER)
    {seqno : UInt16} {data : List UInt8} (hrest : e.rest = shortBytes PING_ID ++ shortBytes seqno ++ data)
    (hs : Waits s seqno) (now : UInt32) :
    ∃ q', raw_input s q e.src now = (answered s e now, q', true) := by
  have hfirst := hq.first
  have h20 : IP_HLEN = 20 := rfl
  have h8 : SIZEOF_ICMP_ECHO_HDR.toNat = 8 := rfl
  have hbyte := hq.byteAt h
  have hlen := h.length
  have htype' := hq.type h
  obtain ⟨hid, hseqno⟩ := hq.icmpPacket h hrest e.src
  obtain ⟨httl, hproto'⟩ := hq.front h
  rw [hproto] at hproto'
  have hsize : q.tot_len.toNat = IP_HLEN + e.options.length + (4 + e.rest.length) := by
    rw [hq.whole, hq.bytes, EchoPacket.bytes, List.length_append, hlen]
    simp [EchoPacket.message]
    omega
  have hip_hlen : (icmpPacket q e.src).ip_hlen.toNat = IP_HLEN + e.options.length := by
    rw [← hbyte]
    exact hlen_toNat q
  have hlt := q.tot_len.toNat_lt
  have hlong : ¬ (icmpPacket q e.src).tot_len < (icmpPacket q e.src).ip_hlen + SIZEOF_ICMP_ECHO_HDR := by
    rw [UInt16.lt_iff_toNat_lt, UInt16.toNat_add, hip_hlen, h8]
    show ¬ q.tot_len.toNat < _
    have hrest4 := h.rest
    omega
  have htake : Board.ping_recv s (icmpPacket q e.src) now = (answered s e now, true) := by
    unfold Board.ping_recv
    rw [if_neg (by simp [hs.waiting, hs.reply]), if_neg hlong, if_pos]
    · have hdata : (icmpPacket q e.src).tot_len - (icmpPacket q e.src).ip_hlen - SIZEOF_ICMP_ECHO_HDR =
          UInt16.ofNat (e.rest.length - 4) := by
        have hrest4 := h.rest
        refine UInt16.toNat_inj.mp ?_
        have htot : (icmpPacket q e.src).tot_len.toNat = IP_HLEN + e.options.length + (4 + e.rest.length) := hsize
        rw [UInt16.toNat_sub_of_le, UInt16.toNat_sub_of_le, htot, hip_hlen, h8, UInt16.toNat_ofNat']
        · omega
        · rw [UInt16.le_iff_toNat_le, htot, hip_hlen]
          omega
        · rw [UInt16.le_iff_toNat_le, UInt16.toNat_sub_of_le, htot, hip_hlen, h8]
          · omega
          · rw [UInt16.le_iff_toNat_le, htot, hip_hlen]
            omega
      have haddr : (icmpPacket q e.src).addr = e.src := rfl
      have httl' : (icmpPacket q e.src).ttl = e.ttl := httl
      rw [hdata, haddr, httl', answered]
    · refine ⟨?_, ?_, hid, hseqno.trans hs.seqno.symm⟩
      · rw [UInt16.le_iff_toNat_le, hip_hlen]
        show _ ≤ q.len.toNat
        omega
      · unfold icmpPacket
        dsimp only
        rw [hbyte, htype', htype]
  obtain ⟨hstate, heaten, -⟩ := ping_recv_pbuf_eq s q e.src now
  rw [htake] at hstate heaten
  unfold raw_input
  rw [if_pos ⟨hs.pcb, hproto'⟩]
  exact ⟨_, Prod.ext hstate (Prod.ext rfl heaten)⟩

end Ends

/-! ## Frames of pings -/

/-- The packet of `ping_send` by its parts. -/
def pingEcho (k : ip_packet) (ip_id seqno : UInt16) : EchoPacket where
  front := [0x45, k.tos] ++ shortBytes (UInt16.ofNat (IP_HLEN + (ping_packet seqno).length)) ++ shortBytes ip_id ++ [0, 0]
  ttl := k.ttl
  proto := IP_PROTO_ICMP
  ip_chksum := inet_chksum (k.hdr ip_id 0)
  src := k.src
  dest := k.dest
  options := []
  type := ICMP_ECHO
  code := 0
  chksum := inet_chksum (icmp_echo_hdr ICMP_ECHO 0 0 PING_ID seqno ++ pingData)
  rest := shortBytes PING_ID ++ shortBytes seqno ++ pingData

section Frames

variable {k : ip_packet} {seqno : UInt16} {e : EchoPacket}

@[simp] theorem pingData_length : pingData.length = PING_DATA_SIZE := rfl

@[simp] theorem ping_packet_length (seqno : UInt16) : (ping_packet seqno).length = 40 := by
  simp [ping_packet, icmp_echo_hdr, PING_DATA_SIZE]

theorem pingEcho_header (hk : k.payload = .icmp_echo seqno) (ip_id : UInt16) :
    (pingEcho k ip_id seqno).header = k.hdr ip_id (inet_chksum (k.hdr ip_id 0)) := by
  have hproto : k.payload.proto = IP_PROTO_ICMP := by rw [hk]; rfl
  have hbytes : k.payload.bytes k.src k.dest = ping_packet seqno := by rw [hk]; rfl
  unfold EchoPacket.header pingEcho
  dsimp only
  generalize inet_chksum (k.hdr ip_id 0) = c
  rw [ip_packet.hdr, hproto, hbytes, ip_hdr]
  simp

theorem pingEcho_message (k : ip_packet) (ip_id seqno : UInt16) : (pingEcho k ip_id seqno).message = ping_packet seqno := by
  simp [EchoPacket.message, pingEcho, ping_packet, icmp_echo_hdr]

theorem pingEcho_bytes (hk : k.payload = .icmp_echo seqno) (ip_id : UInt16) :
    (pingEcho k ip_id seqno).bytes = k.bytes ip_id := by
  rw [EchoPacket.bytes, pingEcho_header hk, pingEcho_message, ip_packet.bytes, hk]
  rfl

theorem pingEcho_chksum (k : ip_packet) (ip_id seqno : UInt16) : ChksumRight (pingEcho k ip_id seqno).message := by
  rw [pingEcho_message]
  have hfill := chksumRight_fill (s := [ICMP_ECHO, 0]) (t := shortBytes PING_ID ++ shortBytes seqno ++ pingData) rfl
    (by simp [PING_DATA_SIZE])
  simpa only [ping_packet, icmp_echo_hdr, List.append_assoc] using hfill

theorem pingEcho_formed (k : ip_packet) (ip_id seqno : UInt16) : (pingEcho k ip_id seqno).Formed := by
  refine ⟨rfl, ?_, by simp [pingEcho, PING_DATA_SIZE], ?_⟩
  · show ipHlen 0x45 = IP_HLEN
    decide
  · rw [EchoPacket.bytes, pingEcho_message, List.length_append, ping_packet_length]
    simp [EchoPacket.header, pingEcho]

theorem pingEcho_frame (hk : k.payload = .icmp_echo seqno) (dest src : eth_addr) (ip_id : UInt16) (pad : List UInt8) :
    EchoFrame (Frame.bytes ip_id (.ip dest src k) ++ pad) (pingEcho k ip_id seqno) where
  type := by rw [Frame.bytes, List.append_assoc, eth_hdr_type]
  packet := ⟨pad, by
    rw [Frame.bytes, List.append_assoc, List.drop_left' (eth_hdr_length _ _ _), pingEcho_bytes hk]⟩
  formed := pingEcho_formed k ip_id seqno
  version := by
    show (0x45 : UInt8) >>> 4 = 4
    decide
  ip_len := by
    have hlen : (pingEcho k ip_id seqno).bytes.length = IP_HLEN + (ping_packet seqno).length := by
      rw [EchoPacket.bytes, pingEcho_message, List.length_append, (pingEcho_formed k ip_id seqno).length]
      rfl
    rw [hlen]
    exact congrArg some (short_join _)
  whole := ⟨0, rfl, rfl⟩
  proto := rfl
  ip_chksum := by
    rw [pingEcho_header hk]
    exact ip_hdr_chksum _ _ _ _ _ _ _

/-- The reply in a frame of any two hosts. -/
theorem EchoFrame.reply {frame : List UInt8} (hf : EchoFrame frame e) (hoptions : ChksumRight e.options)
    (dest src : eth_addr) (pad : List UInt8) : EchoFrame (eth_hdr dest src ETHTYPE_IP ++ e.reply.bytes ++ pad) e.reply where
  type := by rw [List.append_assoc, eth_hdr_type]
  packet := ⟨pad, by rw [List.append_assoc, List.drop_left' (eth_hdr_length _ _ _)]⟩
  formed := hf.formed.reply
  version := hf.version
  ip_len := by
    have hlen : e.reply.bytes.length = e.bytes.length := by
      simp [EchoPacket.reply, EchoPacket.bytes, EchoPacket.header, EchoPacket.message]
    rw [hlen]
    exact hf.ip_len
  whole := hf.whole
  proto := hf.proto
  ip_chksum := (reply_header_right hf.formed).mpr hoptions

end Frames

/-! ## On the network -/

/-- The host has the one address, and the other is that of a single host too. -/
structure HostOf (net : Net) (addr peer : ip_addr_t) : Prop where
  mine : ∃ n ∈ net.list, (net.netifs n).ip_addr = addr
  addr : Unicast net addr
  peer : Unicast net peer

/-- What is for the address of the host gets to an interface with this address. -/
theorem HostOf.route {b : Board} {addr peer : ip_addr_t} (h : HostOf b.net addr peer) (hb : Inv b) :
    ∃ inp ∈ b.net.list, netif_alias_route b.net .phys addr = inp ∧ (b.net.netifs inp).ip_addr = addr ∧
      (b.net.netifs inp).has NETIF_FLAG_ETHARP = true := by
  obtain ⟨m, hm⟩ := hb.net
  obtain ⟨n, hn, rfl⟩ := h.mine
  rw [hm.list_eq] at hn
  obtain ⟨inp, hinp, hroute, hip⟩ := netif_alias_route_spec hm hn h.addr
  refine ⟨inp, by rwa [hm.list_eq], hroute, hip, ?_⟩
  simp only [netif.has, hm.flags_eq hinp]
  decide

section Network

variable {b : Board} {p : RxPbuf} {e : EchoPacket}

/-- A message to an address of the board gets to `raw_input`. -/
theorem EchoFrame.input (hb : Sound b) (hhost : HostOf b.net e.dest e.src) (hp : p.Whole) (hf : EchoFrame p.bytes e)
    (hfirst : EchoInFirstOf p e) :
    ∃ inp ∈ b.net.list, ∃ q, Handed q e ∧ ip_input_raw b.net (p.hide SIZEOF_ETH_HDR) inp = some (q, e.src, e.dest) ∧
      ∀ s now block, ethernet_input_icmp b.net s p now block =
        ((ip_input_icmp b.net s (p.hide SIZEOF_ETH_HDR) inp now block).1,
          (ip_input_icmp b.net s (p.hide SIZEOF_ETH_HDR) inp now block).2.map (fun r => (inp, r))) := by
  obtain ⟨m, hm⟩ := hb.inv.net
  obtain ⟨inp, hlist, hroute, hinp_ip, hetharp⟩ := hhost.route hb.inv
  have haccept : ipAccepts b.net e.dest inp = true := by
    rw [← hinp_ip]
    exact ipAccepts_address hm (hm.list_eq ▸ hlist) (hinp_ip ▸ hhost.addr)
  have hread := hf.read hfirst
  have hq := hf.handed hp hfirst
  have haccepted := hf.accepted hp hfirst haccept (hhost.peer.2 inp hlist) hhost.peer.1
  unfold EchoInFirstOf at hfirst
  have h14 : SIZEOF_ETH_HDR = 14 := rfl
  have h20 : IP_HLEN = 20 := rfl
  have htype : p.shortAt 12 = ETHTYPE_IP := shortAt_of_bytes (by omega) hf.type
  have hdest : p.longAt (SIZEOF_ETH_HDR + 16) = e.dest := by
    rw [← RxPbuf.hide_longAt]
    exact hread.dest
  have hfilter : netif_alias_route_filter_ip b.net p .phys = inp := by
    rw [netif_alias_route_filter_ip, if_pos (by omega), hdest, hroute]
  refine ⟨inp, hlist, _, hq, haccepted, fun s now block => ?_⟩
  unfold ethernet_input_icmp
  rw [if_neg (by omega), htype, if_neg (by simp), hfilter]
  dsimp only
  rw [hetharp, if_neg (by simp), RxPbuf.pbuf_header_hide (by omega)]

/-- An echo request is answered, whatever the board itself waits for. -/
theorem request_answered (hb : Sound b) (hhost : HostOf b.net e.dest e.src) (hp : p.Whole) (hf : EchoFrame p.bytes e)
    (hfirst : EchoInFirstOf p e) (htype : e.type = ICMP_ECHO) (hchksum : ChksumRight e.message) (s : Ping) (now : UInt32)
    (block : Option (Nat → UInt8)) :
    ∃ inp r, ethernet_input_icmp b.net s p now block = (s, some (inp, r)) ∧ r.bytes = e.reply.bytes := by
  obtain ⟨inp, hinp, q, hq, hraw, heq⟩ := hf.input hb hhost hp hfirst
  have hpass := raw_input_passes (s := s) hf.formed hq (by rw [htype]; decide) e.src now
  have hreq : EchoRequest b.net inp e := ⟨htype, hchksum, hhost.addr.1, hhost.addr.2 inp hinp⟩
  have hproto : q.byteAt 9 = IP_PROTO_ICMP := (hq.front hf.formed).2.trans hf.proto
  have hreply := (@icmp_input_eq q e b.net inp block hq.whole hf.formed hq.bytes hq.first hq.room _).mpr ⟨hreq, rfl⟩
  refine ⟨inp, _, ?_, echoReply_bytes hf.formed hq.bytes ?_⟩
  · rw [heq, ip_input_icmp, hraw]
    dsimp only
    rw [hpass]
    dsimp only
    rw [if_pos hproto, hreply]
    rfl
  · have hqfirst := hq.first
    have h8 : SIZEOF_ICMP_ECHO_HDR.toNat = 8 := rfl
    omega

/-- The reply that is waited for ends the wait. -/
theorem reply_taken (hb : Sound b) (hhost : HostOf b.net e.dest e.src) (hp : p.Whole) (hf : EchoFrame p.bytes e)
    (hfirst : EchoInFirstOf p e) (htype : e.type = ICMP_ER) {seqno : UInt16} {data : List UInt8}
    (hrest : e.rest = shortBytes PING_ID ++ shortBytes seqno ++ data) {s : Ping} (hs : Waits s seqno) (now : UInt32)
    (block : Option (Nat → UInt8)) : ethernet_input_icmp b.net s p now block = (answered s e now, none) := by
  obtain ⟨inp, -, q, hq, hraw, heq⟩ := hf.input hb hhost hp hfirst
  obtain ⟨q', htake⟩ := raw_input_takes hf.formed hq hf.proto htype hrest hs now
  rw [heq, ip_input_icmp, hraw]
  dsimp only
  rw [htake]
  rfl

end Network

/-- `ping_send` waits for the number that it has sent. -/
theorem ping_send_waits {f f' : Firmware} {n : Option NetifPtr} {target : ip_addr_t} {env : PingEnv}
    (h : f.ping_send n target env = (f', .ERR_OK)) : Waits f'.ping (f.ping.s_seq + 1) := by
  unfold Firmware.ping_send at h
  split at h
  · cases h
  · split at h
    · cases h
    · dsimp only at h
      split at h
      · cases h
      · have herr := congrArg Prod.snd h
        have hstate := congrArg Prod.fst h
        dsimp only at herr hstate
        rw [← hstate]
        exact ⟨rfl, by simp [herr], rfl, rfl⟩

section Answered

variable {ι : Type} [DecidableEq ι]

end Answered

/-- The ping of the board at 10.0.0.10 to the one at 10.0.0.11. -/
def echoFrame : Frame := .ip (twoMacs there) (twoMacs here) ⟨0x0a00000a, 0x0a00000b, ICMP_TTL, 0, .icmp_echo 1⟩

def echoRun : List (NetworkAction (Fin 2)) :=
  [.run here (.output 0x0a00000a 0x0a00000b ICMP_TTL 0 (.icmp_echo 1) .phys ⟨true, true⟩),
    .deliver here there askFrame (onePbuf (padded askFrame)) true ⟨true, true⟩,
    .deliver there here toldFrame (onePbuf (padded toldFrame)) true ⟨true, true⟩]

theorem echoRun_legal : (network (Fin 2)).Legal (fun i => boot (twoBoots i)) echoRun :=
  ⟨⟨rfl, by decide +kernel⟩,
    ⟨⟨.phys, by decide +kernel⟩, askFrame_arrives.damaged⟩, ⟨⟨.phys, by decide +kernel⟩, toldFrame_arrives.damaged⟩, trivial⟩

/-- The ping program after its first `ping_send`. -/
def firstPing : Ping := { Ping.init with s_ping_pcb := true, s_seq := 1, s_waiting := true }

end MultiIp.Board
