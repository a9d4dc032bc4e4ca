import MultiIp.Board.AliasFilter

/-!
# Frames as bytes

The headers that `udp_sendto_if`, `ip_output_if`, `ping_send`, `etharp_send_ip`
and `etharp_raw` write in front of the data, and what `ethernet_input` reads
of an ARP frame. `ip_id`, the counter of the IP packets, is a parameter.
-/

namespace MultiIp.Board

open Lwip Lib

def IP_PROTO_ICMP : UInt8 := 1
def ICMP_ECHO : UInt8 := 8
def PING_DATA_SIZE : Nat := 32
def MIN_PKT_LEN : Nat := 60

/-! ## Sending -/

/-- `struct udp_hdr`. -/
def udp_hdr (src dest len chksum : UInt16) : List UInt8 :=
  shortBytes src ++ shortBytes dest ++ shortBytes len ++ shortBytes chksum

/-- `p->tot_len` with the UDP header in front. -/
def udpLen (data : List UInt8) : UInt16 := UInt16.ofNat (UDP_HLEN + data.length)

/-- The checksum of `udp_sendto_if`. The data lies in one pbuf with room for the header. -/
def udp_chksum (src_ip dst_ip : ip_addr_t) (src dest : UInt16) (data : List UInt8) : UInt16 :=
  let udpchksum :=
    inet_chksum_pseudo [udp_hdr src dest (udpLen data) 0 ++ data] src_ip dst_ip IP_PROTO_UDP (udpLen data)
  -- 0 would say that there is no checksum.
  if udpchksum = 0 then 0xffff else udpchksum

/-- What `udp_sendto_if` hands to `ip_output_if`. -/
def udp_packet (src_ip dst_ip : ip_addr_t) (src dest : UInt16) (data : List UInt8) : List UInt8 :=
  udp_hdr src dest (udpLen data) (udp_chksum src_ip dst_ip src dest data) ++ data

/-- `struct icmp_echo_hdr`. -/
def icmp_echo_hdr (type code : UInt8) (chksum id seqno : UInt16) : List UInt8 :=
  [type, code] ++ shortBytes chksum ++ shortBytes id ++ shortBytes seqno

/-- The data of an echo request, `'a' + (i % 23)`. -/
def pingData : List UInt8 := (List.range PING_DATA_SIZE).map (fun i => UInt8.ofNat (97 + i % 23))

/-- What `ping_send` hands to `ip_output_if`. -/
def ping_packet (seqno : UInt16) : List UInt8 :=
  let chksum := inet_chksum (icmp_echo_hdr ICMP_ECHO 0 0 PING_ID seqno ++ pingData)
  icmp_echo_hdr ICMP_ECHO 0 chksum PING_ID seqno ++ pingData

end MultiIp.Board

namespace MultiIp.Lwip

open Board

def IpPayload.proto : IpPayload → UInt8
  | .udp _ _ _ => IP_PROTO_UDP
  | .icmp_echo _ => IP_PROTO_ICMP

def IpPayload.bytes (src dest : ip_addr_t) : IpPayload → List UInt8
  | .udp sport dport data => udp_packet src dest sport dport data
  | .icmp_echo seqno => ping_packet seqno

/-- `struct ip_hdr`, without options and not of a fragment. -/
def ip_hdr (tos : UInt8) (len id : UInt16) (ttl proto : UInt8) (chksum : UInt16) (src dest : ip_addr_t) : List UInt8 :=
  [0x45, tos] ++ shortBytes len ++ shortBytes id ++ [0, 0, ttl, proto] ++ shortBytes chksum ++ octets src ++ octets dest

/-- The IP header that `ip_output_if` writes, up to its checksum. -/
def ip_packet.hdr (ip_id : UInt16) (p : ip_packet) (chksum : UInt16) : List UInt8 :=
  ip_hdr p.tos (UInt16.ofNat (IP_HLEN + (p.payload.bytes p.src p.dest).length)) ip_id p.ttl p.payload.proto chksum
    p.src p.dest

/-- What `ip_output_if` hands to `netif->output`. -/
def ip_packet.bytes (ip_id : UInt16) (p : ip_packet) : List UInt8 :=
  p.hdr ip_id (inet_chksum (p.hdr ip_id 0)) ++ p.payload.bytes p.src p.dest

def eth_hdr (dest src : eth_addr) (type : UInt16) : List UInt8 := dest.toList ++ src.toList ++ shortBytes type

def etharp_hdr.bytes (h : etharp_hdr) : List UInt8 :=
  shortBytes h.hwtype ++ shortBytes h.proto ++ [h.hwlen, h.protolen] ++ shortBytes h.opcode ++
    h.shwaddr.toList ++ octets h.sipaddr ++ h.dhwaddr.toList ++ octets h.dipaddr

/-- What is handed to `netif->linkoutput`. -/
def Frame.bytes (ip_id : UInt16) : Frame → List UInt8
  | .arp dest src hdr => eth_hdr dest src ETHTYPE_ARP ++ hdr.bytes
  | .ip dest src p => eth_hdr dest src ETHTYPE_IP ++ p.bytes ip_id

end MultiIp.Lwip

namespace MultiIp.Board

open Lwip Lib

/-- What `hdkif_output` hands to the DMA: a short frame is made longer with the bytes behind it. -/
def hdkif_output (behind : Nat → UInt8) (frame : List UInt8) : List UInt8 :=
  frame ++ (List.range (MIN_PKT_LEN - frame.length)).map behind

/-! ## Receiving -/

/-- `struct eth_addr` at an offset. -/
def ethAt (p : RxPbuf) (k : Nat) : eth_addr := Vector.ofFn (fun i => p.byteAt (k + i))

/-- `struct etharp_hdr` behind the Ethernet header. -/
def arpFrameOf (p : RxPbuf) : ArpFrame where
  len := p.len.toNat
  hdr :=
    { hwtype := p.shortAt 14, proto := p.shortAt 16, hwlen := p.byteAt 18, protolen := p.byteAt 19,
      opcode := p.shortAt 20, shwaddr := ethAt p 22, sipaddr := p.longAt 28, dhwaddr := ethAt p 32,
      dipaddr := p.longAt 38 }

/-- `ethernet_input` for a frame of any type, without the answers of `icmp.c`. -/
def rx_frame (b : Board) (p : RxPbuf) (alloc : Bool) (out : Alloc) : Board :=
  if p.len.toNat > SIZEOF_ETH_HDR ∧ p.shortAt 12 = ETHTYPE_ARP then
    { b with net := ethernet_input_arp b.net (arpFrameOf p) }
  else (ethernet_input b p alloc out).1

/-- The bytes in one pbuf. -/
def onePbuf (bytes : List UInt8) : RxPbuf where
  mem := fun k => bytes.getD k 0
  payload := 0
  len := UInt16.ofNat bytes.length
  tot_len := UInt16.ofNat bytes.length
  next := []

theorem onePbuf_len {bytes : List UInt8} (h : bytes.length < 65536) : (onePbuf bytes).len.toNat = bytes.length := by
  show (UInt16.ofNat bytes.length).toNat = _
  rw [UInt16.toNat_ofNat', Nat.mod_eq_of_lt h]

theorem onePbuf_bytes {bytes : List UInt8} (h : bytes.length < 65536) : (onePbuf bytes).bytes = bytes := by
  have hlen := onePbuf_len h
  refine List.ext_getElem (by rw [RxPbuf.bytes_length, hlen]; rfl) (fun k hk hk' => ?_)
  have hget := RxPbuf.bytes_getElem (p := onePbuf bytes) (by rwa [hlen])
  have hbyte : (onePbuf bytes).byteAt k = bytes[k] := by
    simp [RxPbuf.byteAt, onePbuf, List.getD_eq_getElem?_getD, List.getElem?_eq_getElem hk']
  rw [List.getElem?_eq_getElem hk, hbyte] at hget
  exact Option.some.inj hget

theorem onePbuf_whole {bytes : List UInt8} (h : bytes.length < 65536) : (onePbuf bytes).Whole := by
  unfold RxPbuf.Whole
  rw [onePbuf_bytes h]
  exact onePbuf_len h

/-! ## Reading what was written -/

section Read

variable {l s t : List UInt8} {n k : Nat}

theorem shortOf_drop : shortOf (l.drop n) k = shortOf l (n + k) := by
  simp [shortOf, List.getElem?_drop, Nat.add_assoc]

theorem longOf_drop : longOf (l.drop n) k = longOf l (n + k) := by
  simp [longOf, shortOf_drop, Nat.add_assoc]

/-- A 16-bit number is its two bytes. -/
theorem short_join (x : UInt16) : (x >>> 8).toUInt8.toUInt16 <<< 8 ||| x.toUInt8.toUInt16 = x := by
  have hlt := x.toNat_lt
  refine UInt16.toNat_inj.mp ?_
  simp only [UInt16.toNat_or, UInt16.toNat_shiftLeft, UInt8.toNat_toUInt16, UInt16.toNat_toUInt8, UInt16.toNat_shiftRight]
  simp only [UInt16.toNat_ofNat, Nat.reducePow, Nat.reduceMod, Nat.shiftRight_eq_div_pow]
  rw [Nat.mod_eq_of_lt (by omega : x.toNat / 256 < 256), Nat.mod_eq_of_lt (by rw [Nat.shiftLeft_eq]; omega),
    ← Nat.shiftLeft_add_eq_or_of_lt (by omega), Nat.shiftLeft_eq]
  omega

theorem shortOf_shortBytes (x : UInt16) (rest : List UInt8) : shortOf (shortBytes x ++ rest) 0 = some x :=
  congrArg some (short_join x)

theorem shortOf_append (hk : s.length = k) (x : UInt16) : shortOf (s ++ shortBytes x ++ t) k = some x := by
  subst hk
  have hdrop := shortOf_drop (l := s ++ shortBytes x ++ t) (n := s.length) (k := 0)
  rw [List.append_assoc, List.drop_left, shortOf_shortBytes] at hdrop
  rw [List.append_assoc, hdrop, Nat.add_zero]

theorem octets_eq (x : ip_addr_t) : octets x = shortBytes (x >>> 16).toUInt16 ++ shortBytes x.toUInt16 := by
  have hlt := x.toNat_lt
  have hbytes : (x >>> 24).toUInt8 = ((x >>> 16).toUInt16 >>> 8).toUInt8 ∧ (x >>> 16).toUInt8 = (x >>> 16).toUInt16.toUInt8 ∧
      (x >>> 8).toUInt8 = (x.toUInt16 >>> 8).toUInt8 ∧ x.toUInt8 = x.toUInt16.toUInt8 := by
    simp only [← UInt8.toNat_inj, UInt32.toNat_toUInt8, UInt16.toNat_toUInt8, UInt16.toNat_shiftRight,
      UInt32.toNat_toUInt16, UInt32.toNat_shiftRight]
    simp only [UInt32.toNat_ofNat, UInt16.toNat_ofNat, Nat.shiftRight_eq_div_pow, Nat.reducePow, Nat.reduceMod]
    omega
  obtain ⟨h1, h2, h3, h4⟩ := hbytes
  simp only [octets, shortBytes, List.cons_append, List.nil_append]
  rw [h1, h2, h3, h4]

/-- A 32-bit number is its two halves. -/
theorem long_join (x : UInt32) : (x >>> 16).toUInt16.toUInt32 <<< 16 ||| x.toUInt16.toUInt32 = x := by
  have hlt := x.toNat_lt
  refine UInt32.toNat_inj.mp ?_
  simp only [UInt32.toNat_or, UInt32.toNat_shiftLeft, UInt16.toNat_toUInt32, UInt32.toNat_toUInt16, UInt32.toNat_shiftRight]
  simp only [UInt32.toNat_ofNat, Nat.reducePow, Nat.reduceMod, Nat.shiftRight_eq_div_pow]
  rw [Nat.mod_eq_of_lt (by omega : x.toNat / 65536 < 65536), Nat.mod_eq_of_lt (by rw [Nat.shiftLeft_eq]; omega),
    ← Nat.shiftLeft_add_eq_or_of_lt (by omega), Nat.shiftLeft_eq]
  omega

theorem longOf_octets (x : ip_addr_t) (rest : List UInt8) : longOf (octets x ++ rest) 0 = some x := by
  have hhi : shortOf (octets x ++ rest) 0 = some (x >>> 16).toUInt16 := by
    rw [octets_eq, List.append_assoc, shortOf_shortBytes]
  have hlo : shortOf (octets x ++ rest) 2 = some x.toUInt16 := by
    rw [octets_eq, List.append_assoc, ← shortOf_shortBytes x.toUInt16 rest]
    rfl
  rw [longOf, hhi, hlo]
  exact congrArg some (long_join x)

theorem longOf_append (hk : s.length = k) (x : ip_addr_t) : longOf (s ++ octets x ++ t) k = some x := by
  subst hk
  have hdrop := longOf_drop (l := s ++ octets x ++ t) (n := s.length) (k := 0)
  rw [List.append_assoc, List.drop_left, longOf_octets] at hdrop
  rw [List.append_assoc, hdrop, Nat.add_zero]

end Read

end MultiIp.Board
