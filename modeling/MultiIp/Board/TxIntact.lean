import MultiIp.Board.TxBytes
import MultiIp.Lwip.ChksumGen

/-!
# What is sent is accepted

A frame with a UDP datagram, as the sender's layers build it, passes every check
of the receiver's layers and gives the datagram back.
-/

namespace MultiIp.Board

open Lwip Lib

/-! ## The headers -/

@[simp] theorem shortBytes_length (x : UInt16) : (shortBytes x).length = 2 := rfl

@[simp] theorem octets_length (a : ip_addr_t) : (octets a).length = 4 := rfl

@[simp] theorem eth_hdr_length (dest src : eth_addr) (type : UInt16) : (eth_hdr dest src type).length = SIZEOF_ETH_HDR := by
  simp [eth_hdr, SIZEOF_ETH_HDR]

@[simp] theorem ip_hdr_length (tos : UInt8) (len id : UInt16) (ttl proto : UInt8) (chksum : UInt16) (src dest : ip_addr_t) :
    (ip_hdr tos len id ttl proto chksum src dest).length = IP_HLEN := by
  simp [ip_hdr, IP_HLEN]

@[simp] theorem udp_hdr_length (src dest len chksum : UInt16) : (udp_hdr src dest len chksum).length = UDP_HLEN := by
  simp [udp_hdr, UDP_HLEN]

@[simp] theorem udp_packet_length (src_ip dst_ip : ip_addr_t) (src dest : UInt16) (data : List UInt8) :
    (udp_packet src_ip dst_ip src dest data).length = UDP_HLEN + data.length := by
  simp [udp_packet]

theorem eth_hdr_type (dest src : eth_addr) (type : UInt16) (rest : List UInt8) :
    shortOf (eth_hdr dest src type ++ rest) 12 = some type := by
  have hdrop : (eth_hdr dest src type ++ rest).drop 12 = shortBytes type ++ rest := by
    rw [eth_hdr, List.append_assoc, List.drop_append_of_le_length (by simp), List.drop_eq_nil_of_le (by simp)]
    rfl
  rw [← shortOf_shortBytes type rest, ← hdrop, shortOf_drop]

/-- The IP header with the checksum that `ip_output_if` puts into it. -/
theorem ip_hdr_chksum (tos : UInt8) (len id : UInt16) (ttl proto : UInt8) (src dest : ip_addr_t) :
    ChksumRight (ip_hdr tos len id ttl proto (inet_chksum (ip_hdr tos len id ttl proto 0 src dest)) src dest) := by
  have hfill := chksumRight_fill (s := [0x45, tos] ++ shortBytes len ++ shortBytes id ++ [0, 0, ttl, proto])
    (t := octets src ++ octets dest) (by simp) (by simp)
  simpa only [ip_hdr, List.append_assoc] using hfill

/-- The datagram with the checksum that `udp_sendto_if` puts into it. -/
theorem udp_packet_chksum (src_ip dst_ip : ip_addr_t) (src dest : UInt16) {data : List UInt8}
    (hfits : UDP_HLEN + data.length ≤ 65535) :
    ChksumRight (pseudoHeader src_ip dst_ip IP_PROTO_UDP (udpLen data) ++ udp_packet src_ip dst_ip src dest data) := by
  have hseg : (udp_hdr src dest (udpLen data) 0 ++ data).length ≤ 65535 := by simpa using hfits
  have hsum := inet_chksum_pseudo_modEq (p := [udp_hdr src dest (udpLen data) 0 ++ data]) (by simpa using hseg) src_ip
    dst_ip IP_PROTO_UDP (udpLen data)
  have hfill := wordSum_fill (s := pseudoHeader src_ip dst_ip IP_PROTO_UDP (udpLen data) ++ shortBytes src ++
    shortBytes dest ++ shortBytes (udpLen data)) (by simp [pseudoHeader]) (udp_chksum src_ip dst_ip src dest data) data
  have hzero : (udp_chksum src_ip dst_ip src dest data).toNat ≡
      (inet_chksum_pseudo [udp_hdr src dest (udpLen data) 0 ++ data] src_ip dst_ip IP_PROTO_UDP (udpLen data)).toNat
      [MOD 65535] := by
    unfold udp_chksum
    dsimp only
    split
    · rename_i hz
      rw [hz]
      decide
    · rfl
  simp only [List.flatten_cons, List.flatten_nil, List.append_nil, udp_hdr, udp_packet, List.append_assoc, ChksumRight]
    at hsum hfill ⊢
  exact hfill.trans (((Nat.ModEq.refl _).add hzero).trans hsum)

/-! ## A frame with a UDP datagram -/

/-- What the headers of the frame say. -/
def udpHeaders (p : ip_packet) (sport dport : UInt16) (data : List UInt8) : UdpHeaders where
  vhl := 0x45
  ip_len := UInt16.ofNat (IP_HLEN + UDP_HLEN + data.length)
  src_ip := p.src
  dest_ip := p.dest
  src := sport
  dest := dport
  chksum := udp_chksum p.src p.dest sport dport data

section Udp

variable {p : ip_packet} {sport dport : UInt16} {data : List UInt8}

theorem ip_bytes_udp (hp : p.payload = .udp sport dport data) (ip_id : UInt16) :
    p.bytes ip_id = p.hdr ip_id (inet_chksum (p.hdr ip_id 0)) ++ udp_packet p.src p.dest sport dport data := by
  rw [ip_packet.bytes, hp]
  rfl

theorem hdr_udp (hp : p.payload = .udp sport dport data) (ip_id chksum : UInt16) :
    p.hdr ip_id chksum =
      ip_hdr p.tos (UInt16.ofNat (IP_HLEN + UDP_HLEN + data.length)) ip_id p.ttl IP_PROTO_UDP chksum p.src p.dest := by
  rw [ip_packet.hdr, hp, IpPayload.proto, IpPayload.bytes, udp_packet_length, Nat.add_assoc]

/-- The frame is as long as its headers and the data. -/
theorem frame_length (hp : p.payload = .udp sport dport data) (dest src : eth_addr) (ip_id : UInt16) :
    (Frame.bytes ip_id (.ip dest src p)).length = SIZEOF_ETH_HDR + IP_HLEN + UDP_HLEN + data.length := by
  rw [Frame.bytes, ip_bytes_udp hp, hdr_udp hp]
  simp [Nat.add_assoc]

theorem udpHeaders_hlen (p : ip_packet) (sport dport : UInt16) (data : List UInt8) :
    (udpHeaders p sport dport data).hlen = IP_HLEN := by
  show ipHlen 0x45 = IP_HLEN
  decide

theorem udpHeaders_udp_len (p : ip_packet) (sport dport : UInt16) (data : List UInt8) :
    (udpHeaders p sport dport data).udp_len = udpLen data := by
  rw [UdpHeaders.udp_len, udpHeaders_hlen, udpLen, udpHeaders, Nat.add_assoc, UInt16.ofNat_add]
  dsimp only
  rw [UInt16.add_comm, UInt16.add_sub_cancel]

theorem udpLen_toNat (hfits : IP_HLEN + UDP_HLEN + data.length ≤ 65535) : (udpLen data).toNat = UDP_HLEN + data.length := by
  rw [udpLen, UInt16.toNat_ofNat']
  omega

theorem frame_drop_eth (p : ip_packet) (dest src : eth_addr) (ip_id : UInt16) (pad : List UInt8) :
    (Frame.bytes ip_id (.ip dest src p) ++ pad).drop SIZEOF_ETH_HDR =
      p.hdr ip_id (inet_chksum (p.hdr ip_id 0)) ++ (p.payload.bytes p.src p.dest ++ pad) := by
  rw [Frame.bytes, List.append_assoc, List.drop_left' (eth_hdr_length _ _ _), ip_packet.bytes, List.append_assoc]

theorem frame_drop_eth_udp (hp : p.payload = .udp sport dport data) (dest src : eth_addr) (ip_id : UInt16)
    (pad : List UInt8) :
    (Frame.bytes ip_id (.ip dest src p) ++ pad).drop SIZEOF_ETH_HDR =
      p.hdr ip_id (inet_chksum (p.hdr ip_id 0)) ++ (udp_packet p.src p.dest sport dport data ++ pad) := by
  rw [frame_drop_eth, hp]
  rfl

theorem frame_drop_ip (hp : p.payload = .udp sport dport data) (dest src : eth_addr) (ip_id : UInt16) (pad : List UInt8) :
    (Frame.bytes ip_id (.ip dest src p) ++ pad).drop (SIZEOF_ETH_HDR + IP_HLEN) =
      udp_packet p.src p.dest sport dport data ++ pad := by
  rw [← List.drop_drop, frame_drop_eth_udp hp, hdr_udp hp, List.drop_left' (ip_hdr_length _ _ _ _ _ _ _ _)]

theorem frame_drop_udp (hp : p.payload = .udp sport dport data) (dest src : eth_addr) (ip_id : UInt16) (pad : List UInt8) :
    (Frame.bytes ip_id (.ip dest src p) ++ pad).drop (SIZEOF_ETH_HDR + IP_HLEN + UDP_HLEN) = data ++ pad := by
  rw [← List.drop_drop, frame_drop_ip hp, udp_packet, List.append_assoc, List.drop_left' (udp_hdr_length _ _ _ _)]

/-- Every check of the receiver's layers accepts the frame, whatever stands behind it. -/
theorem frame_intact (hp : p.payload = .udp sport dport data) (hfits : IP_HLEN + UDP_HLEN + data.length ≤ 65535)
    (dest src : eth_addr) (ip_id : UInt16) (pad : List UInt8) :
    IntactUdp (Frame.bytes ip_id (.ip dest src p) ++ pad) (udpHeaders p sport dport data) := by
  have h14 : SIZEOF_ETH_HDR = 14 := rfl
  have h20 : IP_HLEN = 20 := rfl
  have h8 : UDP_HLEN = 8 := rfl
  have hhlen := udpHeaders_hlen p sport dport data
  have hip_len : (udpHeaders p sport dport data).ip_len.toNat = IP_HLEN + UDP_HLEN + data.length := by
    rw [udpHeaders, UInt16.toNat_ofNat']
    omega
  have hudp_len := udpHeaders_udp_len p sport dport data
  have hudp_toNat := udpLen_toNat hfits
  have htotal := frame_length hp dest src ip_id
  have h14drop := frame_drop_eth_udp hp dest src ip_id pad
  have h34drop := frame_drop_ip hp dest src ip_id pad
  have hhdr := hdr_udp hp ip_id
  have hshort : ∀ k, shortOf (Frame.bytes ip_id (.ip dest src p) ++ pad) (SIZEOF_ETH_HDR + k) =
      shortOf (p.hdr ip_id (inet_chksum (p.hdr ip_id 0)) ++ (udp_packet p.src p.dest sport dport data ++ pad)) k := by
    intro k
    rw [← h14drop, shortOf_drop]
  have hlong : ∀ k, longOf (Frame.bytes ip_id (.ip dest src p) ++ pad) (SIZEOF_ETH_HDR + k) =
      longOf (p.hdr ip_id (inet_chksum (p.hdr ip_id 0)) ++ (udp_packet p.src p.dest sport dport data ++ pad)) k := by
    intro k
    rw [← h14drop, longOf_drop]
  have hbyte : ∀ k, (Frame.bytes ip_id (.ip dest src p) ++ pad)[SIZEOF_ETH_HDR + k]? =
      (p.hdr ip_id (inet_chksum (p.hdr ip_id 0)) ++ (udp_packet p.src p.dest sport dport data ++ pad))[k]? := by
    intro k
    rw [← h14drop, List.getElem?_drop]
  have hudp : ∀ k, shortOf (Frame.bytes ip_id (.ip dest src p) ++ pad) (SIZEOF_ETH_HDR + IP_HLEN + k) =
      shortOf (udp_packet p.src p.dest sport dport data ++ pad) k := by
    intro k
    rw [← h34drop, shortOf_drop]
  rw [hhdr, hhdr] at hshort hlong hbyte h14drop
  refine ⟨?_, ?_, (by decide : (0x45 : UInt8) >>> 4 = 4), Nat.le_of_eq hhlen.symm, ?_, ?_, ?_, ?_, ?_, ?_, ?_, ?_, ?_, ?_, ?_, ?_, ?_⟩
  · rw [Frame.bytes, List.append_assoc, eth_hdr_type]
  · exact (hbyte 0).trans rfl
  · exact (hshort 2).trans (congrArg some (short_join _))
  · rw [hip_len, hhlen]
    omega
  · rw [hip_len, List.length_append, htotal]
    omega
  · exact ⟨0, (hshort 6).trans rfl, rfl⟩
  · exact (hbyte 9).trans rfl
  · exact (hlong 12).trans (longOf_octets p.src (octets p.dest ++ (udp_packet p.src p.dest sport dport data ++ pad)))
  · exact (hlong 16).trans (longOf_octets p.dest (udp_packet p.src p.dest sport dport data ++ pad))
  · rw [h14drop, hhlen, List.take_left' (ip_hdr_length _ _ _ _ _ _ _ _)]
    exact ip_hdr_chksum _ _ _ _ _ _ _
  · rw [hhlen]
    exact (hudp 0).trans (congrArg some (short_join _))
  · rw [hhlen]
    exact (hudp 2).trans (congrArg some (short_join _))
  · rw [hhlen]
    exact (hudp 4).trans ((congrArg some (short_join _)).trans (congrArg some hudp_len.symm))
  · rw [hhlen]
    exact (hudp 6).trans (congrArg some (short_join _))
  · refine Or.inr ?_
    rw [hudp_len, hhlen, h34drop, hudp_toNat, List.take_left' (udp_packet_length _ _ _ _ _)]
    exact udp_packet_chksum _ _ _ _ (by omega)

end Udp

end MultiIp.Board
