import MultiIp.Board.TxIntact
import MultiIp.Lwip.PbufStore

/-!
# Echo replies

`icmp_input` makes the reply out of the request: it writes into the chain that it
got and hands it back to `ip_output_if` with the IP header in place. Only the words
that it changes enter the new checksums.
-/

namespace MultiIp.Board

open Lwip Lib

/-! ## The code -/

/-- The packet in one pbuf with room for the link header. `mem` is what was in the block. -/
def pbuf_copy_link (p : RxPbuf) (mem : Nat → UInt8) : RxPbuf :=
  let payload := LWIP_MEM_ALIGN_SIZE (SIZEOF_STRUCT_PBUF + PBUF_LINK_HLEN) - SIZEOF_STRUCT_PBUF
  { mem := fun x => if payload ≤ x ∧ x < payload + p.bytes.length then p.bytes.getD (x - payload) 0 else mem x
    payload := payload, len := p.tot_len, tot_len := p.tot_len, next := [] }

/-- What `icmp_input` writes into the packet. `src` and `dest` are the addresses of the request. -/
def echoReply (p : RxPbuf) (src dest : ip_addr_t) : RxPbuf :=
  let hlen := ipHlen (p.byteAt 0)
  let p := p.write 12 (octets dest)
  let p := p.write 16 (octets src)
  let p := p.write hlen [ICMP_ER]
  let chksum := p.shortAt (hlen + 2)
  let p := p.write (hlen + 2) (shortBytes (if chksum ≥ 0xffff - 0x0800 then chksum + (0x0800 + 1) else chksum + 0x0800))
  let p := p.write 8 [ICMP_TTL]
  let p := p.write 10 (shortBytes 0)
  p.write 10 (shortBytes (inet_chksum ((List.range IP_HLEN).map p.byteAt)))

/-- Returns what is handed to `ip_output_if`. `block` is what the new block holds, if one is needed and there is one. -/
def icmp_input (net : Net) (p : RxPbuf) (inp : NetifPtr) (src dest : ip_addr_t) (block : Option (Nat → UInt8)) :
    Option RxPbuf :=
  match p.pbuf_header (-ipHlen (p.byteAt 0)) with
  | (_, true) => none
  | (q, false) =>
    if q.tot_len < 4 then none
    else if q.byteAt 0 ≠ ICMP_ECHO then none
    else if ip_addr_ismulticast dest || ip4_addr_isbroadcast dest (net.netifs inp) then none
    else if q.tot_len < SIZEOF_ICMP_ECHO_HDR then none
    else if inet_chksum_pbuf q.segs ≠ 0 then none
    -- Room for the headers in front of the ICMP header is looked for, and else made.
    else if (q.pbuf_header (PBUF_IP_HLEN + PBUF_LINK_HLEN : Nat)).2 then
      block.map (fun mem => echoReply (pbuf_copy_link p mem) src dest)
    else some (echoReply p src dest)

/-! ## What is sent back -/

/-- The parts of an IP packet with an echo message. `rest` is the id, the number and the data. -/
structure EchoPacket where
  /-- The IP header up to the fragment offset. -/
  front : List UInt8
  ttl : UInt8
  proto : UInt8
  ip_chksum : UInt16
  src : ip_addr_t
  dest : ip_addr_t
  options : List UInt8
  type : UInt8
  code : UInt8
  chksum : UInt16
  rest : List UInt8

namespace EchoPacket

def header (e : EchoPacket) : List UInt8 :=
  e.front ++ [e.ttl, e.proto] ++ shortBytes e.ip_chksum ++ octets e.src ++ octets e.dest ++ e.options

def message (e : EchoPacket) : List UInt8 := [e.type, e.code] ++ shortBytes e.chksum ++ e.rest

def bytes (e : EchoPacket) : List UInt8 := e.header ++ e.message

/-- The first byte says how long the header is, and the echo header is complete. -/
structure Formed (e : EchoPacket) : Prop where
  front : e.front.length = 8
  hlen : ipHlen (e.front.headD 0) = IP_HLEN + e.options.length
  rest : 4 ≤ e.rest.length
  fits : e.bytes.length ≤ 65535

/-- The echo reply. The checksum of the IP header is taken over 20 bytes. -/
def reply (e : EchoPacket) : EchoPacket :=
  { e with
      ttl := ICMP_TTL
      ip_chksum := inet_chksum (e.front ++ [ICMP_TTL, e.proto] ++ shortBytes 0 ++ octets e.dest ++ octets e.src)
      src := e.dest
      dest := e.src
      type := ICMP_ER
      chksum := if e.chksum ≥ 0xffff - 0x0800 then e.chksum + (0x0800 + 1) else e.chksum + 0x0800 }

end EchoPacket

section Reply

variable {p : RxPbuf} {e : EchoPacket}

theorem EchoPacket.Formed.length (h : e.Formed) : e.header.length = IP_HLEN + e.options.length := by
  simp [EchoPacket.header, h.front, IP_HLEN]
  omega

theorem EchoPacket.Formed.byteAt (h : e.Formed) (hp : p.bytes = e.bytes) (hlen : 0 < p.len.toNat) :
    ipHlen (p.byteAt 0) = IP_HLEN + e.options.length := by
  rw [← h.hlen]
  congr 1
  have hb := RxPbuf.bytes_getElem hlen
  have hfront := h.front
  rw [hp] at hb
  obtain ⟨x, l, hx⟩ : ∃ x l, e.front = x :: l := by
    cases hcase : e.front with
    | nil => rw [hcase] at hfront; cases hfront
    | cons x l => exact ⟨x, l, rfl⟩
  rw [EchoPacket.bytes, EchoPacket.header, hx] at hb
  rw [hx]
  exact (Option.some.inj hb).symm

/-- Each write of `icmp_input` changes one field. -/
theorem echoReply_bytes (h : e.Formed) (hp : p.bytes = e.bytes)
    (hfirst : IP_HLEN + e.options.length + 4 ≤ p.len.toNat) : (echoReply p e.src e.dest).bytes = e.reply.bytes := by
  have h20 : IP_HLEN = 20 := rfl
  have h8 := h.front
  have hlen := h.length
  rw [h20] at hfirst hlen
  unfold echoReply
  rw [h.byteAt hp (by omega), h20]
  dsimp only
  have h₁ : (p.write 12 (octets e.dest)).bytes = (e.front ++ [e.ttl, e.proto] ++ shortBytes e.ip_chksum) ++
      octets e.dest ++ (octets e.dest ++ e.options ++ e.message) :=
    RxPbuf.write_bytes (x := octets e.src) (by simp [hp, EchoPacket.bytes, EchoPacket.header]) rfl (by simp [h8])
      (by simp; omega)
  have hp₁ : (p.write 12 (octets e.dest)).len = p.len := rfl
  generalize p.write 12 (octets e.dest) = p₁ at h₁ hp₁ ⊢
  have h₂ : (p₁.write 16 (octets e.src)).bytes = (e.front ++ [e.ttl, e.proto] ++ shortBytes e.ip_chksum ++
      octets e.dest) ++ octets e.src ++ (e.options ++ e.message) :=
    RxPbuf.write_bytes (x := octets e.dest) (by simp [h₁]) rfl (by simp [h8]) (by simp [hp₁]; omega)
  have hp₂ : (p₁.write 16 (octets e.src)).len = p.len := hp₁
  generalize p₁.write 16 (octets e.src) = p₂ at h₂ hp₂ ⊢
  have h₃ : (p₂.write (20 + e.options.length) [ICMP_ER]).bytes = (e.front ++ [e.ttl, e.proto] ++
      shortBytes e.ip_chksum ++ octets e.dest ++ octets e.src ++ e.options) ++ [ICMP_ER] ++
      ([e.code] ++ shortBytes e.chksum ++ e.rest) :=
    RxPbuf.write_bytes (x := [e.type]) (by simp [h₂, EchoPacket.message]) rfl (by simp [h8]; omega) (by simp [hp₂]; omega)
  have hp₃ : (p₂.write (20 + e.options.length) [ICMP_ER]).len = p.len := hp₂
  generalize p₂.write (20 + e.options.length) [ICMP_ER] = p₃ at h₃ hp₃ ⊢
  have hchksum : p₃.shortAt (20 + e.options.length + 2) = e.chksum := by
    refine shortAt_of_bytes (by rw [hp₃]; omega) ?_
    have hsplit : p₃.bytes = (e.front ++ [e.ttl, e.proto] ++ shortBytes e.ip_chksum ++ octets e.dest ++ octets e.src ++
        e.options ++ [ICMP_ER, e.code]) ++ shortBytes e.chksum ++ e.rest := by simp [h₃]
    rw [hsplit]
    exact shortOf_append (by simp [h8]; omega) _
  rw [hchksum]
  generalize hc : (if e.chksum ≥ 0xffff - 0x0800 then e.chksum + (0x0800 + 1) else e.chksum + 0x0800) = c
  have h₄ : (p₃.write (20 + e.options.length + 2) (shortBytes c)).bytes = (e.front ++ [e.ttl, e.proto] ++
      shortBytes e.ip_chksum ++ octets e.dest ++ octets e.src ++ e.options ++ [ICMP_ER, e.code]) ++ shortBytes c ++ e.rest :=
    RxPbuf.write_bytes (x := shortBytes e.chksum) (by simp [h₃]) rfl (by simp [h8]; omega) (by simp [hp₃]; omega)
  have hp₄ : (p₃.write (20 + e.options.length + 2) (shortBytes c)).len = p.len := hp₃
  generalize p₃.write (20 + e.options.length + 2) (shortBytes c) = p₄ at h₄ hp₄ ⊢
  have h₅ : (p₄.write 8 [ICMP_TTL]).bytes = e.front ++ [ICMP_TTL] ++ ([e.proto] ++ shortBytes e.ip_chksum ++
      octets e.dest ++ octets e.src ++ e.options ++ [ICMP_ER, e.code] ++ shortBytes c ++ e.rest) :=
    RxPbuf.write_bytes (x := [e.ttl]) (by simp [h₄]) rfl h8 (by simp [hp₄]; omega)
  have hp₅ : (p₄.write 8 [ICMP_TTL]).len = p.len := hp₄
  generalize p₄.write 8 [ICMP_TTL] = p₅ at h₅ hp₅ ⊢
  have h₆ : (p₅.write 10 (shortBytes 0)).bytes = (e.front ++ [ICMP_TTL, e.proto]) ++ shortBytes 0 ++
      (octets e.dest ++ octets e.src ++ e.options ++ [ICMP_ER, e.code] ++ shortBytes c ++ e.rest) :=
    RxPbuf.write_bytes (x := shortBytes e.ip_chksum) (by simp [h₅]) rfl (by simp [h8]) (by simp [hp₅]; omega)
  have hp₆ : (p₅.write 10 (shortBytes 0)).len = p.len := hp₅
  generalize p₅.write 10 (shortBytes 0) = p₆ at h₆ hp₆ ⊢
  have hheader : (List.range 20).map p₆.byteAt =
      e.front ++ [ICMP_TTL, e.proto] ++ shortBytes 0 ++ octets e.dest ++ octets e.src := by
    have hsplit : p₆.bytes = (e.front ++ [ICMP_TTL, e.proto] ++ shortBytes 0 ++ octets e.dest ++ octets e.src) ++
        (e.options ++ [ICMP_ER, e.code] ++ shortBytes c ++ e.rest) := by simp [h₆]
    rw [map_byteAt_take (by rw [hp₆]; omega), hsplit, List.take_left' (by simp [h8])]
  rw [hheader]
  have h₇ := RxPbuf.write_bytes (x := shortBytes 0) h₆
    (rfl : _ = (shortBytes (inet_chksum (e.front ++ [ICMP_TTL, e.proto] ++ shortBytes 0 ++ octets e.dest ++
      octets e.src))).length) (k := 10) (by simp [h8]) (by simp [hp₆]; omega)
  have hreply : e.reply.chksum = c := hc
  rw [h₇, EchoPacket.bytes, EchoPacket.header, EchoPacket.message, hreply]
  simp [EchoPacket.reply]

end Reply

/-! ## What the receiver of the reply checks -/

section Checks

variable {e : EchoPacket}

theorem EchoPacket.Formed.reply (h : e.Formed) : e.reply.Formed := by
  refine ⟨h.front, h.hlen, h.rest, ?_⟩
  have hlen : e.reply.bytes.length = e.bytes.length := by
    simp [EchoPacket.reply, EchoPacket.bytes, EchoPacket.header, EchoPacket.message]
  rw [hlen]
  exact h.fits

theorem wordSum_message (type code : UInt8) (chksum : UInt16) (rest : List UInt8) :
    wordSum ([type, code] ++ shortBytes chksum ++ rest) = type.toNat * 256 + code.toNat + chksum.toNat + wordSum rest := by
  have hsum : (chksum >>> 8).toUInt8.toNat * 256 + chksum.toUInt8.toNat + 0 = chksum.toNat := wordSum_shortBytes chksum
  show type.toNat * 256 + code.toNat + ((chksum >>> 8).toUInt8.toNat * 256 + chksum.toUInt8.toNat + wordSum rest) = _
  rw [← hsum, Nat.add_zero]
  ac_rfl

theorem reply_chksum_toNat (e : EchoPacket) :
    e.reply.chksum.toNat = if 0xf7ff ≤ e.chksum.toNat then e.chksum.toNat - 0xf7ff else e.chksum.toNat + 0x0800 := by
  have hlt := e.chksum.toNat_lt
  have hbound : ((0xffff : UInt16) - 0x0800).toNat = 0xf7ff := by decide
  have hone : ((0x0800 : UInt16) + 1).toNat = 0x0801 := by decide
  have htwo : (0x0800 : UInt16).toNat = 0x0800 := by decide
  have hge : e.chksum ≥ 0xffff - 0x0800 ↔ 0xf7ff ≤ e.chksum.toNat := by
    rw [ge_iff_le, UInt16.le_iff_toNat_le, hbound]
  unfold EchoPacket.reply
  dsimp only
  by_cases hc : 0xf7ff ≤ e.chksum.toNat
  · rw [if_pos (hge.mpr hc), if_pos hc, UInt16.toNat_add, hone]
    omega
  · rw [if_neg (fun h => hc (hge.mp h)), if_neg hc, UInt16.toNat_add, htwo]
    omega

theorem reply_message_sum (e : EchoPacket) :
    wordSum e.reply.message = e.code.toNat + e.reply.chksum.toNat + wordSum e.rest := by
  have h0 : ICMP_ER.toNat = 0 := rfl
  rw [EchoPacket.message, wordSum_message]
  simp only [EchoPacket.reply, h0, Nat.zero_mul, Nat.zero_add]

/-- The adjusted checksum is right where the old one was. -/
theorem reply_message_right (htype : e.type = ICMP_ECHO) (h : ChksumRight e.message) : ChksumRight e.reply.message := by
  have hc := reply_chksum_toNat e
  have h8 : ICMP_ECHO.toNat = 8 := rfl
  unfold ChksumRight at *
  rw [EchoPacket.message, wordSum_message, htype, h8] at h
  rw [reply_message_sum, hc]
  unfold Nat.ModEq at *
  split <;> omega

theorem all_zero_message (type code : UInt8) (chksum : UInt16) (rest : List UInt8) :
    (∀ b ∈ [type, code] ++ shortBytes chksum ++ rest, b = 0) ↔ type = 0 ∧ code = 0 ∧ chksum = 0 ∧ ∀ b ∈ rest, b = 0 := by
  have h0 : ∀ a : UInt8, a.toNat = 0 ↔ a = 0 := fun a => by rw [← UInt8.toNat_inj]; rfl
  have h1 : chksum.toNat = 0 ↔ chksum = 0 := by rw [← UInt16.toNat_inj]; rfl
  rw [← wordSum_eq_zero, wordSum_message, ← wordSum_eq_zero, ← h0 type, ← h0 code, ← h1]
  omega

/-- The adjusted checksum of a message of zeros is 0, where all ones would be right. -/
theorem reply_message_zero (htype : e.type = ICMP_ECHO) (h : ChksumRight e.message) :
    (∀ b ∈ e.reply.message, b = 0) ↔ e.code = 0 ∧ ∀ b ∈ e.rest, b = 0 := by
  have hc := reply_chksum_toNat e
  have hlt := e.chksum.toNat_lt
  have h8 : ICMP_ECHO.toNat = 8 := rfl
  unfold ChksumRight at h
  rw [EchoPacket.message, wordSum_message, htype, h8] at h
  rw [EchoPacket.message, all_zero_message]
  constructor
  · rintro ⟨-, hcode, -, hrest⟩
    exact ⟨hcode, hrest⟩
  · rintro ⟨hcode, hrest⟩
    refine ⟨rfl, hcode, UInt16.toNat_inj.mp ?_, hrest⟩
    have hzero : (0 : UInt8).toNat = 0 := rfl
    rw [hcode, wordSum_eq_zero.mpr hrest, hzero] at h
    rw [hc, UInt16.toNat_zero]
    unfold Nat.ModEq at h
    split <;> omega

/-- The sum over 20 bytes is right, so over the whole header it is that of the options. -/
theorem reply_header_right (h : e.Formed) : ChksumRight e.reply.header ↔ ChksumRight e.options := by
  have hfill := chksumRight_fill (s := e.front ++ [ICMP_TTL, e.proto]) (t := octets e.dest ++ octets e.src)
    (by simp [h.front]) (by simp [h.front])
  have hsplit : e.reply.header = (e.front ++ [ICMP_TTL, e.proto] ++ shortBytes (inet_chksum (e.front ++
      [ICMP_TTL, e.proto] ++ shortBytes 0 ++ (octets e.dest ++ octets e.src))) ++ (octets e.dest ++ octets e.src)) ++
      e.options := by
    simp [EchoPacket.reply, EchoPacket.header]
  have happ := wordSum_append_even (s := e.front ++ [ICMP_TTL, e.proto] ++ shortBytes (inet_chksum (e.front ++
    [ICMP_TTL, e.proto] ++ shortBytes 0 ++ (octets e.dest ++ octets e.src))) ++ (octets e.dest ++ octets e.src))
    (by simp [h.front]) e.options
  unfold ChksumRight at *
  rw [hsplit]
  unfold Nat.ModEq at *
  omega

end Checks

/-! ## Which requests are answered -/

section Input

variable {p : RxPbuf} {e : EchoPacket} {net : Net} {inp : NetifPtr} {block : Option (Nat → UInt8)}

/-- An echo request is to be answered: to one host, with a right checksum. -/
structure EchoRequest (net : Net) (inp : NetifPtr) (e : EchoPacket) : Prop where
  type : e.type = ICMP_ECHO
  chksum : ChksumRight e.message
  unicast : ip_addr_ismulticast e.dest = false ∧ ip4_addr_isbroadcast e.dest (net.netifs inp) = false

theorem icmp_input_eq (hp : p.Whole) (h : e.Formed) (hb : p.bytes = e.bytes)
    (hfirst : IP_HLEN + e.options.length + SIZEOF_ICMP_ECHO_HDR.toNat ≤ p.len.toNat) (hroom : SIZEOF_ETH_HDR ≤ p.payload)
    (r : RxPbuf) : icmp_input net p inp e.src e.dest block = some r ↔
      EchoRequest net inp e ∧ r = echoReply p e.src e.dest := by
  have h20 : IP_HLEN = 20 := rfl
  have h14 : SIZEOF_ETH_HDR = 14 := rfl
  have h8 : SIZEOF_ICMP_ECHO_HDR.toNat = 8 := rfl
  rw [h20, h8] at hfirst
  rw [h14] at hroom
  have hlen := h.length
  rw [h20] at hlen
  have hbyte := h.byteAt hb (by omega)
  rw [h20] at hbyte
  have hhide := RxPbuf.pbuf_header_hide (p := p) (h := 20 + e.options.length) (by omega)
  have hbytes : (p.hide (20 + e.options.length)).bytes = e.message := by
    rw [RxPbuf.hide_bytes (by omega), hb, EchoPacket.bytes, List.drop_left' hlen]
  have hwhole : (p.hide (20 + e.options.length)).Whole := hp.hide (by omega)
  have hqlen := RxPbuf.hide_len (p := p) (h := 20 + e.options.length) (by omega)
  have hmsg : e.message.length = 4 + e.rest.length := by
    simp [EchoPacket.message]
    omega
  have htot : (p.hide (20 + e.options.length)).tot_len.toNat = 4 + e.rest.length := by
    rw [hwhole, hbytes, hmsg]
  have htype : (p.hide (20 + e.options.length)).byteAt 0 = e.type := by
    refine byteAt_of_bytes (by omega) ?_
    rw [hbytes]
    rfl
  have hpay : (p.hide (20 + e.options.length)).payload = p.payload + (20 + e.options.length) := rfl
  have hsum : inet_chksum_pbuf (p.hide (20 + e.options.length)).segs = 0 ↔
      ChksumRight e.message ∧ ∃ b ∈ e.message, b ≠ 0 := by
    rw [inet_chksum_pbuf_eq_zero (segs_length hwhole), segs_flatten, hbytes]
  have hrest := h.rest
  unfold icmp_input
  rw [hbyte, hhide]
  dsimp only
  generalize p.hide (20 + e.options.length) = q at *
  have hfour : ¬ q.tot_len < 4 := by
    rw [UInt16.lt_iff_toNat_lt, htot]
    show ¬ _ < 4
    omega
  have height : ¬ q.tot_len < SIZEOF_ICMP_ECHO_HDR := by
    rw [UInt16.lt_iff_toNat_lt, htot, h8]
    omega
  have hfits : (q.pbuf_header (PBUF_IP_HLEN + PBUF_LINK_HLEN : Nat)).2 = false := by
    have h34 : PBUF_IP_HLEN + PBUF_LINK_HLEN = 34 := rfl
    rw [h34]
    unfold RxPbuf.pbuf_header
    rw [if_neg (by omega), if_neg (by omega), if_neg (by omega)]
  rw [if_neg hfour, htype]
  by_cases hecho : e.type = ICMP_ECHO
  · rw [if_neg (not_not.mpr hecho)]
    by_cases haddr : (ip_addr_ismulticast e.dest || ip4_addr_isbroadcast e.dest (net.netifs inp)) = true
    · rw [if_pos haddr]
      refine iff_of_false (by simp) (fun hr => ?_)
      obtain ⟨hm, hbr⟩ := hr.1.unicast
      rw [hm, hbr] at haddr
      exact Bool.false_ne_true haddr
    · rw [if_neg haddr, if_neg height]
      by_cases hright : ChksumRight e.message
      · have hnonzero : ∃ b ∈ e.message, b ≠ 0 := ⟨e.type, by simp [EchoPacket.message], by rw [hecho]; decide⟩
        rw [if_neg (not_not.mpr (hsum.mpr ⟨hright, hnonzero⟩)), hfits, if_neg Bool.false_ne_true]
        simp only [Bool.or_eq_true, not_or, Bool.not_eq_true] at haddr
        constructor
        · intro hr
          exact ⟨⟨hecho, hright, haddr⟩, (Option.some.inj hr).symm⟩
        · rintro ⟨-, rfl⟩
          rfl
      · rw [if_pos (fun hz => hright (hsum.mp hz).1)]
        exact iff_of_false (by simp) (fun hr => hright hr.1.chksum)
  · rw [if_pos hecho]
    exact iff_of_false (by simp) (fun hr => hecho hr.1.type)

/-- The header and the message of a reply against the checks that its receiver makes. -/
structure ReplyChecks (e : EchoPacket) : Prop where
  header : inet_chksum e.reply.header = 0 ↔ ChksumRight e.options
  /-- However the message is spread over a chain. -/
  message : ∀ segs, segs.flatten = e.reply.message → (∀ q ∈ segs, q.length ≤ 65535) →
    (inet_chksum_pbuf segs = 0 ↔ ¬ (e.code = 0 ∧ ∀ b ∈ e.rest, b = 0))

theorem EchoRequest.checks (h : e.Formed) (hr : EchoRequest net inp e) : ReplyChecks e := by
  refine ⟨?_, fun segs hsegs hlen => ?_⟩
  · have hlength : e.reply.header.length ≤ 65535 := by
      have hfits := h.reply.fits
      rw [EchoPacket.bytes, List.length_append] at hfits
      omega
    have hpos : 0 < wordSum e.reply.header := by
      refine Nat.pos_of_ne_zero (fun hz => ?_)
      have httl := wordSum_eq_zero.mp hz ICMP_TTL (by simp [EchoPacket.reply, EchoPacket.header])
      exact absurd httl (by decide)
    rw [inet_chksum_eq_zero hlength hpos]
    exact reply_header_right h
  · have hzero := reply_message_zero hr.type hr.chksum
    rw [inet_chksum_pbuf_eq_zero hlen, hsegs, and_iff_right (reply_message_right hr.type hr.chksum), ← hzero]
    simp only [not_forall, exists_prop, ne_eq]

end Input

/-- An echo request with three no-operation options behind its header and the end of the options. -/
def knock : EchoPacket where
  front := [0x46, 0, 0, 34, 0, 1, 0, 0]
  ttl := 64
  proto := IP_PROTO_ICMP
  ip_chksum := 0
  src := 0x0a00000a
  dest := 0x0a00000b
  options := [1, 1, 1, 0]
  type := ICMP_ECHO
  code := 0
  chksum := 0xdfe5
  rest := [0xaf, 0xaf, 0, 1, 104, 105]

def knockPbuf : RxPbuf := (onePbuf (List.replicate SIZEOF_ETH_HDR 0 ++ knock.bytes)).hide SIZEOF_ETH_HDR

end MultiIp.Board
