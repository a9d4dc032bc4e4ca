import MultiIp.Board.Network

/-!
# Messages arrive

A frame that a board has sent, once it arrives where a socket is open at its
address and port, is read there: from the sender it names, up to its 256th byte.
-/

namespace MultiIp.Board

open Lwip Lib

/-! ## The boards of a network -/

/-- What holds of a board besides `Inv`: the bindings of its control blocks never compete. -/
structure Sound (b : Board) : Prop where
  inv : Inv b
  apart : NoCompete b.udp
  connected : LocatorConnected b.udp

theorem move_sound {b : Board} {m : Move} (h : Sound b) (ha : m.allowed b) : Sound (move b m) := by
  rcases move_cases b m with ⟨a, rfl⟩ | ⟨net, harp, heq⟩
  · obtain ⟨⟨hinv, hc⟩, hlc⟩ := step_connected b a ⟨⟨h.inv, h.apart⟩, h.connected⟩ ha
    exact ⟨hinv, hc, hlc⟩
  · have hinv := move_inv b m h.inv ha
    rw [heq] at hinv ⊢
    exact ⟨hinv, h.apart, h.connected⟩

theorem boot_sound (c : Boot) : Sound (boot c) := ⟨boot_inv c, boot_noCompete c, boot_connected c⟩

section Network

variable {ι : Type} [DecidableEq ι]

/-- An action moves one board, and leaves the others alone. -/
theorem networkStep_reaches {s : ι → Board} {a : NetworkAction ι} (ha : networkAllowed s a) (i : ι) :
    moves.Reaches (s i) (networkStep s a i) := by
  have hupdate : ∀ (j : ι) (b : Board), moves.Reaches (s j) b → moves.Reaches (s i) (Function.update s j b i) := by
    intro j b hb
    exact (Function.forall_update_iff s (fun k => moves.Reaches (s k))).mpr ⟨hb, fun k _ => .refl _⟩ i
  cases a with
  | run j m => exact hupdate j _ (.step (M := moves) ha.2)
  | deliver k j f p alloc out =>
    refine hupdate j _ ?_
    rw [rx_frame_eq]
    cases hmove : rxMove (s j) p alloc out with
    | none => exact .refl _
    | some m => exact .step (M := moves) (rxMove_allowed hmove)

theorem network_reaches {s : ι → Board} {as : List (NetworkAction ι)} (hl : (network ι).Legal s as) (i : ι) :
    moves.Reaches (s i) ((network ι).run s as i) :=
  Machine.Reaches.of_run (N := network ι) (fun s => s i) (fun _ _ ha => networkStep_reaches ha i) hl

theorem network_sound (cs : ι → Boot) {as : List (NetworkAction ι)} (hl : (network ι).Legal (fun i => boot (cs i)) as)
    (i : ι) : Sound ((network ι).run (fun i => boot (cs i)) as i) :=
  (network_reaches hl i).invariant (fun _ _ => move_sound) (boot_sound (cs i))

end Network

/-! ## Reception -/

section Receive

variable {b : Board} {i : SlotIdx} {p : RxPbuf} {h : UdpHeaders} {addr : ip_addr_t} {port : UInt16}

/-- An intact datagram for an open socket is handed to the callback with the socket's slot. -/
theorem intact_handed (hb : Sound b) (hopen : OpenAt b i addr port) (haddr : Unicast b.net addr) (hp : p.Whole)
    (hf : IntactUdp p.bytes h) (hfirst : HeadersInFirst p h) (hdest_ip : h.dest_ip = addr) (hdest : h.dest = port)
    (hsrc : Unicast b.net h.src_ip) (hdhcp : port ≠ DHCP_CLIENT_PORT) :
    ∃ inp d, ethernet_input_udp b.net p = some (inp, d) ∧ Carries d h ∧ handedTo b inp d = some (i : Nat) := by
  obtain ⟨l, hl⟩ := hb.inv.registry
  obtain ⟨m, hm⟩ := hb.inv.net
  obtain ⟨huse, n, pcb, hnetif, hpcb, rfl, hip, rfl⟩ := hopen
  have hn : n ∈ m := by
    obtain ⟨n', hn', heq⟩ := hm.sockets i huse
    obtain rfl : n = n' := Option.some.inj (hnetif.symm.trans heq)
    exact hn'
  obtain ⟨inp, hinp, hroute, hinp_ip⟩ := netif_alias_route_spec hm hn haddr
  have hlist : inp ∈ b.net.list := by rwa [hm.list_eq]
  have hetharp : (b.net.netifs inp).has NETIF_FLAG_ETHARP = true := by
    simp only [netif.has, hm.flags_eq hinp]
    decide
  have haccept : ipAccepts b.net h.dest_ip inp = true := by
    rw [hdest_ip, ← hinp_ip]
    exact ipAccepts_address hm hinp (hinp_ip ▸ haddr)
  obtain ⟨d, heq, hd⟩ :=
    ethernet_input_udp_carries hp hf hfirst (hdest_ip ▸ hroute) hetharp haccept (hsrc.2 inp hlist) hsrc.1
  have hd_ip : d.dest_ip = (b.net.netifs n).ip_addr := hd.dest_ip.trans hdest_ip
  have hd_port : d.dest = (b.udp.pcbs pcb).local_port := hd.dest.trans hdest
  refine ⟨inp, d, heq, hd, ?_⟩
  refine handedTo_socket hl hb.apart hb.connected hpcb (hip.trans hd_ip.symm) hd_port.symm ?_ hd.intact (hd_port ▸ hdhcp)
  rw [hd_ip]
  exact haddr.2 inp hlist

/-- The callback of an open socket whose mailbox is empty. -/
theorem rx_callback_empty (huse : (b.s_listeners i).in_use = true) (hempty : (b.s_listeners i).rx_msg.valid = false)
    (q : pbuf) (src_ip : ip_addr_t) (src : UInt16) :
    (udp_rx_callback b i (some q) src_ip src).s_listeners i =
      { b.s_listeners i with rx_msg := rxMessage (b.s_listeners i).rx_msg q src_ip src } := by
  have hlt : (i : Nat) < 256 := lt_of_lt_of_le i.isLt (by decide)
  have hslot : callbackSlot b i i = true := by
    simp [callbackSlot, Nat.mod_eq_of_lt hlt, huse]
  rw [rx_callback_slots, if_pos hslot, receiveSlot, if_neg (by simp [hempty])]

theorem udp_input_empty {inp : NetifPtr} {d : Datagram} (huse : (b.s_listeners i).in_use = true)
    (hempty : (b.s_listeners i).rx_msg.valid = false) (hcall : handedTo b inp d = some (i : Nat)) (alloc : Bool)
    (out : Alloc) :
    (udp_input b inp d alloc out).s_listeners i =
      { b.s_listeners i with rx_msg := rxMessage (b.s_listeners i).rx_msg d.payload d.src_ip d.src } := by
  rcases udp_input_calls b inp d alloc out with ⟨arg, u, harg, heq⟩ | ⟨hnone, -⟩
  · obtain rfl : arg = i := Option.some.inj (harg.symm.trans hcall)
    rw [heq]
    exact rx_callback_empty (b := { b with udp := u }) huse hempty _ _ _
  · rw [hnone] at hcall
    cases hcall

/-- What is read from the mailbox. -/
theorem poll_rx_full {id : udp_sock_id_t} (hid : resolve b id = some i) (hv : (b.s_listeners i).rx_msg.valid = true)
    (cell : udp_rx_msg_t) : (udp_source_poll_rx b id (some cell)).2 = (true, some (b.s_listeners i).rx_msg) := by
  unfold udp_source_poll_rx
  rw [hid]
  dsimp only
  rw [if_pos hv]

theorem resolve_congr {b b' : Board} {id : udp_sock_id_t} (hid : resolve b id = some i)
    (huse : (b'.s_listeners i).in_use = (b.s_listeners i).in_use)
    (hgen : (b'.s_listeners i).generation_count = (b.s_listeners i).generation_count) : resolve b' id = some i := by
  unfold resolve at hid ⊢
  dsimp only at hid ⊢
  split at hid
  · rename_i hlt
    rw [dif_pos hlt]
    split at hid
    · cases hid
    · obtain rfl := Option.some.inj hid
      rw [huse, hgen]
      rename_i hcond
      rw [if_neg hcond]
  · cases hid

end Receive

/-! ## Delivery -/

section Delivery

variable {ι : Type} [DecidableEq ι]

theorem run_deliver (s : ι → Board) (as : List (NetworkAction ι)) (i j : ι) (f : Frame) (p : RxPbuf) (alloc : Bool)
    (out : Alloc) :
    (network ι).run s (as ++ [.deliver i j f p alloc out]) j = rx_frame ((network ι).run s as j) p alloc out := by
  rw [Machine.run_append]
  exact Function.update_self _ _ _

end Delivery

/-- The board asks for 10.0.0.11 and gets the answer. -/
def askFrame : Frame := .arp ethbroadcast (twoMacs here) ⟨1, 0x0800, 6, 4, ARP_REQUEST, twoMacs here, 0x0a00000a, ethzero, 0x0a00000b⟩

def toldFrame : Frame := .arp (twoMacs here) (twoMacs there) ⟨1, 0x0800, 6, 4, ARP_REPLY, twoMacs there, 0x0a00000b, twoMacs here, 0x0a00000a⟩

theorem askFrame_arrives : Arrives askFrame (onePbuf (padded askFrame)) :=
  padded_arrives (by unfold RxPbuf.Whole; decide +kernel) 18 (by decide +kernel)

theorem toldFrame_arrives : Arrives toldFrame (onePbuf (padded toldFrame)) :=
  padded_arrives (by unfold RxPbuf.Whole; decide +kernel) 18 (by decide +kernel)

/-- Two bytes from port 4000 of the one board to port 5000 of the other. -/
def greetPacket : ip_packet := ⟨0x0a00000a, 0x0a00000b, 255, 0, .udp 4000 5000 [104, 105]⟩

def greetFrame : Frame := .ip (twoMacs there) (twoMacs here) greetPacket

def greetRun : List (NetworkAction (Fin 2)) :=
  [.run here (.call (.add_listener .phys 4000 (some 0))), .run there (.call (.add_listener .phys 5000 (some 0))),
    .run here (.call (.data_send 0 (some .phys) 0x0a00000b 5000 (some [104, 105]) 2 true ⟨true, true⟩)),
    .deliver here there askFrame (onePbuf (padded askFrame)) true ⟨true, true⟩,
    .deliver there here toldFrame (onePbuf (padded toldFrame)) true ⟨true, true⟩]

theorem greetRun_legal : (network (Fin 2)).Legal (fun i => boot (twoBoots i)) greetRun :=
  ⟨⟨rfl, by decide +kernel⟩, ⟨rfl, by decide +kernel⟩, ⟨rfl, by decide +kernel⟩,
    ⟨⟨.phys, by decide +kernel⟩, askFrame_arrives.damaged⟩, ⟨⟨.phys, by decide +kernel⟩, toldFrame_arrives.damaged⟩, trivial⟩

end MultiIp.Board
