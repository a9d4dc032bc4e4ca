import MultiIp.Board.ArpMoves
import MultiIp.Board.Bindings
import MultiIp.Lwip.EtharpLoad

/-!
# What a board sends is what it was told to send

Each move of the board hands at most one packet to `ip_output_if`: the datagram of
a `data_send`, the locator's answer or an echo request. Along every run each
packet is sent at most as often as it was handed in.
-/

namespace MultiIp.Board

open Lwip Lib

/-! ## The packet of a move -/

/-- What `udp_sendto_if` makes of the data, when it sends it. -/
def udpPacket (net : Net) (c : udp_pcb) (data : List UInt8) (dst_ip : ip_addr_t) (dst_port : UInt16) (n : NetifPtr) :
    ip_packet where
  src := (net.netifs n).ip_addr
  dest := dst_ip
  ttl := c.ttl
  tos := c.tos
  payload := .udp c.local_port dst_port data

/-- What `ip_output_if` makes of its arguments. -/
def ipPacket (net : Net) (src dest : ip_addr_t) (ttl tos : UInt8) (p : IpPayload) (n : NetifPtr) : ip_packet where
  src := if ip_addr_isany src then (net.netifs n).ip_addr else src
  dest := dest
  ttl := ttl
  tos := tos
  payload := p

/-- The packet of `udp_source_data_send`. -/
def sendPacket (b : Board) (id : udp_sock_id_t) (tx_netif : Option NetifPtr) (ip : ip_addr_t) (port : UInt16)
    (data : Option (List UInt8)) (len : UInt16) : Option ip_packet :=
  match resolve b id, tx_netif, data with
  | some idx, some n, some data =>
    ((b.s_listeners idx).pcb).map (fun pcb => udpPacket b.net (b.udp.pcbs pcb) (data.take len.toNat) ip port n)
  | _, _, _ => none

/-- The bytes of the locator's answer. -/
def locatorReply (b : Board) : List UInt8 := b.locatorData.take 83 ++ [locatorChecksum b.locatorData]

/-- The packet of the answer to a datagram, if the locator gets it. -/
def replyPacket (b : Board) (inp : NetifPtr) (d : Datagram) : Option ip_packet :=
  match udp_input_find b.udp (b.net.netifs inp) d with
  | (u, some pcb) =>
    if d.intact && (u.pcbs pcb).recv == some .LocatorReceive then
      (ip_route b.net d.src_ip).map (fun n => udpPacket b.net (u.pcbs pcb) (locatorReply b) d.src_ip d.src n)
    else none
  | (_, none) => none

/-- What a move hands to `ip_output_if`. -/
def handed (b : Board) : Move → Option ip_packet
  | .call (.data_send id n ip port data len _ _) => sendPacket b id n ip port data len
  | .call (.udp_input inp d _ _) => replyPacket b inp d
  | .output src dest ttl tos p n _ => some (ipPacket b.net src dest ttl tos p n)
  | _ => none

/-! ## Sending -/

section Send

theorem ip_output_if_passes (net : Net) (src dest : ip_addr_t) (ttl tos : UInt8) (p : IpPayload) (n : NetifPtr)
    (alloc : Alloc) :
    Arp.Passes [ipPacket net src dest ttl tos p n] net.arp (ip_output_if net src dest ttl tos p n alloc).1.arp := by
  unfold ip_output_if
  dsimp only
  split
  · exact .output _ _ _ _ _ _
  · exact (Arp.Passes.refl _).drop

theorem udp_sendto_if_bound_passes (net : Net) (c : udp_pcb) (data : List UInt8) (ip : ip_addr_t) (port : UInt16)
    (n : NetifPtr) (alloc : Alloc) :
    Arp.Passes [udpPacket net c data ip port n] net.arp (udp_sendto_if_bound net c data ip port n alloc).1.arp := by
  unfold udp_sendto_if_bound
  split
  · have hpass := ip_output_if_passes net (net.netifs n).ip_addr ip c.ttl c.tos (.udp c.local_port port data) n alloc
    have hsame : ipPacket net (net.netifs n).ip_addr ip c.ttl c.tos (.udp c.local_port port data) n =
        udpPacket net c data ip port n := by simp [ipPacket, udpPacket]
    rwa [hsame] at hpass
  · rename_i hany
    split
    · exact (Arp.Passes.refl _).drop
    · rename_i hip
      have hpass := ip_output_if_passes net c.local_ip ip c.ttl c.tos (.udp c.local_port port data) n alloc
      have hsame : ipPacket net c.local_ip ip c.ttl c.tos (.udp c.local_port port data) n =
          udpPacket net c data ip port n := by
        rw [ipPacket, if_neg hany, not_not.mp hip]
        rfl
      rwa [hsame] at hpass

theorem udp_sendto_if_passes {u : Udp} {pcb : PcbPtr} (hport : (u.pcbs pcb).local_port ≠ 0) (net : Net)
    (data : List UInt8) (ip : ip_addr_t) (port : UInt16) (n : NetifPtr) (alloc : Alloc) :
    Arp.Passes [udpPacket net (u.pcbs pcb) data ip port n] net.arp (udp_sendto_if net u pcb data ip port n alloc).1.arp := by
  unfold udp_sendto_if
  rw [if_neg hport]
  exact udp_sendto_if_bound_passes _ _ _ _ _ _ _

end Send

section Step

variable {b : Board} {l : List PcbPtr}

theorem data_send_passes (h : b.Registry l) (id : udp_sock_id_t) (n : Option NetifPtr) (ip : ip_addr_t) (port : UInt16)
    (data : Option (List UInt8)) (len : UInt16) (alloc : Bool) (out : Alloc) :
    Arp.Passes (sendPacket b id n ip port data len).toList b.net.arp
      (udp_source_data_send b id n ip port data len alloc out).1.net.arp := by
  unfold udp_source_data_send sendPacket
  cases resolve b id with
  | none => exact (Arp.Passes.refl _).drop
  | some idx =>
    cases n with
    | none => exact (Arp.Passes.refl _).drop
    | some n =>
      cases data with
      | none => exact (Arp.Passes.refl _).drop
      | some data =>
        dsimp only
        split
        · exact (Arp.Passes.refl _).drop
        · split
          · exact (Arp.Passes.refl _).drop
          · cases hp : (b.s_listeners idx).pcb with
            | none => exact (Arp.Passes.refl _).drop
            | some p => exact udp_sendto_if_passes (h.port p (h.owned _ p hp).1) _ _ _ _ _ _

theorem LocatorReceive_passes {b : Board} {l : List PcbPtr} (h : b.Registry l) {p : PcbPtr} (hp : p ∈ l) (d : pbuf)
    (addr : ip_addr_t) (port : UInt16) (alloc : Bool) (out : Alloc) :
    Arp.Passes ((ip_route b.net addr).map (fun n => udpPacket b.net (b.udp.pcbs p) (locatorReply b) addr port n)).toList
      b.net.arp (LocatorReceive b p d addr port alloc out).net.arp := by
  unfold LocatorReceive
  split
  · split
    · exact (Arp.Passes.refl _).drop
    · dsimp only
      unfold udp_sendto
      split
      · exact (Arp.Passes.refl _).drop
      · rename_i n hn
        rw [hn]
        exact udp_sendto_if_passes (h.port p hp) _ _ _ _ _ _
  · exact (Arp.Passes.refl _).drop

theorem udp_input_passes (h : b.Registry l) (inp : NetifPtr) (d : Datagram) (alloc : Bool) (out : Alloc) :
    Arp.Passes (replyPacket b inp d).toList b.net.arp (udp_input b inp d alloc out).net.arp := by
  obtain ⟨u, r, l', hfind, hwf, hperm, hpcbs, hr⟩ := udp_input_find_spec h.wf (b.net.netifs inp) d
  have hreg : ({ b with udp := u } : Board).Registry l' := RegInv.reorder h hwf hperm hpcbs
  unfold udp_input replyPacket
  rw [hfind]
  cases r with
  | none => exact Arp.Passes.refl _
  | some p =>
    dsimp only
    cases d.intact with
    | false => exact (Arp.Passes.refl _).drop
    | true =>
      cases hrecv : (u.pcbs p).recv with
      | none => exact (Arp.Passes.refl _).drop
      | some fn =>
        cases fn with
        | udp_rx_callback =>
          simp only [Bool.not_true, Bool.false_eq_true, if_false, rx_callback_net]
          exact (Arp.Passes.refl _).drop
        | LocatorReceive => exact LocatorReceive_passes hreg (hperm.mem_iff.mpr (hr p rfl).1) _ _ _ _ _

theorem ethernet_input_arp_passes (net : Net) (f : ArpFrame) :
    Arp.Passes [] net.arp (ethernet_input_arp net f).arp := by
  unfold ethernet_input_arp
  dsimp only
  split
  · exact .arp_input _ _ _ f
  · exact .refl _

theorem netif_set_up_passes (net : Net) (n : NetifPtr) (alloc : Bool) :
    Arp.Passes [] net.arp (netif_set_up net n alloc).arp := by
  unfold netif_set_up
  split
  · exact .refl _
  · dsimp only
    split
    · exact .request _ _ _ _ _
    · exact .refl _

theorem net_if_add_passes (b : Board) (ip mask gw : ip_addr_t) (alloc : Bool) :
    Arp.Passes [] b.net.arp (net_if_add b ip mask gw alloc).1.net.arp := by
  rw [net_if_add_fst]
  unfold lwIPAliasAdd
  split
  · exact .refl _
  · split
    · exact .refl _
    · rename_i idx _
      have harp := netif_add_arp b.net (.alias_list idx) ip mask gw .null
        (hdkif_alias_init (some (b.net.netifs .phys)))
      split <;> rename_i heq <;> rw [heq] at harp
      · exact harp ▸ .refl _
      · dsimp only
        rw [← harp]
        exact netif_set_up_passes _ _ _

theorem netif_set_down_passes (net : Net) (n : NetifPtr) : Arp.Passes [] net.arp (netif_set_down net n).arp := by
  unfold netif_set_down
  split
  · dsimp only
    split
    · dsimp only [Net.modify]
      exact Arp.Passes.cleanup_netif net.arp n
    · exact Arp.Passes.refl net.arp
  · exact Arp.Passes.refl net.arp

theorem netif_remove_passes (net : Net) (n : NetifPtr) : Arp.Passes [] net.arp (netif_remove net n).arp := by
  have hdown : Arp.Passes [] net.arp (if netif_is_up (net.netifs n) then netif_set_down net n else net).arp := by
    split
    · exact netif_set_down_passes net n
    · exact Arp.Passes.refl net.arp
  unfold netif_remove
  generalize (if netif_is_up (net.netifs n) then netif_set_down net n else net) = down at hdown
  have harp := netif_unlink_arp down n
  dsimp only
  split <;> rename_i net' heq <;> rw [heq] at harp
  · have hsame : net'.arp = down.arp := harp
    rw [hsame]
    exact hdown
  · have hsame : net'.arp = down.arp := harp
    split
    · show Arp.Passes [] net.arp net'.arp
      rw [hsame]
      exact hdown
    · rw [hsame]
      exact hdown

theorem net_if_remove_passes (b : Board) (n : NetifPtr) : Arp.Passes [] b.net.arp (net_if_remove b (some n)).1.net.arp := by
  unfold net_if_remove
  dsimp only
  split
  · exact .refl _
  · rw [← remove_all_net b (some n)]
    unfold lwIPAliasRemove
    split
    · exact .refl _
    · split
      · exact netif_remove_passes _ _
      · exact .refl _

theorem passes_of_net {b b' : Board} (h : b'.net = b.net) : Arp.Passes [] b.net.arp b'.net.arp := by
  rw [h]
  exact .refl _

/-- A move sends or queues the packet that it is handed, at most once, and the packets that were queued. -/
theorem move_passes (h : b.Registry l) (m : Move) : Arp.Passes (handed b m).toList b.net.arp (move b m).net.arp := by
  cases m with
  | call a =>
    cases a with
    | add_listener n port cell => exact passes_of_net (add_listener_net b (some n) port cell)
    | remove_listener id => exact passes_of_net (remove_listener_net b id)
    | remove_all_on_netif n => exact passes_of_net (remove_all_net b n)
    | netif_ip_changed n => exact passes_of_net (netif_ip_changed_net b n)
    | data_send id n ip port data len alloc out => exact data_send_passes h id n ip port data len alloc out
    | poll_rx id msg => exact passes_of_net (poll_rx_net b id msg)
    | rx_callback arg p addr port => exact passes_of_net (rx_callback_net b arg p addr port)
    | udp_input inp d alloc out => exact udp_input_passes h inp d alloc out
    | net_if_add ip mask gw alloc => exact net_if_add_passes b ip mask gw alloc
    | net_if_remove n => exact net_if_remove_passes b n
    | set_ipaddr n ip => exact Arp.Passes.refl b.net.arp
    | set_netmask n mask => exact Arp.Passes.refl b.net.arp
    | set_gw n gw => exact Arp.Passes.refl b.net.arp
    | arp_input f => exact ethernet_input_arp_passes b.net f
  | output src dest ttl tos p n alloc => exact ip_output_if_passes b.net src dest ttl tos p n alloc
  | query n ip alloc => exact Arp.Passes.query b.net.arp n (b.net.netifs n) ip none alloc
  | find_addr ip => exact Arp.Passes.find_addr b.net.arp ip
  | cleanup_netif n =>
    dsimp only [move]
    exact Arp.Passes.cleanup_netif b.net.arp n

end Step

/-! ## Runs -/

/-- What the moves of a run hand to `ip_output_if`, in order. -/
def handedBy (b : Board) (ms : List Move) : List ip_packet :=
  moves.record (fun out b m => out ++ (handed b m).toList) [] b ms

theorem lwIPNetifAdd_passes (b : Board) (ip mask gw : ip_addr_t) (makeDefault : Bool) (err : err_t) (alloc : Bool) :
    Arp.Passes [] b.net.arp (lwIPNetifAdd b ip mask gw makeDefault err alloc).1.net.arp := by
  unfold lwIPNetifAdd
  split
  · exact .refl _
  · have harp := netif_add_arp b.net .phys ip mask gw (.instNum 0) (hdkif_init b.mac_addr err)
    have hup : ∀ net : Net, net.arp = b.net.arp → Arp.Passes [] b.net.arp (netif_set_up net .phys alloc).arp :=
      fun net h => h ▸ netif_set_up_passes net .phys alloc
    split <;> rename_i heq <;> rw [heq] at harp
    · exact harp ▸ .refl _
    · dsimp only
      split <;> exact hup _ harp

/-- Up to the main loop no packet is sent. -/
theorem boot_passes (c : Boot) : Arp.Passes [] Arp.init (boot c).net.arp := by
  unfold boot
  rw [(LocatorConfig_frame _ _ _).2.1]
  exact lwIPNetifAdd_passes (lwIPCoreInit reset c.macAddress).1 _ _ _ _ _ _

theorem boot_load (c : Boot) (p : ip_packet) : (boot c).net.arp.load p = 0 :=
  Nat.le_zero.mp ((boot_passes c).load p)

instance (b : Board) (m : Move) : Decidable (m.allowed b) :=
  match m with
  | .call a => inferInstanceAs (Decidable (machine.allowed b a))
  | .output .. | .query .. | .find_addr .. | .cleanup_netif .. => inferInstanceAs (Decidable True)

instance (b : Board) (m : Move) : Decidable (moves.allowed b m) := inferInstanceAs (Decidable (m.allowed b))

/-- 10.0.0.20 says where it is. -/
def helloReply : ArpFrame :=
  ⟨42, 1, 0x0800, 6, 4, ARP_REPLY, #v[2, 0, 0, 0, 0, 20], 0x0a000014, ethzero, 0x0a00000a⟩

/-- Two bytes wait for the address of 10.0.0.20, and the answer comes twice. -/
def queuedRun : List Move :=
  [.call (.add_listener .phys 4000 (some 0)),
    .call (.data_send 0 (some .phys) 0x0a000014 5000 (some [104, 105]) 2 true ⟨true, true⟩),
    .call (.arp_input helloReply), .call (.arp_input helloReply)]

end MultiIp.Board
