import MultiIp.Board.Moves
import MultiIp.Lwip.EtharpEntries

/-!
# What the moves do to the ARP module

Each move is some calls of the ARP module. So it changes the entries by the steps
of `EntryStep`, and only a received ARP packet makes an entry stable.
-/

namespace MultiIp.Board

open Lwip Lib

section Calls

variable {S : netif → Prop} {R : ip_addr_t → eth_addr → Prop}

/-! ## Sending -/

section Send

variable {net : Net} {n : NetifPtr} (h : S (net.netifs n))

include h

theorem ip_output_if_arpCalls (src dest : ip_addr_t) (ttl tos : UInt8) (p : IpPayload) (alloc : Alloc) :
    Arp.Calls S R net.arp (ip_output_if net src dest ttl tos p n alloc).1.arp := by
  unfold ip_output_if
  dsimp only
  split
  · exact .single (.output _ _ _ _ _ h)
  · exact .refl

theorem udp_sendto_if_bound_arpCalls (c : udp_pcb) (data : List UInt8) (ip : ip_addr_t) (port : UInt16)
    (alloc : Alloc) : Arp.Calls S R net.arp (udp_sendto_if_bound net c data ip port n alloc).1.arp := by
  unfold udp_sendto_if_bound
  split
  · exact ip_output_if_arpCalls h _ _ _ _ _ _
  · split
    · exact .refl
    · exact ip_output_if_arpCalls h _ _ _ _ _ _

theorem udp_sendto_if_arpCalls (u : Udp) (p : PcbPtr) (data : List UInt8) (ip : ip_addr_t) (port : UInt16)
    (alloc : Alloc) : Arp.Calls S R net.arp (udp_sendto_if net u p data ip port n alloc).1.arp := by
  unfold udp_sendto_if
  split
  · split
    · exact udp_sendto_if_bound_arpCalls h _ _ _ _ _
    · exact .refl
  · exact udp_sendto_if_bound_arpCalls h _ _ _ _ _

end Send

theorem data_send_arpCalls {b : Board} {n : Option NetifPtr} (h : ∀ m ∈ n, S (b.net.netifs m)) (id : udp_sock_id_t)
    (ip : ip_addr_t) (port : UInt16) (data : Option (List UInt8)) (len : UInt16) (alloc : Bool) (out : Alloc) :
    Arp.Calls S R b.net.arp (udp_source_data_send b id n ip port data len alloc out).1.net.arp := by
  unfold udp_source_data_send
  split
  · split
    · exact .refl
    · split
      · exact .refl
      · split
        · exact udp_sendto_if_arpCalls (h _ rfl) _ _ _ _ _ _
        · exact .refl
  · exact .refl

/-! ## Receiving -/

theorem LocatorReceive_arpCalls {b : Board} (h : ∀ addr, ∀ m ∈ ip_route b.net addr, S (b.net.netifs m)) (p : PcbPtr)
    (d : pbuf) (addr : ip_addr_t) (port : UInt16) (alloc : Bool) (out : Alloc) :
    Arp.Calls S R b.net.arp (LocatorReceive b p d addr port alloc out).net.arp := by
  unfold LocatorReceive
  split
  · split
    · exact .refl
    · dsimp only
      unfold udp_sendto
      split
      · exact .refl
      · rename_i hroute
        exact udp_sendto_if_arpCalls (h addr _ hroute) _ _ _ _ _ _
  · exact .refl

theorem rx_callback_net (b : Board) (arg : Nat) (p : Option pbuf) (addr : ip_addr_t) (port : UInt16) :
    (udp_rx_callback b arg p addr port).net = b.net := by
  unfold udp_rx_callback
  dsimp only
  split
  · split
    · rfl
    · split
      · rfl
      · split <;> rfl
  · rfl

theorem udp_input_arpCalls {b : Board} (h : ∀ addr, ∀ m ∈ ip_route b.net addr, S (b.net.netifs m)) (inp : NetifPtr)
    (d : Datagram) (alloc : Bool) (out : Alloc) : Arp.Calls S R b.net.arp (udp_input b inp d alloc out).net.arp := by
  unfold udp_input
  split
  · exact .refl
  · rename_i u _ _
    dsimp only
    split
    · exact .refl
    · split
      · rw [rx_callback_net]
      · exact LocatorReceive_arpCalls (b := { b with udp := u }) h _ _ _ _ _ _
      · exact .refl

theorem ethernet_input_arpCalls {net : Net} {f : ArpFrame} (h : S (net.netifs (netif_alias_route_filter net f .phys)))
    (hR : ∀ ip mac, f.Tells ip mac → R ip mac) : Arp.Calls S R net.arp (ethernet_input_arp net f).arp := by
  unfold ethernet_input_arp
  dsimp only
  split
  · exact .single (.arp_input _ _ f h hR)
  · exact .refl

/-! ## Adding and removing interfaces -/

theorem netif_add_arp (net : Net) (n : NetifPtr) (ip mask gw : ip_addr_t) (state : StatePtr)
    (init : netif → netif × err_t) : (netif_add net n ip mask gw state init).1.arp = net.arp := by
  unfold netif_add
  dsimp only
  split <;> rfl

/-- A new interface has `NETIF_FLAG_UP` already, so `netif_set_up` announces nothing. -/
theorem net_if_add_arpCalls {b : Board} {l : List NetifPtr} (h : NetInv b l) (ip mask gw : ip_addr_t) (alloc : Bool) :
    Arp.Calls S R b.net.arp (net_if_add b ip mask gw alloc).1.net.arp := by
  rw [net_if_add_fst]
  rcases lwIPAliasAdd_spec h ip mask gw alloc with ⟨-, hr⟩ | ⟨i, -, hr⟩ <;> rw [hr]

theorem netif_set_down_arpCalls (net : Net) (n : NetifPtr) : Arp.Calls S R net.arp (netif_set_down net n).arp := by
  unfold netif_set_down
  split
  · dsimp only
    split
    · dsimp only [Net.modify]
      exact Relation.ReflTransGen.single (Arp.Call.cleanup_netif n)
    · exact .refl
  · exact .refl

theorem netif_unlink_arp (net : Net) (n : NetifPtr) : (netif_unlink net n).1.arp = net.arp := by
  unfold netif_unlink
  split
  · rfl
  · split <;> rfl

theorem netif_remove_arpCalls (net : Net) (n : NetifPtr) : Arp.Calls S R net.arp (netif_remove net n).arp := by
  have hdown : Arp.Calls S R net.arp (if netif_is_up (net.netifs n) then netif_set_down net n else net).arp := by
    split
    · exact netif_set_down_arpCalls net n
    · exact .refl
  unfold netif_remove
  generalize (if netif_is_up (net.netifs n) then netif_set_down net n else net) = down at hdown
  have harp := netif_unlink_arp down n
  dsimp only
  split <;> rename_i heq <;> rw [heq] at harp
  · exact hdown.trans (Arp.Calls.of_eq harp)
  · refine hdown.trans (Arp.Calls.of_eq ?_)
    split <;> exact harp

theorem net_if_remove_arpCalls (b : Board) (n : NetifPtr) :
    Arp.Calls S R b.net.arp (net_if_remove b (some n)).1.net.arp := by
  unfold net_if_remove
  dsimp only
  split
  · exact .refl
  · rw [← remove_all_net b (some n)]
    unfold lwIPAliasRemove
    split
    · exact .refl
    · split
      · exact netif_remove_arpCalls _ _
      · exact .refl

end Calls

/-! ## The registry -/

theorem add_listener_net (b : Board) (n : Option NetifPtr) (port : UInt16) (cell : Option udp_sock_id_t) :
    (udp_source_add_listener b n port cell).1.net = b.net := by
  unfold udp_source_add_listener
  split
  · split
    · exact open_slot_net _ _ _ _ _
    · rfl
  · rfl

theorem remove_listener_net (b : Board) (id : udp_sock_id_t) : (udp_source_remove_listener b id).net = b.net := by
  unfold udp_source_remove_listener
  split
  · rfl
  · exact remove_slot_net _ _

theorem poll_rx_net (b : Board) (id : udp_sock_id_t) (msg : Option udp_rx_msg_t) :
    (udp_source_poll_rx b id msg).1.net = b.net := by
  rcases poll_rx_spec b id msg with heq | ⟨i, -, -, heq⟩ <;> rw [heq]
  rfl

/-! ## The moves -/

/-- What an ARP packet tells, if the move is its reception. -/
def Move.Tells : Move → ip_addr_t → eth_addr → Prop
  | .call (.arp_input f) => f.Tells
  | _ => fun _ _ => False

/-- The interface that the caller takes from `netif_list` to send on it. -/
def Move.sender : Move → Option NetifPtr
  | .call (.data_send _ n _ _ _ _ _ _) => n
  | .output _ _ _ _ _ n _ | .query n _ _ => some n
  | _ => none

section Moves

variable {S : netif → Prop} {R : ip_addr_t → eth_addr → Prop} {b : Board} {l : List NetifPtr}

theorem arpCalls_of_net {net net' : Net} (h : net' = net) : Arp.Calls S R net.arp net'.arp := .of_eq (by rw [h])

/-- A packet without an interface goes out on one of the list. -/
theorem ip_route_listed (h : NetInv b l) {dest : ip_addr_t} {n : NetifPtr} (hroute : ip_route b.net dest = some n) :
    n ∈ b.net.list := by
  unfold ip_route at hroute
  dsimp only at hroute
  split at hroute
  · rename_i m hm
    cases hroute
    exact List.mem_of_find?_eq_some hm
  · rw [h.default] at hroute
    obtain ⟨rfl, -⟩ : NetifPtr.phys = n ∧ _ := by simpa [Option.filter_eq_some_iff] using hroute
    exact h.phys_listed

/-- What a move does to the ARP module is calls, from the interfaces of the list and the one that the caller has chosen. -/
theorem move_arpCalls (h : NetInv b l) {m : Move} (hlist : ∀ n ∈ b.net.list, S (b.net.netifs n))
    (hsender : ∀ n ∈ m.sender, S (b.net.netifs n)) (hR : ∀ ip mac, m.Tells ip mac → R ip mac) :
    Arp.Calls S R b.net.arp (move b m).net.arp := by
  cases m with
  | call a =>
    cases a with
    | add_listener n port cell => exact arpCalls_of_net (add_listener_net b (some n) port cell)
    | remove_listener id => exact arpCalls_of_net (remove_listener_net b id)
    | remove_all_on_netif n => exact arpCalls_of_net (remove_all_net b n)
    | netif_ip_changed n => exact arpCalls_of_net (netif_ip_changed_net b n)
    | data_send id n ip port data len alloc out => exact data_send_arpCalls hsender id ip port data len alloc out
    | poll_rx id msg => exact arpCalls_of_net (poll_rx_net b id msg)
    | rx_callback arg p addr port => exact arpCalls_of_net (rx_callback_net b arg p addr port)
    | udp_input inp d alloc out =>
      exact udp_input_arpCalls (fun _ n hn => hlist n (ip_route_listed h hn)) inp d alloc out
    | net_if_add ip mask gw alloc => exact net_if_add_arpCalls h ip mask gw alloc
    | net_if_remove n => exact net_if_remove_arpCalls b n
    | set_ipaddr n ip => exact .refl
    | set_netmask n mask => exact .refl
    | set_gw n gw => exact .refl
    | arp_input f =>
      exact ethernet_input_arpCalls (hlist _ (h.list_eq ▸ netif_alias_route_filter_mem h f)) hR
  | output src dest ttl tos p n alloc => exact ip_output_if_arpCalls (hsender n rfl) src dest ttl tos p alloc
  | query n ip alloc => exact .single (.query n (b.net.netifs n) ip alloc (hsender n rfl))
  | find_addr ip => exact .single (.find_addr ip)
  | cleanup_netif n =>
    dsimp only [move]
    exact Relation.ReflTransGen.single (Arp.Call.cleanup_netif n)

theorem move_steps (h : NetInv b l) (m : Move) : Arp.Steps m.Tells b.net.arp (move b m).net.arp :=
  (move_arpCalls (S := fun _ => True) h (fun _ _ => trivial) (fun _ _ => trivial) (fun _ _ h => h)).steps

end Moves

end MultiIp.Board
