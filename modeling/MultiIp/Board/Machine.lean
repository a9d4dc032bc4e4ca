import MultiIp.Board.UdpSource
import MultiIp.Lib.Run

/-!
# The board as a machine

The calls that change the board's state, each one step. Receive interrupts are
steps of their own, so a run is any interleaving of them with the main program.
-/

namespace MultiIp.Board

open Lwip

inductive Action
  | add_listener (netif : NetifPtr) (local_port : UInt16) (socket_id : Option udp_sock_id_t)
  | remove_listener (socket_id : udp_sock_id_t)
  | remove_all_on_netif (netif : Option NetifPtr)
  | netif_ip_changed (netif : Option NetifPtr)
  | data_send (socket_id : udp_sock_id_t) (tx_netif : Option NetifPtr) (ip_addr_rx : ip_addr_t)
      (port_number : UInt16) (data : Option (List UInt8)) (data_len : UInt16) (alloc : Bool) (out : Alloc)
  | poll_rx (socket_id : udp_sock_id_t) (msg : Option udp_rx_msg_t)
  | rx_callback (arg : Nat) (p : Option pbuf) (addr : ip_addr_t) (port : UInt16)
  | udp_input (inp : NetifPtr) (d : Datagram) (alloc : Bool) (out : Alloc)
  | net_if_add (ip_addr net_mask gw : ip_addr_t) (alloc : Bool)
  | net_if_remove (netif : NetifPtr)
  | set_ipaddr (netif : NetifPtr) (ipaddr : ip_addr_t)
  | set_netmask (netif : NetifPtr) (netmask : ip_addr_t)
  | set_gw (netif : NetifPtr) (gw : ip_addr_t)
  | arp_input (f : ArpFrame)

def step (b : Board) : Action → Board
  | .add_listener n port cell => (udp_source_add_listener b (some n) port cell).1
  | .remove_listener id => udp_source_remove_listener b id
  | .remove_all_on_netif n => udp_source_remove_all_on_netif b n
  | .netif_ip_changed n => udp_source_netif_ip_changed b n
  | .data_send id n ip port data len alloc out => (udp_source_data_send b id n ip port data len alloc out).1
  | .poll_rx id msg => (udp_source_poll_rx b id msg).1
  | .rx_callback arg p addr port => udp_rx_callback b arg p addr port
  | .udp_input inp d alloc out => Board.udp_input b inp d alloc out
  | .net_if_add ip mask gw alloc => (Board.net_if_add b ip mask gw alloc).1
  | .net_if_remove n => (Board.net_if_remove b (some n)).1
  | .set_ipaddr n ip => { b with net := netif_set_ipaddr b.net n ip }
  | .set_netmask n mask => { b with net := netif_set_netmask b.net n mask }
  | .set_gw n gw => { b with net := netif_set_gw b.net n gw }
  | .arp_input f => { b with net := ethernet_input_arp b.net f }

/-- The interface that the caller takes from `netif_list` to open a socket on it, remove or change it. -/
def Action.listed : Action → Option NetifPtr
  | .add_listener n _ _ | .net_if_remove n | .set_ipaddr n _ | .set_netmask n _ | .set_gw n _ => some n
  | _ => none

def allowed (b : Board) (a : Action) : Prop := ∀ n ∈ a.listed, n ∈ b.net.list

def machine : Lib.Machine Board Action where
  step := step
  allowed := allowed

instance (b : Board) (a : Action) : Decidable (machine.allowed b a) :=
  inferInstanceAs (Decidable (∀ n ∈ a.listed, n ∈ b.net.list))

end MultiIp.Board
