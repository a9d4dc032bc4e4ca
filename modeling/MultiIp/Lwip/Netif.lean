import MultiIp.Lib.Chain
import MultiIp.Lwip.Etharp
import MultiIp.Lwip.Udp

/-!
# Interfaces

`lwip-1.4.1/src/core/netif.c`, the route lookup and output of `ip.c`, and the
filter that hands an incoming frame to the interface it is for.
-/

namespace MultiIp.Lwip

open Lib

/-- How many `struct netif` there are. -/
abbrev netifCount : Nat := maxAliasNetif + 1

/-- The interfaces, the globals of `netif.c` and the ARP table. -/
structure Net where
  netifs : NetifPtr → netif
  next : NetifPtr → Option NetifPtr
  netif_list : Option NetifPtr
  netif_default : Option NetifPtr
  arp : Arp

namespace Net

def init : Net where
  netifs := fun _ => .zero
  next := fun _ => none
  netif_list := none
  netif_default := none
  arp := .init

/-- The interfaces that a loop over `netif_list` visits. -/
def list (net : Net) : List NetifPtr := walk net.next netifCount net.netif_list

def modify (net : Net) (n : NetifPtr) (f : netif → netif) : Net :=
  { net with netifs := Function.update net.netifs n (f (net.netifs n)) }

end Net

/-! ## Addresses and state -/

def netif_set_ipaddr (net : Net) (n : NetifPtr) (ipaddr : ip_addr_t) : Net :=
  net.modify n (fun nif => { nif with ip_addr := ipaddr })

def netif_set_netmask (net : Net) (n : NetifPtr) (netmask : ip_addr_t) : Net :=
  net.modify n (fun nif => { nif with netmask := netmask })

def netif_set_gw (net : Net) (n : NetifPtr) (gw : ip_addr_t) : Net :=
  net.modify n (fun nif => { nif with gw := gw })

def netif_set_addr (net : Net) (n : NetifPtr) (ipaddr netmask gw : ip_addr_t) : Net :=
  netif_set_gw (netif_set_netmask (netif_set_ipaddr net n ipaddr) n netmask) n gw

def netif_set_default (net : Net) (n : Option NetifPtr) : Net := { net with netif_default := n }

def netif_set_up (net : Net) (n : NetifPtr) (alloc : Bool) : Net :=
  if (net.netifs n).has NETIF_FLAG_UP then net
  else
    let net := net.modify n (fun nif => { nif with flags := nif.flags ||| NETIF_FLAG_UP })
    if (net.netifs n).has NETIF_FLAG_LINK_UP && (net.netifs n).has NETIF_FLAG_ETHARP then
      { net with arp := (etharp_gratuitous net.arp n (net.netifs n) alloc).1 }
    else net

/-- `netif->flags &= ~NETIF_FLAG_UP`. -/
def netif.down (nif : netif) : netif := { nif with flags := nif.flags &&& ~~~NETIF_FLAG_UP }

def netif_set_down (net : Net) (n : NetifPtr) : Net :=
  if (net.netifs n).has NETIF_FLAG_UP then
    let net := net.modify n netif.down
    if (net.netifs n).has NETIF_FLAG_ETHARP then { net with arp := etharp_cleanup_netif net.arp n } else net
  else net

/-! ## Adding and removing -/

/-- Returns whether the interface was added. `init` is the driver's init function. -/
def netif_add (net : Net) (n : NetifPtr) (ipaddr netmask gw : ip_addr_t) (state : StatePtr)
    (init : netif → netif × err_t) : Net × Bool :=
  let net := net.modify n (fun nif =>
    { nif with ip_addr := IPADDR_ANY, netmask := IPADDR_ANY, gw := IPADDR_ANY, flags := 0, state := state })
  let net := netif_set_addr net n ipaddr netmask gw
  let (nif, err) := init (net.netifs n)
  let net := net.modify n (fun _ => nif)
  if err ≠ .ERR_OK ∧ err ≠ .ERR_CONN then (net, false)
  else ({ net with next := Function.update net.next n net.netif_list, netif_list := some n }, true)

/-- Takes the interface out of the list, and returns whether it was there. -/
def netif_unlink (net : Net) (n : NetifPtr) : Net × Bool :=
  if net.netif_list = some n then ({ net with netif_list := net.next n }, true)
  else
    match net.list.find? (fun tmpNetif => net.next tmpNetif = some n) with
    | some tmpNetif => ({ net with next := Function.update net.next tmpNetif (net.next n) }, true)
    | none => (net, false)

def netif_remove (net : Net) (n : NetifPtr) : Net :=
  let net := if netif_is_up (net.netifs n) then netif_set_down net n else net
  match netif_unlink net n with
  | (net, false) => net
  | (net, true) => if net.netif_default = some n then netif_set_default net none else net

/-! ## Output -/

def ip_route (net : Net) (dest : ip_addr_t) : Option NetifPtr :=
  let fits n := netif_is_up (net.netifs n) && ip_addr_netcmp dest (net.netifs n).ip_addr (net.netifs n).netmask
  match net.list.find? fits with
  | some n => some n
  | none => net.netif_default.filter (fun n => netif_is_up (net.netifs n))

/-- Builds the IP packet and hands it to `netif->output`. An interface without an output function
cannot be called; none on the list is without one. -/
def ip_output_if (net : Net) (src dest : ip_addr_t) (ttl tos : UInt8) (payload : IpPayload) (n : NetifPtr)
    (alloc : Alloc) : Net × err_t :=
  let nif := net.netifs n
  let p : ip_packet :=
    { src := if ip_addr_isany src then nif.ip_addr else src, dest := dest, ttl := ttl, tos := tos,
      payload := payload }
  match nif.output with
  | some .etharp_output =>
    let r := etharp_output net.arp n nif p dest alloc
    ({ net with arp := r.1 }, r.2)
  | none => (net, .ERR_IF)

/-- Sends from a bound control block through the given interface. -/
def udp_sendto_if_bound (net : Net) (c : udp_pcb) (data : List UInt8) (dst_ip : ip_addr_t) (dst_port : UInt16)
    (n : NetifPtr) (alloc : Alloc) : Net × err_t :=
  if ip_addr_isany c.local_ip then
    ip_output_if net (net.netifs n).ip_addr dst_ip c.ttl c.tos (.udp c.local_port dst_port data) n alloc
  else if c.local_ip ≠ (net.netifs n).ip_addr then (net, .ERR_VAL)
  else ip_output_if net c.local_ip dst_ip c.ttl c.tos (.udp c.local_port dst_port data) n alloc

def udp_sendto_if (net : Net) (u : Udp) (pcb : PcbPtr) (data : List UInt8) (dst_ip : ip_addr_t)
    (dst_port : UInt16) (n : NetifPtr) (alloc : Alloc) : Net × Udp × err_t :=
  if (u.pcbs pcb).local_port = 0 then
    match udp_bind u pcb (u.pcbs pcb).local_ip (u.pcbs pcb).local_port with
    | (u, .ERR_OK) =>
      let r := udp_sendto_if_bound net (u.pcbs pcb) data dst_ip dst_port n alloc
      (r.1, u, r.2)
    | (u, err) => (net, u, err)
  else
    let r := udp_sendto_if_bound net (u.pcbs pcb) data dst_ip dst_port n alloc
    (r.1, u, r.2)

def udp_sendto (net : Net) (u : Udp) (pcb : PcbPtr) (data : List UInt8) (dst_ip : ip_addr_t)
    (dst_port : UInt16) (alloc : Alloc) : Net × Udp × err_t :=
  match ip_route net dst_ip with
  | none => (net, u, .ERR_RTE)
  | some n => udp_sendto_if net u pcb data dst_ip dst_port n alloc

/-! ## Input -/

/-- `netif_alias_filter.c`: the interface that gets a frame whose destination address could be read. -/
def netif_alias_route (net : Net) (def_netif : NetifPtr) (dest_ip : ip_addr_t) : NetifPtr :=
  if dest_ip = (net.netifs def_netif).ip_addr then def_netif
  else if ip4_addr_isbroadcast dest_ip (net.netifs def_netif) || ip_addr_ismulticast dest_ip then def_netif
  else
    match net.list.find? (fun n => netif_is_up (net.netifs n) && (net.netifs n).has NETIF_FLAG_LINK_UP &&
        dest_ip == (net.netifs n).ip_addr) with
    | some n => n
    | none => def_netif

def netif_alias_route_filter (net : Net) (f : ArpFrame) (def_netif : NetifPtr) : NetifPtr :=
  if f.len ≥ SIZEOF_ETHARP_PACKET then netif_alias_route net def_netif f.hdr.dipaddr else def_netif

/-- `ethernet_input` for an ARP frame. The driver hands every frame to the physical interface. -/
def ethernet_input_arp (net : Net) (f : ArpFrame) : Net :=
  let n := netif_alias_route_filter net f .phys
  if (net.netifs n).has NETIF_FLAG_ETHARP then
    { net with arp := etharp_arp_input net.arp n (net.netifs n) f }
  else net

end MultiIp.Lwip
