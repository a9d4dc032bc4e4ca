import Mathlib.Data.List.FinRange
import MultiIp.Lib.Chain
import MultiIp.Lwip.Basic
import MultiIp.Lwip.Pbuf

/-!
# UDP control blocks

`lwip-1.4.1/src/core/udp.c`: the pool of control blocks, the list of bound
ones, and the search that finds the receiver of a datagram.
-/

namespace MultiIp.Lwip

open Lib

abbrev MEMP_NUM_UDP_PCB : Nat := 20

/-- A non-NULL `struct udp_pcb *`: an element of the MEMP_UDP_PCB pool. -/
abbrev PcbPtr := Fin MEMP_NUM_UDP_PCB

/-- The receive callbacks that the program registers. -/
inductive udp_recv_fn
  | LocatorReceive
  | udp_rx_callback
  deriving DecidableEq, Repr

def UDP_FLAGS_CONNECTED : UInt8 := 0x04
def UDP_TTL : UInt8 := 255
def UDP_LOCAL_PORT_RANGE_START : UInt16 := 0xc000
def UDP_LOCAL_PORT_RANGE_END : UInt16 := 0xffff
def DHCP_CLIENT_PORT : UInt16 := 68

/-- `struct udp_pcb`. The `next` fields are kept together in `Udp.next`. -/
structure udp_pcb where
  local_ip : ip_addr_t
  remote_ip : ip_addr_t
  tos : UInt8
  ttl : UInt8
  flags : UInt8
  local_port : UInt16
  remote_port : UInt16
  recv : Option udp_recv_fn
  recv_arg : Nat
  deriving DecidableEq

/-- What `memset(pcb, 0, sizeof(struct udp_pcb))` leaves. -/
def udp_pcb.zero : udp_pcb where
  local_ip := 0
  remote_ip := 0
  tos := 0
  ttl := 0
  flags := 0
  local_port := 0
  remote_port := 0
  recv := none
  recv_arg := 0

/-- The globals of `udp.c` and the pool behind them. -/
structure Udp where
  pcbs : PcbPtr → udp_pcb
  next : PcbPtr → Option PcbPtr
  udp_pcbs : Option PcbPtr
  udp_port : UInt16
  /-- The free elements, `memp_tab[MEMP_UDP_PCB]`: the last one freed is the next one given out. -/
  memp : List PcbPtr

namespace Udp

/-- `memp_init` links the pool so that its last element is given out first. -/
def init : Udp where
  pcbs := fun _ => .zero
  next := fun _ => none
  udp_pcbs := none
  udp_port := UDP_LOCAL_PORT_RANGE_START
  memp := (List.finRange MEMP_NUM_UDP_PCB).reverse

/-- The control blocks that a loop over `udp_pcbs` visits. -/
def list (u : Udp) : List PcbPtr := walk u.next MEMP_NUM_UDP_PCB u.udp_pcbs

def modify (u : Udp) (pcb : PcbPtr) (f : udp_pcb → udp_pcb) : Udp :=
  { u with pcbs := Function.update u.pcbs pcb (f (u.pcbs pcb)) }

/-- `pcb->next = udp_pcbs; udp_pcbs = pcb`. -/
def push (u : Udp) (pcb : PcbPtr) : Udp :=
  { u with next := Function.update u.next pcb u.udp_pcbs, udp_pcbs := some pcb }

end Udp

/-! ## Allocation and binding -/

def udp_new (u : Udp) : Udp × Option PcbPtr :=
  match u.memp with
  | [] => (u, none)
  | pcb :: memp =>
    ({ u with
        pcbs := Function.update u.pcbs pcb { udp_pcb.zero with ttl := UDP_TTL }
        next := Function.update u.next pcb none
        memp := memp }, some pcb)

/-- `if (udp_port++ == UDP_LOCAL_PORT_RANGE_END) udp_port = UDP_LOCAL_PORT_RANGE_START`. -/
def Udp.nextPort (u : Udp) : Udp :=
  { u with udp_port := if u.udp_port = UDP_LOCAL_PORT_RANGE_END then UDP_LOCAL_PORT_RANGE_START
    else u.udp_port + 1 }

/-- Some control block of the list has the port `udp_port`. -/
def Udp.portTaken (u : Udp) : Bool := u.list.any (fun pcb => (u.pcbs pcb).local_port == u.udp_port)

/-- The loop `again:` of `udp_new_port`, when `n` further matches are allowed. -/
def udp_new_port_again : Nat → Udp → Udp × UInt16
  | 0, u => if u.nextPort.portTaken then (u.nextPort, 0) else (u.nextPort, u.nextPort.udp_port)
  | n + 1, u =>
    if u.nextPort.portTaken then udp_new_port_again n u.nextPort else (u.nextPort, u.nextPort.udp_port)

def udp_new_port (u : Udp) : Udp × UInt16 :=
  udp_new_port_again (UDP_LOCAL_PORT_RANGE_END - UDP_LOCAL_PORT_RANGE_START).toNat u

/-- `ipcb` stands in the way of binding `pcb` to the address and port. -/
def bindClash (u : Udp) (pcb : PcbPtr) (ipaddr : ip_addr_t) (port : UInt16) (ipcb : PcbPtr) : Bool :=
  pcb ≠ ipcb && (u.pcbs ipcb).local_port == port &&
    (ip_addr_isany (u.pcbs ipcb).local_ip || ip_addr_isany ipaddr || (u.pcbs ipcb).local_ip == ipaddr)

def udp_bind (u : Udp) (pcb : PcbPtr) (ipaddr : ip_addr_t) (port : UInt16) : Udp × err_t :=
  let rebind := u.list.any (fun ipcb => pcb == ipcb)
  if u.list.any (bindClash u pcb ipaddr port) then (u, .ERR_USE)
  else
    let u := u.modify pcb (fun c => { c with local_ip := ipaddr })
    -- Port 0 asks for any free port.
    let (u, port) := if port = 0 then udp_new_port u else (u, port)
    if port = 0 then (u, .ERR_USE)
    else
      let u := u.modify pcb (fun c => { c with local_port := port })
      (if rebind then u else u.push pcb, .ERR_OK)

def udp_recv (u : Udp) (pcb : PcbPtr) (recv : udp_recv_fn) (recv_arg : Nat) : Udp :=
  u.modify pcb (fun c => { c with recv := some recv, recv_arg := recv_arg })

def udp_connect (u : Udp) (pcb : PcbPtr) (ipaddr : ip_addr_t) (port : UInt16) : Udp × err_t :=
  let (u, err) :=
    if (u.pcbs pcb).local_port = 0 then udp_bind u pcb (u.pcbs pcb).local_ip (u.pcbs pcb).local_port
    else (u, .ERR_OK)
  if err ≠ .ERR_OK then (u, err)
  else
    let u := u.modify pcb (fun c =>
      { c with remote_ip := ipaddr, remote_port := port, flags := c.flags ||| UDP_FLAGS_CONNECTED })
    (if u.list.any (fun ipcb => pcb == ipcb) then u else u.push pcb, .ERR_OK)

def udp_remove (u : Udp) (pcb : PcbPtr) : Udp :=
  { u with
    next := if u.udp_pcbs = some pcb then u.next else unlink pcb MEMP_NUM_UDP_PCB u.next u.udp_pcbs
    udp_pcbs := headWithout u.next u.udp_pcbs pcb
    memp := pcb :: u.memp }

/-! ## Reception -/

/-- A UDP datagram long enough to have its headers: the addresses of the IP header, the ports, whether
the checksum is right, and what follows the UDP header. -/
structure Datagram where
  src_ip : ip_addr_t
  dest_ip : ip_addr_t
  src : UInt16
  dest : UInt16
  intact : Bool
  payload : pbuf
  deriving DecidableEq

/-- The control block's local address and port match the destination. -/
def localMatch (inp : netif) (d : Datagram) (c : udp_pcb) : Bool :=
  let broadcast := ip4_addr_isbroadcast d.dest_ip inp
  c.local_port == d.dest &&
    ((!broadcast && ip_addr_isany c.local_ip) || c.local_ip == d.dest_ip ||
      (broadcast && (ip_addr_isany c.local_ip || ip_addr_netcmp c.local_ip d.dest_ip inp.netmask)))

def remoteMatch (d : Datagram) (c : udp_pcb) : Bool :=
  c.remote_port == d.src && (ip_addr_isany c.remote_ip || c.remote_ip == d.src_ip)

/-- The loop of `udp_input`: the first full match goes to the front of the list, and without one the
first unconnected local match is taken. -/
def udp_input_search (u : Udp) (inp : netif) (d : Datagram) :
    List PcbPtr → (prev uncon_pcb : Option PcbPtr) → Udp × Option PcbPtr
  | [], _, uncon_pcb => (u, uncon_pcb)
  | pcb :: rest, prev, uncon_pcb =>
    let local_match := localMatch inp d (u.pcbs pcb)
    let uncon_pcb :=
      if local_match && uncon_pcb.isNone && ((u.pcbs pcb).flags &&& UDP_FLAGS_CONNECTED) == 0 then some pcb
      else uncon_pcb
    if local_match && remoteMatch d (u.pcbs pcb) then
      match prev with
      | some q => ({ u with next := Function.update u.next q (u.next pcb) }.push pcb, some pcb)
      | none => (u, some pcb)
    else udp_input_search u inp d rest (some pcb) uncon_pcb

/-- Which control block a datagram that arrived on `inp` goes to. No interface runs DHCP, so nothing
listens on the DHCP client port. -/
def udp_input_find (u : Udp) (inp : netif) (d : Datagram) : Udp × Option PcbPtr :=
  if d.dest = DHCP_CLIENT_PORT then (u, none) else udp_input_search u inp d u.list none none

end MultiIp.Lwip
