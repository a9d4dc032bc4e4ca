import Mathlib.Data.List.FinRange
import MultiIp.Lwip.Basic

/-!
# The ARP table

`lwip-1.4.1/src/netif/etharp.c` as it is configured: one queued packet per
entry, no static entries, no timer. Frames that leave the board are kept in `tx`.
-/

namespace MultiIp.Lwip

abbrev ARP_TABLE_SIZE : Nat := 10

def HWTYPE_ETHERNET : UInt16 := 1
def ETHTYPE_IP : UInt16 := 0x0800
def ARP_REQUEST : UInt16 := 1
def ARP_REPLY : UInt16 := 2
def ARP_MAXAGE : UInt8 := 240
def ARP_AGE_REREQUEST_USED : UInt8 := ARP_MAXAGE - 12
def SIZEOF_ETHARP_PACKET : Nat := 42

/-! ## Frames -/

/-- What an IP packet carries. -/
inductive IpPayload
  | udp (src dest : UInt16) (data : List UInt8)
  | icmp_echo (seqno : UInt16)
  deriving DecidableEq

structure ip_packet where
  src : ip_addr_t
  dest : ip_addr_t
  ttl : UInt8
  tos : UInt8
  payload : IpPayload
  deriving DecidableEq

structure etharp_hdr where
  hwtype : UInt16
  proto : UInt16
  hwlen : UInt8
  protolen : UInt8
  opcode : UInt16
  shwaddr : eth_addr
  sipaddr : ip_addr_t
  dhwaddr : eth_addr
  dipaddr : ip_addr_t
  deriving DecidableEq

/-- A frame handed to `netif->linkoutput`, with the addresses of its Ethernet header. -/
inductive Frame
  | arp (dest src : eth_addr) (hdr : etharp_hdr)
  | ip (dest src : eth_addr) (p : ip_packet)
  deriving DecidableEq

/-- A received ARP frame: the length of its first pbuf and its header. -/
structure ArpFrame where
  len : Nat
  hdr : etharp_hdr
  deriving DecidableEq

/-! ## The table -/

inductive etharp_state
  | EMPTY | PENDING | STABLE | STABLE_REREQUESTING
  deriving DecidableEq, Repr

/-- `state >= ETHARP_STATE_STABLE`. -/
def etharp_state.stable : etharp_state → Bool
  | .STABLE | .STABLE_REREQUESTING => true
  | .EMPTY | .PENDING => false

structure etharp_entry where
  q : Option ip_packet
  ipaddr : ip_addr_t
  netif : Option NetifPtr
  ethaddr : eth_addr
  state : etharp_state
  ctime : UInt8
  deriving DecidableEq

def etharp_entry.zero : etharp_entry where
  q := none
  ipaddr := 0
  netif := none
  ethaddr := ethzero
  state := .EMPTY
  ctime := 0

abbrev ArpIdx := Fin ARP_TABLE_SIZE

structure Arp where
  arp_table : ArpIdx → etharp_entry
  etharp_cached_entry : ArpIdx
  tx : List (NetifPtr × Frame)

/-- Whether the two allocations that one call can make succeed. -/
structure Alloc where
  request : Bool
  copy : Bool
  deriving DecidableEq

namespace Arp

def init : Arp where
  arp_table := fun _ => .zero
  etharp_cached_entry := 0
  tx := []

def modify (a : Arp) (i : ArpIdx) (f : etharp_entry → etharp_entry) : Arp :=
  { a with arp_table := Function.update a.arp_table i (f (a.arp_table i)) }

/-- `netif->linkoutput(netif, p)`: the driver takes every frame. -/
def linkoutput (a : Arp) (n : NetifPtr) (f : Frame) : Arp := { a with tx := a.tx ++ [(n, f)] }

end Arp

def etharp_free_entry (a : Arp) (i : ArpIdx) : Arp := a.modify i (fun e => { e with q := none, state := .EMPTY })

/-- `ETHARP_FLAG_TRY_HARD` and `ETHARP_FLAG_FIND_ONLY`, the two ways in which an entry is looked for. -/
inductive FindFlag
  | TRY_HARD | FIND_ONLY
  deriving DecidableEq, Repr

/-- What the sweep of `etharp_find_entry` remembers. -/
structure Candidates where
  empty : Option ArpIdx
  old_pending : Option ArpIdx
  old_stable : Option ArpIdx
  old_queue : Option ArpIdx
  age_pending : UInt8
  age_stable : UInt8
  age_queue : UInt8

def Candidates.none : Candidates := ⟨.none, .none, .none, .none, 0, 0, 0⟩

/-- An entry in use whose address does not match. -/
def Candidates.remember (c : Candidates) (i : ArpIdx) (e : etharp_entry) : Candidates :=
  if e.state = .PENDING then
    if e.q.isSome then
      if e.ctime ≥ c.age_queue then { c with old_queue := some i, age_queue := e.ctime } else c
    else
      if e.ctime ≥ c.age_pending then { c with old_pending := some i, age_pending := e.ctime } else c
  else
    if e.ctime ≥ c.age_stable then { c with old_stable := some i, age_stable := e.ctime } else c

/-- The sweep: it stops at an entry in use with the address. -/
def etharp_find_entry_sweep (a : Arp) (ipaddr : ip_addr_t) : List ArpIdx → Candidates → ArpIdx ⊕ Candidates
  | [], c => .inr c
  | i :: rest, c =>
    let e := a.arp_table i
    if c.empty.isNone ∧ e.state = .EMPTY then etharp_find_entry_sweep a ipaddr rest { c with empty := some i }
    else if e.state ≠ .EMPTY then
      if ipaddr = e.ipaddr then .inl i else etharp_find_entry_sweep a ipaddr rest (c.remember i e)
    else etharp_find_entry_sweep a ipaddr rest c

/-- Returns the entry, or `none` for ERR_MEM. -/
def etharp_find_entry (a : Arp) (ipaddr : ip_addr_t) (flags : FindFlag) : Arp × Option ArpIdx :=
  match etharp_find_entry_sweep a ipaddr (List.finRange ARP_TABLE_SIZE) .none with
  | .inl i => (a, some i)
  | .inr c =>
    if flags = .FIND_ONLY then (a, none)
    else
      match c.empty with
      | some i => (a.modify i (fun e => { e with ipaddr := ipaddr, ctime := 0 }), some i)
      | none =>
        -- Without an empty entry: the oldest stable one, else a pending one, else one with a packet.
        match c.old_stable <|> c.old_pending <|> c.old_queue with
        | none => (a, none)
        | some i => ((etharp_free_entry a i).modify i (fun e => { e with ipaddr := ipaddr, ctime := 0 }), some i)

def etharp_send_ip (a : Arp) (n : NetifPtr) (p : ip_packet) (src dst : eth_addr) : Arp :=
  a.linkoutput n (.ip dst src p)

def etharp_update_arp_entry (a : Arp) (n : NetifPtr) (nif : netif) (ipaddr : ip_addr_t) (ethaddr : eth_addr)
    (flags : FindFlag) : Arp × err_t :=
  if ip_addr_isany ipaddr || ip4_addr_isbroadcast ipaddr nif || ip_addr_ismulticast ipaddr then (a, .ERR_ARG)
  else
    match etharp_find_entry a ipaddr flags with
    | (a, none) => (a, .ERR_MEM)
    | (a, some i) =>
      let queued := (a.arp_table i).q
      let a := a.modify i (fun e =>
        { e with state := .STABLE, netif := some n, ethaddr := ethaddr, ctime := 0, q := none })
      match queued with
      | none => (a, .ERR_OK)
      | some p => (etharp_send_ip a n p nif.hwaddr ethaddr, .ERR_OK)

def etharp_cleanup_netif (a : Arp) (n : NetifPtr) : Arp :=
  (List.finRange ARP_TABLE_SIZE).foldl (fun a i =>
    if (a.arp_table i).state ≠ .EMPTY ∧ (a.arp_table i).netif = some n then etharp_free_entry a i else a) a

/-- Returns the address of a stable entry. -/
def etharp_find_addr (a : Arp) (ipaddr : ip_addr_t) : Arp × Option eth_addr :=
  match etharp_find_entry a ipaddr .FIND_ONLY with
  | (a, some i) => if (a.arp_table i).state.stable then (a, some (a.arp_table i).ethaddr) else (a, none)
  | (a, none) => (a, none)

/-! ## Requests and output -/

def etharp_raw (a : Arp) (n : NetifPtr) (ethsrc ethdst hwsrc : eth_addr) (ipsrc : ip_addr_t) (hwdst : eth_addr)
    (ipdst : ip_addr_t) (opcode : UInt16) (alloc : Bool) : Arp × err_t :=
  if !alloc then (a, .ERR_MEM)
  else
    (a.linkoutput n (.arp ethdst ethsrc
      { hwtype := HWTYPE_ETHERNET, proto := ETHTYPE_IP, hwlen := 6, protolen := 4, opcode := opcode,
        shwaddr := hwsrc, sipaddr := ipsrc, dhwaddr := hwdst, dipaddr := ipdst }), .ERR_OK)

def etharp_request (a : Arp) (n : NetifPtr) (nif : netif) (ipaddr : ip_addr_t) (alloc : Bool) : Arp × err_t :=
  etharp_raw a n nif.hwaddr ethbroadcast nif.hwaddr nif.ip_addr ethzero ipaddr ARP_REQUEST alloc

def etharp_gratuitous (a : Arp) (n : NetifPtr) (nif : netif) (alloc : Bool) : Arp × err_t :=
  etharp_request a n nif nif.ip_addr alloc

/-- The part of `etharp_query` that asks for the address: a new entry becomes pending, and the request
goes out unless a packet can be sent at once. -/
def etharp_query_request (a : Arp) (n : NetifPtr) (nif : netif) (ipaddr : ip_addr_t) (q : Option ip_packet)
    (i : ArpIdx) (alloc : Alloc) : Arp × err_t :=
  let a := if (a.arp_table i).state = .EMPTY then a.modify i (fun e => { e with state := .PENDING }) else a
  if (a.arp_table i).state = .PENDING ∨ q = none then etharp_request a n nif ipaddr alloc.request
  else (a, .ERR_MEM)

/-- The part of `etharp_query` that sends the packet or leaves it with the entry. -/
def etharp_query_send (a : Arp) (n : NetifPtr) (nif : netif) (p : ip_packet) (i : ArpIdx) (alloc : Alloc) :
    Arp × err_t :=
  if (a.arp_table i).state.stable then
    (etharp_send_ip { a with etharp_cached_entry := i } n p nif.hwaddr (a.arp_table i).ethaddr, .ERR_OK)
  else if alloc.copy then (a.modify i (fun e => { e with q := some p }), .ERR_OK)
  else (a, .ERR_MEM)

def etharp_query (a : Arp) (n : NetifPtr) (nif : netif) (ipaddr : ip_addr_t) (q : Option ip_packet)
    (alloc : Alloc) : Arp × err_t :=
  if ip4_addr_isbroadcast ipaddr nif || ip_addr_ismulticast ipaddr || ip_addr_isany ipaddr then (a, .ERR_ARG)
  else
    match etharp_find_entry a ipaddr .TRY_HARD with
    | (a, none) => (a, .ERR_MEM)
    | (a, some i) =>
      match q with
      | none => etharp_query_request a n nif ipaddr none i alloc
      | some p => etharp_query_send (etharp_query_request a n nif ipaddr (some p) i alloc).1 n nif p i alloc

def etharp_output_to_arp_index (a : Arp) (n : NetifPtr) (nif : netif) (p : ip_packet) (i : ArpIdx)
    (alloc : Alloc) : Arp × err_t :=
  let a :=
    if (a.arp_table i).state = .STABLE ∧ (a.arp_table i).ctime ≥ ARP_AGE_REREQUEST_USED then
      match etharp_request a n nif (a.arp_table i).ipaddr alloc.request with
      | (a, .ERR_OK) => a.modify i (fun e => { e with state := .STABLE_REREQUESTING })
      | (a, _) => a
    else a
  (etharp_send_ip a n p nif.hwaddr (a.arp_table i).ethaddr, .ERR_OK)

/-- The Ethernet address of an IP multicast group. -/
def mcastaddr (a : ip_addr_t) : eth_addr :=
  #v[0x01, 0x00, 0x5e, (a >>> 16).toUInt8 &&& 0x7f, (a >>> 8).toUInt8, a.toUInt8]

/-- The entry is stable and has the address. -/
def Arp.resolves (a : Arp) (dst : ip_addr_t) (i : ArpIdx) : Bool :=
  (a.arp_table i).state.stable && dst == (a.arp_table i).ipaddr

/-- Sends to an address of the local network. -/
def etharp_output_local (a : Arp) (n : NetifPtr) (nif : netif) (p : ip_packet) (dst_addr : ip_addr_t)
    (alloc : Alloc) : Arp × err_t :=
  if a.resolves dst_addr a.etharp_cached_entry then
    etharp_output_to_arp_index a n nif p a.etharp_cached_entry alloc
  else
    match (List.finRange ARP_TABLE_SIZE).find? (a.resolves dst_addr) with
    | some i => etharp_output_to_arp_index { a with etharp_cached_entry := i } n nif p i alloc
    | none => etharp_query a n nif dst_addr (some p) alloc

def etharp_output (a : Arp) (n : NetifPtr) (nif : netif) (p : ip_packet) (ipaddr : ip_addr_t)
    (alloc : Alloc) : Arp × err_t :=
  if ip4_addr_isbroadcast ipaddr nif then (etharp_send_ip a n p nif.hwaddr ethbroadcast, .ERR_OK)
  else if ip_addr_ismulticast ipaddr then (etharp_send_ip a n p nif.hwaddr (mcastaddr ipaddr), .ERR_OK)
  else if !ip_addr_netcmp ipaddr nif.ip_addr nif.netmask && !ip_addr_islinklocal ipaddr then
    -- Outside the local network: to the gateway, if there is one.
    if ip_addr_isany nif.gw then (a, .ERR_RTE) else etharp_output_local a n nif p nif.gw alloc
  else etharp_output_local a n nif p ipaddr alloc

/-! ## Reception -/

/-- The header says Ethernet and IPv4. -/
def etharp_hdr.valid (h : etharp_hdr) : Bool :=
  h.hwtype == HWTYPE_ETHERNET && h.hwlen == 6 && h.protolen == 4 && h.proto == ETHTYPE_IP

def etharp_arp_input (a : Arp) (n : NetifPtr) (nif : netif) (f : ArpFrame) : Arp :=
  if f.len < SIZEOF_ETHARP_PACKET then a
  else if !f.hdr.valid then a
  else
    let for_us := !ip_addr_isany nif.ip_addr && f.hdr.dipaddr == nif.ip_addr
    let (a, _) := etharp_update_arp_entry a n nif f.hdr.sipaddr f.hdr.shwaddr
      (if for_us then .TRY_HARD else .FIND_ONLY)
    if f.hdr.opcode = ARP_REQUEST ∧ for_us then
      a.linkoutput n (.arp f.hdr.shwaddr nif.hwaddr
        { f.hdr with opcode := ARP_REPLY, dipaddr := f.hdr.sipaddr, sipaddr := nif.ip_addr,
                     dhwaddr := f.hdr.shwaddr, shwaddr := nif.hwaddr })
    else a

end MultiIp.Lwip
