import MultiIp.Board.State

/-!
# The socket registry

`src/UDP_source.c`: sixteen slots, each with a control block, a one-message
mailbox and a generation. A socket id is the generation and the slot number.
-/

namespace MultiIp.Board

open Lwip

/-! ## Ids -/

def make_id (b : Board) (idx : SlotIdx) : udp_sock_id_t :=
  (b.s_listeners idx).generation_count.toUInt16 <<< 8 ||| UInt16.ofNat idx

/-- The slot that an id names, `none` for -1. -/
def resolve (b : Board) (id : udp_sock_id_t) : Option SlotIdx :=
  let idx := (id &&& 0xff).toUInt8
  let generation := (id >>> 8).toUInt8
  if h : idx.toNat < UDP_MAX_LISTENERS then
    let slot : SlotIdx := ⟨idx.toNat, h⟩
    if !(b.s_listeners slot).in_use || generation ≠ (b.s_listeners slot).generation_count then none
    else some slot
  else none

/-! ## Opening and closing -/

def remove_slot (b : Board) (idx : SlotIdx) : Board :=
  let b :=
    match (b.s_listeners idx).pcb with
    | some pcb => { b with udp := udp_remove b.udp pcb }.modifySlot idx (fun s => { s with pcb := none })
    | none => b
  b.modifySlot idx (fun s =>
    { s with rx_msg := { s.rx_msg with valid := false }, in_use := false,
             generation_count := s.generation_count + 1 })

/-- What `udp_source_add_listener` does with the first free slot. -/
def open_slot (b : Board) (idx : SlotIdx) (n : NetifPtr) (local_port : UInt16) (socket_id : udp_sock_id_t) :
    Board × err_t × udp_sock_id_t :=
  match udp_new b.udp with
  | (u, none) => ({ b with udp := u }, .ERR_MEM, socket_id)
  | (u, some new_pcb) =>
    match udp_bind u new_pcb (b.net.netifs n).ip_addr local_port with
    | (u, .ERR_OK) =>
      let b := { b with udp := udp_recv u new_pcb .udp_rx_callback idx }.modifySlot idx (fun s =>
        { s with pcb := some new_pcb, netif := some n, in_use := true, rx_count := 0, rx_drop_count := 0,
                 rx_msg := { s.rx_msg with valid := false } })
      (b, .ERR_OK, make_id b idx)
    | (u, err) => ({ b with udp := udp_remove u new_pcb }, err, socket_id)

/-- Opens a socket. `socket_id` is the cell that the caller's pointer points to. -/
def udp_source_add_listener (b : Board) (netif : Option NetifPtr) (local_port : UInt16)
    (socket_id : Option udp_sock_id_t) : Board × err_t × Option udp_sock_id_t :=
  match netif, socket_id with
  | some n, some socket_id =>
    match (List.finRange UDP_MAX_LISTENERS).find? (fun idx => !(b.s_listeners idx).in_use) with
    | some idx =>
      let r := open_slot b idx n local_port socket_id
      (r.1, r.2.1, some r.2.2)
    | none => (b, .ERR_MEM, some socket_id)
  | _, socket_id => (b, .ERR_VAL, socket_id)

def udp_source_remove_listener (b : Board) (socket_id : udp_sock_id_t) : Board :=
  match resolve b socket_id with
  | none => b
  | some idx => remove_slot b idx

/-- An open socket on the interface. -/
def onNetif (b : Board) (n : NetifPtr) (idx : SlotIdx) : Bool :=
  (b.s_listeners idx).netif == some n && (b.s_listeners idx).in_use

def udp_source_remove_all_on_netif (b : Board) (netif : Option NetifPtr) : Board :=
  match netif with
  | none => b
  | some n =>
    (List.finRange UDP_MAX_LISTENERS).foldl (fun b idx => if onNetif b n idx then remove_slot b idx else b) b

/-- One round of the loop of `udp_source_netif_ip_changed`. The result of `udp_bind` is not looked at. -/
def rebind_slot (n : NetifPtr) (b : Board) (idx : SlotIdx) : Board :=
  if onNetif b n idx then
    match (b.s_listeners idx).pcb with
    | some pcb =>
      { b with udp := (udp_bind b.udp pcb (b.net.netifs n).ip_addr (b.udp.pcbs pcb).local_port).1 }
    | none => b
  else b

def udp_source_netif_ip_changed (b : Board) (netif : Option NetifPtr) : Board :=
  match netif with
  | none => b
  | some n => (List.finRange UDP_MAX_LISTENERS).foldl (rebind_slot n) b

/-! ## Sending and receiving -/

/-- Sends `data_len` bytes of `data`. `alloc` and `out` say whether the allocations succeed. -/
def udp_source_data_send (b : Board) (socket_id : udp_sock_id_t) (tx_netif : Option NetifPtr)
    (ip_addr_rx : ip_addr_t) (port_number : UInt16) (data : Option (List UInt8)) (data_len : UInt16)
    (alloc : Bool) (out : Alloc) : Board × err_t :=
  match resolve b socket_id, tx_netif, data with
  | some idx, some n, some data =>
    if data_len = 0 then (b, .ERR_VAL)
    else if !alloc then (b, .ERR_MEM)
    else
      match (b.s_listeners idx).pcb with
      | some pcb =>
        let r := udp_sendto_if b.net b.udp pcb (data.take data_len.toNat) ip_addr_rx port_number n out
        ({ b with net := r.1, udp := r.2.1 }, r.2.2)
      | none => (b, .ERR_VAL)
  | _, _, _ => (b, .ERR_VAL)

/-- Reads and empties the mailbox. `msg` is the cell that the caller's pointer points to. -/
def udp_source_poll_rx (b : Board) (socket_id : udp_sock_id_t) (msg : Option udp_rx_msg_t) :
    Board × Bool × Option udp_rx_msg_t :=
  match resolve b socket_id, msg with
  | some idx, some msg =>
    if (b.s_listeners idx).rx_msg.valid then
      (b.modifySlot idx (fun s =>
        { s with rx_msg := { s.rx_msg with valid := false }, rx_count := s.rx_count + 1 }),
        true, some (b.s_listeners idx).rx_msg)
    else (b, false, some msg)
  | _, msg => (b, false, msg)

/-- The message that the callback writes over the old one. -/
def rxMessage (old : udp_rx_msg_t) (p : pbuf) (addr : ip_addr_t) (port : UInt16) : udp_rx_msg_t :=
  let copy_len := if p.tot_len.toNat > UDP_RX_BUF_SIZE then 256 else p.tot_len
  { src_ip := addr, src_port := port, data_len := copy_len,
    data := ( pbuf_copy_partial p old.data copy_len.toNat 0).1, valid := true }

/-- The receive callback. A NULL pbuf is `none`. -/
def udp_rx_callback (b : Board) (arg : Nat) (p : Option pbuf) (addr : ip_addr_t) (port : UInt16) : Board :=
  let idx := arg % 256
  if h : idx < UDP_MAX_LISTENERS then
    let slot : SlotIdx := ⟨idx, h⟩
    if !(b.s_listeners slot).in_use then b
    else
      match p with
      | none => b
      | some p =>
        if (b.s_listeners slot).rx_msg.valid then
          b.modifySlot slot (fun s => { s with rx_drop_count := s.rx_drop_count + 1 })
        else b.modifySlot slot (fun s => { s with rx_msg := rxMessage s.rx_msg p addr port })
  else b

/-- Hands a datagram that arrived on `inp` to the callback of the control block it is for. -/
def udp_input (b : Board) (inp : NetifPtr) (d : Datagram) (alloc : Bool) (out : Alloc) : Board :=
  match udp_input_find b.udp (b.net.netifs inp) d with
  | (u, none) => { b with udp := u }
  | (u, some pcb) =>
    let b := { b with udp := u }
    if !d.intact then b
    else
      match (u.pcbs pcb).recv with
      | some .udp_rx_callback => udp_rx_callback b (u.pcbs pcb).recv_arg (some d.payload) d.src_ip d.src
      | some .LocatorReceive => LocatorReceive b pcb d.payload d.src_ip d.src alloc out
      | none => b

/-! ## Queries -/

def udp_source_get_local_port (b : Board) (socket_id : udp_sock_id_t) : UInt16 :=
  match resolve b socket_id with
  | none => 0
  | some idx =>
    match (b.s_listeners idx).pcb with
    | some pcb => (b.udp.pcbs pcb).local_port
    | none => 0

/-- The open sockets of the interface, in slot order. -/
def socketsOn (b : Board) (n : NetifPtr) : List SlotIdx :=
  (List.finRange UDP_MAX_LISTENERS).filter (onNetif b n)

def udp_source_count_sockets (b : Board) (n : NetifPtr) : Nat := (socketsOn b n).length

structure udp_netif_socket_info_t where
  netif : Option NetifPtr
  local_port : UInt16
  socket_id : udp_sock_id_t
  deriving DecidableEq

def udp_source_get_socket (b : Board) (n : NetifPtr) (nth : UInt8) : udp_netif_socket_info_t :=
  match (socketsOn b n)[nth.toNat]? with
  | none => { netif := none, local_port := 0, socket_id := UDP_SOCK_ID_INVALID }
  | some idx =>
    { netif := some n
      local_port := match (b.s_listeners idx).pcb with
        | some pcb => (b.udp.pcbs pcb).local_port
        | none => 0
      socket_id := make_id b idx }

/-! ## `net_manager.c` -/

def net_if_add (b : Board) (ip_addr net_mask gw : ip_addr_t) (alloc : Bool) : Board × err_t :=
  let r := lwIPAliasAdd b ip_addr net_mask gw alloc
  if r.2 = 0 then (r.1, .ERR_MEM) else (r.1, .ERR_OK)

def net_if_remove (b : Board) (netif : Option NetifPtr) : Board × err_t :=
  match netif with
  | none => (b, .ERR_VAL)
  | some n =>
    if n = .phys then (b, .ERR_VAL)
    else (lwIPAliasRemove (udp_source_remove_all_on_netif b (some n)) n, .ERR_OK)

end MultiIp.Board
