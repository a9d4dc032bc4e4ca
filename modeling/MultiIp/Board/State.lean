import MultiIp.Lwip.Netif

/-!
# The state of the board

What the firmware keeps between two calls: the stack, the pool of alias
interfaces of `lwiplib.c`, the socket slots of `UDP_source.c` and the locator's answer.
-/

namespace MultiIp.Board

open Lwip

abbrev UDP_RX_BUF_SIZE : Nat := 256
abbrev UDP_MAX_LISTENERS : Nat := 16

instance : @NeZero Nat Zero.ofOfNat0 UDP_MAX_LISTENERS := ⟨Nat.succ_ne_zero 15⟩

abbrev udp_sock_id_t := UInt16

def UDP_SOCK_ID_INVALID : udp_sock_id_t := 0xffff

structure udp_rx_msg_t where
  src_ip : ip_addr_t
  src_port : UInt16
  data : Buf UDP_RX_BUF_SIZE
  data_len : UInt16
  valid : Bool
  deriving DecidableEq

def udp_rx_msg_t.zero : udp_rx_msg_t where
  src_ip := 0
  src_port := 0
  data := .zero _
  data_len := 0
  valid := false

structure udp_listener_t where
  pcb : Option PcbPtr
  netif : Option NetifPtr
  rx_msg : udp_rx_msg_t
  rx_count : UInt32
  rx_drop_count : UInt32
  generation_count : UInt8
  in_use : Bool
  deriving DecidableEq

def udp_listener_t.zero : udp_listener_t where
  pcb := none
  netif := none
  rx_msg := .zero
  rx_count := 0
  rx_drop_count := 0
  generation_count := 0
  in_use := false

abbrev SlotIdx := Fin UDP_MAX_LISTENERS

end MultiIp.Board

namespace MultiIp

structure Board where
  net : Lwip.Net
  /-- `alias_list[i].used`. -/
  used : Fin Lwip.maxAliasNetif → Bool
  lwIPCoreReady : Bool
  /-- `hdkif_data[0].mac_addr`, in the order of `macArray`. -/
  mac_addr : Lwip.eth_addr
  udp : Lwip.Udp
  s_listeners : Board.SlotIdx → Board.udp_listener_t
  locatorData : List UInt8

namespace Board

open Lwip

/-- Memory as the C start-up code leaves it. -/
def reset : Board where
  net := .init
  used := fun _ => false
  lwIPCoreReady := false
  mac_addr := ethzero
  udp := { Udp.init with memp := [] }
  s_listeners := fun _ => .zero
  locatorData := List.replicate 84 0

def modifySlot (b : Board) (idx : SlotIdx) (f : udp_listener_t → udp_listener_t) : Board :=
  { b with s_listeners := Function.update b.s_listeners idx (f (b.s_listeners idx)) }

/-! ## `lwiplib.c` -/

/-- `hdkif_init`: the only part that touches the hardware, whose answer is `err`. -/
def hdkif_init (mac : eth_addr) (err : err_t) (nif : netif) : netif × err_t :=
  ({ nif with
      state := .hdkif_data 0, output := some .etharp_output, linkoutput := some .hdkif_output, mtu := 1514,
      hwaddr_len := 6, hwaddr := mac,
      flags := NETIF_FLAG_BROADCAST ||| NETIF_FLAG_ETHARP ||| NETIF_FLAG_LINK_UP }, err)

/-- `hdkif_alias_init`, with what `aliasSourceNetif` points to. -/
def hdkif_alias_init (aliasSourceNetif : Option netif) (nif : netif) : netif × err_t :=
  match aliasSourceNetif with
  | none => (nif, .ERR_ARG)
  | some src =>
    ({ nif with
        state := src.state, output := src.output, linkoutput := src.linkoutput, mtu := src.mtu,
        hwaddr_len := src.hwaddr_len, hwaddr := src.hwaddr, flags := src.flags }, .ERR_OK)

/-- `lwip_init`: of the state kept here only the pool is set up. -/
def lwip_init (b : Board) : Board := { b with udp := { b.udp with memp := Udp.init.memp } }

def lwIPCoreInit (b : Board) (macArray : eth_addr) : Board × UInt32 :=
  if b.lwIPCoreReady then (b, 1)
  else ({ lwip_init b with mac_addr := macArray, lwIPCoreReady := true }, 1)

/-- `lwIPNetifAdd(0, ...)`. `err` is what the hardware initialisation returns. -/
def lwIPNetifAdd (b : Board) (ipAddr netMask gwAddr : ip_addr_t) (makeDefault : Bool) (err : err_t)
    (alloc : Bool) : Board × UInt32 :=
  if !b.lwIPCoreReady then (b, 0)
  else
    match netif_add b.net .phys ipAddr netMask gwAddr (.instNum 0) (hdkif_init b.mac_addr err) with
    | (net, false) => ({ b with net := net }, 0)
    | (net, true) =>
      let net := if makeDefault then netif_set_default net (some .phys) else net
      let net := netif_set_up net .phys alloc
      ({ b with net := net }, (net.netifs .phys).ip_addr)

/-- `lwIPAliasAdd(0, ...)`: takes the first free entry of the pool, and returns the address, 0 on failure. -/
def lwIPAliasAdd (b : Board) (ipAddr netMask gwAddr : ip_addr_t) (alloc : Bool) : Board × UInt32 :=
  if !b.lwIPCoreReady then (b, 0)
  else
    match (List.finRange maxAliasNetif).find? (fun idx => !b.used idx) with
    | none => (b, 0)
    | some idx =>
      match netif_add b.net (.alias_list idx) ipAddr netMask gwAddr .null
          (hdkif_alias_init (some (b.net.netifs .phys))) with
      | (net, false) => ({ b with net := net }, 0)
      | (net, true) =>
        let net := netif_set_up net (.alias_list idx) alloc
        ({ b with net := net, used := Function.update b.used idx true }, (net.netifs (.alias_list idx)).ip_addr)

/-- `lwIPAliasRemove`: only an entry of the pool that is in use is removed. -/
def lwIPAliasRemove (b : Board) (n : NetifPtr) : Board :=
  match n with
  | .phys => b
  | .alias_list idx =>
    if b.used idx then { b with net := netif_remove b.net n, used := Function.update b.used idx false } else b

/-! ## `locator.c` -/

/-- The answer without its checksum. -/
def locatorAnswer (macArray : eth_addr) (appTitle : List UInt8) : List UInt8 :=
  [0xfe, 84, 0x02] ++ List.replicate 6 0 ++ macArray.toList ++ List.replicate 4 0 ++
    (appTitle.take 64 ++ List.replicate (64 - appTitle.length) 0) ++ [0]

def LocatorConfig (b : Board) (macArray : eth_addr) (appTitle : List UInt8) : Board :=
  let b := { b with locatorData := locatorAnswer macArray appTitle }
  match udp_new b.udp with
  | (u, none) => { b with udp := u }
  | (u, some pcb) =>
    let u := udp_recv u pcb .LocatorReceive 0
    let u := (udp_bind u pcb IPADDR_ANY 23).1
    let u := (udp_connect u pcb IPADDR_ANY 23).1
    { b with udp := u }

/-- The checksum makes the bytes of the answer add up to 0. -/
def locatorChecksum (data : List UInt8) : UInt8 := (data.take 83).foldl (fun c x => c - x) 0

/-- Answers a request of the right form from the control block it came to. -/
def LocatorReceive (b : Board) (pcb : PcbPtr) (p : pbuf) (addr : ip_addr_t) (port : UInt16) (alloc : Bool)
    (out : Alloc) : Board :=
  match p.segs with
  | [0xff, 4, 0x02, 0xfb] :: _ =>
    if !alloc then b
    else
      let data := b.locatorData.take 83 ++ [locatorChecksum b.locatorData]
      let r := udp_sendto b.net b.udp pcb data addr port out
      { b with net := r.1, udp := r.2.1, locatorData := data }
  | _ => b

/-! ## Start-up -/

/-- What the board is started with. -/
structure Boot where
  macAddress : eth_addr
  ip_ana : ip_addr_t
  netmask_ana : ip_addr_t
  gateway_ana : ip_addr_t
  appTitle : List UInt8
  /-- Whether the PHY is connected: `hdkif_init` returns ERR_OK or ERR_CONN. -/
  connected : Bool
  alloc : Bool

/-- The addresses and the title that `EMAC_LwIP_Main` uses. -/
def Boot.main (macAddress : eth_addr) (connected : Bool) : Boot where
  macAddress := macAddress
  ip_ana := 0x0a00000a
  netmask_ana := 0xffffff00
  gateway_ana := 0x0a000001
  appTitle := "HDK enet_lwip (dual-ip)".toUTF8.toList
  connected := connected
  alloc := true

/-- `EMAC_LwIP_Main` up to its main loop. -/
def boot (c : Boot) : Board :=
  let b := (lwIPCoreInit reset c.macAddress).1
  let b := (lwIPNetifAdd b c.ip_ana c.netmask_ana c.gateway_ana true
    (if c.connected then .ERR_OK else .ERR_CONN) c.alloc).1
  LocatorConfig b c.macAddress c.appTitle

end Board

end MultiIp
