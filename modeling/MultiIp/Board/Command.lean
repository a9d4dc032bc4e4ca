import MultiIp.Board.Ping

/-!
# The command channel

The structured commands of `src/terminal_interface.c`. Each command function
returns the state it leaves and the text it prints; what it does once its
arguments are read is a function of its own.
-/

namespace MultiIp.Firmware

open Board Lwip Lib

abbrev CMD_LINE_MAX : Nat := 128

/-- What a command depends on besides the state and its line. -/
structure Env where
  /-- What `%d` and `atoi` make of a number that does not fit an `int`. -/
  overflow : Int → Int
  alloc : Bool
  out : Alloc
  ping : PingEnv
  /-- The interrupts while `ping_wait_reply` waits, and between its loop and its return. -/
  during : List Interrupt
  late : List Interrupt
  scan : Nat → Alloc × List Interrupt

def Env.int (env : Env) (n : Int) : Int := if -2 ^ 31 ≤ n ∧ n < 2 ^ 31 then n else env.overflow n

def Env.atoi (env : Env) (s : Text) : Int :=
  match scanInt s with
  | none => 0
  | some (n, _) => env.int n

def cmd_out (s : String) : Text := s.toList

/-- `snprintf` into a buffer of `size` bytes, and `sciSend` of the result. -/
def sendLine (size : Nat) (s : Text) : Text := s.take (size - 1)

/-- Positions count from 1. -/
def cmd_netif_by_index (b : Board) (idx : Int) : Option NetifPtr :=
  if idx < 1 then none else b.net.list[(idx - 1).toNat]?

def setBoard (f : Firmware) (b : Board) : Firmware := { f with board := b }

/-- Text printed before the rest of the command runs. -/
def after (out : Text) (r : Firmware × Text) : Firmware × Text := (r.1, out ++ r.2)

/-! ## NETIF LIST -/

/-- `"#SOCK %d %u %u\r\n"`. -/
def sockLine (b : Board) (n : NetifPtr) (idx j : Nat) : Text :=
  "#SOCK ".toList ++ decimal idx ++ ' ' :: decimal (j + 1) ++
    ' ' :: decimal (udp_source_get_socket b n (UInt8.ofNat j)).local_port.toNat ++ "\r\n".toList

/-- `"#NETIF %d %s %s %s socks=%u\r\n"`. -/
def netifLine (b : Board) (n : NetifPtr) (idx : Nat) : Text :=
  let nif := b.net.netifs n
  "#NETIF ".toList ++ decimal idx ++ ' ' :: ipaddr_ntoa nif.ip_addr ++ ' ' :: ipaddr_ntoa nif.netmask ++
    ' ' :: ipaddr_ntoa nif.gw ++ " socks=".toList ++ decimal (udp_source_count_sockets b n) ++ "\r\n".toList

/-- The lines of one interface. -/
def netifBlock (b : Board) (n : NetifPtr) (idx : Nat) : Text :=
  sendLine 96 (netifLine b n idx) ++
    (List.range (udp_source_count_sockets b n)).flatMap (fun j => sendLine 96 (sockLine b n idx j))

/-- The loop over the interfaces, from position `idx` on. -/
def netifBlocks (b : Board) : List NetifPtr → Nat → Text
  | [], _ => []
  | n :: l, idx => netifBlock b n idx ++ netifBlocks b l (idx + 1)

def cmd_netif_list (f : Firmware) : Firmware × Text :=
  after (cmd_out "#BEGIN NETIFLIST\r\n")
    (f, netifBlocks f.board f.board.net.list 1 ++ cmd_out "#END NETIFLIST OK\r\n")

/-! ## NETIF ADD, DEL and SET -/

/-- `sscanf(args, "%15s %15s %15s", ...)` and the three addresses. -/
def netif_add_args (args : Text) : Option (ip_addr_t × ip_addr_t × ip_addr_t) := do
  let (ip_s, s) ← scanWord 15 args
  let (mask_s, s) ← scanWord 15 s
  let (gw_s, _) ← scanWord 15 s
  return (← ipaddr_aton ip_s, ← ipaddr_aton mask_s, ← ipaddr_aton gw_s)

def netifAdd (f : Firmware) (env : Env) (ip mask gw : ip_addr_t) : Firmware × Text :=
  let r := net_if_add f.board ip mask gw env.alloc
  if r.2 ≠ .ERR_OK then (f.setBoard r.1, cmd_out "#END NETIFADD ERR:add_failed\r\n")
  else (f.setBoard r.1, cmd_out "#END NETIFADD OK\r\n")

def cmd_netif_add (f : Firmware) (env : Env) (args : Text) : Firmware × Text :=
  after (cmd_out "#BEGIN NETIFADD\r\n") <|
    match netif_add_args args with
    | none => (f, cmd_out "#END NETIFADD ERR:bad_args\r\n")
    | some (ip, mask, gw) => netifAdd f env ip mask gw

def netifDel (f : Firmware) (idx : Int) : Firmware × Text :=
  match cmd_netif_by_index f.board idx with
  | none => (f, cmd_out "#END NETIFDEL ERR:bad_index\r\n")
  | some n =>
    let r := net_if_remove f.board (some n)
    if r.2 ≠ .ERR_OK then (f.setBoard r.1, cmd_out "#END NETIFDEL ERR:remove_failed\r\n")
    else (f.setBoard r.1, cmd_out "#END NETIFDEL OK\r\n")

def cmd_netif_del (f : Firmware) (env : Env) (args : Text) : Firmware × Text :=
  after (cmd_out "#BEGIN NETIFDEL\r\n") (netifDel f (env.atoi args))

/-- `sscanf(args, "%d %7s %15s", ...)` and the address. -/
def netif_set_args (env : Env) (args : Text) : Option (Int × Text × ip_addr_t) := do
  let (idx, s) ← scanInt args
  let (field, s) ← scanWord 7 s
  let (val_s, _) ← scanWord 15 s
  return (env.int idx, field, ← ipaddr_aton val_s)

/-- The board after the interface got the address and its sockets were moved. -/
def setIp (b : Board) (n : NetifPtr) (val : ip_addr_t) : Board :=
  udp_source_netif_ip_changed { b with net := netif_set_ipaddr b.net n val } (some n)

def netifSet (f : Firmware) (idx : Int) (field : Text) (val : ip_addr_t) : Firmware × Text :=
  match cmd_netif_by_index f.board idx with
  | none => (f, cmd_out "#END NETIFSET ERR:bad_index\r\n")
  | some n =>
    if field = "IP".toList then (f.setBoard (setIp f.board n val), cmd_out "#END NETIFSET OK\r\n")
    else if field = "MASK".toList then
      (f.setBoard { f.board with net := netif_set_netmask f.board.net n val }, cmd_out "#END NETIFSET OK\r\n")
    else if field = "GW".toList then
      (f.setBoard { f.board with net := netif_set_gw f.board.net n val }, cmd_out "#END NETIFSET OK\r\n")
    else (f, cmd_out "#END NETIFSET ERR:bad_field\r\n")

def cmd_netif_set (f : Firmware) (env : Env) (args : Text) : Firmware × Text :=
  after (cmd_out "#BEGIN NETIFSET\r\n") <|
    match netif_set_args env args with
    | none => (f, cmd_out "#END NETIFSET ERR:bad_args\r\n")
    | some (idx, field, val) => netifSet f idx field val

/-! ## SOCK OPEN and CLOSE -/

/-- `sscanf(args, "%d %d", ...)`. -/
def two_ints (env : Env) (args : Text) : Option (Int × Int) := do
  let (a, s) ← scanInt args
  let (b, _) ← scanInt s
  return (env.int a, env.int b)

def sockOpen (f : Firmware) (idx port : Int) : Firmware × Text :=
  if port < 1 ∨ port > 65535 then (f, cmd_out "#END SOCKOPEN ERR:bad_args\r\n")
  else
    match cmd_netif_by_index f.board idx with
    | none => (f, cmd_out "#END SOCKOPEN ERR:bad_index\r\n")
    | some n =>
      -- `id` is not initialised, and its value makes no difference.
      let r := udp_source_add_listener f.board (some n) (UInt16.ofNat port.toNat) (some 0)
      if r.2.1 ≠ .ERR_OK then (f.setBoard r.1, cmd_out "#END SOCKOPEN ERR:open_failed\r\n")
      else (f.setBoard r.1, cmd_out "#END SOCKOPEN OK\r\n")

def cmd_sock_open (f : Firmware) (env : Env) (args : Text) : Firmware × Text :=
  after (cmd_out "#BEGIN SOCKOPEN\r\n") <|
    match two_ints env args with
    | none => (f, cmd_out "#END SOCKOPEN ERR:bad_args\r\n")
    | some (idx, port) => sockOpen f idx port

/-- The `nth` socket of the interface, as `SOCK CLOSE` and `UDP SEND` look it up. -/
def nthSocket (b : Board) (n : NetifPtr) (nth : Int) : Option udp_netif_socket_info_t :=
  if nth < 1 ∨ nth > udp_source_count_sockets b n then none
  else some (udp_source_get_socket b n (UInt8.ofNat (nth - 1).toNat))

def sockClose (f : Firmware) (idx nth : Int) : Firmware × Text :=
  match cmd_netif_by_index f.board idx with
  | none => (f, cmd_out "#END SOCKCLOSE ERR:bad_index\r\n")
  | some n =>
    match nthSocket f.board n nth with
    | none => (f, cmd_out "#END SOCKCLOSE ERR:bad_socket\r\n")
    | some sock =>
      (f.setBoard (udp_source_remove_listener f.board sock.socket_id), cmd_out "#END SOCKCLOSE OK\r\n")

def cmd_sock_close (f : Firmware) (env : Env) (args : Text) : Firmware × Text :=
  after (cmd_out "#BEGIN SOCKCLOSE\r\n") <|
    match two_ints env args with
    | none => (f, cmd_out "#END SOCKCLOSE ERR:bad_args\r\n")
    | some (idx, nth) => sockClose f idx nth

/-! ## PING, SCAN and ARPRESET -/

/-- `sscanf(args, "%d %15s", ...)` and the address. -/
def ping_args (env : Env) (args : Text) : Option (Int × ip_addr_t) := do
  let (idx, s) ← scanInt args
  let (ip_s, _) ← scanWord 15 s
  return (env.int idx, ← ipaddr_aton ip_s)

/-- `"#PONG %s %u %u %lu %u\r\n"`. -/
def pongLine (res : ping_result_t) : Text :=
  "#PONG ".toList ++ ipaddr_ntoa res.from_ ++ ' ' :: decimal res.seqno.toNat ++ ' ' :: decimal res.data_len.toNat ++
    ' ' :: decimal res.rtt_ms.toNat ++ ' ' :: decimal res.ttl.toNat ++ "\r\n".toList

def pingOnce (f : Firmware) (env : Env) (idx : Int) (target : ip_addr_t) : Firmware × Text :=
  match cmd_netif_by_index f.board idx with
  | none => (f, cmd_out "#END PING ERR:bad_index\r\n")
  | some n =>
    let r := ping_send f (some n) target env.ping
    if r.2 ≠ .ERR_OK then (r.1, cmd_out "#END PING ERR:send_failed\r\n")
    else
      match ping_wait_reply r.1 env.during env.late with
      | (f, some res) => (f, sendLine 96 (pongLine res) ++ cmd_out "#END PING OK\r\n")
      | (f, none) => (f, cmd_out "#TIMEOUT\r\n" ++ cmd_out "#END PING OK\r\n")

def cmd_ping (f : Firmware) (env : Env) (args : Text) : Firmware × Text :=
  after (cmd_out "#BEGIN PING\r\n") <|
    match ping_args env args with
    | none => (f, cmd_out "#END PING ERR:bad_args\r\n")
    | some (idx, target) => pingOnce f env idx target

/-- `scan_network` only fails on NULL, so `ERR:scan_failed` is never printed. -/
def scanOn (f : Firmware) (env : Env) (idx : Int) : Firmware × Text :=
  match cmd_netif_by_index f.board idx with
  | none => (f, cmd_out "#END SCAN ERR:bad_index\r\n")
  | some n =>
    let r := scan_network f n env.scan
    (r.1, r.2.flatMap (fun h => hostUp h.1 h.2) ++ cmd_out "#END SCAN OK\r\n")

def cmd_scan (f : Firmware) (env : Env) (args : Text) : Firmware × Text :=
  after (cmd_out "#BEGIN SCAN\r\n") (scanOn f env (env.atoi args))

def arpReset (f : Firmware) : Firmware :=
  let arp := f.board.net.list.foldl etharp_cleanup_netif f.board.net.arp
  f.setBoard { f.board with net := { f.board.net with arp := arp } }

def cmd_arp_reset (f : Firmware) : Firmware × Text :=
  after (cmd_out "#BEGIN ARPRESET\r\n") (arpReset f, cmd_out "#END ARPRESET OK\r\n")

/-! ## UDP SEND -/

/-- `sscanf(args, "%d %d %15s %d %n", ...)`, the address, and what follows the scanned part. -/
def udp_send_args (env : Env) (args : Text) : Option (Int × Int × ip_addr_t × Int × Text) := do
  let (idx, s) ← scanInt args
  let (nth, s) ← scanInt s
  let (ip_s, s) ← scanWord 15 s
  let (port, s) ← scanInt s
  return (env.int idx, env.int nth, ← ipaddr_aton ip_s, env.int port, skipSpace s)

def udpSend (f : Firmware) (env : Env) (idx nth : Int) (dst : ip_addr_t) (port : Int) (data : Text) :
    Firmware × Text :=
  if port < 1 ∨ port > 65535 then (f, cmd_out "#END UDPSEND ERR:bad_args\r\n")
  else if data = [] then (f, cmd_out "#END UDPSEND ERR:no_data\r\n")
  else
    match cmd_netif_by_index f.board idx with
    | none => (f, cmd_out "#END UDPSEND ERR:bad_index\r\n")
    | some n =>
      match nthSocket f.board n nth with
      | none => (f, cmd_out "#END UDPSEND ERR:bad_socket\r\n")
      | some sock =>
        let r := udp_source_data_send f.board sock.socket_id sock.netif dst (UInt16.ofNat port.toNat)
          (some (data.map (fun c => UInt8.ofNat c.toNat))) (UInt16.ofNat data.length) env.alloc env.out
        if r.2 ≠ .ERR_OK then (f.setBoard r.1, cmd_out "#END UDPSEND ERR:send_failed\r\n")
        else (f.setBoard r.1, cmd_out "#END UDPSEND OK\r\n")

def cmd_udp_send (f : Firmware) (env : Env) (args : Text) : Firmware × Text :=
  after (cmd_out "#BEGIN UDPSEND\r\n") <|
    match udp_send_args env args with
    | none => (f, cmd_out "#END UDPSEND ERR:bad_args\r\n")
    | some (idx, nth, dst, port, data) => udpSend f env idx nth dst port data

/-! ## Lines -/

/-- What follows the command word, if the line starts with it. -/
def argsOf (word : String) (line : Text) : Option Text :=
  if word.toList.isPrefixOf line then some (line.drop word.length) else none

def cmd_dispatch (f : Firmware) (env : Env) (line : Text) : Firmware × Text :=
  if line = "NETIF LIST".toList then cmd_netif_list f
  else if let some args := argsOf "NETIF ADD " line then cmd_netif_add f env args
  else if let some args := argsOf "NETIF DEL " line then cmd_netif_del f env args
  else if let some args := argsOf "NETIF SET " line then cmd_netif_set f env args
  else if let some args := argsOf "SOCK OPEN " line then cmd_sock_open f env args
  else if let some args := argsOf "SOCK CLOSE " line then cmd_sock_close f env args
  else if let some args := argsOf "PING " line then cmd_ping f env args
  else if let some args := argsOf "SCAN " line then cmd_scan f env args
  else if line = "ARPRESET".toList then cmd_arp_reset f
  else if let some args := argsOf "UDP SEND " line then cmd_udp_send f env args
  else (f, cmd_out "#ERR unknown_command\r\n")

/-- The main loop hands every received byte to this function. A C string ends at its first NUL. -/
def cmd_channel_feed (f : Firmware) (env : Env) (ch : Char) : Firmware × Text :=
  if ch = '\r' ∨ ch = '\n' then
    if f.cmd_line.length > 0 then
      let r := cmd_dispatch f env (f.cmd_line.takeWhile (· ≠ '\x00'))
      ({ r.1 with cmd_line := [] }, r.2)
    else (f, [])
  else if f.cmd_line.length < CMD_LINE_MAX - 1 then ({ f with cmd_line := f.cmd_line ++ [ch] }, [])
  else (f, [])

end MultiIp.Firmware
