import MultiIp.Board.Command
import MultiIp.Board.Reachable

/-!
# What a command line does

A line is first read into a `Command` and then executed. The firmware is a
machine whose steps are command lines, the calls of the menu and of the main
loop, and interrupts; the invariants of the board hold in all its states.
-/

namespace MultiIp.Firmware

open Board Lwip Lib

/-! ## Reading a line -/

inductive Command
  | netif_list
  | netif_add (ip mask gw : ip_addr_t)
  | netif_del (idx : Int)
  | netif_set (idx : Int) (field : Text) (val : ip_addr_t)
  | sock_open (idx port : Int)
  | sock_close (idx nth : Int)
  | ping (idx : Int) (target : ip_addr_t)
  | scan (idx : Int)
  | arp_reset
  | udp_send (idx nth : Int) (dst : ip_addr_t) (port : Int) (data : Text)
  | bad_args (name : String)
  | unknown

/-- The command that the line gives, when it takes arguments. -/
def parseWith (env : Env) (line : Text) : Command :=
  if let some args := argsOf "NETIF ADD " line then
    (netif_add_args args).elim (.bad_args "NETIFADD") (fun a => .netif_add a.1 a.2.1 a.2.2)
  else if let some args := argsOf "NETIF DEL " line then .netif_del (env.atoi args)
  else if let some args := argsOf "NETIF SET " line then
    (netif_set_args env args).elim (.bad_args "NETIFSET") (fun a => .netif_set a.1 a.2.1 a.2.2)
  else if let some args := argsOf "SOCK OPEN " line then
    (two_ints env args).elim (.bad_args "SOCKOPEN") (fun a => .sock_open a.1 a.2)
  else if let some args := argsOf "SOCK CLOSE " line then
    (two_ints env args).elim (.bad_args "SOCKCLOSE") (fun a => .sock_close a.1 a.2)
  else if let some args := argsOf "PING " line then
    (ping_args env args).elim (.bad_args "PING") (fun a => .ping a.1 a.2)
  else if let some args := argsOf "SCAN " line then .scan (env.atoi args)
  else if line = "ARPRESET".toList then .arp_reset
  else if let some args := argsOf "UDP SEND " line then
    (udp_send_args env args).elim (.bad_args "UDPSEND") (fun a => .udp_send a.1 a.2.1 a.2.2.1 a.2.2.2.1 a.2.2.2.2)
  else .unknown

def parse (env : Env) (line : Text) : Command :=
  if line = "NETIF LIST".toList then .netif_list else parseWith env line

/-- The name between `#BEGIN` and the end of the line; an unknown command has none. -/
def Command.name : Command → String
  | .netif_list => "NETIFLIST"
  | .netif_add .. => "NETIFADD"
  | .netif_del .. => "NETIFDEL"
  | .netif_set .. => "NETIFSET"
  | .sock_open .. => "SOCKOPEN"
  | .sock_close .. => "SOCKCLOSE"
  | .ping .. => "PING"
  | .scan .. => "SCAN"
  | .arp_reset => "ARPRESET"
  | .udp_send .. => "UDPSEND"
  | .bad_args name => name
  | .unknown => ""

def beginLine (name : String) : Text := "#BEGIN ".toList ++ name.toList ++ "\r\n".toList

def endLine (name status : String) : Text :=
  "#END ".toList ++ name.toList ++ ' ' :: status.toList ++ "\r\n".toList

/-! ## Executing it -/

/-- What is printed after the `#BEGIN` line. -/
def Command.body (f : Firmware) (env : Env) : Command → Firmware × Text
  | .netif_list => (f, netifBlocks f.board f.board.net.list 1 ++ endLine "NETIFLIST" "OK")
  | .netif_add ip mask gw => netifAdd f env ip mask gw
  | .netif_del idx => netifDel f idx
  | .netif_set idx field val => netifSet f idx field val
  | .sock_open idx port => sockOpen f idx port
  | .sock_close idx nth => sockClose f idx nth
  | .ping idx target => pingOnce f env idx target
  | .scan idx => scanOn f env idx
  | .arp_reset => (arpReset f, endLine "ARPRESET" "OK")
  | .udp_send idx nth dst port data => udpSend f env idx nth dst port data
  | .bad_args name => (f, endLine name "ERR:bad_args")
  | .unknown => (f, [])

def Command.exec (f : Firmware) (env : Env) (c : Command) : Firmware × Text :=
  match c with
  | .unknown => (f, cmd_out "#ERR unknown_command\r\n")
  | c => after (beginLine c.name) (c.body f env)

theorem cmd_netif_add_eq (f : Firmware) (env : Env) (args : Text) :
    cmd_netif_add f env args =
      ((netif_add_args args).elim (.bad_args "NETIFADD") (fun a => Command.netif_add a.1 a.2.1 a.2.2)).exec f env := by
  unfold cmd_netif_add
  rcases netif_add_args args with _ | ⟨ip, mask, gw⟩
  · rfl
  · show _ = after (beginLine "NETIFADD") _
    rfl

theorem cmd_netif_set_eq (f : Firmware) (env : Env) (args : Text) :
    cmd_netif_set f env args =
      ((netif_set_args env args).elim (.bad_args "NETIFSET") (fun a => Command.netif_set a.1 a.2.1 a.2.2)).exec f env := by
  unfold cmd_netif_set
  rcases netif_set_args env args with _ | ⟨idx, field, val⟩
  · rfl
  · show _ = after (beginLine "NETIFSET") _
    rfl

theorem cmd_sock_open_eq (f : Firmware) (env : Env) (args : Text) :
    cmd_sock_open f env args =
      ((two_ints env args).elim (.bad_args "SOCKOPEN") (fun a => Command.sock_open a.1 a.2)).exec f env := by
  unfold cmd_sock_open
  rcases two_ints env args with _ | ⟨a, b⟩
  · rfl
  · show _ = after (beginLine "SOCKOPEN") _
    rfl

theorem cmd_sock_close_eq (f : Firmware) (env : Env) (args : Text) :
    cmd_sock_close f env args =
      ((two_ints env args).elim (.bad_args "SOCKCLOSE") (fun a => Command.sock_close a.1 a.2)).exec f env := by
  unfold cmd_sock_close
  rcases two_ints env args with _ | ⟨a, b⟩
  · rfl
  · show _ = after (beginLine "SOCKCLOSE") _
    rfl

theorem cmd_ping_eq (f : Firmware) (env : Env) (args : Text) :
    cmd_ping f env args = ((ping_args env args).elim (.bad_args "PING") (fun a => Command.ping a.1 a.2)).exec f env := by
  unfold cmd_ping
  rcases ping_args env args with _ | ⟨idx, target⟩
  · rfl
  · show _ = after (beginLine "PING") _
    rfl

theorem cmd_udp_send_eq (f : Firmware) (env : Env) (args : Text) :
    cmd_udp_send f env args =
      ((udp_send_args env args).elim (.bad_args "UDPSEND")
        (fun a => Command.udp_send a.1 a.2.1 a.2.2.1 a.2.2.2.1 a.2.2.2.2)).exec f env := by
  unfold cmd_udp_send
  rcases udp_send_args env args with _ | ⟨idx, nth, dst, port, data⟩
  · rfl
  · show _ = after (beginLine "UDPSEND") _
    rfl

/-- Dispatching a line is reading it and executing what was read. -/
theorem dispatch_eq (f : Firmware) (env : Env) (line : Text) :
    cmd_dispatch f env line = (parse env line).exec f env := by
  unfold cmd_dispatch parse parseWith
  split
  · rfl
  cases argsOf "NETIF ADD " line with
  | some args => exact cmd_netif_add_eq f env args
  | none =>
  cases argsOf "NETIF DEL " line with
  | some args =>
    show _ = after (beginLine "NETIFDEL") _
    rfl
  | none =>
  cases argsOf "NETIF SET " line with
  | some args => exact cmd_netif_set_eq f env args
  | none =>
  cases argsOf "SOCK OPEN " line with
  | some args => exact cmd_sock_open_eq f env args
  | none =>
  cases argsOf "SOCK CLOSE " line with
  | some args => exact cmd_sock_close_eq f env args
  | none =>
  cases argsOf "PING " line with
  | some args => exact cmd_ping_eq f env args
  | none =>
  cases argsOf "SCAN " line with
  | some args =>
    show _ = after (beginLine "SCAN") _
    rfl
  | none =>
  dsimp only
  split
  · rfl
  cases argsOf "UDP SEND " line with
  | some args => exact cmd_udp_send_eq f env args
  | none => rfl

end MultiIp.Firmware
