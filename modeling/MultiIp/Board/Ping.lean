import MultiIp.Board.UdpSource
import MultiIp.Lwip.IpAddr

/-!
# Ping and scan

`src/ping.c`. Both wait for the network in a loop, so each takes the interrupts
that arrive while it waits.
-/

namespace MultiIp.Board

open Lwip Lib

def PING_RTI_TICKS_PER_MS : UInt32 := 9375
def PING_ID : UInt16 := 0xafaf
def ICMP_ER : UInt8 := 0
def ICMP_TTL : UInt8 := 255
def SIZEOF_ICMP_ECHO_HDR : UInt16 := 8

structure ping_result_t where
  from_ : ip_addr_t
  seqno : UInt16
  data_len : UInt16
  rtt_ms : UInt32
  ttl : UInt8
  deriving DecidableEq

/-- The static variables of `ping.c`. -/
structure Ping where
  s_ping_pcb : Bool
  s_seq : UInt16
  s_waiting : Bool
  s_reply_valid : Bool
  s_send_tick : UInt32
  s_result : ping_result_t
  deriving DecidableEq

def Ping.init : Ping where
  s_ping_pcb := false
  s_seq := 0
  s_waiting := false
  s_reply_valid := false
  s_send_tick := 0
  s_result := { from_ := 0, seqno := 0, data_len := 0, rtt_ms := 0, ttl := 0 }

/-- What `ping_recv` reads of a received packet: the sender, the length of the IP header, the lengths of
the first pbuf and of all of them, and the fields of the headers. -/
structure IcmpPacket where
  addr : ip_addr_t
  ip_hlen : UInt16
  len : UInt16
  tot_len : UInt16
  type : UInt8
  id : UInt16
  seqno : UInt16
  ttl : UInt8
  deriving DecidableEq

/-- Runs in the interrupt. Returns whether the packet was consumed. -/
def ping_recv (p : Ping) (k : IcmpPacket) (now : UInt32) : Ping × Bool :=
  if !p.s_waiting || p.s_reply_valid then (p, false)
  else if k.tot_len < k.ip_hlen + SIZEOF_ICMP_ECHO_HDR then (p, false)
  -- `pbuf_header` hides the IP header; it must lie in the first pbuf.
  else if k.ip_hlen ≤ k.len ∧ k.type = ICMP_ER ∧ k.id = PING_ID ∧ k.seqno = p.s_seq then
    ({ p with
        s_result :=
          { from_ := k.addr, seqno := p.s_seq, data_len := k.tot_len - k.ip_hlen - SIZEOF_ICMP_ECHO_HDR,
            rtt_ms := (now - p.s_send_tick) / PING_RTI_TICKS_PER_MS, ttl := k.ttl }
        s_waiting := false, s_reply_valid := true }, true)
  else (p, false)

/-- What a ping depends on besides the state: whether the allocations succeed and the clock. -/
structure PingEnv where
  raw : Bool
  alloc : Bool
  tick : UInt32
  out : Alloc

end MultiIp.Board

namespace MultiIp

/-- The board together with the other static variables that a command can reach. -/
structure Firmware where
  board : Board
  ping : Board.Ping
  /-- `cmd_line` up to `cmd_line_len`. -/
  cmd_line : Lib.Text

namespace Firmware

open Board Lwip Lib

/-- What can arrive while the main program waits. -/
inductive Interrupt
  | udp (inp : NetifPtr) (d : Datagram) (alloc : Bool) (out : Alloc)
  | arp (f : ArpFrame)
  | icmp (k : IcmpPacket) (now : UInt32)

def interrupt (f : Firmware) : Interrupt → Firmware
  | .udp inp d alloc out => { f with board := udp_input f.board inp d alloc out }
  | .arp fr => { f with board := { f.board with net := ethernet_input_arp f.board.net fr } }
  | .icmp k now => { f with ping := ( ping_recv f.ping k now).1 }

def interrupts (f : Firmware) (is : List Interrupt) : Firmware := is.foldl interrupt f

/-! ## `ping_send` and `ping_wait_reply` -/

def ping_send (f : Firmware) (netif : Option NetifPtr) (target : ip_addr_t) (env : PingEnv) : Firmware × err_t :=
  match netif with
  | none => (f, .ERR_VAL)
  | some n =>
    if !f.ping.s_ping_pcb && !env.raw then (f, .ERR_MEM)
    else
      let f := { f with ping := { f.ping with s_ping_pcb := true } }
      if !env.alloc then (f, .ERR_MEM)
      else
        let seq := f.ping.s_seq + 1
        let r := ip_output_if f.board.net (f.board.net.netifs n).ip_addr target ICMP_TTL 0 (.icmp_echo seq) n env.out
        ({ f with
            board := { f.board with net := r.1 }
            ping := { f.ping with s_seq := seq, s_reply_valid := false, s_send_tick := env.tick,
                                  s_waiting := r.2 == .ERR_OK } }, r.2)

/-- Waits for the reply of the last `ping_send`. The interrupts of `during` arrive before the loop ends; if
it ends without a reply, those of `late` arrive before `s_waiting` is cleared. -/
def ping_wait_reply (f : Firmware) (during late : List Interrupt) : Firmware × Option ping_result_t :=
  let f := f.interrupts during
  if f.ping.s_reply_valid then
    ({ f with ping := { f.ping with s_reply_valid := false } }, some f.ping.s_result)
  else
    let f := f.interrupts late
    ({ f with ping := { f.ping with s_waiting := false } }, none)

/-! ## `scan_network` -/

/-- `%02x`. -/
def hex2 (b : UInt8) : Text := [(b / 16).toNat.digitChar, (b % 16).toNat.digitChar]

def macText (mac : eth_addr) : Text := [':'].intercalate (mac.toList.map hex2)

/-- `"Host up: %s  MAC %02x:%02x:%02x:%02x:%02x:%02x\r\n"`. -/
def hostUp (target : ip_addr_t) (mac : eth_addr) : Text :=
  "Host up: ".toList ++ ipaddr_ntoa target ++ "  MAC ".toList ++ macText mac ++ "\r\n".toList

/-- The target of round `idx`, unless the round is left out. -/
def scanTarget (nif : netif) (idx : Nat) : Option ip_addr_t :=
  if idx = (nif.ip_addr &&& 0xff).toNat ∨ idx = 0 ∨ idx = 255 then none
  else some ((nif.netmask &&& nif.ip_addr) ||| UInt32.ofNat idx)

/-- One round of the loop: asks, waits, looks the answer up and, every ten rounds, empties the table. -/
def scan_round (n : NetifPtr) (env : Nat → Alloc × List Interrupt) (s : Firmware × List (ip_addr_t × eth_addr))
    (idx : Nat) : Firmware × List (ip_addr_t × eth_addr) :=
  let f := s.1
  match scanTarget (f.board.net.netifs n) idx with
  | none => s
  | some target =>
    let arp := (etharp_query f.board.net.arp n (f.board.net.netifs n) target none (env idx).1).1
    let f := { f with board := { f.board with net := { f.board.net with arp := arp } } }
    let f := f.interrupts (env idx).2
    let r := etharp_find_addr f.board.net.arp target
    let arp := if idx % 10 = 0 then etharp_cleanup_netif r.1 n else r.1
    ({ f with board := { f.board with net := { f.board.net with arp := arp } } },
      s.2 ++ (r.2.map (fun mac => (target, mac))).toList)

/-- Returns the hosts in the order in which their lines are printed. -/
def scan_network (f : Firmware) (n : NetifPtr) (env : Nat → Alloc × List Interrupt) :
    Firmware × List (ip_addr_t × eth_addr) :=
  (List.range 256).foldl (scan_round n env) (f, [])

end Firmware

end MultiIp
