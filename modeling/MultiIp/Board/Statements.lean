import MultiIp.Board.Slots

/-!
# Opening, closing and polling, statement by statement

`udp_source_add_listener` runs without protection, so a receive interrupt can
see every state between two of its statements. Closing and polling look the slot
up first and do the rest in a protected section.
-/

namespace MultiIp.Board

open Lwip

/-! ## Who releases the pbuf -/

/-- `udp_rx_callback`, with what it passes to `pbuf_free`. -/
def udp_rx_callback_frees (b : Board) (arg : Nat) (p : Option pbuf) (addr : ip_addr_t) (port : UInt16) :
    Board × List pbuf :=
  let idx := arg % 256
  if h : idx < UDP_MAX_LISTENERS then
    let slot : SlotIdx := ⟨idx, h⟩
    if !(b.s_listeners slot).in_use then (b, [])
    else
      match p with
      | none => (b, [])
      | some p =>
        let b :=
          if (b.s_listeners slot).rx_msg.valid then
            b.modifySlot slot (fun s => { s with rx_drop_count := s.rx_drop_count + 1 })
          else b.modifySlot slot (fun s => { s with rx_msg := rxMessage s.rx_msg p addr port })
        (b, [p])
  else (b, [])

theorem rx_callback_frees_fst (b : Board) (arg : Nat) (p : Option pbuf) (addr : ip_addr_t) (port : UInt16) :
    (udp_rx_callback_frees b arg p addr port).1 = udp_rx_callback b arg p addr port := by
  unfold udp_rx_callback_frees udp_rx_callback
  dsimp only
  split
  · split
    · rfl
    · cases p with
      | none => rfl
      | some p => rfl
  · rfl

/-- The pbuf is released by the callback of an open slot and by no other. -/
theorem rx_callback_frees_snd (b : Board) (i : SlotIdx) (p : pbuf) (addr : ip_addr_t) (port : UInt16) :
    (udp_rx_callback_frees b i (some p) addr port).2 = if (b.s_listeners i).in_use then [p] else [] := by
  have hi : (i : Nat) < UDP_MAX_LISTENERS := i.isLt
  have h16 : UDP_MAX_LISTENERS = 16 := rfl
  have hmod : (i : Nat) % 256 = i := Nat.mod_eq_of_lt (by omega)
  unfold udp_rx_callback_frees
  simp only [hmod, dif_pos hi]
  cases (b.s_listeners i).in_use <;> rfl

/-- The argument with which `udp_input` calls `udp_rx_callback` for the datagram. -/
def handedTo (b : Board) (inp : NetifPtr) (d : Datagram) : Option Nat :=
  match udp_input_find b.udp (b.net.netifs inp) d with
  | (u, some pcb) =>
    if d.intact && (u.pcbs pcb).recv == some .udp_rx_callback then some (u.pcbs pcb).recv_arg else none
  | (_, none) => none

/-! ## The statements -/

/-- What `udp_source_add_listener` has done last. -/
inductive Stage
  /-- `new_pcb = udp_new()`. -/
  | created
  /-- `ip_addr_set(&pcb->local_ip, ipaddr)`. -/
  | addressed
  /-- `pcb->local_port = port`. -/
  | ported
  /-- `pcb->next = udp_pcbs`. -/
  | linked
  /-- `udp_pcbs = pcb`. -/
  | bound
  /-- `pcb->recv = recv`. -/
  | callback
  /-- `pcb->recv_arg = recv_arg`. -/
  | armed
  /-- `s_listeners[idx].pcb = new_pcb`. -/
  | pcb_set
  /-- `s_listeners[idx].netif = netif`. -/
  | netif_set
  /-- `s_listeners[idx].in_use = 1`. -/
  | used
  /-- `s_listeners[idx].rx_count = 0`. -/
  | counted
  /-- `s_listeners[idx].rx_drop_count = 0`. -/
  | drop_counted
  deriving DecidableEq

/-- Where the main program is. -/
inductive MainPc
  | idle
  | opening (stage : Stage) (idx : SlotIdx) (n : NetifPtr) (port : UInt16) (pcb : PcbPtr)
  /-- `udp_bind` has failed. -/
  | failed (pcb : PcbPtr)
  /-- `udp_source_remove_listener` has found the slot. -/
  | closing (idx : SlotIdx)
  /-- `udp_source_poll_rx` has found the slot. -/
  | polling (idx : SlotIdx)

structure Main where
  board : Board
  pc : MainPc
  /-- The datagrams handed to `udp_rx_callback`, each with what the callback released. -/
  handed : List (pbuf × List pbuf)

namespace Main

inductive Stmt
  /-- Up to `udp_new`. -/
  | add_listener (netif : NetifPtr) (local_port : UInt16)
  /-- `udp_bind` finds another control block with the address and port. The list that it walks over is reordered by
  interrupts meanwhile, so the outcome of the search is left open. -/
  | refuse
  /-- `udp_new_port` returns `port` and leaves `udp_port`. -/
  | new_port (port udp_port : UInt16)
  | next
  /-- `udp_remove(new_pcb)` after a failure. -/
  | give_back
  | remove_listener (socket_id : udp_sock_id_t)
  | remove_slot
  | remove_all_on_netif (netif : Option NetifPtr)
  | poll_rx (socket_id : udp_sock_id_t)
  | read
  | receive (inp : NetifPtr) (d : Datagram) (alloc : Bool) (out : Alloc)

/-- The next statement of `udp_source_add_listener`. -/
def statement (b : Board) (idx : SlotIdx) (n : NetifPtr) (port : UInt16) (pcb : PcbPtr) : Stage → Board
  | .created => { b with udp := b.udp.modify pcb (fun c => { c with local_ip := (b.net.netifs n).ip_addr }) }
  | .addressed => { b with udp := b.udp.modify pcb (fun c => { c with local_port := port }) }
  | .ported => { b with udp := { b.udp with next := Function.update b.udp.next pcb b.udp.udp_pcbs } }
  | .linked => { b with udp := { b.udp with udp_pcbs := some pcb } }
  | .bound => { b with udp := b.udp.modify pcb (fun c => { c with recv := some .udp_rx_callback }) }
  | .callback => { b with udp := b.udp.modify pcb (fun c => { c with recv_arg := idx }) }
  | .armed => b.modifySlot idx (fun s => { s with pcb := some pcb })
  | .pcb_set => b.modifySlot idx (fun s => { s with netif := some n })
  | .netif_set => b.modifySlot idx (fun s => { s with in_use := true })
  | .used => b.modifySlot idx (fun s => { s with rx_count := 0 })
  | .counted => b.modifySlot idx (fun s => { s with rx_drop_count := 0 })
  | .drop_counted => b.modifySlot idx (fun s => { s with rx_msg := { s.rx_msg with valid := false } })

def nextPc (idx : SlotIdx) (n : NetifPtr) (port : UInt16) (pcb : PcbPtr) : Stage → MainPc
  | .created => .opening .addressed idx n port pcb
  | .addressed => .opening .ported idx n port pcb
  | .ported => .opening .linked idx n port pcb
  | .linked => .opening .bound idx n port pcb
  | .bound => .opening .callback idx n port pcb
  | .callback => .opening .armed idx n port pcb
  | .armed => .opening .pcb_set idx n port pcb
  | .pcb_set => .opening .netif_set idx n port pcb
  | .netif_set => .opening .used idx n port pcb
  | .used => .opening .counted idx n port pcb
  | .counted => .opening .drop_counted idx n port pcb
  | .drop_counted => .idle

/-- The datagrams that the step hands to the callback. -/
def handedBy (m : Main) : Stmt → List (pbuf × List pbuf)
  | .receive inp d _ _ =>
    match handedTo m.board inp d with
    | some arg => [(d.payload, (udp_rx_callback_frees m.board arg (some d.payload) d.src_ip d.src).2)]
    | none => []
  | _ => []

/-- The board and the place in the program after a step. -/
def move (b : Board) (pc : MainPc) : Stmt → Board × MainPc
  | .add_listener n port =>
    match (List.finRange UDP_MAX_LISTENERS).find? (fun idx => !(b.s_listeners idx).in_use) with
    | none => (b, pc)
    | some idx =>
      match udp_new b.udp with
      | (u, none) => ({ b with udp := u }, pc)
      | (u, some pcb) => ({ b with udp := u }, .opening .created idx n port pcb)
  | .refuse =>
    match pc with
    | .opening _ _ _ _ pcb => (b, .failed pcb)
    | _ => (b, pc)
  | .new_port port udp_port =>
    match pc with
    | .opening stage idx n _ pcb =>
      ({ b with udp := { b.udp with udp_port := udp_port } },
        if port = 0 then .failed pcb else .opening stage idx n port pcb)
    | _ => (b, pc)
  | .next =>
    match pc with
    | .opening stage idx n port pcb => (statement b idx n port pcb stage, nextPc idx n port pcb stage)
    | _ => (b, pc)
  | .give_back =>
    match pc with
    | .failed pcb => ({ b with udp := udp_remove b.udp pcb }, .idle)
    | _ => (b, pc)
  | .remove_listener id =>
    match resolve b id with
    | none => (b, pc)
    | some idx => (b, .closing idx)
  | .remove_slot =>
    match pc with
    | .closing idx => (Board.remove_slot b idx, .idle)
    | _ => (b, pc)
  | .remove_all_on_netif n => (udp_source_remove_all_on_netif b n, pc)
  | .poll_rx id =>
    match resolve b id with
    | none => (b, pc)
    | some idx => (b, .polling idx)
  | .read =>
    match pc with
    | .polling idx => (if (b.s_listeners idx).rx_msg.valid then b.modifySlot idx readSlot else b, .idle)
    | _ => (b, pc)
  | .receive inp d alloc out => (udp_input b inp d alloc out, pc)

def step (m : Main) (a : Stmt) : Main :=
  let r := move m.board m.pc a
  ⟨r.1, r.2, m.handed ++ handedBy m a⟩

/-- Each statement is run where the program is. Interrupts come anywhere, and protected sections are one step. -/
def allowed (m : Main) : Stmt → Prop
  | .add_listener _ _ | .remove_listener _ | .remove_all_on_netif _ | .poll_rx _ => m.pc = .idle
  | .refuse => ∃ idx n port pcb, m.pc = .opening .created idx n port pcb
  | .new_port _ _ => ∃ idx n pcb, m.pc = .opening .addressed idx n 0 pcb
  | .next => ∃ stage idx n port pcb, m.pc = .opening stage idx n port pcb ∧ (stage = .addressed → port ≠ 0)
  | .give_back => ∃ pcb, m.pc = .failed pcb
  | .remove_slot => ∃ idx, m.pc = .closing idx
  | .read => ∃ idx, m.pc = .polling idx
  | .receive _ _ _ _ => True

def machine : Lib.Machine Main Stmt where
  step := step
  allowed := allowed

/-- The main loop, with nothing handed over yet. -/
def start (b : Board) : Main := ⟨b, .idle, []⟩

end Main

/-! ## Without interrupts -/

/-- Run without interrupts, the statements are `udp_source_add_listener`. -/
theorem add_listener_run {b : Board} {l : List PcbPtr} (h : b.Registry l) {n : NetifPtr} {port : UInt16}
    (hport : port ≠ 0) (cell : udp_sock_id_t)
    (hok : (udp_source_add_listener b (some n) port (some cell)).2.1 = .ERR_OK) :
    (Main.machine.run (.start b) (.add_listener n port :: List.replicate 12 .next)).board =
      (udp_source_add_listener b (some n) port (some cell)).1 := by
  unfold udp_source_add_listener at hok ⊢
  dsimp only at hok ⊢
  cases hfind : (List.finRange UDP_MAX_LISTENERS).find? (fun idx => !(b.s_listeners idx).in_use) with
  | none =>
    rw [hfind] at hok
    cases hok
  | some idx =>
    rw [hfind] at hok
    dsimp only at hok ⊢
    rcases udp_new_spec h.wf with ⟨-, hnew⟩ | ⟨pcb, u, hnew, hwf, -⟩
    · unfold open_slot at hok
      rw [hnew] at hok
      cases hok
    · have hnot : u.list.any (fun ipcb => pcb == ipcb) = false := by
        rw [hwf.list_eq, List.any_eq_false]
        intro q hq heq
        obtain rfl := beq_iff_eq.mp heq
        exact hwf.not_mem_of_held hq
      have hclash : u.list.any (bindClash u pcb (b.net.netifs n).ip_addr port) = false := by
        rw [Bool.eq_false_iff]
        intro hc
        simp [open_slot, hnew, udp_bind, hc] at hok
      simp [open_slot, hnew, udp_bind, hnot, hclash, hport, Main.machine, Lib.Machine.run, Main.start, Main.step,
        Main.move, hfind, Main.statement, Main.nextPc, udp_recv, Udp.modify, Udp.push, modifySlot, List.replicate]

end MultiIp.Board
