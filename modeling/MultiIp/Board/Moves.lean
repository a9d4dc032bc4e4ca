import MultiIp.Board.Firmware

/-!
# Events as runs of calls

What a command, a packet or a call does to the board is a run of smaller moves:
calls of the board, and the calls of the ARP module that ping, scan and the
reset make. An invariant of the moves holds in every state of the firmware.
-/

namespace MultiIp.Board

open Lwip Lib

inductive Move
  | call (a : Action)
  /-- `ping_send` hands its packet to `ip_output_if`. -/
  | output (src dest : ip_addr_t) (ttl tos : UInt8) (p : IpPayload) (n : NetifPtr) (alloc : Alloc)
  /-- `scan_network` asks, and looks for the answer. -/
  | query (n : NetifPtr) (ipaddr : ip_addr_t) (alloc : Alloc)
  | find_addr (ipaddr : ip_addr_t)
  | cleanup_netif (n : NetifPtr)

def move (b : Board) : Move → Board
  | .call a => step b a
  | .output src dest ttl tos p n alloc => { b with net := (ip_output_if b.net src dest ttl tos p n alloc).1 }
  | .query n ip alloc =>
    { b with net := { b.net with arp := (etharp_query b.net.arp n (b.net.netifs n) ip none alloc).1 } }
  | .find_addr ip => { b with net := { b.net with arp := (etharp_find_addr b.net.arp ip).1 } }
  | .cleanup_netif n => { b with net := { b.net with arp := etharp_cleanup_netif b.net.arp n } }

def Move.allowed (b : Board) : Move → Prop
  | .call a => Board.allowed b a
  | _ => True

def moves : Lib.Machine Board Move where
  step := move
  allowed := Move.allowed

/-- A move is a call, or it changes the ARP table and nothing else. -/
theorem move_cases (b : Board) (m : Move) :
    (∃ a, m = .call a) ∨ ∃ net, ArpOnly b.net net ∧ move b m = { b with net := net } := by
  cases m with
  | call a => exact Or.inl ⟨a, rfl⟩
  | output src dest ttl tos p n alloc => exact Or.inr ⟨_, ip_output_if_arpOnly _ _ _ _ _ _ _ _, rfl⟩
  | query n ip alloc => exact Or.inr ⟨_, ⟨_, rfl, fun _ hS => hS.query _ _ _ _ _⟩, rfl⟩
  | find_addr ip => exact Or.inr ⟨_, ⟨_, rfl, fun _ hS => hS.find_addr ip⟩, rfl⟩
  | cleanup_netif n =>
    exact Or.inr ⟨_, ⟨_, rfl, fun _ hS => (hS.cleanup_netif n).mono (fun _ hm => hm.1)⟩, rfl⟩

theorem move_inv (b : Board) (m : Move) (h : Inv b) (ha : m.allowed b) : Inv (move b m) := by
  rcases move_cases b m with ⟨a, rfl⟩ | ⟨net, harp, heq⟩
  · exact step_inv b a h ha
  · obtain ⟨l, hl⟩ := h.net
    rw [heq]
    have hsame : SameInterfaces b { b with net := net } := harp.same rfl rfl
    exact ⟨h.registry, l, hl.transfer hsame (fun i hi => Or.inl ⟨hi, rfl⟩)⟩

theorem Moved.call {b : Board} (a : Action) (ha : Board.allowed b a) : moves.Reaches b (step b a) :=
  Machine.Reaches.step (M := moves) (a := Move.call a) ha

theorem Moved.arp {b : Board} (m : Move) (h : ∀ a, m ≠ .call a) : moves.Reaches b (move b m) := by
  refine Machine.Reaches.step (M := moves) (a := m) ?_
  cases m with
  | call a => exact absurd rfl (h a)
  | _ => trivial

end MultiIp.Board

namespace MultiIp.Firmware

open Board Lwip Lib

/-! ## Interrupts, ping and scan -/

theorem interrupt_moves (f : Firmware) (i : Interrupt) : moves.Reaches f.board (f.interrupt i).board := by
  cases i with
  | udp inp d alloc out => exact Moved.call (.udp_input inp d alloc out) (fun n hn => by cases hn)
  | arp fr => exact Moved.call (.arp_input fr) (fun n hn => by cases hn)
  | icmp k now => exact .refl _

theorem interrupts_moves (f : Firmware) (is : List Interrupt) : moves.Reaches f.board (f.interrupts is).board := by
  induction is generalizing f with
  | nil => exact .refl _
  | cons i is ih => exact (interrupt_moves f i).trans (ih (f.interrupt i))

theorem ping_send_moves (f : Firmware) (n : Option NetifPtr) (target : ip_addr_t) (env : PingEnv) :
    moves.Reaches f.board (f.ping_send n target env).1.board := by
  unfold Firmware.ping_send
  cases n with
  | none => exact .refl _
  | some n =>
    dsimp only
    split
    · exact .refl _
    · split
      · exact .refl _
      · exact Moved.arp (.output (f.board.net.netifs n).ip_addr target ICMP_TTL 0 (.icmp_echo (f.ping.s_seq + 1)) n
          env.out) (by simp)

theorem ping_wait_reply_moves (f : Firmware) (during late : List Interrupt) :
    moves.Reaches f.board (f.ping_wait_reply during late).1.board := by
  have hd := interrupts_moves f during
  unfold Firmware.ping_wait_reply
  dsimp only
  split
  · exact hd
  · exact hd.trans (interrupts_moves _ late)

theorem scan_round_moves (s : Firmware × List (ip_addr_t × eth_addr)) (n : NetifPtr)
    (env : Nat → Alloc × List Interrupt) (idx : Nat) : moves.Reaches s.1.board (scan_round n env s idx).1.board := by
  unfold Firmware.scan_round
  dsimp only
  split
  · exact .refl _
  · rename_i target _
    have hask := Moved.arp (b := s.1.board) (.query n target (env idx).1) (by simp)
    have hwait := interrupts_moves { s.1 with board := move s.1.board (.query n target (env idx).1) } (env idx).2
    refine (hask.trans hwait).trans ((Moved.arp (.find_addr target) (by simp)).trans ?_)
    split
    · exact Moved.arp (.cleanup_netif n) (by simp)
    · exact .refl _

theorem scan_network_moves (f : Firmware) (n : NetifPtr) (env : Nat → Alloc × List Interrupt) :
    moves.Reaches f.board (f.scan_network n env).1.board := by
  unfold Firmware.scan_network
  refine List.foldlRecOn
    (motive := fun s : Firmware × List (ip_addr_t × eth_addr) => moves.Reaches f.board s.1.board) _ _ (.refl _) ?_
  intro s hs idx _
  exact hs.trans (scan_round_moves s n env idx)

theorem cleanup_moves (l : List NetifPtr) (b : Board) (arp : Arp) : moves.Reaches
    { b with net := { b.net with arp := arp } }
    { b with net := { b.net with arp := l.foldl etharp_cleanup_netif arp } } := by
  induction l generalizing arp with
  | nil => exact .refl _
  | cons n l ih =>
    rw [List.foldl_cons]
    exact (Moved.arp (b := { b with net := { b.net with arp := arp } }) (.cleanup_netif n) (by simp)).trans (ih _)

theorem arpReset_moves (f : Firmware) : moves.Reaches f.board (arpReset f).board := by
  unfold arpReset
  exact cleanup_moves f.board.net.list f.board f.board.net.arp

/-! ## Commands -/

theorem netifAdd_moves (f : Firmware) (env : Env) (ip mask gw : ip_addr_t) :
    moves.Reaches f.board (netifAdd f env ip mask gw).1.board := by
  have hcall := Moved.call (b := f.board) (.net_if_add ip mask gw env.alloc) (fun n hn => by cases hn)
  unfold Firmware.netifAdd
  dsimp only
  split <;> exact hcall

theorem netifDel_moves (f : Firmware) (idx : Int) : moves.Reaches f.board (netifDel f idx).1.board := by
  unfold Firmware.netifDel
  split
  · exact .refl _
  · rename_i n hn
    have hcall := Moved.call (.net_if_remove n) (allowed_of_by_index hn rfl)
    dsimp only
    split <;> exact hcall

theorem netifSet_moves (f : Firmware) (idx : Int) (field : Text) (val : ip_addr_t) :
    moves.Reaches f.board (netifSet f idx field val).1.board := by
  unfold Firmware.netifSet
  split
  · exact .refl _
  · rename_i n hn
    split
    · have hset := Moved.call (.set_ipaddr n val) (allowed_of_by_index hn rfl)
      exact hset.trans (Moved.call (.netif_ip_changed (some n)) (fun m hm => by cases hm))
    · split
      · exact Moved.call (.set_netmask n val) (allowed_of_by_index hn rfl)
      · split
        · exact Moved.call (.set_gw n val) (allowed_of_by_index hn rfl)
        · exact .refl _

theorem sockOpen_moves (f : Firmware) (idx port : Int) : moves.Reaches f.board (sockOpen f idx port).1.board := by
  unfold Firmware.sockOpen
  split
  · exact .refl _
  · split
    · exact .refl _
    · rename_i n hn
      have hcall := Moved.call (.add_listener n (UInt16.ofNat port.toNat) (some 0)) (allowed_of_by_index hn rfl)
      dsimp only
      split <;> exact hcall

theorem sockClose_moves (f : Firmware) (idx nth : Int) : moves.Reaches f.board (sockClose f idx nth).1.board := by
  unfold Firmware.sockClose
  split
  · exact .refl _
  · split
    · exact .refl _
    · rename_i sock _
      exact Moved.call (.remove_listener sock.socket_id) (fun n hn => by cases hn)

theorem pingOnce_moves (f : Firmware) (env : Env) (idx : Int) (target : ip_addr_t) :
    moves.Reaches f.board (pingOnce f env idx target).1.board := by
  unfold Firmware.pingOnce
  split
  · exact .refl _
  · rename_i n _
    have hsend := ping_send_moves f (some n) target env.ping
    have hwait := ping_wait_reply_moves (f.ping_send (some n) target env.ping).1 env.during env.late
    dsimp only
    split
    · exact hsend
    · split
      · rename_i heq
        rw [heq] at hwait
        exact hsend.trans hwait
      · rename_i heq
        rw [heq] at hwait
        exact hsend.trans hwait

theorem udpSend_moves (f : Firmware) (env : Env) (idx nth : Int) (dst : ip_addr_t) (port : Int) (data : Text) :
    moves.Reaches f.board (udpSend f env idx nth dst port data).1.board := by
  unfold Firmware.udpSend
  split
  · exact .refl _
  · split
    · exact .refl _
    · split
      · exact .refl _
      · split
        · exact .refl _
        · rename_i sock _
          have hcall := Moved.call (b := f.board) (.data_send sock.socket_id sock.netif dst (UInt16.ofNat port.toNat)
            (some (data.map (fun c => UInt8.ofNat c.toNat))) (UInt16.ofNat data.length) env.alloc env.out)
            (fun n hn => by cases hn)
          dsimp only
          split <;> exact hcall

theorem exec_moves (f : Firmware) (env : Env) (c : Command) : moves.Reaches f.board (c.exec f env).1.board := by
  cases c with
  | netif_list => exact .refl _
  | netif_add ip mask gw => exact netifAdd_moves f env ip mask gw
  | netif_del idx => exact netifDel_moves f idx
  | netif_set idx field val => exact netifSet_moves f idx field val
  | sock_open idx port => exact sockOpen_moves f idx port
  | sock_close idx nth => exact sockClose_moves f idx nth
  | ping idx target => exact pingOnce_moves f env idx target
  | scan idx =>
    show moves.Reaches f.board (scanOn f env idx).1.board
    unfold scanOn
    split
    · exact .refl _
    · exact scan_network_moves _ _ _
  | arp_reset => exact arpReset_moves f
  | udp_send idx nth dst port data => exact udpSend_moves f env idx nth dst port data
  | bad_args name => exact .refl _
  | unknown => exact .refl _

theorem step_moves (f : Firmware) (e : Event) (ha : machine.allowed f e) :
    moves.Reaches f.board (machine.step f e).board := by
  cases e with
  | call a => exact Moved.call a ha
  | icmp k now => exact interrupt_moves f (.icmp k now)
  | line env l =>
    show moves.Reaches f.board (cmd_dispatch f env l).1.board
    rw [dispatch_eq]
    exact exec_moves f env _

theorem run_moves (c : Boot) {es : List Event} (h : machine.Legal (boot c) es) :
    moves.Reaches (Board.boot c) (machine.run (boot c) es).board :=
  Machine.Reaches.of_run (N := machine) Firmware.board step_moves h

/-- What holds at start-up and is kept by every move of a board with its invariants holds in every state of
the firmware. -/
theorem moves_invariant {P : Board → Prop} (c : Boot) (hboot : P (Board.boot c))
    (hmove : ∀ b m, Board.Inv b → P b → m.allowed b → P (move b m)) {es : List Event} (h : machine.Legal (boot c) es) :
    P (machine.run (boot c) es).board := by
  have hboth : Board.Inv (machine.run (boot c) es).board ∧ P (machine.run (boot c) es).board :=
    Machine.Reaches.invariant (P := fun b => Board.Inv b ∧ P b)
      (fun b m hb ha => ⟨move_inv b m hb.1 ha, hmove b m hb.1 hb.2 ha⟩) (run_moves c h) ⟨Board.boot_inv c, hboot⟩
  exact hboth.2

end MultiIp.Firmware
