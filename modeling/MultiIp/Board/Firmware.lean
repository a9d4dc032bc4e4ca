import MultiIp.Board.Execute

/-!
# The firmware as a machine

Its steps are command lines, the other calls of the board, and ICMP packets.
Every state it reaches keeps the invariants of the board.
-/

namespace MultiIp.Firmware

open Board Lwip Lib

inductive Event
  | call (a : Action)
  | icmp (k : IcmpPacket) (now : UInt32)
  | line (env : Env) (line : Text)

def step (f : Firmware) : Event → Firmware
  | .call a => f.setBoard (Board.step f.board a)
  | .icmp k now => f.interrupt (.icmp k now)
  | .line env l => (cmd_dispatch f env l).1

def allowed (f : Firmware) : Event → Prop
  | .call a => Board.allowed f.board a
  | _ => True

def machine : Lib.Machine Firmware Event where
  step := step
  allowed := allowed

instance (f : Firmware) (e : Event) : Decidable (machine.allowed f e) :=
  match e with
  | .call a => inferInstanceAs (Decidable (∀ n ∈ a.listed, n ∈ f.board.net.list))
  | .icmp _ _ => isTrue trivial
  | .line _ _ => isTrue trivial

def boot (c : Boot) : Firmware where
  board := Board.boot c
  ping := .init
  cmd_line := []

/-- The largest round trip time that `ping_recv` can compute. -/
def maxRtt : Nat := (2 ^ 32 - 1) / 9375

structure Inv (f : Firmware) : Prop where
  board : Board.Inv f.board
  rtt : f.ping.s_result.rtt_ms.toNat ≤ maxRtt

theorem boot_inv (c : Boot) : Inv (boot c) := ⟨Board.boot_inv c, Nat.zero_le _⟩

namespace Inv

variable {f : Firmware}

theorem setBoard (h : Inv f) {b : Board} (hb : Board.Inv b) : Inv (f.setBoard b) := ⟨hb, h.rtt⟩

theorem call (h : Inv f) (a : Action) (ha : Board.allowed f.board a) : Inv (f.setBoard (Board.step f.board a)) :=
  h.setBoard (step_inv f.board a h.board ha)

theorem arp (h : Inv f) {net : Net} (hn : ArpOnly f.board.net net) :
    Inv { f with board := { f.board with net := net } } := by
  obtain ⟨l, hl⟩ := h.board.net
  have hsame : SameInterfaces f.board { f.board with net := net } := hn.same rfl rfl
  exact ⟨⟨h.board.registry, l, hl.transfer hsame (fun i hi => Or.inl ⟨hi, rfl⟩)⟩, h.rtt⟩

end Inv

/-! ## Interrupts -/

theorem ping_recv_rtt {p : Ping} (h : p.s_result.rtt_ms.toNat ≤ maxRtt) (k : IcmpPacket) (now : UInt32) :
    ( ping_recv p k now).1.s_result.rtt_ms.toNat ≤ maxRtt := by
  unfold ping_recv
  split
  · exact h
  · split
    · exact h
    · split
      · have hlt := (now - p.s_send_tick).toNat_lt
        simp only [UInt32.toNat_div]
        exact Nat.div_le_div_right (by omega)
      · exact h

theorem Inv.interrupt {f : Firmware} (h : Inv f) (i : Interrupt) : Inv (f.interrupt i) := by
  cases i with
  | udp inp d alloc out => exact h.call (.udp_input inp d alloc out) (fun n hn => by cases hn)
  | arp fr => exact h.call (.arp_input fr) (fun n hn => by cases hn)
  | icmp k now => exact ⟨h.board, ping_recv_rtt h.rtt k now⟩

theorem Inv.interrupts {f : Firmware} (h : Inv f) (is : List Interrupt) : Inv (f.interrupts is) := by
  induction is generalizing f with
  | nil => exact h
  | cons i is ih => exact ih (h.interrupt i)

/-! ## Ping and scan -/

theorem Inv.ping_send {f : Firmware} (h : Inv f) (n : Option NetifPtr) (target : ip_addr_t) (env : PingEnv) :
    Inv (f.ping_send n target env).1 := by
  unfold Firmware.ping_send
  cases n with
  | none => exact h
  | some n =>
    dsimp only
    split
    · exact h
    · split
      · exact ⟨h.board, h.rtt⟩
      · have harp := h.arp (ip_output_if_arpOnly f.board.net (f.board.net.netifs n).ip_addr target ICMP_TTL 0
          (.icmp_echo (f.ping.s_seq + 1)) n env.out)
        exact ⟨harp.board, h.rtt⟩

theorem Inv.ping_wait_reply {f : Firmware} (h : Inv f) (during late : List Interrupt) :
    Inv (f.ping_wait_reply during late).1 := by
  have hd := h.interrupts during
  unfold Firmware.ping_wait_reply
  dsimp only
  split
  · exact ⟨hd.board, hd.rtt⟩
  · have hl := hd.interrupts late
    exact ⟨hl.board, hl.rtt⟩

theorem Inv.scan_round {s : Firmware × List (ip_addr_t × eth_addr)} (h : Inv s.1) (n : NetifPtr)
    (env : Nat → Alloc × List Interrupt) (idx : Nat) : Inv (scan_round n env s idx).1 := by
  unfold Firmware.scan_round
  dsimp only
  split
  · exact h
  · rename_i target _
    have harp : ArpOnly s.1.board.net { s.1.board.net with
        arp := (etharp_query s.1.board.net.arp n (s.1.board.net.netifs n) target none (env idx).1).1 } :=
      ⟨_, rfl, fun _ hS => hS.query _ _ _ _ _⟩
    have hq := h.arp harp
    have hi := hq.interrupts (env idx).2
    refine hi.arp ⟨_, rfl, fun S hS => ?_⟩
    have hf := Arp.StableIn.find_addr hS target
    split
    · exact (hf.cleanup_netif n).mono (fun _ hm => hm.1)
    · exact hf

theorem Inv.scan_network {f : Firmware} (h : Inv f) (n : NetifPtr) (env : Nat → Alloc × List Interrupt) :
    Inv (f.scan_network n env).1 := by
  unfold Firmware.scan_network
  generalize List.range 256 = rounds
  generalize hs : (f, ([] : List (ip_addr_t × eth_addr))) = s
  have hinv : Inv s.1 := by
    rw [← hs]
    exact h
  clear hs
  induction rounds generalizing s with
  | nil => exact hinv
  | cons idx rounds ih => exact ih _ (hinv.scan_round n env idx)

theorem Inv.arpReset {f : Firmware} (h : Inv f) : Inv (arpReset f) :=
  h.arp ⟨_, rfl, fun _ hS => hS.cleanup_netifs _⟩

/-! ## Commands -/

theorem by_index_mem {b : Board} {idx : Int} {n : NetifPtr} (h : cmd_netif_by_index b idx = some n) :
    n ∈ b.net.list := by
  unfold cmd_netif_by_index at h
  split at h
  · cases h
  · exact List.mem_of_getElem? h

theorem by_index_le {b : Board} {idx : Int} {n : NetifPtr} (h : cmd_netif_by_index b idx = some n) :
    1 ≤ idx ∧ idx ≤ netifCount := by
  unfold cmd_netif_by_index at h
  split at h
  · cases h
  · have hlt := (List.getElem?_eq_some_iff.mp h).1
    have hle : b.net.list.length ≤ netifCount := walk_length_le _ _ _
    omega

theorem allowed_of_by_index {b : Board} {idx : Int} {n : NetifPtr} (h : cmd_netif_by_index b idx = some n)
    {a : Action} (ha : a.listed = some n) : Board.allowed b a := by
  intro m hm
  rw [ha] at hm
  cases hm
  exact by_index_mem h

theorem Inv.netifAdd {f : Firmware} (h : Inv f) (env : Env) (ip mask gw : ip_addr_t) :
    Inv (netifAdd f env ip mask gw).1 := by
  have hcall := h.call (.net_if_add ip mask gw env.alloc) (fun n hn => by cases hn)
  unfold Firmware.netifAdd
  dsimp only
  split <;> exact hcall

theorem Inv.netifDel {f : Firmware} (h : Inv f) (idx : Int) : Inv (netifDel f idx).1 := by
  unfold Firmware.netifDel
  split
  · exact h
  · rename_i n hn
    have hcall := h.call (.net_if_remove n) (allowed_of_by_index hn rfl)
    dsimp only
    split <;> exact hcall

theorem Inv.netifSet {f : Firmware} (h : Inv f) (idx : Int) (field : Text) (val : ip_addr_t) :
    Inv (netifSet f idx field val).1 := by
  unfold Firmware.netifSet
  split
  · exact h
  · rename_i n hn
    split
    · have hset := h.call (.set_ipaddr n val) (allowed_of_by_index hn rfl)
      exact hset.call (.netif_ip_changed (some n)) (fun m hm => by cases hm)
    · split
      · exact h.call (.set_netmask n val) (allowed_of_by_index hn rfl)
      · split
        · exact h.call (.set_gw n val) (allowed_of_by_index hn rfl)
        · exact h

theorem Inv.sockOpen {f : Firmware} (h : Inv f) (idx port : Int) : Inv (sockOpen f idx port).1 := by
  unfold Firmware.sockOpen
  split
  · exact h
  · split
    · exact h
    · rename_i n hn
      have hcall := h.call (.add_listener n (UInt16.ofNat port.toNat) (some 0)) (allowed_of_by_index hn rfl)
      dsimp only
      split <;> exact hcall

theorem Inv.sockClose {f : Firmware} (h : Inv f) (idx nth : Int) : Inv (sockClose f idx nth).1 := by
  unfold Firmware.sockClose
  split
  · exact h
  · split
    · exact h
    · rename_i sock _
      exact h.call (.remove_listener sock.socket_id) (fun n hn => by cases hn)

theorem Inv.pingOnce {f : Firmware} (h : Inv f) (env : Env) (idx : Int) (target : ip_addr_t) :
    Inv (pingOnce f env idx target).1 := by
  unfold Firmware.pingOnce
  split
  · exact h
  · rename_i n _
    have hsend := h.ping_send (some n) target env.ping
    have hwait := hsend.ping_wait_reply env.during env.late
    dsimp only
    split
    · exact hsend
    · split
      · rename_i heq
        rwa [heq] at hwait
      · rename_i heq
        rwa [heq] at hwait

theorem Inv.udpSend {f : Firmware} (h : Inv f) (env : Env) (idx nth : Int) (dst : ip_addr_t) (port : Int)
    (data : Text) : Inv (udpSend f env idx nth dst port data).1 := by
  unfold Firmware.udpSend
  split
  · exact h
  · split
    · exact h
    · split
      · exact h
      · split
        · exact h
        · rename_i sock _
          have hcall := h.call (.data_send sock.socket_id sock.netif dst (UInt16.ofNat port.toNat)
            (some (data.map (fun c => UInt8.ofNat c.toNat))) (UInt16.ofNat data.length) env.alloc env.out)
            (fun n hn => by cases hn)
          dsimp only
          split <;> exact hcall

theorem Inv.exec {f : Firmware} (h : Inv f) (env : Env) (c : Command) : Inv (c.exec f env).1 := by
  cases c with
  | netif_list => exact h
  | netif_add ip mask gw => exact h.netifAdd env ip mask gw
  | netif_del idx => exact h.netifDel idx
  | netif_set idx field val => exact h.netifSet idx field val
  | sock_open idx port => exact h.sockOpen idx port
  | sock_close idx nth => exact h.sockClose idx nth
  | ping idx target => exact h.pingOnce env idx target
  | scan idx =>
    show Inv (scanOn f env idx).1
    unfold scanOn
    split
    · exact h
    · exact h.scan_network _ _
  | arp_reset => exact h.arpReset
  | udp_send idx nth dst port data => exact h.udpSend env idx nth dst port data
  | bad_args name => exact h
  | unknown => exact h

theorem Inv.dispatch {f : Firmware} (h : Inv f) (env : Env) (line : Text) : Inv (cmd_dispatch f env line).1 := by
  rw [dispatch_eq]
  exact h.exec env _

/-! ## Runs -/

theorem inv_step (f : Firmware) (e : Event) (h : Inv f) (ha : allowed f e) : Inv (step f e) := by
  cases e with
  | call a => exact h.call a ha
  | icmp k now => exact h.interrupt (.icmp k now)
  | line env l => exact h.dispatch env l

theorem inv_reachable (c : Boot) {es : List Event} (h : machine.Legal (boot c) es) : Inv (machine.run (boot c) es) :=
  Lib.Machine.run_invariant inv_step (boot_inv c) h

/-- Every allocation succeeds and nothing arrives. -/
def sampleEnv : Env where
  overflow := fun _ => 0
  alloc := true
  out := ⟨true, true⟩
  ping := { raw := true, alloc := true, tick := 0, out := ⟨true, true⟩ }
  during := []
  late := []
  scan := fun _ => (⟨true, true⟩, [])

end MultiIp.Firmware
