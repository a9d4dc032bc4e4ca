import MultiIp.Board.Moves
import MultiIp.Lwip.UdpPorts

/-!
# When a socket cannot be opened

The result of `udp_source_add_listener` as a function of the state, and what an
open leaves behind. A refused open leaves nothing, however often it is tried.
-/

namespace MultiIp.Board

open Lwip Lib

/-! ## The port counter along runs -/

section Range

variable {b : Board}

theorem sendto_if_range {u : Udp} (h : u.PortRange) (net : Net) (p : PcbPtr) (data : List UInt8) (ip : ip_addr_t)
    (port : UInt16) (n : NetifPtr) (alloc : Alloc) : (udp_sendto_if net u p data ip port n alloc).2.1.PortRange := by
  unfold udp_sendto_if
  have hbind := Udp.udp_bind_range h p (u.pcbs p).local_ip (u.pcbs p).local_port
  split
  · split <;> rename_i heq <;> rw [heq] at hbind <;> exact hbind
  · exact h

theorem remove_slot_range (h : b.udp.PortRange) (i : SlotIdx) : (remove_slot b i).udp.PortRange := by
  unfold remove_slot
  cases (b.s_listeners i).pcb <;> exact h

theorem remove_all_range (h : b.udp.PortRange) (n : Option NetifPtr) :
    (udp_source_remove_all_on_netif b n).udp.PortRange := by
  unfold udp_source_remove_all_on_netif
  split
  · exact h
  · refine List.foldlRecOn (motive := fun b' : Board => b'.udp.PortRange) _ _ h fun b' hb' i _ => ?_
    split
    · exact remove_slot_range hb' i
    · exact hb'

theorem open_slot_range (h : b.udp.PortRange) (i : SlotIdx) (n : NetifPtr) (port : UInt16) (cell : udp_sock_id_t) :
    (open_slot b i n port cell).1.udp.PortRange := by
  have hnew := Udp.udp_new_range h
  unfold open_slot
  split
  · rename_i heq
    rw [heq] at hnew
    exact hnew
  · rename_i u p heq
    rw [heq] at hnew
    have hbind := Udp.udp_bind_range hnew p (b.net.netifs n).ip_addr port
    split <;> rename_i heq' <;> rw [heq'] at hbind <;> exact hbind

theorem LocatorReceive_range (h : b.udp.PortRange) (p : PcbPtr) (d : pbuf) (addr : ip_addr_t) (port : UInt16)
    (alloc : Bool) (out : Alloc) : (LocatorReceive b p d addr port alloc out).udp.PortRange := by
  unfold LocatorReceive
  split
  · split
    · exact h
    · dsimp only
      unfold udp_sendto
      split
      · exact h
      · exact sendto_if_range h _ _ _ _ _ _ _
  · exact h

theorem rx_callback_udp (b : Board) (arg : Nat) (p : Option pbuf) (addr : ip_addr_t) (port : UInt16) :
    (udp_rx_callback b arg p addr port).udp = b.udp := by
  unfold udp_rx_callback
  dsimp only
  split
  · split
    · rfl
    · split
      · rfl
      · split <;> rfl
  · rfl

theorem udp_input_range (h : b.udp.PortRange) (inp : NetifPtr) (d : Datagram) (alloc : Bool) (out : Alloc) :
    (udp_input b inp d alloc out).udp.PortRange := by
  have hfind := Udp.udp_input_find_range h (b.net.netifs inp) d
  unfold udp_input
  split <;> rename_i heq <;> rw [heq] at hfind
  · exact hfind
  · dsimp only
    split
    · exact hfind
    · split
      · rw [rx_callback_udp]
        exact hfind
      · exact LocatorReceive_range hfind _ _ _ _ _ _
      · exact hfind

theorem step_range (h : b.udp.PortRange) (a : Action) : (step b a).udp.PortRange := by
  cases a with
  | add_listener n port cell =>
    show (udp_source_add_listener b (some n) port cell).1.udp.PortRange
    unfold udp_source_add_listener
    split
    · split
      · exact open_slot_range h _ _ _ _
      · exact h
    · exact h
  | remove_listener id =>
    show (udp_source_remove_listener b id).udp.PortRange
    unfold udp_source_remove_listener
    split
    · exact h
    · exact remove_slot_range h _
  | remove_all_on_netif n =>
    show (udp_source_remove_all_on_netif b n).udp.PortRange
    exact remove_all_range h n
  | netif_ip_changed n =>
    show (udp_source_netif_ip_changed b n).udp.PortRange
    unfold udp_source_netif_ip_changed
    split
    · exact h
    · refine List.foldlRecOn (motive := fun b' : Board => b'.udp.PortRange) _ _ h fun b' hb' i _ => ?_
      unfold rebind_slot
      split
      · split
        · exact Udp.udp_bind_range hb' _ _ _
        · exact hb'
      · exact hb'
  | data_send id n ip port data len alloc out =>
    show (udp_source_data_send b id n ip port data len alloc out).1.udp.PortRange
    unfold udp_source_data_send
    split
    · split
      · exact h
      · split
        · exact h
        · split
          · exact sendto_if_range h _ _ _ _ _ _ _
          · exact h
    · exact h
  | poll_rx id msg =>
    show (udp_source_poll_rx b id msg).1.udp.PortRange
    rcases poll_rx_spec b id msg with heq | ⟨i, -, -, heq⟩ <;> rw [heq] <;> exact h
  | rx_callback arg p addr port =>
    show (udp_rx_callback b arg p addr port).udp.PortRange
    rw [rx_callback_udp]
    exact h
  | udp_input inp d alloc out => exact udp_input_range h inp d alloc out
  | net_if_add ip mask gw alloc =>
    show (Board.net_if_add b ip mask gw alloc).1.udp.PortRange
    rw [(net_if_add_sockets b ip mask gw alloc).1]
    exact h
  | net_if_remove n =>
    show (Board.net_if_remove b (some n)).1.udp.PortRange
    unfold Board.net_if_remove
    dsimp only
    split
    · exact h
    · rw [(lwIPAliasRemove_sockets _ _).1]
      exact remove_all_range h (some n)
  | set_ipaddr n ip => exact h
  | set_netmask n mask => exact h
  | set_gw n gw => exact h
  | arp_input f => exact h

end Range

theorem boot_range (c : Boot) : (boot c).udp.PortRange := by
  have hinit : Udp.init.PortRange := Nat.le_refl _
  have hnew := Udp.udp_new_range hinit
  rw [boot_udp]
  unfold LocatorConfig
  dsimp only
  split <;> rename_i heq <;> rw [heq] at hnew
  · exact hnew
  · exact Udp.udp_connect_range (Udp.udp_bind_range (u := udp_recv _ _ .LocatorReceive 0) hnew _ IPADDR_ANY 23) _ _ _

theorem move_range (b : Board) (m : Move) (h : b.udp.PortRange) : (move b m).udp.PortRange := by
  rcases move_cases b m with ⟨a, rfl⟩ | ⟨net, -, heq⟩
  · exact step_range h a
  · rw [heq]
    exact h

/-! ## The result -/

/-- The control block stands in the way of a socket on the interface with the port. -/
def InTheWay (b : Board) (n : NetifPtr) (port : UInt16) (q : PcbPtr) : Prop :=
  (b.udp.pcbs q).local_port = port ∧
    ((b.udp.pcbs q).local_ip = (b.net.netifs n).ip_addr ∨ (b.udp.pcbs q).local_ip = 0 ∨
      (b.net.netifs n).ip_addr = 0)

instance (b : Board) (n : NetifPtr) (port : UInt16) (q : PcbPtr) : Decidable (InTheWay b n port q) :=
  inferInstanceAs (Decidable (_ ∧ (_ ∨ _ ∨ _)))

/-- What opening a socket must return. -/
def openResult (b : Board) (n : NetifPtr) (port : UInt16) : err_t :=
  if ∀ i, (b.s_listeners i).in_use = true then .ERR_MEM
  else if port ≠ 0 ∧ ∃ q ∈ b.udp.list, InTheWay b n port q then .ERR_USE
  else .ERR_OK

theorem bindClash_iff {b : Board} {n : NetifPtr} {port : UInt16} {p q : PcbPtr} (hne : q ≠ p) :
    bindClash b.udp p (b.net.netifs n).ip_addr port q = true ↔ InTheWay b n port q := by
  simp only [bindClash, InTheWay, ip_addr_isany, IPADDR_ANY, Bool.and_eq_true, Bool.or_eq_true,
    decide_eq_true_eq, beq_iff_eq]
  tauto

/-- The socket that a successful open leaves. -/
structure Opened (b : Board) (n : NetifPtr) (port : UInt16) (b' : Board) (id : Option udp_sock_id_t) (i : SlotIdx)
    (p : PcbPtr) : Prop where
  free : (b.s_listeners i).in_use = false
  lowest : ∀ j < i, (b.s_listeners j).in_use = true
  slots : b'.s_listeners = Function.update b.s_listeners i (openSlot (b.s_listeners i) p n)
  id : id = some (make_id b' i)
  fresh : p ∉ b.udp.list
  list : b'.udp.list = p :: b.udp.list
  others : ∀ q, q ≠ p → b'.udp.pcbs q = b.udp.pcbs q
  local_ip : (b'.udp.pcbs p).local_ip = (b.net.netifs n).ip_addr
  local_port : port ≠ 0 → (b'.udp.pcbs p).local_port = port
  any_port : port = 0 → 49152 ≤ (b'.udp.pcbs p).local_port.toNat ∧ (b'.udp.pcbs p).local_port.toNat ≤ 65535 ∧
    ∀ q ∈ b.udp.list, (b'.udp.pcbs q).local_port ≠ (b'.udp.pcbs p).local_port

/-- A refused open leaves the slots, the list with what is on it, and the pool as they were. -/
structure Untouched (b b' : Board) : Prop where
  slots : b'.s_listeners = b.s_listeners
  list : b'.udp.list = b.udp.list
  pcbs : ∀ q ∈ b.udp.list, b'.udp.pcbs q = b.udp.pcbs q
  taken : pcbsTaken b' = pcbsTaken b
  net : b'.net = b.net

structure OpenOutcome (b : Board) (n : NetifPtr) (port : UInt16) (r : Board × err_t × Option udp_sock_id_t) :
    Prop where
  result : r.2.1 = openResult b n port
  opened : r.2.1 = .ERR_OK → ∃ i p, Opened b n port r.1 r.2.2 i p
  refused : r.2.1 ≠ .ERR_OK → Untouched b r.1

/-! ## One open -/

theorem openResult_ok {b : Board} {n : NetifPtr} {port : UInt16} {i : SlotIdx} (hfree : (b.s_listeners i).in_use = false)
    (hclear : port ≠ 0 → ∀ q ∈ b.udp.list, ¬ InTheWay b n port q) : openResult b n port = .ERR_OK := by
  unfold openResult
  rw [if_neg (fun h => by simp [h i] at hfree), if_neg]
  rintro ⟨hport, q, hq, hway⟩
  exact hclear hport q hq hway

/-- Port 0 always finds a port. -/
theorem open_slot_any {b : Board} {l : List PcbPtr} (h : b.Registry l) (hr : b.udp.PortRange) (i : SlotIdx)
    (n : NetifPtr) (cell : udp_sock_id_t) : (open_slot b i n 0 cell).2.1 = .ERR_OK ∧
      ∀ p, ((open_slot b i n 0 cell).1.s_listeners i).pcb = some p →
        49152 ≤ ((open_slot b i n 0 cell).1.udp.pcbs p).local_port.toNat ∧
        ∀ q ∈ l, (b.udp.pcbs q).local_port ≠ ((open_slot b i n 0 cell).1.udp.pcbs p).local_port := by
  rcases udp_new_spec h.wf with ⟨hempty, -⟩ | ⟨p, u, hsome, hwf, hpcbs⟩
  · exact absurd hempty h.memp_ne_nil
  · have hsame : ∀ q ∈ l, u.pcbs q = b.udp.pcbs q := by
      intro q hq
      have hqp : q ≠ p := fun heq => hwf.not_mem_of_held (heq ▸ hq)
      rw [hpcbs, Function.update_of_ne hqp]
    have hnew := Udp.udp_new_range hr
    rw [hsome] at hnew
    obtain ⟨v, hbind, hlow, hfree⟩ := udp_bind_any hwf hnew (fun q hq => by rw [hsame q hq]; exact h.port q hq)
      (b.net.netifs n).ip_addr
    unfold open_slot
    rw [hsome]
    dsimp only
    rw [hbind]
    refine ⟨rfl, fun p' hp' => ?_⟩
    obtain rfl : p = p' := by simpa [modifySlot] using hp'
    refine ⟨by simpa [modifySlot, udp_recv, Udp.modify] using hlow, fun q hq => ?_⟩
    rw [← hsame q hq]
    simpa [modifySlot, udp_recv, Udp.modify] using hfree q hq

theorem pcbsTaken_eq {b b' : Board} {l : List PcbPtr} (h : b.Registry l) (h' : RegInv b'.udp b'.s_listeners l) :
    pcbsTaken b' = pcbsTaken b := by
  have hlen := h.wf.length_eq
  have hlen' := h'.wf.length_eq
  unfold pcbsTaken
  omega

theorem add_listener_outcome {b : Board} {l : List PcbPtr} (h : b.Registry l) (hr : b.udp.PortRange) (n : NetifPtr)
    (port : UInt16) (cell : udp_sock_id_t) :
    OpenOutcome b n port (udp_source_add_listener b (some n) port (some cell)) := by
  have hlist := h.wf.list_eq
  unfold udp_source_add_listener
  cases hfind : (List.finRange UDP_MAX_LISTENERS).find? (fun idx => !(b.s_listeners idx).in_use) with
  | none =>
    rw [← Fin.find?_eq_find?_finRange] at hfind
    have hfull : ∀ i, (b.s_listeners i).in_use = true := by
      simpa using Fin.eq_false_of_find?_eq_none hfind
    refine ⟨?_, by simp, fun _ => ⟨rfl, rfl, fun _ _ => rfl, rfl, rfl⟩⟩
    simp [openResult, hfull]
  | some i =>
    rw [← Fin.find?_eq_find?_finRange] at hfind
    have hfree : (b.s_listeners i).in_use = false := by simpa using Fin.eq_true_of_find?_eq_some hfind
    have hlow : ∀ j < i, (b.s_listeners j).in_use = true := by
      simpa using Fin.eq_false_of_find?_eq_some_of_lt hfind
    dsimp only
    have hany := open_slot_any h hr i n cell
    rcases open_slot_spec h hfree n port cell with
      ⟨u, p, port', heq, hreg, hother, hip, hport, hsame, hclear⟩ | ⟨u, heq, hreg, hpcbs, hclash⟩
    · have hpl : p ∉ l := (List.nodup_cons.mp hreg.wf.list_nodup).1
      have hne : ∀ q ∈ l, q ≠ p := by
        rintro q hq rfl
        exact hpl hq
      refine ⟨?_, fun _ => ⟨i, p, ?_⟩, ?_⟩
      · rw [heq, openResult_ok hfree]
        intro h0 q hq
        rw [hlist] at hq
        rw [← bindClash_iff (hne q hq), ← hsame h0, hclear q hq]
        simp
      · rw [heq]
        refine ⟨hfree, hlow, rfl, rfl, by rwa [hlist], ?_, hother, hip, fun h0 => hport.trans (hsame h0), ?_⟩
        · rw [hlist]
          exact hreg.wf.list_eq
        · rintro rfl
          rw [heq] at hany
          obtain ⟨hrange, hfresh⟩ := hany.2 p (by simp [openSlot])
          refine ⟨hrange, Nat.le_of_lt_succ (UInt16.toNat_lt _), fun q hq => ?_⟩
          rw [hlist] at hq
          dsimp only
          rw [hother q (hne q hq)]
          exact hfresh q hq
      · rw [heq]
        simp
    · have h0 : port ≠ 0 := by
        rintro rfl
        have hok := hany.1
        rw [heq] at hok
        cases hok
      refine ⟨?_, by rw [heq]; simp, fun _ => ?_⟩
      · obtain ⟨p, hpl, q, hq, hc⟩ := hclash h0
        have hqp : q ≠ p := by
          rintro rfl
          exact hpl hq
        rw [heq]
        unfold openResult
        rw [if_neg (fun hall => by simp [hall i] at hfree), if_pos]
        exact ⟨h0, q, by rwa [hlist], (bindClash_iff hqp).mp hc⟩
      · rw [heq]
        refine ⟨rfl, ?_, ?_, pcbsTaken_eq h hreg, rfl⟩
        · rw [hlist]
          exact hreg.wf.list_eq
        · rw [hlist]
          exact hpcbs

/-! ## Attempts that fail -/

/-- Opens one after the other, each of which is refused. -/
def refusals : Lib.Machine Board (NetifPtr × UInt16 × udp_sock_id_t) where
  step b o := (udp_source_add_listener b (some o.1) o.2.1 (some o.2.2)).1
  allowed b o := (udp_source_add_listener b (some o.1) o.2.1 (some o.2.2)).2.1 ≠ .ERR_OK

instance (b : Board) (o : NetifPtr × UInt16 × udp_sock_id_t) : Decidable (refusals.allowed b o) :=
  inferInstanceAs (Decidable (_ ≠ err_t.ERR_OK))

theorem Untouched.refl (b : Board) : Untouched b b := ⟨rfl, rfl, fun _ _ => rfl, rfl, rfl⟩

theorem Untouched.trans {a b c : Board} (h : Untouched a b) (h' : Untouched b c) : Untouched a c where
  slots := h'.slots.trans h.slots
  list := h'.list.trans h.list
  pcbs q hq := (h'.pcbs q (by rwa [h.list])).trans (h.pcbs q hq)
  taken := h'.taken.trans h.taken
  net := h'.net.trans h.net

/-- A state that a refused open leaves gives the same results as the one before it. -/
theorem Untouched.openResult {b b' : Board} (h : Untouched b b') (n : NetifPtr) (port : UInt16) :
    openResult b' n port = openResult b n port := by
  have hway : (∃ q ∈ b'.udp.list, InTheWay b' n port q) ↔ ∃ q ∈ b.udp.list, InTheWay b n port q := by
    rw [h.list]
    refine exists_congr fun q => and_congr_right fun hq => ?_
    rw [InTheWay, InTheWay, h.pcbs q hq, h.net]
  simp only [Board.openResult, h.slots, hway]

theorem refusals_untouched {b : Board} (h : ∃ l, b.Registry l) (hr : b.udp.PortRange)
    {os : List (NetifPtr × UInt16 × udp_sock_id_t)} (hl : refusals.Legal b os) :
    ((∃ l, (refusals.run b os).Registry l) ∧ (refusals.run b os).udp.PortRange) ∧ Untouched b (refusals.run b os) := by
  refine Lib.Machine.run_invariant
    (P := fun b' => ((∃ l, b'.Registry l) ∧ b'.udp.PortRange) ∧ Untouched b b') ?_ ⟨⟨h, hr⟩, .refl b⟩ hl
  rintro b' ⟨n, port, cell⟩ ⟨⟨⟨l, hreg⟩, hrange⟩, hb'⟩ hfail
  have hout := add_listener_outcome hreg hrange n port cell
  exact ⟨⟨add_listener_registry hreg _ _ _, step_range hrange (.add_listener n port (some cell))⟩,
    hb'.trans (hout.refused hfail)⟩

end MultiIp.Board

namespace MultiIp.Firmware

open Board Lwip Lib

theorem portRange_reachable (c : Boot) {es : List Event} (h : machine.Legal (boot c) es) :
    (machine.run (boot c) es).board.udp.PortRange :=
  moves_invariant (P := fun b => b.udp.PortRange) c (boot_range c) (fun b m _ hb _ => move_range b m hb) h

/-- In every reachable state an open fails exactly when it must and then leaves no trace, and after any number
of refused opens every open has the result that it would have had before them. -/
theorem open_outcome (c : Boot) (es : List Event) (h : machine.Legal (boot c) es) (n : NetifPtr) (port : UInt16)
    (cell : udp_sock_id_t) :
    let b := (machine.run (boot c) es).board
    OpenOutcome b n port (udp_source_add_listener b (some n) port (some cell)) ∧
      ∀ os, refusals.Legal b os →
        (udp_source_add_listener (refusals.run b os) (some n) port (some cell)).2.1 =
          (udp_source_add_listener b (some n) port (some cell)).2.1 := by
  obtain ⟨l, hreg⟩ := (inv_reachable c h).board.registry
  have hrange := portRange_reachable c h
  have hout := add_listener_outcome hreg hrange n port cell
  refine ⟨hout, fun os hl => ?_⟩
  obtain ⟨⟨⟨l', hreg'⟩, hrange'⟩, hsame⟩ := refusals_untouched ⟨l, hreg⟩ hrange hl
  rw [(add_listener_outcome hreg' hrange' n port cell).result, hsame.openResult, hout.result]

/-- A socket on port 5000, after which a second one is refused. -/
theorem open_outcome_sample :
    let es := [Event.call (.add_listener .phys 5000 (some 0))]
    let b := (machine.run (boot (.main ethzero true)) es).board
    machine.Legal (boot (.main ethzero true)) es ∧ refusals.Legal b [(.phys, 5000, 0)] ∧
      OpenOutcome b .phys 5001 (udp_source_add_listener b (some .phys) 5001 (some 0)) ∧
      (udp_source_add_listener (refusals.run b [(.phys, 5000, 0)]) (some .phys) 5001 (some 0)).2.1 =
        (udp_source_add_listener b (some .phys) 5001 (some 0)).2.1 := by
  have hlegal : machine.Legal (boot (.main ethzero true)) [Event.call (.add_listener .phys 5000 (some 0))] := by decide
  obtain ⟨hout, hagain⟩ := open_outcome (.main ethzero true) _ hlegal .phys 5001 0
  have hrefused : refusals.Legal (machine.run (boot (.main ethzero true))
      [Event.call (.add_listener .phys 5000 (some 0))]).board [(.phys, 5000, 0)] := by decide
  exact ⟨hlegal, hrefused, hout, hagain _ hrefused⟩

end MultiIp.Firmware
