import MultiIp.Board.Bindings

/-!
# No two sockets compete for a datagram

Every binding is checked against all others when it is made, so in every
reachable state two control blocks with one port have different addresses, and
neither is bound to all addresses. A datagram changes at most one slot.
-/

namespace MultiIp.Board

open Lwip Lib

/-! ## What keeps the bindings apart -/

section

variable {b : Board} {l : List PcbPtr}

theorem NoCompete.add_listener (hreg : b.Registry l) (hc : NoCompete b.udp) (n : Option NetifPtr) (port : UInt16)
    (cell : Option udp_sock_id_t) : NoCompete (udp_source_add_listener b n port cell).1.udp := by
  unfold udp_source_add_listener
  split
  · split
    · rename_i n cell _ idx hfind
      have hfree : (b.s_listeners idx).in_use = false := by simpa using List.find?_some hfind
      have hlist : b.udp.list = l := hreg.wf.list_eq
      rcases open_slot_spec hreg hfree n port cell with
        ⟨u, p, port', heq, hr, hother, hip, hp', -, hclear⟩ | ⟨u, heq, hr, hsame, -⟩
      · rw [heq]
        refine hc.bind (p := p) (fun q hq => ?_) hother (fun q hq => ?_)
        · rw [hlist]
          exact List.mem_cons.mp (hr.wf.list_eq ▸ hq)
        · rw [hip, hp']
          exact hclear q (by rwa [hlist] at hq)
      · -- The bind was refused, and the list is as before.
        rw [heq]
        have hulist : u.list = l := hr.wf.list_eq
        intro q hq r hr'
        rw [hulist] at hq hr'
        rw [bindClash_eq_false, hsame q hq, hsame r hr', ← bindClash_eq_false]
        exact hc q (by rwa [hlist]) r (by rwa [hlist])
    · exact hc
  · exact hc

theorem NoCompete.rebind (hreg : b.Registry l) (hc : NoCompete b.udp) (n : NetifPtr) (i : SlotIdx) :
    NoCompete (rebind_slot n b i).udp := by
  rcases rebind_slot_eq hreg n i with ⟨heq, -⟩ | ⟨p, -, -, hfree, heq⟩
  · rw [heq]
    exact hc
  · rw [heq]
    have hlist : (moveTo b.udp p (b.net.netifs n).ip_addr).list = b.udp.list := by
      rw [hreg.wf.list_eq]
      exact (hreg.wf.modify p _).list_eq
    refine hc.bind (p := p) (fun q hq => Or.inr (hlist ▸ hq)) (fun q hq => moveTo_of_ne _ hq _) (fun q hq => ?_)
    show bindClash b.udp p (((moveTo b.udp p _).pcbs p)).local_ip ((moveTo b.udp p _).pcbs p).local_port q = false
    rw [moveTo_self]
    exact blocked_eq_false.mp hfree q hq

/-- The loop of `udp_source_netif_ip_changed`: a socket whose new address is taken stays where it is. -/
theorem NoCompete.ip_changed (hreg : b.Registry l) (hc : NoCompete b.udp) (n : Option NetifPtr) :
    NoCompete (udp_source_netif_ip_changed b n).udp := by
  unfold udp_source_netif_ip_changed
  cases n with
  | none => exact hc
  | some n =>
    dsimp only
    generalize List.finRange UDP_MAX_LISTENERS = slots
    induction slots generalizing b with
    | nil => exact hc
    | cons i slots ih => exact ih (rebind_slot_registry hreg n i) (hc.rebind hreg n i)

end

/-- After start-up the locator's control block is the only one. -/
theorem boot_noCompete (c : Boot) : NoCompete (boot c).udp := by
  obtain ⟨l, hl⟩ := (boot_inv c).registry
  obtain ⟨q, -, -, hrest⟩ := hl.locator
  have honly : ∀ p ∈ (boot c).udp.list, p = q := by
    intro p hp
    by_contra hne
    have hpl : p ∈ l := by
      rw [← hl.wf.list_eq]
      exact hp
    obtain ⟨i, hi⟩ := hrest p hpl hne
    rw [boot_slots] at hi
    cases hi
  intro p hp r hr
  simp [bindClash, honly p hp, honly r hr]

/-- What an action can do to the control blocks: open a socket, move the sockets of an interface, close some, or leave
them as they are. -/
theorem step_bindings {b : Board} (hinv : Inv b) {a : Action} (ha : allowed b a) :
    Steady b (step b a) ∨ Closes b (step b a) ∨ (step b a).udp = b.udp ∨
    (∃ n port cell, step b a = (udp_source_add_listener b n port cell).1) ∨
    ∃ n, step b a = udp_source_netif_ip_changed b n := by
  obtain ⟨l, hl⟩ := hinv.registry
  cases a with
  | add_listener n port cell => exact Or.inr (Or.inr (Or.inr (Or.inl ⟨some n, port, cell, rfl⟩)))
  | remove_listener id => exact Or.inr (Or.inl (remove_listener_closes hl id))
  | remove_all_on_netif n =>
    cases n with
    | none => exact Or.inl (.refl b)
    | some n => exact Or.inr (Or.inl (remove_all_closes hl n))
  | netif_ip_changed n => exact Or.inr (Or.inr (Or.inr (Or.inr ⟨n, rfl⟩)))
  | data_send id n ip port data len alloc out => exact Or.inl (data_send_steady hl id n ip port data len alloc out)
  | poll_rx id msg =>
    refine Or.inr (Or.inr (Or.inl ?_))
    show (udp_source_poll_rx b id msg).1.udp = b.udp
    unfold udp_source_poll_rx
    split
    · split <;> rfl
    · rfl
  | rx_callback arg p addr port =>
    cases p with
    | none => exact Or.inr (Or.inr (Or.inl (congrArg Board.udp (rx_callback_none b arg addr port))))
    | some p => exact Or.inl (rx_callback_steady b arg p addr port)
  | udp_input inp d alloc out => exact Or.inl (udp_input_steady hl inp d alloc out)
  | net_if_add ip mask gw alloc => exact Or.inr (Or.inr (Or.inl (net_if_add_sockets b ip mask gw alloc).1))
  | net_if_remove n => exact Or.inr (Or.inl (net_if_remove_closes hinv (ha n rfl)))
  | set_ipaddr n ip => exact Or.inr (Or.inr (Or.inl rfl))
  | set_netmask n mask => exact Or.inr (Or.inr (Or.inl rfl))
  | set_gw n gw => exact Or.inr (Or.inr (Or.inl rfl))
  | arp_input f => exact Or.inl (arp_input_steady b f)

theorem step_noCompete (b : Board) (a : Action) (h : Inv b ∧ NoCompete b.udp) (ha : allowed b a) :
    Inv (step b a) ∧ NoCompete (step b a).udp := by
  obtain ⟨hinv, hc⟩ := h
  refine ⟨step_inv b a hinv ha, ?_⟩
  obtain ⟨l, hl⟩ := hinv.registry
  rcases step_bindings hinv ha with hs | hcl | heq | ⟨n, port, cell, heq⟩ | ⟨n, heq⟩
  · exact hc.of_steady hs
  · exact hc.of_closes hcl
  · rw [heq]
    exact hc
  · rw [heq]
    exact hc.add_listener hl n port cell
  · rw [heq]
    exact hc.ip_changed hl n

/-! ## Who gets a datagram -/

/-- Two control blocks with one port have different addresses, and neither is 0.0.0.0. -/
def BindingsApart (u : Udp) : Prop :=
  ∀ p ∈ u.list, ∀ q ∈ u.list, p ≠ q → (u.pcbs p).local_port = (u.pcbs q).local_port →
    (u.pcbs p).local_ip ≠ (u.pcbs q).local_ip ∧ (u.pcbs p).local_ip ≠ IPADDR_ANY ∧ (u.pcbs q).local_ip ≠ IPADDR_ANY

theorem NoCompete.bindingsApart {u : Udp} (h : NoCompete u) : BindingsApart u := by
  intro p hp q hq hne hport
  obtain ⟨h1, h2, h3⟩ := bindClash_eq_false.mp (h p hp q hq) hne hport.symm
  exact ⟨h3.symm, h2, h1⟩

theorem localMatch_unicast {inp : netif} {d : Datagram} {c : udp_pcb} (hb : ip4_addr_isbroadcast d.dest_ip inp = false)
    (h : localMatch inp d c = true) :
    c.local_port = d.dest ∧ (c.local_ip = d.dest_ip ∨ c.local_ip = IPADDR_ANY) := by
  simp only [localMatch, hb, Bool.not_false, Bool.true_and, Bool.false_and, Bool.or_false, Bool.and_eq_true,
    Bool.or_eq_true, beq_iff_eq, ip_addr_isany] at h
  exact ⟨h.1, h.2.symm⟩

/-- A slot that a datagram changes belongs to the control block that was found for it. -/
theorem changed_slot {b : Board} {l : List PcbPtr} (hreg : b.Registry l) {inp : NetifPtr} {d : Datagram} {alloc : Bool}
    {out : Alloc} {i : SlotIdx} (hi : (udp_input b inp d alloc out).s_listeners i ≠ b.s_listeners i) :
    ∃ p, (udp_input_find b.udp (b.net.netifs inp) d).2 = some p ∧ (b.s_listeners i).pcb = some p ∧ p ∈ l ∧
      localMatch (b.net.netifs inp) d (b.udp.pcbs p) = true := by
  obtain ⟨u, r, l', hfind, hwf, hperm, hpcbs, hr⟩ := udp_input_find_spec hreg.wf (b.net.netifs inp) d
  unfold udp_input at hi
  rw [hfind] at hi ⊢
  cases r with
  | none => exact absurd rfl hi
  | some p =>
    obtain ⟨hp, hmatch⟩ := hr p rfl
    refine ⟨p, rfl, ?_, hp, hmatch⟩
    dsimp only at hi
    split at hi
    · exact absurd rfl hi
    · split at hi
      · rename_i hrecv
        rw [rx_callback_slots] at hi
        split at hi
        · -- The callback's argument is the slot that owns the control block.
          rename_i hslot
          simp only [callbackSlot, Bool.and_eq_true, beq_iff_eq, hpcbs] at hslot
          obtain ⟨q, hq, hqr, hrest⟩ := hreg.locator
          have hne : p ≠ q := by
            rintro rfl
            rw [hpcbs, hqr] at hrecv
            cases hrecv
          obtain ⟨j, hj⟩ := hrest p hp hne
          have harg := (hreg.owned j p hj).2.2
          have hij : j = i := by
            have hj16 : (j : Nat) < UDP_MAX_LISTENERS := j.isLt
            have h16 : UDP_MAX_LISTENERS = 16 := rfl
            refine Fin.ext ?_
            rw [← hslot.1, harg]
            omega
          rw [← hij]
          exact hj
        · exact absurd rfl hi
      · rw [LocatorReceive_slots] at hi
        exact absurd rfl hi
      · exact absurd rfl hi

/-- In every reachable state no two control blocks compete, and a datagram to one host changes at most
one slot, that of a socket bound to its port and to its address or to 0.0.0.0. -/
theorem sockets_never_compete (c : Boot) (as : List Action) (h : machine.Legal (boot c) as) :
    BindingsApart (machine.run (boot c) as).udp ∧
    ∀ (inp : NetifPtr) (d : Datagram) (alloc : Bool) (out : Alloc),
      ip4_addr_isbroadcast d.dest_ip ((machine.run (boot c) as).net.netifs inp) = false →
      ip_addr_ismulticast d.dest_ip = false →
      (∀ i j, (udp_input (machine.run (boot c) as) inp d alloc out).s_listeners i ≠ (machine.run (boot c) as).s_listeners i →
        (udp_input (machine.run (boot c) as) inp d alloc out).s_listeners j ≠ (machine.run (boot c) as).s_listeners j →
        i = j) ∧
      ∀ i, (udp_input (machine.run (boot c) as) inp d alloc out).s_listeners i ≠ (machine.run (boot c) as).s_listeners i →
        ∃ p, ((machine.run (boot c) as).s_listeners i).pcb = some p ∧ p ∈ (machine.run (boot c) as).udp.list ∧
          ((machine.run (boot c) as).udp.pcbs p).local_port = d.dest ∧
          (((machine.run (boot c) as).udp.pcbs p).local_ip = d.dest_ip ∨
            ((machine.run (boot c) as).udp.pcbs p).local_ip = IPADDR_ANY) := by
  obtain ⟨hinv, hc⟩ := Machine.run_invariant step_noCompete ⟨boot_inv c, boot_noCompete c⟩ h
  generalize machine.run (boot c) as = b at hinv hc
  obtain ⟨l, hl⟩ := hinv.registry
  refine ⟨hc.bindingsApart, fun inp d alloc out hb _ => ⟨fun i j hi hj => ?_, fun i hi => ?_⟩⟩
  · obtain ⟨p, hp, hpi, -⟩ := changed_slot hl hi
    obtain ⟨q, hq, hqj, -⟩ := changed_slot hl hj
    obtain rfl : p = q := Option.some.inj (hp.symm.trans hq)
    exact hl.pcb_inj hpi hqj
  · obtain ⟨p, -, hpi, hpl, hmatch⟩ := changed_slot hl hi
    exact ⟨p, hpi, by rwa [hl.wf.list_eq], localMatch_unicast hb hmatch⟩

/-- Two automatic ports, and an interface that takes the address of another. -/
def competingRun : List Action :=
  [.net_if_add 0x0a000014 0xffffff00 0x0a000001 true, .add_listener .phys 0 (some 0),
    .add_listener (.alias_list 0) 5000 (some 0), .add_listener .phys 5000 (some 0), .set_ipaddr .phys 0x0a000014,
    .netif_ip_changed (some .phys)]

theorem sockets_never_compete_sample :
    machine.Legal (boot (.main ethzero true)) competingRun ∧
    (machine.run (boot (.main ethzero true)) competingRun).udp.list.length = 4 ∧
    BindingsApart (machine.run (boot (.main ethzero true)) competingRun).udp := by
  have hlegal : machine.Legal (boot (.main ethzero true)) competingRun := by decide +kernel
  exact ⟨hlegal, by decide +kernel, (sockets_never_compete _ _ hlegal).1⟩

end MultiIp.Board
