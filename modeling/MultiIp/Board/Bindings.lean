import MultiIp.Board.Firmware

/-!
# Which addresses the sockets are bound to

What each kind of call does to the bindings: opening adds one, closing removes
some, a new address of an interface moves those of its sockets that are not in
the way of another control block, and everything else leaves them alone.
-/

namespace MultiIp.Board

open Lwip Lib

theorem bindClash_eq_false {u : Udp} {p q : PcbPtr} {ip : ip_addr_t} {port : UInt16} :
    bindClash u p ip port q = false ↔
      (p ≠ q → (u.pcbs q).local_port = port →
        (u.pcbs q).local_ip ≠ 0 ∧ ip ≠ 0 ∧ (u.pcbs q).local_ip ≠ ip) := by
  simp only [bindClash, ip_addr_isany, IPADDR_ANY, Bool.and_eq_false_iff, Bool.or_eq_false_iff,
    decide_eq_false_iff_not, beq_eq_false_iff_ne, ne_eq, not_not]
  tauto

/-- No two control blocks of the list stand in each other's way. -/
def NoCompete (u : Udp) : Prop :=
  ∀ p ∈ u.list, ∀ q ∈ u.list, bindClash u p (u.pcbs p).local_ip (u.pcbs p).local_port q = false

/-- Two control blocks with one port have two addresses, and neither is 0.0.0.0. -/
theorem NoCompete.apart {u : Udp} (h : NoCompete u) {p q : PcbPtr} (hp : p ∈ u.list) (hq : q ∈ u.list) (hne : p ≠ q)
    (hport : (u.pcbs p).local_port = (u.pcbs q).local_port) : (u.pcbs p).local_ip ≠ (u.pcbs q).local_ip :=
  Ne.symm (bindClash_eq_false.mp (h p hp q hq) hne hport.symm).2.2

theorem bindClash_comm {u : Udp} {p q : PcbPtr} {ip : ip_addr_t} {port : UInt16} (hip : (u.pcbs p).local_ip = ip)
    (hport : (u.pcbs p).local_port = port) (h : bindClash u p ip port q = false) :
    bindClash u q (u.pcbs q).local_ip (u.pcbs q).local_port p = false := by
  rw [bindClash_eq_false] at h ⊢
  intro hne heq
  obtain ⟨h1, h2, h3⟩ := h hne.symm (heq.symm.trans hport)
  rw [hip]
  exact ⟨h2, h1, h3.symm⟩

theorem NoCompete.bind {u u' : Udp} (h : NoCompete u) {p : PcbPtr} (hlist : ∀ q ∈ u'.list, q = p ∨ q ∈ u.list)
    (hother : ∀ q, q ≠ p → u'.pcbs q = u.pcbs q)
    (hclear : ∀ q ∈ u.list, bindClash u p (u'.pcbs p).local_ip (u'.pcbs p).local_port q = false) : NoCompete u' := by
  have hnew : ∀ q ∈ u'.list, bindClash u' p (u'.pcbs p).local_ip (u'.pcbs p).local_port q = false := by
    intro q hq
    by_cases hqp : q = p
    · simp [bindClash, hqp]
    · have hc := hclear q ((hlist q hq).resolve_left hqp)
      rw [bindClash_eq_false] at hc ⊢
      rwa [hother q hqp]
  intro q hq r hr
  by_cases hqp : q = p
  · rw [hqp]
    exact hnew r hr
  · by_cases hrp : r = p
    · rw [hrp]
      exact bindClash_comm rfl rfl (hnew q hq)
    · have hc := h q ((hlist q hq).resolve_left hqp) r ((hlist r hr).resolve_left hrp)
      rw [bindClash_eq_false] at hc ⊢
      rwa [hother q hqp, hother r hrp]

/-! ## Calls that leave the bindings alone -/

/-- The interfaces and the sockets of `b'` are those of `b`; mailboxes and the ARP table may differ. -/
structure Steady (b b' : Board) : Prop where
  list : b'.net.list = b.net.list
  netifs : b'.net.netifs = b.net.netifs
  pcbs : b'.udp.pcbs = b.udp.pcbs
  perm : b'.udp.list.Perm b.udp.list
  slots : ∀ i, (b'.s_listeners i).in_use = (b.s_listeners i).in_use ∧
    (b'.s_listeners i).pcb = (b.s_listeners i).pcb ∧ (b'.s_listeners i).netif = (b.s_listeners i).netif

theorem Steady.refl (b : Board) : Steady b b := ⟨rfl, rfl, rfl, .refl _, fun _ => ⟨rfl, rfl, rfl⟩⟩

theorem Steady.trans {a b c : Board} (h : Steady a b) (h' : Steady b c) : Steady a c where
  list := h'.list.trans h.list
  netifs := h'.netifs.trans h.netifs
  pcbs := h'.pcbs.trans h.pcbs
  perm := h'.perm.trans h.perm
  slots i := by
    obtain ⟨hu, hp, hn⟩ := h.slots i
    obtain ⟨hu', hp', hn'⟩ := h'.slots i
    exact ⟨hu'.trans hu, hp'.trans hp, hn'.trans hn⟩

theorem Steady.of_arpOnly (b : Board) {net : Net} (h : ArpOnly b.net net) : Steady b { b with net := net } := by
  obtain ⟨a, rfl, -⟩ := h
  exact ⟨rfl, rfl, rfl, .refl _, fun _ => ⟨rfl, rfl, rfl⟩⟩

theorem NoCompete.of_steady {b b' : Board} (h : NoCompete b.udp) (hs : Steady b b') : NoCompete b'.udp := by
  intro p hp q hq
  simp only [bindClash, hs.pcbs]
  exact h p (hs.perm.mem_iff.mp hp) q (hs.perm.mem_iff.mp hq)

theorem data_send_steady {b : Board} {l : List PcbPtr} (h : b.Registry l) (id : udp_sock_id_t)
    (n : Option NetifPtr) (ip : ip_addr_t) (port : UInt16) (data : Option (List UInt8)) (len : UInt16)
    (alloc : Bool) (out : Alloc) : Steady b (udp_source_data_send b id n ip port data len alloc out).1 := by
  unfold udp_source_data_send
  split
  · split
    · exact .refl b
    · split
      · exact .refl b
      · split
        · rename_i p hp
          have hport := h.port p (h.owned _ p hp).1
          dsimp only
          rw [udp_sendto_if_udp hport]
          exact .of_arpOnly b (udp_sendto_if_arpOnly _ _ _ _ _ _ _ _)
        · exact .refl b
  · exact .refl b

theorem receiveSlot_steady (s : udp_listener_t) (d : Delivery) :
    (receiveSlot s d).in_use = s.in_use ∧ (receiveSlot s d).pcb = s.pcb ∧ (receiveSlot s d).netif = s.netif := by
  unfold receiveSlot
  split <;> exact ⟨rfl, rfl, rfl⟩

theorem rx_callback_steady (b : Board) (arg : Nat) (p : pbuf) (addr : ip_addr_t) (port : UInt16) :
    Steady b (udp_rx_callback b arg (some p) addr port) := by
  have hrest : (udp_rx_callback b arg (some p) addr port).net = b.net ∧
      (udp_rx_callback b arg (some p) addr port).udp = b.udp := by
    unfold udp_rx_callback
    dsimp only
    split
    · split
      · exact ⟨rfl, rfl⟩
      · split <;> exact ⟨rfl, rfl⟩
    · exact ⟨rfl, rfl⟩
  refine ⟨by rw [hrest.1], by rw [hrest.1], by rw [hrest.2], by rw [hrest.2], fun i => ?_⟩
  rw [rx_callback_slots]
  split
  · exact receiveSlot_steady _ _
  · exact ⟨rfl, rfl, rfl⟩

/-- The locator's control block is bound, so answering does not bind it again. -/
theorem LocatorReceive_steady {b : Board} {l : List PcbPtr} (h : b.Registry l) {p : PcbPtr} (hp : p ∈ l) (d : pbuf)
    (addr : ip_addr_t) (port : UInt16) (alloc : Bool) (out : Alloc) :
    Steady b (LocatorReceive b p d addr port alloc out) := by
  unfold LocatorReceive
  split
  · split
    · exact .refl b
    · dsimp only
      unfold udp_sendto
      split
      · exact ⟨rfl, rfl, rfl, .refl _, fun _ => ⟨rfl, rfl, rfl⟩⟩
      · rename_i n _
        rw [udp_sendto_if_udp (h.port p hp)]
        have harp := Steady.of_arpOnly b (udp_sendto_if_arpOnly b.net b.udp p
          (b.locatorData.take 83 ++ [locatorChecksum b.locatorData]) addr port n out)
        exact ⟨harp.list, harp.netifs, harp.pcbs, harp.perm, harp.slots⟩
  · exact .refl b

theorem udp_input_steady {b : Board} {l : List PcbPtr} (h : b.Registry l) (inp : NetifPtr) (d : Datagram)
    (alloc : Bool) (out : Alloc) : Steady b (udp_input b inp d alloc out) := by
  obtain ⟨u, r, l', hfind, hwf, hperm, hpcbs, hr⟩ := udp_input_find_spec h.wf (b.net.netifs inp) d
  have hmoved : Steady b { b with udp := u } := by
    refine ⟨rfl, rfl, hpcbs, ?_, fun _ => ⟨rfl, rfl, rfl⟩⟩
    rw [hwf.list_eq, h.wf.list_eq]
    exact hperm
  have hreg : ({ b with udp := u } : Board).Registry l' := RegInv.reorder h hwf hperm hpcbs
  unfold udp_input
  rw [hfind]
  cases r with
  | none => exact hmoved
  | some p =>
    dsimp only
    split
    · exact hmoved
    · split
      · exact hmoved.trans (rx_callback_steady _ _ _ _ _)
      · exact hmoved.trans (LocatorReceive_steady hreg (hperm.mem_iff.mpr (hr p rfl).1) _ _ _ _ _)
      · exact hmoved

theorem arp_input_steady (b : Board) (f : ArpFrame) : Steady b { b with net := ethernet_input_arp b.net f } := by
  unfold ethernet_input_arp
  dsimp only
  split <;> exact ⟨rfl, rfl, rfl, .refl _, fun _ => ⟨rfl, rfl, rfl⟩⟩

/-! ## Closing -/

/-- `b'` differs from `b` in that some sockets are closed and some interfaces are gone. -/
structure Closes (b b' : Board) : Prop where
  ip : ∀ n, (b'.net.netifs n).ip_addr = (b.net.netifs n).ip_addr
  pcbs : b'.udp.pcbs = b.udp.pcbs
  list : ∀ p ∈ b'.udp.list, p ∈ b.udp.list
  slots : ∀ i, (b'.s_listeners i).in_use = true → b'.s_listeners i = b.s_listeners i

theorem Closes.refl (b : Board) : Closes b b := ⟨fun _ => rfl, rfl, fun _ h => h, fun _ _ => rfl⟩

theorem Closes.trans {a b c : Board} (h : Closes a b) (h' : Closes b c) : Closes a c where
  ip n := (h'.ip n).trans (h.ip n)
  pcbs := h'.pcbs.trans h.pcbs
  list p hp := h.list p (h'.list p hp)
  slots i hi := by
    have heq := h'.slots i hi
    rw [heq] at hi ⊢
    exact h.slots i hi

theorem NoCompete.of_closes {b b' : Board} (h : NoCompete b.udp) (hc : Closes b b') : NoCompete b'.udp := by
  intro p hp q hq
  simp only [bindClash, hc.pcbs]
  exact h p (hc.list p hp) q (hc.list q hq)

theorem remove_slot_closes {b : Board} {l : List PcbPtr} (h : b.Registry l) (idx : SlotIdx) :
    Closes b (remove_slot b idx) := by
  refine ⟨fun n => by rw [remove_slot_net], ?_, fun p hp => ?_, fun i hi => ?_⟩
  · unfold remove_slot
    cases (b.s_listeners idx).pcb <;> rfl
  · cases hpcb : (b.s_listeners idx).pcb with
    | none =>
      have hudp : (remove_slot b idx).udp = b.udp := by
        unfold remove_slot
        rw [hpcb]
        rfl
      rwa [hudp] at hp
    | some q =>
      rw [(remove_slot_open h hpcb).wf.list_eq] at hp
      rw [h.wf.list_eq]
      exact List.mem_of_mem_erase hp
  · rw [remove_slot_slots] at hi ⊢
    by_cases hidx : i = idx
    · subst hidx
      rw [Function.update_self] at hi
      cases hi
    · rw [Function.update_of_ne hidx]

theorem remove_listener_closes {b : Board} {l : List PcbPtr} (h : b.Registry l) (id : udp_sock_id_t) :
    Closes b (udp_source_remove_listener b id) := by
  unfold udp_source_remove_listener
  split
  · exact .refl b
  · exact remove_slot_closes h _

theorem remove_all_closes {b : Board} {l : List PcbPtr} (h : b.Registry l) (n : NetifPtr) :
    Closes b (udp_source_remove_all_on_netif b (some n)) := by
  unfold udp_source_remove_all_on_netif
  refine (List.foldlRecOn (motive := fun b' : Board => (∃ l', b'.Registry l') ∧ Closes b b') _ _
    ⟨⟨l, h⟩, .refl b⟩ ?_).2
  rintro b' ⟨⟨l', h'⟩, hc⟩ idx -
  split
  · exact ⟨remove_slot_registry h' idx, hc.trans (remove_slot_closes h' idx)⟩
  · exact ⟨⟨l', h'⟩, hc⟩

theorem net_if_remove_closes {b : Board} (h : Inv b) {n : NetifPtr} (hn : n ∈ b.net.list) :
    Closes b (net_if_remove b (some n)).1 := by
  obtain ⟨l, hl⟩ := h.registry
  obtain ⟨m, hm⟩ := h.net
  unfold net_if_remove
  dsimp only
  split
  · exact .refl b
  · rename_i hne
    have hall := remove_all_closes hl n
    have hnet := remove_all_net b (some n)
    refine hall.trans ⟨fun k => ?_, ?_, ?_, ?_⟩
    · -- `netif_remove` only changes the flags of the interface.
      cases n with
      | phys => exact absurd rfl hne
      | alias_list i =>
        rw [hm.list_eq] at hn
        obtain ⟨next', head', hrem, -⟩ := netif_remove_spec hm hn hne
        unfold lwIPAliasRemove
        dsimp only
        split
        · dsimp only
          rw [hnet, hrem]
          dsimp only
          by_cases hk : k = .alias_list i
          · subst hk
            rw [Function.update_self]
            rfl
          · rw [Function.update_of_ne hk]
        · rfl
    · rw [(lwIPAliasRemove_sockets _ _).1]
    · rw [(lwIPAliasRemove_sockets _ _).1]
      exact fun _ hp => hp
    · rw [(lwIPAliasRemove_sockets _ _).2]
      exact fun _ _ => rfl

/-! ## Moving -/

def moveTo (u : Udp) (p : PcbPtr) (ip : ip_addr_t) : Udp := u.modify p (fun c => { c with local_ip := ip })

@[simp] theorem moveTo_self (u : Udp) (p : PcbPtr) (ip : ip_addr_t) :
    (moveTo u p ip).pcbs p = { u.pcbs p with local_ip := ip } := by simp [moveTo, Udp.modify]

theorem moveTo_of_ne (u : Udp) {p q : PcbPtr} (h : q ≠ p) (ip : ip_addr_t) : (moveTo u p ip).pcbs q = u.pcbs q := by
  simp [moveTo, Udp.modify, h]

theorem moveTo_port (u : Udp) (p q : PcbPtr) (ip : ip_addr_t) :
    ((moveTo u p ip).pcbs q).local_port = (u.pcbs q).local_port := by
  by_cases h : q = p
  · subst h
    simp
  · rw [moveTo_of_ne u h]

/-- Some control block is in the way when `p` moves to the address. -/
def blocked (u : Udp) (p : PcbPtr) (ip : ip_addr_t) : Bool := u.list.any (bindClash u p ip (u.pcbs p).local_port)

theorem blocked_eq_false {u : Udp} {p : PcbPtr} {ip : ip_addr_t} :
    blocked u p ip = false ↔ ∀ q ∈ u.list, bindClash u p ip (u.pcbs p).local_port q = false := by
  simp [blocked]

/-- The sockets of the interface have different ports. -/
def PortsDiffer (b : Board) (n : NetifPtr) : Prop :=
  ∀ i j p q, onNetif b n i = true → onNetif b n j = true → (b.s_listeners i).pcb = some p →
    (b.s_listeners j).pcb = some q → (b.udp.pcbs p).local_port = (b.udp.pcbs q).local_port → p = q

/-- `p` belongs to an open socket of the interface, in one of the slots. -/
def ownedIn (b : Board) (n : NetifPtr) (slots : List SlotIdx) (p : PcbPtr) : Prop :=
  ∃ i ∈ slots, onNetif b n i = true ∧ (b.s_listeners i).pcb = some p

theorem rebind_slot_eq {b : Board} {l : List PcbPtr} (h : b.Registry l) (n : NetifPtr) (i : SlotIdx) :
    (rebind_slot n b i = b ∧ ∀ p, onNetif b n i = true → (b.s_listeners i).pcb = some p →
      blocked b.udp p (b.net.netifs n).ip_addr = true) ∨
    ∃ p, onNetif b n i = true ∧ (b.s_listeners i).pcb = some p ∧ blocked b.udp p (b.net.netifs n).ip_addr = false ∧
      rebind_slot n b i = { b with udp := moveTo b.udp p (b.net.netifs n).ip_addr } := by
  unfold rebind_slot
  split
  · rename_i hon
    split
    · rename_i p hp
      have hmem := (h.owned i p hp).1
      rw [udp_bind_rebind h.wf hmem _ (h.port p hmem)]
      have hlist : l.any (bindClash b.udp p (b.net.netifs n).ip_addr (b.udp.pcbs p).local_port) =
          blocked b.udp p (b.net.netifs n).ip_addr := by rw [blocked, h.wf.list_eq]
      rw [hlist]
      cases hb : blocked b.udp p (b.net.netifs n).ip_addr with
      | true =>
        refine Or.inl ⟨by simp, fun q _ hq => ?_⟩
        obtain rfl : p = q := Option.some.inj (hp.symm.trans hq)
        exact hb
      | false => exact Or.inr ⟨p, hon, hp, hb, by simp [moveTo]⟩
    · rename_i hp
      refine Or.inl ⟨rfl, fun q _ hq => ?_⟩
      rw [hp] at hq
      cases hq
  · rename_i hon
    exact Or.inl ⟨rfl, fun _ h' => absurd h' hon⟩

instance (b : Board) (n : NetifPtr) (slots : List SlotIdx) (p : PcbPtr) : Decidable (ownedIn b n slots p) :=
  inferInstanceAs (Decidable (∃ i ∈ slots, onNetif b n i = true ∧ (b.s_listeners i).pcb = some p))

/-- Moving the socket `q` makes no difference to the other sockets of the interface. -/
theorem blocked_moveTo {b : Board} {l : List PcbPtr} (h : b.Registry l) {n : NetifPtr} (hports : PortsDiffer b n)
    {i j : SlotIdx} {p q : PcbPtr} (hi : onNetif b n i = true) (hp : (b.s_listeners i).pcb = some p)
    (hj : onNetif b n j = true) (hq : (b.s_listeners j).pcb = some q) (hne : p ≠ q) (ip v : ip_addr_t) :
    blocked (moveTo b.udp q ip) p v = blocked b.udp p v := by
  have hport : ((b.udp.pcbs q).local_port == (b.udp.pcbs p).local_port) = false :=
    beq_eq_false_iff_ne.mpr (fun heq => hne (hports i j p q hi hj hp hq heq.symm))
  have hlist : (moveTo b.udp q ip).list = b.udp.list := by
    rw [h.wf.list_eq]
    exact (h.wf.modify q _).list_eq
  unfold blocked
  rw [hlist]
  congr 1
  funext r
  by_cases hr : r = q
  · subst hr
    simp [bindClash, moveTo_of_ne _ hne, hport]
  · simp [bindClash, moveTo_of_ne _ hne, moveTo_of_ne _ hr]

/-- The loop over the slots moves the sockets of the interface that are not blocked. -/
theorem rebind_foldl {b : Board} {l : List PcbPtr} (h : b.Registry l) {n : NetifPtr} (hports : PortsDiffer b n)
    (slots : List SlotIdx) (p : PcbPtr) :
    (slots.foldl (rebind_slot n) b).udp.pcbs p =
      if ownedIn b n slots p ∧ blocked b.udp p (b.net.netifs n).ip_addr = false then
        { b.udp.pcbs p with local_ip := (b.net.netifs n).ip_addr }
      else b.udp.pcbs p := by
  induction slots generalizing b with
  | nil => simp [ownedIn]
  | cons i slots ih =>
    rw [List.foldl_cons]
    have hreg := rebind_slot_registry h n i
    rcases rebind_slot_eq h n i with ⟨heq, hblocked⟩ | ⟨q, hon, hq, hfree, heq⟩
    · -- The slot has no socket of the interface, or the socket is blocked.
      rw [heq, ih h hports]
      have hiff : (ownedIn b n (i :: slots) p ∧ blocked b.udp p (b.net.netifs n).ip_addr = false) ↔
          (ownedIn b n slots p ∧ blocked b.udp p (b.net.netifs n).ip_addr = false) := by
        constructor
        · rintro ⟨⟨j, hj, hjn, hjp⟩, hf⟩
          rcases List.mem_cons.mp hj with rfl | hj
          · rw [hblocked p hjn hjp] at hf
            cases hf
          · exact ⟨⟨j, hj, hjn, hjp⟩, hf⟩
        · rintro ⟨⟨j, hj, hrest⟩, hf⟩
          exact ⟨⟨j, List.mem_cons_of_mem _ hj, hrest⟩, hf⟩
      simp only [hiff]
    · -- The socket moves, and the rest of the loop sees the others as they were.
      rw [heq] at hreg ⊢
      have hports' : PortsDiffer { b with udp := moveTo b.udp q (b.net.netifs n).ip_addr } n := by
        intro j k r t hj hk hr ht hport
        simp only [moveTo_port] at hport
        exact hports j k r t hj hk hr ht hport
      rw [ih hreg hports']
      dsimp only
      by_cases hpq : p = q
      · subst hpq
        rw [if_pos (c := ownedIn b n (i :: slots) p ∧ _) ⟨⟨i, List.mem_cons_self, hon, hq⟩, hfree⟩]
        simp
      · have hiff : (ownedIn { b with udp := moveTo b.udp q (b.net.netifs n).ip_addr } n slots p ∧
            blocked (moveTo b.udp q (b.net.netifs n).ip_addr) p (b.net.netifs n).ip_addr = false) ↔
            (ownedIn b n (i :: slots) p ∧ blocked b.udp p (b.net.netifs n).ip_addr = false) := by
          constructor
          · rintro ⟨⟨j, hj, hjn, hjp⟩, hf⟩
            rw [blocked_moveTo h hports hjn hjp hon hq hpq] at hf
            exact ⟨⟨j, List.mem_cons_of_mem _ hj, hjn, hjp⟩, hf⟩
          · rintro ⟨⟨j, hj, hjn, hjp⟩, hf⟩
            rcases List.mem_cons.mp hj with rfl | hj
            · exact absurd (Option.some.inj (hjp.symm.trans hq)) hpq
            · rw [blocked_moveTo h hports hjn hjp hon hq hpq]
              exact ⟨⟨j, hj, hjn, hjp⟩, hf⟩
        rw [moveTo_of_ne _ hpq]
        simp only [hiff]

end MultiIp.Board

/-! ## Commands that leave the bindings alone -/

namespace MultiIp.Firmware

open Board Lwip Lib

theorem interrupt_steady {f : Firmware} (h : Inv f) (i : Interrupt) : Steady f.board (f.interrupt i).board := by
  cases i with
  | udp inp d alloc out =>
    obtain ⟨l, hl⟩ := h.board.registry
    exact udp_input_steady hl inp d alloc out
  | arp fr => exact arp_input_steady f.board fr
  | icmp k now => exact .refl _

theorem interrupts_steady {f : Firmware} (h : Inv f) (is : List Interrupt) : Steady f.board (f.interrupts is).board := by
  induction is generalizing f with
  | nil => exact .refl _
  | cons i is ih => exact (interrupt_steady h i).trans (ih (h.interrupt i))

theorem ping_send_steady (f : Firmware) (n : NetifPtr) (target : ip_addr_t) (env : PingEnv) :
    Steady f.board (f.ping_send (some n) target env).1.board := by
  unfold ping_send
  dsimp only
  split
  · exact .refl _
  · split
    · exact .refl _
    · exact .of_arpOnly _ (ip_output_if_arpOnly _ _ _ _ _ _ _ _)

theorem ping_wait_reply_steady {f : Firmware} (h : Inv f) (during late : List Interrupt) :
    Steady f.board (f.ping_wait_reply during late).1.board := by
  have hd := interrupts_steady h during
  unfold ping_wait_reply
  dsimp only
  split
  · exact hd
  · exact hd.trans (interrupts_steady (h.interrupts during) late)

theorem pingOnce_steady {f : Firmware} (h : Inv f) (env : Env) (idx : Int) (target : ip_addr_t) :
    Steady f.board (pingOnce f env idx target).1.board := by
  unfold pingOnce
  split
  · exact .refl _
  · rename_i n _
    have hsend := ping_send_steady f n target env.ping
    have hwait := ping_wait_reply_steady (h.ping_send (some n) target env.ping) env.during env.late
    dsimp only
    split
    · exact hsend
    · split
      · rename_i heq
        rw [heq] at hwait
        exact hsend.trans hwait
      · rename_i heq
        rw [heq] at hwait
        exact hsend.trans hwait

theorem scan_round_steady {s : Firmware × List (ip_addr_t × eth_addr)} (h : Inv s.1) (n : NetifPtr)
    (env : Nat → Alloc × List Interrupt) (idx : Nat) : Steady s.1.board (scan_round n env s idx).1.board := by
  unfold scan_round
  dsimp only
  split
  · exact .refl _
  · rename_i target _
    have harp : ArpOnly s.1.board.net { s.1.board.net with
        arp := (etharp_query s.1.board.net.arp n (s.1.board.net.netifs n) target none (env idx).1).1 } :=
      ⟨_, rfl, fun _ hS => hS.query _ _ _ _ _⟩
    have hi := (Steady.of_arpOnly s.1.board harp).trans (interrupts_steady (h.arp harp) (env idx).2)
    exact ⟨hi.list, hi.netifs, hi.pcbs, hi.perm, hi.slots⟩

theorem scan_network_steady {f : Firmware} (h : Inv f) (n : NetifPtr) (env : Nat → Alloc × List Interrupt) :
    Steady f.board (f.scan_network n env).1.board := by
  unfold scan_network
  generalize List.range 256 = rounds
  have hrec : ∀ s : Firmware × List (ip_addr_t × eth_addr), Inv s.1 →
      Steady s.1.board (rounds.foldl (scan_round n env) s).1.board := by
    induction rounds with
    | nil => exact fun s _ => .refl _
    | cons idx rounds ih =>
      intro s hs
      exact (scan_round_steady hs n env idx).trans (ih _ (hs.scan_round n env idx))
  exact hrec (f, []) h

theorem scanOn_steady {f : Firmware} (h : Inv f) (env : Env) (idx : Int) : Steady f.board (scanOn f env idx).1.board := by
  unfold scanOn
  split
  · exact .refl _
  · exact scan_network_steady h _ _

theorem udpSend_steady {f : Firmware} (h : Inv f) (env : Env) (idx nth : Int) (dst : ip_addr_t) (port : Int)
    (data : Text) : Steady f.board (udpSend f env idx nth dst port data).1.board := by
  obtain ⟨l, hl⟩ := h.board.registry
  unfold udpSend
  split
  · exact .refl _
  · split
    · exact .refl _
    · split
      · exact .refl _
      · split
        · exact .refl _
        · dsimp only
          split <;> exact data_send_steady hl _ _ _ _ _ _ _ _

end MultiIp.Firmware
