import MultiIp.Board.Bindings

/-!
# Removing an interface

`net_if_remove` closes the sockets of the interface one by one, then takes the
interface out of the stack. `Removed` says what it leaves behind, and that it
leaves everything else alone.
-/

namespace MultiIp.Board

open Lwip Lib

/-! ## The sockets -/

instance (b : Board) (n : NetifPtr) (slots : List SlotIdx) (p : PcbPtr) : Decidable (ownedIn b n slots p) :=
  inferInstanceAs (Decidable (∃ i ∈ slots, onNetif b n i = true ∧ (b.s_listeners i).pcb = some p))

theorem ownedIn_cons {b : Board} {n : NetifPtr} {j : SlotIdx} {is : List SlotIdx} {p : PcbPtr} :
    ownedIn b n (j :: is) p ↔ (onNetif b n j = true ∧ (b.s_listeners j).pcb = some p) ∨ ownedIn b n is p := by
  simp [ownedIn]

theorem onNetif_pcb {b : Board} {l : List PcbPtr} (h : b.Registry l) {n : NetifPtr} {i : SlotIdx}
    (hi : onNetif b n i = true) : ∃ p, (b.s_listeners i).pcb = some p :=
  (h.in_use_iff i).mp (onNetif_in_use hi)

theorem remove_slot_pcbs (b : Board) (idx : SlotIdx) : (remove_slot b idx).udp.pcbs = b.udp.pcbs := by
  unfold remove_slot
  cases (b.s_listeners idx).pcb <;> rfl

theorem ownedIn_remove_slot {b : Board} {n : NetifPtr} {j : SlotIdx} {is : List SlotIdx} (hj : j ∉ is) (p : PcbPtr) :
    ownedIn (remove_slot b j) n is p ↔ ownedIn b n is p := by
  unfold ownedIn
  refine exists_congr fun i => and_congr_right fun hi => ?_
  have hij : i ≠ j := by
    rintro rfl
    exact hj hi
  have hsame : (remove_slot b j).s_listeners i = b.s_listeners i := by
    rw [remove_slot_slots, Function.update_of_ne hij]
  rw [onNetif_congr hsame, hsame]

/-- The loop takes the control blocks of the interface's sockets off the list and leaves the others in order.
Induction on the slots that the loop still has to visit. -/
theorem remove_all_list {b : Board} {l : List PcbPtr} (h : b.Registry l) (n : NetifPtr) {is : List SlotIdx}
    (hnd : is.Nodup) :
    (is.foldl (fun b idx => if onNetif b n idx then remove_slot b idx else b) b).Registry
        (l.filter (fun p => ¬ ownedIn b n is p)) ∧
      (is.foldl (fun b idx => if onNetif b n idx then remove_slot b idx else b) b).udp.pcbs = b.udp.pcbs := by
  induction is generalizing b l with
  | nil => simpa [ownedIn] using h
  | cons j is ih =>
    obtain ⟨hj, hnd⟩ := List.nodup_cons.mp hnd
    rw [List.foldl_cons]
    by_cases hon : onNetif b n j = true
    · obtain ⟨p, hp⟩ := onNetif_pcb h hon
      obtain ⟨hreg, hpcbs⟩ := ih (remove_slot_open h hp) hnd
      rw [if_pos hon]
      refine ⟨?_, by rw [hpcbs, remove_slot_pcbs]⟩
      have hfilter : (l.erase p).filter (fun q => ¬ ownedIn (remove_slot b j) n is q) =
          l.filter (fun q => ¬ ownedIn b n (j :: is) q) := by
        rw [h.wf.list_nodup.erase_eq_filter, List.filter_filter]
        refine List.filter_congr fun q _ => ?_
        have hkeep := ownedIn_remove_slot (b := b) (n := n) hj q
        have hqp : (q != p) = !decide (p = q) := by rw [bne, BEq.comm, beq_eq_decide]
        simp [hkeep, ownedIn_cons, hon, hp, hqp, Bool.and_comm]
      rwa [hfilter] at hreg
    · obtain ⟨hreg, hpcbs⟩ := ih h hnd
      rw [if_neg hon]
      refine ⟨?_, hpcbs⟩
      have hfilter : l.filter (fun q => ¬ ownedIn b n is q) = l.filter (fun q => ¬ ownedIn b n (j :: is) q) := by
        refine List.filter_congr fun q _ => ?_
        simp [ownedIn_cons, hon]
      rwa [hfilter] at hreg

/-- The control block belongs to an open socket of the interface. -/
abbrev ownedBy (b : Board) (n : NetifPtr) (p : PcbPtr) : Prop := ownedIn b n (List.finRange UDP_MAX_LISTENERS) p

/-! ## The whole removal -/

/-- What the removal of the interface `n` makes of the board `b`. -/
structure Removed (b : Board) (n : NetifPtr) (b' : Board) : Prop where
  count_sockets : udp_source_count_sockets b' n = 0
  /-- The interface is off the list, and the others stay on it in their order. -/
  off_list : n ∉ b'.net.list
  list : b'.net.list = b.net.list.erase n
  list_ends : Chain b'.net.next b'.net.netif_list b'.net.list
  netifs : ∀ m, m ≠ n → b'.net.netifs m = b.net.netifs m
  default : b'.net.netif_default = b.net.netif_default
  freed : ∀ i, n = .alias_list i → b'.used i = false
  used : ∀ i, n ≠ .alias_list i → b'.used i = b.used i
  arp : ∀ j, (b'.net.arp.arp_table j).state ≠ .EMPTY → (b'.net.arp.arp_table j).netif ≠ some n
  /-- A socket of the interface: its slot is free with the next generation and an empty mailbox, and its
  control block is off the list and in the pool. -/
  closed : ∀ i, onNetif b n i = true → b'.s_listeners i = closeSlot (b.s_listeners i) ∧
    ∃ p, (b.s_listeners i).pcb = some p ∧ p ∉ b'.udp.list ∧ p ∈ b'.udp.memp
  /-- Any other slot. -/
  kept : ∀ i, onNetif b n i = false → b'.s_listeners i = b.s_listeners i
  /-- Any other control block, with its binding, stays where it is on the list. -/
  pcbs : b'.udp.pcbs = b.udp.pcbs
  udp_list : b'.udp.list = b.udp.list.filter (fun p => ¬ ownedBy b n p)

theorem mem_memp_of_not_mem {u : Udp} {l : List PcbPtr} (h : u.Wf [] l) {p : PcbPtr} (hp : p ∉ l) : p ∈ u.memp := by
  have hpool := h.pool.mem_iff.mpr (List.mem_finRange p)
  simpa [hp] using hpool

/-- Closing the sockets of the interface. -/
structure SocketsClosed (b : Board) (n : NetifPtr) (b' : Board) : Prop where
  registry : b'.Registry (b.udp.list.filter (fun p => ¬ ownedBy b n p))
  pcbs : b'.udp.pcbs = b.udp.pcbs
  slots : ∀ i, b'.s_listeners i = if onNetif b n i then closeSlot (b.s_listeners i) else b.s_listeners i

theorem remove_all_closed {b : Board} {l : List PcbPtr} (h : b.Registry l) (n : NetifPtr) :
    SocketsClosed b n (udp_source_remove_all_on_netif b (some n)) := by
  obtain ⟨hreg, hpcbs⟩ := remove_all_list h n (List.nodup_finRange UDP_MAX_LISTENERS)
  refine ⟨?_, hpcbs, remove_all_slots b n⟩
  rw [h.wf.list_eq]
  exact hreg

theorem SocketsClosed.count {b b' : Board} {n : NetifPtr} (h : SocketsClosed b n b') :
    udp_source_count_sockets b' n = 0 := by
  have hnone : ∀ i, onNetif b' n i = false := by
    intro i
    have hslot := h.slots i
    cases hi : onNetif b n i with
    | true =>
      rw [hi] at hslot
      simp [onNetif, hslot, closeSlot]
    | false =>
      rw [hi] at hslot
      rw [onNetif_congr hslot, hi]
  simp [udp_source_count_sockets, socketsOn, hnone]

theorem net_if_remove_phys (b : Board) : net_if_remove b (some .phys) = (b, .ERR_VAL) := by
  unfold net_if_remove
  simp

theorem net_if_remove_alias {b : Board} {l : List PcbPtr} (h : b.Registry l) {ns : List NetifPtr} (hn : NetInv b ns)
    {n : NetifPtr} (hmem : n ∈ ns) (hne : n ≠ .phys) :
    (net_if_remove b (some n)).2 = .ERR_OK ∧ Removed b n (net_if_remove b (some n)).1 := by
  have hclosed := remove_all_closed h n
  have hnet := remove_all_net b (some n)
  have hused : (udp_source_remove_all_on_netif b (some n)).used = b.used := (remove_all_same b (some n)).used
  have hlist := hn.list_eq
  have hnd := chain_nodup hn.chain
  unfold net_if_remove
  simp only [if_neg hne, true_and]
  generalize udp_source_remove_all_on_netif b (some n) = c at hclosed hnet hused
  obtain ⟨next', head', hrem, hchain⟩ := netif_remove_spec hn hmem hne
  have hlen : (ns.erase n).length ≤ netifCount := netifPtr_length_le (hnd.erase n)
  cases n with
  | phys => exact absurd rfl hne
  | alias_list i =>
    have hui : c.used i = true := by rw [hused]; exact (hn.alias_mem i).mp hmem
    have hlist' : (lwIPAliasRemove c (.alias_list i)).net.list = ns.erase (.alias_list i) := by
      simp only [lwIPAliasRemove, hui, if_true, hnet, hrem]
      exact walk_eq hchain hlen
    have hsock := lwIPAliasRemove_sockets c (.alias_list i)
    refine ⟨?_, ?_, ?_, ?_, ?_, ?_, ?_, ?_, ?_, ?_, ?_, ?_, ?_⟩
    · rw [← hclosed.count]
      unfold udp_source_count_sockets socketsOn
      rw [List.filter_congr fun j _ => onNetif_congr (congrFun hsock.2 j)]
    · rw [hlist', hnd.mem_erase_iff]
      simp
    · rw [hlist', hlist]
    · rw [hlist']
      simpa only [lwIPAliasRemove, hui, if_true, hnet, hrem] using hchain
    · intro m hm
      simp [lwIPAliasRemove, hui, hnet, hrem, hm]
    · simp [lwIPAliasRemove, hui, hnet, hrem]
    · rintro j ⟨⟩
      simp [lwIPAliasRemove, hui]
    · intro j hj
      have hji : j ≠ i := by
        rintro rfl
        exact hj rfl
      simp [lwIPAliasRemove, hui, hji, hused]
    · intro j hj
      simp only [lwIPAliasRemove, hui, if_true, hnet, hrem, etharp_cleanup_netif_spec] at hj ⊢
      split at hj
      · exact absurd rfl hj
      · rename_i hoff
        rw [if_neg hoff]
        exact fun heq => hoff ⟨hj, heq⟩
    · intro j hj
      rw [hsock.1, hsock.2, hclosed.slots, if_pos hj]
      obtain ⟨p, hp⟩ := onNetif_pcb h hj
      have hoff : p ∉ b.udp.list.filter (fun p => ¬ ownedBy b (.alias_list i) p) := by
        have howned : ownedBy b (.alias_list i) p := ⟨j, List.mem_finRange j, hj, hp⟩
        simp [howned]
      refine ⟨rfl, p, hp, ?_, mem_memp_of_not_mem hclosed.registry.wf hoff⟩
      rwa [hclosed.registry.wf.list_eq]
    · intro j hj
      rw [hsock.2, hclosed.slots, hj]
      rfl
    · rw [hsock.1, hclosed.pcbs]
    · rw [hsock.1, hclosed.registry.wf.list_eq]

end MultiIp.Board

namespace MultiIp.Firmware

open Board Lwip Lib

/-- In every reachable state and for every interface of the list, the removal takes away that interface and its
sockets, and nothing else. -/
theorem remove_exactly (c : Boot) (es : List Event) (h : machine.Legal (boot c) es) (n : NetifPtr)
    (hn : n ∈ (machine.run (boot c) es).board.net.list) :
    let b := (machine.run (boot c) es).board
    (n = .phys → net_if_remove b (some n) = (b, .ERR_VAL)) ∧
      (n ≠ .phys → (net_if_remove b (some n)).2 = .ERR_OK ∧ Removed b n (net_if_remove b (some n)).1) := by
  have hinv := (inv_reachable c h).board
  obtain ⟨l, hreg⟩ := hinv.registry
  obtain ⟨ns, hnet⟩ := hinv.net
  rw [hnet.list_eq] at hn
  refine ⟨?_, net_if_remove_alias hreg hnet hn⟩
  rintro rfl
  exact net_if_remove_phys _

/-- Two sockets on two aliases. -/
def removalRun : List Event :=
  [.call (.net_if_add 0x0a000014 0xffffff00 0x0a000001 true), .call (.net_if_add 0x0a000015 0xffffff00 0x0a000001 true),
    .call (.add_listener (.alias_list 0) 5000 (some 0)), .call (.add_listener (.alias_list 1) 5000 (some 0))]

theorem remove_exactly_sample :
    let b := (machine.run (boot (.main ethzero true)) removalRun).board
    machine.Legal (boot (.main ethzero true)) removalRun ∧ NetifPtr.alias_list 0 ∈ b.net.list ∧
      (net_if_remove b (some (.alias_list 0))).2 = .ERR_OK ∧
      Removed b (.alias_list 0) (net_if_remove b (some (.alias_list 0))).1 :=
  ⟨by decide, by decide, (remove_exactly _ removalRun (by decide) (.alias_list 0) (by decide)).2 (by decide)⟩

end MultiIp.Firmware
