import Mathlib.Data.Fintype.EquivFin
import MultiIp.Board.Slots
import MultiIp.Lwip.EtharpRules

/-!
# The interface list, the alias pool and who refers to them

`NetInv`: the list holds the physical interface and the used aliases, aliases
share the physical interface's hardware, and neither an open socket nor a
resolved ARP entry refers to an interface that is not on the list.
-/

namespace MultiIp.Board

open Lwip Lib

/-- Everything of an interface but its addresses. -/
def hardware (n : netif) : netif := { n with ip_addr := 0, netmask := 0, gw := 0 }

def upFlags : UInt8 := NETIF_FLAG_BROADCAST ||| NETIF_FLAG_ETHARP ||| NETIF_FLAG_LINK_UP ||| NETIF_FLAG_UP

structure NetInv (b : Board) (l : List NetifPtr) : Prop where
  chain : Chain b.net.next b.net.netif_list l
  members : ∀ n, n ∈ l ↔ n = .phys ∨ ∃ i, n = .alias_list i ∧ b.used i = true
  default : b.net.netif_default = some .phys
  ready : b.lwIPCoreReady = true
  shares : ∀ n ∈ l, hardware (b.net.netifs n) = hardware (b.net.netifs .phys)
  flags : (b.net.netifs .phys).flags = upFlags
  output : (b.net.netifs .phys).output = some .etharp_output
  sockets : ∀ i, (b.s_listeners i).in_use = true → ∃ n ∈ l, (b.s_listeners i).netif = some n
  arp : b.net.arp.StableIn (· ∈ l)

/-- The physical interface comes after the aliases. -/
def netifNumber : NetifPtr → Fin netifCount
  | .phys => Fin.last _
  | .alias_list i => i.castSucc

theorem netifNumber_injective : Function.Injective netifNumber := by
  intro n m hnm
  cases n with
  | phys =>
    cases m with
    | phys => rfl
    | alias_list j => exact absurd hnm.symm (Fin.castSucc_lt_last j).ne
  | alias_list i =>
    cases m with
    | phys => exact absurd hnm (Fin.castSucc_lt_last i).ne
    | alias_list j => rw [Fin.castSucc_injective _ hnm]

theorem netifPtr_length_le {l : List NetifPtr} (h : l.Nodup) : l.length ≤ netifCount := by
  have := (h.map netifNumber_injective).length_le_card
  simpa using this

namespace NetInv

variable {b b' : Board} {l : List NetifPtr}

theorem list_eq (h : NetInv b l) : b.net.list = l :=
  walk_eq h.chain (netifPtr_length_le (chain_nodup h.chain))

theorem list_nodup (h : NetInv b l) : b.net.list.Nodup := by
  rw [h.list_eq]
  exact chain_nodup h.chain

theorem phys_mem (h : NetInv b l) : NetifPtr.phys ∈ l := (h.members _).mpr (Or.inl rfl)

theorem phys_listed (h : NetInv b l) : NetifPtr.phys ∈ b.net.list := by
  rw [h.list_eq]
  exact h.phys_mem

theorem alias_mem (h : NetInv b l) (i : Fin maxAliasNetif) : NetifPtr.alias_list i ∈ l ↔ b.used i = true := by
  rw [h.members]
  simp

/-- Every interface of the list is up with its link up and uses ARP. -/
theorem flags_eq (h : NetInv b l) {n : NetifPtr} (hn : n ∈ l) : (b.net.netifs n).flags = upFlags := by
  have := congrArg netif.flags (h.shares n hn)
  simp only [hardware] at this
  rw [this, h.flags]

end NetInv

/-! ## Steps that leave the list alone -/

/-- `b'` has the interfaces of `b`, up to their addresses, and its ARP table refers to no others. -/
structure SameInterfaces (b b' : Board) : Prop where
  next : b'.net.next = b.net.next
  netif_list : b'.net.netif_list = b.net.netif_list
  default : b'.net.netif_default = b.net.netif_default
  used : b'.used = b.used
  ready : b'.lwIPCoreReady = b.lwIPCoreReady
  hw : ∀ n, hardware (b'.net.netifs n) = hardware (b.net.netifs n)
  arp : ∀ S : NetifPtr → Prop, b.net.arp.StableIn S → b'.net.arp.StableIn S

theorem SameInterfaces.refl (b : Board) : SameInterfaces b b :=
  ⟨rfl, rfl, rfl, rfl, rfl, fun _ => rfl, fun _ h => h⟩

theorem SameInterfaces.of_eq {b b' : Board} (hn : b'.net = b.net) (hu : b'.used = b.used)
    (hr : b'.lwIPCoreReady = b.lwIPCoreReady) : SameInterfaces b b' := by
  refine ⟨?_, ?_, ?_, hu, hr, ?_, ?_⟩ <;> rw [hn]
  · exact fun _ => rfl
  · exact fun _ h => h

theorem SameInterfaces.trans {a b c : Board} (h : SameInterfaces a b) (h' : SameInterfaces b c) :
    SameInterfaces a c where
  next := h'.next.trans h.next
  netif_list := h'.netif_list.trans h.netif_list
  default := h'.default.trans h.default
  used := h'.used.trans h.used
  ready := h'.ready.trans h.ready
  hw n := (h'.hw n).trans (h.hw n)
  arp S hS := h'.arp S (h.arp S hS)

theorem NetInv.transfer {b b' : Board} {l : List NetifPtr} (h : NetInv b l) (hs : SameInterfaces b b')
    (hsock : ∀ i, (b'.s_listeners i).in_use = true →
      ((b.s_listeners i).in_use = true ∧ (b'.s_listeners i).netif = (b.s_listeners i).netif) ∨
      ∃ n ∈ l, (b'.s_listeners i).netif = some n) : NetInv b' l where
  chain := by rw [hs.next, hs.netif_list]; exact h.chain
  members := by rw [hs.used]; exact h.members
  default := by rw [hs.default]; exact h.default
  ready := by rw [hs.ready]; exact h.ready
  shares n hn := by rw [hs.hw, hs.hw]; exact h.shares n hn
  flags := by
    have := congrArg netif.flags (hs.hw .phys)
    simp only [hardware] at this
    rw [this, h.flags]
  output := by
    have := congrArg netif.output (hs.hw .phys)
    simp only [hardware] at this
    rw [this, h.output]
  sockets i hi := by
    rcases hsock i hi with ⟨hu, hn⟩ | hn
    · rw [hn]
      exact h.sockets i hu
    · exact hn
  arp := hs.arp _ h.arp

/-! ## Output -/

/-- `net'` differs from `net` in the ARP table only, which refers to no new interface. -/
def ArpOnly (net net' : Net) : Prop :=
  ∃ a, net' = { net with arp := a } ∧ ∀ S : NetifPtr → Prop, net.arp.StableIn S → a.StableIn S

theorem ArpOnly.refl (net : Net) : ArpOnly net net := ⟨net.arp, rfl, fun _ h => h⟩

theorem ArpOnly.same {b b' : Board} (h : ArpOnly b.net b'.net) (hu : b'.used = b.used)
    (hr : b'.lwIPCoreReady = b.lwIPCoreReady) : SameInterfaces b b' := by
  obtain ⟨a, heq, ha⟩ := h
  refine ⟨?_, ?_, ?_, hu, hr, fun n => ?_, ?_⟩ <;> rw [heq]
  exact ha

theorem ip_output_if_arpOnly (net : Net) (src dest : ip_addr_t) (ttl tos : UInt8) (p : IpPayload) (n : NetifPtr)
    (alloc : Alloc) : ArpOnly net (ip_output_if net src dest ttl tos p n alloc).1 := by
  unfold ip_output_if
  dsimp only
  split
  · exact ⟨_, rfl, fun _ h => h.output _ _ _ _ _⟩
  · exact .refl net

theorem udp_sendto_if_bound_arpOnly (net : Net) (c : udp_pcb) (data : List UInt8) (ip : ip_addr_t) (port : UInt16)
    (n : NetifPtr) (alloc : Alloc) : ArpOnly net (udp_sendto_if_bound net c data ip port n alloc).1 := by
  unfold udp_sendto_if_bound
  split
  · exact ip_output_if_arpOnly _ _ _ _ _ _ _ _
  · split
    · exact .refl net
    · exact ip_output_if_arpOnly _ _ _ _ _ _ _ _

theorem udp_sendto_if_arpOnly (net : Net) (u : Udp) (pcb : PcbPtr) (data : List UInt8) (ip : ip_addr_t)
    (port : UInt16) (n : NetifPtr) (alloc : Alloc) :
    ArpOnly net (udp_sendto_if net u pcb data ip port n alloc).1 := by
  unfold udp_sendto_if
  split
  · split
    · exact udp_sendto_if_bound_arpOnly _ _ _ _ _ _ _
    · exact .refl net
  · exact udp_sendto_if_bound_arpOnly _ _ _ _ _ _ _

theorem data_send_same (b : Board) (id : udp_sock_id_t) (n : Option NetifPtr) (ip : ip_addr_t) (port : UInt16)
    (data : Option (List UInt8)) (len : UInt16) (alloc : Bool) (out : Alloc) :
    SameInterfaces b (udp_source_data_send b id n ip port data len alloc out).1 := by
  unfold udp_source_data_send
  split
  · split
    · exact .refl b
    · split
      · exact .refl b
      · split
        · exact ArpOnly.same (udp_sendto_if_arpOnly _ _ _ _ _ _ _ _) rfl rfl
        · exact .refl b
  · exact .refl b

theorem LocatorReceive_same (b : Board) (p : PcbPtr) (d : pbuf) (addr : ip_addr_t) (port : UInt16) (alloc : Bool)
    (out : Alloc) : SameInterfaces b (LocatorReceive b p d addr port alloc out) := by
  unfold LocatorReceive
  split
  · split
    · exact .refl b
    · refine ArpOnly.same ?_ rfl rfl
      dsimp only
      unfold udp_sendto
      split
      · exact .refl b.net
      · exact udp_sendto_if_arpOnly _ _ _ _ _ _ _ _
  · exact .refl b

/-! ## Sockets -/

theorem remove_slot_same (b : Board) (idx : SlotIdx) : SameInterfaces b (remove_slot b idx) := by
  refine .of_eq (remove_slot_net b idx) ?_ ?_ <;>
  · unfold remove_slot
    cases (b.s_listeners idx).pcb <;> rfl

theorem add_listener_same (b : Board) (n : Option NetifPtr) (port : UInt16) (cell : Option udp_sock_id_t) :
    SameInterfaces b (udp_source_add_listener b n port cell).1 := by
  unfold udp_source_add_listener
  split
  · split
    · refine .of_eq (open_slot_net _ _ _ _ _) ?_ ?_ <;>
      · dsimp only
        unfold open_slot
        split
        · rfl
        · split <;> rfl
    · exact .refl b
  · exact .refl b

theorem remove_listener_same (b : Board) (id : udp_sock_id_t) :
    SameInterfaces b (udp_source_remove_listener b id) := by
  unfold udp_source_remove_listener
  split
  · exact .refl b
  · exact remove_slot_same b _

theorem remove_all_same (b : Board) (n : Option NetifPtr) :
    SameInterfaces b (udp_source_remove_all_on_netif b n) := by
  unfold udp_source_remove_all_on_netif
  split
  · exact .refl b
  · refine List.foldlRecOn (motive := fun b' : Board => SameInterfaces b b') _ _ (.refl b) ?_
    intro b' hb' idx _
    split
    · exact hb'.trans (remove_slot_same b' idx)
    · exact hb'

theorem netif_ip_changed_same (b : Board) (n : Option NetifPtr) :
    SameInterfaces b (udp_source_netif_ip_changed b n) := by
  obtain ⟨u, hu⟩ := netif_ip_changed_frame b n
  rw [hu]
  exact .of_eq rfl rfl rfl

theorem poll_rx_same (b : Board) (id : udp_sock_id_t) (msg : Option udp_rx_msg_t) :
    SameInterfaces b (udp_source_poll_rx b id msg).1 := by
  rcases poll_rx_spec b id msg with h | ⟨i, -, -, h⟩ <;> rw [h]
  · exact .refl b
  · exact .of_eq rfl rfl rfl

theorem rx_callback_same (b : Board) (arg : Nat) (p : Option pbuf) (addr : ip_addr_t) (port : UInt16) :
    SameInterfaces b (udp_rx_callback b arg p addr port) := by
  unfold udp_rx_callback
  dsimp only
  split
  · split
    · exact .refl b
    · split
      · exact .refl b
      · split <;> exact .of_eq rfl rfl rfl
  · exact .refl b

theorem udp_input_same (b : Board) (inp : NetifPtr) (d : Datagram) (alloc : Bool) (out : Alloc) :
    SameInterfaces b (udp_input b inp d alloc out) := by
  unfold udp_input
  split
  · exact .of_eq rfl rfl rfl
  · rename_i u p _
    have h : SameInterfaces b { b with udp := u } := .of_eq rfl rfl rfl
    dsimp only
    split
    · exact h
    · split
      · exact h.trans (rx_callback_same _ _ _ _ _)
      · exact h.trans (LocatorReceive_same _ _ _ _ _ _ _)
      · exact h

/-! ## Adding an interface -/

/-- An interface whose init function succeeds becomes the head of the list. -/
theorem netif_add_ok (net : Net) (n : NetifPtr) (ip mask gw : ip_addr_t) (state : StatePtr)
    (init : netif → netif × err_t)
    (herr : ∀ x, (init x).2 = .ERR_OK ∨ (init x).2 = .ERR_CONN) :
    netif_add net n ip mask gw state init =
      ({ net with
          netifs := Function.update net.netifs n (init { net.netifs n with
            ip_addr := ip, netmask := mask, gw := gw, flags := 0, state := state }).1
          next := Function.update net.next n net.netif_list
          netif_list := some n }, true) := by
  have hok : ∀ x, ¬((init x).2 ≠ .ERR_OK ∧ (init x).2 ≠ .ERR_CONN) := fun x h => (herr x).elim h.1 h.2
  simp [netif_add, netif_set_addr, netif_set_ipaddr, netif_set_netmask, netif_set_gw, Net.modify, hok]

/-- Bringing up an interface that is down sends one gratuitous ARP request. -/
theorem netif_set_up_down {net : Net} {n : NetifPtr} (hdown : (net.netifs n).has NETIF_FLAG_UP = false)
    {x : netif} (hnif : { net.netifs n with flags := (net.netifs n).flags ||| NETIF_FLAG_UP } = x)
    (hlink : x.has NETIF_FLAG_LINK_UP = true) (harp : x.has NETIF_FLAG_ETHARP = true) (alloc : Bool) :
    netif_set_up net n alloc =
      { net with netifs := Function.update net.netifs n x,
                 arp := (etharp_gratuitous net.arp n x alloc).1 } := by
  simp [netif_set_up, hdown, Net.modify, hnif, hlink, harp]

/-- The alias pool is full, or its first free entry becomes the head of the list. -/
theorem lwIPAliasAdd_spec {b : Board} {l : List NetifPtr} (h : NetInv b l) (ip mask gw : ip_addr_t)
    (alloc : Bool) :
    ((∀ i, b.used i = true) ∧ lwIPAliasAdd b ip mask gw alloc = (b, 0)) ∨
    ∃ i, b.used i = false ∧ lwIPAliasAdd b ip mask gw alloc =
      ({ b with
          net := { b.net with
            netifs := Function.update b.net.netifs (.alias_list i)
              { b.net.netifs .phys with ip_addr := ip, netmask := mask, gw := gw }
            next := Function.update b.net.next (.alias_list i) b.net.netif_list
            netif_list := some (.alias_list i) }
          used := Function.update b.used i true }, ip) := by
  unfold lwIPAliasAdd
  simp only [h.ready, Bool.not_true, Bool.false_eq_true, if_false]
  split
  · rename_i hfull
    refine Or.inl ⟨fun i => ?_, rfl⟩
    simpa using List.find?_eq_none.mp hfull i (List.mem_finRange i)
  · rename_i i hfind
    refine Or.inr ⟨i, by simpa using List.find?_some hfind, ?_⟩
    -- The alias takes over the flags, and with them NETIF_FLAG_UP.
    have hup : ({ b.net.netifs .phys with ip_addr := ip, netmask := mask, gw := gw } : netif).has NETIF_FLAG_UP =
        true := by
      simp only [netif.has, h.flags]
      decide
    rw [netif_add_ok _ _ _ _ _ _ _ (fun _ => Or.inl rfl)]
    simp [hdkif_alias_init, netif_set_up, hup]

theorem NetInv.aliasAdd {b : Board} {l : List NetifPtr} (h : NetInv b l) {i : Fin maxAliasNetif}
    (hi : b.used i = false) (ip mask gw : ip_addr_t) :
    NetInv { b with
      net := { b.net with
        netifs := Function.update b.net.netifs (.alias_list i)
          { b.net.netifs .phys with ip_addr := ip, netmask := mask, gw := gw }
        next := Function.update b.net.next (.alias_list i) b.net.netif_list
        netif_list := some (.alias_list i) }
      used := Function.update b.used i true } (.alias_list i :: l) := by
  have hnot : NetifPtr.alias_list i ∉ l := by
    rw [h.alias_mem, hi]
    simp
  have hphys : Function.update b.net.netifs (.alias_list i)
      { b.net.netifs .phys with ip_addr := ip, netmask := mask, gw := gw } .phys = b.net.netifs .phys :=
    Function.update_of_ne (by simp) _ _
  refine ⟨chain_push h.chain hnot, fun n => ?_, h.default, h.ready, fun n hn => ?_, ?_, ?_, fun j hj => ?_, ?_⟩
  · rw [List.mem_cons, h.members]
    cases n with
    | phys => simp
    | alias_list j =>
      by_cases hji : j = i
      · subst hji
        simp
      · simp [hji]
  · dsimp only at hn ⊢
    rw [hphys]
    by_cases hni : n = .alias_list i
    · rw [hni, Function.update_self]
      rfl
    · rw [Function.update_of_ne hni]
      exact h.shares n ((List.mem_cons.mp hn).resolve_left hni)
  · dsimp only
    rw [hphys]
    exact h.flags
  · dsimp only
    rw [hphys]
    exact h.output
  · obtain ⟨n, hn, hnet⟩ := h.sockets j hj
    exact ⟨n, List.mem_cons_of_mem _ hn, hnet⟩
  · exact h.arp.mono (fun n hn => List.mem_cons_of_mem _ hn)

theorem net_if_add_fst (b : Board) (ip mask gw : ip_addr_t) (alloc : Bool) :
    (net_if_add b ip mask gw alloc).1 = (lwIPAliasAdd b ip mask gw alloc).1 := by
  unfold net_if_add
  dsimp only
  split <;> rfl

theorem net_if_add_netInv {b : Board} {l : List NetifPtr} (h : NetInv b l) (ip mask gw : ip_addr_t)
    (alloc : Bool) : ∃ l', NetInv (net_if_add b ip mask gw alloc).1 l' := by
  rw [net_if_add_fst]
  rcases lwIPAliasAdd_spec h ip mask gw alloc with ⟨-, hr⟩ | ⟨i, hi, hr⟩ <;> rw [hr]
  · exact ⟨l, h⟩
  · exact ⟨_, h.aliasAdd hi ip mask gw⟩

/-! ## Removing an interface -/

theorem netif_remove_spec {b : Board} {l : List NetifPtr} (h : NetInv b l) {n : NetifPtr} (hn : n ∈ l)
    (hne : n ≠ .phys) :
    ∃ next' head', netif_remove b.net n =
        { b.net with netifs := Function.update b.net.netifs n (b.net.netifs n).down, next := next',
                     netif_list := head', arp := etharp_cleanup_netif b.net.arp n } ∧
      Chain next' head' (l.erase n) := by
  have hflags := h.flags_eq hn
  have hup : (b.net.netifs n).has NETIF_FLAG_UP = true := by
    simp only [netif.has, hflags]
    decide
  have harp : (b.net.netifs n).down.has NETIF_FLAG_ETHARP = true := by
    simp only [netif.has, netif.down, hflags]
    decide
  have hdown : netif_set_down b.net n =
      { b.net with netifs := Function.update b.net.netifs n (b.net.netifs n).down,
                   arp := etharp_cleanup_netif b.net.arp n } := by
    simp [netif_set_down, hup, Net.modify, harp]
  have hdef : b.net.netif_default ≠ some n := by
    rw [h.default]
    simpa using hne.symm
  unfold netif_remove
  simp only [netif_is_up, hup, if_true, hdown]
  by_cases hhead : b.net.netif_list = some n
  · refine ⟨b.net.next, b.net.next n, ?_, ?_⟩
    · simp [netif_unlink, hhead, hdef]
    · have hc := h.chain
      rw [hhead] at hc
      cases l with
      | nil => cases hn
      | cons m l =>
        obtain ⟨hm, htail⟩ := hc
        obtain rfl : n = m := Option.some.inj hm
        rw [List.erase_cons_head]
        exact htail
  · obtain ⟨p, hfind, hchain⟩ := chain_unlink_first h.chain hn hhead
    have hlist : ({ b.net with netifs := Function.update b.net.netifs n (b.net.netifs n).down,
                               arp := etharp_cleanup_netif b.net.arp n } : Net).list = l := h.list_eq
    refine ⟨_, _, ?_, hchain⟩
    simp [netif_unlink, hhead, hlist, hfind, hdef]

theorem net_if_remove_netInv {b : Board} {l : List NetifPtr} (h : NetInv b l) {n : NetifPtr} (hn : n ∈ l) :
    ∃ l', NetInv (net_if_remove b (some n)).1 l' := by
  unfold net_if_remove
  dsimp only
  split
  · exact ⟨l, h⟩
  · rename_i hne
    cases n with
    | phys => exact absurd rfl hne
    | alias_list i =>
      -- First the sockets are closed, which keeps the invariant.
      have hslots := remove_all_slots b (.alias_list i)
      have hopen : ∀ j, ((udp_source_remove_all_on_netif b (some (.alias_list i))).s_listeners j).in_use = true →
          ((b.s_listeners j).in_use = true ∧
            ((udp_source_remove_all_on_netif b (some (.alias_list i))).s_listeners j).netif =
              (b.s_listeners j).netif) ∧ (b.s_listeners j).netif ≠ some (.alias_list i) := by
        intro j hj
        rw [hslots] at hj ⊢
        split at hj
        · cases hj
        · rename_i hoff
          rw [if_neg hoff]
          refine ⟨⟨hj, rfl⟩, fun hnet => hoff ?_⟩
          simp [onNetif, hnet, hj]
      have h1 := h.transfer (remove_all_same b (some (.alias_list i))) (fun j hj => Or.inl (hopen j hj).1)
      have hne' : ∀ j, ((udp_source_remove_all_on_netif b (some (.alias_list i))).s_listeners j).in_use = true →
          ((udp_source_remove_all_on_netif b (some (.alias_list i))).s_listeners j).netif ≠
            some (.alias_list i) := by
        intro j hj
        rw [(hopen j hj).1.2]
        exact (hopen j hj).2
      generalize udp_source_remove_all_on_netif b (some (.alias_list i)) = c at h1 hne'
      have hused : c.used i = true := (h1.alias_mem i).mp hn
      obtain ⟨next', head', hrem, hchain⟩ := netif_remove_spec h1 hn (by simp)
      have hnd := chain_nodup h1.chain
      refine ⟨l.erase (.alias_list i), ?_⟩
      simp only [lwIPAliasRemove, hused, if_true, hrem]
      have hupd : ∀ m, m ≠ .alias_list i → Function.update c.net.netifs (.alias_list i)
          (c.net.netifs (.alias_list i)).down m = c.net.netifs m :=
        fun m hm => Function.update_of_ne hm _ _
      refine ⟨hchain, fun m => ?_, h1.default, h1.ready, fun m hm => ?_, ?_, ?_, fun j hj => ?_, ?_⟩
      · rw [hnd.mem_erase_iff, h1.members]
        cases m with
        | phys => simp
        | alias_list j =>
          by_cases hji : j = i
          · subst hji
            simp
          · simp [hji]
      · obtain ⟨hmi, hml⟩ := hnd.mem_erase_iff.mp hm
        dsimp only
        rw [hupd m hmi, hupd .phys (by simp)]
        exact h1.shares m hml
      · dsimp only
        rw [hupd .phys (by simp)]
        exact h1.flags
      · dsimp only
        rw [hupd .phys (by simp)]
        exact h1.output
      · obtain ⟨m, hml, hm⟩ := h1.sockets j hj
        refine ⟨m, hnd.mem_erase_iff.mpr ⟨?_, hml⟩, hm⟩
        rintro rfl
        exact hne' j hj hm
      · have hclean := h1.arp.cleanup_netif (.alias_list i)
        dsimp only
        refine hclean.mono ?_
        rintro m ⟨hml, hmi⟩
        exact hnd.mem_erase_iff.mpr ⟨hmi, hml⟩

/-! ## Addresses and ARP packets -/

theorem set_addr_same (b : Board) (n : NetifPtr) (f : netif → netif) (hf : ∀ x, hardware (f x) = hardware x) :
    SameInterfaces b { b with net := b.net.modify n f } := by
  refine ⟨rfl, rfl, rfl, rfl, rfl, fun m => ?_, fun _ h => h⟩
  by_cases hm : m = n
  · subst hm
    simp [Net.modify, hf]
  · simp [Net.modify, hm]

theorem netif_alias_route_filter_mem {b : Board} {l : List NetifPtr} (h : NetInv b l) (f : ArpFrame) :
    netif_alias_route_filter b.net f .phys ∈ l := by
  unfold netif_alias_route_filter netif_alias_route
  split
  · split
    · exact h.phys_mem
    · split
      · exact h.phys_mem
      · split
        · rename_i n hfind
          have := List.mem_of_find?_eq_some hfind
          rwa [h.list_eq] at this
        · exact h.phys_mem
  · exact h.phys_mem

theorem arp_input_netInv {b : Board} {l : List NetifPtr} (h : NetInv b l) (f : ArpFrame) :
    NetInv { b with net := ethernet_input_arp b.net f } l := by
  have hmem := netif_alias_route_filter_mem h f
  unfold ethernet_input_arp
  dsimp only
  split
  · exact { h with arp := h.arp.arp_input hmem _ f }
  · exact h

end MultiIp.Board
