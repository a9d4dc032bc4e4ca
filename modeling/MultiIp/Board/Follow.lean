import MultiIp.Board.Compete

/-!
# Sockets follow the address of their interface

`udp_source_netif_ip_changed` binds every socket of the interface to the new
address and does not look at the result. The sockets follow in a run exactly if
no line of it moves a socket to an address and port that another control block
blocks.
-/

namespace MultiIp.Firmware

open Board Lwip Lib

/-- Runs of command lines. -/
def console : Lib.Machine Firmware (Env × Text) where
  step f x := (cmd_dispatch f x.1 x.2).1
  allowed _ _ := True

def askedPort : Command → UInt16
  | .sock_open _ port => UInt16.ofNat port.toNat
  | _ => 0

/-- The port that each socket was opened with: a slot that the line opens gets the port of the line. -/
def noteOpened (opened : SlotIdx → UInt16) (f : Firmware) (x : Env × Text) : SlotIdx → UInt16 := fun i =>
  if (f.board.s_listeners i).in_use = false ∧ ((console.step f x).board.s_listeners i).in_use = true then
    askedPort (parse x.1 x.2)
  else opened i

/-- Every open socket is bound to the address of its interface and to the port it was opened with. -/
def Follows (b : Board) (opened : SlotIdx → UInt16) : Prop :=
  ∀ i, (b.s_listeners i).in_use = true → ∃ p n, (b.s_listeners i).pcb = some p ∧ (b.s_listeners i).netif = some n ∧
    (b.udp.pcbs p).local_ip = (b.net.netifs n).ip_addr ∧ (b.udp.pcbs p).local_port = opened i

/-- The command gives an interface an address at which some control block blocks one of its sockets. -/
def Clashes (b : Board) : Command → Prop
  | .netif_set idx field val => field = "IP".toList ∧ ∃ n, cmd_netif_by_index b idx = some n ∧
      ∃ i p, onNetif b n i = true ∧ (b.s_listeners i).pcb = some p ∧ blocked b.udp p val = true
  | _ => False

def endsInOk (out : Text) : Prop := ∃ front name, out = front ++ "#END ".toList ++ name ++ " OK\r\n".toList

/-! ## Steps without a new address -/

theorem onNetif_iff {b : Board} {n : NetifPtr} {i : SlotIdx} :
    onNetif b n i = true ↔ (b.s_listeners i).netif = some n ∧ (b.s_listeners i).in_use = true := by
  simp [onNetif]

theorem Follows.of_closes {b b' : Board} {opened : SlotIdx → UInt16} (h : Follows b opened) (hc : Closes b b') :
    Follows b' opened := by
  intro i hi
  have heq := hc.slots i hi
  rw [heq] at hi
  obtain ⟨p, n, hp, hn, hip, hport⟩ := h i hi
  refine ⟨p, n, ?_, ?_, ?_, ?_⟩
  · rw [heq, hp]
  · rw [heq, hn]
  · rw [hc.pcbs, hc.ip, hip]
  · rw [hc.pcbs, hport]

theorem Follows.of_steady {b b' : Board} {opened : SlotIdx → UInt16} (h : Follows b opened) (hs : Steady b b') :
    Follows b' opened := by
  intro i hi
  obtain ⟨hu, hp', hn'⟩ := hs.slots i
  rw [hu] at hi
  obtain ⟨p, n, hp, hn, hip, hport⟩ := h i hi
  refine ⟨p, n, ?_, ?_, ?_, ?_⟩
  · rw [hp', hp]
  · rw [hn', hn]
  · rw [hs.pcbs, hs.netifs, hip]
  · rw [hs.pcbs, hport]

/-- A new interface takes a free entry of the pool, which no socket is on. -/
theorem Follows.netIfAdd {b : Board} (hinv : Board.Inv b) {opened : SlotIdx → UInt16} (h : Follows b opened)
    (ip mask gw : ip_addr_t) (alloc : Bool) : Follows (net_if_add b ip mask gw alloc).1 opened := by
  obtain ⟨l, hl⟩ := hinv.net
  rw [net_if_add_fst]
  rcases lwIPAliasAdd_spec hl ip mask gw alloc with ⟨-, hr⟩ | ⟨j, hj, hr⟩
  · rw [hr]
    exact h
  · rw [hr]
    intro i hi
    obtain ⟨p, n, hp, hn, hip, hport⟩ := h i hi
    refine ⟨p, n, hp, hn, ?_, hport⟩
    obtain ⟨m, hm, hnet⟩ := hl.sockets i hi
    obtain rfl : n = m := Option.some.inj (hn.symm.trans hnet)
    have hne : n ≠ .alias_list j := by
      rintro rfl
      rw [hl.alias_mem, hj] at hm
      cases hm
    dsimp only
    rw [Function.update_of_ne hne, hip]

/-- Opening a socket: the new one is bound to the interface's address and the port. -/
theorem open_follows {b : Board} {l : List PcbPtr} (hreg : b.Registry l) {opened : SlotIdx → UInt16}
    (h : Follows b opened) (n : NetifPtr) {port : UInt16} (hport : port ≠ 0) (cell : udp_sock_id_t) :
    Follows (udp_source_add_listener b (some n) port (some cell)).1
      (fun i => if (b.s_listeners i).in_use = true then opened i else port) := by
  have hsame : Follows b (fun i => if (b.s_listeners i).in_use = true then opened i else port) := by
    intro i hi
    simp only [hi, if_true]
    exact h i hi
  unfold udp_source_add_listener
  dsimp only
  split
  · rename_i idx hfind
    have hfree : (b.s_listeners idx).in_use = false := by simpa using List.find?_some hfind
    rcases open_slot_spec hreg hfree n port cell with
      ⟨u, p, port', heq, hr, hother, hip, hp', hnew, -⟩ | ⟨u, heq, -, hsame', -⟩
    · rw [heq]
      obtain rfl := hnew hport
      have hpl : p ∉ l := (List.nodup_cons.mp hr.wf.list_nodup).1
      intro i hi
      dsimp only at hi ⊢
      by_cases hidx : i = idx
      · subst hidx
        refine ⟨p, n, by simp [openSlot], by simp [openSlot], hip, ?_⟩
        rw [hp', if_neg (by simp [hfree])]
      · rw [Function.update_of_ne hidx] at hi ⊢
        obtain ⟨q, m, hq, hm, hqip, hqport⟩ := hsame i hi
        have hqp : q ≠ p := by
          rintro rfl
          exact hpl (hreg.owned i q hq).1
        exact ⟨q, m, hq, hm, by rw [hother q hqp, hqip], by rw [hother q hqp, hqport]⟩
    · -- The bind was refused.
      rw [heq]
      intro i hi
      obtain ⟨q, m, hq, hm, hqip, hqport⟩ := hsame i hi
      have hql := (hreg.owned i q hq).1
      exact ⟨q, m, hq, hm, by rw [hsame' q hql, hqip], by rw [hsame' q hql, hqport]⟩
  · exact hsame

/-! ## A new address -/

section SetIp

variable {b : Board} {l : List PcbPtr} {opened : SlotIdx → UInt16}

theorem setIp_ip (b : Board) (n m : NetifPtr) (val : ip_addr_t) :
    ((setIp b n val).net.netifs m).ip_addr = if m = n then val else (b.net.netifs m).ip_addr := by
  unfold setIp
  rw [netif_ip_changed_net]
  by_cases hm : m = n
  · subst hm
    simp [netif_set_ipaddr, Net.modify]
  · simp [netif_set_ipaddr, Net.modify, hm]

theorem setIp_slots (b : Board) (n : NetifPtr) (val : ip_addr_t) : (setIp b n val).s_listeners = b.s_listeners :=
  netif_ip_changed_slots _ _

theorem setIp_list (h : b.Registry l) (n : NetifPtr) (val : ip_addr_t) : (setIp b n val).udp.list = b.udp.list := by
  have hset : ({ b with net := netif_set_ipaddr b.net n val } : Board).Registry l := h
  unfold setIp
  rw [(netif_ip_changed_registry hset (some n)).wf.list_eq, h.wf.list_eq]

/-- `p` belongs to an open socket of the interface. -/
def ownedOn (b : Board) (n : NetifPtr) (p : PcbPtr) : Prop :=
  ∃ i, onNetif b n i = true ∧ (b.s_listeners i).pcb = some p

theorem setIp_pcbs (h : b.Registry l) {n : NetifPtr} (hports : PortsDiffer b n) (val : ip_addr_t) (p : PcbPtr) :
    (ownedOn b n p ∧ blocked b.udp p val = false ∧
      (setIp b n val).udp.pcbs p = { b.udp.pcbs p with local_ip := val }) ∨
    (¬ (ownedOn b n p ∧ blocked b.udp p val = false) ∧ (setIp b n val).udp.pcbs p = b.udp.pcbs p) := by
  have hset : ({ b with net := netif_set_ipaddr b.net n val } : Board).Registry l := h
  have hval : (netif_set_ipaddr b.net n val).netifs n = { b.net.netifs n with ip_addr := val } := by
    simp [netif_set_ipaddr, Net.modify]
  have hfold := rebind_foldl hset hports (List.finRange UDP_MAX_LISTENERS) p
  simp only [hval] at hfold
  have hown : ownedIn { b with net := netif_set_ipaddr b.net n val } n (List.finRange UDP_MAX_LISTENERS) p ↔
      ownedOn b n p := by
    constructor
    · rintro ⟨i, -, hi⟩
      exact ⟨i, hi⟩
    · rintro ⟨i, hi⟩
      exact ⟨i, List.mem_finRange i, hi⟩
  by_cases hc : ownedOn b n p ∧ blocked b.udp p val = false
  · rw [if_pos ⟨hown.mpr hc.1, hc.2⟩] at hfold
    exact Or.inl ⟨hc.1, hc.2, hfold⟩
  · rw [if_neg (fun hc' => hc ⟨hown.mp hc'.1, hc'.2⟩)] at hfold
    exact Or.inr ⟨hc, hfold⟩

/-- Sockets that follow one interface have one address, so their ports differ. -/
theorem Follows.portsDiffer (hreg : b.Registry l) (hc : NoCompete b.udp) (h : Follows b opened) (n : NetifPtr) :
    PortsDiffer b n := by
  intro i j p q hi hj hp hq hport
  have hip : ∀ k r, onNetif b n k = true → (b.s_listeners k).pcb = some r →
      (b.udp.pcbs r).local_ip = (b.net.netifs n).ip_addr := by
    intro k r hk hr
    obtain ⟨hnet, huse⟩ := onNetif_iff.mp hk
    obtain ⟨r', m, hr', hm, hfollow, -⟩ := h k huse
    obtain rfl : r = r' := Option.some.inj (hr.symm.trans hr')
    obtain rfl : n = m := Option.some.inj (hnet.symm.trans hm)
    exact hfollow
  by_contra hne
  have hmem : ∀ k r, (b.s_listeners k).pcb = some r → r ∈ b.udp.list := by
    intro k r hr
    rw [hreg.wf.list_eq]
    exact (hreg.owned k r hr).1
  exact hc.apart (hmem i p hp) (hmem j q hq) hne hport ((hip i p hi hp).trans (hip j q hj hq).symm)

/-- If no socket of the interface is blocked, all of them move. -/
theorem setIp_follows (hreg : b.Registry l) (hc : NoCompete b.udp) (h : Follows b opened) {n : NetifPtr}
    {val : ip_addr_t} (hclear : ∀ p, ownedOn b n p → blocked b.udp p val = false) :
    NoCompete (setIp b n val).udp ∧ Follows (setIp b n val) opened := by
  have hports := h.portsDiffer hreg hc n
  have hmoved : ∀ p, (ownedOn b n p → (setIp b n val).udp.pcbs p = { b.udp.pcbs p with local_ip := val }) ∧
      (¬ ownedOn b n p → (setIp b n val).udp.pcbs p = b.udp.pcbs p) := by
    intro p
    rcases setIp_pcbs hreg hports val p with ⟨hown, -, heq⟩ | ⟨hnot, heq⟩
    · exact ⟨fun _ => heq, fun hn => absurd hown hn⟩
    · exact ⟨fun hown => absurd ⟨hown, hclear p hown⟩ hnot, fun _ => heq⟩
  constructor
  · intro p hp q hq
    rw [setIp_list hreg] at hp hq
    rw [bindClash_eq_false]
    intro hne hport
    by_cases hpo : ownedOn b n p
    · rw [(hmoved p).1 hpo] at hport ⊢
      dsimp only at hport ⊢
      by_cases hqo : ownedOn b n q
      · -- Two sockets of the interface.
        rw [(hmoved q).1 hqo] at hport
        obtain ⟨i, hi, hip⟩ := hpo
        obtain ⟨j, hj, hjq⟩ := hqo
        exact absurd (hports i j p q hi hj hip hjq hport.symm) hne
      · rw [(hmoved q).2 hqo] at hport ⊢
        exact bindClash_eq_false.mp (blocked_eq_false.mp (hclear p hpo) q hq) hne hport
    · rw [(hmoved p).2 hpo] at hport ⊢
      by_cases hqo : ownedOn b n q
      · rw [(hmoved q).1 hqo] at hport ⊢
        dsimp only at hport ⊢
        obtain ⟨h1, h2, h3⟩ :=
          bindClash_eq_false.mp (blocked_eq_false.mp (hclear q hqo) p hp) (Ne.symm hne) hport.symm
        exact ⟨h2, h1, Ne.symm h3⟩
      · rw [(hmoved q).2 hqo] at hport ⊢
        exact bindClash_eq_false.mp (hc p hp q hq) hne hport
  · intro i hi
    rw [setIp_slots] at hi ⊢
    obtain ⟨p, m, hp, hm, hip, hport⟩ := h i hi
    refine ⟨p, m, hp, hm, ?_, ?_⟩
    · rw [setIp_ip]
      by_cases hmn : m = n
      · subst hmn
        rw [if_pos rfl, (hmoved p).1 ⟨i, onNetif_iff.mpr ⟨hm, hi⟩, hp⟩]
      · have hno : ¬ ownedOn b n p := by
          rintro ⟨j, hj, hjp⟩
          obtain rfl := hreg.pcb_inj hp hjp
          exact hmn (Option.some.inj (hm.symm.trans (onNetif_iff.mp hj).1))
        rw [if_neg hmn, (hmoved p).2 hno, hip]
    · by_cases hown : ownedOn b n p
      · rw [(hmoved p).1 hown]
        exact hport
      · rw [(hmoved p).2 hown]
        exact hport

/-- A blocked socket stays where it is, and that is not the new address. -/
theorem setIp_blocked (hreg : b.Registry l) (hc : NoCompete b.udp) (h : Follows b opened) {n : NetifPtr}
    {val : ip_addr_t} {p : PcbPtr} (hown : ownedOn b n p) (hblocked : blocked b.udp p val = true)
    (opened' : SlotIdx → UInt16) : ¬ Follows (setIp b n val) opened' := by
  intro h'
  obtain ⟨i, hi, hp⟩ := hown
  obtain ⟨hnet, huse⟩ := onNetif_iff.mp hi
  have hstay : (setIp b n val).udp.pcbs p = b.udp.pcbs p := by
    rcases setIp_pcbs hreg (h.portsDiffer hreg hc n) val p with ⟨-, hfree, -⟩ | ⟨-, heq⟩
    · rw [hblocked] at hfree
      cases hfree
    · exact heq
  obtain ⟨q, m, hq, hm, hip, -⟩ := h' i (by rw [setIp_slots]; exact huse)
  rw [setIp_slots] at hq hm
  obtain rfl : p = q := Option.some.inj (hp.symm.trans hq)
  obtain rfl : n = m := Option.some.inj (hnet.symm.trans hm)
  rw [hstay, setIp_ip, if_pos rfl] at hip
  -- Nothing blocks a control block at the address it already has.
  have hfree : blocked b.udp p val = false := by
    rw [blocked_eq_false, ← hip]
    intro r hr
    refine hc p ?_ r hr
    rw [hreg.wf.list_eq]
    exact (hreg.owned i p hp).1
  rw [hblocked] at hfree
  cases hfree

end SetIp

/-! ## Commands -/

structure Good (f : Firmware) (opened : SlotIdx → UInt16) : Prop where
  inv : Inv f
  apart : NoCompete f.board.udp
  follows : Follows f.board opened

/-- What a command leaves, with the ports of the sockets that it opens. -/
def Kept (f : Firmware) (opened : SlotIdx → UInt16) (c : Command) (f' : Firmware) : Prop :=
  NoCompete f'.board.udp ∧
    Follows f'.board (fun i => if (f.board.s_listeners i).in_use = true then opened i else askedPort c)

section Exec

variable {f : Firmware} {opened : SlotIdx → UInt16}

/-- A command after which only slots are in use that were in use before. -/
theorem Kept.of_follows {f' : Firmware} (c : Command) (hc : NoCompete f'.board.udp)
    (hf : Follows f'.board opened)
    (hu : ∀ i, (f'.board.s_listeners i).in_use = true → (f.board.s_listeners i).in_use = true) :
    Kept f opened c f' := by
  refine ⟨hc, fun i hi => ?_⟩
  dsimp only
  rw [if_pos (hu i hi)]
  exact hf i hi

theorem Good.steady (h : Good f opened) {f' : Firmware} (c : Command) (hs : Steady f.board f'.board) :
    Kept f opened c f' := by
  refine Kept.of_follows c (h.apart.of_steady hs) (h.follows.of_steady hs) (fun i hi => ?_)
  rwa [(hs.slots i).1] at hi

theorem Good.closes (h : Good f opened) {f' : Firmware} (c : Command) (hs : Closes f.board f'.board) :
    Kept f opened c f' := by
  refine Kept.of_follows c (h.apart.of_closes hs) (h.follows.of_closes hs) (fun i hi => ?_)
  rwa [← hs.slots i hi]

theorem Good.netifAdd (h : Good f opened) (env : Env) (ip mask gw : ip_addr_t) (c : Command) :
    Kept f opened c (netifAdd f env ip mask gw).1 := by
  have hboard : (Firmware.netifAdd f env ip mask gw).1.board = (net_if_add f.board ip mask gw env.alloc).1 := by
    unfold Firmware.netifAdd
    dsimp only
    split <;> rfl
  obtain ⟨hudp, hslots⟩ := net_if_add_sockets f.board ip mask gw env.alloc
  refine Kept.of_follows c ?_ ?_ (fun i hi => ?_)
  · rw [hboard, hudp]
    exact h.apart
  · rw [hboard]
    exact h.follows.netIfAdd h.inv.board ip mask gw env.alloc
  · rwa [hboard, hslots] at hi

theorem Good.netifDel (h : Good f opened) (idx : Int) (c : Command) : Kept f opened c (netifDel f idx).1 := by
  refine h.closes c ?_
  unfold Firmware.netifDel
  split
  · exact .refl _
  · rename_i n hn
    dsimp only
    split <;> exact net_if_remove_closes h.inv.board (by_index_mem hn)

theorem Good.sockClose (h : Good f opened) (idx nth : Int) (c : Command) : Kept f opened c (sockClose f idx nth).1 := by
  obtain ⟨l, hl⟩ := h.inv.board.registry
  refine h.closes c ?_
  unfold Firmware.sockClose
  split
  · exact .refl _
  · split
    · exact .refl _
    · exact remove_listener_closes hl _

theorem Good.sockOpen (h : Good f opened) (idx port : Int) : Kept f opened (.sock_open idx port) (sockOpen f idx port).1 := by
  obtain ⟨l, hl⟩ := h.inv.board.registry
  unfold Firmware.sockOpen
  split
  · exact h.steady _ (.refl _)
  · rename_i hrange
    split
    · exact h.steady _ (.refl _)
    · rename_i n _
      have hport : UInt16.ofNat port.toNat ≠ 0 := by
        intro h0
        have := congrArg UInt16.toNat h0
        simp only [UInt16.toNat_ofNat', UInt16.toNat_zero] at this
        omega
      have hopen := And.intro (h.apart.add_listener hl (some n) (UInt16.ofNat port.toNat) (some 0))
        (open_follows hl h.follows n hport 0)
      dsimp only
      split <;> exact hopen

/-- NETIF SET: the new address of an interface is the one case that can go wrong. -/
theorem Good.netifSet (h : Good f opened) (idx : Int) (field : Text) (val : ip_addr_t)
    (hclear : ¬ Clashes f.board (.netif_set idx field val)) :
    Kept f opened (.netif_set idx field val) (netifSet f idx field val).1 := by
  obtain ⟨l, hl⟩ := h.inv.board.registry
  unfold Firmware.netifSet
  split
  · exact h.steady _ (.refl _)
  · rename_i n hn
    have hother : ∀ g : netif → netif, (∀ x, (g x).ip_addr = x.ip_addr) →
        Closes f.board { f.board with net := f.board.net.modify n g } := by
      intro g hg
      refine ⟨fun m => ?_, rfl, fun _ hp => hp, fun _ _ => rfl⟩
      by_cases hm : m = n
      · subst hm
        simp [Net.modify, hg]
      · simp [Net.modify, hm]
    split
    · rename_i hfield
      have hfree : ∀ p, ownedOn f.board n p → blocked f.board.udp p val = false := by
        rintro p ⟨i, hi, hp⟩
        by_contra hb
        exact hclear ⟨hfield, n, hn, i, p, hi, hp, by simpa using hb⟩
      obtain ⟨hc, hf⟩ := setIp_follows hl h.apart h.follows hfree
      refine Kept.of_follows _ hc hf (fun i hi => ?_)
      rwa [Firmware.setBoard, setIp_slots] at hi
    · split
      · exact h.closes _ (hother _ (fun _ => rfl))
      · split
        · exact h.closes _ (hother _ (fun _ => rfl))
        · exact h.steady _ (.refl _)

theorem Good.exec (h : Good f opened) (env : Env) (c : Command) (hclear : ¬ Clashes f.board c) :
    Kept f opened c (c.exec f env).1 := by
  cases c with
  | netif_list => exact h.steady _ (.refl _)
  | netif_add ip mask gw => exact h.netifAdd env ip mask gw _
  | netif_del idx => exact h.netifDel idx _
  | netif_set idx field val => exact h.netifSet idx field val hclear
  | sock_open idx port => exact h.sockOpen idx port
  | sock_close idx nth => exact h.sockClose idx nth _
  | ping idx target => exact h.steady _ (pingOnce_steady h.inv env idx target)
  | scan idx => exact h.steady _ (scanOn_steady h.inv env idx)
  | arp_reset => exact h.steady _ (.of_arpOnly _ ⟨_, rfl, fun _ hS => hS.cleanup_netifs _⟩)
  | udp_send idx nth dst port data => exact h.steady _ (udpSend_steady h.inv env idx nth dst port data)
  | bad_args name => exact h.steady _ (.refl _)
  | unknown => exact h.steady _ (.refl _)

/-- A clash is answered OK and leaves a socket behind. -/
theorem Good.clash (h : Good f opened) (env : Env) {c : Command} (hc : Clashes f.board c) (opened' : SlotIdx → UInt16) :
    endsInOk (c.exec f env).2 ∧ ¬ Follows (c.exec f env).1.board opened' := by
  obtain ⟨l, hl⟩ := h.inv.board.registry
  cases c with
  | netif_set idx field val =>
    obtain ⟨rfl, n, hn, i, p, hi, hp, hb⟩ := hc
    have hset : Firmware.netifSet f idx "IP".toList val = (f.setBoard (setIp f.board n val), cmd_out "#END NETIFSET OK\r\n") := by
      unfold Firmware.netifSet
      rw [hn]
      exact if_pos rfl
    constructor
    · show endsInOk (beginLine "NETIFSET" ++ (Firmware.netifSet f idx "IP".toList val).2)
      rw [hset]
      exact ⟨beginLine "NETIFSET", "NETIFSET".toList, rfl⟩
    · show ¬ Follows (Firmware.netifSet f idx "IP".toList val).1.board opened'
      rw [hset]
      exact setIp_blocked hl h.apart h.follows ⟨i, hi, hp⟩ hb opened'
  | _ => exact hc.elim

end Exec

/-! ## Runs -/

theorem Good.line {f : Firmware} {opened : SlotIdx → UInt16} (h : Good f opened) (x : Env × Text)
    (hclear : ¬ Clashes f.board (parse x.1 x.2)) : Good (console.step f x) (noteOpened opened f x) := by
  obtain ⟨hc, hf⟩ := h.exec x.1 (parse x.1 x.2) hclear
  have hstep : console.step f x = ((parse x.1 x.2).exec f x.1).1 := congrArg Prod.fst (dispatch_eq f x.1 x.2)
  refine ⟨h.inv.dispatch x.1 x.2, by rw [hstep]; exact hc, fun i hi => ?_⟩
  have hnote : noteOpened opened f x i =
      if (f.board.s_listeners i).in_use = true then opened i else askedPort (parse x.1 x.2) := by
    unfold noteOpened
    rw [hi]
    cases (f.board.s_listeners i).in_use <;> simp
  rw [hnote]
  rw [hstep] at hi ⊢
  exact hf i hi

theorem boot_good (c : Boot) : Good (boot c) (fun _ => 0) := by
  refine ⟨boot_inv c, boot_noCompete c, fun i hi => ?_⟩
  rw [show (boot c).board.s_listeners = fun _ => .zero from boot_slots c] at hi
  cases hi

/-- The ports that the sockets were opened with, after the lines. -/
def openedBy (c : Boot) (ls : List (Env × Text)) : SlotIdx → UInt16 :=
  console.record noteOpened (fun _ => 0) (boot c) ls

/-- After every line of the run that is answered OK the sockets follow, exactly if no line clashes. -/
theorem sockets_follow_iff (c : Boot) (ls : List (Env × Text)) :
    (∀ pre x post, ls = pre ++ x :: post → endsInOk (cmd_dispatch (console.run (boot c) pre) x.1 x.2).2 →
      Follows (console.run (boot c) (pre ++ [x])).board (openedBy c (pre ++ [x]))) ↔
    ∀ pre x post, ls = pre ++ x :: post → ¬ Clashes (console.run (boot c) pre).board (parse x.1 x.2) := by
  have hsnoc : ∀ pre x, console.run (boot c) (pre ++ [x]) = console.step (console.run (boot c) pre) x ∧
      openedBy c (pre ++ [x]) = noteOpened (openedBy c pre) (console.run (boot c) pre) x := by
    intro pre x
    exact ⟨Lib.Machine.run_append _ _ _ _, Lib.Machine.record_append _ _ _ _ _ _⟩
  -- Along a run without a clash the invariant holds.
  have hgood : ∀ pre : List (Env × Text), (∀ p x q, pre = p ++ x :: q →
      ¬ Clashes (console.run (boot c) p).board (parse x.1 x.2)) → Good (console.run (boot c) pre) (openedBy c pre) := by
    intro pre
    induction pre using List.reverseRecOn with
    | nil => exact fun _ => boot_good c
    | append_singleton pre x ih =>
      intro hclear
      have hpre := ih (fun p y q hpq => hclear p y (q ++ [x]) (by rw [hpq]; simp))
      rw [(hsnoc pre x).1, (hsnoc pre x).2]
      exact hpre.line x (hclear pre x [] rfl)
  constructor
  · intro hfollow pre x post hls hclash
    -- The first clash comes after a run without one.
    have hfirst : ∀ pre x post, ls = pre ++ x :: post →
        Good (console.run (boot c) pre) (openedBy c pre) → ¬ Clashes (console.run (boot c) pre).board (parse x.1 x.2) := by
      intro pre x post hls hg hclash
      obtain ⟨hok, hnot⟩ := hg.clash x.1 hclash (openedBy c (pre ++ [x]))
      rw [← dispatch_eq] at hok hnot
      have := hfollow pre x post hls hok
      rw [(hsnoc pre x).1] at this
      exact hnot this
    have hall : ∀ pre post, ls = pre ++ post → Good (console.run (boot c) pre) (openedBy c pre) := by
      intro pre
      induction pre using List.reverseRecOn with
      | nil => exact fun _ _ => boot_good c
      | append_singleton pre x ih =>
        intro post hls
        have hg := ih (x :: post) (by rw [hls]; simp)
        rw [(hsnoc pre x).1, (hsnoc pre x).2]
        exact hg.line x (hfirst pre x post (by rw [hls]; simp) hg)
    exact hfirst pre x post hls (hall pre (x :: post) hls) hclash
  · intro hclear pre x post hls _
    refine (hgood (pre ++ [x]) (fun p y q hpq => hclear p y (q ++ post) ?_)).follows
    rw [hls, show pre ++ x :: post = (pre ++ [x]) ++ post by simp, hpq]
    simp

/-- The alias is given the address of the physical interface while both have a socket on port 5000. -/
def clashingLines : List (Env × Text) :=
  [(sampleEnv, "NETIF ADD 10.0.0.20 255.255.255.0 10.0.0.1".toList), (sampleEnv, "SOCK OPEN 1 5000".toList),
    (sampleEnv, "SOCK OPEN 2 5000".toList)]

theorem sockets_left_behind :
    ¬ (endsInOk (cmd_dispatch (console.run (boot (.main ethzero true)) clashingLines) sampleEnv
        "NETIF SET 1 IP 10.0.0.10".toList).2 →
      Follows (console.run (boot (.main ethzero true))
          (clashingLines ++ [(sampleEnv, "NETIF SET 1 IP 10.0.0.10".toList)])).board
        (openedBy (.main ethzero true) (clashingLines ++ [(sampleEnv, "NETIF SET 1 IP 10.0.0.10".toList)]))) := by
  intro h
  have hok : (cmd_dispatch (console.run (boot (.main ethzero true)) clashingLines) sampleEnv
      "NETIF SET 1 IP 10.0.0.10".toList).2 =
      "#BEGIN NETIFSET\r\n".toList ++ "#END ".toList ++ "NETIFSET".toList ++ " OK\r\n".toList := by decide
  obtain ⟨p, n, hp, hn, hip, -⟩ := h ⟨_, _, hok⟩ 0 (by decide)
  obtain rfl : p = 18 := Option.some.inj (hp.symm.trans (by decide))
  obtain rfl : n = .alias_list 0 := Option.some.inj (hn.symm.trans (by decide))
  exact absurd hip (by decide)

end MultiIp.Firmware
