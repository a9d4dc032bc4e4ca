import MultiIp.Board.Interfaces

/-!
# Every run from start-up

The two invariants hold when the main loop starts and are kept by every step.
-/

namespace MultiIp.Board

open Lwip Lib

/-! ## Start-up -/

theorem boot_udp (c : Boot) : (boot c).udp = (LocatorConfig { reset with udp := .init } c.macAddress c.appTitle).udp := by
  have hcore : (lwIPCoreInit reset c.macAddress).1.udp = Udp.init := rfl
  have hadd : ∀ err, (lwIPNetifAdd (lwIPCoreInit reset c.macAddress).1 c.ip_ana c.netmask_ana c.gateway_ana true
      err c.alloc).1.udp = Udp.init := by
    intro err
    unfold lwIPNetifAdd
    split
    · exact hcore
    · split <;> exact hcore
  unfold boot LocatorConfig
  dsimp only
  rw [hadd]
  split <;> rfl

theorem LocatorConfig_frame (b : Board) (mac : eth_addr) (title : List UInt8) :
    (LocatorConfig b mac title).s_listeners = b.s_listeners ∧ (LocatorConfig b mac title).net = b.net ∧
      (LocatorConfig b mac title).used = b.used ∧
      (LocatorConfig b mac title).lwIPCoreReady = b.lwIPCoreReady := by
  unfold LocatorConfig
  dsimp only
  split <;> exact ⟨rfl, rfl, rfl, rfl⟩

theorem boot_slots (c : Boot) : (boot c).s_listeners = fun _ => .zero := by
  unfold boot
  dsimp only
  rw [(LocatorConfig_frame _ _ _).1]
  unfold lwIPNetifAdd
  split
  · rfl
  · split <;> rfl

/-- At start-up the list holds the locator's control block and nothing else. -/
theorem boot_registry (c : Boot) : ∃ l, (boot c).Registry l := by
  unfold Registry
  rw [boot_slots, boot_udp]
  unfold LocatorConfig
  dsimp only
  rcases udp_new_spec Udp.Wf.init with ⟨hempty, -⟩ | ⟨p, u, hnew, hwf, -⟩
  · exact absurd hempty (by decide)
  · rw [hnew]
    dsimp only
    have hrecv : (udp_recv u p .LocatorReceive 0).Wf [p] [] := hwf.modify p _
    rcases udp_bind_new hrecv IPADDR_ANY 23 with ⟨v, port, hbind, hv, hport, -, -, hpcbs⟩ | ⟨v, -, -, -, hclash⟩
    · rw [hbind]
      have hv23 : (v.pcbs p).local_port ≠ 0 := by
        rw [hpcbs]
        simpa using hport
      have hvr : (v.pcbs p).recv = some .LocatorReceive := by
        rw [hpcbs]
        simp [udp_recv, Udp.modify]
      rw [udp_connect_bound hv (by simp) hv23]
      dsimp only
      refine ⟨[p], hv.modify p _, fun i => ?_, fun i q hi => ?_, fun q hq => ?_, p, by simp, ?_, fun q hq hne => ?_⟩
      · simp [udp_listener_t.zero]
      · simp [udp_listener_t.zero] at hi
      · obtain rfl : q = p := by simpa using hq
        simpa [Udp.modify] using hv23
      · simpa [Udp.modify] using hvr
      · exact absurd (by simpa using hq) hne
    · obtain ⟨q, hq, -⟩ := hclash (by decide)
      cases hq

/-- The physical interface as `lwIPNetifAdd` leaves it. -/
def bootNetif (c : Boot) : netif where
  ip_addr := c.ip_ana
  netmask := c.netmask_ana
  gw := c.gateway_ana
  output := some .etharp_output
  linkoutput := some .hdkif_output
  state := .hdkif_data 0
  mtu := 1514
  hwaddr_len := 6
  hwaddr := c.macAddress
  flags := upFlags

/-- What start-up leaves in the interface part of the state. -/
structure BootNet (c : Boot) (b : Board) : Prop where
  next : b.net.next = Function.update (fun _ => none) .phys none
  netif_list : b.net.netif_list = some .phys
  default : b.net.netif_default = some .phys
  phys : b.net.netifs .phys = bootNetif c
  arp : b.net.arp.arp_table = fun _ => .zero
  ready : b.lwIPCoreReady = true
  used : b.used = fun _ => false

theorem boot_net (c : Boot) : BootNet c (boot c) := by
  have harp : ∀ a : Arp, (etharp_gratuitous a .phys (bootNetif c) c.alloc).1.arp_table = a.arp_table := by
    intro a
    unfold etharp_gratuitous etharp_request etharp_raw
    split <;> rfl
  have hadd : BootNet c (lwIPNetifAdd (lwIPCoreInit reset c.macAddress).1 c.ip_ana c.netmask_ana c.gateway_ana true
      (if c.connected then .ERR_OK else .ERR_CONN) c.alloc).1 := by
    unfold lwIPNetifAdd
    rw [if_neg (by simp [lwIPCoreInit, reset]), netif_add_ok _ _ _ _ _ _ _
      (fun x => by cases c.connected <;> simp [hdkif_init])]
    dsimp only [if_true]
    rw [netif_set_up_down (x := bootNetif c) ?_ ?_ ?_ ?_]
    · refine ⟨rfl, rfl, rfl, ?_, harp _, rfl, rfl⟩
      simp
    · simp only [netif_set_default, if_true, Function.update_self, hdkif_init, netif.has]
      decide
    · simp [netif_set_default, hdkif_init, lwIPCoreInit, reset, bootNetif, upFlags]
    · simp only [netif.has, bootNetif]
      decide
    · simp only [netif.has, bootNetif]
      decide
  have hloc := LocatorConfig_frame (lwIPNetifAdd (lwIPCoreInit reset c.macAddress).1 c.ip_ana c.netmask_ana
    c.gateway_ana true (if c.connected then .ERR_OK else .ERR_CONN) c.alloc).1 c.macAddress c.appTitle
  unfold boot
  refine ⟨?_, ?_, ?_, ?_, ?_, ?_, ?_⟩
  · rw [hloc.2.1]; exact hadd.next
  · rw [hloc.2.1]; exact hadd.netif_list
  · rw [hloc.2.1]; exact hadd.default
  · rw [hloc.2.1]; exact hadd.phys
  · rw [hloc.2.1]; exact hadd.arp
  · rw [hloc.2.2.2]; exact hadd.ready
  · rw [hloc.2.2.1]; exact hadd.used

/-! ## Steps -/

theorem step_registry (b : Board) (a : Action) (h : ∃ l, b.Registry l) : ∃ l, (step b a).Registry l := by
  obtain ⟨l, h⟩ := h
  cases a with
  | add_listener n port cell => exact add_listener_registry h _ _ _
  | remove_listener id => exact remove_listener_registry h id
  | remove_all_on_netif n => exact remove_all_registry h n
  | netif_ip_changed n => exact ⟨l, netif_ip_changed_registry h n⟩
  | data_send id n ip port data len alloc out => exact ⟨l, data_send_registry h _ _ _ _ _ _ _ _⟩
  | poll_rx id msg => exact ⟨l, poll_rx_registry h id msg⟩
  | rx_callback arg p addr port => exact ⟨l, rx_callback_registry h _ _ _ _⟩
  | udp_input inp d alloc out => exact udp_input_registry h _ _ _ _
  | net_if_add ip mask gw alloc =>
    refine ⟨l, ?_⟩
    simp only [step, Registry]
    rw [(net_if_add_sockets b ip mask gw alloc).1, (net_if_add_sockets b ip mask gw alloc).2]
    exact h
  | net_if_remove n => exact net_if_remove_registry h (some n)
  | set_ipaddr n ip => exact ⟨l, h⟩
  | set_netmask n mask => exact ⟨l, h⟩
  | set_gw n gw => exact ⟨l, h⟩
  | arp_input f => exact ⟨l, h⟩

theorem step_netInv (b : Board) (a : Action) (h : ∃ l, NetInv b l) (ha : allowed b a) :
    ∃ l, NetInv (step b a) l := by
  obtain ⟨l, h⟩ := h
  -- A socket opened by the step is on an interface of the list.
  have hsock : ∀ i, ((step b a).s_listeners i).in_use = true →
      ((b.s_listeners i).in_use = true ∧ ((step b a).s_listeners i).netif = (b.s_listeners i).netif) ∨
      ∃ n ∈ l, ((step b a).s_listeners i).netif = some n := by
    intro i hi
    rcases (step_slot b a i).netif_eq hi with hkeep | ⟨hsome, heq⟩
    · exact Or.inl hkeep
    · obtain ⟨n, hn⟩ := Option.isSome_iff_exists.mp hsome
      have hmem := ha n hn
      rw [h.list_eq] at hmem
      exact Or.inr ⟨n, hmem, by rw [heq, hn]⟩
  cases a with
  | add_listener n port cell => exact ⟨l, h.transfer (add_listener_same _ _ _ _) hsock⟩
  | remove_listener id => exact ⟨l, h.transfer (remove_listener_same _ _) hsock⟩
  | remove_all_on_netif n => exact ⟨l, h.transfer (remove_all_same _ _) hsock⟩
  | netif_ip_changed n => exact ⟨l, h.transfer (netif_ip_changed_same _ _) hsock⟩
  | data_send id n ip port data len alloc out =>
    exact ⟨l, h.transfer (data_send_same _ _ _ _ _ _ _ _ _) hsock⟩
  | poll_rx id msg => exact ⟨l, h.transfer (poll_rx_same _ _ _) hsock⟩
  | rx_callback arg p addr port => exact ⟨l, h.transfer (rx_callback_same _ _ _ _ _) hsock⟩
  | udp_input inp d alloc out => exact ⟨l, h.transfer (udp_input_same _ _ _ _ _) hsock⟩
  | net_if_add ip mask gw alloc => exact net_if_add_netInv h ip mask gw alloc
  | net_if_remove n =>
    have hmem := ha n rfl
    rw [h.list_eq] at hmem
    exact net_if_remove_netInv h hmem
  | set_ipaddr n ip => exact ⟨l, h.transfer (set_addr_same b n _ (fun _ => rfl)) hsock⟩
  | set_netmask n mask => exact ⟨l, h.transfer (set_addr_same b n _ (fun _ => rfl)) hsock⟩
  | set_gw n gw => exact ⟨l, h.transfer (set_addr_same b n _ (fun _ => rfl)) hsock⟩
  | arp_input f => exact ⟨l, arp_input_netInv h f⟩

/-! ## Runs -/

/-- Both invariants. -/
structure Inv (b : Board) : Prop where
  registry : ∃ l, b.Registry l
  net : ∃ l, NetInv b l

theorem boot_inv (c : Boot) : Inv (boot c) := by
  refine ⟨boot_registry c, [.phys], ?_⟩
  have h := boot_net c
  refine ⟨?_, fun n => ?_, h.default, h.ready, fun n hn => ?_, ?_, ?_, fun i hi => ?_, ?_⟩
  · rw [h.next, h.netif_list]
    exact ⟨rfl, rfl⟩
  · rw [h.used]
    simp
  · obtain rfl : n = .phys := by simpa using hn
    rfl
  · rw [h.phys]
    rfl
  · rw [h.phys]
    rfl
  · rw [boot_slots] at hi
    cases hi
  · exact Arp.StableIn.init.of_table h.arp

theorem step_inv (b : Board) (a : Action) (h : Inv b) (ha : allowed b a) : Inv (step b a) :=
  ⟨step_registry b a h.registry, step_netInv b a h.net ha⟩

theorem reachable_inv (c : Boot) {as : List Action} (h : machine.Legal (boot c) as) :
    Inv (machine.run (boot c) as) :=
  Lib.Machine.run_invariant step_inv (boot_inv c) h

/-! ## The registry -/

/-- How many control blocks are taken from the pool. -/
def pcbsTaken (b : Board) : Nat := MEMP_NUM_UDP_PCB - b.udp.memp.length

def slotsInUse (b : Board) : Nat := (List.finRange UDP_MAX_LISTENERS).countP (fun i => (b.s_listeners i).in_use)

structure RegistryOk (b : Board) : Prop where
  /-- `udp_pcbs` ends in NULL, and `list` is all of it. -/
  list_ends : Chain b.udp.next b.udp.udp_pcbs b.udp.list
  in_use_iff : ∀ i, (b.s_listeners i).in_use = true ↔ (b.s_listeners i).pcb ≠ none
  owned : ∀ i p, (b.s_listeners i).in_use = true → (b.s_listeners i).pcb = some p →
    b.udp.list.count p = 1 ∧ (b.udp.pcbs p).recv = some .udp_rx_callback ∧ (b.udp.pcbs p).recv_arg = i ∧
      (b.udp.pcbs p).local_port ≠ 0
  distinct : ∀ i j, i ≠ j → (b.s_listeners i).in_use = true → (b.s_listeners j).in_use = true →
    (b.s_listeners i).pcb ≠ (b.s_listeners j).pcb
  owner : ∀ p ∈ b.udp.list, (b.udp.pcbs p).recv = some .udp_rx_callback →
    ∃! i, (b.s_listeners i).in_use = true ∧ (b.s_listeners i).pcb = some p
  taken : pcbsTaken b = slotsInUse b + 1
  /-- An id that resolves names a slot whose control block can be dereferenced. -/
  resolved : ∀ id i, resolve b id = some i → (b.s_listeners i).pcb ≠ none

theorem Registry.ok {b : Board} {l : List PcbPtr} (h : b.Registry l) : RegistryOk b := by
  have hlist := h.wf.list_eq
  have hiff : ∀ i, (b.s_listeners i).in_use = true ↔ (b.s_listeners i).pcb ≠ none := fun i => by
    rw [h.in_use_iff, Option.ne_none_iff_exists']
  refine ⟨by rw [hlist]; exact h.wf.chain, hiff, fun i p _ hp => ?_, fun i j hij hi _ heq => ?_, fun p hp hr => ?_,
    ?_, fun id i hres => (hiff i).mp (resolve_in_use hres)⟩
  · obtain ⟨hmem, hr, ha⟩ := h.owned i p hp
    rw [hlist]
    exact ⟨List.count_eq_one_of_mem h.wf.list_nodup hmem, hr, ha, h.port p hmem⟩
  · obtain ⟨p, hp⟩ := (h.in_use_iff i).mp hi
    exact hij (h.pcb_inj hp (by rw [← heq, hp]))
  · obtain ⟨q, -, hqr, hrest⟩ := h.locator
    rw [hlist] at hp
    have hne : p ≠ q := by
      rintro rfl
      rw [hqr] at hr
      cases hr
    obtain ⟨i, hi⟩ := hrest p hp hne
    exact ⟨i, ⟨(h.in_use_iff i).mpr ⟨p, hi⟩, hi⟩, fun j hj => h.pcb_inj hj.2 hi⟩
  · have hlen := h.wf.length_eq
    have hcount := RegInv.count_in_use h
    simp only [List.length_nil, Nat.zero_add] at hlen
    unfold pcbsTaken slotsInUse
    omega

/-- A run that opens a socket, gets a datagram, moves the socket's interface and closes the socket. -/
def sampleRun : List Action :=
  [.net_if_add 0x0a000014 0xffffff00 0x0a000001 true, .add_listener (.alias_list 0) 5000 (some 0),
    .rx_callback 0 (some ⟨[[104, 105]], 2, rfl⟩) 0x0a000001 7000, .set_ipaddr (.alias_list 0) 0x0a000015,
    .netif_ip_changed (some (.alias_list 0)), .net_if_remove (.alias_list 0)]

structure InterfacesOk (b : Board) : Prop where
  /-- `netif_list` ends in NULL, and `list` is all of it. -/
  list_ends : Chain b.net.next b.net.netif_list b.net.list
  nodup : b.net.list.Nodup
  members : ∀ n, n ∈ b.net.list ↔ n = .phys ∨ ∃ i, n = .alias_list i ∧ b.used i = true
  default : b.net.netif_default = some .phys
  shares : ∀ i, b.used i = true →
    (b.net.netifs (.alias_list i)).state = (b.net.netifs .phys).state ∧
    (b.net.netifs (.alias_list i)).output = (b.net.netifs .phys).output ∧
    (b.net.netifs (.alias_list i)).linkoutput = (b.net.netifs .phys).linkoutput ∧
    (b.net.netifs (.alias_list i)).hwaddr = (b.net.netifs .phys).hwaddr
  up : ∀ i, b.used i = true →
    netif_is_up (b.net.netifs (.alias_list i)) = true ∧
    (b.net.netifs (.alias_list i)).has NETIF_FLAG_LINK_UP = true
  sockets : ∀ i, (b.s_listeners i).in_use = true → ∃ n ∈ b.net.list, (b.s_listeners i).netif = some n
  arp : ∀ j, (b.net.arp.arp_table j).state.stable = true →
    ∃ n ∈ b.net.list, (b.net.arp.arp_table j).netif = some n

theorem NetInv.ok {b : Board} {l : List NetifPtr} (h : NetInv b l) : InterfacesOk b := by
  have hlist := h.list_eq
  refine ⟨?_, ?_, ?_, h.default, fun i hi => ?_, fun i hi => ?_, ?_, fun j hj => ?_⟩
  · rw [hlist]
    exact h.chain
  · exact h.list_nodup
  · rw [hlist]
    exact h.members
  · have hw := h.shares _ ((h.alias_mem i).mpr hi)
    simp only [hardware, netif.mk.injEq, true_and] at hw
    obtain ⟨hout, hlink, hstate, -, -, haddr, -⟩ := hw
    exact ⟨hstate, hout, hlink, haddr⟩
  · have hf := h.flags_eq ((h.alias_mem i).mpr hi)
    simp only [netif_is_up, netif.has, hf]
    decide
  · rw [hlist]
    exact h.sockets
  · obtain ⟨n, hn, hmem⟩ := h.arp j hj
    rw [hlist]
    exact ⟨n, hmem, hn⟩

/-- In every reachable state the list, the alias pool, the sockets and the ARP table agree. -/
theorem interfaces_always (c : Boot) (as : List Action) (h : machine.Legal (boot c) as) :
    InterfacesOk (machine.run (boot c) as) := by
  obtain ⟨l, hl⟩ := (reachable_inv c h).net
  exact hl.ok

theorem interfaces_always_sample :
    machine.Legal (boot (.main ethzero true)) sampleRun ∧
      InterfacesOk (machine.run (boot (.main ethzero true)) sampleRun) :=
  ⟨by decide, interfaces_always _ _ (by decide)⟩

end MultiIp.Board
