import MultiIp.Board.Bindings
import MultiIp.Board.StaleIds

/-!
# Ids of open sockets

An id keeps naming its socket until the socket is closed. Nothing that is done
to other sockets disturbs it.
-/

namespace MultiIp.Board

open Lwip Lib

/-! ## Distinct ids -/

theorem make_id_toNat (b : Board) (i : SlotIdx) :
    (make_id b i).toNat = (b.s_listeners i).generation_count.toNat * 256 + i := id_toNat _ i

theorem make_id_ne_invalid (b : Board) (i : SlotIdx) : make_id b i ≠ UDP_SOCK_ID_INVALID := by
  intro h
  have hnat := congrArg UInt16.toNat h
  have hi := slot_lt i
  rw [make_id_toNat, show UDP_SOCK_ID_INVALID.toNat = 65535 from rfl] at hnat
  omega

theorem make_id_inj {b b' : Board} {i j : SlotIdx} (h : make_id b i = make_id b' j) :
    i = j ∧ (b.s_listeners i).generation_count = (b'.s_listeners j).generation_count := by
  have hnat := congrArg UInt16.toNat h
  have hi := slot_lt i
  have hj := slot_lt j
  rw [make_id_toNat, make_id_toNat] at hnat
  refine ⟨Fin.ext (by omega), UInt8.toNat_inj.mp (by omega)⟩

theorem resolve_eq_some {b : Board} {id : udp_sock_id_t} {i : SlotIdx} (h : resolve b id = some i) :
    id = make_id b i := by
  unfold resolve at h
  dsimp only at h
  split at h
  · split at h
    · cases h
    · rename_i hcond
      simp only [Bool.or_eq_true, Bool.not_eq_true', decide_eq_true_eq, not_or, not_not] at hcond
      obtain rfl := Option.some.inj h
      have hid := id.toNat_lt
      have hlow : (id &&& 0xff).toUInt8.toNat = id.toNat % 256 := by
        rw [UInt16.toNat_toUInt8, UInt16.toNat_and, show (0xff : UInt16).toNat = 2 ^ 8 - 1 from rfl,
          Nat.and_two_pow_sub_one_eq_mod]
        omega
      have hhigh : (id >>> 8).toUInt8.toNat = id.toNat / 256 := by
        rw [UInt16.toNat_toUInt8, UInt16.toNat_shiftRight, show (8 : UInt16).toNat % 16 = 8 from rfl,
          Nat.shiftRight_eq_div_pow]
        omega
      apply UInt16.toNat_inj.mp
      rw [make_id_toNat, ← hcond.2, hhigh]
      show id.toNat = id.toNat / 256 * 256 + (id &&& 0xff).toUInt8.toNat
      rw [hlow]
      omega
  · cases h

/-! ## One step -/

/-- The id names the socket in slot `i` with its control block, interface and port. -/
structure Names (b : Board) (id : udp_sock_id_t) (i : SlotIdx) (p : PcbPtr) (n : NetifPtr) (port : UInt16) : Prop where
  resolve : resolve b id = some i
  pcb : (b.s_listeners i).pcb = some p
  netif : (b.s_listeners i).netif = some n
  local_port : (b.udp.pcbs p).local_port = port

/-- The step closes the socket that the id names, or all sockets of its interface. -/
def endsSocket (id : udp_sock_id_t) (n : NetifPtr) : Action → Prop
  | .remove_listener id' => id' = id
  | .remove_all_on_netif m => m = some n
  | .net_if_remove m => m = n ∧ m ≠ .phys
  | _ => False

theorem SlotStep.kept {s s' : udp_listener_t} {on : Option NetifPtr} {d : Option Delivery} {m : Option udp_rx_msg_t}
    (h : SlotStep s on d m s') (hs : s.in_use = true) (hs' : s'.in_use = true) :
    s'.pcb = s.pcb ∧ s'.netif = s.netif ∧ s'.generation_count = s.generation_count := by
  cases h with
  | keep => exact ⟨rfl, rfl, rfl⟩
  | opened p n hn hfree =>
    rw [hs] at hfree
    cases hfree
  | closed hopen => cases hs'
  | received d hopen =>
    unfold receiveSlot
    split <;> exact ⟨rfl, rfl, rfl⟩
  | read hopen hv => exact ⟨rfl, rfl, rfl⟩

theorem onNetif_netif {b : Board} {n m : NetifPtr} {i : SlotIdx} (h : onNetif b m i = true)
    (hn : (b.s_listeners i).netif = some n) : m = n := by
  simp only [onNetif, Bool.and_eq_true, beq_iff_eq] at h
  rw [hn] at h
  exact (Option.some.inj h.1).symm

/-- Only the socket's own id, or the removal of its interface's sockets, closes it. -/
theorem step_in_use {b : Board} {l : List PcbPtr} (hreg : b.Registry l) {id : udp_sock_id_t} {i : SlotIdx}
    {n : NetifPtr} (hres : resolve b id = some i) (hn : (b.s_listeners i).netif = some n) {a : Action}
    (ha : ¬ endsSocket id n a) : ((step b a).s_listeners i).in_use = true := by
  have huse := resolve_in_use hres
  cases a with
  | add_listener m port cell =>
    simp only [step]
    rcases add_listener_slots b m port cell with hs | ⟨j, p, hfree, hs⟩
    · rw [hs]
      exact huse
    · have hne : i ≠ j := by
        rintro rfl
        rw [huse] at hfree
        cases hfree
      rw [hs, Function.update_of_ne hne]
      exact huse
  | remove_listener id' =>
    simp only [step, udp_source_remove_listener]
    split
    · exact huse
    · rename_i j hj
      have hne : i ≠ j := by
        rintro rfl
        exact ha ((resolve_eq_some hj).trans (resolve_eq_some hres).symm)
      rw [remove_slot_slots, Function.update_of_ne hne]
      exact huse
  | remove_all_on_netif m =>
    cases m with
    | none => exact huse
    | some m =>
      simp only [step]
      rw [remove_all_slots, if_neg]
      · exact huse
      · intro hon
        exact ha (congrArg some (onNetif_netif hon hn))
  | netif_ip_changed m =>
    simp only [step]
    rw [netif_ip_changed_slots]
    exact huse
  | data_send id' m ip port data len alloc out =>
    simp only [step]
    rw [data_send_slots]
    exact huse
  | poll_rx id' msg =>
    rcases poll_rx_spec b id' msg with hpoll | ⟨j, -, -, hpoll⟩
    · simp only [step, hpoll]
      exact huse
    · simp only [step, hpoll, modifySlot]
      by_cases hij : i = j
      · subst hij
        rw [Function.update_self]
        exact huse
      · rw [Function.update_of_ne hij]
        exact huse
  | rx_callback arg p addr port =>
    cases p with
    | none =>
      simp only [step]
      rw [rx_callback_none]
      exact huse
    | some p => exact ((rx_callback_steady b arg p addr port).slots i).1.trans huse
  | udp_input inp d alloc out => exact ((udp_input_steady hreg inp d alloc out).slots i).1.trans huse
  | net_if_add ip mask gw alloc =>
    simp only [step]
    rw [(net_if_add_sockets b ip mask gw alloc).2]
    exact huse
  | net_if_remove m =>
    simp only [step, net_if_remove]
    split
    · exact huse
    · rename_i hm
      rw [(lwIPAliasRemove_sockets _ _).2, remove_all_slots, if_neg]
      · exact huse
      · intro hon
        exact ha ⟨onNetif_netif hon hn, hm⟩
  | set_ipaddr m ip => exact huse
  | set_netmask m mask => exact huse
  | set_gw m gw => exact huse
  | arp_input f => exact huse

theorem netif_ip_changed_port {b : Board} {l : List PcbPtr} (hreg : b.Registry l) (n : Option NetifPtr) (p : PcbPtr) :
    ((udp_source_netif_ip_changed b n).udp.pcbs p).local_port = (b.udp.pcbs p).local_port := by
  unfold udp_source_netif_ip_changed
  split
  · rfl
  · rename_i m
    refine (List.foldlRecOn (motive := fun b' : Board => b'.Registry l ∧
      (b'.udp.pcbs p).local_port = (b.udp.pcbs p).local_port) _ _ ⟨hreg, rfl⟩ ?_).2
    rintro b' ⟨hreg', hport⟩ i -
    refine ⟨rebind_slot_registry hreg' m i, ?_⟩
    rcases rebind_slot_eq hreg' m i with ⟨heq, -⟩ | ⟨q, -, -, -, heq⟩
    · rw [heq]
      exact hport
    · rw [heq]
      exact (moveTo_port _ _ _ _).trans hport

theorem add_listener_pcbs {b : Board} {l : List PcbPtr} (hreg : b.Registry l) (n : NetifPtr) (port : UInt16)
    (cell : Option udp_sock_id_t) {p : PcbPtr} (hp : p ∈ l) :
    (udp_source_add_listener b (some n) port cell).1.udp.pcbs p = b.udp.pcbs p := by
  unfold udp_source_add_listener
  cases cell with
  | none => rfl
  | some cell =>
    dsimp only
    split
    · rename_i idx hfind
      have hfree : (b.s_listeners idx).in_use = false := by simpa using List.find?_some hfind
      rcases open_slot_spec hreg hfree n port cell with ⟨u, q, port', heq, hreg', hpcbs, -⟩ | ⟨u, heq, -, hpcbs, -⟩
      · have hne : p ≠ q := by
          rintro rfl
          exact (List.nodup_cons.mp hreg'.wf.list_nodup).1 hp
        rw [heq]
        exact hpcbs p hne
      · rw [heq]
        exact hpcbs p hp
    · rfl

theorem step_port {b : Board} {l : List PcbPtr} (hreg : b.Registry l) (a : Action) {i : SlotIdx} {p : PcbPtr}
    (hp : (b.s_listeners i).pcb = some p) :
    ((step b a).udp.pcbs p).local_port = (b.udp.pcbs p).local_port := by
  cases a with
  | add_listener n port cell =>
    simp only [step]
    rw [add_listener_pcbs hreg n port cell (hreg.owned i p hp).1]
  | remove_listener id =>
    simp only [step]
    rw [(remove_listener_closes hreg id).pcbs]
  | remove_all_on_netif n =>
    cases n with
    | none => rfl
    | some n =>
      simp only [step]
      rw [(remove_all_closes hreg n).pcbs]
  | netif_ip_changed n => exact netif_ip_changed_port hreg n p
  | data_send id n ip port data len alloc out =>
    simp only [step]
    rw [(data_send_steady hreg id n ip port data len alloc out).pcbs]
  | poll_rx id msg =>
    rcases poll_rx_spec b id msg with hpoll | ⟨j, -, -, hpoll⟩
    · simp only [step, hpoll]
    · simp only [step, hpoll, modifySlot]
  | rx_callback arg q addr port =>
    cases q with
    | none =>
      simp only [step]
      rw [rx_callback_none]
    | some q =>
      simp only [step]
      rw [(rx_callback_steady b arg q addr port).pcbs]
  | udp_input inp d alloc out =>
    simp only [step]
    rw [(udp_input_steady hreg inp d alloc out).pcbs]
  | net_if_add ip mask gw alloc =>
    simp only [step]
    rw [(net_if_add_sockets b ip mask gw alloc).1]
  | net_if_remove n =>
    simp only [step, net_if_remove]
    split
    · rfl
    · rw [(lwIPAliasRemove_sockets _ _).1, (remove_all_closes hreg n).pcbs]
  | set_ipaddr n ip => rfl
  | set_netmask n mask => rfl
  | set_gw n gw => rfl
  | arp_input f => rfl

theorem Names.step {b : Board} {l : List PcbPtr} (hreg : b.Registry l) {id : udp_sock_id_t} {i : SlotIdx} {p : PcbPtr}
    {n : NetifPtr} {port : UInt16} (h : Names b id i p n port) {a : Action} (ha : ¬ endsSocket id n a) :
    Names (Board.step b a) id i p n port := by
  have huse' := step_in_use hreg h.resolve h.netif ha
  obtain ⟨hpcb, hnetif, hgen⟩ := (step_slot b a i).kept (resolve_in_use h.resolve) huse'
  refine ⟨?_, hpcb.trans h.pcb, hnetif.trans h.netif, (step_port hreg a h.pcb).trans h.local_port⟩
  rw [resolve_eq_some h.resolve, resolve_make_id, if_pos ⟨huse', hgen.symm⟩]

/-! ## Runs -/

theorem registry_run {b : Board} (h : ∃ l, b.Registry l) (as : List Action) : ∃ l, (machine.run b as).Registry l := by
  induction as generalizing b with
  | nil => exact h
  | cons a as ih => exact ih (step_registry b a h)

/-- Along a run that does not close the socket its id keeps naming it. -/
theorem Names.run {b : Board} (hreg : ∃ l, b.Registry l) {id : udp_sock_id_t} {i : SlotIdx} {p : PcbPtr}
    {n : NetifPtr} {port : UInt16} (h : Names b id i p n port) {bs : List Action}
    (hbs : ∀ a ∈ bs, ¬ endsSocket id n a) : Names (machine.run b bs) id i p n port := by
  induction bs generalizing b with
  | nil => exact h
  | cons a bs ih =>
    obtain ⟨l, hl⟩ := hreg
    exact ih (step_registry b a ⟨l, hl⟩) (h.step hl (hbs a List.mem_cons_self))
      (fun a' ha' => hbs a' (List.mem_cons_of_mem _ ha'))

theorem names_opened {b b' : Board} {l : List PcbPtr} (hreg : b.Registry l) {n : NetifPtr} {port : UInt16}
    {cell id : udp_sock_id_t}
    (h : udp_source_add_listener b (some n) port (some cell) = (b', .ERR_OK, some id)) :
    ∃ i p port', Names b' id i p n port' := by
  unfold udp_source_add_listener at h
  dsimp only at h
  split at h
  · rename_i i hfind
    have hfree : (b.s_listeners i).in_use = false := by simpa using List.find?_some hfind
    rcases open_slot_spec hreg hfree n port cell with ⟨u, p, port', heq, -, -, -, hport, -⟩ | ⟨u, heq, -⟩
    · rw [heq] at h
      simp only [Prod.mk.injEq, Option.some.injEq] at h
      obtain ⟨rfl, -, rfl⟩ := h
      refine ⟨i, p, port', ?_, by simp [openSlot], by simp [openSlot], hport⟩
      rw [resolve_make_id]
      simp [openSlot]
    · rw [heq] at h
      simp at h
  · simp at h

theorem get_socket_id {b : Board} {n : NetifPtr} {j : UInt8} (h : j.toNat < udp_source_count_sockets b n) :
    ∃ i, (socketsOn b n)[j.toNat]? = some i ∧ (udp_source_get_socket b n j).socket_id = make_id b i := by
  have hget : (socketsOn b n)[j.toNat]? = some (socketsOn b n)[j.toNat] := List.getElem?_eq_getElem h
  refine ⟨_, hget, ?_⟩
  unfold udp_source_get_socket
  rw [hget]

/-- From the state in which it was returned until its socket is closed, an id resolves to one slot, with one control
block, interface and port. The ids of the sockets are different in every state. -/
theorem live_id_kept (c : Boot) (as : List Action) :
    (∀ (n : NetifPtr) (port : UInt16) (cell id : udp_sock_id_t) (b : Board),
      udp_source_add_listener (machine.run (boot c) as) (some n) port (some cell) = (b, .ERR_OK, some id) →
      ∃ i p port', Names b id i p n port' ∧
        ∀ bs, (∀ a ∈ bs, ¬ endsSocket id n a) → Names (machine.run b bs) id i p n port') ∧
    (∀ i j, make_id (machine.run (boot c) as) i = make_id (machine.run (boot c) as) j → i = j) ∧
    (∀ i, make_id (machine.run (boot c) as) i ≠ UDP_SOCK_ID_INVALID) ∧
    (∀ n (j : UInt8), j.toNat < udp_source_count_sockets (machine.run (boot c) as) n →
      ∃ i, (socketsOn (machine.run (boot c) as) n)[j.toNat]? = some i ∧
        (udp_source_get_socket (machine.run (boot c) as) n j).socket_id = make_id (machine.run (boot c) as) i) := by
  refine ⟨fun n port cell id b hopen => ?_, fun i j hij => (make_id_inj hij).1, make_id_ne_invalid _,
    fun n j hj => get_socket_id hj⟩
  obtain ⟨l, hl⟩ := registry_run (boot_inv c).registry as
  obtain ⟨i, p, port', hnames⟩ := names_opened hl hopen
  have hb : ∃ l', b.Registry l' := by
    have := add_listener_registry hl (some n) port (some cell)
    rwa [hopen] at this
  exact ⟨i, p, port', hnames, fun bs hbs => hnames.run hb hbs⟩

/-- The first socket while a second one is opened and closed and its own interface gets another address. -/
theorem live_id_kept_sample :
    let b := (udp_source_add_listener (boot (.main ethzero true)) (some .phys) 5000 (some 0)).1
    let bs : List Action :=
      [.add_listener .phys 5001 (some 0), .remove_listener 1, .set_ipaddr .phys 0x0a00000b, .netif_ip_changed (some .phys)]
    resolve b 0 = some 0 ∧ resolve (machine.run b bs) 0 = some 0 ∧
    ∃ i p port', Names b 0 i p .phys port' ∧ Names (machine.run b bs) 0 i p .phys port' := by
  refine ⟨by decide, by decide, ?_⟩
  obtain ⟨i, p, port', hnames, hrun⟩ := (live_id_kept (.main ethzero true) []).1 .phys 5000 0 0 _ rfl
  refine ⟨i, p, port', hnames, hrun _ fun a ha => ?_⟩
  simp only [List.mem_cons, List.not_mem_nil, or_false] at ha
  rcases ha with rfl | rfl | rfl | rfl
  · exact id
  · show ¬ (1 : udp_sock_id_t) = 0
    decide
  · exact id
  · exact id

end MultiIp.Board
