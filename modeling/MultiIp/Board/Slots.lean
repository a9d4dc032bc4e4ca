import MultiIp.Board.Machine
import MultiIp.Board.Registry

/-!
# What a step does to one slot

A step opens the slot, closes it, delivers a datagram to it, reads its mailbox,
or leaves it alone. `step_slot` says so once for all steps.
-/

namespace MultiIp.Board

open Lwip

/-! ## The five changes -/

/-- A datagram as the receive callback gets it. -/
structure Delivery where
  p : pbuf
  addr : ip_addr_t
  port : UInt16
  deriving DecidableEq

def receiveSlot (s : udp_listener_t) (d : Delivery) : udp_listener_t :=
  if s.rx_msg.valid then { s with rx_drop_count := s.rx_drop_count + 1 }
  else { s with rx_msg := rxMessage s.rx_msg d.p d.addr d.port }

def readSlot (s : udp_listener_t) : udp_listener_t :=
  { s with rx_msg := { s.rx_msg with valid := false }, rx_count := s.rx_count + 1 }

/-! ## Deliveries and polls -/

/-- The slot that a callback with this argument writes to. -/
def callbackSlot (b : Board) (arg : Nat) (i : SlotIdx) : Bool :=
  arg % 256 == i.val && (b.s_listeners i).in_use

/-- The datagram that the step hands to the open socket in the slot. -/
def deliveredTo (b : Board) (i : SlotIdx) : Action → Option Delivery
  | .rx_callback arg (some p) addr port => if callbackSlot b arg i then some ⟨p, addr, port⟩ else none
  | .udp_input inp d _ _ =>
    match udp_input_find b.udp (b.net.netifs inp) d with
    | (u, some pcb) =>
      if d.intact && (u.pcbs pcb).recv == some .udp_rx_callback && callbackSlot b (u.pcbs pcb).recv_arg i then
        some ⟨d.payload, d.src_ip, d.src⟩
      else none
    | (_, none) => none
  | _ => none

/-- The message that the step returns from the mailbox of the slot. -/
def polledFrom (b : Board) (i : SlotIdx) : Action → Option udp_rx_msg_t
  | .poll_rx id msg =>
    if resolve b id = some i then
      match udp_source_poll_rx b id msg with
      | (_, true, some m) => some m
      | _ => none
    else none
  | _ => none

/-- How a slot changes in a step on the interface `on`, with what it was given and what was read from it. -/
inductive SlotStep (s : udp_listener_t) (on : Option NetifPtr) :
    Option Delivery → Option udp_rx_msg_t → udp_listener_t → Prop
  | keep : SlotStep s on none none s
  | opened (p : PcbPtr) (n : NetifPtr) (hn : on = some n) (h : s.in_use = false) :
    SlotStep s on none none (openSlot s p n)
  | closed (h : s.in_use = true) : SlotStep s on none none (closeSlot s)
  | received (d : Delivery) (h : s.in_use = true) : SlotStep s on (some d) none (receiveSlot s d)
  | read (h : s.in_use = true) (hv : s.rx_msg.valid = true) : SlotStep s on none (some s.rx_msg) (readSlot s)

/-! ## Closing -/

theorem resolve_in_use {b : Board} {id : udp_sock_id_t} {i : SlotIdx} (h : resolve b id = some i) :
    (b.s_listeners i).in_use = true := by
  unfold resolve at h
  dsimp only at h
  split at h
  · split at h
    · cases h
    · rename_i hcond
      obtain rfl := Option.some.inj h
      simp only [Bool.or_eq_true, Bool.not_eq_true', decide_eq_true_eq, not_or, Bool.not_eq_false] at hcond
      exact hcond.1
  · cases h

theorem remove_slot_slots (b : Board) (idx : SlotIdx) :
    (remove_slot b idx).s_listeners = Function.update b.s_listeners idx (closeSlot (b.s_listeners idx)) := by
  unfold remove_slot
  cases hp : (b.s_listeners idx).pcb with
  | none => simp [modifySlot, closeSlot, hp]
  | some p => simp [modifySlot, closeSlot]

theorem remove_slot_net (b : Board) (idx : SlotIdx) : (remove_slot b idx).net = b.net := by
  unfold remove_slot
  cases (b.s_listeners idx).pcb <;> rfl

theorem onNetif_congr {b b' : Board} {n : NetifPtr} {i : SlotIdx} (h : b'.s_listeners i = b.s_listeners i) :
    onNetif b' n i = onNetif b n i := by
  simp [onNetif, h]

theorem remove_all_foldl (n : NetifPtr) {l : List SlotIdx} (hnd : l.Nodup) (b : Board) (i : SlotIdx) :
    (l.foldl (fun b idx => if onNetif b n idx then remove_slot b idx else b) b).s_listeners i =
      if i ∈ l ∧ onNetif b n i then closeSlot (b.s_listeners i) else b.s_listeners i := by
  induction l generalizing b with
  | nil => simp
  | cons j l ih =>
    obtain ⟨hj, hnd⟩ := List.nodup_cons.mp hnd
    rw [List.foldl_cons, ih hnd]
    by_cases hij : i = j
    · subst hij
      simp only [hj, false_and, if_false, List.mem_cons, true_or, true_and]
      split
      · rw [remove_slot_slots, Function.update_self]
      · rfl
    · have hsame : (if onNetif b n j then remove_slot b j else b).s_listeners i = b.s_listeners i := by
        split
        · rw [remove_slot_slots, Function.update_of_ne hij]
        · rfl
      rw [onNetif_congr hsame, hsame]
      simp [hij]

theorem remove_all_slots (b : Board) (n : NetifPtr) (i : SlotIdx) :
    (udp_source_remove_all_on_netif b (some n)).s_listeners i =
      if onNetif b n i then closeSlot (b.s_listeners i) else b.s_listeners i := by
  unfold udp_source_remove_all_on_netif
  rw [remove_all_foldl n (List.nodup_finRange _)]
  simp

theorem remove_all_net (b : Board) (n : Option NetifPtr) : (udp_source_remove_all_on_netif b n).net = b.net := by
  unfold udp_source_remove_all_on_netif
  split
  · rfl
  · refine List.foldlRecOn (motive := fun b' : Board => b'.net = b.net) _ _ rfl ?_
    intro b' hb' idx _
    split
    · rw [remove_slot_net, hb']
    · exact hb'

/-! ## Opening -/

/-- A failed open leaves the slots alone; a successful one opens the slot and returns its new id. -/
theorem open_slot_slots (b : Board) (idx : SlotIdx) (n : NetifPtr) (port : UInt16) (cell : udp_sock_id_t) :
    ((open_slot b idx n port cell).2.1 ≠ .ERR_OK ∧ (open_slot b idx n port cell).2.2 = cell ∧
      (open_slot b idx n port cell).1.s_listeners = b.s_listeners) ∨
    ∃ p, (open_slot b idx n port cell).2.1 = .ERR_OK ∧
      (open_slot b idx n port cell).2.2 = make_id (open_slot b idx n port cell).1 idx ∧
      (open_slot b idx n port cell).1.s_listeners =
        Function.update b.s_listeners idx (openSlot (b.s_listeners idx) p n) := by
  unfold open_slot
  split
  · exact Or.inl ⟨by simp, rfl, rfl⟩
  · rename_i u p _
    split
    · exact Or.inr ⟨p, rfl, rfl, rfl⟩
    · rename_i v err herr _
      exact Or.inl ⟨herr, rfl, rfl⟩

theorem open_slot_net (b : Board) (idx : SlotIdx) (n : NetifPtr) (port : UInt16) (cell : udp_sock_id_t) :
    (open_slot b idx n port cell).1.net = b.net := by
  unfold open_slot
  split
  · rfl
  · split <;> rfl

/-! ## The calls that leave the slots alone -/

theorem rebind_slot_frame (n : NetifPtr) (b : Board) (idx : SlotIdx) : ∃ u, rebind_slot n b idx = { b with udp := u } := by
  unfold rebind_slot
  split
  · split
    · exact ⟨_, rfl⟩
    · exact ⟨b.udp, rfl⟩
  · exact ⟨b.udp, rfl⟩

/-- Only control blocks are touched. -/
theorem netif_ip_changed_frame (b : Board) (n : Option NetifPtr) :
    ∃ u, udp_source_netif_ip_changed b n = { b with udp := u } := by
  unfold udp_source_netif_ip_changed
  split
  · exact ⟨b.udp, rfl⟩
  · rename_i n
    refine List.foldlRecOn (motive := fun b' : Board => ∃ u, b' = { b with udp := u }) _ _ ⟨b.udp, rfl⟩ ?_
    rintro _ ⟨u, rfl⟩ idx _
    exact rebind_slot_frame n { b with udp := u } idx

theorem netif_ip_changed_slots (b : Board) (n : Option NetifPtr) :
    (udp_source_netif_ip_changed b n).s_listeners = b.s_listeners := by
  obtain ⟨u, hu⟩ := netif_ip_changed_frame b n
  rw [hu]

theorem netif_ip_changed_net (b : Board) (n : Option NetifPtr) : (udp_source_netif_ip_changed b n).net = b.net := by
  obtain ⟨u, hu⟩ := netif_ip_changed_frame b n
  rw [hu]

theorem data_send_slots (b : Board) (id : udp_sock_id_t) (n : Option NetifPtr) (ip : ip_addr_t) (port : UInt16)
    (data : Option (List UInt8)) (len : UInt16) (alloc : Bool) (out : Alloc) :
    (udp_source_data_send b id n ip port data len alloc out).1.s_listeners = b.s_listeners := by
  unfold udp_source_data_send
  split
  · split
    · rfl
    · split
      · rfl
      · split <;> rfl
  · rfl

/-! ## Receiving and reading -/

/-- The callback: the slot it is for receives the datagram, all others are left alone. -/
theorem rx_callback_slots (b : Board) (arg : Nat) (p : pbuf) (addr : ip_addr_t) (port : UInt16) (i : SlotIdx) :
    (udp_rx_callback b arg (some p) addr port).s_listeners i =
      if callbackSlot b arg i then receiveSlot (b.s_listeners i) ⟨p, addr, port⟩ else b.s_listeners i := by
  unfold udp_rx_callback
  dsimp only
  split
  · rename_i hlt
    by_cases hi : i = ⟨arg % 256, hlt⟩
    · subst hi
      cases hu : (b.s_listeners ⟨arg % 256, hlt⟩).in_use with
      | false => simp [callbackSlot, hu]
      | true =>
        cases hv : (b.s_listeners ⟨arg % 256, hlt⟩).rx_msg.valid <;>
          simp [callbackSlot, hu, hv, receiveSlot, modifySlot]
    · have hne : callbackSlot b arg i = false := by
        have : arg % 256 ≠ i.val := fun heq => hi (Fin.ext heq.symm)
        simp [callbackSlot, this]
      rw [hne]
      simp only [Bool.false_eq_true, if_false]
      split
      · rfl
      · split <;> simp [modifySlot, hi]
  · rename_i hge
    have hne : callbackSlot b arg i = false := by
      have : arg % 256 ≠ i.val := fun heq => hge (heq ▸ i.isLt)
      simp [callbackSlot, this]
    rw [hne]
    rfl

theorem rx_callback_none (b : Board) (arg : Nat) (addr : ip_addr_t) (port : UInt16) :
    udp_rx_callback b arg none addr port = b := by
  unfold udp_rx_callback
  dsimp only
  split
  · split <;> rfl
  · rfl

theorem rx_callback_slotStep (b : Board) (arg : Nat) (p : pbuf) (addr : ip_addr_t) (port : UInt16) (i : SlotIdx) :
    SlotStep (b.s_listeners i) none (if callbackSlot b arg i then some ⟨p, addr, port⟩ else none) none
      ((udp_rx_callback b arg (some p) addr port).s_listeners i) := by
  rw [rx_callback_slots]
  split
  · rename_i hc
    simp only [callbackSlot, Bool.and_eq_true] at hc
    exact .received _ hc.2
  · exact .keep

theorem udp_input_slotStep (b : Board) (inp : NetifPtr) (d : Datagram) (alloc : Bool) (out : Alloc) (i : SlotIdx) :
    SlotStep (b.s_listeners i) none (deliveredTo b i (.udp_input inp d alloc out)) none
      ((udp_input b inp d alloc out).s_listeners i) := by
  rcases hfind : udp_input_find b.udp (b.net.netifs inp) d with ⟨u, _ | p⟩
  · simp only [udp_input, deliveredTo, hfind]
    exact .keep
  · simp only [udp_input, deliveredTo, hfind]
    cases d.intact with
    | false => exact .keep
    | true =>
      simp only [Bool.not_true, Bool.false_eq_true, if_false, Bool.true_and]
      rcases hr : (u.pcbs p).recv with _ | f
      · exact .keep
      · cases f with
        | LocatorReceive =>
          simp only [LocatorReceive_slots]
          exact .keep
        | udp_rx_callback =>
          have hstep := rx_callback_slotStep { b with udp := u } (u.pcbs p).recv_arg d.payload d.src_ip d.src i
          simpa [callbackSlot] using hstep

/-- A poll finds nothing, or it empties the mailbox of an open socket and returns what was there. -/
theorem poll_rx_spec (b : Board) (id : udp_sock_id_t) (msg : Option udp_rx_msg_t) :
    udp_source_poll_rx b id msg = (b, false, msg) ∨
    ∃ i, resolve b id = some i ∧ (b.s_listeners i).rx_msg.valid = true ∧
      udp_source_poll_rx b id msg = (b.modifySlot i readSlot, true, some (b.s_listeners i).rx_msg) := by
  unfold udp_source_poll_rx
  split
  · rename_i i m hres
    split
    · rename_i hv
      exact Or.inr ⟨i, hres, hv, rfl⟩
    · exact Or.inl rfl
  · exact Or.inl rfl

theorem poll_rx_slotStep (b : Board) (id : udp_sock_id_t) (msg : Option udp_rx_msg_t) (i : SlotIdx) :
    SlotStep (b.s_listeners i) none none (polledFrom b i (.poll_rx id msg))
      ((udp_source_poll_rx b id msg).1.s_listeners i) := by
  rcases poll_rx_spec b id msg with hpoll | ⟨j, hres, hv, hpoll⟩
  · simp only [polledFrom, hpoll, ite_self]
    exact .keep
  · simp only [polledFrom, hpoll, hres, Option.some.injEq, modifySlot]
    by_cases hij : j = i
    · subst hij
      simp only [if_true, Function.update_self]
      exact .read (resolve_in_use hres) hv
    · rw [if_neg hij, Function.update_of_ne (Ne.symm hij)]
      exact .keep

theorem close_slotStep {s : udp_listener_t} {on : Option NetifPtr} {c : Prop} [Decidable c]
    (h : c → s.in_use = true) : SlotStep s on none none (if c then closeSlot s else s) := by
  split
  · rename_i hc
    exact .closed (h hc)
  · exact .keep

theorem onNetif_in_use {b : Board} {n : NetifPtr} {i : SlotIdx} (h : onNetif b n i = true) :
    (b.s_listeners i).in_use = true := by
  simp only [onNetif, Bool.and_eq_true] at h
  exact h.2

theorem onNetif_netif_eq {b : Board} {n : NetifPtr} {i : SlotIdx} (h : onNetif b n i = true) :
    (b.s_listeners i).netif = some n := by
  simp only [onNetif, Bool.and_eq_true, beq_iff_eq] at h
  exact h.1

theorem socketsOn_nodup (b : Board) (n : NetifPtr) : (socketsOn b n).Nodup := (List.nodup_finRange _).filter _

/-- Opening a socket leaves the slots alone or opens one that was free. -/
theorem add_listener_slots (b : Board) (n : NetifPtr) (port : UInt16) (cell : Option udp_sock_id_t) :
    (udp_source_add_listener b (some n) port cell).1.s_listeners = b.s_listeners ∨
    ∃ idx p, (b.s_listeners idx).in_use = false ∧
      (udp_source_add_listener b (some n) port cell).1.s_listeners =
        Function.update b.s_listeners idx (openSlot (b.s_listeners idx) p n) := by
  unfold udp_source_add_listener
  cases cell with
  | none => exact Or.inl rfl
  | some cell =>
    dsimp only
    split
    · rename_i idx hfind
      have hfree : (b.s_listeners idx).in_use = false := by simpa using List.find?_some hfind
      rcases open_slot_slots b idx n port cell with ⟨-, -, hs⟩ | ⟨p, -, -, hs⟩
      · exact Or.inl hs
      · exact Or.inr ⟨idx, p, hfree, hs⟩
    · exact Or.inl rfl

theorem add_listener_slotStep (b : Board) (n : NetifPtr) (port : UInt16) (cell : Option udp_sock_id_t)
    (i : SlotIdx) : SlotStep (b.s_listeners i) (some n) none none
      ((udp_source_add_listener b (some n) port cell).1.s_listeners i) := by
  rcases add_listener_slots b n port cell with hs | ⟨idx, p, hfree, hs⟩
  · rw [hs]
    exact .keep
  · rw [hs]
    by_cases hi : i = idx
    · subst hi
      rw [Function.update_self]
      exact .opened p n rfl hfree
    · rw [Function.update_of_ne hi]
      exact .keep

/-- Every step changes a slot in one of the five ways. -/
theorem step_slot (b : Board) (a : Action) (i : SlotIdx) :
    SlotStep (b.s_listeners i) a.listed (deliveredTo b i a) (polledFrom b i a) ((step b a).s_listeners i) := by
  cases a with
  | add_listener n port cell => exact add_listener_slotStep b n port cell i
  | remove_listener id =>
    simp only [step, udp_source_remove_listener]
    split
    · exact .keep
    · rename_i idx hres
      rw [remove_slot_slots]
      by_cases hi : i = idx
      · subst hi
        rw [Function.update_self]
        exact .closed (resolve_in_use hres)
      · rw [Function.update_of_ne hi]
        exact .keep
  | remove_all_on_netif n =>
    cases n with
    | none => exact .keep
    | some n =>
      simp only [step]
      rw [remove_all_slots]
      exact close_slotStep onNetif_in_use
  | netif_ip_changed n =>
    simp only [step]
    rw [netif_ip_changed_slots]
    exact .keep
  | data_send id n ip port data len alloc out =>
    simp only [step]
    rw [data_send_slots]
    exact .keep
  | poll_rx id msg => exact poll_rx_slotStep b id msg i
  | rx_callback arg p addr port =>
    cases p with
    | none =>
      simp only [step]
      rw [rx_callback_none]
      exact .keep
    | some p => exact rx_callback_slotStep b arg p addr port i
  | udp_input inp d alloc out => exact udp_input_slotStep b inp d alloc out i
  | net_if_add ip mask gw alloc =>
    simp only [step]
    rw [(net_if_add_sockets b ip mask gw alloc).2]
    exact .keep
  | net_if_remove n =>
    simp only [step, net_if_remove]
    split
    · exact .keep
    · rw [(lwIPAliasRemove_sockets _ _).2, remove_all_slots]
      exact close_slotStep onNetif_in_use
  | set_ipaddr n ip => exact .keep
  | set_netmask n mask => exact .keep
  | set_gw n gw => exact .keep
  | arp_input f => exact .keep

/-- A socket that is open after a step was open before on the same interface, or was opened by it. -/
theorem SlotStep.netif_eq {s s' : udp_listener_t} {on : Option NetifPtr} {d : Option Delivery}
    {m : Option udp_rx_msg_t} (h : SlotStep s on d m s') (hu : s'.in_use = true) :
    (s.in_use = true ∧ s'.netif = s.netif) ∨ (on.isSome ∧ s'.netif = on) := by
  cases h with
  | keep => exact Or.inl ⟨hu, rfl⟩
  | opened p n hn hfree => exact Or.inr ⟨by simp [hn], hn.symm⟩
  | closed hopen => cases hu
  | received d hopen =>
    refine Or.inl ⟨hopen, ?_⟩
    unfold receiveSlot
    split <;> rfl
  | read hopen hv => exact Or.inl ⟨hopen, rfl⟩

end MultiIp.Board
