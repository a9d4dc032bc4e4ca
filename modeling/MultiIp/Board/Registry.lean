import MultiIp.Board.UdpSource
import MultiIp.Lwip.UdpRules

/-!
# Slots, control blocks and the pool

`RegInv` ties the slots to the list of bound control blocks: each open socket
owns one, and apart from the locator's there is no other. Every operation of the
registry keeps it.
-/

namespace MultiIp.Board

open Lwip Lib

/-! ## Open and closed slots -/

def closeSlot (s : udp_listener_t) : udp_listener_t :=
  { s with pcb := none, rx_msg := { s.rx_msg with valid := false }, in_use := false,
           generation_count := s.generation_count + 1 }

def openSlot (s : udp_listener_t) (p : PcbPtr) (n : NetifPtr) : udp_listener_t :=
  { s with pcb := some p, netif := some n, in_use := true, rx_count := 0, rx_drop_count := 0,
           rx_msg := { s.rx_msg with valid := false } }

/-! ## The invariant -/

/-- The slots `s` and the control blocks `u`, whose list is `l`, fit together. -/
structure RegInv (u : Udp) (s : SlotIdx → udp_listener_t) (l : List PcbPtr) : Prop where
  wf : u.Wf [] l
  in_use_iff : ∀ i, (s i).in_use = true ↔ ∃ p, (s i).pcb = some p
  owned : ∀ i p, (s i).pcb = some p →
    p ∈ l ∧ (u.pcbs p).recv = some .udp_rx_callback ∧ (u.pcbs p).recv_arg = i
  port : ∀ p ∈ l, (u.pcbs p).local_port ≠ 0
  locator : ∃ q ∈ l, (u.pcbs q).recv = some .LocatorReceive ∧
    ∀ p ∈ l, p ≠ q → ∃ i, (s i).pcb = some p

namespace RegInv

variable {u : Udp} {s : SlotIdx → udp_listener_t} {l : List PcbPtr}

theorem pcb_inj (h : RegInv u s l) {i j : SlotIdx} {p : PcbPtr} (hi : (s i).pcb = some p)
    (hj : (s j).pcb = some p) : i = j := by
  have h1 := (h.owned i p hi).2.2
  have h2 := (h.owned j p hj).2.2
  exact Fin.ext (h1.symm.trans h2)

theorem pcb_none (h : RegInv u s l) {i : SlotIdx} (hi : (s i).in_use = false) : (s i).pcb = none := by
  cases hp : (s i).pcb with
  | none => rfl
  | some p =>
    have := (h.in_use_iff i).mpr ⟨p, hp⟩
    rw [hi] at this
    cases this

/-- Changing what the invariant does not speak about: mailboxes, counters and generations. -/
theorem slots_congr {s' : SlotIdx → udp_listener_t} (h : RegInv u s l)
    (hp : ∀ i, (s' i).pcb = (s i).pcb) (hu : ∀ i, (s' i).in_use = (s i).in_use) : RegInv u s' l where
  wf := h.wf
  in_use_iff i := by rw [hp, hu]; exact h.in_use_iff i
  owned i p hi := h.owned i p (by rwa [hp] at hi)
  port := h.port
  locator := by
    obtain ⟨q, hq, hr, hrest⟩ := h.locator
    refine ⟨q, hq, hr, fun p hpl hne => ?_⟩
    obtain ⟨i, hi⟩ := hrest p hpl hne
    exact ⟨i, by rw [hp, hi]⟩

theorem reorder {u' : Udp} {l' : List PcbPtr} (h : RegInv u s l) (hwf : u'.Wf [] l') (hperm : l'.Perm l)
    (hpcbs : u'.pcbs = u.pcbs) : RegInv u' s l' where
  wf := hwf
  in_use_iff := h.in_use_iff
  owned i p hi := by
    rw [hpcbs, hperm.mem_iff]
    exact h.owned i p hi
  port p hp := by
    rw [hpcbs]
    exact h.port p (hperm.mem_iff.mp hp)
  locator := by
    obtain ⟨q, hq, hr, hrest⟩ := h.locator
    refine ⟨q, hperm.mem_iff.mpr hq, by rw [hpcbs]; exact hr, fun p hp => hrest p (hperm.mem_iff.mp hp)⟩

theorem modify_pcb (h : RegInv u s l) (p : PcbPtr) (f : udp_pcb → udp_pcb) (hr : ∀ c, (f c).recv = c.recv)
    (ha : ∀ c, (f c).recv_arg = c.recv_arg) (hp : ∀ c, (f c).local_port = c.local_port) :
    RegInv (u.modify p f) s l := by
  have hpcb : ∀ q, ((u.modify p f).pcbs q).recv = (u.pcbs q).recv ∧
      ((u.modify p f).pcbs q).recv_arg = (u.pcbs q).recv_arg ∧
      ((u.modify p f).pcbs q).local_port = (u.pcbs q).local_port := by
    intro q
    by_cases hqp : q = p
    · subst hqp
      simp [Udp.modify, hr, ha, hp]
    · simp [Udp.modify, hqp]
  refine ⟨h.wf.modify p f, h.in_use_iff, fun i q hi => ?_, fun q hq => ?_, ?_⟩
  · rw [(hpcb q).1, (hpcb q).2.1]
    exact h.owned i q hi
  · rw [(hpcb q).2.2]
    exact h.port q hq
  · obtain ⟨q, hq, hrecv, hrest⟩ := h.locator
    exact ⟨q, hq, by rw [(hpcb q).1]; exact hrecv, hrest⟩

/-- Closing a slot: its control block leaves the list and goes back to the pool. -/
theorem close (h : RegInv u s l) {i : SlotIdx} {p : PcbPtr} (hi : (s i).pcb = some p) (t : udp_listener_t)
    (htp : t.pcb = none) (htu : t.in_use = false) :
    RegInv (udp_remove u p) (Function.update s i t) (l.erase p) := by
  have hmem := (h.owned i p hi).1
  have hnd := h.wf.list_nodup
  refine ⟨udp_remove_spec h.wf hmem, fun j => ?_, fun j q hj => ?_, fun q hq => ?_, ?_⟩
  · by_cases hji : j = i
    · subst hji
      simp [htp, htu]
    · simpa [hji] using h.in_use_iff j
  · by_cases hji : j = i
    · subst hji
      simp [htp] at hj
    · rw [Function.update_of_ne hji] at hj
      obtain ⟨hq, hr, ha⟩ := h.owned j q hj
      refine ⟨(hnd.mem_erase_iff).mpr ⟨?_, hq⟩, hr, ha⟩
      rintro rfl
      exact hji (h.pcb_inj hj hi)
  · exact h.port q (List.mem_of_mem_erase hq)
  · obtain ⟨q, hq, hr, hrest⟩ := h.locator
    have hqp : q ≠ p := by
      rintro rfl
      rw [(h.owned i q hi).2.1] at hr
      cases hr
    refine ⟨q, (hnd.mem_erase_iff).mpr ⟨hqp, hq⟩, hr, fun r hr' hne => ?_⟩
    obtain ⟨hrp, hrl⟩ := (hnd.mem_erase_iff).mp hr'
    obtain ⟨j, hj⟩ := hrest r hrl hne
    refine ⟨j, ?_⟩
    rw [Function.update_of_ne, hj]
    rintro rfl
    rw [hi] at hj
    exact hrp (Option.some.inj hj).symm

/-- Opening a free slot with a control block that was just bound. -/
theorem open_ {u' : Udp} (h : RegInv u s l) {i : SlotIdx} (hfree : (s i).in_use = false) {p : PcbPtr}
    (hwf : u'.Wf [] (p :: l)) (hother : ∀ q, q ≠ p → u'.pcbs q = u.pcbs q)
    (hr : (u'.pcbs p).recv = some .udp_rx_callback) (ha : (u'.pcbs p).recv_arg = i)
    (hport : (u'.pcbs p).local_port ≠ 0) (t : udp_listener_t) (htp : t.pcb = some p) (htu : t.in_use = true) :
    RegInv u' (Function.update s i t) (p :: l) := by
  have hpl : p ∉ l := (List.nodup_cons.mp hwf.list_nodup).1
  have hne : ∀ q ∈ l, q ≠ p := by
    rintro q hq rfl
    exact hpl hq
  refine ⟨hwf, fun j => ?_, fun j q hj => ?_, fun q hq => ?_, ?_⟩
  · by_cases hji : j = i
    · subst hji
      simp [htp, htu]
    · simpa [hji] using h.in_use_iff j
  · by_cases hji : j = i
    · subst hji
      rw [Function.update_self, htp] at hj
      obtain rfl : p = q := Option.some.inj hj
      exact ⟨List.mem_cons_self, hr, ha⟩
    · rw [Function.update_of_ne hji] at hj
      obtain ⟨hq, hrq, haq⟩ := h.owned j q hj
      rw [hother q (hne q hq)]
      exact ⟨List.mem_cons_of_mem _ hq, hrq, haq⟩
  · rcases List.mem_cons.mp hq with rfl | hq
    · exact hport
    · rw [hother q (hne q hq)]
      exact h.port q hq
  · obtain ⟨q, hq, hrq, hrest⟩ := h.locator
    refine ⟨q, List.mem_cons_of_mem _ hq, by rw [hother q (hne q hq)]; exact hrq, fun r hr' hrne => ?_⟩
    rcases List.mem_cons.mp hr' with rfl | hrl
    · exact ⟨i, by rw [Function.update_self, htp]⟩
    · obtain ⟨j, hj⟩ := hrest r hrl hrne
      refine ⟨j, ?_⟩
      rw [Function.update_of_ne, hj]
      rintro rfl
      rw [h.pcb_none hfree] at hj
      cases hj

theorem count_in_use (h : RegInv u s l) :
    l.length = (List.finRange UDP_MAX_LISTENERS).countP (fun i => (s i).in_use) + 1 := by
  obtain ⟨q, hq, hr, hrest⟩ := h.locator
  -- Without the locator's, the list holds the control blocks of the slots, each once.
  have hperm : ((List.finRange UDP_MAX_LISTENERS).filterMap (fun i => (s i).pcb)).Perm (l.erase q) := by
    have hnd : ((List.finRange UDP_MAX_LISTENERS).filterMap (fun i => (s i).pcb)).Nodup :=
      (List.nodup_finRange _).filterMap (fun i j p hi hj => h.pcb_inj (by simpa using hi) (by simpa using hj))
    rw [List.perm_ext_iff_of_nodup hnd (h.wf.list_nodup.erase q)]
    intro p
    rw [h.wf.list_nodup.mem_erase_iff]
    simp only [List.mem_filterMap, List.mem_finRange, true_and]
    constructor
    · rintro ⟨i, hi⟩
      obtain ⟨hp, hpr, -⟩ := h.owned i p hi
      refine ⟨?_, hp⟩
      rintro rfl
      rw [hpr] at hr
      cases hr
    · rintro ⟨hne, hp⟩
      exact hrest p hp hne
  have hlen := hperm.length_eq
  rw [List.length_filterMap_eq_countP, List.length_erase_of_mem hq] at hlen
  have hcount : (List.finRange UDP_MAX_LISTENERS).countP (fun i => (s i).in_use) =
      (List.finRange UDP_MAX_LISTENERS).countP (fun i => (s i).pcb.isSome) := by
    refine List.countP_congr fun i _ => ?_
    rw [h.in_use_iff, Option.isSome_iff_exists]
  have hpos := List.length_pos_of_mem hq
  rw [hcount]
  omega

/-- The pool is larger than the slots need. -/
theorem memp_ne_nil (h : RegInv u s l) : u.memp ≠ [] := by
  intro hm
  have hlen := h.wf.length_eq
  have hcount := h.count_in_use
  have hle : (List.finRange UDP_MAX_LISTENERS).countP (fun i => (s i).in_use) ≤ 16 :=
    List.countP_le_length.trans (by simp)
  have hpool : MEMP_NUM_UDP_PCB = 20 := rfl
  simp only [hm, List.length_nil] at hlen
  omega

end RegInv

/-- The invariant of a board. -/
def Registry (b : Board) (l : List PcbPtr) : Prop := RegInv b.udp b.s_listeners l

theorem modifySlot_congr {b : Board} {l : List PcbPtr} (h : b.Registry l) (idx : SlotIdx)
    (f : udp_listener_t → udp_listener_t) (hp : ∀ s, (f s).pcb = s.pcb) (hu : ∀ s, (f s).in_use = s.in_use) :
    (b.modifySlot idx f).Registry l := by
  refine RegInv.slots_congr (u := b.udp) h (fun i => ?_) (fun i => ?_) <;>
  · by_cases hi : i = idx
    · subst hi
      simp [modifySlot, hp, hu]
    · simp [modifySlot, hi]

/-! ## The operations -/

section Operations

variable {b : Board} {l : List PcbPtr}

theorem remove_slot_open (h : b.Registry l) {idx : SlotIdx} {p : PcbPtr} (hp : (b.s_listeners idx).pcb = some p) :
    (remove_slot b idx).Registry (l.erase p) := by
  have hclose := RegInv.close h hp (closeSlot (b.s_listeners idx)) rfl rfl
  simpa [remove_slot, hp, Registry, modifySlot, closeSlot] using hclose

theorem remove_slot_registry (h : b.Registry l) (idx : SlotIdx) : ∃ l', (remove_slot b idx).Registry l' := by
  cases hp : (b.s_listeners idx).pcb with
  | none =>
    refine ⟨l, ?_⟩
    simp only [remove_slot, hp]
    refine RegInv.slots_congr (u := b.udp) h (fun i => ?_) (fun i => ?_)
    · by_cases hi : i = idx
      · subst hi
        simp [modifySlot]
      · simp [modifySlot, hi]
    · by_cases hi : i = idx
      · subst hi
        have : (b.s_listeners i).in_use ≠ true := by
          rw [ne_eq, h.in_use_iff, hp]
          simp
        simp [modifySlot, this]
      · simp [modifySlot, hi]
  | some p => exact ⟨l.erase p, remove_slot_open h hp⟩

/-- Opening the socket in a free slot. Either it gets a control block bound to the interface's address,
or some control block was in the way and the list and the slots are as before. -/
theorem open_slot_spec (h : b.Registry l) {idx : SlotIdx} (hfree : (b.s_listeners idx).in_use = false)
    (n : NetifPtr) (port : UInt16) (cell : udp_sock_id_t) :
    (∃ u p port', open_slot b idx n port cell =
        ({ b with udp := u, s_listeners := Function.update b.s_listeners idx (openSlot (b.s_listeners idx) p n) },
          .ERR_OK, make_id { b with
            udp := u, s_listeners := Function.update b.s_listeners idx (openSlot (b.s_listeners idx) p n) } idx) ∧
      RegInv u (Function.update b.s_listeners idx (openSlot (b.s_listeners idx) p n)) (p :: l) ∧
      (∀ q, q ≠ p → u.pcbs q = b.udp.pcbs q) ∧
      (u.pcbs p).local_ip = (b.net.netifs n).ip_addr ∧ (u.pcbs p).local_port = port' ∧
      (port ≠ 0 → port' = port) ∧ ∀ q ∈ l, bindClash b.udp p (b.net.netifs n).ip_addr port' q = false) ∨
    ∃ u, open_slot b idx n port cell = ({ b with udp := u }, .ERR_USE, cell) ∧ RegInv u b.s_listeners l ∧
      (∀ q ∈ l, u.pcbs q = b.udp.pcbs q) ∧
      (port ≠ 0 → ∃ p, p ∉ l ∧ ∃ q ∈ l, bindClash b.udp p (b.net.netifs n).ip_addr port q = true) := by
  unfold open_slot
  rcases udp_new_spec h.wf with ⟨hempty, -⟩ | ⟨p, u, hsome, hwf, hpcbs⟩
  · exact absurd hempty (h.memp_ne_nil)
  · rw [hsome]
    have hpl : p ∉ l := hwf.not_mem_of_held
    have hne : ∀ q ∈ l, q ≠ p := by
      rintro q hq rfl
      exact hpl hq
    have hother : ∀ q, q ≠ p → u.pcbs q = b.udp.pcbs q := fun q hq => by rw [hpcbs, Function.update_of_ne hq]
    have hclash : ∀ port, ∀ q ∈ l, bindClash u p (b.net.netifs n).ip_addr port q =
        bindClash b.udp p (b.net.netifs n).ip_addr port q := fun port q hq => by
      simp only [bindClash, hother q (hne q hq)]
    rcases udp_bind_new hwf (b.net.netifs n).ip_addr port with
      ⟨v, port', hbind, hv, hport, hsame, hclear, hvp⟩ | ⟨v, hbind, hv, hvo, huse⟩
    · simp only [hbind]
      have hwf' : (udp_recv v p .udp_rx_callback idx).Wf [] (p :: l) := hv.modify p _
      refine Or.inl ⟨udp_recv v p .udp_rx_callback idx, p, port', rfl, ?_, fun q hq => ?_, ?_, ?_, hsame, fun q hq => ?_⟩
      · refine RegInv.open_ h hfree hwf' (fun q hq => ?_) ?_ ?_ ?_ _ rfl rfl
        · simp [udp_recv, Udp.modify, hvp, hq, hother q hq]
        · simp [udp_recv, Udp.modify]
        · simp [udp_recv, Udp.modify]
        · simpa [udp_recv, Udp.modify, hvp] using hport
      · simp [udp_recv, Udp.modify, hvp, hq, hother q hq]
      · simp [udp_recv, Udp.modify, hvp]
      · simp [udp_recv, Udp.modify, hvp]
      · rw [← hclash port' q hq]
        exact hclear q hq
    · -- The bind was refused: the control block goes back to the pool.
      simp only [hbind]
      have hback := udp_remove_held hv
      have hsame : ∀ q ∈ l, (udp_remove v p).pcbs q = b.udp.pcbs q := fun q hq => by
        rw [show (udp_remove v p).pcbs = v.pcbs from rfl, hvo q (hne q hq), hother q (hne q hq)]
      refine Or.inr ⟨udp_remove v p, rfl, ⟨hback, h.in_use_iff, fun i q hi => ?_, fun q hq => ?_, ?_⟩, hsame,
        fun h0 => ?_⟩
      · have hq := (h.owned i q hi).1
        rw [hsame q hq]
        exact h.owned i q hi
      · rw [hsame q hq]
        exact h.port q hq
      · obtain ⟨q, hq, hr, hrest⟩ := h.locator
        exact ⟨q, hq, by rw [hsame q hq]; exact hr, hrest⟩
      · obtain ⟨q, hq, hc⟩ := huse h0
        exact ⟨p, hpl, q, hq, by rw [← hclash port q hq]; exact hc⟩

theorem open_slot_registry (h : b.Registry l) {idx : SlotIdx} (hfree : (b.s_listeners idx).in_use = false)
    (n : NetifPtr) (port : UInt16) (cell : udp_sock_id_t) :
    ∃ l', (open_slot b idx n port cell).1.Registry l' := by
  rcases open_slot_spec h hfree n port cell with ⟨u, p, port', heq, hreg, -⟩ | ⟨u, heq, hreg, -⟩
  · rw [heq]
    exact ⟨p :: l, hreg⟩
  · rw [heq]
    exact ⟨l, hreg⟩

theorem add_listener_registry (h : b.Registry l) (n : Option NetifPtr) (port : UInt16)
    (cell : Option udp_sock_id_t) : ∃ l', (udp_source_add_listener b n port cell).1.Registry l' := by
  unfold udp_source_add_listener
  split
  · split
    · rename_i idx hfind
      have hfree := List.find?_some hfind
      exact open_slot_registry h (by simpa using hfree) _ _ _
    · exact ⟨l, h⟩
  · exact ⟨l, h⟩

theorem remove_listener_registry (h : b.Registry l) (id : udp_sock_id_t) :
    ∃ l', (udp_source_remove_listener b id).Registry l' := by
  unfold udp_source_remove_listener
  split
  · exact ⟨l, h⟩
  · exact remove_slot_registry h _

theorem remove_all_registry (h : b.Registry l) (n : Option NetifPtr) :
    ∃ l', (udp_source_remove_all_on_netif b n).Registry l' := by
  unfold udp_source_remove_all_on_netif
  split
  · exact ⟨l, h⟩
  · refine List.foldlRecOn (motive := fun b : Board => ∃ l', b.Registry l') _ _ ⟨l, h⟩ ?_
    rintro b ⟨l, h⟩ idx -
    split
    · exact remove_slot_registry h idx
    · exact ⟨l, h⟩

theorem rebind_slot_registry (h : b.Registry l) (n : NetifPtr) (idx : SlotIdx) :
    (rebind_slot n b idx).Registry l := by
  unfold rebind_slot
  split
  · split
    · rename_i p hp
      obtain ⟨hmem, -, -⟩ := h.owned idx p hp
      rw [udp_bind_rebind h.wf hmem _ (h.port p hmem)]
      split
      · exact h
      · dsimp only [Registry]
        refine RegInv.modify_pcb h p _ ?_ ?_ ?_ <;> exact fun _ => rfl
    · exact h
  · exact h

theorem netif_ip_changed_registry (h : b.Registry l) (n : Option NetifPtr) :
    (udp_source_netif_ip_changed b n).Registry l := by
  unfold udp_source_netif_ip_changed
  split
  · exact h
  · exact List.foldlRecOn (motive := fun b : Board => b.Registry l) _ _ h
      (fun b hb idx _ => rebind_slot_registry hb _ idx)

/-- A bound control block is not bound again by sending. -/
theorem udp_sendto_if_udp {u : Udp} {p : PcbPtr} (hp : (u.pcbs p).local_port ≠ 0) (net : Net) (data : List UInt8)
    (ip : ip_addr_t) (port : UInt16) (n : NetifPtr) (out : Alloc) :
    (udp_sendto_if net u p data ip port n out).2.1 = u := by
  unfold udp_sendto_if
  rw [if_neg hp]

theorem data_send_registry (h : b.Registry l) (id : udp_sock_id_t) (n : Option NetifPtr) (ip : ip_addr_t)
    (port : UInt16) (data : Option (List UInt8)) (len : UInt16) (alloc : Bool) (out : Alloc) :
    (udp_source_data_send b id n ip port data len alloc out).1.Registry l := by
  unfold udp_source_data_send
  split
  · split
    · exact h
    · split
      · exact h
      · split
        · rename_i p hp
          have hport := h.port p (h.owned _ p hp).1
          dsimp only [Registry]
          rw [udp_sendto_if_udp hport]
          exact h
        · exact h
  · exact h

theorem poll_rx_registry (h : b.Registry l) (id : udp_sock_id_t) (msg : Option udp_rx_msg_t) :
    (udp_source_poll_rx b id msg).1.Registry l := by
  unfold udp_source_poll_rx
  split
  · split
    · exact modifySlot_congr h _ _ (fun _ => rfl) (fun _ => rfl)
    · exact h
  · exact h

theorem rx_callback_registry (h : b.Registry l) (arg : Nat) (p : Option pbuf) (addr : ip_addr_t)
    (port : UInt16) : (udp_rx_callback b arg p addr port).Registry l := by
  unfold udp_rx_callback
  dsimp only
  split
  · split
    · exact h
    · split
      · exact h
      · split
        · exact modifySlot_congr h _ _ (fun _ => rfl) (fun _ => rfl)
        · exact modifySlot_congr h _ _ (fun _ => rfl) (fun _ => rfl)
  · exact h

theorem LocatorReceive_slots (b : Board) (p : PcbPtr) (d : pbuf) (addr : ip_addr_t) (port : UInt16)
    (alloc : Bool) (out : Alloc) : (LocatorReceive b p d addr port alloc out).s_listeners = b.s_listeners := by
  unfold LocatorReceive
  split
  · split <;> rfl
  · rfl

theorem LocatorReceive_udp {p : PcbPtr} (hport : (b.udp.pcbs p).local_port ≠ 0) (d : pbuf) (addr : ip_addr_t)
    (port : UInt16) (alloc : Bool) (out : Alloc) : (LocatorReceive b p d addr port alloc out).udp = b.udp := by
  unfold LocatorReceive
  split
  · split
    · rfl
    · dsimp only
      unfold udp_sendto
      split
      · rfl
      · rw [udp_sendto_if_udp hport]
  · rfl

theorem LocatorReceive_registry (h : b.Registry l) {p : PcbPtr} (hp : p ∈ l) (d : pbuf) (addr : ip_addr_t)
    (port : UInt16) (alloc : Bool) (out : Alloc) : (LocatorReceive b p d addr port alloc out).Registry l := by
  rw [Registry, LocatorReceive_udp (h.port p hp), LocatorReceive_slots]
  exact h

theorem udp_input_registry (h : b.Registry l) (inp : NetifPtr) (d : Datagram) (alloc : Bool) (out : Alloc) :
    ∃ l', (udp_input b inp d alloc out).Registry l' := by
  obtain ⟨u, r, l', hfind, hwf, hperm, hpcbs, hr⟩ := udp_input_find_spec h.wf (b.net.netifs inp) d
  have h' : { b with udp := u }.Registry l' := RegInv.reorder h hwf hperm hpcbs
  unfold udp_input
  rw [hfind]
  refine ⟨l', ?_⟩
  cases r with
  | none => exact h'
  | some p =>
    dsimp only
    split
    · exact h'
    · split
      · exact rx_callback_registry h' _ _ _ _
      · exact LocatorReceive_registry h' (hperm.mem_iff.mpr (hr p rfl).1) _ _ _ _ _
      · exact h'

/-- What the interface functions leave alone. -/
theorem lwIPAliasAdd_sockets (b : Board) (ip mask gw : ip_addr_t) (alloc : Bool) :
    (lwIPAliasAdd b ip mask gw alloc).1.udp = b.udp ∧
      (lwIPAliasAdd b ip mask gw alloc).1.s_listeners = b.s_listeners := by
  unfold lwIPAliasAdd
  split
  · exact ⟨rfl, rfl⟩
  · split
    · exact ⟨rfl, rfl⟩
    · split <;> exact ⟨rfl, rfl⟩

theorem lwIPAliasRemove_sockets (b : Board) (n : NetifPtr) :
    (lwIPAliasRemove b n).udp = b.udp ∧ (lwIPAliasRemove b n).s_listeners = b.s_listeners := by
  unfold lwIPAliasRemove
  split
  · exact ⟨rfl, rfl⟩
  · split <;> exact ⟨rfl, rfl⟩

theorem net_if_add_sockets (b : Board) (ip mask gw : ip_addr_t) (alloc : Bool) :
    (net_if_add b ip mask gw alloc).1.udp = b.udp ∧
      (net_if_add b ip mask gw alloc).1.s_listeners = b.s_listeners := by
  unfold net_if_add
  dsimp only
  split <;> exact lwIPAliasAdd_sockets b ip mask gw alloc

theorem net_if_remove_registry (h : b.Registry l) (n : Option NetifPtr) :
    ∃ l', (net_if_remove b n).1.Registry l' := by
  unfold net_if_remove
  split
  · exact ⟨l, h⟩
  · split
    · exact ⟨l, h⟩
    · rename_i m _
      obtain ⟨l', h'⟩ := remove_all_registry h (some m)
      refine ⟨l', ?_⟩
      unfold Registry
      rw [(lwIPAliasRemove_sockets _ _).1, (lwIPAliasRemove_sockets _ _).2]
      exact h'

end Operations

end MultiIp.Board
