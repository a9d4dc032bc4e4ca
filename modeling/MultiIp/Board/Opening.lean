import MultiIp.Board.Reachable
import MultiIp.Board.Statements

/-!
# The registry between two statements

While a socket is being opened its control block belongs to no slot yet. It is
loose until the slot is open, and everything else keeps its owner.
-/

namespace MultiIp.Board

open Lwip Lib

/-! ## The invariant -/

def Stage.rank : Stage → Nat
  | .created => 0
  | .addressed => 1
  | .ported => 2
  | .linked => 3
  | .bound => 4
  | .callback => 5
  | .armed => 6
  | .pcb_set => 7
  | .netif_set => 8
  | .used => 9
  | .counted => 10
  | .drop_counted => 11

/-- The new control block, before its slot is open. -/
def MainPc.flying : MainPc → Option PcbPtr
  | .opening stage _ _ _ pcb => if stage.rank ≤ 8 then some pcb else none
  | .failed pcb => some pcb
  | _ => none

/-- A control block that belongs to no slot. -/
structure Loose (b : Board) (pcb : PcbPtr) : Prop where
  allocated : pcb ∉ b.udp.memp
  unowned : ∀ i, (b.s_listeners i).in_use = true → (b.s_listeners i).pcb ≠ some pcb

/-- What the statements so far have written to the new control block. -/
structure NewPcb (stage : Stage) (idx : SlotIdx) (c : udp_pcb) : Prop where
  port : 2 ≤ stage.rank → c.local_port ≠ 0
  silent : stage.rank ≤ 4 → c.recv = none
  arg_zero : stage.rank ≤ 5 → c.recv_arg = 0
  calls : 5 ≤ stage.rank → c.recv = some .udp_rx_callback
  arg : 6 ≤ stage.rank → c.recv_arg = idx

/-- What holds of the new control block while the slot is not open. -/
structure Flight (b : Board) (l : List PcbPtr) (stage : Stage) (idx : SlotIdx) (pcb : PcbPtr) : Prop where
  loose : Loose b pcb
  free : (b.s_listeners idx).in_use = false
  first : idx ≠ 0 → (b.s_listeners 0).in_use = true
  off : stage.rank ≤ 3 → pcb ∉ l
  /-- Interrupts can move other control blocks to the front before `udp_pcbs` is set. These are lost from the list, and
  what is left of it is still a list. -/
  linked : stage = .linked → b.udp.next pcb = none ∨ ∃ q ∈ l, b.udp.next pcb = some q
  written : NewPcb stage idx (b.udp.pcbs pcb)
  slot : 7 ≤ stage.rank → (b.s_listeners idx).pcb = some pcb

structure Held (b : Board) (pc : MainPc) (l : List PcbPtr) : Prop where
  chain : Chain b.udp.next b.udp.udp_pcbs l
  memp_nodup : b.udp.memp.Nodup
  live : ∀ p ∈ l, p ∉ b.udp.memp
  port : ∀ p ∈ l, (b.udp.pcbs p).local_port ≠ 0
  owned : ∀ i, (b.s_listeners i).in_use = true → ∃ p, (b.s_listeners i).pcb = some p ∧ p ∉ b.udp.memp
  inj : ∀ i j p, (b.s_listeners i).in_use = true → (b.s_listeners j).in_use = true →
    (b.s_listeners i).pcb = some p → (b.s_listeners j).pcb = some p → i = j
  serves : ∀ p ∈ l, (b.udp.pcbs p).recv = some .udp_rx_callback → pc.flying = some p ∨
    ∃ i : SlotIdx, (b.s_listeners i).in_use = true ∧ (b.s_listeners i).pcb = some p ∧ (b.udp.pcbs p).recv_arg = i
  flight : ∀ stage idx n port pcb, pc = .opening stage idx n port pcb → stage.rank ≤ 8 → Flight b l stage idx pcb
  failed : ∀ pcb, pc = .failed pcb → Loose b pcb ∧ pcb ∉ l
  closing : ∀ idx, pc = .closing idx → (b.s_listeners idx).in_use = true

theorem Held.of_registry {b : Board} {l : List PcbPtr} (h : b.Registry l) : Held b .idle l where
  chain := h.wf.chain
  memp_nodup := h.wf.nodup.of_append_right
  live p hp hm := by
    have hnd := h.wf.nodup
    rw [List.nil_append] at hnd
    exact List.disjoint_of_nodup_append hnd hp hm
  port := h.port
  owned i hi := by
    obtain ⟨p, hp⟩ := (h.in_use_iff i).mp hi
    refine ⟨p, hp, fun hm => ?_⟩
    have hnd := h.wf.nodup
    rw [List.nil_append] at hnd
    exact List.disjoint_of_nodup_append hnd (h.owned i p hp).1 hm
  inj i j p _ _ hi hj := h.pcb_inj hi hj
  serves p hp hr := by
    obtain ⟨q, -, hq, hrest⟩ := h.locator
    have hne : p ≠ q := by
      rintro rfl
      rw [hq] at hr
      cases hr
    obtain ⟨i, hi⟩ := hrest p hp hne
    exact Or.inr ⟨i, (h.in_use_iff i).mpr ⟨p, hi⟩, hi, (h.owned i p hi).2.2⟩
  flight _ _ _ _ _ hpc := by cases hpc
  failed _ hpc := by cases hpc
  closing _ hpc := by cases hpc

/-! ## Interrupts -/

theorem Held.received {b b' : Board} {pc : MainPc} {l l' : List PcbPtr} (h : Held b pc l)
    (hs : b.udp.Searched b'.udp l l')
    (hslots : ∀ i, (b'.s_listeners i).in_use = (b.s_listeners i).in_use ∧
      (b'.s_listeners i).pcb = (b.s_listeners i).pcb) : Held b' pc l' := by
  have hloose : ∀ {pcb}, Loose b pcb → Loose b' pcb := by
    intro pcb hl
    refine ⟨by rw [hs.memp]; exact hl.allocated, fun i hi => ?_⟩
    rw [(hslots i).2]
    exact hl.unowned i ((hslots i).1 ▸ hi)
  refine ⟨hs.chain, by rw [hs.memp]; exact h.memp_nodup, fun p hp => ?_, fun p hp => ?_, fun i hi => ?_, ?_, ?_, ?_, ?_, ?_⟩
  · rw [hs.memp]
    exact h.live p (hs.perm.mem_iff.mp hp)
  · rw [hs.pcbs]
    exact h.port p (hs.perm.mem_iff.mp hp)
  · rw [(hslots i).2, hs.memp]
    exact h.owned i ((hslots i).1 ▸ hi)
  · intro i j p hi hj hpi hpj
    rw [(hslots i).1] at hi
    rw [(hslots j).1] at hj
    rw [(hslots i).2] at hpi
    rw [(hslots j).2] at hpj
    exact h.inj i j p hi hj hpi hpj
  · intro p hp hr
    rw [hs.pcbs] at hr ⊢
    rcases h.serves p (hs.perm.mem_iff.mp hp) hr with hf | ⟨i, hi, hpcb, harg⟩
    · exact Or.inl hf
    · exact Or.inr ⟨i, (hslots i).1 ▸ hi, (hslots i).2 ▸ hpcb, harg⟩
  · intro stage idx n port pcb hpc hrank
    have hf := h.flight stage idx n port pcb hpc hrank
    refine ⟨hloose hf.loose, ?_, ?_, ?_, ?_, ?_, ?_⟩
    · rw [(hslots idx).1]
      exact hf.free
    · rw [(hslots 0).1]
      exact hf.first
    · exact fun hr hm => hf.off hr (hs.perm.mem_iff.mp hm)
    · intro hst
      have hoff : pcb ∉ l := hf.off (by rw [hst]; decide)
      rw [hs.next pcb hoff]
      rcases hf.linked hst with hnone | ⟨q, hq, hnext⟩
      · exact Or.inl hnone
      · exact Or.inr ⟨q, hs.perm.mem_iff.mpr hq, hnext⟩
    · rw [hs.pcbs]
      exact hf.written
    · rw [(hslots idx).2]
      exact hf.slot
  · intro pcb hpc
    obtain ⟨hl, hoff⟩ := h.failed pcb hpc
    exact ⟨hloose hl, fun hm => hoff (hs.perm.mem_iff.mp hm)⟩
  · intro idx hpc
    rw [(hslots idx).1]
    exact h.closing idx hpc

theorem Held.receive {b : Board} {pc : MainPc} {l : List PcbPtr} (h : Held b pc l) (inp : NetifPtr) (d : Datagram)
    (alloc : Bool) (out : Alloc) : ∃ l', Held (udp_input b inp d alloc out) pc l' := by
  obtain ⟨u, r, l', hfind, hs, hr⟩ := udp_input_find_chain h.chain (b.net.netifs inp) d
  refine ⟨l', ?_⟩
  have hmoved : ∀ {b' : Board}, b'.udp = u → (∀ i, (b'.s_listeners i).in_use = (b.s_listeners i).in_use ∧
      (b'.s_listeners i).pcb = (b.s_listeners i).pcb) → Held b' pc l' := by
    intro b' hu hslots
    rw [← hu] at hs
    exact h.received hs hslots
  unfold udp_input
  rw [hfind]
  cases r with
  | none => exact hmoved rfl (fun _ => ⟨rfl, rfl⟩)
  | some p =>
    dsimp only
    split
    · exact hmoved rfl (fun _ => ⟨rfl, rfl⟩)
    · split
      · refine hmoved ?_ (fun i => ?_)
        · unfold udp_rx_callback
          dsimp only
          split
          · split
            · rfl
            · split <;> rfl
          · rfl
        · rw [rx_callback_slots]
          split
          · unfold receiveSlot
            split <;> exact ⟨rfl, rfl⟩
          · exact ⟨rfl, rfl⟩
      · have hport : (u.pcbs p).local_port ≠ 0 := by
          rw [hs.pcbs]
          exact h.port p (hr p rfl).1
        refine hmoved (LocatorReceive_udp hport _ _ _ _ _) (fun i => ?_)
        rw [LocatorReceive_slots]
        exact ⟨rfl, rfl⟩
      · exact hmoved rfl (fun _ => ⟨rfl, rfl⟩)

/-! ## Closing and polling -/

section Main

variable {b : Board} {l : List PcbPtr}

theorem Held.move {pc pc' : MainPc} (h : Held b pc l) (hpc : pc.flying = none)
    (hopening : ∀ stage idx n port pcb, pc' = .opening stage idx n port pcb → 9 ≤ stage.rank)
    (hfailed : ∀ pcb, pc' ≠ .failed pcb) (hclosing : ∀ idx, pc' = .closing idx → (b.s_listeners idx).in_use = true) :
    Held b pc' l where
  chain := h.chain
  memp_nodup := h.memp_nodup
  live := h.live
  port := h.port
  owned := h.owned
  inj := h.inj
  serves p hp hr := by
    rcases h.serves p hp hr with hf | howned
    · rw [hpc] at hf
      cases hf
    · exact Or.inr howned
  flight stage idx n port pcb heq hrank := absurd (hopening stage idx n port pcb heq) (by omega)
  failed pcb heq := absurd heq (hfailed pcb)
  closing := hclosing

theorem Held.modifySlot {pc : MainPc} (h : Held b pc l) (idx : SlotIdx) (f : udp_listener_t → udp_listener_t)
    (hf : ∀ s, (f s).in_use = s.in_use ∧ (f s).pcb = s.pcb) : Held (b.modifySlot idx f) pc l := by
  refine h.received ⟨h.chain, .refl l, rfl, rfl, fun _ _ => rfl⟩ (fun i => ?_)
  simp only [Board.modifySlot, Function.update_apply]
  split
  · rename_i heq
    rw [heq]
    exact hf _
  · exact ⟨rfl, rfl⟩

/-- Closing a slot gives its control block back, also one that is no longer on the list. -/
theorem Held.remove_slot (h : Held b .idle l) {idx : SlotIdx} (huse : (b.s_listeners idx).in_use = true) :
    ∃ l', Held (remove_slot b idx) .idle l' := by
  obtain ⟨p, hp, hfree⟩ := h.owned idx huse
  have hslots := remove_slot_slots b idx
  have hudp : (Board.remove_slot b idx).udp = udp_remove b.udp p := by
    unfold Board.remove_slot
    rw [hp]
    rfl
  have hnd := chain_nodup h.chain
  -- Another open slot has another control block.
  have hother : ∀ i, ((Board.remove_slot b idx).s_listeners i).in_use = true →
      i ≠ idx ∧ (Board.remove_slot b idx).s_listeners i = b.s_listeners i := by
    intro i hi
    rw [hslots] at hi ⊢
    by_cases hii : i = idx
    · rw [hii, Function.update_self] at hi
      cases hi
    · rw [Function.update_of_ne hii]
      exact ⟨hii, rfl⟩
  refine ⟨l.erase p, ?_, ?_, ?_, ?_, ?_, ?_, ?_, ?_, ?_, ?_⟩
  · rw [hudp]
    exact udp_remove_chain h.chain p
  · rw [hudp]
    exact List.nodup_cons.mpr ⟨hfree, h.memp_nodup⟩
  · intro q hq
    rw [hnd.mem_erase_iff] at hq
    rw [hudp]
    exact List.not_mem_cons_of_ne_of_not_mem hq.1 (h.live q hq.2)
  · intro q hq
    rw [hudp]
    exact h.port q (List.mem_of_mem_erase hq)
  · intro i hi
    obtain ⟨hne, hsame⟩ := hother i hi
    rw [hsame] at hi ⊢
    obtain ⟨q, hq, hqfree⟩ := h.owned i hi
    refine ⟨q, hq, ?_⟩
    rw [hudp]
    refine List.not_mem_cons_of_ne_of_not_mem ?_ hqfree
    rintro rfl
    exact hne (h.inj i idx q hi huse hq hp)
  · intro i j q hi hj hqi hqj
    obtain ⟨-, hsi⟩ := hother i hi
    obtain ⟨-, hsj⟩ := hother j hj
    rw [hsi] at hi hqi
    rw [hsj] at hj hqj
    exact h.inj i j q hi hj hqi hqj
  · intro q hq hr
    rw [hnd.mem_erase_iff] at hq
    rw [hudp] at hr ⊢
    rcases h.serves q hq.2 hr with hf | ⟨i, hi, hpcb, harg⟩
    · cases hf
    · have hne : i ≠ idx := by
        rintro rfl
        exact hq.1 (Option.some.inj (hpcb.symm.trans hp))
      refine Or.inr ⟨i, ?_, ?_, harg⟩
      · rw [hslots, Function.update_of_ne hne]
        exact hi
      · rw [hslots, Function.update_of_ne hne]
        exact hpcb
  · intro _ _ _ _ _ hpc
    cases hpc
  · intro _ hpc
    cases hpc
  · intro _ hpc
    cases hpc

theorem Held.remove_all (h : Held b .idle l) (n : Option NetifPtr) :
    ∃ l', Held (udp_source_remove_all_on_netif b n) .idle l' := by
  unfold udp_source_remove_all_on_netif
  split
  · exact ⟨l, h⟩
  · refine List.foldlRecOn (motive := fun b' : Board => ∃ l', Held b' .idle l') _ _ ⟨l, h⟩ ?_
    rintro b' ⟨l', hb'⟩ idx -
    split
    · rename_i hon
      exact hb'.remove_slot (onNetif_in_use hon)
    · exact ⟨l', hb'⟩

/-! ## Opening -/

theorem first_free {idx : SlotIdx}
    (h : (List.finRange UDP_MAX_LISTENERS).find? (fun idx => !(b.s_listeners idx).in_use) = some idx) :
    (b.s_listeners idx).in_use = false ∧ (idx ≠ 0 → (b.s_listeners 0).in_use = true) := by
  refine ⟨by simpa using List.find?_some h, fun hne => ?_⟩
  have hhead : List.finRange UDP_MAX_LISTENERS = 0 :: (List.finRange UDP_MAX_LISTENERS).tail := by decide
  rw [hhead, List.find?_cons] at h
  cases huse : (b.s_listeners 0).in_use with
  | true => rfl
  | false =>
    rw [huse] at h
    exact absurd (Option.some.inj h).symm hne

theorem Held.create (h : Held b .idle l) {idx : SlotIdx} (hfree : (b.s_listeners idx).in_use = false)
    (hfirst : idx ≠ 0 → (b.s_listeners 0).in_use = true) {pcb : PcbPtr} {memp : List PcbPtr}
    (hm : b.udp.memp = pcb :: memp) (n : NetifPtr) (port : UInt16) :
    Held { b with udp := { b.udp with
        pcbs := Function.update b.udp.pcbs pcb { udp_pcb.zero with ttl := UDP_TTL }
        next := Function.update b.udp.next pcb none
        memp := memp } } (.opening .created idx n port pcb) l := by
  have hnd := h.memp_nodup
  rw [hm] at hnd
  obtain ⟨hpcb, hnd⟩ := List.nodup_cons.mp hnd
  have hne : ∀ p ∈ l, p ≠ pcb := by
    rintro p hp rfl
    exact h.live p hp (by rw [hm]; exact List.mem_cons_self)
  have hout : ∀ p, p ∉ b.udp.memp → p ∉ memp := by
    intro p hp hmem
    exact hp (by rw [hm]; exact List.mem_cons_of_mem _ hmem)
  refine ⟨?_, hnd, fun p hp => hout p (h.live p hp), fun p hp => ?_, fun i hi => ?_, h.inj, fun p hp hr => ?_, ?_, ?_, ?_⟩
  · exact (seg_congr fun q hq => Function.update_of_ne (hne q hq) _ _).mpr h.chain
  · dsimp only
    rw [Function.update_of_ne (hne p hp)]
    exact h.port p hp
  · obtain ⟨p, hp, hpm⟩ := h.owned i hi
    exact ⟨p, hp, hout p hpm⟩
  · dsimp only at hr ⊢
    rw [Function.update_of_ne (hne p hp)] at hr ⊢
    rcases h.serves p hp hr with hf | howned
    · cases hf
    · exact Or.inr howned
  · intro stage idx' n' port' pcb' hpc _
    cases hpc
    have hunowned : ∀ i, (b.s_listeners i).in_use = true → (b.s_listeners i).pcb ≠ some pcb := by
      intro i hi heq
      obtain ⟨p, hp, hpm⟩ := h.owned i hi
      obtain rfl := Option.some.inj (hp.symm.trans heq)
      exact hpm (by rw [hm]; exact List.mem_cons_self)
    have hnew : NewPcb .created idx { udp_pcb.zero with ttl := UDP_TTL } :=
      ⟨fun hr => absurd hr (by decide), fun _ => rfl, fun _ => rfl, fun hr => absurd hr (by decide),
        fun hr => absurd hr (by decide)⟩
    refine ⟨⟨hpcb, hunowned⟩, hfree, hfirst, fun _ hp => hne pcb hp rfl, fun hst => (by cases hst), ?_, ?_⟩
    · dsimp only
      rw [Function.update_self]
      exact hnew
    · exact fun hr => absurd hr (by decide)
  · intro _ hpc
    cases hpc
  · intro _ hpc
    cases hpc

variable {stage stage' : Stage} {idx : SlotIdx} {n : NetifPtr} {port port' : UInt16} {pcb : PcbPtr}

theorem flying_opening (h : stage.rank ≤ 8) : (MainPc.opening stage idx n port pcb).flying = some pcb := if_pos h

theorem Held.serves_other (h : Held b (.opening stage idx n port pcb) l) {p : PcbPtr} (hp : p ∈ l) (hne : p ≠ pcb)
    (hr : (b.udp.pcbs p).recv = some .udp_rx_callback) :
    ∃ i : SlotIdx, (b.s_listeners i).in_use = true ∧ (b.s_listeners i).pcb = some p ∧ (b.udp.pcbs p).recv_arg = i := by
  rcases h.serves p hp hr with hf | howned
  · simp only [MainPc.flying] at hf
    split at hf
    · exact absurd (Option.some.inj hf).symm hne
    · cases hf
  · exact howned

theorem Held.write (h : Held b (.opening stage idx n port pcb) l) (hrank : stage.rank ≤ 8) (hrank' : stage'.rank ≤ 6)
    (hlist : stage'.rank ≤ 3 → stage.rank ≤ 3) (hlinked : stage' ≠ .linked) {f : udp_pcb → udp_pcb}
    (hport : pcb ∈ l → (f (b.udp.pcbs pcb)).local_port ≠ 0) (hnew : NewPcb stage' idx (f (b.udp.pcbs pcb))) :
    Held { b with udp := b.udp.modify pcb f } (.opening stage' idx n port' pcb) l := by
  have hf := h.flight stage idx n port pcb rfl hrank
  refine ⟨h.chain, h.memp_nodup, h.live, fun p hp => ?_, h.owned, h.inj, fun p hp hr => ?_, ?_, ?_, ?_⟩
  · by_cases hpe : p = pcb
    · subst hpe
      simp only [Udp.modify, Function.update_self]
      exact hport hp
    · simp only [Udp.modify, Function.update_of_ne hpe]
      exact h.port p hp
  · by_cases hpe : p = pcb
    · subst hpe
      exact Or.inl (flying_opening (by omega))
    · simp only [Udp.modify, Function.update_of_ne hpe] at hr ⊢
      exact Or.inr (h.serves_other hp hpe hr)
  · intro stage₁ idx₁ n₁ port₁ pcb₁ hpc _
    cases hpc
    refine ⟨⟨hf.loose.allocated, hf.loose.unowned⟩, hf.free, hf.first, fun hr => hf.off (hlist hr), fun hst => absurd hst hlinked, ?_, ?_⟩
    · simp only [Udp.modify, Function.update_self]
      exact hnew
    · exact fun hr => absurd hr (by omega)
  · intro _ hpc
    cases hpc
  · intro _ hpc
    cases hpc

/-- `pcb->next = udp_pcbs`. -/
theorem Held.link (h : Held b (.opening .ported idx n port pcb) l) :
    Held { b with udp := { b.udp with next := Function.update b.udp.next pcb b.udp.udp_pcbs } }
      (.opening .linked idx n port pcb) l := by
  have hf := h.flight .ported idx n port pcb rfl (by decide)
  have hoff : pcb ∉ l := hf.off (by decide)
  have hne : ∀ p ∈ l, p ≠ pcb := by
    rintro p hp rfl
    exact hoff hp
  refine ⟨?_, h.memp_nodup, h.live, h.port, h.owned, h.inj, fun p hp hr => ?_, ?_, ?_, ?_⟩
  · exact (seg_congr fun q hq => Function.update_of_ne (hne q hq) _ _).mpr h.chain
  · exact Or.inr (h.serves_other hp (hne p hp) hr)
  · intro stage₁ idx₁ n₁ port₁ pcb₁ hpc _
    cases hpc
    have hw := hf.written
    refine ⟨⟨hf.loose.allocated, hf.loose.unowned⟩, hf.free, hf.first, fun _ => hoff, fun _ => ?_, ?_, fun hr => absurd hr (by decide)⟩
    · dsimp only
      rw [Function.update_self]
      have hc := h.chain
      cases l with
      | nil => exact Or.inl hc
      | cons q l => exact Or.inr ⟨q, List.mem_cons_self, hc.1⟩
    · exact ⟨fun _ => hw.port (by decide), fun _ => hw.silent (by decide), fun _ => hw.arg_zero (by decide),
        fun hr => absurd hr (by decide), fun hr => absurd hr (by decide)⟩
  · intro _ hpc
    cases hpc
  · intro _ hpc
    cases hpc

/-- `udp_pcbs = pcb`. What interrupts have moved in front of the old head since is lost. -/
theorem Held.enlist (h : Held b (.opening .linked idx n port pcb) l) :
    ∃ l', Held { b with udp := { b.udp with udp_pcbs := some pcb } } (.opening .bound idx n port pcb) l' := by
  have hf := h.flight .linked idx n port pcb rfl (by decide)
  have hoff : pcb ∉ l := hf.off (by decide)
  obtain ⟨rest, hrest, hsub⟩ : ∃ rest, Chain b.udp.next (b.udp.next pcb) rest ∧ rest ⊆ l := by
    rcases hf.linked rfl with hnone | ⟨q, hq, hnext⟩
    · rw [hnone]
      exact ⟨[], rfl, List.nil_subset l⟩
    · obtain ⟨l₁, l₂, hsplit⟩ := List.append_of_mem hq
      have hc := h.chain
      rw [hsplit] at hc
      obtain ⟨m, -, hm, htail⟩ := (seg_append _ _ _ _ _).mp hc
      rw [hnext]
      refine ⟨q :: l₂, ⟨rfl, htail⟩, ?_⟩
      rw [hsplit]
      exact List.subset_append_right l₁ _
  have hw := hf.written
  refine ⟨pcb :: rest, ⟨rfl, hrest⟩, h.memp_nodup, ?_, ?_, h.owned, h.inj, ?_, ?_, ?_, ?_⟩
  · intro p hp
    rcases List.mem_cons.mp hp with rfl | hp
    · exact hf.loose.allocated
    · exact h.live p (hsub hp)
  · intro p hp
    rcases List.mem_cons.mp hp with rfl | hp
    · exact hw.port (by decide)
    · exact h.port p (hsub hp)
  · intro p hp hr
    rcases List.mem_cons.mp hp with rfl | hmem
    · exact Or.inl (flying_opening (by decide))
    · have hne : p ≠ pcb := by
        rintro rfl
        exact hoff (hsub hmem)
      exact Or.inr (h.serves_other (hsub hmem) hne hr)
  · intro stage₁ idx₁ n₁ port₁ pcb₁ hpc _
    cases hpc
    refine ⟨⟨hf.loose.allocated, hf.loose.unowned⟩, hf.free, hf.first, fun hr => absurd hr (by decide), fun hst => (by cases hst), ?_,
      fun hr => absurd hr (by decide)⟩
    exact ⟨fun _ => hw.port (by decide), fun _ => hw.silent (by decide), fun _ => hw.arg_zero (by decide),
      fun hr => absurd hr (by decide), fun hr => absurd hr (by decide)⟩
  · intro _ hpc
    cases hpc
  · intro _ hpc
    cases hpc

theorem Flight.other (hf : Flight b l stage idx pcb) {i : SlotIdx} (hi : (b.s_listeners i).in_use = true) :
    i ≠ idx := by
  rintro rfl
  rw [hf.free] at hi
  cases hi

theorem Held.write_slot (h : Held b (.opening stage idx n port pcb) l) (hrank : stage.rank ≤ 8) (stage' : Stage)
    (hstage : stage'.rank = 7 ∨ stage'.rank = 8) (f : udp_listener_t → udp_listener_t)
    (hf : ∀ s, (f s).in_use = s.in_use) (hpcb : (f (b.s_listeners idx)).pcb = some pcb)
    (hnew : NewPcb stage' idx (b.udp.pcbs pcb)) :
    Held (b.modifySlot idx f) (.opening stage' idx n port pcb) l := by
  have hflight := h.flight stage idx n port pcb rfl hrank
  have hsame : ∀ i, i ≠ idx → (b.modifySlot idx f).s_listeners i = b.s_listeners i :=
    fun i hi => Function.update_of_ne hi _ _
  have hself : (b.modifySlot idx f).s_listeners idx = f (b.s_listeners idx) := Function.update_self _ _ _
  have hclosed : ((b.modifySlot idx f).s_listeners idx).in_use = false := by
    rw [hself, hf, hflight.free]
  have hopen : ∀ i, ((b.modifySlot idx f).s_listeners i).in_use = true → i ≠ idx := by
    rintro i hi rfl
    rw [hclosed] at hi
    cases hi
  refine ⟨h.chain, h.memp_nodup, h.live, h.port, fun i hi => ?_, fun i j p hi hj hpi hpj => ?_, fun p hp hr => ?_, ?_, ?_, ?_⟩
  · have hne := hopen i hi
    rw [hsame i hne] at hi ⊢
    exact h.owned i hi
  · have hni := hopen i hi
    have hnj := hopen j hj
    rw [hsame i hni] at hi hpi
    rw [hsame j hnj] at hj hpj
    exact h.inj i j p hi hj hpi hpj
  · by_cases hpe : p = pcb
    · subst hpe
      exact Or.inl (flying_opening (by omega))
    · obtain ⟨i, hi, hpi, harg⟩ := h.serves_other hp hpe hr
      refine Or.inr ⟨i, ?_, ?_, harg⟩ <;> rw [hsame i (hflight.other hi)]
      · exact hi
      · exact hpi
  · intro stage₁ idx₁ n₁ port₁ pcb₁ hpc _
    cases hpc
    refine ⟨⟨hflight.loose.allocated, fun i hi => ?_⟩, hclosed, fun h0 => ?_, fun hr => absurd hr (by omega), ?_, hnew,
      fun _ => hself ▸ hpcb⟩
    · have hne := hopen i hi
      rw [hsame i hne] at hi ⊢
      exact hflight.loose.unowned i hi
    · rw [hsame 0 (Ne.symm h0)]
      exact hflight.first h0
    · rintro rfl
      rcases hstage with hst | hst <;> cases hst
  · intro _ hpc
    cases hpc
  · intro _ hpc
    cases hpc

/-- `s_listeners[idx].in_use = 1`: from here on the control block belongs to the slot. -/
theorem Held.register (h : Held b (.opening .netif_set idx n port pcb) l) :
    Held (b.modifySlot idx (fun s => { s with in_use := true })) (.opening .used idx n port pcb) l := by
  have hf := h.flight .netif_set idx n port pcb rfl (by decide)
  have hslot := hf.slot (by decide)
  have hself : (b.modifySlot idx (fun s => { s with in_use := true })).s_listeners idx =
      { b.s_listeners idx with in_use := true } := Function.update_self _ _ _
  have hsame : ∀ i, i ≠ idx →
      (b.modifySlot idx (fun s => { s with in_use := true })).s_listeners i = b.s_listeners i :=
    fun i hi => Function.update_of_ne hi _ _
  refine ⟨h.chain, h.memp_nodup, h.live, h.port, fun i hi => ?_, fun i j p hi hj hpi hpj => ?_, fun p hp hr => ?_, ?_, ?_, ?_⟩
  · by_cases hii : i = idx
    · subst hii
      rw [hself]
      exact ⟨pcb, hslot, hf.loose.allocated⟩
    · rw [hsame i hii] at hi ⊢
      exact h.owned i hi
  · -- Only the slot `idx` has the new control block.
    have honly : ∀ k, k ≠ idx → ((b.modifySlot idx (fun s => { s with in_use := true })).s_listeners k).in_use = true →
        ((b.modifySlot idx (fun s => { s with in_use := true })).s_listeners k).pcb ≠ some pcb := by
      intro k hk huse
      rw [hsame k hk] at huse ⊢
      exact hf.loose.unowned k huse
    by_cases hii : i = idx
    · subst hii
      rw [hself] at hpi
      obtain rfl := Option.some.inj (hslot.symm.trans hpi)
      by_contra hne
      exact honly j (Ne.symm hne) hj hpj
    · by_cases hjj : j = idx
      · subst hjj
        rw [hself] at hpj
        obtain rfl := Option.some.inj (hslot.symm.trans hpj)
        exact absurd hpi (honly i hii hi)
      · rw [hsame i hii] at hi hpi
        rw [hsame j hjj] at hj hpj
        exact h.inj i j p hi hj hpi hpj
  · by_cases hpe : p = pcb
    · subst hpe
      refine Or.inr ⟨idx, ?_, ?_, hf.written.arg (by decide)⟩ <;> rw [hself]
      exact hslot
    · obtain ⟨i, hi, hpi, harg⟩ := h.serves_other hp hpe hr
      refine Or.inr ⟨i, ?_, ?_, harg⟩ <;> rw [hsame i (hf.other hi)]
      · exact hi
      · exact hpi
  · intro stage₁ idx₁ n₁ port₁ pcb₁ hpc hrank
    cases hpc
    exact absurd hrank (by decide)
  · intro _ hpc
    cases hpc
  · intro _ hpc
    cases hpc

theorem Held.give_back (h : Held b (.failed pcb) l) : Held { b with udp := udp_remove b.udp pcb } .idle l := by
  obtain ⟨hloose, hoff⟩ := h.failed pcb rfl
  have hchain := udp_remove_chain h.chain pcb
  rw [List.erase_of_not_mem hoff] at hchain
  refine ⟨hchain, List.nodup_cons.mpr ⟨hloose.allocated, h.memp_nodup⟩, fun p hp => ?_, h.port, fun i hi => ?_, h.inj,
    fun p hp hr => ?_, ?_, ?_, ?_⟩
  · refine List.not_mem_cons_of_ne_of_not_mem ?_ (h.live p hp)
    rintro rfl
    exact hoff hp
  · obtain ⟨p, hp, hfree⟩ := h.owned i hi
    refine ⟨p, hp, List.not_mem_cons_of_ne_of_not_mem ?_ hfree⟩
    rintro rfl
    exact hloose.unowned i hi hp
  · rcases h.serves p hp hr with hf | howned
    · obtain rfl := Option.some.inj hf
      exact absurd hp hoff
    · exact Or.inr howned
  · intro _ _ _ _ _ hpc
    cases hpc
  · intro _ hpc
    cases hpc
  · intro _ hpc
    cases hpc

/-- `udp_bind` fails before the control block is on the list. -/
theorem Held.fail (h : Held b (.opening stage idx n port pcb) l) (hrank : stage.rank ≤ 3) : Held b (.failed pcb) l := by
  have hf := h.flight stage idx n port pcb rfl (by omega)
  have hoff := hf.off hrank
  refine ⟨h.chain, h.memp_nodup, h.live, h.port, h.owned, h.inj, fun p hp hr => ?_, ?_, ?_, ?_⟩
  · have hne : p ≠ pcb := by
      rintro rfl
      exact hoff hp
    exact Or.inr (h.serves_other hp hne hr)
  · intro _ _ _ _ _ hpc
    cases hpc
  · intro pcb₁ hpc
    cases hpc
    exact ⟨hf.loose, hoff⟩
  · intro _ hpc
    cases hpc

/-- `udp_new_port` changes neither the list nor the control blocks. -/
theorem Held.new_port (h : Held b (.opening stage idx n port pcb) l) (hrank : stage.rank ≤ 8) (udp_port : UInt16) :
    Held { b with udp := { b.udp with udp_port := udp_port } } (.opening stage idx n port' pcb) l := by
  have hf := h.flight stage idx n port pcb rfl hrank
  refine ⟨h.chain, h.memp_nodup, h.live, h.port, h.owned, h.inj, h.serves, ?_, ?_, ?_⟩
  · intro stage₁ idx₁ n₁ port₁ pcb₁ hpc _
    cases hpc
    exact ⟨⟨hf.loose.allocated, hf.loose.unowned⟩, hf.free, hf.first, hf.off, hf.linked, hf.written, hf.slot⟩
  · intro _ hpc
    cases hpc
  · intro _ hpc
    cases hpc

theorem Held.statement (h : Held b (.opening stage idx n port pcb) l) (hport : stage = .addressed → port ≠ 0) :
    ∃ l', Held (Main.statement b idx n port pcb stage) (Main.nextPc idx n port pcb stage) l' := by
  have hw : stage.rank ≤ 8 → NewPcb stage idx (b.udp.pcbs pcb) :=
    fun hr => (h.flight stage idx n port pcb rfl hr).written
  cases stage with
  | created =>
    have hw := hw (by decide)
    have hoff : pcb ∉ l := (h.flight .created idx n port pcb rfl (by decide)).off (by decide)
    refine ⟨l, h.write (by decide) (by decide) (fun _ => by decide) (by decide) (fun hm => absurd hm hoff) ?_⟩
    exact ⟨fun hr => absurd hr (by decide), fun _ => hw.silent (by decide), fun _ => hw.arg_zero (by decide),
      fun hr => absurd hr (by decide), fun hr => absurd hr (by decide)⟩
  | addressed =>
    have hw := hw (by decide)
    have hoff : pcb ∉ l := (h.flight .addressed idx n port pcb rfl (by decide)).off (by decide)
    refine ⟨l, h.write (by decide) (by decide) (fun _ => by decide) (by decide) (fun hm => absurd hm hoff) ?_⟩
    exact ⟨fun _ => hport rfl, fun _ => hw.silent (by decide), fun _ => hw.arg_zero (by decide),
      fun hr => absurd hr (by decide), fun hr => absurd hr (by decide)⟩
  | ported => exact ⟨l, h.link⟩
  | linked => exact h.enlist
  | bound =>
    have hw := hw (by decide)
    refine ⟨l, h.write (by decide) (by decide) (fun hr => absurd hr (by decide)) (by decide)
      (fun _ => hw.port (by decide)) ?_⟩
    exact ⟨fun _ => hw.port (by decide), fun hr => absurd hr (by decide), fun _ => hw.arg_zero (by decide),
      fun _ => rfl, fun hr => absurd hr (by decide)⟩
  | callback =>
    have hw := hw (by decide)
    refine ⟨l, h.write (by decide) (by decide) (fun hr => absurd hr (by decide)) (by decide)
      (fun _ => hw.port (by decide)) ?_⟩
    exact ⟨fun _ => hw.port (by decide), fun hr => absurd hr (by decide), fun hr => absurd hr (by decide),
      fun _ => hw.calls (by decide), fun _ => rfl⟩
  | armed =>
    have hw := hw (by decide)
    refine ⟨l, h.write_slot (by decide) .pcb_set (Or.inl rfl) (fun s => { s with pcb := some pcb }) (fun _ => rfl) rfl ?_⟩
    exact ⟨fun _ => hw.port (by decide), fun hr => absurd hr (by decide), fun hr => absurd hr (by decide),
      fun _ => hw.calls (by decide), fun _ => hw.arg (by decide)⟩
  | pcb_set =>
    have hw := hw (by decide)
    have hslot := (h.flight .pcb_set idx n port pcb rfl (by decide)).slot (by decide)
    refine ⟨l, h.write_slot (by decide) .netif_set (Or.inr rfl) (fun s => { s with netif := some n }) (fun _ => rfl)
      hslot ?_⟩
    exact ⟨fun _ => hw.port (by decide), fun hr => absurd hr (by decide), fun hr => absurd hr (by decide),
      fun _ => hw.calls (by decide), fun _ => hw.arg (by decide)⟩
  | netif_set => exact ⟨l, h.register⟩
  | used =>
    have hslot := h.modifySlot idx (fun s => { s with rx_count := 0 }) (fun _ => ⟨rfl, rfl⟩)
    refine ⟨l, hslot.move rfl (fun _ _ _ _ _ hpc => ?_) (fun _ hpc => by cases hpc) (fun _ hpc => by cases hpc)⟩
    cases hpc
    decide
  | counted =>
    have hslot := h.modifySlot idx (fun s => { s with rx_drop_count := 0 }) (fun _ => ⟨rfl, rfl⟩)
    refine ⟨l, hslot.move rfl (fun _ _ _ _ _ hpc => ?_) (fun _ hpc => by cases hpc) (fun _ hpc => by cases hpc)⟩
    cases hpc
    decide
  | drop_counted =>
    have hslot := h.modifySlot idx (fun s => { s with rx_msg := { s.rx_msg with valid := false } })
      (fun _ => ⟨rfl, rfl⟩)
    exact ⟨l, hslot.move rfl (fun _ _ _ _ _ hpc => by cases hpc) (fun _ hpc => by cases hpc)
      (fun _ hpc => by cases hpc)⟩

end Main

/-! ## Steps -/

theorem held_step {m : Main} (h : ∃ l, Held m.board m.pc l) (a : Main.Stmt) (ha : Main.allowed m a) :
    ∃ l, Held (m.step a).board (m.step a).pc l := by
  obtain ⟨l, h⟩ := h
  obtain ⟨b, pc, handed⟩ := m
  dsimp only at h
  cases a with
  | add_listener n port =>
    obtain rfl : pc = .idle := ha
    simp only [Main.step, Main.move]
    split
    · exact ⟨l, h⟩
    · rename_i idx hfind
      obtain ⟨hfree, hfirst⟩ := first_free hfind
      unfold udp_new
      cases hm : b.udp.memp with
      | nil => exact ⟨l, h⟩
      | cons pcb memp => exact ⟨l, h.create hfree hfirst hm n port⟩
  | refuse =>
    obtain ⟨idx, n, port, pcb, rfl⟩ := ha
    exact ⟨l, h.fail (by decide)⟩
  | new_port port udp_port =>
    obtain ⟨idx, n, pcb, rfl⟩ := ha
    have hnew : ∀ port', Held { b with udp := { b.udp with udp_port := udp_port } }
        (.opening .addressed idx n port' pcb) l := fun port' => h.new_port (by decide) udp_port
    simp only [Main.step, Main.move]
    split
    · exact ⟨l, (hnew port).fail (by decide)⟩
    · exact ⟨l, hnew port⟩
  | next =>
    obtain ⟨stage, idx, n, port, pcb, rfl, hport⟩ := ha
    exact h.statement hport
  | give_back =>
    obtain ⟨pcb, rfl⟩ := ha
    exact ⟨l, h.give_back⟩
  | remove_listener id =>
    obtain rfl : pc = .idle := ha
    simp only [Main.step, Main.move]
    split
    · exact ⟨l, h⟩
    · rename_i idx hres
      refine ⟨l, h.move rfl (fun _ _ _ _ _ hpc => by cases hpc) (fun _ hpc => by cases hpc) (fun idx₁ hpc => ?_)⟩
      cases hpc
      exact resolve_in_use hres
  | remove_slot =>
    obtain ⟨idx, rfl⟩ := ha
    have huse := h.closing idx rfl
    have hidle : Held b .idle l :=
      h.move rfl (fun _ _ _ _ _ hpc => by cases hpc) (fun _ hpc => by cases hpc) (fun _ hpc => by cases hpc)
    exact hidle.remove_slot huse
  | remove_all_on_netif n =>
    obtain rfl : pc = .idle := ha
    exact h.remove_all n
  | poll_rx id =>
    obtain rfl : pc = .idle := ha
    simp only [Main.step, Main.move]
    split
    · exact ⟨l, h⟩
    · exact ⟨l, h.move rfl (fun _ _ _ _ _ hpc => by cases hpc) (fun _ hpc => by cases hpc)
        (fun _ hpc => by cases hpc)⟩
  | read =>
    obtain ⟨idx, rfl⟩ := ha
    have hidle : Held b .idle l :=
      h.move rfl (fun _ _ _ _ _ hpc => by cases hpc) (fun _ hpc => by cases hpc) (fun _ hpc => by cases hpc)
    simp only [Main.step, Main.move]
    split
    · exact ⟨l, hidle.modifySlot idx readSlot (fun _ => ⟨rfl, rfl⟩)⟩
    · exact ⟨l, hidle⟩
  | receive inp d alloc out => exact h.receive inp d alloc out

end MultiIp.Board
