import MultiIp.Lwip.Udp
import Mathlib.Data.List.Perm.Subperm

/-!
# What the UDP functions do to the list and the pool

`Udp.Wf u held l`: the list is `l`, `held` are the control blocks that a caller
has taken and not yet bound, and with the free ones that is the whole pool.
-/

namespace MultiIp.Lwip

open Lib

structure Udp.Wf (u : Udp) (held l : List PcbPtr) : Prop where
  chain : Chain u.next u.udp_pcbs l
  pool : (held ++ l ++ u.memp).Perm (List.finRange MEMP_NUM_UDP_PCB)

namespace Udp.Wf

variable {u : Udp} {held l : List PcbPtr}

theorem nodup (h : u.Wf held l) : (held ++ l ++ u.memp).Nodup :=
  h.pool.nodup_iff.mpr (List.nodup_finRange _)

theorem length_eq (h : u.Wf held l) : held.length + l.length + u.memp.length = MEMP_NUM_UDP_PCB := by
  have := h.pool.length_eq
  simp at this
  omega

theorem list_nodup (h : u.Wf held l) : l.Nodup := chain_nodup h.chain

theorem list_eq (h : u.Wf held l) : u.list = l :=
  walk_eq h.chain (by have := h.length_eq; omega)

theorem not_mem_of_held {p : PcbPtr} (h : u.Wf [p] l) : p ∉ l := by
  have := h.nodup
  simp only [List.cons_append, List.nil_append, List.nodup_cons, List.mem_append, not_or] at this
  exact this.1.1

theorem of_eq {u' : Udp} (h : u.Wf held l) (hn : u'.next = u.next) (hh : u'.udp_pcbs = u.udp_pcbs)
    (hm : u'.memp = u.memp) : u'.Wf held l :=
  ⟨by rw [hn, hh]; exact h.chain, by rw [hm]; exact h.pool⟩

theorem modify (h : u.Wf held l) (p : PcbPtr) (f : udp_pcb → udp_pcb) : (u.modify p f).Wf held l :=
  h.of_eq rfl rfl rfl

theorem push {p : PcbPtr} (h : u.Wf [p] l) : (u.push p).Wf [] (p :: l) :=
  ⟨chain_push h.chain h.not_mem_of_held, h.pool⟩

theorem init : Udp.init.Wf [] [] :=
  ⟨rfl, (List.reverse_perm _)⟩

end Udp.Wf

/-! ## Allocation and binding -/

theorem udp_new_spec {u : Udp} {l : List PcbPtr} (h : u.Wf [] l) :
    (u.memp = [] ∧ udp_new u = (u, none)) ∨
    ∃ p u', udp_new u = (u', some p) ∧ u'.Wf [p] l ∧
      u'.pcbs = Function.update u.pcbs p { udp_pcb.zero with ttl := UDP_TTL } := by
  unfold udp_new
  cases hm : u.memp with
  | nil => exact Or.inl ⟨rfl, rfl⟩
  | cons p memp =>
    refine Or.inr ⟨p, _, rfl, ⟨?_, ?_⟩, rfl⟩
    · have hnd := h.nodup
      rw [hm] at hnd
      refine (seg_congr fun b hb => ?_).mpr h.chain
      refine Function.update_of_ne ?_ _ _
      rintro rfl
      simp [List.nodup_append] at hnd
      exact (hnd.2.2 b hb).1 rfl
    · refine List.Perm.trans ?_ h.pool
      rw [hm]
      exact List.perm_middle.symm

theorem udp_new_port_again_fst (n : Nat) (u : Udp) :
    ∃ x, (udp_new_port_again n u).1 = { u with udp_port := x } := by
  induction n generalizing u with
  | zero =>
    unfold udp_new_port_again
    split <;> exact ⟨_, rfl⟩
  | succ n ih =>
    unfold udp_new_port_again
    split
    · exact ih u.nextPort
    · exact ⟨_, rfl⟩

/-- Choosing a port only moves `udp_port`. -/
theorem udp_new_port_fst (u : Udp) : ∃ x, (udp_new_port u).1 = { u with udp_port := x } :=
  udp_new_port_again_fst _ u

/-- The port that is chosen is 0 or one that no control block of the list has. -/
theorem udp_new_port_again_free (n : Nat) (u : Udp) :
    (udp_new_port_again n u).2 = 0 ∨ ∀ q ∈ u.list, (u.pcbs q).local_port ≠ (udp_new_port_again n u).2 := by
  have hfree : ∀ u : Udp, u.nextPort.portTaken = false → ∀ q ∈ u.list, (u.pcbs q).local_port ≠ u.nextPort.udp_port := by
    intro u h q hq heq
    have htaken : u.nextPort.portTaken = true := List.any_eq_true.mpr ⟨q, hq, beq_iff_eq.mpr heq⟩
    rw [h] at htaken
    cases htaken
  induction n generalizing u with
  | zero =>
    unfold udp_new_port_again
    split
    · exact Or.inl rfl
    · rename_i hnot
      exact Or.inr (hfree u (Bool.not_eq_true _ ▸ hnot))
  | succ n ih =>
    unfold udp_new_port_again
    split
    · exact ih u.nextPort
    · rename_i hnot
      exact Or.inr (hfree u (Bool.not_eq_true _ ▸ hnot))

theorem udp_new_port_free (u : Udp) :
    (udp_new_port u).2 = 0 ∨ ∀ q ∈ u.list, (u.pcbs q).local_port ≠ (udp_new_port u).2 :=
  udp_new_port_again_free _ u

/-- Binding a new control block puts it on the list, with a port that is not 0 and at which no other is in
the way, or changes nothing but it. -/
theorem udp_bind_new {u : Udp} {l : List PcbPtr} {p : PcbPtr} (h : u.Wf [p] l) (ip : ip_addr_t) (port : UInt16) :
    (∃ u' port', udp_bind u p ip port = (u', .ERR_OK) ∧ u'.Wf [] (p :: l) ∧ port' ≠ 0 ∧
        (port ≠ 0 → port' = port) ∧ (∀ q ∈ l, bindClash u p ip port' q = false) ∧
        u'.pcbs = Function.update u.pcbs p { u.pcbs p with local_ip := ip, local_port := port' }) ∨
    ∃ u', udp_bind u p ip port = (u', .ERR_USE) ∧ u'.Wf [p] l ∧ (∀ q, q ≠ p → u'.pcbs q = u.pcbs q) ∧
      (port ≠ 0 → ∃ q ∈ l, bindClash u p ip port q = true) := by
  unfold udp_bind
  have hreb : l.any (fun ipcb => p == ipcb) = false := by
    simpa using fun q hq => fun heq : p = q => h.not_mem_of_held (heq ▸ hq)
  simp only [h.list_eq, hreb]
  split
  · rename_i hclash
    exact Or.inr ⟨u, rfl, h, fun _ _ => rfl, fun _ => List.any_eq_true.mp hclash⟩
  · rename_i hclash
    -- Port 0 is replaced by a new port, any other is kept.
    obtain ⟨v, port', hv, hvp, hclear, hnew⟩ : ∃ v port',
        (if port = 0 then udp_new_port (u.modify p fun c => { c with local_ip := ip })
          else (u.modify p fun c => { c with local_ip := ip }, port)) = (v, port') ∧
        (port ≠ 0 → port' = port) ∧ (port' = 0 ∨ ∀ q ∈ l, bindClash u p ip port' q = false) ∧
        ∃ x, v = { u.modify p fun c => { c with local_ip := ip } with udp_port := x } := by
      by_cases hp : port = 0
      · rw [if_pos hp]
        refine ⟨(udp_new_port (u.modify p fun c => { c with local_ip := ip })).1,
          (udp_new_port (u.modify p fun c => { c with local_ip := ip })).2, rfl, fun h => absurd hp h, ?_,
          udp_new_port_fst _⟩
        refine (udp_new_port_free (u.modify p fun c => { c with local_ip := ip })).imp_right fun hfree q hq => ?_
        have hne : q ≠ p := fun heq => h.not_mem_of_held (heq ▸ hq)
        have hport := hfree q (by rw [(h.modify p _).list_eq]; exact hq)
        have hsame : (u.modify p fun c => { c with local_ip := ip }).pcbs q = u.pcbs q := Function.update_of_ne hne _ _
        rw [hsame] at hport
        simp [bindClash, hport]
      · rw [if_neg hp]
        exact ⟨_, _, rfl, fun _ => rfl, Or.inr (by simpa using hclash), _, rfl⟩
    obtain ⟨x, rfl⟩ := hnew
    have hwf : ({ u.modify p fun c => { c with local_ip := ip } with udp_port := x } : Udp).Wf [p] l :=
      h.of_eq rfl rfl rfl
    rw [hv]
    dsimp only
    split
    · rename_i hzero
      refine Or.inr ⟨_, rfl, hwf, fun q hq => ?_, fun hp => absurd hzero ?_⟩
      · simp [Udp.modify, hq]
      · rw [hvp hp]
        exact hp
    · rename_i hport
      refine Or.inl ⟨_, port', rfl, (hwf.modify _ _).push, hport, hvp, hclear.resolve_left hport, ?_⟩
      simp [Udp.modify, Udp.push]

theorem udp_bind_rebind {u : Udp} {l : List PcbPtr} {p : PcbPtr} (h : u.Wf [] l) (hp : p ∈ l) (ip : ip_addr_t)
    (hport : (u.pcbs p).local_port ≠ 0) :
    udp_bind u p ip (u.pcbs p).local_port =
      if l.any (bindClash u p ip (u.pcbs p).local_port) then (u, .ERR_USE)
      else (u.modify p (fun c => { c with local_ip := ip }), .ERR_OK) := by
  unfold udp_bind
  have hreb : l.any (fun ipcb => p == ipcb) = true := by simpa using hp
  simp only [h.list_eq, hreb, if_neg hport, if_true]
  split
  · rfl
  · simp [Udp.modify]

theorem udp_connect_bound {u : Udp} {l : List PcbPtr} {p : PcbPtr} (h : u.Wf [] l) (hp : p ∈ l)
    (hport : (u.pcbs p).local_port ≠ 0) (ip : ip_addr_t) (port : UInt16) :
    udp_connect u p ip port = (u.modify p (fun c =>
      { c with remote_ip := ip, remote_port := port, flags := c.flags ||| UDP_FLAGS_CONNECTED }), .ERR_OK) := by
  have hany : (u.modify p (fun c =>
      { c with remote_ip := ip, remote_port := port, flags := c.flags ||| UDP_FLAGS_CONNECTED })).list.any
      (fun ipcb => p == ipcb) = true := by
    rw [(h.modify p _).list_eq]
    simpa using hp
  simp [udp_connect, hport, hany]

/-! ## Removal -/

theorem pcbs_length_le {l : List PcbPtr} (h : l.Nodup) : l.length ≤ MEMP_NUM_UDP_PCB := by
  have hsub := h.subperm (fun q _ => List.mem_finRange q)
  exact hsub.length_le.trans_eq List.length_finRange

/-- Removing takes the control block off the list, if it is there. -/
theorem udp_remove_chain {u : Udp} {l : List PcbPtr} (h : Chain u.next u.udp_pcbs l) (p : PcbPtr) :
    Chain (udp_remove u p).next (udp_remove u p).udp_pcbs (l.erase p) := by
  by_cases hp : p ∈ l
  · exact chain_unlink h hp (pcbs_length_le (chain_nodup h))
  · have hne : u.udp_pcbs ≠ some p := by
      intro heq
      rw [heq] at h
      cases l with
      | nil => cases h
      | cons a l =>
        obtain ⟨hpa, -⟩ := h
        obtain rfl := Option.some.inj hpa
        exact hp List.mem_cons_self
    rw [List.erase_of_not_mem hp]
    simp only [udp_remove, if_neg hne, headWithout]
    rw [unlink_of_not_mem h (fun hm => hp (List.mem_of_mem_tail hm))]
    exact h

theorem udp_remove_spec {u : Udp} {l : List PcbPtr} {p : PcbPtr} (h : u.Wf [] l) (hp : p ∈ l) :
    (udp_remove u p).Wf [] (l.erase p) := by
  refine ⟨udp_remove_chain h.chain p, ?_⟩
  refine List.Perm.trans ?_ h.pool
  have herase := List.perm_cons_erase hp
  simp only [udp_remove, List.nil_append]
  exact List.perm_middle.trans (herase.symm.append_right u.memp)

theorem udp_remove_held {u : Udp} {l : List PcbPtr} {p : PcbPtr} (h : u.Wf [p] l) :
    (udp_remove u p).Wf [] l := by
  have hchain := udp_remove_chain h.chain p
  rw [List.erase_of_not_mem h.not_mem_of_held] at hchain
  refine ⟨hchain, ?_⟩
  refine List.Perm.trans ?_ h.pool
  exact List.perm_middle

/-! ## Reception -/

/-- What the search does to the list: nothing, or the receiver moves to its front. -/
structure Udp.Searched (u u' : Udp) (l l' : List PcbPtr) : Prop where
  chain : Chain u'.next u'.udp_pcbs l'
  perm : l'.Perm l
  pcbs : u'.pcbs = u.pcbs
  memp : u'.memp = u.memp
  next : ∀ q, q ∉ l → u'.next q = u.next q

theorem udp_input_search_spec {u : Udp} {l : List PcbPtr} (h : Chain u.next u.udp_pcbs l) (inp : netif) (d : Datagram)
    {done rest : List PcbPtr} {prev uncon : Option PcbPtr} (hl : l = done ++ rest)
    (hprev : prev = done.getLast?) (huncon : ∀ p, uncon = some p → p ∈ l ∧ localMatch inp d (u.pcbs p)) :
    ∃ u' r l', udp_input_search u inp d rest prev uncon = (u', r) ∧ u.Searched u' l l' ∧
      ∀ p, r = some p → p ∈ l ∧ localMatch inp d (u.pcbs p) := by
  have hsame : u.Searched u l l := ⟨h, .refl l, rfl, rfl, fun _ _ => rfl⟩
  induction rest generalizing done prev uncon with
  | nil => exact ⟨u, uncon, l, rfl, hsame, huncon⟩
  | cons q rest ih =>
    have hq : q ∈ l := by simp [hl]
    unfold udp_input_search
    dsimp only
    split
    · rename_i hm
      have hlocal : localMatch inp d (u.pcbs q) = true := (Bool.and_eq_true _ _ |>.mp hm).1
      have hfound : ∀ p, some q = some p → p ∈ l ∧ localMatch inp d (u.pcbs p) := by
        rintro p ⟨⟩
        exact ⟨hq, hlocal⟩
      rcases List.eq_nil_or_concat done with rfl | ⟨done, b, rfl⟩
      · obtain rfl : prev = none := by simpa using hprev
        exact ⟨u, some q, l, rfl, hsame, hfound⟩
      · obtain rfl : prev = some b := by simpa using hprev
        -- `q` is taken out behind `b` and put in front of everything.
        have hsplit : l = done ++ b :: q :: rest := by simpa using hl
        have hb : b ∈ l := by simp [hsplit]
        have hperm : (q :: (done ++ b :: rest)).Perm l := by
          have : (q :: ((done ++ [b]) ++ rest)).Perm ((done ++ [b]) ++ q :: rest) := List.perm_middle.symm
          simpa [hsplit] using this
        refine ⟨_, _, q :: (done ++ b :: rest), rfl, ⟨?_, hperm, rfl, rfl, fun x hx => ?_⟩, hfound⟩
        · rw [hsplit] at h
          exact chain_to_front h
        · have hxq : x ≠ q := fun heq => hx (heq ▸ hq)
          have hxb : x ≠ b := fun heq => hx (heq ▸ hb)
          simp only [Udp.push]
          rw [Function.update_of_ne hxq, Function.update_of_ne hxb]
    · have hl' : l = (done ++ [q]) ++ rest := by simpa using hl
      refine ih hl' (by simp) ?_
      intro p hp
      split at hp
      · rename_i hcond
        obtain rfl : q = p := by simpa using hp
        simp only [Bool.and_eq_true] at hcond
        exact ⟨hq, hcond.1.1⟩
      · exact huncon p hp

/-- Looking for the receiver can reorder the list, and finds only a control block that matches. -/
theorem udp_input_find_chain {u : Udp} {l : List PcbPtr} (h : Chain u.next u.udp_pcbs l) (inp : netif) (d : Datagram) :
    ∃ u' r l', udp_input_find u inp d = (u', r) ∧ u.Searched u' l l' ∧
      ∀ p, r = some p → p ∈ l ∧ localMatch inp d (u.pcbs p) := by
  unfold udp_input_find
  split
  · exact ⟨u, none, l, rfl, ⟨h, .refl l, rfl, rfl, fun _ _ => rfl⟩, by simp⟩
  · have hlist : u.list = l := walk_eq h (pcbs_length_le (chain_nodup h))
    rw [hlist]
    have hl : l = [] ++ l := rfl
    exact udp_input_search_spec h inp d hl rfl (by simp)

theorem udp_input_find_spec {u : Udp} {l : List PcbPtr} (h : u.Wf [] l) (inp : netif) (d : Datagram) :
    ∃ u' r l', udp_input_find u inp d = (u', r) ∧ u'.Wf [] l' ∧ l'.Perm l ∧ u'.pcbs = u.pcbs ∧
      ∀ p, r = some p → p ∈ l ∧ localMatch inp d (u.pcbs p) := by
  obtain ⟨u', r, l', hfind, hs, hr⟩ := udp_input_find_chain h.chain inp d
  refine ⟨u', r, l', hfind, ⟨hs.chain, ?_⟩, hs.perm, hs.pcbs, hr⟩
  rw [hs.memp]
  exact (hs.perm.append_right _).trans h.pool

end MultiIp.Lwip
