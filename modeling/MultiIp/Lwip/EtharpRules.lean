import MultiIp.Lwip.Etharp

/-!
# Which interfaces the ARP table refers to

Every function of the table keeps the interfaces of the resolved entries inside
a set that contains the interface it is called for.
-/

namespace MultiIp.Lwip

/-- The interface of every resolved entry satisfies `S`. -/
def Arp.StableIn (a : Arp) (S : NetifPtr → Prop) : Prop :=
  ∀ i, (a.arp_table i).state.stable → ∃ n, (a.arp_table i).netif = some n ∧ S n

namespace Arp.StableIn

variable {a : Arp} {S : NetifPtr → Prop}

theorem init : Arp.init.StableIn S := by
  intro i hi
  exact absurd hi (by simp [Arp.init, etharp_entry.zero, etharp_state.stable])

theorem of_table {a' : Arp} (h : a.StableIn S) (heq : a'.arp_table = a.arp_table) : a'.StableIn S := by
  intro i
  rw [heq]
  exact h i

theorem linkoutput (h : a.StableIn S) (n : NetifPtr) (f : Frame) : (a.linkoutput n f).StableIn S :=
  h.of_table rfl

/-- A changed entry is either not resolved, or resolved as before, or refers to an interface of `S`. -/
theorem modify (h : a.StableIn S) (i : ArpIdx) (f : etharp_entry → etharp_entry)
    (hf : (f (a.arp_table i)).state.stable →
      ((a.arp_table i).state.stable ∧ (f (a.arp_table i)).netif = (a.arp_table i).netif) ∨
      ∃ n, (f (a.arp_table i)).netif = some n ∧ S n) : (a.modify i f).StableIn S := by
  intro j hj
  simp only [Arp.modify, Function.update_apply] at hj ⊢
  split at hj
  · rename_i hji
    subst hji
    rw [if_pos rfl]
    rcases hf hj with ⟨hst, hn⟩ | hn
    · rw [hn]
      exact h j hst
    · exact hn
  · rename_i hji
    rw [if_neg hji]
    exact h j hj

theorem modify_keep (h : a.StableIn S) (i : ArpIdx) (f : etharp_entry → etharp_entry)
    (hs : ∀ e, (f e).state = e.state) (hn : ∀ e, (f e).netif = e.netif) : (a.modify i f).StableIn S :=
  h.modify i f (fun hst => Or.inl ⟨by rwa [hs] at hst, hn _⟩)

theorem free_entry (h : a.StableIn S) (i : ArpIdx) : (etharp_free_entry a i).StableIn S :=
  h.modify i _ (by simp [etharp_state.stable])

theorem find_entry (h : a.StableIn S) (ip : ip_addr_t) (flags : FindFlag) :
    (etharp_find_entry a ip flags).1.StableIn S := by
  unfold etharp_find_entry
  split
  · exact h
  · split
    · exact h
    · split
      · dsimp only
        refine h.modify_keep _ _ ?_ ?_ <;> exact fun _ => rfl
      · split
        · exact h
        · dsimp only
          refine (h.free_entry _).modify_keep _ _ ?_ ?_ <;> exact fun _ => rfl

theorem find_addr (h : a.StableIn S) (ip : ip_addr_t) : (etharp_find_addr a ip).1.StableIn S := by
  have hf := h.find_entry ip .FIND_ONLY
  unfold etharp_find_addr
  split
  · rename_i heq
    rw [heq] at hf
    split <;> exact hf
  · rename_i heq
    rw [heq] at hf
    exact hf

theorem update_arp_entry (h : a.StableIn S) {n : NetifPtr} (hn : S n) (nif : netif) (ip : ip_addr_t)
    (eth : eth_addr) (flags : FindFlag) : (etharp_update_arp_entry a n nif ip eth flags).1.StableIn S := by
  unfold etharp_update_arp_entry
  split
  · exact h
  · have hfind := h.find_entry ip flags
    split
    · rename_i a' heq
      rw [heq] at hfind
      exact hfind
    · rename_i a' i heq
      rw [heq] at hfind
      have hmod := hfind.modify i
        (fun e => { e with state := .STABLE, netif := some n, ethaddr := eth, ctime := 0, q := none })
        (fun _ => Or.inr ⟨n, rfl, hn⟩)
      dsimp only
      split
      · exact hmod
      · exact hmod.linkoutput _ _

theorem request (h : a.StableIn S) (n : NetifPtr) (nif : netif) (ip : ip_addr_t) (alloc : Bool) :
    (etharp_request a n nif ip alloc).1.StableIn S := by
  unfold etharp_request etharp_raw
  split
  · exact h
  · exact h.linkoutput _ _

theorem query_request (h : a.StableIn S) (n : NetifPtr) (nif : netif) (ip : ip_addr_t) (q : Option ip_packet)
    (i : ArpIdx) (alloc : Alloc) : (etharp_query_request a n nif ip q i alloc).1.StableIn S := by
  have hpend : (if (a.arp_table i).state = .EMPTY then a.modify i (fun e => { e with state := .PENDING })
      else a).StableIn S := by
    split
    · exact h.modify _ _ (by simp [etharp_state.stable])
    · exact h
  unfold etharp_query_request
  generalize (if (a.arp_table i).state = .EMPTY then a.modify i (fun e => { e with state := .PENDING })
    else a) = b at hpend
  dsimp only
  split
  · exact hpend.request _ _ _ _
  · exact hpend

theorem query_send (h : a.StableIn S) (n : NetifPtr) (nif : netif) (p : ip_packet) (i : ArpIdx)
    (alloc : Alloc) : (etharp_query_send a n nif p i alloc).1.StableIn S := by
  unfold etharp_query_send
  split
  · exact h.of_table rfl
  · split
    · dsimp only
      refine h.modify_keep _ _ ?_ ?_ <;> exact fun _ => rfl
    · exact h

theorem query (h : a.StableIn S) (n : NetifPtr) (nif : netif) (ip : ip_addr_t) (q : Option ip_packet)
    (alloc : Alloc) : (etharp_query a n nif ip q alloc).1.StableIn S := by
  unfold etharp_query
  split
  · exact h
  · have hfind := h.find_entry ip .TRY_HARD
    split
    · rename_i a' heq
      rw [heq] at hfind
      exact hfind
    · rename_i a' i heq
      rw [heq] at hfind
      split
      · exact hfind.query_request _ _ _ _ _ _
      · exact (hfind.query_request _ _ _ _ _ _).query_send _ _ _ _ _

theorem output_to_arp_index (h : a.StableIn S) (n : NetifPtr) (nif : netif) (p : ip_packet) (i : ArpIdx)
    (alloc : Alloc) : (etharp_output_to_arp_index a n nif p i alloc).1.StableIn S := by
  unfold etharp_output_to_arp_index
  refine StableIn.linkoutput ?_ _ _
  split
  · rename_i hst
    have hreq := h.request n nif (a.arp_table i).ipaddr alloc.request
    -- The request leaves the table alone, so the entry is still resolved.
    have htab : (etharp_request a n nif (a.arp_table i).ipaddr alloc.request).1.arp_table = a.arp_table := by
      unfold etharp_request etharp_raw
      split <;> rfl
    split
    · rename_i a' heq
      rw [heq] at hreq htab
      refine hreq.modify _ _ (fun _ => Or.inl ⟨?_, rfl⟩)
      rw [htab, hst.1]
      rfl
    · rename_i a' _ _ heq
      rw [heq] at hreq
      exact hreq
  · exact h

theorem output_local (h : a.StableIn S) (n : NetifPtr) (nif : netif) (p : ip_packet) (ip : ip_addr_t)
    (alloc : Alloc) : (etharp_output_local a n nif p ip alloc).1.StableIn S := by
  unfold etharp_output_local
  split
  · exact h.output_to_arp_index _ _ _ _ _
  · split
    · rename_i i _
      have hhint : { a with etharp_cached_entry := i }.StableIn S := h.of_table rfl
      exact hhint.output_to_arp_index _ _ _ _ _
    · exact h.query _ _ _ _ _

theorem output (h : a.StableIn S) (n : NetifPtr) (nif : netif) (p : ip_packet) (ip : ip_addr_t)
    (alloc : Alloc) : (etharp_output a n nif p ip alloc).1.StableIn S := by
  unfold etharp_output
  split
  · exact h.linkoutput _ _
  · split
    · exact h.linkoutput _ _
    · split
      · split
        · exact h
        · exact h.output_local _ _ _ _ _
      · exact h.output_local _ _ _ _ _

theorem arp_input (h : a.StableIn S) {n : NetifPtr} (hn : S n) (nif : netif) (f : ArpFrame) :
    (etharp_arp_input a n nif f).StableIn S := by
  unfold etharp_arp_input
  split
  · exact h
  · split
    · exact h
    · have hup := h.update_arp_entry hn nif f.hdr.sipaddr f.hdr.shwaddr
        (if !ip_addr_isany nif.ip_addr && f.hdr.dipaddr == nif.ip_addr then .TRY_HARD else .FIND_ONLY)
      dsimp only
      split
      · exact hup.linkoutput _ _
      · exact hup

end Arp.StableIn

/-! ## Cleaning up -/

/-- The entries of the interface among `l` are freed, all others are kept. -/
theorem cleanup_foldl (n : NetifPtr) (l : List ArpIdx) (a : Arp) (j : ArpIdx) :
    (l.foldl (fun a i => if (a.arp_table i).state ≠ .EMPTY ∧ (a.arp_table i).netif = some n then
        etharp_free_entry a i else a) a).arp_table j =
      if j ∈ l ∧ (a.arp_table j).state ≠ .EMPTY ∧ (a.arp_table j).netif = some n then
        { a.arp_table j with q := none, state := .EMPTY } else a.arp_table j := by
  induction l generalizing a with
  | nil => simp
  | cons i l ih =>
    rw [List.foldl_cons, ih]
    by_cases hij : j = i
    · subst hij
      by_cases hc : (a.arp_table j).state ≠ .EMPTY ∧ (a.arp_table j).netif = some n
      · simp [hc, etharp_free_entry, Arp.modify]
      · simp only [if_neg hc, List.mem_cons, true_or, true_and]
        simp [hc]
    · have hsame : (if (a.arp_table i).state ≠ .EMPTY ∧ (a.arp_table i).netif = some n then
          etharp_free_entry a i else a).arp_table j = a.arp_table j := by
        split
        · simp [etharp_free_entry, Arp.modify, hij]
        · rfl
      simp only [hsame, List.mem_cons, hij, false_or]

theorem etharp_cleanup_netif_spec (a : Arp) (n : NetifPtr) (j : ArpIdx) :
    (etharp_cleanup_netif a n).arp_table j =
      if (a.arp_table j).state ≠ .EMPTY ∧ (a.arp_table j).netif = some n then
        { a.arp_table j with q := none, state := .EMPTY } else a.arp_table j := by
  unfold etharp_cleanup_netif
  rw [cleanup_foldl]
  simp

/-- After the clean-up no resolved entry refers to the interface. -/
theorem Arp.StableIn.cleanup_netif {a : Arp} {S : NetifPtr → Prop} (h : a.StableIn S) (n : NetifPtr) :
    (etharp_cleanup_netif a n).StableIn (fun m => S m ∧ m ≠ n) := by
  intro j hj
  rw [etharp_cleanup_netif_spec] at hj ⊢
  split at hj
  · exact absurd hj (by simp [etharp_state.stable])
  · rename_i hc
    rw [if_neg hc]
    obtain ⟨m, hm, hS⟩ := h j hj
    refine ⟨m, hm, hS, ?_⟩
    rintro rfl
    exact hc ⟨fun he => by simp [he, etharp_state.stable] at hj, hm⟩

theorem Arp.StableIn.mono {a : Arp} {S T : NetifPtr → Prop} (h : a.StableIn S) (hST : ∀ n, S n → T n) :
    a.StableIn T := by
  intro i hi
  obtain ⟨n, hn, hS⟩ := h i hi
  exact ⟨n, hn, hST n hS⟩

theorem Arp.StableIn.cleanup_netifs {a : Arp} {S : NetifPtr → Prop} (h : a.StableIn S) (l : List NetifPtr) :
    (l.foldl etharp_cleanup_netif a).StableIn S := by
  induction l generalizing a with
  | nil => exact h
  | cons n l ih =>
    rw [List.foldl_cons]
    apply ih
    exact (h.cleanup_netif n).mono (fun _ hm => hm.1)

end MultiIp.Lwip
