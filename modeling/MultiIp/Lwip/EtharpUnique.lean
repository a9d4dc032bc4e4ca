import MultiIp.Lwip.EtharpLearns

/-!
# One entry for each address

A new entry is only made for an address that no entry in use has. So whatever is
called, and in whatever order, there is at most one entry for an address, and what
the search finds first is all there is.
-/

namespace MultiIp.Lwip

/-- No two entries in use have the same address. -/
def Arp.Unique (a : Arp) : Prop := ∀ i j ip, a.holds ip i = true → a.holds ip j = true → i = j

/-- Only the one entry has changed, and it has its address still. -/
structure Arp.KeptAt (i : ArpIdx) (a b : Arp) : Prop where
  other : ∀ j, j ≠ i → b.arp_table j = a.arp_table j
  ipaddr : (b.arp_table i).ipaddr = (a.arp_table i).ipaddr

namespace Arp.KeptAt

variable {a b c : Arp} {i : ArpIdx}

theorem of_table (h : b.arp_table = a.arp_table) : KeptAt i a b := ⟨fun _ _ => by rw [h], by rw [h]⟩

theorem trans (h : KeptAt i a b) (h' : KeptAt i b c) : KeptAt i a c :=
  ⟨fun j hj => (h'.other j hj).trans (h.other j hj), h'.ipaddr.trans h.ipaddr⟩

theorem modify (a : Arp) (i : ArpIdx) (f : etharp_entry → etharp_entry)
    (hf : (f (a.arp_table i)).ipaddr = (a.arp_table i).ipaddr) : KeptAt i a (a.modify i f) :=
  ⟨fun j hj => by simp [Arp.modify, hj], by simp [Arp.modify, hf]⟩

theorem query_request (a : Arp) (n : NetifPtr) (nif : netif) (ip : ip_addr_t) (q : Option ip_packet) (i : ArpIdx)
    (alloc : Alloc) : KeptAt i a (etharp_query_request a n nif ip q i alloc).1 := by
  have hpend : KeptAt i a (if (a.arp_table i).state = .EMPTY then a.modify i (fun e => { e with state := .PENDING })
      else a) := by
    split
    · exact modify a i (fun e => { e with state := .PENDING }) rfl
    · exact of_table rfl
  unfold etharp_query_request
  generalize (if (a.arp_table i).state = .EMPTY then a.modify i (fun e => { e with state := .PENDING })
    else a) = b at hpend
  dsimp only
  split
  · exact hpend.trans (of_table (request_table b n nif ip alloc.request))
  · exact hpend

theorem query_send (a : Arp) (n : NetifPtr) (nif : netif) (p : ip_packet) (i : ArpIdx) (alloc : Alloc) :
    KeptAt i a (etharp_query_send a n nif p i alloc).1 := by
  unfold etharp_query_send
  split
  · exact of_table rfl
  · split
    · exact modify a i (fun e => { e with q := some p }) rfl
    · exact of_table rfl

end Arp.KeptAt

theorem find_addr_fst (a : Arp) (ip : ip_addr_t) : (etharp_find_addr a ip).1 = a := by
  unfold etharp_find_addr
  rw [find_only_eq]
  cases a.entryOf ip with
  | none => rfl
  | some i =>
    dsimp only
    split <;> rfl

theorem etharp_state.ne_empty {s : etharp_state} (h : s.stable = true) : s ≠ .EMPTY := by
  rintro rfl
  cases h

theorem find_entry_none {a b : Arp} {ip : ip_addr_t} {flags : FindFlag} (h : etharp_find_entry a ip flags = (b, none)) :
    b = a := by
  unfold etharp_find_entry at h
  split at h
  · cases h
  · split at h
    · cases h
      rfl
    · split at h
      · cases h
      · split at h
        · cases h
          rfl
        · cases h

namespace Arp.Unique

variable {a b c : Arp} {ip : ip_addr_t} {flags : FindFlag} {i : ArpIdx}

theorem of_holds (h : a.Unique) (hsub : ∀ x j, b.holds x j = true → a.holds x j = true) : b.Unique :=
  fun j k x hj hk => h j k x (hsub x j hj) (hsub x k hk)

theorem of_table (h : a.Unique) (ht : b.arp_table = a.arp_table) : b.Unique := by
  refine h.of_holds (fun x j hj => ?_)
  unfold Arp.holds at hj ⊢
  rwa [ht] at hj

theorem init : Arp.init.Unique := fun i j ip hi _ => by simp [Arp.holds, Arp.init, etharp_entry.zero] at hi

/-- The entry that is given is the only one that may have the address. -/
theorem found (h : a.Unique) (hfind : etharp_find_entry a ip flags = (b, some i)) (hkept : KeptAt i b c) : c.Unique := by
  have hip : (c.arp_table i).ipaddr = ip := hkept.ipaddr.trans (find_entry_ip hfind)
  have hother : ∀ j, j ≠ i → c.arp_table j = a.arp_table j ∧ a.holds ip j = false := by
    intro j hj
    rcases find_entry_spec hfind with ⟨rfl, hof⟩ | ⟨hof, -, hsame⟩
    · refine ⟨hkept.other j hj, Bool.eq_false_iff.mpr (fun hold => hj ?_)⟩
      exact h j i ip hold (List.find?_some hof)
    · refine ⟨(hkept.other j hj).trans (hsame j hj), Bool.eq_false_iff.mpr (fun hold => ?_)⟩
      exact List.find?_eq_none.mp hof j (List.mem_finRange j) hold
  have hold : ∀ {x j}, j ≠ i → c.holds x j = true → a.holds x j = true := by
    intro x j hj hx
    unfold Arp.holds at hx ⊢
    rwa [(hother j hj).1] at hx
  have halone : ∀ {x j}, j ≠ i → c.holds x i = true → c.holds x j = true → False := by
    intro x j hj hi hx
    obtain rfl : x = ip := by
      simp only [Arp.holds, Bool.and_eq_true, beq_iff_eq] at hi
      rw [hi.2, hip]
    have hx' := hold hj hx
    rw [(hother j hj).2] at hx'
    cases hx'
  intro j k x hj hk
  by_cases hji : j = i
  · by_cases hki : k = i
    · rw [hji, hki]
    · exact (halone hki (hji ▸ hj) hk).elim
  · by_cases hki : k = i
    · exact (halone hji (hki ▸ hk) hj).elim
    · exact h j k x (hold hji hj) (hold hki hk)

theorem update_arp_entry (h : a.Unique) (n : NetifPtr) (nif : netif) (ip : ip_addr_t) (mac : eth_addr)
    (flags : FindFlag) : (etharp_update_arp_entry a n nif ip mac flags).1.Unique := by
  unfold etharp_update_arp_entry
  split
  · exact h
  · split <;> rename_i heq
    · exact find_entry_none heq ▸ h
    · rename_i b i
      have hup : (b.modify i (fun e =>
          { e with state := .STABLE, netif := some n, ethaddr := mac, ctime := 0, q := none })).Unique :=
        h.found heq (.modify b i _ rfl)
      dsimp only
      split
      · exact hup
      · exact hup.of_table rfl

theorem query (h : a.Unique) (n : NetifPtr) (nif : netif) (ip : ip_addr_t) (q : Option ip_packet) (alloc : Alloc) :
    (etharp_query a n nif ip q alloc).1.Unique := by
  unfold etharp_query
  split
  · exact h
  · split <;> rename_i heq
    · exact find_entry_none heq ▸ h
    · split
      · exact h.found heq (.query_request _ _ _ _ _ _ _)
      · exact h.found heq ((KeptAt.query_request _ _ _ _ _ _ _).trans (.query_send _ _ _ _ _ _))

theorem output_to_arp_index (h : a.Unique) (n : NetifPtr) (nif : netif) (p : ip_packet) (i : ArpIdx) (alloc : Alloc) :
    (etharp_output_to_arp_index a n nif p i alloc).1.Unique := by
  unfold etharp_output_to_arp_index
  refine of_table (a := if (a.arp_table i).state = .STABLE ∧ (a.arp_table i).ctime ≥ ARP_AGE_REREQUEST_USED then _
    else a) ?_ rfl
  split
  · rename_i hstable
    have htab := request_table a n nif (a.arp_table i).ipaddr alloc.request
    split
    · rename_i b heq
      rw [heq] at htab
      dsimp only at htab
      refine (h.of_table htab).of_holds (fun x j hj => ?_)
      by_cases hji : j = i
      · have hin : (b.arp_table j).state = .STABLE := by
          rw [htab, hji]
          exact hstable.1
        subst hji
        simpa [Arp.holds, Arp.modify, hin] using hj
      · simpa [Arp.holds, Arp.modify, hji] using hj
    · rename_i heq
      rw [heq] at htab
      exact h.of_table htab
  · exact h

theorem output_local (h : a.Unique) (n : NetifPtr) (nif : netif) (p : ip_packet) (ip : ip_addr_t) (alloc : Alloc) :
    (etharp_output_local a n nif p ip alloc).1.Unique := by
  unfold etharp_output_local
  split
  · exact h.output_to_arp_index _ _ _ _ _
  · split
    · rename_i i _
      exact (h.of_table (b := { a with etharp_cached_entry := i }) rfl).output_to_arp_index _ _ _ _ _
    · exact h.query _ _ _ _ _

theorem output (h : a.Unique) (n : NetifPtr) (nif : netif) (p : ip_packet) (ip : ip_addr_t) (alloc : Alloc) :
    (etharp_output a n nif p ip alloc).1.Unique := by
  unfold etharp_output
  split
  · exact h.of_table rfl
  · split
    · exact h.of_table rfl
    · split
      · split
        · exact h
        · exact h.output_local _ _ _ _ _
      · exact h.output_local _ _ _ _ _

theorem cleanup_netif (h : a.Unique) (n : NetifPtr) : (etharp_cleanup_netif a n).Unique := by
  refine h.of_holds (fun x j hj => ?_)
  unfold Arp.holds at hj ⊢
  rw [etharp_cleanup_netif_spec] at hj
  split at hj
  · simp at hj
  · exact hj

theorem arp_input (h : a.Unique) (n : NetifPtr) (nif : netif) (f : ArpFrame) : (etharp_arp_input a n nif f).Unique := by
  unfold etharp_arp_input
  split
  · exact h
  · split
    · exact h
    · have hup := h.update_arp_entry n nif f.hdr.sipaddr f.hdr.shwaddr
        (if !ip_addr_isany nif.ip_addr && f.hdr.dipaddr == nif.ip_addr then .TRY_HARD else .FIND_ONLY)
      dsimp only
      split
      · exact hup.of_table rfl
      · exact hup

/-- Every call keeps the addresses apart. -/
theorem call {S : netif → Prop} {R : ip_addr_t → eth_addr → Prop} (h : a.Unique) (hcall : Arp.Call S R a b) :
    b.Unique := by
  cases hcall with
  | output n nif p ip alloc _ => exact h.output n nif p ip alloc
  | query n nif ip alloc _ => exact h.query n nif ip none alloc
  | find_addr ip =>
    have hsame := find_addr_fst a ip
    exact h.of_table (congrArg Arp.arp_table hsame)
  | cleanup_netif n => exact h.cleanup_netif n
  | arp_input n nif f _ _ => exact h.arp_input n nif f

theorem count (h : a.Unique) (ip : ip_addr_t) : (List.finRange ARP_TABLE_SIZE).countP (a.holds ip) ≤ 1 := by
  have hnodup := (List.nodup_finRange ARP_TABLE_SIZE).filter (a.holds ip)
  have hsame : ∀ i ∈ (List.finRange ARP_TABLE_SIZE).filter (a.holds ip),
      ∀ j ∈ (List.finRange ARP_TABLE_SIZE).filter (a.holds ip), i = j :=
    fun i hi j hj => h i j ip (List.mem_filter.mp hi).2 (List.mem_filter.mp hj).2
  rw [List.countP_eq_length_filter]
  generalize (List.finRange ARP_TABLE_SIZE).filter (a.holds ip) = l at hnodup hsame
  cases l with
  | nil => exact Nat.zero_le 1
  | cons i l =>
    cases l with
    | nil => exact Nat.le_refl 1
    | cons j l =>
      have hij := hsame i List.mem_cons_self j (List.mem_cons_of_mem i List.mem_cons_self)
      rw [hij] at hnodup
      exact absurd List.mem_cons_self (List.nodup_cons.mp hnodup).1

/-- An address that is not found is in no stable entry. -/
theorem unknown_iff (h : a.Unique) (ip : ip_addr_t) :
    (etharp_find_addr a ip).2 = none ↔ ∀ i, a.resolves ip i = false := by
  have hof : ∀ i, a.resolves ip i = true → a.entryOf ip = some i := by
    intro i hres
    simp only [Arp.resolves, Bool.and_eq_true, beq_iff_eq] at hres
    refine entryOf_at (a := a) (fun _ _ => rfl) ?_ ?_
    · cases hentry : a.entryOf ip with
      | none => exact Or.inl rfl
      | some j =>
        refine Or.inr (congrArg some (h j i ip (List.find?_some hentry) ?_))
        simp [Arp.holds, ← hres.2, etharp_state.ne_empty hres.1]
    · simp [Arp.holds, ← hres.2, etharp_state.ne_empty hres.1]
  constructor
  · intro hnone i
    by_contra hres
    rw [Bool.not_eq_false] at hres
    have hstable : (a.arp_table i).state.stable = true := by
      simp only [Arp.resolves, Bool.and_eq_true] at hres
      exact hres.1
    rw [find_addr_known (hof i hres) hstable] at hnone
    cases hnone
  · intro hno
    unfold etharp_find_addr
    rw [find_only_eq]
    cases hentry : a.entryOf ip with
    | none => rfl
    | some i =>
      have hip : a.holds ip i = true := List.find?_some hentry
      have hres := hno i
      simp only [Arp.holds, Bool.and_eq_true, beq_iff_eq] at hip
      dsimp only
      rw [if_neg]
      simpa [Arp.resolves, hip.2] using hres

end Arp.Unique

end MultiIp.Lwip
