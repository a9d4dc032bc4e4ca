import Mathlib.Logic.Relation
import MultiIp.Lwip.EtharpRules

/-!
# What happens to one ARP entry

Every function of the table changes each entry by the steps of `EntryStep`. An
invariant of single entries only has to look at these.
-/

namespace MultiIp.Lwip

/-- A step of the entry `e`. `R` holds of the addresses that an ARP packet has told. -/
inductive EntryStep (R : ip_addr_t → eth_addr → Prop) (e : etharp_entry) : etharp_entry → Prop
  | free : EntryStep R e { e with q := none, state := .EMPTY }
  /-- `etharp_find_entry` gives an empty entry to the address. -/
  | claim (ip : ip_addr_t) (h : e.state = .EMPTY) : EntryStep R e { e with ipaddr := ip, ctime := 0 }
  | pend (h : e.state = .EMPTY) : EntryStep R e { e with state := .PENDING }
  | queue (p : ip_packet) (h : e.state = .PENDING) : EntryStep R e { e with q := some p }
  | rerequest (h : e.state = .STABLE) : EntryStep R e { e with state := .STABLE_REREQUESTING }
  | resolve (n : NetifPtr) (mac : eth_addr) (h : R e.ipaddr mac) :
    EntryStep R e { e with state := .STABLE, netif := some n, ethaddr := mac, ctime := 0, q := none }

abbrev EntrySteps (R : ip_addr_t → eth_addr → Prop) := Relation.ReflTransGen (EntryStep R)

/-- Each entry of the table went through steps. -/
def Arp.Steps (R : ip_addr_t → eth_addr → Prop) (a a' : Arp) : Prop :=
  ∀ j, EntrySteps R (a.arp_table j) (a'.arp_table j)

/-- The frame is read, and says that the host `mac` has the address `ip`. -/
def ArpFrame.Tells (f : ArpFrame) (ip : ip_addr_t) (mac : eth_addr) : Prop :=
  f.hdr.valid = true ∧ SIZEOF_ETHARP_PACKET ≤ f.len ∧ f.hdr.sipaddr = ip ∧ f.hdr.shwaddr = mac

/-! ## The search -/

/-- The sweep stops at an entry in use with the address, or remembers an entry that is empty. -/
def SweepOk (a : Arp) (ip : ip_addr_t) : ArpIdx ⊕ Candidates → Prop
  | .inl i => (a.arp_table i).state ≠ .EMPTY ∧ (a.arp_table i).ipaddr = ip
  | .inr c => ∀ i, c.empty = some i → (a.arp_table i).state = .EMPTY

theorem sweep_spec (a : Arp) (ip : ip_addr_t) (l : List ArpIdx) {c : Candidates}
    (hc : ∀ i, c.empty = some i → (a.arp_table i).state = .EMPTY) :
    SweepOk a ip (etharp_find_entry_sweep a ip l c) := by
  induction l generalizing c with
  | nil => exact hc
  | cons i l ih =>
    unfold etharp_find_entry_sweep
    dsimp only
    split
    · rename_i hempty
      refine ih fun j hj => ?_
      obtain rfl := Option.some.inj hj
      exact hempty.2
    · split
      · rename_i huse
        split
        · rename_i hip
          exact ⟨huse, hip.symm⟩
        · refine ih fun j hj => hc j ?_
          rw [← hj]
          unfold Candidates.remember
          split
          · split <;> split <;> rfl
          · split <;> rfl
      · exact ih hc

theorem find_only_same (a : Arp) (ip : ip_addr_t) : (etharp_find_entry a ip .FIND_ONLY).1 = a := by
  unfold etharp_find_entry
  split
  · rfl
  · rw [if_pos rfl]

theorem find_entry_ip {a b : Arp} {ip : ip_addr_t} {flags : FindFlag} {i : ArpIdx}
    (h : etharp_find_entry a ip flags = (b, some i)) : (b.arp_table i).ipaddr = ip := by
  have hsweep := sweep_spec a ip (List.finRange ARP_TABLE_SIZE) (c := .none) (by simp [Candidates.none])
  unfold etharp_find_entry at h
  split at h
  · rename_i heq
    rw [heq] at hsweep
    cases h
    exact hsweep.2
  · split at h
    · cases h
    · split at h
      · cases h
        simp [Arp.modify]
      · split at h
        · cases h
        · cases h
          simp [Arp.modify]

theorem request_table (a : Arp) (n : NetifPtr) (nif : netif) (ip : ip_addr_t) (alloc : Bool) :
    (etharp_request a n nif ip alloc).1.arp_table = a.arp_table := by
  unfold etharp_request etharp_raw
  split <;> rfl

/-- Nothing is queued with an empty entry. -/
theorem query_request_state (a : Arp) (n : NetifPtr) (nif : netif) (ip : ip_addr_t) (q : Option ip_packet) (i : ArpIdx)
    (alloc : Alloc) : ((etharp_query_request a n nif ip q i alloc).1.arp_table i).state ≠ .EMPTY := by
  have hpend : ((if (a.arp_table i).state = .EMPTY then a.modify i (fun e => { e with state := .PENDING })
      else a).arp_table i).state ≠ .EMPTY := by
    split
    · simp [Arp.modify]
    · assumption
  unfold etharp_query_request
  generalize (if (a.arp_table i).state = .EMPTY then a.modify i (fun e => { e with state := .PENDING })
    else a) = b at hpend
  dsimp only
  split
  · rw [request_table]
    exact hpend
  · exact hpend

namespace Arp.Steps

variable {R : ip_addr_t → eth_addr → Prop} {a b c : Arp}

theorem of_table (h : b.arp_table = a.arp_table) : Steps R a b := by
  intro j
  rw [h]

theorem refl (a : Arp) : Steps R a a := of_table rfl

theorem trans (h : Steps R a b) (h' : Steps R b c) : Steps R a c := fun j => (h j).trans (h' j)

theorem mono {S : ip_addr_t → eth_addr → Prop} (h : Steps R a b) (hRS : ∀ ip mac, R ip mac → S ip mac) : Steps S a b := by
  intro j
  refine Relation.ReflTransGen.mono ?_ _ _ (h j)
  intro e e' he
  cases he with
  | free => exact .free
  | claim ip h => exact .claim ip h
  | pend h => exact .pend h
  | queue p h => exact .queue p h
  | rerequest h => exact .rerequest h
  | resolve n mac h => exact .resolve n mac (hRS _ _ h)

/-- What every step keeps of an entry, the whole table keeps. -/
theorem invariant {P : etharp_entry → Prop} (hstep : ∀ e e', EntryStep R e e' → P e → P e') (h : Steps R a b)
    (ha : ∀ j, P (a.arp_table j)) (j : ArpIdx) : P (b.arp_table j) := by
  have hj := h j
  have hP := ha j
  generalize a.arp_table j = e at hj hP
  generalize b.arp_table j = e' at hj
  induction hj with
  | refl => exact hP
  | tail _ hlast ih => exact hstep _ _ hlast ih

theorem modify (i : ArpIdx) (f : etharp_entry → etharp_entry) (h : EntryStep R (a.arp_table i) (f (a.arp_table i))) :
    Steps R a (a.modify i f) := by
  intro j
  by_cases hj : j = i
  · subst hj
    simpa [Arp.modify] using Relation.ReflTransGen.single h
  · simp only [Arp.modify, Function.update_of_ne hj]
    exact .refl

/-! ## Looking for an entry -/

theorem free_entry (a : Arp) (i : ArpIdx) : Steps R a (etharp_free_entry a i) := modify i _ .free

theorem find_entry (a : Arp) (ip : ip_addr_t) (flags : FindFlag) : Steps R a (etharp_find_entry a ip flags).1 := by
  have hsweep := sweep_spec a ip (List.finRange ARP_TABLE_SIZE) (c := .none) (by simp [Candidates.none])
  unfold etharp_find_entry
  split
  · exact refl a
  · rename_i c heq
    rw [heq] at hsweep
    split
    · exact refl a
    · split
      · rename_i i hempty
        have hempty' := hsweep i hempty
        dsimp only
        apply modify
        exact .claim ip hempty'
      · split
        · exact refl a
        · rename_i i _
          refine (free_entry a i).trans ?_
          dsimp only
          apply modify
          refine .claim ip ?_
          simp [etharp_free_entry, Arp.modify]

theorem find_addr (a : Arp) (ip : ip_addr_t) : Steps R a (etharp_find_addr a ip).1 := by
  have hfind : Steps R a (etharp_find_entry a ip .FIND_ONLY).1 := find_entry a ip .FIND_ONLY
  unfold etharp_find_addr
  split <;> rename_i heq <;> rw [heq] at hfind
  · split <;> exact hfind
  · exact hfind

theorem update_arp_entry (a : Arp) (n : NetifPtr) (nif : netif) {ip : ip_addr_t} {mac : eth_addr} (h : R ip mac)
    (flags : FindFlag) : Steps R a (etharp_update_arp_entry a n nif ip mac flags).1 := by
  unfold etharp_update_arp_entry
  split
  · exact refl a
  · have hfind : Steps R a (etharp_find_entry a ip flags).1 := find_entry a ip flags
    split <;> rename_i heq <;> rw [heq] at hfind
    · exact hfind
    · rename_i b i
      have hip : (b.arp_table i).ipaddr = ip := find_entry_ip heq
      have hres : Steps R b (b.modify i fun e =>
          { e with state := .STABLE, netif := some n, ethaddr := mac, ctime := 0, q := none }) :=
        modify i _ (.resolve n mac (by rwa [hip]))
      dsimp only
      split
      · exact hfind.trans hres
      · exact (hfind.trans hres).trans (of_table rfl)

/-! ## Requests and output -/

theorem request (a : Arp) (n : NetifPtr) (nif : netif) (ip : ip_addr_t) (alloc : Bool) :
    Steps R a (etharp_request a n nif ip alloc).1 := of_table (request_table a n nif ip alloc)

theorem query_request (a : Arp) (n : NetifPtr) (nif : netif) (ip : ip_addr_t) (q : Option ip_packet) (i : ArpIdx)
    (alloc : Alloc) : Steps R a (etharp_query_request a n nif ip q i alloc).1 := by
  have hpend : Steps R a (if (a.arp_table i).state = .EMPTY then a.modify i (fun e => { e with state := .PENDING })
      else a) := by
    split
    · rename_i hempty
      exact modify i _ (.pend hempty)
    · exact refl a
  unfold etharp_query_request
  generalize (if (a.arp_table i).state = .EMPTY then a.modify i (fun e => { e with state := .PENDING })
    else a) = b at hpend
  dsimp only
  split
  · exact hpend.trans (request _ _ _ _ _)
  · exact hpend

theorem query_send {a : Arp} {i : ArpIdx} (h : (a.arp_table i).state ≠ .EMPTY) (n : NetifPtr) (nif : netif)
    (p : ip_packet) (alloc : Alloc) : Steps R a (etharp_query_send a n nif p i alloc).1 := by
  unfold etharp_query_send
  split
  · exact of_table rfl
  · rename_i hst
    split
    · dsimp only
      apply modify
      refine .queue p ?_
      cases hs : (a.arp_table i).state with
      | EMPTY => exact absurd hs h
      | PENDING => rfl
      | STABLE => simp [hs, etharp_state.stable] at hst
      | STABLE_REREQUESTING => simp [hs, etharp_state.stable] at hst
    · exact refl a

theorem query (a : Arp) (n : NetifPtr) (nif : netif) (ip : ip_addr_t) (q : Option ip_packet) (alloc : Alloc) :
    Steps R a (etharp_query a n nif ip q alloc).1 := by
  unfold etharp_query
  split
  · exact refl a
  · have hfind : Steps R a (etharp_find_entry a ip .TRY_HARD).1 := find_entry a ip .TRY_HARD
    split <;> rename_i heq <;> rw [heq] at hfind
    · exact hfind
    · split
      · exact hfind.trans (query_request _ _ _ _ _ _ _)
      · exact (hfind.trans (query_request _ _ _ _ _ _ _)).trans (query_send (query_request_state _ _ _ _ _ _ _) _ _ _ _)

theorem output_to_arp_index (a : Arp) (n : NetifPtr) (nif : netif) (p : ip_packet) (i : ArpIdx) (alloc : Alloc) :
    Steps R a (etharp_output_to_arp_index a n nif p i alloc).1 := by
  unfold etharp_output_to_arp_index
  dsimp only
  split
  · rename_i hst
    have htab := request_table a n nif (a.arp_table i).ipaddr alloc.request
    split
    · rename_i a' heq
      rw [heq] at htab
      have hstate : Steps R a (a'.modify i (fun e => { e with state := .STABLE_REREQUESTING })) := by
        refine (of_table htab).trans (modify i _ (.rerequest ?_))
        rw [htab]
        exact hst.1
      exact hstate.trans (of_table rfl)
    · rename_i heq
      rw [heq] at htab
      exact (of_table htab).trans (of_table rfl)
  · exact of_table rfl

theorem output_local (a : Arp) (n : NetifPtr) (nif : netif) (p : ip_packet) (ip : ip_addr_t) (alloc : Alloc) :
    Steps R a (etharp_output_local a n nif p ip alloc).1 := by
  unfold etharp_output_local
  split
  · exact output_to_arp_index _ _ _ _ _ _
  · split
    · rename_i i _
      have hhint : Steps R a { a with etharp_cached_entry := i } := of_table rfl
      exact hhint.trans (output_to_arp_index _ _ _ _ _ _)
    · exact query _ _ _ _ _ _

theorem output (a : Arp) (n : NetifPtr) (nif : netif) (p : ip_packet) (ip : ip_addr_t) (alloc : Alloc) :
    Steps R a (etharp_output a n nif p ip alloc).1 := by
  unfold etharp_output
  split
  · exact of_table rfl
  · split
    · exact of_table rfl
    · split
      · split
        · exact refl a
        · exact output_local _ _ _ _ _ _
      · exact output_local _ _ _ _ _ _

/-! ## Reception and clean-up -/

theorem arp_input (a : Arp) (n : NetifPtr) (nif : netif) (f : ArpFrame) :
    Steps f.Tells a (etharp_arp_input a n nif f) := by
  unfold etharp_arp_input
  split
  · exact refl a
  · rename_i hlen
    split
    · exact refl a
    · rename_i hvalid
      have htells : f.Tells f.hdr.sipaddr f.hdr.shwaddr := ⟨by simpa using hvalid, Nat.le_of_not_lt hlen, rfl, rfl⟩
      have hup : Steps f.Tells a (etharp_update_arp_entry a n nif f.hdr.sipaddr f.hdr.shwaddr
          (if !ip_addr_isany nif.ip_addr && f.hdr.dipaddr == nif.ip_addr then .TRY_HARD else .FIND_ONLY)).1 :=
        update_arp_entry a n nif htells _
      dsimp only
      split
      · exact hup.trans (of_table rfl)
      · exact hup

theorem cleanup_netif (a : Arp) (n : NetifPtr) : Steps R a (etharp_cleanup_netif a n) := by
  intro j
  rw [etharp_cleanup_netif_spec]
  split
  · exact .single .free
  · exact .refl

end Arp.Steps

/-! ## The calls -/

/-- What the rest of the program does with the ARP module. `S` holds of the interfaces that send, and `R` of the
addresses that a received packet has told. -/
inductive Arp.Call (S : netif → Prop) (R : ip_addr_t → eth_addr → Prop) (a : Arp) : Arp → Prop
  | output (n : NetifPtr) (nif : netif) (p : ip_packet) (ip : ip_addr_t) (alloc : Alloc) (h : S nif) :
    Call S R a (etharp_output a n nif p ip alloc).1
  | query (n : NetifPtr) (nif : netif) (ip : ip_addr_t) (alloc : Alloc) (h : S nif) :
    Call S R a (etharp_query a n nif ip none alloc).1
  | find_addr (ip : ip_addr_t) : Call S R a (etharp_find_addr a ip).1
  | cleanup_netif (n : NetifPtr) : Call S R a (etharp_cleanup_netif a n)
  | arp_input (n : NetifPtr) (nif : netif) (f : ArpFrame) (h : S nif) (hR : ∀ ip mac, f.Tells ip mac → R ip mac) :
    Call S R a (etharp_arp_input a n nif f)

abbrev Arp.Calls (S : netif → Prop) (R : ip_addr_t → eth_addr → Prop) := Relation.ReflTransGen (Arp.Call S R)

namespace Arp.Calls

variable {S : netif → Prop} {R : ip_addr_t → eth_addr → Prop} {a b : Arp}

theorem of_eq (h : b = a) : Arp.Calls S R a b := h ▸ .refl

/-- What every call keeps. -/
theorem invariant {P : Arp → Prop} (hcall : ∀ a b, Arp.Call S R a b → P a → P b) (h : Arp.Calls S R a b) (ha : P a) :
    P b := by
  induction h with
  | refl => exact ha
  | tail _ hlast ih => exact hcall _ _ hlast ih

theorem steps (h : Arp.Calls S R a b) : Arp.Steps R a b := by
  refine h.invariant (P := fun b => Arp.Steps R a b) (fun b c hcall hb => hb.trans ?_) (.refl a)
  cases hcall with
  | output n nif p ip alloc _ => exact .output b n nif p ip alloc
  | query n nif ip alloc _ => exact .query b n nif ip none alloc
  | find_addr ip => exact .find_addr b ip
  | cleanup_netif n => exact .cleanup_netif b n
  | arp_input n nif f _ hR => exact (Arp.Steps.arp_input b n nif f).mono hR

end Arp.Calls

end MultiIp.Lwip
