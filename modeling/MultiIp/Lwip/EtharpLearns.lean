import MultiIp.Lwip.EtharpNames

/-!
# What the ARP table learns

`etharp_find_entry` finds the first entry in use with the address, and one that
may be taken if it shall try hard. So whoever asks for the address of the
interface is known from then on, and what waited for it goes out.
-/

namespace MultiIp.Lwip

/-- The entry is in use, with the address. -/
def Arp.holds (a : Arp) (ip : ip_addr_t) (i : ArpIdx) : Bool :=
  (a.arp_table i).state != .EMPTY && ip == (a.arp_table i).ipaddr

/-- The entry of the address. -/
def Arp.entryOf (a : Arp) (ip : ip_addr_t) : Option ArpIdx := (List.finRange ARP_TABLE_SIZE).find? (a.holds ip)

/-- The packet that waits for the address. -/
def Arp.waiting (a : Arp) (ip : ip_addr_t) : Option ip_packet := (a.entryOf ip).bind (fun i => (a.arp_table i).q)

/-! ## The search -/

section Search

variable {a b : Arp} {ip : ip_addr_t} {flags : FindFlag} {i : ArpIdx}

/-- The sweep stops at the first entry in use with the address. -/
theorem sweep_first (a : Arp) (ip : ip_addr_t) (l : List ArpIdx) (c : Candidates) :
    (etharp_find_entry_sweep a ip l c).getLeft? = l.find? (a.holds ip) := by
  induction l generalizing c with
  | nil => rfl
  | cons i l ih =>
    unfold etharp_find_entry_sweep
    dsimp only
    by_cases huse : (a.arp_table i).state = .EMPTY
    · rw [List.find?_cons_of_neg (by simp [Arp.holds, huse])]
      split
      · exact ih _
      · rw [if_neg (not_not_intro huse)]
        exact ih _
    · rw [if_neg (fun h => huse h.2), if_pos huse]
      split
      · rename_i hip
        rw [List.find?_cons_of_pos (by simp [Arp.holds, huse, hip])]
        rfl
      · rename_i hip
        rw [List.find?_cons_of_neg (by simp [Arp.holds, hip])]
        exact ih _

theorem find_only_eq (a : Arp) (ip : ip_addr_t) : etharp_find_entry a ip .FIND_ONLY = (a, a.entryOf ip) := by
  have hfirst := sweep_first a ip (List.finRange ARP_TABLE_SIZE) .none
  unfold etharp_find_entry Arp.entryOf
  rw [← hfirst]
  split <;> rename_i heq <;> rw [heq] <;> rfl

theorem find_addr_known (hi : a.entryOf ip = some i) (hs : (a.arp_table i).state.stable = true) :
    (etharp_find_addr a ip).2 = some (a.arp_table i).ethaddr := by
  unfold etharp_find_addr
  rw [find_only_eq, hi]
  dsimp only
  rw [if_pos hs]

/-- What is found is a matter of the table. -/
theorem find_addr_table (h : b.arp_table = a.arp_table) (ip : ip_addr_t) :
    (etharp_find_addr b ip).2 = (etharp_find_addr a ip).2 := by
  have hof : b.entryOf ip = a.entryOf ip := by
    unfold Arp.entryOf Arp.holds
    rw [h]
  unfold etharp_find_addr
  rw [find_only_eq, find_only_eq, hof]
  cases a.entryOf ip with
  | none => rfl
  | some i =>
    dsimp only
    rw [h]
    split <;> rfl

theorem find_addr_linkoutput (a : Arp) (n : NetifPtr) (f : Frame) (ip : ip_addr_t) :
    (etharp_find_addr (a.linkoutput n f) ip).2 = (etharp_find_addr a ip).2 := by
  have htable : (a.linkoutput n f).arp_table = a.arp_table := rfl
  exact find_addr_table htable ip

/-- An entry can be taken. -/
def Candidates.Any (c : Candidates) : Prop :=
  c.empty.isSome = true ∨ c.old_stable.isSome = true ∨ c.old_pending.isSome = true ∨ c.old_queue.isSome = true

/-- An age is that of an entry. -/
structure Candidates.Aged (c : Candidates) : Prop where
  pending : 0 < c.age_pending → c.old_pending.isSome = true
  stable : 0 < c.age_stable → c.old_stable.isSome = true
  queue : 0 < c.age_queue → c.old_queue.isSome = true

theorem pos_of_not_ge {x y : UInt8} (h : ¬ x ≥ y) : 0 < y := by
  rw [ge_iff_le, UInt8.le_iff_toNat_le] at h
  rw [UInt8.lt_iff_toNat_lt]
  exact Nat.lt_of_le_of_lt (Nat.zero_le _) (Nat.lt_of_not_le h)

theorem Candidates.Aged.remember {c : Candidates} (h : c.Aged) (i : ArpIdx) (e : etharp_entry) :
    (c.remember i e).Aged ∧ (c.remember i e).Any := by
  unfold Candidates.remember
  split
  · split
    · split
      · exact ⟨⟨h.pending, h.stable, fun _ => rfl⟩, Or.inr (Or.inr (Or.inr rfl))⟩
      · rename_i hage
        exact ⟨h, Or.inr (Or.inr (Or.inr (h.queue (pos_of_not_ge hage))))⟩
    · split
      · exact ⟨⟨fun _ => rfl, h.stable, h.queue⟩, Or.inr (Or.inr (Or.inl rfl))⟩
      · rename_i hage
        exact ⟨h, Or.inr (Or.inr (Or.inl (h.pending (pos_of_not_ge hage))))⟩
  · split
    · exact ⟨⟨h.pending, fun _ => rfl, h.queue⟩, Or.inr (Or.inl rfl)⟩
    · rename_i hage
      exact ⟨h, Or.inr (Or.inl (h.stable (pos_of_not_ge hage)))⟩

theorem sweep_candidate (a : Arp) (ip : ip_addr_t) {l : List ArpIdx} {c c' : Candidates} (h : c.Aged)
    (hany : l ≠ [] ∨ c.Any) (hs : etharp_find_entry_sweep a ip l c = .inr c') : c'.Any := by
  induction l generalizing c with
  | nil =>
    cases hs
    exact hany.resolve_left (fun hne => hne rfl)
  | cons i l ih =>
    unfold etharp_find_entry_sweep at hs
    dsimp only at hs
    split at hs
    · exact ih (c := { c with empty := some i }) ⟨h.pending, h.stable, h.queue⟩ (Or.inr (Or.inl rfl)) hs
    · rename_i hskip
      split at hs
      · split at hs
        · cases hs
        · obtain ⟨haged, hsome⟩ := h.remember i (a.arp_table i)
          exact ih haged (Or.inr hsome) hs
      · rename_i huse
        -- An empty entry is passed over because there is one already.
        have hempty : c.empty.isSome = true := by
          rw [Option.isSome_iff_ne_none]
          intro hnone
          exact hskip ⟨by rw [hnone]; rfl, not_not.mp huse⟩
        exact ih h (Or.inr (Or.inl hempty)) hs

/-- An entry is always found or taken. -/
theorem find_entry_hard (a : Arp) (ip : ip_addr_t) : ∃ b i, etharp_find_entry a ip .TRY_HARD = (b, some i) := by
  unfold etharp_find_entry
  split
  · exact ⟨_, _, rfl⟩
  · rename_i c hs
    have hany : c.Any := sweep_candidate a ip (c := .none)
      ⟨fun h => absurd h (by decide), fun h => absurd h (by decide), fun h => absurd h (by decide)⟩
      (Or.inl (by decide)) hs
    rw [if_neg (by decide)]
    split
    · exact ⟨_, _, rfl⟩
    · rename_i hempty
      split
      · rename_i hold
        obtain ⟨hstable, hpending, hqueue⟩ : c.old_stable = none ∧ c.old_pending = none ∧ c.old_queue = none := by
          cases hs : c.old_stable <;> cases hp : c.old_pending <;> cases hq : c.old_queue <;> simp_all
        simp [Candidates.Any, hempty, hstable, hpending, hqueue] at hany
      · exact ⟨_, _, rfl⟩

/-- The entry that is given has the address, and no other one has changed. -/
theorem find_entry_spec (h : etharp_find_entry a ip flags = (b, some i)) :
    (b = a ∧ a.entryOf ip = some i) ∨
      (a.entryOf ip = none ∧ (b.arp_table i).state = .EMPTY ∧ ∀ j, j ≠ i → b.arp_table j = a.arp_table j) := by
  have hfirst := sweep_first a ip (List.finRange ARP_TABLE_SIZE) .none
  have hsweep := sweep_spec a ip (List.finRange ARP_TABLE_SIZE) (c := .none) (by simp [Candidates.none])
  unfold etharp_find_entry at h
  split at h
  · rename_i heq
    rw [heq] at hfirst
    cases h
    exact Or.inl ⟨rfl, hfirst.symm⟩
  · rename_i c heq
    rw [heq] at hfirst hsweep
    refine Or.inr ⟨hfirst.symm, ?_⟩
    split at h
    · cases h
    · split at h
      · rename_i k hk
        cases h
        have hempty := hsweep i hk
        refine ⟨by simpa [Arp.modify] using hempty, fun j hj => ?_⟩
        simp [Arp.modify, hj]
      · split at h
        · cases h
        · cases h
          refine ⟨by simp [Arp.modify, etharp_free_entry], fun j hj => ?_⟩
          simp [Arp.modify, etharp_free_entry, hj]

/-- A change of the one entry that may have the address. -/
theorem entryOf_at (hone : ∀ j, j ≠ i → b.arp_table j = a.arp_table j)
    (hold : a.entryOf ip = none ∨ a.entryOf ip = some i) (hi : b.holds ip i = true) : b.entryOf ip = some i := by
  have hsame : ∀ j, j ≠ i → b.holds ip j = a.holds ip j := by
    intro j hj
    unfold Arp.holds
    rw [hone j hj]
  rcases hold with hold | hold
  · have hnone := List.find?_eq_none.mp hold
    obtain ⟨k, hk⟩ := Option.isSome_iff_exists.mp (List.find?_isSome.mpr ⟨i, List.mem_finRange i, hi⟩)
    have hk' := List.find?_some hk
    obtain rfl : k = i := by
      by_contra hne
      rw [hsame k hne] at hk'
      exact hnone k (List.mem_finRange k) hk'
    exact hk
  · obtain ⟨hi', front, back, hl, hfront⟩ := List.find?_eq_some_iff_append.mp hold
    refine List.find?_eq_some_iff_append.mpr ⟨hi, front, back, hl, fun j hj => ?_⟩
    have hj' := hfront j hj
    have hne : j ≠ i := by
      rintro rfl
      simp [hi'] at hj'
    rw [hsame j hne]
    exact hj'

end Search

/-! ## Learning -/

section Learn

variable {a : Arp} {nif : netif} {ip : ip_addr_t}

/-- The address of one host, seen from the interface. -/
def Usable (nif : netif) (ip : ip_addr_t) : Prop :=
  ip_addr_isany ip = false ∧ ip4_addr_isbroadcast ip nif = false ∧ ip_addr_ismulticast ip = false

/-- An address that shall be learned is learned. What waited for it goes out. -/
theorem update_arp_entry_hard (hip : Usable nif ip) (a : Arp) (n : NetifPtr) (mac : eth_addr) :
    (etharp_find_addr (etharp_update_arp_entry a n nif ip mac .TRY_HARD).1 ip).2 = some mac ∧
      ∀ p ∈ a.waiting ip, (n, .ip mac nif.hwaddr p) ∈ (etharp_update_arp_entry a n nif ip mac .TRY_HARD).1.tx := by
  obtain ⟨hany, hbroadcast, hmulticast⟩ := hip
  obtain ⟨b, i, hfind⟩ := find_entry_hard a ip
  have hspec := find_entry_spec hfind
  have hipaddr := find_entry_ip hfind
  unfold etharp_update_arp_entry
  rw [hany, hbroadcast, hmulticast, if_neg (by simp), hfind]
  dsimp only
  generalize hc : b.modify i (fun e =>
    { e with state := .STABLE, netif := some n, ethaddr := mac, ctime := 0, q := none }) = c
  have hentry : c.entryOf ip = some i ∧ (c.arp_table i).state.stable = true ∧ (c.arp_table i).ethaddr = mac := by
    subst hc
    refine ⟨entryOf_at (a := a) (fun j hj => ?_) ?_ ?_, by simp [Arp.modify, etharp_state.stable], by simp [Arp.modify]⟩
    · rcases hspec with ⟨rfl, -⟩ | ⟨-, -, hsame⟩
      · simp [Arp.modify, hj]
      · simp [Arp.modify, hj, hsame j hj]
    · rcases hspec with ⟨-, hold⟩ | ⟨hnone, -⟩
      · exact Or.inr hold
      · exact Or.inl hnone
    · simp [Arp.holds, Arp.modify, hipaddr]
  obtain ⟨hof, hstable, hmac⟩ := hentry
  have hknown : (etharp_find_addr c ip).2 = some mac := hmac ▸ find_addr_known hof hstable
  split
  · rename_i hq
    refine ⟨hknown, fun p hp => ?_⟩
    rcases hspec with ⟨rfl, hold⟩ | ⟨hnone, -⟩
    · simp [Arp.waiting, hold, hq] at hp
    · simp [Arp.waiting, hnone] at hp
  · rename_i k hq
    dsimp only [etharp_send_ip]
    refine ⟨by rw [find_addr_linkoutput, hknown], fun p hp => ?_⟩
    rcases hspec with ⟨rfl, hold⟩ | ⟨hnone, -⟩
    · obtain rfl : k = p := by simpa [Arp.waiting, hold, hq] using hp
      simp [Arp.linkoutput]
    · simp [Arp.waiting, hnone] at hp

/-- The answer to a request. -/
def etharp_hdr.reply (h : etharp_hdr) (mac : eth_addr) : etharp_hdr :=
  { h with opcode := ARP_REPLY, dipaddr := h.sipaddr, sipaddr := h.dipaddr, dhwaddr := h.shwaddr, shwaddr := mac }

/-- Who speaks to the interface is known from then on, and who asks is answered. -/
theorem arp_input_learns {f : ArpFrame} (hlen : SIZEOF_ETHARP_PACKET ≤ f.len) (hvalid : f.hdr.valid = true)
    (hmine : ip_addr_isany nif.ip_addr = false) (hdest : f.hdr.dipaddr = nif.ip_addr) (hsrc : Usable nif f.hdr.sipaddr)
    (a : Arp) (n : NetifPtr) :
    (etharp_find_addr (etharp_arp_input a n nif f) f.hdr.sipaddr).2 = some f.hdr.shwaddr ∧
      (∀ p ∈ a.waiting f.hdr.sipaddr, (n, .ip f.hdr.shwaddr nif.hwaddr p) ∈ (etharp_arp_input a n nif f).tx) ∧
      (f.hdr.opcode = ARP_REQUEST →
        (n, .arp f.hdr.shwaddr nif.hwaddr (f.hdr.reply nif.hwaddr)) ∈ (etharp_arp_input a n nif f).tx) := by
  obtain ⟨hknown, hsent⟩ := update_arp_entry_hard hsrc a n f.hdr.shwaddr
  unfold etharp_arp_input
  rw [if_neg (by omega), hvalid, if_neg (by simp), hmine, hdest]
  simp only [Bool.not_false, BEq.rfl, Bool.and_self, if_true]
  generalize (etharp_update_arp_entry a n nif f.hdr.sipaddr f.hdr.shwaddr .TRY_HARD).1 = b at hknown hsent
  split
  · refine ⟨?_, fun p hp => ?_, fun _ => ?_⟩
    · rw [find_addr_linkoutput, hknown]
    · exact List.mem_append_left _ (hsent p hp)
    · simp [Arp.linkoutput, etharp_hdr.reply, hdest]
  · rename_i hno
    exact ⟨hknown, hsent, fun hreq => absurd ⟨hreq, trivial⟩ hno⟩

end Learn

/-! ## Asking -/

/-- The header of `etharp_request`. -/
def requestHdr (mac : eth_addr) (mine ip : ip_addr_t) : etharp_hdr :=
  { hwtype := HWTYPE_ETHERNET, proto := ETHTYPE_IP, hwlen := 6, protolen := 4, opcode := ARP_REQUEST, shwaddr := mac,
    sipaddr := mine, dhwaddr := ethzero, dipaddr := ip }

def requestFrame (nif : netif) (ip : ip_addr_t) : Frame :=
  .arp ethbroadcast nif.hwaddr (requestHdr nif.hwaddr nif.ip_addr ip)

section Ask

variable {a : Arp} {nif : netif} {ip : ip_addr_t}

/-- The entry that is given for an unknown address has no hardware yet. -/
theorem find_entry_unknown {b : Arp} {i : ArpIdx} (hunknown : ∀ j, a.resolves ip j = false)
    (h : etharp_find_entry a ip .TRY_HARD = (b, some i)) :
    (b.arp_table i).state = .EMPTY ∨ (b.arp_table i).state = .PENDING := by
  have hip := find_entry_ip h
  rcases find_entry_spec h with ⟨rfl, -⟩ | ⟨-, hempty, -⟩
  · have hres := hunknown i
    rw [Arp.resolves, hip, BEq.rfl, Bool.and_true] at hres
    cases hstate : (b.arp_table i).state <;> simp [hstate, etharp_state.stable] at hres ⊢
  · exact Or.inl hempty

/-- A packet for an unknown address waits, and the address is asked for. -/
theorem query_asks (hip : Usable nif ip) (hunknown : ∀ j, a.resolves ip j = false) (n : NetifPtr) (p : ip_packet) :
    (n, requestFrame nif ip) ∈ (etharp_query a n nif ip (some p) ⟨true, true⟩).1.tx ∧
      (etharp_query a n nif ip (some p) ⟨true, true⟩).1.waiting ip = some p := by
  obtain ⟨hany, hbroadcast, hmulticast⟩ := hip
  obtain ⟨b, i, hfind⟩ := find_entry_hard a ip
  have hspec := find_entry_spec hfind
  have hipaddr := find_entry_ip hfind
  have hstate := find_entry_unknown hunknown hfind
  unfold etharp_query
  rw [hany, hbroadcast, hmulticast, if_neg (by simp), hfind]
  dsimp only
  -- The entry is pending now, and nothing else has changed.
  generalize hc : (if (b.arp_table i).state = .EMPTY then b.modify i (fun e => { e with state := .PENDING }) else b) = c
  have hpending : (c.arp_table i).state = .PENDING ∧ (c.arp_table i).ipaddr = ip ∧
      ∀ j, j ≠ i → c.arp_table j = b.arp_table j := by
    subst hc
    split
    · exact ⟨by simp [Arp.modify], by simp [Arp.modify, hipaddr], fun j hj => by simp [Arp.modify, hj]⟩
    · rename_i huse
      exact ⟨hstate.resolve_left huse, hipaddr, fun _ _ => rfl⟩
  obtain ⟨hpend, hcip, hother⟩ := hpending
  have hreq : (etharp_query_request b n nif ip (some p) i ⟨true, true⟩).1 = c.linkoutput n (requestFrame nif ip) := by
    unfold etharp_query_request
    rw [hc]
    dsimp only
    rw [if_pos (Or.inl hpend)]
    rfl
  rw [hreq]
  unfold etharp_query_send
  rw [if_neg (by simp [Arp.linkoutput, hpend, etharp_state.stable]), if_pos rfl]
  constructor
  · simp [Arp.modify, Arp.linkoutput]
  · have hof : ((c.linkoutput n (requestFrame nif ip)).modify i (fun e => { e with q := some p })).entryOf ip = some i := by
      refine entryOf_at (a := a) (fun j hj => ?_) ?_ ?_
      · rcases hspec with ⟨rfl, -⟩ | ⟨-, -, hsame⟩
        · simp [Arp.modify, Arp.linkoutput, hj, hother j hj]
        · simp [Arp.modify, Arp.linkoutput, hj, hother j hj, hsame j hj]
      · rcases hspec with ⟨-, hold⟩ | ⟨hnone, -⟩
        · exact Or.inr hold
        · exact Or.inl hnone
      · simp [Arp.holds, Arp.modify, Arp.linkoutput, hcip, hpend]
    rw [Arp.waiting, hof]
    simp [Arp.modify]

/-- The same for a packet to an address of the local network. -/
theorem output_asks (hip : Usable nif ip) (hlocal : ip_addr_netcmp ip nif.ip_addr nif.netmask = true)
    (hunknown : ∀ j, a.resolves ip j = false) (n : NetifPtr) (p : ip_packet) :
    (n, requestFrame nif ip) ∈ (etharp_output a n nif p ip ⟨true, true⟩).1.tx ∧
      (etharp_output a n nif p ip ⟨true, true⟩).1.waiting ip = some p := by
  have hnone : (List.finRange ARP_TABLE_SIZE).find? (a.resolves ip) = none :=
    List.find?_eq_none.mpr (fun j _ => by simp [hunknown j])
  unfold etharp_output etharp_output_local
  rw [hip.2.1, hip.2.2, hlocal, hunknown, hnone]
  exact query_asks hip hunknown n p

end Ask

end MultiIp.Lwip
