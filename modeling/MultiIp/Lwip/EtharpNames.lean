import MultiIp.Lwip.EtharpEntries

/-!
# What ARP frames say

Every ARP frame that the ARP module sends names the interface on which it sends it:
a request, an announcement and a reply alike. The table repeats what it was told.
-/

namespace MultiIp.Lwip

/-- The header is one of Ethernet and IPv4, and says that the host `mac` has the address `ip`, with `T ip mac`. -/
def etharp_hdr.Says (T : ip_addr_t → eth_addr → Prop) (h : etharp_hdr) : Prop :=
  h.valid = true ∧ T h.sipaddr h.shwaddr

/-- The ARP frames that were sent from `a` to `b` say nothing but what `T` says. -/
def Arp.Names (T : ip_addr_t → eth_addr → Prop) (a b : Arp) : Prop :=
  ∀ n dest src h, (n, Frame.arp dest src h) ∈ b.tx → (n, Frame.arp dest src h) ∈ a.tx ∨ h.Says T

namespace Arp.Names

variable {T : ip_addr_t → eth_addr → Prop} {a b c : Arp}

theorem of_tx (h : b.tx = a.tx) : Names T a b := fun _ _ _ _ hx => Or.inl (h ▸ hx)

theorem refl (a : Arp) : Names T a a := of_tx rfl

theorem trans (h : Names T a b) (h' : Names T b c) : Names T a c :=
  fun n dest src x hx => (h' n dest src x hx).elim (h n dest src x) Or.inr

theorem send_ip (a : Arp) (n : NetifPtr) (p : ip_packet) (src dst : eth_addr) : Names T a (etharp_send_ip a n p src dst) := by
  intro m dest src' x hx
  exact Or.inl (by simpa [etharp_send_ip, Arp.linkoutput] using hx)

theorem send_arp (a : Arp) (n : NetifPtr) (dest src : eth_addr) {h : etharp_hdr} (hT : h.Says T) :
    Names T a (a.linkoutput n (.arp dest src h)) := by
  intro m dest' src' x hx
  simp only [Arp.linkoutput, List.mem_append, List.mem_singleton, Prod.mk.injEq, Frame.arp.injEq] at hx
  rcases hx with hx | ⟨-, -, -, rfl⟩
  · exact Or.inl hx
  · exact Or.inr hT

/-- The search only changes the table. -/
theorem find_entry_tx (a : Arp) (ip : ip_addr_t) (flags : FindFlag) : (etharp_find_entry a ip flags).1.tx = a.tx := by
  unfold etharp_find_entry
  split
  · rfl
  · split
    · rfl
    · split
      · rfl
      · split <;> rfl

theorem find_addr (a : Arp) (ip : ip_addr_t) : Names T a (etharp_find_addr a ip).1 := by
  have htx := find_entry_tx a ip .FIND_ONLY
  unfold etharp_find_addr
  split
  · rename_i heq
    rw [heq] at htx
    split <;> exact of_tx htx
  · rename_i heq
    rw [heq] at htx
    exact of_tx htx

theorem update_arp_entry (a : Arp) (n : NetifPtr) (nif : netif) (ip : ip_addr_t) (mac : eth_addr) (flags : FindFlag) :
    Names T a (etharp_update_arp_entry a n nif ip mac flags).1 := by
  have htx := find_entry_tx a ip flags
  unfold etharp_update_arp_entry
  split
  · exact refl a
  · split <;> rename_i heq <;> rw [heq] at htx
    · exact of_tx htx
    · dsimp only
      split
      · exact of_tx htx
      · exact Names.trans (of_tx htx) (send_ip _ _ _ _ _)

theorem cleanup_netif (a : Arp) (n : NetifPtr) : Names T a (etharp_cleanup_netif a n) := by
  unfold etharp_cleanup_netif
  refine List.foldlRecOn (motive := fun b => Names T a b) _ _ (refl a) ?_
  intro b hb i _
  split
  · exact hb.trans (of_tx rfl)
  · exact hb

section Own

variable {nif : netif} (hT : T nif.ip_addr nif.hwaddr)

include hT

theorem request (a : Arp) (n : NetifPtr) (ip : ip_addr_t) (alloc : Bool) : Names T a (etharp_request a n nif ip alloc).1 := by
  unfold etharp_request etharp_raw
  split
  · exact refl a
  · exact send_arp a n _ _ ⟨rfl, hT⟩

theorem query_request (a : Arp) (n : NetifPtr) (ip : ip_addr_t) (q : Option ip_packet) (i : ArpIdx) (alloc : Alloc) :
    Names T a (etharp_query_request a n nif ip q i alloc).1 := by
  have hpend : Names T a (if (a.arp_table i).state = .EMPTY then a.modify i (fun e => { e with state := .PENDING })
      else a) := by
    split
    · exact of_tx rfl
    · exact refl a
  unfold etharp_query_request
  generalize (if (a.arp_table i).state = .EMPTY then a.modify i (fun e => { e with state := .PENDING })
    else a) = b at hpend
  dsimp only
  split
  · exact hpend.trans (request hT b _ _ _)
  · exact hpend

omit hT in
theorem query_send (a : Arp) (n : NetifPtr) (nif : netif) (p : ip_packet) (i : ArpIdx) (alloc : Alloc) :
    Names T a (etharp_query_send a n nif p i alloc).1 := by
  unfold etharp_query_send
  split
  · exact Names.trans (b := { a with etharp_cached_entry := i }) (of_tx rfl) (send_ip _ _ _ _ _)
  · split <;> exact of_tx rfl

theorem query (a : Arp) (n : NetifPtr) (ip : ip_addr_t) (q : Option ip_packet) (alloc : Alloc) :
    Names T a (etharp_query a n nif ip q alloc).1 := by
  have htx := find_entry_tx a ip .TRY_HARD
  unfold etharp_query
  split
  · exact refl a
  · split <;> rename_i heq <;> rw [heq] at htx
    · exact of_tx htx
    · split
      · exact Names.trans (of_tx htx) (query_request hT _ _ _ _ _ _)
      · exact Names.trans (of_tx htx) ((query_request hT _ _ _ _ _ _).trans (query_send _ _ _ _ _ _))

theorem output_to_arp_index (a : Arp) (n : NetifPtr) (p : ip_packet) (i : ArpIdx) (alloc : Alloc) :
    Names T a (etharp_output_to_arp_index a n nif p i alloc).1 := by
  unfold etharp_output_to_arp_index
  refine Names.trans ?_ (send_ip _ n p _ _)
  split
  · have hreq := request hT a n (a.arp_table i).ipaddr alloc.request
    split <;> rename_i heq <;> rw [heq] at hreq
    · exact hreq.trans (of_tx rfl)
    · exact hreq
  · exact refl a

theorem output_local (a : Arp) (n : NetifPtr) (p : ip_packet) (ip : ip_addr_t) (alloc : Alloc) :
    Names T a (etharp_output_local a n nif p ip alloc).1 := by
  unfold etharp_output_local
  split
  · exact output_to_arp_index hT a _ _ _ _
  · split
    · rename_i i _
      exact Names.trans (b := { a with etharp_cached_entry := i }) (of_tx rfl) (output_to_arp_index hT _ _ _ _ _)
    · exact query hT a n ip (some p) alloc

theorem output (a : Arp) (n : NetifPtr) (p : ip_packet) (ip : ip_addr_t) (alloc : Alloc) :
    Names T a (etharp_output a n nif p ip alloc).1 := by
  unfold etharp_output
  split
  · exact send_ip a n p _ _
  · split
    · exact send_ip a n p _ _
    · split
      · split
        · exact refl a
        · exact output_local hT a _ _ _ _
      · exact output_local hT a _ _ _ _

/-- The answer is made of the request. -/
theorem arp_input (a : Arp) (n : NetifPtr) (f : ArpFrame) : Names T a (etharp_arp_input a n nif f) := by
  unfold etharp_arp_input
  split
  · exact refl a
  · split
    · exact refl a
    · rename_i hvalid
      have hup := update_arp_entry (T := T) a n nif f.hdr.sipaddr f.hdr.shwaddr
        (if !ip_addr_isany nif.ip_addr && f.hdr.dipaddr == nif.ip_addr then .TRY_HARD else .FIND_ONLY)
      dsimp only
      split
      · exact hup.trans (send_arp _ n _ _ ⟨by simpa [etharp_hdr.valid] using hvalid, hT⟩)
      · exact hup

end Own

end Arp.Names

/-- What the calls send says what the interfaces are. -/
theorem Arp.Calls.names {S : netif → Prop} {R T : ip_addr_t → eth_addr → Prop} {a b : Arp} (h : Arp.Calls S R a b)
    (hS : ∀ nif, S nif → T nif.ip_addr nif.hwaddr) : Arp.Names T a b := by
  refine h.invariant (P := fun b => Arp.Names T a b) (fun b c hcall hb => hb.trans ?_) (.refl a)
  cases hcall with
  | output n nif p ip alloc hnif => exact .output (hS nif hnif) b n p ip alloc
  | query n nif ip alloc hnif => exact .query (hS nif hnif) b n ip none alloc
  | find_addr ip => exact .find_addr b ip
  | cleanup_netif n => exact .cleanup_netif b n
  | arp_input n nif f hnif _ => exact .arp_input (hS nif hnif) b n f

/-- What the ARP module has sent and learned is what `T` says. -/
structure Arp.Truthful (T : ip_addr_t → eth_addr → Prop) (a : Arp) : Prop where
  sent : ∀ n dest src h, (n, Frame.arp dest src h) ∈ a.tx → h.Says T
  table : ∀ i, (a.arp_table i).state.stable = true → T (a.arp_table i).ipaddr (a.arp_table i).ethaddr

theorem EntryStep.truthful {T : ip_addr_t → eth_addr → Prop} {e e' : etharp_entry} (h : EntryStep T e e')
    (he : e.state.stable = true → T e.ipaddr e.ethaddr) : e'.state.stable = true → T e'.ipaddr e'.ethaddr := by
  intro hs
  cases h with
  | free => cases hs
  | claim ip hempty =>
    rw [hempty] at hs
    cases hs
  | pend => cases hs
  | queue p hpending =>
    rw [hpending] at hs
    cases hs
  | rerequest hstable => exact he (by rw [hstable]; rfl)
  | resolve n mac hT => exact hT

theorem Arp.Truthful.mono {T T' : ip_addr_t → eth_addr → Prop} {a : Arp} (h : a.Truthful T)
    (hT : ∀ ip mac, T ip mac → T' ip mac) : a.Truthful T' :=
  ⟨fun n dest src x hx => ⟨(h.sent n dest src x hx).1, hT _ _ (h.sent n dest src x hx).2⟩,
    fun i hi => hT _ _ (h.table i hi)⟩

/-- Interfaces that are what `T` says send nothing else, and nothing else is learned from frames that say so. -/
theorem Arp.Truthful.calls {T : ip_addr_t → eth_addr → Prop} {a b : Arp} (h : a.Truthful T)
    (hcalls : Arp.Calls (fun nif => T nif.ip_addr nif.hwaddr) T a b) : b.Truthful T where
  sent n dest src x hx := (hcalls.names (fun _ hnif => hnif) n dest src x hx).elim (h.sent n dest src x) id
  table i := hcalls.steps.invariant (P := fun e => e.state.stable = true → T e.ipaddr e.ethaddr)
    (fun _ _ hstep => hstep.truthful) h.table i

theorem Arp.Truthful.find_addr {T : ip_addr_t → eth_addr → Prop} {a : Arp} (h : a.Truthful T) {ip : ip_addr_t}
    {mac : eth_addr} (hfind : (etharp_find_addr a ip).2 = some mac) : T ip mac := by
  have hsame := find_only_same a ip
  unfold etharp_find_addr at hfind
  split at hfind
  · rename_i b i heq
    have hip := find_entry_ip heq
    rw [heq] at hsame
    obtain rfl : b = a := hsame
    split at hfind
    · rename_i hstable
      cases hfind
      rw [← hip]
      exact h.table i hstable
    · cases hfind
  · cases hfind

end MultiIp.Lwip
