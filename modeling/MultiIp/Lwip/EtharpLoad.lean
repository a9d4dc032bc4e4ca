import MultiIp.Lib.Tally
import MultiIp.Lwip.EtharpRules

/-!
# What becomes of a packet

A packet that is handed to the table is sent, queued or dropped. Every function
of the table passes each packet on at most as often as it was handed in, and
frames that were sent stay sent.
-/

namespace MultiIp.Lwip

open Lib

/-- The IP packet of a frame. -/
def Frame.packet : Frame → Option ip_packet
  | .arp _ _ _ => none
  | .ip _ _ p => some p

namespace Arp

/-- The packets that were sent, in order. -/
def sent (a : Arp) : List ip_packet := a.tx.filterMap (fun x => x.2.packet)

/-- The packets that wait for an address. -/
def queued (a : Arp) : List ip_packet := (List.finRange ARP_TABLE_SIZE).filterMap (fun i => (a.arp_table i).q)

/-- How often the packet was sent or is queued. -/
def load (a : Arp) (p : ip_packet) : Nat := a.sent.count p + a.queued.count p

/-- From `a` to `b` no packet is passed on that is not among `out`, and none more often. -/
structure Passes (out : List ip_packet) (a b : Arp) : Prop where
  tx : a.tx <+: b.tx
  load : ∀ p, b.load p ≤ a.load p + out.count p

namespace Passes

variable {a b c : Arp} {out out' : List ip_packet}

theorem refl (a : Arp) : Passes [] a a := ⟨List.prefix_rfl, fun _ => Nat.le_refl _⟩

theorem of_eq (hq : ∀ i, (b.arp_table i).q = (a.arp_table i).q) (htx : b.tx = a.tx) : Passes [] a b := by
  refine ⟨htx ▸ List.prefix_rfl, fun p => ?_⟩
  simp [Arp.load, sent, queued, htx, hq]

theorem trans (h : Passes out a b) (h' : Passes out' b c) : Passes (out ++ out') a c := by
  refine ⟨h.tx.trans h'.tx, fun p => ?_⟩
  have h1 := h.load p
  have h2 := h'.load p
  rw [List.count_append]
  omega

theorem mono (h : Passes out a b) (hle : ∀ p, out.count p ≤ out'.count p) : Passes out' a b :=
  ⟨h.tx, fun p => (h.load p).trans (Nat.add_le_add_left (hle p) _)⟩

theorem drop (h : Passes [] a b) : Passes out a b := h.mono (fun p => by simp)

theorem then_keep (h : Passes out a b) (h' : Passes [] b c) : Passes out a c := by
  have := h.trans h'
  rwa [List.append_nil] at this

theorem keep_then (h : Passes [] a b) (h' : Passes out b c) : Passes out a c := h.trans h'

theorem linkoutput (a : Arp) (n : NetifPtr) (f : Frame) : Passes f.packet.toList a (a.linkoutput n f) := by
  refine ⟨List.prefix_append _ _, fun p => ?_⟩
  have hsent : (a.linkoutput n f).sent = a.sent ++ f.packet.toList := by
    simp only [sent, Arp.linkoutput, List.filterMap_append]
    cases f <;> rfl
  simp only [Arp.load, hsent, List.count_append]
  show _ + a.queued.count p ≤ _
  omega

/-- A changed entry: the packet that it had goes, the one that it gets comes. -/
theorem queued_modify (a : Arp) (i : ArpIdx) (f : etharp_entry → etharp_entry) (p : ip_packet) :
    (a.modify i f).queued.count p + (a.arp_table i).q.toList.count p =
      a.queued.count p + (f (a.arp_table i)).q.toList.count p := by
  have hupdate : (fun j => ((a.modify i f).arp_table j).q) =
      Function.update (fun j => (a.arp_table j).q) i (f (a.arp_table i)).q := by
    funext j
    by_cases hj : j = i
    · subst hj
      simp [Arp.modify]
    · simp [Arp.modify, hj]
  unfold queued
  rw [hupdate]
  exact filterMap_update_count (List.nodup_finRange _) (List.mem_finRange i) _ _ p

theorem modify (a : Arp) (i : ArpIdx) (f : etharp_entry → etharp_entry) :
    Passes (f (a.arp_table i)).q.toList a (a.modify i f) := by
  refine ⟨List.prefix_rfl, fun p => ?_⟩
  have hq := queued_modify a i f p
  show a.sent.count p + (a.modify i f).queued.count p ≤ a.sent.count p + a.queued.count p + _
  omega

theorem modify_keep (a : Arp) (i : ArpIdx) (f : etharp_entry → etharp_entry) (hf : ∀ e, (f e).q = e.q) :
    Passes [] a (a.modify i f) := by
  refine of_eq (fun j => ?_) rfl
  by_cases hj : j = i
  · subst hj
    simp [Arp.modify, hf]
  · simp [Arp.modify, hj]

theorem free_entry (a : Arp) (i : ArpIdx) : Passes [] a (etharp_free_entry a i) :=
  modify a i (fun e => { e with q := none, state := .EMPTY })

theorem find_entry (a : Arp) (ip : ip_addr_t) (flags : FindFlag) : Passes [] a (etharp_find_entry a ip flags).1 := by
  unfold etharp_find_entry
  split
  · exact refl a
  · split
    · exact refl a
    · split
      · dsimp only
        exact modify_keep a _ _ (fun _ => rfl)
      · split
        · exact refl a
        · dsimp only
          exact (free_entry a _).trans (modify_keep _ _ _ (fun _ => rfl))

theorem find_addr (a : Arp) (ip : ip_addr_t) : Passes [] a (etharp_find_addr a ip).1 := by
  have hf := find_entry a ip .FIND_ONLY
  unfold etharp_find_addr
  split
  · rename_i heq
    rw [heq] at hf
    split <;> exact hf
  · rename_i heq
    rw [heq] at hf
    exact hf

/-- The queued packet of a resolved entry is sent. -/
theorem update_arp_entry (a : Arp) (n : NetifPtr) (nif : netif) (ip : ip_addr_t) (mac : eth_addr) (flags : FindFlag) :
    Passes [] a (etharp_update_arp_entry a n nif ip mac flags).1 := by
  unfold etharp_update_arp_entry
  split
  · exact refl a
  · have hfind := find_entry a ip flags
    split
    · rename_i a' heq
      rw [heq] at hfind
      exact hfind
    · rename_i a' i heq
      rw [heq] at hfind
      dsimp only
      split
      · exact hfind.then_keep (modify a' i
          (fun e => { e with state := .STABLE, netif := some n, ethaddr := mac, ctime := 0, q := none }))
      · rename_i p hq
        refine hfind.then_keep ⟨?_, fun x => ?_⟩
        · exact List.prefix_append _ _
        · have hgone := queued_modify a' i
            (fun e => { e with state := .STABLE, netif := some n, ethaddr := mac, ctime := 0, q := none }) x
          have hsend := (linkoutput (a'.modify i
            (fun e => { e with state := .STABLE, netif := some n, ethaddr := mac, ctime := 0, q := none })) n
            (.ip mac nif.hwaddr p)).load x
          rw [hq] at hgone
          simp only [Frame.packet, Option.toList_some, Option.toList_none, List.count_nil] at hsend hgone ⊢
          refine hsend.trans ?_
          show a'.sent.count x + _ + _ ≤ a'.sent.count x + _ + _
          omega

theorem request (a : Arp) (n : NetifPtr) (nif : netif) (ip : ip_addr_t) (alloc : Bool) :
    Passes [] a (etharp_request a n nif ip alloc).1 := by
  unfold etharp_request etharp_raw
  split
  · exact refl a
  · exact linkoutput a n (.arp _ _ _)

theorem query_request (a : Arp) (n : NetifPtr) (nif : netif) (ip : ip_addr_t) (q : Option ip_packet) (i : ArpIdx)
    (alloc : Alloc) : Passes [] a (etharp_query_request a n nif ip q i alloc).1 := by
  have hpend : Passes [] a (if (a.arp_table i).state = .EMPTY then a.modify i (fun e => { e with state := .PENDING })
      else a) := by
    split
    · exact modify_keep a i _ (fun _ => rfl)
    · exact refl a
  unfold etharp_query_request
  generalize (if (a.arp_table i).state = .EMPTY then a.modify i (fun e => { e with state := .PENDING })
    else a) = b at hpend
  dsimp only
  split
  · exact hpend.trans (request b _ _ _ _)
  · exact hpend

theorem query_send (a : Arp) (n : NetifPtr) (nif : netif) (p : ip_packet) (i : ArpIdx) (alloc : Alloc) :
    Passes [p] a (etharp_query_send a n nif p i alloc).1 := by
  unfold etharp_query_send
  split
  · exact (of_eq (fun _ => rfl) rfl : Passes [] a { a with etharp_cached_entry := i }).keep_then
      (linkoutput _ n (.ip _ _ p))
  · split
    · exact modify a i (fun e => { e with q := some p })
    · exact (refl a).drop

theorem query (a : Arp) (n : NetifPtr) (nif : netif) (ip : ip_addr_t) (q : Option ip_packet) (alloc : Alloc) :
    Passes q.toList a (etharp_query a n nif ip q alloc).1 := by
  unfold etharp_query
  split
  · exact (refl a).drop
  · have hfind := find_entry a ip .TRY_HARD
    split
    · rename_i a' heq
      rw [heq] at hfind
      exact hfind.drop
    · rename_i a' i heq
      rw [heq] at hfind
      split
      · exact hfind.trans (query_request a' _ _ _ _ _ _)
      · exact hfind.keep_then ((query_request a' _ _ _ _ _ _).keep_then (query_send _ _ _ _ _ _))

theorem output_to_arp_index (a : Arp) (n : NetifPtr) (nif : netif) (p : ip_packet) (i : ArpIdx) (alloc : Alloc) :
    Passes [p] a (etharp_output_to_arp_index a n nif p i alloc).1 := by
  unfold etharp_output_to_arp_index
  refine keep_then ?_ (linkoutput _ n (.ip _ _ p))
  split
  · have hreq := request a n nif (a.arp_table i).ipaddr alloc.request
    split
    · rename_i a' heq
      rw [heq] at hreq
      exact hreq.trans (modify_keep _ _ _ (fun _ => rfl))
    · rename_i a' _ _ heq
      rw [heq] at hreq
      exact hreq
  · exact refl a

theorem output_local (a : Arp) (n : NetifPtr) (nif : netif) (p : ip_packet) (ip : ip_addr_t) (alloc : Alloc) :
    Passes [p] a (etharp_output_local a n nif p ip alloc).1 := by
  unfold etharp_output_local
  split
  · exact output_to_arp_index a _ _ _ _ _
  · split
    · rename_i i _
      exact (of_eq (fun _ => rfl) rfl : Passes [] a { a with etharp_cached_entry := i }).keep_then
        (output_to_arp_index _ _ _ _ _ _)
    · exact query a n nif ip (some p) alloc

theorem output (a : Arp) (n : NetifPtr) (nif : netif) (p : ip_packet) (ip : ip_addr_t) (alloc : Alloc) :
    Passes [p] a (etharp_output a n nif p ip alloc).1 := by
  unfold etharp_output
  split
  · exact linkoutput a n (.ip _ _ p)
  · split
    · exact linkoutput a n (.ip _ _ p)
    · split
      · split
        · exact (refl a).drop
        · exact output_local a _ _ _ _ _
      · exact output_local a _ _ _ _ _

theorem arp_input (a : Arp) (n : NetifPtr) (nif : netif) (f : ArpFrame) : Passes [] a (etharp_arp_input a n nif f) := by
  unfold etharp_arp_input
  split
  · exact refl a
  · split
    · exact refl a
    · have hup := update_arp_entry a n nif f.hdr.sipaddr f.hdr.shwaddr
        (if !ip_addr_isany nif.ip_addr && f.hdr.dipaddr == nif.ip_addr then .TRY_HARD else .FIND_ONLY)
      dsimp only
      split
      · exact hup.trans (linkoutput _ n (.arp _ _ _))
      · exact hup

theorem cleanup_netif (a : Arp) (n : NetifPtr) : Passes [] a (etharp_cleanup_netif a n) := by
  unfold etharp_cleanup_netif
  refine List.foldlRecOn (motive := fun b => Passes [] a b) _ _ (refl a) ?_
  intro b hb i _
  split
  · exact hb.trans (free_entry b i)
  · exact hb

end Passes

end Arp

end MultiIp.Lwip
