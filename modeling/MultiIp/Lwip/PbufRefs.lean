import MultiIp.Lib.RefCount
import MultiIp.Lwip.MemRuns
import MultiIp.Lwip.PbufStore

/-!
# Who refers to a pbuf

The reference counts are exact, and the pools and the heap lack just the pbufs in
use. Each function keeps this, and the users' references change as its comment
in `pbuf.c` says.
-/

namespace MultiIp.Lwip

open Lib FirstFit RefCounts

/-! ## What is in use -/

def PbufPtr.poolIdx : PbufPtr → Option (Fin PBUF_POOL_SIZE)
  | .pool i => some i
  | _ => none

def PbufPtr.mempIdx : PbufPtr → Option (Fin MEMP_NUM_PBUF)
  | .memp i => some i
  | _ => none

/-- The block of the heap, with the size that was asked for. -/
def PbufPtr.block (size : Nat → Nat) : PbufPtr → Option (Nat × Nat)
  | .ram ptr => some (ptr, size ptr)
  | _ => none

/-- The type says where the memory is from, and the payload lies in it. -/
def Placed (size : Nat → Nat) (x : struct_pbuf) : PbufPtr → Prop
  | .pool _ => x.type = .PBUF_POOL ∧ SIZEOF_STRUCT_PBUF ≤ x.payload ∧
      x.payload + x.len.toNat ≤ SIZEOF_STRUCT_PBUF + PBUF_POOL_BUFSIZE
  | .memp _ => x.type = .PBUF_ROM ∨ x.type = .PBUF_REF
  | .ram ptr => x.type = .PBUF_RAM ∧ SIZEOF_STRUCT_PBUF ≤ x.payload ∧ x.payload + x.len.toNat ≤ size ptr

structure Pools (s : PbufStore) (live : List PbufPtr) (size : Nat → Nat) : Prop where
  placed : ∀ p ∈ live, Placed size (s.pbufs p) p
  pool : (s.pool ++ live.filterMap PbufPtr.poolIdx).Perm (List.finRange PBUF_POOL_SIZE)
  memp : (s.memp ++ live.filterMap PbufPtr.mempIdx).Perm (List.finRange MEMP_NUM_PBUF)
  heap : ∃ bs, MemInv ⟨s.heap, live.filterMap (PbufPtr.block size)⟩ bs

namespace PbufStore

/-- The references among the pbufs in use. -/
def refs (s : PbufStore) (live : List PbufPtr) : RefCounts PbufPtr where
  live := live
  next p := (s.pbufs p).next
  count p := (s.pbufs p).ref.toNat

variable {s : PbufStore} {live : List PbufPtr} {p : PbufPtr}

theorem refs_modify (f : struct_pbuf → struct_pbuf) : (s.modify p f).refs live =
    ((s.refs live).setNext p (f (s.pbufs p)).next).setCount p (f (s.pbufs p)).ref.toNat := by
  have hfield : ∀ {β : Type} (g : struct_pbuf → β), (fun q => g ((s.modify p f).pbufs q)) =
      Function.update (fun q => g (s.pbufs q)) p (g (f (s.pbufs p))) := by
    intro β g
    funext q
    by_cases hq : q = p
    · subst hq
      simp [modify]
    · simp [modify, hq]
  simp only [refs, setNext, setCount, hfield struct_pbuf.next, hfield (fun x => x.ref.toNat)]

theorem refs_keep {f : struct_pbuf → struct_pbuf} (hnext : (f (s.pbufs p)).next = (s.pbufs p).next)
    (href : (f (s.pbufs p)).ref = (s.pbufs p).ref) : (s.modify p f).refs live = s.refs live := by
  rw [refs_modify, hnext, href]
  simp [setNext, setCount, refs]

end PbufStore

/-! ## Giving memory back -/

section Dealloc

variable {s : PbufStore} {live : List PbufPtr} {size : Nat → Nat} {p : PbufPtr}

theorem filterMap_erase_perm {β : Type} (g : PbufPtr → Option β) (hp : p ∈ live) (l : List β) :
    ((g p).toList ++ l ++ (live.erase p).filterMap g).Perm (l ++ live.filterMap g) := by
  have hperm := (List.perm_cons_erase hp).filterMap g
  have hcons : (p :: live.erase p).filterMap g = (g p).toList ++ (live.erase p).filterMap g := by
    rw [List.filterMap_cons]
    cases g p <;> rfl
  rw [hcons] at hperm
  refine List.Perm.trans ?_ (hperm.symm.append_left l)
  rw [← List.append_assoc]
  exact List.perm_append_comm.append_right _

theorem filterMap_erase_none {β : Type} {g : PbufPtr → Option β} (hg : g p = none) :
    (live.erase p).filterMap g = live.filterMap g := by
  induction live with
  | nil => rfl
  | cons q l ih =>
    by_cases hq : q = p
    · subst hq
      rw [List.erase_cons_head, List.filterMap_cons, hg]
    · rw [List.erase_cons_tail (by simpa using hq), List.filterMap_cons, List.filterMap_cons, ih]

theorem block_erase (hnd : live.Nodup) (ptr : Nat) :
    (live.erase (.ram ptr)).filterMap (PbufPtr.block size) =
      (live.filterMap (PbufPtr.block size)).filter (fun x => x.1 ≠ ptr) := by
  rw [hnd.erase_eq_filter, List.filterMap_filter, List.filter_filterMap]
  refine List.filterMap_congr (fun q _ => ?_)
  cases q with
  | pool i => rfl
  | memp i => rfl
  | ram k =>
    by_cases hk : k = ptr
    · subst hk
      simp [PbufPtr.block, Option.filter]
    · simp [PbufPtr.block, Option.filter, hk]

/-- A pbuf in use goes back to where it came from. -/
theorem Pools.dealloc (h : Pools s live size) (hnd : live.Nodup) (hp : p ∈ live) :
    ∃ s', pbuf_dealloc s p = some s' ∧ s'.pbufs = s.pbufs ∧ Pools s' (live.erase p) size := by
  have hplaced : ∀ q ∈ live.erase p, Placed size (s.pbufs q) q := fun q hq => h.placed q (List.mem_of_mem_erase hq)
  have hpool := filterMap_erase_perm PbufPtr.poolIdx hp s.pool
  have hmemp := filterMap_erase_perm PbufPtr.mempIdx hp s.memp
  obtain ⟨bs, hi⟩ := h.heap
  have htype := h.placed p hp
  unfold pbuf_dealloc
  cases p with
  | pool i =>
    rw [htype.1]
    refine ⟨_, rfl, rfl, hplaced, hpool.trans h.pool, hmemp.trans h.memp, bs, ?_⟩
    rwa [filterMap_erase_none rfl]
  | memp i =>
    refine ⟨{ s with memp := i :: s.memp }, ?_, rfl, hplaced, hpool.trans h.pool, hmemp.trans h.memp, bs, ?_⟩
    · rcases htype with hrom | href
      · rw [hrom]
      · rw [href]
    · rwa [filterMap_erase_none rfl]
  | ram ptr =>
    have hblock : (ptr, size ptr) ∈ live.filterMap (PbufPtr.block size) := List.mem_filterMap.mpr ⟨.ram ptr, hp, rfl⟩
    obtain ⟨m', cs, hstep, hi', -⟩ := hi.free hblock
    obtain ⟨heap, hfree, rfl⟩ := Option.map_eq_some_iff.mp hstep
    rw [htype.1]
    refine ⟨{ s with heap := heap }, ?_, rfl, hplaced, hpool.trans h.pool, hmemp.trans h.memp, cs, ?_⟩
    · simp only [hfree, Option.map_some]
    · rwa [block_erase hnd]

theorem Pools.of_fields {s' : PbufStore} (h : Pools s live size) (hpool : s'.pool = s.pool) (hmemp : s'.memp = s.memp)
    (hheap : s'.heap = s.heap) (hplaced : ∀ p ∈ live, Placed size (s'.pbufs p) p) : Pools s' live size := by
  refine ⟨hplaced, ?_, ?_, ?_⟩
  · rw [hpool]
    exact h.pool
  · rw [hmemp]
    exact h.memp
  · rw [hheap]
    exact h.heap

theorem Placed.of_fields {x y : struct_pbuf} (h : Placed size x p) (htype : y.type = x.type)
    (hpayload : y.payload = x.payload) (hlen : y.len = x.len) : Placed size y p := by
  unfold Placed at *
  rw [htype, hpayload, hlen]
  exact h

theorem Pools.modify (h : Pools s live size) {f : struct_pbuf → struct_pbuf}
    (hf : p ∈ live → Placed size (f (s.pbufs p)) p) : Pools (s.modify p f) live size := by
  refine h.of_fields rfl rfl rfl (fun q hq => ?_)
  by_cases hqp : q = p
  · subst hqp
    simpa [PbufStore.modify] using hf hq
  · simpa [PbufStore.modify, hqp] using h.placed q hq

end Dealloc

/-! ## Freeing -/

/-- What `pbuf_free` may do to the pbufs, when it walks along the list. -/
structure Freed (s s' : PbufStore) (live live' l : List PbufPtr) : Prop where
  sub : ∀ q ∈ live', q ∈ live
  spared : ∀ q ∈ live, q ∉ l → q ∈ live'
  fields : ∀ q, s'.pbufs q = { s.pbufs q with ref := (s'.pbufs q).ref }
  others : ∀ q, q ∉ l → s'.pbufs q = s.pbufs q

section Free

variable {s : PbufStore} {live held : List PbufPtr} {size : Nat → Nat} {p : PbufPtr}

theorem refs_modify_ref (f : UInt16 → UInt16) :
    (s.modify p (fun x => { x with ref := f x.ref })).refs live = (s.refs live).setCount p (f (s.pbufs p).ref).toNat := by
  rw [PbufStore.refs_modify]
  simp [setNext, setCount, PbufStore.refs]

/-- The loop gives up the reference to the first pbuf, and with each pbuf that goes the reference to the next. -/
theorem pbuf_free_loop_spec {l : List PbufPtr} {p : Option PbufPtr} (hc : Counted (s.refs live) (p.toList ++ held))
    (hp : Pools s live size) (hl : Chain (fun q => (s.pbufs q).next) p l) {fuel : Nat} (hfuel : l.length < fuel)
    (count : UInt8) :
    ∃ s' live' n, pbuf_free_loop fuel s p count = some (s', n) ∧ Counted (s'.refs live') held ∧ Pools s' live' size ∧
      Freed s s' live live' l := by
  obtain ⟨fuel, rfl⟩ : ∃ k, fuel = k + 1 := ⟨fuel - 1, by omega⟩
  induction l generalizing s live p count fuel with
  | nil =>
    obtain rfl : p = none := hl
    exact ⟨s, live, count, rfl, hc, hp, fun _ hq => hq, fun _ hq _ => hq, fun _ => rfl, fun _ _ => rfl⟩
  | cons a l ih =>
    obtain ⟨rfl, hl⟩ := hl
    obtain ⟨ha, hcount⟩ := hc.count_pos_of_held
    have hpos : 0 < (s.pbufs a).ref.toNat := by
      have : (s.pbufs a).ref.toNat = _ := hcount
      omega
    have hne : (s.pbufs a).ref ≠ 0 := fun h => by simp [h] at hpos
    have hsub : ((s.pbufs a).ref - 1).toNat = (s.pbufs a).ref.toNat - 1 := by
      have hle : 1 ≤ (s.pbufs a).ref := UInt16.le_iff_toNat_le.mpr hpos
      rw [UInt16.toNat_sub_of_le _ _ hle]
      rfl
    have hstep : (s.modify a (fun x => { x with ref := x.ref - 1 })).refs live =
        (s.refs live).setCount a ((s.pbufs a).ref - 1).toNat := refs_modify_ref (fun r => r - 1)
    have hpools : Pools (s.modify a (fun x => { x with ref := x.ref - 1 })) live size :=
      hp.modify (fun hlive => (hp.placed a hlive).of_fields rfl rfl rfl)
    have hself : (s.modify a (fun x => { x with ref := x.ref - 1 })).pbufs a =
        { s.pbufs a with ref := (s.pbufs a).ref - 1 } := by simp [PbufStore.modify]
    have hother : ∀ q, q ≠ a → (s.modify a (fun x => { x with ref := x.ref - 1 })).pbufs q = s.pbufs q := by
      intro q hq
      simp [PbufStore.modify, hq]
    unfold pbuf_free_loop
    rw [if_neg hne]
    dsimp only
    generalize s.modify a (fun x => { x with ref := x.ref - 1 }) = s₁ at *
    have hfields : ∀ q, s₁.pbufs q = { s.pbufs q with ref := (s₁.pbufs q).ref } := by
      intro q
      by_cases hq : q = a
      · subst hq
        rw [hself]
      · rw [hother q hq]
    split
    · rename_i hzero
      rw [hself] at hzero
      have hone : (s.refs live).count a = 1 := by
        have hz := congrArg UInt16.toNat hzero
        rw [hsub] at hz
        show (s.pbufs a).ref.toNat = 1
        have : UInt16.toNat 0 = 0 := rfl
        omega
      obtain ⟨s₂, hdealloc, hpbufs, hpools₂⟩ := hpools.dealloc hc.nodup ha
      have hnext : ∀ q, (s₂.pbufs q).next = (s.pbufs q).next := by
        intro q
        rw [hpbufs, hfields]
      have hrefs : s₂.refs (live.erase a) = { (s.refs live).drop a with count := fun q => (s₂.pbufs q).ref.toNat } := by
        simp only [PbufStore.refs, RefCounts.drop, hnext]
      have hc₂ : Counted (s₂.refs (live.erase a)) ((s₁.pbufs a).next.toList ++ held) := by
        rw [hrefs, hself]
        refine (hc.release_last hone).of_count (fun q hq => ?_)
        have hqa : q ≠ a := (hc.nodup.mem_erase_iff.mp hq).1
        show (s₂.pbufs q).ref.toNat = (s.pbufs q).ref.toNat
        rw [hpbufs, hother q hqa]
      have hl₂ : Chain (fun q => (s₂.pbufs q).next) (s₁.pbufs a).next l := by
        rw [hself]
        exact (seg_congr (fun q _ => hnext q)).mpr hl
      rw [hdealloc]
      dsimp only
      obtain ⟨k, rfl⟩ : ∃ k, fuel = k + 1 := ⟨fuel - 1, by simp at hfuel; omega⟩
      obtain ⟨s', live', n, hloop, hc', hp', hfreed⟩ := ih hc₂ hpools₂ hl₂ (count + 1) k (by simpa using hfuel)
      refine ⟨s', live', n, hloop, hc', hp', ?_, ?_, ?_, ?_⟩
      · exact fun q hq => List.mem_of_mem_erase (hfreed.sub q hq)
      · intro q hq hql
        rw [List.mem_cons, not_or] at hql
        exact hfreed.spared q (hc.nodup.mem_erase_iff.mpr ⟨hql.1, hq⟩) hql.2
      · intro q
        rw [hfreed.fields q, hpbufs, hfields]
      · intro q hql
        rw [List.mem_cons, not_or] at hql
        rw [hfreed.others q hql.2, hpbufs, hother q hql.1]
    · rename_i hzero
      rw [hself] at hzero
      have hmany : (s.refs live).count a ≠ 1 := fun hone => by
        refine hzero (UInt16.toNat_inj.mp ?_)
        have hone : (s.pbufs a).ref.toNat = 1 := hone
        rw [hsub, hone]
        rfl
      refine ⟨s₁, live, count, rfl, ?_, hpools, fun _ hq => hq, fun _ hq _ => hq, hfields, fun q hql => ?_⟩
      · rw [hstep, hsub]
        exact hc.release_shared hmany
      · exact hother q (fun hq => hql (hq ▸ List.mem_cons_self))

theorem length_kinds (size : Nat → Nat) (live : List PbufPtr) :
    live.length = (live.filterMap PbufPtr.poolIdx).length + (live.filterMap PbufPtr.mempIdx).length +
      (live.filterMap (PbufPtr.block size)).length := by
  induction live with
  | nil => rfl
  | cons p l ih =>
    rw [List.length_cons, ih]
    cases p <;> simp only [List.filterMap_cons, PbufPtr.poolIdx, PbufPtr.mempIdx, PbufPtr.block, List.length_cons] <;> omega

/-- There are fewer pbufs than rounds. -/
theorem Pools.length_lt (h : Pools s live size) : live.length < pbufRounds := by
  have hpool := h.pool.length_eq
  have hmemp := h.memp.length_eq
  obtain ⟨bs, hi⟩ := h.heap
  have hram : (live.filterMap (PbufPtr.block size)).length ≤ MEM_SIZE_ALIGNED := by
    have hsub : (live.filterMap (PbufPtr.block size)).map Prod.fst ⊆ List.range' 1 MEM_SIZE_ALIGNED := by
      intro k hk
      obtain ⟨x, hx, rfl⟩ := List.mem_map.mp hk
      obtain ⟨-, hge, hle⟩ := hi.bounds hx
      have h8 : SIZEOF_STRUCT_MEM = 8 := rfl
      exact List.mem_range'_1.mpr ⟨by omega, by omega⟩
    simpa using (hi.nodup.subperm hsub).length_le
  rw [List.length_append, List.length_finRange] at hpool hmemp
  rw [length_kinds size live]
  unfold pbufRounds
  omega

theorem chain_rounds (hc : Counted (s.refs live) held) (hp : Pools s live size) (ha : p ∈ live) {l : List PbufPtr}
    (hl : Chain (fun q => (s.pbufs q).next) (some p) l) : l.length < pbufRounds :=
  Nat.lt_of_le_of_lt (hc.chain_length ha hl) hp.length_lt

theorem pbuf_free_spec (hc : Counted (s.refs live) (p :: held)) (hp : Pools s live size) :
    ∃ s' live' n l, pbuf_free s p = some (s', n) ∧ Chain (fun q => (s.pbufs q).next) (some p) l ∧
      Counted (s'.refs live') held ∧ Pools s' live' size ∧ Freed s s' live live' l := by
  have ha := hc.held_live p List.mem_cons_self
  obtain ⟨l, hl⟩ := hc.ends p ha
  obtain ⟨s', live', n, hfree, hc', hp', hfreed⟩ :=
    pbuf_free_loop_spec (p := some p) hc hp hl (chain_rounds hc hp ha hl) 0
  exact ⟨s', live', n, l, hfree, hl, hc', hp', hfreed⟩

end Free

/-! ## Lengths -/

/-- The invariant that `pbuf.h` states: `p->tot_len == p->len + (p->next? p->next->tot_len: 0)`. -/
def SumOk (s : PbufStore) (p : PbufPtr) : Prop :=
  (s.pbufs p).tot_len = (s.pbufs p).len + (match (s.pbufs p).next with | none => 0 | some q => (s.pbufs q).tot_len)

theorem SumOk.of_fields {s s' : PbufStore} (hfields : ∀ q, s'.pbufs q = { s.pbufs q with ref := (s'.pbufs q).ref })
    {p : PbufPtr} (h : SumOk s p) : SumOk s' p := by
  have htot : ∀ q, (s'.pbufs q).tot_len = (s.pbufs q).tot_len := fun q => by rw [hfields q]
  have hlen : (s'.pbufs p).len = (s.pbufs p).len := by rw [hfields p]
  have hnext : (s'.pbufs p).next = (s.pbufs p).next := by rw [hfields p]
  unfold SumOk at *
  rw [htot, hlen, hnext, h]
  cases (s.pbufs p).next with
  | none => rfl
  | some q => simp only [htot]

/-- What holds of the pbufs in use between any two calls. -/
structure PbufInv (s : PbufStore) (held live : List PbufPtr) (size : Nat → Nat) : Prop where
  counted : Counted (s.refs live) held
  pools : Pools s live size
  sums : ∀ p ∈ live, SumOk s p

namespace PbufInv

variable {s : PbufStore} {held live : List PbufPtr} {size : Nat → Nat} {p : PbufPtr}

theorem of_perm {held' : List PbufPtr} (h : PbufInv s held live size) (hperm : held.Perm held') :
    PbufInv s held' live size :=
  ⟨h.counted.of_perm hperm, h.pools, h.sums⟩

/-- `pbuf_free` gives up one reference. -/
theorem free (h : PbufInv s (p :: held) live size) :
    ∃ s' live' n l, pbuf_free s p = some (s', n) ∧ Chain (fun q => (s.pbufs q).next) (some p) l ∧
      PbufInv s' held live' size ∧ Freed s s' live live' l := by
  obtain ⟨s', live', n, l, hfree, hl, hc, hp, hfreed⟩ := pbuf_free_spec h.counted h.pools
  exact ⟨s', live', n, l, hfree, hl, ⟨hc, hp, fun q hq => (h.sums q (hfreed.sub q hq)).of_fields hfreed.fields⟩, hfreed⟩

/-- `pbuf_ref` adds one. -/
theorem ref (h : PbufInv s held live size) (hp : p ∈ live) (hmax : (s.pbufs p).ref ≠ 65535) :
    PbufInv (pbuf_ref s p) (p :: held) live size := by
  have hfields : ∀ q, (pbuf_ref s p).pbufs q = { s.pbufs q with ref := ((pbuf_ref s p).pbufs q).ref } := by
    intro q
    by_cases hq : q = p
    · subst hq
      simp [pbuf_ref, PbufStore.modify]
    · simp [pbuf_ref, PbufStore.modify, hq]
  refine ⟨?_, h.pools.modify (fun hlive => (h.pools.placed p hlive).of_fields rfl rfl rfl), fun q hq =>
    (h.sums q hq).of_fields hfields⟩
  have hadd : ((s.pbufs p).ref + 1).toNat = (s.pbufs p).ref.toNat + 1 := by
    have hne : (s.pbufs p).ref.toNat ≠ 65535 := fun heq => hmax (UInt16.toNat_inj.mp heq)
    have hlt := (s.pbufs p).ref.toNat_lt
    rw [UInt16.toNat_add]
    show ((s.pbufs p).ref.toNat + 1) % 65536 = _
    omega
  have hret := h.counted.retain hp
  rw [pbuf_ref, refs_modify_ref (fun r => r + 1), hadd]
  exact hret

end PbufInv

end MultiIp.Lwip
