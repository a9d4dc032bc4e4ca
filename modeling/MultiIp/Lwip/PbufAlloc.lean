import MultiIp.Lwip.PbufRefs

/-!
# Allocation of pbufs

`pbuf_alloc` gives a chain nobody else refers to, or what was taken so far goes
back. A chain from the pool grows behind its last pbuf, whose `tot_len` is ahead of
the rest of the chain until the loop ends.
-/

namespace MultiIp.Lwip

open Lib FirstFit RefCounts

/-! ## A new pbuf -/

section New

variable {s : PbufStore} {live held : List PbufPtr} {size : Nat → Nat} {p : PbufPtr}

@[simp] theorem modify_self (f : struct_pbuf → struct_pbuf) : (s.modify p f).pbufs p = f (s.pbufs p) := by
  simp [PbufStore.modify]

theorem modify_other (f : struct_pbuf → struct_pbuf) {q : PbufPtr} (hq : q ≠ p) : (s.modify p f).pbufs q = s.pbufs q := by
  simp [PbufStore.modify, hq]

theorem refs_push {x : struct_pbuf} (hnext : x.next = none) (href : x.ref = 1) :
    (s.modify p (fun _ => x)).refs (p :: live) = (s.refs live).push p := by
  rw [PbufStore.refs_modify, hnext, href]
  rfl

/-- The head of a free list is not in use, and the list without it has room for it among what is in use. -/
theorem perm_take {ι : Type} {g : PbufPtr → Option ι} {i : ι} {l : List ι} {all : List ι} (hnd : all.Nodup)
    (hg : g p = some i) (hperm : (i :: l ++ live.filterMap g).Perm all) :
    p ∉ live ∧ (l ++ (p :: live).filterMap g).Perm all := by
  constructor
  · intro hp
    have hnot := (List.nodup_cons.mp (hperm.nodup_iff.mpr hnd)).1
    exact hnot (List.mem_append_right _ (List.mem_filterMap.mpr ⟨p, hp, hg⟩))
  · rw [List.filterMap_cons, hg]
    exact List.perm_middle.trans hperm

theorem placed_cons {s' : PbufStore} {x : struct_pbuf} (h : ∀ q ∈ live, Placed size (s.pbufs q) q)
    (hs' : s'.pbufs = (s.modify p (fun _ => x)).pbufs) (hx : Placed size x p) :
    ∀ q ∈ p :: live, Placed size (s'.pbufs q) q := by
  intro q hq
  rw [hs']
  by_cases hqp : q = p
  · subst hqp
    rwa [modify_self]
  · rw [modify_other _ hqp]
    exact h q ((List.mem_cons.mp hq).resolve_left hqp)

theorem Pools.take_pool (h : Pools s live size) {i : Fin PBUF_POOL_SIZE} {pool : List (Fin PBUF_POOL_SIZE)}
    (hpool : s.pool = i :: pool) {x : struct_pbuf} (hx : Placed size x (.pool i)) :
    .pool i ∉ live ∧ Pools ({ s with pool := pool }.modify (.pool i) (fun _ => x)) (.pool i :: live) size := by
  have hperm := h.pool
  rw [hpool] at hperm
  obtain ⟨hnot, hperm⟩ := perm_take (List.nodup_finRange _) (p := .pool i) rfl hperm
  exact ⟨hnot, placed_cons (p := .pool i) h.placed rfl hx, hperm, h.memp, h.heap⟩

theorem Pools.take_memp (h : Pools s live size) {i : Fin MEMP_NUM_PBUF} {memp : List (Fin MEMP_NUM_PBUF)}
    (hmemp : s.memp = i :: memp) {x : struct_pbuf} (hx : Placed size x (.memp i)) :
    .memp i ∉ live ∧ Pools ({ s with memp := memp }.modify (.memp i) (fun _ => x)) (.memp i :: live) size := by
  have hperm := h.memp
  rw [hmemp] at hperm
  obtain ⟨hnot, hperm⟩ := perm_take (List.nodup_finRange _) (p := .memp i) rfl hperm
  exact ⟨hnot, placed_cons (p := .memp i) h.placed rfl hx, h.pool, hperm, h.heap⟩

theorem filterMap_block_update {ptr : Nat} (hnot : .ram ptr ∉ live) (n : Nat) :
    live.filterMap (PbufPtr.block (Function.update size ptr n)) = live.filterMap (PbufPtr.block size) := by
  refine List.filterMap_congr (fun q hq => ?_)
  cases q with
  | pool i => rfl
  | memp i => rfl
  | ram k =>
    have hk : k ≠ ptr := by
      rintro rfl
      exact hnot hq
    simp [PbufPtr.block, hk]

theorem Placed.update {ptr n : Nat} {x : struct_pbuf} (h : Placed size x p) (hp : p ≠ .ram ptr) :
    Placed (Function.update size ptr n) x p := by
  cases p with
  | pool i => exact h
  | memp i => exact h
  | ram k =>
    have hk : k ≠ ptr := by
      rintro rfl
      exact hp rfl
    unfold Placed at *
    simpa [hk] using h

/-- A block of the heap for a pbuf, if there is one. -/
theorem Pools.malloc (h : Pools s live size) {n : Nat} (hn : n ≤ 65532) :
    ∃ heap r, mem_malloc s.heap n = some (heap, r) ∧ (r = none → Pools { s with heap := heap } live size) ∧
      ∀ ptr, r = some ptr → .ram ptr ∉ live ∧ ∀ x, Placed (Function.update size ptr n) x (.ram ptr) →
        Pools ({ s with heap := heap }.modify (.ram ptr) (fun _ => x)) (.ram ptr :: live) (Function.update size ptr n) := by
  obtain ⟨bs, hi⟩ := h.heap
  obtain ⟨m', cs, hstep, hi', -⟩ := hi.malloc hn
  obtain ⟨⟨heap, r⟩, hmalloc, rfl⟩ := Option.map_eq_some_iff.mp hstep
  refine ⟨heap, r, hmalloc, ?_, ?_⟩
  · rintro rfl
    exact ⟨h.placed, h.pool, h.memp, cs, hi'⟩
  · rintro ptr rfl
    have hnot : .ram ptr ∉ live := by
      intro hin
      have hnd := hi'.nodup
      simp only [Option.map_some, Option.toList_some, List.cons_append, List.nil_append, List.map_cons] at hnd
      exact (List.nodup_cons.mp hnd).1 (List.mem_map.mpr ⟨_, List.mem_filterMap.mpr ⟨.ram ptr, hin, rfl⟩, rfl⟩)
    refine ⟨hnot, fun x hx => ⟨placed_cons (p := .ram ptr) (fun q hq => ?_) rfl hx, h.pool, h.memp, cs, ?_⟩⟩
    · refine (h.placed q hq).update ?_
      rintro rfl
      exact hnot hq
    · have hlist : (.ram ptr :: live).filterMap (PbufPtr.block (Function.update size ptr n)) =
          (ptr, n) :: live.filterMap (PbufPtr.block size) := by
        rw [List.filterMap_cons, filterMap_block_update hnot]
        simp [PbufPtr.block]
      rw [hlist]
      exact hi'

/-- A pbuf alone in its chain. -/
theorem PbufInv.push (h : PbufInv s held live size) (hnot : p ∉ live) {s' : PbufStore} {size' : Nat → Nat} {x : struct_pbuf}
    (hs' : s'.pbufs = (s.modify p (fun _ => x)).pbufs) (hnext : x.next = none) (href : x.ref = 1)
    (hsum : x.tot_len = x.len) (hp : Pools s' (p :: live) size') : PbufInv s' (p :: held) (p :: live) size' := by
  refine ⟨?_, hp, fun q hq => ?_⟩
  · have hrefs : s'.refs (p :: live) = (s.refs live).push p := by
      rw [← refs_push hnext href]
      simp only [PbufStore.refs, hs']
    rw [hrefs]
    exact h.counted.push hnot
  · unfold SumOk
    rw [hs']
    rcases List.mem_cons.mp hq with rfl | hlive
    · rw [modify_self, hnext, hsum]
      simp
    · have hqp : q ≠ p := by
        rintro rfl
        exact hnot hlive
      rw [modify_other _ hqp, h.sums q hlive]
      cases hn : (s.pbufs q).next with
      | none => rfl
      | some n =>
        have hnp : n ≠ p := by
          rintro rfl
          exact hnot (h.counted.next_live q hlive n hn)
        simp only [modify_other _ hnp]

end New

/-! ## A chain from the pool -/

/-- The chain grows behind `r`: `rem` bytes of its `tot_len` have no pbuf yet. Nothing leads from the pbufs
that were there before to the new ones. -/
structure Growing (s : PbufStore) (old live held : List PbufPtr) (size : Nat → Nat) (r : PbufPtr) (rem : Nat) : Prop where
  counted : Counted (s.refs live) held
  pools : Pools s live size
  sums : ∀ q ∈ live, q ≠ r → SumOk s q
  last_live : r ∈ live
  last_next : (s.pbufs r).next = none
  last_sum : (s.pbufs r).tot_len = (s.pbufs r).len + UInt16.ofNat rem
  old_live : ∀ q ∈ old, q ∈ live
  closed : ∀ q ∈ old, ∀ n, (s.pbufs q).next = some n → n ∈ old
  fresh : r ∉ old

section Grow

variable {s : PbufStore} {old live held : List PbufPtr} {size : Nat → Nat} {r : PbufPtr} {rem : Nat}

theorem Growing.done (h : Growing s old live held size r 0) : PbufInv s held live size := by
  refine ⟨h.counted, h.pools, fun q hq => ?_⟩
  by_cases hqr : q = r
  · subst hqr
    unfold SumOk
    rw [h.last_sum, h.last_next]
    rfl
  · exact h.sums q hq hqr

theorem placed_tail (i : Fin PBUF_POOL_SIZE) (rem : Nat) :
    Placed size ⟨none, SIZEOF_STRUCT_PBUF, UInt16.ofNat rem, UInt16.ofNat (min rem PBUF_POOL_BUFSIZE), .PBUF_POOL, 1⟩
      (.pool i) := by
  unfold Placed PBUF_POOL_BUFSIZE
  refine ⟨rfl, Nat.le_refl _, ?_⟩
  dsimp only
  rw [UInt16.toNat_ofNat']
  omega

/-- One more pbuf behind the last. -/
theorem Growing.link (h : Growing s old live held size r rem) {i : Fin PBUF_POOL_SIZE} {pool : List (Fin PBUF_POOL_SIZE)}
    (hpool : s.pool = i :: pool) :
    Growing (({ s with pool := pool }.modify (.pool i) (fun _ => ⟨none, SIZEOF_STRUCT_PBUF, UInt16.ofNat rem,
        UInt16.ofNat (min rem PBUF_POOL_BUFSIZE), .PBUF_POOL, 1⟩)).modify r (fun x => { x with next := some (.pool i) }))
      old (.pool i :: live) held size (.pool i) (rem - min rem PBUF_POOL_BUFSIZE) := by
  obtain ⟨hnot, hp⟩ := h.pools.take_pool hpool (placed_tail i rem)
  have hir : PbufPtr.pool i ≠ r := by
    rintro rfl
    exact hnot h.last_live
  have hold : ∀ q ∈ old, q ≠ .pool i := by
    rintro q hq rfl
    exact hnot (h.old_live _ hq)
  have hsum : UInt16.ofNat rem = UInt16.ofNat (min rem PBUF_POOL_BUFSIZE) + UInt16.ofNat (rem - min rem PBUF_POOL_BUFSIZE) := by
    rw [← UInt16.ofNat_add]
    congr 1
    omega
  generalize hx : (⟨none, SIZEOF_STRUCT_PBUF, UInt16.ofNat rem, UInt16.ofNat (min rem PBUF_POOL_BUFSIZE), .PBUF_POOL, 1⟩ :
    struct_pbuf) = x at *
  have hself : (({ s with pool := pool }.modify (.pool i) (fun _ => x)).modify r
      (fun x => { x with next := some (.pool i) })).pbufs (.pool i) = x := by
    rw [modify_other _ hir, modify_self]
  have hkeep : ∀ q, q ≠ .pool i → q ≠ r → (({ s with pool := pool }.modify (.pool i) (fun _ => x)).modify r
      (fun x => { x with next := some (.pool i) })).pbufs q = s.pbufs q := by
    intro q hqi hqr
    rw [modify_other _ hqr, modify_other _ hqi]
  have hlast : (({ s with pool := pool }.modify (.pool i) (fun _ => x)).modify r
      (fun x => { x with next := some (.pool i) })).pbufs r = { s.pbufs r with next := some (.pool i) } := by
    rw [modify_self, modify_other _ (Ne.symm hir)]
  refine ⟨?_, ?_, ?_, List.mem_cons_self, ?_, ?_, ?_, ?_, ?_⟩
  · have hpush : ({ s with pool := pool }.modify (.pool i) (fun _ => x)).refs (.pool i :: live) =
        (s.refs live).push (.pool i) := by
      rw [refs_push (by rw [← hx]) (by rw [← hx])]
      rfl
    have hc := h.counted.push hnot
    have hchain : Chain ((s.refs live).push (.pool i)).next (some (.pool i)) [.pool i] :=
      ⟨rfl, by simp [RefCounts.push, Seg]⟩
    have hnot' : r ∉ [PbufPtr.pool i] := by simpa using Ne.symm hir
    have hlink := RefCounts.Counted.relink (v := some (PbufPtr.pool i)) hc (List.mem_cons_of_mem _ h.last_live) hchain hnot'
    have hnone : ((s.refs live).push (.pool i)).next r = none := by
      simp [RefCounts.push, Ne.symm hir, PbufStore.refs, h.last_next]
    rw [hnone] at hlink
    rw [PbufStore.refs_modify, hpush, modify_other _ (Ne.symm hir)]
    have hcount : ((s.refs live).push (.pool i)).count r = (s.pbufs r).ref.toNat := by
      simp [RefCounts.push, Ne.symm hir, PbufStore.refs]
    simpa [RefCounts.setCount, ← hcount, RefCounts.setNext] using hlink
  · exact hp.modify (fun hr => (hp.placed r hr).of_fields rfl rfl rfl)
  · intro q hq hqi
    have hq : q ∈ live := (List.mem_cons.mp hq).resolve_left hqi
    unfold SumOk
    by_cases hqr : q = r
    · subst hqr
      rw [hlast]
      dsimp only
      rw [hself, ← hx]
      exact h.last_sum
    · rw [hkeep q hqi hqr, h.sums q hq hqr]
      cases hn : (s.pbufs q).next with
      | none => rfl
      | some n =>
        have hni : n ≠ .pool i := by
          rintro rfl
          exact hnot (h.counted.next_live q hq _ hn)
        by_cases hnr : n = r
        · subst hnr
          simp only [hlast]
        · simp only [hkeep n hni hnr]
  · rw [hself, ← hx]
  · rw [hself, ← hx]
    exact hsum
  · exact fun q hq => List.mem_cons_of_mem _ (h.old_live q hq)
  · intro q hq n hn
    rw [hkeep q (hold q hq) (fun hqr => h.fresh (hqr ▸ hq))] at hn
    exact h.closed q hq n hn
  · exact fun hin => hold _ hin rfl

/-- The loop ends, with a whole chain or with an empty pool. -/
theorem pbuf_alloc_tail_spec (h : Growing s old live held size r rem) {fuel : Nat} (hfuel : rem ≤ fuel) :
    ∃ s' live' r' rem' b, pbuf_alloc_tail fuel s r rem = some (s', b) ∧ Growing s' old live' held size r' rem' ∧
      (b = true → rem' = 0) := by
  induction fuel generalizing s live r rem with
  | zero =>
    obtain rfl : rem = 0 := by omega
    exact ⟨s, live, r, 0, true, rfl, h, fun _ => rfl⟩
  | succ fuel ih =>
    unfold pbuf_alloc_tail
    split
    · rename_i hzero
      subst hzero
      exact ⟨s, live, r, 0, true, rfl, h, fun _ => rfl⟩
    · unfold memp_malloc_pool
      dsimp only
      cases hpool : s.pool with
      | nil => exact ⟨s, live, r, rem, false, rfl, h, fun hb => absurd hb Bool.false_ne_true⟩
      | cons i pool =>
        dsimp only
        refine ih (h.link hpool) ?_
        unfold PBUF_POOL_BUFSIZE
        omega

/-- After a failure the chain goes back, and what was there before stays as it was. -/
theorem Growing.abandon {p : PbufPtr} (h : Growing s old live (p :: held) size r rem) (hheld : ∀ q ∈ held, q ∈ old) :
    ∃ s' live' n, pbuf_free s p = some (s', n) ∧ PbufInv s' held live' size := by
  obtain ⟨s', live', n, l, hfree, -, hc, hp, hfreed⟩ := pbuf_free_spec h.counted h.pools
  have hnext : ∀ q, (s'.pbufs q).next = (s.pbufs q).next := fun q => by rw [hfreed.fields q]
  refine ⟨s', live', n, hfree, hc, hp, fun q hq => ?_⟩
  -- What is still in use can be reached from the other references, so it was there before.
  obtain ⟨a, ha, l', hseg⟩ := hc.reachable hq
  have hold : q ∈ old := seg_closed (S := fun q => q ∈ old) (fun b hb n hn => h.closed b hb n ((hnext b).symm.trans hn))
    (hheld a ha) hseg
  refine (h.sums q (h.old_live q hold) ?_).of_fields hfreed.fields
  rintro rfl
  exact h.fresh hold

end Grow

/-! ## Allocating -/

section Alloc

variable {s : PbufStore} {live held : List PbufPtr} {size : Nat → Nat}

theorem offset_le (layer : pbuf_layer) :
    LWIP_MEM_ALIGN_SIZE (SIZEOF_STRUCT_PBUF + layer.offset) = SIZEOF_STRUCT_PBUF + LWIP_MEM_ALIGN_SIZE layer.offset ∧
      LWIP_MEM_ALIGN_SIZE layer.offset ≤ 56 := by
  cases layer <;> decide

theorem PbufInv.alloc_pool (h : PbufInv s held live size) (layer : pbuf_layer) (length : UInt16) :
    ∃ s' r live', pbuf_alloc s layer length .PBUF_POOL = some (s', r) ∧ PbufInv s' (r.toList ++ held) live' size := by
  obtain ⟨hoff, hle⟩ := offset_le layer
  have hlt := length.toNat_lt
  unfold pbuf_alloc memp_malloc_pool
  dsimp only
  cases hpool : s.pool with
  | nil => exact ⟨s, none, live, rfl, h⟩
  | cons i pool =>
    dsimp only
    generalize hlen : min length.toNat (PBUF_POOL_BUFSIZE - LWIP_MEM_ALIGN_SIZE layer.offset) = len
    have hlen16 : (UInt16.ofNat len).toNat = len := by
      rw [UInt16.toNat_ofNat']
      omega
    have hplaced : Placed size ⟨none, LWIP_MEM_ALIGN_SIZE (SIZEOF_STRUCT_PBUF + layer.offset), length, UInt16.ofNat len,
        .PBUF_POOL, 1⟩ (.pool i) := by
      unfold Placed
      refine ⟨rfl, ?_, ?_⟩
      · dsimp only
        omega
      · dsimp only
        rw [hlen16]
        unfold PBUF_POOL_BUFSIZE at *
        omega
    obtain ⟨hnot, hp⟩ := h.pools.take_pool hpool hplaced
    have hne : ∀ q ∈ live, q ≠ .pool i := by
      rintro q hq rfl
      exact hnot hq
    have hgrow : Growing ({ s with pool := pool }.modify (.pool i) (fun _ => ⟨none,
        LWIP_MEM_ALIGN_SIZE (SIZEOF_STRUCT_PBUF + layer.offset), length, UInt16.ofNat len, .PBUF_POOL, 1⟩))
        live (.pool i :: live) (.pool i :: held) size (.pool i) (length.toNat - len) := by
      refine ⟨?_, hp, ?_, List.mem_cons_self, ?_, ?_, fun q hq => List.mem_cons_of_mem _ hq, ?_, hnot⟩
      · rw [refs_push rfl rfl]
        exact h.counted.push hnot
      · intro q hq hqi
        have hq : q ∈ live := (List.mem_cons.mp hq).resolve_left hqi
        have hsum := h.sums q hq
        unfold SumOk at *
        rw [modify_other _ hqi, hsum]
        cases hn : (s.pbufs q).next with
        | none => rfl
        | some n => simp only [modify_other _ (hne n (h.counted.next_live q hq n hn))]
      · rw [modify_self]
      · rw [modify_self]
        dsimp only
        rw [← UInt16.ofNat_add]
        have hsum : len + (length.toNat - len) = length.toNat := by omega
        rw [hsum, UInt16.ofNat_toNat]
      · intro q hq n hn
        rw [modify_other _ (hne q hq)] at hn
        exact h.counted.next_live q hq n hn
    have hfuel : length.toNat - len ≤ length.toNat := Nat.sub_le _ _
    obtain ⟨s', live', r', rem', b, htail, hgrow', hb⟩ := pbuf_alloc_tail_spec hgrow hfuel
    rw [htail]
    cases b with
    | true =>
      obtain rfl := hb rfl
      exact ⟨s', some (.pool i), live', rfl, hgrow'.done⟩
    | false =>
      obtain ⟨s'', live'', n, hfree, hinv⟩ := hgrow'.abandon h.counted.held_live
      refine ⟨s'', none, live'', ?_, hinv⟩
      simp only [hfree, Option.map_some]

/-- The size that `pbuf_alloc` asks the heap for, before it is cut to 16 bits. -/
def ramSize (layer : pbuf_layer) (length : UInt16) : Nat :=
  LWIP_MEM_ALIGN_SIZE (SIZEOF_STRUCT_PBUF + layer.offset) + LWIP_MEM_ALIGN_SIZE length.toNat

theorem PbufInv.alloc_ram (h : PbufInv s held live size) {layer : pbuf_layer} {length : UInt16}
    (hn : ramSize layer length ≤ 65532) :
    ∃ s' r live' size', pbuf_alloc s layer length .PBUF_RAM = some (s', r) ∧ PbufInv s' (r.toList ++ held) live' size' := by
  obtain ⟨heap, r, hmalloc, hfull, hnew⟩ := h.pools.malloc hn
  unfold pbuf_alloc
  dsimp only
  unfold ramSize at *
  rw [Nat.mod_eq_of_lt (by omega), hmalloc]
  cases r with
  | none => exact ⟨_, none, live, size, rfl, h.counted, hfull rfl, h.sums⟩
  | some ptr =>
    obtain ⟨hnot, hp⟩ := hnew ptr rfl
    refine ⟨_, some (.ram ptr), .ram ptr :: live, _, rfl, h.push hnot rfl rfl rfl rfl (hp _ ?_)⟩
    obtain ⟨hoff, -⟩ := offset_le layer
    have hlen : length.toNat ≤ LWIP_MEM_ALIGN_SIZE length.toNat := by
      unfold LWIP_MEM_ALIGN_SIZE MEM_ALIGNMENT
      omega
    unfold Placed
    refine ⟨rfl, ?_, ?_⟩
    · dsimp only
      omega
    · dsimp only
      rw [Function.update_self]
      omega

theorem PbufInv.take_memp (h : PbufInv s held live size) {i : Fin MEMP_NUM_PBUF} {memp : List (Fin MEMP_NUM_PBUF)}
    (hmemp : s.memp = i :: memp) (length : UInt16) {type : pbuf_type} (htype : type = .PBUF_ROM ∨ type = .PBUF_REF) :
    PbufInv ({ s with memp := memp }.modify (.memp i) (fun _ => ⟨none, 0, length, length, type, 1⟩)) (.memp i :: held)
      (.memp i :: live) size := by
  obtain ⟨hnot, hp⟩ := h.pools.take_memp (x := ⟨none, 0, length, length, type, 1⟩) hmemp htype
  exact h.push hnot rfl rfl rfl rfl hp

theorem PbufInv.alloc_memp (h : PbufInv s held live size) (layer : pbuf_layer) (length : UInt16) {type : pbuf_type}
    (htype : type = .PBUF_ROM ∨ type = .PBUF_REF) :
    ∃ s' r live', pbuf_alloc s layer length type = some (s', r) ∧ PbufInv s' (r.toList ++ held) live' size := by
  unfold pbuf_alloc
  cases hmemp : s.memp with
  | nil =>
    refine ⟨s, none, live, ?_, h⟩
    rcases htype with rfl | rfl <;> rfl
  | cons i memp =>
    refine ⟨_, some (.memp i), .memp i :: live, ?_, h.take_memp hmemp length htype⟩
    rcases htype with rfl | rfl <;> rfl

/-- The caller of `pbuf_alloc` gets one reference, or nothing changes hands. -/
theorem PbufInv.alloc (h : PbufInv s held live size) (layer : pbuf_layer) (length : UInt16) (type : pbuf_type)
    (hram : type = .PBUF_RAM → ramSize layer length ≤ 65532) :
    ∃ s' r live' size', pbuf_alloc s layer length type = some (s', r) ∧ PbufInv s' (r.toList ++ held) live' size' := by
  cases type with
  | PBUF_RAM => exact h.alloc_ram (hram rfl)
  | PBUF_POOL =>
    obtain ⟨s', r, live', halloc, hinv⟩ := h.alloc_pool layer length
    exact ⟨s', r, live', size, halloc, hinv⟩
  | PBUF_ROM =>
    obtain ⟨s', r, live', halloc, hinv⟩ := h.alloc_memp layer length (Or.inl rfl)
    exact ⟨s', r, live', size, halloc, hinv⟩
  | PBUF_REF =>
    obtain ⟨s', r, live', halloc, hinv⟩ := h.alloc_memp layer length (Or.inr rfl)
    exact ⟨s', r, live', size, halloc, hinv⟩

end Alloc

end MultiIp.Lwip
