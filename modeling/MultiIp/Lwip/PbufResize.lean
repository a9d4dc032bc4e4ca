import MultiIp.Lwip.PbufChains

/-!
# Shrinking chains and moving headers

`pbuf_realloc` cuts the chain behind the pbuf that the new length ends in, and
gives the end of that pbuf's block back to the heap. `pbuf_header` moves the
payload pointer within the block.
-/

namespace MultiIp.Lwip

open Lib FirstFit RefCounts

/-! ## The new last pbuf -/

section Loop

variable {s : PbufStore} {p : PbufPtr}

/-- Of how many bytes the pbufs are, however `tot_len` may have overflowed. -/
def chainLen (s : PbufStore) (l : List PbufPtr) : Nat := (l.map (fun q => (s.pbufs q).len.toNat)).sum

theorem pbuf_realloc_loop_spec {l : List PbufPtr} (hl : Chain (fun q => (s.pbufs q).next) (some p) l)
    (hsums : ∀ q ∈ l, SumOk s q) {rem grow : UInt16} (hrem : rem = (s.pbufs p).tot_len + grow)
    (hlt : rem.toNat < chainLen s l) {fuel : Nat} (hfuel : l.length ≤ fuel) :
    ∃ pbufs l₁ q l₂ rem', l = l₁ ++ q :: l₂ ∧
      pbuf_realloc_loop fuel s p rem grow = some ({ s with pbufs := pbufs }, q, rem') ∧
      rem' ≤ (s.pbufs q).len ∧ rem' = (s.pbufs q).tot_len + grow ∧ rem.toNat = chainLen s l₁ + rem'.toNat ∧
      (∀ x ∈ l₁, pbufs x = { s.pbufs x with tot_len := (s.pbufs x).tot_len + grow }) ∧
      ∀ x, x ∉ l₁ → pbufs x = s.pbufs x := by
  induction l generalizing s p rem fuel with
  | nil => cases hl
  | cons a l ih =>
    obtain ⟨fuel, rfl⟩ : ∃ k, fuel = k + 1 := ⟨fuel - 1, by simp at hfuel; omega⟩
    have hnd := chain_nodup hl
    obtain ⟨hp, hl⟩ := hl
    obtain rfl := Option.some.inj hp
    have hsum := hsums p List.mem_cons_self
    change Seg _ (s.pbufs p).next l none at hl
    rw [List.nodup_cons] at hnd
    rw [chainLen, List.map_cons, List.sum_cons] at hlt
    unfold pbuf_realloc_loop
    split
    · rename_i hgt
      have hgt : (s.pbufs p).len.toNat < rem.toNat := UInt16.lt_iff_toNat_lt.mp hgt
      cases l with
      | nil => simp at hlt; omega
      | cons n l =>
        have hn := hl.1
        rw [hn]
        dsimp only
        rw [hn] at hl
        generalize hs₁ : s.modify p (fun x => { x with tot_len := x.tot_len + grow }) = s₁
        have hself : s₁.pbufs p = { s.pbufs p with tot_len := (s.pbufs p).tot_len + grow } := by
          rw [← hs₁, modify_self]
        have hother : ∀ x, x ≠ p → s₁.pbufs x = s.pbufs x := by
          intro x hx
          rw [← hs₁, modify_other _ hx]
        have hne : ∀ x ∈ n :: l, x ≠ p := by
          rintro x hx rfl
          exact hnd.1 hx
        have hl₁ : Chain (fun x => (s₁.pbufs x).next) (some n) (n :: l) :=
          (seg_congr (fun x hx => by rw [hother x (hne x hx)])).mpr hl
        have hsums₁ : ∀ x ∈ n :: l, SumOk s₁ x := by
          intro x hx
          have hx' := hsums x (List.mem_cons_of_mem _ hx)
          unfold SumOk at *
          rw [hother x (hne x hx), hx']
          cases hnx : (s.pbufs x).next with
          | none => rfl
          | some y => simp only [hother y (hne y (chain_next_mem hl hx hnx))]
        have hlen : chainLen s₁ (n :: l) = chainLen s (n :: l) := by
          unfold chainLen
          congr 1
          exact List.map_congr_left (fun x hx => by rw [hother x (hne x hx)])
        have hsub : (rem - (s.pbufs p).len).toNat = rem.toNat - (s.pbufs p).len.toNat :=
          UInt16.toNat_sub_of_le _ _ (UInt16.le_iff_toNat_le.mpr (by omega))
        have hrem₁ : rem - (s.pbufs p).len = (s₁.pbufs n).tot_len + grow := by
          rw [SumOk, hn] at hsum
          dsimp only at hsum
          rw [hother n (hne n List.mem_cons_self), hrem, hsum, UInt16.add_assoc, UInt16.add_comm, UInt16.add_sub_cancel]
        have hlt₁ : (rem - (s.pbufs p).len).toNat < chainLen s₁ (n :: l) := by
          rw [hlen, hsub]
          unfold chainLen
          omega
        obtain ⟨pbufs, l₁, q, l₂, rem', hsplit, hloop, hle, heq, hnat, hfront, hrest⟩ :=
          ih hl₁ hsums₁ hrem₁ hlt₁ (Nat.le_of_succ_le_succ hfuel)
        have hmem : ({ s₁ with pbufs := pbufs } : PbufStore) = { s with pbufs := pbufs } := by
          rw [← hs₁]
          rfl
        have hsub₁ : ∀ x ∈ l₁, x ∈ n :: l := fun x hx => hsplit ▸ List.mem_append_left _ hx
        have hq : q ≠ p := hne q (hsplit ▸ by simp)
        rw [hother q hq] at hle heq
        have hkept : chainLen s₁ l₁ = chainLen s l₁ := by
          unfold chainLen
          congr 1
          exact List.map_congr_left (fun x hx => by rw [hother x (hne x (hsub₁ x hx))])
        have hsum₁ : chainLen s (p :: l₁) = (s.pbufs p).len.toNat + chainLen s l₁ := by
          rw [chainLen, List.map_cons, List.sum_cons, chainLen]
        refine ⟨pbufs, p :: l₁, q, l₂, rem', by rw [hsplit]; rfl, by rw [hloop, hmem], hle, heq, ?_, ?_, ?_⟩
        · rw [hsum₁]
          omega
        · intro x hx
          rcases List.mem_cons.mp hx with rfl | hx
          · rw [hrest x (fun hin => hnd.1 (hsub₁ x hin)), hself]
          · rw [hfront x hx, hother x (hne x (hsub₁ x hx))]
        · intro x hx
          rw [List.mem_cons, not_or] at hx
          rw [hrest x hx.2, hother x hx.1]
    · rename_i hle
      exact ⟨s.pbufs, [], p, l, rem, rfl, rfl, UInt16.not_lt.mp hle, hrem, by simp [chainLen], by simp, fun _ _ => rfl⟩

/-- However often it overflowed, `tot_len` is no more than the chain has. -/
theorem tot_len_le {l : List PbufPtr} (hl : Chain (fun q => (s.pbufs q).next) (some p) l)
    (hsums : ∀ q ∈ l, SumOk s q) : (s.pbufs p).tot_len.toNat ≤ chainLen s l := by
  induction l generalizing p with
  | nil => cases hl
  | cons a l ih =>
    obtain ⟨hp, hl⟩ := hl
    obtain rfl := Option.some.inj hp
    have hsum := hsums p List.mem_cons_self
    change Seg _ (s.pbufs p).next l none at hl
    rw [chainLen, List.map_cons, List.sum_cons, hsum]
    cases l with
    | nil =>
      have hnone : (s.pbufs p).next = none := hl
      rw [hnone]
      simp
    | cons n l =>
      have hn := hl.1
      rw [hn] at hl ⊢
      have hrec := ih hl (fun q hq => hsums q (List.mem_cons_of_mem _ hq))
      unfold chainLen at hrec
      dsimp only
      rw [UInt16.toNat_add]
      exact Nat.le_trans (Nat.mod_le _ _) (by omega)

end Loop

/-! ## Giving the end of a block back -/

section Trim

variable {s : PbufStore} {live held : List PbufPtr} {size : Nat → Nat} {q : PbufPtr}

theorem Pools.trim (h : Pools s live size) {ptr n : Nat} (hram : .ram ptr ∈ live) (hn : n ≤ size ptr) :
    ∃ heap, mem_trim s.heap ptr n = some (heap, some ptr) ∧
      ∃ bs, MemInv ⟨heap, live.filterMap (PbufPtr.block (Function.update size ptr n))⟩ bs := by
  obtain ⟨bs, hi⟩ := h.heap
  have hx : (ptr, size ptr) ∈ live.filterMap (PbufPtr.block size) := List.mem_filterMap.mpr ⟨.ram ptr, hram, rfl⟩
  obtain ⟨m', cs, hstep, hi', -⟩ := hi.trim hx hn
  obtain ⟨⟨heap, r⟩, htrim, rfl⟩ := Option.map_eq_some_iff.mp hstep
  have hr : r = some ptr := by
    obtain ⟨pre, k, post, rfl, hfst, hsize⟩ := hi.block hx
    obtain ⟨h', s', post', htrim', -⟩ := mem_trim_spec hi.laid hi.separated
      (Nat.le_trans (memSize_mono hn (hi.asked _ hx)) hsize)
    dsimp only at hfst htrim
    rw [hfst] at htrim ⊢
    rw [htrim'] at htrim
    cases htrim
    rfl
  have hlist : live.filterMap (PbufPtr.block (Function.update size ptr n)) =
      (live.filterMap (PbufPtr.block size)).map (fun x => if x.1 = ptr then (ptr, n) else x) := by
    rw [List.map_filterMap]
    refine List.filterMap_congr (fun x _ => ?_)
    cases x with
    | pool i => rfl
    | memp i => rfl
    | ram k =>
      by_cases hk : k = ptr
      · subst hk
        simp [PbufPtr.block]
      · simp [PbufPtr.block, hk]
  refine ⟨heap, by rw [← hr]; exact htrim, cs, ?_⟩
  rw [hlist]
  exact hi'

theorem Placed.shorter {x : struct_pbuf} (h : Placed size x q) {n : UInt16} (hn : n ≤ x.len) {next : Option PbufPtr} :
    Placed size { x with len := n, tot_len := n, next := next } q := by
  have hle := UInt16.le_iff_toNat_le.mp hn
  unfold Placed at *
  cases q with
  | pool i => exact ⟨h.1, h.2.1, by dsimp only at *; omega⟩
  | memp i => exact h
  | ram ptr => exact ⟨h.1, h.2.1, by dsimp only at *; omega⟩

theorem pbuf_trim_spec (h : Pools s live size) (hq : q ∈ live) {rem : UInt16} (hrem : rem ≤ (s.pbufs q).len) :
    ∃ heap size', pbuf_trim s q rem = some { s with heap := heap } ∧
      (∃ bs, MemInv ⟨heap, live.filterMap (PbufPtr.block size')⟩ bs) ∧
      (∀ x ∈ live, x ≠ q → Placed size' (s.pbufs x) x) ∧
      Placed size' { s.pbufs q with len := rem, tot_len := rem, next := none } q := by
  have hplaced := h.placed q hq
  have hle := UInt16.le_iff_toNat_le.mp hrem
  unfold pbuf_trim
  split
  · rename_i hram
    cases q with
    | pool i => exact absurd (hplaced.1.symm.trans hram.1) (by decide)
    | memp i =>
      rcases hplaced with hrom | href
      · exact absurd (hrom.symm.trans hram.1) (by decide)
      · exact absurd (href.symm.trans hram.1) (by decide)
    | ram ptr =>
      obtain ⟨htype, hpayload, hsize⟩ := hplaced
      obtain ⟨bs, hi⟩ := h.heap
      have hasked := hi.asked (ptr, size ptr) (List.mem_filterMap.mpr ⟨.ram ptr, hq, rfl⟩)
      dsimp only at hasked
      obtain ⟨heap, htrim, hheap⟩ := h.trim (n := (s.pbufs (.ram ptr)).payload + rem.toNat) hq (by omega)
      refine ⟨heap, _, ?_, hheap, fun x hx hne => (h.placed x hx).update hne, ?_⟩
      · dsimp only
        rw [Nat.mod_eq_of_lt (by omega), htrim]
      · unfold Placed
        refine ⟨htype, hpayload, ?_⟩
        dsimp only
        rw [Function.update_self]
  · exact ⟨s.heap, size, rfl, h.heap, fun x hx _ => h.placed x hx, hplaced.shorter hrem⟩

end Trim

/-! ## Freeing the rest -/

section Frame

variable {s : PbufStore} {q : PbufPtr} {f : struct_pbuf → struct_pbuf}

theorem pbuf_dealloc_modify {p : PbufPtr} (hq : p ≠ q) :
    pbuf_dealloc (s.modify q f) p = (pbuf_dealloc s p).map (fun s => s.modify q f) := by
  unfold pbuf_dealloc
  rw [modify_other f hq]
  cases (s.pbufs p).type <;> cases p <;> simp [PbufStore.modify, Function.comp_def]

theorem pbuf_dealloc_pbufs {s' : PbufStore} {p : PbufPtr} (h : pbuf_dealloc s p = some s') : s'.pbufs = s.pbufs := by
  unfold pbuf_dealloc at h
  split at h
  · cases h
    rfl
  · cases h
    rfl
  · cases h
    rfl
  · obtain ⟨heap, -, rfl⟩ := Option.map_eq_some_iff.mp h
    rfl
  · cases h

/-- What `pbuf_free` does is the same whatever is in a pbuf that it does not come to. -/
theorem pbuf_free_loop_modify {fuel : Nat} {p : Option PbufPtr} {l : List PbufPtr} {count : UInt8}
    (hl : Chain (fun q => (s.pbufs q).next) p l) (hq : q ∉ l) :
    pbuf_free_loop fuel (s.modify q f) p count =
      (pbuf_free_loop fuel s p count).map (fun r => (r.1.modify q f, r.2)) := by
  induction fuel generalizing s p l count with
  | zero => rfl
  | succ fuel ih =>
    cases p with
    | none => rfl
    | some a =>
      cases l with
      | nil => cases hl
      | cons b l =>
        obtain ⟨hab, hl⟩ := hl
        obtain rfl := Option.some.inj hab
        rw [List.mem_cons, not_or] at hq
        have hcomm : (s.modify q f).modify a (fun x => { x with ref := x.ref - 1 }) =
            (s.modify a (fun x => { x with ref := x.ref - 1 })).modify q f := by
          unfold PbufStore.modify
          dsimp only
          rw [Function.update_of_ne (Ne.symm hq.1), Function.update_of_ne hq.1, Function.update_comm hq.1]
        have hnext : ((s.modify a (fun x => { x with ref := x.ref - 1 })).pbufs a).next = (s.pbufs a).next := by
          rw [modify_self]
        have hchain : Chain (fun q => ((s.modify a (fun x => { x with ref := x.ref - 1 })).pbufs q).next)
            (s.pbufs a).next l := by
          refine (seg_congr (fun x _ => ?_)).mpr hl
          by_cases hxa : x = a
          · subst hxa
            exact hnext
          · rw [modify_other _ hxa]
        unfold pbuf_free_loop
        rw [modify_other f (Ne.symm hq.1), hcomm]
        split
        · rfl
        · dsimp only
          rw [modify_other f (Ne.symm hq.1), hnext]
          split
          · rw [pbuf_dealloc_modify (Ne.symm hq.1)]
            cases hd : pbuf_dealloc (s.modify a (fun x => { x with ref := x.ref - 1 })) a with
            | none => rfl
            | some s₂ =>
              have hpbufs := pbuf_dealloc_pbufs hd
              dsimp only [Option.map_some]
              refine ih ?_ hq.2
              rw [hpbufs]
              exact hchain
          · rfl

end Frame

/-! ## Shrinking -/

section Realloc

variable {s : PbufStore} {live held l : List PbufPtr} {size : Nat → Nat} {p : PbufPtr}

/-- The chain ends at `q`, of which `rem` bytes are left. -/
structure Cut (s s' : PbufStore) (l₁ : List PbufPtr) (q : PbufPtr) (rem grow : UInt16) : Prop where
  front : ∀ x ∈ l₁, s'.pbufs x = { s.pbufs x with tot_len := (s.pbufs x).tot_len + grow }
  joint : s'.pbufs q = { s.pbufs q with len := rem, tot_len := rem, next := none }
  others : ∀ x, x ∉ l₁ → x ≠ q → s'.pbufs x = s.pbufs x

/-- The reference to the rest is left over. -/
theorem PbufInv.cut {s' : PbufStore} {l₁ l₂ : List PbufPtr} {q : PbufPtr} {rem grow : UInt16} {size' : Nat → Nat}
    (h : PbufInv s held live size) (hp : p ∈ live)
    (hl : Chain (fun q => (s.pbufs q).next) (some p) (l₁ ++ q :: l₂)) (hpacket : Packet s live (l₁ ++ q :: l₂))
    (hrem : rem = (s.pbufs q).tot_len + grow) (hcut : Cut s s' l₁ q rem grow) (hpools : Pools s' live size') :
    PbufInv s' ((s.pbufs q).next.toList ++ held) live size' := by
  have hlive := h.counted.chain_live hp hl
  have hnd := chain_nodup hl
  have hq₁ : q ∉ l₁ := fun hin => (List.nodup_cons.mp (List.nodup_middle.mp hnd)).1 (List.mem_append_left _ hin)
  have hfields : ∀ x, x ≠ q → (s'.pbufs x).len = (s.pbufs x).len ∧ (s'.pbufs x).next = (s.pbufs x).next ∧
      (s'.pbufs x).ref = (s.pbufs x).ref := by
    intro x hx
    by_cases hx₁ : x ∈ l₁
    · rw [hcut.front x hx₁]
      exact ⟨rfl, rfl, rfl⟩
    · rw [hcut.others x hx₁ hx]
      exact ⟨rfl, rfl, rfl⟩
  refine ⟨?_, hpools, ?_⟩
  · have hrelink := h.counted.cut (hlive q (by simp))
    have hrefs : s'.refs live = (s.refs live).setNext q none := by
      unfold PbufStore.refs RefCounts.setNext
      congr 1
      · funext x
        by_cases hx : x = q
        · subst hx
          rw [hcut.joint, Function.update_self]
        · rw [(hfields x hx).2.1, Function.update_of_ne hx]
      · funext x
        by_cases hx : x = q
        · subst hx
          rw [hcut.joint]
        · rw [(hfields x hx).2.2]
    rw [hrefs]
    exact hrelink
  · intro x hx
    have hsum := h.sums x hx
    unfold SumOk at *
    by_cases hxq : x = q
    · subst hxq
      rw [hcut.joint]
      simp
    rw [(hfields x hxq).1, (hfields x hxq).2.1]
    by_cases hx₁ : x ∈ l₁
    · rw [hcut.front x hx₁]
      dsimp only
      rw [hsum]
      obtain ⟨k₁, k₂, rfl⟩ := List.append_of_mem hx₁
      rw [List.append_assoc] at hl
      obtain ⟨m, -, rfl, hrest⟩ := (seg_append _ _ _ _ _).mp hl
      change Seg _ (s.pbufs x).next (k₂ ++ q :: l₂) none at hrest
      cases k₂ with
      | nil =>
        rw [hrest.1]
        dsimp only
        rw [hcut.joint, hrem, UInt16.add_assoc]
      | cons y k₂ =>
        rw [hrest.1]
        dsimp only
        rw [hcut.front y (by simp), UInt16.add_assoc]
    · rw [hcut.others x hx₁ hxq, hsum]
      cases hn : (s.pbufs x).next with
      | none => rfl
      | some n =>
        -- Where another pbuf leads into the cut chain, it is one of those that are cut off.
        have hn₁ : n ∉ l₁ ∧ n ≠ q := by
          by_contra hcon
          have hnl : n ∈ l₁ ++ [q] := by
            simp only [List.mem_append, List.mem_singleton]
            tauto
          have hnl' : n ∈ l₁ ++ q :: l₂ := by
            simp only [List.mem_append, List.mem_cons, List.not_mem_nil, or_false] at hnl ⊢
            tauto
          have hxl := hpacket x hx n hnl' hn
          have hx₂ : x ∈ l₂ := by
            simp only [List.mem_append, List.mem_cons] at hxl
            tauto
          obtain ⟨m, -, rfl, hrest⟩ := (seg_append _ _ _ _ _).mp hl
          have hn₂ := chain_next_mem hrest hx₂ hn
          have hsplit : l₁ ++ q :: l₂ = (l₁ ++ [q]) ++ l₂ := by simp
          rw [hsplit] at hnd
          exact (List.nodup_append.mp hnd).2.2 n hnl n hn₂ rfl
        simp only [hcut.others n hn₁.1 hn₁.2]

/-- The front of the chain with the new last pbuf is the new chain. -/
theorem Cut.chain {s' : PbufStore} {l₁ l₂ : List PbufPtr} {q : PbufPtr} {rem grow : UInt16}
    (hl : Chain (fun q => (s.pbufs q).next) (some p) (l₁ ++ q :: l₂)) (hcut : Cut s s' l₁ q rem grow) :
    Chain (fun q => (s'.pbufs q).next) (some p) (l₁ ++ [q]) ∧ chainLen s' (l₁ ++ [q]) = chainLen s l₁ + rem.toNat := by
  obtain ⟨m, hfront, rfl, -⟩ := (seg_append _ _ _ _ _).mp hl
  constructor
  · refine (seg_append _ _ _ _ _).mpr ⟨some q, (seg_congr (fun x hx => ?_)).mpr hfront, rfl, ?_⟩
    · rw [hcut.front x hx]
    · show (s'.pbufs q).next = none
      rw [hcut.joint]
  · have hsame : l₁.map (fun x => (s'.pbufs x).len.toNat) = l₁.map (fun x => (s.pbufs x).len.toNat) :=
      List.map_congr_left (fun x hx => by rw [hcut.front x hx])
    unfold chainLen
    rw [List.map_append, List.sum_append, hsame, List.map_singleton, List.sum_singleton, hcut.joint]

/-- `pbuf_realloc` gives up the reference from the new last pbuf to the rest. -/
theorem PbufInv.realloc (h : PbufInv s held live size) (hp : p ∈ live)
    (hl : Chain (fun q => (s.pbufs q).next) (some p) l) (hpacket : Packet s live l) (new_len : UInt16) :
    ∃ s' live' size', pbuf_realloc s p new_len = some s' ∧ PbufInv s' held live' size' ∧
      (new_len < (s.pbufs p).tot_len → ∃ l', l' <+: l ∧ Chain (fun q => (s'.pbufs q).next) (some p) l' ∧
        chainLen s' l' = new_len.toNat) := by
  have hlive := h.counted.chain_live hp hl
  have hrounds := chain_rounds h.counted h.pools hp hl
  unfold pbuf_realloc
  split
  · rename_i hlong
    exact ⟨s, live, size, rfl, h, fun hlt => absurd hlt (UInt16.not_lt.mpr hlong)⟩
  rename_i hshort
  have hlt : new_len.toNat < chainLen s l := by
    have hlt := UInt16.lt_iff_toNat_lt.mp (UInt16.not_le.mp hshort)
    have hle := tot_len_le hl (fun x hx => h.sums x (hlive x hx))
    omega
  have hgrow : new_len = (s.pbufs p).tot_len + (new_len - (s.pbufs p).tot_len) := by
    rw [UInt16.add_comm, UInt16.sub_add_cancel]
  obtain ⟨pbufs, l₁, q, l₂, rem, rfl, hloop, hrem, heq, hnat, hfront, hrest⟩ :=
    pbuf_realloc_loop_spec hl (fun x hx => h.sums x (hlive x hx)) hgrow hlt (Nat.le_of_lt hrounds)
  rw [hloop]
  dsimp only
  have hq := hlive q (by simp)
  have hq₁ : q ∉ l₁ := fun hin =>
    (List.nodup_cons.mp (List.nodup_middle.mp (chain_nodup hl))).1 (List.mem_append_left _ hin)
  have hpools₁ : Pools { s with pbufs := pbufs } live size := by
    refine h.pools.of_fields rfl rfl rfl (fun x hx => ?_)
    by_cases hx₁ : x ∈ l₁
    · dsimp only
      rw [hfront x hx₁]
      exact (h.pools.placed x hx).of_fields rfl rfl rfl
    · dsimp only
      rw [hrest x hx₁]
      exact h.pools.placed x hx
  have hrem₁ : rem ≤ (({ s with pbufs := pbufs } : PbufStore).pbufs q).len := by
    dsimp only
    rwa [hrest q hq₁]
  obtain ⟨heap, size', htrim, hheap, hplaced, hself⟩ := pbuf_trim_spec hpools₁ hq hrem₁
  rw [htrim]
  dsimp only at hplaced hself ⊢
  generalize hs₂ : ({ pbufs := pbufs, pool := s.pool, memp := s.memp, heap := heap } : PbufStore).modify q
    (fun x => { x with len := rem, tot_len := rem }) = s₂
  have hq₂ : s₂.pbufs q = { s.pbufs q with len := rem, tot_len := rem } := by
    rw [← hs₂, modify_self]
    dsimp only
    rw [hrest q hq₁]
  have hother₂ : ∀ x, x ≠ q → s₂.pbufs x = pbufs x := by
    intro x hx
    rw [← hs₂, modify_other _ hx]
  -- The state in which the chain is already cut.
  have hcut : Cut s (s₂.modify q (fun x => { x with next := none })) l₁ q rem (new_len - (s.pbufs p).tot_len) := by
    refine ⟨?_, by rw [modify_self, hq₂], ?_⟩
    · intro x hx
      have hxq : x ≠ q := by
        rintro rfl
        exact hq₁ hx
      rw [modify_other _ hxq, hother₂ x hxq, hfront x hx]
    · intro x hx hxq
      rw [modify_other _ hxq, hother₂ x hxq, hrest x hx]
  have hpools₃ : Pools (s₂.modify q (fun x => { x with next := none })) live size' := by
    refine ⟨fun x hx => ?_, ?_, ?_, ?_⟩
    · by_cases hxq : x = q
      · subst hxq
        rw [hcut.joint]
        rwa [hrest x hq₁] at hself
      · rw [modify_other _ hxq, hother₂ x hxq]
        exact hplaced x hx hxq
    · rw [← hs₂]
      exact h.pools.pool
    · rw [← hs₂]
      exact h.pools.memp
    · rw [← hs₂]
      exact hheap
  have hinv := h.cut hp hl hpacket heq hcut hpools₃
  obtain ⟨hchain, hlen⟩ := hcut.chain hl
  rw [← hnat] at hlen
  have hpre : l₁ ++ [q] <+: l₁ ++ q :: l₂ := ⟨l₂, by simp⟩
  rw [hq₂]
  dsimp only
  cases hn : (s.pbufs q).next with
  | none =>
    rw [hn] at hinv
    have hsame : s₂.modify q (fun x => { x with next := none }) = s₂ := by
      refine modify_same ?_
      rw [hq₂]
      simp only [hn]
    rw [hsame] at hinv hchain hlen
    exact ⟨s₂, live, size', rfl, hinv, fun _ => ⟨l₁ ++ [q], hpre, hchain, hlen⟩⟩
  | some n =>
    rw [hn] at hinv
    generalize hs₃ : s₂.modify q (fun x => { x with next := none }) = s₃ at hinv hcut hchain hlen
    have hinv₃ : PbufInv s₃ (n :: held) live size' := hinv
    obtain ⟨s₄, live', k, lf, hfree, hlf, hinv', hfreed⟩ := hinv₃.free
    have hback : s₂ = s₃.modify q (fun x => { x with next := some n }) := by
      rw [← hs₃]
      unfold PbufStore.modify
      simp only [Function.update_self, Function.update_idem, hq₂, hn]
      rw [← hn, ← hq₂, Function.update_eq_self]
    have hnone : (s₄.pbufs q).next = none := by
      rw [hfreed.fields q, hcut.joint]
    have hqlf : q ∉ lf := by
      obtain ⟨m, -, rfl, hrestl⟩ := (seg_append _ _ _ _ _).mp hl
      change Seg _ (s.pbufs q).next l₂ none at hrestl
      rw [hn] at hrestl
      have hnd := chain_nodup hl
      have hq₂' : q ∉ l₂ := fun hin => (List.nodup_cons.mp (List.nodup_middle.mp hnd)).1 (List.mem_append_right _ hin)
      have hchain : Chain (fun x => (s₃.pbufs x).next) (some n) l₂ := by
        refine (seg_congr (fun x hx => ?_)).mpr hrestl
        have hx₁ : x ∉ l₁ := fun hin => (List.nodup_append.mp hnd).2.2 x hin x (List.mem_cons_of_mem _ hx) rfl
        have hxq : x ≠ q := by
          rintro rfl
          exact hq₂' hx
        rw [hcut.others x hx₁ hxq]
      rwa [chain_unique hlf hchain]
    have hrun : pbuf_free s₂ n = some (s₄.modify q (fun x => { x with next := some n }), k) := by
      have hfree' : pbuf_free_loop pbufRounds s₃ (some n) 0 = some (s₄, k) := hfree
      rw [hback, pbuf_free, pbuf_free_loop_modify hlf hqlf, hfree', Option.map_some]
    have hchain₄ : Chain (fun x => (s₄.pbufs x).next) (some p) (l₁ ++ [q]) :=
      (seg_congr (fun x _ => by rw [hfreed.fields x])).mpr hchain
    have hlen₄ : chainLen s₄ (l₁ ++ [q]) = new_len.toNat := by
      rw [← hlen]
      unfold chainLen
      congr 1
      exact List.map_congr_left (fun x _ => by rw [hfreed.fields x])
    refine ⟨s₄, live', size', ?_, hinv', fun _ => ⟨l₁ ++ [q], hpre, hchain₄, hlen₄⟩⟩
    dsimp only
    rw [hrun, Option.map_some]
    dsimp only
    have hend : (s₄.modify q (fun x => { x with next := some n })).modify q (fun x => { x with next := none }) = s₄ := by
      have hq₄ : s₄.pbufs q = { s₄.pbufs q with next := none } := by rw [← hnone]
      unfold PbufStore.modify
      simp only [Function.update_self, Function.update_idem]
      rw [← hq₄, Function.update_eq_self]
    rw [hend]

end Realloc

/-! ## Headers -/

section Header

variable {s : PbufStore} {live held : List PbufPtr} {size : Nat → Nat} {p : PbufPtr} {x : struct_pbuf} {inc : Int}

theorem toNat_add_ofInt (n : UInt16) (inc : Int) (hlow : 0 ≤ n.toNat + inc) (hhigh : n.toNat + inc < 65536) :
    ((n + UInt16.ofInt inc).toNat : Int) = n.toNat + inc := by
  have hlt := n.toNat_lt
  have hofInt : ((UInt16.ofInt inc).toNat : Int) = inc % 65536 := by
    simp only [UInt16.ofInt]
    rw [UInt16.toNat_ofNat']
    omega
  rw [UInt16.toNat_add]
  omega

/-- The payload ends where it ended. -/
theorem pbuf_header_struct_spec (h : Placed size x p) (hsize : ∀ ptr, p = .ram ptr → size ptr ≤ 65532) (inc : Int) :
    Placed size (pbuf_header_struct x inc).1 p ∧ (pbuf_header_struct x inc).1.next = x.next ∧
      (pbuf_header_struct x inc).1.ref = x.ref ∧
      ∃ d, (pbuf_header_struct x inc).1.len = x.len + d ∧ (pbuf_header_struct x inc).1.tot_len = x.tot_len + d := by
  have hsame : Placed size x p ∧ x.next = x.next ∧ x.ref = x.ref ∧ ∃ d, x.len = x.len + d ∧ x.tot_len = x.tot_len + d :=
    ⟨h, rfl, rfl, 0, by simp⟩
  unfold pbuf_header_struct
  dsimp only
  split
  · exact hsame
  split
  · exact hsame
  rename_i hzero hshort
  split
  · split
    · exact hsame
    rename_i hroom
    refine ⟨?_, rfl, rfl, UInt16.ofInt inc, rfl, rfl⟩
    have h16 : SIZEOF_STRUCT_PBUF = 16 := rfl
    have h256 : PBUF_POOL_BUFSIZE = 256 := rfl
    unfold Placed at *
    cases p with
    | pool i =>
      obtain ⟨htype, hpayload, hend⟩ := h
      have hlen := toNat_add_ofInt x.len inc (by omega) (by omega)
      refine ⟨htype, ?_, ?_⟩
      · dsimp only
        omega
      · dsimp only
        omega
    | memp i => exact h
    | ram ptr =>
      obtain ⟨htype, hpayload, hend⟩ := h
      have hmax := hsize ptr rfl
      have hlen := toNat_add_ofInt x.len inc (by omega) (by omega)
      refine ⟨htype, ?_, ?_⟩
      · dsimp only
        omega
      · dsimp only
        omega
  · rename_i htype
    split
    · refine ⟨?_, rfl, rfl, UInt16.ofInt inc, rfl, rfl⟩
      unfold Placed at *
      cases p with
      | pool i => exact absurd (Or.inr h.1) htype
      | memp i => exact h
      | ram ptr => exact absurd (Or.inl h.1) htype
    · exact hsame

/-- `pbuf_header` changes no reference. -/
theorem PbufInv.header (h : PbufInv s held live size) (hp : p ∈ live) (hfirst : ∀ q ∈ live, (s.pbufs q).next ≠ some p)
    (inc : Int) : PbufInv (pbuf_header_store s p inc).1 held live size := by
  have hsize : ∀ ptr, p = .ram ptr → size ptr ≤ 65532 := by
    rintro ptr rfl
    obtain ⟨bs, hi⟩ := h.pools.heap
    exact hi.asked (ptr, size ptr) (List.mem_filterMap.mpr ⟨.ram ptr, hp, rfl⟩)
  obtain ⟨hplaced, hnext, href, d, hlen, htot⟩ := pbuf_header_struct_spec (h.pools.placed p hp) hsize inc
  unfold pbuf_header_store
  dsimp only
  generalize (pbuf_header_struct (s.pbufs p) inc).1 = x at *
  refine ⟨?_, h.pools.modify (fun _ => hplaced), fun q hq => ?_⟩
  · rw [PbufStore.refs_keep hnext href]
    exact h.counted
  · have hsum := h.sums q hq
    have hkeep : ∀ y, (s.pbufs q).next = some y → ((s.modify p (fun _ => x)).pbufs y).tot_len = (s.pbufs y).tot_len := by
      intro y hy
      have hyp : y ≠ p := by
        rintro rfl
        exact hfirst q hq hy
      rw [modify_other _ hyp]
    unfold SumOk at *
    by_cases hqp : q = p
    · subst hqp
      rw [modify_self, hlen, htot, hnext, hsum]
      cases hn : (s.pbufs q).next with
      | none => simp
      | some y =>
        dsimp only
        rw [hkeep y hn, UInt16.add_assoc, UInt16.add_comm _ d, ← UInt16.add_assoc]
    · rw [modify_other _ hqp, hsum]
      cases hn : (s.pbufs q).next with
      | none => rfl
      | some y =>
        dsimp only
        rw [hkeep y hn]

end Header

end MultiIp.Lwip
