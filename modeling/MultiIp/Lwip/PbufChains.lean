import MultiIp.Lwip.PbufAlloc

/-!
# Chains of pbufs

Joining and splitting chains. A chain can be changed only by who has all of the
packet: where another pbuf led into it, that pbuf's `tot_len` would be wrong
afterwards.
-/

namespace MultiIp.Lwip

open Lib FirstFit RefCounts

/-- Only the chain itself leads into the chain. -/
def Packet (s : PbufStore) (live l : List PbufPtr) : Prop :=
  ∀ q ∈ live, ∀ n ∈ l, (s.pbufs q).next = some n → q ∈ l

/-! ## Joining -/

section Join

variable {s s' : PbufStore} {live held l : List PbufPtr} {size : Nat → Nat} {p last t : PbufPtr}

theorem chain_last {next : PbufPtr → Option PbufPtr} {h : Option PbufPtr} (hl : Chain next h (l ++ [last])) :
    next last = none := by
  obtain ⟨m, -, rfl, hrest⟩ := (seg_append _ _ _ _ _).mp hl
  exact hrest

theorem pbuf_cat_loop_spec (hl : Chain (fun q => (s.pbufs q).next) (some p) (l ++ [last])) (ht : t ∉ l ++ [last])
    {fuel : Nat} (hfuel : l.length < fuel) :
    ∃ pbufs, pbuf_cat_loop fuel s p t = some ({ s with pbufs := pbufs }, last) ∧
      (∀ q ∈ l, pbufs q = { s.pbufs q with tot_len := (s.pbufs q).tot_len + (s.pbufs t).tot_len }) ∧
      ∀ q, q ∉ l → pbufs q = s.pbufs q := by
  induction l generalizing s p fuel with
  | nil =>
    obtain ⟨fuel, rfl⟩ : ∃ k, fuel = k + 1 := ⟨fuel - 1, by omega⟩
    obtain ⟨hp, hlast⟩ := hl
    obtain rfl := Option.some.inj hp
    have hnone : (s.pbufs p).next = none := hlast
    refine ⟨s.pbufs, ?_, by simp, fun _ _ => rfl⟩
    rw [pbuf_cat_loop, hnone]
  | cons a l ih =>
    obtain ⟨fuel, rfl⟩ : ∃ k, fuel = k + 1 := ⟨fuel - 1, by omega⟩
    have hnd := chain_nodup hl
    obtain ⟨hp, hl⟩ := hl
    obtain rfl := Option.some.inj hp
    rw [List.cons_append, List.nodup_cons] at hnd
    rw [List.cons_append, List.mem_cons, not_or] at ht
    obtain ⟨n, hn⟩ : ∃ n, (s.pbufs p).next = some n := by
      cases hnext : (s.pbufs p).next with
      | some n => exact ⟨n, rfl⟩
      | none =>
        change Seg _ (s.pbufs p).next (l ++ [last]) none at hl
        rw [hnext] at hl
        cases l with
        | nil => cases hl.1
        | cons x l => cases hl.1
    change Seg _ (s.pbufs p).next (l ++ [last]) none at hl
    rw [hn] at hl
    rw [pbuf_cat_loop, hn]
    dsimp only
    have hne : ∀ q ∈ l ++ [last], q ≠ p := by
      rintro q hq rfl
      exact hnd.1 hq
    generalize hs₁ : s.modify p (fun x => { x with tot_len := x.tot_len + (s.pbufs t).tot_len }) = s₁
    have hself : s₁.pbufs p = { s.pbufs p with tot_len := (s.pbufs p).tot_len + (s.pbufs t).tot_len } := by
      rw [← hs₁, modify_self]
    have hother : ∀ q, q ≠ p → s₁.pbufs q = s.pbufs q := by
      intro q hq
      rw [← hs₁, modify_other _ hq]
    have hl₁ : Chain (fun q => (s₁.pbufs q).next) (some n) (l ++ [last]) :=
      (seg_congr (fun q hq => by rw [hother q (hne q hq)])).mpr hl
    obtain ⟨pbufs, hloop, hfront, hrest⟩ := ih hl₁ ht.2 (Nat.lt_of_succ_lt_succ hfuel)
    have hmem : ({ s₁ with pbufs := pbufs } : PbufStore) = { s with pbufs := pbufs } := by
      rw [← hs₁]
      rfl
    refine ⟨pbufs, by rw [hloop, hmem], ?_, ?_⟩
    · intro q hq
      rcases List.mem_cons.mp hq with rfl | hq
      · rw [hrest q (fun hin => hnd.1 (List.mem_append_left _ hin)), hself]
      · rw [hfront q hq, hother q (hne q (List.mem_append_left _ hq)), hother t ht.1]
    · intro q hq
      rw [List.mem_cons, not_or] at hq
      rw [hrest q hq.2, hother q hq.1]

/-- The chain `l ++ [last]` is followed by that of `t`. -/
structure Joined (s s' : PbufStore) (l : List PbufPtr) (last t : PbufPtr) : Prop where
  pool : s'.pool = s.pool
  memp : s'.memp = s.memp
  heap : s'.heap = s.heap
  front : ∀ q ∈ l, s'.pbufs q = { s.pbufs q with tot_len := (s.pbufs q).tot_len + (s.pbufs t).tot_len }
  joint : s'.pbufs last =
    { s.pbufs last with tot_len := (s.pbufs last).tot_len + (s.pbufs t).tot_len, next := some t }
  others : ∀ q, q ∉ l ++ [last] → s'.pbufs q = s.pbufs q

theorem mem_concat_cases (l : List PbufPtr) (last q : PbufPtr) : q ∈ l ∨ q = last ∨ q ∉ l ++ [last] := by
  simp only [List.mem_append, List.mem_singleton]
  tauto

theorem pbuf_cat_spec (h : PbufInv s held live size) (hp : p ∈ live)
    (hl : Chain (fun q => (s.pbufs q).next) (some p) (l ++ [last])) (ht : t ∉ l ++ [last]) :
    ∃ s', pbuf_cat s p t = some s' ∧ Joined s s' l last t := by
  have hlive := h.counted.chain_live hp hl
  have hrounds := chain_rounds h.counted h.pools hp hl
  have hnd := chain_nodup hl
  rw [List.length_append, List.length_singleton] at hrounds
  have hfuel : l.length < pbufRounds := by omega
  obtain ⟨pbufs, hloop, hfront, hrest⟩ := pbuf_cat_loop_spec hl ht hfuel
  have hlast : last ∉ l := by
    have := List.nodup_append.mp hnd
    exact fun hin => this.2.2 last hin last (List.mem_singleton_self _) rfl
  have hnone : (s.pbufs last).next = none := chain_last hl
  have hsum : (s.pbufs last).tot_len = (s.pbufs last).len := by
    have := h.sums last (hlive last (by simp))
    rw [SumOk, hnone] at this
    simpa using this
  have htl : t ∉ l := fun hin => ht (List.mem_append_left _ hin)
  unfold pbuf_cat
  rw [hloop]
  have hok : ¬ (pbufs last).tot_len ≠ (pbufs last).len := by
    rw [hrest last hlast]
    exact not_not.mpr hsum
  dsimp only
  rw [if_neg hok, hrest t htl]
  refine ⟨_, rfl, rfl, rfl, rfl, ?_, ?_, ?_⟩
  · intro q hq
    have hql : q ≠ last := by
      rintro rfl
      exact hlast hq
    rw [modify_other _ hql]
    exact hfront q hq
  · rw [modify_self]
    dsimp only
    rw [hrest last hlast]
  · intro q hq
    rw [List.mem_append, List.mem_singleton, not_or] at hq
    rw [modify_other _ hq.2]
    exact hrest q hq.1

/-- The chain takes over the reference to `t`. -/
theorem PbufInv.join (h : PbufInv s (t :: held) live size) (hp : p ∈ live)
    (hl : Chain (fun q => (s.pbufs q).next) (some p) (l ++ [last])) (hpacket : Packet s live (l ++ [last]))
    (ht : t ∉ l ++ [last]) (hj : Joined s s' l last t) : PbufInv s' held live size := by
  have htlive := h.counted.held_live t List.mem_cons_self
  have hlive := h.counted.chain_live hp hl
  have hnone : (s.pbufs last).next = none := chain_last hl
  have hfields : ∀ q, (s'.pbufs q).type = (s.pbufs q).type ∧ (s'.pbufs q).payload = (s.pbufs q).payload ∧
      (s'.pbufs q).len = (s.pbufs q).len ∧ (s'.pbufs q).ref = (s.pbufs q).ref := by
    intro q
    rcases mem_concat_cases l last q with hq | rfl | hq
    · rw [hj.front q hq]
      exact ⟨rfl, rfl, rfl, rfl⟩
    · rw [hj.joint]
      exact ⟨rfl, rfl, rfl, rfl⟩
    · rw [hj.others q hq]
      exact ⟨rfl, rfl, rfl, rfl⟩
  have hnext : ∀ q, q ≠ last → (s'.pbufs q).next = (s.pbufs q).next := by
    intro q hql
    rcases mem_concat_cases l last q with hq | rfl | hq
    · rw [hj.front q hq]
    · exact absurd rfl hql
    · rw [hj.others q hq]
  have htot : ∀ q ∈ l ++ [last], (s'.pbufs q).tot_len = (s.pbufs q).tot_len + (s.pbufs t).tot_len := by
    intro q hq
    rcases List.mem_append.mp hq with hq | hq
    · rw [hj.front q hq]
    · obtain rfl := List.mem_singleton.mp hq
      rw [hj.joint]
  refine ⟨?_, ?_, ?_⟩
  · obtain ⟨lt, hlt⟩ := h.counted.ends t htlive
    have hout := chain_outside h.counted.next_live hpacket htlive ht hlt
    have hrelink := h.counted.relink (v := some t) (hlive last (by simp)) hlt
      (fun hin => hout last hin (by simp))
    have hrefs : s'.refs live = (s.refs live).setNext last (some t) := by
      unfold PbufStore.refs RefCounts.setNext
      congr 1
      · funext q
        by_cases hq : q = last
        · subst hq
          rw [hj.joint, Function.update_self]
        · rw [hnext q hq, Function.update_of_ne hq]
      · funext q
        rw [(hfields q).2.2.2]
    have hlastnext : (s.refs live).next last = none := hnone
    rw [hrefs]
    rwa [hlastnext] at hrelink
  · exact h.pools.of_fields hj.pool hj.memp hj.heap
      (fun q hq => (h.pools.placed q hq).of_fields (hfields q).1 (hfields q).2.1 (hfields q).2.2.1)
  · intro q hq
    have hsum := h.sums q hq
    unfold SumOk at *
    rcases mem_concat_cases l last q with hql | rfl | hql
    · have hqne : q ≠ last := by
        rintro rfl
        have := List.nodup_append.mp (chain_nodup hl)
        exact this.2.2 q hql q (List.mem_singleton_self _) rfl
      rw [htot q (List.mem_append_left _ hql), (hfields q).2.2.1, hnext q hqne, hsum]
      obtain ⟨n, hn⟩ : ∃ n, (s.pbufs q).next = some n := by
        cases hcase : (s.pbufs q).next with
        | some n => exact ⟨n, rfl⟩
        | none =>
          obtain ⟨l₁, l₂, rfl⟩ := List.append_of_mem hql
          rw [List.append_assoc] at hl
          obtain ⟨m, -, rfl, hrest⟩ := (seg_append _ _ _ _ _).mp hl
          change Seg _ (s.pbufs q).next (l₂ ++ [last]) none at hrest
          rw [hcase] at hrest
          cases l₂ with
          | nil => cases hrest.1
          | cons x l₂ => cases hrest.1
      rw [hn]
      dsimp only
      rw [htot n (chain_next_mem hl (List.mem_append_left _ hql) hn), UInt16.add_assoc]
    · rw [hj.joint]
      dsimp only
      rw [hj.others t ht, hsum, hnone]
      simp
    · have hqne : q ≠ last := by
        rintro rfl
        simp at hql
      rw [hnext q hqne, hj.others q hql, hsum]
      cases hn : (s.pbufs q).next with
      | none => rfl
      | some n =>
        have hnout : n ∉ l ++ [last] := fun hin => hql (hpacket q hq n hin hn)
        simp only [hj.others n hnout]

theorem chain_concat {next : PbufPtr → Option PbufPtr} (hl : Chain next (some p) l) : ∃ l₀ last, l = l₀ ++ [last] := by
  rcases List.eq_nil_or_concat l with rfl | ⟨l₀, last, rfl⟩
  · cases hl
  · exact ⟨l₀, last, List.concat_eq_append⟩

/-- The chain of `t` comes behind, and nothing else moves. -/
theorem Joined.chain {lt : List PbufPtr} (hl : Chain (fun q => (s.pbufs q).next) (some p) (l ++ [last]))
    (hlt : Chain (fun q => (s.pbufs q).next) (some t) lt) (hout : ∀ q ∈ lt, q ∉ l ++ [last])
    (hj : Joined s s' l last t) : Chain (fun q => (s'.pbufs q).next) (some p) ((l ++ [last]) ++ lt) := by
  obtain ⟨m, hfront, rfl, -⟩ := (seg_append _ _ _ _ _).mp hl
  refine (seg_append _ _ _ _ _).mpr ⟨some t, (seg_append _ _ _ _ _).mpr ⟨some last, ?_, rfl, ?_⟩, ?_⟩
  · exact (seg_congr (fun q hq => by rw [hj.front q hq])).mpr hfront
  · show (s'.pbufs last).next = some t
    rw [hj.joint]
  · exact (seg_congr (fun q hq => by rw [hj.others q (hout q hq)])).mpr hlt

/-- `pbuf_cat` takes over the caller's reference to the tail. -/
theorem PbufInv.cat {lt : List PbufPtr} (h : PbufInv s (t :: held) live size) (hp : p ∈ live)
    (hl : Chain (fun q => (s.pbufs q).next) (some p) l) (hpacket : Packet s live l) (ht : t ∉ l)
    (hlt : Chain (fun q => (s.pbufs q).next) (some t) lt) :
    ∃ s', pbuf_cat s p t = some s' ∧ PbufInv s' held live size ∧
      Chain (fun q => (s'.pbufs q).next) (some p) (l ++ lt) := by
  obtain ⟨l₀, last, rfl⟩ := chain_concat hl
  obtain ⟨s', hcat, hj⟩ := pbuf_cat_spec h hp hl ht
  have hout := chain_outside h.counted.next_live hpacket (h.counted.held_live t List.mem_cons_self) ht hlt
  exact ⟨s', hcat, h.join hp hl hpacket ht hj, hj.chain hl hlt hout⟩

theorem pbuf_ref_next (q : PbufPtr) : ((pbuf_ref s t).pbufs q).next = (s.pbufs q).next := by
  unfold pbuf_ref
  by_cases hq : q = t
  · subst hq
    rw [modify_self]
  · rw [modify_other _ hq]

/-- `pbuf_chain` leaves it with the caller. -/
theorem PbufInv.chain {lt : List PbufPtr} (h : PbufInv s held live size) (hp : p ∈ live) (htlive : t ∈ live)
    (hl : Chain (fun q => (s.pbufs q).next) (some p) l) (hpacket : Packet s live l) (ht : t ∉ l)
    (hlt : Chain (fun q => (s.pbufs q).next) (some t) lt) (hmax : (s.pbufs t).ref ≠ 65535) :
    ∃ s', pbuf_chain s p t = some s' ∧ PbufInv s' held live size ∧
      Chain (fun q => (s'.pbufs q).next) (some p) (l ++ lt) := by
  obtain ⟨l₀, last, rfl⟩ := chain_concat hl
  obtain ⟨s', hcat, hj⟩ := pbuf_cat_spec h hp hl ht
  have hne : ∀ q ∈ l₀ ++ [last], q ≠ t := by
    rintro q hq rfl
    exact ht hq
  -- The reference could as well be added first.
  have hj' : Joined (pbuf_ref s t) (pbuf_ref s' t) l₀ last t := by
    unfold pbuf_ref
    refine ⟨hj.pool, hj.memp, hj.heap, ?_, ?_, ?_⟩
    · intro q hq
      have hqt := hne q (List.mem_append_left _ hq)
      rw [modify_other _ hqt, modify_other _ hqt, modify_self, hj.front q hq]
    · have hqt := hne last (by simp)
      rw [modify_other _ hqt, modify_other _ hqt, modify_self, hj.joint]
    · intro q hq
      by_cases hqt : q = t
      · subst hqt
        rw [modify_self, modify_self, hj.others q hq]
      · rw [modify_other _ hqt, modify_other _ hqt, hj.others q hq]
  have hout := chain_outside h.counted.next_live hpacket htlive ht hlt
  refine ⟨pbuf_ref s' t, by rw [pbuf_chain, hcat, Option.map_some], ?_,
    (seg_congr (fun q _ => pbuf_ref_next q)).mpr (hj.chain hl hlt hout)⟩
  refine (h.ref htlive hmax).join hp ((seg_congr (fun q _ => pbuf_ref_next q)).mpr hl) ?_ ht hj'
  intro q hq n hn hnext
  rw [pbuf_ref_next] at hnext
  exact hpacket q hq n hn hnext

end Join

/-! ## Splitting -/

section Split

variable {s : PbufStore} {live held : List PbufPtr} {size : Nat → Nat} {p : PbufPtr}

theorem modify_same {f : struct_pbuf → struct_pbuf} (hf : f (s.pbufs p) = s.pbufs p) : s.modify p f = s := by
  simp [PbufStore.modify, hf]

/-- `pbuf_dechain` gives up the reference from the first pbuf to the rest. -/
theorem PbufInv.dechain (h : PbufInv s held live size) (hp : p ∈ live)
    (hfirst : ∀ q ∈ live, (s.pbufs q).next ≠ some p) :
    ∃ s' r live', pbuf_dechain s p = some (s', r) ∧ PbufInv s' held live' size := by
  have hsum := h.sums p hp
  unfold SumOk at hsum
  unfold pbuf_dechain
  cases hn : (s.pbufs p).next with
  | none =>
    rw [hn] at hsum
    have hlen : (s.pbufs p).tot_len = (s.pbufs p).len := by simpa using hsum
    dsimp only
    rw [if_neg (not_not.mpr hlen)]
    exact ⟨s, none, live, rfl, h⟩
  | some q =>
    rw [hn] at hsum
    have hrest : (s.pbufs q).tot_len = (s.pbufs p).tot_len - (s.pbufs p).len := by
      rw [hsum, UInt16.add_comm, UInt16.add_sub_cancel]
    dsimp only
    rw [if_neg (not_not.mpr hrest), modify_same (p := q) (by rw [← hrest])]
    generalize hs₁ : s.modify p (fun x => { x with next := none, tot_len := x.len }) = s₁
    have hself : s₁.pbufs p = { s.pbufs p with next := none, tot_len := (s.pbufs p).len } := by rw [← hs₁, modify_self]
    have hother : ∀ x, x ≠ p → s₁.pbufs x = s.pbufs x := by
      intro x hx
      rw [← hs₁, modify_other _ hx]
    have hinv : PbufInv s₁ (q :: held) live size := by
      refine ⟨?_, ?_, ?_⟩
      · have hrelink := h.counted.cut hp
        have hnext : (s.refs live).next p = some q := hn
        rw [hnext] at hrelink
        have hrefs : s₁.refs live = (s.refs live).setNext p none := by
          rw [← hs₁, PbufStore.refs_modify]
          simp [RefCounts.setCount, PbufStore.refs, RefCounts.setNext]
        rw [hrefs]
        exact hrelink
      · rw [← hs₁]
        exact h.pools.modify (fun hlive => (h.pools.placed p hlive).of_fields rfl rfl rfl)
      · intro x hx
        unfold SumOk
        by_cases hxp : x = p
        · subst hxp
          rw [hself]
          simp
        · rw [hother x hxp, h.sums x hx]
          cases hnx : (s.pbufs x).next with
          | none => rfl
          | some n =>
            have hnp : n ≠ p := by
              rintro rfl
              exact hfirst x hx hnx
            simp only [hother n hnp]
    obtain ⟨s', live', n, l, hfree, -, hinv', hfreed⟩ := hinv.free
    have hlen : (s'.pbufs p).tot_len = (s'.pbufs p).len := by
      rw [hfreed.fields p, hself]
    refine ⟨s', if n > 0 then none else some q, live', ?_, hinv'⟩
    rw [hfree]
    dsimp only
    rw [if_neg (not_not.mpr hlen)]

end Split

end MultiIp.Lwip
