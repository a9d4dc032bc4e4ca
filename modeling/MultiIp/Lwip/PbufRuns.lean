import Mathlib.Data.List.Dedup
import MultiIp.Lwip.PbufResize

/-!
# Runs of the pbuf module

Users refer only to pbufs that they hold references to, or that these lead to.
Whatever they do in whatever order, what is in use is just what can still be
reached, and with the last reference everything is back where it came from.
-/

namespace MultiIp.Lwip

open Lib FirstFit RefCounts

inductive PbufAction
  | alloc (layer : pbuf_layer) (length : UInt16) (type : pbuf_type)
  | ref (p : PbufPtr)
  | free (p : PbufPtr)
  | cat (h t : PbufPtr)
  | chain (h t : PbufPtr)
  | dechain (p : PbufPtr)
  | realloc (p : PbufPtr) (new_len : UInt16)
  | header (p : PbufPtr) (header_size_increment : Int)

/-- The pbufs and the references that their users have, one entry for each. -/
structure PbufState where
  store : PbufStore
  held : List PbufPtr

namespace PbufState

def init : PbufState := ⟨.init, []⟩

def chainOf (m : PbufState) (p : PbufPtr) : List PbufPtr :=
  walk (fun q => (m.store.pbufs q).next) pbufRounds (some p)

/-- What the users' references lead to. -/
def inUse (m : PbufState) : List PbufPtr := m.held.flatMap m.chainOf

/-- `none` if a condition that is asserted is false, or a loop does not end. -/
def step (m : PbufState) : PbufAction → Option PbufState
  | .alloc layer length type =>
    (pbuf_alloc m.store layer length type).map (fun r => ⟨r.1, r.2.toList ++ m.held⟩)
  | .ref p => some ⟨pbuf_ref m.store p, p :: m.held⟩
  | .free p => (pbuf_free m.store p).map (fun r => ⟨r.1, m.held.erase p⟩)
  | .cat h t => (pbuf_cat m.store h t).map (fun s => ⟨s, m.held.erase t⟩)
  | .chain h t => (pbuf_chain m.store h t).map (fun s => ⟨s, m.held⟩)
  | .dechain p => (pbuf_dechain m.store p).map (fun r => ⟨r.1, m.held⟩)
  | .realloc p new_len => (pbuf_realloc m.store p new_len).map (fun s => ⟨s, m.held⟩)
  | .header p inc => some ⟨(pbuf_header_store m.store p inc).1, m.held⟩

/-- No other pbuf in use leads into the chain. -/
def packet (m : PbufState) (p : PbufPtr) : Prop :=
  ∀ q ∈ m.inUse, ∀ n ∈ m.chainOf p, (m.store.pbufs q).next = some n → q ∈ m.chainOf p

/-- No other pbuf in use leads to this one. -/
def first (m : PbufState) (p : PbufPtr) : Prop := ∀ q ∈ m.inUse, (m.store.pbufs q).next ≠ some p

/-- What the comments in `pbuf.c` ask of the caller. -/
def allowed (m : PbufState) : PbufAction → Prop
  | .alloc layer length type => type = .PBUF_RAM → ramSize layer length ≤ 65532
  | .ref p => p ∈ m.inUse ∧ (m.store.pbufs p).ref ≠ 65535
  | .free p => p ∈ m.held
  | .cat h t => h ∈ m.inUse ∧ t ∈ m.held ∧ t ∉ m.chainOf h ∧ m.packet h
  | .chain h t => h ∈ m.inUse ∧ t ∈ m.inUse ∧ t ∉ m.chainOf h ∧ m.packet h ∧ (m.store.pbufs t).ref ≠ 65535
  | .dechain p => p ∈ m.inUse ∧ m.first p
  | .realloc p _ => p ∈ m.inUse ∧ m.packet p
  | .header p inc => p ∈ m.inUse ∧ m.first p ∧ -32768 ≤ inc ∧ inc < 32768

instance (m : PbufState) (p : PbufPtr) : Decidable (m.packet p) :=
  inferInstanceAs (Decidable (∀ q ∈ m.inUse, ∀ n ∈ m.chainOf p, (m.store.pbufs q).next = some n → q ∈ m.chainOf p))

instance (m : PbufState) (p : PbufPtr) : Decidable (m.first p) :=
  inferInstanceAs (Decidable (∀ q ∈ m.inUse, (m.store.pbufs q).next ≠ some p))

instance (m : PbufState) (a : PbufAction) : Decidable (m.allowed a) :=
  match a with
  | .alloc layer length type => inferInstanceAs (Decidable (type = .PBUF_RAM → ramSize layer length ≤ 65532))
  | .ref p => inferInstanceAs (Decidable (p ∈ m.inUse ∧ (m.store.pbufs p).ref ≠ 65535))
  | .free p => inferInstanceAs (Decidable (p ∈ m.held))
  | .cat h t => inferInstanceAs (Decidable (h ∈ m.inUse ∧ t ∈ m.held ∧ t ∉ m.chainOf h ∧ m.packet h))
  | .chain h t =>
    inferInstanceAs (Decidable (h ∈ m.inUse ∧ t ∈ m.inUse ∧ t ∉ m.chainOf h ∧ m.packet h ∧ (m.store.pbufs t).ref ≠ 65535))
  | .dechain p => inferInstanceAs (Decidable (p ∈ m.inUse ∧ m.first p))
  | .realloc p _ => inferInstanceAs (Decidable (p ∈ m.inUse ∧ m.packet p))
  | .header p inc => inferInstanceAs (Decidable (p ∈ m.inUse ∧ m.first p ∧ -32768 ≤ inc ∧ inc < 32768))

end PbufState

def pbufMachine : Machine (Option PbufState) PbufAction where
  step s a := s.bind (fun m => m.step a)
  allowed s a := ∀ m ∈ s, m.allowed a

instance (s : Option PbufState) (a : PbufAction) : Decidable (pbufMachine.allowed s a) :=
  inferInstanceAs (Decidable (∀ m ∈ s, m.allowed a))

/-! ## What every step keeps -/

theorem pbufInv_init : PbufInv PbufStore.init [] [] (fun _ => 0) := by
  refine ⟨⟨List.nodup_nil, by simp [PbufStore.refs], by simp [PbufStore.refs], by simp, by simp [PbufStore.refs],
    by simp [PbufStore.refs]⟩, ⟨by simp, ?_, ?_, _, memInv_init⟩, by simp⟩
  · simp [PbufStore.init]
  · simp [PbufStore.init]

section Step

variable {m : PbufState} {live : List PbufPtr} {size : Nat → Nat} {p : PbufPtr}

theorem PbufInv.chainOf (h : PbufInv m.store m.held live size) (hp : p ∈ live) :
    Chain (fun q => (m.store.pbufs q).next) (some p) (m.chainOf p) := by
  obtain ⟨l, hl⟩ := h.counted.ends p hp
  have hwalk : m.chainOf p = l := walk_eq hl (Nat.le_of_lt (chain_rounds h.counted h.pools hp hl))
  rw [hwalk]
  exact hl

/-- What is in use is what the users can still reach. -/
theorem PbufInv.mem_inUse (h : PbufInv m.store m.held live size) : p ∈ m.inUse ↔ p ∈ live := by
  rw [PbufState.inUse, List.mem_flatMap]
  constructor
  · rintro ⟨a, ha, hp⟩
    exact h.counted.chain_live (h.counted.held_live a ha) (h.chainOf (h.counted.held_live a ha)) p hp
  · intro hp
    obtain ⟨a, ha, l, hseg⟩ := h.counted.reachable hp
    obtain ⟨l', hl'⟩ := h.counted.ends p hp
    have hwhole : Chain (fun q => (m.store.pbufs q).next) (some a) (l ++ l') :=
      (seg_append _ _ _ _ _).mpr ⟨some p, hseg, hl'⟩
    refine ⟨a, ha, ?_⟩
    rw [chain_unique (h.chainOf (h.counted.held_live a ha)) hwhole]
    cases l' with
    | nil => cases hl'
    | cons x l' =>
      obtain rfl := Option.some.inj hl'.1
      simp

theorem PbufInv.packet (h : PbufInv m.store m.held live size) (hpacket : m.packet p) :
    Packet m.store live (m.chainOf p) :=
  fun q hq n hn hnext => hpacket q (h.mem_inUse.mpr hq) n hn hnext

theorem PbufInv.first (h : PbufInv m.store m.held live size) (hfirst : m.first p) :
    ∀ q ∈ live, (m.store.pbufs q).next ≠ some p :=
  fun q hq => hfirst q (h.mem_inUse.mpr hq)

/-- An allowed step is taken and keeps the invariant. -/
theorem PbufInv.step (h : PbufInv m.store m.held live size) {a : PbufAction} (ha : m.allowed a) :
    ∃ m' live' size', m.step a = some m' ∧ PbufInv m'.store m'.held live' size' := by
  cases a with
  | alloc layer length type =>
    obtain ⟨s', r, live', size', halloc, h'⟩ := h.alloc layer length type ha
    exact ⟨⟨s', r.toList ++ m.held⟩, live', size', by rw [PbufState.step, halloc, Option.map_some], h'⟩
  | ref p => exact ⟨_, live, size, rfl, h.ref (h.mem_inUse.mp ha.1) ha.2⟩
  | free p =>
    obtain ⟨s', live', n, l, hfree, -, h', -⟩ := (h.of_perm (List.perm_cons_erase ha)).free
    exact ⟨⟨s', m.held.erase p⟩, live', size, by rw [PbufState.step, hfree, Option.map_some], h'⟩
  | cat b t =>
    obtain ⟨hb, ht, hnot, hpacket⟩ := ha
    have hlive := h.mem_inUse.mp hb
    obtain ⟨s', hcat, h', -⟩ := (h.of_perm (List.perm_cons_erase ht)).cat hlive (h.chainOf hlive) (h.packet hpacket) hnot
      (h.chainOf (h.counted.held_live t ht))
    exact ⟨⟨s', m.held.erase t⟩, live, size, by rw [PbufState.step, hcat, Option.map_some], h'⟩
  | chain b t =>
    obtain ⟨hb, ht, hnot, hpacket, hmax⟩ := ha
    have hlive := h.mem_inUse.mp hb
    have htlive := h.mem_inUse.mp ht
    obtain ⟨s', hchain, h', -⟩ :=
      h.chain hlive htlive (h.chainOf hlive) (h.packet hpacket) hnot (h.chainOf htlive) hmax
    exact ⟨⟨s', m.held⟩, live, size, by rw [PbufState.step, hchain, Option.map_some], h'⟩
  | dechain p =>
    obtain ⟨s', r, live', hdechain, h'⟩ := h.dechain (h.mem_inUse.mp ha.1) (h.first ha.2)
    exact ⟨⟨s', m.held⟩, live', size, by rw [PbufState.step, hdechain, Option.map_some], h'⟩
  | realloc p new_len =>
    have hlive := h.mem_inUse.mp ha.1
    obtain ⟨s', live', size', hrealloc, h', -⟩ := h.realloc hlive (h.chainOf hlive) (h.packet ha.2) new_len
    exact ⟨⟨s', m.held⟩, live', size', by rw [PbufState.step, hrealloc, Option.map_some], h'⟩
  | header p inc => exact ⟨_, live, size, rfl, h.header (h.mem_inUse.mp ha.1) (h.first ha.2.1) inc⟩

theorem pbuf_run_inv {as : List PbufAction} (hl : pbufMachine.Legal (some .init) as) :
    ∃ m live size, pbufMachine.run (some .init) as = some m ∧ PbufInv m.store m.held live size := by
  refine Machine.run_invariant (M := pbufMachine)
    (P := fun s => ∃ m live size, s = some m ∧ PbufInv m.store m.held live size) ?_ ⟨_, _, _, rfl, pbufInv_init⟩ hl
  rintro s a ⟨m, live, size, rfl, h⟩ ha
  obtain ⟨m', live', size', hstep, h'⟩ := h.step (ha m rfl)
  exact ⟨m', live', size', hstep, h'⟩

end Step

/-! ## What is taken is what can be reached -/

section Exact

variable {m : PbufState} {live : List PbufPtr} {size : Nat → Nat} {p : PbufPtr}

theorem perm_free_iff {ι : Type} {g : PbufPtr → Option ι} {free all : List ι} (hnd : all.Nodup) (hall : ∀ i, i ∈ all)
    (hperm : (free ++ live.filterMap g).Perm all) (i : ι) : i ∉ free ↔ ∃ p ∈ live, g p = some i := by
  have hmem : i ∈ free ++ live.filterMap g := hperm.mem_iff.mpr (hall i)
  rw [List.mem_append, List.mem_filterMap] at hmem
  constructor
  · exact fun hfree => hmem.resolve_left hfree
  · rintro ⟨p, hp, hg⟩ hin
    exact (List.nodup_append.mp (hperm.nodup_iff.mpr hnd)).2.2 i hin i (List.mem_filterMap.mpr ⟨p, hp, hg⟩) rfl

theorem PbufInv.pool_iff (h : PbufInv m.store m.held live size) (i : Fin PBUF_POOL_SIZE) :
    i ∉ m.store.pool ↔ .pool i ∈ m.inUse := by
  rw [h.mem_inUse, perm_free_iff (List.nodup_finRange _) List.mem_finRange h.pools.pool]
  constructor
  · rintro ⟨p, hp, hi⟩
    cases p with
    | pool j =>
      obtain rfl := Option.some.inj hi
      exact hp
    | memp j => cases hi
    | ram ptr => cases hi
  · exact fun hp => ⟨_, hp, rfl⟩

theorem PbufInv.memp_iff (h : PbufInv m.store m.held live size) (i : Fin MEMP_NUM_PBUF) :
    i ∉ m.store.memp ↔ .memp i ∈ m.inUse := by
  rw [h.mem_inUse, perm_free_iff (List.nodup_finRange _) List.mem_finRange h.pools.memp]
  constructor
  · rintro ⟨p, hp, hi⟩
    cases p with
    | pool j => cases hi
    | memp j =>
      obtain rfl := Option.some.inj hi
      exact hp
    | ram ptr => cases hi
  · exact fun hp => ⟨_, hp, rfl⟩

theorem block_mem (size : Nat → Nat) {ptr : Nat} : (∃ x ∈ live.filterMap (PbufPtr.block size), x.1 = ptr) ↔ .ram ptr ∈ live := by
  constructor
  · rintro ⟨x, hx, rfl⟩
    obtain ⟨p, hp, hg⟩ := List.mem_filterMap.mp hx
    cases p with
    | pool j => cases hg
    | memp j => cases hg
    | ram k =>
      obtain rfl := Option.some.inj hg
      exact hp
  · exact fun hp => ⟨(ptr, size ptr), List.mem_filterMap.mpr ⟨_, hp, rfl⟩, rfl⟩

/-- A struct of the heap is in use if somebody holds a pointer to the bytes behind it. -/
theorem MemInv.used_iff {m : MemState} {bs : List Block} (hi : MemInv m bs) {k : Nat} (hk : k ∈ m.heap.structs) :
    (m.heap.ram k).used = true ↔ ∃ x ∈ m.held, x.1 = k + SIZEOF_STRUCT_MEM := by
  constructor
  · intro hused
    rw [hi.laid.structs_eq] at hk
    obtain ⟨pre, ⟨n, u⟩, post, rfl, rfl⟩ := mem_starts.mp hk
    rw [Nat.zero_add, hi.laid.struct_at] at hused
    obtain rfl : u = true := hused
    obtain ⟨x, hx, hholds⟩ := hi.used (extent pre, n) (mem_inUse.mpr ⟨pre, post, rfl, (Nat.zero_add _).symm⟩)
    exact ⟨x, hx, by rw [Nat.zero_add]; exact hholds.1⟩
  · rintro ⟨x, hx, hfst⟩
    obtain ⟨pre, s, post, rfl, hpre, -⟩ := hi.block hx
    obtain rfl : k = extent pre := by omega
    rw [hi.laid.struct_at]

theorem PbufInv.ram_iff (h : PbufInv m.store m.held live size) (ptr : Nat) :
    .ram ptr ∈ m.inUse ↔ ∃ k ∈ m.store.heap.structs, (m.store.heap.ram k).used = true ∧ ptr = k + SIZEOF_STRUCT_MEM := by
  obtain ⟨bs, hi⟩ := h.pools.heap
  rw [h.mem_inUse, ← block_mem size]
  constructor
  · rintro ⟨x, hx, rfl⟩
    obtain ⟨pre, s, post, rfl, hpre, -⟩ := hi.block hx
    have hk : extent pre ∈ m.store.heap.structs := by
      rw [hi.laid.structs_eq]
      exact mem_starts.mpr ⟨pre, _, post, rfl, (Nat.zero_add _).symm⟩
    exact ⟨extent pre, hk, (hi.used_iff hk).mpr ⟨x, hx, hpre⟩, hpre⟩
  · rintro ⟨k, hk, hused, rfl⟩
    exact (hi.used_iff hk).mp hused

end Exact

/-- The payload lies in the buffer of the pbuf, behind the struct. -/
def InBuffer (s : PbufStore) : PbufPtr → Prop
  | .pool i => SIZEOF_STRUCT_PBUF ≤ (s.pbufs (.pool i)).payload ∧
      (s.pbufs (.pool i)).payload + (s.pbufs (.pool i)).len.toNat ≤ SIZEOF_STRUCT_PBUF + PBUF_POOL_BUFSIZE
  | .memp _ => True
  | .ram ptr => SIZEOF_STRUCT_PBUF ≤ (s.pbufs (.ram ptr)).payload ∧
      ptr + (s.pbufs (.ram ptr)).payload + (s.pbufs (.ram ptr)).len.toNat ≤ (s.heap.ram (ptr - SIZEOF_STRUCT_MEM)).next

section Lengths

variable {s : PbufStore} {m : PbufState} {held live : List PbufPtr} {size : Nat → Nat} {p : PbufPtr}

theorem PbufInv.inBuffer (h : PbufInv s held live size) (hp : p ∈ live) : InBuffer s p := by
  have hplaced := h.pools.placed p hp
  cases p with
  | pool i => exact hplaced.2
  | memp i => trivial
  | ram ptr =>
    obtain ⟨-, hge, hle⟩ := hplaced
    obtain ⟨bs, hi⟩ := h.pools.heap
    have hx : (ptr, size ptr) ∈ live.filterMap (PbufPtr.block size) := List.mem_filterMap.mpr ⟨.ram ptr, hp, rfl⟩
    obtain ⟨pre, n, post, rfl, hpre, hsize⟩ := hi.block hx
    have hasked := le_memSize (hi.asked _ hx)
    have hsized := hi.laid.size_at
    dsimp only at hpre hsize hasked hsized
    refine ⟨hge, ?_⟩
    have hstart : ptr - SIZEOF_STRUCT_MEM = extent pre := by omega
    rw [hstart, hi.laid.struct_at]
    unfold Sized SIZEOF_STRUCT_MEM at *
    dsimp only
    omega

theorem tot_len_eq {l : List PbufPtr} (hl : Chain (fun q => (s.pbufs q).next) (some p) l)
    (hsums : ∀ q ∈ l, SumOk s q) : (s.pbufs p).tot_len = UInt16.ofNat (chainLen s l) := by
  induction l generalizing p with
  | nil => cases hl
  | cons a l ih =>
    obtain ⟨hp, hl⟩ := hl
    obtain rfl := Option.some.inj hp
    have hsum := hsums p List.mem_cons_self
    change Seg _ (s.pbufs p).next l none at hl
    rw [chainLen, List.map_cons, List.sum_cons, hsum, UInt16.ofNat_add, UInt16.ofNat_toNat]
    cases l with
    | nil =>
      have hnone : (s.pbufs p).next = none := hl
      rw [hnone]
      rfl
    | cons n l =>
      have hn := hl.1
      rw [hn] at hl ⊢
      dsimp only
      rw [ih hl (fun q hq => hsums q (List.mem_cons_of_mem _ hq))]
      rfl

end Lengths

end MultiIp.Lwip
