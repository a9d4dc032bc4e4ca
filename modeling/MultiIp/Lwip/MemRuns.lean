import MultiIp.Lib.Chain
import MultiIp.Lib.Run
import MultiIp.Lwip.MemAlloc

/-!
# Runs of the heap

Users of the heap free and shrink only what they were given. Whatever else they
do, in whatever order, no two of them get the same bytes.
-/

namespace MultiIp.Lwip

open Lib FirstFit

inductive MemAction
  | malloc (size : Nat)
  | free (rmem : Nat)
  | trim (rmem newsize : Nat)
  deriving DecidableEq

/-- The heap and what its users hold: pointers and how many bytes were asked for. -/
structure MemState where
  heap : Heap
  held : List (Nat × Nat)

namespace MemState

def init : MemState := ⟨mem_init, []⟩

/-- `none` if a condition that `mem.c` asserts is false, or a loop does not end. -/
def step (m : MemState) : MemAction → Option MemState
  | .malloc size => (mem_malloc m.heap size).map (fun r => ⟨r.1, (r.2.map (fun p => (p, size))).toList ++ m.held⟩)
  | .free rmem => (mem_free m.heap (some rmem)).map (fun h => ⟨h, m.held.filter (fun x => x.1 ≠ rmem)⟩)
  | .trim rmem newsize =>
    (mem_trim m.heap rmem newsize).map (fun r => ⟨r.1, m.held.map (fun x => if x.1 = rmem then (rmem, newsize) else x)⟩)

/-- A size must not be cut to 16 bits, and a pointer must be one that was got and not freed. -/
def allowed (m : MemState) : MemAction → Prop
  | .malloc size => size ≤ 65532
  | .free rmem => ∃ x ∈ m.held, x.1 = rmem
  | .trim rmem newsize => ∃ x ∈ m.held, x.1 = rmem ∧ newsize ≤ x.2

instance (m : MemState) (a : MemAction) : Decidable (m.allowed a) :=
  match a with
  | .malloc size => inferInstanceAs (Decidable (size ≤ 65532))
  | .free rmem => inferInstanceAs (Decidable (∃ x ∈ m.held, x.1 = rmem))
  | .trim rmem newsize => inferInstanceAs (Decidable (∃ x ∈ m.held, x.1 = rmem ∧ newsize ≤ x.2))

end MemState

def memMachine : Machine (Option MemState) MemAction where
  step s a := s.bind (fun m => m.step a)
  allowed s a := ∀ m ∈ s, m.allowed a

instance (s : Option MemState) (a : MemAction) : Decidable (memMachine.allowed s a) :=
  inferInstanceAs (Decidable (∀ m ∈ s, m.allowed a))

/-! ## What every step keeps -/

/-- A held pointer and the block in use that it points into. -/
def Holds (x u : Nat × Nat) : Prop := x.1 = u.1 + SIZEOF_STRUCT_MEM ∧ memSize x.2 ≤ u.2 - SIZEOF_STRUCT_MEM

structure MemInv (m : MemState) (bs : List Block) : Prop where
  laid : Laid m.heap bs
  separated : Separated bs
  nodup : (m.held.map Prod.fst).Nodup
  asked : ∀ x ∈ m.held, x.2 ≤ 65532
  held : ∀ x ∈ m.held, ∃ u ∈ inUse 0 bs, Holds x u
  used : ∀ u ∈ inUse 0 bs, ∃ x ∈ m.held, Holds x u

theorem memInv_init : MemInv .init [⟨MEM_SIZE_ALIGNED, false⟩] where
  laid := by
    refine ⟨⟨⟨?_, trivial⟩, ?_, by simp; rfl, ?_⟩, rfl⟩
    · simp [MemState.init, mem_init, ram_end, MEM_SIZE_ALIGNED]
    · simp [MemState.init, mem_init]
    · simp [Sized, SIZEOF_STRUCT_MEM, MIN_SIZE_ALIGNED, MEM_SIZE_ALIGNED, MEM_ALIGNMENT]
  separated := trivial
  nodup := List.nodup_nil
  asked := by simp [MemState.init]
  held := by simp [MemState.init]
  used := by simp [inUse]

/-- Structs are written only outside of what is held. -/
def Spares (h h' : Heap) (held : List (Nat × Nat)) : Prop :=
  ∀ y, h'.ram y ≠ h.ram y → ∀ x ∈ held, y + SIZEOF_STRUCT_MEM ≤ x.1 ∨ x.1 + x.2 ≤ y

theorem spares_of_writes {h h' : Heap} {bs : List Block} {held : List (Nat × Nat)} (hw : WritesAt h h' bs)
    (hpos : ∀ b ∈ bs, Sized b.size) (hasked : ∀ x ∈ held, x.2 ≤ 65532)
    (hheld : ∀ x ∈ held, ∃ u ∈ inUse 0 bs, Holds x u) : Spares h h' held := by
  intro y hy x hx
  obtain ⟨u, hu, hfst, hsize⟩ := hheld x hx
  obtain ⟨pre, post, rfl, hu1⟩ := mem_inUse.mp hu
  have hle := le_memSize (hasked x hx)
  have hs := hpos ⟨u.2, true⟩ (by simp)
  unfold Sized SIZEOF_STRUCT_MEM at *
  rcases (hw y hy).outside with hout | hout
  · exact Or.inl (by omega)
  · exact Or.inr (by dsimp only at hout hs; omega)

section Step

variable {m : MemState} {bs : List Block}

theorem MemInv.malloc (hi : MemInv m bs) {size : Nat} (hsize : size ≤ 65532) :
    ∃ m' cs, m.step (.malloc size) = some m' ∧ MemInv m' cs ∧ Spares m.heap m'.heap m'.held := by
  by_cases hzero : size = 0
  · refine ⟨m, bs, ?_, hi, fun y hy => absurd rfl hy⟩
    simp [MemState.step, mem_malloc, hzero]
  rcases mem_malloc_spec hi.laid hzero with ⟨-, hm⟩ | ⟨r, h', ha, hm, hl', hw⟩
  · refine ⟨m, bs, ?_, hi, fun y hy => absurd rfl hy⟩
    simp [MemState.step, hm]
  · obtain ⟨l₁, l₂, s, hold, hnew, hs⟩ := inUse_alloc ha
    have hnd := inUse_fst_nodup 0 (fun b hb => (hl'.sized b hb).pos)
    have hmem : ∀ u, u ∈ inUse 0 r.2 ↔ u ∈ inUse 0 bs ∨ u = (r.1, s) := by
      intro u
      rw [hnew, hold]
      simp only [List.mem_append, List.mem_cons]
      tauto
    have hheld : ∀ x ∈ (r.1 + SIZEOF_STRUCT_MEM, size) :: m.held, ∃ u ∈ inUse 0 r.2, Holds x u := by
      rintro x (_ | ⟨_, hx⟩)
      · exact ⟨(r.1, s), (hmem _).mpr (Or.inr rfl), rfl, by dsimp only; omega⟩
      · obtain ⟨u, hu, hxu⟩ := hi.held x hx
        exact ⟨u, (hmem u).mpr (Or.inl hu), hxu⟩
    have hasked : ∀ x ∈ (r.1 + SIZEOF_STRUCT_MEM, size) :: m.held, x.2 ≤ 65532 := by
      rintro x (_ | ⟨_, hx⟩)
      · exact hsize
      · exact hi.asked x hx
    refine ⟨⟨h', (r.1 + SIZEOF_STRUCT_MEM, size) :: m.held⟩, r.2, ?_, ⟨hl', ?_, ?_, hasked, hheld, ?_⟩, ?_⟩
    · simp [MemState.step, hm]
    · obtain ⟨pre, b, post, rfl, rfl, hfits, -⟩ := alloc_eq_some ha
      exact separated_place hi.separated hfits
    · refine List.nodup_cons.mpr ⟨fun hin => ?_, hi.nodup⟩
      -- The new block is none of those that were in use.
      obtain ⟨x, hx, heq⟩ := List.mem_map.mp hin
      obtain ⟨u, hu, hxu, -⟩ := hi.held x hx
      have hfst : u.1 = r.1 := by
        dsimp only at heq
        omega
      rw [hnew] at hnd
      simp only [List.map_append, List.map_cons] at hnd
      have hnot := (List.nodup_middle.mp hnd)
      refine (List.nodup_cons.mp hnot).1 ?_
      rw [← List.map_append, ← hold, ← hfst]
      exact List.mem_map.mpr ⟨u, hu, rfl⟩
    · intro u hu
      rcases (hmem u).mp hu with hu | rfl
      · obtain ⟨x, hx, hxu⟩ := hi.used u hu
        exact ⟨x, List.mem_cons_of_mem _ hx, hxu⟩
      · exact ⟨_, List.mem_cons_self, rfl, by dsimp only; omega⟩
    · exact spares_of_writes hw hl'.sized hasked hheld

/-- The block behind a held pointer, among the others. -/
theorem MemInv.block (hi : MemInv m bs) {x : Nat × Nat} (hx : x ∈ m.held) :
    ∃ pre s post, bs = pre ++ ⟨s, true⟩ :: post ∧ x.1 = extent pre + SIZEOF_STRUCT_MEM ∧
      memSize x.2 ≤ s - SIZEOF_STRUCT_MEM := by
  obtain ⟨u, hu, hfst, hsize⟩ := hi.held x hx
  obtain ⟨pre, post, rfl, hu1⟩ := mem_inUse.mp hu
  exact ⟨pre, u.2, post, rfl, by omega, hsize⟩

/-- The other blocks in use begin elsewhere. -/
theorem Laid.others {h : Heap} {pre post : List Block} {s : Nat} (hl : Laid h (pre ++ ⟨s, true⟩ :: post)) {u : Nat × Nat}
    (hu : u ∈ inUse 0 pre ++ inUse (extent pre + s) post) : u.1 ≠ extent pre := by
  have hnd := inUse_fst_nodup 0 hl.pos
  rw [inUse_used, List.map_append, List.map_cons] at hnd
  have hnot := (List.nodup_cons.mp (List.nodup_middle.mp hnd)).1
  rw [← List.map_append] at hnot
  have hmem : u.1 ∈ (inUse 0 pre ++ inUse (extent pre + s) post).map Prod.fst := List.mem_map.mpr ⟨u, hu, rfl⟩
  intro heq
  rw [heq] at hmem
  exact hnot hmem

theorem MemInv.free (hi : MemInv m bs) {x₀ : Nat × Nat} (hx₀ : x₀ ∈ m.held) :
    ∃ m' cs, m.step (.free x₀.1) = some m' ∧ MemInv m' cs ∧ Spares m.heap m'.heap m'.held := by
  obtain ⟨pre, s, post, rfl, hfst, -⟩ := hi.block hx₀
  obtain ⟨h', hfree, hl', hw⟩ := hi.laid.mem_free_spec hi.separated
  have hold := inUse_used pre post s
  have hnew : inUse 0 (coalesce (pre ++ ⟨s, false⟩ :: post)) = inUse 0 pre ++ inUse (extent pre + s) post := by
    rw [inUse_coalesce]
    exact inUse_unused pre post rfl
  have hsub : ∀ x ∈ m.held.filter (fun x => x.1 ≠ x₀.1), x ∈ m.held ∧ x.1 ≠ x₀.1 := by
    intro x hx
    simpa using hx
  refine ⟨⟨h', m.held.filter (fun x => x.1 ≠ x₀.1)⟩, _, ?_, ⟨hl', separated_coalesce _, ?_, ?_, ?_, ?_⟩, ?_⟩
  · simp [MemState.step, hfst, hfree]
  · exact hi.nodup.sublist (List.filter_sublist.map Prod.fst)
  · exact fun x hx => hi.asked x (hsub x hx).1
  · intro x hx
    obtain ⟨hx, hne⟩ := hsub x hx
    obtain ⟨u, hu, hxu⟩ := hi.held x hx
    refine ⟨u, ?_, hxu⟩
    rw [hnew]
    rw [hold, List.mem_append, List.mem_cons] at hu
    rcases hu with hu | rfl | hu
    · exact List.mem_append_left _ hu
    · exact absurd (hxu.1.trans hfst.symm) hne
    · exact List.mem_append_right _ hu
  · intro u hu
    rw [hnew] at hu
    have hother := hi.laid.others hu
    have hmem : u ∈ inUse 0 (pre ++ ⟨s, true⟩ :: post) := by
      rw [hold]
      simp only [List.mem_append, List.mem_cons] at hu ⊢
      tauto
    obtain ⟨x, hx, hxu⟩ := hi.used u hmem
    refine ⟨x, ?_, hxu⟩
    have hne : x.1 ≠ x₀.1 := by
      have := hxu.1
      omega
    simpa [hne] using hx
  · exact spares_of_writes hw hi.laid.sized (fun x hx => hi.asked x (hsub x hx).1) (fun x hx => hi.held x (hsub x hx).1)

theorem memSize_mono {m n : Nat} (h : m ≤ n) (hn : n ≤ 65532) : memSize m ≤ memSize n := by
  unfold memSize LWIP_MEM_ALIGN_SIZE MEM_ALIGNMENT
  omega

theorem MemInv.trim (hi : MemInv m bs) {x₀ : Nat × Nat} (hx₀ : x₀ ∈ m.held) {newsize : Nat} (hle : newsize ≤ x₀.2) :
    ∃ m' cs, m.step (.trim x₀.1 newsize) = some m' ∧ MemInv m' cs ∧ Spares m.heap m'.heap m'.held := by
  obtain ⟨pre, s, post, rfl, hfst, hsize⟩ := hi.block hx₀
  have hasked := hi.asked x₀ hx₀
  obtain ⟨h', s', post', htrim, hl', hsep', hs', hbehind, hw⟩ :=
    mem_trim_spec hi.laid hi.separated (Nat.le_trans (memSize_mono hle hasked) hsize)
  have hold := inUse_used pre post s
  have hnew : inUse 0 (pre ++ ⟨s', true⟩ :: post') = inUse 0 pre ++ (extent pre, s') :: inUse (extent pre + s) post := by
    rw [inUse_used, hbehind]
  have hask : ∀ x ∈ m.held.map (fun x => if x.1 = x₀.1 then (x₀.1, newsize) else x), x.2 ≤ 65532 := by
    intro x hx
    obtain ⟨y, hy, rfl⟩ := List.mem_map.mp hx
    split
    · exact Nat.le_trans hle hasked
    · exact hi.asked y hy
  have hheld : ∀ x ∈ m.held.map (fun x => if x.1 = x₀.1 then (x₀.1, newsize) else x),
      ∃ u ∈ inUse 0 (pre ++ ⟨s', true⟩ :: post'), Holds x u := by
    intro x hx
    obtain ⟨y, hy, rfl⟩ := List.mem_map.mp hx
    rw [hnew]
    split
    · exact ⟨(extent pre, s'), by simp, hfst, hs'⟩
    · rename_i hne
      obtain ⟨u, hu, hyu⟩ := hi.held y hy
      rw [hold, List.mem_append, List.mem_cons] at hu
      refine ⟨u, ?_, hyu⟩
      rcases hu with hu | rfl | hu
      · exact List.mem_append_left _ hu
      · exact absurd (hyu.1.trans hfst.symm) hne
      · exact List.mem_append_right _ (List.mem_cons_of_mem _ hu)
  refine ⟨⟨h', m.held.map (fun x => if x.1 = x₀.1 then (x₀.1, newsize) else x)⟩, _, ?_,
    ⟨hl', hsep', ?_, hask, hheld, ?_⟩, spares_of_writes hw hl'.sized hask hheld⟩
  · simp [MemState.step, hfst, htrim]
  · have hfstmap : (m.held.map (fun x => if x.1 = x₀.1 then (x₀.1, newsize) else x)).map Prod.fst = m.held.map Prod.fst := by
      rw [List.map_map]
      refine List.map_congr_left (fun x _ => ?_)
      dsimp only [Function.comp]
      split
      · rename_i heq
        exact heq.symm
      · rfl
    rw [hfstmap]
    exact hi.nodup
  · intro u hu
    rw [hnew, List.mem_append, List.mem_cons] at hu
    have hcase : u = (extent pre, s') ∨ u ∈ inUse 0 pre ++ inUse (extent pre + s) post := by
      rw [List.mem_append]
      tauto
    rcases hcase with rfl | hu
    · exact ⟨(x₀.1, newsize), List.mem_map.mpr ⟨x₀, hx₀, by simp⟩, hfst, hs'⟩
    · have hother := hi.laid.others hu
      obtain ⟨x, hx, hxu⟩ := hi.used u (by
        rw [hold]
        simp only [List.mem_append, List.mem_cons] at hu ⊢
        tauto)
      have hne : x.1 ≠ x₀.1 := by
        have := hxu.1
        omega
      exact ⟨x, List.mem_map.mpr ⟨x, hx, by simp [hne]⟩, hxu⟩

/-- An allowed step is taken, keeps the invariant and writes to nothing that is still held. -/
theorem MemInv.step (hi : MemInv m bs) {a : MemAction} (ha : m.allowed a) :
    ∃ m' cs, m.step a = some m' ∧ MemInv m' cs ∧ Spares m.heap m'.heap m'.held := by
  cases a with
  | malloc size => exact hi.malloc ha
  | free rmem =>
    obtain ⟨x, hx, rfl⟩ := ha
    exact hi.free hx
  | trim rmem newsize =>
    obtain ⟨x, hx, rfl, hle⟩ := ha
    exact hi.trim hx hle

end Step

/-! ## Runs -/

/-- A run is never stuck. -/
theorem mem_run_inv {as : List MemAction} (hl : memMachine.Legal (some .init) as) :
    ∃ m bs, memMachine.run (some .init) as = some m ∧ MemInv m bs := by
  refine Machine.run_invariant (M := memMachine) (P := fun s => ∃ m bs, s = some m ∧ MemInv m bs) ?_
    ⟨_, _, rfl, memInv_init⟩ hl
  rintro s a ⟨m, bs, rfl, hi⟩ ha
  obtain ⟨m', cs, hstep, hi', -⟩ := hi.step (ha m rfl)
  exact ⟨m', cs, hstep, hi'⟩

theorem MemInv.bounds {m : MemState} {bs : List Block} (hi : MemInv m bs) {x : Nat × Nat} (hx : x ∈ m.held) :
    x.1 % MEM_ALIGNMENT = 0 ∧ SIZEOF_STRUCT_MEM ≤ x.1 ∧ x.1 + x.2 ≤ MEM_SIZE_ALIGNED := by
  obtain ⟨pre, s, post, rfl, hfst, hsize⟩ := hi.block hx
  have hle := le_memSize (hi.asked x hx)
  have hs := hi.laid.size_at
  have hbound := hi.laid.bound
  have hal := hi.laid.aligned
  unfold Sized SIZEOF_STRUCT_MEM MEM_ALIGNMENT ram_end at *
  dsimp only at hs hbound
  omega

theorem MemInv.apart {m : MemState} {bs : List Block} (hi : MemInv m bs) {x y : Nat × Nat} (hx : x ∈ m.held)
    (hy : y ∈ m.held) (hne : x.1 ≠ y.1) : Apart x y := by
  obtain ⟨u, hu, hxu, hsx⟩ := hi.held x hx
  obtain ⟨v, hv, hyv, hsy⟩ := hi.held y hy
  have hlx := le_memSize (hi.asked x hx)
  have hly := le_memSize (hi.asked y hy)
  have hpu := inUse_pos hi.laid.pos hu
  have hpv := inUse_pos hi.laid.pos hv
  have hdis := inUse_apart hu hv (fun heq => hne (by rw [hxu, hyv, heq]))
  unfold Apart at *
  omega

theorem MemInv.pairwise_apart {m : MemState} {bs : List Block} (hi : MemInv m bs) : m.held.Pairwise Apart :=
  (List.pairwise_map.mp hi.nodup).imp_of_mem (fun {_ _} hx hy hne => hi.apart hx hy hne)

/-- The struct behind the one at `k`, unless that is the end. -/
def Heap.behind (h : Heap) (k : Nat) : Option Nat :=
  if (h.ram k).next < ram_end then some (h.ram k).next else none

/-- The places of the structs, in order. -/
def Heap.structs (h : Heap) : List Nat := walk h.behind MEM_SIZE_ALIGNED (some 0)

theorem Formed.chain_starts {h : Heap} {pre bs : List Block} (hf : Formed h.ram (pre ++ bs)) :
    Chain h.behind (bs.head?.map (fun _ => extent pre)) (starts (extent pre) bs) := by
  induction bs generalizing pre with
  | nil => rfl
  | cons b bs ih =>
    refine ⟨rfl, ?_⟩
    have hrec := @ih (pre ++ [b]) (by simpa using hf)
    rw [extent_append, extent_cons, extent_nil, Nat.add_zero] at hrec
    have hbehind : h.behind (extent pre) = bs.head?.map (fun _ => extent pre + b.size) := by
      unfold Heap.behind
      rw [hf.struct_at]
      dsimp only
      cases bs with
      | nil => rw [if_neg (by have := hf.seam_end; omega), List.head?_nil, Option.map_none]
      | cons c bs =>
        have hseam := hf.seam [b] (List.cons_ne_nil c bs)
        rw [extent_cons, extent_nil, Nat.add_zero] at hseam
        rw [if_pos hseam, List.head?_cons, Option.map_some]
    rw [hbehind]
    exact hrec

theorem Formed.structs_eq {h : Heap} {bs : List Block} (hf : Formed h.ram bs) : h.structs = starts 0 bs := by
  have hchain := @Formed.chain_starts _ [] _ hf
  have hlen := hf.length_lt
  cases bs with
  | nil => exact absurd hf.reach (by decide)
  | cons b bs => exact walk_eq hchain (by rw [starts_length]; omega)

/-- The struct at `k` is unused and has room for the size. -/
def Heap.hasRoom (h : Heap) (size k : Nat) : Prop :=
  (h.ram k).used = false ∧ k + SIZEOF_STRUCT_MEM + size ≤ (h.ram k).next

theorem Formed.hasRoom_iff {h : Heap} {bs : List Block} (hf : Formed h.ram bs) (size : Nat) :
    (∃ k ∈ h.structs, h.hasRoom size k) ↔ ∃ b ∈ bs, fits SIZEOF_STRUCT_MEM size b = true := by
  rw [hf.structs_eq]
  constructor
  · rintro ⟨k, hk, hun, hle⟩
    obtain ⟨pre, b, post, rfl, rfl⟩ := mem_starts.mp hk
    rw [Nat.zero_add, hf.struct_at] at hun hle
    exact ⟨b, by simp, (fits_iff size b).mpr ⟨hun, by dsimp only at hle; omega⟩⟩
  · rintro ⟨b, hb, hfits⟩
    obtain ⟨pre, post, rfl⟩ := List.append_of_mem hb
    obtain ⟨hun, hle⟩ := (fits_iff size b).mp hfits
    refine ⟨extent pre, mem_starts.mpr ⟨pre, b, post, rfl, (Nat.zero_add _).symm⟩, ?_⟩
    unfold Heap.hasRoom
    rw [hf.struct_at]
    exact ⟨hun, by dsimp only; omega⟩

theorem MemInv.all_freed {m : MemState} {bs : List Block} (hi : MemInv m bs) (hheld : m.held = []) :
    bs = [⟨ram_end, false⟩] := by
  have hnone : inUse 0 bs = [] := by
    refine List.eq_nil_iff_forall_not_mem.mpr (fun u hu => ?_)
    obtain ⟨x, hx, -⟩ := hi.used u hu
    rw [hheld] at hx
    exact absurd hx List.not_mem_nil
  rw [← hi.laid.reach]
  refine eq_singleton_of_unused hi.separated (inUse_eq_nil hnone) ?_
  rintro rfl
  exact absurd hi.laid.reach (by decide)

end MultiIp.Lwip
