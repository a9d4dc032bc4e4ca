import MultiIp.Lwip.MemLayout

/-!
# `mem_malloc` and `mem_trim`

`mem_malloc` takes the first unused block that is large enough, wherever
`lfree` lets the scan begin. `mem_trim` gives the end of a block back.
-/

namespace MultiIp.Lwip

open Lib FirstFit

/-- A size as `memSize` returns it. -/
def Asked (size : Nat) : Prop := MIN_SIZE_ALIGNED ≤ size ∧ size % MEM_ALIGNMENT = 0

theorem asked_memSize (size : Nat) : Asked (memSize size) := by
  unfold Asked memSize LWIP_MEM_ALIGN_SIZE MIN_SIZE_ALIGNED MEM_ALIGNMENT
  omega

/-- The size is not cut to 16 bits. -/
theorem le_memSize {size : Nat} (h : size ≤ 65532) : size ≤ memSize size := by
  unfold memSize LWIP_MEM_ALIGN_SIZE MEM_ALIGNMENT
  omega

theorem Asked.sized {size : Nat} (h : Asked size) : Sized (SIZEOF_STRUCT_MEM + size) := by
  unfold Asked Sized SIZEOF_STRUCT_MEM MIN_SIZE_ALIGNED MEM_ALIGNMENT at *
  omega

/-- Two multiples of 4 so far apart leave room for a block. -/
theorem Asked.rest {size n : Nat} (h : Asked size) (hn : Sized n)
    (hle : SIZEOF_STRUCT_MEM + size + (SIZEOF_STRUCT_MEM + MIN_SIZE_ALIGNED) ≤ n) :
    Sized (n - (SIZEOF_STRUCT_MEM + size)) := by
  unfold Asked Sized SIZEOF_STRUCT_MEM MIN_SIZE_ALIGNED MEM_ALIGNMENT at *
  omega

namespace Formed

variable {h : Heap} {pre post : List Block} {b : Block}

theorem room_at (hf : Formed h.ram (pre ++ b :: post)) : h.room (extent pre) = b.size - SIZEOF_STRUCT_MEM := by
  have hb := hf.size_at.1
  have hbound := hf.bound
  unfold ram_end MEM_SIZE_ALIGNED at hbound
  unfold Heap.room
  rw [hf.struct_at]
  dsimp only
  omega

/-- A new struct within the blocks of the middle cuts them in two. -/
theorem carve {ram' : Nat → mem} {mid : List Block} {size n : Nat} (hf : Formed h.ram (pre ++ (mid ++ post)))
    (hn : extent mid = n) (hsize : Asked size) (hrest : Sized (n - (SIZEOF_STRUCT_MEM + size))) {k : Nat}
    (hk : k = extent pre + SIZEOF_STRUCT_MEM + size) (hfirst : ram' (extent pre) = ⟨k, lastAt 0 0 pre, true⟩)
    (hsecond : ram' k = ⟨extent pre + n, extent pre, false⟩)
    (hseam : ∃ q, ram' (extent pre + n) = { h.ram (extent pre + n) with prev := q } ∧ (post ≠ [] → q = k))
    (hother : ∀ x, x ≠ extent pre → x ≠ k → x ≠ extent pre + n → ram' x = h.ram x) :
    Formed ram' (pre ++ ([⟨SIZEOF_STRUCT_MEM + size, true⟩, ⟨n - (SIZEOF_STRUCT_MEM + size), false⟩] ++ post)) := by
  have hpos := hrest.pos
  have hsum : SIZEOF_STRUCT_MEM + size + (n - (SIZEOF_STRUCT_MEM + size)) = n := by omega
  refine hf.splice mid _ ?_ ?_ ?_ ?_ ?_ ?_
  · rw [hn, extent_cons, extent_cons, extent_nil]
    exact hsum
  · intro c hc
    simp only [List.mem_cons, List.not_mem_nil, or_false] at hc
    rcases hc with rfl | rfl
    · exact hsize.sized
    · exact hrest
  · exact fun x hx => hother x (by omega) (by omega) (by omega)
  · refine ⟨?_, ?_, trivial⟩
    · rw [hfirst, hk]
      simp [Nat.add_assoc]
    · rw [← Nat.add_assoc, ← hk, hsecond]
      have : k + (n - (SIZEOF_STRUCT_MEM + size)) = extent pre + n := by omega
      simp [this]
  · rw [hn]
    obtain ⟨q, hq, hlast⟩ := hseam
    refine ⟨q, hq, fun hne => ?_⟩
    rw [hlast hne, hk]
    simp [lastAt, Nat.add_assoc]
  · intro x hx
    rw [hn] at hx
    exact hother x (by omega) (by omega) (by omega)

end Formed

/-! ## A new struct -/

/-- The writes that put a struct at `k` between those at `ptr` and `e`. -/
def insertStruct (h : Heap) (ptr k e : Nat) (f : mem → mem) : Heap :=
  let h := (h.modify k (fun _ => ⟨e, ptr, false⟩)).modify ptr f
  if e ≠ MEM_SIZE_ALIGNED then h.modify e (fun m => { m with prev := k }) else h

section Insert

variable {h : Heap} {ptr k e : Nat} {f : mem → mem}

theorem insertStruct_lfree (h : Heap) (ptr k e : Nat) (f : mem → mem) : (insertStruct h ptr k e f).lfree = h.lfree := by
  unfold insertStruct
  dsimp only
  split <;> rfl

theorem insertStruct_first (hk : ptr < k) (he : k < e) : (insertStruct h ptr k e f).ram ptr = f (h.ram ptr) := by
  unfold insertStruct
  dsimp only
  split
  · rw [Heap.modify_ne _ (by omega), Heap.modify_self, Heap.modify_ne _ (by omega)]
  · rw [Heap.modify_self, Heap.modify_ne _ (by omega)]

theorem insertStruct_second (hk : ptr < k) (he : k < e) : (insertStruct h ptr k e f).ram k = ⟨e, ptr, false⟩ := by
  unfold insertStruct
  dsimp only
  split
  · rw [Heap.modify_ne _ (by omega), Heap.modify_ne _ (by omega), Heap.modify_self]
  · rw [Heap.modify_ne _ (by omega), Heap.modify_self]

theorem insertStruct_seam (hk : ptr < k) (he : k < e) :
    ∃ q, (insertStruct h ptr k e f).ram e = { h.ram e with prev := q } ∧ (e ≠ ram_end → q = k) := by
  unfold insertStruct
  dsimp only
  split
  · refine ⟨k, ?_, fun _ => rfl⟩
    rw [Heap.modify_self, Heap.modify_ne _ (by omega), Heap.modify_ne _ (by omega)]
  · rename_i hend
    refine ⟨(h.ram e).prev, ?_, fun hne => absurd hne hend⟩
    rw [Heap.modify_ne _ (by omega), Heap.modify_ne _ (by omega)]

theorem insertStruct_other {x : Nat} (hptr : x ≠ ptr) (hk : x ≠ k) (he : x ≠ e) :
    (insertStruct h ptr k e f).ram x = h.ram x := by
  unfold insertStruct
  dsimp only
  split
  · rw [Heap.modify_ne _ he, Heap.modify_ne _ hptr, Heap.modify_ne _ hk]
  · rw [Heap.modify_ne _ hptr, Heap.modify_ne _ hk]

theorem Formed.insert {pre post : List Block} (mid : List Block) {size n : Nat} (hf : Formed h.ram (pre ++ (mid ++ post)))
    (hn : extent mid = n) (hsize : Asked size) (hrest : Sized (n - (SIZEOF_STRUCT_MEM + size)))
    (hk : k = extent pre + SIZEOF_STRUCT_MEM + size) (hfirst : f (h.ram (extent pre)) = ⟨k, lastAt 0 0 pre, true⟩) :
    Formed (insertStruct h (extent pre) k (extent pre + n) f).ram
        (pre ++ ([⟨SIZEOF_STRUCT_MEM + size, true⟩, ⟨n - (SIZEOF_STRUCT_MEM + size), false⟩] ++ post)) ∧
      WritesAt h (insertStruct h (extent pre) k (extent pre + n) f)
        (pre ++ ([⟨SIZEOF_STRUCT_MEM + size, true⟩, ⟨n - (SIZEOF_STRUCT_MEM + size), false⟩] ++ post)) := by
  have hpos := hrest.pos
  have h8 : SIZEOF_STRUCT_MEM = 8 := rfl
  have hlt : extent pre < k := by omega
  have hlt' : k < extent pre + n := by omega
  refine ⟨hf.carve hn hsize hrest hk ?_ (insertStruct_second hlt hlt') ?_ ?_, ?_⟩
  · rw [insertStruct_first hlt hlt', hfirst]
  · obtain ⟨q, hq, hlast⟩ := insertStruct_seam (h := h) (f := f) hlt hlt'
    refine ⟨q, hq, fun hne => hlast ?_⟩
    have := hf.seam mid hne
    omega
  · exact fun x h1 h2 h3 => insertStruct_other h1 h2 h3
  · intro x hx
    by_cases h1 : x = extent pre
    · exact h1 ▸ boundary_append _ _
    by_cases h2 : x = k
    · have := boundary_next pre (⟨n - (SIZEOF_STRUCT_MEM + size), false⟩ :: post) ⟨SIZEOF_STRUCT_MEM + size, true⟩
      rw [h2, hk, Nat.add_assoc]
      exact this
    by_cases h3 : x = extent pre + n
    · have := boundary_next_next pre post ⟨SIZEOF_STRUCT_MEM + size, true⟩ ⟨n - (SIZEOF_STRUCT_MEM + size), false⟩
      have hsum : extent pre + (SIZEOF_STRUCT_MEM + size) + (n - (SIZEOF_STRUCT_MEM + size)) = extent pre + n := by omega
      rw [h3, ← hsum]
      exact this
    · exact absurd (insertStruct_other h1 h2 h3) hx

end Insert

/-! ## Taking a block -/

section Take

variable {h : Heap} {pre post : List Block} {b : Block} {size : Nat}

theorem mem_malloc_take_split {ptr : Nat} (hroom : h.room ptr ≥ size + SIZEOF_STRUCT_MEM + MIN_SIZE_ALIGNED) :
    mem_malloc_take h ptr size = insertStruct h ptr (ptr + SIZEOF_STRUCT_MEM + size) (h.ram ptr).next
      (fun m => { m with next := ptr + SIZEOF_STRUCT_MEM + size, used := true }) := by
  have hne : ptr + SIZEOF_STRUCT_MEM + size ≠ ptr := by
    unfold SIZEOF_STRUCT_MEM
    omega
  have hnext : (((h.modify (ptr + SIZEOF_STRUCT_MEM + size) (fun _ => ⟨(h.ram ptr).next, ptr, false⟩)).modify ptr
      (fun m => { m with next := ptr + SIZEOF_STRUCT_MEM + size, used := true })).ram
        (ptr + SIZEOF_STRUCT_MEM + size)).next = (h.ram ptr).next := by
    rw [Heap.modify_ne _ hne, Heap.modify_self]
  unfold mem_malloc_take insertStruct
  rw [if_pos hroom]
  dsimp only
  rw [hnext]

theorem mem_malloc_take_lfree (h : Heap) (ptr size : Nat) : (mem_malloc_take h ptr size).lfree = h.lfree := by
  by_cases hroom : h.room ptr ≥ size + SIZEOF_STRUCT_MEM + MIN_SIZE_ALIGNED
  · rw [mem_malloc_take_split hroom, insertStruct_lfree]
  · rw [mem_malloc_take, if_neg hroom]
    rfl

theorem mem_malloc_take_spec (hl : Laid h (pre ++ b :: post)) (hsize : Asked size)
    (hfits : fits SIZEOF_STRUCT_MEM size b = true) :
    Formed (mem_malloc_take h (extent pre) size).ram
        (pre ++ (place SIZEOF_STRUCT_MEM MIN_SIZE_ALIGNED size b ++ post)) ∧
      WritesAt h (mem_malloc_take h (extent pre) size)
        (pre ++ (place SIZEOF_STRUCT_MEM MIN_SIZE_ALIGNED size b ++ post)) := by
  have hb := hl.size_at
  have hstart := hl.struct_at
  have hroom := hl.room_at
  obtain ⟨n, u⟩ := b
  simp only [fits, Bool.and_eq_true, decide_eq_true_eq] at hfits
  dsimp only at hb hstart hroom
  unfold place
  split
  · rename_i hsplit
    have hge : h.room (extent pre) ≥ size + SIZEOF_STRUCT_MEM + MIN_SIZE_ALIGNED := by
      rw [hroom]
      dsimp only at hsplit
      omega
    rw [mem_malloc_take_split hge, hstart]
    exact Formed.insert [⟨n, u⟩] hl.toFormed (by simp) hsize (hsize.rest hb hsplit) rfl (by rw [hstart])
  · rename_i hsplit
    have hlt : ¬ h.room (extent pre) ≥ size + SIZEOF_STRUCT_MEM + MIN_SIZE_ALIGNED := by
      rw [hroom]
      dsimp only at hsplit hfits
      omega
    rw [mem_malloc_take, if_neg hlt]
    refine ⟨?_, writes_modify (boundary_append _ _)⟩
    have hmark : Laid { h.modify (extent pre) (fun m => { m with used := true }) with
        lfree := firstUnused 0 (pre ++ ⟨n, true⟩ :: post) } (pre ++ ⟨n, true⟩ :: post) := hl.mark rfl rfl
    exact hmark.toFormed

end Take

/-! ## `mem_malloc` -/

section Malloc

variable {h : Heap} {bs : List Block} {size : Nat}

/-- There are fewer blocks than the loops have rounds. -/
theorem Formed.length_lt (hf : Formed h.ram bs) : bs.length < MEM_SIZE_ALIGNED := by
  have hsized := hf.sized
  have hle : ∀ cs : List Block, (∀ b ∈ cs, Sized b.size) → 20 * cs.length ≤ extent cs := by
    intro cs
    induction cs with
    | nil => simp
    | cons c cs ih =>
      intro hcs
      have hc := (hcs c List.mem_cons_self).1
      have := ih (fun b hb => hcs b (List.mem_cons_of_mem c hb))
      unfold SIZEOF_STRUCT_MEM MIN_SIZE_ALIGNED at hc
      rw [List.length_cons, extent_cons]
      omega
  have := hle bs hsized
  rw [hf.reach] at this
  unfold ram_end MEM_SIZE_ALIGNED at *
  omega

theorem fits_iff (need : Nat) (b : Block) :
    fits SIZEOF_STRUCT_MEM need b = true ↔ b.used = false ∧ SIZEOF_STRUCT_MEM + need ≤ b.size := by
  simp [fits]

/-- From any struct on, the scan finds the first block that fits. -/
theorem mem_malloc_scan_spec {pre : List Block} (hf : Formed h.ram (pre ++ bs)) {fuel : Nat} (hfuel : bs.length < fuel) :
    mem_malloc_scan h size fuel (extent pre) =
      some ((alloc SIZEOF_STRUCT_MEM MIN_SIZE_ALIGNED size bs).map (fun r => extent pre + r.1)) := by
  induction bs generalizing pre fuel with
  | nil =>
    obtain ⟨fuel, rfl⟩ : ∃ n, fuel = n + 1 := ⟨fuel - 1, by simp at hfuel; omega⟩
    have hend := hf.reach
    rw [List.append_nil] at hend
    unfold ram_end at hend
    rw [mem_malloc_scan, if_neg (by omega)]
    rfl
  | cons b bs ih =>
    obtain ⟨fuel, rfl⟩ : ∃ n, fuel = n + 1 := ⟨fuel - 1, by simp at hfuel; omega⟩
    have hstart := hf.struct_at
    have hroom := hf.room_at
    have hbound := hf.bound
    have hsz := hf.size_at.1
    unfold ram_end at hbound
    have h8 : SIZEOF_STRUCT_MEM = 8 := rfl
    rw [mem_malloc_scan]
    by_cases hlt : extent pre < MEM_SIZE_ALIGNED - size
    · rw [if_pos hlt, hstart, hroom, alloc]
      dsimp only
      by_cases hfits : fits SIZEOF_STRUCT_MEM size b = true
      · have hroom' := (fits_iff _ _).mp hfits
        rw [if_pos ⟨hroom'.1, by omega⟩, if_pos hfits]
        simp
      · have hnot : ¬ (b.used = false ∧ b.size - SIZEOF_STRUCT_MEM ≥ size) := by
          rintro ⟨hun, hge⟩
          exact hfits ((fits_iff _ _).mpr ⟨hun, by omega⟩)
        have hrec := @ih (pre ++ [b]) (by simpa using hf) fuel (by simp at hfuel; omega)
        rw [extent_append, extent_cons, extent_nil, Nat.add_zero] at hrec
        rw [if_neg hnot, if_neg hfits, hrec]
        simp [Option.map_map, Function.comp_def, Nat.add_assoc]
    · -- What is left of the heap is too short for a block that fits.
      have hnone : alloc SIZEOF_STRUCT_MEM MIN_SIZE_ALIGNED size (b :: bs) = none := by
        refine alloc_eq_none.mpr (fun c hc => Bool.of_not_eq_true (fun hfits => ?_))
        have hroom' := ((fits_iff _ _).mp hfits).2
        have hle := size_le_extent hc
        rw [extent_cons] at hle
        omega
      rw [if_neg hlt, hnone]
      rfl

theorem mem_malloc_adjust_lfree_spec {pre : List Block} (hf : Formed h.ram (pre ++ bs)) {fuel : Nat}
    (hfuel : bs.length < fuel) : mem_malloc_adjust_lfree h fuel (extent pre) = some (firstUnused (extent pre) bs) := by
  induction bs generalizing pre fuel with
  | nil =>
    obtain ⟨fuel, rfl⟩ : ∃ n, fuel = n + 1 := ⟨fuel - 1, by simp at hfuel; omega⟩
    have hend := hf.reach
    rw [List.append_nil] at hend
    rw [mem_malloc_adjust_lfree, if_neg (by rw [hend]; simp)]
    rfl
  | cons b bs ih =>
    obtain ⟨fuel, rfl⟩ : ∃ n, fuel = n + 1 := ⟨fuel - 1, by simp at hfuel; omega⟩
    have hpos := hf.size_at.pos
    have hbound := hf.bound
    rw [mem_malloc_adjust_lfree, hf.struct_at, firstUnused]
    dsimp only
    split
    · rename_i hused
      have hrec := @ih (pre ++ [b]) (by simpa using hf) fuel (by simp at hfuel; omega)
      rw [extent_append, extent_cons, extent_nil, Nat.add_zero] at hrec
      rw [hrec, if_pos hused.1]
    · rename_i hunused
      rw [if_neg (fun hused => hunused ⟨hused, by omega⟩)]

/-- `lfree` points to an unused struct or to the end. -/
theorem Formed.firstUnused_unused (hf : Formed h.ram bs) :
    firstUnused 0 bs = ram_end ∨ (h.ram (firstUnused 0 bs)).used = false := by
  obtain ⟨pre, rest, rfl, -, hfirst, hrest⟩ := firstUnused_split 0 bs
  rw [hfirst, Nat.zero_add]
  cases rest with
  | nil =>
    have hend := hf.reach
    rw [List.append_nil] at hend
    exact Or.inl hend
  | cons b rest =>
    rw [hf.struct_at]
    exact Or.inr (hrest b rfl)

theorem mem_malloc_scan_lfree (hl : Laid h bs) :
    mem_malloc_scan h size MEM_SIZE_ALIGNED h.lfree =
      some ((alloc SIZEOF_STRUCT_MEM MIN_SIZE_ALIGNED size bs).map Prod.fst) := by
  obtain ⟨pre, rest, rfl, hpre, hfirst, -⟩ := firstUnused_split 0 bs
  have hlen := hl.length_lt
  rw [List.length_append] at hlen
  rw [hl.lfree, hfirst, Nat.zero_add, mem_malloc_scan_spec hl.toFormed (by omega),
    alloc_append (fun c hc => by simp [fits, hpre c hc]), Option.map_map]
  rfl

theorem mem_malloc_lfree_spec {pre post : List Block} {b : Block} (hl : Laid h (pre ++ b :: post)) (hun : b.used = false)
    {h' : Heap} (hlfree : h'.lfree = h.lfree) {cs : List Block} (hf : Formed h'.ram (pre ++ cs)) :
    ∃ l, mem_malloc_lfree h' (extent pre) = some { h' with lfree := l } ∧ Laid { h' with lfree := l } (pre ++ cs) := by
  refine ⟨firstUnused 0 (pre ++ cs), ?_, hf, rfl⟩
  have hlen := hf.length_lt
  rw [List.length_append] at hlen
  unfold mem_malloc_lfree
  rw [hlfree, hl.lfree]
  rcases all_used_or pre with hused | ⟨c, hc, hcun⟩
  · have hold : firstUnused 0 (pre ++ b :: post) = extent pre := by
      rw [firstUnused_append_used 0 hused, firstUnused, if_neg (by simp [hun]), Nat.zero_add]
    have hnew : firstUnused (extent pre) cs = firstUnused 0 (pre ++ cs) := by
      rw [firstUnused_append_used 0 hused, Nat.zero_add]
    rw [hold, if_pos rfl, mem_malloc_adjust_lfree_spec hf (by omega), hnew]
    dsimp only
    rw [if_pos hf.firstUnused_unused]
  · have hlt := firstUnused_lt (o := 0) (fun d hd => hl.pos d (by simp [hd])) hc hcun
    rw [firstUnused_append_unused 0 hc hcun, if_neg (by omega), firstUnused_append_unused 0 hc hcun]
    congr 1
    rw [← firstUnused_append_unused 0 hc hcun (b :: post), ← hl.lfree, ← hlfree]

/-- `mem_malloc` takes the first block that fits, or returns NULL if there is none. -/
theorem mem_malloc_spec (hl : Laid h bs) (hne : size ≠ 0) :
    (alloc SIZEOF_STRUCT_MEM MIN_SIZE_ALIGNED (memSize size) bs = none ∧ mem_malloc h size = some (h, none)) ∨
    ∃ r h', alloc SIZEOF_STRUCT_MEM MIN_SIZE_ALIGNED (memSize size) bs = some r ∧
      mem_malloc h size = some (h', some (r.1 + SIZEOF_STRUCT_MEM)) ∧ Laid h' r.2 ∧ WritesAt h h' r.2 := by
  unfold mem_malloc
  rw [if_neg hne]
  cases ha : alloc SIZEOF_STRUCT_MEM MIN_SIZE_ALIGNED (memSize size) bs with
  | none =>
    refine Or.inl ⟨rfl, ?_⟩
    split
    · rfl
    · rw [mem_malloc_scan_lfree hl, ha]
      rfl
  | some r =>
    obtain ⟨pre, b, post, rfl, rfl, hfits, -⟩ := alloc_eq_some ha
    obtain ⟨hf, hw⟩ := mem_malloc_take_spec hl (asked_memSize size) hfits
    obtain ⟨l, hlf, hl'⟩ := mem_malloc_lfree_spec hl ((fits_iff _ _).mp hfits).1 (mem_malloc_take_lfree h _ _) hf
    have hroom := ((fits_iff _ _).mp hfits).2
    have hbound := hl.bound
    have hal := hl.aligned
    refine Or.inr ⟨_, _, rfl, ?_, hl', hw.trans (writes_lfree _ _ _)⟩
    rw [if_neg (by unfold ram_end at hbound; omega), mem_malloc_scan_lfree hl, ha]
    dsimp only [Option.map_some]
    rw [hlf]
    dsimp only
    rw [if_pos]
    unfold MEM_ALIGNMENT SIZEOF_STRUCT_MEM at *
    omega

end Malloc

/-! ## `mem_trim` -/

section Trim

variable {h : Heap} {pre post : List Block} {s size : Nat}

/-- The lowest unused block after one appeared behind a block in use. -/
theorem Laid.firstUnused_behind {t : Nat} {cs : List Block} (hl : Laid h (pre ++ ⟨s, true⟩ :: post)) :
    firstUnused 0 (pre ++ ⟨t, true⟩ :: cs) =
      if ∀ b ∈ pre, b.used = true then firstUnused (extent pre + t) cs else h.lfree := by
  split
  · rename_i hused
    rw [firstUnused_append_used 0 hused, Nat.zero_add]
    rfl
  · rename_i hnot
    obtain ⟨b, hb, hun⟩ := (all_used_or pre).resolve_left hnot
    rw [firstUnused_append_unused 0 hb hun, hl.lfree, firstUnused_append_unused 0 hb hun]

theorem Laid.lfree_cases (hl : Laid h (pre ++ ⟨s, true⟩ :: post)) :
    ((∀ b ∈ pre, b.used = true) ∧ h.lfree = firstUnused (extent pre + s) post) ∨
    (¬ (∀ b ∈ pre, b.used = true) ∧ h.lfree < extent pre) := by
  by_cases hused : ∀ b ∈ pre, b.used = true
  · refine Or.inl ⟨hused, ?_⟩
    rw [hl.lfree, hl.firstUnused_behind, if_pos hused]
  · obtain ⟨b, hb, hun⟩ := (all_used_or pre).resolve_left hused
    have hlt := firstUnused_lt (o := 0) (fun c hc => hl.pos c (by simp [hc])) hb hun
    rw [hl.lfree, firstUnused_append_unused 0 hb hun]
    exact Or.inr ⟨hused, by omega⟩

/-- `mem_trim_move` behind whose block an unused one begins earlier. -/
theorem mem_trim_move_unused {t : Nat} (hl : Laid h (pre ++ ⟨s, true⟩ :: ⟨t, false⟩ :: post)) (hsize : Asked size)
    (hlt : SIZEOF_STRUCT_MEM + size < s) {n : Nat} :
    Laid (mem_trim_move h (extent pre) n size)
        (pre ++ ([⟨SIZEOF_STRUCT_MEM + size, true⟩, ⟨s + t - (SIZEOF_STRUCT_MEM + size), false⟩] ++ post)) ∧
      WritesAt h (mem_trim_move h (extent pre) n size)
        (pre ++ ([⟨SIZEOF_STRUCT_MEM + size, true⟩, ⟨s + t - (SIZEOF_STRUCT_MEM + size), false⟩] ++ post)) := by
  have hs := hl.size_at
  have ht : Sized t := hl.sized ⟨t, false⟩ (by simp)
  have hstart := hl.struct_at
  have hnext := hl.next_struct
  dsimp only at hs hstart hnext
  have hmove : mem_trim_move h (extent pre) n size =
      insertStruct { h with lfree := if h.lfree = extent pre + s then extent pre + SIZEOF_STRUCT_MEM + size else h.lfree }
        (extent pre) (extent pre + SIZEOF_STRUCT_MEM + size) (extent pre + (s + t))
        (fun m => { m with next := extent pre + SIZEOF_STRUCT_MEM + size }) := by
    unfold mem_trim_move insertStruct
    rw [hstart]
    dsimp only
    rw [hnext, if_pos rfl, ← Nat.add_assoc]
    dsimp only
    by_cases hlf : h.lfree = extent pre + s
    · rw [if_pos hlf, if_pos hlf]
    · rw [if_neg hlf, if_neg hlf]
  have hrest : Sized (s + t - (SIZEOF_STRUCT_MEM + size)) := by
    unfold Sized Asked SIZEOF_STRUCT_MEM MIN_SIZE_ALIGNED MEM_ALIGNMENT at *
    omega
  rw [hmove]
  obtain ⟨hf, hw⟩ := Formed.insert [⟨s, true⟩, ⟨t, false⟩]
    (h := { h with lfree := if h.lfree = extent pre + s then extent pre + SIZEOF_STRUCT_MEM + size else h.lfree })
    (f := fun m => { m with next := extent pre + SIZEOF_STRUCT_MEM + size })
    hl.toFormed (by simp) hsize hrest rfl (by dsimp only; rw [hstart])
  refine ⟨⟨hf, ?_⟩, (writes_lfree h _ _).trans hw⟩
  rw [insertStruct_lfree, List.cons_append, hl.firstUnused_behind]
  dsimp only
  rcases hl.lfree_cases with ⟨hused, hlf⟩ | ⟨hnot, hlf⟩
  · have hold : firstUnused (extent pre + s) (⟨t, false⟩ :: post) = extent pre + s := rfl
    rw [if_pos (hlf.trans hold), if_pos hused]
    simp [firstUnused, Nat.add_assoc]
  · rw [if_neg (by omega), if_neg hnot]

/-- `mem_trim_move` with a used block or the end behind it, where the rest is large enough to be a block. -/
theorem mem_trim_move_split (hl : Laid h (pre ++ ⟨s, true⟩ :: post)) (hpost : ∀ b ∈ post.head?, b.used = true)
    (hsize : Asked size) (hle : size + SIZEOF_STRUCT_MEM + MIN_SIZE_ALIGNED ≤ s - SIZEOF_STRUCT_MEM) :
    Laid (mem_trim_move h (extent pre) (s - SIZEOF_STRUCT_MEM) size)
        (pre ++ ([⟨SIZEOF_STRUCT_MEM + size, true⟩, ⟨s - (SIZEOF_STRUCT_MEM + size), false⟩] ++ post)) ∧
      WritesAt h (mem_trim_move h (extent pre) (s - SIZEOF_STRUCT_MEM) size)
        (pre ++ ([⟨SIZEOF_STRUCT_MEM + size, true⟩, ⟨s - (SIZEOF_STRUCT_MEM + size), false⟩] ++ post)) := by
  have hs := hl.size_at
  have hstart := hl.struct_at
  have hnext := hl.next_used hpost
  dsimp only at hs hstart hnext
  obtain ⟨l, hlow⟩ : ∃ l, l = if extent pre + SIZEOF_STRUCT_MEM + size < h.lfree
      then extent pre + SIZEOF_STRUCT_MEM + size else h.lfree := ⟨_, rfl⟩
  have hmove : mem_trim_move h (extent pre) (s - SIZEOF_STRUCT_MEM) size =
      insertStruct { h with lfree := l } (extent pre)
        (extent pre + SIZEOF_STRUCT_MEM + size) (extent pre + s)
        (fun m => { m with next := extent pre + SIZEOF_STRUCT_MEM + size }) := by
    unfold mem_trim_move insertStruct
    rw [hstart]
    dsimp only
    rw [hnext, if_neg (by simp), if_pos hle, hlow]
    by_cases hlf : extent pre + SIZEOF_STRUCT_MEM + size < h.lfree
    · rw [if_pos hlf, if_pos hlf]
    · rw [if_neg hlf, if_neg hlf]
  rw [hmove]
  obtain ⟨hf, hw⟩ := Formed.insert [⟨s, true⟩] (h := { h with lfree := l })
    (f := fun m => { m with next := extent pre + SIZEOF_STRUCT_MEM + size })
    hl.toFormed (by simp) hsize (hsize.rest hs (by omega)) rfl (by dsimp only; rw [hstart])
  refine ⟨⟨hf, ?_⟩, (writes_lfree h _ _).trans hw⟩
  rw [insertStruct_lfree, List.cons_append, hl.firstUnused_behind]
  dsimp only
  have h8 : SIZEOF_STRUCT_MEM = 8 := rfl
  rw [hlow]
  rcases hl.lfree_cases with ⟨hused, hlf⟩ | ⟨hnot, hlf⟩
  · have hge := le_firstUnused (extent pre + s) post
    rw [if_pos (by omega), if_pos hused]
    simp [firstUnused, Nat.add_assoc]
  · rw [if_neg (by omega), if_neg hnot]

/-- `mem_trim` leaves a block of at least the size asked for, and touches no other block in use. -/
theorem mem_trim_spec (hl : Laid h (pre ++ ⟨s, true⟩ :: post)) (hsep : Separated (pre ++ ⟨s, true⟩ :: post))
    {newsize : Nat} (hle : memSize newsize ≤ s - SIZEOF_STRUCT_MEM) :
    ∃ h' s' post', mem_trim h (extent pre + SIZEOF_STRUCT_MEM) newsize = some (h', some (extent pre + SIZEOF_STRUCT_MEM)) ∧
      Laid h' (pre ++ ⟨s', true⟩ :: post') ∧ Separated (pre ++ ⟨s', true⟩ :: post') ∧
      memSize newsize ≤ s' - SIZEOF_STRUCT_MEM ∧
      (∀ o, inUse (o + s') post' = inUse (o + s) post) ∧ WritesAt h h' (pre ++ ⟨s', true⟩ :: post') := by
  have hsize := asked_memSize newsize
  have hs := hl.size_at
  have hbound := hl.bound
  have hstart := hl.struct_at
  dsimp only at hs hbound hstart
  have hpre := separated_left hsep
  have htrim : mem_trim h (extent pre + SIZEOF_STRUCT_MEM) newsize =
      if memSize newsize = s - SIZEOF_STRUCT_MEM then some (h, some (extent pre + SIZEOF_STRUCT_MEM))
      else some (mem_trim_move h (extent pre) (s - SIZEOF_STRUCT_MEM) (memSize newsize),
        some (extent pre + SIZEOF_STRUCT_MEM)) := by
    unfold mem_trim
    dsimp only
    unfold ram_end Sized SIZEOF_STRUCT_MEM MIN_SIZE_ALIGNED at *
    rw [if_neg (by omega), if_neg (by omega), if_neg (by omega), Nat.add_sub_cancel, hstart]
    dsimp only
    rw [Nat.add_sub_cancel_left, if_neg (by omega)]
  rw [htrim]
  by_cases heq : memSize newsize = s - SIZEOF_STRUCT_MEM
  · rw [if_pos heq]
    exact ⟨h, s, post, rfl, hl, hsep, hle, fun _ => rfl, writes_refl h _⟩
  · rw [if_neg heq]
    unfold Sized at hs
    have h8 : SIZEOF_STRUCT_MEM = 8 := rfl
    by_cases hpost : ∀ b ∈ post.head?, b.used = true
    · by_cases hsplit : memSize newsize + SIZEOF_STRUCT_MEM + MIN_SIZE_ALIGNED ≤ s - SIZEOF_STRUCT_MEM
      · obtain ⟨hl', hw⟩ := mem_trim_move_split hl hpost hsize hsplit
        refine ⟨_, SIZEOF_STRUCT_MEM + memSize newsize, ⟨s - (SIZEOF_STRUCT_MEM + memSize newsize), false⟩ :: post, rfl,
          hl', ?_, by omega, fun o => ?_, hw⟩
        · refine separated_append.mpr ⟨hpre.concat_used _, Or.inl rfl, ?_⟩
          cases post with
          | nil => exact trivial
          | cons c post => exact ⟨Or.inr (hpost c rfl), hsep.suffix.tail⟩
        · have hsum : o + (SIZEOF_STRUCT_MEM + memSize newsize) + (s - (SIZEOF_STRUCT_MEM + memSize newsize)) = o + s := by
            omega
          simp only [inUse, Bool.false_eq_true, if_false, hsum]
      · refine ⟨h, s, post, ?_, hl, hsep, hle, fun _ => rfl, writes_refl h _⟩
        have hnext := hl.next_used hpost
        dsimp only at hnext
        unfold mem_trim_move
        rw [hstart]
        dsimp only
        rw [if_neg (by simp [hnext]), if_neg hsplit]
    · -- The block behind is unused: it begins earlier.
      obtain ⟨t, cs, rfl⟩ : ∃ t cs, post = ⟨t, false⟩ :: cs := by
        cases post with
        | nil => simp at hpost
        | cons c cs =>
          obtain ⟨t, u⟩ := c
          exact ⟨t, cs, by simpa using hpost⟩
      obtain ⟨hl', hw⟩ := mem_trim_move_unused hl hsize (n := s - SIZEOF_STRUCT_MEM) (by omega)
      refine ⟨_, SIZEOF_STRUCT_MEM + memSize newsize, ⟨s + t - (SIZEOF_STRUCT_MEM + memSize newsize), false⟩ :: cs, rfl,
        hl', ?_, by omega, fun o => ?_, hw⟩
      · refine separated_append.mpr ⟨hpre.concat_used _, Or.inl rfl, ?_⟩
        have hcs : Separated (⟨t, false⟩ :: cs) := hsep.suffix.tail
        cases cs with
        | nil => exact trivial
        | cons c cs => exact ⟨Or.inr (hcs.1.resolve_left Bool.false_ne_true), hcs.2⟩
      · have hsum : o + (SIZEOF_STRUCT_MEM + memSize newsize) + (s + t - (SIZEOF_STRUCT_MEM + memSize newsize)) =
            o + s + t := by omega
        simp only [inUse, Bool.false_eq_true, if_false, hsum]

end Trim

end MultiIp.Lwip
