import MultiIp.Lwip.Mem

/-!
# The heap as a list of blocks

The structs of the heap, read along `next` from the start, are the blocks of
`FirstFit`. Each operation of `mem.c` changes a few fields of a few structs, and
with them two or three neighbouring blocks.
-/

namespace MultiIp.Lwip

open Lib FirstFit

/-! ## Structs and blocks -/

/-- The structs from `o` on are these blocks. The struct in front of them is at `p`. -/
def Linked (ram : Nat → mem) : (p o : Nat) → List Block → Prop
  | _, _, [] => True
  | p, o, b :: bs => ram o = ⟨o + b.size, p, b.used⟩ ∧ Linked ram o (o + b.size) bs

/-- Where the last of the blocks is, or the struct in front of them. -/
def lastAt : (p o : Nat) → List Block → Nat
  | p, _, [] => p
  | _, o, b :: bs => lastAt o (o + b.size) bs

section Linked

variable {ram ram' : Nat → mem} {p o : Nat} {bs cs : List Block}

theorem linked_append :
    Linked ram p o (bs ++ cs) ↔ Linked ram p o bs ∧ Linked ram (lastAt p o bs) (o + extent bs) cs := by
  induction bs generalizing p o with
  | nil => simp [Linked, lastAt]
  | cons b bs ih => simp [Linked, lastAt, ih, and_assoc, Nat.add_assoc]

@[simp] theorem lastAt_concat (b : Block) : lastAt p o (bs ++ [b]) = o + extent bs := by
  induction bs generalizing p o with
  | nil => rfl
  | cons c bs ih => rw [List.cons_append, lastAt, ih, extent_cons, Nat.add_assoc]

theorem Linked.congr (h : Linked ram p o bs) (hpos : ∀ b ∈ bs, 0 < b.size)
    (heq : ∀ x, o ≤ x → x < o + extent bs → ram' x = ram x) : Linked ram' p o bs := by
  induction bs generalizing p o with
  | nil => exact trivial
  | cons b bs ih =>
    have hb := hpos b List.mem_cons_self
    rw [extent_cons] at heq
    refine ⟨(heq o (Nat.le_refl _) (by omega)).trans h.1, ?_⟩
    exact ih h.2 (fun c hc => hpos c (List.mem_cons_of_mem b hc)) (fun x h1 h2 => heq x (by omega) (by omega))

/-- Another struct comes to lie in front of the blocks. -/
theorem Linked.relink (h : Linked ram p o bs) (hpos : ∀ b ∈ bs, 0 < b.size) {p' : Nat}
    (hhead : bs ≠ [] → ram' o = { ram o with prev := p' })
    (heq : ∀ x, o < x → x < o + extent bs → ram' x = ram x) : Linked ram' p' o bs := by
  cases bs with
  | nil => exact trivial
  | cons b bs =>
    have hb := hpos b List.mem_cons_self
    rw [extent_cons] at heq
    refine ⟨?_, ?_⟩
    · rw [hhead (List.cons_ne_nil _ _), h.1]
    · exact h.2.congr (fun c hc => hpos c (List.mem_cons_of_mem b hc)) (fun x h1 h2 => heq x (by omega) (by omega))

/-- Other blocks take the place of those in the middle. -/
theorem Linked.splice {pre mid mid' post : List Block} (h : Linked ram 0 0 (pre ++ (mid ++ post)))
    (hpos : ∀ b ∈ pre ++ post, 0 < b.size) (hext : extent mid' = extent mid)
    (hpre : ∀ x, x < extent pre → ram' x = ram x) (hmid : Linked ram' (lastAt 0 0 pre) (extent pre) mid')
    (hseam : post ≠ [] → ram' (extent pre + extent mid) =
      { ram (extent pre + extent mid) with prev := lastAt (lastAt 0 0 pre) (extent pre) mid' })
    (hpost : ∀ x, extent pre + extent mid < x → x < extent pre + extent mid + extent post → ram' x = ram x) :
    Linked ram' 0 0 (pre ++ (mid' ++ post)) := by
  rw [linked_append, linked_append, Nat.zero_add] at h ⊢
  obtain ⟨h1, -, h3⟩ := h
  refine ⟨?_, hmid, ?_⟩
  · exact h1.congr (fun b hb => hpos b (List.mem_append_left _ hb)) (fun x _ hx => hpre x (by omega))
  · rw [hext]
    exact h3.relink (fun b hb => hpos b (List.mem_append_right _ hb)) hseam hpost

end Linked

/-- Room for a struct and the least data. -/
def Sized (n : Nat) : Prop := SIZEOF_STRUCT_MEM + MIN_SIZE_ALIGNED ≤ n ∧ n % MEM_ALIGNMENT = 0

theorem Sized.add {m n : Nat} (hm : Sized m) (hn : Sized n) : Sized (m + n) := by
  unfold Sized MEM_ALIGNMENT at *
  omega

theorem Sized.pos {n : Nat} (h : Sized n) : 0 < n := by
  unfold Sized SIZEOF_STRUCT_MEM at h
  omega

/-- The structs are these blocks, from the start of the heap to its end. -/
structure Formed (ram : Nat → mem) (bs : List Block) : Prop where
  linked : Linked ram 0 0 bs
  end_used : (ram ram_end).used = true
  reach : extent bs = ram_end
  sized : ∀ b ∈ bs, Sized b.size

structure Laid (h : Heap) (bs : List Block) : Prop extends Formed h.ram bs where
  lfree : h.lfree = firstUnused 0 bs

theorem extent_sized {bs : List Block} (h : ∀ b ∈ bs, Sized b.size) : extent bs % MEM_ALIGNMENT = 0 := by
  induction bs with
  | nil => rfl
  | cons b bs ih =>
    have hb := (h b List.mem_cons_self).2
    have hbs := ih (fun c hc => h c (List.mem_cons_of_mem b hc))
    unfold MEM_ALIGNMENT at *
    rw [extent_cons]
    omega

namespace Formed

variable {ram ram' : Nat → mem} {pre post : List Block} {b : Block}

theorem pos {bs : List Block} (hf : Formed ram bs) : ∀ c ∈ bs, 0 < c.size := fun c hc => (hf.sized c hc).pos

theorem struct_at (hf : Formed ram (pre ++ b :: post)) :
    ram (extent pre) = ⟨extent pre + b.size, lastAt 0 0 pre, b.used⟩ := by
  have h2 := (linked_append.mp hf.linked).2
  rw [Nat.zero_add] at h2
  exact h2.1

theorem next_struct {c : Block} (hf : Formed ram (pre ++ b :: c :: post)) :
    ram (extent pre + b.size) = ⟨extent pre + b.size + c.size, extent pre, c.used⟩ := by
  have h2 := (linked_append.mp hf.linked).2
  rw [Nat.zero_add] at h2
  exact h2.2.1

theorem bound (hf : Formed ram (pre ++ b :: post)) : extent pre + b.size + extent post = ram_end := by
  have := hf.reach
  rw [extent_append, extent_cons] at this
  omega

theorem size_at (hf : Formed ram (pre ++ b :: post)) : Sized b.size :=
  hf.sized b (List.mem_append_right _ List.mem_cons_self)

theorem aligned (hf : Formed ram (pre ++ b :: post)) : extent pre % MEM_ALIGNMENT = 0 :=
  extent_sized (fun c hc => hf.sized c (List.mem_append_left _ hc))

/-- Behind a block is another one, or the end. -/
theorem seam (mid : List Block) (hf : Formed ram (pre ++ (mid ++ post))) (hne : post ≠ []) :
    extent pre + extent mid < ram_end := by
  have hpos : 0 < extent post := by
    cases post with
    | nil => exact absurd rfl hne
    | cons c post =>
      have := hf.pos c (by simp)
      rw [extent_cons]
      omega
  have := hf.reach
  rw [extent_append, extent_append] at this
  omega

theorem seam_end (hf : Formed ram (pre ++ [b])) : extent pre + b.size = ram_end := by
  have := hf.bound
  rw [extent_nil] at this
  omega

/-- The struct behind a block says where the block is. The one at the end need not. -/
theorem seam_prev (hf : Formed ram (pre ++ b :: post)) :
    ∃ q, ram (extent pre + b.size) = { ram (extent pre + b.size) with prev := q } ∧ (post ≠ [] → q = extent pre) := by
  cases post with
  | nil => exact ⟨_, rfl, fun h => absurd rfl h⟩
  | cons c post => exact ⟨extent pre, by rw [hf.next_struct], fun _ => rfl⟩

/-- Behind a block is a used struct if the next block is used, and the one at the end always is. -/
theorem next_used (hf : Formed ram (pre ++ b :: post)) (hpost : ∀ c ∈ post.head?, c.used = true) :
    (ram (extent pre + b.size)).used = true := by
  cases post with
  | nil =>
    rw [hf.seam_end]
    exact hf.end_used
  | cons c post =>
    rw [hf.next_struct]
    exact hpost c rfl

/-- Other blocks take the place of those in the middle. -/
theorem splice (mid mid' : List Block) (hf : Formed ram (pre ++ (mid ++ post))) (hext : extent mid' = extent mid)
    (hsized : ∀ b ∈ mid', Sized b.size) (hpre : ∀ x, x < extent pre → ram' x = ram x)
    (hmid : Linked ram' (lastAt 0 0 pre) (extent pre) mid')
    (hseam : ∃ q, ram' (extent pre + extent mid) = { ram (extent pre + extent mid) with prev := q } ∧
      (post ≠ [] → q = lastAt (lastAt 0 0 pre) (extent pre) mid'))
    (hpost : ∀ x, extent pre + extent mid < x → ram' x = ram x) : Formed ram' (pre ++ (mid' ++ post)) := by
  obtain ⟨q, hq, hlast⟩ := hseam
  have hreach := hf.reach
  simp only [extent_append] at hreach
  refine ⟨?_, ?_, ?_, ?_⟩
  · refine hf.linked.splice (fun b hb => hf.pos b ?_) hext hpre hmid (fun hne => ?_) (fun x hx _ => hpost x hx)
    · simp only [List.mem_append] at hb ⊢
      tauto
    · rw [hq, hlast hne]
  · rcases Nat.lt_or_ge (extent pre + extent mid) ram_end with hlt | hge
    · rw [hpost _ hlt]
      exact hf.end_used
    · have hend : ram_end = extent pre + extent mid := by omega
      have hused := hf.end_used
      rw [hend] at hused ⊢
      rw [hq]
      exact hused
  · simp only [extent_append]
    omega
  · intro b hb
    simp only [List.mem_append] at hb
    rcases hb with hb | hb | hb
    · exact hf.sized b (by simp [hb])
    · exact hsized b hb
    · exact hf.sized b (by simp [hb])

end Formed

/-! ## Where structs are written -/

/-- Structs are written at boundaries only. -/
def WritesAt (h h' : Heap) (bs : List Block) : Prop := ∀ x, h'.ram x ≠ h.ram x → Boundary bs x

theorem writes_refl (h : Heap) (bs : List Block) : WritesAt h h bs := fun _ hx => absurd rfl hx

theorem WritesAt.trans {h₁ h₂ h₃ : Heap} {bs : List Block} (h12 : WritesAt h₁ h₂ bs) (h23 : WritesAt h₂ h₃ bs) :
    WritesAt h₁ h₃ bs := by
  intro x hx
  by_cases heq : h₂.ram x = h₁.ram x
  · exact h23 x (by rwa [heq])
  · exact h12 x heq

theorem writes_modify {h : Heap} {bs : List Block} {k : Nat} {f : mem → mem} (hk : Boundary bs k) :
    WritesAt h (h.modify k f) bs := by
  intro x hx
  by_cases heq : x = k
  · exact heq ▸ hk
  · exact absurd (Function.update_of_ne heq _ _) hx

theorem writes_lfree (h : Heap) (bs : List Block) (l : Nat) : WritesAt h { h with lfree := l } bs :=
  fun _ hx => absurd rfl hx

theorem boundary_next (pre post : List Block) (b : Block) : Boundary (pre ++ b :: post) (extent pre + b.size) :=
  ⟨pre ++ [b], post, by simp, by simp⟩

theorem boundary_next_next (pre post : List Block) (b c : Block) :
    Boundary (pre ++ b :: c :: post) (extent pre + b.size + c.size) :=
  ⟨pre ++ [b, c], post, by simp, by simp [Nat.add_assoc]⟩

namespace Laid

variable {h : Heap} {pre post : List Block} {b : Block}

/-! ## Joining two structs -/

/-- The first of two unused neighbours takes the place of both. -/
theorem fuse {h' : Heap} {s t : Nat} (hl : Laid h (pre ++ ⟨s, false⟩ :: ⟨t, false⟩ :: post)) (hlfree : h'.lfree = h.lfree)
    (hram : h'.ram = Function.update (Function.update h.ram (extent pre) { h.ram (extent pre) with next := extent pre + s + t })
      (extent pre + s + t) { h.ram (extent pre + s + t) with prev := extent pre }) :
    Laid h' (pre ++ ⟨s + t, false⟩ :: post) := by
  have hs := hl.size_at
  have ht : Sized t := hl.sized ⟨t, false⟩ (by simp)
  have hpos := hs.pos
  have htpos := ht.pos
  have hstart := hl.struct_at
  dsimp only at hs hpos hstart
  have hext : extent [⟨s, false⟩, ⟨t, false⟩] = s + t := by simp
  refine ⟨Formed.splice [⟨s, false⟩, ⟨t, false⟩] [⟨s + t, false⟩] hl.toFormed (by simp) ?_ ?_ ?_ ?_ ?_, ?_⟩
  · simpa using hs.add ht
  · intro x hx
    rw [hram, Function.update_of_ne (by omega), Function.update_of_ne (by omega)]
  · refine ⟨?_, trivial⟩
    rw [hram, Function.update_of_ne (by omega), Function.update_self, hstart]
    simp [Nat.add_assoc]
  · refine ⟨extent pre, ?_, fun _ => rfl⟩
    rw [hext, ← Nat.add_assoc, hram, Function.update_self]
  · intro x hx
    rw [hext] at hx
    rw [hram, Function.update_of_ne (by omega), Function.update_of_ne (by omega)]
  · rw [hlfree, hl.lfree]
    exact firstUnused_unused 0 pre rfl rfl _ _

/-! ## `mem_free` -/

theorem forward {s : Nat} (hl : Laid h (pre ++ ⟨s, false⟩ :: post)) :
    ∃ s' post', Laid (plug_holes_forward h (extent pre)) (pre ++ ⟨s', false⟩ :: post') ∧
      coalesce (pre ++ ⟨s', false⟩ :: post') = coalesce (pre ++ ⟨s, false⟩ :: post) ∧
      (Separated post → Separated (⟨s', false⟩ :: post')) ∧
      WritesAt h (plug_holes_forward h (extent pre)) (pre ++ ⟨s, false⟩ :: post) ∧
      (∀ x, Boundary (pre ++ ⟨s', false⟩ :: post') x → Boundary (pre ++ ⟨s, false⟩ :: post) x) := by
  have hs := hl.size_at.pos
  have hstart := hl.struct_at
  unfold plug_holes_forward
  rw [hstart]
  dsimp only at hs ⊢
  cases post with
  | nil =>
    have hend := hl.seam_end
    dsimp only at hend
    rw [if_neg (by rw [hend]; simp)]
    exact ⟨s, [], hl, rfl, fun _ => trivial, writes_refl h _, fun _ hx => hx⟩
  | cons c post =>
    have hnext := hl.next_struct
    have hseam := hl.seam [⟨s, false⟩] (List.cons_ne_nil c post)
    rw [extent_cons, extent_nil] at hseam
    dsimp only at hnext hseam
    rw [hnext]
    obtain ⟨t, u⟩ := c
    cases u with
    | true =>
      rw [if_neg (by simp)]
      exact ⟨s, _, hl, rfl, fun h => ⟨Or.inr rfl, h⟩, writes_refl h _, fun _ hx => hx⟩
    | false =>
      have hlfree : h.lfree ≠ extent pre + s := by
        have hle := firstUnused_unused_le 0 pre (b := ⟨s, false⟩) rfl (⟨t, false⟩ :: post)
        rw [hl.lfree]
        omega
      rw [if_pos ⟨by omega, rfl, by omega⟩, if_neg hlfree]
      have hmem : ((h.modify (extent pre) (fun m => { m with next := extent pre + s + t })).ram (extent pre + s)).next =
          extent pre + s + t := by
        rw [Heap.modify_ne _ (by omega), hnext]
      have hnn : (h.ram (extent pre + s)).next = extent pre + s + t := by rw [hnext]
      simp only [hnn, hmem]
      refine ⟨s + t, post, hl.fuse rfl ?_, (coalesce_merge pre post s t).symm, fun h => ?_, ?_, ?_⟩
      · simp only [Heap.modify]
        rw [Function.update_of_ne (by omega : extent pre + s + t ≠ extent pre)]
      · cases post with
        | nil => exact trivial
        | cons d post => exact ⟨Or.inr (h.1.resolve_left Bool.false_ne_true), h.2⟩
      · exact (writes_modify (boundary_append _ _)).trans (writes_modify (boundary_next_next pre post ⟨s, false⟩ ⟨t, false⟩))
      · exact fun _ hx => hx.of_merge

theorem backward {s : Nat} (hl : Laid h (pre ++ ⟨s, false⟩ :: post)) (hpre : Separated pre)
    (hpost : Separated (⟨s, false⟩ :: post)) :
    ∃ bs, Laid (plug_holes_backward h (extent pre)) bs ∧ Separated bs ∧
      coalesce bs = coalesce (pre ++ ⟨s, false⟩ :: post) ∧
      WritesAt h (plug_holes_backward h (extent pre)) (pre ++ ⟨s, false⟩ :: post) := by
  have hs := hl.size_at.pos
  have hstart := hl.struct_at
  unfold plug_holes_backward
  rw [hstart]
  dsimp only at hs ⊢
  rcases List.eq_nil_or_concat pre with rfl | ⟨pre, c, rfl⟩
  · rw [if_neg (by simp [lastAt])]
    exact ⟨_, hl, hpost, rfl, writes_refl h _⟩
  · rw [List.concat_eq_append] at hl hpre ⊢
    rw [List.append_assoc, List.singleton_append] at hl ⊢
    simp only [lastAt_concat, extent_append, extent_cons, extent_nil, Nat.zero_add, Nat.add_zero]
    have hc := hl.pos c (by simp)
    have hprev := hl.struct_at
    rw [hprev]
    obtain ⟨t, u⟩ := c
    cases u with
    | true =>
      rw [if_neg (by simp)]
      exact ⟨_, hl, separated_append.mpr ⟨hpre, Or.inl rfl, hpost⟩, rfl, writes_refl h _⟩
    | false =>
      have hlfree : h.lfree ≠ extent pre + t := by
        have hle := firstUnused_unused_le 0 pre (b := ⟨t, false⟩) rfl (⟨s, false⟩ :: post)
        dsimp only at hc
        rw [hl.lfree]
        omega
      have hmem := hl.next_struct
      dsimp only at hc hmem
      dsimp only
      rw [if_pos ⟨by omega, rfl⟩, if_neg hlfree]
      have hnext : ((h.modify (extent pre) (fun m => { m with next := extent pre + t + s })).ram (extent pre + t)).next =
          extent pre + t + s := by
        rw [Heap.modify_ne _ (by omega), hmem]
      have hnn : (h.ram (extent pre + t)).next = extent pre + t + s := by rw [hmem]
      simp only [hnn, hnext]
      refine ⟨pre ++ ⟨t + s, false⟩ :: post, hl.fuse rfl ?_, ?_, (coalesce_merge pre post t s).symm, ?_⟩
      · simp only [Heap.modify]
        rw [Function.update_of_ne (by omega : extent pre + t + s ≠ extent pre)]
      · cases post with
        | nil => exact hpre.concat_unused
        | cons d post =>
          exact separated_append.mpr ⟨hpre.concat_unused, Or.inr (hpost.1.resolve_left Bool.false_ne_true), hpost.2⟩
      · exact (writes_modify (boundary_append _ _)).trans (writes_modify (boundary_next_next pre post ⟨t, false⟩ ⟨s, false⟩))

/-- `mem->used` is written. -/
theorem mark {h' : Heap} {s : Nat} {u v : Bool} (hl : Laid h (pre ++ ⟨s, u⟩ :: post))
    (hram : h'.ram = Function.update h.ram (extent pre) { h.ram (extent pre) with used := v })
    (hlfree : h'.lfree = firstUnused 0 (pre ++ ⟨s, v⟩ :: post)) : Laid h' (pre ++ ⟨s, v⟩ :: post) := by
  have hs := hl.size_at
  have hpos := hs.pos
  have hstart := hl.struct_at
  dsimp only at hs hpos hstart
  refine ⟨Formed.splice [⟨s, u⟩] [⟨s, v⟩] hl.toFormed rfl (by simpa using hs) ?_ ?_ ?_ ?_, hlfree⟩
  · intro x hx
    rw [hram]
    exact Function.update_of_ne (by omega) _ _
  · refine ⟨?_, trivial⟩
    simp [hram, hstart]
  · obtain ⟨q, hq, hlast⟩ := hl.seam_prev
    refine ⟨q, ?_, hlast⟩
    simp only [extent_cons, extent_nil, Nat.add_zero]
    rw [hram, Function.update_of_ne (by omega)]
    exact hq
  · intro x hx
    simp only [extent_cons, extent_nil, Nat.add_zero] at hx
    rw [hram]
    exact Function.update_of_ne (by omega) _ _

theorem mem_free_mark_ram (h : Heap) (k : Nat) :
    (mem_free_mark h k).ram = Function.update h.ram k { h.ram k with used := false } := by
  unfold mem_free_mark
  dsimp only
  split <;> rfl

/-- The lowest unused block after one was freed. -/
theorem mem_free_mark_lfree {s : Nat} (hl : Laid h (pre ++ ⟨s, true⟩ :: post)) :
    (mem_free_mark h (extent pre)).lfree = firstUnused 0 (pre ++ ⟨s, false⟩ :: post) := by
  have hs := hl.size_at.pos
  dsimp only at hs
  have hold := hl.lfree
  unfold mem_free_mark Heap.modify
  dsimp only
  rcases all_used_or pre with hused | ⟨b, hb, hun⟩
  · rw [firstUnused_append_used 0 hused, Nat.zero_add] at hold ⊢
    have hle : extent pre + s ≤ firstUnused (extent pre) (⟨s, true⟩ :: post) := le_firstUnused _ _
    rw [if_pos (by omega)]
    rfl
  · have hlt := firstUnused_lt (o := 0) (fun c hc => hl.pos c (by simp [hc])) hb hun
    rw [firstUnused_append_unused 0 hb hun] at hold ⊢
    rw [if_neg (by omega), hold]

/-- `mem_free` of a block in use marks it unused and joins it with its unused neighbours. -/
theorem mem_free_spec {s : Nat} (hl : Laid h (pre ++ ⟨s, true⟩ :: post)) (hsep : Separated (pre ++ ⟨s, true⟩ :: post)) :
    ∃ h', mem_free h (some (extent pre + SIZEOF_STRUCT_MEM)) = some h' ∧
      Laid h' (coalesce (pre ++ ⟨s, false⟩ :: post)) ∧ WritesAt h h' (pre ++ ⟨s, true⟩ :: post) := by
  have hs := hl.size_at
  have hbound := hl.bound
  have hstart := hl.struct_at
  have hal := hl.aligned
  have hmark := hl.mark (mem_free_mark_ram h (extent pre)) hl.mem_free_mark_lfree
  have hwrite : WritesAt h (mem_free_mark h (extent pre)) (pre ++ ⟨s, true⟩ :: post) := by
    intro x hx
    rw [mem_free_mark_ram] at hx
    exact writes_modify (f := fun m => { m with used := false }) (boundary_append _ _) x hx
  obtain ⟨s', post', hfwd, hco, hsep', hwf, hbd⟩ := hmark.forward
  obtain ⟨bs, hbwd, hbs, hco', hwb⟩ := hfwd.backward (separated_left hsep).front (hsep' hsep.suffix.tail)
  have hm := hmark.struct_at
  dsimp only at hs hbound hstart hm
  unfold Sized SIZEOF_STRUCT_MEM MIN_SIZE_ALIGNED at hs
  refine ⟨plug_holes_backward (plug_holes_forward (mem_free_mark h (extent pre)) (extent pre)) (extent pre), ?_, ?_, ?_⟩
  · have hend : ram_end = MEM_SIZE_ALIGNED := rfl
    simp only [mem_free, Nat.add_sub_cancel, hstart]
    rw [if_neg (by unfold MEM_ALIGNMENT SIZEOF_STRUCT_MEM at *; omega), if_neg (by unfold SIZEOF_STRUCT_MEM; omega),
      if_neg (by simp), plug_holes, if_pos]
    rw [hm]
    exact ⟨by omega, rfl, by dsimp only; omega⟩
  · rw [← hco, ← hco', coalesce_eq hbs]
    exact hbwd
  · exact (hwrite.trans (fun x hx => (hwf x hx).mark)).trans (fun x hx => (hbd x (hwb x hx)).mark)

end Laid

end MultiIp.Lwip
