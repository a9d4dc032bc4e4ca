import Mathlib.Data.List.Pairwise
import Mathlib.Tactic.Common

/-!
# First fit

A heap as the list of its blocks, in the order of their addresses. A block is its
header and the data behind it. Unused neighbours are joined, and a request takes
the first unused block with room for it.
-/

namespace MultiIp.Lib

structure Block where
  /-- With the header. -/
  size : Nat
  used : Bool
  deriving DecidableEq

namespace FirstFit

/-- How far the blocks reach. -/
def extent : List Block → Nat
  | [] => 0
  | b :: bs => b.size + extent bs

@[simp] theorem extent_nil : extent [] = 0 := rfl

@[simp] theorem extent_cons (b : Block) (bs : List Block) : extent (b :: bs) = b.size + extent bs := rfl

@[simp] theorem extent_append (bs cs : List Block) : extent (bs ++ cs) = extent bs + extent cs := by
  induction bs with
  | nil => simp
  | cons b bs ih => simp [ih, Nat.add_assoc]

theorem size_le_extent {b : Block} {bs : List Block} (h : b ∈ bs) : b.size ≤ extent bs := by
  obtain ⟨pre, post, rfl⟩ := List.append_of_mem h
  rw [extent_append, extent_cons]
  omega

/-- Where a block begins or ends. -/
def Boundary (bs : List Block) (x : Nat) : Prop := ∃ pre post, bs = pre ++ post ∧ x = extent pre

theorem boundary_append (pre post : List Block) : Boundary (pre ++ post) (extent pre) := ⟨pre, post, rfl, rfl⟩

theorem boundary_cons {b : Block} {bs : List Block} {x : Nat} :
    Boundary (b :: bs) x ↔ x = 0 ∨ ∃ y, Boundary bs y ∧ x = b.size + y := by
  constructor
  · rintro ⟨pre, post, heq, rfl⟩
    cases pre with
    | nil => exact Or.inl rfl
    | cons c pre =>
      obtain ⟨rfl, rfl⟩ := List.cons.inj heq
      exact Or.inr ⟨extent pre, boundary_append pre post, by simp⟩
  · rintro (rfl | ⟨y, ⟨pre, post, rfl, rfl⟩, rfl⟩)
    · exact ⟨[], _, rfl, rfl⟩
    · exact ⟨b :: pre, post, rfl, by simp⟩

theorem Boundary.mark {pre post : List Block} {s x : Nat} {u v : Bool} (h : Boundary (pre ++ ⟨s, u⟩ :: post) x) :
    Boundary (pre ++ ⟨s, v⟩ :: post) x := by
  induction pre generalizing x with
  | nil =>
    rcases boundary_cons.mp h with rfl | ⟨y, hy, rfl⟩
    · exact boundary_cons.mpr (Or.inl rfl)
    · exact boundary_cons.mpr (Or.inr ⟨y, hy, rfl⟩)
  | cons b pre ih =>
    rcases boundary_cons.mp h with rfl | ⟨y, hy, rfl⟩
    · exact boundary_cons.mpr (Or.inl rfl)
    · exact boundary_cons.mpr (Or.inr ⟨y, ih hy, rfl⟩)

/-- Joining two blocks adds no boundary. -/
theorem Boundary.of_merge {pre post : List Block} {s t x : Nat} {u v w : Bool}
    (h : Boundary (pre ++ ⟨s + t, u⟩ :: post) x) : Boundary (pre ++ ⟨s, v⟩ :: ⟨t, w⟩ :: post) x := by
  induction pre generalizing x with
  | nil =>
    rcases boundary_cons.mp h with rfl | ⟨y, hy, rfl⟩
    · exact boundary_cons.mpr (Or.inl rfl)
    · exact boundary_cons.mpr (Or.inr ⟨t + y, boundary_cons.mpr (Or.inr ⟨y, hy, rfl⟩), Nat.add_assoc s t y⟩)
  | cons b pre ih =>
    rcases boundary_cons.mp h with rfl | ⟨y, hy, rfl⟩
    · exact boundary_cons.mpr (Or.inl rfl)
    · exact boundary_cons.mpr (Or.inr ⟨y, ih hy, rfl⟩)

/-- A boundary lies in no block. -/
theorem Boundary.outside {pre post : List Block} {b : Block} {x : Nat} (h : Boundary (pre ++ b :: post) x) :
    x ≤ extent pre ∨ extent pre + b.size ≤ x := by
  obtain ⟨cs, ds, heq, rfl⟩ := h
  rcases List.append_eq_append_iff.mp heq with ⟨es, rfl, hes⟩ | ⟨es, rfl, -⟩
  · cases es with
    | nil => simp
    | cons e es =>
      obtain ⟨rfl, -⟩ := List.cons.inj hes
      refine Or.inr ?_
      simp
  · rw [extent_append]
    exact Or.inl (Nat.le_add_right _ _)

/-- Where the blocks begin. -/
def starts : Nat → List Block → List Nat
  | _, [] => []
  | o, b :: bs => o :: starts (o + b.size) bs

@[simp] theorem starts_length (o : Nat) (bs : List Block) : (starts o bs).length = bs.length := by
  induction bs generalizing o with
  | nil => rfl
  | cons b bs ih => simp [starts, ih]

theorem mem_starts {o k : Nat} {bs : List Block} :
    k ∈ starts o bs ↔ ∃ pre b post, bs = pre ++ b :: post ∧ k = o + extent pre := by
  induction bs generalizing o with
  | nil => simp [starts]
  | cons b bs ih =>
    rw [starts, List.mem_cons, ih]
    constructor
    · rintro (rfl | ⟨pre, c, post, rfl, rfl⟩)
      · exact ⟨[], b, bs, rfl, rfl⟩
      · exact ⟨b :: pre, c, post, rfl, by rw [extent_cons, Nat.add_assoc]⟩
    · rintro ⟨pre, c, post, heq, rfl⟩
      cases pre with
      | nil => exact Or.inl rfl
      | cons d pre =>
        obtain ⟨rfl, rfl⟩ := List.cons.inj heq
        exact Or.inr ⟨pre, c, post, rfl, by rw [extent_cons, Nat.add_assoc]⟩

/-! ## Joining neighbours -/

/-- No two unused blocks lie side by side. -/
def Separated : List Block → Prop
  | [] => True
  | [_] => True
  | a :: b :: bs => (a.used = true ∨ b.used = true) ∧ Separated (b :: bs)

def join (b : Block) : List Block → List Block
  | [] => [b]
  | c :: cs => if b.used || c.used then b :: c :: cs else ⟨b.size + c.size, false⟩ :: cs

def coalesce : List Block → List Block
  | [] => []
  | b :: bs => join b (coalesce bs)

theorem Separated.tail {b : Block} {bs : List Block} (h : Separated (b :: bs)) : Separated bs := by
  cases bs with
  | nil => exact trivial
  | cons c bs => exact h.2

theorem Separated.suffix {bs cs : List Block} (h : Separated (bs ++ cs)) : Separated cs := by
  induction bs with
  | nil => exact h
  | cons b bs ih => exact ih h.tail

/-- Two lists of blocks fit together if one of the blocks at the seam is used. -/
theorem separated_append {bs cs : List Block} {a b : Block} :
    Separated (bs ++ a :: b :: cs) ↔ Separated (bs ++ [a]) ∧ (a.used = true ∨ b.used = true) ∧ Separated (b :: cs) := by
  induction bs with
  | nil => simp [Separated]
  | cons c bs ih =>
    cases bs with
    | nil => simp [Separated]
    | cons d bs =>
      simp only [List.cons_append, Separated, and_assoc] at ih ⊢
      rw [ih]

theorem Separated.concat_used {bs : List Block} {a : Block} (h : Separated (bs ++ [a])) (s : Nat) :
    Separated (bs ++ [⟨s, true⟩]) := by
  induction bs with
  | nil => exact trivial
  | cons b bs ih =>
    cases bs with
    | nil => exact ⟨Or.inr rfl, trivial⟩
    | cons c bs => exact ⟨h.1, ih h.2⟩

/-- The size of a block does not matter. -/
theorem Separated.concat_unused {bs : List Block} {m n : Nat} (h : Separated (bs ++ [⟨m, false⟩])) :
    Separated (bs ++ [⟨n, false⟩]) := by
  induction bs with
  | nil => exact trivial
  | cons b bs ih =>
    cases bs with
    | nil => exact ⟨h.1, trivial⟩
    | cons c bs => exact ⟨h.1, ih h.2⟩

theorem Separated.front {bs : List Block} {a : Block} (h : Separated (bs ++ [a])) : Separated bs := by
  induction bs with
  | nil => exact trivial
  | cons b bs ih =>
    cases bs with
    | nil => exact trivial
    | cons c bs => exact ⟨h.1, ih h.2⟩

theorem separated_left {pre post : List Block} {b : Block} (h : Separated (pre ++ b :: post)) : Separated (pre ++ [b]) := by
  cases post with
  | nil => exact h
  | cons c post => exact (separated_append.mp h).1

theorem separated_join {b : Block} {bs : List Block} (h : Separated bs) : Separated (join b bs) := by
  cases bs with
  | nil => exact trivial
  | cons c cs =>
    rw [join]
    split
    · rename_i hused
      exact ⟨by simpa using hused, h⟩
    · cases cs with
      | nil => exact trivial
      | cons d cs =>
        rename_i hunused
        simp only [Bool.or_eq_true, not_or, Bool.not_eq_true] at hunused
        exact ⟨Or.inr (h.1.resolve_left (by simp [hunused.2])), h.2⟩

theorem separated_coalesce (bs : List Block) : Separated (coalesce bs) := by
  induction bs with
  | nil => exact trivial
  | cons b bs ih => exact separated_join ih

theorem coalesce_eq {bs : List Block} (h : Separated bs) : coalesce bs = bs := by
  induction bs with
  | nil => rfl
  | cons b bs ih =>
    rw [coalesce, ih h.tail]
    cases bs with
    | nil => rfl
    | cons c cs =>
      have hused := h.1
      rw [join, if_pos (by simpa using hused)]

/-- Joining two unused neighbours first does not change the result. -/
theorem coalesce_merge (pre post : List Block) (m n : Nat) :
    coalesce (pre ++ ⟨m, false⟩ :: ⟨n, false⟩ :: post) = coalesce (pre ++ ⟨m + n, false⟩ :: post) := by
  induction pre with
  | nil =>
    simp only [List.nil_append, coalesce]
    cases coalesce post with
    | nil => simp [join]
    | cons c cs =>
      cases hc : c.used <;> simp [join, hc, Nat.add_assoc]
  | cons b pre ih => rw [List.cons_append, List.cons_append, coalesce, coalesce, ih]

@[simp] theorem extent_join (b : Block) (bs : List Block) : extent (join b bs) = b.size + extent bs := by
  cases bs with
  | nil => rfl
  | cons c cs =>
    rw [join]
    split
    · rfl
    · simp [Nat.add_assoc]

@[simp] theorem extent_coalesce (bs : List Block) : extent (coalesce bs) = extent bs := by
  induction bs with
  | nil => rfl
  | cons b bs ih => rw [coalesce, extent_join, ih, extent_cons]

/-- Separated blocks none of which is used are at most one block. -/
theorem eq_singleton_of_unused {bs : List Block} (h : Separated bs) (hun : ∀ b ∈ bs, b.used = false) (hne : bs ≠ []) :
    bs = [⟨extent bs, false⟩] := by
  match bs, h, hun, hne with
  | [], _, _, hne => exact absurd rfl hne
  | [b], _, hun, _ =>
    have hb := hun b List.mem_cons_self
    cases b
    simp_all
  | a :: b :: bs, h, hun, _ =>
    have ha := hun a List.mem_cons_self
    have hb := hun b (List.mem_cons_of_mem a List.mem_cons_self)
    simp [Separated, ha, hb] at h

/-! ## The first unused block -/

/-- Where the first unused block begins, or where the blocks end. -/
def firstUnused : Nat → List Block → Nat
  | o, [] => o
  | o, b :: bs => if b.used then firstUnused (o + b.size) bs else o

theorem firstUnused_append_used (o : Nat) {pre : List Block} (h : ∀ b ∈ pre, b.used = true) (bs : List Block) :
    firstUnused o (pre ++ bs) = firstUnused (o + extent pre) bs := by
  induction pre generalizing o with
  | nil => rfl
  | cons b pre ih =>
    rw [List.cons_append, firstUnused, if_pos (h b List.mem_cons_self),
      ih (o + b.size) (fun c hc => h c (List.mem_cons_of_mem b hc)), extent_cons, Nat.add_assoc]

/-- Behind an unused block nothing counts. -/
theorem firstUnused_append_unused (o : Nat) {pre : List Block} {b : Block} (hb : b ∈ pre) (hun : b.used = false)
    (bs : List Block) : firstUnused o (pre ++ bs) = firstUnused o pre := by
  induction pre generalizing o with
  | nil => exact absurd hb List.not_mem_nil
  | cons c pre ih =>
    rw [List.cons_append, firstUnused, firstUnused]
    split
    · rename_i hused
      rcases List.mem_cons.mp hb with rfl | hb
      · rw [hun] at hused
        cases hused
      · exact ih _ hb
    · rfl

/-- The used blocks in front of the first unused one. -/
theorem firstUnused_split (o : Nat) (bs : List Block) :
    ∃ pre rest, bs = pre ++ rest ∧ (∀ b ∈ pre, b.used = true) ∧ firstUnused o bs = o + extent pre ∧
      ∀ b ∈ rest.head?, b.used = false := by
  induction bs generalizing o with
  | nil => exact ⟨[], [], rfl, by simp, rfl, by simp⟩
  | cons b bs ih =>
    rw [firstUnused]
    split
    · rename_i hused
      obtain ⟨pre, rest, rfl, hpre, hfirst, hrest⟩ := ih (o + b.size)
      refine ⟨b :: pre, rest, rfl, ?_, by rw [hfirst, extent_cons, Nat.add_assoc], hrest⟩
      rintro c (_ | ⟨_, hc⟩)
      · exact hused
      · exact hpre c hc
    · rename_i hunused
      exact ⟨[], b :: bs, rfl, by simp, rfl, by simpa using hunused⟩

theorem le_firstUnused (o : Nat) (bs : List Block) : o ≤ firstUnused o bs := by
  induction bs generalizing o with
  | nil => exact Nat.le_refl _
  | cons b bs ih =>
    have := ih (o + b.size)
    rw [firstUnused]
    split <;> omega

theorem firstUnused_lt {o : Nat} {pre : List Block} {b : Block} (hpos : ∀ c ∈ pre, 0 < c.size) (hb : b ∈ pre)
    (hun : b.used = false) : firstUnused o pre < o + extent pre := by
  induction pre generalizing o with
  | nil => exact absurd hb List.not_mem_nil
  | cons c pre ih =>
    have hc := hpos c List.mem_cons_self
    rw [firstUnused, extent_cons]
    split
    · rename_i hused
      rcases List.mem_cons.mp hb with rfl | hb
      · rw [hun] at hused
        cases hused
      · have := ih (o := o + c.size) (fun d hd => hpos d (List.mem_cons_of_mem c hd)) hb
        omega
    · omega

section Unused

variable (o : Nat) (pre : List Block) {b c : Block}

theorem firstUnused_unused (hb : b.used = false) (hc : c.used = false) (bs cs : List Block) :
    firstUnused o (pre ++ b :: bs) = firstUnused o (pre ++ c :: cs) := by
  induction pre generalizing o with
  | nil => simp [firstUnused, hb, hc]
  | cons d pre ih => rw [List.cons_append, List.cons_append, firstUnused, firstUnused, ih]

theorem firstUnused_unused_le (hb : b.used = false) (bs : List Block) :
    firstUnused o (pre ++ b :: bs) ≤ o + extent pre := by
  induction pre generalizing o with
  | nil => simp [firstUnused, hb]
  | cons d pre ih =>
    have := ih (o + d.size)
    rw [List.cons_append, firstUnused, extent_cons]
    split <;> omega

end Unused

/-- All blocks are used, or one is not. -/
theorem all_used_or (bs : List Block) : (∀ b ∈ bs, b.used = true) ∨ ∃ b ∈ bs, b.used = false := by
  by_cases h : ∃ b ∈ bs, b.used = false
  · exact Or.inr h
  · exact Or.inl (fun b hb => Bool.of_not_eq_false (fun hun => h ⟨b, hb, hun⟩))

/-! ## Taking a block -/

section Alloc

variable (hd mn : Nat)

def fits (need : Nat) (b : Block) : Bool := !b.used && hd + need ≤ b.size

/-- The block is split if the rest can be a block with `mn` bytes of data. -/
def place (need : Nat) (b : Block) : List Block :=
  if hd + need + (hd + mn) ≤ b.size then [⟨hd + need, true⟩, ⟨b.size - (hd + need), false⟩] else [⟨b.size, true⟩]

/-- Returns the distance of the block from the start of the heap. -/
def alloc (need : Nat) : List Block → Option (Nat × List Block)
  | [] => none
  | b :: bs =>
    if fits hd need b then some (0, place hd mn need b ++ bs)
    else (alloc need bs).map (fun r => (b.size + r.1, b :: r.2))

variable {hd mn}

theorem alloc_eq_none {need : Nat} {bs : List Block} : alloc hd mn need bs = none ↔ ∀ b ∈ bs, fits hd need b = false := by
  induction bs with
  | nil => simp [alloc]
  | cons b bs ih =>
    unfold alloc
    split <;> simp_all

/-- The block that is taken is the first that fits. -/
theorem alloc_eq_some {need : Nat} {bs : List Block} {r : Nat × List Block} (h : alloc hd mn need bs = some r) :
    ∃ pre b post, bs = pre ++ b :: post ∧ r = (extent pre, pre ++ (place hd mn need b ++ post)) ∧
      fits hd need b = true ∧ ∀ c ∈ pre, fits hd need c = false := by
  induction bs generalizing r with
  | nil => cases h
  | cons b bs ih =>
    unfold alloc at h
    split at h
    · rename_i hfits
      cases h
      exact ⟨[], b, bs, rfl, rfl, hfits, by simp⟩
    · rename_i hfits
      obtain ⟨r', hr', rfl⟩ := Option.map_eq_some_iff.mp h
      obtain ⟨pre, c, post, rfl, rfl, hc, hpre⟩ := ih hr'
      refine ⟨b :: pre, c, post, rfl, by simp, hc, ?_⟩
      rintro d (_ | ⟨_, hd⟩)
      · simpa using hfits
      · exact hpre d hd

theorem alloc_append {need : Nat} {pre : List Block} (hpre : ∀ c ∈ pre, fits hd need c = false) (bs : List Block) :
    alloc hd mn need (pre ++ bs) = (alloc hd mn need bs).map (fun r => (extent pre + r.1, pre ++ r.2)) := by
  induction pre with
  | nil => simp
  | cons c pre ih =>
    rw [List.cons_append, alloc, if_neg (by simp [hpre c List.mem_cons_self]),
      ih (fun d hd => hpre d (List.mem_cons_of_mem c hd)), Option.map_map]
    simp [Function.comp_def, Nat.add_assoc]

/-- What is left of a block is unused, but its neighbour is not. -/
theorem separated_place {need : Nat} {pre post : List Block} {b : Block} (h : Separated (pre ++ b :: post))
    (hfits : fits hd need b = true) : Separated (pre ++ (place hd mn need b ++ post)) := by
  have hunused : b.used = false := by simp [fits] at hfits; exact hfits.1
  have hpre := separated_left h
  unfold place
  split
  · refine separated_append.mpr ⟨hpre.concat_used _, Or.inl rfl, ?_⟩
    cases post with
    | nil => exact trivial
    | cons c post =>
      obtain ⟨-, hused, hpost⟩ := separated_append.mp h
      exact ⟨Or.inr (hused.resolve_left (by simp [hunused])), hpost⟩
  · cases post with
    | nil => exact hpre.concat_used _
    | cons c post => exact separated_append.mpr ⟨hpre.concat_used _, Or.inl rfl, (separated_append.mp h).2.2⟩

end Alloc

/-! ## Blocks in use -/

/-- The blocks in use, with their distances from the start. -/
def inUse : Nat → List Block → List (Nat × Nat)
  | _, [] => []
  | o, b :: bs => if b.used then (o, b.size) :: inUse (o + b.size) bs else inUse (o + b.size) bs

theorem inUse_append (o : Nat) (bs cs : List Block) : inUse o (bs ++ cs) = inUse o bs ++ inUse (o + extent bs) cs := by
  induction bs generalizing o with
  | nil => simp [inUse]
  | cons b bs ih =>
    rw [List.cons_append, inUse, inUse, ih, extent_cons, Nat.add_assoc]
    split <;> rfl

theorem inUse_join (o : Nat) (b : Block) (bs : List Block) : inUse o (join b bs) = inUse o (b :: bs) := by
  cases bs with
  | nil => rfl
  | cons c cs =>
    rw [join]
    split
    · rfl
    · rename_i hunused
      simp only [Bool.or_eq_true, not_or, Bool.not_eq_true] at hunused
      simp [inUse, hunused.1, hunused.2, Nat.add_assoc]

/-- Joining unused blocks does not touch those in use. -/
theorem inUse_coalesce (o : Nat) (bs : List Block) : inUse o (coalesce bs) = inUse o bs := by
  induction bs generalizing o with
  | nil => rfl
  | cons b bs ih => rw [coalesce, inUse_join, inUse, inUse, ih]

theorem mem_inUse {o : Nat} {bs : List Block} {x : Nat × Nat} :
    x ∈ inUse o bs ↔ ∃ pre post, bs = pre ++ ⟨x.2, true⟩ :: post ∧ x.1 = o + extent pre := by
  induction bs generalizing o with
  | nil => simp [inUse]
  | cons b bs ih =>
    have hrest : x ∈ inUse (o + b.size) bs ↔
        ∃ pre post, b :: bs = (b :: pre) ++ ⟨x.2, true⟩ :: post ∧ x.1 = o + extent (b :: pre) := by
      simp [ih, Nat.add_assoc]
    constructor
    · intro hx
      rw [inUse] at hx
      split at hx
      · rename_i hused
        rcases List.mem_cons.mp hx with rfl | hx
        · refine ⟨[], bs, ?_, rfl⟩
          cases b
          simp_all
        · obtain ⟨pre, post, h1, h2⟩ := hrest.mp hx
          exact ⟨_, _, h1, h2⟩
      · obtain ⟨pre, post, h1, h2⟩ := hrest.mp hx
        exact ⟨_, _, h1, h2⟩
    · rintro ⟨pre, post, heq, hx⟩
      rw [inUse]
      cases pre with
      | nil =>
        obtain ⟨rfl, rfl⟩ := List.cons.inj heq
        rw [if_pos rfl, show x = (o, x.2) from Prod.ext hx rfl]
        exact List.mem_cons_self
      | cons c pre =>
        obtain ⟨rfl, rfl⟩ := List.cons.inj heq
        have hmem := hrest.mpr ⟨pre, post, rfl, hx⟩
        split
        · exact List.mem_cons_of_mem _ hmem
        · exact hmem

theorem inUse_bounds {o : Nat} {bs : List Block} {x : Nat × Nat} (h : x ∈ inUse o bs) :
    o ≤ x.1 ∧ x.1 + x.2 ≤ o + extent bs := by
  obtain ⟨pre, post, rfl, hx⟩ := mem_inUse.mp h
  simp
  omega

/-- No two blocks in use overlap. -/
theorem inUse_disjoint (o : Nat) (bs : List Block) : (inUse o bs).Pairwise (fun x y => x.1 + x.2 ≤ y.1) := by
  induction bs generalizing o with
  | nil => exact List.Pairwise.nil
  | cons b bs ih =>
    unfold inUse
    split
    · exact List.pairwise_cons.mpr ⟨fun y hy => (inUse_bounds hy).1, ih _⟩
    · exact ih _

/-- Two stretches without a byte in common. -/
def Apart (x y : Nat × Nat) : Prop := x.1 + x.2 ≤ y.1 ∨ y.1 + y.2 ≤ x.1

theorem inUse_apart {o : Nat} {bs : List Block} {x y : Nat × Nat} (hx : x ∈ inUse o bs) (hy : y ∈ inUse o bs)
    (hne : x ≠ y) : Apart x y := by
  have : Std.Symm Apart := ⟨fun _ _ h => h.symm⟩
  have hall : (inUse o bs).Pairwise Apart := (inUse_disjoint o bs).imp (fun hle => Or.inl hle)
  exact hall.forall hx hy hne

theorem inUse_pos {o : Nat} {bs : List Block} (hpos : ∀ b ∈ bs, 0 < b.size) {x : Nat × Nat} (hx : x ∈ inUse o bs) :
    0 < x.2 := by
  obtain ⟨pre, post, rfl, -⟩ := mem_inUse.mp hx
  exact hpos ⟨x.2, true⟩ (by simp)

theorem inUse_fst_nodup (o : Nat) {bs : List Block} (hpos : ∀ b ∈ bs, 0 < b.size) : ((inUse o bs).map Prod.fst).Nodup := by
  refine List.pairwise_map.mpr ((inUse_disjoint o bs).imp_of_mem (fun {x y} hx _ hle => ?_))
  have := inUse_pos hpos hx
  omega

/-- A block in use beside the others. -/
theorem inUse_used (pre post : List Block) (s : Nat) :
    inUse 0 (pre ++ ⟨s, true⟩ :: post) = inUse 0 pre ++ (extent pre, s) :: inUse (extent pre + s) post := by
  rw [inUse_append, inUse, if_pos rfl, Nat.zero_add]

theorem inUse_unused (pre post : List Block) {b : Block} (hb : b.used = false) :
    inUse 0 (pre ++ b :: post) = inUse 0 pre ++ inUse (extent pre + b.size) post := by
  rw [inUse_append, inUse, if_neg (by simp [hb]), Nat.zero_add]

/-- Taking a block adds it to those in use. -/
theorem inUse_alloc {hd mn need : Nat} {bs : List Block} {r : Nat × List Block} (h : alloc hd mn need bs = some r) :
    ∃ l₁ l₂ s, inUse 0 bs = l₁ ++ l₂ ∧ inUse 0 r.2 = l₁ ++ (r.1, s) :: l₂ ∧ hd + need ≤ s := by
  obtain ⟨pre, b, post, rfl, rfl, hfits, -⟩ := alloc_eq_some h
  simp only [fits, Bool.and_eq_true, Bool.not_eq_true', decide_eq_true_eq] at hfits
  refine ⟨inUse 0 pre, inUse (extent pre + b.size) post, if hd + need + (hd + mn) ≤ b.size then hd + need else b.size,
    inUse_unused pre post hfits.1, ?_, ?_⟩
  · unfold place
    split
    · rename_i hle
      have hsum : extent pre + (hd + need) + (b.size - (hd + need)) = extent pre + b.size := by omega
      rw [List.cons_append, List.cons_append, List.nil_append, inUse_used]
      simp [inUse, hsum]
    · rw [List.cons_append, List.nil_append, inUse_used]
  · split <;> omega

theorem inUse_eq_nil {o : Nat} {bs : List Block} (h : inUse o bs = []) : ∀ b ∈ bs, b.used = false := by
  intro b hb
  obtain ⟨pre, post, rfl⟩ := List.append_of_mem hb
  rw [inUse_append] at h
  have hcons := (List.append_eq_nil_iff.mp h).2
  rw [inUse] at hcons
  split at hcons
  · cases hcons
  · rename_i hunused
    simpa using hunused

end FirstFit

end MultiIp.Lib
