import Mathlib.Data.List.Nodup
import Mathlib.Logic.Function.Basic

/-!
# Linked lists in memory

A C list is a head pointer and a `next` field in every node. `Seg` says which
nodes a walk along `next` meets, `Chain` is a walk that ends in NULL, and the
rest of the file says what pushing, unlinking and moving a node do to it.
-/

namespace MultiIp.Lib

variable {α : Type*}

/-! ## Walks -/

/-- Following `next` from `h` meets the nodes of the list, in order, and arrives at `t`. -/
def Seg (next : α → Option α) : Option α → List α → Option α → Prop
  | h, [], t => h = t
  | h, a :: l, t => h = some a ∧ Seg next (next a) l t

/-- A list that ends in NULL. -/
def Chain (next : α → Option α) (h : Option α) (l : List α) : Prop := Seg next h l none

/-- The nodes that a loop `for (p = h; p != NULL; p = p->next)` visits in at most `fuel` rounds. -/
def walk (next : α → Option α) : Nat → Option α → List α
  | 0, _ => []
  | _ + 1, none => []
  | k + 1, some a => a :: walk next k (next a)

theorem walk_length_le (next : α → Option α) (fuel : Nat) (h : Option α) : (walk next fuel h).length ≤ fuel := by
  induction fuel generalizing h with
  | zero => cases h <;> exact Nat.le_refl 0
  | succ fuel ih =>
    cases h with
    | none => exact Nat.zero_le _
    | some a => exact Nat.succ_le_succ (ih (next a))

theorem seg_append (next : α → Option α) (h t : Option α) (l₁ l₂ : List α) :
    Seg next h (l₁ ++ l₂) t ↔ ∃ m, Seg next h l₁ m ∧ Seg next m l₂ t := by
  induction l₁ generalizing h with
  | nil => simp [Seg]
  | cons a l ih =>
    simp only [List.cons_append, Seg, ih]
    constructor
    · rintro ⟨rfl, m, h1, h2⟩
      exact ⟨m, ⟨rfl, h1⟩, h2⟩
    · rintro ⟨m, ⟨rfl, h1⟩, h2⟩
      exact ⟨rfl, m, h1, h2⟩

/-- A walk only reads the `next` fields of the nodes it meets. -/
theorem seg_congr {next next' : α → Option α} {h t : Option α} {l : List α}
    (heq : ∀ a ∈ l, next' a = next a) : Seg next' h l t ↔ Seg next h l t := by
  induction l generalizing h with
  | nil => rfl
  | cons a l ih =>
    simp only [Seg, heq a List.mem_cons_self]
    rw [ih (fun b hb => heq b (List.mem_cons_of_mem _ hb))]

theorem chain_unique {next : α → Option α} {h : Option α} {l l' : List α}
    (hl : Chain next h l) (hl' : Chain next h l') : l = l' := by
  induction l generalizing h l' with
  | nil =>
    cases l' with
    | nil => rfl
    | cons b l' =>
      have h1 : h = none := hl
      have h2 : h = some b := hl'.1
      simp [h1] at h2
  | cons a l ih =>
    cases l' with
    | nil =>
      have h1 : h = some a := hl.1
      have h2 : h = none := hl'
      simp [h1] at h2
    | cons b l' =>
      obtain ⟨rfl, htail⟩ := hl
      obtain ⟨hab, htail'⟩ := hl'
      obtain rfl : a = b := by simpa using hab
      rw [ih htail htail']

theorem walk_eq {next : α → Option α} {h : Option α} {l : List α} (hl : Chain next h l) {fuel : Nat}
    (hf : l.length ≤ fuel) : walk next fuel h = l := by
  induction l generalizing h fuel with
  | nil =>
    have : h = none := hl
    subst this
    cases fuel <;> rfl
  | cons a l ih =>
    obtain ⟨rfl, htail⟩ := hl
    cases fuel with
    | zero => simp at hf
    | succ k => rw [walk, ih htail (by simpa using hf)]

/-- A walk that ends meets no node twice: a repeated node would lead round for ever. -/
theorem chain_nodup {next : α → Option α} {h : Option α} {l : List α} (hl : Chain next h l) : l.Nodup := by
  induction l generalizing h with
  | nil => exact List.nodup_nil
  | cons a l ih =>
    obtain ⟨rfl, htail⟩ := hl
    refine List.nodup_cons.mpr ⟨?_, ih htail⟩
    intro ha
    obtain ⟨l₁, l₂, rfl⟩ := List.append_of_mem ha
    -- The walk from `next a` is `l₁ ++ a :: l₂`, but the walk from its `a` is `l₂`.
    obtain ⟨m, -, rfl, h2⟩ := (seg_append next _ _ _ _).mp htail
    have := congrArg List.length (chain_unique htail h2)
    simp at this
    omega

variable [DecidableEq α]

/-! ## Pushing -/

/-- `a->next = head; head = a`. -/
theorem chain_push {next : α → Option α} {h : Option α} {l : List α} (hl : Chain next h l) {a : α}
    (ha : a ∉ l) : Chain (Function.update next a h) (some a) (a :: l) := by
  refine ⟨rfl, ?_⟩
  rw [Function.update_self]
  refine (seg_congr fun b hb => ?_).mpr hl
  refine Function.update_of_ne ?_ _ _
  rintro rfl
  exact ha hb

/-! ## Unlinking -/

/-- The loop that looks for the node in front of `a` and bypasses `a`, without a `break`. -/
def unlink (a : α) : Nat → (α → Option α) → Option α → (α → Option α)
  | 0, next, _ => next
  | _ + 1, next, none => next
  | k + 1, next, some q =>
    let next' := if next q = some a then Function.update next q (next a) else next
    unlink a k next' (next' q)

/-- The head after unlinking `a`: the second node when `a` is the first one. -/
def headWithout (next : α → Option α) (h : Option α) (a : α) : Option α :=
  if h = some a then next a else h

theorem seg_bypass {next : α → Option α} {h : Option α} {l₁ l₂ : List α} {p a : α}
    (hl : Chain next h (l₁ ++ p :: a :: l₂)) :
    Chain (Function.update next p (next a)) h (l₁ ++ p :: l₂) := by
  have hnd := chain_nodup hl
  obtain ⟨m, h1, rfl, hp, h2⟩ := (seg_append next _ _ _ _).mp hl
  refine (seg_append _ _ _ _ _).mpr ⟨some p, ?_, rfl, ?_⟩
  · refine (seg_congr fun b hb => ?_).mpr h1
    refine Function.update_of_ne ?_ _ _
    rintro rfl
    simp [List.nodup_append] at hnd
    exact (hnd.2.2 _ hb).1 rfl
  · rw [Function.update_self]
    refine (seg_congr fun b hb => ?_).mpr h2
    refine Function.update_of_ne ?_ _ _
    rintro rfl
    simp [List.nodup_append, hb] at hnd

theorem unlink_of_not_mem {next : α → Option α} {h : Option α} {l : List α} (hl : Chain next h l) {a : α}
    (ha : a ∉ l.tail) (fuel : Nat) : unlink a fuel next h = next := by
  induction l generalizing h fuel with
  | nil =>
    have : h = none := hl
    subst this
    cases fuel <;> rfl
  | cons q l ih =>
    obtain ⟨rfl, htail⟩ := hl
    cases fuel with
    | zero => rfl
    | succ k =>
      have hne : next q ≠ some a := by
        intro hq
        cases l with
        | nil => rw [hq] at htail; exact absurd htail (by simp [Seg])
        | cons b l =>
          rw [hq] at htail
          obtain ⟨hab, -⟩ := htail
          simp at hab ha
          exact ha.1 hab
      rw [unlink, if_neg hne]
      exact ih htail (fun h' => ha (List.mem_of_mem_tail h')) k

theorem unlink_eq {next : α → Option α} {h : Option α} {l₁ l₂ : List α} {p a : α}
    (hl : Chain next h (l₁ ++ p :: a :: l₂)) {fuel : Nat} (hf : l₁.length < fuel) :
    unlink a fuel next h = Function.update next p (next a) := by
  induction l₁ generalizing h fuel with
  | nil =>
    have hb := seg_bypass hl
    have hnd := chain_nodup hl
    obtain ⟨rfl, hp, h2⟩ := hl
    cases fuel with
    | zero => simp at hf
    | succ k =>
      rw [unlink, if_pos hp]
      refine unlink_of_not_mem (l := l₂) hb.2 ?_ k
      intro ha
      have := List.mem_of_mem_tail ha
      simp [this] at hnd
  | cons q l₁ ih =>
    have hnd := chain_nodup hl
    obtain ⟨rfl, htail⟩ := hl
    cases fuel with
    | zero => simp at hf
    | succ k =>
      have hne : next q ≠ some a := by
        intro hq
        rw [hq] at htail
        cases l₁ with
        | nil =>
          obtain ⟨hap, -⟩ := htail
          simp at hap hnd
          exact hnd.2.1.1 hap.symm
        | cons b l₁ =>
          obtain ⟨hab, -⟩ := htail
          obtain rfl : a = b := by simpa using hab
          simp at hnd
      rw [unlink, if_neg hne]
      exact ih htail (by simpa using hf)

/-- Unlinking removes exactly `a`, wherever it stands. -/
theorem chain_unlink {next : α → Option α} {h : Option α} {l : List α} (hl : Chain next h l) {a : α}
    (ha : a ∈ l) {fuel : Nat} (hf : l.length ≤ fuel) :
    Chain (if h = some a then next else unlink a fuel next h) (headWithout next h a) (l.erase a) := by
  obtain ⟨l₁, l₂, rfl⟩ := List.append_of_mem ha
  have hnd := chain_nodup hl
  have hnot : a ∉ l₁ := by
    intro hmem
    simp [List.nodup_append] at hnd
    exact (hnd.2.2 _ hmem).1 rfl
  rw [List.erase_append_right _ hnot, List.erase_cons_head]
  rcases List.eq_nil_or_concat l₁ with rfl | ⟨l₁, p, rfl⟩
  · obtain ⟨rfl, htail⟩ := hl
    simpa [headWithout, Chain] using htail
  · have hne : h ≠ some a := by
      rintro rfl
      cases l₁ with
      | nil =>
        obtain ⟨hap, -⟩ := hl
        simp at hap hnot
        exact hnot hap
      | cons b l₁ =>
        obtain ⟨hab, -⟩ := hl
        simp at hab hnot
        exact hnot.1 hab
    rw [if_neg hne, headWithout, if_neg hne]
    simp only [List.concat_eq_append, List.append_assoc, List.singleton_append] at hl hf ⊢
    rw [unlink_eq hl (by simp at hf; omega)]
    exact seg_bypass hl

/-- The loop with a `break`: the first node whose `next` is `a` bypasses it. -/
theorem chain_unlink_first {next : α → Option α} {h : Option α} {l : List α} (hl : Chain next h l) {a : α}
    (ha : a ∈ l) (hne : h ≠ some a) :
    ∃ p, l.find? (fun q => next q = some a) = some p ∧
      Chain (Function.update next p (next a)) h (l.erase a) := by
  obtain ⟨l₁, l₂, rfl⟩ := List.append_of_mem ha
  have hnd := chain_nodup hl
  have hnot : a ∉ l₁ := by
    intro hmem
    simp [List.nodup_append] at hnd
    exact (hnd.2.2 _ hmem).1 rfl
  rcases List.eq_nil_or_concat l₁ with rfl | ⟨l₁, p, rfl⟩
  · exact absurd hl.1 hne
  · simp only [List.concat_eq_append, List.append_assoc, List.singleton_append] at hl hnd hnot ⊢
    have hp : next p = some a := by
      obtain ⟨m, -, rfl, hp, -⟩ := (seg_append next _ _ _ _).mp hl
      exact hp
    have hfirst : ∀ q ∈ l₁, next q ≠ some a := by
      intro q hq hqa
      -- `q` and `p` would both be the node in front of `a`.
      obtain ⟨m₁, m₂, rfl⟩ := List.append_of_mem hq
      have hcons := hl
      rw [List.append_assoc] at hcons
      obtain ⟨m, -, rfl, h2⟩ := (seg_append next _ _ _ _).mp hcons
      rw [hqa] at h2
      cases m₂ with
      | nil =>
        obtain ⟨hap, -⟩ := h2
        simp at hap hnot
        exact hnot.2.2 hap
      | cons b m₂ =>
        obtain ⟨hab, -⟩ := h2
        simp at hab hnot
        exact hnot.2.2.1 hab
    refine ⟨p, ?_, ?_⟩
    · rw [List.find?_append, List.find?_eq_none.mpr (by simpa using hfirst)]
      simp [hp]
    · rw [show l₁ ++ p :: a :: l₂ = (l₁ ++ [p]) ++ a :: l₂ by simp,
        List.erase_append_right _ hnot, List.erase_cons_head]
      simpa using seg_bypass hl

theorem chain_to_front {next : α → Option α} {h : Option α} {l₁ l₂ : List α} {p a : α}
    (hl : Chain next h (l₁ ++ p :: a :: l₂)) :
    Chain (Function.update (Function.update next p (next a)) a h) (some a) (a :: (l₁ ++ p :: l₂)) := by
  refine chain_push (seg_bypass hl) ?_
  have hnd := chain_nodup hl
  simp only [List.nodup_append, List.nodup_cons, List.mem_cons, not_or] at hnd
  simp only [List.mem_append, List.mem_cons, not_or]
  refine ⟨fun ha => ?_, fun hap => hnd.2.1.1.1 hap.symm, hnd.2.1.2.1⟩
  exact hnd.2.2 a ha a (Or.inr (Or.inl rfl)) rfl

end MultiIp.Lib
