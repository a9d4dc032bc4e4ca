import Mathlib.Data.List.Induction

/-!
# Loops that shift the cells of an array

An access outside the array makes a loop `none`. What an array holds is stated
as a prefix of its cells, so a loop is described without an index.
-/

namespace MultiIp.Lib

variable {α : Type*} {n : Nat}

/-- `v[i] = x`. -/
def store (v : Vector α n) (i : Nat) (x : α) : Option (Vector α n) := if h : i < n then some (v.set i x) else none

/-- `v[i] = v[j]`. -/
def copyCell (v : Vector α n) (i j : Nat) : Option (Vector α n) := do store v i (← v[j]?)

/-- `for (i = start; i < stop; i++) v[i] = v[i + 1]`. -/
def shiftLeft (v : Vector α n) (start stop : Nat) : Option (Vector α n) :=
  (List.range' start (stop - start)).foldlM (fun v i => copyCell v i (i + 1)) v

/-- `for (i = start; i > stop; i--) v[i] = v[i - 1]`. -/
def shiftRight (v : Vector α n) : (start stop : Nat) → Option (Vector α n)
  | 0, _ => some v
  | i + 1, stop => if i + 1 > stop then do shiftRight (← copyCell v (i + 1) i) i stop else some v

example : (shiftLeft #v[1, 2, 3, 4] 1 3).map Vector.toList = some [1, 3, 4, 4] ∧
    (shiftRight #v[1, 2, 3, 4] 3 1).map Vector.toList = some [1, 2, 2, 3] ∧ shiftLeft #v[1, 2] 0 2 = none := by decide

/-- The array begins with these elements. -/
def Begins (v : Vector α n) (l : List α) : Prop := l <+: v.toList

section

variable {v : Vector α n} {a b : List α} {x : α}

theorem Begins.length_le {l : List α} (h : Begins v l) : l.length ≤ n := by
  have hle := List.IsPrefix.length_le h
  rwa [Vector.length_toList] at hle

theorem Begins.left (h : Begins v (a ++ b)) : Begins v a := (List.prefix_append a b).trans h

theorem Begins.getElem? (h : Begins v (a ++ x :: b)) : v[a.length]? = some x := by
  obtain ⟨t, ht⟩ := h
  rw [← Vector.getElem?_toList, ← ht]
  simp

/-- Elements that do not fill the array are followed by some other. -/
theorem Begins.next (h : Begins v a) (hlt : a.length < n) : ∃ z, Begins v (a ++ [z]) := by
  obtain ⟨t, ht⟩ := h
  cases t with
  | nil =>
    have hlen := congrArg List.length ht
    simp at hlen
    omega
  | cons z t => exact ⟨z, t, by simpa using ht⟩

theorem Begins.stored (h : Begins v (a ++ x :: b)) (y : α) :
    ∃ v', store v a.length y = some v' ∧ Begins v' (a ++ y :: b) := by
  have hlen := h.length_le
  rw [List.length_append, List.length_cons] at hlen
  obtain ⟨t, ht⟩ := h
  refine ⟨v.set a.length y, dif_pos (by omega), t, ?_⟩
  rw [Vector.toList_set, ← ht]
  simp

theorem Begins.copied {y : α} {i j : Nat} (h : Begins v (a ++ x :: b)) (hi : i = a.length) (hj : v[j]? = some y) :
    ∃ v', copyCell v i j = some v' ∧ Begins v' (a ++ y :: b) := by
  obtain ⟨v', hstore, hv'⟩ := h.stored y
  exact ⟨v', by simp [copyCell, hj, hi, hstore], hv'⟩

/-- Shifting left takes an element out. Induction on the elements behind it, which move one by one. -/
theorem Begins.takeOut (h : Begins v (a ++ x :: b)) :
    ∃ v', shiftLeft v a.length (a.length + b.length) = some v' ∧ Begins v' (a ++ b) := by
  unfold shiftLeft
  rw [Nat.add_sub_cancel_left]
  induction b generalizing v a x with
  | nil => exact ⟨v, rfl, by simpa using h.left⟩
  | cons y b ih =>
    have hy : v[a.length + 1]? = some y := by
      have hnext : Begins v ((a ++ [x]) ++ y :: b) := by simpa using h
      simpa using hnext.getElem?
    obtain ⟨v₁, hcopy, hv₁⟩ := h.copied rfl hy
    obtain ⟨v', hrest, hv'⟩ := ih (a := a ++ [y]) (x := y) (by simpa using hv₁)
    refine ⟨v', ?_, by simpa using hv'⟩
    rw [List.length_append, List.length_singleton] at hrest
    rw [List.length_cons, List.range'_succ, List.foldlM_cons, hcopy]
    exact hrest

/-- Shifting right makes room for an element. Induction on the elements that move, the last one first. -/
theorem Begins.makeRoom {c : List α} (h : Begins v (a ++ b ++ x :: c)) :
    ∃ v' z, shiftRight v (a.length + b.length) a.length = some v' ∧ Begins v' (a ++ z :: b ++ c) := by
  induction b using List.reverseRecOn generalizing v x c with
  | nil =>
    refine ⟨v, x, ?_, by simpa using h⟩
    rw [List.length_nil, Nat.add_zero]
    cases a.length with
    | zero => rfl
    | succ i => exact if_neg (by omega)
  | append_singleton b y ih =>
    have hy : v[a.length + b.length]? = some y := by
      have hlast : Begins v ((a ++ b) ++ y :: x :: c) := by simpa using h
      simpa using hlast.getElem?
    obtain ⟨v₁, hcopy, hv₁⟩ := h.copied (i := a.length + b.length + 1) (by simp; omega) hy
    obtain ⟨v', z, hrest, hv'⟩ := ih (x := y) (c := y :: c) (by simpa using hv₁)
    refine ⟨v', z, ?_, by simpa using hv'⟩
    rw [List.length_append, List.length_singleton, ← Nat.add_assoc, shiftRight, if_pos (by omega), hcopy]
    exact hrest

end

end MultiIp.Lib
