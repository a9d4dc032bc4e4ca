import Mathlib.Data.List.Basic

/-!
# Where an element is after some edits

An edit puts one element into a list or takes one out. `move` follows a position
through an edit, so a number that was read off an old list can be compared with
where its element is now. The same for a list of lists.
-/

namespace MultiIp.Lib

variable {α β : Type*}

inductive Edit
  | insert (p : Nat)
  | remove (p : Nat)
  deriving DecidableEq

namespace Edit

/-- `ys` is `xs` after the edit. -/
def Makes (e : Edit) (xs ys : List α) : Prop :=
  match e with
  | .insert p => ∃ l x r, xs = l ++ r ∧ ys = l ++ x :: r ∧ l.length = p
  | .remove p => ∃ l x r, xs = l ++ x :: r ∧ ys = l ++ r ∧ l.length = p

/-- Where the element at position `k` is after the edit, `none` if it was taken out. -/
def move : Edit → Nat → Option Nat
  | .insert p, k => some (if p ≤ k then k + 1 else k)
  | .remove p, k => if k < p then some k else if k = p then none else some (k - 1)

example : (Edit.insert 0).move 2 = some 3 ∧ (Edit.remove 1).move 2 = some 1 ∧ (Edit.remove 2).move 2 = none := by decide

theorem Makes.getElem? {e : Edit} {xs ys : List α} (h : e.Makes xs ys) {k k' : Nat} (hk : e.move k = some k') {x : α}
    (hx : xs[k]? = some x) : ys[k']? = some x := by
  cases e with
  | insert p =>
    obtain ⟨l, y, r, rfl, rfl, rfl⟩ := h
    obtain rfl := Option.some.inj hk
    split
    · rename_i hle
      rw [List.getElem?_append_right hle] at hx
      rw [List.getElem?_append_right (by omega), show k + 1 - l.length = k - l.length + 1 by omega,
        List.getElem?_cons_succ]
      exact hx
    · rename_i hlt
      rw [List.getElem?_append_left (by omega)] at hx ⊢
      exact hx
  | remove p =>
    obtain ⟨l, y, r, rfl, rfl, rfl⟩ := h
    simp only [move] at hk
    split at hk
    · rename_i hlt
      obtain rfl := Option.some.inj hk
      rw [List.getElem?_append_left hlt] at hx ⊢
      exact hx
    · rename_i hnlt
      split at hk
      · cases hk
      · rename_i hne
        obtain rfl := Option.some.inj hk
        rw [List.getElem?_append_right (by omega), show k - l.length = k - 1 - l.length + 1 by omega,
          List.getElem?_cons_succ] at hx
        rw [List.getElem?_append_right (by omega)]
        exact hx

theorem Makes.map {e : Edit} {xs ys : List α} (h : e.Makes xs ys) (f : α → β) : e.Makes (xs.map f) (ys.map f) := by
  cases e with
  | insert p =>
    obtain ⟨l, y, r, rfl, rfl, rfl⟩ := h
    exact ⟨l.map f, f y, r.map f, by simp, by simp, by simp⟩
  | remove p =>
    obtain ⟨l, y, r, rfl, rfl, rfl⟩ := h
    exact ⟨l.map f, f y, r.map f, by simp, by simp, by simp⟩

end Edit

/-! ## A list of lists -/

/-- An edit of the outer list, or of the list that hangs on its element at `p`. -/
inductive ShelfEdit
  | outer (e : Edit)
  | inner (p : Nat) (e : Edit)
  deriving DecidableEq

namespace ShelfEdit

def Makes : ShelfEdit → (s s' : List (α × List β)) → Prop
  | .outer e, s, s' => e.Makes s s'
  | .inner p e, s, s' => ∃ l a xs ys r, s = l ++ (a, xs) :: r ∧ s' = l ++ (a, ys) :: r ∧ l.length = p ∧ e.Makes xs ys

/-- Where the outer element at `k` is after the edit. -/
def outerMove : ShelfEdit → Nat → Option Nat
  | .outer e, k => e.move k
  | .inner _ _, k => some k

/-- Where the inner element at `j` of the outer element at `k` is. -/
def innerMove : ShelfEdit → Nat × Nat → Option (Nat × Nat)
  | .outer e, (k, j) => (e.move k).map (fun k => (k, j))
  | .inner p e, (k, j) => if p = k then (e.move j).map (fun j => (k, j)) else some (k, j)

def Holds (s : List (α × List β)) (k : Nat) (a : α) : Prop := ∃ xs, s[k]? = some (a, xs)

def HoldsItem (s : List (α × List β)) (kj : Nat × Nat) (a : α) (x : β) : Prop :=
  ∃ xs, s[kj.1]? = some (a, xs) ∧ xs[kj.2]? = some x

theorem Makes.holds {c : ShelfEdit} {s s' : List (α × List β)} (h : c.Makes s s') {k k' : Nat}
    (hk : c.outerMove k = some k') {a : α} (ha : Holds s k a) : Holds s' k' a := by
  obtain ⟨xs, hxs⟩ := ha
  cases c with
  | outer e => exact ⟨xs, h.getElem? hk hxs⟩
  | inner p e =>
    obtain ⟨l, b, ys, zs, r, rfl, rfl, rfl, -⟩ := h
    obtain rfl := Option.some.inj hk
    rcases Nat.lt_trichotomy k l.length with hlt | rfl | hgt
    · refine ⟨xs, ?_⟩
      rw [List.getElem?_append_left hlt] at hxs ⊢
      exact hxs
    · refine ⟨zs, ?_⟩
      simp only [List.getElem?_append_right (Nat.le_refl _), Nat.sub_self, List.getElem?_cons_zero, Option.some.injEq,
        Prod.mk.injEq] at hxs ⊢
      exact ⟨hxs.1, trivial⟩
    · refine ⟨xs, ?_⟩
      rw [List.getElem?_append_right (by omega), show k - l.length = k - l.length - 1 + 1 by omega,
        List.getElem?_cons_succ] at hxs ⊢
      exact hxs

theorem Makes.holdsItem {c : ShelfEdit} {s s' : List (α × List β)} (h : c.Makes s s') {kj kj' : Nat × Nat}
    (hk : c.innerMove kj = some kj') {a : α} {x : β} (hx : HoldsItem s kj a x) : HoldsItem s' kj' a x := by
  obtain ⟨k, j⟩ := kj
  obtain ⟨xs, hxs, hxj⟩ := hx
  dsimp only at hxs hxj
  cases c with
  | outer e =>
    obtain ⟨k', hk', rfl⟩ := Option.map_eq_some_iff.mp hk
    exact ⟨xs, h.getElem? hk' hxs, hxj⟩
  | inner p e =>
    obtain ⟨l, b, ys, zs, r, rfl, rfl, rfl, he⟩ := h
    simp only [innerMove] at hk
    split at hk
    · rename_i heq
      obtain ⟨j', hj', rfl⟩ := Option.map_eq_some_iff.mp hk
      subst heq
      simp only [List.getElem?_append_right (Nat.le_refl _), Nat.sub_self, List.getElem?_cons_zero, Option.some.injEq,
        Prod.mk.injEq] at hxs
      obtain ⟨rfl, rfl⟩ := hxs
      refine ⟨zs, ?_, he.getElem? hj' hxj⟩
      simp
    · rename_i hne
      obtain rfl := Option.some.inj hk
      refine ⟨xs, ?_, hxj⟩
      rcases Nat.lt_or_gt_of_ne hne with hlt | hgt
      · rw [List.getElem?_append_right (by omega), show k - l.length = k - l.length - 1 + 1 by omega,
          List.getElem?_cons_succ] at hxs ⊢
        exact hxs
      · rw [List.getElem?_append_left hgt] at hxs ⊢
        exact hxs

/-! ## Many edits -/

/-- Where the outer element at `k` is after the edits, the first one first. -/
def outerTrack (cs : List ShelfEdit) (k : Nat) : Option Nat := cs.foldlM (fun k c => c.outerMove k) k

def innerTrack (cs : List ShelfEdit) (kj : Nat × Nat) : Option (Nat × Nat) := cs.foldlM (fun kj c => c.innerMove kj) kj

theorem outerTrack_concat (cs : List ShelfEdit) (c : ShelfEdit) (k : Nat) :
    outerTrack (cs ++ [c]) k = (outerTrack cs k).bind c.outerMove := by
  simp [outerTrack, List.foldlM_append]

theorem innerTrack_concat (cs : List ShelfEdit) (c : ShelfEdit) (kj : Nat × Nat) :
    innerTrack (cs ++ [c]) kj = (innerTrack cs kj).bind c.innerMove := by
  simp [innerTrack, List.foldlM_append]

end ShelfEdit

end MultiIp.Lib
