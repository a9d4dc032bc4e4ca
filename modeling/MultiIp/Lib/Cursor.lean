import Mathlib.Data.List.Basic
import Mathlib.Logic.Function.Basic

/-!
# A text with a cursor, and a terminal line that shows one

The cursor splits the text, so an edit at the cursor is an edit at the head of a
list. On a terminal the same edit is a sequence of writes and moves; a line that
shows the text before it shows the text after it.
-/

namespace MultiIp.Lib

variable {α : Type*}

/-- What is left of the cursor, the nearest first, and what is right of it. -/
structure Cursor (α : Type*) where
  left : List α
  right : List α

namespace Cursor

def empty : Cursor α := ⟨[], []⟩

def text (c : Cursor α) : List α := c.left.reverse ++ c.right

def insert (c : Cursor α) (x : α) : Cursor α := ⟨x :: c.left, c.right⟩

def backspace (c : Cursor α) : Cursor α := ⟨c.left.tail, c.right⟩

def delete (c : Cursor α) : Cursor α := ⟨c.left, c.right.tail⟩

def moveLeft : Cursor α → Cursor α
  | ⟨x :: l, r⟩ => ⟨l, x :: r⟩
  | ⟨[], r⟩ => ⟨[], r⟩

def moveRight : Cursor α → Cursor α
  | ⟨l, x :: r⟩ => ⟨x :: l, r⟩
  | ⟨l, []⟩ => ⟨l, []⟩

theorem length_text (c : Cursor α) : c.text.length = c.left.length + c.right.length := by simp [text]

@[simp] theorem text_moveLeft (c : Cursor α) : c.moveLeft.text = c.text := by
  obtain ⟨l, r⟩ := c
  cases l <;> simp [moveLeft, text]

@[simp] theorem text_moveRight (c : Cursor α) : c.moveRight.text = c.text := by
  obtain ⟨l, r⟩ := c
  cases r <;> simp [moveRight, text]

/-- Deleting takes elements of the text away, and brings none. -/
theorem mem_text_backspace {c : Cursor α} {x : α} (h : x ∈ c.backspace.text) : x ∈ c.text := by
  simp only [backspace, text, List.mem_append, List.mem_reverse] at h ⊢
  exact h.imp_left List.mem_of_mem_tail

theorem mem_text_delete {c : Cursor α} {x : α} (h : x ∈ c.delete.text) : x ∈ c.text := by
  simp only [delete, text, List.mem_append] at h ⊢
  exact h.imp_right List.mem_of_mem_tail

end Cursor

/-! ## A terminal line -/

/-- A line without a right margin. -/
structure TermLine (α : Type*) where
  cells : Nat → α
  col : Nat

namespace TermLine

variable {t : TermLine α} {blank : α} {a b : List α}

def put (t : TermLine α) (x : α) : TermLine α := ⟨Function.update t.cells t.col x, t.col + 1⟩

def backs (t : TermLine α) (n : Nat) : TermLine α := ⟨t.cells, t.col - n⟩

def forward (t : TermLine α) : TermLine α := ⟨t.cells, t.col + 1⟩

def clear (blank : α) (t : TermLine α) : TermLine α := ⟨fun k => if k < t.col then t.cells k else blank, t.col⟩

/-- The line is `l` and then blank. -/
def Shows (blank : α) (t : TermLine α) (l : List α) : Prop := ∀ k, t.cells k = l[k]?.getD blank

theorem Shows.put (h : Shows blank t (a ++ b)) (hcol : t.col = a.length) (x : α) :
    Shows blank (t.put x) (a ++ x :: b.tail) := by
  intro k
  simp only [TermLine.put, hcol]
  rcases Nat.lt_trichotomy k a.length with hlt | heq | hgt
  · rw [Function.update_of_ne (by omega), h k, List.getElem?_append_left hlt, List.getElem?_append_left hlt]
  · rw [heq, Function.update_self]
    simp
  · obtain ⟨j, rfl⟩ : ∃ j, k = a.length + 1 + j := ⟨k - a.length - 1, by omega⟩
    rw [Function.update_of_ne (by omega), h, List.getElem?_append_right (by omega),
      List.getElem?_append_right (by omega), show a.length + 1 + j - a.length = j + 1 by omega,
      List.getElem?_cons_succ, List.getElem?_tail]

theorem Shows.clear (h : Shows blank t (a ++ b)) (hcol : t.col = a.length) : Shows blank (t.clear blank) a := by
  intro k
  rw [TermLine.clear, hcol]
  dsimp only
  split
  · rename_i hlt
    rw [h k, List.getElem?_append_left hlt]
  · rename_i hge
    rw [List.getElem?_eq_none (by omega)]
    rfl

/-- Writing several elements goes over as many of those that were there. -/
theorem Shows.puts (h : Shows blank t (a ++ b)) (hcol : t.col = a.length) (xs : List α) :
    Shows blank (xs.foldl TermLine.put t) (a ++ xs ++ b.drop xs.length) ∧
      (xs.foldl TermLine.put t).col = a.length + xs.length := by
  induction xs generalizing t a b with
  | nil => exact ⟨by simpa using h, hcol⟩
  | cons x xs ih =>
    have hput : Shows blank (t.put x) ((a ++ [x]) ++ b.tail) := by simpa using h.put hcol x
    obtain ⟨hshow, hend⟩ := ih hput (by simp [TermLine.put, hcol])
    refine ⟨by simpa [List.drop_tail] using hshow, ?_⟩
    rw [List.foldl_cons, hend, List.length_append, List.length_singleton, List.length_cons]
    omega

/-! ## Edits at the cursor -/

/-- The line is the margin, the text and then blank, and the cursors agree. -/
structure ShowsCursor (blank : α) (margin : List α) (t : TermLine α) (c : Cursor α) : Prop where
  text : Shows blank t (margin ++ c.text)
  col : t.col = margin.length + c.left.length

namespace ShowsCursor

variable {margin l r : List α} {c : Cursor α} {x : α}

/-- The right part is written from the cursor on, over the elements `b`, and the cursor goes back. -/
theorem of_puts (h : Shows blank t (a ++ b)) (hcol : t.col = a.length) {w : List α} (hlen : b.length ≤ (w ++ r).length)
    (ha : a ++ w = margin ++ l.reverse) :
    ShowsCursor blank margin (((w ++ r).foldl TermLine.put t).backs r.length) ⟨l, r⟩ := by
  obtain ⟨hshow, hend⟩ := h.puts hcol (w ++ r)
  have hcut := congrArg List.length ha
  simp only [List.length_append, List.length_reverse] at hcut
  rw [List.drop_eq_nil_of_le hlen, List.append_nil, ← List.append_assoc, ha, List.append_assoc] at hshow
  refine ⟨hshow, ?_⟩
  rw [backs, hend, List.length_append]
  dsimp only
  omega

theorem redrawn (h : Shows blank t (margin ++ l.reverse)) (hcol : t.col = (margin ++ l.reverse).length) :
    ShowsCursor blank margin ((r.foldl TermLine.put t).backs r.length) ⟨l, r⟩ :=
  of_puts (a := margin ++ l.reverse) (b := []) (w := []) (by simpa using h) hcol (by simp) (by simp)

theorem insert (h : ShowsCursor blank margin t c) (x : α) :
    ShowsCursor blank margin (((x :: c.right).foldl TermLine.put t).backs c.right.length) (c.insert x) := by
  have htext : Shows blank t ((margin ++ c.left.reverse) ++ c.right) := by simpa [Cursor.text] using h.text
  exact of_puts (w := [x]) htext (by simp [h.col]) (by simp) (by simp)

theorem backspace (h : ShowsCursor blank margin t ⟨x :: l, r⟩) :
    ShowsCursor blank margin ((r.foldl TermLine.put ((t.backs 1).clear blank)).backs r.length) ⟨l, r⟩ := by
  have htext : Shows blank (t.backs 1) ((margin ++ l.reverse) ++ x :: r) := by
    have hall := h.text
    simp only [Cursor.text, List.reverse_cons, List.append_assoc, List.singleton_append] at hall
    rwa [List.append_assoc]
  have hcol : (t.backs 1).col = (margin ++ l.reverse).length := by simp [backs, h.col]
  exact redrawn (htext.clear hcol) hcol

theorem delete (h : ShowsCursor blank margin t ⟨l, x :: r⟩) :
    ShowsCursor blank margin ((r.foldl TermLine.put (t.clear blank)).backs r.length) ⟨l, r⟩ := by
  have htext : Shows blank t ((margin ++ l.reverse) ++ x :: r) := by simpa [Cursor.text] using h.text
  have hcol : t.col = (margin ++ l.reverse).length := by simp [h.col]
  exact redrawn (htext.clear hcol) hcol

theorem moveLeft (h : ShowsCursor blank margin t ⟨x :: l, r⟩) : ShowsCursor blank margin (t.backs 1) ⟨l, x :: r⟩ := by
  have hcol := h.col
  rw [List.length_cons] at hcol
  have htext : Shows blank t (margin ++ (⟨l, x :: r⟩ : Cursor α).text) := by simpa [Cursor.text] using h.text
  refine ⟨htext, ?_⟩
  rw [backs, hcol]
  rfl

theorem moveRight (h : ShowsCursor blank margin t ⟨l, x :: r⟩) : ShowsCursor blank margin t.forward ⟨x :: l, r⟩ := by
  have hcol := h.col
  have htext : Shows blank t (margin ++ (⟨x :: l, r⟩ : Cursor α).text) := by simpa [Cursor.text] using h.text
  refine ⟨htext, ?_⟩
  rw [forward, hcol]
  rfl

end ShowsCursor

end TermLine

end MultiIp.Lib
