import MultiIp.Board.LineEditor

/-!
# The echo of the line editor

The bytes that `fetch_input` sends, on a terminal line that is wide enough.
-/

namespace MultiIp

open Lib Firmware

/-- The terminal is at a byte of its own, after ESC, or after `ESC [`. -/
inductive TerminalMode
  | plain
  | escape
  | bracket
  deriving DecidableEq

structure Terminal where
  line : TermLine UInt8
  mode : TerminalMode

namespace Terminal

abbrev blank : UInt8 := 0x20

abbrev isPrintable (ch : UInt8) : Prop := 0x20 ≤ ch ∧ ch < 0x7f

/-- A printable byte writes a cell, `'\b'` moves left, `ESC [ K` clears to the end of the line and `ESC [ C` moves
right. Other bytes and sequences do nothing. -/
def receive (t : Terminal) (ch : UInt8) : Terminal :=
  match t.mode with
  | .plain =>
    if ch = 0x1b then { t with mode := .escape }
    else if ch = 0x08 then { t with line := t.line.backs 1 }
    else if isPrintable ch then { t with line := t.line.put ch }
    else t
  | .escape => { t with mode := if ch = 0x5b then .bracket else .plain }
  | .bracket =>
    if ch = 0x4b then ⟨t.line.clear blank, .plain⟩
    else if ch = 0x43 then ⟨t.line.forward, .plain⟩
    else { t with mode := .plain }

def feed (t : Terminal) (bytes : List UInt8) : Terminal := bytes.foldl receive t

/-! ## Feeding -/

section

variable {line : TermLine UInt8}

theorem feed_append (t : Terminal) (xs ys : List UInt8) : t.feed (xs ++ ys) = (t.feed xs).feed ys :=
  List.foldl_append

theorem feed_printable {xs : List UInt8} (h : ∀ x ∈ xs, isPrintable x) :
    feed ⟨line, .plain⟩ xs = ⟨xs.foldl TermLine.put line, .plain⟩ := by
  induction xs generalizing line with
  | nil => rfl
  | cons x xs ih =>
    have hx := h x List.mem_cons_self
    have hesc : x ≠ 0x1b := by
      rintro rfl
      exact absurd hx (by decide)
    have hbs : x ≠ 0x08 := by
      rintro rfl
      exact absurd hx (by decide)
    have hput : receive ⟨line, .plain⟩ x = ⟨line.put x, .plain⟩ := by
      simp [receive, hesc, hbs, hx]
    rw [feed, List.foldl_cons, hput]
    exact ih (fun y hy => h y (List.mem_cons_of_mem _ hy))

theorem feed_backs (n : Nat) : feed ⟨line, .plain⟩ (List.replicate n 0x08) = ⟨line.backs n, .plain⟩ := by
  induction n generalizing line with
  | zero => rfl
  | succ n ih =>
    have hback : receive ⟨line, .plain⟩ 0x08 = ⟨line.backs 1, .plain⟩ := rfl
    rw [List.replicate_succ, feed, List.foldl_cons, hback]
    refine ih.trans ?_
    rw [TermLine.backs, TermLine.backs, TermLine.backs, Nat.sub_sub, Nat.add_comm 1 n]

theorem feed_eraseToEnd : feed ⟨line, .plain⟩ FetchInput.eraseToEnd = ⟨line.clear blank, .plain⟩ := rfl

/-- The tail is written, and the cursor goes back over it. -/
theorem feed_tail {xs r : List UInt8} (hxs : ∀ x ∈ xs, isPrintable x) :
    feed ⟨line, .plain⟩ (xs ++ List.replicate r.length 0x08) =
      ⟨(xs.foldl TermLine.put line).backs r.length, .plain⟩ := by
  rw [feed_append, feed_printable hxs, feed_backs]

end

end Terminal

namespace FetchInput

open Terminal

/-! ## Keys -/

/-- A key with a character sends a printable one. -/
def Key.Typed : Key → Prop
  | .char ch _ => isPrintable ch
  | _ => True

instance : (k : Key) → Decidable k.Typed
  | .char ch _ => inferInstanceAs (Decidable (0x20 ≤ ch ∧ ch < 0x7f))
  | .backspace _ _ | .left | .right | .delete _ | .escape _ _ | .digit _ _ _ | .sequence _ _ => isTrue trivial

theorem press_printable {c : Cursor UInt8} (h : ∀ x ∈ c.text, isPrintable x) {k : Key} (hk : k.Typed) (limit : Nat) :
    ∀ x ∈ (k.press limit c).text, isPrintable x := by
  cases k with
  | char ch hch =>
    simp only [Key.press]
    split
    · intro x hx
      simp only [Cursor.text, Cursor.insert, List.reverse_cons, List.append_assoc, List.singleton_append,
        List.mem_append, List.mem_cons, List.mem_reverse] at hx
      rcases hx with hx | rfl | hx
      · exact h x (List.mem_append_left _ (List.mem_reverse.mpr hx))
      · exact hk
      · exact h x (List.mem_append_right _ hx)
    · exact h
  | backspace ch hch => exact fun x hx => h x (Cursor.mem_text_backspace hx)
  | left => rwa [Key.press, Cursor.text_moveLeft]
  | right => rwa [Key.press, Cursor.text_moveRight]
  | delete x => exact fun x hx => h x (Cursor.mem_text_delete hx)
  | escape y hy => exact h
  | digit d x hd => exact h
  | sequence y hy => exact h

/-- The terminal follows each key. -/
theorem echo_step {margin : List UInt8} {line : TermLine UInt8} {c : Cursor UInt8}
    (h : line.ShowsCursor blank margin c) (hc : ∀ x ∈ c.text, isPrintable x) {k : Key} (hk : k.Typed) (limit : Nat) :
    ∃ line', feed ⟨line, .plain⟩ (k.echo limit c) = ⟨line', .plain⟩ ∧
      line'.ShowsCursor blank margin (k.press limit c) := by
  obtain ⟨l, r⟩ := c
  have hr : ∀ x ∈ r, isPrintable x := fun x hx => hc x (List.mem_append_right _ hx)
  cases k with
  | char ch hch =>
    simp only [Key.press, Key.echo]
    split
    · have hall : ∀ x ∈ ch :: r, isPrintable x := by
        intro x hx
        rcases List.mem_cons.mp hx with rfl | hx
        · exact hk
        · exact hr x hx
      exact ⟨_, feed_tail hall, h.insert ch⟩
    · exact ⟨line, rfl, h⟩
  | backspace ch hch =>
    cases l with
    | nil => exact ⟨line, rfl, h⟩
    | cons x l =>
      have hback : feed ⟨line, .plain⟩ [0x08] = ⟨line.backs 1, .plain⟩ := rfl
      refine ⟨_, ?_, h.backspace⟩
      rw [Key.echo, if_neg (List.cons_ne_nil x l), ← List.singleton_append, List.append_assoc, List.append_assoc,
        feed_append, hback, feed_append, feed_eraseToEnd, feed_tail hr]
  | left =>
    cases l with
    | nil => exact ⟨line, rfl, h⟩
    | cons x l => exact ⟨line.backs 1, rfl, h.moveLeft⟩
  | right =>
    cases r with
    | nil => exact ⟨line, rfl, h⟩
    | cons x r => exact ⟨line.forward, rfl, h.moveRight⟩
  | delete x =>
    cases r with
    | nil => exact ⟨line, rfl, h⟩
    | cons x r =>
      refine ⟨_, ?_, h.delete⟩
      rw [Key.echo, if_neg (List.cons_ne_nil x r), List.append_assoc, feed_append, feed_eraseToEnd]
      exact feed_tail (fun y hy => hr y (List.mem_cons_of_mem _ hy))
  | escape y hy => exact ⟨line, rfl, h⟩
  | digit d x hd => exact ⟨line, rfl, h⟩
  | sequence y hy => exact ⟨line, rfl, h⟩

/-! ## Whole lines -/

section

variable {max_len : UInt32}

/-- From the column `start` on the line is the text of the buffer and then blank, and the cursors agree. The cells
before it are as they were on `t₀`. -/
structure Mirrors (t₀ t : Terminal) (start : Nat) (s : FetchInput max_len) : Prop where
  text : ∀ k, t.line.cells (start + k) = (s.buf.toList.take s.len.toNat)[k]?.getD blank
  col : t.line.col = start + s.pos.toNat
  margin : ∀ k < start, t.line.cells k = t₀.line.cells k
  mode : t.mode = .plain

theorem screen_run {margin : List UInt8} {t : Terminal} {line : TermLine UInt8} {s : FetchInput max_len}
    {c : Cursor UInt8} (hs : s.Holds c) (ht : t.feed s.out = ⟨line, .plain⟩) (h : line.ShowsCursor blank margin c)
    (hc : ∀ x ∈ c.text, isPrintable x) {keys : List Key} (hkeys : ∀ k ∈ keys, k.Typed) :
    ∃ s' line' c', s.fetch_input_loop .key (bytesOf keys) = .waits .key s' ∧ s'.Holds c' ∧
      t.feed s'.out = ⟨line', .plain⟩ ∧ line'.ShowsCursor blank margin c' := by
  induction keys generalizing s line c with
  | nil => exact ⟨s, line, c, rfl, hs, ht, h⟩
  | cons k keys ih =>
    have hk := hkeys k List.mem_cons_self
    obtain ⟨s₁, hrun₁, hs₁, hout₁⟩ := key_step hs k (bytesOf keys)
    obtain ⟨line₁, hfeed₁, hline₁⟩ := echo_step h hc hk (max_len.toNat - 1)
    have ht₁ : t.feed s₁.out = ⟨line₁, .plain⟩ := by rw [hout₁, feed_append, ht, hfeed₁]
    obtain ⟨s', line', c', hrun, hrest⟩ := ih hs₁ ht₁ hline₁ (press_printable hc hk _)
      (fun k' hk' => hkeys k' (List.mem_cons_of_mem _ hk'))
    exact ⟨s', line', c', hrun₁.trans hrun, hrest⟩

/-- After every sequence of keys the terminal shows what the buffer holds, with the cursor where the next character
would go. -/
theorem screen_shows_buffer (max_len : UInt32) (hmax : 1 ≤ max_len) (buf : Vector UInt8 max_len.toNat) (t : Terminal)
    (hmode : t.mode = .plain) (hblank : ∀ k, t.line.col ≤ k → t.line.cells k = blank) (keys : List Key)
    (hkeys : ∀ k ∈ keys, k.Typed) :
    ∃ s, fetch_input buf (bytesOf keys) = .waits .key s ∧ Mirrors t (t.feed s.out) t.line.col s := by
  have hmargin : t.line.ShowsCursor blank ((List.range t.line.col).map t.line.cells) .empty := by
    refine ⟨fun k => ?_, by simp [Cursor.empty]⟩
    rw [Cursor.empty, Cursor.text, List.reverse_nil, List.append_nil, List.append_nil, List.getElem?_map]
    by_cases hk : k < t.line.col
    · simp [hk]
    · rw [List.getElem?_eq_none (by simpa using hk), hblank k (by omega)]
      rfl
  have hstart : t.feed [] = ⟨t.line, .plain⟩ := by
    rw [← hmode]
    rfl
  obtain ⟨s, line, c, hrun, hs, hfeed, hshow⟩ :=
    screen_run (start_holds hmax buf) hstart hmargin (by simp [Cursor.empty, Cursor.text]) hkeys
  refine ⟨s, hrun, ?_⟩
  have hlen : ((List.range t.line.col).map t.line.cells).length = t.line.col := by simp
  have hbytes : s.buf.toList.take s.len.toNat = c.text := by
    obtain ⟨rest, hrest⟩ := hs.text
    rw [hs.len, ← hrest]
    simp
  rw [hfeed]
  refine ⟨fun k => ?_, ?_, fun k hk => ?_, rfl⟩
  · rw [hshow.text, List.getElem?_append_right (by omega), hlen, Nat.add_sub_cancel_left, hbytes]
  · rw [hshow.col, hlen, hs.pos]
  · rw [hshow.text, List.getElem?_append_left (by omega)]
    simp [hk]

/-- An empty line behind a prompt of two cells. -/
def sampleTerminal : Terminal := ⟨⟨fun k => if k < 2 then 0x3e else blank, 2⟩, .plain⟩

theorem screen_shows_buffer_sample :
    ∃ s, @fetch_input 4 (Vector.replicate 4 0) (bytesOf sampleKeys) = .waits .key s ∧
      Mirrors sampleTerminal (sampleTerminal.feed s.out) 2 s := by
  have hblank : ∀ k, 2 ≤ k → sampleTerminal.line.cells k = blank := fun k hk => if_neg (Nat.not_lt.mpr hk)
  exact screen_shows_buffer 4 (by decide) (Vector.replicate 4 0) sampleTerminal rfl hblank sampleKeys (by decide)

end

end FetchInput

end MultiIp
