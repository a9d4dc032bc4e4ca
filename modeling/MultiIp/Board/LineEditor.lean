import MultiIp.Board.LineBuffer
import MultiIp.Board.Menu
import MultiIp.Lib.Cursor
import MultiIp.Lib.Shift

/-!
# The line editor in memory

`fetch_input` on its array, with its loops. An access outside the array, and a
difference of two indices that wraps, are faults here; no byte stream leads to
one, and the array holds the text of an editor with a cursor.
-/

namespace MultiIp

open Lib Firmware

/-- The variables of `fetch_input`, and what was sent to the terminal. -/
structure FetchInput (max_len : UInt32) where
  buf : Vector UInt8 max_len.toNat
  len : UInt32
  pos : UInt32
  out : List UInt8

namespace FetchInput

/-! ## The code -/

section Code

variable {max_len : UInt32}

/-- `a - b`, unless it wraps. -/
def usub (a b : UInt32) : Option UInt32 := if b ≤ a then some (a - b) else none

def sciSend (s : FetchInput max_len) (bytes : List UInt8) : FetchInput max_len := { s with out := s.out ++ bytes }

/-- `sciSend(sciREGx, n, &buf[i])`. -/
def sciSendBuf (s : FetchInput max_len) (n i : UInt32) : Option (FetchInput max_len) :=
  if i.toNat + n.toNat ≤ max_len.toNat then some (s.sciSend ((s.buf.toList.drop i.toNat).take n.toNat)) else none

/-- `"\x1b[K"`. -/
def eraseToEnd : List UInt8 := [0x1b, 0x5b, 0x4b]

/-- `"\x1b[C"`. -/
def cursorRight : List UInt8 := [0x1b, 0x5b, 0x43]

/-- `for (i = 0; i < len - pos; i++) sciSendByte(sciREGx, '\b')`. -/
def goBack (s : FetchInput max_len) : Option (FetchInput max_len) := do
  return s.sciSend (List.replicate (← usub s.len s.pos).toNat 0x08)

/-- What follows a removal: the tail is written again. -/
def redraw (s : FetchInput max_len) : Option (FetchInput max_len) := do
  let s ← if s.len > s.pos then s.sciSendBuf (← usub s.len s.pos) s.pos else some s
  s.goBack

/-- `'\b'` or DEL: the character before the cursor. -/
def backspace (s : FetchInput max_len) : Option (FetchInput max_len) :=
  if s.pos > 0 then do
    let buf ← shiftLeft s.buf (← usub s.pos 1).toNat (← usub s.len 1).toNat
    let s := { s with buf := buf, len := ← usub s.len 1, pos := ← usub s.pos 1 }
    ((s.sciSend [0x08]).sciSend eraseToEnd).redraw
  else some s

/-- Delete: the character at the cursor. -/
def delete (s : FetchInput max_len) : Option (FetchInput max_len) :=
  if s.pos < s.len then do
    let buf ← shiftLeft s.buf s.pos.toNat (← usub s.len 1).toNat
    let s := { s with buf := buf, len := ← usub s.len 1 }
    (s.sciSend eraseToEnd).redraw
  else some s

/-- A character goes in at the cursor. A full buffer ignores it. -/
def insert (s : FetchInput max_len) (ch : UInt8) : Option (FetchInput max_len) := do
  if s.len < (← usub max_len 1) then
    let buf ← shiftRight s.buf s.len.toNat s.pos.toNat
    let buf ← store buf s.pos.toNat ch
    let s := { s with buf := buf, len := s.len + 1 }
    let s ← s.sciSendBuf (← usub s.len s.pos) s.pos
    goBack { s with pos := s.pos + 1 }
  else some s

/-- One received byte: where the next one is awaited, `none` at the end of the line. -/
def receive (s : FetchInput max_len) (ch : UInt8) : Awaited → Option (Option Awaited × FetchInput max_len)
  | .key =>
    if ch = 0x0d ∨ ch = 0x0a then do
      let s := s.sciSend [0x0d, 0x0a]
      return (none, { s with buf := ← store s.buf s.len.toNat 0 })
    else if ch = 0x7f ∨ ch = 0x08 then do return (some .key, ← s.backspace)
    else if ch = 0x1b then some (some .escape, s)
    else do return (some .key, ← s.insert ch)
  | .escape => some (some (if ch = 0x5b then .sequence else .key), s)
  | .sequence =>
    if ch = 0x44 ∧ s.pos > 0 then do return (some .key, { s with pos := ← usub s.pos 1 }.sciSend [0x08])
    else if ch = 0x43 ∧ s.pos < s.len then some (some .key, { s with pos := s.pos + 1 }.sciSend cursorRight)
    else if ch = 0x33 then some (some (.tilde true), s)
    else if 0x30 ≤ ch ∧ ch ≤ 0x39 then some (some (.tilde false), s)
    else some (some .key, s)
  | .tilde true => do return (some .key, ← s.delete)
  | .tilde false => some (some .key, s)

/-- How far the function comes with what is received. -/
inductive Outcome (max_len : UInt32)
  | waits (at_ : Awaited) (s : FetchInput max_len)
  | line (s : FetchInput max_len) (rx : List UInt8)
  | fault

def fetch_input_loop (s : FetchInput max_len) : Awaited → List UInt8 → Outcome max_len
  | a, [] => .waits a s
  | a, ch :: rx =>
    match s.receive ch a with
    | none => .fault
    | some (none, s) => .line s rx
    | some (some a, s) => s.fetch_input_loop a rx

/-- What was received before is dropped. -/
def fetch_input (buf : Vector UInt8 max_len.toNat) (rx : List UInt8) : Outcome max_len :=
  fetch_input_loop ⟨buf, 0, 0, []⟩ .key rx

end Code

/-! ## Keys -/

/-- `'\r'` or `'\n'`. -/
abbrev isEnter (ch : UInt8) : Prop := ch = 0x0d ∨ ch = 0x0a

abbrev isErase (ch : UInt8) : Prop := ch = 0x7f ∨ ch = 0x08

/-- The bytes that stand for themselves. -/
abbrev isOrdinary (ch : UInt8) : Prop := ¬ isEnter ch ∧ ¬ isErase ch ∧ ch ≠ 0x1b

abbrev isDigit (ch : UInt8) : Prop := 0x30 ≤ ch ∧ ch ≤ 0x39

inductive Key
  | char (ch : UInt8) (h : isOrdinary ch)
  | backspace (ch : UInt8) (h : isErase ch)
  | left
  | right
  /-- `ESC [ 3 x`. -/
  | delete (x : UInt8)
  /-- `ESC y`. -/
  | escape (y : UInt8) (h : y ≠ 0x5b)
  /-- `ESC [ d x`. -/
  | digit (d x : UInt8) (h : isDigit d ∧ d ≠ 0x33)
  /-- `ESC [ y`. -/
  | sequence (y : UInt8) (h : y ≠ 0x44 ∧ y ≠ 0x43 ∧ ¬ isDigit y)

namespace Key

def bytes : Key → List UInt8
  | char ch _ => [ch]
  | backspace ch _ => [ch]
  | left => [0x1b, 0x5b, 0x44]
  | right => [0x1b, 0x5b, 0x43]
  | delete x => [0x1b, 0x5b, 0x33, x]
  | escape y _ => [0x1b, y]
  | digit d x _ => [0x1b, 0x5b, d, x]
  | sequence y _ => [0x1b, 0x5b, y]

/-- What the key is for, with room for `limit` bytes. -/
def press (limit : Nat) (c : Cursor UInt8) : Key → Cursor UInt8
  | char ch _ => if c.text.length < limit then c.insert ch else c
  | backspace _ _ => c.backspace
  | left => c.moveLeft
  | right => c.moveRight
  | delete _ => c.delete
  | escape _ _ => c
  | digit _ _ _ => c
  | sequence _ _ => c

/-- What the terminal is sent for it. -/
def echo (limit : Nat) (c : Cursor UInt8) : Key → List UInt8
  | char ch _ => if c.text.length < limit then ch :: c.right ++ List.replicate c.right.length 0x08 else []
  | backspace _ _ =>
    if c.left = [] then [] else 0x08 :: eraseToEnd ++ c.right ++ List.replicate c.right.length 0x08
  | left => if c.left = [] then [] else [0x08]
  | right => if c.right = [] then [] else cursorRight
  | delete _ =>
    if c.right = [] then [] else eraseToEnd ++ c.right.tail ++ List.replicate c.right.tail.length 0x08
  | escape _ _ => []
  | digit _ _ _ => []
  | sequence _ _ => []

end Key

/-- The editor after the keys. -/
def typedKeys (limit : Nat) (keys : List Key) : Cursor UInt8 := keys.foldl (Key.press limit) .empty

/-! ## The operations -/

/-- The array holds the text, and the indices are where the cursor is. -/
structure Holds {max_len : UInt32} (s : FetchInput max_len) (c : Cursor UInt8) : Prop where
  text : Begins s.buf c.text
  len : s.len.toNat = c.text.length
  pos : s.pos.toNat = c.left.length
  room : c.text.length < max_len.toNat

theorem usub_of_le {a b : UInt32} (h : b.toNat ≤ a.toNat) :
    usub a b = some (a - b) ∧ (a - b).toNat = a.toNat - b.toNat :=
  ⟨if_pos (UInt32.le_iff_toNat_le.mpr h), UInt32.toNat_sub_of_le _ _ (UInt32.le_iff_toNat_le.mpr h)⟩

section

variable {max_len : UInt32} {s : FetchInput max_len} {c : Cursor UInt8} {l r : List UInt8} {x : UInt8}

theorem Holds.send (h : s.Holds c) (bytes : List UInt8) : (s.sciSend bytes).Holds c := ⟨h.text, h.len, h.pos, h.room⟩

theorem sciSendBuf_spec {a b : List UInt8} (h : Begins s.buf (a ++ b)) {n i : UInt32} (hn : n.toNat = b.length)
    (hi : i.toNat = a.length) : s.sciSendBuf n i = some (s.sciSend b) := by
  have hle := h.length_le
  rw [List.length_append] at hle
  obtain ⟨t, ht⟩ := h
  rw [sciSendBuf, if_pos (by omega), ← ht, hn, hi]
  simp

theorem goBack_spec (h : s.Holds c) : s.goBack = some (s.sciSend (List.replicate c.right.length 0x08)) := by
  have hlen := c.length_text
  have hl := h.len
  have hp := h.pos
  obtain ⟨hsub, hnat⟩ := usub_of_le (a := s.len) (b := s.pos) (by omega)
  have hright : (s.len - s.pos).toNat = c.right.length := by omega
  rw [goBack, hsub, Option.bind_eq_bind, Option.bind_some, hright]
  rfl

theorem redraw_spec (h : s.Holds c) :
    s.redraw = some (s.sciSend (c.right ++ List.replicate c.right.length 0x08)) := by
  have hlen := c.length_text
  have hl := h.len
  have hp := h.pos
  obtain ⟨hsub, hnat⟩ := usub_of_le (a := s.len) (b := s.pos) (by omega)
  unfold redraw
  split
  · rw [hsub, Option.bind_eq_bind, Option.bind_some,
      sciSendBuf_spec (a := c.left.reverse) (b := c.right) h.text (by omega) (by simpa using hp), Option.bind_eq_bind,
      Option.bind_some]
    dsimp only
    rw [goBack_spec (h.send c.right)]
    simp [sciSend]
  · rename_i hle
    have hnil : c.right = [] := by
      rw [gt_iff_lt, UInt32.lt_iff_toNat_lt] at hle
      exact List.eq_nil_of_length_eq_zero (by omega)
    rw [Option.bind_eq_bind, Option.bind_some]
    dsimp only
    rw [goBack_spec h, hnil]
    rfl

theorem backspace_spec (h : s.Holds c) (ch : UInt8) (hch : isErase ch) :
    ∃ s', s.backspace = some s' ∧ s'.Holds c.backspace ∧
      s'.out = s.out ++ (Key.backspace ch hch).echo (max_len.toNat - 1) c := by
  obtain ⟨l, r⟩ := c
  have hlen := h.len
  have hpos := h.pos
  have hroom := h.room
  cases l with
  | nil =>
    refine ⟨s, if_neg ?_, h, by simp [Key.echo]⟩
    rw [gt_iff_lt, UInt32.lt_iff_toNat_lt, hpos]
    simp
  | cons x l =>
    simp only [Cursor.length_text, List.length_cons] at hlen hpos hroom
    have hone : (1 : UInt32).toNat = 1 := rfl
    obtain ⟨hsubp, hp⟩ := usub_of_le (a := s.pos) (b := 1) (by omega)
    obtain ⟨hsubl, hl⟩ := usub_of_le (a := s.len) (b := 1) (by omega)
    have htext : Begins s.buf (l.reverse ++ x :: r) := by simpa [Cursor.text] using h.text
    obtain ⟨buf, hshift, hbuf⟩ := htext.takeOut
    rw [List.length_reverse] at hshift
    have hheld : Holds ⟨buf, s.len - 1, s.pos - 1, s.out ++ [0x08] ++ eraseToEnd⟩ ⟨l, r⟩ := by
      refine ⟨hbuf, ?_, ?_, ?_⟩ <;> simp only [Cursor.length_text] <;> omega
    refine ⟨_, ?_, hheld.send (r ++ List.replicate r.length 0x08), by simp [sciSend, Key.echo]⟩
    rw [backspace, if_pos (by rw [gt_iff_lt, UInt32.lt_iff_toNat_lt]; show 0 < s.pos.toNat; omega)]
    simp only [hsubp, hsubl, Option.bind_eq_bind, Option.bind_some, hp, hl, hpos, hlen, hone, Nat.add_sub_cancel,
      show l.length + 1 + r.length - 1 = l.length + r.length by omega, hshift]
    exact redraw_spec hheld

theorem delete_spec (h : s.Holds c) (x : UInt8) :
    ∃ s', s.delete = some s' ∧ s'.Holds c.delete ∧ s'.out = s.out ++ (Key.delete x).echo (max_len.toNat - 1) c := by
  obtain ⟨l, r⟩ := c
  have hlen := h.len
  have hpos := h.pos
  have hroom := h.room
  cases r with
  | nil =>
    refine ⟨s, if_neg ?_, h, by simp [Key.echo]⟩
    rw [UInt32.lt_iff_toNat_lt, hpos, hlen, Cursor.length_text]
    simp
  | cons x r =>
    simp only [Cursor.length_text, List.length_cons] at hlen hpos hroom
    have hone : (1 : UInt32).toNat = 1 := rfl
    obtain ⟨hsubl, hl⟩ := usub_of_le (a := s.len) (b := 1) (by omega)
    obtain ⟨buf, hshift, hbuf⟩ := Begins.takeOut h.text
    rw [List.length_reverse] at hshift
    have hheld : Holds ⟨buf, s.len - 1, s.pos, s.out ++ eraseToEnd⟩ ⟨l, r⟩ := by
      refine ⟨hbuf, ?_, ?_, ?_⟩ <;> simp only [Cursor.length_text] <;> omega
    refine ⟨_, ?_, hheld.send (r ++ List.replicate r.length 0x08), by simp [sciSend, Key.echo]⟩
    rw [delete, if_pos (by rw [UInt32.lt_iff_toNat_lt]; omega)]
    simp only [hsubl, Option.bind_eq_bind, Option.bind_some, hl, hpos, hlen, hone,
      show l.length + (r.length + 1) - 1 = l.length + r.length by omega, hshift]
    exact redraw_spec hheld

theorem insert_spec (h : s.Holds c) (ch : UInt8) (hch : isOrdinary ch) :
    ∃ s', s.insert ch = some s' ∧ s'.Holds ((Key.char ch hch).press (max_len.toNat - 1) c) ∧
      s'.out = s.out ++ (Key.char ch hch).echo (max_len.toNat - 1) c := by
  obtain ⟨l, r⟩ := c
  have hlen := h.len
  have hpos := h.pos
  have hroom := h.room
  have hmax := max_len.toNat_lt
  have hone : (1 : UInt32).toNat = 1 := rfl
  obtain ⟨hsub, hm⟩ := usub_of_le (a := max_len) (b := 1) (by omega)
  simp only [Key.press, Key.echo, insert, hsub, Option.bind_eq_bind, Option.bind_some]
  by_cases hfull : (⟨l, r⟩ : Cursor UInt8).text.length < max_len.toNat - 1
  · rw [if_pos (by rw [UInt32.lt_iff_toNat_lt]; omega), if_pos hfull, if_pos hfull]
    simp only [Cursor.length_text] at hlen hroom hfull
    obtain ⟨z, hz⟩ := h.text.next h.room
    obtain ⟨buf₁, y, hshift, hbuf₁⟩ := Begins.makeRoom (c := []) hz
    obtain ⟨buf₂, hstore, hbuf₂⟩ := Begins.stored (a := l.reverse) (x := y) (b := r) (by simpa using hbuf₁) ch
    rw [List.length_reverse] at hshift hstore
    have hl : (s.len + 1).toNat = l.length + r.length + 1 := by
      rw [UInt32.toNat_add, hlen, hone]
      omega
    have hp : (s.pos + 1).toNat = l.length + 1 := by
      rw [UInt32.toNat_add, hpos, hone]
      dsimp only
      omega
    have hheld : Holds ⟨buf₂, s.len + 1, s.pos + 1, s.out ++ ch :: r⟩ ((⟨l, r⟩ : Cursor UInt8).insert ch) := by
      refine ⟨by simpa [Cursor.text, Cursor.insert] using hbuf₂, ?_, ?_, ?_⟩ <;>
        simp only [Cursor.length_text, Cursor.insert, List.length_cons] <;> omega
    obtain ⟨hsubt, ht⟩ := usub_of_le (a := s.len + 1) (b := s.pos) (by dsimp only at hpos; omega)
    have htail : (s.len + 1 - s.pos).toNat = (ch :: r).length := by
      rw [ht, hl, hpos, List.length_cons]
      dsimp only
      omega
    refine ⟨_, ?_, hheld.send (List.replicate r.length 0x08), by simp [sciSend]⟩
    simp only [hlen, hpos, hshift, hstore, Option.bind_some, hsubt]
    rw [sciSendBuf_spec (a := l.reverse) (b := ch :: r) hbuf₂ htail (by simpa using hpos), Option.bind_some]
    exact goBack_spec hheld
  · rw [if_neg (by rw [UInt32.lt_iff_toNat_lt]; omega), if_neg hfull, if_neg hfull]
    exact ⟨s, rfl, h, (List.append_nil _).symm⟩

end

/-! ## Streams of keys -/

/-- The bytes that the keys send. -/
def bytesOf (keys : List Key) : List UInt8 := keys.flatMap Key.bytes

/-- A key that is not complete, and where the next byte of it is awaited. -/
def Incomplete : Awaited → List UInt8 → Prop
  | .key, rx => rx = []
  | .escape, rx => rx = [0x1b]
  | .sequence, rx => rx = [0x1b, 0x5b]
  | .tilde true, rx => rx = [0x1b, 0x5b, 0x33]
  | .tilde false, rx => ∃ d, isDigit d ∧ d ≠ 0x33 ∧ rx = [0x1b, 0x5b, d]

theorem digit_ne {d : UInt8} (h : isDigit d) : d ≠ 0x44 ∧ d ≠ 0x43 := by
  constructor <;>
  · rintro rfl
    exact absurd h (by decide)

theorem first_key (rx : List UInt8) :
    (∃ ch rest, isEnter ch ∧ rx = ch :: rest) ∨ (∃ k : Key, ∃ rest, rx = k.bytes ++ rest) ∨ ∃ a, Incomplete a rx := by
  rcases rx with _ | ⟨ch, rx⟩
  · exact .inr (.inr ⟨.key, rfl⟩)
  by_cases henter : isEnter ch
  · exact .inl ⟨ch, rx, henter, rfl⟩
  by_cases herase : isErase ch
  · exact .inr (.inl ⟨.backspace ch herase, rx, rfl⟩)
  by_cases hesc : ch = 0x1b
  · subst hesc
    rcases rx with _ | ⟨y, rx⟩
    · exact .inr (.inr ⟨.escape, rfl⟩)
    by_cases hbracket : y = 0x5b
    · subst hbracket
      rcases rx with _ | ⟨y, rx⟩
      · exact .inr (.inr ⟨.sequence, rfl⟩)
      by_cases hleft : y = 0x44
      · exact .inr (.inl ⟨.left, rx, by rw [hleft]; rfl⟩)
      by_cases hright : y = 0x43
      · exact .inr (.inl ⟨.right, rx, by rw [hright]; rfl⟩)
      by_cases hdigit : isDigit y
      · by_cases hdelete : y = 0x33
        · subst hdelete
          rcases rx with _ | ⟨x, rx⟩
          · exact .inr (.inr ⟨.tilde true, rfl⟩)
          · exact .inr (.inl ⟨.delete x, rx, rfl⟩)
        · rcases rx with _ | ⟨x, rx⟩
          · exact .inr (.inr ⟨.tilde false, y, hdigit, hdelete, rfl⟩)
          · exact .inr (.inl ⟨.digit y x ⟨hdigit, hdelete⟩, rx, rfl⟩)
      · exact .inr (.inl ⟨.sequence y ⟨hleft, hright, hdigit⟩, rx, rfl⟩)
    · exact .inr (.inl ⟨.escape y hbracket, rx, rfl⟩)
  · exact .inr (.inl ⟨.char ch ⟨henter, herase, hesc⟩, rx, rfl⟩)

/-- A stream is a sequence of keys up to Enter, or up to a key that is not complete. -/
theorem keys_of_stream (rx : List UInt8) :
    (∃ keys ch rest, isEnter ch ∧ rx = bytesOf keys ++ ch :: rest) ∨
      ∃ keys tail a, Incomplete a tail ∧ rx = bytesOf keys ++ tail := by
  induction hn : rx.length using Nat.strong_induction_on generalizing rx with
  | _ n ih =>
    subst hn
    rcases first_key rx with ⟨ch, rest, hch, rfl⟩ | ⟨k, rest, rfl⟩ | ⟨a, ha⟩
    · exact .inl ⟨[], ch, rest, hch, rfl⟩
    · have hshort : rest.length < (k.bytes ++ rest).length := by
        rw [List.length_append]
        cases k <;> simp [Key.bytes]
      rcases ih rest.length hshort rest rfl with ⟨keys, ch, rest', hch, heq⟩ | ⟨keys, tail, a, ha, heq⟩
      · exact .inl ⟨k :: keys, ch, rest', hch, by simp [bytesOf, heq]⟩
      · exact .inr ⟨k :: keys, tail, a, ha, by simp [bytesOf, heq]⟩
    · exact .inr ⟨[], rx, a, ha, rfl⟩

section

variable {max_len : UInt32} {s : FetchInput max_len} {c : Cursor UInt8}

theorem left_spec (h : s.Holds c) : ∃ s', s.receive 0x44 .sequence = some (some .key, s') ∧ s'.Holds c.moveLeft ∧
    s'.out = s.out ++ Key.left.echo (max_len.toNat - 1) c := by
  obtain ⟨l, r⟩ := c
  have hpos := h.pos
  cases l with
  | nil =>
    have hzero : ¬ s.pos > 0 := by
      rw [gt_iff_lt, UInt32.lt_iff_toNat_lt, hpos]
      simp
    exact ⟨s, by simp [receive, hzero], h, by simp [Key.echo]⟩
  | cons x l =>
    rw [List.length_cons] at hpos
    have hlt : s.pos > 0 := by
      rw [gt_iff_lt, UInt32.lt_iff_toNat_lt, hpos]
      exact Nat.succ_pos _
    obtain ⟨hsub, hnat⟩ := usub_of_le (a := s.pos) (b := 1) (by show 1 ≤ _; omega)
    refine ⟨{ s with pos := s.pos - 1 }.sciSend [0x08], by simp [receive, hlt, hsub],
      Holds.send ⟨?_, ?_, ?_, ?_⟩ _, rfl⟩
    · simpa [Cursor.text, Cursor.moveLeft] using h.text
    · simpa [Cursor.text, Cursor.moveLeft] using h.len
    · rw [hnat, hpos]
      rfl
    · simpa [Cursor.text, Cursor.moveLeft] using h.room

theorem right_spec (h : s.Holds c) : ∃ s', s.receive 0x43 .sequence = some (some .key, s') ∧ s'.Holds c.moveRight ∧
    s'.out = s.out ++ Key.right.echo (max_len.toNat - 1) c := by
  obtain ⟨l, r⟩ := c
  have hpos := h.pos
  have hlen := h.len
  rw [Cursor.length_text] at hlen
  dsimp only at hpos hlen
  cases r with
  | nil =>
    have hend : ¬ s.pos < s.len := by
      rw [UInt32.lt_iff_toNat_lt, hpos, hlen]
      simp
    exact ⟨s, by simp [receive, hend], h, by simp [Key.echo]⟩
  | cons x r =>
    have hlt : s.pos < s.len := by
      rw [UInt32.lt_iff_toNat_lt, hpos, hlen]
      simp
    have hmax := s.len.toNat_lt
    refine ⟨{ s with pos := s.pos + 1 }.sciSend cursorRight, by simp [receive, hlt],
      Holds.send ⟨?_, ?_, ?_, ?_⟩ _, rfl⟩
    · simpa [Cursor.text, Cursor.moveRight] using h.text
    · simpa [Cursor.text, Cursor.moveRight] using h.len
    · rw [UInt32.toNat_add, hpos]
      show (l.length + 1) % 2 ^ 32 = l.length + 1
      rw [List.length_cons] at hlen
      omega
    · simpa [Cursor.text, Cursor.moveRight] using h.room

theorem sequence_loop (s : FetchInput max_len) (rx : List UInt8) :
    s.fetch_input_loop .key (0x1b :: 0x5b :: rx) = s.fetch_input_loop .sequence rx := by
  simp [fetch_input_loop, receive]

theorem key_step (h : s.Holds c) (k : Key) (rx : List UInt8) :
    ∃ s' : FetchInput max_len, s.fetch_input_loop .key (k.bytes ++ rx) = s'.fetch_input_loop .key rx ∧
      s'.Holds (k.press (max_len.toNat - 1) c) ∧ s'.out = s.out ++ k.echo (max_len.toNat - 1) c := by
  cases k with
  | char ch hch =>
    obtain ⟨s', hs', hheld, hout⟩ := insert_spec h ch hch
    obtain ⟨henter, herase, hesc⟩ := hch
    refine ⟨s', ?_, hheld, hout⟩
    simp [Key.bytes, fetch_input_loop, receive, henter, herase, hesc, hs']
  | backspace ch hch =>
    obtain ⟨s', hs', hheld, hout⟩ := backspace_spec h ch hch
    have henter : ¬ isEnter ch := by
      rcases hch with rfl | rfl <;> decide
    refine ⟨s', ?_, hheld, hout⟩
    simp [Key.bytes, fetch_input_loop, receive, henter, hch, hs']
  | left =>
    obtain ⟨s', hs', hheld, hout⟩ := left_spec h
    refine ⟨s', ?_, hheld, hout⟩
    rw [Key.bytes, List.cons_append, List.cons_append, List.singleton_append, sequence_loop, fetch_input_loop, hs']
  | right =>
    obtain ⟨s', hs', hheld, hout⟩ := right_spec h
    refine ⟨s', ?_, hheld, hout⟩
    rw [Key.bytes, List.cons_append, List.cons_append, List.singleton_append, sequence_loop, fetch_input_loop, hs']
  | delete x =>
    obtain ⟨s', hs', hheld, hout⟩ := delete_spec h x
    refine ⟨s', ?_, hheld, hout⟩
    simp [Key.bytes, fetch_input_loop, receive, hs']
  | escape y hy => exact ⟨s, by simp [Key.bytes, fetch_input_loop, receive, hy], h, by simp [Key.echo]⟩
  | digit d x hd =>
    obtain ⟨hdigit, hne⟩ := hd
    obtain ⟨hleft, hright⟩ := digit_ne hdigit
    refine ⟨s, ?_, h, by simp [Key.echo]⟩
    simp [Key.bytes, fetch_input_loop, receive, hdigit, hne, hleft, hright]
  | sequence y hy =>
    obtain ⟨hleft, hright, hdigit⟩ := hy
    have hdelete : y ≠ 0x33 := by
      rintro rfl
      exact hdigit (by decide)
    refine ⟨s, ?_, h, by simp [Key.echo]⟩
    simp [Key.bytes, fetch_input_loop, receive, hdigit, hleft, hright, hdelete]

/-- Enter ends the string at `len`. -/
theorem enter_step (h : s.Holds c) {ch : UInt8} (hch : isEnter ch) (rest : List UInt8) :
    ∃ s' : FetchInput max_len, s.fetch_input_loop .key (ch :: rest) = .line s' rest ∧ s'.len = s.len ∧ s'.pos = s.pos ∧
      Begins s'.buf (c.text ++ [0]) := by
  obtain ⟨z, hz⟩ := h.text.next h.room
  obtain ⟨buf, hstore, hbuf⟩ := hz.stored 0
  rw [← h.len] at hstore
  refine ⟨⟨buf, s.len, s.pos, s.out ++ [0x0d, 0x0a]⟩, ?_, rfl, rfl, hbuf⟩
  rw [fetch_input_loop, receive, if_pos hch]
  simp only [sciSend, hstore, Option.bind_eq_bind, Option.bind_some]
  rfl

theorem incomplete_waits {a : Awaited} {tail : List UInt8} (ha : Incomplete a tail) :
    s.fetch_input_loop .key tail = .waits a s := by
  cases a with
  | key =>
    obtain rfl : tail = [] := ha
    rfl
  | escape =>
    obtain rfl : tail = [0x1b] := ha
    rfl
  | sequence =>
    obtain rfl : tail = [0x1b, 0x5b] := ha
    rfl
  | tilde delete =>
    cases delete with
    | true =>
      obtain rfl : tail = [0x1b, 0x5b, 0x33] := ha
      simp [fetch_input_loop, receive]
    | false =>
      obtain ⟨d, hdigit, hne, rfl⟩ := ha
      obtain ⟨hleft, hright⟩ := digit_ne hdigit
      simp [fetch_input_loop, receive, hdigit, hne, hleft, hright]

theorem keys_run (h : s.Holds c) (keys : List Key) (rx : List UInt8) :
    ∃ s' : FetchInput max_len, s.fetch_input_loop .key (bytesOf keys ++ rx) = s'.fetch_input_loop .key rx ∧
      s'.Holds (keys.foldl (Key.press (max_len.toNat - 1)) c) := by
  induction keys generalizing s c with
  | nil => exact ⟨s, rfl, h⟩
  | cons k keys ih =>
    obtain ⟨s₁, hrun₁, h₁, -⟩ := key_step h k (bytesOf keys ++ rx)
    obtain ⟨s₂, hrun₂, h₂⟩ := ih h₁
    refine ⟨s₂, ?_, h₂⟩
    rw [← hrun₂, ← hrun₁, bytesOf, List.flatMap_cons, List.append_assoc]
    rfl

end

/-! ## Whole lines -/

section

variable {max_len : UInt32}

def InBounds (s : FetchInput max_len) : Prop := s.pos ≤ s.len ∧ s.len ≤ max_len - 1

/-- The string that a `char *` to the array denotes. -/
def cString (buf : Vector UInt8 max_len.toNat) : List UInt8 := buf.toList.takeWhile (· ≠ 0)

/-- The first `len` bytes are the text and a NUL is behind them. As a C string the array is the text up to its
first NUL. -/
structure Stored (s : FetchInput max_len) (text : List UInt8) : Prop where
  bytes : s.buf.toList.take s.len.toNat = text
  nul : s.buf[s.len.toNat]? = some 0
  cString : cString s.buf = text.takeWhile (· ≠ 0)
  whole : 0 ∉ text → FetchInput.cString s.buf = text

theorem Holds.inBounds {s : FetchInput max_len} {c : Cursor UInt8} (h : s.Holds c) : s.InBounds := by
  have hlen := h.len
  have hpos := h.pos
  have hroom := h.room
  rw [Cursor.length_text] at hlen hroom
  have hone : (1 : UInt32).toNat = 1 := rfl
  obtain ⟨-, hmax⟩ := usub_of_le (a := max_len) (b := 1) (by omega)
  rw [InBounds, UInt32.le_iff_toNat_le, UInt32.le_iff_toNat_le]
  omega

theorem start_holds (hmax : 1 ≤ max_len) (buf : Vector UInt8 max_len.toNat) : Holds ⟨buf, 0, 0, []⟩ .empty :=
  ⟨List.nil_prefix, rfl, rfl, UInt32.le_iff_toNat_le.mp hmax⟩

theorem stored_of_begins {s : FetchInput max_len} {text : List UInt8} (h : Begins s.buf (text ++ [0]))
    (hlen : s.len.toNat = text.length) : s.Stored text := by
  have hnul : s.buf[s.len.toNat]? = some 0 := by
    rw [hlen]
    exact h.getElem?
  have hstring : cString s.buf = text.takeWhile (· ≠ 0) := by
    obtain ⟨t, ht⟩ := h
    rw [cString, ← ht, List.append_assoc, List.singleton_append, List.takeWhile_append]
    split
    · rename_i hall
      rw [(List.takeWhile_prefix _).eq_of_length hall]
      simp
    · rfl
  refine ⟨?_, hnul, hstring, fun hno => ?_⟩
  · obtain ⟨t, ht⟩ := h
    rw [← ht, hlen]
    simp
  · rw [hstring, List.takeWhile_eq_self_iff]
    intro ch hch
    simpa using fun heq : ch = 0 => hno (heq ▸ hch)

theorem enter_line (hmax : 1 ≤ max_len) (buf : Vector UInt8 max_len.toNat) (keys : List Key) {ch : UInt8}
    (hch : isEnter ch) (rest : List UInt8) :
    ∃ s, fetch_input buf (bytesOf keys ++ ch :: rest) = .line s rest ∧ s.InBounds ∧
      s.Stored (typedKeys (max_len.toNat - 1) keys).text := by
  obtain ⟨s₁, hrun, h₁⟩ := keys_run (start_holds hmax buf) keys (ch :: rest)
  obtain ⟨s₂, henter, hlen, hpos, hbuf⟩ := enter_step h₁ hch rest
  refine ⟨s₂, hrun.trans henter, ?_, stored_of_begins hbuf (by rw [hlen, h₁.len]; rfl)⟩
  rw [InBounds, hlen, hpos]
  exact h₁.inBounds

/-- For every stream: there is no fault, and the indices stay in bounds. The line ends at the first Enter that is not
part of another key, and the array holds what an editor with a cursor makes of the keys before it. -/
theorem line_editor (max_len : UInt32) (hmax : 1 ≤ max_len) (buf : Vector UInt8 max_len.toNat) (rx : List UInt8) :
    fetch_input buf rx ≠ .fault ∧ (∀ a s, fetch_input buf rx = .waits a s → s.InBounds) ∧
      (∀ s rest, fetch_input buf rx = .line s rest → ∃ keys ch, isEnter ch ∧ rx = bytesOf keys ++ ch :: rest) ∧
      ∀ keys ch rest, isEnter ch → rx = bytesOf keys ++ ch :: rest → ∃ s, fetch_input buf rx = .line s rest ∧
        s.InBounds ∧ s.Stored (typedKeys (max_len.toNat - 1) keys).text := by
  rcases keys_of_stream rx with ⟨keys, ch, rest, hch, rfl⟩ | ⟨keys, tail, a, ha, rfl⟩
  · obtain ⟨s, hs, -, -⟩ := enter_line hmax buf keys hch rest
    refine ⟨by simp [hs], by simp [hs], fun s' rest' h => ?_, fun keys' ch' rest' hch' h => ?_⟩
    · rw [hs] at h
      obtain ⟨-, rfl⟩ := Outcome.line.inj h
      exact ⟨keys, ch, hch, rfl⟩
    · rw [h]
      exact enter_line hmax buf keys' hch' rest'
  · obtain ⟨s, hrun, hs⟩ := keys_run (start_holds hmax buf) keys tail
    have hwaits : fetch_input buf (bytesOf keys ++ tail) = .waits a s := hrun.trans (incomplete_waits ha)
    refine ⟨by simp [hwaits], fun a' s' h => ?_, by simp [hwaits], fun keys' ch' rest' hch' h => ?_⟩
    · rw [hwaits] at h
      obtain ⟨-, rfl⟩ := Outcome.waits.inj h
      exact hs.inBounds
    · rw [h]
      exact enter_line hmax buf keys' hch' rest'

/-- `AB`, left, `C`, delete, an ignored Home, Enter. -/
def sampleKeys : List Key :=
  [.char 0x41 (by decide), .char 0x42 (by decide), .left, .char 0x43 (by decide), .delete 0x7e,
    .digit 0x31 0x7e (by decide)]

theorem line_editor_sample :
    @fetch_input 4 (Vector.replicate 4 0xff) (bytesOf sampleKeys ++ [0x0d]) ≠ .fault ∧
      ∃ s, @fetch_input 4 (Vector.replicate 4 0xff) (bytesOf sampleKeys ++ [0x0d]) = .line s [] ∧
        s.InBounds ∧ s.Stored [0x41, 0x43] := by
  obtain ⟨hfault, -, -, hline⟩ :=
    line_editor 4 (by decide) (Vector.replicate 4 0xff) (bytesOf sampleKeys ++ [0x0d])
  exact ⟨hfault, hline sampleKeys 0x0d [] (by decide) rfl⟩

/-- A NUL goes into the text like any other byte, and ends the C string. -/
theorem nul_cuts_line : ∃ keys : List Key, ∃ s,
    @fetch_input 32 (Vector.replicate 32 0) (bytesOf keys ++ [0x0d]) = .line s [] ∧
      (typedKeys 31 keys).text = [0x00, 0x41] ∧ cString s.buf = [] :=
  ⟨[.char 0x00 (by decide), .char 0x41 (by decide)], _, rfl, rfl, by decide⟩

end

/-! ## The prompts of the menu -/

section

open CmdChannel

/-- The line with its cursor, as the menu has it. -/
def editLine (c : Cursor UInt8) : EditLine := ⟨chars c.text, c.left.length⟩

theorem digit_char (d : UInt8) : ('0' ≤ char d ∧ char d ≤ '9') ↔ isDigit d := by
  have hle (a b : Char) : a ≤ b ↔ a.toNat ≤ b.toNat := Iff.rfl
  rw [hle, hle, char_toNat, isDigit, UInt8.le_iff_toNat_le, UInt8.le_iff_toNat_le]
  rfl

/-! Each edit does the same to the menu's line. -/

theorem editLine_insert (max_len : Nat) (c : Cursor UInt8) (ch : UInt8) :
    EditLine.insert max_len (editLine c) (char ch) =
      editLine (if c.text.length < max_len - 1 then c.insert ch else c) := by
  simp only [EditLine.insert, editLine, chars, List.length_map]
  split <;> simp [Cursor.text, Cursor.insert]

theorem editLine_backspace (c : Cursor UInt8) : EditLine.backspace (editLine c) = editLine c.backspace := by
  obtain ⟨l, r⟩ := c
  cases l with
  | nil => rfl
  | cons x l =>
    simp [EditLine.backspace, editLine, Cursor.backspace, Cursor.text, chars, List.eraseIdx_append_of_length_le]

theorem editLine_left (c : Cursor UInt8) : EditLine.left (editLine c) = editLine c.moveLeft := by
  obtain ⟨l, r⟩ := c
  cases l <;> simp [EditLine.left, editLine, Cursor.moveLeft, Cursor.text]

theorem editLine_right (c : Cursor UInt8) : EditLine.right (editLine c) = editLine c.moveRight := by
  obtain ⟨l, r⟩ := c
  cases r <;> simp [EditLine.right, editLine, Cursor.moveRight, Cursor.text, chars]

theorem editLine_delete (c : Cursor UInt8) : EditLine.delete (editLine c) = editLine c.delete := by
  obtain ⟨l, r⟩ := c
  cases r with
  | nil => simp [EditLine.delete, editLine, Cursor.delete, Cursor.text, chars]
  | cons x r => simp [EditLine.delete, editLine, Cursor.delete, Cursor.text, chars, List.eraseIdx_append_of_length_le]

/-- One key does the same to the menu's line. -/
theorem menu_key (max_len : Nat) (c : Cursor UInt8) (k : Key) (rx : List UInt8) :
    Firmware.fetch_input_loop max_len .key (editLine c) (chars (k.bytes ++ rx)) =
      Firmware.fetch_input_loop max_len .key (editLine (k.press (max_len - 1) c)) (chars rx) := by
  have hcr (b : UInt8) : char b = '\r' ↔ b = 0x0d := char_eq_iff b 0x0d
  have hlf (b : UInt8) : char b = '\n' ↔ b = 0x0a := char_eq_iff b 0x0a
  have hdel (b : UInt8) : char b = '\x7f' ↔ b = 0x7f := char_eq_iff b 0x7f
  have hbs (b : UInt8) : char b = '\x08' ↔ b = 0x08 := char_eq_iff b 0x08
  have hesc (b : UInt8) : char b = '\x1b' ↔ b = 0x1b := char_eq_iff b 0x1b
  have hbracket (b : UInt8) : char b = '[' ↔ b = 0x5b := char_eq_iff b 0x5b
  have hleft (b : UInt8) : char b = 'D' ↔ b = 0x44 := char_eq_iff b 0x44
  have hright (b : UInt8) : char b = 'C' ↔ b = 0x43 := char_eq_iff b 0x43
  have hthree (b : UInt8) : char b = '3' ↔ b = 0x33 := char_eq_iff b 0x33
  cases k with
  | char ch hch =>
    obtain ⟨henter, herase, hne⟩ := hch
    simp only [Key.bytes, chars, List.singleton_append, List.map_cons, Firmware.fetch_input_loop, hcr, hlf, hdel, hbs,
      hesc, if_neg henter, if_neg herase, if_neg hne, editLine_insert]
    rfl
  | backspace ch hch =>
    have henter : ¬ isEnter ch := by
      rcases hch with rfl | rfl <;> decide
    simp only [Key.bytes, chars, List.singleton_append, List.map_cons, Firmware.fetch_input_loop, hcr, hlf, hdel, hbs,
      if_neg henter, if_pos hch, editLine_backspace, Key.press]
  | left =>
    simp [Key.bytes, chars, Firmware.fetch_input_loop, hcr, hlf, hdel, hbs, hesc, hbracket, hleft, editLine_left,
      Key.press]
  | right =>
    simp [Key.bytes, chars, Firmware.fetch_input_loop, hcr, hlf, hdel, hbs, hesc, hbracket, hleft, hright,
      editLine_right, Key.press]
  | delete x =>
    simp [Key.bytes, chars, Firmware.fetch_input_loop, hcr, hlf, hdel, hbs, hesc, hbracket, hleft, hright, hthree,
      editLine_delete, Key.press]
  | escape y hy => simp [Key.bytes, chars, Firmware.fetch_input_loop, hcr, hlf, hdel, hbs, hesc, hbracket, hy, Key.press]
  | digit d x hd =>
    obtain ⟨hdigit, hne⟩ := hd
    obtain ⟨hneleft, hneright⟩ := digit_ne hdigit
    simp [Key.bytes, chars, Firmware.fetch_input_loop, hcr, hlf, hdel, hbs, hesc, hbracket, hleft, hright, hthree,
      digit_char, if_pos hdigit, hne, hneleft, hneright, Key.press]
  | sequence y hy =>
    obtain ⟨hneleft, hneright, hdigit⟩ := hy
    have hne : y ≠ 0x33 := by
      rintro rfl
      exact hdigit (by decide)
    simp [Key.bytes, chars, Firmware.fetch_input_loop, hcr, hlf, hdel, hbs, hesc, hbracket, hleft, hright, hthree,
      digit_char, if_neg hdigit, hne, hneleft, hneright, Key.press]

theorem menu_keys (max_len : Nat) (keys : List Key) (c : Cursor UInt8) (rx : List UInt8) :
    Firmware.fetch_input_loop max_len .key (editLine c) (chars (bytesOf keys ++ rx)) =
      Firmware.fetch_input_loop max_len .key (editLine (keys.foldl (Key.press (max_len - 1)) c)) (chars rx) := by
  induction keys generalizing c with
  | nil => rfl
  | cons k keys ih =>
    rw [bytesOf, List.flatMap_cons, List.append_assoc, menu_key]
    exact ih _

theorem menu_incomplete (max_len : Nat) (l : EditLine) {a : Awaited} {tail : List UInt8} (ha : Incomplete a tail) :
    Firmware.fetch_input_loop max_len .key l (chars tail) = none := by
  cases a with
  | key =>
    obtain rfl : tail = [] := ha
    rfl
  | escape =>
    obtain rfl : tail = [0x1b] := ha
    rfl
  | sequence =>
    obtain rfl : tail = [0x1b, 0x5b] := ha
    rfl
  | tilde delete =>
    cases delete with
    | true =>
      obtain rfl : tail = [0x1b, 0x5b, 0x33] := ha
      rfl
    | false =>
      obtain ⟨d, hdigit, hne, rfl⟩ := ha
      have hthree (b : UInt8) : char b = '3' ↔ b = 0x33 := char_eq_iff b 0x33
      have hleft (b : UInt8) : char b = 'D' ↔ b = 0x44 := char_eq_iff b 0x44
      have hright (b : UInt8) : char b = 'C' ↔ b = 0x43 := char_eq_iff b 0x43
      obtain ⟨hneleft, hneright⟩ := digit_ne hdigit
      have hesc : chars [0x1b, 0x5b, d] = ['\x1b', '[', char d] := rfl
      simp [hesc, Firmware.fetch_input_loop, hthree, hleft, hright, hne, hneleft, hneright]

/-- What a prompt of the menu reads is the C string in the array. -/
theorem menu_reads (max_len : UInt32) (hmax : 1 ≤ max_len) (buf : Vector UInt8 max_len.toNat) (rx : List UInt8)
    (f : Firmware) (is : List Interrupt) :
    Firmware.fetch_input max_len.toNat f ⟨chars rx, is⟩ =
      match fetch_input buf rx with
      | .line s _ => some (f.interrupts is, chars (cString s.buf))
      | _ => none := by
  have hnul (b : UInt8) : char b = '\x00' ↔ b = 0 := char_eq_iff b 0
  have hempty : (⟨[], 0⟩ : EditLine) = editLine .empty := rfl
  unfold Firmware.fetch_input
  rcases keys_of_stream rx with ⟨keys, ch, rest, hch, rfl⟩ | ⟨keys, tail, a, ha, rfl⟩
  · obtain ⟨s, hs, -, hstored⟩ := enter_line hmax buf keys hch rest
    have henter : char ch = '\r' ∨ char ch = '\n' :=
      hch.imp (char_eq_iff ch 0x0d).mpr (char_eq_iff ch 0x0a).mpr
    rw [hs, hempty, menu_keys]
    dsimp only
    rw [chars, List.map_cons, Firmware.fetch_input_loop, if_pos henter, Option.map_some, hstored.cString]
    simp only [editLine, chars, typedKeys, List.takeWhile_map, Function.comp_def, ne_eq, hnul]
  · obtain ⟨s, hrun, -⟩ := keys_run (start_holds hmax buf) keys tail
    have hwaits : fetch_input buf (bytesOf keys ++ tail) = .waits a s := hrun.trans (incomplete_waits ha)
    rw [hwaits, hempty, menu_keys, menu_incomplete _ _ ha]
    rfl

end

end FetchInput

end MultiIp
