import MultiIp.Board.Console

/-!
# The line buffer in memory

`cmd_channel_feed` on its array of 128 bytes. A write outside the array, and a
string without its NUL, are failures here; no byte stream leads to one.
-/

namespace MultiIp

open Lib Firmware

/-- `cmd_line` and `cmd_line_len`. -/
structure CmdChannel where
  cmd_line : Vector UInt8 CMD_LINE_MAX
  cmd_line_len : UInt16

namespace CmdChannel

/-! ## The code -/

def init : CmdChannel where
  cmd_line := Vector.replicate CMD_LINE_MAX 0
  cmd_line_len := 0

/-- `cmd_line[i] = ch`. -/
def write (s : CmdChannel) (i : Nat) (ch : UInt8) : Option CmdChannel :=
  if h : i < CMD_LINE_MAX then some { s with cmd_line := s.cmd_line.set i ch } else none

/-- The string that a `char *` to the array denotes. -/
def cString (buf : Vector UInt8 CMD_LINE_MAX) : Option (List UInt8) :=
  if 0 ∈ buf.toList then some (buf.toList.takeWhile (· ≠ 0)) else none

/-- Returns the string that `cmd_dispatch` is called with, if it is. No command writes to its line. -/
def cmd_channel_feed (s : CmdChannel) (ch : UInt8) : Option (CmdChannel × Option (List UInt8)) :=
  if ch = 13 ∨ ch = 10 then
    if s.cmd_line_len > 0 then do
      let s ← s.write s.cmd_line_len.toNat 0
      let line ← cString s.cmd_line
      return ({ s with cmd_line_len := 0 }, some line)
    else some (s, none)
  else if s.cmd_line_len < UInt16.ofNat CMD_LINE_MAX - 1 then do
    let s ← s.write s.cmd_line_len.toNat ch
    return ({ s with cmd_line_len := s.cmd_line_len + 1 }, none)
  else some (s, none)

/-- Feeds a stream byte by byte and collects the strings that are dispatched. -/
def feedAll (s : CmdChannel) : List UInt8 → Option (CmdChannel × List (List UInt8))
  | [] => some (s, [])
  | ch :: stream => do
    let (s, line) ← s.cmd_channel_feed ch
    let (s, lines) ← s.feedAll stream
    return (s, line.toList ++ lines)

/-! ## The lines of a stream -/

def isEnd (ch : UInt8) : Bool := ch == 13 || ch == 10

/-- The part of a line that fits the buffer, up to its first NUL. -/
def cut (line : List UInt8) : List UInt8 := (line.take (CMD_LINE_MAX - 1)).takeWhile (· ≠ 0)

/-- What a stream makes the board dispatch, without any state: the pieces between the line ends. -/
def dispatched (stream : List UInt8) : List (List UInt8) :=
  ((stream.splitOnP isEnd).dropLast.filter (· ≠ [])).map cut

/-- The bytes after the last line end. -/
def unfinished (stream : List UInt8) : List UInt8 := (stream.splitOnP isEnd).getLast (List.splitOnP_ne_nil _ _)

section Pieces

variable {line : List UInt8} (hline : ∀ ch ∈ line, isEnd ch = false)

include hline

theorem dispatched_line : dispatched line = [] := by
  simp [dispatched, List.splitOnP_eq_singleton hline]

theorem unfinished_line : unfinished line = line := by
  simp [unfinished, List.splitOnP_eq_singleton hline]

/-- A line end completes the piece in front of it, and what follows is a stream of its own. -/
theorem dispatched_end {ch : UInt8} (hch : isEnd ch = true) (stream : List UInt8) :
    dispatched (line ++ ch :: stream) = (if line = [] then [] else [cut line]) ++ dispatched stream := by
  unfold dispatched
  rw [List.splitOnP_append_cons_of_forall_mem hline ch hch, List.dropLast_cons_of_ne_nil (List.splitOnP_ne_nil _ _),
    List.filter_cons]
  by_cases hnil : line = [] <;> simp [hnil]

theorem unfinished_end {ch : UInt8} (hch : isEnd ch = true) (stream : List UInt8) :
    unfinished (line ++ ch :: stream) = unfinished stream := by
  unfold unfinished
  simp only [List.splitOnP_append_cons_of_forall_mem hline ch hch]
  exact List.getLast_cons _

end Pieces

/-! ## One byte -/

/-- The array holds what fits of the unfinished line. -/
structure Holds (s : CmdChannel) (line : List UInt8) : Prop where
  len : s.cmd_line_len.toNat = min (CMD_LINE_MAX - 1) line.length
  bytes : s.cmd_line.toList.take s.cmd_line_len.toNat = line.take (CMD_LINE_MAX - 1)

theorem init_holds : init.Holds [] := by
  refine ⟨rfl, ?_⟩
  simp [init]

theorem Holds.len_lt {s : CmdChannel} {line : List UInt8} (h : s.Holds line) : s.cmd_line_len.toNat < CMD_LINE_MAX := by
  have hlen := h.len
  have hmax : CMD_LINE_MAX = 128 := rfl
  omega

theorem toList_set (buf : Vector UInt8 CMD_LINE_MAX) {i : Nat} (hi : i < CMD_LINE_MAX) (ch : UInt8) :
    (buf.set i ch).toList = buf.toList.take i ++ ch :: buf.toList.drop (i + 1) := by
  rw [Vector.toList_set, List.set_eq_take_append_cons_drop, if_pos (by simpa using hi)]

theorem take_set (buf : Vector UInt8 CMD_LINE_MAX) {i : Nat} (hi : i < CMD_LINE_MAX) (ch : UInt8) :
    (buf.set i ch).toList.take (i + 1) = buf.toList.take i ++ [ch] := by
  have hlen : (buf.toList.take i).length = i := by simp; omega
  rw [toList_set buf hi, List.take_append, List.take_of_length_le (by omega)]
  simp [hlen]

/-- The NUL behind the stored bytes ends the string, and the stale bytes behind it are not seen. -/
theorem cString_set (buf : Vector UInt8 CMD_LINE_MAX) {i : Nat} (hi : i < CMD_LINE_MAX) :
    cString (buf.set i 0) = some ((buf.toList.take i).takeWhile (· ≠ 0)) := by
  unfold cString
  rw [toList_set buf hi, if_pos (by simp), List.takeWhile_append]
  split
  · rename_i hall
    rw [(List.takeWhile_prefix _).eq_of_length hall]
    simp
  · rfl

theorem Holds.byte {s : CmdChannel} {line : List UInt8} (h : s.Holds line) {ch : UInt8} (hch : isEnd ch = false) :
    ∃ s', s.cmd_channel_feed ch = some (s', none) ∧ s'.Holds (line ++ [ch]) := by
  have hlt := h.len_lt
  have hlen := h.len
  have hmax : CMD_LINE_MAX = 128 := rfl
  simp only [isEnd, Bool.or_eq_false_iff, beq_eq_false_iff_ne] at hch
  unfold cmd_channel_feed
  rw [if_neg (by simp [hch])]
  have hlast : (UInt16.ofNat CMD_LINE_MAX - 1).toNat = 127 := rfl
  by_cases hroom : line.length < CMD_LINE_MAX - 1
  · have hsucc : (s.cmd_line_len + 1).toNat = s.cmd_line_len.toNat + 1 := by
      rw [UInt16.toNat_add]
      simp
      omega
    rw [if_pos (by rw [UInt16.lt_iff_toNat_lt]; omega)]
    refine ⟨{ s with cmd_line := s.cmd_line.set s.cmd_line_len.toNat ch, cmd_line_len := s.cmd_line_len + 1 },
      by simp [write, hlt], ?_, ?_⟩
    · show (s.cmd_line_len + 1).toNat = _
      rw [hsucc, List.length_append, List.length_singleton]
      omega
    · show (s.cmd_line.set s.cmd_line_len.toNat ch hlt).toList.take (s.cmd_line_len + 1).toNat = _
      rw [hsucc, take_set s.cmd_line hlt, h.bytes, List.take_of_length_le (by omega),
        List.take_of_length_le (by rw [List.length_append, List.length_singleton]; omega)]
  · rw [if_neg (by rw [UInt16.lt_iff_toNat_lt]; omega)]
    refine ⟨s, rfl, ?_, ?_⟩
    · rw [List.length_append, List.length_singleton]
      omega
    · rw [h.bytes, List.take_append_of_le_length (by omega)]

theorem Holds.lineEnd {s : CmdChannel} {line : List UInt8} (h : s.Holds line) {ch : UInt8} (hch : isEnd ch = true) :
    ∃ s', s.cmd_channel_feed ch = some (s', if line = [] then none else some (cut line)) ∧ s'.Holds [] := by
  have hlt := h.len_lt
  have hlen := h.len
  have hmax : CMD_LINE_MAX = 128 := rfl
  simp only [isEnd, Bool.or_eq_true, beq_iff_eq] at hch
  unfold cmd_channel_feed
  rw [if_pos hch]
  by_cases hnil : line = []
  · have hzero : s.cmd_line_len.toNat = 0 := by simpa [hnil] using hlen
    rw [if_neg (by rw [gt_iff_lt, UInt16.lt_iff_toNat_lt]; simp [hzero]), if_pos hnil]
    exact ⟨s, rfl, hnil ▸ h⟩
  · have hpos := List.length_pos_of_ne_nil hnil
    rw [if_pos (by rw [gt_iff_lt, UInt16.lt_iff_toNat_lt]; simp; omega), if_neg hnil]
    refine ⟨{ s with cmd_line := s.cmd_line.set s.cmd_line_len.toNat 0, cmd_line_len := 0 }, ?_, rfl, ?_⟩
    · simp [write, hlt, cString_set, h.bytes, cut]
    · simp

/-! ## Whole streams -/

/-- Induction on the stream. The bytes of the line that was begun stand in front of it. -/
theorem Holds.feedAll {s : CmdChannel} {line : List UInt8} (h : s.Holds line) (hline : ∀ ch ∈ line, isEnd ch = false)
    (stream : List UInt8) :
    ∃ s', s.feedAll stream = some (s', dispatched (line ++ stream)) ∧ s'.Holds (unfinished (line ++ stream)) := by
  induction stream generalizing s line with
  | nil =>
    rw [List.append_nil, dispatched_line hline, unfinished_line hline]
    exact ⟨s, rfl, h⟩
  | cons ch stream ih =>
    cases hch : isEnd ch with
    | false =>
      obtain ⟨s₁, hfeed, h₁⟩ := h.byte hch
      obtain ⟨s₂, hrest, h₂⟩ := ih h₁ (by simpa [or_imp, forall_and, hch] using hline)
      rw [List.append_assoc, List.singleton_append] at hrest h₂
      refine ⟨s₂, ?_, h₂⟩
      simp [CmdChannel.feedAll, hfeed, hrest]
    | true =>
      obtain ⟨s₁, hfeed, h₁⟩ := h.lineEnd hch
      obtain ⟨s₂, hrest, h₂⟩ := ih h₁ (by simp)
      rw [List.nil_append] at hrest h₂
      rw [unfinished_end hline hch, dispatched_end hline hch]
      refine ⟨s₂, ?_, h₂⟩
      by_cases hnil : line = [] <;> simp [CmdChannel.feedAll, hfeed, hrest, hnil]

theorem dispatched_append {ch : UInt8} (hch : isEnd ch = true) (front rest : List UInt8) :
    dispatched (front ++ ch :: rest) = dispatched (front ++ [ch]) ++ dispatched rest := by
  unfold dispatched
  have hempty : List.splitOnP isEnd [] = [[]] := List.splitOnP_nil
  rw [List.splitOnP_append_cons _ _ hch, List.splitOnP_append_cons _ _ hch, hempty,
    List.dropLast_append_of_ne_nil (List.splitOnP_ne_nil _ _), List.dropLast_append_of_ne_nil (by simp)]
  simp

/-- For every stream, at each of its points: no write leaves the array, and the strings dispatched so far are
those of the pieces. The lines behind a line end depend on no byte in front of it. -/
theorem lines_of_stream (stream : List UInt8) :
    (∀ front, front <+: stream →
      ∃ s, init.feedAll front = some (s, dispatched front) ∧ s.cmd_line_len ≤ 127) ∧
    ∀ front ch rest, stream = front ++ ch :: rest → isEnd ch = true →
      ∃ s s₁ s₂ before after, init.feedAll stream = some (s, before ++ after) ∧
        init.feedAll (front ++ [ch]) = some (s₁, before) ∧ init.feedAll rest = some (s₂, after) := by
  have hlines (xs : List UInt8) : ∃ s, init.feedAll xs = some (s, dispatched xs) ∧ s.Holds (unfinished xs) :=
    init_holds.feedAll (by simp) xs
  refine ⟨fun front _ => ?_, ?_⟩
  · obtain ⟨s, hs, hholds⟩ := hlines front
    refine ⟨s, hs, ?_⟩
    have hlt := hholds.len_lt
    have hmax : CMD_LINE_MAX = 128 := rfl
    rw [UInt16.le_iff_toNat_le]
    show s.cmd_line_len.toNat ≤ 127
    omega
  · rintro front ch rest rfl hch
    obtain ⟨s, hs, -⟩ := hlines (front ++ ch :: rest)
    obtain ⟨s₁, hs₁, -⟩ := hlines (front ++ [ch])
    obtain ⟨s₂, hs₂, -⟩ := hlines rest
    rw [dispatched_append hch] at hs
    exact ⟨s, s₁, s₂, dispatched (front ++ [ch]), dispatched rest, hs, hs₁, hs₂⟩

/-- A CR LF pair, a NUL inside a line and an unfinished line. -/
theorem lines_of_sample : let stream : List UInt8 := [65, 13, 10, 66, 0, 67, 10, 68]
    (∃ s, init.feedAll stream = some (s, [[65], [66]]) ∧ s.cmd_line_len ≤ 127) ∧
      ∃ s s₁ s₂ before after, init.feedAll stream = some (s, before ++ after) ∧
        init.feedAll [65, 13, 10, 66, 0, 67, 10] = some (s₁, before) ∧ init.feedAll [68] = some (s₂, after) :=
  ⟨(lines_of_stream _).1 _ (List.prefix_refl _), (lines_of_stream _).2 [65, 13, 10, 66, 0, 67] 10 [68] rfl rfl⟩

/-! ## The channel of the board -/

/-- A byte is the character with its number. -/
def char (ch : UInt8) : Char := Char.ofNat ch.toNat

def chars (s : List UInt8) : Text := s.map char

theorem char_toNat (ch : UInt8) : (char ch).toNat = ch.toNat := by
  have hlt := ch.toNat_lt
  have hvalid : ch.toNat.isValidChar := Or.inl (by omega)
  unfold char Char.ofNat
  rw [dif_pos hvalid]
  rfl

theorem char_eq_iff (ch d : UInt8) : char ch = char d ↔ ch = d := by
  refine ⟨fun h => ?_, congrArg char⟩
  rw [← UInt8.toNat_inj, ← char_toNat, ← char_toNat, h]

theorem isEnd_char (ch : UInt8) : Console.isEnd (char ch) = isEnd ch := by
  have hcr : char ch = '\r' ↔ ch = 13 := char_eq_iff ch 13
  have hlf : char ch = '\n' ↔ ch = 10 := char_eq_iff ch 10
  rw [Bool.eq_iff_iff]
  simp only [Console.isEnd, isEnd, Bool.or_eq_true, beq_iff_eq, hcr, hlf]

theorem chars_cut (line : List UInt8) : chars (cut line) = Console.cutLine (chars line) := by
  have hnul (ch : UInt8) : char ch = '\x00' ↔ ch = 0 := char_eq_iff ch 0
  unfold chars cut Console.cutLine
  rw [← List.map_take, List.takeWhile_map]
  simp only [Function.comp_def, ne_eq, hnul]

/-- The board's line is what the array holds. -/
structure Stores (s : CmdChannel) (f : Firmware) (line : List UInt8) : Prop where
  holds : s.Holds line
  cmd_line : f.cmd_line = (chars line).take (CMD_LINE_MAX - 1)

/-- Byte by byte, `cmd_dispatch` of the board gets what the array holds. -/
theorem Stores.feed {s : CmdChannel} {f : Firmware} {line : List UInt8} (h : s.Stores f line) (env : Env) (ch : UInt8) :
    ∃ s' r line', s.cmd_channel_feed ch = some (s', r) ∧
      (Console.dispatchOf f env (char ch)).map Dispatch.line = r.toList.map chars ∧
      s'.Stores (Firmware.cmd_channel_feed f env (char ch)).1 line' := by
  cases hch : isEnd ch with
  | false =>
    obtain ⟨s', hfeed, hs'⟩ := h.holds.byte hch
    have hc : Console.isEnd (char ch) = false := by rw [isEnd_char, hch]
    refine ⟨s', none, line ++ [ch], hfeed, by simp [Console.dispatchOf, hc], hs', ?_⟩
    rw [Console.feed_byte env hc h.cmd_line]
    simp [chars]
  | true =>
    obtain ⟨s', hfeed, hs'⟩ := h.holds.lineEnd hch
    have hc : Console.isEnd (char ch) = true := by rw [isEnd_char, hch]
    by_cases hnil : line = []
    · have hline : f.cmd_line = [] := by simp [h.cmd_line, hnil, chars]
      rw [if_pos hnil] at hfeed
      refine ⟨s', none, [], hfeed, by simp [Console.dispatchOf, hline], hs', ?_⟩
      rw [Console.feed_empty env hc hline, hline]
      simp [chars]
    · have hline : f.cmd_line ≠ [] := by simp [h.cmd_line, hnil, chars]
      rw [if_neg hnil] at hfeed
      refine ⟨s', some (cut line), [], hfeed, ?_, hs', ?_⟩
      · rw [Option.toList_some, List.map_singleton, chars_cut]
        unfold Console.dispatchOf Console.cutLine
        rw [if_pos ⟨hc, List.length_pos_of_ne_nil hline⟩, List.map_singleton, h.cmd_line]
      · rw [Console.feed_end env hc hline]
        simp [chars]

end CmdChannel

end MultiIp
