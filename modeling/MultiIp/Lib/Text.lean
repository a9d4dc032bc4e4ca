import Mathlib.Algebra.Group.Nat.Defs
import Mathlib.Algebra.Ring.Int.Defs
import Mathlib.Data.List.Basic

/-!
# Text

Text is a list of characters; a byte is the character with its number. Here
are the scanners of C's `sscanf`, decimal numbers, words and lines.
-/

namespace MultiIp.Lib

abbrev Text := List Char

/-- C's `isspace`, and .NET's white space among the ASCII characters. -/
def isSpace (c : Char) : Bool := c == ' ' || (9 ≤ c.toNat && c.toNat ≤ 13)

def skipSpace (s : Text) : Text := s.dropWhile isSpace

/-! ## `sscanf` -/

/-- A sign and what follows it. -/
def scanSign : Text → Bool × Text
  | '-' :: s => (true, s)
  | '+' :: s => (false, s)
  | s => (false, s)

/-- `%d`, before the number is fitted into an `int`. -/
def scanInt (s : Text) : Option (Int × Text) :=
  let r := scanSign (skipSpace s)
  let digits := r.2.takeWhile Char.isDigit
  if digits = [] then none
  else
    let n : Int := Nat.ofDigitChars 10 digits 0
    some (if r.1 then -n else n, r.2.dropWhile Char.isDigit)

/-- `%<width>s`. -/
def scanWord (width : Nat) (s : Text) : Option (Text × Text) :=
  let s := skipSpace s
  let word := (s.take width).takeWhile (fun c => !isSpace c)
  if word = [] then none else some (word, s.drop word.length)

/-! ## Decimal numbers -/

/-- `%d` and `%u` of `printf`. -/
def decimal (n : Nat) : Text := Nat.toDigits 10 n

theorem isDigit_of_mem_decimal {n : Nat} {c : Char} (h : c ∈ decimal n) : c.isDigit = true :=
  Nat.isDigit_of_mem_toDigits (by decide) (by decide) h

theorem decimal_ne_nil (n : Nat) : decimal n ≠ [] := Nat.toDigits_ne_nil

theorem decimal_length_le {n k : Nat} (hk : 0 < k) (h : n < 10 ^ k) : (decimal n).length ≤ k :=
  (Nat.length_toDigits_le_iff (by decide) hk).mpr h

theorem ofDigitChars_decimal (n : Nat) : Nat.ofDigitChars 10 (decimal n) 0 = n := Nat.ofDigitChars_ten_toDigits

theorem decimal_inj {m n : Nat} (h : decimal m = decimal n) : m = n := by
  rw [← ofDigitChars_decimal m, h, ofDigitChars_decimal]

theorem takeWhile_isDigit_decimal (n : Nat) {s : Text} (hs : ∀ c ∈ s.head?, c.isDigit = false) :
    (decimal n ++ s).takeWhile Char.isDigit = decimal n := by
  rw [List.takeWhile_append_of_pos (fun c hc => isDigit_of_mem_decimal hc)]
  cases s with
  | nil => simp
  | cons c s => simp [hs c rfl]

theorem dropWhile_isDigit_decimal (n : Nat) {s : Text} (hs : ∀ c ∈ s.head?, c.isDigit = false) :
    (decimal n ++ s).dropWhile Char.isDigit = s := by
  rw [List.dropWhile_append_of_pos (fun c hc => isDigit_of_mem_decimal hc)]
  cases s with
  | nil => rfl
  | cons c s => simp [hs c rfl]

theorem isDigit_range {c : Char} (h : c.isDigit = true) : 48 ≤ c.toNat ∧ c.toNat ≤ 57 := by
  simp only [Char.isDigit, Bool.and_eq_true, decide_eq_true_eq] at h
  exact ⟨h.1, h.2⟩

theorem not_mem_decimal {n : Nat} {c : Char} (h : c.isDigit = false) : c ∉ decimal n := by
  intro hc
  rw [isDigit_of_mem_decimal hc] at h
  cases h

theorem isSpace_of_isDigit {c : Char} (h : c.isDigit = true) : isSpace c = false := by
  have hrange := isDigit_range h
  have hne : c ≠ ' ' := by
    rintro rfl
    simp at hrange
  simp only [isSpace, beq_eq_false_iff_ne.mpr hne, Bool.false_or]
  simp
  omega

theorem decimal_cons (n : Nat) : ∃ c t, decimal n = c :: t ∧ c.isDigit = true := by
  obtain ⟨c, t, hct⟩ := List.exists_cons_of_ne_nil (decimal_ne_nil n)
  exact ⟨c, t, hct, isDigit_of_mem_decimal (n := n) (by rw [hct]; exact List.mem_cons_self)⟩

theorem skipSpace_decimal (n : Nat) (s : Text) : skipSpace (decimal n ++ s) = decimal n ++ s := by
  obtain ⟨c, t, hct, hc⟩ := decimal_cons n
  simp [skipSpace, hct, isSpace_of_isDigit hc]

theorem scanSign_decimal (n : Nat) (s : Text) : scanSign (decimal n ++ s) = (false, decimal n ++ s) := by
  obtain ⟨c, t, hct, hc⟩ := decimal_cons n
  have hrange := isDigit_range hc
  rw [hct]
  unfold scanSign
  split
  · rename_i heq
    simp only [List.cons_append, List.cons.injEq] at heq
    rw [heq.1] at hrange
    simp at hrange
  · rename_i heq
    simp only [List.cons_append, List.cons.injEq] at heq
    rw [heq.1] at hrange
    simp at hrange
  · rfl

theorem scanInt_decimal (n : Nat) {s : Text} (hs : ∀ c ∈ s.head?, c.isDigit = false) :
    scanInt (decimal n ++ s) = some ((n : Int), s) := by
  simp only [scanInt, skipSpace_decimal, scanSign_decimal, takeWhile_isDigit_decimal n hs,
    dropWhile_isDigit_decimal n hs, decimal_ne_nil, if_false, ofDigitChars_decimal, Bool.false_eq_true]

/-! ## Words -/

/-- The pieces between blanks that are not empty. -/
def words (s : Text) : List Text := (s.splitOn ' ').filter (· ≠ [])

theorem words_blank (s t : Text) : words (s ++ ' ' :: t) = words s ++ words t := by
  simp [words, List.splitOn_append_cons_self]

theorem words_word {s : Text} (hne : s ≠ []) (h : ' ' ∉ s) : words s = [s] := by
  simp [words, List.splitOn_eq_singleton h, hne]

/-- The pieces with one blank between each two. -/
def unwords (ws : List Text) : Text := [' '].intercalate ws

theorem words_unwords {ws : List Text} (h : ∀ w ∈ ws, ' ' ∉ w) : words (unwords ws) = ws.filter (· ≠ []) := by
  cases ws with
  | nil => rfl
  | cons w ws => rw [words, unwords, List.splitOn_intercalate _ h (by simp)]

theorem length_unwords_le (ws : List Text) : (unwords ws).length ≤ ws.foldr (fun w n => w.length + 1 + n) 0 := by
  induction ws with
  | nil => exact Nat.zero_le _
  | cons w ws ih =>
    cases ws with
    | nil => simp [unwords]
    | cons x ws =>
      have hcut : (unwords (w :: x :: ws)).length = w.length + 1 + (unwords (x :: ws)).length := by
        simp only [unwords, List.intercalate_cons_cons, List.length_append, List.length_singleton]
      rw [hcut, List.foldr_cons]
      omega

theorem mem_intercalate {sep c : Char} {l : Text} {ls : List Text} (h : c ∈ [sep].intercalate (l :: ls)) :
    c = sep ∨ ∃ m ∈ l :: ls, c ∈ m := by
  induction ls generalizing l with
  | nil =>
    rw [List.intercalate_singleton] at h
    exact Or.inr ⟨l, List.mem_singleton_self l, h⟩
  | cons m ls ih =>
    rw [List.intercalate_cons_cons, List.append_assoc, List.mem_append, List.mem_append, List.mem_singleton] at h
    rcases h with h | h | h
    · exact Or.inr ⟨l, List.mem_cons_self, h⟩
    · exact Or.inl h
    · rcases ih h with h | ⟨k, hk, hc⟩
      · exact Or.inl h
      · exact Or.inr ⟨k, List.mem_cons_of_mem _ hk, hc⟩

/-! ## Joined texts -/

theorem intercalate_inj {sep : Char} {ls ms : List Text} (hl : ∀ l ∈ ls, sep ∉ l) (hm : ∀ m ∈ ms, sep ∉ m)
    (hls : ls ≠ []) (hms : ms ≠ []) (h : [sep].intercalate ls = [sep].intercalate ms) : ls = ms := by
  rw [← List.splitOn_intercalate sep hl hls, h, List.splitOn_intercalate sep hm hms]

theorem intercalate_eq_nil {sep : Char} {ls : List Text} (hl : ∀ l ∈ ls, l ≠ []) (h : [sep].intercalate ls = []) :
    ls = [] := by
  cases ls with
  | nil => rfl
  | cons l ls =>
    cases ls with
    | nil =>
      rw [List.intercalate_singleton] at h
      exact absurd h (hl l List.mem_cons_self)
    | cons m ls => simp [List.intercalate_cons_cons] at h

/-- Where no piece is empty, the empty text comes from no pieces only. -/
theorem intercalate_inj_words {sep : Char} {ls ms : List Text} (hl : ∀ l ∈ ls, l ≠ [] ∧ sep ∉ l)
    (hm : ∀ m ∈ ms, m ≠ [] ∧ sep ∉ m) (h : [sep].intercalate ls = [sep].intercalate ms) : ls = ms := by
  have hempty : ls = [] ↔ ms = [] := by
    constructor
    · rintro rfl
      exact intercalate_eq_nil (fun m hm' => (hm m hm').1) h.symm
    · rintro rfl
      exact intercalate_eq_nil (fun l hl' => (hl l hl').1) h
  by_cases hls : ls = []
  · rw [hls, hempty.mp hls]
  · exact intercalate_inj (fun l hl' => (hl l hl').2) (fun m hm' => (hm m hm').2) hls (mt hempty.mpr hls) h

/-! ## Lines -/

section Lines

variable {σ : Type*} (process : σ → Text → σ)

/-- Collects characters up to a line feed and hands the line to `process`. -/
def feedChar (p : Text × σ) (c : Char) : Text × σ :=
  if c = '\n' then ([], process p.2 p.1) else (p.1 ++ [c], p.2)

theorem feed_partial (buf s : Text) (st : σ) (h : '\n' ∉ s) :
    s.foldl (feedChar process) (buf, st) = (buf ++ s, st) := by
  induction s generalizing buf with
  | nil => simp
  | cons c s ih =>
    simp only [List.mem_cons, not_or] at h
    rw [List.foldl_cons, feedChar, if_neg (Ne.symm h.1), ih _ h.2]
    simp

theorem feed_line (buf s : Text) (st : σ) (h : '\n' ∉ s) :
    (s ++ ['\n']).foldl (feedChar process) (buf, st) = ([], process st (buf ++ s)) := by
  rw [List.foldl_append, feed_partial process buf s st h]
  simp [feedChar]

/-- The lines of a text, each with its line feed. What follows the last line feed is not a line. -/
def linesOf (s : Text) : List Text := (s.splitOn '\n').dropLast.map (· ++ ['\n'])

theorem of_mem_splitOn {a : Char} {s l : Text} (h : l ∈ s.splitOn a) : a ∉ l ∧ l.length ≤ s.length := by
  induction s generalizing l with
  | nil =>
    rw [List.splitOn_nil, List.mem_singleton] at h
    simp [h]
  | cons c s ih =>
    rw [List.splitOn_cons_eq_if_modifyHead] at h
    obtain ⟨m, ms, hm⟩ := List.exists_cons_of_ne_nil (List.splitOn_ne_nil a s)
    rw [hm] at ih h
    split at h
    · rcases List.mem_cons.mp h with rfl | h
      · simp
      · obtain ⟨h1, h2⟩ := ih h
        exact ⟨h1, Nat.le_succ_of_le h2⟩
    · rename_i hc
      rw [List.modifyHead_cons] at h
      rcases List.mem_cons.mp h with rfl | h
      · obtain ⟨h1, h2⟩ := ih List.mem_cons_self
        refine ⟨?_, Nat.succ_le_succ h2⟩
        rw [List.mem_cons, not_or]
        exact ⟨fun heq => hc (by simp [heq]), h1⟩
      · obtain ⟨h1, h2⟩ := ih (List.mem_cons_of_mem _ h)
        exact ⟨h1, Nat.le_succ_of_le h2⟩

theorem intercalate_append {sep : Char} (p l : Text) (ls : List Text) :
    [sep].intercalate ((p ++ l) :: ls) = p ++ [sep].intercalate (l :: ls) := by
  cases ls with
  | nil => simp
  | cons m ls => simp only [List.intercalate_cons_cons, List.append_assoc]

theorem linesOf_flatMap {ls : List Text} (h : ∀ l ∈ ls, '\n' ∉ l) :
    linesOf (ls.flatMap (· ++ ['\n'])) = ls.map (· ++ ['\n']) := by
  have hsplit : ((ls.flatMap (· ++ ['\n'])).splitOn '\n').dropLast = ls := by
    induction ls with
    | nil => rfl
    | cons l ls ih =>
      have hl : '\n' ∉ l := h l List.mem_cons_self
      rw [List.flatMap_cons, List.append_assoc, List.singleton_append, List.splitOn_append_cons_self_of_not_mem hl,
        List.dropLast_cons_of_ne_nil (List.splitOn_ne_nil _ _), ih (fun m hm => h m (List.mem_cons_of_mem _ hm))]
  rw [linesOf, hsplit]

/-- `qs` is `ps` with pieces of the kind `E` inserted anywhere. -/
inductive Inserted (E : Text → Prop) : List Text → List Text → Prop
  | nil : Inserted E [] []
  | keep {ps qs : List Text} (p : Text) (h : Inserted E ps qs) : Inserted E (p :: ps) (p :: qs)
  | insert {ps qs : List Text} {e : Text} (he : E e) (h : Inserted E ps qs) : Inserted E ps (e :: qs)

end Lines

end MultiIp.Lib
