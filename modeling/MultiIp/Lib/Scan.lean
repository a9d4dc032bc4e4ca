import Mathlib.Data.List.TakeWhile
import MultiIp.Lib.Text

/-!
# Tokens and the formats of `sscanf`

`%d` and `%<width>s` stop where they have to, which need not be the end of a
token. A format reads the tokens of a text exactly if it stops at each of them.
-/

namespace MultiIp.Lib

/-! ## Tokens -/

/-- The text is at its end or goes on with white space. -/
def AtBreak (s : Text) : Prop := ∀ c ∈ s.head?, isSpace c = true

instance (s : Text) : Decidable (AtBreak s) :=
  decidable_of_iff (s.head?.all isSpace = true) (by cases s <;> simp [AtBreak])

/-- The pieces between white space that are not empty. -/
def tokens (s : Text) : List Text := (s.splitOnP isSpace).filter (· ≠ [])

def firstToken (s : Text) : Text := (skipSpace s).takeWhile (fun c => !isSpace c)

def afterToken (s : Text) : Text := (skipSpace s).dropWhile (fun c => !isSpace c)

theorem atBreak_nil : AtBreak [] := by simp [AtBreak]

theorem atBreak_cons {c : Char} {s : Text} : AtBreak (c :: s) ↔ isSpace c = true := by simp [AtBreak]

theorem atBreak_blank (s : Text) : AtBreak (' ' :: s) := atBreak_cons.mpr rfl

theorem skipSpace_blank (s : Text) : skipSpace (' ' :: s) = skipSpace s := List.dropWhile_cons_of_pos rfl

theorem scanInt_blank (s : Text) : scanInt (' ' :: s) = scanInt s := by
  unfold scanInt
  rw [skipSpace_blank]

theorem scanWord_blank (width : Nat) (s : Text) : scanWord width (' ' :: s) = scanWord width s := by
  unfold scanWord
  rw [skipSpace_blank]

theorem tokens_space {c : Char} (hc : isSpace c = true) (s t : Text) : tokens (s ++ c :: t) = tokens s ++ tokens t := by
  rw [tokens, List.splitOnP_append_cons s t hc, List.filter_append]
  rfl

theorem tokens_cons_space {c : Char} (hc : isSpace c = true) (s : Text) : tokens (c :: s) = tokens s := by
  have h := tokens_space hc [] s
  rwa [List.nil_append, show tokens [] = [] from by simp [tokens, List.splitOnP_nil], List.nil_append] at h

theorem tokens_skipSpace (s : Text) : tokens (skipSpace s) = tokens s := by
  induction s with
  | nil => rfl
  | cons c s ih =>
    unfold skipSpace at ih ⊢
    rw [List.dropWhile_cons]
    split
    · rename_i hc
      rw [ih, tokens_cons_space hc]
    · rfl

theorem tokens_append {w s : Text} (hne : w ≠ []) (hw : ∀ c ∈ w, isSpace c = false) (hs : AtBreak s) :
    tokens (w ++ s) = w :: tokens s := by
  have hword : tokens w = [w] := by
    rw [tokens, List.splitOnP_eq_singleton (fun c hc => by simp [hw c hc])]
    simp [hne]
  cases s with
  | nil => simp [hword, show tokens [] = [] from by simp [tokens, List.splitOnP_nil]]
  | cons c s =>
    have hc := atBreak_cons.mp hs
    rw [tokens_space hc, hword, tokens_cons_space hc]
    rfl

section First

variable (s : Text)

theorem firstToken_append_after : firstToken s ++ afterToken s = skipSpace s := List.takeWhile_append_dropWhile

theorem isSpace_firstToken : ∀ c ∈ firstToken s, isSpace c = false := by
  intro c hc
  have h := List.mem_takeWhile_imp hc
  simpa using h

theorem atBreak_afterToken : AtBreak (afterToken s) := by
  intro c hc
  have h := List.head?_dropWhile_not (fun c => !isSpace c) (skipSpace s)
  unfold afterToken at hc
  rw [Option.mem_def] at hc
  rw [hc] at h
  simpa using h

theorem skipSpace_of_first {s : Text} (h : firstToken s = []) : skipSpace s = [] := by
  have hhead := List.head?_dropWhile_not isSpace s
  unfold firstToken at h
  cases hs : skipSpace s with
  | nil => rfl
  | cons c t =>
    rw [show s.dropWhile isSpace = c :: t from hs] at hhead
    rw [hs, List.takeWhile_cons_of_pos (by simpa using hhead)] at h
    cases h

theorem tokens_eq_nil : tokens s = [] ↔ skipSpace s = [] := by
  constructor
  · intro h
    refine skipSpace_of_first (by_contra fun hne => ?_)
    rw [← tokens_skipSpace, ← firstToken_append_after,
      tokens_append hne (isSpace_firstToken s) (atBreak_afterToken s)] at h
    cases h
  · intro h
    rw [← tokens_skipSpace, h]
    simp [tokens, List.splitOnP_nil]

theorem tokens_eq : tokens s = if firstToken s = [] then [] else firstToken s :: tokens (afterToken s) := by
  split
  · rename_i hnil
    exact (tokens_eq_nil s).mpr (skipSpace_of_first hnil)
  · rename_i hne
    rw [← tokens_skipSpace, ← firstToken_append_after]
    exact tokens_append hne (isSpace_firstToken s) (atBreak_afterToken s)

end First

/-! ## One conversion -/

inductive Item
  | int (n : Int)
  | word (w : Text)
  deriving DecidableEq

inductive Conv
  | int
  | word (width : Nat)

/-- What `%d` or `%<width>s` reads, and what it leaves. -/
def Conv.scan : Conv → Text → Option (Item × Text)
  | .int, s => (scanInt s).map (fun r => (.int r.1, r.2))
  | .word width, s => (scanWord width s).map (fun r => (.word r.1, r.2))

/-- The number that the token is, if it is a sign and digits and nothing else. -/
def intToken (t : Text) : Option Int :=
  match scanInt t with
  | some (n, []) => some n
  | _ => none

/-- What a complete token is as an argument. -/
def Conv.read : Conv → Text → Option Item
  | .int, t => (intToken t).map .int
  | .word _, t => some (.word t)

theorem skipSpace_token {t : Text} (hne : t ≠ []) (ht : ∀ c ∈ t, isSpace c = false) (s : Text) :
    skipSpace (t ++ s) = t ++ s := by
  obtain ⟨c, t, rfl⟩ := List.exists_cons_of_ne_nil hne
  simp [skipSpace, ht c List.mem_cons_self]

theorem scanSign_append {t : Text} (hne : t ≠ []) (s : Text) :
    scanSign (t ++ s) = ((scanSign t).1, (scanSign t).2 ++ s) := by
  obtain ⟨c, t, rfl⟩ := List.exists_cons_of_ne_nil hne
  by_cases hminus : c = '-'
  · subst hminus
    rfl
  · by_cases hplus : c = '+'
    · subst hplus
      rfl
    · simp [scanSign, hminus, hplus]

theorem AtBreak.not_digit {s : Text} (h : AtBreak s) : ∀ c ∈ s.head?, c.isDigit = false := by
  intro c hc
  have hsp := h c hc
  cases hd : c.isDigit with
  | false => rfl
  | true =>
    rw [isSpace_of_isDigit hd] at hsp
    cases hsp

theorem digits_append {s : Text} (hs : AtBreak s) (t : Text) :
    (t ++ s).takeWhile Char.isDigit = t.takeWhile Char.isDigit ∧
      (t ++ s).dropWhile Char.isDigit = t.dropWhile Char.isDigit ++ s := by
  induction t with
  | nil =>
    cases s with
    | nil => exact ⟨rfl, rfl⟩
    | cons c s => simp [hs.not_digit c rfl]
  | cons c t ih =>
    rw [List.cons_append, List.takeWhile_cons, List.dropWhile_cons, List.takeWhile_cons, List.dropWhile_cons]
    split
    · exact ⟨by rw [ih.1], ih.2⟩
    · exact ⟨rfl, rfl⟩

theorem scanInt_append {t s : Text} (hne : t ≠ []) (ht : ∀ c ∈ t, isSpace c = false) (hs : AtBreak s) :
    scanInt (t ++ s) = (scanInt t).map (fun r => (r.1, r.2 ++ s)) := by
  have hskip := skipSpace_token hne ht []
  obtain ⟨htake, hdrop⟩ := digits_append hs (scanSign t).2
  rw [List.append_nil] at hskip
  simp only [scanInt, skipSpace_token hne ht, hskip, scanSign_append hne, htake, hdrop]
  split <;> rfl

theorem scanWord_append {width : Nat} (hwidth : 0 < width) {t s : Text} (hne : t ≠ [])
    (ht : ∀ c ∈ t, isSpace c = false) (hs : AtBreak s) :
    scanWord width (t ++ s) = some (t.take width, t.drop width ++ s) := by
  have hword : ((t ++ s).take width).takeWhile (fun c => !isSpace c) = t.take width := by
    rw [List.take_append, List.takeWhile_append_of_pos (fun c hc => by simp [ht c (List.mem_of_mem_take hc)])]
    cases hk : width - t.length with
    | zero => simp
    | succ k =>
      cases s with
      | nil => simp
      | cons c s => simp [atBreak_cons.mp hs]
  have htake : t.take width ≠ [] := by
    rw [ne_eq, List.take_eq_nil_iff, not_or]
    exact ⟨by omega, hne⟩
  have hdrop : (t ++ s).drop (t.take width).length = t.drop width ++ s := by
    rw [List.length_take]
    rcases Nat.le_total width t.length with hle | hle
    · rw [Nat.min_eq_left hle, List.drop_append_of_le_length hle]
    · rw [Nat.min_eq_right hle, List.drop_left, List.drop_of_length_le hle, List.nil_append]
  simp only [scanWord, skipSpace_token hne ht, hword, if_neg htake, hdrop]

theorem scanWord_word {width : Nat} {w s : Text} (hne : w ≠ []) (hlen : w.length ≤ width)
    (hw : ∀ c ∈ w, isSpace c = false) (hs : AtBreak s) : scanWord width (w ++ s) = some (w, s) := by
  have hpos := List.length_pos_iff.mpr hne
  rw [scanWord_append (by omega) hne hw hs, List.take_of_length_le hlen, List.drop_of_length_le hlen, List.nil_append]

theorem skipSpace_skipSpace (s : Text) : skipSpace (skipSpace s) = skipSpace s := by
  have hhead := List.head?_dropWhile_not isSpace s
  unfold skipSpace
  cases hs : s.dropWhile isSpace with
  | nil => rfl
  | cons c t =>
    rw [hs] at hhead
    simp only [List.head?_cons] at hhead
    simp [hhead]

/-- `%0s` is not a conversion. -/
def Conv.Ok : Conv → Prop
  | .int => True
  | .word width => 0 < width

instance (c : Conv) : Decidable c.Ok := by
  unfold Conv.Ok
  cases c <;> infer_instance

theorem Conv.scan_skipSpace (c : Conv) (s : Text) : c.scan (skipSpace s) = c.scan s := by
  cases c with
  | int => simp only [Conv.scan, scanInt, skipSpace_skipSpace]
  | word width => simp only [Conv.scan, scanWord, skipSpace_skipSpace]

/-- A conversion works within the first token. -/
theorem Conv.scan_token {c : Conv} (hc : c.Ok) {t s : Text} (hne : t ≠ []) (ht : ∀ c ∈ t, isSpace c = false)
    (hs : AtBreak s) : c.scan (t ++ s) = (c.scan t).map (fun r => (r.1, r.2 ++ s)) := by
  cases c with
  | int =>
    rw [Conv.scan, scanInt_append hne ht hs, Conv.scan, Option.map_map, Option.map_map]
    rfl
  | word width =>
    have htok := scanWord_append hc hne ht atBreak_nil
    rw [List.append_nil, List.append_nil] at htok
    rw [Conv.scan, scanWord_append hc hne ht hs, Conv.scan, htok]
    rfl

theorem scan_nil (c : Conv) : c.scan [] = none := by
  cases c with
  | int => rfl
  | word width => simp [Conv.scan, scanWord, skipSpace]

/-- What it leaves of the token is nothing exactly if it read all of it. -/
theorem Conv.read_iff {c : Conv} (hc : c.Ok) {t x : Text} {i : Item} (hne : t ≠ []) (ht : ∀ c ∈ t, isSpace c = false)
    (h : c.scan t = some (i, x)) : c.read t = some i ↔ x = [] := by
  cases c with
  | int =>
    simp only [Conv.scan, Option.map_eq_some_iff, Prod.mk.injEq] at h
    obtain ⟨⟨n, y⟩, hscan, rfl, rfl⟩ := h
    cases y with
    | nil => simp [Conv.read, intToken, hscan]
    | cons d y => simp [Conv.read, intToken, hscan]
  | word width =>
    have htok := scanWord_append hc hne ht atBreak_nil
    rw [List.append_nil, List.append_nil] at htok
    rw [Conv.scan, htok] at h
    obtain ⟨rfl, rfl⟩ : Item.word (t.take width) = i ∧ t.drop width = x := by simpa using h
    rw [Conv.read, List.drop_eq_nil_iff, Option.some.injEq, Item.word.injEq]
    constructor
    · intro heq
      have hlen := congrArg List.length heq
      rw [List.length_take] at hlen
      omega
    · intro hle
      exact (List.take_of_length_le hle).symm

theorem scanSign_suffix (s : Text) : (scanSign s).2 <:+ s := by
  unfold scanSign
  split
  · exact List.suffix_cons _ _
  · exact List.suffix_cons _ _
  · exact List.suffix_refl _

theorem Conv.scan_suffix {c : Conv} {s x : Text} {i : Item} (h : c.scan s = some (i, x)) : x <:+ s := by
  have hskip : skipSpace s <:+ s := List.dropWhile_suffix _
  cases c with
  | int =>
    simp only [Conv.scan, scanInt, Option.map_eq_some_iff, Option.ite_none_left_eq_some] at h
    obtain ⟨_, ⟨-, hr⟩, hx⟩ := h
    cases hr
    cases hx
    exact ((List.dropWhile_suffix _).trans (scanSign_suffix _)).trans hskip
  | word width =>
    simp only [Conv.scan, scanWord, Option.map_eq_some_iff, Option.ite_none_left_eq_some] at h
    obtain ⟨_, ⟨-, hr⟩, hx⟩ := h
    cases hr
    cases hx
    exact (List.drop_suffix _ _).trans hskip

/-! ## Numbers -/

theorem scanInt_of_token {t : Text} {n : Int} (h : intToken t = some n) : scanInt t = some (n, []) := by
  unfold intToken at h
  split at h
  · cases h
    assumption
  · cases h

theorem intToken_decimal (n : Nat) : intToken (decimal n) = some (n : Int) := by
  have h := scanInt_decimal n (s := []) (by simp)
  rw [List.append_nil] at h
  rw [intToken, h]

theorem scanSign_plus {t : Text} (h : (scanSign t).1 = false) : t = (scanSign t).2 ∨ t = '+' :: (scanSign t).2 := by
  unfold scanSign at h ⊢
  split
  · cases h
  · exact Or.inr rfl
  · exact Or.inl rfl

/-- A positive token is digits, with or without a plus. -/
theorem intToken_digits {t : Text} (ht : ∀ c ∈ t, isSpace c = false) {n : Int} (h : intToken t = some n) (hn : 0 < n) :
    ∃ ds, (t = ds ∨ t = '+' :: ds) ∧ (∀ c ∈ ds, c.isDigit = true) ∧ n = (Nat.ofDigitChars 10 ds 0 : Nat) := by
  have hskip : skipSpace t = t := by
    rw [skipSpace, List.dropWhile_eq_self_iff]
    intro hlen
    simp [ht _ (List.getElem_mem hlen)]
  have hscan := scanInt_of_token h
  simp only [scanInt, hskip] at hscan
  split at hscan
  · cases hscan
  obtain ⟨hvalue, hrest⟩ := Prod.mk.inj (Option.some.inj hscan)
  have hdigits : ∀ c ∈ (scanSign t).2, c.isDigit = true := by simpa using hrest
  have hall : (scanSign t).2.takeWhile Char.isDigit = (scanSign t).2 := List.takeWhile_eq_self_iff.mpr hdigits
  rw [hall] at hvalue
  cases hsign : (scanSign t).1 with
  | true =>
    rw [hsign, if_pos rfl] at hvalue
    omega
  | false =>
    rw [hsign, if_neg Bool.false_ne_true] at hvalue
    exact ⟨(scanSign t).2, scanSign_plus hsign, hdigits, hvalue.symm⟩

theorem scanInt_digits {ds : Text} (hne : ds ≠ []) (hds : ∀ c ∈ ds, c.isDigit = true) :
    scanInt ds = some (((Nat.ofDigitChars 10 ds 0 : Nat) : Int), []) ∧
      scanInt ('+' :: ds) = some (((Nat.ofDigitChars 10 ds 0 : Nat) : Int), []) := by
  have hall : ds.takeWhile Char.isDigit = ds := List.takeWhile_eq_self_iff.mpr hds
  have hrest : ds.dropWhile Char.isDigit = [] := by simpa using hds
  obtain ⟨c, s, rfl⟩ := List.exists_cons_of_ne_nil hne
  have hc := hds c List.mem_cons_self
  have hrange := isDigit_range hc
  have hskip : skipSpace (c :: s) = c :: s := List.dropWhile_cons_of_neg (by simp [isSpace_of_isDigit hc])
  have hsign : scanSign (c :: s) = (false, c :: s) := by
    unfold scanSign
    split
    · rename_i heq
      rw [(List.cons.inj heq).1] at hrange
      simp at hrange
    · rename_i heq
      rw [(List.cons.inj heq).1] at hrange
      simp at hrange
    · rfl
  constructor
  · simp only [scanInt, hskip, hsign, hall, hrest]
    rfl
  · have hplus : scanSign (skipSpace ('+' :: c :: s)) = (false, c :: s) := rfl
    simp only [scanInt, hplus, hall, hrest]
    rfl

/-- Without its last digits a number is smaller. -/
theorem ofDigitChars_take_lt {ds : Text} (hpos : 0 < Nat.ofDigitChars 10 ds 0) {k : Nat} (hk : k < ds.length) :
    Nat.ofDigitChars 10 (ds.take k) 0 < Nat.ofDigitChars 10 ds 0 := by
  have hsplit : Nat.ofDigitChars 10 ds 0 =
      10 ^ (ds.drop k).length * Nat.ofDigitChars 10 (ds.take k) 0 + Nat.ofDigitChars 10 (ds.drop k) 0 := by
    rw [← Nat.ofDigitChars_eq_ofDigitChars_zero, ← Nat.ofDigitChars_append, List.take_append_drop]
  have hlen : (ds.drop k).length ≠ 0 := by
    rw [List.length_drop]
    omega
  have hpow : 2 ≤ 10 ^ (ds.drop k).length := (by omega : 2 ≤ 10).trans (Nat.le_self_pow hlen 10)
  have hmul := Nat.mul_le_mul_right (Nat.ofDigitChars 10 (ds.take k) 0) hpow
  omega

/-! ## Formats -/

/-- `sscanf` with the conversions, if all of them read something. -/
def scanf : List Conv → Text → Option (List Item × Text)
  | [], s => some ([], s)
  | c :: cs, s =>
    match c.scan s with
    | none => none
    | some (i, s) => (scanf cs s).map (fun r => (i :: r.1, r.2))

/-- Each conversion that reads something stops at a break. -/
def StopsAtBreaks : List Conv → Text → Prop
  | [], _ => True
  | c :: cs, s =>
    match c.scan s with
    | none => True
    | some (_, s) => AtBreak s ∧ StopsAtBreaks cs s

instance decidableStopsAtBreaks : (cs : List Conv) → (s : Text) → Decidable (StopsAtBreaks cs s)
  | [], _ => isTrue trivial
  | c :: cs, s => by
    unfold StopsAtBreaks
    cases c.scan s with
    | none => exact isTrue trivial
    | some r =>
      have := decidableStopsAtBreaks cs r.2
      infer_instance

/-- The first tokens as the arguments of a format, and the other tokens. -/
def readTokens : List Conv → List Text → Option (List Item × List Text)
  | [], ts => some ([], ts)
  | _ :: _, [] => none
  | c :: cs, t :: ts =>
    match c.read t with
    | none => none
    | some i => (readTokens cs ts).map (fun r => (i :: r.1, r.2))

/-- A conversion that reads something leaves the rest of the first token and what follows that. -/
theorem Conv.scan_first {c : Conv} (hc : c.Ok) {s r : Text} {i : Item} (h : c.scan s = some (i, r)) :
    ∃ x, firstToken s ≠ [] ∧ c.scan (firstToken s) = some (i, x) ∧ r = x ++ afterToken s := by
  rw [← c.scan_skipSpace, ← firstToken_append_after] at h
  by_cases hnil : firstToken s = []
  · rw [firstToken_append_after, skipSpace_of_first hnil, scan_nil] at h
    cases h
  · rw [Conv.scan_token hc hnil (isSpace_firstToken s) (atBreak_afterToken s), Option.map_eq_some_iff] at h
    obtain ⟨⟨j, x⟩, hscan, heq⟩ := h
    cases heq
    exact ⟨x, hnil, hscan, rfl⟩

/-- The rest of a token and a text at a break: it is at a break only if nothing of the token is left. -/
theorem atBreak_append {x s : Text} (hx : ∀ c ∈ x, isSpace c = false) (hs : AtBreak s) : AtBreak (x ++ s) ↔ x = [] := by
  cases x with
  | nil => simpa using hs
  | cons c x => simp [atBreak_cons, hx c List.mem_cons_self]

/-- What a format has read are the tokens if and only if it stopped at each of them. -/
theorem readTokens_iff {cs : List Conv} (hcs : ∀ c ∈ cs, c.Ok) {s r : Text} {is : List Item}
    (h : scanf cs s = some (is, r)) {ts : List Text} :
    readTokens cs (tokens s) = some (is, ts) ↔ StopsAtBreaks cs s ∧ ts = tokens r := by
  induction cs generalizing s is with
  | nil =>
    obtain ⟨rfl, rfl⟩ : [] = is ∧ s = r := by simpa [scanf] using h
    simp [readTokens, StopsAtBreaks, eq_comm]
  | cons c cs ih =>
    have hc := hcs c List.mem_cons_self
    unfold scanf at h
    unfold StopsAtBreaks
    split at h
    · cases h
    · rename_i i s' hscan
      obtain ⟨⟨js, q⟩, hrest, heq⟩ := Option.map_eq_some_iff.mp h
      cases heq
      obtain ⟨x, hne, hfirst, rfl⟩ := c.scan_first hc hscan
      have hx : ∀ d ∈ x, isSpace d = false :=
        fun d hd => isSpace_firstToken s d ((Conv.scan_suffix hfirst).subset hd)
      have hread := Conv.read_iff hc hne (isSpace_firstToken s) hfirst
      dsimp only
      rw [tokens_eq, if_neg hne, atBreak_append hx (atBreak_afterToken s)]
      unfold readTokens
      constructor
      · intro htok
        split at htok
        · cases htok
        · rename_i j hj
          obtain ⟨⟨ks, us⟩, hks, heq⟩ := Option.map_eq_some_iff.mp htok
          cases heq
          obtain rfl := hread.mp hj
          rw [List.nil_append] at hrest ⊢
          have h := (ih (fun c hc => hcs c (List.mem_cons_of_mem _ hc)) hrest).mp hks
          exact ⟨⟨rfl, h.1⟩, h.2⟩
      · rintro ⟨⟨rfl, hstops⟩, rfl⟩
        rw [List.nil_append] at hrest hstops
        have h := (ih (fun c hc => hcs c (List.mem_cons_of_mem _ hc)) hrest).mpr ⟨hstops, rfl⟩
        rw [hread.mpr rfl, h]
        rfl

end MultiIp.Lib
