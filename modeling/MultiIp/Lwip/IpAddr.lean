import MultiIp.Lib.Text
import MultiIp.Lwip.Basic

/-!
# Addresses as text

`ipaddr_aton` and `ipaddr_ntoa_r` of `lwip-1.4.1/src/core/ipv4/ip_addr.c`.
-/

namespace MultiIp.Lwip

open Lib

/-! ## Reading -/

def isxdigit (c : Char) : Bool := c.isDigit || ('a' ≤ c && c ≤ 'f') || ('A' ≤ c && c ≤ 'F')

/-- The inner loop: collects a number in base 8, 10 or 16. Base 8 takes the digits 8 and 9 too. -/
def ipaddr_aton_digits (base : UInt32) (val : UInt32) : Text → UInt32 × Text
  | [] => (val, [])
  | c :: cp =>
    if c.isDigit then ipaddr_aton_digits base (val * base + UInt32.ofNat (c.toNat - '0'.toNat)) cp
    else if base = 16 ∧ isxdigit c then
      ipaddr_aton_digits base (val <<< 4 ||| UInt32.ofNat (c.toNat + 10 - (if c.isLower then 'a' else 'A').toNat)) cp
    else (val, c :: cp)

/-- One number: `0x` is hexadecimal, a leading 0 octal. -/
def ipaddr_aton_number : Text → Option (UInt32 × Text)
  | '0' :: 'x' :: cp | '0' :: 'X' :: cp => some (ipaddr_aton_digits 16 0 cp)
  | '0' :: cp => some (ipaddr_aton_digits 8 0 cp)
  | c :: cp => if c.isDigit then some (ipaddr_aton_digits 10 0 (c :: cp)) else none
  | [] => none

/-- The outer loop, when `n` more dots may follow: the parts before the last dot, the last number and the rest. -/
def ipaddr_aton_parts : Nat → Text → Option (List UInt32 × UInt32 × Text)
  | n, cp =>
    match ipaddr_aton_number cp, n with
    | none, _ => none
    | some (_, '.' :: _), 0 => none
    | some (val, '.' :: cp), n + 1 => (ipaddr_aton_parts n cp).map (fun r => (val :: r.1, r.2))
    | some (val, cp), _ => some ([], val, cp)

def ipaddr_aton (cp : Text) : Option ip_addr_t :=
  match ipaddr_aton_parts 3 cp with
  | none => none
  | some (parts, val, rest) =>
    if rest.head?.any (fun c => !isSpace c) then none
    else
      match parts with
      | [] => some val
      | [a] => if val > 0xffffff then none else some (val ||| a <<< 24)
      | [a, b] => if val > 0xffff then none else some (val ||| a <<< 24 ||| b <<< 16)
      | [a, b, c] => if val > 0xff then none else some (val ||| a <<< 24 ||| b <<< 16 ||| c <<< 8)
      | _ => none

/-! ## Printing -/

/-- The bytes of the address in the order in which they are sent. -/
def octets (addr : ip_addr_t) : List UInt8 :=
  [(addr >>> 24).toUInt8, (addr >>> 16).toUInt8, (addr >>> 8).toUInt8, addr.toUInt8]

def ipaddr_ntoa (addr : ip_addr_t) : Text :=
  ['.'].intercalate ((octets addr).map (fun b => decimal b.toNat))

example : ipaddr_ntoa 0x0a00000a = "10.0.0.10".toList ∧ ipaddr_aton "10.0.0.10".toList = some 0x0a00000a := by decide

theorem ipaddr_ntoa_eq (addr : ip_addr_t) :
    ipaddr_ntoa addr =
      decimal (addr >>> 24).toUInt8.toNat ++ '.' :: (decimal (addr >>> 16).toUInt8.toNat ++
        '.' :: (decimal (addr >>> 8).toUInt8.toNat ++ '.' :: decimal addr.toUInt8.toNat)) := by
  simp [ipaddr_ntoa, octets, List.intercalate]

theorem mem_ipaddr_ntoa {addr : ip_addr_t} {c : Char} (h : c ∈ ipaddr_ntoa addr) :
    c.isDigit = true ∨ c = '.' := by
  rw [ipaddr_ntoa_eq] at h
  simp only [List.mem_append, List.mem_cons] at h
  rcases h with h | rfl | h | rfl | h | rfl | h
  · exact Or.inl (isDigit_of_mem_decimal h)
  · exact Or.inr rfl
  · exact Or.inl (isDigit_of_mem_decimal h)
  · exact Or.inr rfl
  · exact Or.inl (isDigit_of_mem_decimal h)
  · exact Or.inr rfl
  · exact Or.inl (isDigit_of_mem_decimal h)

theorem not_isSpace_ntoa {ip : ip_addr_t} {c : Char} (h : c ∈ ipaddr_ntoa ip) : isSpace c = false := by
  rcases mem_ipaddr_ntoa h with h | rfl
  · exact isSpace_of_isDigit h
  · decide

theorem ipaddr_ntoa_ne_nil (addr : ip_addr_t) : ipaddr_ntoa addr ≠ [] := by
  rw [ipaddr_ntoa_eq]
  simp [decimal_ne_nil]

/-- The text fits the 16 bytes that every caller has for it. -/
theorem ipaddr_ntoa_length (addr : ip_addr_t) : (ipaddr_ntoa addr).length ≤ 15 := by
  have hbyte : ∀ b : UInt8, (decimal b.toNat).length ≤ 3 := by
    intro b
    have := b.toNat_lt
    exact decimal_length_le (by decide) (by omega)
  have h1 := hbyte (addr >>> 24).toUInt8
  have h2 := hbyte (addr >>> 16).toUInt8
  have h3 := hbyte (addr >>> 8).toUInt8
  have h4 := hbyte addr.toUInt8
  rw [ipaddr_ntoa_eq]
  simp only [List.length_append, List.length_cons]
  omega

/-! ## Round trip -/

theorem ofNat_toUInt8 (x : UInt32) : (UInt32.ofNat x.toUInt8.toNat).toBitVec = (x.toBitVec.setWidth 8).setWidth 32 := by
  apply BitVec.eq_of_toNat_eq
  simp

theorem octet_bit (a k : UInt32) (hk : k.toNat < 32) {i : Nat} (hi : i < 32) :
    (UInt32.ofNat (a >>> k).toUInt8.toNat <<< k).toBitVec.getLsbD i =
      (decide (k.toNat ≤ i ∧ i < k.toNat + 8) && a.toBitVec.getLsbD i) := by
  have hmod : (k.toBitVec % 32).toNat = k.toNat := by
    show k.toNat % 32 = k.toNat
    exact Nat.mod_eq_of_lt hk
  rw [UInt32.toBitVec_shiftLeft, ofNat_toUInt8, UInt32.toBitVec_shiftRight]
  simp only [BitVec.shiftLeft_eq', BitVec.ushiftRight_eq', hmod, BitVec.getLsbD_shiftLeft, BitVec.getLsbD_setWidth,
    BitVec.getLsbD_ushiftRight]
  generalize k.toNat = k at *
  by_cases hle : k ≤ i
  · rw [Nat.add_sub_cancel' hle]
    by_cases h8 : i < k + 8
    · simp [hi, h8, hle, show i - k < 8 by omega, show i - k < 32 by omega]
    · simp [h8, show ¬ i - k < 8 by omega]
  · simp [hle, show i < k by omega]

theorem octets_join (a : UInt32) :
    UInt32.ofNat a.toUInt8.toNat ||| UInt32.ofNat (a >>> 24).toUInt8.toNat <<< 24 |||
      UInt32.ofNat (a >>> 16).toUInt8.toNat <<< 16 ||| UInt32.ofNat (a >>> 8).toUInt8.toNat <<< 8 = a := by
  apply UInt32.toBitVec_inj.1
  apply BitVec.eq_of_getLsbD_eq
  intro i hi
  have h0 : (UInt32.ofNat a.toUInt8.toNat).toBitVec.getLsbD i = (decide (i < 8) && a.toBitVec.getLsbD i) := by
    rw [ofNat_toUInt8]
    simp only [BitVec.getLsbD_setWidth, hi, decide_true, Bool.true_and]
  rw [UInt32.toBitVec_or, UInt32.toBitVec_or, UInt32.toBitVec_or, BitVec.getLsbD_or, BitVec.getLsbD_or,
    BitVec.getLsbD_or, h0, octet_bit a 24 (by decide) hi, octet_bit a 16 (by decide) hi, octet_bit a 8 (by decide) hi]
  have h24 : (24 : UInt32).toNat = 24 := rfl
  have h16 : (16 : UInt32).toNat = 16 := rfl
  have h8 : (8 : UInt32).toNat = 8 := rfl
  rw [h24, h16, h8]
  cases a.toBitVec.getLsbD i with
  | false => simp
  | true =>
    simp only [Bool.and_true, Bool.or_eq_true, decide_eq_true_eq]
    omega

/-- What stops a number: the end of the text or a dot. -/
def Stops (s : Text) : Prop := s = [] ∨ ∃ t, s = '.' :: t

/-- One or more decimal digits. -/
def IsNumber (ds : Text) : Prop := ds ≠ [] ∧ ∀ c ∈ ds, c.isDigit = true

instance (ds : Text) : Decidable (IsNumber ds) :=
  decidable_of_iff (ds ≠ [] ∧ ds.all Char.isDigit = true) (by simp [IsNumber])

/-- The number as C reads it: a leading 0 makes it octal. -/
def aton_value (ds : Text) : Nat := Nat.ofDigitChars (if ds.head? = some '0' then 8 else 10) ds 0

theorem isNumber_decimal (n : Nat) : IsNumber (decimal n) := ⟨decimal_ne_nil n, fun _ hc => isDigit_of_mem_decimal hc⟩

theorem aton_value_octet : ∀ b : Fin 256, aton_value (decimal b) = b := by decide +kernel

theorem aton_digits_stop (base val : UInt32) {s : Text} (hs : Stops s) : ipaddr_aton_digits base val s = (val, s) := by
  rcases hs with rfl | ⟨t, rfl⟩
  · rfl
  · rw [ipaddr_aton_digits, if_neg (by decide), if_neg (by simp [isxdigit])]

theorem aton_digits_value (base val : Nat) {ds : Text} (hds : ∀ c ∈ ds, c.isDigit = true) {s : Text} (hs : Stops s) :
    ipaddr_aton_digits (UInt32.ofNat base) (UInt32.ofNat val) (ds ++ s) =
      (UInt32.ofNat (Nat.ofDigitChars base ds val), s) := by
  induction ds generalizing val with
  | nil => exact aton_digits_stop _ _ hs
  | cons c ds ih =>
    rw [List.cons_append, ipaddr_aton_digits, if_pos (hds c List.mem_cons_self), ← UInt32.ofNat_mul, ← UInt32.ofNat_add,
      ih _ (fun c hc => hds c (List.mem_cons_of_mem _ hc)), Nat.ofDigitChars_cons, Nat.mul_comm val]

theorem aton_number_octal {s : Text} (h : ∀ c ∈ s.head?, c ≠ 'x' ∧ c ≠ 'X') :
    ipaddr_aton_number ('0' :: s) = some (ipaddr_aton_digits 8 0 s) := by
  unfold ipaddr_aton_number
  split
  · rename_i heq
    rw [(List.cons.inj heq).2] at h
    exact absurd rfl (h _ rfl).1
  · rename_i heq
    rw [(List.cons.inj heq).2] at h
    exact absurd rfl (h _ rfl).2
  · rename_i heq
    rw [(List.cons.inj heq).2]
  · rename_i hno heq
    exact (hno (List.cons.inj heq).1.symm).elim
  · rename_i heq
    cases heq

theorem aton_number_decimal {c : Char} (hc : c.isDigit = true) (h0 : c ≠ '0') (s : Text) :
    ipaddr_aton_number (c :: s) = some (ipaddr_aton_digits 10 0 (c :: s)) := by
  unfold ipaddr_aton_number
  split
  · rename_i heq
    exact absurd (List.cons.inj heq).1 h0
  · rename_i heq
    exact absurd (List.cons.inj heq).1 h0
  · rename_i heq
    exact absurd (List.cons.inj heq).1 h0
  · rename_i heq
    obtain ⟨rfl, rfl⟩ := List.cons.inj heq
    rw [if_pos hc]
  · rename_i heq
    cases heq

theorem aton_number_value {ds s : Text} (hds : IsNumber ds) (hs : Stops s) :
    ipaddr_aton_number (ds ++ s) = some (UInt32.ofNat (aton_value ds), s) := by
  obtain ⟨hne, hdigit⟩ := hds
  obtain ⟨c, t, rfl⟩ := List.exists_cons_of_ne_nil hne
  by_cases h0 : c = '0'
  · subst h0
    have htail : ∀ d ∈ t, d.isDigit = true := fun d hd => hdigit d (List.mem_cons_of_mem _ hd)
    have hnext : ∀ d ∈ (t ++ s).head?, d ≠ 'x' ∧ d ≠ 'X' := by
      intro d hd
      rw [← not_or]
      rintro (rfl | rfl)
      all_goals
        cases t with
        | nil => rcases hs with rfl | ⟨u, rfl⟩ <;> simp at hd
        | cons d t =>
          obtain rfl : d = _ := by simpa using hd
          exact absurd (htail _ List.mem_cons_self) (by decide)
    have hvalue : aton_value ('0' :: t) = Nat.ofDigitChars 8 t 0 := by simp [aton_value, Nat.ofDigitChars_cons]
    rw [List.cons_append, aton_number_octal hnext, hvalue]
    exact congrArg some (aton_digits_value 8 0 htail hs)
  · have hvalue : aton_value (c :: t) = Nat.ofDigitChars 10 (c :: t) 0 := by simp [aton_value, h0]
    rw [List.cons_append, aton_number_decimal (hdigit c List.mem_cons_self) h0, hvalue]
    exact congrArg some (aton_digits_value 10 0 hdigit hs)

theorem aton_parts_dot {ds : Text} (hds : IsNumber ds) (n : Nat) (s : Text) :
    ipaddr_aton_parts (n + 1) (ds ++ '.' :: s) =
      (ipaddr_aton_parts n s).map (fun r => (UInt32.ofNat (aton_value ds) :: r.1, r.2)) := by
  conv_lhs => unfold ipaddr_aton_parts
  rw [aton_number_value hds (Or.inr ⟨s, rfl⟩)]
  rfl

theorem aton_parts_last {ds : Text} (hds : IsNumber ds) (n : Nat) :
    ipaddr_aton_parts n ds = some ([], UInt32.ofNat (aton_value ds), []) := by
  have h := aton_number_value hds (Or.inl rfl : Stops [])
  rw [List.append_nil] at h
  unfold ipaddr_aton_parts
  rw [h]

/-- Four numbers with dots between them. -/
def dotted (a b c d : Text) : Text := a ++ '.' :: (b ++ '.' :: (c ++ '.' :: d))

/-- Only the last number is compared with 255. -/
theorem aton_dotted {a b c d : Text} (ha : IsNumber a) (hb : IsNumber b) (hc : IsNumber c) (hd : IsNumber d) :
    ipaddr_aton (dotted a b c d) =
      if UInt32.ofNat (aton_value d) > 0xff then none
      else some (UInt32.ofNat (aton_value d) ||| UInt32.ofNat (aton_value a) <<< 24 |||
        UInt32.ofNat (aton_value b) <<< 16 ||| UInt32.ofNat (aton_value c) <<< 8) := by
  rw [ipaddr_aton, dotted, aton_parts_dot ha, aton_parts_dot hb, aton_parts_dot hc, aton_parts_last hd]
  rfl

theorem ofDigitChars_lt {base : Nat} (hbase : base ≤ 10) {ds : Text} (hds : ∀ c ∈ ds, c.isDigit = true) (val : Nat) :
    Nat.ofDigitChars base ds val < 10 ^ ds.length * (val + 1) := by
  induction ds generalizing val with
  | nil => simp
  | cons c ds ih =>
    have hc := isDigit_range (hds c List.mem_cons_self)
    have hstep : base * val + (c.toNat - '0'.toNat) + 1 ≤ 10 * (val + 1) := by
      have hmul : base * val ≤ 10 * val := Nat.mul_le_mul_right _ hbase
      show base * val + (c.toNat - 48) + 1 ≤ 10 * (val + 1)
      omega
    calc Nat.ofDigitChars base (c :: ds) val
        = Nat.ofDigitChars base ds (base * val + (c.toNat - '0'.toNat)) := Nat.ofDigitChars_cons
      _ < 10 ^ ds.length * (base * val + (c.toNat - '0'.toNat) + 1) := ih (fun c hc => hds c (List.mem_cons_of_mem _ hc)) _
      _ ≤ 10 ^ ds.length * (10 * (val + 1)) := Nat.mul_le_mul_left _ hstep
      _ = 10 ^ (c :: ds).length * (val + 1) := by rw [List.length_cons, Nat.pow_succ, Nat.mul_assoc]

theorem aton_value_lt {ds : Text} (hds : IsNumber ds) : aton_value ds < 10 ^ ds.length := by
  have hbase : (if ds.head? = some '0' then 8 else 10) ≤ 10 := by split <;> omega
  have h := ofDigitChars_lt hbase hds.2 0
  rwa [Nat.zero_add, Nat.mul_one] at h

theorem ntoa_join {a b c d : Nat} (ha : a < 256) (hb : b < 256) (hc : c < 256) (hd : d < 256) :
    ipaddr_ntoa (UInt32.ofNat d ||| UInt32.ofNat a <<< 24 ||| UInt32.ofNat b <<< 16 ||| UInt32.ofNat c <<< 8) =
      dotted (decimal a) (decimal b) (decimal c) (decimal d) := by
  obtain ⟨x, hx⟩ : ∃ x : UInt32, x.toNat = a * 2 ^ 24 + b * 2 ^ 16 + c * 2 ^ 8 + d :=
    ⟨UInt32.ofNat _, UInt32.toNat_ofNat_of_lt' (by show _ < 2 ^ 32; omega)⟩
  have h24 : (x >>> 24).toUInt8.toNat = a := by
    simp [Nat.shiftRight_eq_div_pow, hx]
    omega
  have h16 : (x >>> 16).toUInt8.toNat = b := by
    simp [Nat.shiftRight_eq_div_pow, hx]
    omega
  have h8 : (x >>> 8).toUInt8.toNat = c := by
    simp [Nat.shiftRight_eq_div_pow, hx]
    omega
  have h0 : x.toUInt8.toNat = d := by
    simp [hx]
    omega
  have hjoin := octets_join x
  rw [h24, h16, h8, h0] at hjoin
  rw [hjoin, ipaddr_ntoa_eq, h24, h16, h8, h0, dotted]

theorem aton_ntoa (addr : ip_addr_t) : ipaddr_aton (ipaddr_ntoa addr) = some addr := by
  have hbyte : ∀ b : UInt8, ¬ UInt32.ofNat b.toNat > 0xff := by
    intro b h
    have hlt := b.toNat_lt
    rw [gt_iff_lt, UInt32.lt_iff_toNat_lt, UInt32.toNat_ofNat', show (0xff : UInt32).toNat = 255 from rfl] at h
    omega
  have hvalue : ∀ b : UInt8, aton_value (decimal b.toNat) = b.toNat := fun b => aton_value_octet ⟨b.toNat, b.toNat_lt⟩
  have hdotted := aton_dotted (isNumber_decimal (addr >>> 24).toUInt8.toNat) (isNumber_decimal (addr >>> 16).toUInt8.toNat)
    (isNumber_decimal (addr >>> 8).toUInt8.toNat) (isNumber_decimal addr.toUInt8.toNat)
  rw [hvalue, hvalue, hvalue, hvalue, if_neg (hbyte _), octets_join] at hdotted
  rw [ipaddr_ntoa_eq]
  exact hdotted

end MultiIp.Lwip
