import MultiIp.Lwip.Pbuf
import Mathlib.Data.List.Range

/-!
# The first pbuf of a received chain

A `PBUF_POOL` pbuf points into a buffer that can be larger than what it holds.
The code reads headers through `payload`, so it reads that memory, whether or
not the bytes belong to the packet.
-/

namespace MultiIp.Lwip

structure RxPbuf where
  /-- The memory behind `struct pbuf`: the buffer and whatever follows it. -/
  mem : Nat → UInt8
  /-- The payload pointer, counted from the end of `struct pbuf`. -/
  payload : Nat
  len : UInt16
  tot_len : UInt16
  /-- The bytes of the pbufs behind this one. -/
  next : List UInt8

namespace RxPbuf

/-- `((u8_t *)p->payload)[k]`. -/
def byteAt (p : RxPbuf) (k : Nat) : UInt8 := p.mem (p.payload + k)

/-- `*(u16_t *)((u8_t *)p->payload + k)`. -/
def shortAt (p : RxPbuf) (k : Nat) : UInt16 := (p.byteAt k).toUInt16 <<< 8 ||| (p.byteAt (k + 1)).toUInt16

/-- `*(u32_t *)((u8_t *)p->payload + k)`. -/
def longAt (p : RxPbuf) (k : Nat) : UInt32 := (p.shortAt k).toUInt32 <<< 16 ||| (p.shortAt (k + 2)).toUInt32

/-- The bytes of the first pbuf and those behind it. -/
def segs (p : RxPbuf) : List (List UInt8) := [(List.range p.len.toNat).map p.byteAt, p.next]

/-- The bytes that belong to the packet. -/
def bytes (p : RxPbuf) : List UInt8 := (List.range p.len.toNat).map p.byteAt ++ p.next

/-- Moves the payload pointer back by `header_size_increment`. Returns true on failure, as the source does. -/
def pbuf_header (p : RxPbuf) (header_size_increment : Int) : RxPbuf × Bool :=
  if header_size_increment = 0 then (p, false)
  else if header_size_increment < 0 ∧ (p.len.toNat : Int) < -header_size_increment then (p, true)
  else if (p.payload : Int) - header_size_increment < 0 then (p, true)
  else
    ({ p with
        payload := ((p.payload : Int) - header_size_increment).toNat
        len := p.len + UInt16.ofInt header_size_increment
        tot_len := p.tot_len + UInt16.ofInt header_size_increment }, false)

/-- Cuts a chain that is longer than `new_len`. -/
def pbuf_realloc (p : RxPbuf) (new_len : UInt16) : RxPbuf :=
  if new_len ≥ p.tot_len then p
  else
    { p with
        len := if new_len < p.len then new_len else p.len
        tot_len := new_len
        next := p.next.take (new_len.toNat - p.len.toNat) }

theorem ofInt_natCast (h : Nat) : UInt16.ofInt (h : Int) = UInt16.ofNat h := by
  apply UInt16.toNat_inj.mp
  rw [UInt16.ofInt, UInt16.toNat_ofNat', UInt16.toNat_ofNat']
  omega

/-- The chain with a header of `h` bytes hidden. -/
def hide (p : RxPbuf) (h : Nat) : RxPbuf :=
  { p with payload := p.payload + h, len := p.len - UInt16.ofNat h, tot_len := p.tot_len - UInt16.ofNat h }

theorem pbuf_header_hide {p : RxPbuf} {h : Nat} (hlen : h ≤ p.len.toNat) : pbuf_header p (-h) = (p.hide h, false) := by
  unfold pbuf_header hide
  split
  · rename_i hzero
    obtain rfl : h = 0 := by omega
    simp
  · rw [if_neg (by omega), if_neg (by omega)]
    have hpay : ((p.payload : Int) - -(h : Int)).toNat = p.payload + h := by omega
    rw [hpay, UInt16.ofInt_neg, ofInt_natCast, UInt16.sub_eq_add_neg, UInt16.sub_eq_add_neg]

theorem pbuf_header_hide_fails {p : RxPbuf} {h : Nat} (hlen : p.len.toNat < h) : pbuf_header p (-h) = (p, true) := by
  unfold pbuf_header
  rw [if_neg (by omega), if_pos (by omega)]

theorem pbuf_header_back (p : RxPbuf) (h : Nat) : pbuf_header (p.hide h) h = (p, false) := by
  unfold pbuf_header hide
  split
  · rename_i hzero
    obtain rfl : h = 0 := by omega
    simp
  · rw [if_neg (by omega), if_neg (by dsimp only; omega)]
    have hpay : (((p.payload + h : Nat) : Int) - (h : Int)).toNat = p.payload := by omega
    dsimp only
    rw [hpay, ofInt_natCast, UInt16.sub_add_cancel, UInt16.sub_add_cancel]

theorem bytes_length {p : RxPbuf} : p.bytes.length = p.len.toNat + p.next.length := by
  simp [bytes]

/-- What is read within `len` belongs to the packet. -/
theorem bytes_getElem {p : RxPbuf} {k : Nat} (h : k < p.len.toNat) : p.bytes[k]? = some (p.byteAt k) := by
  rw [bytes, List.getElem?_append_left (by simpa using h)]
  simp [h]

/-! ## A chain without its first bytes -/

/-- `tot_len` counts the bytes of the chain. -/
def Whole (p : RxPbuf) : Prop := p.tot_len.toNat = p.bytes.length

section Hide

variable {p : RxPbuf} {h : Nat}

@[simp] theorem hide_byteAt (k : Nat) : (p.hide h).byteAt k = p.byteAt (h + k) := by
  simp only [hide, byteAt, Nat.add_assoc]

@[simp] theorem hide_shortAt (k : Nat) : (p.hide h).shortAt k = p.shortAt (h + k) := by
  simp only [shortAt, hide_byteAt, Nat.add_assoc]

@[simp] theorem hide_longAt (k : Nat) : (p.hide h).longAt k = p.longAt (h + k) := by
  simp only [longAt, hide_shortAt, Nat.add_assoc]

theorem hide_len (hlen : h ≤ p.len.toNat) : (p.hide h).len.toNat = p.len.toNat - h := by
  have hlt := p.len.toNat_lt
  have hofNat : (UInt16.ofNat h).toNat = h := by
    rw [UInt16.toNat_ofNat']
    omega
  show (p.len - UInt16.ofNat h).toNat = _
  rw [UInt16.toNat_sub_of_le _ _ (UInt16.le_iff_toNat_le.mpr (by omega)), hofNat]

theorem hide_tot_len (hlen : h ≤ p.tot_len.toNat) : (p.hide h).tot_len.toNat = p.tot_len.toNat - h := by
  have hlt := p.tot_len.toNat_lt
  have hofNat : (UInt16.ofNat h).toNat = h := by
    rw [UInt16.toNat_ofNat']
    omega
  show (p.tot_len - UInt16.ofNat h).toNat = _
  rw [UInt16.toNat_sub_of_le _ _ (UInt16.le_iff_toNat_le.mpr (by omega)), hofNat]

theorem hide_bytes (hlen : h ≤ p.len.toNat) : (p.hide h).bytes = p.bytes.drop h := by
  have hlist : (List.range (p.hide h).len.toNat).map (p.hide h).byteAt =
      ((List.range p.len.toNat).map p.byteAt).drop h := by
    refine List.ext_getElem ?_ (fun k hk _ => ?_)
    · simp [hide_len hlen]
    · simp
  rw [bytes, bytes, List.drop_append_of_le_length (by simpa using hlen), hlist]
  rfl

theorem Whole.hide (hp : p.Whole) (hlen : h ≤ p.len.toNat) : (p.hide h).Whole := by
  have hle : p.len.toNat ≤ p.bytes.length := by
    rw [bytes_length]
    omega
  unfold Whole at *
  rw [hide_tot_len (by omega), hide_bytes hlen, List.length_drop, hp]

end Hide

/-! ## A chain without its last bytes -/

@[simp] theorem realloc_byteAt (p : RxPbuf) (n : UInt16) (k : Nat) : (p.pbuf_realloc n).byteAt k = p.byteAt k := by
  unfold pbuf_realloc
  split <;> rfl

@[simp] theorem realloc_payload (p : RxPbuf) (n : UInt16) : (p.pbuf_realloc n).payload = p.payload := by
  unfold pbuf_realloc
  split <;> rfl

@[simp] theorem realloc_shortAt (p : RxPbuf) (n : UInt16) (k : Nat) :
    (p.pbuf_realloc n).shortAt k = p.shortAt k := by
  simp only [shortAt, realloc_byteAt]

@[simp] theorem realloc_longAt (p : RxPbuf) (n : UInt16) (k : Nat) : (p.pbuf_realloc n).longAt k = p.longAt k := by
  simp only [longAt, realloc_shortAt]

theorem realloc_len_le (p : RxPbuf) (n : UInt16) : (p.pbuf_realloc n).len.toNat ≤ p.len.toNat := by
  unfold pbuf_realloc
  split
  · exact Nat.le_refl _
  · dsimp only
    split
    · rename_i hlt
      exact Nat.le_of_lt (UInt16.lt_iff_toNat_lt.mp hlt)
    · exact Nat.le_refl _

theorem pbuf_realloc_eq {p : RxPbuf} (hp : p.Whole) {n : UInt16} (hn : n ≤ p.tot_len) :
    p.pbuf_realloc n =
      { p with
          len := if n < p.len then n else p.len
          tot_len := n
          next := p.next.take (n.toNat - p.len.toNat) } := by
  unfold pbuf_realloc
  split
  · rename_i hge
    obtain rfl : n = p.tot_len := UInt16.le_antisymm hn hge
    have hlen : p.tot_len.toNat = p.len.toNat + p.next.length := by rw [hp, bytes_length]
    rw [if_neg (fun hlt => by have := UInt16.lt_iff_toNat_lt.mp hlt; omega), List.take_of_length_le (by omega)]
  · rfl

section Realloc

variable {p : RxPbuf} (hp : p.Whole) {n : UInt16} (hn : n ≤ p.tot_len)

include hp hn

theorem realloc_tot_len : (p.pbuf_realloc n).tot_len = n := by
  rw [pbuf_realloc_eq hp hn]

theorem realloc_len : (p.pbuf_realloc n).len.toNat = min p.len.toNat n.toNat := by
  rw [pbuf_realloc_eq hp hn]
  dsimp only
  split
  · rename_i hlt
    have := UInt16.lt_iff_toNat_lt.mp hlt
    omega
  · rename_i hge
    have := UInt16.le_iff_toNat_le.mp (UInt16.not_lt.mp hge)
    omega

/-- A whole chain is cut to its first bytes. -/
theorem realloc_bytes : (p.pbuf_realloc n).bytes = p.bytes.take n.toNat := by
  have hfirst : (List.range (p.pbuf_realloc n).len.toNat).map (p.pbuf_realloc n).byteAt =
      ((List.range p.len.toNat).map p.byteAt).take n.toNat := by
    rw [realloc_len hp hn, ← List.map_take, List.take_range, Nat.min_comm]
    exact List.map_congr_left (fun k _ => realloc_byteAt p n k)
  have hnext : (p.pbuf_realloc n).next = p.next.take (n.toNat - p.len.toNat) := by rw [pbuf_realloc_eq hp hn]
  rw [bytes, bytes, List.take_append, hfirst, hnext]
  simp

theorem Whole.realloc : (p.pbuf_realloc n).Whole := by
  have hle := UInt16.le_iff_toNat_le.mp hn
  rw [Whole, realloc_tot_len hp hn, realloc_bytes hp hn, List.length_take, ← hp]
  omega

end Realloc

/-! ## Writing -/

/-- Writes behind the payload pointer. -/
def write (p : RxPbuf) (k : Nat) (data : List UInt8) : RxPbuf :=
  { p with
      mem := fun x =>
        if p.payload + k ≤ x ∧ x < p.payload + k + data.length then data.getD (x - (p.payload + k)) 0 else p.mem x }

@[simp] theorem write_len (p : RxPbuf) (k : Nat) (data : List UInt8) : (p.write k data).len = p.len := rfl
@[simp] theorem write_tot_len (p : RxPbuf) (k : Nat) (data : List UInt8) : (p.write k data).tot_len = p.tot_len := rfl
@[simp] theorem write_next (p : RxPbuf) (k : Nat) (data : List UInt8) : (p.write k data).next = p.next := rfl

theorem write_byteAt (p : RxPbuf) (k : Nat) (data : List UInt8) (j : Nat) :
    (p.write k data).byteAt j = if k ≤ j ∧ j < k + data.length then data.getD (j - k) 0 else p.byteAt j := by
  unfold write byteAt
  dsimp only
  have hsub : p.payload + j - (p.payload + k) = j - k := by omega
  rw [hsub]
  by_cases hin : k ≤ j ∧ j < k + data.length
  · rw [if_pos hin, if_pos (by omega)]
  · rw [if_neg hin, if_neg (by omega)]

/-- The bytes within the first pbuf are replaced. -/
theorem write_bytes {p : RxPbuf} {s x t data : List UInt8} {k : Nat} (hp : p.bytes = s ++ x ++ t)
    (hx : x.length = data.length) (hk : s.length = k) (hlen : k + data.length ≤ p.len.toNat) :
    (p.write k data).bytes = s ++ data ++ t := by
  subst hk
  refine List.ext_getElem? (fun j => ?_)
  have hj : p.bytes[j]? = (s ++ x ++ t)[j]? := by rw [hp]
  by_cases hfirst : j < p.len.toNat
  · rw [bytes_getElem (p := p.write s.length data) hfirst, write_byteAt]
    rw [bytes_getElem hfirst] at hj
    split
    · rename_i hin
      rw [List.append_assoc, List.getElem?_append_right hin.1, List.getElem?_append_left (by omega),
        List.getD_eq_getElem?_getD]
      obtain ⟨b, hb⟩ : ∃ b, data[j - s.length]? = some b := ⟨_, List.getElem?_eq_getElem (by omega)⟩
      rw [hb, Option.getD_some]
    · rename_i hout
      rw [hj]
      by_cases hlow : j < s.length
      · rw [List.append_assoc, List.append_assoc, List.getElem?_append_left hlow, List.getElem?_append_left hlow]
      · rw [List.getElem?_append_right (by simp; omega), List.getElem?_append_right (by simp; omega)]
        simp [hx]
  · have hrest : ∀ q : RxPbuf, q.len = p.len → q.next = p.next → q.bytes[j]? = p.next[j - p.len.toNat]? := by
      intro q hl hn
      rw [bytes, List.getElem?_append_right (by simp [hl]; omega), hn]
      simp [hl]
    rw [hrest (p.write s.length data) rfl rfl]
    rw [hrest p rfl rfl] at hj
    rw [hj, List.getElem?_append_right (by simp; omega), List.getElem?_append_right (by simp; omega)]
    simp [hx]

end RxPbuf

end MultiIp.Lwip
