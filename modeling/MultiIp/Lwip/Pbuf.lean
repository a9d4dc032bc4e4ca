import Mathlib.Data.List.Basic

/-! # Packet buffers -/

namespace MultiIp.Lwip

/-- A buffer of `n` bytes. -/
structure Buf (n : Nat) where
  bytes : List UInt8
  size : bytes.length = n
  deriving DecidableEq

def Buf.zero (n : Nat) : Buf n := ⟨List.replicate n 0, by simp⟩

/-- `memcpy(&dst[left], src, len)`. Bytes past the end of the buffer are dropped. -/
def Buf.memcpy {n : Nat} (dst : Buf n) (left : Nat) (src : List UInt8) : Buf n :=
  ⟨(dst.bytes.take left ++ src ++ dst.bytes.drop (left + src.length)).take n, by
    have := dst.size
    simp; omega⟩

/-- A chain of pbufs: the payload of each, and `tot_len` of the first. -/
structure pbuf where
  segs : List (List UInt8)
  tot_len : UInt16
  tot_len_eq : tot_len.toNat = segs.flatten.length
  deriving DecidableEq

/-- The loop of `pbuf_copy_partial`. -/
def pbuf_copy_partial_loop {n : Nat} : List (List UInt8) → Buf n → (left len offset : Nat) → Buf n × Nat
  | [], dst, left, _, _ => (dst, left)
  | p :: rest, dst, left, len, offset =>
    if len = 0 then (dst, left)
    else if offset ≠ 0 ∧ p.length ≤ offset then
      -- Nothing to copy from this buffer, on to the next.
      pbuf_copy_partial_loop rest dst left len (offset - p.length)
    else
      let buf_copy_len := min (p.length - offset) len
      pbuf_copy_partial_loop rest (dst.memcpy left ((p.drop offset).take buf_copy_len))
        (left + buf_copy_len) (len - buf_copy_len) 0

/-- Copies `len` bytes of the chain from `offset` on, and returns how many there were. -/
def pbuf_copy_partial {n : Nat} (buf : pbuf) (dataptr : Buf n) (len offset : Nat) : Buf n × Nat :=
  pbuf_copy_partial_loop buf.segs dataptr 0 len offset

theorem memcpy_bytes {n : Nat} (dst : Buf n) (left : Nat) (src : List UInt8) (h : left + src.length ≤ n) :
    (dst.memcpy left src).bytes = dst.bytes.take left ++ src ++ dst.bytes.drop (left + src.length) := by
  have := dst.size
  exact List.take_of_length_le (by simp; omega)

theorem take_min_length (p : List UInt8) (len : Nat) : p.take (min p.length len) = p.take len := by
  rcases Nat.le_total p.length len with hp | hp
  · rw [Nat.min_eq_left hp, List.take_length, List.take_of_length_le hp]
  · rw [Nat.min_eq_right hp]

/-- Copying from offset 0 appends the bytes of the chain after the `left` bytes already there. -/
theorem pbuf_copy_partial_loop_spec {n : Nat} (segs : List (List UInt8)) (dst : Buf n) (left len : Nat)
    (h : left + len ≤ n) :
    (pbuf_copy_partial_loop segs dst left len 0).1.bytes =
      dst.bytes.take left ++ segs.flatten.take len ++ dst.bytes.drop (left + (segs.flatten.take len).length) := by
  induction segs generalizing dst left len with
  | nil => simp [pbuf_copy_partial_loop]
  | cons p rest ih =>
    have hsize := dst.size
    by_cases hlen : len = 0
    · simp [pbuf_copy_partial_loop, hlen]
    · simp only [pbuf_copy_partial_loop, if_neg hlen, ne_eq, not_true_eq_false, false_and, if_false,
        Nat.sub_zero, List.drop_zero]
      have hp : (p.take len).length = min p.length len := by simp [Nat.min_comm]
      have hleft : (dst.bytes.take left).length = left := by simp; omega
      have hrest : len - min p.length len = len - p.length := by omega
      rw [ih _ _ _ (by omega), take_min_length, memcpy_bytes _ _ _ (by omega), hp, hrest]
      -- The first part of the new buffer is the old one up to `left` and the copied bytes.
      have hfront : (dst.bytes.take left ++ p.take len ++ dst.bytes.drop (left + min p.length len)).take
          (left + min p.length len) = dst.bytes.take left ++ p.take len := by
        rw [List.take_append_of_le_length (by rw [List.length_append]; omega),
          List.take_of_length_le (by rw [List.length_append]; omega)]
      have hback : ∀ k, (dst.bytes.take left ++ p.take len ++ dst.bytes.drop (left + min p.length len)).drop
          (left + min p.length len + k) = dst.bytes.drop (left + min p.length len + k) := by
        intro k
        rw [List.drop_append, List.drop_eq_nil_of_le (by rw [List.length_append]; omega), List.nil_append,
          List.drop_drop, List.length_append, hleft, hp]
        congr 1
        omega
      have hflat : (p :: rest).flatten.take len = p.take len ++ rest.flatten.take (len - p.length) := by
        rw [List.flatten_cons, List.take_append]
      rw [hfront, hback, hflat, List.length_append, hp]
      simp only [List.append_assoc, Nat.add_assoc]

/-- Copying `len` bytes from the start puts the first bytes of the whole chain at the start of the buffer. -/
theorem pbuf_copy_partial_spec {n : Nat} (buf : pbuf) (dst : Buf n) (len : Nat) (h : len ≤ n) :
    ( pbuf_copy_partial buf dst len 0).1.bytes =
      buf.segs.flatten.take len ++ dst.bytes.drop (buf.segs.flatten.take len).length := by
  rw [ pbuf_copy_partial, pbuf_copy_partial_loop_spec _ _ _ _ (by omega)]
  simp

end MultiIp.Lwip
