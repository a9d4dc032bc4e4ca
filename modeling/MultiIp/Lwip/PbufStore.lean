import Mathlib.Algebra.Ring.Nat
import MultiIp.Lwip.Mem

/-!
# pbufs in memory

`lwip-1.4.1/src/core/pbuf.c` on the fields of `struct pbuf`, with the pools of
`memp.c` and the heap behind it. What the payload pointers point to is left out. A
result is `none` where a condition that the code only asserts does not hold, or
where a loop does not end.
-/

namespace MultiIp.Lwip

def PBUF_POOL_SIZE : Nat := 96
def MEMP_NUM_PBUF : Nat := 48
def PBUF_POOL_BUFSIZE : Nat := 256
def SIZEOF_STRUCT_PBUF : Nat := 16
def PBUF_LINK_HLEN : Nat := 14
def PBUF_IP_HLEN : Nat := 20
def PBUF_TRANSPORT_HLEN : Nat := 20

instance : NeZero PBUF_POOL_SIZE := ⟨by decide⟩
instance : NeZero MEMP_NUM_PBUF := ⟨by decide⟩

inductive pbuf_layer
  | PBUF_TRANSPORT | PBUF_IP | PBUF_LINK | PBUF_RAW
  deriving DecidableEq

inductive pbuf_type
  | PBUF_RAM | PBUF_ROM | PBUF_REF | PBUF_POOL
  deriving DecidableEq

/-- An element of `MEMP_PBUF_POOL`, one of `MEMP_PBUF`, or a block of the heap. -/
inductive PbufPtr
  | pool (i : Fin PBUF_POOL_SIZE)
  | memp (i : Fin MEMP_NUM_PBUF)
  | ram (ptr : Nat)
  deriving DecidableEq

/-- `struct pbuf`. `payload` is its distance from the struct, or for `PBUF_ROM` and `PBUF_REF` from where it pointed first. -/
structure struct_pbuf where
  next : Option PbufPtr
  payload : Nat
  tot_len : UInt16
  len : UInt16
  type : pbuf_type
  ref : UInt16
  deriving DecidableEq

structure PbufStore where
  pbufs : PbufPtr → struct_pbuf
  /-- The free elements, `memp_tab[MEMP_PBUF_POOL]`. -/
  pool : List (Fin PBUF_POOL_SIZE)
  /-- `memp_tab[MEMP_PBUF]`. -/
  memp : List (Fin MEMP_NUM_PBUF)
  heap : Heap

namespace PbufStore

def modify (s : PbufStore) (p : PbufPtr) (f : struct_pbuf → struct_pbuf) : PbufStore :=
  { s with pbufs := Function.update s.pbufs p (f (s.pbufs p)) }

/-- After `memp_init` and `mem_init`. -/
def init : PbufStore where
  pbufs := fun _ => ⟨none, 0, 0, 0, .PBUF_RAM, 0⟩
  pool := (List.finRange PBUF_POOL_SIZE).reverse
  memp := (List.finRange MEMP_NUM_PBUF).reverse
  heap := mem_init

end PbufStore

/-- More rounds than a loop along a chain can make. -/
def pbufRounds : Nat := PBUF_POOL_SIZE + MEMP_NUM_PBUF + MEM_SIZE_ALIGNED + 1

/-! ## Freeing -/

/-- Gives the memory back to where its type says it comes from. -/
def pbuf_dealloc (s : PbufStore) (p : PbufPtr) : Option PbufStore :=
  match (s.pbufs p).type, p with
  | .PBUF_POOL, .pool i => some { s with pool := i :: s.pool }
  | .PBUF_ROM, .memp i => some { s with memp := i :: s.memp }
  | .PBUF_REF, .memp i => some { s with memp := i :: s.memp }
  | .PBUF_RAM, .ram ptr => (mem_free s.heap (some ptr)).map (fun h => { s with heap := h })
  | _, _ => none

/-- Returns how many pbufs were freed, in 8 bits. -/
def pbuf_free_loop : (fuel : Nat) → PbufStore → Option PbufPtr → UInt8 → Option (PbufStore × UInt8)
  | 0, _, _, _ => none
  | _ + 1, s, none, count => some (s, count)
  | fuel + 1, s, some p, count =>
    if (s.pbufs p).ref = 0 then none
    else
      let s := s.modify p (fun x => { x with ref := x.ref - 1 })
      if (s.pbufs p).ref = 0 then
        let q := (s.pbufs p).next
        match pbuf_dealloc s p with
        | none => none
        | some s => pbuf_free_loop fuel s q (count + 1)
      else some (s, count)

def pbuf_free (s : PbufStore) (p : PbufPtr) : Option (PbufStore × UInt8) := pbuf_free_loop pbufRounds s (some p) 0

def pbuf_ref (s : PbufStore) (p : PbufPtr) : PbufStore := s.modify p (fun x => { x with ref := x.ref + 1 })

/-! ## Allocating -/

def pbuf_layer.offset : pbuf_layer → Nat
  | .PBUF_TRANSPORT => PBUF_LINK_HLEN + PBUF_IP_HLEN + PBUF_TRANSPORT_HLEN
  | .PBUF_IP => PBUF_LINK_HLEN + PBUF_IP_HLEN
  | .PBUF_LINK => PBUF_LINK_HLEN
  | .PBUF_RAW => 0

/-- Takes an element of the pool for a pbuf. -/
def memp_malloc_pool (s : PbufStore) (x : struct_pbuf) : Option (PbufStore × PbufPtr) :=
  match s.pool with
  | [] => none
  | i :: pool => some ({ s with pool := pool }.modify (.pool i) (fun _ => x), .pool i)

/-- The loop that allocates the tail of a chain behind `r`. Says whether there were enough pbufs. -/
def pbuf_alloc_tail : (fuel : Nat) → PbufStore → (r : PbufPtr) → (rem_len : Nat) → Option (PbufStore × Bool)
  | fuel, s, r, rem_len =>
    if rem_len = 0 then some (s, true)
    else
      match fuel with
      | 0 => none
      | fuel + 1 =>
        let len := min rem_len PBUF_POOL_BUFSIZE
        match memp_malloc_pool s ⟨none, SIZEOF_STRUCT_PBUF, UInt16.ofNat rem_len, UInt16.ofNat len, .PBUF_POOL, 1⟩ with
        | none => some (s, false)
        | some (s, q) => pbuf_alloc_tail fuel (s.modify r (fun x => { x with next := some q })) q (rem_len - len)

/-- Returns the pointer, `none` for NULL. -/
def pbuf_alloc (s : PbufStore) (layer : pbuf_layer) (length : UInt16) (type : pbuf_type) :
    Option (PbufStore × Option PbufPtr) :=
  let payload := LWIP_MEM_ALIGN_SIZE (SIZEOF_STRUCT_PBUF + layer.offset)
  match type with
  | .PBUF_POOL =>
    let len := min length.toNat (PBUF_POOL_BUFSIZE - LWIP_MEM_ALIGN_SIZE layer.offset)
    match memp_malloc_pool s ⟨none, payload, length, UInt16.ofNat len, .PBUF_POOL, 1⟩ with
    | none => some (s, none)
    | some (s, p) =>
      match pbuf_alloc_tail length.toNat s p (length.toNat - len) with
      | none => none
      | some (s, true) => some (s, some p)
      | some (s, false) => (pbuf_free s p).map (fun r => (r.1, none))
  | .PBUF_RAM =>
    -- The size is passed in 16 bits.
    match mem_malloc s.heap ((payload + LWIP_MEM_ALIGN_SIZE length.toNat) % 65536) with
    | none => none
    | some (h, none) => some ({ s with heap := h }, none)
    | some (h, some ptr) =>
      some ({ s with heap := h }.modify (.ram ptr) (fun _ => ⟨none, payload, length, length, .PBUF_RAM, 1⟩),
        some (.ram ptr))
  | type =>
    match s.memp with
    | [] => some (s, none)
    | i :: memp =>
      some ({ s with memp := memp }.modify (.memp i) (fun _ => ⟨none, 0, length, length, type, 1⟩), some (.memp i))

/-! ## Chains -/

/-- The loop of `pbuf_cat`. Returns the last pbuf of the chain. -/
def pbuf_cat_loop : (fuel : Nat) → PbufStore → (p t : PbufPtr) → Option (PbufStore × PbufPtr)
  | 0, _, _, _ => none
  | fuel + 1, s, p, t =>
    match (s.pbufs p).next with
    | some n => pbuf_cat_loop fuel (s.modify p (fun x => { x with tot_len := x.tot_len + (s.pbufs t).tot_len })) n t
    | none => some (s, p)

def pbuf_cat (s : PbufStore) (h t : PbufPtr) : Option PbufStore :=
  match pbuf_cat_loop pbufRounds s h t with
  | none => none
  | some (s, p) =>
    if (s.pbufs p).tot_len ≠ (s.pbufs p).len then none
    else some (s.modify p (fun x => { x with tot_len := x.tot_len + (s.pbufs t).tot_len, next := some t }))

def pbuf_chain (s : PbufStore) (h t : PbufPtr) : Option PbufStore := (pbuf_cat s h t).map (fun s => pbuf_ref s t)

/-- Returns the rest of the chain if something else still refers to it. -/
def pbuf_dechain (s : PbufStore) (p : PbufPtr) : Option (PbufStore × Option PbufPtr) :=
  match (s.pbufs p).next with
  | none => if (s.pbufs p).tot_len ≠ (s.pbufs p).len then none else some (s, none)
  | some q =>
    if (s.pbufs q).tot_len ≠ (s.pbufs p).tot_len - (s.pbufs p).len then none
    else
      let s := s.modify q (fun x => { x with tot_len := (s.pbufs p).tot_len - (s.pbufs p).len })
      let s := s.modify p (fun x => { x with next := none, tot_len := x.len })
      match pbuf_free s q with
      | none => none
      | some (s, tail_gone) =>
        if (s.pbufs p).tot_len ≠ (s.pbufs p).len then none else some (s, if tail_gone > 0 then none else some q)

/-! ## Shrinking -/

/-- The loop of `pbuf_realloc`: the new last pbuf, and how much of it is kept. -/
def pbuf_realloc_loop : (fuel : Nat) → PbufStore → (q : PbufPtr) → (rem_len grow : UInt16) →
    Option (PbufStore × PbufPtr × UInt16)
  | 0, _, _, _, _ => none
  | fuel + 1, s, q, rem_len, grow =>
    if rem_len > (s.pbufs q).len then
      match (s.pbufs q).next with
      | none => none
      | some n =>
        pbuf_realloc_loop fuel (s.modify q (fun x => { x with tot_len := x.tot_len + grow })) n
          (rem_len - (s.pbufs q).len) grow
    else some (s, q, rem_len)

/-- Gives the end of a block of the heap back. -/
def pbuf_trim (s : PbufStore) (q : PbufPtr) (rem_len : UInt16) : Option PbufStore :=
  if (s.pbufs q).type = .PBUF_RAM ∧ rem_len ≠ (s.pbufs q).len then
    match q with
    | .ram ptr =>
      match mem_trim s.heap ptr (((s.pbufs q).payload + rem_len.toNat) % 65536) with
      | some (h, some _) => some { s with heap := h }
      | _ => none
    | _ => none
  else some s

def pbuf_realloc (s : PbufStore) (p : PbufPtr) (new_len : UInt16) : Option PbufStore :=
  if new_len ≥ (s.pbufs p).tot_len then some s
  else
    match pbuf_realloc_loop pbufRounds s p new_len (new_len - (s.pbufs p).tot_len) with
    | none => none
    | some (s, q, rem_len) =>
      match pbuf_trim s q rem_len with
      | none => none
      | some s =>
        let s := s.modify q (fun x => { x with len := rem_len, tot_len := rem_len })
        match (s.pbufs q).next with
        | none => some s
        | some n => (pbuf_free s n).map (fun r => r.1.modify q (fun x => { x with next := none }))

/-! ## Headers -/

/-- Returns `true` for failure. -/
def pbuf_header_struct (x : struct_pbuf) (header_size_increment : Int) : struct_pbuf × Bool :=
  let moved :=
    { x with
        payload := (x.payload - header_size_increment).toNat
        len := x.len + UInt16.ofInt header_size_increment
        tot_len := x.tot_len + UInt16.ofInt header_size_increment }
  if header_size_increment = 0 then (x, false)
  else if header_size_increment < 0 ∧ x.len.toNat < header_size_increment.natAbs then (x, true)
  else if x.type = .PBUF_RAM ∨ x.type = .PBUF_POOL then
    if x.payload - header_size_increment < SIZEOF_STRUCT_PBUF then (x, true) else (moved, false)
  else if header_size_increment < 0 then (moved, false)
  else (x, true)

/-- `pbuf_header`. -/
def pbuf_header_store (s : PbufStore) (p : PbufPtr) (header_size_increment : Int) : PbufStore × Bool :=
  let r := pbuf_header_struct (s.pbufs p) header_size_increment
  (s.modify p (fun _ => r.1), r.2)

end MultiIp.Lwip
