import MultiIp.Lib.FirstFit
import Mathlib.Algebra.Group.Nat.Defs
import Mathlib.Logic.Function.Basic

/-!
# The heap

`lwip-1.4.1/src/core/mem.c` with the sizes of this build. A pointer into the heap
is its distance from `ram`. A result is `none` where a condition that the code
only asserts does not hold, or where a loop does not end.
-/

namespace MultiIp.Lwip

def MEM_ALIGNMENT : Nat := 4
def MEM_SIZE_ALIGNED : Nat := 30720
def SIZEOF_STRUCT_MEM : Nat := 8
def MIN_SIZE_ALIGNED : Nat := 12

def LWIP_MEM_ALIGN_SIZE (size : Nat) : Nat := (size + (MEM_ALIGNMENT - 1)) / MEM_ALIGNMENT * MEM_ALIGNMENT

structure mem where
  next : Nat
  prev : Nat
  used : Bool
  deriving DecidableEq

structure Heap where
  /-- `(struct mem *)&ram[k]`. -/
  ram : Nat → mem
  lfree : Nat

def ram_end : Nat := MEM_SIZE_ALIGNED

namespace Heap

def modify (h : Heap) (k : Nat) (f : mem → mem) : Heap := { h with ram := Function.update h.ram k (f (h.ram k)) }

@[simp] theorem modify_self (h : Heap) (k : Nat) (f : mem → mem) : (h.modify k f).ram k = f (h.ram k) :=
  Function.update_self _ _ _

theorem modify_ne (h : Heap) {k x : Nat} (hx : x ≠ k) (f : mem → mem) : (h.modify k f).ram x = h.ram x :=
  Function.update_of_ne hx _ _

@[simp] theorem modify_lfree (h : Heap) (k : Nat) (f : mem → mem) : (h.modify k f).lfree = h.lfree := rfl

/-- `mem->next - (ptr + SIZEOF_STRUCT_MEM)`, which is unsigned. -/
def room (h : Heap) (ptr : Nat) : Nat := ((h.ram ptr).next + 2 ^ 32 - (ptr + SIZEOF_STRUCT_MEM)) % 2 ^ 32

end Heap

/-- `ram_heap` is zeroed memory. -/
def mem_init : Heap where
  ram := Function.update (Function.update (fun _ => ⟨0, 0, false⟩) 0 ⟨MEM_SIZE_ALIGNED, 0, false⟩)
    ram_end ⟨MEM_SIZE_ALIGNED, MEM_SIZE_ALIGNED, true⟩
  lfree := 0

/-! ## Freeing -/

/-- Joins `mem` with the struct behind it if that is unused. -/
def plug_holes_forward (h : Heap) (mem : Nat) : Heap :=
  let nmem := (h.ram mem).next
  if mem ≠ nmem ∧ (h.ram nmem).used = false ∧ nmem ≠ ram_end then
    let h := if h.lfree = nmem then { h with lfree := mem } else h
    let h := h.modify mem (fun m => { m with next := (h.ram nmem).next })
    h.modify (h.ram nmem).next (fun m => { m with prev := mem })
  else h

/-- Joins `mem` with the struct in front of it if that is unused. -/
def plug_holes_backward (h : Heap) (mem : Nat) : Heap :=
  let pmem := (h.ram mem).prev
  if pmem ≠ mem ∧ (h.ram pmem).used = false then
    let h := if h.lfree = mem then { h with lfree := pmem } else h
    let h := h.modify pmem (fun m => { m with next := (h.ram mem).next })
    h.modify (h.ram mem).next (fun m => { m with prev := pmem })
  else h

def plug_holes (h : Heap) (mem : Nat) : Option Heap :=
  if mem < ram_end ∧ (h.ram mem).used = false ∧ (h.ram mem).next ≤ MEM_SIZE_ALIGNED then
    some (plug_holes_backward (plug_holes_forward h mem) mem)
  else none

/-- Marks the struct as unused. -/
def mem_free_mark (h : Heap) (mem : Nat) : Heap :=
  let h := h.modify mem (fun m => { m with used := false })
  if mem < h.lfree then { h with lfree := mem } else h

/-- `rmem` is `none` for NULL. A pointer in front of the first data byte of the heap is not modelled. -/
def mem_free (h : Heap) (rmem : Option Nat) : Option Heap :=
  match rmem with
  | none => some h
  | some rmem =>
    if rmem % MEM_ALIGNMENT ≠ 0 ∨ rmem < SIZEOF_STRUCT_MEM then none
    else if rmem ≥ ram_end then some h
    else
      let mem := rmem - SIZEOF_STRUCT_MEM
      if (h.ram mem).used = false then none
      else plug_holes (mem_free_mark h mem) mem

/-! ## Allocating -/

/-- The size that is looked for. It is stored in 16 bits. -/
def memSize (size : Nat) : Nat := max (LWIP_MEM_ALIGN_SIZE size % 65536) MIN_SIZE_ALIGNED

/-- The scan for an unused struct with enough room. -/
def mem_malloc_scan (h : Heap) (size : Nat) : (fuel ptr : Nat) → Option (Option Nat)
  | 0, _ => none
  | fuel + 1, ptr =>
    if ptr < MEM_SIZE_ALIGNED - size then
      if (h.ram ptr).used = false ∧ h.room ptr ≥ size then some (some ptr)
      else mem_malloc_scan h size fuel (h.ram ptr).next
    else some none

/-- Takes the struct at `ptr`, and splits it if the rest is large enough. -/
def mem_malloc_take (h : Heap) (ptr size : Nat) : Heap :=
  if h.room ptr ≥ size + SIZEOF_STRUCT_MEM + MIN_SIZE_ALIGNED then
    let ptr2 := ptr + SIZEOF_STRUCT_MEM + size
    let h := h.modify ptr2 (fun _ => { used := false, next := (h.ram ptr).next, prev := ptr })
    let h := h.modify ptr (fun m => { m with next := ptr2, used := true })
    if (h.ram ptr2).next ≠ MEM_SIZE_ALIGNED then h.modify (h.ram ptr2).next (fun m => { m with prev := ptr2 }) else h
  else h.modify ptr (fun m => { m with used := true })

/-- The search for the next unused struct. -/
def mem_malloc_adjust_lfree (h : Heap) : (fuel cur : Nat) → Option Nat
  | 0, _ => none
  | fuel + 1, cur =>
    if (h.ram cur).used = true ∧ cur ≠ ram_end then mem_malloc_adjust_lfree h fuel (h.ram cur).next else some cur

/-- Sets `lfree` after the struct at `ptr` was taken. -/
def mem_malloc_lfree (h : Heap) (ptr : Nat) : Option Heap :=
  if ptr = h.lfree then
    match mem_malloc_adjust_lfree h MEM_SIZE_ALIGNED h.lfree with
    | some cur => if cur = ram_end ∨ (h.ram cur).used = false then some { h with lfree := cur } else none
    | none => none
  else some h

/-- Returns the pointer, `none` for NULL. -/
def mem_malloc (h : Heap) (size : Nat) : Option (Heap × Option Nat) :=
  if size = 0 then some (h, none)
  else if memSize size > MEM_SIZE_ALIGNED then some (h, none)
  else
    match mem_malloc_scan h (memSize size) MEM_SIZE_ALIGNED h.lfree with
    | none => none
    | some none => some (h, none)
    | some (some ptr) =>
      match mem_malloc_lfree (mem_malloc_take h ptr (memSize size)) ptr with
      | none => none
      | some h =>
        if ptr + SIZEOF_STRUCT_MEM + memSize size ≤ ram_end ∧ (ptr + SIZEOF_STRUCT_MEM) % MEM_ALIGNMENT = 0 then
          some (h, some (ptr + SIZEOF_STRUCT_MEM))
        else none

/-! ## Shrinking -/

/-- Gives the end of the struct at `ptr` back. -/
def mem_trim_move (h : Heap) (ptr size newsize : Nat) : Heap :=
  let ptr2 := ptr + SIZEOF_STRUCT_MEM + newsize
  let mem2 := (h.ram ptr).next
  if (h.ram mem2).used = false then
    let next := (h.ram mem2).next
    let h := if h.lfree = mem2 then { h with lfree := ptr2 } else h
    let h := h.modify ptr2 (fun _ => { used := false, next := next, prev := ptr })
    let h := h.modify ptr (fun m => { m with next := ptr2 })
    if next ≠ MEM_SIZE_ALIGNED then h.modify next (fun m => { m with prev := ptr2 }) else h
  else if newsize + SIZEOF_STRUCT_MEM + MIN_SIZE_ALIGNED ≤ size then
    let h := if ptr2 < h.lfree then { h with lfree := ptr2 } else h
    let h := h.modify ptr2 (fun _ => { used := false, next := mem2, prev := ptr })
    let h := h.modify ptr (fun m => { m with next := ptr2 })
    if mem2 ≠ MEM_SIZE_ALIGNED then h.modify mem2 (fun m => { m with prev := ptr2 }) else h
  else h

/-- Returns `rmem`, or NULL if the block is smaller than `newsize`. -/
def mem_trim (h : Heap) (rmem newsize : Nat) : Option (Heap × Option Nat) :=
  let newsize := memSize newsize
  if newsize > MEM_SIZE_ALIGNED then some (h, none)
  else if rmem < SIZEOF_STRUCT_MEM then none
  else if rmem ≥ ram_end then some (h, some rmem)
  else
    let ptr := rmem - SIZEOF_STRUCT_MEM
    let size := (h.ram ptr).next - ptr - SIZEOF_STRUCT_MEM
    if newsize > size then some (h, none)
    else if newsize = size then some (h, some rmem)
    else some (mem_trim_move h ptr size newsize, some rmem)

end MultiIp.Lwip
