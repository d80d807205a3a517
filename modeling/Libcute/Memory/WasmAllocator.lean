import Mathlib.Logic.Function.Basic
import Libcute.Core.NoStd
import Libcute.Core.Size
import Libcute.Memory.Client

/-!
# The WebAssembly allocator

`wasmallocator.c` cuts WebAssembly pages into slots whose sizes are powers of
two.  A free slot is on the list of its class, which is threaded through the
last word of the slot; every small class also has a current page from which
slots are issued in turn.  The header of a block, which says where in its
slot the block starts and how large the slot is, stands just below the block.

`memory.grow` is a list of answers: the index of the first new page, or
nothing.  An answer that is not a fresh range of pages with an index from 1
on that an `int` can hold counts as a failure.  The model takes a `size_t` of
64 bits; slots lie in memory, so that no address wraps.
-/

namespace Libcute.Memory.WasmAllocator

open Libcute.Core.Interface
open Libcute.Core.NoStd
open Libcute.Core.Size
open Libcute.Library.ByteMemory
open Libcute.Memory.Client

/-- `CU_WASM_PAGE_SIZE` and `CU_WASM_BIGPAGE_SIZE` -/
def pageSize : Nat := 65536

/-- `sizeof(size_t)` -/
def wordSize : Nat := 8

/-- `sizeof(struct cu_WasmAllocator_Header)` -/
def headerSize : Nat := 16

/-- `CU_WASM_MIN_CLASS` -/
def minClass : Nat := 4

/-- `CU_WASM_SIZE_CLASS_COUNT` -/
def sizeClassCount : Nat := 16 - minClass

/-- `cu_log2_usize`; the argument is not 0. -/
def log2 (x : Nat) : Nat := Nat.log 2 x

/-- `big_pages_needed` -/
def bigPagesNeeded (byteCount : Nat) : Nat :=
  sizeAdd byteCount (pageSize + (wordSize - 1)) / pageSize

/--
The static variables of the allocator and the memory.  `grants` are the pages
that `memory.grow` has returned, and `grows` are the page counts it was
called with, the latest ones first.
-/
structure Wasm where
  nextAddrs : Nat → Nat
  frees : Nat → Nat
  bigFrees : Nat → Nat
  memory : Memory
  grants : List Slice
  answers : List (Option Nat)
  grows : List Nat

/-- The pages are fresh, and an `int` can hold their index. -/
def Accepts (grants : List Slice) (pages index : Nat) : Prop :=
  index ≠ 0 ∧ index < 2 ^ 31 ∧ (index + pages) * pageSize ≤ sizeLimit ∧
    ∀ grant ∈ grants,
      Apart (index * pageSize) (pages * pageSize) grant.ptr grant.length

instance (grants : List Slice) (pages index : Nat) :
    Decidable (Accepts grants pages index) :=
  inferInstanceAs (Decidable (_ ∧ _ ∧ _ ∧ _))

/-- Read the link in the last word of a slot. -/
def link (memory : Memory) (slot slotSize : Nat) : Nat :=
  loadBytes memory (slot + slotSize - wordSize) wordSize

/-- Write the link in the last word of a slot. -/
def setLink (memory : Memory) (slot slotSize value : Nat) : Memory :=
  storeBytes memory (slot + slotSize - wordSize) value wordSize

/-- `hdr->offset` of a block -/
def headerOffset (memory : Memory) (ptr : Nat) : Nat :=
  loadBytes memory (ptr - headerSize) wordSize

/-- `hdr->slot_size` of a block -/
def headerSlotSize (memory : Memory) (ptr : Nat) : Nat :=
  loadBytes memory (ptr - headerSize + wordSize) wordSize

/-- Write the header that stands below an address. -/
def setHeader (memory : Memory) (ptr offset slotSize : Nat) : Memory :=
  storeBytes (storeBytes memory (ptr - headerSize) offset wordSize)
    (ptr - headerSize + wordSize) slotSize wordSize

namespace Wasm

/-- `__builtin_wasm_memory_grow` -/
def memoryGrow (wasm : Wasm) (pages : Nat) : Option Nat × Wasm :=
  let after :=
    { wasm with
      answers := wasm.answers.tail
      grows := pages :: wasm.grows }
  match wasm.answers.headD none with
  | none => (none, after)
  | some index =>
      if Accepts wasm.grants pages index then
        (some index,
          { after with
            grants := ⟨index * pageSize, pages * pageSize⟩ :: wasm.grants })
      else
        (none, after)

/-- `alloc_big_pages` -/
def allocBigPages (wasm : Wasm) (n : Nat) : Nat × Wasm :=
  let pow2Pages := nextPow2 n
  let slotSizeBytes := sizeMul pow2Pages pageSize
  let cls := log2 pow2Pages
  let topFree := wasm.bigFrees cls
  if topFree ≠ 0 then
    (topFree,
      { wasm with
        bigFrees := Function.update wasm.bigFrees cls
          (link wasm.memory topFree slotSizeBytes) })
  else
    match wasm.memoryGrow pow2Pages with
    | (none, wasm) => (0, wasm)
    | (some pageIndex, wasm) => (sizeMul pageIndex pageSize, wasm)

/-- The slot that `cu_wasm_alloc` takes from a small class. -/
def takeSmall (wasm : Wasm) (cls slotSize : Nat) : Nat × Wasm :=
  let topFree := wasm.frees cls
  if topFree ≠ 0 then
    (topFree,
      { wasm with
        frees := Function.update wasm.frees cls
          (link wasm.memory topFree slotSize) })
  else
    let nextAddr := wasm.nextAddrs cls
    if nextAddr % pageSize = 0 then
      match wasm.allocBigPages 1 with
      | (addr, wasm) =>
          if addr = 0 then
            (0, wasm)
          else
            (addr,
              { wasm with
                nextAddrs :=
                  Function.update wasm.nextAddrs cls (addr + slotSize) })
    else
      (nextAddr,
        { wasm with
          nextAddrs :=
            Function.update wasm.nextAddrs cls (nextAddr + slotSize) })

end Wasm

/-- The alignment that is used. -/
def usedAlignment (layout : Layout) : Nat :=
  if layout.alignment = 0 then 1 else layout.alignment

/-- `user_offset` -/
def userOffset (layout : Layout) : Nat :=
  alignUp headerSize (usedAlignment layout)

/-- `needed` -/
def needed (layout : Layout) : Nat :=
  sizeAdd (sizeAdd (userOffset layout) layout.elemSize) wordSize

/-- `slot_size` -/
def slotSize (layout : Layout) : Nat := nextPow2 (needed layout)

/-- The class of a slot size among the small ones. -/
def smallClass (slotSize : Nat) : Nat := log2 slotSize - minClass

namespace Wasm

/-- The slot that `cu_wasm_alloc` takes; 0 means that there is none. -/
def takeSlot (wasm : Wasm) (layout : Layout) : Nat × Wasm :=
  if smallClass (slotSize layout) < sizeClassCount then
    wasm.takeSmall (smallClass (slotSize layout)) (slotSize layout)
  else
    wasm.allocBigPages (bigPagesNeeded (needed layout))

/-- `cu_wasm_alloc` -/
def alloc (wasm : Wasm) (layout : Layout) : Except IoError Slice × Wasm :=
  if layout.elemSize = 0 then
    (.error .invalidInput, wasm)
  else
    match wasm.takeSlot layout with
    | (addr, wasm) =>
        if addr = 0 then
          (.error .outOfMemory, wasm)
        else
          (.ok ⟨addr + userOffset layout, layout.elemSize⟩,
            { wasm with
              memory := setHeader wasm.memory (addr + userOffset layout)
                (userOffset layout - headerSize) (slotSize layout) })

/-- `cu_wasm_free` -/
def free (wasm : Wasm) (mem : Slice) : Wasm :=
  if mem.ptr = 0 then
    wasm
  else
    let slotSize := headerSlotSize wasm.memory mem.ptr
    let offset := sizeAdd (headerOffset wasm.memory mem.ptr) headerSize
    let addr := mem.ptr - offset
    if smallClass slotSize < sizeClassCount then
      { wasm with
        memory :=
          setLink wasm.memory addr slotSize (wasm.frees (smallClass slotSize))
        frees := Function.update wasm.frees (smallClass slotSize) addr }
    else
      let pages := slotSize / pageSize
      let bigClass := log2 pages
      { wasm with
        memory :=
          setLink wasm.memory addr slotSize (wasm.bigFrees bigClass)
        bigFrees := Function.update wasm.bigFrees bigClass addr }

/-- The part that `cu_wasm_grow` and `cu_wasm_shrink` share. -/
def resize (wasm : Wasm) (oldMem : Slice) (newLayout : Layout) :
    Except IoError Slice × Wasm :=
  let slotSize := headerSlotSize wasm.memory oldMem.ptr
  let offset := sizeAdd (headerOffset wasm.memory oldMem.ptr) headerSize
  if oldMem.ptr % newLayout.alignment = 0 ∧
      sizeAdd (sizeAdd offset newLayout.elemSize) wordSize ≤ slotSize then
    (.ok ⟨oldMem.ptr, newLayout.elemSize⟩, wasm)
  else
    match wasm.alloc newLayout with
    | (.error err, wasm) => (.error err, wasm)
    | (.ok newMem, wasm) =>
        let copied :=
          { wasm with
            memory := smemcpy wasm.memory newMem
              ⟨oldMem.ptr, min oldMem.length newLayout.elemSize⟩ }
        (.ok newMem, copied.free oldMem)

/-- `cu_wasm_grow` -/
def grow (wasm : Wasm) (oldMem : Slice) (newLayout : Layout) :
    Except IoError Slice × Wasm :=
  if oldMem.ptr = 0 then
    wasm.alloc newLayout
  else
    wasm.resize oldMem newLayout

/-- `cu_wasm_shrink` -/
def shrink (wasm : Wasm) (oldMem : Slice) (newLayout : Layout) :
    Except IoError Slice × Wasm :=
  if oldMem.ptr = 0 then
    (.error .invalidInput, wasm)
  else
    wasm.resize oldMem newLayout

/-- The static variables at the start of the program. -/
def start (memory : Memory) (answers : List (Option Nat)) : Wasm :=
  ⟨fun _ => 0, fun _ => 0, fun _ => 0, memory, [], answers, []⟩

end Wasm

/-- `cu_Allocator_WasmAllocator` -/
def wasmAllocator : Allocator Wasm where
  allocFn := Wasm.alloc
  growFn := Wasm.grow
  shrinkFn := Wasm.shrink
  freeFn := Wasm.free
  memory := Wasm.memory
  setMemory := fun wasm memory => { wasm with memory := memory }

/-- A header that was written is read back. -/
theorem setHeader_reads (memory : Memory) {ptr offset size : Nat}
    (offsetFits : offset < sizeLimit) (sizeFits : size < sizeLimit) :
    headerOffset (setHeader memory ptr offset size) ptr = offset ∧
      headerSlotSize (setHeader memory ptr offset size) ptr = size := by
  constructor
  · unfold headerOffset setHeader
    rw [loadBytes_storeBytes_of_apart _ _ (Or.inr (Nat.le_refl _))]
    exact loadBytes_storeBytes_of_lt _ _ offsetFits
  · exact loadBytes_storeBytes_of_lt _ _ sizeFits

/-! ## Sizes -/

/-- The alignment is a power of two, at most 64 KiB. -/
def Aligned (layout : Layout) : Prop :=
  ∃ exponent ≤ 16, layout.alignment = 2 ^ exponent

/--
No computation on the sizes leaves 64 bits: not the sums, not the rounding to
a power of two, and not the size of so many pages.
-/
def Fits (layout : Layout) : Prop :=
  userOffset layout + layout.elemSize + wordSize + wordSize ≤ 2 ^ 63

/-- The exponent of the slot size. -/
def slotExponent (layout : Layout) : Nat := Nat.clog 2 (needed layout)

section Sizes

variable {layout : Layout}

theorem userOffset_eq (aligned : Aligned layout) :
    userOffset layout = max headerSize layout.alignment := by
  rcases aligned with ⟨exponent, small, power⟩
  have positive : 0 < layout.alignment := by
    rw [power]
    exact Nat.two_pow_pos exponent
  have bounded : layout.alignment ≤ 2 ^ 16 := by
    rw [power]
    exact Nat.pow_le_pow_right (by decide) small
  have fits : headerSize + (layout.alignment - 1) < sizeLimit := by
    unfold headerSize sizeLimit
    omega
  have bounds := alignUp_bounds positive fits
  have divides := alignUp_dvd ⟨exponent, power⟩ fits
  unfold userOffset usedAlignment
  rw [if_neg (Nat.ne_of_gt positive)]
  by_cases wide : exponent ≤ 4
  · have whole : layout.alignment ∣ headerSize := by
      rw [power]
      exact Nat.pow_dvd_pow 2 wide
    have narrow : layout.alignment ≤ headerSize :=
      Nat.le_of_dvd (by decide) whole
    rw [Nat.max_eq_left narrow]
    have rest : layout.alignment ∣
        alignUp headerSize layout.alignment - headerSize :=
      Nat.dvd_sub divides whole
    have none := Nat.eq_zero_of_dvd_of_lt rest (by omega)
    omega
  · have large : headerSize ≤ layout.alignment := by
      have wider : 2 ^ 4 ≤ 2 ^ exponent :=
        Nat.pow_le_pow_right (by decide) (by omega)
      rw [power]
      exact wider
    rw [Nat.max_eq_right large]
    have least : layout.alignment ≤ alignUp headerSize layout.alignment :=
      Nat.le_of_dvd (by unfold headerSize at *; omega) divides
    have rest : layout.alignment ∣
        alignUp headerSize layout.alignment - layout.alignment :=
      Nat.dvd_sub divides (Nat.dvd_refl _)
    have none := Nat.eq_zero_of_dvd_of_lt rest (by
      unfold headerSize at *
      omega)
    omega

theorem needed_eq (fits : Fits layout) :
    needed layout = userOffset layout + layout.elemSize + wordSize := by
  unfold Fits at fits
  unfold needed
  have inner : sizeAdd (userOffset layout) layout.elemSize =
      userOffset layout + layout.elemSize := by
    apply sizeAdd_eq
    unfold sizeLimit
    omega
  rw [inner, sizeAdd_eq]
  unfold sizeLimit
  omega

theorem needed_le (fits : Fits layout) :
    needed layout + wordSize ≤ 2 ^ 63 := by
  rw [needed_eq fits]
  exact fits

theorem slotSize_eq (fits : Fits layout) :
    slotSize layout = 2 ^ slotExponent layout := by
  have bound := needed_le fits
  unfold wordSize at bound
  exact nextPow2_eq (by omega)

theorem needed_le_slot (layout : Layout) :
    needed layout ≤ 2 ^ slotExponent layout :=
  Nat.le_pow_clog (by decide) _

/-- Slots have 32 bytes at least and not more than half of the addresses. -/
theorem slotExponent_bounds (aligned : Aligned layout) (fits : Fits layout) :
    4 < slotExponent layout ∧ slotExponent layout ≤ 63 := by
  have bound := needed_le fits
  have size := needed_eq fits
  have least : headerSize ≤ userOffset layout := by
    rw [userOffset_eq aligned]
    exact Nat.le_max_left _ _
  unfold headerSize wordSize at *
  unfold slotExponent
  constructor
  · apply (Nat.lt_clog_iff_pow_lt (by decide)).mpr
    omega
  · apply Nat.clog_le_of_le_pow
    omega

theorem smallClass_pow (exponent : Nat) :
    smallClass (2 ^ exponent) = exponent - minClass := by
  unfold smallClass log2
  rw [Nat.log_pow (by decide)]

/-- Small slots are smaller than a page. -/
theorem small_iff {exponent : Nat} (least : 4 < exponent) :
    smallClass (2 ^ exponent) < sizeClassCount ↔ exponent < 16 := by
  rw [smallClass_pow]
  unfold sizeClassCount minClass
  omega

end Sizes

end Libcute.Memory.WasmAllocator
