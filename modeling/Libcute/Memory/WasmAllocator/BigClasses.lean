import Libcute.Memory.WasmAllocator

/-!
# Big classes of the WebAssembly allocator

For a big slot `cu_wasm_alloc` rounds the bytes with a word of slack up to
pages and then to a power of two, and `cu_wasm_free` rounds the bytes to a
power of two and divides.  `givenBack_iff` says for which layouts both find
the same free list: those whose bytes leave the last word of their slot free
a second time.  For the others a slot of twice the size is taken, one half of
it is never used again, and the next allocation takes new pages.
-/

namespace Libcute.Memory.WasmAllocator

open Libcute.Core.Interface
open Libcute.Core.Size
open Libcute.Library.ByteMemory

variable {layout : Layout}

/-- The slot of the layout is in a big class. -/
def Big (layout : Layout) : Prop :=
  sizeClassCount ≤ smallClass (slotSize layout)

instance (layout : Layout) : Decidable (Big layout) :=
  inferInstanceAs (Decidable (_ ≤ _))

/-- The pages that `alloc_big_pages` takes for the layout. -/
def pagesTaken (layout : Layout) : Nat :=
  nextPow2 (bigPagesNeeded (needed layout))

/-- The class from which `alloc_big_pages` serves the layout. -/
def allocClass (layout : Layout) : Nat := log2 (pagesTaken layout)

/-- The class that `cu_wasm_free` computes from the header. -/
def freeClass (layout : Layout) : Nat := log2 (slotSize layout / pageSize)

/--
What is taken for the layout is wholly given back: the classes are the same,
as many bytes are freed as were taken, the freed slot is the first of the
list that serves the layout, and the next allocation does not call
`memory.grow`.
-/
structure GivenBack (layout : Layout) : Prop where
  sameClass : freeClass layout = allocClass layout
  whole : slotSize layout = pagesTaken layout * pageSize
  listed : ∀ (wasm : Wasm) (block : Slice) (after : Wasm),
    wasm.alloc layout = (.ok block, after) →
      (after.free block).bigFrees (allocClass layout) =
        block.ptr - userOffset layout
  again : ∀ (wasm : Wasm) (block : Slice) (after : Wasm),
    wasm.alloc layout = (.ok block, after) →
      ∃ block' after',
        (after.free block).alloc layout = (.ok block', after') ∧
          after'.grows = (after.free block).grows

/-! ## The two formulas -/

theorem needed_lt (layout : Layout) : needed layout < sizeLimit :=
  sizeAdd_lt _ _

theorem userOffset_lt (layout : Layout) :
    userOffset layout < sizeLimit := by
  refine Nat.lt_of_le_of_lt Nat.and_le_left ?_
  unfold sizeSub
  exact Nat.mod_lt _ (Nat.two_pow_pos 64)

/-- A big slot has at least the size of a page. -/
theorem Big.slot_eq (big : Big layout) :
    needed layout ≤ 2 ^ 63 ∧ 16 ≤ slotExponent layout ∧
      slotExponent layout ≤ 63 ∧
      slotSize layout = 2 ^ slotExponent layout := by
  have bounded : needed layout ≤ 2 ^ 63 := by
    by_contra huge
    have rounded : slotSize layout = 0 := by
      have exponent : Nat.clog 2 (needed layout) = 64 := by
        apply Nat.le_antisymm
        · apply Nat.clog_le_of_le_pow
          exact (needed_lt layout).le
        · exact (Nat.lt_clog_iff_pow_lt (by decide)).mpr
            (Nat.lt_of_not_le huge)
      unfold slotSize
      rw [nextPow2_eq_mod (needed_lt layout), exponent]
      rfl
    unfold Big at big
    rw [rounded] at big
    exact absurd big (by decide)
  have size : slotSize layout = 2 ^ slotExponent layout :=
    nextPow2_eq bounded
  refine ⟨bounded, ?_, Nat.clog_le_of_le_pow bounded, size⟩
  unfold Big at big
  rw [size, smallClass_pow] at big
  unfold sizeClassCount minClass at big
  omega

theorem Big.pages_eq (big : Big layout) :
    bigPagesNeeded (needed layout) =
        (needed layout + (pageSize + (wordSize - 1))) / pageSize ∧
      pagesTaken layout = 2 ^ Nat.clog 2 (bigPagesNeeded (needed layout)) ∧
      allocClass layout =
        Nat.clog 2 (bigPagesNeeded (needed layout)) := by
  have bounded := big.slot_eq.1
  have pages : bigPagesNeeded (needed layout) =
      (needed layout + (pageSize + (wordSize - 1))) / pageSize := by
    unfold bigPagesNeeded
    rw [sizeAdd_eq]
    unfold pageSize wordSize sizeLimit
    omega
  have taken : pagesTaken layout =
      2 ^ Nat.clog 2 (bigPagesNeeded (needed layout)) := by
    apply nextPow2_eq
    rw [pages]
    unfold pageSize wordSize
    omega
  refine ⟨pages, taken, ?_⟩
  unfold allocClass log2
  rw [taken]
  exact Nat.log_pow (by decide) _

theorem Big.freeClass_eq (big : Big layout) :
    freeClass layout = slotExponent layout - 16 := by
  rcases big.slot_eq with ⟨_, least, _, size⟩
  have quotient : 2 ^ slotExponent layout / 2 ^ 16 =
      2 ^ (slotExponent layout - 16) := Nat.pow_div least (by decide)
  unfold freeClass log2
  rw [size]
  change Nat.log 2 (2 ^ slotExponent layout / 2 ^ 16) = _
  rw [quotient]
  exact Nat.log_pow (by decide) _

/-- The classes agree if a second word fits into the slot. -/
theorem Big.class_iff (big : Big layout) :
    freeClass layout = allocClass layout ↔
      needed layout + wordSize ≤ slotSize layout := by
  rcases big.slot_eq with ⟨_, least, most, size⟩
  rcases big.pages_eq with ⟨pages, _, served⟩
  have split : 2 ^ slotExponent layout =
      2 ^ (slotExponent layout - 16) * pageSize := by
    change _ = _ * 2 ^ 16
    rw [← pow_add, Nat.sub_add_cancel least]
  have above : needed layout ≤ 2 ^ slotExponent layout :=
    needed_le_slot layout
  rw [served, big.freeClass_eq, size]
  generalize count : bigPagesNeeded (needed layout) = n at *
  constructor
  · intro same
    have covers := Nat.le_pow_clog (by decide : 1 < 2) n
    rw [← same] at covers
    rw [split]
    unfold pageSize wordSize at *
    omega
  · intro room
    apply Nat.le_antisymm
    · have covers := Nat.le_pow_clog (by decide : 1 < 2) n
      have enough : needed layout ≤ 2 ^ (Nat.clog 2 n + 16) := by
        rw [pow_add]
        unfold pageSize wordSize at pages
        omega
      have reached : slotExponent layout ≤ Nat.clog 2 n + 16 :=
        Nat.clog_le_of_le_pow enough
      omega
    · apply Nat.clog_le_of_le_pow
      rw [split] at room
      unfold pageSize wordSize at *
      omega

/-! ## Allocation, release and allocation again -/

/-- A block is in a slot, and its header stands below it. -/
theorem alloc_written (wasm : Wasm) {block : Slice} {after : Wasm}
    (allocates : wasm.alloc layout = (.ok block, after)) :
    layout.elemSize ≠ 0 ∧ ∃ addr memory, addr ≠ 0 ∧
      block = ⟨addr + userOffset layout, layout.elemSize⟩ ∧
      after.memory = setHeader memory (addr + userOffset layout)
        (userOffset layout - headerSize) (slotSize layout) := by
  unfold Wasm.alloc at allocates
  by_cases empty : layout.elemSize = 0
  · rw [if_pos empty] at allocates
    cases allocates
  · rw [if_neg empty] at allocates
    refine ⟨empty, ?_⟩
    rcases takes : wasm.takeSlot layout with ⟨addr, taken⟩
    rw [takes] at allocates
    dsimp only at allocates
    by_cases none : addr = 0
    · rw [if_pos none] at allocates
      cases allocates
    · rw [if_neg none] at allocates
      cases allocates
      exact ⟨addr, taken.memory, none, rfl, rfl⟩

/-- A slot of a big class becomes the first of its list. -/
theorem free_big (wasm : Wasm) {mem : Slice} {offset size : Nat}
    (valid : mem.ptr ≠ 0)
    (readOffset : headerOffset wasm.memory mem.ptr = offset)
    (readSize : headerSlotSize wasm.memory mem.ptr = size)
    (big : sizeClassCount ≤ smallClass size) :
    (wasm.free mem).bigFrees =
        Function.update wasm.bigFrees (log2 (size / pageSize))
          (mem.ptr - sizeAdd offset headerSize) ∧
      (wasm.free mem).grows = wasm.grows := by
  unfold Wasm.free
  dsimp only
  rw [if_neg valid, readOffset, readSize, if_neg (Nat.not_lt.mpr big)]
  exact ⟨rfl, rfl⟩

/-- The slot of a big block that is freed is the first of the free class. -/
theorem Big.free_eq (big : Big layout) (offset : headerSize ≤ userOffset layout)
    {wasm : Wasm} {memory : Memory} {addr : Nat}
    (written : wasm.memory = setHeader memory (addr + userOffset layout)
      (userOffset layout - headerSize) (slotSize layout)) :
    let freed := wasm.free ⟨addr + userOffset layout, layout.elemSize⟩
    freed.bigFrees =
        Function.update wasm.bigFrees (freeClass layout) addr ∧
      freed.grows = wasm.grows := by
  rcases big.slot_eq with ⟨_, _, most, size⟩
  have small : slotExponent layout < 64 := Nat.lt_succ_of_le most
  have sizeFits : slotSize layout < sizeLimit := by
    rw [size]
    exact Nat.pow_lt_pow_right (by decide) small
  have offsetFits : userOffset layout - headerSize < sizeLimit :=
    Nat.lt_of_le_of_lt (Nat.sub_le _ _) (userOffset_lt layout)
  have pointer : addr + userOffset layout ≠ 0 := by
    unfold headerSize at offset
    omega
  rcases @setHeader_reads memory (addr + userOffset layout) _ _
    offsetFits sizeFits with ⟨readOffset, readSize⟩
  rw [← written] at readOffset readSize
  have whole : sizeAdd (userOffset layout - headerSize) headerSize =
      userOffset layout := by
    have joined : userOffset layout - headerSize + headerSize =
        userOffset layout := Nat.sub_add_cancel offset
    have fits : userOffset layout - headerSize + headerSize <
        sizeLimit := lt_of_eq_of_lt joined (userOffset_lt layout)
    rw [sizeAdd_eq fits]
    exact joined
  have start : addr + userOffset layout - userOffset layout = addr :=
    Nat.add_sub_cancel _ _
  have given := @free_big wasm
    ⟨addr + userOffset layout, layout.elemSize⟩ _ _
    pointer readOffset readSize big
  rw [whole] at given
  dsimp only at given
  rw [start] at given
  exact given

/-- A slot of the class is taken before `memory.grow` is called. -/
theorem Big.alloc_listed (big : Big layout) {wasm : Wasm}
    (filled : layout.elemSize ≠ 0)
    (listed : wasm.bigFrees (allocClass layout) ≠ 0) :
    ∃ block after, wasm.alloc layout = (.ok block, after) ∧
      after.grows = wasm.grows := by
  have first : wasm.bigFrees
      (log2 (nextPow2 (bigPagesNeeded (needed layout)))) ≠ 0 := listed
  have takes : wasm.takeSlot layout =
      wasm.allocBigPages (bigPagesNeeded (needed layout)) :=
    if_neg (Nat.not_lt.mpr big)
  unfold Wasm.alloc
  rw [if_neg filled, takes]
  unfold Wasm.allocBigPages
  dsimp only
  rw [if_pos first]
  dsimp only
  rw [if_neg first]
  exact ⟨_, _, rfl, rfl⟩

/--
The main result: what is taken for a layout with a big slot is given back if
and only if a second word fits behind its bytes.  A power of two that a
`size_t` holds is at most `2 ^ 63`.
-/
theorem givenBack_iff (big : Big layout)
    (alignment : layout.alignment ≤ 2 ^ 63) :
    GivenBack layout ↔ needed layout + wordSize ≤ slotSize layout := by
  constructor
  · exact fun given => big.class_iff.mp given.sameClass
  · intro room
    have sameClass := big.class_iff.mpr room
    have offset : headerSize ≤ userOffset layout := by
      have used : 0 < usedAlignment layout ∧
          usedAlignment layout ≤ 2 ^ 63 := by
        unfold usedAlignment
        split <;> omega
      refine (alignUp_bounds used.1 ?_).1
      unfold headerSize sizeLimit
      omega
    refine ⟨sameClass, ?_, ?_, ?_⟩
    · rcases big.slot_eq with ⟨_, least, _, size⟩
      rcases big.pages_eq with ⟨_, taken, served⟩
      rw [served, big.freeClass_eq] at sameClass
      rw [size, taken, ← sameClass]
      change _ = _ * 2 ^ 16
      rw [← pow_add, Nat.sub_add_cancel least]
    · intro wasm block after allocates
      rcases alloc_written wasm allocates with
        ⟨_, addr, memory, _, rfl, written⟩
      have start : addr + userOffset layout - userOffset layout = addr :=
        Nat.add_sub_cancel _ _
      rw [(big.free_eq offset written).1, sameClass, Function.update_self]
      exact start.symm
    · intro wasm block after allocates
      rcases alloc_written wasm allocates with
        ⟨filled, addr, memory, valid, rfl, written⟩
      have served : (after.free
          ⟨addr + userOffset layout, layout.elemSize⟩).bigFrees
            (allocClass layout) = addr := by
        rw [(big.free_eq offset written).1, sameClass,
          Function.update_self]
      apply big.alloc_listed filled
      rw [served]
      exact valid

/-- Header, bytes, the word of the link and a second word fill one page. -/
theorem givenBack_iff_page : GivenBack ⟨65504, 8⟩ := by
  have big : Big ⟨65504, 8⟩ := by decide
  exact (givenBack_iff big (by decide)).mpr (by decide)

/-- Allocate, free and allocate again. -/
def Wasm.again (wasm : Wasm) (layout : Layout) : Wasm :=
  match wasm.alloc layout with
  | (.error _, after) => after
  | (.ok block, after) => ((after.free block).alloc layout).2

/-- A machine with pages 1 to 4 to give. -/
def fourPages : Wasm := Wasm.start (fun _ => 0) [some 1, some 3]

/--
One byte more: two pages are taken, one is freed, and the next allocation
takes two new ones.
-/
theorem not_givenBack_slack :
    Big ⟨65505, 8⟩ ∧ ¬ GivenBack ⟨65505, 8⟩ ∧
      (fourPages.again ⟨65504, 8⟩).grows = [1] ∧
      (fourPages.again ⟨65505, 8⟩).grows = [2, 2] := by
  refine ⟨by decide, ?_, by decide +kernel, by decide +kernel⟩
  intro given
  have different : freeClass ⟨65505, 8⟩ ≠ allocClass ⟨65505, 8⟩ := by
    decide +kernel
  exact different given.sameClass

end Libcute.Memory.WasmAllocator
