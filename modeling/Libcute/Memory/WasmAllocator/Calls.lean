import Libcute.Memory.WasmAllocator.Slots

/-!
# Calls of the WebAssembly allocator

For every function there is one lemma that says which moves it makes: where a
slot comes from, what a block looks like when it is handed out, and which
list its slot goes to when it is given up.
-/

namespace Libcute.Memory.WasmAllocator

open Libcute.Core.Interface
open Libcute.Core.NoStd
open Libcute.Core.Size
open Libcute.Library.ByteMemory
open Libcute.Library.DividedMemory

variable {wasm : Wasm} {live : List Slice} {slots : Nat → List Nat}
  {layout : Layout} {mem : Slice} {exponent pages : Nat}

/-- The allocator is the same, but `memory.grow` may have been called. -/
structure Unchanged (before after : Wasm) : Prop where
  nextAddrs : after.nextAddrs = before.nextAddrs
  frees : after.frees = before.frees
  bigFrees : after.bigFrees = before.bigFrees
  memory : after.memory = before.memory
  grants : after.grants = before.grants

theorem Unchanged.refl (wasm : Wasm) : Unchanged wasm wasm :=
  ⟨rfl, rfl, rfl, rfl, rfl⟩

theorem Unchanged.keeps {after : Wasm} (same : Unchanged wasm after)
    (keeps : Keeps wasm live slots none) : Keeps after live slots none :=
  keeps.congr same.nextAddrs same.frees same.bigFrees same.memory same.grants

/-! ## Pages -/

/-- `memory.grow` fails, or the pages are loose. -/
theorem Keeps.memoryGrow_spec (keeps : Keeps wasm live slots none)
    (pages : Nat) :
    (∃ after, wasm.memoryGrow pages = (none, after) ∧
      Unchanged wasm after) ∨
    ∃ index after, wasm.memoryGrow pages = (some index, after) ∧
      Accepts wasm.grants pages index ∧ after.memory = wasm.memory ∧
      after.nextAddrs = wasm.nextAddrs ∧
      Keeps after live slots
        (some ⟨index * pageSize, pages * pageSize⟩) := by
  unfold Wasm.memoryGrow
  cases answer : wasm.answers.headD none with
  | none => exact Or.inl ⟨_, rfl, rfl, rfl, rfl, rfl, rfl⟩
  | some index =>
      dsimp only
      by_cases accepts : Accepts wasm.grants pages index
      · right
        rw [if_pos accepts]
        refine ⟨index, _, rfl, accepts, rfl, rfl, ?_⟩
        exact (keeps.grant accepts).congr rfl rfl rfl rfl rfl
      · left
        rw [if_neg accepts]
        exact ⟨_, rfl, rfl, rfl, rfl, rfl, rfl⟩

/-- A slot was taken: it is loose, and the memory is as it was. -/
structure Taken (wasm : Wasm) (live : List Slice) (addr exponent : Nat)
    (after : Wasm) (slots : Nat → List Nat) : Prop where
  keeps : Keeps after live slots (some ⟨addr, 2 ^ exponent⟩)
  shape : SlotShape ⟨addr, 2 ^ exponent⟩ exponent
  memory : after.memory = wasm.memory

theorem Taken.addr_ne_zero {addr : Nat} {after : Wasm}
    (taken : Taken wasm live addr exponent after slots) : addr ≠ 0 := by
  have bounds := taken.keeps.loose_bounds
  unfold pageSize at bounds
  dsimp only at bounds
  omega

/-- Big slots come from the list of their class or from `memory.grow`. -/
theorem Keeps.allocBigPages_spec (keeps : Keeps wasm live slots none)
    {n cls : Nat} (rounded : nextPow2 n = 2 ^ cls) (bounded : cls ≤ 47) :
    (∃ after, wasm.allocBigPages n = (0, after) ∧ Unchanged wasm after) ∨
    ∃ addr after slots', wasm.allocBigPages n = (addr, after) ∧
      after.nextAddrs = wasm.nextAddrs ∧
      Taken wasm live addr (cls + 16) after slots' := by
  have size : 2 ^ cls * pageSize = 2 ^ (cls + 16) := by
    rw [pow_add]
    rfl
  have fits : 2 ^ (cls + 16) < sizeLimit :=
    Nat.pow_lt_pow_right (by decide) (by omega)
  have bytes : sizeMul (2 ^ cls) pageSize = 2 ^ (cls + 16) := by
    rw [sizeMul_eq (by rw [size]; exact fits), size]
  have log : log2 (2 ^ cls) = cls := Nat.log_pow (by decide) cls
  have head : wasm.freeHead (cls + 16) = wasm.bigFrees cls := by
    unfold Wasm.freeHead
    rw [if_neg (by omega), Nat.add_sub_cancel]
  unfold Wasm.allocBigPages
  rw [rounded]
  dsimp only
  rw [bytes, log]
  by_cases filled : wasm.bigFrees cls ≠ 0
  · right
    rcases keeps.pop (show 4 ≤ cls + 16 by omega) (by rw [head]; exact filled)
      with ⟨rest, _, shape, popped⟩
    rw [head] at shape popped
    refine ⟨wasm.bigFrees cls, _, Function.update slots (cls + 16) rest, ?_,
      setFree_nextAddrs wasm (cls + 16) _, popped, shape,
      setFree_memory wasm (cls + 16) _⟩
    rw [if_pos filled]
    unfold Wasm.setFree
    rw [if_neg (by omega), Nat.add_sub_cancel]
  · rw [if_neg filled]
    rcases keeps.memoryGrow_spec (2 ^ cls) with
      ⟨after, grows, same⟩ | ⟨index, after, grows, accepts, memory, nexts,
        granted⟩
    · left
      rw [grows]
      exact ⟨after, rfl, same⟩
    · right
      rw [grows]
      have bounded : index * pageSize < sizeLimit := by
        have inside := accepts.2.2.1
        have positive : 0 < 2 ^ cls * pageSize := by
          rw [size]
          exact Nat.two_pow_pos _
        rw [Nat.add_mul] at inside
        omega
      refine ⟨index * pageSize, after, slots, ?_, nexts, ?_, ?_, memory⟩
      · dsimp only
        rw [sizeMul_eq bounded]
      · rw [size] at granted
        exact granted
      · refine ⟨by omega, by omega, rfl, ?_⟩
        rw [Nat.min_eq_right (by omega)]
        exact Nat.dvd_mul_left _ _

/-! ## Slots -/

/-- Small slots come from their list, their current page or a new page. -/
theorem Keeps.takeSmall_spec (keeps : Keeps wasm live slots none)
    {cls : Nat} (small : cls < sizeClassCount) (positive : 0 < cls) :
    (∃ after, wasm.takeSmall cls (2 ^ (cls + minClass)) = (0, after) ∧
      Unchanged wasm after) ∨
    ∃ addr after slots',
      wasm.takeSmall cls (2 ^ (cls + minClass)) = (addr, after) ∧
      Taken wasm live addr (cls + minClass) after slots' := by
  have exponent : 4 < cls + minClass ∧ cls + minClass < 16 := by
    unfold sizeClassCount minClass at *
    omega
  have head : wasm.freeHead (cls + minClass) = wasm.frees cls := by
    unfold Wasm.freeHead
    rw [if_pos exponent.2, Nat.add_sub_cancel]
  have shaped {addr : Nat} (aligned : 2 ^ (cls + minClass) ∣ addr) :
      SlotShape ⟨addr, 2 ^ (cls + minClass)⟩ (cls + minClass) := by
    refine ⟨exponent.1, by omega, rfl, ?_⟩
    rw [Nat.min_eq_left exponent.2.le]
    exact aligned
  unfold Wasm.takeSmall
  by_cases filled : wasm.frees cls ≠ 0
  · right
    rcases keeps.pop exponent.1.le (by rw [head]; exact filled) with
      ⟨rest, _, shape, popped⟩
    rw [head] at shape popped
    refine ⟨wasm.frees cls, _,
      Function.update slots (cls + minClass) rest, ?_,
      popped, shape, setFree_memory wasm _ _⟩
    dsimp only
    rw [if_pos filled]
    unfold Wasm.setFree
    rw [if_pos exponent.2, Nat.add_sub_cancel]
  · dsimp only
    rw [if_neg filled]
    by_cases used : wasm.nextAddrs cls % pageSize = 0
    · rw [if_pos used]
      have one : nextPow2 1 = 2 ^ 0 := rfl
      rcases keeps.allocBigPages_spec one (by decide) with
        ⟨after, allocates, same⟩ |
        ⟨addr, after, slots', allocates, nexts, taken⟩
      · left
        rw [allocates]
        exact ⟨after, rfl, same⟩
      · right
        rw [allocates]
        dsimp only
        rw [if_neg taken.addr_ne_zero]
        have page : addr % pageSize = 0 :=
          Nat.mod_eq_zero_of_dvd taken.shape.aligned
        have opened := taken.keeps.openPage small page
        refine ⟨addr, _, slots', rfl, opened, ?_, taken.memory⟩
        exact shaped ((classSize_dvd small).trans taken.shape.aligned)
    · right
      rw [if_neg used]
      exact ⟨wasm.nextAddrs cls, _, slots, rfl, keeps.bump small used,
        shaped (keeps.tails cls small), rfl⟩

/-- The number of pages for a big slot, and its class. -/
theorem bigPages_class (fits : Fits layout) :
    ∃ cls, nextPow2 (bigPagesNeeded (needed layout)) = 2 ^ cls ∧
      cls ≤ 47 ∧ slotExponent layout ≤ cls + 16 := by
  have bound := needed_le fits
  have sum : sizeAdd (needed layout) (pageSize + (wordSize - 1)) =
      needed layout + (pageSize + (wordSize - 1)) := by
    apply sizeAdd_eq
    unfold pageSize wordSize sizeLimit at *
    omega
  have most : bigPagesNeeded (needed layout) ≤ 2 ^ 47 := by
    unfold bigPagesNeeded
    rw [sum]
    unfold pageSize wordSize at *
    omega
  refine ⟨Nat.clog 2 (bigPagesNeeded (needed layout)),
    nextPow2_eq (by omega), Nat.clog_le_of_le_pow most, ?_⟩
  apply Nat.clog_le_of_le_pow
  have covers := Nat.le_pow_clog (by decide : 1 < 2)
    (bigPagesNeeded (needed layout))
  rw [pow_add]
  have enough : needed layout ≤
      bigPagesNeeded (needed layout) * 2 ^ 16 := by
    unfold bigPagesNeeded
    rw [sum]
    unfold pageSize wordSize
    omega
  exact enough.trans (Nat.mul_le_mul_right _ covers)

/-- The slot that is taken for a layout has its size. -/
theorem Keeps.takeSlot_spec (keeps : Keeps wasm live slots none)
    (aligned : Aligned layout) (fits : Fits layout) :
    (∃ after, wasm.takeSlot layout = (0, after) ∧ Unchanged wasm after) ∨
    ∃ addr after slots', wasm.takeSlot layout = (addr, after) ∧
      Taken wasm live addr (slotExponent layout) after slots' := by
  have bounds := slotExponent_bounds aligned fits
  unfold Wasm.takeSlot
  rw [slotSize_eq fits]
  by_cases small : slotExponent layout < 16
  · rw [if_pos ((small_iff bounds.1).mpr small), smallClass_pow]
    have least : minClass ≤ slotExponent layout := bounds.1.le
    have inside : slotExponent layout - minClass < sizeClassCount := by
      unfold sizeClassCount minClass
      omega
    have positive : 0 < slotExponent layout - minClass := by
      unfold minClass
      omega
    have spec := keeps.takeSmall_spec inside positive
    rw [Nat.sub_add_cancel least] at spec
    exact spec
  · rw [if_neg fun below => small ((small_iff bounds.1).mp below)]
    rcases bigPages_class fits with
      ⟨cls, rounded, bounded, covers⟩
    rcases keeps.allocBigPages_spec rounded bounded with
      ⟨after, allocates, same⟩ |
      ⟨addr, after, slots', allocates, _, taken⟩
    · exact Or.inl ⟨after, allocates, same⟩
    · right
      refine ⟨addr, after, slots', allocates, ?_, ?_, taken.memory⟩
      · apply taken.keeps.narrow
        refine ⟨Nat.le_refl _, Nat.add_le_add_left ?_ _⟩
        exact Nat.pow_le_pow_right (by decide) covers
      · refine ⟨bounds.1, bounds.2, rfl, ?_⟩
        have page := taken.shape.aligned
        rw [Nat.min_eq_right (by omega)] at page ⊢
        exact page

/-! ## Allocation -/

/-- The header is read as it was written, and nothing else changes. -/
theorem setHeader_spec {memory : Memory} {ptr offset size : Nat}
    (offsetFits : offset < sizeLimit) (sizeFits : size < sizeLimit) :
    headerOffset (setHeader memory ptr offset size) ptr = offset ∧
      headerSlotSize (setHeader memory ptr offset size) ptr = size ∧
      Confined memory (setHeader memory ptr offset size)
        ⟨ptr - headerSize, headerSize⟩ := by
  rcases @setHeader_reads memory ptr _ _ offsetFits sizeFits with
    ⟨readOffset, readSize⟩
  refine ⟨readOffset, readSize, Confined.trans
    ((Confined.storeBytes memory (ptr - headerSize) offset wordSize).widen
      ⟨Nat.le_refl _, ?_⟩)
    ((Confined.storeBytes _ (ptr - headerSize + wordSize) size
      wordSize).widen ⟨Nat.le_add_right _ _, ?_⟩)⟩
  · unfold headerSize wordSize
    dsimp only
    omega
  · unfold headerSize wordSize
    dsimp only
    omega

/-- The links of these free slots are what they were. -/
def LinksKept (before after : Memory) (slots : Nat → List Nat) : Prop :=
  ∀ exponent, ∀ addr ∈ slots exponent,
    SameBytes before after (addr + 2 ^ exponent - wordSize) wordSize

/-- The headers and the bytes of these blocks are what they were. -/
def BlocksKept (before after : Memory) (live : List Slice) : Prop :=
  ∀ mem ∈ live,
    SameBytes before after (mem.ptr - headerSize) (headerSize + mem.length)

/-- Writes into a loose region keep the links and the blocks. -/
theorem Keeps.confined_kept {memory : Memory} {region : Region}
    (keeps : Keeps wasm live slots (some region))
    (confined : Confined wasm.memory memory region) :
    LinksKept wasm.memory memory slots ∧
      BlocksKept wasm.memory memory live := by
  refine ⟨?_, fun mem member => keeps.block_sameBytes confined member⟩
  intro exponent addr member
  apply confined.sameBytes
  have apart := keeps.divides.apart .loose (.slot exponent addr)
    (Option.some_ne_none _) member (by simp)
  exact apart.within (.refl _)
    (link_within (keeps.shapes exponent addr member))

/-- A loose slot gets the header of a block and is handed out. -/
theorem Keeps.place {addr : Nat}
    (keeps : Keeps wasm live slots (some ⟨addr, 2 ^ slotExponent layout⟩))
    (shape : SlotShape ⟨addr, 2 ^ slotExponent layout⟩ (slotExponent layout))
    (aligned : Aligned layout) (fits : Fits layout) :
    let memory := setHeader wasm.memory (addr + userOffset layout)
      (userOffset layout - headerSize) (slotSize layout)
    Keeps (wasm.withMemory memory)
        (⟨addr + userOffset layout, layout.elemSize⟩ :: live) slots none ∧
      LinksKept wasm.memory memory slots ∧
      BlocksKept wasm.memory memory live := by
  have bounds := keeps.loose_bounds
  have size := needed_eq fits
  have room := needed_le_slot layout
  have offset := userOffset_eq aligned
  have least : headerSize ≤ userOffset layout := by
    rw [offset]
    exact Nat.le_max_left _ _
  have most : userOffset layout ≤ pageSize := by
    rcases aligned with ⟨exponent, small, power⟩
    have bounded : layout.alignment ≤ 2 ^ 16 := by
      rw [power]
      exact Nat.pow_le_pow_right (by decide) small
    rw [offset]
    unfold headerSize pageSize
    omega
  rw [size] at room
  dsimp only at bounds
  rw [slotSize_eq fits]
  have below : 2 ^ slotExponent layout < sizeLimit :=
    Nat.pow_lt_pow_right (by decide) (by have := shape.most; omega)
  have offsetFits : userOffset layout - headerSize < sizeLimit := by
    unfold pageSize at most
    unfold sizeLimit
    omega
  rcases @setHeader_spec wasm.memory (addr + userOffset layout) _ _
    offsetFits below with ⟨readOffset, readSize, confined⟩
  generalize written : setHeader wasm.memory (addr + userOffset layout)
    (userOffset layout - headerSize) (2 ^ slotExponent layout) = memory at *
  have inside := confined.widen
    (show (⟨addr + userOffset layout - headerSize, headerSize⟩ :
        Region).Within ⟨addr, 2 ^ slotExponent layout⟩ from
      ⟨by dsimp only; omega, by dsimp only; omega⟩)
  have slot : slotOf memory
      ⟨addr + userOffset layout, layout.elemSize⟩ =
        ⟨addr, 2 ^ slotExponent layout⟩ := by
    unfold slotOf
    dsimp only
    rw [readOffset, readSize, Nat.sub_add_cancel least, Nat.add_sub_cancel]
  refine ⟨?_, keeps.confined_kept inside⟩
  have looseSlot := keeps.writeLoose inside
  rw [← slot] at looseSlot
  apply looseSlot.hand
  refine ⟨⟨slotExponent layout, ?_⟩, ?_, ?_, ?_⟩
  · change SlotShape (slotOf memory _) _
    rw [slot]
    exact shape
  · change headerOffset memory (addr + userOffset layout) + headerSize ≤ _
    rw [readOffset]
    dsimp only
    omega
  · change headerOffset memory (addr + userOffset layout) + headerSize ≤ _
    rw [readOffset]
    omega
  · change _ ≤ (slotOf memory _).start + (slotOf memory _).size
    rw [slot]
    dsimp only
    omega

/-- The address of a block is a multiple of its alignment. -/
theorem placed_aligned {addr : Nat}
    (shape : SlotShape ⟨addr, 2 ^ slotExponent layout⟩ (slotExponent layout))
    (aligned : Aligned layout) (fits : Fits layout) :
    layout.alignment ∣ addr + userOffset layout := by
  have size := needed_eq fits
  have room := needed_le_slot layout
  have offset := userOffset_eq aligned
  rcases aligned with ⟨exponent, small, power⟩
  rw [power] at offset ⊢
  have wider : exponent ≤ min (slotExponent layout) 16 := by
    refine Nat.le_min.mpr ⟨?_, small⟩
    apply (Nat.pow_le_pow_iff_right (by decide : 1 < 2)).mp
    have part : 2 ^ exponent ≤ userOffset layout := by
      rw [offset]
      exact Nat.le_max_right _ _
    omega
  apply Nat.dvd_add
  · exact (Nat.pow_dvd_pow 2 wider).trans shape.aligned
  · rw [offset]
    rcases Nat.le_total exponent 4 with narrow | wide
    · have header : 2 ^ exponent ∣ headerSize := Nat.pow_dvd_pow 2 narrow
      rw [Nat.max_eq_left (Nat.le_of_dvd (by decide) header)]
      exact header
    · have header : 2 ^ 4 ≤ 2 ^ exponent :=
        Nat.pow_le_pow_right (by decide) wide
      rw [Nat.max_eq_right (show headerSize ≤ 2 ^ exponent from header)]

/-- An allocation fails and changes nothing, or hands out a block. -/
theorem Keeps.alloc_spec (keeps : Keeps wasm live slots none)
    (aligned : Aligned layout) (fits : Fits layout) :
    (∃ err after, wasm.alloc layout = (.error err, after) ∧
      Unchanged wasm after) ∨
    ∃ ptr after slots',
      wasm.alloc layout = (.ok ⟨ptr, layout.elemSize⟩, after) ∧
      Keeps after (⟨ptr, layout.elemSize⟩ :: live) slots' none ∧
      layout.alignment ∣ ptr ∧
      LinksKept wasm.memory after.memory slots' ∧
      BlocksKept wasm.memory after.memory live := by
  unfold Wasm.alloc
  by_cases empty : layout.elemSize = 0
  · rw [if_pos empty]
    exact Or.inl ⟨_, _, rfl, .refl wasm⟩
  · rw [if_neg empty]
    rcases keeps.takeSlot_spec aligned fits with
      ⟨after, takes, same⟩ | ⟨addr, after, slots', takes, taken⟩
    · left
      rw [takes]
      exact ⟨_, after, rfl, same⟩
    · right
      rw [takes]
      dsimp only
      rw [if_neg taken.addr_ne_zero]
      rcases taken.keeps.place taken.shape aligned fits with
        ⟨placed, links, blocks⟩
      refine ⟨addr + userOffset layout, _, slots', rfl, placed,
        placed_aligned taken.shape aligned fits, ?_, ?_⟩
      · rw [taken.memory] at links
        dsimp only
        rw [taken.memory]
        exact links
      · rw [taken.memory] at blocks
        dsimp only
        rw [taken.memory]
        exact blocks

/-! ## Release -/

/-- A block goes back to the free list of the exponent of its slot. -/
theorem free_eq (placed : Placed wasm.memory mem)
    (shape : SlotShape (slotOf wasm.memory mem) exponent) :
    wasm.free mem =
      (wasm.withMemory (setLink wasm.memory (slotOf wasm.memory mem).start
        (2 ^ exponent) (wasm.freeHead exponent))).setFree exponent
          (slotOf wasm.memory mem).start := by
  have offset : sizeAdd (headerOffset wasm.memory mem.ptr) headerSize =
      headerOffset wasm.memory mem.ptr + headerSize := by
    apply sizeAdd_eq
    have bounded := placed.offset
    unfold pageSize at bounded
    unfold sizeLimit
    omega
  have size : headerSlotSize wasm.memory mem.ptr = 2 ^ exponent := shape.size
  have valid : mem.ptr ≠ 0 := by
    have below := placed.below
    unfold headerSize at below
    omega
  unfold Wasm.free
  rw [if_neg valid]
  dsimp only
  rw [offset, size]
  unfold Wasm.setFree Wasm.freeHead
  by_cases small : exponent < 16
  · rw [if_pos ((small_iff shape.least).mpr small), if_pos small,
      if_pos small, smallClass_pow]
    rfl
  · have pages : log2 (2 ^ exponent / pageSize) = exponent - 16 := by
      have quotient : 2 ^ exponent / 2 ^ 16 = 2 ^ (exponent - 16) :=
        Nat.pow_div (Nat.le_of_not_lt small) (by decide)
      change log2 (2 ^ exponent / 2 ^ 16) = _
      rw [quotient]
      exact Nat.log_pow (by decide) _
    rw [if_neg fun below => small ((small_iff shape.least).mp below),
      if_neg small, if_neg small, pages]
    rfl

/-- The slot of a block that is freed is the first of its list. -/
theorem Keeps.free_spec (keeps : Keeps wasm live slots none)
    (member : mem ∈ live) :
    ∃ exponent,
      (slotOf wasm.memory mem).size = 2 ^ exponent ∧
      Keeps (wasm.free mem) (live.erase mem)
        (Function.update slots exponent
          ((slotOf wasm.memory mem).start :: slots exponent)) none ∧
      LinksKept wasm.memory (wasm.free mem).memory slots ∧
      BlocksKept wasm.memory (wasm.free mem).memory (live.erase mem) := by
  have placed := keeps.placed mem member
  rcases placed.shape with ⟨exponent, shape⟩
  have region : slotOf wasm.memory mem =
      ⟨(slotOf wasm.memory mem).start, 2 ^ exponent⟩ := by
    rw [← shape.size]
  have released := keeps.release member
  rw [region] at released
  have slotShape := shape
  rw [region] at slotShape
  rw [free_eq placed shape, setFree_memory]
  refine ⟨exponent, shape.size, released.push slotShape, ?_⟩
  exact released.confined_kept ((Confined.storeBytes wasm.memory
    ((slotOf wasm.memory mem).start + 2 ^ exponent - wordSize)
      (wasm.freeHead exponent) wordSize).widen (link_within slotShape))

end Libcute.Memory.WasmAllocator
