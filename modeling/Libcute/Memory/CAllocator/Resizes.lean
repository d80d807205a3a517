import Libcute.Memory.CAllocator

/-!
# Resizing blocks of the C allocator

`resize_safe_iff` says which answers of the C library keep the bytes of a
block that is grown or shrunk, whatever the memory holds: those where
`realloc` fails, and those where it leaves the C block where it is and the
new back pointer does not fall into the bytes.  When `realloc` moves the C
block, the old address is not part of it, and the bytes are lost.
-/

namespace Libcute.Memory.CAllocator

open Libcute.Core.Interface
open Libcute.Core.NoStd
open Libcute.Core.Size
open Libcute.Library.ByteMemory

variable {memory memory' junk : Memory} {block : CBlock} {old mem : Slice}
  {layout : Layout} {given : Given}
  {copy : Memory → Slice → Slice → Memory}

/-- A block lies in its C block, behind a pointer. -/
structure Placed (block : CBlock) (mem : Slice) : Prop where
  start : block.ptr ≠ 0
  space : block.finish ≤ sizeLimit
  below : block.ptr + pointerSize ≤ mem.ptr
  within : mem.finish ≤ block.finish

/-- A live block: the pointer is that of its C block. -/
def Live (memory : Memory) (block : CBlock) (mem : Slice) : Prop :=
  Placed block mem ∧ backPointer memory mem.ptr = block.ptr

/-- What a call that succeeds should do. -/
structure Keeps
    (memory : Memory) (old : Slice) (layout : Layout) (mem : Slice)
    (block : CBlock) (memory' : Memory) : Prop where
  bytes : ∀ i < min old.length layout.elemSize,
    memory' (mem.ptr + i) = memory (old.ptr + i)
  aligned : layout.alignment ∣ mem.ptr
  stored : free memory' mem = some block.ptr

/-- Where `realloc` and `malloc` place a C block, if they do. -/
structure Outcome where
  realloc : Option Nat
  malloc : Option Nat

/-- An outcome with the bytes that the blocks come with. -/
def Outcome.answer (outcome : Outcome) (first second : Memory) : Answer :=
  ⟨outcome.realloc.map fun ptr => ⟨ptr, first⟩,
    outcome.malloc.map fun ptr => ⟨ptr, second⟩⟩

/-- What the C standard promises of the blocks. -/
structure Outcome.Standard
    (outcome : Outcome) (block : CBlock) (layout : Layout) : Prop where
  resized : ∀ ptr, outcome.realloc = some ptr →
    ptr ≠ 0 ∧ ptr + totalSize layout < sizeLimit
  another : ∀ ptr, outcome.malloc = some ptr →
    ptr ≠ 0 ∧ ptr + totalSize layout < sizeLimit ∧
      Apart ptr (totalSize layout) block.ptr block.length

/-- A call does what it should for all contents of the memory. -/
def Safe
    (call : Memory → CBlock → Slice → Layout → Answer → Option Result)
    (block : CBlock) (old : Slice) (layout : Layout) (outcome : Outcome) :
    Prop :=
  ∀ memory first second, Live memory block old →
    ∃ result block' memory',
      call memory block old layout (outcome.answer first second) =
        some (result, block', memory') ∧
      ∀ mem, result = .ok mem → Keeps memory old layout mem block' memory'

/-- The back pointer of an address in a C block lies in that block. -/
def SlotInside (raw aligned total : Nat) : Prop :=
  raw + pointerSize ≤ aligned ∧ aligned ≤ raw + total

instance (raw aligned total : Nat) :
    Decidable (SlotInside raw aligned total) :=
  inferInstanceAs (Decidable (_ ∧ _))

/-- A new C block has room for the back pointer and so many bytes. -/
def HasRoom (raw aligned total count : Nat) : Prop :=
  SlotInside raw aligned total ∧ (count = 0 ∨ aligned + count ≤ raw + total)

/--
A C block was left where it is, so many bytes of the old block lie in it, and
the back pointer falls in front of them or behind them.
-/
def Stays
    (block : CBlock) (old : Slice) (raw aligned total count : Nat) : Prop :=
  SlotInside raw aligned total ∧
    (count = 0 ∨
      raw = block.ptr ∧ old.ptr + count ≤ raw + total ∧
        aligned + count ≤ raw + total ∧
        (aligned ≤ old.ptr ∨ old.ptr + count + pointerSize ≤ aligned))

instance (block : CBlock) (old : Slice) (raw aligned total count : Nat) :
    Decidable (Stays block old raw aligned total count) :=
  inferInstanceAs (Decidable (_ ∧ _))

/-- The number of bytes that are kept. -/
abbrev kept (old : Slice) (layout : Layout) : Nat :=
  min old.length layout.elemSize

/--
The answers that keep the bytes: `realloc` fails, and there is no block or one
with room; or `realloc` leaves the C block where it is.
-/
def Allows
    (block : CBlock) (old : Slice) (layout : Layout) (outcome : Outcome) :
    Prop :=
  match outcome.realloc with
  | none =>
      totalSize layout ≠ 0 ∧ (layout.elemSize = 0 ∨
        ∀ raw, outcome.malloc = some raw →
          HasRoom raw (alignedAddr raw layout) (totalSize layout)
            (kept old layout))
  | some raw =>
      Stays block old raw (alignedAddr raw layout) (totalSize layout)
        (kept old layout)

/-! ## Alignment -/

theorem alignment_dvd
    (power : ∃ exponent, layout.alignment = 2 ^ exponent)
    (fits : layout.alignment < sizeLimit) (raw : Nat) :
    layout.alignment ∣ alignedAddr raw layout := by
  rcases power with ⟨exponent, power⟩
  rw [power] at fits
  have bounded : exponent < 64 := by
    by_contra large
    have above : 2 ^ 64 ≤ 2 ^ exponent :=
      Nat.pow_le_pow_right (by decide) (Nat.le_of_not_lt large)
    unfold sizeLimit at fits
    omega
  unfold alignedAddr usedAlignment pointerSize
  rw [power]
  split_ifs with small
  · have three : exponent ≤ 3 := by
      by_contra large
      have above : 2 ^ 3 ≤ 2 ^ exponent :=
        Nat.pow_le_pow_right (by decide) (by omega)
      omega
    exact (Nat.pow_dvd_pow 2 three).trans
      (alignUp_dvd_of_wrap _ (by decide : 3 < 64))
  · exact alignUp_dvd_of_wrap _ bounded

/-! ## Copies -/

/--
A copy that is right when the target does not start inside the source, and
otherwise for the bytes in front of the target.
-/
structure Copies (copy : Memory → Slice → Slice → Memory) : Prop where
  blits : ∀ memory dest src count, dest ≠ 0 → src ≠ 0 →
    dest ≤ src ∨ src + count ≤ dest →
    copy memory ⟨dest, count⟩ ⟨src, count⟩ = blit memory dest src count
  head : ∀ memory dest src count offset, dest ≠ 0 → src ≠ 0 →
    offset < count → offset = 0 ∨ src + offset < dest →
    copy memory ⟨dest, count⟩ ⟨src, count⟩ (dest + offset) =
      memory (src + offset)

theorem smemmove_copies : Copies smemmove where
  blits memory dest src count destValid srcValid _ :=
    smemmove_eq_blit memory destValid srcValid
  head memory dest src count offset destValid srcValid inside _ := by
    rw [smemmove_eq_blit memory destValid srcValid,
      blit_inside memory src inside]

theorem smemcpy_copies : Copies smemcpy where
  blits memory dest src count destValid srcValid safe := by
    unfold smemcpy
    rw [if_neg (by tauto), Nat.min_self]
    exact copyForward_eq_blit memory safe
  head memory dest src count offset destValid srcValid inside front := by
    unfold smemcpy
    rw [if_neg (by tauto), Nat.min_self]
    exact copyForward_head memory inside front

/-! ## After `realloc` -/

variable {raw aligned total count : Nat}

/-- The memory with the back pointer of a C block. -/
def landed (memory : Memory) (raw aligned : Nat) : Memory :=
  storeBytes memory (aligned - pointerSize) raw pointerSize

theorem storePointer_inside (slot : SlotInside raw aligned total) :
    storePointer memory ⟨raw, total⟩ aligned =
      some (landed memory raw aligned) := by
  unfold storePointer
  exact if_pos slot

theorem storePointer_outside (slot : ¬ SlotInside raw aligned total) :
    storePointer memory ⟨raw, total⟩ aligned = none := by
  unfold storePointer
  exact if_neg slot

theorem landed_outside
    {address : Nat}
    (outside : ¬ (aligned - pointerSize ≤ address ∧
      address < aligned - pointerSize + pointerSize)) :
    landed memory raw aligned address = memory address := by
  unfold landed storeBytes
  exact if_neg outside

/-- The bytes of a back pointer do not depend on the memory. -/
theorem landed_inside
    {address : Nat}
    (inside : aligned - pointerSize ≤ address ∧
      address < aligned - pointerSize + pointerSize)
    (memory memory' : Memory) :
    landed memory raw aligned address = landed memory' raw aligned address := by
  unfold landed storeBytes
  rw [if_pos inside, if_pos inside]

/-- The pointer of a C block can be read back. -/
theorem free_landed
    (slot : SlotInside raw aligned total) (space : raw < sizeLimit)
    (same : SameBytes (landed memory raw aligned) memory'
      (aligned - pointerSize) pointerSize) (length : Nat) :
    free memory' ⟨aligned, length⟩ = some raw := by
  have below := slot.1
  unfold pointerSize at below
  have wide : sizeLimit = 256 ^ pointerSize := by decide
  unfold free
  rw [if_neg (by dsimp only; omega)]
  unfold backPointer
  rw [loadBytes_congr same]
  unfold landed
  rw [loadBytes_storeBytes_of_lt]
  rw [← wide]
  exact space

/-- The end of `relocate`: the bytes are copied if the address has changed. -/
def settle
    (copy : Memory → Slice → Slice → Memory) (memory : Memory)
    (old : Slice) (raw aligned total count : Nat) : Option Memory :=
  if aligned ≠ old.ptr then
    copyInto copy (landed memory raw aligned) ⟨raw, total⟩ ⟨aligned, count⟩
      ⟨old.ptr, count⟩ count
  else
    some (landed memory raw aligned)

theorem relocate_eq {size : Nat} (slot : SlotInside raw aligned total) :
    relocate copy memory ⟨raw, total⟩ old size aligned =
      (settle copy memory old raw aligned total (min old.length size)).map
        fun memory => (.ok ⟨aligned, size⟩, ⟨raw, total⟩, memory) := by
  unfold relocate settle
  rw [storePointer_inside slot]

theorem relocate_outside
    {size : Nat} (slot : ¬ SlotInside raw aligned total) :
    relocate copy memory ⟨raw, total⟩ old size aligned = none := by
  unfold relocate
  rw [storePointer_outside slot]

/-- The bytes that are found at the old address arrive at the new one. -/
theorem settle_keeps
    (copies : Copies copy) (slot : SlotInside raw aligned total)
    (oldValid : old.ptr ≠ 0) (origin : Memory)
    (room : count = 0 ∨ aligned + count ≤ raw + total)
    (apart : count = 0 ∨ aligned ≤ old.ptr ∨
      old.ptr + count + pointerSize ≤ aligned)
    (source : ∀ i < count, memory (old.ptr + i) = origin (old.ptr + i)) :
    ∃ memory', settle copy memory old raw aligned total count =
        some memory' ∧
      (∀ i < count, memory' (aligned + i) = origin (old.ptr + i)) ∧
      SameBytes (landed memory raw aligned) memory' (aligned - pointerSize)
        pointerSize := by
  have below := slot.1
  unfold pointerSize at below apart
  have valid : aligned ≠ 0 := by omega
  have found : ∀ i < count,
      landed memory raw aligned (old.ptr + i) = origin (old.ptr + i) := by
    intro i inside
    rw [landed_outside (by unfold pointerSize; omega), source i inside]
  unfold settle
  by_cases moves : aligned = old.ptr
  · rw [if_neg (fun apart => apart moves)]
    refine ⟨_, rfl, ?_, SameBytes.refl _ _ _⟩
    intro i inside
    rw [← found i inside, moves]
  · have blits : copy (landed memory raw aligned) ⟨aligned, count⟩
        ⟨old.ptr, count⟩ =
          blit (landed memory raw aligned) aligned old.ptr count :=
      copies.blits _ _ _ _ valid oldValid (by omega)
    rw [if_pos moves]
    unfold copyInto
    rw [if_pos (by
      unfold Slice.finish
      dsimp only
      omega), blits]
    refine ⟨_, rfl, ?_, blit_sameBytes _ _ (by
      unfold Apart pointerSize
      omega)⟩
    intro i inside
    rw [blit_inside _ _ inside]
    exact found i inside

/-- A byte that arrives is the one at the old address. -/
theorem settle_byte
    (copies : Copies copy) (slot : SlotInside raw aligned total)
    (oldValid : old.ptr ≠ 0)
    (settles : settle copy memory old raw aligned total count = some memory')
    {i : Nat} (inside : i < count)
    (front : i = 0 ∨ old.ptr + i < aligned ∨ aligned ≤ old.ptr) :
    memory' (aligned + i) = landed memory raw aligned (old.ptr + i) := by
  have below := slot.1
  unfold pointerSize at below
  have valid : aligned ≠ 0 := by omega
  unfold settle at settles
  by_cases moves : aligned = old.ptr
  · rw [if_neg (fun apart => apart moves)] at settles
    cases settles
    rw [moves]
  · rw [if_pos moves] at settles
    unfold copyInto at settles
    split_ifs at settles
    cases settles
    rcases front with first | ahead | behind
    · exact copies.head _ _ _ _ _ valid oldValid inside (.inl first)
    · exact copies.head _ _ _ _ _ valid oldValid inside (.inr ahead)
    · rw [copies.blits _ _ _ _ valid oldValid (.inl behind),
        blit_inside _ _ inside]

theorem settle_room
    (settles : settle copy memory old raw aligned total count = some memory')
    (some' : count ≠ 0) (moves : aligned ≠ old.ptr) :
    aligned + count ≤ raw + total := by
  unfold settle at settles
  rw [if_pos moves] at settles
  unfold copyInto at settles
  split_ifs at settles with inside
  rcases inside with none' | within
  · exact absurd none' some'
  · exact within.2

/-! ## Memories -/

/-- The old bytes are found where the C block is left. -/
theorem moved_source
    (placed : Placed block old) (same : raw = block.ptr)
    (within : old.ptr + count ≤ raw + total) (few : count ≤ old.length)
    {i : Nat} (inside : i < count) :
    moved memory block ⟨raw, junk⟩ total (old.ptr + i) =
      memory (old.ptr + i) := by
  have below := placed.below
  have finish := placed.within
  unfold Slice.finish at finish
  unfold pointerSize at below
  unfold moved
  dsimp only
  rw [if_pos (by omega), same]
  congr 1
  omega

/-- A memory in which a block is live, with one byte that is chosen. -/
def marked (block : CBlock) (old : Slice) (i : Nat) (byte : UInt8) : Memory :=
  Function.update
    (storeBytes (fun _ => 0) (old.ptr - pointerSize) block.ptr pointerSize)
    (old.ptr + i) byte

theorem marked_live (placed : Placed block old) (i : Nat) (byte : UInt8) :
    Live (marked block old i byte) block old := by
  have below := placed.below
  have space := placed.space
  have within := placed.within
  have wide : sizeLimit = 256 ^ pointerSize := by decide
  refine ⟨placed, ?_⟩
  have same : SameBytes
      (storeBytes (fun _ => 0) (old.ptr - pointerSize) block.ptr pointerSize)
      (marked block old i byte) (old.ptr - pointerSize) pointerSize := by
    intro offset inside
    unfold pointerSize at below inside ⊢
    exact Function.update_of_ne (by omega) _ _
  unfold backPointer
  rw [loadBytes_congr same, loadBytes_storeBytes_of_lt]
  rw [← wide]
  unfold Slice.finish at space within
  unfold pointerSize at below
  omega

/--
If a byte arrives whatever it is, then it was not overwritten, the C block
was left where it is, and the byte lies in it.
-/
theorem byte_carried
    {i : Nat} (junk : Memory)
    (arrives : ∀ byte,
      landed (moved (marked block old i byte) block ⟨raw, junk⟩ total) raw
        aligned (old.ptr + i) = byte) :
    ¬ (aligned - pointerSize ≤ old.ptr + i ∧
        old.ptr + i < aligned - pointerSize + pointerSize) ∧
      raw = block.ptr ∧ old.ptr + i < raw + total := by
  have outside : ¬ (aligned - pointerSize ≤ old.ptr + i ∧
      old.ptr + i < aligned - pointerSize + pointerSize) := by
    intro inside
    have zero := arrives 0
    have one := arrives 1
    rw [landed_inside inside _ (moved (marked block old i 1) block
      ⟨raw, junk⟩ total), one] at zero
    cases zero
  have found : ∀ byte, moved (marked block old i byte) block ⟨raw, junk⟩
      total (old.ptr + i) = byte := by
    intro byte
    have shown := arrives byte
    rw [landed_outside outside] at shown
    exact shown
  have zero := found 0
  have one := found 1
  unfold moved at zero one
  dsimp only at zero one
  split_ifs at zero one with inside
  · refine ⟨outside, ?_, by omega⟩
    by_contra elsewhere
    have apart : block.ptr + (old.ptr + i - raw) ≠ old.ptr + i := by omega
    unfold marked at zero one
    rw [Function.update_of_ne apart] at zero one
    rw [one] at zero
    cases zero
  · rw [one] at zero
    cases zero

/-! ## A C block that was resized -/

/--
What is found and settled for all memories, is found in a block that stays.
-/
theorem stays_of_settles
    (junk : Memory) (copies : Copies copy) (slot : SlotInside raw aligned total)
    (placed : Placed block old)
    (settles : ∀ memory, Live memory block old →
      ∃ memory', settle copy (moved memory block ⟨raw, junk⟩ total) old raw
          aligned total count = some memory' ∧
        ∀ i < count, memory' (aligned + i) = memory (old.ptr + i)) :
    Stays block old raw aligned total count := by
  have below := placed.below
  unfold pointerSize at below
  have oldValid : old.ptr ≠ 0 := by omega
  have carried : ∀ i < count,
      i = 0 ∨ old.ptr + i < aligned ∨ aligned ≤ old.ptr →
      ¬ (aligned - pointerSize ≤ old.ptr + i ∧
          old.ptr + i < aligned - pointerSize + pointerSize) ∧
        raw = block.ptr ∧ old.ptr + i < raw + total := by
    intro i inside front
    refine byte_carried junk (fun byte => ?_)
    rcases settles _ (marked_live placed i byte) with
      ⟨memory', shown, bytes⟩
    rw [← settle_byte copies slot oldValid shown inside front,
      bytes i inside]
    exact Function.update_self _ _ _
  refine ⟨slot, ?_⟩
  by_cases some' : count = 0
  · exact .inl some'
  have positive : 0 < count := Nat.pos_of_ne_zero some'
  rcases carried 0 positive (.inl rfl) with ⟨_, same, _⟩
  have room : aligned + count ≤ raw + total := by
    by_cases moves : aligned = old.ptr
    · have last := carried (count - 1) (by omega) (.inr (.inr moves.le))
      omega
    · rcases settles _ (marked_live placed 0 0) with ⟨memory', shown, _⟩
      exact settle_room shown some' moves
  have front := slot.1
  unfold pointerSize at front
  refine .inr ⟨same, ?_, room, ?_⟩
  · rcases Nat.le_total aligned old.ptr with behind | ahead
    · have last := carried (count - 1) (by omega) (.inr (.inr behind))
      omega
    · omega
  · by_contra falls
    push Not at falls
    unfold pointerSize at falls
    have spot := carried (aligned - 8 - old.ptr) (by omega)
      (.inr (.inl (by omega)))
    unfold pointerSize at spot
    omega

/-- What the end of `relocate` must do for one memory. -/
def Relocated
    (copy : Memory → Slice → Slice → Memory) (block : CBlock) (old : Slice)
    (layout : Layout) (raw aligned total : Nat) (memory junk : Memory) :
    Prop :=
  ∃ result block' memory',
    relocate copy (moved memory block ⟨raw, junk⟩ total) ⟨raw, total⟩ old
      layout.elemSize aligned = some (result, block', memory') ∧
    ∀ mem, result = .ok mem → Keeps memory old layout mem block' memory'

/-- A C block that stays keeps the bytes. -/
theorem relocated_of_stays
    (copies : Copies copy) (placed : Placed block old)
    (divides : layout.alignment ∣ aligned) (space : raw < sizeLimit)
    (stays : Stays block old raw aligned total (kept old layout))
    (memory junk : Memory) :
    Relocated copy block old layout raw aligned total memory junk := by
  rcases stays with ⟨slot, stays⟩
  have below := placed.below
  unfold pointerSize at below
  have oldValid : old.ptr ≠ 0 := by omega
  have source : ∀ i < kept old layout,
      moved memory block ⟨raw, junk⟩ total (old.ptr + i) =
        memory (old.ptr + i) := by
    intro i inside
    rcases stays with none' | ⟨same, within, _⟩
    · omega
    · exact moved_source placed same within (Nat.min_le_left _ _) inside
  rcases settle_keeps copies slot oldValid memory
    (stays.imp_right fun stays => stays.2.2.1)
    (stays.imp_right fun stays => stays.2.2.2) source with
    ⟨memory', settled, bytes, same⟩
  refine ⟨.ok ⟨aligned, layout.elemSize⟩, ⟨raw, total⟩, memory', ?_, ?_⟩
  · rw [relocate_eq slot, settled]
    rfl
  · intro mem returned
    cases returned
    exact ⟨bytes, divides, free_landed slot space same _⟩

/-- A C block that keeps the bytes of every memory stays. -/
theorem stays_of_relocated
    (copies : Copies copy) (placed : Placed block old) (junk : Memory)
    (relocates : ∀ memory, Live memory block old →
      Relocated copy block old layout raw aligned total memory junk) :
    Stays block old raw aligned total (kept old layout) := by
  have slot : SlotInside raw aligned total := by
    by_contra outside
    rcases relocates _ (marked_live placed 0 0) with
      ⟨result, block', memory', returned, _⟩
    rw [relocate_outside outside] at returned
    cases returned
  refine stays_of_settles junk copies slot placed ?_
  intro memory live
  rcases relocates memory live with
    ⟨result, block', memory', returned, keeps⟩
  rw [relocate_eq slot] at returned
  rcases Option.map_eq_some_iff.mp returned with ⟨arrived, settled, same⟩
  cases same
  exact ⟨_, settled, (keeps _ rfl).bytes⟩

/-! ## A C block of its own -/

/-- The bytes are copied to another C block, and the first one is freed. -/
def transfer
    (memory : Memory) (live : CBlock) (old : Slice)
    (size raw aligned total : Nat) (copies : Bool) : Option Result :=
  let copied :=
    if copies = true then
      copyInto smemcpy memory ⟨raw, total⟩ ⟨aligned, size⟩ old
        (min size old.length)
    else
      some memory
  match copied with
  | none => none
  | some memory =>
      if free memory old = some live.ptr then
        some (.ok ⟨aligned, size⟩, ⟨raw, total⟩, memory)
      else
        none

theorem fallback_empty
    {malloc : Option Given} {copies : Bool} (empty : layout.elemSize = 0) :
    fallback memory block old layout malloc copies =
      some (.error .invalidInput, block, memory) := by
  unfold fallback alloc
  rw [if_pos empty]

theorem fallback_exhausted
    {copies : Bool} (filled : layout.elemSize ≠ 0) :
    fallback memory block old layout none copies =
      some (.error .outOfMemory, block, memory) := by
  unfold fallback alloc
  rw [if_neg filled]

theorem alloc_given
    (filled : layout.elemSize ≠ 0)
    (addr : alignedAddr raw layout = aligned)
    (size : totalSize layout = total) :
    alloc memory block layout (some ⟨raw, junk⟩) =
      place (beside memory block ⟨raw, junk⟩) ⟨raw, total⟩ layout.elemSize
        aligned := by
  subst addr size
  exact if_neg filled

theorem fallback_outside
    {copies : Bool} (filled : layout.elemSize ≠ 0)
    (addr : alignedAddr raw layout = aligned)
    (size : totalSize layout = total)
    (slot : ¬ SlotInside raw aligned total) :
    fallback memory block old layout (some ⟨raw, junk⟩) copies = none := by
  unfold fallback
  rw [alloc_given filled addr size]
  unfold place
  rw [storePointer_outside slot, Option.map_none]

theorem fallback_transfer
    {copies : Bool} (filled : layout.elemSize ≠ 0)
    (addr : alignedAddr raw layout = aligned)
    (size : totalSize layout = total)
    (slot : SlotInside raw aligned total) :
    fallback memory block old layout (some ⟨raw, junk⟩) copies =
      transfer (landed (beside memory block ⟨raw, junk⟩) raw aligned) block
        old layout.elemSize raw aligned total copies := by
  unfold fallback
  rw [alloc_given filled addr size]
  unfold place
  rw [storePointer_inside slot, Option.map_some]
  rfl

/-- The old C block keeps its bytes when another one gets its back pointer. -/
theorem beside_same
    (apart : Apart raw total block.ptr block.length)
    (slot : SlotInside raw aligned total) :
    SameBytes memory (landed (beside memory block ⟨raw, junk⟩) raw aligned)
      block.ptr block.length := by
  intro offset inside
  unfold Apart at apart
  unfold SlotInside at slot
  unfold pointerSize at slot
  rw [landed_outside (by unfold pointerSize; omega)]
  unfold beside
  rw [if_pos (by unfold Slice.finish; omega)]

/-- The copy between two C blocks is one of all bytes at once. -/
theorem copied_eq
    {copies : Bool} {size : Nat} (valid : aligned ≠ 0)
    (oldValid : old.ptr ≠ 0)
    (apart : aligned + min size old.length ≤ old.ptr ∨
      old.ptr + min size old.length ≤ aligned)
    (front : raw ≤ aligned)
    (room : min size old.length = 0 ∨
      aligned + min size old.length ≤ raw + total)
    (copied : copies = true ∨ min size old.length = 0) :
    (if copies = true then
        copyInto smemcpy memory ⟨raw, total⟩ ⟨aligned, size⟩ old
          (min size old.length)
      else
        some memory) =
      some (blit memory aligned old.ptr (min size old.length)) := by
  split_ifs with asked
  · unfold copyInto
    rw [if_pos (room.imp_right fun room => ⟨front, room⟩)]
    unfold smemcpy
    rw [if_neg (by tauto), copyForward_eq_blit memory (by dsimp only; omega)]
  · rw [copied.resolve_left asked, blit_zero]

/-- A block with room for the bytes gets them, and the old one is freed. -/
theorem transfer_keeps
    {copies : Bool} {size : Nat} (live : Live memory block old)
    (slot : SlotInside raw aligned total) (space : raw < sizeLimit)
    (apart : Apart raw total block.ptr block.length)
    (room : min size old.length = 0 ∨
      aligned + min size old.length ≤ raw + total)
    (copied : copies = true ∨ min size old.length = 0) :
    ∃ after,
      transfer (landed (beside memory block ⟨raw, junk⟩) raw aligned) block
          old size raw aligned total copies =
        some (.ok ⟨aligned, size⟩, ⟨raw, total⟩, after) ∧
      (∀ i < min size old.length,
        after (aligned + i) = memory (old.ptr + i)) ∧
      free after ⟨aligned, size⟩ = some raw := by
  rcases live with ⟨placed, pointer⟩
  have below := placed.below
  have within := placed.within
  have front := slot.1
  have top := slot.2
  have found : SameBytes memory
      (landed (beside memory block ⟨raw, junk⟩) raw aligned) block.ptr
      block.length := beside_same apart slot
  unfold Slice.finish at within
  unfold pointerSize at below front
  unfold Apart at apart
  have separate : aligned + min size old.length ≤ old.ptr ∨
      old.ptr + min size old.length ≤ aligned := by omega
  have owner : free (blit
      (landed (beside memory block ⟨raw, junk⟩) raw aligned) aligned old.ptr
      (min size old.length)) old = some block.ptr := by
    have slotFound : SameBytes memory
        (landed (beside memory block ⟨raw, junk⟩) raw aligned)
        (old.ptr - pointerSize) pointerSize :=
      found.inside (by unfold pointerSize; omega)
        (by unfold pointerSize; omega)
    unfold free
    rw [if_neg (by omega), ← pointer]
    unfold backPointer
    rw [loadBytes_congr (slotFound.trans (blit_sameBytes _ _ (by
      unfold Apart pointerSize
      omega)))]
  unfold transfer
  dsimp only
  rw [copied_eq (by omega) (by omega) separate (by omega) room copied]
  refine ⟨_, if_pos owner, ?_, ?_⟩
  · intro i inside
    rw [blit_inside _ _ inside]
    have byte := found (old.ptr - block.ptr + i) (by omega)
    have spot : block.ptr + (old.ptr - block.ptr + i) = old.ptr + i := by
      omega
    rwa [spot] at byte
  · exact free_landed slot space (blit_sameBytes _ _ (by
      unfold Apart pointerSize
      omega)) _

theorem transfer_room
    {copies : Bool} {size : Nat} {result : Result}
    (copied : copies = true ∨ min size old.length = 0)
    (returned : transfer memory block old size raw aligned total copies =
      some result) :
    min size old.length = 0 ∨
      aligned + min size old.length ≤ raw + total := by
  rcases copied with asked | none'
  · unfold transfer at returned
    rw [if_pos asked] at returned
    unfold copyInto at returned
    split_ifs at returned with inside
    exact inside.imp_right fun inside => inside.2
  · exact .inl none'

/-! ## The calls -/

theorem resize_given
    {copies : Bool} {malloc : Option Given}
    (pointer : backPointer memory old.ptr = block.ptr)
    (addr : alignedAddr raw layout = aligned)
    (size : totalSize layout = total) :
    resize copy copies memory block old layout ⟨some ⟨raw, junk⟩, malloc⟩ =
      relocate copy (moved memory block ⟨raw, junk⟩ total) ⟨raw, total⟩ old
        layout.elemSize aligned := by
  unfold resize
  simp only [pointer, ne_eq, not_true_eq_false, if_false, addr, size]

theorem resize_refused
    {copies : Bool} {malloc : Option Given}
    (pointer : backPointer memory old.ptr = block.ptr)
    (some' : totalSize layout ≠ 0) :
    resize copy copies memory block old layout ⟨none, malloc⟩ =
      fallback memory block old layout malloc copies := by
  unfold resize
  simp only [pointer, ne_eq, not_true_eq_false, if_false, some',
    not_false_eq_true, if_true]

/-- A C block of no size that is not there has no room for its pointer. -/
theorem resize_dropped
    {copies : Bool} {malloc : Option Given}
    (pointer : backPointer memory old.ptr = block.ptr)
    (none' : totalSize layout = 0) :
    resize copy copies memory block old layout ⟨none, malloc⟩ = none := by
  unfold resize
  simp only [pointer, ne_eq, not_true_eq_false, if_false, none']
  apply relocate_outside
  rintro ⟨front, top⟩
  unfold pointerSize at front
  omega

/-- What a call must do for one memory. -/
def Served
    (copy : Memory → Slice → Slice → Memory) (copies : Bool)
    (block : CBlock) (old : Slice) (layout : Layout) (answer : Answer)
    (memory : Memory) : Prop :=
  ∃ result block' memory',
    resize copy copies memory block old layout answer =
      some (result, block', memory') ∧
    ∀ mem, result = .ok mem → Keeps memory old layout mem block' memory'

section Served

variable {copies : Bool} {first second : Memory}

theorem served_of_room
    (live : Live memory block old)
    (divides : layout.alignment ∣ aligned) (filled : layout.elemSize ≠ 0)
    (addr : alignedAddr raw layout = aligned)
    (size : totalSize layout = total) (some' : total ≠ 0)
    (space : raw < sizeLimit)
    (apart : Apart raw total block.ptr block.length)
    (copied : copies = true ∨ kept old layout = 0)
    (room : HasRoom raw aligned total (kept old layout)) :
    Served copy copies block old layout ⟨none, some ⟨raw, second⟩⟩ memory := by
  rcases room with ⟨slot, room⟩
  rw [kept, Nat.min_comm] at room copied
  rcases transfer_keeps live slot space apart room copied with
    ⟨after, returned, bytes, stored⟩
  refine ⟨.ok ⟨aligned, layout.elemSize⟩, ⟨raw, total⟩, after, ?_, ?_⟩
  · rw [resize_refused live.2 (size ▸ some'),
      fallback_transfer filled addr size slot]
    exact returned
  · intro mem same
    cases same
    rw [Nat.min_comm] at bytes
    exact ⟨bytes, divides, stored⟩

theorem room_of_served
    (live : Live memory block old) (filled : layout.elemSize ≠ 0)
    (addr : alignedAddr raw layout = aligned)
    (size : totalSize layout = total) (some' : total ≠ 0)
    (copied : copies = true ∨ kept old layout = 0)
    (served : Served copy copies block old layout
      ⟨none, some ⟨raw, second⟩⟩ memory) :
    HasRoom raw aligned total (kept old layout) := by
  rcases served with ⟨result, block', memory', returned, _⟩
  rw [resize_refused live.2 (size ▸ some')] at returned
  have slot : SlotInside raw aligned total := by
    by_contra outside
    rw [fallback_outside filled addr size outside] at returned
    cases returned
  rw [fallback_transfer filled addr size slot] at returned
  rw [kept, Nat.min_comm] at copied ⊢
  exact ⟨slot, transfer_room copied returned⟩

end Served

section Safe

variable {copies : Bool} {outcome : Outcome}
  {call : Memory → CBlock → Slice → Layout → Answer → Option Result}

/-- The first answer of an outcome, without the address of the new block. -/
theorem served_iff_relocated
    {malloc : Option Given} (live : Live memory block old)
    (addr : alignedAddr raw layout = aligned)
    (size : totalSize layout = total) :
    Served copy copies block old layout ⟨some ⟨raw, junk⟩, malloc⟩ memory ↔
      Relocated copy block old layout raw aligned total memory junk := by
  unfold Served Relocated
  rw [resize_given live.2 addr size]

/-- `realloc` gives a C block. -/
theorem served_iff_stays
    {malloc : Option Nat} (copied : Copies copy)
    (placed : Placed block old)
    (divides : layout.alignment ∣ aligned) (space : raw < sizeLimit)
    (addr : alignedAddr raw layout = aligned)
    (size : totalSize layout = total) :
    (∀ memory first second, Live memory block old →
        Served copy copies block old layout
          ((Outcome.mk (some raw) malloc).answer first second) memory) ↔
      Stays block old raw aligned total (kept old layout) := by
  constructor
  · intro served
    refine stays_of_relocated copied placed (fun _ => 0) ?_
    intro memory live
    exact (served_iff_relocated live addr size).mp
      (served memory (fun _ => 0) (fun _ => 0) live)
  · intro stays memory first second live
    exact (served_iff_relocated live addr size).mpr
      (relocated_of_stays copied placed divides space stays memory first)

/-- `realloc` fails, and there is no other C block either. -/
theorem served_exhausted
    (live : Live memory block old) (some' : totalSize layout ≠ 0) :
    Served copy copies block old layout ⟨none, none⟩ memory := by
  unfold Served
  rw [resize_refused live.2 some']
  by_cases empty : layout.elemSize = 0
  · rw [fallback_empty empty]
    exact ⟨_, _, _, rfl, by rintro mem ⟨⟩⟩
  · rw [fallback_exhausted empty]
    exact ⟨_, _, _, rfl, by rintro mem ⟨⟩⟩

theorem served_empty
    {malloc : Option Given} (live : Live memory block old)
    (some' : totalSize layout ≠ 0) (empty : layout.elemSize = 0) :
    Served copy copies block old layout ⟨none, malloc⟩ memory := by
  unfold Served
  rw [resize_refused live.2 some', fallback_empty empty]
  exact ⟨_, _, _, rfl, by rintro mem ⟨⟩⟩

/-- `realloc` fails. -/
theorem served_iff_room
    {malloc : Option Nat} (placed : Placed block old)
    (divides : ∀ raw, layout.alignment ∣ alignedAddr raw layout)
    (standard : Outcome.Standard ⟨none, malloc⟩ block layout)
    (copied : layout.elemSize ≠ 0 →
      copies = true ∨ kept old layout = 0) :
    (∀ memory first second, Live memory block old →
        Served copy copies block old layout
          ((Outcome.mk none malloc).answer first second) memory) ↔
      Allows block old layout ⟨none, malloc⟩ := by
  have marks := marked_live placed 0 0
  constructor
  · intro served
    have some' : totalSize layout ≠ 0 := by
      intro none'
      rcases served _ (fun _ => 0) (fun _ => 0) marks with
        ⟨result, block', memory', returned, _⟩
      unfold Outcome.answer at returned
      dsimp only [Option.map_none] at returned
      rw [resize_dropped marks.2 none'] at returned
      cases returned
    refine ⟨some', ?_⟩
    by_cases empty : layout.elemSize = 0
    · exact .inl empty
    · refine .inr fun raw given => ?_
      cases given
      exact room_of_served marks empty rfl rfl some' (copied empty)
        (served _ (fun _ => 0) (fun _ => 0) marks)
  · rintro ⟨some', room⟩ memory first second live
    by_cases empty : layout.elemSize = 0
    · exact served_empty live some' empty
    · cases malloc with
      | none => exact served_exhausted live some'
      | some raw =>
          rcases standard.another raw rfl with ⟨_, space, apart⟩
          exact served_of_room live (divides raw) empty rfl rfl some'
            (by omega) apart (copied empty)
            (room.resolve_left empty raw rfl)

end Safe

/-! ## Sizes that fit -/

theorem usedAlignment_bounds (layout : Layout) :
    pointerSize ≤ usedAlignment layout ∧
      layout.alignment ≤ usedAlignment layout := by
  unfold usedAlignment
  split_ifs with small <;> omega

theorem totalSize_eq
    (fits : layout.elemSize + (usedAlignment layout - 1) + pointerSize <
      sizeLimit) :
    totalSize layout =
      layout.elemSize + (usedAlignment layout - 1) + pointerSize := by
  have used := (usedAlignment_bounds layout).1
  unfold pointerSize at used fits ⊢
  unfold totalSize pointerSize
  rw [sizeAdd_eq (by omega : layout.elemSize + usedAlignment layout < _),
    sizeSub_eq (by omega) (by omega), sizeAdd_eq (by omega)]
  omega

/-- A C block of the requested size has room for the pointer and the bytes. -/
theorem hasRoom_of_fits
    (fits : layout.elemSize + (usedAlignment layout - 1) + pointerSize <
      sizeLimit)
    (space : raw + totalSize layout < sizeLimit) :
    HasRoom raw (alignedAddr raw layout) (totalSize layout)
      layout.elemSize := by
  have used := (usedAlignment_bounds layout).1
  have total := totalSize_eq fits
  rw [total] at space
  unfold pointerSize at used
  have bounds := @alignUp_bounds (raw + pointerSize)
    (usedAlignment layout) (by omega) (by omega)
  have addr : alignedAddr raw layout =
      alignUp (raw + pointerSize) (usedAlignment layout) := by
    unfold alignedAddr
    rw [sizeAdd_eq (by omega)]
  rw [← addr] at bounds
  rw [total]
  unfold HasRoom SlotInside
  omega

/-! ## All calls -/

/--
For every block and every layout, growing and shrinking keep the bytes, the
alignment and the pointer for exactly the answers that `Allows` names.
-/
theorem resize_safe_iff
    (block : CBlock) (old : Slice) (layout : Layout) (outcome : Outcome)
    (placed : Placed block old)
    (power : ∃ exponent, layout.alignment = 2 ^ exponent)
    (fits : layout.alignment < sizeLimit)
    (standard : outcome.Standard block layout) :
    (Safe grow block old layout outcome ↔
        Allows block old layout outcome) ∧
      (Safe shrink block old layout outcome ↔
        Allows block old layout outcome) := by
  have below := placed.below
  unfold pointerSize at below
  have oldValid : old.ptr ≠ 0 := by omega
  have divides := alignment_dvd power fits
  have served : ∀ copy (copies : Bool), Copies copy →
      (layout.elemSize ≠ 0 → copies = true ∨ kept old layout = 0) →
      ((∀ memory first second, Live memory block old →
          Served copy copies block old layout
            (outcome.answer first second) memory) ↔
        Allows block old layout outcome) := by
    intro copy copies copied filled
    rcases outcome with ⟨_ | raw, malloc⟩
    · exact served_iff_room placed divides standard filled
    · have space := (standard.resized raw rfl).2
      exact served_iff_stays copied placed (divides raw) (by omega) rfl rfl
  constructor
  · rw [← served smemmove true smemmove_copies fun _ => .inl rfl]
    unfold Safe Served grow
    simp only [oldValid, if_false]
  · have filled : layout.elemSize ≠ 0 →
        decide (layout.elemSize > 0 ∧ old.length > 0) = true ∨
          kept old layout = 0 := by
      intro filled
      by_cases empty : old.length = 0
      · right
        rw [kept, empty, Nat.zero_min]
      · left
        exact decide_eq_true ⟨by omega, by omega⟩
    rw [← served smemcpy _ smemcpy_copies filled]
    unfold Safe Served shrink
    simp only [oldValid, if_false]

/-- A block of 16 bytes that grows to 32 in the C block where it is. -/
theorem resize_safe_iff_block :
    Safe grow ⟨4096, 48⟩ ⟨4104, 16⟩ ⟨32, 8⟩ ⟨some 4096, none⟩ :=
  (resize_safe_iff ⟨4096, 48⟩ ⟨4104, 16⟩ ⟨32, 8⟩ ⟨some 4096, none⟩
    ⟨by decide, by decide, by decide, by decide⟩ ⟨3, by decide⟩ (by decide)
    ⟨fun ptr given => by cases given; decide,
      fun ptr given => by cases given⟩).1.mpr
    (by decide : Stays ⟨4096, 48⟩ ⟨4104, 16⟩ 4096 4104 47 16)

/--
The C block moves, and the byte 7 of the block is lost: the new block has
what is found at the old address now.
-/
theorem grow_moved_loses :
    let memory := marked ⟨4096, 48⟩ ⟨4104, 16⟩ 0 7
    let answer : Answer := ⟨some ⟨8192, fun _ => 0⟩, none⟩
    Live memory ⟨4096, 48⟩ ⟨4104, 16⟩ ∧ memory 4104 = 7 ∧
      (grow memory ⟨4096, 48⟩ ⟨4104, 16⟩ ⟨32, 8⟩ answer).map
          (fun result => (result.1, result.2.1, result.2.2 8200)) =
        some (.ok ⟨8200, 32⟩, ⟨8192, 47⟩, 0) := by
  refine ⟨marked_live ?_ 0 7, by decide, by decide⟩
  exact ⟨by decide, by decide, by decide, by decide⟩

end Libcute.Memory.CAllocator
