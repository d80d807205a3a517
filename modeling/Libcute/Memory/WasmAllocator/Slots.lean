import Libcute.Library.DividedMemory
import Libcute.Memory.WasmAllocator

/-!
# Slots of the WebAssembly allocator

The memory that was granted is divided among the live blocks, the free slots
and the tails of the current pages; a slot that was taken and is not handed
out yet is loose.  Small and big classes are told apart by their exponents
only: the slots on the list of an exponent have that power of two as size.

`Keeps` is the invariant.  Every function of the allocator is a sequence of
the moves of this module.
-/

namespace Libcute.Memory.WasmAllocator

open Libcute.Core.Interface
open Libcute.Core.Size
open Libcute.Library.ByteMemory
open Libcute.Library.DividedMemory

/-! ## The division of the memory -/

namespace Wasm

/-- The head of the free list of an exponent. -/
def freeHead (wasm : Wasm) (exponent : Nat) : Nat :=
  if exponent < 16 then
    wasm.frees (exponent - minClass)
  else
    wasm.bigFrees (exponent - 16)

/-- Another head for the free list of an exponent. -/
def setFree (wasm : Wasm) (exponent value : Nat) : Wasm :=
  if exponent < 16 then
    { wasm with
      frees := Function.update wasm.frees (exponent - minClass) value }
  else
    { wasm with
      bigFrees := Function.update wasm.bigFrees (exponent - 16) value }

end Wasm

/-- Who has a region of the memory. -/
inductive Owner where
  | block (mem : Slice)
  | slot (exponent addr : Nat)
  | tail (cls : Nat)
  | loose
deriving DecidableEq

/-- A slice as a region. -/
def regionOf (slice : Slice) : Region := ⟨slice.ptr, slice.length⟩

/-- The slot of a block, as its header says. -/
def slotOf (memory : Memory) (mem : Slice) : Region :=
  ⟨mem.ptr - (headerOffset memory mem.ptr + headerSize),
    headerSlotSize memory mem.ptr⟩

/-- What is left of the current page of a class. -/
def tailOf (nextAddr : Nat) : Region :=
  ⟨nextAddr, (pageSize - nextAddr % pageSize) % pageSize⟩

/--
The owners: the live blocks, the free slots, the current pages from which
slots are left, and a loose region.
-/
def division (wasm : Wasm) (live : List Slice) (slots : Nat → List Nat)
    (loose : Option Region) : Division Owner where
  present
    | .block mem => mem ∈ live
    | .slot exponent addr => addr ∈ slots exponent
    | .tail cls => cls < sizeClassCount ∧ wasm.nextAddrs cls % pageSize ≠ 0
    | .loose => loose ≠ none
  region
    | .block mem => slotOf wasm.memory mem
    | .slot exponent addr => ⟨addr, 2 ^ exponent⟩
    | .tail cls => tailOf (wasm.nextAddrs cls)
    | .loose => loose.getD ⟨0, 0⟩

/-- The links lead from the head of a free list through its slots to 0. -/
def Threaded (memory : Memory) (slotSize : Nat) : Nat → List Nat → Prop
  | head, [] => head = 0
  | head, slot :: rest =>
      head = slot ∧ slot ≠ 0 ∧
        Threaded memory slotSize (link memory slot slotSize) rest

/-- A region is a slot: a power of two in size, and aligned to it. -/
structure SlotShape (region : Region) (exponent : Nat) : Prop where
  least : 4 < exponent
  most : exponent ≤ 63
  size : region.size = 2 ^ exponent
  aligned : 2 ^ min exponent 16 ∣ region.start

/-- A block and its header lie in its slot, in front of the last word. -/
structure Placed (memory : Memory) (mem : Slice) : Prop where
  shape : ∃ exponent, SlotShape (slotOf memory mem) exponent
  below : headerOffset memory mem.ptr + headerSize ≤ mem.ptr
  offset : headerOffset memory mem.ptr + headerSize ≤ pageSize
  inside : mem.ptr + mem.length + wordSize ≤
    (slotOf memory mem).start + (slotOf memory mem).size

/-- The invariant, with the slots of the free lists and a loose region. -/
structure Keeps (wasm : Wasm) (live : List Slice) (slots : Nat → List Nat)
    (loose : Option Region) : Prop where
  divides : Divides (wasm.grants.map regionOf)
    (division wasm live slots loose)
  threaded : ∀ exponent, 4 ≤ exponent →
    Threaded wasm.memory (2 ^ exponent) (wasm.freeHead exponent)
      (slots exponent)
  shapes : ∀ exponent, ∀ addr ∈ slots exponent,
    SlotShape ⟨addr, 2 ^ exponent⟩ exponent
  nodup : ∀ exponent, (slots exponent).Nodup
  placed : ∀ mem ∈ live, Placed wasm.memory mem
  distinct : live.Nodup
  tails : ∀ cls < sizeClassCount,
    2 ^ (cls + minClass) ∣ wasm.nextAddrs cls
  granted : ∀ grant ∈ wasm.grants,
    pageSize ≤ grant.ptr ∧ grant.ptr + grant.length ≤ sizeLimit

variable {wasm : Wasm} {live : List Slice} {slots : Nat → List Nat}
  {loose : Option Region} {memory memory' : Memory} {mem : Slice}
  {exponent addr cls : Nat} {region : Region}

/-! ## What the invariant says -/

/-- A region of an owner lies among the addresses, and above the first page. -/
theorem Keeps.bounds (keeps : Keeps wasm live slots loose) {owner : Owner}
    (present : (division wasm live slots loose).present owner) :
    pageSize ≤ ((division wasm live slots loose).region owner).start ∧
      ((division wasm live slots loose).region owner).start +
        ((division wasm live slots loose).region owner).size ≤
          sizeLimit := by
  rcases keeps.divides.inside owner present with ⟨area, member, within⟩
  rcases List.mem_map.mp member with ⟨grant, among, rfl⟩
  have granted := keeps.granted grant among
  unfold Region.Within regionOf at within
  dsimp only at within
  omega

theorem Keeps.slot_bounds (keeps : Keeps wasm live slots loose)
    (member : addr ∈ slots exponent) :
    pageSize ≤ addr ∧ addr + 2 ^ exponent ≤ sizeLimit :=
  @Keeps.bounds _ _ _ _ keeps (.slot exponent addr) member

theorem Keeps.loose_bounds
    (keeps : Keeps wasm live slots (some region)) :
    pageSize ≤ region.start ∧ region.start + region.size ≤ sizeLimit :=
  @Keeps.bounds _ _ _ _ keeps .loose (Option.some_ne_none _)

/-- A slot has room for its link. -/
theorem SlotShape.word_le (shape : SlotShape region exponent) :
    headerSize + wordSize ≤ region.size := by
  have size : 2 ^ 5 ≤ 2 ^ exponent :=
    Nat.pow_le_pow_right (by decide) shape.least
  rw [shape.size]
  unfold headerSize wordSize
  omega

/-- The start of a slot and its length in front of the block. -/
theorem Placed.start_eq (placed : Placed memory mem) :
    (slotOf memory mem).start + headerOffset memory mem.ptr + headerSize =
      mem.ptr := by
  have below := placed.below
  unfold slotOf
  dsimp only
  omega

/-- The link word of a slot, as a part of the slot. -/
theorem link_within (shape : SlotShape ⟨addr, 2 ^ exponent⟩ exponent) :
    (⟨addr + 2 ^ exponent - wordSize, wordSize⟩ : Region).Within
      ⟨addr, 2 ^ exponent⟩ := by
  have room := shape.word_le
  unfold Region.Within
  dsimp only at room ⊢
  omega

/-- The header and the bytes of a block, as a part of its slot. -/
theorem Placed.within (placed : Placed memory mem) :
    (⟨mem.ptr - headerSize, headerSize + mem.length⟩ : Region).Within
      (slotOf memory mem) := by
  have start := placed.start_eq
  have inside := placed.inside
  unfold Region.Within
  dsimp only
  omega

/-- The bytes of a block, as a part of its slot. -/
theorem Placed.region_within (placed : Placed memory mem) :
    (regionOf mem).Within (slotOf memory mem) := by
  have start := placed.start_eq
  refine Region.Within.trans ?_ placed.within
  unfold Region.Within regionOf
  dsimp only
  omega

/-! ## Changes of the memory -/

theorem Threaded.congr {slotSize head : Nat} {list : List Nat}
    (threaded : Threaded memory slotSize head list)
    (links : ∀ slot ∈ list,
      link memory' slot slotSize = link memory slot slotSize) :
    Threaded memory' slotSize head list := by
  induction list generalizing head with
  | nil => exact threaded
  | cons slot rest hypothesis =>
      rcases threaded with ⟨first, valid, following⟩
      refine ⟨first, valid, ?_⟩
      rw [links slot List.mem_cons_self]
      exact hypothesis following fun other member =>
        links other (List.mem_cons_of_mem _ member)

/-- The header of a block whose bytes are kept. -/
theorem slotOf_congr
    (same : SameBytes memory memory' (mem.ptr - headerSize) headerSize) :
    slotOf memory' mem = slotOf memory mem ∧
      headerOffset memory' mem.ptr = headerOffset memory mem.ptr := by
  have offset : headerOffset memory' mem.ptr =
      headerOffset memory mem.ptr :=
    loadBytes_congr (same.inside (Nat.le_refl _)
      (by unfold headerSize wordSize; omega))
  have size : headerSlotSize memory' mem.ptr =
      headerSlotSize memory mem.ptr :=
    loadBytes_congr (same.inside (by omega)
      (by unfold headerSize wordSize; omega))
  unfold slotOf
  rw [offset, size]
  exact ⟨rfl, rfl⟩

/-- The memory with other bytes. -/
def Wasm.withMemory (wasm : Wasm) (memory : Memory) : Wasm :=
  { wasm with memory := memory }

/-- Bytes that are no link and no header do not matter. -/
theorem Keeps.withMemory (keeps : Keeps wasm live slots loose)
    (links : ∀ exponent, ∀ addr ∈ slots exponent,
      SameBytes wasm.memory memory (addr + 2 ^ exponent - wordSize) wordSize)
    (headers : ∀ mem ∈ live,
      SameBytes wasm.memory memory (mem.ptr - headerSize) headerSize) :
    Keeps (wasm.withMemory memory) live slots loose where
  divides := by
    apply keeps.divides.fewer
    intro owner present
    refine ⟨?_, ?_⟩
    · cases owner <;> exact present
    · cases owner with
      | block mem => exact (slotOf_congr (headers mem present)).1
      | slot exponent addr => rfl
      | tail cls => rfl
      | loose => rfl
  threaded := by
    intro exponent least
    apply (keeps.threaded exponent least).congr
    intro addr member
    exact loadBytes_congr (links exponent addr member)
  shapes := keeps.shapes
  nodup := keeps.nodup
  placed := by
    intro mem member
    have placed := keeps.placed mem member
    rcases slotOf_congr (headers mem member) with ⟨slot, offset⟩
    change Placed memory mem
    refine ⟨?_, ?_, ?_, ?_⟩
    · rw [slot]
      exact placed.shape
    · rw [offset]
      exact placed.below
    · rw [offset]
      exact placed.offset
    · rw [slot]
      exact placed.inside
  distinct := keeps.distinct
  tails := keeps.tails
  granted := keeps.granted

/-- Writes into a loose region keep everything. -/
theorem Keeps.writeLoose (keeps : Keeps wasm live slots (some region))
    (confined : Confined wasm.memory memory region) :
    Keeps (wasm.withMemory memory) live slots (some region) := by
  have apart (owner : Owner)
      (present : (division wasm live slots (some region)).present owner)
      (different : .loose ≠ owner) :
      region.Apart ((division wasm live slots (some region)).region owner) :=
    keeps.divides.apart .loose owner (Option.some_ne_none _) present
      different
  apply keeps.withMemory
  · intro exponent addr member
    apply confined.sameBytes
    exact (apart (.slot exponent addr) member (by simp)).within (.refl _)
      (link_within (keeps.shapes exponent addr member))
  · intro mem member
    apply confined.sameBytes
    refine (apart (.block mem) member (by simp)).within (.refl _) ?_
    refine Region.Within.trans ?_ (keeps.placed mem member).within
    exact ⟨Nat.le_refl _, by dsimp only; omega⟩

/-- A block keeps its header and its bytes when a loose region is written. -/
theorem Keeps.block_sameBytes (keeps : Keeps wasm live slots (some region))
    (confined : Confined wasm.memory memory region) (member : mem ∈ live) :
    SameBytes wasm.memory memory (mem.ptr - headerSize)
      (headerSize + mem.length) := by
  apply confined.sameBytes
  have apart := keeps.divides.apart .loose (.block mem)
    (Option.some_ne_none _) member (by simp)
  exact apart.within (.refl _) (keeps.placed mem member).within

/-- Writes of the client into a block keep everything. -/
theorem Keeps.writeBlock (keeps : Keeps wasm live slots loose)
    (member : mem ∈ live)
    (confined : Confined wasm.memory memory (regionOf mem)) :
    Keeps (wasm.withMemory memory) live slots loose := by
  have placed := keeps.placed mem member
  have start := placed.start_eq
  have within := placed.region_within
  apply keeps.withMemory
  · intro exponent addr among
    apply confined.sameBytes
    have apart := keeps.divides.apart (.block mem) (.slot exponent addr)
      member among (by simp)
    exact apart.within within
      (link_within (keeps.shapes exponent addr among))
  · intro other among
    apply confined.sameBytes
    by_cases same : mem = other
    · subst same
      right
      unfold regionOf
      dsimp only
      omega
    · have apart := keeps.divides.apart (.block mem) (.block other) member
        among (by simp [same])
      refine apart.within within ?_
      refine Region.Within.trans ?_ (keeps.placed other among).within
      exact ⟨Nat.le_refl _, by dsimp only; omega⟩

/-! ## Free lists -/

section FreeLists

@[simp]
theorem setFree_memory (wasm : Wasm) (exponent value : Nat) :
    (wasm.setFree exponent value).memory = wasm.memory := by
  unfold Wasm.setFree
  split <;> rfl

@[simp]
theorem setFree_nextAddrs (wasm : Wasm) (exponent value : Nat) :
    (wasm.setFree exponent value).nextAddrs = wasm.nextAddrs := by
  unfold Wasm.setFree
  split <;> rfl

@[simp]
theorem setFree_grants (wasm : Wasm) (exponent value : Nat) :
    (wasm.setFree exponent value).grants = wasm.grants := by
  unfold Wasm.setFree
  split <;> rfl

theorem freeHead_setFree (wasm : Wasm) (exponent value : Nat) :
    (wasm.setFree exponent value).freeHead exponent = value := by
  unfold Wasm.setFree Wasm.freeHead
  by_cases small : exponent < 16
  · rw [if_pos small, if_pos small]
    exact Function.update_self _ _ _
  · rw [if_neg small, if_neg small]
    exact Function.update_self _ _ _

theorem freeHead_setFree_of_ne {other : Nat} (wasm : Wasm) (value : Nat)
    (least : 4 ≤ exponent) (otherLeast : 4 ≤ other)
    (different : other ≠ exponent) :
    (wasm.setFree exponent value).freeHead other = wasm.freeHead other := by
  unfold Wasm.setFree Wasm.freeHead minClass
  by_cases small : exponent < 16
  · rw [if_pos small]
    by_cases otherSmall : other < 16
    · rw [if_pos otherSmall, if_pos otherSmall]
      exact Function.update_of_ne (by omega) _ _
    · rw [if_neg otherSmall, if_neg otherSmall]
  · rw [if_neg small]
    by_cases otherSmall : other < 16
    · rw [if_pos otherSmall, if_pos otherSmall]
    · rw [if_neg otherSmall, if_neg otherSmall]
      exact Function.update_of_ne (by omega) _ _

/-- The first slot of a free list is taken and is loose then. -/
theorem Keeps.pop (keeps : Keeps wasm live slots none)
    (least : 4 ≤ exponent) (filled : wasm.freeHead exponent ≠ 0) :
    ∃ rest, slots exponent = wasm.freeHead exponent :: rest ∧
      SlotShape ⟨wasm.freeHead exponent, 2 ^ exponent⟩ exponent ∧
      Keeps
        (wasm.setFree exponent
          (link wasm.memory (wasm.freeHead exponent) (2 ^ exponent)))
        live (Function.update slots exponent rest)
        (some ⟨wasm.freeHead exponent, 2 ^ exponent⟩) := by
  have threaded := keeps.threaded exponent least
  cases listed : slots exponent with
  | nil =>
      rw [listed] at threaded
      exact absurd threaded filled
  | cons slot rest =>
      rw [listed] at threaded
      rcases threaded with ⟨first, _, following⟩
      rw [first]
      have member : slot ∈ slots exponent := by
        rw [listed]
        exact List.mem_cons_self
      have nodup := keeps.nodup exponent
      rw [listed, List.nodup_cons] at nodup
      have old {other addr : Nat}
          (among : addr ∈ Function.update slots exponent rest other) :
          addr ∈ slots other ∧ (other = exponent → addr ≠ slot) := by
        by_cases same : other = exponent
        · subst same
          rw [Function.update_self] at among
          rw [listed]
          refine ⟨List.mem_cons_of_mem _ among, ?_⟩
          rintro _ rfl
          exact nodup.1 among
        · rw [Function.update_of_ne same] at among
          exact ⟨among, fun again => absurd again same⟩
      refine ⟨rest, rfl, keeps.shapes exponent slot member, ?_⟩
      constructor
      · rw [setFree_grants]
        apply @Divides.split _ _ _ _ (Owner.slot exponent slot) (· = .loose)
          keeps.divides member
        · intro owner present unchanged
          cases owner with
          | block mem =>
              refine ⟨present, by simp, ?_⟩
              dsimp only [division]
              rw [setFree_memory]
          | slot other addr =>
              refine ⟨(old present).1, ?_, rfl⟩
              rintro ⟨⟩
              exact (old present).2 rfl rfl
          | tail cls =>
              dsimp only [division] at present ⊢
              rw [setFree_nextAddrs] at present ⊢
              exact ⟨present, by simp, rfl⟩
          | loose => exact absurd rfl unchanged
        · rintro owner _ rfl
          exact .refl _
        · rintro left right _ _ rfl rfl different
          exact absurd rfl different
      · intro other otherLeast
        rw [setFree_memory]
        by_cases same : other = exponent
        · subst same
          rw [freeHead_setFree, Function.update_self]
          exact following
        · rw [freeHead_setFree_of_ne _ _ least otherLeast same,
            Function.update_of_ne same]
          exact keeps.threaded other otherLeast
      · exact fun other addr among => keeps.shapes other addr (old among).1
      · intro other
        by_cases same : other = exponent
        · subst same
          rw [Function.update_self]
          exact nodup.2
        · rw [Function.update_of_ne same]
          exact keeps.nodup other
      · rw [setFree_memory]
        exact keeps.placed
      · exact keeps.distinct
      · rw [setFree_nextAddrs]
        exact keeps.tails
      · rw [setFree_grants]
        exact keeps.granted

/-- A loose slot gets its link and becomes the first of its free list. -/
theorem Keeps.push
    (keeps : Keeps wasm live slots (some ⟨addr, 2 ^ exponent⟩))
    (shape : SlotShape ⟨addr, 2 ^ exponent⟩ exponent) :
    Keeps
      ((wasm.withMemory (setLink wasm.memory addr (2 ^ exponent)
        (wasm.freeHead exponent))).setFree exponent addr)
      live (Function.update slots exponent (addr :: slots exponent))
      none := by
  have least : 4 ≤ exponent := Nat.le_of_lt shape.least
  have room := shape.word_le
  have fresh : addr ∉ slots exponent := by
    intro member
    have apart := keeps.divides.apart .loose (.slot exponent addr)
      (Option.some_ne_none _) member (by simp)
    change Apart addr (2 ^ exponent) addr (2 ^ exponent) at apart
    unfold Apart at apart
    have positive := Nat.two_pow_pos exponent
    omega
  have linked : link (setLink wasm.memory addr (2 ^ exponent)
      (wasm.freeHead exponent)) addr (2 ^ exponent) =
        wasm.freeHead exponent := by
    apply loadBytes_storeBytes_of_lt
    have below : wasm.freeHead exponent < sizeLimit := by
      have threaded := keeps.threaded exponent least
      cases listed : slots exponent with
      | nil =>
          rw [listed] at threaded
          rw [show wasm.freeHead exponent = 0 from threaded]
          decide
      | cons slot rest =>
          rw [listed] at threaded
          have member : slot ∈ slots exponent := by
            rw [listed]
            exact List.mem_cons_self
          have bounds := keeps.slot_bounds member
          have positive := Nat.two_pow_pos exponent
          rw [threaded.1]
          omega
    exact below
  have valid : addr ≠ 0 := by
    have bounds := keeps.loose_bounds
    unfold pageSize at bounds
    dsimp only at bounds
    omega
  have written := keeps.writeLoose ((Confined.storeBytes wasm.memory
    (addr + 2 ^ exponent - wordSize) (wasm.freeHead exponent)
      wordSize).widen (link_within shape))
  have old {other slot : Nat} (different : ¬ (other = exponent ∧ slot = addr))
      (among : slot ∈ Function.update slots exponent (addr :: slots exponent)
        other) : slot ∈ slots other := by
    by_cases same : other = exponent
    · subst same
      rw [Function.update_self, List.mem_cons] at among
      exact among.resolve_left fun again => different ⟨rfl, again⟩
    · rw [Function.update_of_ne same] at among
      exact among
  constructor
  · rw [setFree_grants]
    apply @Divides.split _ _ _ _ Owner.loose (· = .slot exponent addr)
      written.divides (Option.some_ne_none _)
    · intro owner present unchanged
      cases owner with
      | block mem =>
          refine ⟨present, by simp, ?_⟩
          dsimp only [division]
          rw [setFree_memory]
          rfl
      | slot other slot =>
          refine ⟨old ?_ present, by simp, rfl⟩
          rintro ⟨rfl, rfl⟩
          exact unchanged rfl
      | tail cls =>
          dsimp only [division] at present ⊢
          rw [setFree_nextAddrs] at present ⊢
          exact ⟨present, by simp, rfl⟩
      | loose => exact absurd rfl present
    · rintro owner _ rfl
      exact .refl _
    · rintro left right _ _ rfl rfl different
      exact absurd rfl different
  · intro other otherLeast
    rw [setFree_memory]
    by_cases same : other = exponent
    · subst same
      rw [freeHead_setFree, Function.update_self]
      refine ⟨rfl, valid, ?_⟩
      have threaded := written.threaded other least
      change Threaded _ _ (link (setLink wasm.memory addr (2 ^ other)
        (wasm.freeHead other)) addr (2 ^ other)) _
      rw [linked]
      exact threaded
    · rw [freeHead_setFree_of_ne _ _ least otherLeast same,
        Function.update_of_ne same]
      exact written.threaded other otherLeast
  · intro other slot among
    by_cases new : other = exponent ∧ slot = addr
    · rcases new with ⟨rfl, rfl⟩
      exact shape
    · exact keeps.shapes other slot (old new among)
  · intro other
    by_cases same : other = exponent
    · subst same
      rw [Function.update_self]
      exact List.nodup_cons.mpr ⟨fresh, keeps.nodup other⟩
    · rw [Function.update_of_ne same]
      exact keeps.nodup other
  · rw [setFree_memory]
    exact written.placed
  · exact keeps.distinct
  · rw [setFree_nextAddrs]
    exact keeps.tails
  · rw [setFree_grants]
    exact keeps.granted

end FreeLists

/-! ## Pages -/

section Pages

/-- Bookkeeping that the invariant does not speak about. -/
theorem Keeps.congr {other : Wasm} (keeps : Keeps wasm live slots loose)
    (nextAddrs : other.nextAddrs = wasm.nextAddrs)
    (frees : other.frees = wasm.frees)
    (bigFrees : other.bigFrees = wasm.bigFrees)
    (memory : other.memory = wasm.memory)
    (grants : other.grants = wasm.grants) :
    Keeps other live slots loose := by
  rcases wasm with ⟨_, _, _, _, _, answers, grows⟩
  rcases other with ⟨_, _, _, _, _, answers', grows'⟩
  cases nextAddrs
  cases frees
  cases bigFrees
  cases memory
  cases grants
  exact ⟨keeps.divides, keeps.threaded, keeps.shapes, keeps.nodup,
    keeps.placed, keeps.distinct, keeps.tails, keeps.granted⟩

/-- Fresh pages are loose. -/
theorem Keeps.grant {pages index : Nat}
    (keeps : Keeps wasm live slots none)
    (accepts : Accepts wasm.grants pages index) :
    Keeps
      { wasm with
        grants := ⟨index * pageSize, pages * pageSize⟩ :: wasm.grants }
      live slots (some ⟨index * pageSize, pages * pageSize⟩) := by
  rcases accepts with ⟨nonzero, _, bounded, fresh⟩
  constructor
  · rw [List.map_cons]
    apply @Divides.grant _ _ _ _ Owner.loose _ keeps.divides
    · intro other member
      rcases List.mem_map.mp member with ⟨grant, among, rfl⟩
      exact fresh grant among
    · rfl
    · intro owner present different
      cases owner with
      | block mem => exact ⟨present, rfl⟩
      | slot exponent addr => exact ⟨present, rfl⟩
      | tail cls => exact ⟨present, rfl⟩
      | loose => exact absurd rfl different
  · exact keeps.threaded
  · exact keeps.shapes
  · exact keeps.nodup
  · exact keeps.placed
  · exact keeps.distinct
  · exact keeps.tails
  · intro grant member
    rcases List.mem_cons.mp member with rfl | member
    · dsimp only
      rw [← Nat.add_mul]
      have positive : 1 ≤ index := Nat.one_le_iff_ne_zero.mpr nonzero
      exact ⟨Nat.le_mul_of_pos_left _ positive, bounded⟩
    · exact keeps.granted grant member

/-- Less of a loose region is loose. -/
theorem Keeps.narrow {inner : Region}
    (keeps : Keeps wasm live slots (some region))
    (within : inner.Within region) :
    Keeps wasm live slots (some inner) where
  divides := by
    apply @Divides.split _ _ _ _ Owner.loose (· = .loose)
      keeps.divides (Option.some_ne_none _)
    · intro owner present unchanged
      cases owner with
      | block mem => exact ⟨present, by simp, rfl⟩
      | slot exponent addr => exact ⟨present, by simp, rfl⟩
      | tail cls => exact ⟨present, by simp, rfl⟩
      | loose => exact absurd rfl unchanged
    · rintro owner _ rfl
      exact within
    · rintro left right _ _ rfl rfl different
      exact absurd rfl different
  threaded := keeps.threaded
  shapes := keeps.shapes
  nodup := keeps.nodup
  placed := keeps.placed
  distinct := keeps.distinct
  tails := keeps.tails
  granted := keeps.granted

/-- Another next address of a class. -/
def Wasm.setNext (wasm : Wasm) (cls value : Nat) : Wasm :=
  { wasm with nextAddrs := Function.update wasm.nextAddrs cls value }

theorem setNext_self (wasm : Wasm) (cls value : Nat) :
    (wasm.setNext cls value).nextAddrs cls = value :=
  Function.update_self _ _ _

theorem setNext_of_ne {other : Nat} (wasm : Wasm) (value : Nat)
    (different : other ≠ cls) :
    (wasm.setNext cls value).nextAddrs other = wasm.nextAddrs other :=
  Function.update_of_ne different _ _

/-- The slot size of a small class divides the size of a page. -/
theorem classSize_dvd (small : cls < sizeClassCount) :
    2 ^ (cls + minClass) ∣ pageSize := by
  have exponent : cls + minClass ≤ 16 := by
    unfold sizeClassCount minClass at *
    omega
  exact Nat.pow_dvd_pow 2 exponent

/-- The tail of a page behind an address that is not at its start. -/
theorem tailOf_of_pos {next : Nat} (inside : next % pageSize ≠ 0) :
    (tailOf next).size = pageSize - next % pageSize := by
  have below : next % pageSize < pageSize := Nat.mod_lt _ (by decide)
  unfold tailOf
  dsimp only
  exact Nat.mod_eq_of_lt (by omega)

/--
The next address of a class moves behind a slot: the slot is loose, and what
is behind it is the tail.  Before that the owner of both was the loose region
or the tail of the class.
-/
theorem Keeps.issue {parent : Owner} {next : Nat}
    (keeps : Keeps wasm live slots loose) (small : cls < sizeClassCount)
    (owns : (division wasm live slots loose).present parent)
    (others : ∀ owner, (division wasm live slots loose).present owner →
      owner ≠ .loose → owner ≠ .tail cls → owner ≠ parent)
    (aligned : 2 ^ (cls + minClass) ∣ next)
    (slot : (⟨next, 2 ^ (cls + minClass)⟩ : Region).Within
      ((division wasm live slots loose).region parent))
    (tail : (next + 2 ^ (cls + minClass)) % pageSize ≠ 0 →
      (tailOf (next + 2 ^ (cls + minClass))).Within
        ((division wasm live slots loose).region parent)) :
    Keeps (wasm.setNext cls (next + 2 ^ (cls + minClass))) live slots
      (some ⟨next, 2 ^ (cls + minClass)⟩) where
  divides := by
    have behind : (⟨next, 2 ^ (cls + minClass)⟩ : Region).Apart
        (tailOf (next + 2 ^ (cls + minClass))) :=
      Or.inl (Nat.le_refl _)
    apply @Divides.split _ _ _ _ parent
      (fun owner => owner = .loose ∨ owner = .tail cls) keeps.divides owns
    · intro owner present unchanged
      rw [not_or] at unchanged
      have old : (division wasm live slots loose).present owner ∧
          (division (wasm.setNext cls (next + 2 ^ (cls + minClass))) live
            slots (some ⟨next, 2 ^ (cls + minClass)⟩)).region owner =
              (division wasm live slots loose).region owner := by
        cases owner with
        | block mem => exact ⟨present, rfl⟩
        | slot exponent addr => exact ⟨present, rfl⟩
        | tail other =>
            have different : other ≠ cls := by
              rintro rfl
              exact unchanged.2 rfl
            dsimp only [division] at present ⊢
            rw [setNext_of_ne _ _ different] at present ⊢
            exact ⟨present, rfl⟩
        | loose => exact absurd rfl unchanged.1
      exact ⟨old.1, others owner old.1 unchanged.1 unchanged.2, old.2⟩
    · rintro owner present (rfl | rfl)
      · exact slot
      · dsimp only [division] at present ⊢
        rw [setNext_self] at present ⊢
        exact tail present.2
    · rintro left right _ _ (rfl | rfl) (rfl | rfl) different
      · exact absurd rfl different
      · dsimp only [division]
        rw [setNext_self]
        exact behind
      · dsimp only [division]
        rw [setNext_self]
        exact behind.symm
      · exact absurd rfl different
  threaded := keeps.threaded
  shapes := keeps.shapes
  nodup := keeps.nodup
  placed := keeps.placed
  distinct := keeps.distinct
  tails := by
    intro other otherSmall
    by_cases same : other = cls
    · subst same
      rw [setNext_self]
      exact Nat.dvd_add aligned (Nat.dvd_refl _)
    · rw [setNext_of_ne _ _ same]
      exact keeps.tails other otherSmall
  granted := keeps.granted

/-- A slot is issued from the tail of the current page. -/
theorem Keeps.bump (keeps : Keeps wasm live slots none)
    (small : cls < sizeClassCount)
    (inside : wasm.nextAddrs cls % pageSize ≠ 0) :
    Keeps
      (wasm.setNext cls (wasm.nextAddrs cls + 2 ^ (cls + minClass)))
      live slots
      (some ⟨wasm.nextAddrs cls, 2 ^ (cls + minClass)⟩) := by
  have aligned := keeps.tails cls small
  have whole := classSize_dvd small
  have positive := Nat.two_pow_pos (cls + minClass)
  generalize nextEq : wasm.nextAddrs cls = next at *
  generalize sizeEq : 2 ^ (cls + minClass) = size at *
  have below : next % pageSize < pageSize := Nat.mod_lt _ (by decide)
  have rest : size ∣ pageSize - next % pageSize :=
    Nat.dvd_sub whole ((Nat.dvd_mod_iff whole).mpr aligned)
  have room : size ≤ pageSize - next % pageSize :=
    Nat.le_of_dvd (by omega) rest
  have region : (division wasm live slots none).region (.tail cls) =
      tailOf next := by
    rw [← nextEq]
    rfl
  rw [← sizeEq] at aligned room ⊢
  apply @Keeps.issue wasm live slots none cls (.tail cls) next keeps small
  · rw [← nextEq] at inside
    exact ⟨small, inside⟩
  · exact fun owner _ _ different => different
  · exact aligned
  · rw [region]
    refine ⟨Nat.le_refl _, ?_⟩
    rw [tailOf_of_pos inside]
    dsimp only [tailOf]
    omega
  · intro more
    rw [region]
    rw [sizeEq] at more room ⊢
    have split : (next + size) % pageSize = next % pageSize + size := by
      have bound : next % pageSize + size < pageSize := by
        by_contra full
        apply more
        have exactly : next % pageSize + size = pageSize := by omega
        rw [Nat.add_mod, ← Nat.mod_add_mod, Nat.mod_mod, Nat.add_mod_mod,
          exactly, Nat.mod_self]
      rw [← Nat.mod_add_mod]
      exact Nat.mod_eq_of_lt bound
    refine ⟨?_, ?_⟩
    · dsimp only [tailOf]
      omega
    · rw [tailOf_of_pos more, tailOf_of_pos inside, split]
      dsimp only [tailOf]
      omega

/-- A loose page becomes the current page of a class. -/
theorem Keeps.openPage {page : Nat}
    (keeps : Keeps wasm live slots (some ⟨page, pageSize⟩))
    (small : cls < sizeClassCount) (start : page % pageSize = 0) :
    Keeps (wasm.setNext cls (page + 2 ^ (cls + minClass))) live slots
      (some ⟨page, 2 ^ (cls + minClass)⟩) := by
  have whole := classSize_dvd small
  have positive := Nat.two_pow_pos (cls + minClass)
  have room : 2 ^ (cls + minClass) < pageSize := by
    have exponent : cls + minClass < 16 := by
      unfold sizeClassCount minClass at *
      omega
    exact Nat.pow_lt_pow_right (by decide) exponent
  have aligned : 2 ^ (cls + minClass) ∣ page :=
    whole.trans (Nat.dvd_of_mod_eq_zero start)
  apply @Keeps.issue wasm live slots _ cls .loose page keeps small
  · exact Option.some_ne_none _
  · exact fun _ _ different _ => different
  · exact aligned
  · exact ⟨Nat.le_refl _, Nat.add_le_add_left room.le _⟩
  · intro more
    have split : (page + 2 ^ (cls + minClass)) % pageSize =
        2 ^ (cls + minClass) := by
      rw [Nat.add_mod, start, Nat.zero_add, Nat.mod_mod,
        Nat.mod_eq_of_lt room]
    refine ⟨?_, ?_⟩
    · exact Nat.le_add_right _ _
    · rw [tailOf_of_pos more, split]
      change page + 2 ^ (cls + minClass) +
        (pageSize - 2 ^ (cls + minClass)) ≤ page + pageSize
      omega

end Pages

/-! ## Blocks -/

section Blocks

/-- A loose slot with a header is handed out. -/
theorem Keeps.hand
    (keeps : Keeps wasm live slots (some (slotOf wasm.memory mem)))
    (placed : Placed wasm.memory mem) :
    Keeps wasm (mem :: live) slots none where
  divides := by
    apply @Divides.split _ _ _ _ Owner.loose (· = .block mem)
      keeps.divides (Option.some_ne_none _)
    · intro owner present unchanged
      cases owner with
      | block other =>
          have different : other ≠ mem := by
            rintro rfl
            exact unchanged rfl
          exact ⟨(List.mem_cons.mp present).resolve_left different,
            by simp, rfl⟩
      | slot exponent addr => exact ⟨present, by simp, rfl⟩
      | tail cls => exact ⟨present, by simp, rfl⟩
      | loose => exact absurd rfl present
    · rintro owner _ rfl
      exact .refl _
    · rintro left right _ _ rfl rfl different
      exact absurd rfl different
  threaded := keeps.threaded
  shapes := keeps.shapes
  nodup := keeps.nodup
  placed := by
    intro other member
    rcases List.mem_cons.mp member with rfl | member
    · exact placed
    · exact keeps.placed other member
  distinct := by
    refine List.nodup_cons.mpr ⟨?_, keeps.distinct⟩
    intro member
    have apart := keeps.divides.apart .loose (.block mem)
      (Option.some_ne_none _) member (by simp)
    rcases placed.shape with ⟨exponent, shape⟩
    have room := shape.word_le
    change Apart (slotOf wasm.memory mem).start
      (slotOf wasm.memory mem).size (slotOf wasm.memory mem).start
      (slotOf wasm.memory mem).size at apart
    unfold Apart at apart
    unfold headerSize at room
    omega
  tails := keeps.tails
  granted := keeps.granted

/-- The slot of a block that is given up is loose. -/
theorem Keeps.release (keeps : Keeps wasm live slots none)
    (member : mem ∈ live) :
    Keeps wasm (live.erase mem) slots
      (some (slotOf wasm.memory mem)) where
  divides := by
    apply @Divides.split _ _ _ _ (Owner.block mem) (· = .loose)
      keeps.divides member
    · intro owner present unchanged
      cases owner with
      | block other =>
          have old : other ≠ mem ∧ other ∈ live :=
            keeps.distinct.mem_erase_iff.mp present
          refine ⟨old.2, ?_, rfl⟩
          rintro ⟨⟩
          exact old.1 rfl
      | slot exponent addr => exact ⟨present, by simp, rfl⟩
      | tail cls => exact ⟨present, by simp, rfl⟩
      | loose => exact absurd rfl unchanged
    · rintro owner _ rfl
      exact .refl _
    · rintro left right _ _ rfl rfl different
      exact absurd rfl different
  threaded := keeps.threaded
  shapes := keeps.shapes
  nodup := keeps.nodup
  placed := fun other among =>
    keeps.placed other (List.mem_of_mem_erase among)
  distinct := keeps.distinct.erase mem
  tails := keeps.tails
  granted := keeps.granted

end Blocks

end Libcute.Memory.WasmAllocator
