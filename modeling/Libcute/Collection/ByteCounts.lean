import Libcute.Collection.RingBuffer
import Libcute.Collection.Vector.Runs

/-!
# The bytes behind a capacity

A vector and a ring buffer ask for `capacity * elem_size` bytes and record
the capacity.  The product is a `size_t`, so a large capacity is recorded
over a small block.  `byteCounts_exact_iff` says for every call that sets a
capacity when the block is exactly as large as what is recorded.
-/

namespace Libcute.Collection

open Libcute.Core.Interface
open Libcute.Core.Size

variable {T : Type}

namespace Blocks

variable {grant : Grant T} {layout : Layout} {elemSize capacity : Nat}
  {storage : Storage T}

/-- The block has the bytes and the slots of `capacity` elements. -/
structure Storage.Holds (storage : Storage T) (capacity elemSize : Nat) :
    Prop where
  bytes : storage.mem.length = capacity * elemSize
  slots : storage.slots.length = capacity

/-- The block has the bytes of the request and the slots they make up. -/
structure Storage.Serves (storage : Storage T) (layout : Layout)
    (elemSize : Nat) : Prop where
  bytes : storage.mem.length = layout.elemSize
  slots : storage.slots.length = layout.elemSize / elemSize

theorem alloc_serves
    (granted : alloc grant layout elemSize = some storage) :
    storage.Serves layout elemSize := by
  unfold alloc at granted
  rcases grant with _ | ⟨ptr, fill⟩
  · cases granted
  · dsimp only at granted
    split_ifs at granted
    cases granted
    exact ⟨rfl, by rw [List.length_map, List.length_range]⟩

theorem move_serves {old : List T}
    (granted : move grant old layout elemSize = some storage) :
    storage.Serves layout elemSize := by
  rcases grant with _ | ⟨ptr, fill⟩
  · cases granted
  · cases granted
    exact ⟨rfl, by rw [List.length_map, List.length_range]⟩

/-- A request for a number of elements is exact if its product fits. -/
theorem Storage.Serves.holds_iff
    (valid : ¬ layout.Invalid)
    (serves : storage.Serves
      (Layout.create (sizeMul capacity layout.elemSize) layout.alignment)
      layout.elemSize) :
    storage.Holds capacity layout.elemSize ↔
      capacity * layout.elemSize < sizeLimit := by
  unfold Layout.Invalid at valid
  have positive : 0 < layout.elemSize := by omega
  have requested : (Layout.create (sizeMul capacity layout.elemSize)
      layout.alignment).elemSize = sizeMul capacity layout.elemSize :=
    Layout.create_elemSize _ fun none => valid (.inr none)
  constructor
  · intro holds
    rw [← holds.bytes, serves.bytes, requested]
    exact sizeMul_lt _ _
  · intro fits
    rw [sizeMul_eq fits] at requested serves
    refine ⟨serves.bytes.trans requested, ?_⟩
    rw [serves.slots, requested]
    exact Nat.mul_div_cancel capacity positive

end Blocks

open Blocks

/-! ## Vectors -/

namespace Vector

variable {vector vector' fresh : Vec T} {capacity size : Nat}
  {layout : Layout} {grant : Grant T}

/-- The block of the vector, if there is one, holds its capacity. -/
def Vec.Backed (vector : Vec T) : Prop :=
  ∀ storage, vector.data = some storage →
    storage.Holds vector.capacity vector.layout.elemSize

theorem Valid.backed (valid : Valid vector) : vector.Backed :=
  fun _ data => ⟨valid.bytes _ data, valid.slots _ data⟩

theorem create_backed_iff {destructor : Bool}
    (created : Vec.create layout (some capacity) destructor grant =
      .ok vector) :
    vector.Backed ↔ capacity * layout.elemSize < sizeLimit := by
  unfold Vec.create at created
  by_cases invalid : layout.Invalid
  · rw [if_pos invalid] at created
    cases created
  rw [if_neg invalid] at created
  dsimp only at created
  by_cases positive : 0 < capacity
  · rw [if_pos positive] at created
    generalize granted : alloc grant _ _ = answer at created
    cases answer with
    | none => cases created
    | some storage =>
        cases created
        have exactly := (alloc_serves granted).holds_iff invalid
        constructor
        · exact fun backed => exactly.mp (backed storage rfl)
        · rintro fits other ⟨rfl⟩
          exact exactly.mpr fits
  · rw [if_neg positive] at created
    cases created
    have zero : capacity = 0 := by omega
    constructor
    · intro _
      rw [zero, Nat.zero_mul]
      decide
    · rintro _ storage ⟨⟩

/-- A capacity that is set above the old one is served by a new block. -/
theorem setCapacity_raised
    (raised : vector.capacity < capacity)
    (done : vector.setCapacity capacity grant = some (none, vector')) :
    ¬ vector.layout.Invalid ∧ vector.length ≤ capacity ∧
      ∃ storage : Storage T,
        vector' = { vector with data := some storage, capacity := capacity } ∧
        storage.Serves
          (Layout.create (sizeMul capacity vector.layout.elemSize)
            vector.layout.alignment)
          vector.layout.elemSize := by
  have different : capacity ≠ vector.capacity := by omega
  have nonzero : capacity ≠ 0 := by omega
  unfold Vec.setCapacity at done
  by_cases invalid : vector.layout.Invalid
  · rw [if_pos invalid] at done
    cases done
  rw [if_neg invalid, if_neg different, if_neg nonzero] at done
  by_cases short : capacity < vector.length
  · rw [if_pos short] at done
    cases done
  rw [if_neg short] at done
  refine ⟨invalid, Nat.le_of_not_lt short, ?_⟩
  cases data : vector.data with
  | none =>
      rw [data] at done
      dsimp only at done
      generalize granted : alloc grant _ _ = answer at done
      cases answer with
      | none => cases done
      | some storage =>
          cases done
          exact ⟨storage, rfl, alloc_serves granted⟩
  | some old =>
      rw [data] at done
      dsimp only [grow, shrink] at done
      rw [ite_self] at done
      generalize granted : move grant _ _ _ = answer at done
      cases answer with
      | none => cases done
      | some storage =>
          cases done
          exact ⟨storage, rfl, move_serves granted⟩

theorem backed_iff_of_serves {storage : Storage T}
    (data : vector'.data = some storage)
    (recorded : vector'.capacity = capacity)
    (same : vector'.layout = layout) (valid : ¬ layout.Invalid)
    (serves : storage.Serves
      (Layout.create (sizeMul capacity layout.elemSize) layout.alignment)
      layout.elemSize) :
    vector'.Backed ↔ capacity * layout.elemSize < sizeLimit := by
  have exactly := serves.holds_iff valid
  unfold Vec.Backed
  rw [recorded, same, ← exactly]
  constructor
  · exact fun backed => backed storage data
  · intro holds other otherData
    rw [data] at otherData
    cases otherData
    exact holds

theorem Valid.reserve_backed_iff
    (valid : Valid vector)
    (done : vector.reserve capacity grant = some (none, vector')) :
    vector'.Backed ↔ capacity * vector.layout.elemSize < sizeLimit := by
  unfold Vec.reserve at done
  by_cases enough : capacity ≤ vector.capacity
  · rw [if_pos enough] at done
    cases done
    have smaller := Nat.mul_le_mul_right vector.layout.elemSize enough
    have fits := lt_of_le_of_lt smaller valid.fits
    exact ⟨fun _ => fits, fun _ => valid.backed⟩
  · rw [if_neg enough] at done
    rcases setCapacity_raised (Nat.lt_of_not_le enough) done with
      ⟨layout, -, storage, rfl, serves⟩
    exact backed_iff_of_serves rfl rfl rfl layout serves

/-- Calling the destructor changes neither the block nor the capacity. -/
theorem destructLoop_fields {first count : Nat}
    (done : vector.destructLoop first count = some vector') :
    ∃ destroyed, vector' = { vector with destroyed } := by
  induction count generalizing vector first with
  | zero =>
      cases done
      exact ⟨_, rfl⟩
  | succ count induction =>
      unfold Vec.destructLoop at done
      cases found : vector.slot first with
      | none =>
          rw [found] at done
          cases done
      | some elem =>
          rw [found] at done
          have rest := @induction
            { vector with destroyed := elem :: vector.destroyed }
            (first + 1) done
          rcases rest with ⟨destroyed, rfl⟩
          exact ⟨destroyed, rfl⟩

theorem Valid.resize_backed_iff
    (valid : Valid vector)
    (done : vector.resize size grant = some (none, vector')) :
    vector'.Backed ↔ size * vector.layout.elemSize < sizeLimit := by
  unfold Vec.resize at done
  by_cases larger : size > vector.capacity
  · rw [if_pos larger] at done
    generalize set : vector.setCapacity size grant = answer at done
    rcases answer with _ | ⟨_ | error, raised⟩
    · cases done
    · rcases setCapacity_raised larger set with
        ⟨layout, -, storage, rfl, serves⟩
      have within := valid.within
      have nothing : ¬ size < vector.length := by omega
      dsimp only at done
      rw [if_neg nothing] at done
      cases done
      exact backed_iff_of_serves rfl rfl rfl layout serves
    · cases done
  · rw [if_neg larger] at done
    dsimp only at done
    have smaller := Nat.mul_le_mul_right vector.layout.elemSize
      (Nat.le_of_not_lt larger)
    have fits := lt_of_le_of_lt smaller valid.fits
    have backed : vector'.Backed := by
      rcases Option.map_eq_some_iff.mp done with ⟨kept, dropped, same⟩
      cases same
      have fields : ∃ destroyed, kept = { vector with destroyed } := by
        split_ifs at dropped
        · unfold Vec.destruct at dropped
          split_ifs at dropped
          · exact destructLoop_fields dropped
          · cases dropped
            exact ⟨_, rfl⟩
        · cases dropped
          exact ⟨_, rfl⟩
      rcases fields with ⟨destroyed, rfl⟩
      exact valid.backed
    exact ⟨fun _ => fits, fun _ => backed⟩

/-- The capacities that a vector can be given are backed by their bytes. -/
structure CountsBytes (vector : Vec T) : Prop where
  backed : vector.Backed
  reserve : ∀ capacity grant vector',
    vector.reserve capacity grant = some (none, vector') →
      (vector'.Backed ↔ capacity * vector.layout.elemSize < sizeLimit)
  resize : ∀ size grant vector',
    vector.resize size grant = some (none, vector') →
      (vector'.Backed ↔ size * vector.layout.elemSize < sizeLimit)

end Vector

/-! ## Ring buffers -/

namespace RingBuffer

variable {rb : RingBuf T} {capacity : Nat} {layout : Layout}
  {grant : Grant T}

/-- The block of the ring buffer, if there is one, holds its capacity. -/
def RingBuf.Backed (rb : RingBuf T) : Prop :=
  ∀ storage, rb.data = some storage →
    storage.Holds rb.capacity rb.layout.elemSize

theorem create_backed_iff {destructor : Bool}
    (created : RingBuf.create layout capacity destructor grant = .ok rb) :
    rb.Backed ↔ capacity * layout.elemSize < sizeLimit := by
  unfold RingBuf.create at created
  by_cases invalid : layout.Invalid
  · rw [if_pos invalid] at created
    cases created
  rw [if_neg invalid] at created
  by_cases positive : capacity > 0
  · rw [if_pos positive] at created
    generalize granted : allocObject grant _ _ = answer at created
    cases answer with
    | none => cases created
    | some storage =>
        cases created
        unfold allocObject at granted
        split_ifs at granted
        have exactly := (alloc_serves granted).holds_iff invalid
        constructor
        · exact fun backed => exactly.mp (backed storage rfl)
        · rintro fits other ⟨rfl⟩
          exact exactly.mpr fits
  · rw [if_neg positive] at created
    cases created
    have zero : capacity = 0 := by omega
    constructor
    · intro _
      rw [zero, Nat.zero_mul]
      decide
    · rintro _ storage ⟨⟩

end RingBuffer

/-! ## Runs -/

/--
Whenever a call that sets a capacity succeeds, the block has exactly the
bytes and the slots of the capacity if and only if the product of the
capacity and the element size is below `2 ^ 64`.  For the vector this holds
in every state that is reached by calls whose products are.
-/
theorem byteCounts_exact_iff :
    (∀ (layout : Layout) (capacity : Nat) (destructor : Bool)
        (grant : Grant T) (vector : Vector.Vec T),
      Vector.Vec.create layout (some capacity) destructor grant =
          .ok vector →
        (vector.Backed ↔ capacity * layout.elemSize < sizeLimit)) ∧
      (∀ (layout : Layout) (initialCapacity : Option Nat)
          (destructor : Bool) (grant : Grant T)
          (fresh vector : Vector.Vec T),
        (∀ capacity, initialCapacity = some capacity →
          capacity * layout.elemSize < sizeLimit) →
        Vector.Vec.create layout initialCapacity destructor grant =
          .ok fresh →
        Vector.Runs fresh vector →
          Vector.CountsBytes vector) ∧
      ∀ (layout : Layout) (capacity : Nat) (destructor : Bool)
          (grant : Grant T) (rb : RingBuffer.RingBuf T),
        RingBuffer.RingBuf.create layout capacity destructor grant =
            .ok rb →
          (rb.Backed ↔ capacity * layout.elemSize < sizeLimit) := by
  refine ⟨fun _ _ _ _ _ created => Vector.create_backed_iff created, ?_,
    fun _ _ _ _ _ created => RingBuffer.create_backed_iff created⟩
  intro layout initialCapacity destructor grant fresh vector fits created
    run
  have valid := (Vector.runs_reached fits created run).valid
  exact
    ⟨valid.backed, fun _ _ _ done => valid.reserve_backed_iff done,
      fun _ _ _ done => valid.resize_backed_iff done⟩

/-- The vector of two words, and a ring buffer of as many. -/
theorem byteCounts_exact_iff_words :
    (Vector.wordVector.Backed ↔ 2 * 8 < sizeLimit) ∧
      Vector.CountsBytes Vector.wordVector ∧
      (∀ rb : RingBuffer.RingBuf Nat,
        RingBuffer.RingBuf.create ⟨8, 8⟩ 2 true (some (64, fun _ => 7)) =
            .ok rb →
          (rb.Backed ↔ 2 * 8 < sizeLimit)) := by
  refine
    ⟨byteCounts_exact_iff.1 ⟨8, 8⟩ 2 true (some (64, fun _ => 7))
        Vector.wordVector rfl,
      byteCounts_exact_iff.2.1 ⟨8, 8⟩ (some 2) true
        (some (64, fun _ => 7)) Vector.wordVector Vector.wordVector ?_ rfl
        (.start rfl),
      byteCounts_exact_iff.2.2 ⟨8, 8⟩ 2 true (some (64, fun _ => 7))⟩
  intro capacity asked
  cases asked
  decide

/-- An empty vector of words. -/
def emptyWords : Vector.Vec Nat := ⟨none, 0, 0, ⟨8, 8⟩, false, []⟩

/-- A vector and a ring buffer over a block of 8 bytes. -/
def oneWord : Vector.Vec Nat :=
  ⟨some ⟨⟨64, 8⟩, [7]⟩, 0, 2 ^ 61 + 1, ⟨8, 8⟩, false, []⟩

/--
The bytes of `2 ^ 61 + 1` words wrap to 8.  All four calls succeed and
record the capacity over a block with one slot.
-/
theorem byteCounts_wrap :
    Vector.Vec.create ⟨8, 8⟩ (some (2 ^ 61 + 1)) false
        (some (64, fun _ => 7)) = .ok oneWord ∧
      emptyWords.reserve (2 ^ 61 + 1) (some (64, fun _ => 7)) =
        some (none, oneWord) ∧
      emptyWords.resize (2 ^ 61 + 1) (some (64, fun _ => 7)) =
        some (none, { oneWord with length := 2 ^ 61 + 1 }) ∧
      RingBuffer.RingBuf.create ⟨8, 8⟩ (2 ^ 61 + 1) false
          (some (64, fun _ => 7)) =
        .ok ⟨some ⟨⟨64, 8⟩, [7]⟩, 2 ^ 61 + 1, 0, 0, ⟨8, 8⟩, false, []⟩ ∧
      ¬ oneWord.Backed := by
  refine ⟨rfl, rfl, rfl, rfl, ?_⟩
  intro backed
  exact absurd (backed _ rfl).slots (by decide)

end Libcute.Collection
