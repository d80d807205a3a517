import Libcute.Memory.ArenaAllocator
import Libcute.Memory.FixedAllocator
import Libcute.Memory.GPAllocator.Runs
import Libcute.Memory.SlabAllocator
import Libcute.Memory.WasmAllocator

/-!
# What an allocator grants

A container knows two things of the `allocFn` it was given: a request without
size is refused, and a block that is granted is at least as long as the
request.  The allocators of the library check `elem_size` first.
-/

namespace Libcute.Memory

open Libcute.Core.Interface
open Libcute.Memory.Client

/-- What a caller of `cu_Allocator_Alloc` relies on. -/
structure Grants {State : Type}
    (allocFn : State → Layout → Except IoError Slice × State) : Prop where
  refused : ∀ state layout, layout.elemSize = 0 →
    ∃ error after, allocFn state layout = (.error error, after)
  enough : ∀ state layout block after,
    allocFn state layout = (.ok block, after) →
      layout.elemSize ≤ block.length

theorem fixed_grants : Grants FixedAllocator.fixedAllocator.allocFn where
  refused := by
    intro fixed layout empty
    refine ⟨IoError.invalidInput, fixed, ?_⟩
    change FixedAllocator.fixedAlloc fixed layout = _
    unfold FixedAllocator.fixedAlloc
    rw [if_pos empty]
  enough := by
    intro fixed layout block after answer
    change FixedAllocator.fixedAlloc fixed layout = _ at answer
    unfold FixedAllocator.fixedAlloc at answer
    dsimp only at answer
    split_ifs at answer <;> cases answer
    exact Nat.le_refl _

theorem arena_grants : Grants ArenaAllocator.arenaAllocator.allocFn where
  refused := by
    intro arena layout empty
    refine ⟨IoError.invalidInput, arena, ?_⟩
    change ArenaAllocator.arenaAlloc arena layout = _
    unfold ArenaAllocator.arenaAlloc
    rw [if_pos empty]
  enough _ _ _ _ answer := ArenaAllocator.arenaAlloc_length answer

theorem slab_grants : Grants SlabAllocator.slabAllocator.allocFn where
  refused := by
    intro pool layout empty
    refine ⟨IoError.invalidInput, pool, ?_⟩
    change SlabAllocator.slabAlloc pool layout = _
    unfold SlabAllocator.slabAlloc
    rw [if_pos empty]
  enough _ _ _ _ answer := SlabAllocator.slabAlloc_length answer

theorem gpa_grants : Grants GPAllocator.gpaAllocator.allocFn where
  refused := by
    intro gpa layout empty
    refine ⟨IoError.invalidInput, gpa, ?_⟩
    change GPAllocator.gpaAlloc gpa layout = _
    unfold GPAllocator.gpaAlloc
    rw [if_pos empty]
  enough _ _ _ _ answer := GPAllocator.gpaAlloc_length answer

theorem wasm_grants : Grants WasmAllocator.wasmAllocator.allocFn where
  refused := by
    intro wasm layout empty
    refine ⟨IoError.invalidInput, wasm, ?_⟩
    change WasmAllocator.Wasm.alloc wasm layout = _
    unfold WasmAllocator.Wasm.alloc
    rw [if_pos empty]
  enough := by
    intro wasm layout block after answer
    change WasmAllocator.Wasm.alloc wasm layout = _ at answer
    unfold WasmAllocator.Wasm.alloc at answer
    generalize wasm.takeSlot layout = taken at answer
    rcases taken with ⟨addr, taken⟩
    dsimp only at answer
    split_ifs at answer
    · cases answer
    · cases answer
    · have same := Except.ok.inj (congrArg Prod.fst answer)
      rw [← same]

end Libcute.Memory
