import Libcute.Library.ByteWords

/-!
# MurmurHash3

The 32-bit variant for 32-bit machines of MurmurHash3 as it was published: a
body over the full words, a tail for the remaining bytes and a final mix.
-/

namespace Libcute.Library.Murmur3

open Libcute.Library.ByteWords

/-- The mix of a word of the message. -/
def scramble (word : BitVec 32) : BitVec 32 :=
  (word * 0xcc9e2d51#32).rotateLeft 15 * 0x1b873593#32

/-- Take in a full word. -/
def absorb (hash word : BitVec 32) : BitVec 32 :=
  (hash ^^^ scramble word).rotateLeft 13 * 5#32 + 0xe6546b64#32

/-- Take in the bytes behind the full words. -/
def absorbRest (hash : BitVec 32) (rest : List UInt8) : BitVec 32 :=
  if rest.isEmpty then
    hash
  else
    hash ^^^ scramble (BitVec.ofNat 32 (littleEndian rest))

/-- The final mix. -/
def finalMix (hash : BitVec 32) : BitVec 32 :=
  let hash := (hash ^^^ hash >>> 16) * 0x85ebca6b#32
  let hash := (hash ^^^ hash >>> 13) * 0xc2b2ae35#32
  hash ^^^ hash >>> 16

/-- MurmurHash3 x86_32 -/
def murmur3 (seed : BitVec 32) (message : List UInt8) : BitVec 32 :=
  let hash := ((fullWords 4 message).map (BitVec.ofNat 32)).foldl absorb seed
  let hash := absorbRest hash (lastBytes 4 message)
  finalMix (hash ^^^ BitVec.ofNat 32 message.length)

/-- The hash of `"hello"`. -/
example : murmur3 0#32 [104, 101, 108, 108, 111] = 0x248bfa47#32 := by
  decide +kernel

end Libcute.Library.Murmur3
