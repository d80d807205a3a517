import Libcute.Library.ByteWords

/-!
# SipHash

The family of keyed hash functions SipHash-c-d as it was published: four words
of state, `c` rounds for each word of the message and `d` rounds at the end.
The last word of the message holds the remaining bytes, zeros, and the length
modulo 256.
-/

namespace Libcute.Library.SipHash

open Libcute.Library.ByteWords

/-- The state. -/
structure State where
  v0 : BitVec 64
  v1 : BitVec 64
  v2 : BitVec 64
  v3 : BitVec 64
deriving DecidableEq

/-- SipRound, with the two halves of the network side by side. -/
def round (state : State) : State :=
  let v0 := state.v0 + state.v1
  let v2 := state.v2 + state.v3
  let v1 := state.v1.rotateLeft 13
  let v3 := state.v3.rotateLeft 16
  let v1 := v1 ^^^ v0
  let v3 := v3 ^^^ v2
  let v0 := v0.rotateLeft 32
  let v2 := v2 + v1
  let v0 := v0 + v3
  let v1 := v1.rotateLeft 17
  let v3 := v3.rotateLeft 21
  let v1 := v1 ^^^ v2
  let v3 := v3 ^^^ v0
  let v2 := v2.rotateLeft 32
  ⟨v0, v1, v2, v3⟩

/-- Several rounds. -/
def rounds : Nat → State → State
  | 0, state => state
  | count + 1, state => rounds count (round state)

/-- The state before the message: the key is sixteen bytes. -/
def start (key : List UInt8) : State :=
  let k0 := BitVec.ofNat 64 (littleEndian (key.take 8))
  let k1 := BitVec.ofNat 64 (littleEndian (key.drop 8))
  ⟨k0 ^^^ 0x736f6d6570736575#64, k1 ^^^ 0x646f72616e646f6d#64,
    k0 ^^^ 0x6c7967656e657261#64, k1 ^^^ 0x7465646279746573#64⟩

/-- Take in a word of the message. -/
def compress (c : Nat) (state : State) (word : BitVec 64) : State :=
  let state := rounds c { state with v3 := state.v3 ^^^ word }
  { state with v0 := state.v0 ^^^ word }

/-- The last word of a message. -/
def lastWord (message : List UInt8) : Nat :=
  let rest := lastBytes 8 message
  littleEndian (rest ++ List.replicate (7 - rest.length) 0 ++
    [UInt8.ofNat message.length])

/-- The words of a message. -/
def words (message : List UInt8) : List (BitVec 64) :=
  (fullWords 8 message ++ [lastWord message]).map (BitVec.ofNat 64)

/-- The hash of the state after the message. -/
def finish (d : Nat) (state : State) : BitVec 64 :=
  let state := rounds d { state with v2 := state.v2 ^^^ 0xff#64 }
  state.v0 ^^^ state.v1 ^^^ state.v2 ^^^ state.v3

/-- SipHash-c-d -/
def sipHash (c d : Nat) (key message : List UInt8) : BitVec 64 :=
  finish d ((words message).foldl (compress c) (start key))

/-- The published test vector. -/
example : sipHash 2 4 ((List.range 16).map UInt8.ofNat)
    ((List.range 15).map UInt8.ofNat) = 0xa129ca6149be45e5#64 := by
  decide +kernel

end Libcute.Library.SipHash
