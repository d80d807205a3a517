import Libcute.Library.ByteWords

/-!
# Hash functions

`cu_Hash_Murmur3_32` and `cu_Hash_SipHash24` of `hash.c` on a little-endian
machine.  Both read full words in a loop and the bytes behind them in a switch
whose cases fall through.  The result comes with the places of the data that
were read.
-/

namespace Libcute.Hash

open Libcute.Library.ByteWords

/--
`while (len - i >= size)`, the loop of both functions: read the word at `i`
and mix it into the state.
-/
def wordLoop {S : Type} (size : Nat) [NeZero size] (bytes : Nat → UInt8)
    (len : Nat) (mix : S → Nat → S) (state : S) (i : Nat) :
    Reading (S × Nat) :=
  if size ≤ len - i then do
    let word ← Reading.word bytes size i
    wordLoop size bytes len mix (mix state word) (i + size)
  else
    pure (state, i)
termination_by len - i
decreasing_by
  have positive := Nat.pos_of_neZero size
  omega

/--
The cases of both switches: case `n + 1` puts byte `i + n` in its place and
falls through to case `n`.
-/
def fallThrough {w : Nat} (put : BitVec w → BitVec w → BitVec w)
    (bytes : Nat → UInt8) (i : Nat) : Nat → BitVec w → Reading (BitVec w)
  | 0, word => pure word
  | n + 1, word => do
      let byte ← Reading.byte bytes (i + n)
      fallThrough put bytes i n
        (put word (BitVec.ofNat w byte.toNat <<< (8 * n)))

/-! ## Murmur3 -/

/-- `CU_MURMUR3_C1` -/
def murmur3C1 : BitVec 32 := 0xcc9e2d51#32

/-- `CU_MURMUR3_C2` -/
def murmur3C2 : BitVec 32 := 0x1b873593#32

/-- `CU_MURMUR3_N` -/
def murmur3N : BitVec 32 := 0xe6546b64#32

/-- `CU_MURMUR3_F1` -/
def murmur3F1 : BitVec 32 := 0x85ebca6b#32

/-- `CU_MURMUR3_F2` -/
def murmur3F2 : BitVec 32 := 0xc2b2ae35#32

/-- The three statements that mix `k1`. -/
def mixK1 (k1 : BitVec 32) : BitVec 32 :=
  let k1 := k1 * murmur3C1
  let k1 := (k1 <<< 15) ||| (k1 >>> 17)
  k1 * murmur3C2

/-- The loop body. -/
def mixH1 (h1 : BitVec 32) (word : Nat) : BitVec 32 :=
  let h1 := h1 ^^^ mixK1 (BitVec.ofNat 32 word)
  let h1 := (h1 <<< 13) ||| (h1 >>> 19)
  h1 * 5#32 + murmur3N

/-- `cu_Hash_Murmur3_32` -/
def murmur3_32 (bytes : Nat → UInt8) (len : Nat) (seed : BitVec 32) :
    Reading (BitVec 32) := do
  let (h1, i) ← wordLoop 4 bytes len mixH1 seed 0
  let h1 ←
    if len &&& 3 = 0 then
      pure h1
    else do
      let k1 ← fallThrough (· ^^^ ·) bytes i (len &&& 3) 0#32
      pure (h1 ^^^ mixK1 k1)
  let h1 := h1 ^^^ BitVec.ofNat 32 len
  let h1 := h1 ^^^ h1 >>> 16
  let h1 := h1 * murmur3F1
  let h1 := h1 ^^^ h1 >>> 13
  let h1 := h1 * murmur3F2
  pure (h1 ^^^ h1 >>> 16)

/-! ## SipHash -/

/-- The variables `v0` to `v3`. -/
structure Sip where
  v0 : BitVec 64
  v1 : BitVec 64
  v2 : BitVec 64
  v3 : BitVec 64

/-- `CU_SIPHASH_V0_INIT` -/
def sipHashV0Init : BitVec 64 := 0x736f6d6570736575#64

/-- `CU_SIPHASH_V1_INIT` -/
def sipHashV1Init : BitVec 64 := 0x646f72616e646f6d#64

/-- `CU_SIPHASH_V2_INIT` -/
def sipHashV2Init : BitVec 64 := 0x6c7967656e657261#64

/-- `CU_SIPHASH_V3_INIT` -/
def sipHashV3Init : BitVec 64 := 0x7465646279746573#64

/-- `SIPROUND` -/
def sipRound (v : Sip) : Sip :=
  let ⟨v0, v1, v2, v3⟩ := v
  let v0 := v0 + v1
  let v1 := (v1 <<< 13) ||| (v1 >>> 51)
  let v1 := v1 ^^^ v0
  let v0 := (v0 <<< 32) ||| (v0 >>> 32)
  let v2 := v2 + v3
  let v3 := (v3 <<< 16) ||| (v3 >>> 48)
  let v3 := v3 ^^^ v2
  let v0 := v0 + v3
  let v3 := (v3 <<< 21) ||| (v3 >>> 43)
  let v3 := v3 ^^^ v0
  let v2 := v2 + v1
  let v1 := (v1 <<< 17) ||| (v1 >>> 47)
  let v1 := v1 ^^^ v2
  let v2 := (v2 <<< 32) ||| (v2 >>> 32)
  ⟨v0, v1, v2, v3⟩

/-- A word goes into `v3`, two rounds follow, and it goes into `v0`. -/
def sipWord (v : Sip) (m : BitVec 64) : Sip :=
  let v := sipRound (sipRound { v with v3 := v.v3 ^^^ m })
  { v with v0 := v.v0 ^^^ m }

/-- `cu_hash_read64` -/
def hashRead64 (bytes : Nat → UInt8) (i : Nat) : BitVec 64 :=
  BitVec.ofNat 64 (Reading.word bytes 8 i).value

/-- `cu_Hash_SipHash24`; the places are those of the data. -/
def sipHash24 (key bytes : Nat → UInt8) (len : Nat) :
    Reading (BitVec 64) := do
  let k0 := hashRead64 key 0
  let k1 := hashRead64 key 8
  let v : Sip := ⟨sipHashV0Init ^^^ k0, sipHashV1Init ^^^ k1,
    sipHashV2Init ^^^ k0, sipHashV3Init ^^^ k1⟩
  let (v, i) ← wordLoop 8 bytes len
    (fun v word => sipWord v (BitVec.ofNat 64 word)) v 0
  let b ← fallThrough (· ||| ·) bytes i (len &&& 7)
    (BitVec.ofNat 64 len <<< 56)
  let v := sipWord v b
  let v := { v with v2 := v.v2 ^^^ 0xff#64 }
  let v := sipRound (sipRound (sipRound (sipRound v)))
  pure (v.v0 ^^^ v.v1 ^^^ v.v2 ^^^ v.v3)

end Libcute.Hash
