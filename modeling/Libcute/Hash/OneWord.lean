import Libcute.Collection.HashMap
import Libcute.Hash.Published
import Libcute.Library.Mixing

/-!
# Messages that differ in one word

The loops of `cu_Hash_Murmur3_32`, `cu_Hash_FNV1a32` and `cu_Hash_FNV1a64`
permute the state by every word, and the final mix of Murmur3 permutes the
hashes.  So two messages of one length have different hashes when they differ
in one word only, whatever comes before and after it:
`one_word_decides`.  A full word of Murmur3 takes the hash through all its
values, and so does the seed.
-/

namespace Libcute.Hash

open Libcute.Library
open Libcute.Library.ByteWords
open Libcute.Library.Mixing

/-! ## FNV-1a -/

/-- `cu_Hash_FNV1a32` -/
def fnv1a32 (data : List UInt8) : Nat :=
  data.foldl
    (fun hash byte => (hash ^^^ byte.toNat) * 16777619 % 2 ^ 32) 2166136261

/-- One step of FNV-1a. -/
def fnvStep {w : Nat} (prime : BitVec w) (hash : BitVec w) (byte : UInt8) :
    BitVec w :=
  (hash ^^^ BitVec.ofNat w byte.toNat) * prime

theorem fnvStep_mixes {w : Nat} {prime inverse : BitVec w} (wide : 8 ≤ w)
    (inverts : prime * inverse = 1#w) : Mixes (fnvStep prime) := by
  constructor
  · intro byte left right same
    exact (BitVec.xor_left_inj _).mp (mul_injective inverts same)
  · intro hash left right same
    have equal := xor_injective hash (mul_injective inverts same)
    have number := congrArg BitVec.toNat equal
    have fits : 2 ^ 8 ≤ 2 ^ w := Nat.pow_le_pow_right (by decide) wide
    have small := left.toNat_lt
    have small' := right.toNat_lt
    rw [BitVec.toNat_ofNat, BitVec.toNat_ofNat,
      Nat.mod_eq_of_lt (by omega), Nat.mod_eq_of_lt (by omega)] at number
    exact UInt8.toNat_inj.mp number

/-- The functions on natural numbers compute with bit vectors. -/
theorem fnv_eq {w : Nat} (wide : 8 ≤ w) (prime basis : BitVec w)
    (data : List UInt8) :
    data.foldl
        (fun hash byte => (hash ^^^ byte.toNat) * prime.toNat % 2 ^ w)
        basis.toNat =
      (data.foldl (fnvStep prime) basis).toNat := by
  induction data generalizing basis with
  | nil => rfl
  | cons byte data induction =>
      have fits : 2 ^ 8 ≤ 2 ^ w := Nat.pow_le_pow_right (by decide) wide
      have small := byte.toNat_lt
      rw [List.foldl_cons, List.foldl_cons, ← induction]
      unfold fnvStep
      rw [BitVec.toNat_mul, BitVec.toNat_xor, BitVec.toNat_ofNat,
        Nat.mod_eq_of_lt (show byte.toNat < 2 ^ w by omega)]

variable {bytes bytes' : Nat → UInt8} {len place : Nat}

/-- One byte at a place decides the fold. -/
theorem fnv_one_byte
    {w : Nat} (prime inverse basis : BitVec w) (wide : 8 ≤ w)
    (inverts : prime * inverse = 1#w)
    (alike : ∀ i < len, i ≠ place → bytes' i = bytes i) :
    (message bytes' len).foldl
          (fun hash byte => (hash ^^^ byte.toNat) * prime.toNat % 2 ^ w)
          basis.toNat =
        (message bytes len).foldl
          (fun hash byte => (hash ^^^ byte.toNat) * prime.toNat % 2 ^ w)
          basis.toNat ↔
      ∀ i < len, bytes' i = bytes i := by
  rw [fnv_eq wide, fnv_eq wide, BitVec.toNat_inj]
  by_cases inside : place < len
  · have decided :=
      (fnvStep_mixes wide inverts).foldl_range inside basis alike
    unfold message
    rw [decided]
    constructor
    · intro same i below
      by_cases here : i = place
      · rw [here, same]
      · exact alike i below here
    · intro same
      exact same place inside
  · have everywhere : ∀ i < len, bytes' i = bytes i :=
      fun i below => alike i below (by omega)
    rw [message_congr everywhere]
    exact iff_of_true rfl everywhere

theorem fnv1a32_one_byte
    (alike : ∀ i < len, i ≠ place → bytes' i = bytes i) :
    fnv1a32 (message bytes' len) = fnv1a32 (message bytes len) ↔
      ∀ i < len, bytes' i = bytes i :=
  fnv_one_byte 16777619#32 0x359c449b#32 2166136261#32 (by decide)
    (by decide) alike

theorem fnv1a64_one_byte
    (alike : ∀ i < len, i ≠ place → bytes' i = bytes i) :
    Collection.HashMap.fnv1a64 (message bytes' len) =
        Collection.HashMap.fnv1a64 (message bytes len) ↔
      ∀ i < len, bytes' i = bytes i :=
  fnv_one_byte 1099511628211#64 0xce965057aff6957b#64
    14695981039346656037#64 (by decide) (by decide) alike

/-! ## Murmur3 -/

theorem scramble_injective : Function.Injective Murmur3.scramble := by
  intro left right same
  have rotated := mul_injective
    (show 0x1b873593#32 * 0x56ed309b#32 = 1#32 by decide) same
  have scaled := rotateLeft_injective (show 15 < 32 by decide) rotated
  exact mul_injective
    (show 0xcc9e2d51#32 * 0xdee13bb1#32 = 1#32 by decide) scaled

theorem absorb_mixes : Mixes Murmur3.absorb := by
  have spreads : Function.Injective fun hash : BitVec 32 =>
      hash.rotateLeft 13 * 5#32 + 0xe6546b64#32 := by
    intro left right same
    have scaled := (BitVec.add_left_inj _).mp same
    have rotated := mul_injective
      (show 5#32 * 0xcccccccd#32 = 1#32 by decide) scaled
    exact rotateLeft_injective (show 13 < 32 by decide) rotated
  constructor
  · intro word left right same
    exact (BitVec.xor_left_inj _).mp (spreads same)
  · intro hash left right same
    exact scramble_injective (xor_injective hash (spreads same))

theorem finalMix_injective : Function.Injective Murmur3.finalMix := by
  intro left right same
  have last := xorShift_injective (show 0 < 16 by decide) same
  have scaled := mul_injective
    (show 0xc2b2ae35#32 * 0x7ed1b41d#32 = 1#32 by decide) last
  have middle := xorShift_injective (show 0 < 13 by decide) scaled
  have first := mul_injective
    (show 0x85ebca6b#32 * 0xa5cb9243#32 = 1#32 by decide) middle
  exact xorShift_injective (show 0 < 16 by decide) first

/-- The words that the loop takes in. -/
def wordAt (bytes : Nat → UInt8) (i : Nat) : BitVec 32 :=
  BitVec.ofNat 32 (littleEndian ((List.range' (4 * i) 4).map bytes))

/-- The state behind the loop. -/
def bodyState (bytes : Nat → UInt8) (len : Nat) (seed : BitVec 32) :
    BitVec 32 :=
  ((List.range (len / 4)).map (wordAt bytes)).foldl Murmur3.absorb seed

/-- The bytes behind the full words. -/
def restOf (bytes : Nat → UInt8) (len : Nat) : List UInt8 :=
  (List.range' (4 * (len / 4)) (len % 4)).map bytes

theorem murmur3_value (bytes : Nat → UInt8) (len : Nat) (seed : BitVec 32) :
    (murmur3_32 bytes len seed).value =
      Murmur3.finalMix (Murmur3.absorbRest (bodyState bytes len seed)
        (restOf bytes len) ^^^ BitVec.ofNat 32 len) := by
  rw [murmur3_32_eq]
  unfold Murmur3.murmur3 bodyState restOf
  dsimp only
  rw [fullWords_message, lastBytes_message, message_length, List.map_map]
  rfl

theorem value_eq_iff {seed seed' : BitVec 32} :
    (murmur3_32 bytes' len seed').value = (murmur3_32 bytes len seed).value ↔
      Murmur3.absorbRest (bodyState bytes' len seed') (restOf bytes' len) =
        Murmur3.absorbRest (bodyState bytes len seed)
          (restOf bytes len) := by
  rw [murmur3_value, murmur3_value, finalMix_injective.eq_iff,
    BitVec.xor_left_inj]

theorem absorbRest_keeps (rest : List UInt8) :
    Function.Injective fun hash => Murmur3.absorbRest hash rest := by
  intro left right same
  dsimp only [Murmur3.absorbRest] at same
  split_ifs at same
  · exact same
  · exact (BitVec.xor_left_inj _).mp same

theorem ofNat_littleEndian_injective {left right : List UInt8}
    (long : left.length = right.length) (short : left.length ≤ 4)
    (same : BitVec.ofNat 32 (littleEndian left) =
      BitVec.ofNat 32 (littleEndian right)) : left = right := by
  have number := congrArg BitVec.toNat same
  have fits : 256 ^ left.length ≤ 256 ^ 4 :=
    Nat.pow_le_pow_right (by decide) short
  have small := littleEndian_lt left
  have small' := littleEndian_lt right
  rw [← long] at small'
  rw [BitVec.toNat_ofNat, BitVec.toNat_ofNat, Nat.mod_eq_of_lt (by omega),
    Nat.mod_eq_of_lt (by omega)] at number
  exact littleEndian_injective long number

theorem absorbRest_tells (hash : BitVec 32) {left right : List UInt8}
    (long : left.length = right.length) (short : left.length ≤ 4)
    (same : Murmur3.absorbRest hash left = Murmur3.absorbRest hash right) :
    left = right := by
  unfold Murmur3.absorbRest at same
  by_cases empty : left = []
  · rw [empty, List.length_nil] at long
    rw [empty, List.length_eq_zero_iff.mp long.symm]
  have empty' : right ≠ [] := by
    intro none
    rw [none] at long
    exact empty (List.length_eq_zero_iff.mp long)
  rw [if_neg (by simpa using empty), if_neg (by simpa using empty')] at same
  exact ofNat_littleEndian_injective long short
    (scramble_injective (xor_injective hash same))

theorem wordAt_inj {block : Nat}
    (same : wordAt bytes' block = wordAt bytes block) {i : Nat}
    (here : i / 4 = block) : bytes' i = bytes i := by
  have lists := ofNat_littleEndian_injective
    (by rw [List.length_map, List.length_map])
    (by rw [List.length_map, List.length_range']) same
  exact List.map_inj_left.mp lists i (List.mem_range'_1.mpr (by omega))

theorem wordAt_congr {block : Nat}
    (same : ∀ i, i / 4 = block → bytes' i = bytes i) :
    wordAt bytes' block = wordAt bytes block := by
  unfold wordAt
  have lists : (List.range' (4 * block) 4).map bytes' =
      (List.range' (4 * block) 4).map bytes := by
    apply List.map_congr_left
    intro i among
    have bounds := List.mem_range'_1.mp among
    exact same i (by omega)
  rw [lists]

theorem murmur3_one_word
    {block : Nat} (seed : BitVec 32)
    (alike : ∀ i < len, i / 4 ≠ block → bytes' i = bytes i) :
    (murmur3_32 bytes' len seed).value = (murmur3_32 bytes len seed).value ↔
      ∀ i < len, bytes' i = bytes i := by
  have whole := Nat.div_add_mod len 4
  have words : ∀ i < len / 4, i ≠ block →
      wordAt bytes' i = wordAt bytes i := by
    intro i below other
    exact wordAt_congr fun j at' => alike j (by omega) (by omega)
  constructor
  · intro same i below
    by_cases other : i / 4 ≠ block
    · exact alike i below other
    have here : i / 4 = block := not_not.mp other
    rw [value_eq_iff] at same
    by_cases full : block < len / 4
    · have rests : restOf bytes' len = restOf bytes len := by
        apply List.map_congr_left
        intro j among
        have bounds := List.mem_range'_1.mp among
        exact alike j (by omega) (by omega)
      rw [rests] at same
      have states := absorbRest_keeps _ same
      exact wordAt_inj
        ((absorb_mixes.foldl_range full seed words).mp states) here
    · have bodies : bodyState bytes' len seed = bodyState bytes len seed := by
        unfold bodyState
        congr 1
        apply List.map_congr_left
        intro j among
        have inside := List.mem_range.mp among
        exact words j inside (by omega)
      rw [bodies] at same
      have rests := absorbRest_tells _
        (by unfold restOf; rw [List.length_map, List.length_map])
        (by unfold restOf; rw [List.length_map, List.length_range']; omega)
        same
      exact List.map_inj_left.mp rests i (List.mem_range'_1.mpr (by omega))
  · intro same
    rw [murmur3_32_eq, murmur3_32_eq, message_congr same]

theorem murmur3_seed :
    Function.Bijective fun seed : BitVec 32 =>
      (murmur3_32 bytes len seed).value := by
  apply bijective_of_injective
  intro left right same
  exact absorb_mixes.foldl_keeps _
    (absorbRest_keeps _ (value_eq_iff.mp same))

theorem murmur3_full_word
    (seed : BitVec 32) {block : Nat} (full : 4 * block + 4 ≤ len) :
    Function.Bijective fun word : BitVec 32 =>
      (murmur3_32 (withWord bytes 4 block word.toNat) len seed).value := by
  apply bijective_of_injective
  intro left right same
  have alike : ∀ i < len, i / 4 ≠ block →
      withWord bytes 4 block left.toNat i =
        withWord bytes 4 block right.toNat i := by
    intro i _ other
    unfold withWord
    rw [if_neg other, if_neg other]
  have equal := (murmur3_one_word seed alike).mp same
  have lists : (List.range' (4 * block) 4).map
        (withWord bytes 4 block left.toNat) =
      (List.range' (4 * block) 4).map
        (withWord bytes 4 block right.toNat) := by
    apply List.map_congr_left
    intro i among
    have bounds := List.mem_range'_1.mp among
    exact equal i (by omega)
  have numbers := congrArg littleEndian lists
  rw [littleEndian_withWord _ _ (by decide),
    littleEndian_withWord _ _ (by decide)] at numbers
  have small := left.isLt
  have small' := right.isLt
  apply BitVec.eq_of_toNat_eq
  omega

/-! ## The main result -/

/--
Messages of one length that differ in one word at most have the same hash
only when they are the same: a word has four bytes for Murmur3, whatever the
seed, and one byte for FNV-1a.  A full word and the seed of Murmur3 take the
hash through all its values.
-/
theorem one_word_decides
    (bytes : Nat → UInt8) (len : Nat) (seed : BitVec 32) :
    (∀ bytes' block,
      (∀ i < len, i / 4 ≠ block → bytes' i = bytes i) →
        ((murmur3_32 bytes' len seed).value =
            (murmur3_32 bytes len seed).value ↔
          ∀ i < len, bytes' i = bytes i)) ∧
    (∀ block, 4 * block + 4 ≤ len →
      Function.Bijective fun word : BitVec 32 =>
        (murmur3_32 (withWord bytes 4 block word.toNat) len seed).value) ∧
    (Function.Bijective fun seed : BitVec 32 =>
      (murmur3_32 bytes len seed).value) ∧
    ∀ bytes' place, (∀ i < len, i ≠ place → bytes' i = bytes i) →
      (fnv1a32 (message bytes' len) = fnv1a32 (message bytes len) ↔
          ∀ i < len, bytes' i = bytes i) ∧
      (Collection.HashMap.fnv1a64 (message bytes' len) =
            Collection.HashMap.fnv1a64 (message bytes len) ↔
          ∀ i < len, bytes' i = bytes i) :=
  ⟨fun _ _ alike => murmur3_one_word seed alike,
    fun _ full => murmur3_full_word seed full, murmur3_seed,
    fun _ _ alike => ⟨fnv1a32_one_byte alike, fnv1a64_one_byte alike⟩⟩

/-- A byte of a word of zeros is changed. -/
theorem one_word_decides_byte :
    (murmur3_32 (fun i => if i = 5 then 1 else 0) 9 7#32).value ≠
      (murmur3_32 (fun _ => 0) 9 7#32).value := by
  intro same
  have zero := (((one_word_decides (fun _ => 0) 9 7#32).1
    (fun i => if i = 5 then 1 else 0) 1
    (fun i _ other => if_neg fun here => other (by rw [here]))).mp same) 5
    (by decide)
  cases zero

end Libcute.Hash
