import Libcute.Hash
import Libcute.Library.Murmur3
import Libcute.Library.SipHash

/-!
# The published hash functions

The hash functions of `hash.c` are SipHash-2-4 and MurmurHash3 x86_32.  Both
loops read the full words, and the two switches the last word: the bytes are
put side by side, so that it makes no difference whether they are joined by
`|` or by `^`.
-/

namespace Libcute.Hash

open Libcute.Library
open Libcute.Library.ByteWords

variable {S : Type} {size : Nat} {bytes : Nat → UInt8}

/-! ## The loop -/

/-- The loop reads `count` full words in their order. -/
theorem wordLoop_eq [NeZero size]
    (mix : S → Nat → S) (state : S) {len i count rest : Nat}
    (split : i + size * count + rest = len) (short : rest < size) :
    wordLoop size bytes len mix state i =
      ⟨((List.range count).foldl (fun state j => mix state
          (littleEndian ((List.range' (i + size * j) size).map bytes))) state,
        i + size * count), List.range' i (size * count)⟩ := by
  induction count generalizing state i with
  | zero =>
      unfold wordLoop
      rw [if_neg (by omega)]
      rfl
  | succ count induction =>
      rw [Nat.mul_succ] at split
      unfold wordLoop
      rw [if_pos (by omega), Reading.word, Reading.bind_eq,
        induction _ (by omega)]
      dsimp only
      have next (j : Nat) : i + size + size * j = i + size * (j + 1) := by
        rw [Nat.mul_succ]
        omega
      simp only [next, List.range'_append_1, List.range_succ_eq_map,
        List.foldl_cons, List.foldl_map, Nat.mul_zero, Nat.add_zero,
        Nat.mul_succ, Nat.add_comm size, Nat.succ_eq_add_one]

/-! ## The switches -/

/-- The operation puts a byte below the bits of a word. -/
def Puts {w : Nat} (put : BitVec w → BitVec w → BitVec w) : Prop :=
  ∀ high (byte : UInt8) n,
    put (BitVec.ofNat w (2 ^ (8 * n + 8) * high))
        (BitVec.ofNat w byte.toNat <<< (8 * n)) =
      BitVec.ofNat w (2 ^ (8 * n + 8) * high + byte.toNat * 2 ^ (8 * n))

theorem ofNat_shiftLeft (w value count : Nat) :
    BitVec.ofNat w value <<< count = BitVec.ofNat w (value * 2 ^ count) := by
  apply BitVec.eq_of_toNat_eq
  rw [BitVec.toNat_shiftLeft, BitVec.toNat_ofNat, BitVec.toNat_ofNat,
    Nat.shiftLeft_eq, Nat.mod_mul_mod]

theorem byte_shifted_lt (byte : UInt8) (n : Nat) :
    byte.toNat * 2 ^ (8 * n) < 2 ^ (8 * n + 8) := by
  have small := byte.toNat_lt
  rw [pow_add, Nat.mul_comm]
  exact Nat.mul_lt_mul_of_pos_left small (Nat.two_pow_pos _)

theorem puts_or (w : Nat) : @Puts w (· ||| ·) := by
  intro high byte n
  dsimp only
  rw [ofNat_shiftLeft, ← BitVec.ofNat_or,
    ← Nat.two_pow_add_eq_or_of_lt (byte_shifted_lt byte n)]

/-- Bits that do not meet are added by an exclusive or. -/
theorem two_pow_xor {high low count : Nat} (small : low < 2 ^ count) :
    2 ^ count * high ^^^ low = 2 ^ count * high + low := by
  apply Nat.eq_of_testBit_eq
  intro j
  rw [Nat.testBit_xor, Nat.testBit_two_pow_mul_add high small,
    Nat.testBit_two_pow_mul]
  by_cases below : j < count
  · rw [if_pos below, decide_eq_false (by omega)]
    simp
  · have above : low.testBit j = false :=
      Nat.testBit_lt_two_pow
        (small.trans_le (Nat.pow_le_pow_right (by decide) (by omega)))
    rw [if_neg below, decide_eq_true (by omega), above]
    simp

theorem puts_xor (w : Nat) : @Puts w (· ^^^ ·) := by
  intro high byte n
  dsimp only
  rw [ofNat_shiftLeft, ← BitVec.ofNat_xor,
    two_pow_xor (byte_shifted_lt byte n)]

/-- The cases put the bytes side by side, from the last one down. -/
theorem fallThrough_eq
    {w : Nat} {put : BitVec w → BitVec w → BitVec w} (puts : Puts put)
    (bytes : Nat → UInt8) (i n high : Nat) :
    fallThrough put bytes i n (BitVec.ofNat w (2 ^ (8 * n) * high)) =
      ⟨BitVec.ofNat w (littleEndian ((List.range' i n).map bytes) +
        2 ^ (8 * n) * high), (List.range' i n).reverse⟩ := by
  induction n generalizing high with
  | zero =>
      unfold fallThrough
      rw [List.range'_zero, List.map_nil, littleEndian, Nat.zero_add]
      rfl
  | succ n induction =>
      have joined : 2 ^ (8 * (n + 1)) * high +
          (bytes (i + n)).toNat * 2 ^ (8 * n) =
            2 ^ (8 * n) * (2 ^ 8 * high + (bytes (i + n)).toNat) := by
        rw [Nat.mul_succ, pow_add]
        ring
      have digits : (256 : Nat) ^ n = 2 ^ (8 * n) := (pow_mul 2 8 n).symm
      unfold fallThrough Reading.byte
      rw [Reading.bind_eq, Nat.mul_succ, puts, ← Nat.mul_succ, joined,
        induction]
      dsimp only
      rw [List.range'_1_concat, List.map_append, littleEndian_append,
        List.length_map, List.length_range', List.reverse_append, digits]
      refine congrArg₂ Reading.mk (congrArg (BitVec.ofNat w) ?_) rfl
      rw [List.map_singleton, littleEndian, littleEndian, Nat.mul_zero,
        Nat.add_zero, Nat.mul_succ, pow_add]
      ring

/-- Both parts together read every byte once. -/
theorem places_perm {len count rest : Nat}
    (split : size * count + rest = len) :
    (List.range' 0 (size * count) ++
      (List.range' (size * count) rest).reverse).Perm (List.range len) := by
  rw [List.range_eq_range', ← split, ← List.range'_append_1, Nat.zero_add]
  exact (List.reverse_perm _).append_left _

/-! ## Murmur3 -/

theorem rotateLeft_eq {w : Nat} (x : BitVec w) {left right : Nat}
    (split : left + right = w) (positive : 0 < right) :
    (x <<< left) ||| (x >>> right) = x.rotateLeft left := by
  have count : right = w - left := by omega
  rw [BitVec.rotateLeft_eq_rotateLeftAux_of_lt (by omega),
    BitVec.rotateLeftAux, count]

theorem mixK1_eq (k1 : BitVec 32) : mixK1 k1 = Murmur3.scramble k1 := by
  unfold mixK1
  dsimp only
  rw [@rotateLeft_eq 32 _ 15 17 rfl (by decide)]
  rfl

theorem mixH1_eq (h1 : BitVec 32) (word : Nat) :
    mixH1 h1 word = Murmur3.absorb h1 (BitVec.ofNat 32 word) := by
  unfold mixH1
  dsimp only
  rw [mixK1_eq, @rotateLeft_eq 32 _ 13 19 rfl (by decide)]
  rfl

/-- The places that are read: the full words, then the rest backwards. -/
def placesRead (size len : Nat) : List Nat :=
  List.range' 0 (size * (len / size)) ++
    (List.range' (size * (len / size)) (len % size)).reverse

theorem murmur3_32_eq (bytes : Nat → UInt8) (len : Nat) (seed : BitVec 32) :
    murmur3_32 bytes len seed =
      ⟨Murmur3.murmur3 seed (message bytes len), placesRead 4 len⟩ := by
  have whole := Nat.div_add_mod len 4
  have short := Nat.mod_lt len (show 4 > 0 by decide)
  have masked : len &&& 3 = len % 4 := Nat.and_two_pow_sub_one_eq_mod len 2
  have looped := @wordLoop_eq _ 4 bytes _ mixH1 seed len 0 (len / 4)
    (len % 4) (by omega) short
  have cases' := fallThrough_eq (puts_xor 32) bytes (4 * (len / 4))
    (len % 4) 0
  rw [Nat.mul_zero, Nat.add_zero] at cases'
  simp only [Nat.zero_add, mixH1_eq] at looped
  have body : ((fullWords 4 (message bytes len)).map
      (BitVec.ofNat 32)).foldl Murmur3.absorb seed =
        (List.range (len / 4)).foldl (fun h1 j => Murmur3.absorb h1
          (BitVec.ofNat 32 (littleEndian
            ((List.range' (4 * j) 4).map bytes)))) seed := by
    rw [fullWords_message, List.map_map, List.foldl_map]
    rfl
  unfold murmur3_32 Murmur3.murmur3
  rw [looped, Reading.bind_eq, body, lastBytes_message, message_length,
    masked]
  dsimp only
  generalize (List.range (len / 4)).foldl _ seed = h1
  unfold Murmur3.absorbRest placesRead
  by_cases none : len % 4 = 0
  · rw [if_pos none, none]
    rfl
  · have filled : ((List.range' (4 * (len / 4)) (len % 4)).map
        bytes).isEmpty = false := by
      rw [List.isEmpty_eq_false_iff, Ne, List.map_eq_nil_iff,
        List.range'_eq_nil_iff]
      exact none
    rw [if_neg none, filled, cases']
    simp only [Reading.bind_eq, Reading.pure_eq, mixK1_eq, List.append_nil]
    rfl

/-! ## SipHash -/

/-- The state of the published function. -/
def Sip.state (v : Sip) : SipHash.State := ⟨v.v0, v.v1, v.v2, v.v3⟩

/-- The macro computes the same network one half after the other. -/
theorem sipRound_state (v : Sip) :
    (sipRound v).state = SipHash.round v.state := by
  unfold sipRound
  dsimp only
  rw [@rotateLeft_eq 64 _ 13 51 rfl (by decide),
    @rotateLeft_eq 64 _ 32 32 rfl (by decide),
    @rotateLeft_eq 64 _ 16 48 rfl (by decide),
    @rotateLeft_eq 64 _ 21 43 rfl (by decide),
    @rotateLeft_eq 64 _ 17 47 rfl (by decide),
    @rotateLeft_eq 64 _ 32 32 rfl (by decide)]
  rfl

theorem sipWord_state (v : Sip) (m : BitVec 64) :
    (sipWord v m).state = SipHash.compress 2 v.state m := by
  have twice := sipRound_state (sipRound { v with v3 := v.v3 ^^^ m })
  rw [sipRound_state] at twice
  have rounds : SipHash.rounds 2 { v.state with v3 := v.v3 ^^^ m } =
      (sipRound (sipRound { v with v3 := v.v3 ^^^ m })).state := twice.symm
  unfold SipHash.compress
  dsimp only [Sip.state] at rounds ⊢
  rw [rounds]
  rfl

theorem sipRounds_state (v : Sip) :
    (sipRound (sipRound (sipRound (sipRound v)))).state =
      SipHash.rounds 4 v.state := by
  rw [sipRound_state, sipRound_state, sipRound_state, sipRound_state]
  rfl

theorem hashRead64_start (key : Nat → UInt8) :
    (⟨sipHashV0Init ^^^ hashRead64 key 0, sipHashV1Init ^^^ hashRead64 key 8,
      sipHashV2Init ^^^ hashRead64 key 0,
      sipHashV3Init ^^^ hashRead64 key 8⟩ : Sip).state =
        SipHash.start (message key 16) := by
  have low : (message key 16).take 8 = (List.range' 0 8).map key := by
    have part := @message_part key 16 0 8 (by decide)
    rw [List.drop_zero] at part
    exact part
  have high : (message key 16).drop 8 = (List.range' 8 8).map key := by
    have part := @message_part key 16 8 8 (by decide)
    rw [List.take_of_length_le (by simp)] at part
    exact part
  unfold SipHash.start Sip.state hashRead64 Reading.word
  rw [low, high]
  dsimp only
  rw [BitVec.xor_comm sipHashV0Init, BitVec.xor_comm sipHashV1Init,
    BitVec.xor_comm sipHashV2Init, BitVec.xor_comm sipHashV3Init]
  rfl

/-- The word that the switch builds is the last word of the message. -/
theorem lastWord_eq (bytes : Nat → UInt8) (len : Nat) :
    fallThrough (· ||| ·) bytes (8 * (len / 8)) (len % 8)
        (BitVec.ofNat 64 len <<< 56) =
      ⟨BitVec.ofNat 64 (SipHash.lastWord (message bytes len)),
        (List.range' (8 * (len / 8)) (len % 8)).reverse⟩ := by
  have short := Nat.mod_lt len (show 8 > 0 by decide)
  have shifted : len * 2 ^ 56 =
      2 ^ (8 * (len % 8)) * (2 ^ (56 - 8 * (len % 8)) * len) := by
    rw [← Nat.mul_assoc, ← pow_add, Nat.mul_comm]
    congr 2
    omega
  have top : (UInt8.ofNat len).toNat = len % 256 := UInt8.toNat_ofNat'
  rw [ofNat_shiftLeft, shifted, fallThrough_eq (puts_or 64), ← shifted]
  refine congrArg₂ Reading.mk ?_ rfl
  unfold SipHash.lastWord
  dsimp only
  rw [lastBytes_message, message_length, List.append_assoc,
    littleEndian_append, littleEndian_append, littleEndian_zeros,
    List.length_replicate, List.length_map, List.length_range', Nat.zero_add,
    ← Nat.mul_assoc, ← pow_add, littleEndian, littleEndian, top,
    Nat.add_sub_of_le (by omega)]
  apply BitVec.eq_of_toNat_eq
  rw [BitVec.toNat_ofNat, BitVec.toNat_ofNat]
  omega

/-- Several words, one after the other. -/
theorem sipWords_state (read : Nat → Nat) (v : Sip) (places : List Nat) :
    (places.foldl (fun v j => sipWord v (BitVec.ofNat 64 (read j))) v).state =
      ((places.map read).map (BitVec.ofNat 64)).foldl (SipHash.compress 2)
        v.state := by
  induction places generalizing v with
  | nil => rfl
  | cons place places induction =>
      rw [List.foldl_cons, induction, sipWord_state]
      rfl

theorem words_state (bytes : Nat → UInt8) (len : Nat) (v : Sip) :
    (sipWord ((List.range (len / 8)).foldl (fun v j => sipWord v
        (BitVec.ofNat 64 (littleEndian
          ((List.range' (8 * j) 8).map bytes)))) v)
        (BitVec.ofNat 64 (SipHash.lastWord (message bytes len)))).state =
      (SipHash.words (message bytes len)).foldl (SipHash.compress 2)
        v.state := by
  have body := sipWords_state
    (fun j => littleEndian ((List.range' (8 * j) 8).map bytes)) v
    (List.range (len / 8))
  unfold SipHash.words
  rw [sipWord_state, body, fullWords_message, List.map_append,
    List.foldl_append]
  rfl

theorem sipHash24_eq (key bytes : Nat → UInt8) (len : Nat) :
    sipHash24 key bytes len =
      ⟨SipHash.sipHash 2 4 (message key 16) (message bytes len),
        placesRead 8 len⟩ := by
  have whole := Nat.div_add_mod len 8
  have short := Nat.mod_lt len (show 8 > 0 by decide)
  have masked : len &&& 7 = len % 8 := Nat.and_two_pow_sub_one_eq_mod len 3
  have looped := fun v => @wordLoop_eq _ 8 bytes _
    (fun v word => sipWord v (BitVec.ofNat 64 word)) v len 0 (len / 8)
    (len % 8) (by omega) short
  have started := hashRead64_start key
  have words := words_state bytes len
  simp only [Nat.zero_add] at looped
  unfold sipHash24 SipHash.sipHash SipHash.finish placesRead
  dsimp only
  rw [looped, Reading.bind_eq, masked, lastWord_eq, Reading.bind_eq]
  dsimp only
  rw [← started, ← words]
  generalize sipWord _ _ = v
  have rounds : SipHash.rounds 4
      { v.state with v2 := v.state.v2 ^^^ 0xff#64 } =
        (sipRound (sipRound (sipRound (sipRound
          { v with v2 := v.v2 ^^^ 0xff#64 })))).state :=
    (sipRounds_state { v with v2 := v.v2 ^^^ 0xff#64 }).symm
  rw [rounds]
  simp only [Reading.pure_eq, List.append_nil]
  rfl

/-- The loop and the switch together read every byte once. -/
theorem placesRead_perm (size len : Nat) :
    (placesRead size len).Perm (List.range len) :=
  places_perm (Nat.div_add_mod len size)

/--
The main result: for every key, every seed and every length, the two
functions are the published ones, and they read each byte of the data once
and no other place.
-/
theorem hashes_published
    (key bytes : Nat → UInt8) (seed : BitVec 32) (len : Nat) :
    ((sipHash24 key bytes len).value =
        SipHash.sipHash 2 4 (message key 16) (message bytes len) ∧
      (sipHash24 key bytes len).places.Perm (List.range len)) ∧
    (murmur3_32 bytes len seed).value =
        Murmur3.murmur3 seed (message bytes len) ∧
      (murmur3_32 bytes len seed).places.Perm (List.range len) := by
  rw [sipHash24_eq, murmur3_32_eq]
  exact ⟨⟨rfl, placesRead_perm 8 len⟩, rfl, placesRead_perm 4 len⟩

end Libcute.Hash
