import Mathlib.Algebra.Ring.Nat
import Mathlib.Data.List.Basic
import Mathlib.Tactic.Ring

/-!
# Messages as words

A message of bytes is split into full words of a fixed size and the bytes
behind them.  `Reading` is a computation that reads bytes of its input and
records which ones.
-/

namespace Libcute.Library.ByteWords

/-- The number whose digits in base 256 are the bytes, the lowest first. -/
def littleEndian : List UInt8 → Nat
  | [] => 0
  | byte :: rest => byte.toNat + 256 * littleEndian rest

/-- The full words of a message. -/
def fullWords (size : Nat) (message : List UInt8) : List Nat :=
  (List.range (message.length / size)).map fun i =>
    littleEndian ((message.drop (size * i)).take size)

/-- The bytes behind the full words. -/
def lastBytes (size : Nat) (message : List UInt8) : List UInt8 :=
  message.drop (size * (message.length / size))

/-- The first `len` bytes of an input. -/
def message (bytes : Nat → UInt8) (len : Nat) : List UInt8 :=
  (List.range len).map bytes

variable {front rest : List UInt8} {bytes : Nat → UInt8} {size len : Nat}

theorem littleEndian_cons (byte : UInt8) (rest : List UInt8) :
    littleEndian (byte :: rest) = byte.toNat + 256 * littleEndian rest :=
  rfl

theorem littleEndian_append :
    littleEndian (front ++ rest) =
      littleEndian front + 256 ^ front.length * littleEndian rest := by
  induction front with
  | nil =>
      rw [List.nil_append, List.length_nil, pow_zero, Nat.one_mul]
      exact (Nat.zero_add _).symm
  | cons byte front induction =>
      rw [List.cons_append, List.length_cons, littleEndian_cons,
        littleEndian_cons, induction]
      ring

theorem littleEndian_zeros (count : Nat) :
    littleEndian (List.replicate count 0) = 0 := by
  induction count with
  | zero => rfl
  | succ count induction =>
      rw [List.replicate_succ, littleEndian_cons, induction]
      rfl

@[simp]
theorem message_length : (message bytes len).length = len := by
  unfold message
  rw [List.length_map, List.length_range]

/-- A part of a message. -/
theorem message_part {start count : Nat} (inside : start + count ≤ len) :
    ((message bytes len).drop start).take count =
      (List.range' start count).map bytes := by
  unfold message
  rw [← List.map_drop, ← List.map_take, List.range_eq_range',
    List.drop_range', List.take_range'_of_length_ge (by omega),
    Nat.mul_one, Nat.zero_add]

theorem fullWords_message :
    fullWords size (message bytes len) =
      (List.range (len / size)).map fun i =>
        littleEndian ((List.range' (size * i) size).map bytes) := by
  unfold fullWords
  rw [message_length]
  apply List.map_congr_left
  intro i among
  have before : size * i + size ≤ size * (len / size) := by
    rw [← Nat.mul_succ]
    exact Nat.mul_le_mul_left size (List.mem_range.mp among)
  rw [message_part (before.trans (Nat.mul_div_le len size))]

theorem lastBytes_message :
    lastBytes size (message bytes len) =
      (List.range' (size * (len / size)) (len % size)).map bytes := by
  have whole := Nat.div_add_mod len size
  unfold lastBytes
  rw [message_length, ← message_part (Nat.le_of_eq whole),
    List.take_of_length_le]
  rw [List.length_drop, message_length]
  omega

/-! ## Reading -/

/-- A result, and the places of the input that were read for it in order. -/
structure Reading (T : Type) where
  value : T
  places : List Nat

namespace Reading

variable {S T : Type}

instance : Monad Reading where
  pure value := ⟨value, []⟩
  bind reading next :=
    ⟨(next reading.value).value,
      reading.places ++ (next reading.value).places⟩

@[simp]
theorem pure_eq (value : T) : (pure value : Reading T) = ⟨value, []⟩ := rfl

@[simp]
theorem bind_eq (value : T) (places : List Nat) (next : T → Reading S) :
    (⟨value, places⟩ : Reading T) >>= next =
      ⟨(next value).value, places ++ (next value).places⟩ :=
  rfl

/-- Read a byte. -/
def byte (bytes : Nat → UInt8) (i : Nat) : Reading UInt8 := ⟨bytes i, [i]⟩

/-- Read a word of `size` bytes on a little-endian machine. -/
def word (bytes : Nat → UInt8) (size i : Nat) : Reading Nat :=
  ⟨littleEndian ((List.range' i size).map bytes), List.range' i size⟩

end Reading

end Libcute.Library.ByteWords
