import Mathlib.Data.Nat.Basic
import Mathlib.Data.BitVec

/-!
# File times of Windows

`utility.c` converts the `FILETIME` of Windows, an unsigned number of ticks
of 100 nanoseconds since 1601, to signed nanoseconds since 1970 and back.

The constants are unsigned, so all operators work modulo `2 ^ 64`.  On the
way to nanoseconds the result is signed at last and right on both sides of
1970.  On the way back the signed number is a dividend next to an unsigned
divisor: it is converted first, and a date before 1970 is divided as a number
just below `2 ^ 64`.
-/

namespace Libcute.Core.Time

/-- `FILETIME` -/
structure FileTime where
  dwLowDateTime : BitVec 32
  dwHighDateTime : BitVec 32
deriving DecidableEq, Repr

/-- `uli.QuadPart` of an `ULARGE_INTEGER` with the two halves. -/
def FileTime.quadPart (ft : FileTime) : BitVec 64 :=
  ft.dwHighDateTime ++ ft.dwLowDateTime

/-- `uli.LowPart` and `uli.HighPart` of an `ULARGE_INTEGER`. -/
def ofQuadPart (quadPart : BitVec 64) : FileTime where
  dwLowDateTime := quadPart.extractLsb' 0 32
  dwHighDateTime := quadPart.extractLsb' 32 32

/-- `CU_TIME_WINDOWS_EPOCH_DIFF` -/
def epochDiff : BitVec 64 := 116444736000000000#64

/-- `CU_TIME_WINDOWS_TICK_NS` -/
def tickNs : BitVec 64 := 100#64

/-- `cu_Time_filetime_to_unix` -/
def filetimeToUnix (ft : FileTime) : Int :=
  ((ft.quadPart - epochDiff) * tickNs).toInt

/-- `cu_Time_unix_to_filetime`, which divides after converting `ns`. -/
def unixToFiletime (ns : Int) : FileTime :=
  ofQuadPart (BitVec.ofInt 64 ns / tickNs + epochDiff)

/-- The distance from 1970 in nanoseconds, not reduced. -/
def FileTime.distance (ft : FileTime) : Int :=
  ((ft.quadPart.toNat : Int) - epochDiff.toNat) * tickNs.toNat

/-- The distance is a `long long`. -/
def FileTime.Representable (ft : FileTime) : Prop :=
  -2 ^ 63 ≤ ft.distance ∧ ft.distance < 2 ^ 63

/-- The date is not before 1970. -/
def FileTime.Recent (ft : FileTime) : Prop :=
  epochDiff.toNat ≤ ft.quadPart.toNat

variable {ft : FileTime}

/-! ## The two halves -/

theorem quadPart_ofQuadPart (quadPart : BitVec 64) :
    (ofQuadPart quadPart).quadPart = quadPart := by
  unfold FileTime.quadPart ofQuadPart
  apply BitVec.eq_of_getLsbD_eq
  intro position inside
  rw [BitVec.getLsbD_append]
  by_cases low : position < 32
  · simp [low]
  · simp [low, show position - 32 < 32 by omega,
      show 32 + (position - 32) = position by omega]

theorem ofQuadPart_quadPart (ft : FileTime) :
    ofQuadPart ft.quadPart = ft := by
  rcases ft with ⟨low, high⟩
  unfold FileTime.quadPart ofQuadPart
  congr 1
  · apply BitVec.eq_of_getLsbD_eq
    intro position inside
    rw [BitVec.getLsbD_extractLsb', BitVec.getLsbD_append]
    simp [inside]
  · apply BitVec.eq_of_getLsbD_eq
    intro position inside
    rw [BitVec.getLsbD_extractLsb', BitVec.getLsbD_append]
    simp [inside]

/-- The halves are those of the file time if the whole is. -/
theorem ofQuadPart_eq_iff {quadPart : BitVec 64} :
    ofQuadPart quadPart = ft ↔ quadPart = ft.quadPart := by
  constructor
  · rintro rfl
    exact (quadPart_ofQuadPart quadPart).symm
  · rintro rfl
    exact ofQuadPart_quadPart ft

/-! ## To nanoseconds and back -/

theorem distance_eq (ft : FileTime) :
    ft.distance = ((ft.quadPart.toNat : Int) - 116444736000000000) * 100 := by
  unfold FileTime.distance epochDiff tickNs
  simp only [BitVec.toNat_ofNat, Nat.reducePow, Nat.reduceMod,
    Nat.cast_ofNat]

theorem recent_iff :
    ft.Recent ↔ 116444736000000000 ≤ ft.quadPart.toNat := by
  unfold FileTime.Recent epochDiff
  simp only [BitVec.toNat_ofNat, Nat.reducePow, Nat.reduceMod]

/-- On both sides of 1970 the nanoseconds are the distance. -/
theorem filetimeToUnix_eq (fits : ft.Representable) :
    filetimeToUnix ft = ft.distance := by
  have bound := ft.quadPart.isLt
  unfold FileTime.Representable at fits
  rw [distance_eq] at fits ⊢
  unfold filetimeToUnix epochDiff tickNs
  rw [BitVec.toInt_eq_toNat_cond, BitVec.toNat_mul, BitVec.toNat_sub]
  simp only [BitVec.toNat_ofNat, Nat.reducePow, Nat.reduceMod]
  generalize ft.quadPart.toNat = quad at *
  split_ifs <;> omega

/-- The ticks of an unsigned quotient. -/
theorem toNat_unixToFiletime (ns : Int) :
    (unixToFiletime ns).quadPart.toNat =
      ((ns % (2 ^ 64 : Nat)).toNat / 100 + 116444736000000000) % 2 ^ 64 := by
  unfold unixToFiletime epochDiff tickNs
  rw [quadPart_ofQuadPart, BitVec.toNat_add, BitVec.toNat_udiv,
    BitVec.toNat_ofInt]
  simp only [BitVec.toNat_ofNat, Nat.reducePow, Nat.reduceMod]

/-- A product that is not negative is divided as it is. -/
theorem wrapped_div_of_nonneg {modulus divisor factor : Nat}
    (positive : 0 < divisor) (fits : factor * divisor < modulus) :
    (((factor : Int) * divisor) % modulus).toNat / divisor = factor := by
  have same : ((factor : Int) * divisor) % modulus =
      ((factor * divisor : Nat) : Int) := by
    rw [← Nat.cast_mul]
    exact Int.emod_eq_of_lt (Int.natCast_nonneg _) (Int.ofNat_lt.mpr fits)
  rw [same, Int.toNat_natCast, Nat.mul_div_cancel _ positive]

/-- A negative product is divided as a number below the modulus. -/
theorem wrapped_div_of_neg {modulus divisor factor : Nat}
    (positive : 0 < factor * divisor) (fits : factor * divisor ≤ modulus) :
    ((-(factor : Int) * divisor) % modulus).toNat / divisor =
      modulus / divisor - factor := by
  have same : (-(factor : Int) * divisor) % modulus =
      ((modulus - divisor * factor : Nat) : Int) := by
    rw [Nat.mul_comm divisor, Nat.cast_sub fits, Nat.cast_mul,
      Int.neg_mul, ← Int.add_emod_right, Int.add_comm, ← Int.sub_eq_add_neg,
      ← Nat.cast_mul]
    exact Int.emod_eq_of_lt (by omega) (by omega)
  rw [same, Int.toNat_natCast, Nat.sub_mul_div]

/-- From 1970 on the division undoes the multiplication. -/
theorem unixToFiletime_of_recent (fits : ft.Representable)
    (recent : ft.Recent) : unixToFiletime ft.distance = ft := by
  rw [recent_iff] at recent
  rcases Nat.exists_eq_add_of_le recent with ⟨ticks, quad⟩
  have distance : ft.distance = (ticks : Int) * (100 : Nat) := by
    rw [distance_eq, quad]
    omega
  have range : ticks * 100 < 2 ^ 63 := by
    have upper := fits.2
    rw [distance] at upper
    omega
  have bound := ft.quadPart.isLt
  rw [← ofQuadPart_quadPart (unixToFiletime ft.distance)]
  apply ofQuadPart_eq_iff.mpr
  apply BitVec.eq_of_toNat_eq
  rw [toNat_unixToFiletime, distance,
    wrapped_div_of_nonneg (by decide) (by omega), Nat.add_comm, ← quad,
    Nat.mod_eq_of_lt bound]

/--
Before 1970 the result is later by the hundredth part of `2 ^ 64`, rounded
down: by 584 years.
-/
theorem unixToFiletime_of_not_recent (fits : ft.Representable)
    (early : ¬ ft.Recent) :
    (unixToFiletime ft.distance).quadPart.toNat =
      ft.quadPart.toNat + 2 ^ 64 / 100 := by
  rw [recent_iff, Nat.not_le] at early
  rcases Nat.exists_eq_add_of_lt early with ⟨rest, quad⟩
  have distance : ft.distance = -((rest + 1 : Nat) : Int) * (100 : Nat) := by
    rw [distance_eq]
    omega
  have range : (rest + 1) * 100 ≤ 2 ^ 63 := by
    have lower := fits.1
    rw [distance] at lower
    omega
  rw [toNat_unixToFiletime, distance,
    wrapped_div_of_neg (by omega) (by omega)]
  omega

/--
A file time whose distance from 1970 is a `long long` comes back from the
conversion to nanoseconds exactly when it is not before 1970.
-/
theorem unixToFiletime_filetimeToUnix_iff (ft : FileTime)
    (fits : ft.Representable) :
    unixToFiletime (filetimeToUnix ft) = ft ↔ ft.Recent := by
  rw [filetimeToUnix_eq fits]
  constructor
  · intro back
    by_contra early
    have later := unixToFiletime_of_not_recent fits early
    rw [back] at later
    omega
  · exact unixToFiletime_of_recent fits

/-- The last tick of 1969. -/
def lastTick : FileTime := ofQuadPart (epochDiff - 1)

theorem unixToFiletime_filetimeToUnix_lastTick :
    unixToFiletime (filetimeToUnix lastTick) = lastTick ↔
      lastTick.Recent :=
  unixToFiletime_filetimeToUnix_iff lastTick
    ⟨by decide +kernel, by decide +kernel⟩

/-- One tick before 1970 is -100 nanoseconds, and comes back elsewhere. -/
theorem unixToFiletime_lastTick :
    lastTick.Representable ∧ filetimeToUnix lastTick = -100 ∧
      (unixToFiletime (filetimeToUnix lastTick)).quadPart.toNat =
        300912176737095515 ∧
      unixToFiletime (filetimeToUnix lastTick) ≠ lastTick := by
  refine ⟨⟨?_, ?_⟩, ?_, ?_, ?_⟩ <;> decide +kernel

end Libcute.Core.Time
