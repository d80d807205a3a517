import Libcute.Library.ByteMemory

/-!
# Memory that is divided among owners

Memory is granted in areas, and every part of it that matters has an owner: a
block that is in use, a slot that is free, or the rest of an area.  A
`Division` says which owners there are and which region each of them has.

`Divides` is the invariant: the regions do not overlap and lie inside the
areas.  The rules say when it is kept: owners may disappear, one owner may
hand its region on to others in parts, and a new area may get an owner.
-/

namespace Libcute.Library.DividedMemory

open Libcute.Library.ByteMemory

variable {Owner : Type}

/-- A range of addresses. -/
structure Region where
  start : Nat
  size : Nat
deriving DecidableEq

/-- The first region is a part of the second one. -/
def Region.Within (inner outer : Region) : Prop :=
  outer.start ≤ inner.start ∧
    inner.start + inner.size ≤ outer.start + outer.size

/-- The regions share no address. -/
def Region.Apart (left right : Region) : Prop :=
  ByteMemory.Apart left.start left.size right.start right.size

theorem Region.Within.refl (region : Region) : region.Within region :=
  ⟨Nat.le_refl _, Nat.le_refl _⟩

theorem Region.Within.trans {inner middle outer : Region}
    (first : inner.Within middle) (second : middle.Within outer) :
    inner.Within outer :=
  ⟨second.1.trans first.1, first.2.trans second.2⟩

theorem Region.Apart.symm {left right : Region} (apart : left.Apart right) :
    right.Apart left :=
  ByteMemory.Apart.symm apart

/-- Parts of regions that are apart are apart. -/
theorem Region.Apart.within {left right inner other : Region}
    (apart : left.Apart right) (first : inner.Within left)
    (second : other.Within right) : inner.Apart other :=
  ByteMemory.Apart.inside apart first.1 first.2 second.1 second.2

/-- The owners and their regions. -/
structure Division (Owner : Type) where
  present : Owner → Prop
  region : Owner → Region

/-- The regions of the owners are apart and inside the granted areas. -/
structure Divides (areas : List Region) (division : Division Owner) :
    Prop where
  apart : ∀ left right, division.present left → division.present right →
    left ≠ right → (division.region left).Apart (division.region right)
  inside : ∀ owner, division.present owner →
    ∃ area ∈ areas, (division.region owner).Within area

namespace Divides

variable {areas : List Region} {division division' : Division Owner}

/-- Owners may disappear. -/
theorem fewer
    (divides : Divides areas division)
    (kept : ∀ owner, division'.present owner →
      division.present owner ∧
        division'.region owner = division.region owner) :
    Divides areas division' where
  apart := by
    intro left right leftPresent rightPresent different
    rcases kept left leftPresent with ⟨leftOld, leftSame⟩
    rcases kept right rightPresent with ⟨rightOld, rightSame⟩
    rw [leftSame, rightSame]
    exact divides.apart left right leftOld rightOld different
  inside := by
    intro owner present
    rcases kept owner present with ⟨old, same⟩
    rw [same]
    exact divides.inside owner old

/--
One owner hands its region on: what has changed are its parts, which are
apart, and it is no other owner's region that has changed.
-/
theorem split {parent : Owner} {Changed : Owner → Prop}
    (divides : Divides areas division)
    (owns : division.present parent)
    (kept : ∀ owner, division'.present owner → ¬ Changed owner →
      division.present owner ∧ owner ≠ parent ∧
        division'.region owner = division.region owner)
    (within : ∀ owner, division'.present owner → Changed owner →
      (division'.region owner).Within (division.region parent))
    (apart : ∀ left right, division'.present left →
      division'.present right → Changed left → Changed right →
        left ≠ right →
          (division'.region left).Apart (division'.region right)) :
    Divides areas division' where
  apart := by
    intro left right leftPresent rightPresent different
    by_cases leftNew : Changed left
    · by_cases rightNew : Changed right
      · exact apart left right leftPresent rightPresent leftNew rightNew
          different
      · rcases kept right rightPresent rightNew with ⟨old, other, same⟩
        rw [same]
        exact (divides.apart parent right owns old other.symm).within
          (within left leftPresent leftNew) (.refl _)
    · rcases kept left leftPresent leftNew with ⟨old, other, same⟩
      rw [same]
      by_cases rightNew : Changed right
      · exact (divides.apart left parent old owns other).within (.refl _)
          (within right rightPresent rightNew)
      · rcases kept right rightPresent rightNew with ⟨old', _, same'⟩
        rw [same']
        exact divides.apart left right old old' different
  inside := by
    intro owner present
    by_cases new : Changed owner
    · rcases divides.inside parent owns with ⟨area, member, inArea⟩
      exact ⟨area, member, (within owner present new).trans inArea⟩
    · rcases kept owner present new with ⟨old, _, same⟩
      rw [same]
      exact divides.inside owner old

/-- A new area gets an owner. -/
theorem grant {new : Owner} {area : Region}
    (divides : Divides areas division)
    (fresh : ∀ other ∈ areas, area.Apart other)
    (region : division'.region new = area)
    (kept : ∀ owner, division'.present owner → owner ≠ new →
      division.present owner ∧
        division'.region owner = division.region owner) :
    Divides (area :: areas) division' where
  apart := by
    have away (owner : Owner) (present : division'.present owner)
        (different : owner ≠ new) :
        area.Apart (division'.region owner) := by
      rcases kept owner present different with ⟨old, same⟩
      rcases divides.inside owner old with ⟨other, member, inOther⟩
      rw [same]
      exact (fresh other member).within (.refl _) inOther
    intro left right leftPresent rightPresent different
    by_cases leftNew : left = new
    · subst leftNew
      rw [region]
      exact away right rightPresent different.symm
    · by_cases rightNew : right = new
      · subst rightNew
        rw [region]
        exact (away left leftPresent leftNew).symm
      · rcases kept left leftPresent leftNew with ⟨leftOld, leftSame⟩
        rcases kept right rightPresent rightNew with ⟨rightOld, rightSame⟩
        rw [leftSame, rightSame]
        exact divides.apart left right leftOld rightOld different
  inside := by
    intro owner present
    by_cases isNew : owner = new
    · subst isNew
      exact ⟨area, List.mem_cons_self, region ▸ .refl _⟩
    · rcases kept owner present isNew with ⟨old, same⟩
      rcases divides.inside owner old with ⟨other, member, inOther⟩
      exact ⟨other, List.mem_cons_of_mem _ member, same ▸ inOther⟩

end Divides

/-! ## Changes that stay inside a region -/

/-- The memories differ at most inside the region. -/
def Confined (before after : Memory) (region : Region) : Prop :=
  ∀ address, (address < region.start ∨
    region.start + region.size ≤ address) → after address = before address

namespace Confined

variable {before middle after : Memory} {region other : Region}

theorem refl (memory : Memory) (region : Region) :
    Confined memory memory region :=
  fun _ _ => rfl

theorem trans (first : Confined before middle region)
    (second : Confined middle after region) :
    Confined before after region :=
  fun address outside =>
    (second address outside).trans (first address outside)

theorem widen (confined : Confined before after region)
    (within : region.Within other) : Confined before after other := by
  intro address outside
  apply confined
  unfold Region.Within at within
  omega

/-- A region that is apart keeps its bytes. -/
theorem sameBytes (confined : Confined before after region)
    {start size : Nat} (apart : region.Apart ⟨start, size⟩) :
    SameBytes before after start size := by
  intro offset inside
  apply confined
  unfold Region.Apart ByteMemory.Apart at apart
  dsimp only at apart
  omega

theorem storeBytes (memory : Memory) (address value count : Nat) :
    Confined memory (storeBytes memory address value count)
      ⟨address, count⟩ := by
  intro other outside
  have unwritten : ¬ (address ≤ other ∧ other < address + count) := by
    dsimp only at outside
    omega
  simp [ByteMemory.storeBytes, unwritten]

theorem blit (memory : Memory) (target source length : Nat) :
    Confined memory (blit memory target source length) ⟨target, length⟩ := by
  intro other outside
  have unwritten : ¬ (target ≤ other ∧ other < target + length) := by
    dsimp only at outside
    omega
  simp [ByteMemory.blit, unwritten]

theorem overwrite (memory content : Memory) (target length : Nat) :
    Confined memory (overwrite memory target length content)
      ⟨target, length⟩ := by
  intro other outside
  have unwritten : ¬ (target ≤ other ∧ other < target + length) := by
    dsimp only at outside
    omega
  simp [ByteMemory.overwrite, unwritten]

end Confined

end Libcute.Library.DividedMemory
