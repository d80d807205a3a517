import Mathlib.Data.Finset.Basic
import Mathlib.Data.List.Pairwise
import Mathlib.Data.List.Perm.Basic

/-!
# Slots owned by blocks

An allocator that hands out parts of larger areas keeps, for every area, the
set of occupied slots, usually as a bitmap.  It is right when the occupied
slots of an area are exactly the slots of the blocks that live there and no
slot has two owners.

`Exact` is this invariant.  The rules say how the occupied sets have to
change when a block takes slots, gives them up, or keeps some of them.
-/

namespace Libcute.Library.SlotOwnership

variable {Home Block Slot : Type} [DecidableEq Slot]

/-- The area of a block and the slots it takes there. -/
structure Ownership (Home Block Slot : Type) where
  home : Block → Home
  slots : Block → Finset Slot

/-- The occupied slots are those of the blocks, each with one owner. -/
structure Exact
    (owner : Ownership Home Block Slot)
    (occupied : Home → Finset Slot) (blocks : List Block) : Prop where
  mem_iff : ∀ home slot,
    slot ∈ occupied home ↔
      ∃ block ∈ blocks, owner.home block = home ∧ slot ∈ owner.slots block
  apart : blocks.Pairwise fun left right =>
    owner.home left = owner.home right →
      Disjoint (owner.slots left) (owner.slots right)

namespace Exact

variable
  {owner owner' : Ownership Home Block Slot}
  {occupied occupied' : Home → Finset Slot}
  {blocks : List Block} {block : Block}

omit [DecidableEq Slot] in
/-- Without blocks nothing is occupied. -/
theorem nil (owner : Ownership Home Block Slot)
    (vacant : ∀ home, occupied home = ∅) :
    Exact owner occupied [] where
  mem_iff := by simp [vacant]
  apart := List.Pairwise.nil

omit [DecidableEq Slot] in
theorem vacant (exact : Exact owner occupied []) (home : Home) :
    occupied home = ∅ := by
  ext slot
  simp [exact.mem_iff]

omit [DecidableEq Slot] in
/-- The invariant only reads the owners of the blocks it speaks about. -/
theorem congr
    (exact : Exact owner occupied blocks)
    (home : ∀ block ∈ blocks, owner'.home block = owner.home block)
    (slots : ∀ block ∈ blocks, owner'.slots block = owner.slots block)
    (same : ∀ home, occupied' home = occupied home) :
    Exact owner' occupied' blocks where
  mem_iff := by
    intro area slot
    rw [same, exact.mem_iff]
    constructor
    · rintro ⟨block, member, inArea, takes⟩
      refine ⟨block, member, ?_, ?_⟩
      · rw [home block member]
        exact inArea
      · rw [slots block member]
        exact takes
    · rintro ⟨block, member, inArea, takes⟩
      rw [home block member] at inArea
      rw [slots block member] at takes
      exact ⟨block, member, inArea, takes⟩
  apart := by
    refine exact.apart.imp_of_mem ?_
    intro left right leftMember rightMember separated
    rwa [home left leftMember, home right rightMember,
      slots left leftMember, slots right rightMember]

omit [DecidableEq Slot] in
theorem perm
    (exact : Exact owner occupied blocks)
    {others : List Block} (same : blocks.Perm others) :
    Exact owner occupied others where
  mem_iff := by
    intro home slot
    rw [exact.mem_iff]
    constructor
    · rintro ⟨block, member, facts⟩
      exact ⟨block, same.mem_iff.mp member, facts⟩
    · rintro ⟨block, member, facts⟩
      exact ⟨block, same.mem_iff.mpr member, facts⟩
  apart := by
    refine (same.pairwise_iff ?_).mp exact.apart
    intro left right separated together
    exact (separated together.symm).symm

omit [DecidableEq Slot] in
theorem slots_subset
    (exact : Exact owner occupied blocks) (member : block ∈ blocks) :
    owner.slots block ⊆ occupied (owner.home block) := by
  intro slot takes
  exact (exact.mem_iff _ _).mpr ⟨block, member, rfl, takes⟩

omit [DecidableEq Slot] in
/-- Two different blocks of one area share no slot. -/
theorem apart_of_ne
    (exact : Exact owner occupied blocks)
    {left right : Block}
    (leftMember : left ∈ blocks) (rightMember : right ∈ blocks)
    (different : left ≠ right)
    (together : owner.home left = owner.home right) :
    Disjoint (owner.slots left) (owner.slots right) := by
  have symmetric : Std.Symm fun left right =>
      owner.home left = owner.home right →
        Disjoint (owner.slots left) (owner.slots right) :=
    ⟨fun _ _ separated together => (separated together.symm).symm⟩
  exact exact.apart.forall leftMember rightMember different together

/-- A new block takes slots that were free. -/
theorem claim
    (exact : Exact owner occupied blocks)
    (free : Disjoint (owner.slots block) (occupied (owner.home block)))
    (atHome : occupied' (owner.home block) =
      occupied (owner.home block) ∪ owner.slots block)
    (elsewhere : ∀ home,
      home ≠ owner.home block → occupied' home = occupied home) :
    Exact owner occupied' (block :: blocks) where
  mem_iff := by
    intro home slot
    by_cases here : home = owner.home block
    · subst here
      rw [atHome, Finset.mem_union, exact.mem_iff]
      constructor
      · rintro (⟨other, member, facts⟩ | takes)
        · exact ⟨other, List.mem_cons_of_mem _ member, facts⟩
        · exact ⟨block, List.mem_cons_self, rfl, takes⟩
      · rintro ⟨other, member, facts⟩
        rcases List.mem_cons.mp member with rfl | member
        · exact Or.inr facts.2
        · exact Or.inl ⟨other, member, facts⟩
    · rw [elsewhere home here, exact.mem_iff]
      constructor
      · rintro ⟨other, member, facts⟩
        exact ⟨other, List.mem_cons_of_mem _ member, facts⟩
      · rintro ⟨other, member, facts⟩
        rcases List.mem_cons.mp member with rfl | member
        · exact (here facts.1.symm).elim
        · exact ⟨other, member, facts⟩
  apart := by
    refine List.pairwise_cons.mpr ⟨?_, exact.apart⟩
    intro other member together
    apply free.mono_right
    rw [together]
    exact exact.slots_subset member

/-- A block that goes away leaves its slots free. -/
theorem release
    (exact : Exact owner occupied (block :: blocks))
    (atHome : occupied' (owner.home block) =
      occupied (owner.home block) \ owner.slots block)
    (elsewhere : ∀ home,
      home ≠ owner.home block → occupied' home = occupied home) :
    Exact owner occupied' blocks where
  mem_iff := by
    intro home slot
    by_cases here : home = owner.home block
    · subst here
      rw [atHome, Finset.mem_sdiff, exact.mem_iff]
      constructor
      · rintro ⟨⟨other, member, facts⟩, keeps⟩
        rcases List.mem_cons.mp member with rfl | member
        · exact (keeps facts.2).elim
        · exact ⟨other, member, facts⟩
      · rintro ⟨other, member, together, takes⟩
        refine
          ⟨⟨other, List.mem_cons_of_mem _ member, together, takes⟩, ?_⟩
        have separated :=
          List.rel_of_pairwise_cons exact.apart member together.symm
        exact fun taken =>
          Finset.disjoint_left.mp separated taken takes
    · rw [elsewhere home here, exact.mem_iff]
      constructor
      · rintro ⟨other, member, facts⟩
        rcases List.mem_cons.mp member with rfl | member
        · exact (here facts.1.symm).elim
        · exact ⟨other, member, facts⟩
      · rintro ⟨other, member, facts⟩
        exact ⟨other, List.mem_cons_of_mem _ member, facts⟩
  apart := (List.pairwise_cons.mp exact.apart).2

/--
A block may keep a part of its slots.  The owners are read anew, and the
block may have got another name.
-/
theorem narrow
    {kept : Block}
    (exact : Exact owner occupied (block :: blocks))
    (home : owner'.home kept = owner.home block)
    (fewer : owner'.slots kept ⊆ owner.slots block)
    (homes : ∀ other ∈ blocks, owner'.home other = owner.home other)
    (slots : ∀ other ∈ blocks, owner'.slots other = owner.slots other)
    (atHome : occupied' (owner.home block) =
      occupied (owner.home block) \
        (owner.slots block \ owner'.slots kept))
    (elsewhere : ∀ home,
      home ≠ owner.home block → occupied' home = occupied home) :
    Exact owner' occupied' (kept :: blocks) := by
  have within : owner'.slots kept ⊆ occupied (owner.home block) :=
    fewer.trans (exact.slots_subset List.mem_cons_self)
  have released :
      Exact owner
        (fun area =>
          open Classical in
          if area = owner.home block then
            occupied area \ owner.slots block
          else
            occupied area)
        blocks := by
    apply exact.release
    · simp
    · intro area different
      simp [different]
  apply (released.congr homes slots fun _ => rfl).claim
  · rw [home]
    simp only [if_true]
    exact Finset.disjoint_sdiff.mono fewer (Finset.Subset.refl _)
  · rw [home, atHome]
    simp only [if_true]
    ext slot
    simp only [Finset.mem_sdiff, Finset.mem_union]
    constructor
    · rintro ⟨occupies, notGiven⟩
      by_cases keeps : slot ∈ owner'.slots kept
      · exact Or.inr keeps
      · left
        exact ⟨occupies, fun takes => notGiven ⟨takes, keeps⟩⟩
    · rintro (⟨occupies, notTaken⟩ | keeps)
      · exact ⟨occupies, fun given => notTaken given.1⟩
      · exact ⟨within keeps, fun given => given.2 keeps⟩
  · intro area different
    rw [home] at different
    simp [different, elsewhere area different]

end Exact

end Libcute.Library.SlotOwnership
