import Mathlib.Data.List.Pairwise
import Mathlib.Data.List.Perm.Basic
import Mathlib.Order.Nat

/-!
# Regions filled by a moving top

A bump allocator fills a region from its base and keeps one number for it,
the top.  Every block remembers the top it was placed on, its *mark*, so that
releasing the topmost block can put the top back.  Blocks that are released
in another order are only forgotten.

`Stacked` is the invariant behind this discipline for any number of regions.
Its heart is `apart`: of two blocks, one ends at or below the mark of the
other.  It is stronger than disjointness of the blocks, and it is what makes
a later `rewind` to a stored mark safe, whatever happened in between.

`Unwinds` is the sharper invariant of a client that only ever touches its
newest block: then every release restores the tops exactly.
-/

namespace Libcute.Library.BumpRegions

variable {Region Block : Type}

/-- The address data of a block: its region, its mark and its extent. -/
structure Placement (Region Block : Type) where
  home : Block → Region
  mark : Block → Nat
  start : Block → Nat
  finish : Block → Nat

/--
The blocks lie between the base and the top of their region, with `header`
bytes between the mark and the start of each, and of two blocks one ends
before the mark of the other.
-/
structure Stacked
    (placement : Placement Region Block) (header : Nat)
    (base top : Region → Nat) (blocks : List Block) : Prop where
  base_le_mark : ∀ block ∈ blocks,
    base (placement.home block) ≤ placement.mark block
  header_fits : ∀ block ∈ blocks,
    placement.mark block + header ≤ placement.start block
  start_le_finish : ∀ block ∈ blocks,
    placement.start block ≤ placement.finish block
  finish_le_top : ∀ block ∈ blocks,
    placement.finish block ≤ top (placement.home block)
  apart : blocks.Pairwise fun left right =>
    placement.finish left ≤ placement.mark right ∨
      placement.finish right ≤ placement.mark left

namespace Stacked

variable
  {placement placement' : Placement Region Block} {header : Nat}
  {base top top' : Region → Nat} {blocks : List Block} {block : Block}

theorem nil (placement : Placement Region Block) (header : Nat)
    (base top : Region → Nat) :
    Stacked placement header base top [] where
  base_le_mark := by simp
  header_fits := by simp
  start_le_finish := by simp
  finish_le_top := by simp
  apart := List.Pairwise.nil

/-- The invariant only reads the placement of the blocks it speaks about. -/
theorem congr
    (stacked : Stacked placement header base top blocks)
    (home : ∀ block ∈ blocks,
      placement'.home block = placement.home block)
    (mark : ∀ block ∈ blocks,
      placement'.mark block = placement.mark block)
    (start : ∀ block ∈ blocks,
      placement'.start block = placement.start block)
    (finish : ∀ block ∈ blocks,
      placement'.finish block = placement.finish block) :
    Stacked placement' header base top blocks where
  base_le_mark := by
    intro block member
    rw [home block member, mark block member]
    exact stacked.base_le_mark block member
  header_fits := by
    intro block member
    rw [mark block member, start block member]
    exact stacked.header_fits block member
  start_le_finish := by
    intro block member
    rw [start block member, finish block member]
    exact stacked.start_le_finish block member
  finish_le_top := by
    intro block member
    rw [home block member, finish block member]
    exact stacked.finish_le_top block member
  apart := by
    refine stacked.apart.imp_of_mem ?_
    intro left right leftMember rightMember separated
    rwa [finish left leftMember, finish right rightMember,
      mark left leftMember, mark right rightMember]

/-- The tops may move as long as they stay above the blocks. -/
theorem retop
    (stacked : Stacked placement header base top blocks)
    (below : ∀ block ∈ blocks,
      placement.finish block ≤ top' (placement.home block)) :
    Stacked placement header base top' blocks :=
  { stacked with finish_le_top := below }

/-- Forgetting blocks keeps the invariant. -/
theorem sublist
    (stacked : Stacked placement header base top blocks)
    {fewer : List Block} (included : fewer.Sublist blocks) :
    Stacked placement header base top fewer where
  base_le_mark := fun block member =>
    stacked.base_le_mark block (included.subset member)
  header_fits := fun block member =>
    stacked.header_fits block (included.subset member)
  start_le_finish := fun block member =>
    stacked.start_le_finish block (included.subset member)
  finish_le_top := fun block member =>
    stacked.finish_le_top block (included.subset member)
  apart := stacked.apart.sublist included

theorem perm
    (stacked : Stacked placement header base top blocks)
    {others : List Block} (same : blocks.Perm others) :
    Stacked placement header base top others where
  base_le_mark := fun block member =>
    stacked.base_le_mark block (same.mem_iff.mpr member)
  header_fits := fun block member =>
    stacked.header_fits block (same.mem_iff.mpr member)
  start_le_finish := fun block member =>
    stacked.start_le_finish block (same.mem_iff.mpr member)
  finish_le_top := fun block member =>
    stacked.finish_le_top block (same.mem_iff.mpr member)
  apart :=
    (same.pairwise_iff fun separated => Or.symm separated).mp stacked.apart

/-- The separation of two blocks that both are there. -/
theorem apart_of_ne
    (stacked : Stacked placement header base top blocks)
    {left right : Block}
    (leftMember : left ∈ blocks) (rightMember : right ∈ blocks)
    (different : left ≠ right) :
    placement.finish left ≤ placement.mark right ∨
      placement.finish right ≤ placement.mark left := by
  have symmetric : Std.Symm fun left right =>
      placement.finish left ≤ placement.mark right ∨
        placement.finish right ≤ placement.mark left :=
    ⟨fun _ _ => Or.symm⟩
  exact stacked.apart.forall leftMember rightMember different

/--
Place a new block on the top of its region and raise the top to its end.
The blocks of other regions have to stay clear of the new one.
-/
theorem push
    (stacked : Stacked placement header base top blocks)
    (base_le : base (placement.home block) ≤ top (placement.home block))
    (mark : placement.mark block = top (placement.home block))
    (header_fits :
      placement.mark block + header ≤ placement.start block)
    (start_le : placement.start block ≤ placement.finish block)
    (topHome : top' (placement.home block) = placement.finish block)
    (topElsewhere : ∀ region,
      region ≠ placement.home block → top' region = top region)
    (clear : ∀ other ∈ blocks,
      placement.home other ≠ placement.home block →
        placement.finish other ≤ placement.mark block ∨
          placement.finish block ≤ placement.mark other) :
    Stacked placement header base top' (block :: blocks) := by
  have below : ∀ other ∈ blocks,
      placement.finish other ≤ top' (placement.home other) := by
    intro other member
    have old := stacked.finish_le_top other member
    by_cases same : placement.home other = placement.home block
    · rw [same] at old ⊢
      omega
    · rw [topElsewhere _ same]
      exact old
  constructor
  · intro other member
    rcases List.mem_cons.mp member with rfl | member
    · omega
    · exact stacked.base_le_mark other member
  · intro other member
    rcases List.mem_cons.mp member with rfl | member
    · exact header_fits
    · exact stacked.header_fits other member
  · intro other member
    rcases List.mem_cons.mp member with rfl | member
    · exact start_le
    · exact stacked.start_le_finish other member
  · intro other member
    rcases List.mem_cons.mp member with rfl | member
    · exact topHome.ge
    · exact below other member
  · refine List.pairwise_cons.mpr ⟨?_, stacked.apart⟩
    intro other member
    by_cases same : placement.home other = placement.home block
    · right
      have old := stacked.finish_le_top other member
      rw [same] at old
      omega
    · exact (clear other member same).symm

/--
A block that ends at the top of its region has every other block of the
region below its mark.
-/
theorem finish_le_mark_of_topmost
    (stacked : Stacked placement header base top (block :: blocks))
    (positive : 0 < header)
    (topmost : placement.finish block = top (placement.home block))
    {other : Block} (member : other ∈ blocks)
    (same : placement.home other = placement.home block) :
    placement.finish other ≤ placement.mark block := by
  rcases List.rel_of_pairwise_cons stacked.apart member with
    above | below
  · have inBlocks : other ∈ block :: blocks :=
      List.mem_cons_of_mem block member
    have fits := stacked.header_fits other inBlocks
    have extent := stacked.start_le_finish other inBlocks
    have bound := stacked.finish_le_top other inBlocks
    rw [same] at bound
    omega
  · exact below

/-- Releasing the topmost block may put the top back to its mark. -/
theorem rewind
    (stacked : Stacked placement header base top (block :: blocks))
    (positive : 0 < header)
    (topmost : placement.finish block = top (placement.home block))
    (topHome : top' (placement.home block) = placement.mark block)
    (topElsewhere : ∀ region,
      region ≠ placement.home block → top' region = top region) :
    Stacked placement header base top' blocks := by
  refine (stacked.sublist (List.sublist_cons_self _ _)).retop ?_
  intro other member
  by_cases same : placement.home other = placement.home block
  · rw [same, topHome]
    exact stacked.finish_le_mark_of_topmost positive topmost member same
  · rw [topElsewhere _ same]
    exact stacked.finish_le_top other (List.mem_cons_of_mem _ member)

/--
The topmost block may be given a new end, and the top moves with it.  The
resized block may be a different name for the same place.
-/
theorem resizeTop
    {resized : Block}
    (stacked : Stacked placement header base top (block :: blocks))
    (positive : 0 < header)
    (topmost : placement.finish block = top (placement.home block))
    (home : placement.home resized = placement.home block)
    (mark : placement.mark resized = placement.mark block)
    (start : placement.start resized = placement.start block)
    (start_le : placement.start resized ≤ placement.finish resized)
    (topHome : top' (placement.home block) = placement.finish resized)
    (topElsewhere : ∀ region,
      region ≠ placement.home block → top' region = top region)
    (clear : ∀ other ∈ blocks,
      placement.home other ≠ placement.home block →
        placement.finish other ≤ placement.mark block ∨
          placement.finish resized ≤ placement.mark other) :
    Stacked placement header base top' (resized :: blocks) := by
  have inBlocks : block ∈ block :: blocks := List.mem_cons_self
  have rewound :
      Stacked placement header base
        (fun region =>
          open Classical in
          if region = placement.home block then
            placement.mark block
          else
            top region)
        blocks := by
    refine stacked.rewind positive topmost ?_ ?_
    · simp
    · intro region different
      simp [different]
  have fits := stacked.header_fits block inBlocks
  have low := stacked.base_le_mark block inBlocks
  apply rewound.push
  · simp [home, low]
  · simp [home, mark]
  · omega
  · exact start_le
  · rw [home]
    exact topHome
  · intro region different
    rw [home] at different
    simp [different, topElsewhere region different]
  · intro other member different
    rw [home] at different
    rw [mark]
    exact clear other member different

/-- Any block may give up a part at its end. -/
theorem shorten
    {resized : Block}
    (stacked : Stacked placement header base top (block :: blocks))
    (home : placement.home resized = placement.home block)
    (mark : placement.mark resized = placement.mark block)
    (start : placement.start resized = placement.start block)
    (start_le : placement.start resized ≤ placement.finish resized)
    (shorter : placement.finish resized ≤ placement.finish block) :
    Stacked placement header base top (resized :: blocks) := by
  have inBlocks : block ∈ block :: blocks := List.mem_cons_self
  have tail := stacked.sublist (List.sublist_cons_self _ _)
  constructor
  · intro other member
    rcases List.mem_cons.mp member with rfl | member
    · rw [home, mark]
      exact stacked.base_le_mark block inBlocks
    · exact tail.base_le_mark other member
  · intro other member
    rcases List.mem_cons.mp member with rfl | member
    · rw [mark, start]
      exact stacked.header_fits block inBlocks
    · exact tail.header_fits other member
  · intro other member
    rcases List.mem_cons.mp member with rfl | member
    · exact start_le
    · exact tail.start_le_finish other member
  · intro other member
    rcases List.mem_cons.mp member with rfl | member
    · rw [home]
      exact shorter.trans (stacked.finish_le_top block inBlocks)
    · exact tail.finish_le_top other member
  · refine List.pairwise_cons.mpr ⟨?_, tail.apart⟩
    intro other member
    rcases List.rel_of_pairwise_cons stacked.apart member with
      below | above
    · exact Or.inl (shorter.trans below)
    · right
      rw [mark]
      exact above

end Stacked

/-! ## Last in, first out -/

/--
The blocks, the newest first, and for each the tops before it was placed.
Taking the newest block away leads back to these tops, and so on down to the
bases of the regions.
-/
inductive Unwinds
    (placement : Placement Region Block) (base : Region → Nat) :
    (Region → Nat) → List Block → List (Region → Nat) → Prop
  | empty : Unwinds placement base base [] []
  | placed {top before : Region → Nat} {block : Block}
      {blocks : List Block} {earlier : List (Region → Nat)}
      (mark : placement.mark block = before (placement.home block))
      (finish : placement.finish block = top (placement.home block))
      (elsewhere : ∀ region,
        region ≠ placement.home block → top region = before region)
      (below : Unwinds placement base before blocks earlier) :
      Unwinds placement base top (block :: blocks) (before :: earlier)

namespace Unwinds

variable {placement placement' : Placement Region Block}
  {base top top' before : Region → Nat} {block : Block}
  {blocks : List Block} {earlier : List (Region → Nat)}

/-- Only the placement of the blocks themselves is read. -/
theorem congr
    (unwinds : Unwinds placement base top blocks earlier)
    (home : ∀ block ∈ blocks,
      placement'.home block = placement.home block)
    (mark : ∀ block ∈ blocks,
      placement'.mark block = placement.mark block)
    (finish : ∀ block ∈ blocks,
      placement'.finish block = placement.finish block) :
    Unwinds placement' base top blocks earlier := by
  induction unwinds with
  | empty => exact .empty
  | placed marked ends elsewhere below induction =>
      refine .placed ?_ ?_ ?_ (induction ?_ ?_ ?_)
      · rw [home _ List.mem_cons_self, mark _ List.mem_cons_self]
        exact marked
      · rw [home _ List.mem_cons_self, finish _ List.mem_cons_self]
        exact ends
      · rw [home _ List.mem_cons_self]
        exact elsewhere
      · exact fun other member =>
          home other (List.mem_cons_of_mem _ member)
      · exact fun other member =>
          mark other (List.mem_cons_of_mem _ member)
      · exact fun other member =>
          finish other (List.mem_cons_of_mem _ member)

/-- The newest block ends at the top of its region. -/
theorem topmost
    (unwinds : Unwinds placement base top (block :: blocks) earlier) :
    placement.finish block = top (placement.home block) := by
  cases unwinds with
  | placed mark finish elsewhere below => exact finish

/-- The tops before the newest block are written down. -/
theorem written
    (unwinds : Unwinds placement base top (block :: blocks) earlier) :
    ∃ before older, earlier = before :: older := by
  cases unwinds with
  | placed mark finish elsewhere below => exact ⟨_, _, rfl⟩

/-- Taking the newest block away leads to the tops before it. -/
theorem pop
    (unwinds : Unwinds placement base top (block :: blocks)
      (before :: earlier))
    (topHome : top' (placement.home block) = placement.mark block)
    (topElsewhere : ∀ region,
      region ≠ placement.home block → top' region = top region) :
    top' = before ∧ Unwinds placement base before blocks earlier := by
  cases unwinds with
  | placed mark finish elsewhere below =>
      refine ⟨funext fun region => ?_, below⟩
      by_cases same : region = placement.home block
      · rw [same, topHome, mark]
      · rw [topElsewhere region same, elsewhere region same]

/-- The newest block gets another end. -/
theorem resize
    {other : Block}
    (unwinds : Unwinds placement base top (block :: blocks)
      (before :: earlier))
    (home : placement.home other = placement.home block)
    (mark : placement.mark other = placement.mark block)
    (finish : placement.finish other = top' (placement.home block))
    (topElsewhere : ∀ region,
      region ≠ placement.home block → top' region = top region) :
    Unwinds placement base top' (other :: blocks) (before :: earlier) := by
  cases unwinds with
  | placed marked ends elsewhere below =>
      refine .placed ?_ ?_ ?_ below
      · rw [mark, home, marked]
      · rw [home, finish]
      · intro region different
        rw [home] at different
        rw [topElsewhere region different, elsewhere region different]

/-- The newest block moves to the top of another region. -/
theorem move
    {other : Block}
    (unwinds : Unwinds placement base top (block :: blocks)
      (before :: earlier))
    (apart : placement.home other ≠ placement.home block)
    (mark : placement.mark other = top (placement.home other))
    (finish : placement.finish other = top' (placement.home other))
    (topHome : top' (placement.home block) = placement.mark block)
    (topElsewhere : ∀ region, region ≠ placement.home other →
      region ≠ placement.home block → top' region = top region) :
    Unwinds placement base top' (other :: blocks) (before :: earlier) := by
  cases unwinds with
  | placed marked ends elsewhere below =>
      refine .placed ?_ finish ?_ below
      · rw [mark, elsewhere _ apart]
      · intro region different
        by_cases same : region = placement.home block
        · rw [same, topHome, marked]
        · rw [topElsewhere region different same, elsewhere region same]

/-- Without blocks the tops are at the bases. -/
theorem eq_base
    (unwinds : Unwinds placement base top [] earlier) : top = base := by
  cases unwinds with
  | empty => rfl

end Unwinds

end Libcute.Library.BumpRegions
