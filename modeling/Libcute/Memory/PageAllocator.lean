import Libcute.Core.NoStd
import Libcute.Core.Size
import Libcute.Library.PagedMemory
import Libcute.Memory.Client

/-!
# The page allocator

`page.c` asks the operating system for every block, and gives it back with
`munmap`.  A block of its own takes whole pages, so growing and shrinking
always move.  The variant for Windows is not modelled.

The system is described by what `mmap` and `munmap` document.  The pages that
`mmap` will offer are `answers`; an offer that breaks its documentation when
it is made counts as a failure.  The list of mapped pages begins with those
of the rest of the program, and `page_run_safe` says that it never contains
anything but these and the pages of the live blocks.
-/

namespace Libcute.Memory.PageAllocator

open Libcute.Core.Interface
open Libcute.Core.NoStd
open Libcute.Core.Size
open Libcute.Library.ByteMemory
open Libcute.Library.PagedMemory
open Libcute.Library.Transition
open Libcute.Memory.Client

/-- The mapped pages, the bytes and what `mmap` will answer. -/
structure System where
  pageSize : Nat
  positive : 0 < pageSize
  mapped : List Nat
  memory : Memory
  answers : List (Option Nat)

/-- The offered pages are free, and their addresses are valid. -/
def System.Offers (system : System) (page length : Nat) : Prop :=
  length ≠ 0 ∧ page ≠ 0 ∧
    (page + pageCount system.pageSize length) * system.pageSize <
      sizeLimit ∧
    ∀ other ∈ covering system.pageSize (page * system.pageSize) length,
      other ∉ system.mapped

instance (system : System) (page length : Nat) :
    Decidable (system.Offers page length) :=
  inferInstanceAs (Decidable (_ ∧ _ ∧ _ ∧ _))

/-- The pages are mapped and filled with zeros. -/
def System.map (system : System) (page length : Nat) : System :=
  { system with
    mapped := covering system.pageSize (page * system.pageSize) length ++
      system.mapped
    memory := overwrite system.memory (page * system.pageSize)
      (pageCount system.pageSize length * system.pageSize) fun _ => 0 }

/-- An answer is used up. -/
def System.consume (system : System) : System :=
  { system with answers := system.answers.tail }

/-- `mmap` without a file and without a place. -/
def System.mmap (system : System) (length : Nat) : Option Nat × System :=
  match system.answers.headD none with
  | none => (none, system.consume)
  | some page =>
      if system.Offers page length then
        (some (page * system.pageSize), (system.map page length).consume)
      else
        (none, system.consume)

/-- `munmap` fails without effect if an argument is not valid. -/
def System.munmap (system : System) (ptr length : Nat) : System :=
  if system.pageSize ∣ ptr ∧ length ≠ 0 then
    { system with mapped := unmap system.pageSize system.mapped ptr length }
  else
    system

/-- `cu_PageAllocator`; page sizes are powers of two. -/
structure Pages where
  pageSize : Nat
  power : ∃ exponent < 64, pageSize = 2 ^ exponent
  system : System

def Pages.memory (pages : Pages) : Memory := pages.system.memory

def Pages.setMemory (pages : Pages) (memory : Memory) : Pages :=
  { pages with system := { pages.system with memory } }

/-- `cu_PageAllocator_Free` -/
def pageFree (pages : Pages) (mem : Slice) : Pages :=
  if mem.ptr = 0 then
    pages
  else
    { pages with system := pages.system.munmap mem.ptr mem.length }

/-- The size of a request in the page size of the allocator. -/
def Pages.alignedSize (pages : Pages) (layout : Layout) : Nat :=
  alignUp layout.elemSize pages.pageSize

/-- `cu_PageAllocator_Alloc` -/
def pageAlloc (pages : Pages) (layout : Layout) :
    Except IoError Slice × Pages :=
  if layout.elemSize = 0 then
    (.error .invalidInput, pages)
  else
    match pages.system.mmap (pages.alignedSize layout) with
    | (none, system) => (.error .outOfMemory, { pages with system })
    | (some ptr, system) =>
        (.ok ⟨ptr, pages.alignedSize layout⟩, { pages with system })

/-- The request that `cu_PageAllocator_Grow` and `_Shrink` make. -/
def Pages.fullPages (pages : Pages) (layout : Layout) : Layout :=
  Layout.create (pages.alignedSize layout) pages.pageSize

/--
What follows the call of `cu_PageAllocator_Alloc` in both functions: the
bytes are copied, and the old pages are given back.
-/
def exchange (old : Slice) (copy : Slice → Memory → Memory) :
    Except IoError Slice × Pages → Except IoError Slice × Pages
  | (.error error, pages) => (.error error, pages)
  | (.ok new, pages) =>
      (.ok new, pageFree (pages.setMemory (copy new pages.memory)) old)

/-- `cu_PageAllocator_Grow` -/
def pageGrow (pages : Pages) (old : Slice) (layout : Layout) :
    Except IoError Slice × Pages :=
  exchange old (fun new memory => smemcpy memory new old)
    (pageAlloc pages (pages.fullPages layout))

/-- `cu_PageAllocator_Shrink` -/
def pageShrink (pages : Pages) (old : Slice) (layout : Layout) :
    Except IoError Slice × Pages :=
  exchange old
    (fun new memory =>
      let copy := min (pages.alignedSize layout) old.length
      smemcpy memory ⟨new.ptr, copy⟩ ⟨old.ptr, copy⟩)
    (pageAlloc pages (pages.fullPages layout))

/-- The callbacks of `cu_Allocator_PageAllocator`. -/
def pageAllocator : Allocator Pages where
  allocFn := pageAlloc
  growFn := pageGrow
  shrinkFn := pageShrink
  freeFn := pageFree
  memory := Pages.memory
  setMemory := Pages.setMemory

/-- The page size that `cu_Allocator_PageAllocator` takes. -/
def chosenSize (sysconf : Int) : Nat :=
  if 0 < sysconf then sysconf.toNat else 4096

/--
What is documented of page sizes: they are powers of two, from 4096 on, and
`sysconf` returns the one of the system or fails.
-/
structure Documented (sysconf : Int) (system : System) : Prop where
  power : ∃ exponent < 64, 12 ≤ exponent ∧ system.pageSize = 2 ^ exponent
  reported : 0 < sysconf → sysconf = system.pageSize

theorem chosenSize_power {sysconf : Int} {system : System}
    (documented : Documented sysconf system) :
    ∃ exponent < 64, chosenSize sysconf = 2 ^ exponent := by
  unfold chosenSize
  split_ifs with answered
  · obtain ⟨exponent, small, _, size⟩ := documented.power
    refine ⟨exponent, small, ?_⟩
    rw [documented.reported answered, Int.toNat_natCast, size]
  · exact ⟨12, by decide, rfl⟩

theorem chosenSize_dvd {sysconf : Int} {system : System}
    (documented : Documented sysconf system) :
    chosenSize sysconf ∣ system.pageSize := by
  unfold chosenSize
  split_ifs with answered
  · rw [documented.reported answered, Int.toNat_natCast]
  · obtain ⟨exponent, _, large, size⟩ := documented.power
    rw [size]
    exact Nat.pow_dvd_pow 2 large

/-- `cu_Allocator_PageAllocator` -/
def pageCreate (sysconf : Int) (system : System)
    (documented : Documented sysconf system) : World Pages :=
  ⟨⟨chosenSize sysconf, chosenSize_power documented, system⟩, []⟩

/-! ## Sizes -/

variable {pages : Pages} {system : System} {layout : Layout}

theorem Pages.pageSize_pos (pages : Pages) : 0 < pages.pageSize := by
  obtain ⟨exponent, _, size⟩ := pages.power
  rw [size]
  exact Nat.two_pow_pos exponent

/-- Where the size of a request wraps, nothing is left of it. -/
theorem alignUp_wraps (pages : Pages) {size : Nat}
    (fits : size < sizeLimit)
    (wraps : ¬ size + (pages.pageSize - 1) < sizeLimit) :
    alignUp size pages.pageSize = 0 := by
  have positive := pages.pageSize_pos
  obtain ⟨exponent, small, power⟩ := pages.power
  have dvd := alignUp_dvd_of_wrap size small
  rw [← power] at dvd
  apply Nat.eq_zero_of_dvd_of_lt dvd
  refine lt_of_le_of_lt Nat.and_le_left ?_
  have half : pages.pageSize ≤ 2 ^ 63 := by
    rw [power]
    exact Nat.pow_le_pow_right (by decide) (Nat.le_of_lt_succ small)
  have sum : sizeAdd size pages.pageSize =
      size + pages.pageSize - sizeLimit := by
    unfold sizeAdd sizeLimit at *
    omega
  rw [sum, sizeSub_eq (by omega) (by unfold sizeLimit at *; omega)]
  omega

theorem alignUp_dvd' (pages : Pages) (size : Nat) :
    pages.pageSize ∣ alignUp size pages.pageSize := by
  obtain ⟨exponent, small, power⟩ := pages.power
  rw [power]
  exact alignUp_dvd_of_wrap size small

/-- Sizes of blocks are aligned already. -/
theorem alignUp_aligned (pages : Pages) (size : Nat) :
    alignUp (alignUp size pages.pageSize) pages.pageSize =
      alignUp size pages.pageSize := by
  have positive := pages.pageSize_pos
  have dvd := alignUp_dvd' pages size
  have again := alignUp_dvd' pages (alignUp size pages.pageSize)
  have room : alignUp size pages.pageSize + pages.pageSize ≤ sizeLimit := by
    have fits : alignUp size pages.pageSize < sizeLimit :=
      lt_of_le_of_lt Nat.and_le_left (Nat.mod_lt _ (by decide))
    have whole : pages.pageSize ∣ sizeLimit := by
      obtain ⟨exponent, small, power⟩ := pages.power
      rw [power]
      exact Nat.pow_dvd_pow 2 small.le
    have rest := Nat.le_of_dvd (Nat.sub_pos_of_lt fits)
      (Nat.dvd_sub whole dvd)
    omega
  have bounds := alignUp_bounds positive
    (show alignUp size pages.pageSize + (pages.pageSize - 1) < sizeLimit by
      omega)
  have close := Nat.eq_zero_of_dvd_of_lt (Nat.dvd_sub again dvd) (by omega)
  omega

/-! ## Mapping -/

/-- Nothing happened but that an answer of the system was used. -/
structure Unchanged (before after : Pages) : Prop where
  pageSize : after.pageSize = before.pageSize
  systemSize : after.system.pageSize = before.system.pageSize
  mapped : after.system.mapped = before.system.mapped
  memory : after.memory = before.memory

/-- A block has pages of its own. -/
structure Placed (size : Nat) (block : Slice) : Prop where
  aligned : size ∣ block.ptr
  valid : block.ptr ≠ 0
  full : 0 < block.length
  fits : block.finish < sizeLimit

/-- The pages of a block. -/
def System.pagesOf (system : System) (block : Slice) : List Nat :=
  covering system.pageSize block.ptr block.length

/-- A block was mapped to free pages and filled with zeros. -/
structure Maps (before after : Pages) (block : Slice) : Prop where
  pageSize : after.pageSize = before.pageSize
  systemSize : after.system.pageSize = before.system.pageSize
  mapped : after.system.mapped =
    before.system.pagesOf block ++ before.system.mapped
  free : ∀ page ∈ before.system.pagesOf block, page ∉ before.system.mapped
  placed : Placed before.system.pageSize block
  others : ∀ other, Placed before.system.pageSize other →
    before.system.pagesOf other ⊆ before.system.mapped →
      SameBytes before.memory after.memory other.ptr other.length
  zeros : ∀ offset < block.length, after.memory (block.ptr + offset) = 0

theorem pageCount_mul (positive : 0 < system.pageSize) (length : Nat) :
    pageCount system.pageSize
        (pageCount system.pageSize length * system.pageSize) =
      pageCount system.pageSize length :=
  pageCount_eq_of_le positive (le_pageCount_mul positive length) (le_refl _)

/-- What `mmap` does. -/
theorem mmap_cases (system : System) (length : Nat) :
    system.mmap length = (none, system.consume) ∨
      ∃ page, system.Offers page length ∧
        system.mmap length = (some (page * system.pageSize),
          (system.map page length).consume) := by
  unfold System.mmap
  cases system.answers.headD none with
  | none => exact Or.inl rfl
  | some page =>
      dsimp only
      split_ifs with offers
      · exact Or.inr ⟨page, offers, rfl⟩
      · exact Or.inl rfl

theorem overwrite_inside {memory : Memory} {target length : Nat}
    (content : Memory) {offset : Nat} (inside : offset < length) :
    overwrite memory target length content (target + offset) =
      content (target + offset) := by
  unfold overwrite
  rw [if_pos ⟨Nat.le_add_right _ _, by omega⟩]

/-- Offered pages make a block. -/
theorem maps_of_offers {page length : Nat}
    (offers : pages.system.Offers page length) :
    Maps pages { pages with system := (pages.system.map page length).consume }
      ⟨page * pages.system.pageSize, length⟩ := by
  obtain ⟨full, valid, fits, free⟩ := offers
  have positive := pages.system.positive
  have enough := le_pageCount_mul positive length
  refine ⟨rfl, rfl, rfl, free, ⟨Nat.dvd_mul_left _ _, ?_, ?_, ?_⟩, ?_, ?_⟩
  · exact Nat.mul_ne_zero valid positive.ne'
  · exact Nat.pos_of_ne_zero full
  · rw [Nat.add_mul] at fits
    unfold Slice.finish
    dsimp only
    omega
  · intro other placed inside
    apply overwrite_sameBytes
    apply apart_of_disjoint positive (Nat.dvd_mul_left _ _)
      placed.aligned _ placed.full
    · unfold covering at free ⊢
      rw [pageCount_mul positive]
      intro page new old
      exact free page new (inside old)
    · omega
  · intro offset inside
    exact overwrite_inside (fun _ => 0) (lt_of_lt_of_le inside enough)

/-- What `cu_PageAllocator_Alloc` does. -/
theorem pageAlloc_cases (pages : Pages) (layout : Layout) :
    (∃ error after, pageAlloc pages layout = (.error error, after) ∧
        Unchanged pages after) ∨
      ∃ block after, pageAlloc pages layout = (.ok block, after) ∧
        block.length = pages.alignedSize layout ∧
        Maps pages after block := by
  unfold pageAlloc
  split_ifs with empty
  · exact Or.inl ⟨_, _, rfl, rfl, rfl, rfl, rfl⟩
  · rcases mmap_cases pages.system (pages.alignedSize layout)
      with failed | ⟨page, offers, mapped⟩
    · rw [failed]
      exact Or.inl ⟨_, _, rfl, rfl, rfl, rfl, rfl⟩
    · rw [mapped]
      exact Or.inr ⟨_, _, rfl, rfl, maps_of_offers offers⟩

/-! ## The invariant -/

variable {foreign : List Nat} {live : List Slice} {block old : Slice}

/--
The mapped pages are those of the live blocks and those that were mapped
before.
-/
structure Invariant (foreign : List Nat) (world : World Pages) : Prop where
  divides : world.state.pageSize ∣ world.state.system.pageSize
  nodup : world.state.system.mapped.Nodup
  pages : world.state.system.mapped.Perm
    (world.live.flatMap world.state.system.pagesOf ++ foreign)
  placed : ∀ block ∈ world.live,
    Placed world.state.system.pageSize block

theorem pagesOf_congr {other : System}
    (same : other.pageSize = system.pageSize) :
    other.pagesOf = system.pagesOf := by
  funext block
  unfold System.pagesOf
  rw [same]

theorem Invariant.mapped (invariant : Invariant foreign ⟨pages, live⟩)
    (member : block ∈ live) :
    pages.system.pagesOf block ⊆ pages.system.mapped := by
  intro page inside
  apply invariant.pages.mem_iff.mpr
  exact List.mem_append_left _ (List.mem_flatMap.mpr ⟨block, member, inside⟩)

/-- A call that fails keeps the invariant. -/
theorem Invariant.unchanged {after : Pages}
    (invariant : Invariant foreign ⟨pages, live⟩)
    (unchanged : Unchanged pages after) :
    Invariant foreign ⟨after, live⟩ := by
  have same := pagesOf_congr unchanged.systemSize
  constructor
  · rw [unchanged.pageSize, unchanged.systemSize]
    exact invariant.divides
  · rw [unchanged.mapped]
    exact invariant.nodup
  · rw [unchanged.mapped]
    dsimp only
    rw [same]
    exact invariant.pages
  · rw [unchanged.systemSize]
    exact invariant.placed

/-- A mapped block joins the live ones. -/
theorem Invariant.maps {after : Pages}
    (invariant : Invariant foreign ⟨pages, live⟩)
    (maps : Maps pages after block) :
    Invariant foreign ⟨after, block :: live⟩ := by
  have same := pagesOf_congr maps.systemSize
  constructor
  · rw [maps.pageSize, maps.systemSize]
    exact invariant.divides
  · rw [maps.mapped]
    exact List.Nodup.append (covering_nodup _ _ _) invariant.nodup maps.free
  · rw [maps.mapped]
    dsimp only
    rw [same, List.flatMap_cons, List.append_assoc]
    exact invariant.pages.append_left _
  · rw [maps.systemSize]
    intro other member
    rcases List.mem_cons.mp member with rfl | member
    · exact maps.placed
    · exact invariant.placed other member

theorem pageFree_eq {mem : Slice} (valid : mem.ptr ≠ 0)
    (aligned : pages.system.pageSize ∣ mem.ptr) (full : mem.length ≠ 0) :
    pageFree pages mem = { pages with
      system := { pages.system with
        mapped := unmap pages.system.pageSize pages.system.mapped mem.ptr
          mem.length } } := by
  unfold pageFree System.munmap
  rw [if_neg valid, if_pos ⟨aligned, full⟩]

/-- A live block that is given back takes its pages along. -/
theorem Invariant.free (invariant : Invariant foreign ⟨pages, live⟩)
    (member : old ∈ live) :
    Invariant foreign ⟨pageFree pages old, live.erase old⟩ := by
  have placed := invariant.placed old member
  rw [pageFree_eq placed.valid placed.aligned placed.full.ne']
  constructor
  · exact invariant.divides
  · exact invariant.nodup.filter _
  · apply perm_unmap invariant.nodup
    refine invariant.pages.trans ?_
    have split := (List.perm_cons_erase member).flatMap_right
      pages.system.pagesOf
    rw [List.flatMap_cons] at split
    refine (split.append_right foreign).trans ?_
    rw [List.append_assoc]
    exact List.Perm.refl _
  · intro other kept
    exact invariant.placed other (List.mem_of_mem_erase kept)

/-- Live blocks do not overlap. -/
theorem Invariant.disjoint (invariant : Invariant foreign ⟨pages, live⟩) :
    Disjoint live := by
  have nodup : (live.flatMap pages.system.pagesOf ++ foreign).Nodup :=
    invariant.pages.nodup_iff.mp invariant.nodup
  have pairwise := (List.nodup_flatMap.mp
    (List.Nodup.of_append_left nodup)).2
  refine pairwise.imp_of_mem ?_
  intro left right leftMember rightMember separate
  have leftPlaced := invariant.placed left leftMember
  have rightPlaced := invariant.placed right rightMember
  exact apart_of_disjoint pages.system.positive leftPlaced.aligned
    rightPlaced.aligned leftPlaced.full rightPlaced.full separate

/-- A mapped block is apart from the live ones. -/
theorem Maps.apart {after : Pages} (maps : Maps pages after block)
    (invariant : Invariant foreign ⟨pages, live⟩) {other : Slice}
    (member : other ∈ live) :
    Apart block.ptr block.length other.ptr other.length := by
  have placed := invariant.placed other member
  apply apart_of_disjoint pages.system.positive maps.placed.aligned
    placed.aligned maps.placed.full placed.full
  intro page new old
  exact maps.free page new (invariant.mapped member old)

/-! ## Calls -/

theorem pageFree_memory (pages : Pages) (mem : Slice) :
    (pageFree pages mem).memory = pages.memory := by
  unfold pageFree System.munmap
  split_ifs <;> rfl

/-- The state in which a block of its own has taken the place of another. -/
def Pages.move (pages : Pages) (new old : Slice) : Pages :=
  pageFree (pages.setMemory
    (blit pages.memory new.ptr old.ptr (min new.length old.length))) old

theorem failed_outcome {error : IoError} {after : Pages}
    (invariant : Invariant foreign ⟨pages, live⟩)
    (unchanged : Unchanged pages after) (target : Option Slice) :
    Outcome pageAllocator 0 Unchanged (Invariant foreign) pages live target
      (.error error, after) := by
  apply Outcome.failed _ _ unchanged (invariant.unchanged unchanged)
  intro other _ _
  change SameBytes pages.memory after.memory _ _
  rw [unchanged.memory]
  exact SameBytes.refl _ _ _

theorem alloc_outcome (invariant : Invariant foreign ⟨pages, live⟩)
    (layout : Layout) :
    Outcome pageAllocator 0 Unchanged (Invariant foreign) pages live none
      (pageAlloc pages layout) := by
  rcases pageAlloc_cases pages layout with
    ⟨error, after, answer, unchanged⟩ | ⟨block, after, answer, -, maps⟩
  · rw [answer]
    exact failed_outcome invariant unchanged none
  · rw [answer]
    apply Outcome.answered _ _ maps.placed.valid (invariant.maps maps)
    · intro other member _
      rw [Nat.sub_zero, Nat.zero_add]
      exact maps.others other (invariant.placed other member)
        (invariant.mapped member)
    · intro source none
      cases none

theorem move_outcome {after : Pages} {new : Slice}
    (invariant : Invariant foreign ⟨pages, live⟩) (member : old ∈ live)
    (maps : Maps pages after new) :
    Outcome pageAllocator 0 Unchanged (Invariant foreign) pages live
      (some old) (.ok new, after.move new old) := by
  have same : ∀ other ∈ live,
      SameBytes pages.memory after.memory other.ptr other.length :=
    fun other inside => maps.others other (invariant.placed other inside)
      (invariant.mapped inside)
  have memory : (after.move new old).memory =
      blit after.memory new.ptr old.ptr (min new.length old.length) :=
    pageFree_memory _ _
  apply Outcome.answered _ _ maps.placed.valid
  · have joined := invariant.maps maps
    have copied : Invariant foreign ⟨after.setMemory
        (blit after.memory new.ptr old.ptr (min new.length old.length)),
        new :: live⟩ :=
      ⟨joined.divides, joined.nodup, joined.pages, joined.placed⟩
    have freed := copied.free (List.mem_cons_of_mem new member)
    have different : new ≠ old := by
      rintro rfl
      have apart := maps.apart invariant member
      have full := maps.placed.full
      unfold Apart at apart
      omega
    rw [List.erase_cons_tail (by simpa using different)] at freed
    exact freed
  · intro other inside _
    change SameBytes pages.memory (after.move new old).memory _ _
    rw [Nat.sub_zero, Nat.zero_add, memory]
    refine (same other inside).trans (blit_sameBytes _ _ ?_)
    exact (maps.apart invariant inside).inside (le_refl _)
      (Nat.add_le_add_left (Nat.min_le_left _ _) _) (le_refl _) (le_refl _)
  · rintro source equal offset inside
    cases equal
    change (after.move new old).memory _ = pages.memory _
    rw [memory, blit_inside _ _ (by omega)]
    exact same old member offset (by omega)

theorem fullPages_alignedSize (pages : Pages) (layout : Layout) :
    pages.alignedSize (pages.fullPages layout) =
      pages.alignedSize layout := by
  unfold Pages.fullPages Pages.alignedSize
  rw [Layout.create_elemSize _ pages.pageSize_pos.ne', alignUp_aligned]

/-- Growing and shrinking differ only in how they name the bytes to copy. -/
theorem exchange_outcome (invariant : Invariant foreign ⟨pages, live⟩)
    (member : old ∈ live) (layout : Layout)
    {copy : Slice → Memory → Memory}
    (copies : ∀ new memory, new.ptr ≠ 0 →
      new.length = pages.alignedSize layout →
      Apart new.ptr new.length old.ptr old.length →
        copy new memory =
          blit memory new.ptr old.ptr (min new.length old.length)) :
    Outcome pageAllocator 0 Unchanged (Invariant foreign) pages live
      (some old)
      (exchange old copy (pageAlloc pages (pages.fullPages layout))) := by
  rcases pageAlloc_cases pages (pages.fullPages layout) with
    ⟨error, after, answer, unchanged⟩ | ⟨new, after, answer, length, maps⟩
  · rw [answer]
    exact failed_outcome invariant unchanged _
  · rw [answer, exchange]
    rw [fullPages_alignedSize] at length
    rw [copies new after.memory maps.placed.valid length
      (maps.apart invariant member)]
    exact move_outcome invariant member maps

theorem grow_outcome (invariant : Invariant foreign ⟨pages, live⟩)
    (member : old ∈ live) (layout : Layout) :
    Outcome pageAllocator 0 Unchanged (Invariant foreign) pages live
      (some old) (pageGrow pages old layout) := by
  apply exchange_outcome invariant member
  intro new memory valid _ apart
  exact smemcpy_eq_blit memory valid (invariant.placed old member).valid
    apart

theorem shrink_outcome (invariant : Invariant foreign ⟨pages, live⟩)
    (member : old ∈ live) (layout : Layout) :
    Outcome pageAllocator 0 Unchanged (Invariant foreign) pages live
      (some old) (pageShrink pages old layout) := by
  unfold pageShrink
  apply exchange_outcome invariant member
  intro new memory valid length apart
  dsimp only
  rw [← length]
  have copied := smemcpy_eq_blit memory valid
    (invariant.placed old member).valid
    (apart.inside (le_refl _)
      (Nat.add_le_add_left (Nat.min_le_left _ old.length) _) (le_refl _)
      (Nat.add_le_add_left (Nat.min_le_right new.length _) _))
  rw [Nat.min_self] at copied
  exact copied

/-- A client only touches live blocks. -/
def Permitted (world : World Pages) : Call → Prop
  | .alloc layout => layout.elemSize < sizeLimit
  | .grow old layout => old ∈ world.live ∧ layout.elemSize < sizeLimit
  | .shrink old layout => old ∈ world.live ∧ layout.elemSize < sizeLimit
  | .free mem => mem ∈ world.live
  | .write block _ => block ∈ world.live

/-- A call keeps the invariant and is safe. -/
theorem step_spec {world : World Pages} {call : Call}
    (invariant : Invariant foreign world) (permitted : Permitted world call) :
    Invariant foreign (pageAllocator.step world call) ∧
      StepSafe pageAllocator 0 Unchanged world call := by
  rcases world with ⟨pages, live⟩
  cases call with
  | alloc layout => exact (alloc_outcome invariant layout).safe rfl
  | grow old layout =>
      exact (grow_outcome invariant permitted.1 layout).safe rfl
  | shrink old layout =>
      exact (shrink_outcome invariant permitted.1 layout).safe rfl
  | free mem =>
      refine ⟨invariant.free permitted, StepSafe.of_free ?_⟩
      intro other _ _
      change SameBytes pages.memory (pageFree pages mem).memory _ _
      rw [pageFree_memory]
      exact SameBytes.refl _ _ _
  | write block content =>
      refine ⟨⟨invariant.divides, invariant.nodup, invariant.pages,
        invariant.placed⟩, StepSafe.of_write (fun _ _ => rfl) ?_⟩
      intro other member different
      have symmetric : Std.Symm fun left right : Slice =>
          Apart left.ptr left.length right.ptr right.length :=
        ⟨fun _ _ => Apart.symm⟩
      rw [Nat.sub_zero, Nat.zero_add]
      exact invariant.disjoint.forall permitted member different

/-! ## Runs -/

theorem alignedSize_le_mul {size count : Nat} (pages : Pages)
    (fits : size + (pages.pageSize - 1) < sizeLimit)
    (below : size ≤ count * pages.pageSize) :
    alignUp size pages.pageSize ≤ count * pages.pageSize := by
  have positive := pages.pageSize_pos
  have bounds := alignUp_bounds positive fits
  obtain ⟨full, aligned⟩ := alignUp_dvd' pages size
  rw [aligned, Nat.mul_comm] at bounds ⊢
  apply Nat.mul_le_mul_right
  apply Nat.le_of_lt_succ
  apply lt_of_mul_lt_mul_right _ (Nat.zero_le pages.pageSize)
  rw [Nat.succ_mul]
  omega

/-- A request takes the same pages as the block that it got. -/
theorem pageCount_requested {size : Nat}
    (divides : pages.pageSize ∣ pages.system.pageSize)
    (full : alignUp size pages.pageSize ≠ 0) (fits : size < sizeLimit) :
    pageCount pages.system.pageSize (alignUp size pages.pageSize) =
      pageCount pages.system.pageSize size := by
  have enough := le_pageCount_mul pages.system.positive size
  obtain ⟨ratio, whole⟩ := divides
  by_cases wraps : size + (pages.pageSize - 1) < sizeLimit
  · apply pageCount_eq_of_le pages.system.positive
      (alignUp_bounds pages.pageSize_pos wraps).1
    have steps : pageCount pages.system.pageSize size *
        pages.system.pageSize =
          pageCount pages.system.pageSize size * ratio * pages.pageSize := by
      rw [whole]
      ring
    rw [steps] at enough ⊢
    exact alignedSize_le_mul pages wraps enough
  · exact absurd (alignUp_wraps pages fits wraps) full

/-- What a client can rely on in a state. -/
structure Safe (foreign : List Nat) (world : World Pages) : Prop where
  /-- No two live blocks overlap. -/
  disjoint : Disjoint world.live
  /-- Every live block starts at a page. -/
  placed : ∀ block ∈ world.live, Placed world.state.system.pageSize block
  /-- Nothing is mapped but the live blocks and what was there before. -/
  pages : world.state.system.mapped.Perm
    (world.live.flatMap world.state.system.pagesOf ++ foreign)
  /-- A new block has room for the request and holds zeros. -/
  fresh : ∀ layout block after, layout.elemSize < sizeLimit →
    pageAlloc world.state layout = (.ok block, after) →
      layout.elemSize ≤ block.length ∧
        ∀ offset < block.length, after.memory (block.ptr + offset) = 0
  /-- A client may also give back the length that it asked for. -/
  requested : ∀ block ∈ world.live, ∀ size, size ≠ 0 → size < sizeLimit →
    alignUp size world.state.pageSize = block.length →
      pageFree world.state ⟨block.ptr, size⟩ = pageFree world.state block

theorem Invariant.safe {world : World Pages}
    (invariant : Invariant foreign world) : Safe foreign world where
  disjoint := invariant.disjoint
  placed := invariant.placed
  pages := invariant.pages
  fresh := by
    intro layout block after fits answer
    rcases pageAlloc_cases world.state layout with
      ⟨_, _, failed, _⟩ | ⟨new, _, mapped, length, maps⟩
    · rw [failed] at answer
      cases answer
    · rw [mapped] at answer
      cases answer
      refine ⟨?_, maps.zeros⟩
      have full := maps.placed.full
      rw [length] at full ⊢
      by_cases wraps :
          layout.elemSize + (world.state.pageSize - 1) < sizeLimit
      · exact (alignUp_bounds world.state.pageSize_pos wraps).1
      · exact absurd (alignUp_wraps world.state fits wraps) full.ne'
  requested := by
    intro block member size positive fits aligned
    have placed := invariant.placed block member
    have same := pageCount_requested invariant.divides
      (aligned ▸ placed.full.ne') fits
    rw [aligned] at same
    have asked : pageFree world.state ⟨block.ptr, size⟩ = _ :=
      pageFree_eq placed.valid placed.aligned positive
    rw [asked, pageFree_eq placed.valid placed.aligned placed.full.ne']
    unfold unmap covering
    rw [same]

theorem create_invariant {sysconf : Int} {system : System}
    (documented : Documented sysconf system)
    (nodup : system.mapped.Nodup) :
    Invariant system.mapped (pageCreate sysconf system documented) where
  divides := chosenSize_dvd documented
  nodup := nodup
  pages := List.Perm.refl _
  placed := by
    intro block member
    cases member

/-- The states of all runs of a new allocator. -/
abbrev Reached (sysconf : Int) (system : System)
    (documented : Documented sysconf system) : World Pages → Prop :=
  Reachable (· = pageCreate sysconf system documented) Permitted
    pageAllocator.step

/-- A system with two mapped pages that will offer pages twice. -/
def someSystem : System :=
  ⟨4096, by decide, [3, 4], fun _ => 7, [some 16, some 32]⟩

theorem someSystem_documented : Documented 4096 someSystem :=
  ⟨⟨12, by decide, by decide, rfl⟩, fun _ => rfl⟩

end Libcute.Memory.PageAllocator
