import Mathlib.Data.List.Count
import Mathlib.Data.List.Induction
import Mathlib.Data.List.Nodup
import Mathlib.Data.List.Perm.Basic

/-!
# Ledgers of blocks

A component that obtains blocks and gives them back leaves a trace of events.
`Settles` reads such a trace as a ledger: only a block that is held may be
given back, and giving back the null pointer is nothing.  The blocks that are
held form a list without an order in which a block may occur again; `Fresh`
is the promise of whoever hands out the blocks, from which `Fresh.distinct`
concludes that no address is held twice.
-/

namespace Libcute.Library.Ledger

variable {Block Address : Type}

/-- What passes between a component and its allocator. -/
inductive Event (Block : Type) where
  | obtain (block : Block)
  | release (block : Option Block)
deriving DecidableEq, Repr

/-- The events lead from the blocks held before to those held afterwards. -/
inductive Settles :
    List Block → List (Event Block) → List Block → Prop where
  | done {held left : List Block} (same : held.Perm left) :
      Settles held [] left
  | obtain {held left : List Block} {block : Block}
      {events : List (Event Block)}
      (later : Settles (block :: held) events left) :
      Settles held (.obtain block :: events) left
  | null {held left : List Block} {events : List (Event Block)}
      (later : Settles held events left) :
      Settles held (.release none :: events) left
  | release {held kept left : List Block} {block : Block}
      {events : List (Event Block)}
      (owned : held.Perm (block :: kept))
      (later : Settles kept events left) :
      Settles held (.release (some block) :: events) left

variable {held held' left left' middle : List Block} {block : Block}
  {events first second : List (Event Block)}

/-! ## Composition -/

theorem Settles.from_perm
    (settles : Settles held events left) (same : held'.Perm held) :
    Settles held' events left := by
  induction settles generalizing held' with
  | done perm => exact .done (same.trans perm)
  | obtain _ induction => exact .obtain (induction (same.cons _))
  | null _ induction => exact .null (induction same)
  | release owned later _ => exact .release (same.trans owned) later

theorem Settles.to_perm
    (settles : Settles held events left) (same : left.Perm left') :
    Settles held events left' := by
  induction settles with
  | done perm => exact .done (perm.trans same)
  | obtain _ induction => exact .obtain (induction same)
  | null _ induction => exact .null (induction same)
  | release owned _ induction => exact .release owned (induction same)

theorem Settles.append
    (earlier : Settles held first middle)
    (later : Settles middle second left) :
    Settles held (first ++ second) left := by
  induction earlier with
  | done same => exact later.from_perm same
  | obtain _ induction => exact .obtain (induction later)
  | null _ induction => exact .null (induction later)
  | release owned _ induction => exact .release owned (induction later)

/-- A trace that settles can be cut anywhere. -/
theorem Settles.split
    (settles : Settles held (first ++ second) left) :
    ∃ middle, Settles held first middle ∧ Settles middle second left := by
  induction first generalizing held with
  | nil => exact ⟨held, .done (List.Perm.refl held), settles⟩
  | cons event rest induction =>
      rw [List.cons_append] at settles
      cases settles with
      | obtain later =>
          rcases induction later with ⟨middle, before, after⟩
          exact ⟨middle, .obtain before, after⟩
      | null later =>
          rcases induction later with ⟨middle, before, after⟩
          exact ⟨middle, .null before, after⟩
      | release owned later =>
          rcases induction later with ⟨middle, before, after⟩
          exact ⟨middle, .release owned before, after⟩

/-- What is held is determined by the events, up to the order. -/
theorem Settles.unique
    (one : Settles held events left) (other : Settles held' events left')
    (same : held.Perm held') : left.Perm left' := by
  induction one generalizing held' with
  | done perm =>
      cases other with
      | done perm' => exact perm.symm.trans (same.trans perm')
  | obtain _ induction =>
      cases other with
      | obtain later => exact induction later (same.cons _)
  | null _ induction =>
      cases other with
      | null later => exact induction later same
  | release owned _ induction =>
      cases other with
      | release owned' later =>
          exact induction later
            (owned.symm.trans (same.trans owned')).cons_inv

/-! ## Consequences -/

/--
Every block is given back as often as it was obtained, if it is not held in
the end.
-/
theorem Settles.counted [DecidableEq Block]
    (settles : Settles held events left) (block : Block) :
    events.count (.obtain block) + held.count block =
      events.count (.release (some block)) + left.count block := by
  induction settles with
  | done same => simp [same.count_eq]
  | @obtain _ _ other events _ induction =>
      have released :
          (Event.obtain other :: events).count (.release (some block)) =
            events.count (.release (some block)) :=
        List.count_cons_of_ne (by simp)
      rw [released]
      by_cases equal : other = block
      · subst equal
        rw [List.count_cons_self] at induction ⊢
        omega
      · rw [List.count_cons_of_ne equal] at induction
        rw [List.count_cons_of_ne (by simpa using equal)]
        exact induction
  | null _ induction =>
      rw [List.count_cons_of_ne (by simp), List.count_cons_of_ne (by simp)]
      exact induction
  | @release _ _ _ other events owned _ induction =>
      have obtained :
          (Event.release (some other) :: events).count (.obtain block) =
            events.count (.obtain block) :=
        List.count_cons_of_ne (by simp)
      rw [obtained, owned.count_eq]
      by_cases equal : other = block
      · subst equal
        rw [List.count_cons_self, List.count_cons_self]
        omega
      · rw [List.count_cons_of_ne equal,
          List.count_cons_of_ne (by simpa using equal)]
        exact induction

/-- No block is handed out at an address that is held. -/
def Fresh (address : Block → Address) (events : List (Event Block)) : Prop :=
  ∀ first block rest held,
    events = first ++ .obtain block :: rest → Settles [] first held →
      ∀ other ∈ held, address other ≠ address block

variable {address : Block → Address}

theorem Fresh.earlier (fresh : Fresh address (first ++ second)) :
    Fresh address first := by
  rintro before block rest held rfl settles
  exact fresh before block (rest ++ second) held (by simp) settles

/-- Under the promise all blocks that are held have addresses of their own. -/
theorem Fresh.distinct
    (fresh : Fresh address events) (settles : Settles [] events held) :
    (held.map address).Nodup := by
  induction events using List.reverseRecOn generalizing held with
  | nil =>
      cases settles with
      | done same => simp [List.nil_perm.mp same]
  | append_singleton before event induction =>
      rcases settles.split with ⟨middle, earlier, last⟩
      have distinct := induction fresh.earlier earlier
      cases last with
      | @obtain _ _ block _ later =>
          cases later with
          | done same =>
              rw [← (same.map address).nodup_iff, List.map_cons,
                List.nodup_cons]
              refine ⟨?_, distinct⟩
              intro member
              rcases List.mem_map.mp member with ⟨other, inside, equal⟩
              exact fresh before block [] middle rfl earlier other inside equal
      | null later =>
          cases later with
          | done same => exact (same.map address).nodup_iff.mp distinct
      | release owned later =>
          cases later with
          | done same =>
              rw [(owned.map address).nodup_iff, List.map_cons,
                List.nodup_cons] at distinct
              exact (same.map address).nodup_iff.mp distinct.2

end Libcute.Library.Ledger
