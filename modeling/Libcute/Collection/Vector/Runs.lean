import Libcute.Collection.Vector.Calls
import Libcute.Library.Transition

/-!
# Runs of the vector

The vector refines a list.  `Reference` says what a call may do to a list of
elements, and which elements leave it; `vector_refines` says that every call
of every run does that, whatever the allocator grants.
-/

namespace Libcute.Collection.Vector

open Libcute.Collection.Blocks
open Libcute.Core.Interface
open Libcute.Core.Size
open Libcute.Library.Transition

variable {T : Type} {vector fresh : Vec T} {grant : Grant T}
  {layout : Layout}

/-- A call of the interface. -/
inductive Call (T : Type) where
  | pushBack (elem : T)
  | pushFront (elem : T)
  | popBack
  | resize (size : Nat)
  | reserve (capacity : Nat)
  | shrinkToFit
  | clear

/-- What a call returns. -/
inductive Answer (T : Type) where
  | done
  | popped (elem : T)
  | failed (error : Error)

/-- What a function returns that has an optional error. -/
def Answer.of (error : Option Error) : Answer T :=
  match error with
  | none => .done
  | some error => .failed error

/-- Make a call. -/
def Vec.perform (vector : Vec T) (call : Call T) (grant : Grant T) :
    Option (Answer T × Vec T) :=
  match call with
  | .pushBack elem =>
      (vector.pushBack elem grant).map fun (error, vector) =>
        (.of error, vector)
  | .pushFront elem =>
      (vector.pushFront elem grant).map fun (error, vector) =>
        (.of error, vector)
  | .popBack =>
      (vector.popBack grant).map fun (elem, vector) =>
        match elem with
        | .ok elem => (.popped elem, vector)
        | .error error => (.failed error, vector)
  | .resize size =>
      (vector.resize size grant).map fun (error, vector) =>
        (.of error, vector)
  | .reserve capacity =>
      (vector.reserve capacity grant).map fun (error, vector) =>
        (.of error, vector)
  | .shrinkToFit =>
      (vector.shrinkToFit grant).map fun (error, vector) =>
        (.of error, vector)
  | .clear => (vector.clear grant).map fun vector => (.done, vector)

/-- The largest capacity that a call may ask for. -/
def Vec.wanted (vector : Vec T) : Call T → Nat
  | .pushBack _ => vector.pushCapacity
  | .pushFront _ => vector.pushCapacity
  | .resize size => size
  | .reserve capacity => capacity
  | _ => 0

/-- The call needs another block for the elements. -/
def Vec.Asks (vector : Vec T) : Call T → Prop
  | .pushBack _ => vector.length = vector.capacity
  | .pushFront _ => vector.length = vector.capacity
  | .resize size => vector.capacity < size
  | .reserve capacity => vector.capacity < capacity
  | .shrinkToFit => vector.length ≠ vector.capacity ∧ vector.length ≠ 0
  | _ => False

/-- The size of the block that a call may ask for does not wrap. -/
def Permitted (vector : Vec T) (call : Call T) : Prop :=
  vector.wanted call * vector.layout.elemSize < sizeLimit

instance (vector : Vec T) (call : Call T) :
    Decidable (Permitted vector call) :=
  inferInstanceAs (Decidable (_ < _))

/--
What a call does to a list of elements, and which elements leave it.  The
elements that a growing resize adds are arbitrary.
-/
def Reference
    (items : List T) (call : Call T) (answer : Answer T)
    (items' left : List T) : Prop :=
  match call, answer with
  | .pushBack elem, .done => items' = items ++ [elem] ∧ left = []
  | .pushFront elem, .done => items' = elem :: items ∧ left = []
  | .popBack, .popped elem => items = items' ++ [elem] ∧ left = [elem]
  | .popBack, .failed error =>
      error = .oob ∧ items = [] ∧ items' = [] ∧ left = []
  | .resize size, .done =>
      if size ≤ items.length then
        items' = items.take size ∧ left = items.drop size
      else
        items'.length = size ∧ items' = items ++ items'.drop items.length ∧
          left = []
  | .resize size, .failed error =>
      error = .oom ∧ items.length < size ∧ items' = items ∧ left = []
  | .reserve _, .done => items' = items ∧ left = []
  | .shrinkToFit, .done => items' = items ∧ left = []
  | .clear, .done => items' = [] ∧ left = items
  | .pushBack _, .failed error => error = .oom ∧ items' = items ∧ left = []
  | .pushFront _, .failed error => error = .oom ∧ items' = items ∧ left = []
  | .reserve _, .failed error => error = .oom ∧ items' = items ∧ left = []
  | .shrinkToFit, .failed error => error = .oom ∧ items' = items ∧ left = []
  | _, _ => False

/-- What runs of calls make of an empty list, with the elements that left it,
the latest first. -/
inductive ReferenceRun : List T → List T → Prop where
  | start : ReferenceRun [] []
  | call {items gone items' left : List T} {call : Call T}
      {answer : Answer T}
      (earlier : ReferenceRun items gone)
      (does : Reference items call answer items' left) :
      ReferenceRun items' (left.reverse ++ gone)

/-- The vector is a list of elements. -/
structure Refines (vector : Vec T) : Prop where
  length : vector.elements.length = vector.length
  within : vector.length ≤ vector.capacity
  stored : vector.data.isSome ↔ 0 < vector.capacity
  holds : ∀ storage, vector.data = some storage →
    storage.slots.length = vector.capacity ∧
      storage.mem.length = vector.capacity * vector.layout.elemSize
  at' : ∀ i, vector.at' i = some vector.elements[i]?
  iterate : vector.iterate = some vector.elements
  reached : ∃ gone, ReferenceRun vector.elements gone ∧
    vector.destroyed = if vector.destructor = true then gone else []
  calls : ∀ call grant, Permitted vector call →
    ∃ answer vector' left,
      vector.perform call grant = some (answer, vector') ∧
        Reference vector.elements call answer vector'.elements left ∧
        vector'.destroyed =
          (if vector.destructor = true then left.reverse else []) ++
            vector.destroyed ∧
        (∀ error, answer = .failed error →
          vector'.length = vector.length ∧
            vector'.capacity = vector.capacity) ∧
        (answer = .failed .oom ↔ grant = none ∧ vector.Asks call)

/-! ## One call -/

/-- What a call does to a valid vector. -/
structure Does
    (vector : Vec T) (call : Call T) (grant : Grant T) (answer : Answer T)
    (vector' : Vec T) (left : List T) : Prop where
  becomes : Becomes vector vector' vector'.elements left
  reference : Reference vector.elements call answer vector'.elements left
  fails : ∀ error, answer = .failed error → vector' = vector
  memory : answer = .failed .oom ↔ grant = none ∧ vector.Asks call

theorem Becomes.does
    {vector' : Vec T} {elements left : List T} {call : Call T}
    {answer : Answer T}
    (becomes : Becomes vector vector' elements left)
    (reference : Reference vector.elements call answer elements left)
    (succeeds : ∀ error, answer ≠ .failed error)
    (granted : grant = none → ¬ vector.Asks call) :
    Does vector call grant answer vector' left := by
  have same := becomes.elements
  subst same
  refine ⟨becomes, reference, fun error failed =>
    absurd failed (succeeds error), ?_⟩
  exact iff_of_false (succeeds .oom) fun denied => granted denied.1 denied.2

theorem Valid.refuses
    (valid : Valid vector) {call : Call T} {error : Error}
    (reference : Reference vector.elements call (.failed error)
      vector.elements [])
    (memory : error = .oom ↔ grant = none ∧ vector.Asks call) :
    Does vector call grant (.failed error) vector [] := by
  refine ⟨valid.keeps.becomes, reference, fun _ _ => rfl, ?_⟩
  rw [Answer.failed.injEq]
  exact memory

/-- A call that changes the elements in one way or runs out of memory. -/
theorem Valid.completes
    (valid : Valid vector) {call : Call T} {elements left : List T}
    {result : Option (Option Error × Vec T)}
    (performs : vector.perform call grant =
      result.map fun (error, vector) => (.of error, vector))
    (outcome :
      (∃ vector', (grant = none → ¬ vector.Asks call) ∧
          result = some (none, vector') ∧
          Becomes vector vector' elements left) ∨
        (grant = none ∧ vector.Asks call) ∧
          result = some (some .oom, vector))
    (done : Reference vector.elements call .done elements left)
    (refused : Reference vector.elements call (.failed .oom)
      vector.elements []) :
    ∃ answer vector' left,
      vector.perform call grant = some (answer, vector') ∧
        Does vector call grant answer vector' left := by
  rw [performs]
  rcases outcome with ⟨vector', granted, rfl, becomes⟩ | ⟨denied, rfl⟩
  · exact ⟨.done, vector', left, rfl, becomes.does done (by simp) granted⟩
  · exact ⟨.failed .oom, vector, [], rfl,
      valid.refuses refused (iff_of_true rfl denied)⟩

/-- The step lemma: every call does what the reference says. -/
theorem Valid.perform_spec
    (valid : Valid vector) {call : Call T} (grant : Grant T)
    (permitted : Permitted vector call) :
    ∃ answer vector' left,
      vector.perform call grant = some (answer, vector') ∧
        Does vector call grant answer vector' left := by
  cases call with
  | pushBack elem =>
      exact valid.completes rfl (valid.pushBack_spec elem grant permitted)
        ⟨rfl, rfl⟩ ⟨rfl, rfl, rfl⟩
  | pushFront elem =>
      exact valid.completes rfl (valid.pushFront_spec elem grant permitted)
        ⟨rfl, rfl⟩ ⟨rfl, rfl, rfl⟩
  | popBack =>
      rcases valid.popBack_spec grant with
        ⟨elem, rest, vector', split, pops, becomes⟩ | ⟨empty, refused⟩
      · refine ⟨.popped elem, vector', [elem], ?_,
          becomes.does ⟨split, rfl⟩ (by simp) (fun _ asks => asks)⟩
        dsimp only [Vec.perform]
        rw [pops]
        rfl
      · refine ⟨.failed .oob, vector, [], ?_,
          valid.refuses ⟨rfl, empty, empty, rfl⟩
            (iff_of_false nofun fun denied => denied.2)⟩
        dsimp only [Vec.perform]
        rw [refused]
        rfl
  | resize size =>
      have counted := valid.elements_length
      rcases valid.resize_spec size grant permitted with
        ⟨extra, vector', granted, longer, added, resizes, becomes⟩ |
          ⟨vector', shorter, resizes, becomes⟩ | ⟨denied, refused⟩
      · refine valid.completes rfl (Or.inl ⟨vector',
          fun none => not_lt_of_ge (granted none), resizes, becomes⟩) ?_
          ⟨rfl, by omega, rfl, rfl⟩
        unfold Reference
        dsimp only
        rw [if_neg (by omega), List.drop_left, List.length_append]
        exact ⟨by omega, rfl, rfl⟩
      · have within := valid.within
        refine ⟨.done, vector', _, ?_, becomes.does ?_ (by simp)
          fun _ => not_lt_of_ge (shorter.trans within)⟩
        · dsimp only [Vec.perform]
          rw [resizes]
          rfl
        · unfold Reference
          dsimp only
          rw [if_pos (by omega)]
          exact ⟨rfl, rfl⟩
      · have within := valid.within
        refine ⟨.failed .oom, vector, [], ?_,
          valid.refuses ⟨rfl, by omega, rfl, rfl⟩ (iff_of_true rfl denied)⟩
        dsimp only [Vec.perform]
        rw [refused]
        rfl
  | reserve capacity =>
      refine valid.completes rfl ?_ ⟨rfl, rfl⟩ ⟨rfl, rfl, rfl⟩
      rcases valid.reserve_spec grant permitted with
        ⟨vector', granted, reserves, keeps, _⟩ | refused
      · exact Or.inl ⟨vector', fun none => not_lt_of_ge (granted none),
          reserves, keeps.becomes⟩
      · exact Or.inr refused
  | shrinkToFit =>
      refine valid.completes rfl ?_ ⟨rfl, rfl⟩ ⟨rfl, rfl, rfl⟩
      rcases valid.shrinkToFit_spec grant with
        ⟨vector', granted, shrinks, keeps, _⟩ | refused
      · refine Or.inl ⟨vector', ?_, shrinks, keeps.becomes⟩
        rintro none ⟨spare, filled⟩
        rcases granted none with full | empty
        · exact spare full
        · exact filled empty
      · exact Or.inr refused
  | clear =>
      rcases valid.clear_spec grant with ⟨vector', clears, becomes⟩
      refine ⟨.done, vector', _, ?_,
        becomes.does ⟨rfl, rfl⟩ (by simp) (fun _ asks => asks)⟩
      dsimp only [Vec.perform]
      rw [clears]
      rfl

/-! ## The main result -/

/-- The vector after a call with the answer of the allocator. -/
def Vec.step (vector : Vec T) (action : Call T × Grant T) : Vec T :=
  match vector.perform action.1 action.2 with
  | none => vector
  | some (_, vector) => vector

/-- The runs of a new vector. -/
def Runs (fresh : Vec T) : Vec T → Prop :=
  Reachable (fun vector => vector = fresh)
    (fun vector action => Permitted vector action.1) Vec.step

/-- A valid vector whose elements and destructor calls come from a run. -/
structure Reached (vector : Vec T) : Prop where
  valid : Valid vector
  run : ∃ gone, ReferenceRun vector.elements gone ∧
    vector.destroyed = if vector.destructor = true then gone else []

theorem Reached.step
    (reached : Reached vector) {call : Call T}
    (permitted : Permitted vector call) :
    Reached (vector.step (call, grant)) := by
  rcases reached.valid.perform_spec grant permitted with
    ⟨answer, vector', left, performs, does⟩
  rcases reached.run with ⟨gone, run, log⟩
  unfold Vec.step
  rw [performs]
  refine ⟨does.becomes.valid, left.reverse ++ gone,
    run.call does.reference, ?_⟩
  rw [does.becomes.destroyed, does.becomes.destructor, log]
  unfold Vec.due
  split_ifs <;> rfl

theorem Reached.refines (reached : Reached vector) : Refines vector := by
  have valid := reached.valid
  refine ⟨valid.elements_length, valid.within, ?_, ?_, valid.at_eq,
    valid.iterate_eq, reached.run, ?_⟩
  · constructor
    · intro some
      rcases Option.isSome_iff_exists.mp some with ⟨storage, data⟩
      exact valid.positive storage data
    · intro positive
      rw [Option.isSome_iff_ne_none]
      intro none
      have vacant := valid.vacant none
      omega
  · exact fun storage data => ⟨valid.slots _ data, valid.bytes _ data⟩
  · intro call grant permitted
    rcases valid.perform_spec grant permitted with
      ⟨answer, vector', left, performs, does⟩
    refine ⟨answer, vector', left, performs, does.reference,
      does.becomes.destroyed, ?_, does.memory⟩
    intro error failed
    rw [does.fails error failed]
    exact ⟨rfl, rfl⟩

theorem runs_reached
    {initialCapacity : Option Nat} {destructor : Bool}
    (fits : ∀ capacity, initialCapacity = some capacity →
      capacity * layout.elemSize < sizeLimit)
    (created : Vec.create layout initialCapacity destructor grant =
      .ok fresh)
    (run : Runs fresh vector) : Reached vector := by
  refine Reachable.invariant Reached ?_ ?_ run
  · rintro _ rfl
    rcases create_valid fits created with
      ⟨valid, empty, none, _⟩
    refine ⟨valid, [], ?_, ?_⟩
    · rw [empty]
      exact .start
    · rw [none]
      split_ifs <;> rfl
  · rintro vector ⟨call, grant⟩ reached permitted
    exact reached.step permitted

/--
The main result: for every element layout, every initial capacity and
whatever the allocator grants, the vector refines a list.
-/
theorem vector_refines
    {initialCapacity : Option Nat} {destructor : Bool}
    (fits : ∀ capacity, initialCapacity = some capacity →
      capacity * layout.elemSize < sizeLimit)
    (created : Vec.create layout initialCapacity destructor grant =
      .ok fresh)
    (run : Runs fresh vector) : Refines vector :=
  (runs_reached fits created run).refines

/-- A new vector of words with room for two of them. -/
def wordVector : Vec Nat where
  data := some ⟨⟨64, 16⟩, [7, 7]⟩
  length := 0
  capacity := 2
  layout := ⟨8, 8⟩
  destructor := true
  destroyed := []

/-- A push that is granted and a pop whose shrinking is refused. -/
theorem vector_refines_calls :
    Refines
      ((wordVector.step (.pushBack 1, none)).step (.popBack, none)) := by
  have created :
      Vec.create ⟨8, 8⟩ (some 2) true (some (64, fun _ => 7)) =
        .ok wordVector := rfl
  refine vector_refines ?_ created ?_
  · intro capacity asked
    cases asked
    decide
  · exact .step (.step (.start rfl) (by decide +kernel))
      (by decide +kernel)

end Libcute.Collection.Vector
