/-!
# Runs and invariants

A program that is called again and again is a step function together with a
rule that says which actions its environment may take in a state.
`Reachable` collects the states of all runs, and `Reachable.invariant` is the
induction over runs: what holds at the start and is kept by every permitted
action holds in every reachable state.
-/

namespace Libcute.Library.Transition

variable {State Action : Type}

/-- The states that runs of permitted actions reach. -/
inductive Reachable
    (start : State → Prop)
    (permitted : State → Action → Prop)
    (step : State → Action → State) : State → Prop where
  | start {state : State} (initial : start state) :
      Reachable start permitted step state
  | step {state : State} {action : Action}
      (earlier : Reachable start permitted step state)
      (allowed : permitted state action) :
      Reachable start permitted step (step state action)

theorem Reachable.invariant
    {start : State → Prop}
    {permitted : State → Action → Prop}
    {step : State → Action → State}
    (Holds : State → Prop)
    (initially : ∀ state, start state → Holds state)
    (preserved : ∀ state action,
      Holds state → permitted state action → Holds (step state action))
    {state : State}
    (reachable : Reachable start permitted step state) :
    Holds state := by
  induction reachable with
  | start initial => exact initially _ initial
  | step _ allowed induction => exact preserved _ _ induction allowed

end Libcute.Library.Transition
