import Mathlib.Tactic.Common

/-! Labelled transition systems, the states their runs reach, and the induction
that carries an invariant along a run. -/
namespace AtlasNet.Foundation

structure System (State Event : Type) where
  Initial : State → Prop
  Step : State → Event → State → Prop

namespace System
variable {State Event : Type}

/-- The states reached by runs all of whose steps are allowed where they are taken. -/
inductive ReachableWhile (system : System State Event) (allowed : State → Event → Prop) : State → Prop
  | initial (state) (start : system.Initial state) : ReachableWhile system allowed state
  | step (state event next) (before : ReachableWhile system allowed state)
      (meets : allowed state event) (taken : system.Step state event next) :
      ReachableWhile system allowed next

def Reachable (system : System State Event) : State → Prop :=
  system.ReachableWhile (fun _ _ => True)

/-- What holds at the start and is preserved by every allowed step holds along the run. -/
theorem ReachableWhile.invariant {system : System State Event} {allowed : State → Event → Prop}
    (property : State → Prop) (start : ∀ state, system.Initial state → property state)
    (preserved : ∀ state event next, property state → allowed state event →
      system.Step state event next → property next)
    {state : State} (reached : system.ReachableWhile allowed state) : property state := by
  induction reached with
  | initial state initial => exact start state initial
  | step state event next before meets taken ih => exact preserved state event next ih meets taken

theorem ReachableWhile.weaken {system : System State Event} {allowed wider : State → Event → Prop}
    (implies : ∀ state event, allowed state event → wider state event)
    {state : State} (reached : system.ReachableWhile allowed state) :
    system.ReachableWhile wider state := by
  induction reached with
  | initial state start => exact .initial state start
  | step state event next before meets taken ih =>
    exact .step state event next ih (implies state event meets) taken

theorem ReachableWhile.reachable {system : System State Event} {allowed : State → Event → Prop}
    {state : State} (reached : system.ReachableWhile allowed state) : system.Reachable state :=
  reached.weaken (fun _ _ _ => trivial)

/-- The system that starts at a state. -/
def behind (system : System State Event) (start : State) : System State Event :=
  {system with Initial := (· = start)}

/-- A run behind a state that is reached is the rest of a run. -/
theorem ReachableWhile.from {system : System State Event} {allowed : State → Event → Prop} {start state : State}
    (rest : (system.behind start).ReachableWhile allowed state) (reached : system.ReachableWhile allowed start) :
    system.ReachableWhile allowed state := by
  induction rest with
  | initial state same => exact same ▸ reached
  | step state event next before meets taken ih => exact .step state event next ih meets taken

/-- What did not hold at the start and holds now came to hold in a step of the run. -/
theorem ReachableWhile.turned {system : System State Event} {allowed : State → Event → Prop} {state : State}
    (property : State → Prop) (start : ∀ state, system.Initial state → ¬ property state)
    (reached : system.ReachableWhile allowed state) (holds : property state) :
    ∃ before event middle, system.ReachableWhile allowed before ∧ allowed before event ∧ system.Step before event middle ∧
      ¬ property before ∧ property middle ∧ (system.behind middle).ReachableWhile allowed state := by
  induction reached with
  | initial state initial => exact absurd holds (start state initial)
  | step state event next before meets taken ih =>
    by_cases earlier : property state
    · obtain ⟨first,turning,middle,reached,allowed,turned,unheld,held,rest⟩ := ih earlier
      exact ⟨first,turning,middle,reached,allowed,turned,unheld,held,.step state event next rest meets taken⟩
    · exact ⟨state,event,next,before,meets,taken,earlier,holds,.initial next rfl⟩

/-- The system of a step function that says which events a state can take. -/
def stepping (start : State) (next : Event → State → Option State) : System State Event where
  Initial state := state = start
  Step state event after := next event state = some after

/-- The state behind the events, when each of them can be taken. -/
def replay (next : Event → State → Option State) (events : List Event) (state : State) : Option State :=
  events.foldlM (fun state event => next event state) state

section Stepping
variable {start state after : State} {next : Event → State → Option State} {allowed : State → Event → Prop}

theorem stepping_start : (stepping start next).ReachableWhile allowed start := .initial start rfl

theorem stepping_replay {events : List Event} (meets : ∀ state, ∀ event ∈ events, allowed state event)
    (reached : (stepping start next).ReachableWhile allowed state) (ran : replay next events state = some after) :
    (stepping start next).ReachableWhile allowed after := by
  induction events generalizing state with
  | nil => exact Option.some.inj ran ▸ reached
  | cons event events ih =>
    obtain ⟨middle,taken,rest⟩ := Option.bind_eq_some_iff.mp ran
    have first := reached.step state event middle (meets state event List.mem_cons_self) taken
    exact ih (fun state event member => meets state event (List.mem_cons_of_mem _ member)) first rest

/-- The step function that takes an event only where it is allowed. -/
def checked (allowed : State → Event → Prop) [∀ state event, Decidable (allowed state event)]
    (next : Event → State → Option State) (event : Event) (state : State) : Option State :=
  if allowed state event then next event state else none

theorem stepping_checked [∀ state event, Decidable (allowed state event)] {events : List Event}
    (reached : (stepping start next).ReachableWhile allowed state)
    (ran : replay (checked allowed next) events state = some after) : (stepping start next).ReachableWhile allowed after := by
  induction events generalizing state with
  | nil => exact Option.some.inj ran ▸ reached
  | cons event events ih =>
    obtain ⟨middle,taken,rest⟩ := Option.bind_eq_some_iff.mp ran
    obtain ⟨meets,taken⟩ := Option.ite_none_right_eq_some.mp taken
    exact ih (reached.step state event middle meets taken) rest

/-- What the start has and every allowed step keeps holds along the run. -/
theorem stepping_invariant (property : State → Prop) (first : property start)
    (preserved : ∀ state event next', property state → allowed state event → next event state = some next' → property next')
    (reached : (stepping start next).ReachableWhile allowed state) : property state := by
  apply reached.invariant property
  · rintro state rfl
    exact first
  · exact preserved

end Stepping

end System

end AtlasNet.Foundation
