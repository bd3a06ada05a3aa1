import Mathlib.Tactic.Common

/-!
# Runs of a machine with events and faults

A machine takes an event to a new state, to a fault, or refuses it.  A `Path`
records the events of a run together with the states they lead to, so that a
statement about a run can count its events and look at every state on the way.

The module has the rules that proofs about runs use: an invariant of single
steps is an invariant of runs, and a step relation between two machines lifts to
their runs.
-/

namespace Rt64.Lib.Transition

variable {State Event Fault : Type}

/-- The steps of a run, each an event with the state it leads to. -/
inductive Path (step : Event → State → Option (Except Fault State)) :
    State → List (Event × State) → State → Prop where
  | nil (state : State) : Path step state [] state
  | cons {first second last : State} {event : Event}
      {steps : List (Event × State)}
      (head : step event first = some (.ok second))
      (rest : Path step second steps last) :
      Path step first ((event, second) :: steps) last

/-- A run leads from one state to the other. -/
def Reaches (step : Event → State → Option (Except Fault State))
    (first last : State) : Prop :=
  ∃ steps, Path step first steps last

/-- How often the steps of a run have a property. -/
def count (property : State → Event → State → Prop)
    [∀ before event after, Decidable (property before event after)] :
    State → List (Event × State) → Nat
  | _, [] => 0
  | first, (event, second) :: steps =>
      (if property first event second then 1 else 0) +
        count property second steps

/-- The run with the given events, if none of them is refused or faults. -/
def follow (step : Event → State → Option (Except Fault State)) :
    List Event → State → Option (List (Event × State) × State)
  | [], state => some ([], state)
  | event :: events, first =>
      match step event first with
      | some (.ok second) =>
          (follow step events second).map fun run =>
            ((event, second) :: run.1, run.2)
      | _ => none

section

variable {step : Event → State → Option (Except Fault State)}
variable {first middle last : State} {steps more : List (Event × State)}

theorem Path.single {event : Event}
    (head : step event first = some (.ok last)) :
    Path step first [(event, last)] last :=
  .cons head (.nil last)

theorem Path.append (front : Path step first steps middle)
    (back : Path step middle more last) :
    Path step first (steps ++ more) last := by
  induction front with
  | nil state => exact back
  | cons head rest induction => exact .cons head (induction back)

/-- A run is a run of a machine that takes the same steps and maybe more. -/
theorem Path.mono {step' : Event → State → Option (Except Fault State)}
    (path : Path step first steps last)
    (takes : ∀ before event after, step event before = some (.ok after) →
      step' event before = some (.ok after)) :
    Path step' first steps last := by
  induction path with
  | nil state => exact .nil state
  | cons head rest induction => exact .cons (takes _ _ _ head) induction

/-- A run without the steps that the other machine does not take is a run of
the other machine. -/
theorem Path.restrict {step' : Event → State → Option (Except Fault State)}
    {property : State → Event → State → Prop}
    [∀ before event after, Decidable (property before event after)]
    (path : Path step first steps last)
    (takes : ∀ before event after, ¬ property before event after →
      step event before = some (.ok after) →
        step' event before = some (.ok after))
    (none : count property first steps = 0) :
    Path step' first steps last := by
  induction path with
  | nil state => exact .nil state
  | @cons first second last event steps head rest induction =>
      rw [count, Nat.add_eq_zero_iff] at none
      have free : ¬ property first event second := by
        intro holds
        rw [if_pos holds] at none
        exact absurd none.1 Nat.one_ne_zero
      exact .cons (takes _ _ _ free head) (induction none.2)

theorem follow_cons {event : Event} {events : List Event}
    (followed : follow step (event :: events) first = some (steps, last)) :
    ∃ second rest, step event first = some (.ok second) ∧
      follow step events second = some (rest, last) ∧
        steps = (event, second) :: rest := by
  unfold follow at followed
  split at followed
  · rename_i second head
    rcases Option.map_eq_some_iff.mp followed with ⟨⟨rest, final⟩, run, same⟩
    rcases Prod.mk.inj same with ⟨rfl, rfl⟩
    exact ⟨second, rest, head, run, rfl⟩
  · cases followed

theorem Path.of_follow {events : List Event}
    (followed : follow step events first = some (steps, last)) :
    Path step first steps last := by
  induction events generalizing first steps with
  | nil =>
      rcases Prod.mk.inj (Option.some.inj followed) with ⟨rfl, rfl⟩
      exact .nil first
  | cons event events induction =>
      rcases follow_cons followed with ⟨second, rest, head, run, rfl⟩
      exact .cons head (induction run)

theorem Reaches.refl (state : State) : Reaches step state state :=
  ⟨[], .nil state⟩

theorem Reaches.tail {event : Event} (reaches : Reaches step first middle)
    (next : step event middle = some (.ok last)) :
    Reaches step first last := by
  rcases reaches with ⟨steps, path⟩
  exact ⟨steps ++ [(event, last)], path.append (.single next)⟩

theorem Reaches.trans (front : Reaches step first middle)
    (back : Reaches step middle last) : Reaches step first last := by
  rcases front with ⟨steps, path⟩
  rcases back with ⟨more, path'⟩
  exact ⟨steps ++ more, path.append path'⟩

/-- What every step preserves, every run preserves. -/
theorem Path.invariant {property : State → Prop}
    (path : Path step first steps last)
    (preserved : ∀ before event after, property before →
      step event before = some (.ok after) → property after)
    (initial : property first) : property last := by
  induction path with
  | nil state => exact initial
  | cons head rest induction =>
      exact induction (preserved _ _ _ initial head)

/-- While a guard holds, a rank that no step raises and that the counted steps
lower bounds their number. -/
theorem Path.count_le_rank {property : State → Event → State → Prop}
    [∀ before event after, Decidable (property before event after)]
    {guard : State → Prop} {Ranked : State → Nat → Prop} {rank : Nat}
    (path : Path step first steps last) (initial : guard first)
    (stays : ∀ entry ∈ steps, guard entry.2) (ranked : Ranked first rank)
    (drops : ∀ before event after n, guard before → guard after →
      Ranked before n → step event before = some (.ok after) →
        ∃ m, Ranked after m ∧
          (if property before event after then 1 else 0) + m ≤ n) :
    count property first steps ≤ rank := by
  induction path generalizing rank with
  | nil state => exact Nat.zero_le rank
  | @cons first second last event steps head rest induction =>
      have here := stays _ List.mem_cons_self
      rcases drops _ _ _ rank initial here ranked head with
        ⟨m, ranked', drop⟩
      have later := induction here
        (fun entry member => stays entry (List.mem_cons_of_mem _ member)) ranked'
      rw [count]
      exact Nat.le_trans (Nat.add_le_add_left later _) drop

theorem Reaches.invariant {property : State → Prop}
    (reaches : Reaches step first last)
    (preserved : ∀ before event after, property before →
      step event before = some (.ok after) → property after)
    (initial : property first) : property last := by
  rcases reaches with ⟨steps, path⟩
  exact path.invariant preserved initial

end

end Rt64.Lib.Transition
