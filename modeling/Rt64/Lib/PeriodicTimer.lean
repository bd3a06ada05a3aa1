import Rt64.Lib.Transition
import Mathlib.Order.Nat

/-!
# A periodic timer with a latch

A timer expires once every period.  An expiry sets a latch, and the processor
takes the interrupt as soon as the machine has interrupts enabled; an expiry that
finds the latch set is merged with the one before it.  Time passes only when the
machine takes a step, or rests; each state has an allowance for the next step.

If the machine keeps interrupts disabled for a time that is shorter than the
period, no expiry is merged, and the time between two points of a run is known
from the interrupts taken in between.
-/

namespace Rt64.Lib.PeriodicTimer

open Rt64.Lib.Transition

/-- A machine with an interrupt, next to a timer. -/
structure System (State Event Fault : Type) where
  step : Event → State → Option (Except Fault State)
  interrupt : Event
  isInterrupt : Event → Bool
  enabled : State → Bool
  /-- The machine may let time pass. -/
  resting : State → Bool
  /-- What the next step of the machine takes at most. -/
  allowance : State → Nat
  /-- What the handler of the interrupt takes at most, and resting at once. -/
  quantum : Nat
  period : Nat

structure Timed (State : Type) where
  state : State
  /-- The latch. -/
  pending : Bool
  /-- The time since the last expiry. -/
  clock : Nat
  now : Nat
  expiries : Nat
  merged : Nat
  taken : Nat

inductive Happening (Event : Type) where
  | expire
  | interrupt (cost : Nat)
  | work (event : Event) (cost : Nat)
  | rest (cost : Nat)

variable {State Event Fault : Type}

namespace Timed

def pass (timed : Timed State) (cost : Nat) : Timed State :=
  { timed with clock := timed.clock + cost, now := timed.now + cost }

def expire (timed : Timed State) (period : Nat) : Timed State :=
  { timed with
    pending := true
    clock := timed.clock - period
    expiries := timed.expiries + 1
    merged := timed.merged + timed.pending.toNat }

end Timed

namespace System

variable (system : System State Event Fault)

/-- Time may pass by `cost`: the timer does not expire first. -/
def Passes (timed : Timed State) (cost most : Nat) : Prop :=
  timed.clock < system.period ∧ cost ≤ most

/-- The processor is to take the interrupt. -/
def Due (timed : Timed State) : Prop :=
  timed.pending = true ∧ system.enabled timed.state = true

instance (timed : Timed State) (cost most : Nat) :
    Decidable (system.Passes timed cost most) :=
  inferInstanceAs (Decidable (_ ∧ _))

instance (timed : Timed State) : Decidable (system.Due timed) :=
  inferInstanceAs (Decidable (_ ∧ _))

/-- One step of the machine with its timer. -/
def timedStep : Happening Event → Timed State → Option (Except Fault (Timed State))
  | .expire, timed =>
      if system.period ≤ timed.clock then
        some (.ok (timed.expire system.period))
      else none
  | .interrupt cost, timed =>
      if system.Passes timed cost system.quantum ∧ system.Due timed then
        (system.step system.interrupt timed.state).map fun result =>
          result.map fun state =>
            { timed.pass cost with
              state
              pending := false
              taken := timed.taken + 1 }
      else none
  | .work event cost, timed =>
      if system.Passes timed cost (system.allowance timed.state) ∧
          ¬ system.Due timed ∧ system.isInterrupt event = false then
        (system.step event timed.state).map fun result =>
          result.map fun state => { timed.pass cost with state }
      else none
  | .rest cost, timed =>
      if system.Passes timed cost system.quantum ∧ ¬ system.Due timed ∧
          system.resting timed.state = true then
        some (.ok (timed.pass cost))
      else none

/-- Everything that one step can do. -/
inductive Next (timed : Timed State) : Happening Event → Timed State → Prop where
  | expire (expired : system.period ≤ timed.clock) :
      Next timed .expire (timed.expire system.period)
  | interrupt {cost : Nat} {state : State}
      (passes : system.Passes timed cost system.quantum)
      (due : system.Due timed)
      (stepped : system.step system.interrupt timed.state = some (.ok state)) :
      Next timed (.interrupt cost) { timed.pass cost with
        state, pending := false, taken := timed.taken + 1 }
  | work {event : Event} {cost : Nat} {state : State}
      (passes : system.Passes timed cost (system.allowance timed.state))
      (notDue : ¬ system.Due timed)
      (notInterrupt : system.isInterrupt event = false)
      (stepped : system.step event timed.state = some (.ok state)) :
      Next timed (.work event cost) { timed.pass cost with state }
  | rest {cost : Nat} (passes : system.Passes timed cost system.quantum)
      (notDue : ¬ system.Due timed)
      (resting : system.resting timed.state = true) :
      Next timed (.rest cost) (timed.pass cost)

variable {system}

theorem next_of_step {happening : Happening Event} {timed timed' : Timed State}
    (stepped : system.timedStep happening timed = some (.ok timed')) :
    system.Next timed happening timed' := by
  cases happening with
  | expire =>
      rw [timedStep] at stepped
      split at stepped
      · rename_i expired
        rcases Except.ok.inj (Option.some.inj stepped) with rfl
        exact .expire expired
      · cases stepped
  | interrupt cost =>
      rw [timedStep] at stepped
      split at stepped
      · rename_i enabled
        rcases Option.map_eq_some_iff.mp stepped with ⟨result, taken, same⟩
        cases result with
        | error fault => cases same
        | ok state =>
            rcases Except.ok.inj same with rfl
            exact .interrupt enabled.1 enabled.2 taken
      · cases stepped
  | work event cost =>
      rw [timedStep] at stepped
      split at stepped
      · rename_i enabled
        rcases Option.map_eq_some_iff.mp stepped with ⟨result, taken, same⟩
        cases result with
        | error fault => cases same
        | ok state =>
            rcases Except.ok.inj same with rfl
            exact .work enabled.1 enabled.2.1 enabled.2.2 taken
      · cases stepped
  | rest cost =>
      rw [timedStep] at stepped
      split at stepped
      · rename_i enabled
        rcases Except.ok.inj (Option.some.inj stepped) with rfl
        exact .rest enabled.1 enabled.2.1 enabled.2.2
      · cases stepped

/-! ## What holds of every run -/

/-- The timer is never late by more than the longest step. -/
theorem clock_le_of_path {most : Nat} {timed timed' : Timed State}
    {steps : List (Happening Event × Timed State)}
    (cheap : ∀ state, system.allowance state ≤ most)
    (short : system.quantum ≤ most)
    (path : Path system.timedStep timed steps timed')
    (bounded : timed.clock ≤ system.period + most) :
    timed'.clock ≤ system.period + most := by
  apply path.invariant _ bounded
  intro before happening after bounded stepped
  cases next_of_step stepped with
  | expire => exact (Nat.sub_le _ _).trans bounded
  | interrupt passes => exact Nat.add_le_add passes.1.le (passes.2.trans short)
  | work passes => exact Nat.add_le_add passes.1.le (passes.2.trans (cheap _))
  | rest passes => exact Nat.add_le_add passes.1.le (passes.2.trans short)

/-- Time does not run backwards. -/
theorem now_le_of_path {timed timed' : Timed State}
    {steps : List (Happening Event × Timed State)}
    (path : Path system.timedStep timed steps timed') :
    timed.now ≤ timed'.now := by
  apply path.invariant _ (Nat.le_refl timed.now)
  intro before happening after earlier stepped
  refine earlier.trans ?_
  cases next_of_step stepped with
  | expire => exact le_rfl
  | interrupt => exact Nat.le_add_right _ _
  | work => exact Nat.le_add_right _ _
  | rest => exact Nat.le_add_right _ _

variable (system) in
/-- The time, told from the timer, and the expiries, told from the interrupts
taken. -/
structure Elapsed (timed timed' : Timed State) : Prop where
  time : timed'.now + timed.expiries * system.period + timed.clock =
    timed.now + timed'.expiries * system.period + timed'.clock
  expiries : timed'.expiries + timed.taken + timed.merged +
      timed.pending.toNat =
    timed.expiries + timed'.taken + timed'.merged + timed'.pending.toNat

theorem Next.elapsed {timed timed' : Timed State} {happening : Happening Event}
    (next : system.Next timed happening timed') : system.Elapsed timed timed' := by
  cases next with
  | expire expired =>
      constructor
      · simp only [Timed.expire]
        rw [Nat.add_mul, Nat.one_mul]
        omega
      · simp only [Timed.expire, Bool.toNat_true]
        omega
  | interrupt passes due =>
      constructor
      · simp only [Timed.pass]
        omega
      · simp only [Timed.pass, due.1, Bool.toNat_true, Bool.toNat_false]
        omega
  | work passes =>
      constructor
      · simp only [Timed.pass]
        omega
      · rfl
  | rest passes =>
      constructor
      · simp only [Timed.pass]
        omega
      · rfl

theorem elapsed_of_path {timed timed' : Timed State}
    {steps : List (Happening Event × Timed State)}
    (path : Path system.timedStep timed steps timed') :
    system.Elapsed timed timed' := by
  refine path.invariant ?_ ⟨rfl, rfl⟩
  intro before happening after elapsed stepped
  have next := (next_of_step stepped).elapsed
  constructor
  · have first := elapsed.time
    have second := next.time
    omega
  · have first := elapsed.expiries
    have second := next.expiries
    omega

/-- A run of the machine with its timer is a run of the machine through the same
states, with an interrupt for every one that is taken. -/
theorem untimed_of_path {timed timed' : Timed State}
    {steps : List (Happening Event × Timed State)}
    (isInterrupt : system.isInterrupt system.interrupt = true)
    (path : Path system.timedStep timed steps timed') :
    ∃ events, Path system.step timed.state events timed'.state ∧
      timed'.taken = timed.taken +
        count (fun _ event _ => system.isInterrupt event = true) timed.state
          events ∧
      ∀ entry ∈ events, ∃ entry' ∈ steps, entry'.2.state = entry.2 := by
  induction path with
  | nil timed => exact ⟨[], .nil _, rfl, nofun⟩
  | @cons first second last happening steps head rest induction =>
      rcases induction with ⟨events, path, taken, states⟩
      have later : ∀ entry ∈ events, ∃ entry' ∈ (happening, second) :: steps,
          entry'.2.state = entry.2 := by
        intro entry member
        rcases states entry member with ⟨entry', member', same⟩
        exact ⟨entry', List.mem_cons_of_mem _ member', same⟩
      -- the state that a step of the machine leads to is the one of this step
      have here (event : Event) :
          ∀ entry ∈ (event, second.state) :: events,
            ∃ entry' ∈ (happening, second) :: steps,
              entry'.2.state = entry.2 := by
        intro entry member
        rcases List.mem_cons.mp member with rfl | member
        · exact ⟨_, List.mem_cons_self, rfl⟩
        · exact later entry member
      cases next_of_step head with
      | expire => exact ⟨events, path, taken, later⟩
      | rest => exact ⟨events, path, taken, later⟩
      | interrupt passes due stepped =>
          refine ⟨_, .cons stepped path, ?_, here _⟩
          rw [taken, count, if_pos isInterrupt, ← Nat.add_assoc]
      | work passes notDue notInterrupt stepped =>
          refine ⟨_, .cons stepped path, ?_, here _⟩
          rw [taken, count, if_neg (by simp [notInterrupt]), Nat.zero_add]
          rfl

/-! ## Machines that do not keep interrupts disabled for long -/

variable (system) in
/--
From the states `Good` on, interrupts are disabled for at most the time `window`;
`Left time` says that they are enabled after at most `time`.  A step of a machine
with interrupts enabled takes at most a quantum.
-/
structure Prompt (Good : State → Prop) (Left : Nat → State → Prop)
    (window : Nat) : Prop where
  good : ∀ event before after, Good before →
    system.step event before = some (.ok after) → Good after
  disabled : ∀ state, Good state → system.enabled state = false →
    ∃ time ≤ window, Left time state
  nearer : ∀ time event before after, Good before →
    system.enabled before = false → Left time before →
    system.step event before = some (.ok after) →
      ∃ rest, system.allowance before + rest ≤ time ∧
        (system.enabled after = true ∨
          system.enabled after = false ∧ Left rest after)
  quick : ∀ state, Good state → system.enabled state = true →
    system.allowance state ≤ system.quantum
  resting : ∀ state, Good state → system.resting state = true →
    system.enabled state = true
  fits : window + system.quantum < system.period

variable (system) in
/-- The clock, with what is left of the time for which interrupts are disabled,
is not past `base` by more than that time and a quantum. -/
inductive Within (Left : Nat → State → Prop) (window base : Nat)
    (timed : Timed State) : Prop where
  | enabled (enabled : system.enabled timed.state = true)
      (early : timed.clock ≤ base + (window + system.quantum))
  | disabled {time : Nat} (disabled : system.enabled timed.state = false)
      (left : Left time timed.state)
      (early : timed.clock + time ≤ base + (window + system.quantum))

theorem Within.clock_le {Left : Nat → State → Prop} {window base : Nat}
    {timed : Timed State} (within : system.Within Left window base timed) :
    timed.clock ≤ base + (window + system.quantum) := by
  cases within with
  | enabled _ early => exact early
  | disabled _ _ early => exact (Nat.le_add_right _ _).trans early

variable (system) in
/-- Nothing has been waiting for longer than the machine keeps interrupts
disabled. -/
structure OnTime (Good : State → Prop) (Left : Nat → State → Prop)
    (window : Nat) (timed : Timed State) : Prop where
  good : Good timed.state
  clock : system.Within Left window system.period timed
  waits : timed.pending = true → system.Within Left window 0 timed

section Prompt

variable {Good : State → Prop} {Left : Nat → State → Prop} {window : Nat}
variable (prompt : system.Prompt Good Left window)
include prompt

/-- An expiry finds the latch empty. -/
theorem OnTime.not_pending {timed : Timed State}
    (onTime : system.OnTime Good Left window timed)
    (expired : system.period ≤ timed.clock) : timed.pending = false := by
  by_contra set
  have waited := (onTime.waits (by simpa using set)).clock_le
  have fits := prompt.fits
  omega

/-- After a step that takes at most a quantum the timer is in time. -/
theorem Prompt.within_of_short {timed : Timed State} (good : Good timed.state)
    (early : timed.clock ≤ system.period + system.quantum) :
    system.Within Left window system.period timed := by
  cases enabled : system.enabled timed.state with
  | true => exact .enabled enabled (by omega)
  | false =>
      rcases prompt.disabled _ good enabled with ⟨time, bound, left⟩
      exact .disabled enabled left (by omega)

/-- A step of the machine with interrupts disabled uses up some of the time. -/
theorem Prompt.within_of_disabled {base time cost : Nat} {event : Event}
    {timed timed' : Timed State} (good : Good timed.state)
    (disabled : system.enabled timed.state = false) (left : Left time timed.state)
    (stepped : system.step event timed.state = some (.ok timed'.state))
    (clock : timed'.clock = timed.clock + cost)
    (cheap : cost ≤ system.allowance timed.state)
    (early : timed.clock + time ≤ base + (window + system.quantum)) :
    system.Within Left window base timed' := by
  rcases prompt.nearer time _ _ _ good disabled left stepped with
    ⟨rest, less, enabled | ⟨disabled', left'⟩⟩
  · exact .enabled enabled (by omega)
  · exact .disabled disabled' left' (by omega)

theorem OnTime.next {timed timed' : Timed State} {happening : Happening Event}
    (onTime : system.OnTime Good Left window timed)
    (next : system.Next timed happening timed') :
    system.OnTime Good Left window timed' ∧ timed'.merged = timed.merged := by
  cases next with
  | expire expired =>
      have empty := onTime.not_pending prompt expired
      refine ⟨⟨onTime.good, ?_, fun _ => ?_⟩, by simp [Timed.expire, empty]⟩
      · cases onTime.clock with
        | enabled enabled early =>
            exact .enabled enabled ((Nat.sub_le _ _).trans early)
        | disabled disabled left early =>
            refine .disabled disabled left (Nat.le_trans ?_ early)
            exact Nat.add_le_add_right (Nat.sub_le _ _) _
      · cases onTime.clock with
        | enabled enabled early =>
            refine .enabled enabled ?_
            simp only [Timed.expire]
            omega
        | disabled disabled left early =>
            refine .disabled disabled left ?_
            simp only [Timed.expire]
            omega
  | interrupt passes due stepped =>
      have good := prompt.good _ _ _ onTime.good stepped
      refine ⟨⟨good, prompt.within_of_short good ?_, nofun⟩, rfl⟩
      exact Nat.add_le_add passes.1.le passes.2
  | rest passes notDue resting =>
      have enabled := prompt.resting _ onTime.good resting
      refine ⟨⟨onTime.good, prompt.within_of_short onTime.good ?_, ?_⟩, rfl⟩
      · exact Nat.add_le_add passes.1.le passes.2
      · intro pending
        exact absurd ⟨pending, enabled⟩ notDue
  | work passes notDue notInterrupt stepped =>
      have good := prompt.good _ _ _ onTime.good stepped
      cases enabled : system.enabled timed.state with
      | true =>
          refine ⟨⟨good, prompt.within_of_short good ?_, ?_⟩, rfl⟩
          · exact Nat.add_le_add passes.1.le
              (passes.2.trans (prompt.quick _ onTime.good enabled))
          · intro pending
            exact absurd ⟨pending, enabled⟩ notDue
      | false =>
          refine ⟨⟨good, ?_, ?_⟩, rfl⟩
          · rcases prompt.disabled _ onTime.good enabled with ⟨time, bound, left⟩
            have soon := passes.1
            exact prompt.within_of_disabled onTime.good enabled left stepped rfl
              passes.2 (by omega)
          · intro pending
            cases onTime.waits pending with
            | enabled enabled' => exact absurd ⟨pending, enabled'⟩ notDue
            | disabled _ left early =>
                exact prompt.within_of_disabled onTime.good enabled left stepped
                  rfl passes.2 early

/-- No expiry of a run is merged. -/
theorem OnTime.path {timed timed' : Timed State}
    {steps : List (Happening Event × Timed State)}
    (onTime : system.OnTime Good Left window timed)
    (path : Path system.timedStep timed steps timed') :
    system.OnTime Good Left window timed' ∧ timed'.merged = timed.merged := by
  apply path.invariant _ ⟨onTime, rfl⟩
  rintro before happening after ⟨onTime', same⟩ stepped
  rcases onTime'.next prompt (next_of_step stepped) with ⟨onTime'', same'⟩
  exact ⟨onTime'', same'.trans same⟩

/-- The expiries of a run are the interrupts taken and the one that waits. -/
theorem OnTime.expiries {timed timed' : Timed State}
    {steps : List (Happening Event × Timed State)}
    (onTime : system.OnTime Good Left window timed)
    (path : Path system.timedStep timed steps timed') :
    timed'.expiries + timed.taken + timed.pending.toNat =
      timed.expiries + timed'.taken + timed'.pending.toNat := by
  have balance := (elapsed_of_path path).expiries
  have none := (onTime.path prompt path).2
  omega

/--
The time from any point of a run to the end of the `n`-th interrupt taken after
it lies between `n - 1` and `n` periods, up to the time for which interrupts may
be disabled.
-/
theorem OnTime.elapsed {timed before timed' : Timed State}
    {steps : List (Happening Event × Timed State)} {cost n : Nat}
    (onTime : system.OnTime Good Left window timed)
    (path : Path system.timedStep timed steps before)
    (last : system.timedStep (.interrupt cost) before = some (.ok timed'))
    (taken : timed'.taken = timed.taken + n) :
    timed.now + n * system.period ≤
        timed'.now + system.period + (window + system.quantum) ∧
      timed'.now ≤ timed.now + n * system.period +
        (window + 2 * system.quantum) := by
  have whole := path.append (.single last)
  have time := (elapsed_of_path whole).time
  have expiries := onTime.expiries prompt whole
  have clock' : timed'.clock ≤ window + 2 * system.quantum ∧
      timed'.pending = false := by
    have waiting := (onTime.path prompt path).1.waits
    cases next_of_step last with
    | interrupt passes due =>
        refine ⟨?_, rfl⟩
        have waited := (waiting due.1).clock_le
        have short := passes.2
        simp only [Timed.pass]
        omega
  rw [clock'.2, Bool.toNat_false, taken] at expiries
  cases pending : timed.pending with
  | false =>
      have count : timed'.expiries = timed.expiries + n := by
        rw [pending, Bool.toNat_false] at expiries
        omega
      have late := onTime.clock.clock_le
      rw [count, Nat.add_mul] at time
      omega
  | true =>
      have count : timed'.expiries + 1 = timed.expiries + n := by
        rw [pending, Bool.toNat_true] at expiries
        omega
      have late := (onTime.waits pending).clock_le
      have product := congrArg (· * system.period) count
      simp only [Nat.add_mul, Nat.one_mul] at product
      omega

end Prompt

end System

end Rt64.Lib.PeriodicTimer
