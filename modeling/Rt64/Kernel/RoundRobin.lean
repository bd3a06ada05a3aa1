import Rt64.Kernel.Scheduler

/-!
# Bounded bypass of the round robin

While a process waits for the processor, no other process gets it twice.  After
the dispatch of `p` the cursor is just past `p`, so that it meets the waiting
process `q` before it comes back to `p`.  This order does not depend on where
the table ends, and so it survives processes that are created meanwhile.
-/

namespace Rt64.Kernel.RoundRobin

open Rt64.Lib.Transition
open Rt64.Include.Defs
open Rt64.Kernel.Process
open Rt64.Kernel.Processor
open Rt64.Kernel.Rounds
open Rt64.Kernel.Scheduler

/-! ## The order around the table -/

/-- Going up from `cursor` and then around, `q` comes before `p`. -/
def Ahead (cursor q p : Nat) : Prop :=
  cursor ≤ q ∧ q < p ∨ q < p ∧ p < cursor ∨ p < cursor ∧ cursor ≤ q

theorem Ahead.ne {cursor q p : Nat} (ahead : Ahead cursor q p) :
    cursor ≠ p := by
  rcases ahead with ⟨_, _⟩ | ⟨_, _⟩ | ⟨_, _⟩ <;> omega

/-- The cursor after one step around a table with `size` entries. -/
theorem next_cases {cursor size : Nat} (inside : cursor < size) :
    (cursor + 1) % size = cursor + 1 ∨
      cursor + 1 = size ∧ (cursor + 1) % size = 0 := by
  rcases Nat.lt_or_eq_of_le inside with room | full
  · exact Or.inl (Nat.mod_eq_of_lt room)
  · have full' : cursor + 1 = size := full
    rw [full', Nat.mod_self]
    exact Or.inr ⟨rfl, rfl⟩

/-- A step that does not pass `q` keeps the order. -/
theorem Ahead.next {cursor q p size : Nat} (ahead : Ahead cursor q p)
    (inside : cursor < size) (target : q < size) (other : cursor ≠ q) :
    Ahead ((cursor + 1) % size) q p := by
  unfold Ahead at ahead ⊢
  rcases next_cases inside with step | ⟨full, step⟩ <;> rw [step]
  · rcases ahead with ⟨_, _⟩ | ⟨_, _⟩ | ⟨_, _⟩ <;> omega
  · rcases ahead with ⟨_, _⟩ | ⟨_, _⟩ | ⟨_, _⟩ <;> omega

/-- Just past `p`, every other entry comes before `p`. -/
theorem ahead_past {q p size : Nat} (inside : p < size) (target : q < size)
    (other : p ≠ q) : Ahead ((p + 1) % size) q p := by
  unfold Ahead
  rcases next_cases inside with step | ⟨full, step⟩ <;> rw [step] <;> omega

/-! ## The abstract scheduler -/

/--
The scheduler will come to `q` before it dispatches `p`: it has already settled
on `q`, or it has not settled on `p` and the cursor meets `q` first.
-/
def Bypassed (q p : Nat) (phase : Phase) (core : Core) : Prop :=
  phase = .chosen q ∨ phase = .taken q ∨
    Ahead core.cursor q p ∧ phase ≠ .chosen p ∧ phase ≠ .taken p ∧
      (phase = .skipping → core.cursor ≠ q)

section Bypassed

variable {phase phase' : Phase} {core core' : Core} {q p : Nat}

/-- The other phases have no choice of the scheduler under way. -/
theorem bypassed_of_ahead (ahead : Ahead core.cursor q p)
    (chosen : ∀ r, phase ≠ .chosen r) (taken : ∀ r, phase ≠ .taken r)
    (skipping : phase ≠ .skipping) : Bypassed q p phase core :=
  Or.inr (Or.inr ⟨ahead, chosen p, taken p, fun same => absurd same skipping⟩)

theorem runnable_lt (holds : Holds phase core)
    (waits : core.state q = .runnable) : q < core.nproc :=
  holds.lt_nproc (by simp [waits]) (by simp [waits])

/-- As long as `q` waits, it stays ahead of `p`. -/
theorem Bypassed.move (bypassed : Bypassed q p phase core)
    (holds : Holds phase core) (move : Move phase core phase' core')
    (waits : core.state q = .runnable) (waits' : core'.state q = .runnable) :
    Bypassed q p phase' core' := by
  have target := runnable_lt holds waits
  cases move with
  | stay => exact bypassed
  | take r =>
      rcases bypassed with same | impossible | ⟨ahead, notChosen, _, _⟩
      · cases same
        exact Or.inr (Or.inl rfl)
      · cases impossible
      · refine Or.inr (Or.inr ⟨ahead, nofun, ?_, nofun⟩)
        rintro ⟨⟩
        exact notChosen rfl
  | choose r =>
      rcases bypassed with impossible | impossible | ⟨ahead, _, _, _⟩
      · cases impossible
      · cases impossible
      · rcases holds.extra with ⟨_, rfl⟩
        by_cases same : core.cursor = q
        · rw [same]
          exact Or.inl rfl
        · refine Or.inr (Or.inr ⟨ahead.next holds.cursor target same, ?_,
            nofun, nofun⟩)
          intro chosen
          exact ahead.ne (Phase.chosen.inj chosen)
  | miss notRunnable =>
      rcases bypassed with impossible | impossible | ⟨ahead, _, _, _⟩
      · cases impossible
      · cases impossible
      · refine Or.inr (Or.inr ⟨ahead, nofun, nofun, ?_⟩)
        rintro _ rfl
        exact notRunnable waits
  | skip =>
      rcases bypassed with impossible | impossible | ⟨ahead, _, _, passes⟩
      · cases impossible
      · cases impossible
      · exact bypassed_of_ahead
          (ahead.next holds.cursor target (passes rfl)) nofun nofun nofun
  | dispatch r =>
      rcases bypassed with impossible | same | ⟨ahead, _, _, _⟩
      · cases impossible
      · -- the process that waits is dispatched, and waits no longer
        cases same
        rw [Core.state_setState_self] at waits'
        cases waits'
      · exact bypassed_of_ahead ahead nofun nofun nofun
  | _ =>
      rcases bypassed with impossible | impossible | ⟨ahead, _, _, _⟩
      · cases impossible
      · cases impossible
      · exact bypassed_of_ahead ahead nofun nofun nofun

theorem Bypassed.not_taken (bypassed : Bypassed q p phase core)
    (other : p ≠ q) : phase ≠ .taken p := by
  rintro rfl
  rcases bypassed with impossible | same | ⟨_, _, notTaken, _⟩
  · cases impossible
  · exact other (Phase.taken.inj same)
  · exact notTaken rfl

/-- A process starts to run only when the scheduler has settled on it. -/
theorem taken_of_dispatch (holds : Holds phase core)
    (move : Move phase core phase' core') (before : core.state p = .runnable)
    (after : core'.state p = .running) : phase = .taken p := by
  rcases holds.change move p with same | change
  · rw [Core.state, same] at after
    cases before.symm.trans after
  · unfold Core.state at after
    generalize core'.procs p = proc' at change after
    cases change with
    | reserve state => cases before.symm.trans state
    | ready _ state => cases before.symm.trans state
    | dispatch taken _ _ => exact taken
    | leave how _ _ state => cases before.symm.trans state
    | store how _ _ =>
        rw [store_state] at after
        cases before.symm.trans after

/-- A dispatch of `p` leaves every process that waits ahead of it. -/
theorem bypassed_of_dispatch (holds : Holds (.taken p) core)
    (move : Move (.taken p) core phase' core')
    (after : core'.state p = .running) (waits : core.state q = .runnable)
    (other : p ≠ q) : Bypassed q p phase' core' := by
  rcases holds.extra with ⟨runnable, cursor⟩
  cases move with
  | stay => cases runnable.symm.trans after
  | dispatch =>
      have inside : p < core.nproc := runnable_lt holds runnable
      have ahead := ahead_past inside (runnable_lt holds waits) other
      rw [← cursor] at ahead
      exact bypassed_of_ahead ahead nofun nofun nofun

end Bypassed

/-! ## Runs of the machine -/

/-- The step dispatches `p`. -/
def Dispatches (p : Nat) (before after : Machine) : Prop :=
  (before.kernel.procs p).state = .runnable ∧
    (after.kernel.procs p).state = .running

instance (p : Nat) (before after : Machine) :
    Decidable (Dispatches p before after) :=
  inferInstanceAs (Decidable (_ ∧ _))

/-- How often a run dispatches `p`. -/
def dispatches (p : Nat) (first : Machine) (steps : List (Event × Machine)) :
    Nat :=
  count (fun before _ after => Dispatches p before after) first steps

/-- The process is `RUNNABLE` in every state of the run. -/
def Waits (q : Nat) (first : Machine) (steps : List (Event × Machine)) : Prop :=
  (first.kernel.procs q).state = .runnable ∧
    ∀ entry ∈ steps, (entry.2.kernel.procs q).state = .runnable

instance (q : Nat) (first : Machine) (steps : List (Event × Machine)) :
    Decidable (Waits q first steps) :=
  inferInstanceAs (Decidable (_ ∧ _))

theorem Waits.tail {q : Nat} {first second : Machine} {event : Event}
    {steps : List (Event × Machine)}
    (waits : Waits q first ((event, second) :: steps)) : Waits q second steps :=
  ⟨waits.2 _ List.mem_cons_self,
    fun entry member => waits.2 entry (List.mem_cons_of_mem _ member)⟩

section Steps

variable {layout : Layout} {phase : Phase} {machine machine' : Machine}
variable {event : Event} {q p : Nat}

/-- What one step does to the order of the two processes. -/
theorem bypassed_step (good : Good phase machine)
    (stepped : step layout event machine = some (.ok machine'))
    (waits : (machine.kernel.procs q).state = .runnable)
    (waits' : (machine'.kernel.procs q).state = .runnable) (other : p ≠ q) :
    ∃ phase', Good phase' machine' ∧
      (Dispatches p machine machine' →
        Bypassed q p phase' (core machine'.kernel)) ∧
      (Bypassed q p phase (core machine.kernel) →
        ¬ Dispatches p machine machine' ∧
          Bypassed q p phase' (core machine'.kernel)) := by
  have holds := good.fits.holds
  rcases (good.step stepped).2 machine' rfl with ⟨phase', good', next⟩
  refine ⟨phase', good', ?_⟩
  have state' (r : Nat) :
      (machine'.kernel.procs r).state = (core machine'.kernel).state r := rfl
  unfold Dispatches
  rw [state'] at waits' ⊢
  generalize core machine'.kernel = core' at next waits' ⊢
  cases next with
  | move notTick move =>
      constructor
      · rintro ⟨before, after⟩
        obtain rfl := taken_of_dispatch holds move before after
        exact bypassed_of_dispatch holds move after waits other
      · intro bypassed
        refine ⟨?_, bypassed.move holds move waits waits'⟩
        rintro ⟨before, after⟩
        exact bypassed.not_taken other
          (taken_of_dispatch holds move before after)
  | tick unmasked =>
      have idle (before : (core machine.kernel).state p = .runnable)
          (after : (core machine.kernel).tick.state p = .running) : False := by
        rw [Core.tick_state_of_ne before (by simp)] at after
        cases after
      exact ⟨fun both => (idle both.1 both.2).elim,
        fun bypassed => ⟨fun both => idle both.1 both.2, bypassed⟩⟩

variable {steps : List (Event × Machine)}

/-- A process that is behind `q` is not dispatched while `q` waits. -/
theorem dispatches_of_bypassed (good : Good phase machine)
    (path : Path (step layout) machine steps machine')
    (waits : Waits q machine steps) (other : p ≠ q)
    (bypassed : Bypassed q p phase (core machine.kernel)) :
    dispatches p machine steps = 0 := by
  induction path generalizing phase with
  | nil machine => rfl
  | cons head rest induction =>
      rcases bypassed_step good head waits.1 waits.tail.1 other with
        ⟨phase', good', _, stays⟩
      rcases stays bypassed with ⟨notNow, bypassed'⟩
      have later := induction good' waits.tail bypassed'
      rw [dispatches, count, if_neg notNow, Nat.zero_add]
      exact later

theorem dispatches_le_one (good : Good phase machine)
    (path : Path (step layout) machine steps machine')
    (waits : Waits q machine steps) (other : p ≠ q) :
    dispatches p machine steps ≤ 1 := by
  induction path generalizing phase with
  | nil machine => exact Nat.zero_le 1
  | @cons first second last event steps head rest induction =>
      rcases bypassed_step good head waits.1 waits.tail.1 other with
        ⟨phase', good', falls, _⟩
      by_cases now : Dispatches p first second
      · -- from here on `p` is behind `q`
        have later := dispatches_of_bypassed good' rest waits.tail other
          (falls now)
        rw [dispatches] at later
        rw [dispatches, count, if_pos now, later]
      · have later := induction good' waits.tail
        rw [dispatches] at later
        rwa [dispatches, count, if_neg now, Nat.zero_add]

end Steps

/--
In every run, over any interval in which a process is continuously `RUNNABLE`,
no other process is dispatched twice, whatever is called, spawned or interrupted
meanwhile.
-/
theorem round_robin_bounded_bypass {layout : Layout} {first last : Machine}
    {steps : List (Event × Machine)} {q p : Nat}
    (reachable : Reachable layout first)
    (path : Path (step layout) first steps last)
    (waits : Waits q first steps) (other : p ≠ q) :
    dispatches p first steps ≤ 1 := by
  rcases good_of_reachable reachable with ⟨phase, good⟩
  exact dispatches_le_one good path waits other

/-- Two processes: the second waits while the first is dispatched and yields. -/
theorem round_robin_bounded_bypass_yield :
    ∃ first last steps, Reachable sampleLayout first ∧
      Path (step sampleLayout) first steps last ∧ Waits 2 first steps ∧
      dispatches 1 first steps = 1 ∧ dispatches 1 first steps ≤ 1 := by
  have ran : ((follow (step sampleLayout)
      (.call (.spawn sampleDesc) :: List.replicate 16 .run ++
        .call (.spawn sampleDesc) :: List.replicate 16 .run) sampleBoot).bind
      fun run => (follow (step sampleLayout)
        (.call .idlemain :: List.replicate 13 .run ++
          .call .yield :: List.replicate 15 .run) run.2).map
        fun run' => (decide (Waits 2 run.2 run'.1), dispatches 1 run.2 run'.1)) =
      some (true, 1) := by decide +kernel
  rcases Option.bind_eq_some_iff.mp ran with ⟨⟨_, first⟩, booted, ran'⟩
  rcases Option.map_eq_some_iff.mp ran' with ⟨⟨steps, last⟩, followed, facts⟩
  rcases Prod.mk.inj facts with ⟨waits, once⟩
  have reachable := reachable_of_follow booted
  have path := Path.of_follow followed
  have waits' := of_decide_eq_true waits
  exact ⟨first, last, steps, reachable, path, waits', once,
    round_robin_bounded_bypass reachable path waits' (by decide)⟩

end Rt64.Kernel.RoundRobin
