import Rt64.Kernel.Process

/-!
# What the scheduler does, step by step

An abstract account of scheduling that forgets the statements.  A `Core` is the
part of the kernel's variables that scheduling works on, a `Phase` says what the
thread on the processor is in the middle of, and `Move` lists everything that
can happen next.  Each phase has its own facts about the core, and all moves and
timer traps keep them.
-/

namespace Rt64.Kernel.Rounds

open Rt64.Include.Defs
open Rt64.Kernel.Process

/-- The variables of the scheduler.  The idle process has index 0. -/
structure Core where
  procs : Nat → Proc
  nproc : Nat
  curproc : Nat
  cursor : Nat

namespace Core

def state (core : Core) (p : Nat) : ProcState :=
  (core.procs p).state

def setProc (core : Core) (p : Nat) (proc : Proc) : Core :=
  { core with procs := Function.update core.procs p proc }

def setState (core : Core) (p : Nat) (state : ProcState) : Core :=
  core.setProc p { core.procs p with state }

/-- The cursor after one more step around the table. -/
def advance (core : Core) : Core :=
  { core with cursor := (core.cursor + 1) % core.nproc }

theorem state_setState (core : Core) (p q : Nat) (state : ProcState) :
    (core.setState p state).state q =
      if q = p then state else core.state q := by
  by_cases same : q = p
  · subst same
    simp [Core.state, setState, setProc]
  · simp [Core.state, setState, setProc, same]

@[simp]
theorem state_setState_self (core : Core) (p : Nat) (state : ProcState) :
    (core.setState p state).state p = state := by
  rw [state_setState, if_pos rfl]

end Core

/-! ## The timer -/

/-- What a timer trap does to one entry of the table. -/
def tickEntry (proc : Proc) : Proc :=
  if proc.state = .sleeping then
    if proc.sleeprem - 1 = 0 then
      { proc with sleeprem := proc.sleeprem - 1, state := .runnable }
    else
      { proc with sleeprem := proc.sleeprem - 1 }
  else
    proc

theorem tickProc_eq (procs : Nat → Proc) (i : Nat) :
    tickProc procs i = Function.update procs i (tickEntry (procs i)) := by
  unfold tickProc tickEntry
  split
  · dsimp only
    split <;> rfl
  · rw [Function.update_eq_self]

/-- The loop of the timer trap visits every entry below `nproc` once. -/
theorem foldl_tickProc (procs : Nat → Proc) (count q : Nat) :
    (List.range count).foldl tickProc procs q =
      if q < count then tickEntry (procs q) else procs q := by
  induction count generalizing q with
  | zero => rfl
  | succ count induction =>
      rw [List.range_succ, List.foldl_append, List.foldl_cons,
        List.foldl_nil, tickProc_eq, induction, if_neg (Nat.lt_irrefl count)]
      by_cases same : q = count
      · rw [same, Function.update_self, if_pos (Nat.lt_succ_self count)]
      · rw [Function.update_of_ne same, induction]
        by_cases before : q < count
        · rw [if_pos before, if_pos (by omega)]
        · rw [if_neg before, if_neg (by omega)]

def Core.tick (core : Core) : Core :=
  { core with procs := (List.range core.nproc).foldl tickProc core.procs }

theorem Core.tick_procs (core : Core) (q : Nat) :
    core.tick.procs q =
      if q < core.nproc then tickEntry (core.procs q) else core.procs q :=
  foldl_tickProc core.procs core.nproc q

theorem tickEntry_of_not_sleeping {proc : Proc}
    (awake : proc.state ≠ .sleeping) : tickEntry proc = proc := by
  rw [tickEntry, if_neg awake]

theorem Core.tick_procs_of_not_sleeping {core : Core} {q : Nat}
    (awake : core.state q ≠ .sleeping) :
    core.tick.procs q = core.procs q := by
  rw [core.tick_procs, tickEntry_of_not_sleeping awake]
  split <;> rfl

/-! ## Phases -/

/-- How a process gives up the processor. -/
inductive Leave where
  | yield
  | sleep (nticks : Int)
  | exit (retval : BitVec 64)

/-- The state that the process leaves itself in. -/
def Leave.state : Leave → ProcState
  | .yield => .runnable
  | .sleep _ => .sleeping
  | .exit _ => .exited

/-- What it stores besides. -/
def Leave.store : Leave → Proc → Proc
  | .yield, proc => proc
  | .sleep nticks, proc => { proc with sleeprem := nticks }
  | .exit retval, proc => { proc with retval }

/-- What the thread on the processor is doing. -/
inductive Phase where
  /-- The thread `t` runs, and the table is at rest. -/
  | own (t : Nat)
  /-- `t` creates the process `p`: its entry is unused, marked or filled in. -/
  | fresh (t p : Nat)
  | reserving (t p : Nat)
  | filling (t p : Nat)
  /-- `t` gives up the processor: interrupts are off, its state is stored, all
  is stored, `curproc` is the idle process. -/
  | quiet (t : Nat) (how : Leave)
  | stored (t : Nat) (how : Leave)
  | left (t : Nat) (how : Leave)
  | handed (t : Nat) (how : Leave)
  /-- The idle process has found the entry at the cursor not runnable. -/
  | skipping
  /-- The idle process has found `p`, moved the cursor past it, made it
  `curproc`, made it run. -/
  | found (p : Nat)
  | chosen (p : Nat)
  | taken (p : Nat)
  | sent (p : Nat)

namespace Phase

/-- The thread on the processor. -/
def thread : Phase → Nat
  | .own t | .fresh t _ | .reserving t _ | .filling t _ => t
  | .quiet t _ | .stored t _ | .left t _ | .handed t _ => t
  | .skipping | .found _ | .chosen _ | .taken _ | .sent _ => 0

/-- The value of `curproc`. -/
def curproc : Phase → Nat
  | .own t | .fresh t _ | .reserving t _ | .filling t _ => t
  | .quiet t _ | .stored t _ | .left t _ => t
  | .handed _ _ | .skipping | .found _ | .chosen _ => 0
  | .taken p | .sent p => p

/-- The process in state `RUNNING`, besides the idle process. -/
def runner : Phase → Nat
  | .own t | .fresh t _ | .reserving t _ | .filling t _ => t
  | .quiet t _ => t
  | .stored _ _ | .left _ _ | .handed _ _ => 0
  | .skipping | .found _ | .chosen _ | .taken _ => 0
  | .sent p => p

/-- Interrupts are off. -/
def masked : Phase → Bool
  | .quiet _ _ | .stored _ _ | .left _ _ | .handed _ _ => true
  | _ => false

/-- From where on the table is unused. -/
def used (core : Core) : Phase → Nat
  | .reserving _ _ => core.nproc + 1
  | _ => core.nproc

/-- What else is known in a phase. -/
def Extra (core : Core) : Phase → Prop
  | .own _ | .skipping => True
  | .fresh _ p => p = core.nproc ∧ core.nproc < maxProc
  | .reserving _ p =>
      p = core.nproc ∧ core.nproc < maxProc ∧ core.state p = .reserve
  | .filling _ p => core.state p = .reserve
  | .quiet t _ => t ≠ 0
  | .stored t how | .left t how | .handed t how =>
      t ≠ 0 ∧ core.state t = how.state
  | .found p => core.state p = .runnable ∧ core.cursor = p
  | .chosen p | .taken p =>
      core.state p = .runnable ∧ core.cursor = (p + 1) % core.nproc
  | .sent p => p ≠ 0

end Phase

/-- The facts about the scheduler's variables in a phase. -/
structure Holds (phase : Phase) (core : Core) : Prop where
  curproc : core.curproc = phase.curproc
  running : ∀ p, core.state p = .running ↔ p = 0 ∨ p = phase.runner
  unused : ∀ p, phase.used core ≤ p → core.state p = .uninit
  cursor : core.cursor < core.nproc
  bounded : core.nproc ≤ maxProc
  extra : phase.Extra core

/-! ## Moves -/

/-- One step of the thread on the processor. -/
inductive Move : Phase → Core → Phase → Core → Prop where
  | stay (phase : Phase) (core : Core) : Move phase core phase core
  | create (t : Nat) {core : Core} (room : core.nproc < maxProc) :
      Move (.own t) core (.fresh t core.nproc) core
  | reserve (t p : Nat) (core : Core) :
      Move (.fresh t p) core (.reserving t p) (core.setState p .reserve)
  | takePid (t p : Nat) (core : Core) :
      Move (.reserving t p) core (.filling t p)
        { core with nproc := core.nproc + 1 }
  | ready (t p : Nat) (core : Core) :
      Move (.filling t p) core (.own t) (core.setState p .runnable)
  | mask {t : Nat} (how : Leave) (core : Core) (process : t ≠ 0) :
      Move (.own t) core (.quiet t how) core
  | leave (t : Nat) (how : Leave) (core : Core) :
      Move (.quiet t how) core (.stored t how) (core.setState t how.state)
  | store (t : Nat) (how : Leave) (core : Core) :
      Move (.stored t how) core (.left t how)
        (core.setProc t (how.store (core.procs t)))
  /-- `yield` has nothing to store besides the state. -/
  | give (t : Nat) (core : Core) :
      Move (.quiet t .yield) core (.left t .yield)
        (core.setState t .runnable)
  | hand (t : Nat) (how : Leave) (core : Core) :
      Move (.left t how) core (.handed t how) { core with curproc := 0 }
  | toIdle (t : Nat) (how : Leave) (core : Core) :
      Move (.handed t how) core (.own 0) core
  | miss {core : Core} (notRunnable : core.state core.cursor ≠ .runnable) :
      Move (.own 0) core .skipping core
  | skip (core : Core) : Move .skipping core (.own 0) core.advance
  | hit {core : Core} (runnable : core.state core.cursor = .runnable) :
      Move (.own 0) core (.found core.cursor) core
  | choose (p : Nat) (core : Core) :
      Move (.found p) core (.chosen p) core.advance
  | take (p : Nat) (core : Core) :
      Move (.chosen p) core (.taken p) { core with curproc := p }
  | dispatch (p : Nat) (core : Core) :
      Move (.taken p) core (.sent p) (core.setState p .running)
  | fromIdle (p : Nat) (core : Core) : Move (.sent p) core (.own p) core

section Holds

variable {phase : Phase} {core : Core} (holds : Holds phase core)
include holds

theorem Holds.lt_used {p : Nat} (notUnused : core.state p ≠ .uninit) :
    p < phase.used core := by
  by_contra beyond
  exact notUnused (holds.unused p (by omega))

/-- An entry in use is below `nproc`, unless it is being reserved. -/
theorem Holds.lt_nproc {p : Nat} (notUnused : core.state p ≠ .uninit)
    (notReserved : core.state p ≠ .reserve) : p < core.nproc := by
  have below := holds.lt_used notUnused
  have extra := holds.extra
  cases phase with
  | reserving t r =>
      rcases extra with ⟨rfl, _, reserved⟩
      have other : p ≠ core.nproc := by
        rintro rfl
        exact notReserved reserved
      have below' : p < core.nproc + 1 := below
      omega
  | _ => exact below

theorem Holds.lt_maxProc {p : Nat} (notUnused : core.state p ≠ .uninit) :
    p < maxProc := by
  have below := holds.lt_used notUnused
  have bounded := holds.bounded
  have extra := holds.extra
  cases phase with
  | reserving t r =>
      have below' : p < core.nproc + 1 := below
      have room := extra.2.1
      omega
  | _ => exact Nat.lt_of_lt_of_le below bounded

/-- A change to an entry that does not run and will not run. -/
theorem Holds.running_setState {p : Nat} {state : ProcState}
    (before : core.state p ≠ .running) (after : state ≠ .running) (q : Nat) :
    (core.setState p state).state q = .running ↔
      q = 0 ∨ q = phase.runner := by
  rw [Core.state_setState]
  split
  · rename_i same
    subst same
    exact iff_of_false after (mt (holds.running q).mpr before)
  · exact holds.running q

/-- The process that runs leaves itself in another state. -/
theorem Holds.running_leave {t : Nat} {state : ProcState}
    (process : t ≠ 0) (runs : phase.runner = t) (after : state ≠ .running)
    (q : Nat) :
    (core.setState t state).state q = .running ↔ q = 0 ∨ q = 0 := by
  rw [Core.state_setState]
  split
  · rename_i same
    subst same
    exact iff_of_false after (by simpa using process)
  · rename_i other
    rw [holds.running, runs]
    simp [other]

/-- A process is made to run. -/
theorem Holds.running_dispatch {p : Nat} (none : phase.runner = 0)
    (q : Nat) :
    (core.setState p .running).state q = .running ↔ q = 0 ∨ q = p := by
  rw [Core.state_setState]
  split
  · rename_i same
    exact iff_of_true rfl (Or.inr same)
  · rename_i other
    rw [holds.running, none]
    simp [other]

theorem Holds.unused_setState {p : Nat} {state : ProcState}
    (inUse : core.state p ≠ .uninit) (q : Nat)
    (beyond : phase.used core ≤ q) :
    (core.setState p state).state q = .uninit := by
  have below := holds.lt_used inUse
  rw [Core.state_setState, if_neg (by omega)]
  exact holds.unused q beyond

theorem Holds.cursor_advance : core.advance.cursor < core.advance.nproc :=
  Nat.mod_lt _ (Nat.zero_lt_of_lt holds.cursor)

end Holds

/-- `curproc` is the idle process, or a process that runs, is about to run or has
just left its state behind. -/
theorem Holds.current_used (holds : Holds phase core) :
    core.state core.curproc ≠ .uninit ∧ core.state core.curproc ≠ .reserve := by
  have of_state {state : ProcState} (found : core.state phase.curproc = state)
      (used : state ≠ .uninit ∧ state ≠ .reserve) :
      core.state core.curproc ≠ .uninit ∧
        core.state core.curproc ≠ .reserve := by
    rw [holds.curproc, found]
    exact used
  have running := (holds.running phase.curproc).mpr
  have extra := holds.extra
  cases phase with
  | stored t how =>
      refine of_state extra.2 ?_
      cases how <;> exact ⟨nofun, nofun⟩
  | left t how =>
      refine of_state extra.2 ?_
      cases how <;> exact ⟨nofun, nofun⟩
  | taken p => exact of_state extra.1 ⟨nofun, nofun⟩
  | handed t how => exact of_state (running (Or.inl rfl)) ⟨nofun, nofun⟩
  | skipping => exact of_state (running (Or.inl rfl)) ⟨nofun, nofun⟩
  | found p => exact of_state (running (Or.inl rfl)) ⟨nofun, nofun⟩
  | chosen p => exact of_state (running (Or.inl rfl)) ⟨nofun, nofun⟩
  | _ => exact of_state (running (Or.inr rfl)) ⟨nofun, nofun⟩

theorem leave_state_ne_running (how : Leave) : how.state ≠ .running := by
  cases how <;> exact ProcState.noConfusion

theorem store_state (how : Leave) (proc : Proc) :
    (how.store proc).state = proc.state := by
  cases how <;> rfl

/-- A store to the other fields leaves all states alone. -/
theorem state_store (core : Core) (t : Nat) (how : Leave) (q : Nat) :
    (core.setProc t (how.store (core.procs t))).state q = core.state q := by
  by_cases same : q = t
  · subst same
    simp only [Core.state, Core.setProc, Function.update_self]
    exact store_state how _
  · simp [Core.state, Core.setProc, same]

/-- Every move keeps the facts of the phases. -/
theorem Holds.move {phase phase' : Phase} {core core' : Core}
    (holds : Holds phase core) (move : Move phase core phase' core') :
    Holds phase' core' := by
  rcases holds.extra with extra
  cases move with
  | stay => exact holds
  | create t room =>
      exact ⟨holds.curproc, holds.running, holds.unused, holds.cursor,
        holds.bounded, rfl, room⟩
  | reserve t p =>
      rcases extra with ⟨rfl, room⟩
      have isUnused := holds.unused core.nproc le_rfl
      refine ⟨holds.curproc,
        holds.running_setState (by simp [isUnused]) (by simp), ?_,
        holds.cursor, holds.bounded, rfl, room, ?_⟩
      · intro q beyond
        have beyond' : core.nproc + 1 ≤ q := beyond
        rw [Core.state_setState, if_neg (by omega)]
        exact holds.unused q (Nat.le_of_succ_le beyond')
      · exact Core.state_setState_self ..
  | takePid t p =>
      rcases extra with ⟨rfl, room, reserved⟩
      exact ⟨holds.curproc, holds.running, holds.unused,
        Nat.lt_succ_of_lt holds.cursor, room, reserved⟩
  | ready t p =>
      have reserved : core.state p = .reserve := extra
      exact ⟨holds.curproc,
        holds.running_setState (by simp [reserved]) (by simp),
        holds.unused_setState (by simp [reserved]), holds.cursor,
        holds.bounded, trivial⟩
  | mask how core process =>
      exact ⟨holds.curproc, holds.running, holds.unused, holds.cursor,
        holds.bounded, process⟩
  | leave t how =>
      have runs : core.state t = .running :=
        (holds.running t).mpr (Or.inr rfl)
      exact ⟨holds.curproc,
        holds.running_leave extra rfl (leave_state_ne_running how),
        holds.unused_setState (by simp [runs]), holds.cursor, holds.bounded,
        extra, Core.state_setState_self ..⟩
  | store t how =>
      refine ⟨holds.curproc, ?_, ?_, holds.cursor, holds.bounded, extra.1, ?_⟩
      · intro q
        rw [state_store]
        exact holds.running q
      · intro q beyond
        rw [state_store]
        exact holds.unused q beyond
      · rw [state_store]
        exact extra.2
  | give t =>
      have runs : core.state t = .running :=
        (holds.running t).mpr (Or.inr rfl)
      exact ⟨holds.curproc, holds.running_leave extra rfl (by simp),
        holds.unused_setState (by simp [runs]), holds.cursor, holds.bounded,
        extra, Core.state_setState_self ..⟩
  | hand t how =>
      exact ⟨rfl, holds.running, holds.unused, holds.cursor, holds.bounded,
        extra⟩
  | toIdle t how =>
      exact ⟨holds.curproc, holds.running, holds.unused, holds.cursor,
        holds.bounded, trivial⟩
  | miss notRunnable =>
      exact ⟨holds.curproc, holds.running, holds.unused, holds.cursor,
        holds.bounded, trivial⟩
  | skip =>
      exact ⟨holds.curproc, holds.running, holds.unused,
        holds.cursor_advance, holds.bounded, trivial⟩
  | hit runnable =>
      exact ⟨holds.curproc, holds.running, holds.unused, holds.cursor,
        holds.bounded, runnable, rfl⟩
  | choose p =>
      rcases extra with ⟨runnable, rfl⟩
      exact ⟨holds.curproc, holds.running, holds.unused,
        holds.cursor_advance, holds.bounded, runnable, rfl⟩
  | take p =>
      exact ⟨rfl, holds.running, holds.unused, holds.cursor, holds.bounded,
        extra⟩
  | dispatch p =>
      have process : p ≠ 0 := by
        rintro rfl
        have runs := (holds.running 0).mpr (Or.inl rfl)
        rw [extra.1] at runs
        cases runs
      exact ⟨holds.curproc, holds.running_dispatch rfl,
        holds.unused_setState (by simp [extra.1]), holds.cursor,
        holds.bounded, process⟩
  | fromIdle p =>
      exact ⟨holds.curproc, holds.running, holds.unused, holds.cursor,
        holds.bounded, trivial⟩

/-! ## Timer traps -/

/-- A timer trap changes no state but `SLEEPING`, and only to `RUNNABLE`. -/
theorem Core.tick_state (core : Core) (q : Nat) :
    core.tick.state q = core.state q ∨
      core.state q = .sleeping ∧ core.tick.state q = .runnable := by
  by_cases asleep : core.state q = .sleeping
  · unfold Core.state at asleep
    rw [Core.state, Core.state, core.tick_procs]
    split
    · rw [tickEntry, if_pos asleep]
      split
      · exact Or.inr ⟨asleep, rfl⟩
      · exact Or.inl rfl
    · exact Or.inl rfl
  · rw [Core.state, core.tick_procs_of_not_sleeping asleep]
    exact Or.inl rfl

theorem Core.tick_state_of_ne {core : Core} {q : Nat} {state : ProcState}
    (before : core.state q = state) (awake : state ≠ .sleeping) :
    core.tick.state q = state := by
  rcases core.tick_state q with same | ⟨asleep, _⟩
  · exact same.trans before
  · exact absurd (before.symm.trans asleep) awake

/-- A timer trap keeps the facts of every phase that it can interrupt. -/
theorem Holds.tick {phase : Phase} {core : Core}
    (holds : Holds phase core) (unmasked : phase.masked = false) :
    Holds phase core.tick where
  curproc := holds.curproc
  running := by
    intro q
    rw [← holds.running q]
    rcases core.tick_state q with same | ⟨before, after⟩
    · rw [same]
    · rw [before, after]
      exact iff_of_false (by simp) (by simp)
  unused := fun q beyond =>
    Core.tick_state_of_ne (holds.unused q beyond) (by simp)
  cursor := holds.cursor
  bounded := holds.bounded
  extra := by
    rcases holds.extra with extra
    cases phase with
    | own t => trivial
    | fresh t p => exact extra
    | reserving t p =>
        exact ⟨extra.1, extra.2.1, Core.tick_state_of_ne extra.2.2 (by simp)⟩
    | filling t p => exact Core.tick_state_of_ne extra (by simp)
    | quiet t how => cases unmasked
    | stored t how => cases unmasked
    | left t how => cases unmasked
    | handed t how => cases unmasked
    | skipping => trivial
    | found p => exact ⟨Core.tick_state_of_ne extra.1 (by simp), extra.2⟩
    | chosen p => exact ⟨Core.tick_state_of_ne extra.1 (by simp), extra.2⟩
    | taken p => exact ⟨Core.tick_state_of_ne extra.1 (by simp), extra.2⟩
    | sent p => exact extra

/-! ## What a move does to an entry -/

/-- The changes that a move in the given phase can make to the entry `q`. -/
inductive Change (phase : Phase) (q : Nat) : Proc → Proc → Prop where
  | reserve {proc : Proc} (unused : proc.state = .uninit) :
      Change phase q proc { proc with state := .reserve }
  | ready {proc : Proc} (filling : ∃ t, phase = .filling t q)
      (reserved : proc.state = .reserve) :
      Change phase q proc { proc with state := .runnable }
  | dispatch {proc : Proc} (taken : phase = .taken q) (process : q ≠ 0)
      (runnable : proc.state = .runnable) :
      Change phase q proc { proc with state := .running }
  | leave {proc : Proc} (how : Leave) (quiet : phase = .quiet q how)
      (process : q ≠ 0) (runs : proc.state = .running) :
      Change phase q proc { proc with state := how.state }
  | store {proc : Proc} (how : Leave) (stored : phase = .stored q how)
      (left : proc.state = how.state) :
      Change phase q proc (how.store proc)

/-- All that can happen to an exited process is the store after its `exit`. -/
theorem Change.of_exited {phase : Phase} {q : Nat} {proc proc' : Proc}
    (change : Change phase q proc proc') (exited : proc.state = .exited) :
    ∃ how, phase = .stored q how ∧ proc' = how.store proc := by
  cases change with
  | reserve state => cases exited.symm.trans state
  | ready _ state => cases exited.symm.trans state
  | dispatch _ _ state => cases exited.symm.trans state
  | leave how _ _ state => cases exited.symm.trans state
  | store how stored _ => exact ⟨how, stored, rfl⟩

/-- An exited process stays exited. -/
theorem Change.exited {phase : Phase} {q : Nat} {proc proc' : Proc}
    (change : Change phase q proc proc') (exited : proc.state = .exited) :
    proc'.state = .exited := by
  rcases change.of_exited exited with ⟨how, _, rfl⟩
  rw [store_state]
  exact exited

theorem Core.setState_procs (core : Core) (p q : Nat) (state : ProcState) :
    (core.setState p state).procs q =
      if q = p then { core.procs p with state } else core.procs q := by
  by_cases same : q = p
  · subst same
    simp [setState, setProc]
  · simp [setState, setProc, same]

theorem Holds.change {phase phase' : Phase} {core core' : Core}
    (holds : Holds phase core) (move : Move phase core phase' core')
    (q : Nat) :
    core'.procs q = core.procs q ∨
      Change phase q (core.procs q) (core'.procs q) := by
  have after := holds.move move
  cases move with
  | stay => exact Or.inl rfl
  | create t room => exact Or.inl rfl
  | reserve t p =>
      rw [Core.setState_procs]
      split
      · rename_i same
        subst same
        rcases holds.extra with ⟨rfl, _⟩
        exact Or.inr (.reserve (holds.unused core.nproc le_rfl))
      · exact Or.inl rfl
  | takePid t p => exact Or.inl rfl
  | ready t p =>
      rw [Core.setState_procs]
      split
      · rename_i same
        subst same
        exact Or.inr (.ready ⟨t, rfl⟩ holds.extra)
      · exact Or.inl rfl
  | mask how core process => exact Or.inl rfl
  | leave t how =>
      rw [Core.setState_procs]
      split
      · rename_i same
        subst same
        exact Or.inr (.leave how rfl holds.extra
          ((holds.running q).mpr (Or.inr rfl)))
      · exact Or.inl rfl
  | store t how =>
      by_cases same : q = t
      · subst same
        simp only [Core.setProc, Function.update_self]
        exact Or.inr (.store how rfl holds.extra.2)
      · simp only [Core.setProc, Function.update_of_ne same]
        exact Or.inl trivial
  | give t =>
      rw [Core.setState_procs]
      split
      · rename_i same
        subst same
        exact Or.inr (.leave .yield rfl holds.extra
          ((holds.running q).mpr (Or.inr rfl)))
      · exact Or.inl rfl
  | hand t how => exact Or.inl rfl
  | toIdle t how => exact Or.inl rfl
  | miss notRunnable => exact Or.inl rfl
  | skip => exact Or.inl rfl
  | hit runnable => exact Or.inl rfl
  | choose p => exact Or.inl rfl
  | take p => exact Or.inl rfl
  | dispatch p =>
      rw [Core.setState_procs]
      split
      · rename_i same
        subst same
        exact Or.inr (.dispatch rfl after.extra holds.extra.1)
      · exact Or.inl rfl
  | fromIdle p => exact Or.inl rfl

/-- No move touches a process that sleeps or has exited, once it has stored all
it has to store. -/
theorem Holds.alone {phase phase' : Phase} {before after : Core} {q : Nat}
    (holds : Holds phase before) (move : Move phase before phase' after)
    (settled : before.state q = .sleeping ∨ before.state q = .exited)
    (complete : ∀ how, phase ≠ .stored q how) :
    after.procs q = before.procs q ∧ ∀ how, phase' ≠ .stored q how := by
  have not_state {state : ProcState} (found : before.state q = state)
      (other : state ≠ .sleeping ∧ state ≠ .exited) : False := by
    rcases settled with asleep | exited
    · exact other.1 (found.symm.trans asleep)
    · exact other.2 (found.symm.trans exited)
  constructor
  · rcases holds.change move q with same | change
    · exact same
    · generalize after.procs q = proc' at change
      cases change with
      | reserve state => exact (not_state state ⟨nofun, nofun⟩).elim
      | ready _ state => exact (not_state state ⟨nofun, nofun⟩).elim
      | dispatch _ _ state => exact (not_state state ⟨nofun, nofun⟩).elim
      | leave how _ _ state => exact (not_state state ⟨nofun, nofun⟩).elim
      | store how stored _ => exact absurd stored (complete how)
  · intro how entered
    subst entered
    cases move with
    | stay => exact complete how rfl
    | leave =>
        have runs := (holds.running q).mpr (Or.inr rfl)
        exact not_state runs ⟨nofun, nofun⟩

/-- A switch goes to the idle process or to the process that runs. -/
theorem Move.thread {phase phase' : Phase} {core core' : Core}
    (move : Move phase core phase' core') :
    phase'.thread = phase.thread ∨ phase'.thread = 0 ∨
      phase'.thread = phase.runner := by
  cases move with
  | toIdle => exact Or.inr (Or.inl rfl)
  | fromIdle => exact Or.inr (Or.inr rfl)
  | _ => exact Or.inl rfl

/-- A process off the processor that has exited is left alone. -/
theorem Holds.exited_alone {phase phase' : Phase} {core core' : Core}
    (holds : Holds phase core) (move : Move phase core phase' core') {q : Nat}
    (exited : core.state q = .exited) (off : phase.thread ≠ q) :
    core'.procs q = core.procs q ∧ phase'.thread ≠ q := by
  have notRunning : ¬ (q = 0 ∨ q = phase.runner) := by
    rw [← holds.running, exited]
    exact nofun
  constructor
  · rcases holds.change move q with same | change
    · exact same
    · rcases change.of_exited exited with ⟨how, stored, _⟩
      subst stored
      exact absurd rfl off
  · rcases move.thread with same | idle | runner
    · rwa [same]
    · exact fun equal => notRunning (Or.inl (equal.symm.trans idle))
    · exact fun equal => notRunning (Or.inr (equal.symm.trans runner))

end Rt64.Kernel.Rounds
