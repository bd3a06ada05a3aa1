import Rt64.Kernel.Processor

/-!
# The search for a runnable process

`find_runnable_proc` goes around the process table from its cursor until it comes
to a runnable process.  With one in the table it gets there before it has looked
at any entry twice.  Without one it goes on for ever, and `idlemain` does not come
to its `hlt`.
-/

namespace Rt64.Kernel.RunnableSearch

open Rt64.Lib.Transition
open Rt64.Include.Defs
open Rt64.Kernel.Process
open Rt64.Kernel.Processor

/-- The next statement is the test in the loop. -/
def atProbe (machine : Machine) : Bool :=
  match machine.code with
  | .probe :: _ => true
  | _ => false

/-- The number of entries that a run looks at. -/
def probes : Machine → List (Event × Machine) → Nat :=
  count fun before _ _ => atProbe before = true

/-- The machine at the test, with the given cursor. -/
def searching (machine : Machine) (rest : List Stmt) (cursor : Nat) : Machine :=
  { machine with
    kernel := { machine.kernel with cursor }
    code := .probe :: rest }

/-- The machine at the return from the search, which has found `p`. -/
def found (machine : Machine) (rest : List Stmt) (p : Nat) : Machine :=
  { machine with
    kernel :=
      { machine.kernel with cursor := (p + 1) % machine.kernel.nproc }
    code := .choose (some p) :: rest }

section Search

variable {layout : Layout} {machine : Machine} {rest : List Stmt}
variable {cursor : Nat}

theorem follow_run {first second last : Machine} {events : List Event}
    {steps : List (Event × Machine)}
    (head : step layout .run first = some (.ok second))
    (tail : follow (step layout) events second = some (steps, last)) :
    follow (step layout) (.run :: events) first =
      some ((.run, second) :: steps, last) := by
  simp only [follow, head, tail, Option.map_some]

/-- The test is replaced by what it unfolds to. -/
theorem step_probe {more : List Stmt}
    (tested : Stmt.exec (searching machine rest cursor).kernel .probe =
      .ok ((searching machine rest cursor).kernel, more)) :
    step layout .run (searching machine rest cursor) =
      some (.ok { searching machine rest cursor with code := more ++ rest }) := by
  show some (Stmt.exec (searching machine rest cursor).kernel .probe >>= _) = _
  rw [tested]
  rfl

/-- A test that fails. -/
theorem step_miss
    (miss : (machine.kernel.procs cursor).state ≠ .runnable) :
    step layout .run (searching machine rest cursor) =
      some (.ok { searching machine rest cursor with
        code := .advance :: .probe :: rest }) :=
  step_probe (if_neg miss)

/-- A test that succeeds. -/
theorem step_hit
    (hit : (machine.kernel.procs cursor).state = .runnable) :
    step layout .run (searching machine rest cursor) =
      some (.ok { searching machine rest cursor with
        code := .advance :: .choose (some cursor) :: rest }) :=
  step_probe (if_pos hit)

/-- The cursor moves on. -/
theorem step_advance :
    step layout .run { searching machine rest cursor with
        code := .advance :: .probe :: rest } =
      some (.ok (searching machine rest
        ((cursor + 1) % machine.kernel.nproc))) :=
  rfl

/-- The search ends at the first runnable process from the cursor on. -/
theorem search_hits {d : Nat} (inside : cursor < machine.kernel.nproc)
    (misses : ∀ j < d, (machine.kernel.procs
      ((cursor + j) % machine.kernel.nproc)).state ≠ .runnable)
    (hit : (machine.kernel.procs
      ((cursor + d) % machine.kernel.nproc)).state = .runnable) :
    ∃ steps, follow (step layout) (List.replicate (2 * (d + 1)) .run)
        (searching machine rest cursor) =
          some (steps, found machine rest
            ((cursor + d) % machine.kernel.nproc)) ∧
      probes (searching machine rest cursor) steps = d + 1 := by
  induction d generalizing cursor with
  | zero =>
      have here : (cursor + 0) % machine.kernel.nproc = cursor :=
        Nat.mod_eq_of_lt inside
      rw [here] at hit ⊢
      exact ⟨_, follow_run (step_hit hit) (follow_run rfl rfl), rfl⟩
  | succ d induction =>
      have around (j : Nat) : ((cursor + 1) % machine.kernel.nproc + j) %
          machine.kernel.nproc = (cursor + (j + 1)) % machine.kernel.nproc := by
        rw [Nat.mod_add_mod, Nat.add_assoc, Nat.add_comm 1 j]
      have here : (cursor + 0) % machine.kernel.nproc = cursor :=
        Nat.mod_eq_of_lt inside
      have miss := misses 0 (Nat.succ_pos d)
      rw [here] at miss
      rcases induction (Nat.mod_lt _ (Nat.zero_lt_of_lt inside))
        (fun j before => around j ▸ misses (j + 1) (Nat.succ_lt_succ before))
        (around d ▸ hit) with ⟨steps, followed, counted⟩
      rw [around] at followed
      refine ⟨_, follow_run (step_miss miss) (follow_run step_advance followed),
        ?_⟩
      show 1 + (0 + probes _ steps) = d + 1 + 1
      rw [counted]
      omega

/-- Some number of steps around the table leads from the cursor to an entry. -/
theorem exists_distance {size p : Nat} (inside : cursor < size) (entry : p < size) :
    ∃ d < size, (cursor + d) % size = p := by
  rcases Nat.lt_or_ge p cursor with behind | ahead
  · refine ⟨size - cursor + p, by omega, ?_⟩
    have once : cursor + (size - cursor + p) = p + size := by omega
    rw [once, Nat.add_mod_right, Nat.mod_eq_of_lt entry]
  · refine ⟨p - cursor, by omega, ?_⟩
    rw [Nat.add_sub_cancel' ahead, Nat.mod_eq_of_lt entry]

/-- With no runnable process in the table, the search goes on. -/
theorem search_goes_on (inside : cursor < machine.kernel.nproc)
    (blocked : ∀ p < machine.kernel.nproc,
      (machine.kernel.procs p).state ≠ .runnable) (k : Nat) :
    ∃ steps last, follow (step layout) (List.replicate k .run)
        (searching machine rest cursor) = some (steps, last) ∧
      (last.code = .probe :: rest ∨ last.code = .advance :: .probe :: rest) := by
  -- two steps take the search to the next entry
  induction k using Nat.twoStepInduction generalizing cursor with
  | zero => exact ⟨_, _, rfl, Or.inl rfl⟩
  | one =>
      exact ⟨_, _, follow_run (step_miss (blocked cursor inside)) rfl, Or.inr rfl⟩
  | more k induction _ =>
      rcases induction (Nat.mod_lt (cursor + 1) (Nat.zero_lt_of_lt inside)) with
        ⟨steps, last, followed, code⟩
      exact ⟨_, last, follow_run (step_miss (blocked cursor inside))
        (follow_run step_advance followed), code⟩

/-- With a runnable process in the table, the search comes to the first one. -/
theorem search_ends (inside : machine.kernel.cursor < machine.kernel.nproc)
    (someRunnable : ∃ p < machine.kernel.nproc,
      (machine.kernel.procs p).state = .runnable) :
    ∃ d steps,
      let p := (machine.kernel.cursor + d) % machine.kernel.nproc
      (machine.kernel.procs p).state = .runnable ∧
      (∀ j < d, (machine.kernel.procs
        ((machine.kernel.cursor + j) % machine.kernel.nproc)).state ≠
          .runnable) ∧
      follow (step layout) (List.replicate (2 * (d + 1)) .run)
          (searching machine rest machine.kernel.cursor) =
        some (steps, found machine rest p) ∧
      probes (searching machine rest machine.kernel.cursor) steps = d + 1 ∧
      d + 1 ≤ machine.kernel.nproc ∧
      step layout .run (found machine rest p) =
        some (.ok { found machine rest p with code := dispatch p ++ rest }) := by
  rcases someRunnable with ⟨p, entry, runnable⟩
  rcases exists_distance inside entry with ⟨bound, near, isEntry⟩
  have reached : ∃ d, (machine.kernel.procs
      ((machine.kernel.cursor + d) % machine.kernel.nproc)).state =
        .runnable := ⟨bound, isEntry.symm ▸ runnable⟩
  have first : Nat.find reached ≤ bound :=
    Nat.find_min' reached (isEntry.symm ▸ runnable)
  rcases @search_hits layout machine rest _ _ inside
    (fun j before => Nat.find_min reached before) (Nat.find_spec reached) with
    ⟨steps, followed, counted⟩
  exact ⟨Nat.find reached, steps, Nat.find_spec reached,
    fun j before => Nat.find_min reached before, followed, counted, by omega,
    rfl⟩

end Search

/--
For every process table and every cursor in it: exactly if a process of the table
is runnable, the search, when no interrupt comes, returns the first one in cyclic
order from the cursor after no more tests than there are processes, moves the
cursor just past it, and `idlemain` goes on with its dispatch.  Otherwise the
search never returns.
-/
theorem runnable_search_ends (layout : Layout) {machine : Machine}
    {rest : List Stmt} (code : machine.code = .probe :: rest)
    (inside : machine.kernel.cursor < machine.kernel.nproc) :
    ((∃ p < machine.kernel.nproc,
      (machine.kernel.procs p).state = .runnable) ↔
    ∃ d steps,
      let p := (machine.kernel.cursor + d) % machine.kernel.nproc
      (machine.kernel.procs p).state = .runnable ∧
      (∀ j < d, (machine.kernel.procs
        ((machine.kernel.cursor + j) % machine.kernel.nproc)).state ≠
          .runnable) ∧
      follow (step layout) (List.replicate (2 * (d + 1)) .run) machine =
        some (steps, found machine rest p) ∧
      probes machine steps = d + 1 ∧ d + 1 ≤ machine.kernel.nproc ∧
      step layout .run (found machine rest p) =
        some (.ok { found machine rest p with code := dispatch p ++ rest })) ∧
    ((∀ p < machine.kernel.nproc,
      (machine.kernel.procs p).state ≠ .runnable) ↔
    ∀ k, ∃ steps last,
      follow (step layout) (List.replicate k .run) machine =
        some (steps, last) ∧
      (last.code = .probe :: rest ∨
        last.code = .advance :: .probe :: rest)) := by
  have isSearching : machine =
      searching machine rest machine.kernel.cursor := by
    rw [searching, ← code]
  have ends := @search_ends layout machine rest inside
  have goesOn := @search_goes_on layout machine rest _ inside
  rw [← isSearching] at ends goesOn
  refine ⟨⟨ends, ?_⟩, ⟨goesOn, ?_⟩⟩
  · rintro ⟨d, steps, runnable, -⟩
    exact ⟨_, Nat.mod_lt _ (Nat.zero_lt_of_lt inside), runnable⟩
  · intro searches p entry runnable
    rcases ends ⟨p, entry, runnable⟩ with ⟨d, steps, -, -, followed, -⟩
    rcases searches (2 * (d + 1)) with ⟨steps', last, followed', code'⟩
    rw [followed] at followed'
    rw [← (Prod.mk.inj (Option.some.inj followed')).2] at code'
    exact code'.elim nofun nofun

/-- The machine has only the search left. -/
theorem code_of_atProbe {machine : Machine} (probing : atProbe machine = true)
    (short : machine.code.length = 1) : machine.code = [.probe] := by
  unfold atProbe at probing
  split at probing
  · rename_i rest shape
    rw [shape, List.length_cons, Nat.add_eq_right] at short
    rw [shape, List.length_eq_zero_iff.mp short]
  · cases probing

/-- One process has been created, and the boot thread is the idle process. -/
def sampleSearch : List Event :=
  .call (.spawn sampleDesc) :: List.replicate 16 .run ++
    .call .idlemain :: List.replicate 2 .run

/-- The search from the cursor 0 passes over the idle process. -/
theorem runnable_search_ends_second :
    ∃ machine, (follow (step sampleLayout) sampleSearch sampleBoot).map
        Prod.snd = some machine ∧
      ∃ d steps, (machine.kernel.cursor + d) % machine.kernel.nproc = 1 ∧
        follow (step sampleLayout) (List.replicate (2 * (d + 1)) .run) machine =
          some (steps, found machine [] 1) ∧
        probes machine steps ≤ machine.kernel.nproc := by
  have ran : ((follow (step sampleLayout) sampleSearch sampleBoot).map
      fun run => (atProbe run.2, run.2.code.length, run.2.kernel.cursor,
        run.2.kernel.nproc, (run.2.kernel.procs 0).state,
          (run.2.kernel.procs 1).state)) =
      some (true, 1, 0, 2, .running, .runnable) := by decide +kernel
  rcases Option.map_eq_some_iff.mp ran with ⟨⟨before, machine⟩, booted, facts⟩
  simp only [Prod.mk.injEq] at facts
  rcases facts with ⟨probing, short, cursor, nproc, idle, runnable⟩
  rcases (runnable_search_ends sampleLayout (code_of_atProbe probing short)
    (by omega)).1.mp ⟨1, by omega, runnable⟩ with
    ⟨d, steps, hit, _, followed, counted, few, _⟩
  have second : (machine.kernel.cursor + d) % machine.kernel.nproc = 1 := by
    rcases Nat.eq_zero_or_pos d with rfl | moved
    · rw [cursor, Nat.zero_mod, idle] at hit
      cases hit
    · rw [cursor, nproc]
      omega
  rw [second] at followed
  exact ⟨machine, by rw [booted]; rfl, d, steps, second, followed, by omega⟩

/--
The idle process is alone, so nothing is runnable.  The search never returns,
and `idlemain` never comes to its `hlt`.
-/
theorem runnable_search_diverges :
    ∃ machine, Reachable sampleLayout machine ∧ machine.code = [.probe] ∧
      machine.kernel.nproc = 1 ∧ machine.kernel.cursor = 0 ∧
      (machine.kernel.procs 0).state = .running ∧
      ∀ k, ∃ steps last,
        follow (step sampleLayout) (List.replicate k .run) machine =
          some (steps, last) ∧
        (last.code = [.probe] ∨ last.code = [.advance, .probe]) := by
  have ran : ((follow (step sampleLayout) [.call .idlemain, .run, .run]
      sampleBoot).map fun run => (atProbe run.2, run.2.code.length,
        run.2.kernel.nproc, run.2.kernel.cursor,
          (run.2.kernel.procs 0).state)) =
      some (true, 1, 1, 0, .running) := by decide +kernel
  rcases Option.map_eq_some_iff.mp ran with ⟨⟨before, machine⟩, booted, facts⟩
  simp only [Prod.mk.injEq] at facts
  rcases facts with ⟨probing, short, nproc, cursor, idle⟩
  have code := code_of_atProbe probing short
  have isSearching : searching machine [] 0 = machine := by
    rw [searching, ← code, ← cursor]
  have blocked : ∀ p < machine.kernel.nproc,
      (machine.kernel.procs p).state ≠ .runnable := by
    intro p entry
    have zero : p = 0 := by omega
    rw [zero, idle]
    exact ProcState.noConfusion
  have goesOn := @search_goes_on sampleLayout machine [] 0 (by omega) blocked
  rw [isSearching] at goesOn
  exact ⟨machine, reachable_of_follow booted, code, nproc, cursor, idle, goesOn⟩

end Rt64.Kernel.RunnableSearch
