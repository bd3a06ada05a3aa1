import Rt64.Kernel.HardwareContext

/-!
# The creation of a process

`spawn` and `spawnuser` make up a context for the first switch to the new process.
Timer traps may come between their statements, but the call leaves what it would
have left without them, and then the saved stack pointer points into the kernel
stack of the process.

The statements write to the kernel's memory, the threads to the processor's.  Where
no process is yet, the two are one: what the calls have written is there at the
first switch.
-/

namespace Rt64.Kernel.Creation

open Rt64.Lib.ByteMemory
open Rt64.Lib.Transition
open Rt64.Lib.X64
open Rt64.Include.Defs
open Rt64.Kernel.Process
open Rt64.Kernel.Spawn
open Rt64.Kernel.Switch
open Rt64.Kernel.Isolation
open Rt64.Kernel.Processor
open Rt64.Kernel.Rounds
open Rt64.Kernel.Scheduler
open Rt64.Kernel.Threads
open Rt64.Kernel.Trap
open Rt64.Kernel.Contracts
open Rt64.Kernel.Main
open Rt64.Kernel.ProcessTable

/-! ## What a call leaves in memory -/

/-- What `spawn` has written for the first switch to the process. -/
structure KernelEntry (layout : Layout) (desc : NewProcDesc) (p : Nat)
    (mem : Memory) : Prop where
  ctx : ctxAt mem (ctxAddr layout p) = spawnCtx layout desc p
  ret : load64 mem (kstackAddr layout p + BitVec.ofNat 64 4088) =
    layout.spawnret

/-- What `spawnuser` has written. -/
structure UserEntry (layout : Layout) (desc : NewProcDesc) (p : Nat)
    (mem : Memory) : Prop where
  ctx : ctxAt mem (ctxAddr layout p) = spawnuserCtx layout p
  tf : tfAt mem (firstTf layout p) = spawnuserTf layout desc p
  ret : load64 mem (ustackAddr layout p + BitVec.ofNat 64 4088) =
    layout.spawnuserret

section Entry

variable {layout : Layout} (valid : Valid layout) {desc : NewProcDesc}
variable {kernel kernel' : KernelState} (room : kernel.nproc < maxProc)
include valid room

theorem kernelEntry_of_spawn
    (ran : execAll kernel (spawn layout desc kernel.nproc) = .ok kernel') :
    KernelEntry layout desc kernel.nproc kernel'.mem := by
  have prioValid : PrioValid desc :=
    @prioValid_of_execAll _ (.spawn desc) _ _ _ ran
  have same := ran.symm.trans (spawn_eq layout prioValid kernel)
  rcases Except.ok.inj same with rfl
  exact ⟨spawnMem_ctx valid room desc kernel.mem,
    spawnMem_ret valid room desc kernel.mem⟩

/-- The mapping of the user stack leaves the context and the frame alone. -/
theorem userEntry_of_spawnuser {user : BitVec 64 → Prop}
    (spaces : KernelSpaces layout kernel user)
    (ran : execAll kernel (spawnuser layout desc kernel.nproc) =
      .ok kernel') :
    UserEntry layout desc kernel.nproc kernel'.mem := by
  have prioValid : PrioValid desc :=
    @prioValid_of_execAll _ (.spawnuser desc) _ _ _ ran
  rcases ustack_mapped valid spaces room desc with ⟨heap, mapped, _, below⟩
  have same := ran.symm.trans (spawnuser_eq layout prioValid room mapped)
  rcases Except.ok.inj same with rfl
  have ctx : ctxAt heap.mem (ctxAddr layout kernel.nproc) =
      spawnuserCtx layout kernel.nproc := by
    rw [← spawnuserEntryMem_ctx room desc kernel.mem valid]
    apply contextRecord.read_congr
    intro address inside
    exact below address (valid.procsPlaced.below_last
      (within_procs_of_ctx layout room inside))
  have zero : tfAt heap.mem (firstTf layout kernel.nproc) = fun _ => 0 := by
    rw [← spawnuserEntryMem_tf room desc kernel.mem valid]
    apply trapframeRecord.read_congr
    intro address inside
    exact below address (valid.kstacksPlaced.below_last
      (within_kstacks_of_kstack layout room
        (within_kstack_of_firstTf inside)))
  refine ⟨?_, spawnuserFrameMem_tf room desc heap.mem valid zero,
    spawnuserFrameMem_ret room desc heap.mem valid⟩
  refine Eq.trans ?_ ctx
  apply contextRecord.read_congr
  intro address inside
  exact spawnuserFrameMem_outside desc heap.mem
    (ctx_apart_kstack valid room address inside)
    (ctx_apart_ustack valid room address inside)

end Entry

theorem inStack_of_kstack {layout : Layout} {areas : Stacks layout} {p : Nat}
    {address : Addr} (process : p ≠ 0)
    (inside : Within (kstackAddr layout p) 4096 address) :
    areas.InStack p address := by
  unfold Stacks.InStack Stacks.base Stacks.size
  rw [if_neg process, if_neg process]
  exact inside

/-- The saved stack pointer of a new process points into its kernel stack. -/
theorem parked_of_execAll {layout : Layout} (valid : Valid layout)
    (areas : Stacks layout) {kernel kernel' : KernelState} {call : Call}
    {user : BitVec 64 → Prop} (spaces : KernelSpaces layout kernel user)
    (process : kernel.nproc ≠ 0) (room : kernel.nproc < maxProc)
    (ran : execAll kernel (call.code layout kernel.nproc) = .ok kernel') :
    Parked areas kernel'.mem kernel.nproc := by
  have inside {offset : Nat} {place : Addr} (fits : offset + 8 ≤ 4096)
      (word : Within (kstackAddr layout kernel.nproc + BitVec.ofNat 64 offset) 8
        place) : areas.InStack kernel.nproc place :=
    inStack_of_kstack process (word.of_offset fits (by omega))
  intro place word
  cases call with
  | spawn desc =>
      rw [(kernelEntry_of_spawn valid room ran).ctx] at word
      have top : spawnCtx layout desc kernel.nproc .rsp =
          kstackAddr layout kernel.nproc + BitVec.ofNat 64 4080 := by
        rw [spawnCtx]
        bv_omega
      exact inside (by decide) (top ▸ word)
  | spawnuser desc =>
      rw [(userEntry_of_spawnuser valid room spaces ran).ctx] at word
      have top : spawnuserCtx layout kernel.nproc .rsp =
          kstackAddr layout kernel.nproc + BitVec.ofNat 64 3912 := by
        rw [spawnuserCtx, firstTf]
        bv_omega
      exact inside (by decide) (top ▸ word)

/-! ## A call under way -/

/-- The statements of the call that creates `p` from the kernel `start` are being
run.  Without the timer traps that have come, the kernel would be
`uninterrupted`. -/
inductive Creating {layout : Layout} (areas : Stacks layout)
    (start : KernelState) (p : Nat) (machine : Machine) : Prop where
  | intro {taken : Nat} {uninterrupted : KernelState}
      (script : Script p taken machine.code)
      (filling : Filling p taken start machine.kernel)
      (alike : Alike uninterrupted machine.kernel)
      (parks : ∀ kernel, execAll uninterrupted machine.code = .ok kernel →
        Parked areas kernel.mem p)

/-- None of the statements makes a process runnable for the first time. -/
def Barren (code : List Stmt) : Prop :=
  ∀ p, .setState p .runnable ∉ code

/-- Whatever is being run, a process that it brings to life is parked. -/
inductive Making {layout : Layout} (areas : Stacks layout) (machine : Machine) :
    Prop where
  | barren (barren : Barren machine.code)
  | creating {start : KernelState} {p : Nat}
      (creating : Creating areas start p machine)

section Making

variable {layout : Layout} {areas : Stacks layout} {start : KernelState}
variable {p t : Nat} {machine machine' : Machine} {event : Event}

theorem Creating.unborn (creating : Creating areas start p machine) :
    ¬ Live machine.kernel p := by
  rcases creating with ⟨_, filling, _, _⟩
  exact filling.unborn

theorem Creating.code_ne (creating : Creating areas start p machine) :
    machine.code ≠ [] := by
  rcases creating with ⟨script, _, _, _⟩
  generalize machine.code = code at script
  cases script <;> exact List.cons_ne_nil _ _

theorem Creating.noSwitch (creating : Creating areas start p machine) :
    switchOf machine = none := by
  rcases creating with ⟨script, _, _, _⟩
  unfold switchOf
  generalize machine.code = code at script
  cases script with
  | ready => rfl
  | @cons _ _ stmt rest fills after =>
      have noSwitch := fills.noSwitch
      cases stmt <;> first | rfl | cases noSwitch

/-- The call goes on, or it has returned and the new process is parked. -/
theorem Creating.next (creating : Creating areas start p machine)
    (stepped : step layout event machine = some (.ok machine')) :
    Creating areas start p machine' ∨
      machine'.code = [] ∧ Parked areas machine'.kernel.mem p ∧
        ∀ q, q ≠ p → (Live machine'.kernel q ↔ Live machine.kernel q) := by
  rcases creating with ⟨script, filling, alike, parks⟩
  rcases machine with ⟨kernel, u, code, saved⟩
  cases script with
  | ready =>
      rcases step_of_code rfl rfl stepped with
        ⟨_, _, rfl⟩ | ⟨_, kernel', more, ran, rfl⟩
      · exact Or.inl ⟨.ready, filling.alike (alike_timerTrap kernel),
          alike.trans (alike_timerTrap kernel), parks⟩
      · rcases Prod.mk.inj (Except.ok.inj ran) with ⟨rfl, rfl⟩
        refine Or.inr ⟨rfl, ?_, ?_⟩
        · have made := parks _ rfl
          rw [KernelState.mem, ← (alike_setState alike .runnable).image]
            at made
          exact made
        · intro q other
          rw [live_setProc, if_neg other]
  | @cons _ _ stmt rest fills after =>
      rcases step_of_code rfl fills.noSwitch stepped with
        ⟨_, _, rfl⟩ | ⟨_, kernel', more, ran, rfl⟩
      · exact Or.inl ⟨.cons fills after,
          filling.alike (alike_timerTrap kernel),
          alike.trans (alike_timerTrap kernel), parks⟩
      · obtain rfl := more_of_exec fills.noWait ran
        rcases fills.blind alike ran with ⟨next, ran', alike'⟩
        refine Or.inl ⟨after, fills.frame filling ran, alike', ?_⟩
        intro last runs
        exact parks last ((execAll_cons rest ran').trans runs)

/-- A process that comes to life in the call is the one that it creates. -/
theorem Creating.born (creating : Creating areas start p machine)
    (stepped : step layout event machine = some (.ok machine'))
    (before : ¬ Live machine.kernel t) (after : Live machine'.kernel t) :
    Parked areas machine'.kernel.mem t := by
  rcases creating.next stepped with goes | ⟨_, parked, others⟩
  · rcases creating with ⟨_, filling, _, _⟩
    rcases goes with ⟨_, filling', _, _⟩
    by_cases same : t = p
    · subst same
      exact absurd after filling'.unborn
    · rw [filling'.live t same, ← filling.live t same] at after
      exact absurd after before
  · by_cases same : t = p
    · rw [same]
      exact parked
    · rw [others t same] at after
      exact absurd after before

/-! ### The other statements -/

theorem barren_nil : Barren [] :=
  fun _ => List.not_mem_nil

theorem barren_of_tail {code : List Stmt} (tail : Tail code) : Barren code :=
  fun _ member => tail _ member

theorem barren_dispatch (p : Nat) : Barren (dispatch p) := by
  simp [Barren, dispatch, setTaskKstack]

/-- What a statement unfolds to brings no process to life. -/
theorem barren_more {stmt : Stmt} {kernel kernel' : KernelState}
    {more : List Stmt} (ran : stmt.exec kernel = .ok (kernel', more)) :
    Barren more := by
  cases wait : waits stmt with
  | false =>
      obtain rfl := more_of_exec wait ran
      exact barren_nil
  | true =>
      cases stmt with
      | probe =>
          rw [Stmt.exec] at ran
          split at ran <;>
            (obtain ⟨_, rfl⟩ := Prod.mk.inj (Except.ok.inj ran)
             simp [Barren])
      | choose found =>
          cases found <;> obtain ⟨_, rfl⟩ := Prod.mk.inj (Except.ok.inj ran)
          · simp [Barren]
          · exact barren_dispatch _
      | loop | sti | hlt | advance =>
          obtain ⟨_, rfl⟩ := Prod.mk.inj (Except.ok.inj ran)
          simp [Barren]
      | _ => cases wait

/-- A statement, or a switch to what was put aside, brings in nothing that does. -/
theorem barren_of_run (saved : ∀ t, Tail (machine.saved t))
    (barren : Barren machine.code)
    (stepped : step layout .run machine = some (.ok machine')) :
    Barren machine'.code := by
  obtain ⟨stmt, rest, shape⟩ := code_of_run stepped
  have barrenRest : Barren rest := by
    intro p member
    exact barren p (shape ▸ List.mem_cons_of_mem _ member)
  have barrenSaved (old u : Nat) :
      Barren (Function.update machine.saved old rest u) := by
    by_cases same : u = old
    · rw [same, Function.update_self]
      exact barrenRest
    · rw [Function.update_of_ne same]
      exact barren_of_tail (saved u)
  cases switch : isSwitch stmt with
  | true =>
      simp only [step, runStmt, shape] at stepped
      cases stmt with
      | swtchToIdle old =>
          rcases Except.ok.inj (Option.some.inj stepped) with rfl
          exact barrenSaved _ _
      | swtchFromIdle =>
          rcases Except.ok.inj (Option.some.inj stepped) with rfl
          exact barrenSaved _ _
      | _ => cases switch
  | false =>
      rcases step_of_code shape switch stepped with
        ⟨impossible, _⟩ | ⟨_, kernel, more, ran, rfl⟩
      · cases impossible
      · intro p member
        rcases List.mem_append.mp member with first | later
        · exact barren_more ran p first
        · exact barrenRest p later

/-- The functions other than `spawn` and `spawnuser` bring no process to life. -/
theorem barren_op {op : Op} (kernel : KernelState)
    (other : ∀ call, op ≠ callOp call) : Barren (op.code layout kernel) := by
  cases op with
  | idlemain => simp [Barren, Op.code, idlemain]
  | yield => simp [Barren, Op.code, yield, sched]
  | sleep nticks =>
      simp only [Op.code, sleep]
      split <;> simp [Barren, sched]
  | exit retval => simp [Barren, Op.code, Process.exit, sched]
  | spawn desc => exact absurd rfl (other (.spawn desc))
  | spawnuser desc => exact absurd rfl (other (.spawnuser desc))
  | fault cause => simp [Barren, Op.code, kill, Process.exit, sched]

/-- A phase in which an entry is being filled in ends with the process being made
runnable. -/
theorem mem_of_filling {u : Nat} {code : List Stmt}
    (typed : Typed (.filling u t) code) : .setState t .runnable ∈ code := by
  generalize filling : Phase.filling u t = phase at typed
  induction typed with
  | check _ _ induction => exact List.mem_cons_of_mem _ (induction filling)
  | plain _ _ induction => exact List.mem_cons_of_mem _ (induction filling)
  | cprintf _ induction => exact List.mem_cons_of_mem _ (induction filling)
  | ready _ =>
      obtain ⟨_, rfl⟩ := Phase.filling.inj filling
      exact List.mem_cons_self
  | _ => cases filling

/-! ### Every run of the kernel -/

/-- A call of `spawn` or `spawnuser` begins. -/
theorem creating_of_call (bootable : Bootable layout) {call : Call}
    (started : Started layout machine)
    (called : step layout (.call (callOp call)) machine = some (.ok machine')) :
    Creating areas machine.kernel machine.kernel.nproc machine' := by
  rcases Started.table started with ⟨phase, good, _⟩
  rcases created_of_call called with ⟨resting, room, rfl⟩
  rcases Started.spaces bootable started resting with ⟨user, spaces⟩
  exact ⟨script_call layout call, filling_start (not_live_nproc good), .refl _,
    fun _ => parked_of_execAll bootable.valid areas spaces
      started.nproc_ne_zero room⟩

theorem Making.next (bootable : Bootable layout)
    (started : Started layout machine) (making : Making areas machine)
    (stepped : step layout event machine = some (.ok machine')) :
    Making areas machine' := by
  rcases Started.table started with ⟨phase, good, upholds⟩
  cases making with
  | creating creating =>
      rcases creating.next stepped with goes | ⟨done, _⟩
      · exact .creating goes
      · exact .barren (done ▸ barren_nil)
  | barren barren =>
      cases event with
      | tick =>
          rcases step_tick stepped with ⟨_, rfl⟩
          exact .barren barren
      | call op =>
          by_cases creates : ∃ call, op = callOp call
          · rcases creates with ⟨call, rfl⟩
            exact .creating (creating_of_call bootable started stepped)
          · rcases step_call stepped with ⟨_, _, rfl⟩
            push Not at creates
            exact .barren (barren_op _ creates)
      | run => exact .barren (barren_of_run upholds.saved barren stepped)

theorem Started.making (bootable : Bootable layout)
    (started : Started layout machine) : Making areas machine := by
  rcases started with ⟨index, fuel, mem, kernel, booted, steps, path⟩
  have first : Started layout (Main.start kernel) :=
    ⟨index, fuel, mem, kernel, booted, .refl _⟩
  have all := @Path.invariant _ _ _ _ _ _ _
    (fun machine => Started layout machine ∧ Making areas machine) path ?_
    ⟨first, .barren barren_nil⟩
  · exact all.2
  · rintro before event after ⟨started, making⟩ stepped
    exact ⟨started.path (.single stepped),
      making.next bootable started stepped⟩

/-- In every run of the kernel, a process has a saved stack pointer into its
kernel stack when it comes to life. -/
theorem parked_of_born (bootable : Bootable layout) (areas : Stacks layout)
    (started : Started layout machine)
    (stepped : step layout event machine = some (.ok machine'))
    (before : ¬ Live machine.kernel t) (after : Live machine'.kernel t) :
    Parked areas machine'.kernel.mem t := by
  rcases good_of_reachable started.reachable with ⟨phase, good⟩
  rcases filling_of_born good stepped before after with ⟨u, rfl⟩
  cases (Started.making bootable started : Making areas machine) with
  | barren barren => exact absurd (mem_of_filling good.typed) (barren t)
  | creating creating => exact creating.born stepped before after

end Making

/-! ## The call returns -/

/-- The machine works on in a kernel function until it is in none. -/
def Returns (layout : Layout) (entered returned : Machine) : Prop :=
  Relation.ReflTransGen
    (fun before after => before.code ≠ [] ∧
      ∃ event, step layout event before = some (.ok after))
    entered returned ∧ returned.code = []

section Returns

variable {layout : Layout} {p taken : Nat} {machine returned : Machine}
variable {uninterrupted : KernelState}

theorem Returns.of_code (returns : Returns layout machine returned)
    (done : machine.code = []) : returned = machine := by
  rcases Relation.ReflTransGen.cases_head returns.1 with
    same | ⟨_, ⟨inside, _⟩, _⟩
  · exact same.symm
  · exact absurd done inside

/-- Whatever timer traps have come, the call has done what it would have done
without them. -/
theorem execAll_of_returns (script : Script p taken machine.code)
    (alike : Alike uninterrupted machine.kernel)
    (returns : Returns layout machine returned) :
    ∃ kernel, execAll uninterrupted machine.code = .ok kernel ∧
      Alike kernel returned.kernel ∧ returned.thread = machine.thread := by
  rcases returns with ⟨run, done⟩
  induction run using Relation.ReflTransGen.head_induction_on generalizing
      taken uninterrupted with
  | refl =>
      rw [done] at script
      cases script
  | @head first second stepped rest induction =>
      rcases stepped with ⟨_, event, stepped⟩
      have later : Returns layout second returned := ⟨rest, done⟩
      rcases first with ⟨kernel, t, code, saved⟩
      cases script with
      | ready =>
          rcases step_of_code rfl rfl stepped with
            ⟨_, _, rfl⟩ | ⟨_, kernel', more, ran, rfl⟩
          · exact induction .ready (alike.trans (alike_timerTrap kernel))
          · rcases Prod.mk.inj (Except.ok.inj ran) with ⟨rfl, rfl⟩
            obtain rfl := later.of_code rfl
            exact ⟨_, rfl, alike_setState alike .runnable, rfl⟩
      | @cons _ _ stmt code fills after =>
          rcases step_of_code rfl fills.noSwitch stepped with
            ⟨_, _, rfl⟩ | ⟨_, kernel', more, ran, rfl⟩
          · exact induction (.cons fills after)
              (alike.trans (alike_timerTrap kernel))
          · obtain rfl := more_of_exec fills.noWait ran
            rcases fills.blind alike ran with ⟨next, ran', alike'⟩
            rcases induction after alike' with ⟨last, runs, alike'', thread⟩
            exact ⟨last, (execAll_cons code ran').trans runs, alike'',
              thread⟩

end Returns

/-- What is set aside for a process: its context, its kernel stack and its user
stack. -/
def SetAside {layout : Layout} (areas : Stacks layout) (p : Nat)
    (address : Addr) : Prop :=
  areas.Owned p address ∨ Within (ustackAddr layout p) 4096 address

/-- A call of `spawn` or `spawnuser` has returned, and the memory has what it
has written to the context and the stacks of the new process, as it has in every
run on one memory (`created_of_calls`). -/
structure Created {layout : Layout} (areas : Stacks layout) (call : Call)
    (caller : Machine) (created : System) : Prop where
  started : Started layout caller
  returned : ∃ entered,
    step layout (.call (callOp call)) caller = some (.ok entered) ∧
      Returns layout entered created.machine
  reachable : SystemReachable areas created
  written : ∀ address, SetAside areas caller.kernel.nproc address →
    created.cpu.mem address = created.machine.kernel.mem address

section Created

variable {layout : Layout} {areas : Stacks layout} {call : Call}
variable {caller : Machine} {created : System}
variable (isCreated : Created areas call caller created)
include isCreated

/-- What the call has come to. -/
theorem Created.ran :
    caller.kernel.nproc < maxProc ∧ caller.code = [] ∧
      ∃ kernel, execAll caller.kernel
          (call.code layout caller.kernel.nproc) = .ok kernel ∧
        Alike kernel created.machine.kernel ∧
        created.machine.thread = caller.thread := by
  rcases isCreated.returned with ⟨entered, called, returns⟩
  rcases created_of_call called with ⟨resting, room, rfl⟩
  refine ⟨room, resting, ?_⟩
  exact @execAll_of_returns _ _ _ { caller with
    code := call.code layout caller.kernel.nproc } _ _
    (script_call layout call) (.refl _) returns

theorem Created.positive : caller.kernel.nproc ≠ 0 := by
  rcases Started.table isCreated.started with ⟨phase, good, upholds⟩
  have idle : Live caller.kernel 0 :=
    live_of_state ((good.fits.holds.running 0).mpr (Or.inl rfl)) nofun nofun
  have table := (upholds.always (tableRules layout) good).1
  exact (Nat.zero_lt_of_lt (table.below 0 idle)).ne'

/-- The new process is off the processor. -/
theorem Created.off :
    Off areas caller.kernel.nproc created.cpu.mem created := by
  rcases isCreated.ran with ⟨room, resting, kernel, ran, alike, thread⟩
  rcases Started.table isCreated.started with ⟨phase, good, upholds⟩
  have table := (upholds.always (tableRules layout) good).1
  have entered := entered_of_execAll room ran
  refine ⟨sound_of_reachable isCreated.reachable, ?_, ?_, fun _ _ => rfl⟩
  · have current := curproc_of_done good resting
    rw [thread, ← current]
    exact (table.below _ (live_own (fits_own good resting))).ne'
  · rw [alike.live]
    rcases entered.built with ⟨heap, slot, rfl⟩
    have ready : ((built caller.kernel caller.kernel.nproc .runnable heap
        slot).procs caller.kernel.nproc).state = .runnable := by
      simp only [built, Function.update_self]
    exact live_of_state ready (by simp) (by simp)

theorem Created.kstack :
    (created.machine.kernel.slot caller.kernel.nproc).kstack =
      kstackAddr layout caller.kernel.nproc := by
  rcases isCreated.ran with ⟨room, _, kernel, ran, alike, _⟩
  rw [KernelState.slot, alike.image]
  exact (entered_of_execAll room ran).kstack

/-- What the new process owns is as the call has left it. -/
theorem Created.kernel_mem {kernel : KernelState}
    (alike : Alike kernel created.machine.kernel) {address : Addr}
    (setAside : SetAside areas caller.kernel.nproc address) :
    created.cpu.mem address = kernel.mem address := by
  rw [isCreated.written address setAside, KernelState.mem, KernelState.mem,
    alike.image]

theorem Created.ctx {kernel : KernelState}
    (alike : Alike kernel created.machine.kernel) :
    ctxAt created.cpu.mem (ctxAddr layout caller.kernel.nproc) =
      ctxAt kernel.mem (ctxAddr layout caller.kernel.nproc) := by
  apply contextRecord.read_congr
  intro address inside
  exact isCreated.kernel_mem alike (Or.inl (Or.inl inside))

variable (valid : Valid layout)
include valid

theorem Created.kernelEntry {desc : NewProcDesc} (isSpawn : call = .spawn desc) :
    KernelEntry layout desc caller.kernel.nproc created.cpu.mem := by
  subst isSpawn
  rcases isCreated.ran with ⟨room, _, kernel, ran, alike, _⟩
  have entry := kernelEntry_of_spawn valid room ran
  constructor
  · exact (isCreated.ctx alike).trans entry.ctx
  · rw [← entry.ret]
    apply load64_congr
    intro address inside
    exact isCreated.kernel_mem alike (Or.inl (Or.inr (inStack_of_kstack
      isCreated.positive (inside.of_offset (by decide) (by decide)))))

theorem Created.userEntry (room : 56 ≤ Kalloc.frameCount layout.last)
    {desc : NewProcDesc} (isSpawnuser : call = .spawnuser desc) :
    UserEntry layout desc caller.kernel.nproc created.cpu.mem := by
  subst isSpawnuser
  rcases isCreated.ran with ⟨bound, resting, kernel, ran, alike, _⟩
  rcases Started.spaces ⟨valid, room⟩ isCreated.started resting with
    ⟨user, spaces⟩
  have entry := userEntry_of_spawnuser valid bound spaces ran
  constructor
  · exact (isCreated.ctx alike).trans entry.ctx
  · rw [← entry.tf]
    apply trapframeRecord.read_congr
    intro address inside
    exact isCreated.kernel_mem alike (Or.inl (Or.inr (inStack_of_kstack
      isCreated.positive (within_kstack_of_firstTf inside))))
  · rw [← entry.ret]
    apply load64_congr
    intro address inside
    exact isCreated.kernel_mem alike
      (Or.inr (inside.of_offset (by decide) (by decide)))

end Created

/-! ## One memory -/

section Memory

variable {layout : Layout} (areas : Stacks layout)

/-- Machine and processor have the same memory where no process is yet. -/
def Shared (system : System) : Prop :=
  ∀ t < maxProc, ¬ Live system.machine.kernel t →
    ∀ address, SetAside areas t address →
      system.cpu.mem address = system.machine.kernel.mem address

/-- Where no process is yet, the processor's memory changes as the kernel's: it gets
what the kernel writes, and nothing else is written there. -/
def Follows (machine machine' : Machine) (mem mem' : Memory) : Prop :=
  ∀ t < maxProc, ¬ Live machine.kernel t → ∀ address, SetAside areas t address →
    mem' address =
      if machine'.kernel.mem address = machine.kernel.mem address then
        mem address
      else
        machine'.kernel.mem address

/-- The steps of the threads, with what the kernel writes for a new process. -/
inductive SharedStep : System → System → Prop where
  | work {machine : Machine} {cpu cpu' : Cpu}
      (keeps : Keeps areas machine cpu.mem cpu'.mem)
      (follows : Follows areas machine machine cpu.mem cpu'.mem) :
      SharedStep ⟨machine, cpu⟩ ⟨machine, cpu'⟩
  | event {machine machine' : Machine} {cpu cpu' : Cpu} (event : Event)
      (stepped : step layout event machine = some (.ok machine'))
      (noSwitch : event = .run → switchOf machine = none)
      (keeps : Keeps areas machine cpu.mem cpu'.mem)
      (follows : Follows areas machine machine' cpu.mem cpu'.mem) :
      SharedStep ⟨machine, cpu⟩ ⟨machine', cpu'⟩
  | switch {machine machine' : Machine} {cpu : Cpu} {old new : Nat}
      (pair : switchOf machine = some (old, new))
      (stepped : step layout .run machine = some (.ok machine'))
      (rdi : cpu.regs .rdi = ctxAddr layout old)
      (rsi : cpu.regs .rsi = ctxAddr layout new)
      (slot : areas.WordIn old (cpu.regs .rsp)) :
      SharedStep ⟨machine, cpu⟩ ⟨machine', swtch.run cpu⟩

/-- The states in any run after `main`, which leaves its memory to the processor. -/
def SharedReachable (system : System) : Prop :=
  ∃ index fuel mem kernel cpu, main layout index fuel mem = .ok kernel ∧
    cpu.mem = kernel.mem ∧
    Relation.ReflTransGen (SharedStep areas) ⟨start kernel, cpu⟩ system

/-- What holds in such a run. -/
structure Joined (system : System) : Prop where
  started : Started layout system.machine
  reachable : SystemReachable areas system
  shared : Shared areas system

end Memory

section Joined

variable {layout : Layout} (bootable : Bootable layout) {areas : Stacks layout}
variable (idleUstacks : Apart areas.idle areas.idleSize layout.ustacks 32768)
variable {p : Nat} {system system' : System}

theorem Follows.agrees {machine machine' : Machine} {cpu : Cpu} {mem' : Memory}
    (follows : Follows areas machine machine' cpu.mem mem')
    (shared : Shared areas ⟨machine, cpu⟩) (bound : p < maxProc)
    (unborn : ¬ Live machine.kernel p) {address : Addr}
    (setAside : SetAside areas p address) :
    mem' address = machine'.kernel.mem address := by
  rw [follows p bound unborn address setAside]
  split
  · rename_i same
    rw [same]
    exact shared p bound unborn address setAside
  · rfl

include bootable

/-- A process that comes to life is parked, so the step is one of the threads. -/
theorem Joined.threadStep (joined : Joined areas system)
    (stepped : SharedStep areas system system') :
    Step areas system system' := by
  cases stepped with
  | work keeps follows => exact .work keeps
  | switch pair stepped rdi rsi slot => exact .switch pair stepped rdi rsi slot
  | @event machine machine' cpu cpu' event stepped noSwitch keeps follows =>
      refine .event event stepped noSwitch keeps ?_
      intro t before after
      rcases good_of_reachable joined.started.reachable with ⟨phase, good⟩
      rcases (good.step stepped).2 machine' rfl with ⟨_, good', _⟩
      refine parked_congr (parked_of_born bootable areas joined.started stepped
        before after) ?_
      intro address owned
      exact follows.agrees joined.shared (after.bound good') before
        (Or.inl owned)

include idleUstacks

/-- What belongs to one thread does not overlap the user stack of a process. -/
theorem owned_not_ustack {t : Nat} (tBound : t < maxProc) (bound : p < maxProc)
    {address : Addr} (owned : areas.Owned t address) :
    ¬ Within (ustackAddr layout p) 4096 address := by
  intro inside
  have valid := bootable.valid
  have inUstacks := within_ustacks_of_ustack layout bound inside
  rcases owned with inCtx | inStack
  · exact valid.procsUstacks address (within_procs_of_ctx layout tBound inCtx)
      inUstacks
  · rcases areas.inStack_cases tBound inStack with
      ⟨_, inIdle⟩ | ⟨_, _, inKstacks⟩
    · exact idleUstacks address inIdle inUstacks
    · exact valid.kstacksUstacks address inKstacks inUstacks

theorem owned_not_setAside {t : Nat} (tBound : t < maxProc) (bound : p < maxProc)
    (different : t ≠ p) {address : Addr} (owned : areas.Owned t address) :
    ¬ SetAside areas p address := by
  rintro (owned' | inUstack)
  · exact areas.owned_apart tBound bound different owned owned'
  · exact owned_not_ustack bootable idleUstacks tBound bound owned inUstack

/-- A switch writes to the old context and the new stack, which are not set aside for
a process that is not there yet. -/
theorem Joined.next (joined : Joined areas system)
    (stepped : SharedStep areas system system') : Joined areas system' := by
  have next := joined.threadStep bootable stepped
  have reachable : SystemReachable areas system' := by
    rcases joined.reachable with ⟨index, heap, image, cpu, run⟩
    exact ⟨index, heap, image, cpu, run.tail next⟩
  rcases good_of_reachable joined.started.reachable with ⟨phase, good⟩
  cases stepped with
  | work keeps follows =>
      refine ⟨joined.started, reachable, ?_⟩
      intro t bound unborn address setAside
      exact follows.agrees joined.shared bound unborn setAside
  | @event machine machine' cpu cpu' event stepped noSwitch keeps follows =>
      refine ⟨joined.started.path (.single stepped), reachable, ?_⟩
      intro t bound unborn address setAside
      have before : ¬ Live machine.kernel t :=
        fun live => unborn (live.step good stepped)
      exact follows.agrees joined.shared bound before setAside
  | @switch machine machine' cpu old new pair stepped rdi rsi slot =>
      refine ⟨joined.started.path (.single stepped), reachable, ?_⟩
      intro t bound unborn address setAside
      have switched := switched_of_step good pair stepped
      have switching := (sound_of_reachable joined.reachable).switching switched
        rdi rsi slot
      dsimp only at unborn ⊢
      rw [switched.kernel] at unborn ⊢
      have apart {u : Nat} (live : Live machine.kernel u)
          (owned : areas.Owned u address) : False := by
        have different : u ≠ t := by
          rintro rfl
          exact unborn live
        exact owned_not_setAside bootable idleUstacks (live.bound good) bound
          different owned setAside
      rw [switching.outside (fun inOld => apart switched.oldLive (Or.inl inOld))
        fun inNew => apart switched.newLive (Or.inr inNew)]
      exact joined.shared t bound unborn address setAside

omit bootable idleUstacks in
theorem joined_of_main {index : Byte} {fuel : Nat} {mem : Memory}
    {kernel : KernelState} {cpu : Cpu}
    (booted : main layout index fuel mem = .ok kernel)
    (same : cpu.mem = kernel.mem) : Joined areas ⟨start kernel, cpu⟩ := by
  refine ⟨⟨index, fuel, mem, kernel, booted, .refl _⟩, ?_, ?_⟩
  · rcases (initial_of_main booted).boots with ⟨index', heap, boots⟩
    exact ⟨index', heap, kernel.image, cpu, boots ▸ .refl⟩
  · intro t _ _ address _
    exact congrFun same address

/-- Every run on one memory is a run of the threads. -/
theorem joined_of_reachable (reachable : SharedReachable areas system) :
    Joined areas system := by
  rcases reachable with ⟨index, fuel, mem, kernel, cpu, booted, same, run⟩
  induction run with
  | refl => exact joined_of_main booted same
  | tail _ stepped joined => exact joined.next bootable idleUstacks stepped

end Joined

/-! ## The call in a run on one memory -/

/-- A step that a thread takes inside a kernel function. -/
def Inside {layout : Layout} (areas : Stacks layout) (system system' : System) :
    Prop :=
  system.machine.code ≠ [] ∧ SharedStep areas system system'

/-- In a run on one memory, a call of `spawn` or `spawnuser` from the beginning to
the return. -/
structure Calls {layout : Layout} (areas : Stacks layout) (call : Call)
    (caller created : System) : Prop where
  reachable : SharedReachable areas caller
  run : ∃ entered, SharedStep areas caller entered ∧
    step layout (.call (callOp call)) caller.machine =
      some (.ok entered.machine) ∧
    Relation.ReflTransGen (Inside areas) entered created
  done : created.machine.code = []

section Calls

variable {layout : Layout} (bootable : Bootable layout) {areas : Stacks layout}
variable (idleUstacks : Apart areas.idle areas.idleSize layout.ustacks 32768)
variable {start : KernelState} {p : Nat} {system system' : System}

/-- The machine takes a step or stays where it is. -/
theorem SharedStep.machine (stepped : SharedStep areas system system') :
    system'.machine = system.machine ∨
      ∃ event, step layout event system.machine = some (.ok system'.machine) := by
  cases stepped with
  | work keeps follows => exact Or.inl rfl
  | event event stepped noSwitch keeps follows => exact Or.inr ⟨event, stepped⟩
  | switch pair stepped rdi rsi slot => exact Or.inr ⟨.run, stepped⟩

theorem returns_of_inside
    (run : Relation.ReflTransGen (Inside areas) system system')
    (done : system'.machine.code = []) :
    Returns layout system.machine system'.machine := by
  refine ⟨Relation.ReflTransGen.lift' System.machine ?_ _ _ run, done⟩
  rintro before after ⟨inside, stepped⟩
  rcases stepped.machine with same | ⟨event, stepped⟩
  · rw [Function.onFun, same]
  · exact .single ⟨inside, event, stepped⟩

/-- The call is under way until it returns. -/
theorem creating_of_inside
    (creating : Creating areas start p system.machine)
    (run : Relation.ReflTransGen (Inside areas) system system')
    (inside : system'.machine.code ≠ []) :
    Creating areas start p system'.machine := by
  induction run with
  | refl => exact creating
  | tail _ last induction =>
      have before := induction last.1
      rcases last.2.machine with same | ⟨event, stepped⟩
      · rw [same]
        exact before
      · rcases before.next stepped with goes | ⟨done, _⟩
        · exact goes
        · exact absurd done inside

include bootable idleUstacks

theorem joined_of_inside (joined : Joined areas system)
    (run : Relation.ReflTransGen (Inside areas) system system') :
    Joined areas system' := by
  induction run with
  | refl => exact joined
  | tail _ last joined => exact joined.next bootable idleUstacks last.2

/-- With one memory, the processor finds there what the call has written. -/
theorem created_of_calls {call : Call} {caller created : System}
    (calls : Calls areas call caller created) :
    Created areas call caller.machine created := by
  have joined := joined_of_reachable bootable idleUstacks calls.reachable
  rcases calls.run with ⟨entered, first, called, run⟩
  have joined₁ := joined.next bootable idleUstacks first
  have joined' := joined_of_inside bootable idleUstacks joined₁ run
  have creating : Creating areas caller.machine.kernel
      caller.machine.kernel.nproc entered.machine :=
    creating_of_call bootable joined.started called
  rcases created_of_call called with ⟨_, room, _⟩
  refine ⟨joined.started, ⟨_, called, returns_of_inside run calls.done⟩,
    joined'.reachable, ?_⟩
  intro address setAside
  rcases Relation.ReflTransGen.cases_tail run with same | ⟨before, run', last⟩
  · rw [same] at calls
    exact absurd calls.done creating.code_ne
  · have under := creating_of_inside creating run' last.1
    have joined₂ := joined_of_inside bootable idleUstacks joined₁ run'
    rcases last with ⟨inside, stepped⟩
    cases stepped with
    | work keeps follows => exact absurd calls.done inside
    | event event stepped noSwitch keeps follows =>
        exact follows.agrees joined₂.shared room under.unborn setAside
    | switch pair stepped rdi rsi slot =>
        rw [under.noSwitch] at pair
        cases pair

/-! ### Every call can be run -/

/-- The processor's memory can follow every step of the machine but a switch. -/
theorem Joined.exists_event {machine machine' : Machine} {cpu : Cpu}
    {event : Event} (joined : Joined areas ⟨machine, cpu⟩)
    (stepped : step layout event machine = some (.ok machine'))
    (noSwitch : event = .run → switchOf machine = none) :
    ∃ cpu', SharedStep areas ⟨machine, cpu⟩ ⟨machine', cpu'⟩ := by
  classical
  rcases good_of_reachable joined.started.reachable with ⟨phase, good⟩
  let mem' : Memory := fun address =>
    if ∃ t < maxProc, ¬ Live machine.kernel t ∧ SetAside areas t address then
      if machine'.kernel.mem address = machine.kernel.mem address then
        cpu.mem address
      else
        machine'.kernel.mem address
    else cpu.mem address
  have kept (u : Nat) (live : Live machine.kernel u) (address : Addr)
      (owned : areas.Owned u address) : mem' address = cpu.mem address := by
    apply if_neg
    rintro ⟨t, bound, unborn, setAside⟩
    have different : u ≠ t := by
      rintro rfl
      exact unborn live
    exact owned_not_setAside bootable idleUstacks (live.bound good) bound
      different owned setAside
  refine ⟨{ cpu with mem := mem' }, .event event stepped noSwitch ⟨?_, ?_⟩ ?_⟩
  · exact fun address inCtx => kept _ (thread_live good) address (Or.inl inCtx)
  · exact fun u _ live => kept u live
  · intro t bound unborn address setAside
    exact if_pos ⟨t, bound, unborn, setAside⟩

theorem Joined.exists_inside {machine machine' : Machine} {cpu : Cpu}
    {steps : List (Event × Machine)} (joined : Joined areas ⟨machine, cpu⟩)
    (creating : Creating areas start p machine)
    (path : Path (step layout) machine steps machine')
    (inside : ∀ entry ∈ steps, entry.2.code ≠ []) :
    ∃ cpu', Relation.ReflTransGen (Inside areas) ⟨machine, cpu⟩
      ⟨machine', cpu'⟩ := by
  induction path generalizing cpu with
  | nil machine => exact ⟨cpu, .refl⟩
  | @cons machine second last event steps head rest induction =>
      rcases joined.exists_event bootable idleUstacks head
        (fun _ => creating.noSwitch) with ⟨cpu₁, stepped⟩
      have goes : Creating areas start p second := by
        rcases creating.next head with goes | ⟨done, _⟩
        · exact goes
        · exact absurd done (inside _ List.mem_cons_self)
      rcases induction (joined.next bootable idleUstacks stepped) goes
        (fun entry member => inside entry (List.mem_cons_of_mem _ member)) with
        ⟨cpu', run⟩
      exact ⟨cpu', .head ⟨creating.code_ne, stepped⟩ run⟩

/-- A call that would succeed without timer traps can be run to its return. -/
theorem exists_calls {call : Call} {kernel kernel' : KernelState} {cpu : Cpu}
    {t : Nat} {saved : Nat → List Stmt} (room : kernel.nproc < maxProc)
    (reachable : SharedReachable areas ⟨⟨kernel, t, [], saved⟩, cpu⟩)
    (ran : execAll kernel (call.code layout kernel.nproc) = .ok kernel') :
    ∃ cpu', Calls areas call ⟨⟨kernel, t, [], saved⟩, cpu⟩
      ⟨⟨kernel', t, [], saved⟩, cpu'⟩ := by
  have joined := joined_of_reachable bootable idleUstacks reachable
  have called : step layout (.call (callOp call)) ⟨kernel, t, [], saved⟩ =
      some (.ok ⟨kernel, t, call.code layout kernel.nproc, saved⟩) := by
    cases call <;> simp [step, callOp, Op.allowed, Op.enter, Op.code, Call.code,
      room]
  have creating : Creating areas kernel kernel.nproc
      ⟨kernel, t, call.code layout kernel.nproc, saved⟩ :=
    creating_of_call bootable joined.started called
  rcases path_to_ready layout (script_call layout call) ran t saved with
    ⟨steps, early, path, inside, _, rfl⟩
  rcases joined.exists_event bootable idleUstacks called (by simp) with
    ⟨cpu₁, first⟩
  have joined₁ := joined.next bootable idleUstacks first
  rcases joined₁.exists_inside bootable idleUstacks creating path inside with
    ⟨cpu₂, run⟩
  have joined₂ := joined_of_inside bootable idleUstacks joined₁ run
  rcases joined₂.exists_event bootable idleUstacks
    (show step layout .run _ = some (.ok ⟨_, t, [], saved⟩) from rfl)
    (fun _ => rfl) with ⟨cpu₃, ready⟩
  exact ⟨cpu₃, reachable, ⟨_, first, called,
    run.tail ⟨List.cons_ne_nil _ _, ready⟩⟩, rfl⟩

end Calls

end Rt64.Kernel.Creation
