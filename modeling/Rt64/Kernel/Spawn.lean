import Rt64.Kernel.Process
import Rt64.Kernel.PagingRange

/-!
# What `spawn` and `spawnuser` leave behind

A new process is described by its table entry, its saved context and the words
on its stacks.  This module runs the statements of `spawn` and `spawnuser`
without interruption and reads these off the result.  The writes stay inside
the table entry and the stacks of the new process, and for `spawnuser` inside
the page tables that `paging_map` works on.
-/

namespace Rt64.Kernel.Spawn

open Rt64.Lib.ByteMemory
open Rt64.Lib.Record
open Rt64.Include.Defs
open Rt64.Klib.String
open Rt64.Kernel.Kalloc
open Rt64.Kernel.Paging
open Rt64.Kernel.Process

/-! ## The arrays of the image -/

/-- An array of `size` bytes in the image, below `last`. -/
def Placed (first : Addr) (size : Nat) (last : Addr) : Prop :=
  kernbase.toNat ≤ first.toNat ∧ first.toNat + size ≤ last.toNat

/--
What the linker script guarantees: the arrays of `proc.c` lie in the image and
do not overlap, and the stacks and the user section are made of whole pages.
-/
structure Valid (layout : Layout) : Prop where
  procsPlaced : Placed layout.procs 1152 layout.last
  kstacksPlaced : Placed layout.kstacks 32768 layout.last
  ustacksPlaced : Placed layout.ustacks 32768 layout.last
  kstacksAligned : layout.kstacks.toNat % 4096 = 0
  ustacksAligned : layout.ustacks.toNat % 4096 = 0
  procsKstacks : Apart layout.procs 1152 layout.kstacks 32768
  procsUstacks : Apart layout.procs 1152 layout.ustacks 32768
  kstacksUstacks : Apart layout.kstacks 32768 layout.ustacks 32768
  ubeginAligned : layout.ubegin.toNat % 4096 = 0
  uendAligned : layout.uend.toNat % 4096 = 0
  ubeginLow : kernbase.toNat ≤ layout.ubegin.toNat
  userOrdered : layout.ubegin.toNat ≤ layout.uend.toNat
  userPlaced : layout.uend.toNat ≤ layout.last.toNat

theorem sampleLayout_valid : Valid sampleLayout where
  procsPlaced := ⟨by decide, by decide⟩
  kstacksPlaced := ⟨by decide, by decide⟩
  ustacksPlaced := ⟨by decide, by decide⟩
  kstacksAligned := by decide
  ustacksAligned := by decide
  procsKstacks := @apart_of_offsets 0xFFFFFFFF80100000 0 0x2000 1152 32768
    (by decide) (by decide)
  procsUstacks := @apart_of_offsets 0xFFFFFFFF80100000 0 0xA000 1152 32768
    (by decide) (by decide)
  kstacksUstacks := @apart_of_offsets 0xFFFFFFFF80100000 0x2000 0xA000 32768
    32768 (by decide) (by decide)
  ubeginAligned := by decide
  uendAligned := by decide
  ubeginLow := by decide
  userOrdered := by decide
  userPlaced := by decide

theorem Placed.below_last {first last address : Addr} {size : Nat}
    (placed : Placed first size last) (inside : Within first size address) :
    address.toNat < last.toNat := by
  rcases placed with ⟨_, fits⟩
  have range := last.isLt
  simp only [Within] at inside
  bv_omega

/-- The bytes of a frame lie above the image. -/
theorem last_le_of_within_frame {last frame address : Addr}
    (isFrame : IsFrame last frame) (inside : Within frame 4096 address) :
    last.toNat ≤ address.toNat := by
  rcases isFrame with ⟨_, low, fits⟩
  rw [memoryEnd_eq] at fits
  simp only [Within] at inside
  bv_omega

section Regions

variable (layout : Layout) {p : Nat} (bound : p < maxProc)
variable {address : Addr}
include bound

theorem within_procs_of_ctx
    (inside : Within (ctxAddr layout p) 72 address) :
    Within layout.procs 1152 address := by
  have small : p < 8 := bound
  exact inside.of_offset (by omega) (by omega)

theorem within_procs_of_name
    (inside : Within (nameAddr layout p) 16 address) :
    Within layout.procs 1152 address := by
  have small : p < 8 := bound
  exact inside.of_offset (by omega) (by omega)

theorem within_kstacks_of_kstack
    (inside : Within (kstackAddr layout p) 4096 address) :
    Within layout.kstacks 32768 address := by
  have small : p < 8 := bound
  exact inside.of_offset (by omega) (by omega)

theorem within_ustacks_of_ustack
    (inside : Within (ustackAddr layout p) 4096 address) :
    Within layout.ustacks 32768 address := by
  have small : p < 8 := bound
  exact inside.of_offset (by omega) (by omega)

end Regions

/-! ## Contexts and trap frames in memory -/

/-- Storing to one field of a context changes that field only. -/
theorem ctxAt_store (mem : Memory) (base : Addr) (field : CtxField)
    (value : BitVec 64) :
    ctxAt (store64 mem (base + field.offset) value) base =
      Function.update (ctxAt mem base) field value :=
  contextRecord.read_store mem base field value

/-- A store outside the context leaves it alone. -/
theorem ctxAt_store_apart {mem : Memory} {base target : Addr}
    {value : BitVec 64} (apart : Apart base 72 target 8) :
    ctxAt (store64 mem target value) base = ctxAt mem base :=
  contextRecord.read_store_apart apart

/-- Storing to one field of a trap frame changes that field only. -/
theorem tfAt_store (mem : Memory) (base : Addr) (field : TrapField)
    (value : BitVec 64) :
    tfAt (store64 mem (base + field.offset) value) base =
      Function.update (tfAt mem base) field value :=
  trapframeRecord.read_store mem base field value

/-- A store outside the trap frame leaves it alone. -/
theorem tfAt_store_apart {mem : Memory} {base target : Addr}
    {value : BitVec 64} (apart : Apart base 176 target 8) :
    tfAt (store64 mem target value) base = tfAt mem base :=
  trapframeRecord.read_store_apart apart

/-! ## Running the statements -/

/-- The kernel while and after the entry `p` is filled in. -/
def built (start : KernelState) (p : Nat) (state : ProcState) (heap : Heap)
    (slot : Slot) : KernelState :=
  { start with
    procs := Function.update start.procs p { start.procs p with state }
    nproc := start.nproc + 1
    image :=
      { start.image with
        heap
        slots := Function.update start.image.slots p slot } }

section Run

variable {start : KernelState} {p : Nat} {state : ProcState} {heap : Heap}
variable {slot : Slot}

@[simp]
theorem built_mem : (built start p state heap slot).mem = heap.mem :=
  rfl

@[simp]
theorem built_slot : (built start p state heap slot).slot p = slot :=
  Function.update_self ..

theorem execAll_cons {kernel kernel' : KernelState} {stmt : Stmt}
    {more : List Stmt} (code : List Stmt)
    (step : stmt.exec kernel = .ok (kernel', more)) :
    execAll kernel (stmt :: code) = execAll kernel' code := by
  rw [execAll, List.foldlM_cons, step]
  rfl

theorem execAll_append {kernel kernel' : KernelState} {first : List Stmt}
    (second : List Stmt) (run : execAll kernel first = .ok kernel') :
    execAll kernel (first ++ second) = execAll kernel' second := by
  unfold execAll at run ⊢
  rw [List.foldlM_append, run]
  rfl

theorem execAll_write (mem : KernelState → Memory) (code : List Stmt) :
    execAll (built start p state heap slot) (write mem :: code) =
      execAll (built start p state
        { heap with mem := mem (built start p state heap slot) } slot)
        code :=
  execAll_cons code rfl

theorem execAll_writeSlot (slot' : KernelState → Slot) (code : List Stmt) :
    execAll (built start p state heap slot) (writeSlot p slot' :: code) =
      execAll (built start p state heap
        (slot' (built start p state heap slot))) code := by
  have step : (writeSlot p slot').exec (built start p state heap slot) =
      .ok (built start p state heap
        (slot' (built start p state heap slot)), []) := by
    simp only [built, writeSlot, Stmt.exec, KernelState.withSlot,
      Function.update_idem]
    rfl
  exact execAll_cons code step

theorem execAll_setState (state' : ProcState) (code : List Stmt) :
    execAll (built start p state heap slot) (.setState p state' :: code) =
      execAll (built start p state' heap slot) code := by
  have step : (Stmt.setState p state').exec (built start p state heap slot) =
      .ok (built start p state' heap slot, []) := by
    simp only [built, Stmt.exec, KernelState.setProc, Function.update_self,
      Function.update_idem]
  exact execAll_cons code step

/-- `allocproc` reserves the first unused entry. -/
theorem execAll_allocproc (layout : Layout) (kernel : KernelState) :
    execAll kernel (allocproc layout kernel.nproc) =
      .ok (built kernel kernel.nproc .reserve
        { kernel.image.heap with
          mem := memset kernel.mem (ctxAddr layout kernel.nproc) 0
            contextSz }
        { kernel.slot kernel.nproc with
          pid := kernel.nproc
          kstack := kstackAddr layout kernel.nproc }) := by
  have reserved : execAll kernel
      [.setState kernel.nproc .reserve, .takePid kernel.nproc] =
        .ok (built kernel kernel.nproc .reserve kernel.image.heap
          { kernel.slot kernel.nproc with pid := kernel.nproc }) :=
    rfl
  refine (execAll_append _ reserved).trans ?_
  rw [execAll_write, execAll_writeSlot]
  simp only [built_slot, built_mem]
  rfl

end Run

/-! ## `spawn` -/

/-- The memory after the context is cleared and the name copied. -/
def clearedMem (layout : Layout) (desc : NewProcDesc) (p : Nat)
    (mem : Memory) : Memory :=
  safestrcpy (memset mem (ctxAddr layout p) 0 contextSz) (nameAddr layout p)
    desc.name 16

/-- The memory when `spawn` has saved the context and made room for the return
address of the process's function. -/
def spawnCtxMem (layout : Layout) (desc : NewProcDesc) (p : Nat)
    (mem : Memory) : Memory :=
  let ctx := ctxAddr layout p
  let top := kstackAddr layout p + kstackSz
  let mem := clearedMem layout desc p mem
  let mem := store64 mem (ctx + CtxField.rip.offset) desc.func
  let mem := store64 mem (ctx + CtxField.rsp.offset) top
  let mem := store64 mem (ctx + CtxField.rbp.offset) top
  let mem := store64 mem (ctx + CtxField.rdi.offset) desc.initarg
  store64 mem (ctx + CtxField.rsp.offset) (ctxAt mem ctx .rsp - xlenb)

/-- The memory after `spawn` has filled in the entry `p`. -/
def spawnMem (layout : Layout) (desc : NewProcDesc) (p : Nat)
    (mem : Memory) : Memory :=
  let ctx := ctxAddr layout p
  let mem := spawnCtxMem layout desc p mem
  let mem := store64 mem (ctxAt mem ctx .rsp) layout.spawnret
  store64 mem (ctx + CtxField.rsp.offset) (ctxAt mem ctx .rsp - xlenb)

/-- A description that passes the check of `spawn` and `spawnuser`. -/
def PrioValid (desc : NewProcDesc) : Prop :=
  minprio ≤ desc.prio ∧ desc.prio ≤ maxprio

theorem execAll_checkPrio (site : Site) {desc : NewProcDesc}
    (prioValid : PrioValid desc) (kernel : KernelState)
    (code : List Stmt) :
    execAll kernel (checkPrio site desc :: code) = execAll kernel code := by
  have step : (checkPrio site desc).exec kernel = .ok (kernel, []) := by
    have passes : decide (minprio ≤ desc.prio ∧ desc.prio ≤ maxprio) = true :=
      decide_eq_true prioValid
    rw [checkPrio, Stmt.exec, assert_of_holds _ _ passes]
    rfl
  exact execAll_cons code step

/-- `spawn` makes the entry `nproc` a runnable kernel thread. -/
theorem spawn_eq (layout : Layout) {desc : NewProcDesc}
    (prioValid : PrioValid desc) (kernel : KernelState) :
    execAll kernel (spawn layout desc kernel.nproc) =
      .ok (built kernel kernel.nproc .runnable
        { kernel.image.heap with
          mem := spawnMem layout desc kernel.nproc kernel.mem }
        { kernel.slot kernel.nproc with
          pid := kernel.nproc
          kstack := kstackAddr layout kernel.nproc
          ptRoot := kernel.image.kpml4
          prio := desc.prio }) := by
  have entry := execAll_allocproc layout kernel
  unfold spawn
  rw [List.append_assoc, List.append_assoc, List.singleton_append,
    execAll_checkPrio _ prioValid, execAll_append _ entry]
  simp only [setNameAndPrio, List.cons_append, List.nil_append]
  rw [execAll_write, execAll_writeSlot, execAll_writeSlot]
  simp only [setCtx, execAll_write, execAll_setState, built_slot, built_mem,
    KernelState.ctx]
  rfl

/-- The context that `spawn` saves for the first switch to the process. -/
def spawnCtx (layout : Layout) (desc : NewProcDesc) (p : Nat) :
    CtxField → BitVec 64
  | .rip => desc.func
  | .rsp => kstackAddr layout p + kstackSz - xlenb - xlenb
  | .rbp => kstackAddr layout p + kstackSz
  | .rdi => desc.initarg
  | _ => 0

section Memory

variable {layout : Layout} (valid : Valid layout) {p : Nat}
variable (bound : p < maxProc)

theorem memset_ctx_eq_fill (mem : Memory) (base : Addr) :
    memset mem base 0 contextSz = fill mem base 72 0 := by
  simpa using memset_eq_fill mem base 0 contextSz (by decide)

include bound

/-- Name and context are different parts of a table entry. -/
theorem ctx_apart_name :
    Apart (ctxAddr layout p) 72 (nameAddr layout p) 16 := by
  have small : p < 8 := bound
  exact (apart_of_offsets layout.procs (by omega) (by omega)).symm

include valid

theorem ctx_apart_kstack :
    Apart (ctxAddr layout p) 72 (kstackAddr layout p) 4096 :=
  valid.procsKstacks.mono
    (fun _ inside => within_procs_of_ctx layout bound inside)
    (fun _ inside => within_kstacks_of_kstack layout bound inside)

theorem ctx_apart_ustack :
    Apart (ctxAddr layout p) 72 (ustackAddr layout p) 4096 :=
  valid.procsUstacks.mono
    (fun _ inside => within_procs_of_ctx layout bound inside)
    (fun _ inside => within_ustacks_of_ustack layout bound inside)

theorem kstack_apart_ustack :
    Apart (kstackAddr layout p) 4096 (ustackAddr layout p) 4096 :=
  valid.kstacksUstacks.mono
    (fun _ inside => within_kstacks_of_kstack layout bound inside)
    (fun _ inside => within_ustacks_of_ustack layout bound inside)

/-- A word of the kernel stack does not overlap the context. -/
theorem ctx_apart_kstack_word {offset : Nat} (inStack : offset + 8 ≤ 4096) :
    Apart (ctxAddr layout p) 72
      (kstackAddr layout p + BitVec.ofNat 64 offset) 8 :=
  (ctx_apart_kstack valid bound).mono (fun _ inside => inside)
    (fun _ inside => inside.of_offset inStack (by omega))

end Memory

theorem clearedMem_ctx {layout : Layout} {p : Nat} (desc : NewProcDesc)
    (mem : Memory) (bound : p < maxProc) :
    ctxAt (clearedMem layout desc p mem) (ctxAddr layout p) =
      fun _ => 0 := by
  have kept : ctxAt (clearedMem layout desc p mem) (ctxAddr layout p) =
      ctxAt (memset mem (ctxAddr layout p) 0 contextSz)
        (ctxAddr layout p) := by
    apply contextRecord.read_congr
    intro address inside
    exact safestrcpy_outside _ _ _ _ 16 (by decide)
      (ctx_apart_name bound address inside)
  rw [kept, memset_ctx_eq_fill]
  exact contextRecord.read_fill _ _

theorem clearedMem_outside {layout : Layout} {p : Nat} (desc : NewProcDesc)
    (mem : Memory) {address : Addr}
    (outsideCtx : ¬ Within (ctxAddr layout p) 72 address)
    (outsideName : ¬ Within (nameAddr layout p) 16 address) :
    clearedMem layout desc p mem address = mem address := by
  rw [clearedMem, safestrcpy_outside _ _ _ _ 16 (by decide) outsideName,
    memset_ctx_eq_fill]
  exact fill_outside _ _ _ _ _ outsideCtx

section SpawnMem

variable {layout : Layout} (valid : Valid layout) {p : Nat}
variable (bound : p < maxProc) (desc : NewProcDesc) (mem : Memory)
include valid bound

omit valid in
theorem spawnCtxMem_ctx :
    ctxAt (spawnCtxMem layout desc p mem) (ctxAddr layout p) =
      Function.update (spawnCtx layout desc p) .rsp
        (kstackAddr layout p + BitVec.ofNat 64 4088) := by
  have word : kstackAddr layout p + kstackSz - xlenb =
      kstackAddr layout p + BitVec.ofNat 64 4088 := by
    bv_omega
  simp only [spawnCtxMem, ctxAt_store, clearedMem_ctx desc mem bound,
    Function.update_self, Function.update_of_ne, ne_eq, reduceCtorEq,
    not_false_eq_true, word]
  funext field
  cases field <;> simp [spawnCtx]

/-- The stack pointer of the new process is worked out. -/
theorem spawnMem_eq :
    spawnMem layout desc p mem =
      store64
        (store64 (spawnCtxMem layout desc p mem)
          (kstackAddr layout p + BitVec.ofNat 64 4088) layout.spawnret)
        (ctxAddr layout p + CtxField.rsp.offset)
        (kstackAddr layout p + kstackSz - xlenb - xlenb) := by
  have pointer : ctxAt (spawnCtxMem layout desc p mem) (ctxAddr layout p)
      .rsp = kstackAddr layout p + BitVec.ofNat 64 4088 := by
    rw [spawnCtxMem_ctx bound, Function.update_self]
  have lower : kstackAddr layout p + BitVec.ofNat 64 4088 - xlenb =
      kstackAddr layout p + kstackSz - xlenb - xlenb := by
    bv_omega
  have apart := @ctx_apart_kstack_word _ valid _ bound 4088 (by decide)
  simp only [spawnMem, pointer, ctxAt_store_apart apart, lower]

theorem spawnMem_ctx :
    ctxAt (spawnMem layout desc p mem) (ctxAddr layout p) =
      spawnCtx layout desc p := by
  have apart := @ctx_apart_kstack_word _ valid _ bound 4088 (by decide)
  rw [spawnMem_eq valid bound, ctxAt_store, ctxAt_store_apart apart,
    spawnCtxMem_ctx bound, Function.update_idem]
  exact Function.update_eq_self CtxField.rsp (spawnCtx layout desc p)

/-- `spawnret` is the return address of the process's function. -/
theorem spawnMem_ret :
    load64 (spawnMem layout desc p mem)
      (kstackAddr layout p + BitVec.ofNat 64 4088) = layout.spawnret := by
  have apart := @ctx_apart_kstack_word _ valid _ bound 4088 (by decide)
  rw [spawnMem_eq valid bound, load64_store64_apart, load64_store64_same]
  exact apart.symm.mono (fun _ inside => inside)
    fun _ inside => contextRecord.within_of_field .rsp inside

/-- `spawn` writes to the table entry and the stack of the process only. -/
theorem spawnMem_outside {address : Addr}
    (outsideCtx : ¬ Within (ctxAddr layout p) 72 address)
    (outsideName : ¬ Within (nameAddr layout p) 16 address)
    (outsideStack : ¬ Within (kstackAddr layout p) 4096 address) :
    spawnMem layout desc p mem address = mem address := by
  have outsideField : ∀ field : CtxField,
      ¬ Within (ctxAddr layout p + field.offset) 8 address :=
    fun field inside => outsideCtx (contextRecord.within_of_field field inside)
  have outsideWord :
      ¬ Within (kstackAddr layout p + BitVec.ofNat 64 4088) 8 address :=
    fun inside => outsideStack (inside.of_offset (by decide) (by decide))
  rw [spawnMem_eq valid bound, store64_outside _ _ _ _ (outsideField _),
    store64_outside _ _ _ _ outsideWord]
  simp only [spawnCtxMem, store64_outside _ _ _ _ (outsideField _)]
  exact clearedMem_outside desc mem outsideCtx outsideName

end SpawnMem

/-! ## `spawnuser` -/

/-- The memory when `spawnuser` has saved the context and made room for the
trap frame. -/
def spawnuserCtxMem (layout : Layout) (desc : NewProcDesc) (p : Nat)
    (mem : Memory) : Memory :=
  let ctx := ctxAddr layout p
  let top := kstackAddr layout p + kstackSz
  let mem := clearedMem layout desc p mem
  let mem := store64 mem (ctx + CtxField.rip.offset) layout.trapret
  let mem := store64 mem (ctx + CtxField.rsp.offset) top
  let mem := store64 mem (ctx + CtxField.rbp.offset) top
  store64 mem (ctx + CtxField.rsp.offset) (ctxAt mem ctx .rsp - trapframeSz)

/-- The memory when `spawnuser` has cleared the trap frame, before it maps the
user stack. -/
def spawnuserEntryMem (layout : Layout) (desc : NewProcDesc) (p : Nat)
    (mem : Memory) : Memory :=
  let ctx := ctxAddr layout p
  let mem := spawnuserCtxMem layout desc p mem
  let mem := memset mem (ctxAt mem ctx .rsp) 0 trapframeSz
  store64 mem (ctx + CtxField.rsp.offset) (ctxAt mem ctx .rsp - xlenb)

/-- The memory after `spawnuser` has filled in the trap frame at `tf`. -/
def spawnuserFrameMem (layout : Layout) (desc : NewProcDesc) (p : Nat)
    (tf : Addr) (mem : Memory) : Memory :=
  let mem := store64 mem (tf + TrapField.ss.offset)
    (segUdata <<< 3 ||| dplUser)
  let mem := store64 mem (tf + TrapField.rsp.offset)
    (ustackAddr layout p + pgSz4K)
  let mem := store64 mem (tf + TrapField.rsp.offset)
    (tfAt mem tf .rsp - xlenb)
  let mem := store64 mem (tfAt mem tf .rsp) layout.spawnuserret
  let mem := store64 mem (tf + TrapField.rflags.offset) flIf
  let mem := store64 mem (tf + TrapField.cs.offset)
    (segUcode <<< 3 ||| dplUser)
  let mem := store64 mem (tf + TrapField.rip.offset) desc.func
  store64 mem (tf + TrapField.rdi.offset) desc.initarg

/-- The address of the trap frame that `spawnuser` builds. -/
def firstTf (layout : Layout) (p : Nat) : Addr :=
  kstackAddr layout p + BitVec.ofNat 64 3920

/-- The context that `spawnuser` saves: the first switch goes to `trapret`, at
the trap frame. -/
def spawnuserCtx (layout : Layout) (p : Nat) : CtxField → BitVec 64
  | .rip => layout.trapret
  | .rsp => firstTf layout p - xlenb
  | .rbp => kstackAddr layout p + kstackSz
  | _ => 0

/-- The trap frame that `trapret` finds. -/
def spawnuserTf (layout : Layout) (desc : NewProcDesc) (p : Nat) :
    TrapField → BitVec 64
  | .ss => segUdata <<< 3 ||| dplUser
  | .rsp => ustackAddr layout p + pgSz4K - xlenb
  | .rflags => flIf
  | .cs => segUcode <<< 3 ||| dplUser
  | .rip => desc.func
  | .rdi => desc.initarg
  | _ => 0

theorem execAll_mapUstack {layout : Layout} {start : KernelState} {p : Nat}
    {state : ProcState} {heap : Heap} {slot : Slot} (heap' : Heap)
    (mapped : pagingMap slot.ptRoot (ustackAddr layout slot.pid)
      (v2p (ustackAddr layout slot.pid)) ustackSz (pfU ||| pfW) heap =
        .ok heap')
    (code : List Stmt) :
    execAll (built start p state heap slot)
        (.plain (mapUstack layout p) :: code) =
      execAll (built start p state heap' slot) code := by
  have map : mapUstack layout p (built start p state heap slot) =
      .ok { (built start p state heap slot).image with heap := heap' } := by
    rw [mapUstack, built_slot]
    dsimp only
    rw [show (built start p state heap slot).image.heap = heap from rfl,
      mapped]
    rfl
  have step : (Stmt.plain (mapUstack layout p)).exec
      (built start p state heap slot) =
        .ok (built start p state heap' slot, []) := by
    rw [Stmt.exec, map]
    rfl
  exact execAll_cons code step

section SpawnuserMem

variable {layout : Layout} {p : Nat} (bound : p < maxProc)
variable (desc : NewProcDesc) (mem : Memory)
include bound

theorem spawnuserCtxMem_ctx :
    ctxAt (spawnuserCtxMem layout desc p mem) (ctxAddr layout p) =
      Function.update (spawnuserCtx layout p) .rsp (firstTf layout p) := by
  have frame : kstackAddr layout p + kstackSz - trapframeSz =
      firstTf layout p := by
    unfold firstTf
    bv_omega
  simp only [spawnuserCtxMem, ctxAt_store, clearedMem_ctx desc mem bound,
    Function.update_self, Function.update_of_ne, ne_eq, reduceCtorEq,
    not_false_eq_true, frame]
  funext field
  cases field <;> simp [spawnuserCtx]

omit bound in
theorem within_kstack_of_firstTf {address : Addr}
    (inside : Within (firstTf layout p) 176 address) :
    Within (kstackAddr layout p) 4096 address :=
  inside.of_offset (by decide) (by decide)

variable (valid : Valid layout)
include valid

theorem ctx_apart_firstTf :
    Apart (ctxAddr layout p) 72 (firstTf layout p) 176 :=
  (ctx_apart_kstack valid bound).mono (fun _ inside => inside)
    fun _ inside => within_kstack_of_firstTf inside

theorem ctxAt_fill_firstTf :
    ctxAt (fill mem (firstTf layout p) 176 0) (ctxAddr layout p) =
      ctxAt mem (ctxAddr layout p) := by
  apply contextRecord.read_congr
  intro address inside
  exact fill_outside _ _ _ _ _ (ctx_apart_firstTf bound valid address inside)

theorem spawnuserEntryMem_eq :
    spawnuserEntryMem layout desc p mem =
      store64
        (fill (spawnuserCtxMem layout desc p mem) (firstTf layout p) 176 0)
        (ctxAddr layout p + CtxField.rsp.offset)
        (firstTf layout p - xlenb) := by
  have cleared : ∀ mem : Memory,
      memset mem (firstTf layout p) 0 trapframeSz =
        fill mem (firstTf layout p) 176 0 := by
    intro mem
    simpa using memset_eq_fill mem (firstTf layout p) 0 trapframeSz (by decide)
  simp only [spawnuserEntryMem, spawnuserCtxMem_ctx bound, cleared,
    ctxAt_fill_firstTf bound _ valid, Function.update_self]

theorem spawnuserEntryMem_ctx :
    ctxAt (spawnuserEntryMem layout desc p mem) (ctxAddr layout p) =
      spawnuserCtx layout p := by
  rw [spawnuserEntryMem_eq bound desc mem valid, ctxAt_store,
    ctxAt_fill_firstTf bound _ valid, spawnuserCtxMem_ctx bound,
    Function.update_idem]
  exact Function.update_eq_self CtxField.rsp (spawnuserCtx layout p)

theorem spawnuserEntryMem_tf :
    tfAt (spawnuserEntryMem layout desc p mem) (firstTf layout p) =
      fun _ => 0 := by
  have apart : Apart (firstTf layout p) 176
      (ctxAddr layout p + CtxField.rsp.offset) 8 :=
    (ctx_apart_firstTf bound valid).symm.mono (fun _ inside => inside)
      fun _ inside => contextRecord.within_of_field .rsp inside
  rw [spawnuserEntryMem_eq bound desc mem valid, tfAt_store_apart apart]
  exact trapframeRecord.read_fill _ _

theorem spawnuserEntryMem_outside {address : Addr}
    (outsideCtx : ¬ Within (ctxAddr layout p) 72 address)
    (outsideName : ¬ Within (nameAddr layout p) 16 address)
    (outsideStack : ¬ Within (kstackAddr layout p) 4096 address) :
    spawnuserEntryMem layout desc p mem address = mem address := by
  have outsideField : ∀ field : CtxField,
      ¬ Within (ctxAddr layout p + field.offset) 8 address :=
    fun field inside =>
      outsideCtx (contextRecord.within_of_field field inside)
  have outsideTf : ¬ Within (firstTf layout p) 176 address :=
    fun inside => outsideStack (within_kstack_of_firstTf inside)
  rw [spawnuserEntryMem_eq bound desc mem valid,
    store64_outside _ _ _ _ (outsideField _),
    fill_outside _ _ _ _ _ outsideTf]
  simp only [spawnuserCtxMem, store64_outside _ _ _ _ (outsideField _)]
  exact clearedMem_outside desc mem outsideCtx outsideName

theorem firstTf_apart_ustack_word :
    Apart (firstTf layout p) 176
      (ustackAddr layout p + BitVec.ofNat 64 4088) 8 :=
  (kstack_apart_ustack valid bound).mono
    (fun _ inside => within_kstack_of_firstTf inside)
    fun _ inside => inside.of_offset (by decide) (by decide)

omit bound valid in
/-- The top word of the user stack. -/
theorem ustack_top : ustackAddr layout p + pgSz4K - xlenb =
    ustackAddr layout p + BitVec.ofNat 64 4088 := by
  bv_omega

theorem spawnuserFrameMem_tf
    (zero : tfAt mem (firstTf layout p) = fun _ => 0) :
    tfAt (spawnuserFrameMem layout desc p (firstTf layout p) mem)
      (firstTf layout p) = spawnuserTf layout desc p := by
  simp only [spawnuserFrameMem, tfAt_store, Function.update_self, ustack_top,
    tfAt_store_apart (firstTf_apart_ustack_word bound valid), zero]
  funext field
  cases field with
  | rsp => exact ustack_top.symm
  | _ => simp [spawnuserTf]

/-- `spawnuserret` is the return address of the user function. -/
theorem spawnuserFrameMem_ret :
    load64 (spawnuserFrameMem layout desc p (firstTf layout p) mem)
      (ustackAddr layout p + BitVec.ofNat 64 4088) = layout.spawnuserret := by
  have apart : ∀ field : TrapField,
      Apart (ustackAddr layout p + BitVec.ofNat 64 4088) 8
        (firstTf layout p + field.offset) 8 :=
    fun field => (firstTf_apart_ustack_word bound valid).symm.mono
      (fun _ inside => inside)
      fun _ inside => trapframeRecord.within_of_field field inside
  simp only [spawnuserFrameMem, tfAt_store, Function.update_self, ustack_top,
    load64_store64_apart _ _ _ _ (apart _), load64_store64_same]

omit bound valid in
theorem spawnuserFrameMem_outside {address : Addr}
    (outsideStack : ¬ Within (kstackAddr layout p) 4096 address)
    (outsideUser : ¬ Within (ustackAddr layout p) 4096 address) :
    spawnuserFrameMem layout desc p (firstTf layout p) mem address =
      mem address := by
  have outsideField : ∀ field : TrapField,
      ¬ Within (firstTf layout p + field.offset) 8 address :=
    fun field inside => outsideStack (within_kstack_of_firstTf
      (trapframeRecord.within_of_field field inside))
  have outsideWord :
      ¬ Within (ustackAddr layout p + BitVec.ofNat 64 4088) 8 address :=
    fun inside => outsideUser (inside.of_offset (by decide) (by decide))
  simp only [spawnuserFrameMem, tfAt_store, Function.update_self, ustack_top,
    store64_outside _ _ _ _ (outsideField _),
    store64_outside _ _ _ _ outsideWord]

end SpawnuserMem

section Spawnuser

variable (layout : Layout) {desc : NewProcDesc} {kernel : KernelState}

/-- The statements of `spawnuser` from the mapping of the user stack on. -/
def spawnuserRest (desc : NewProcDesc) (p : Nat) : List Stmt :=
  [.plain (mapUstack layout p),
    setTf p .ss fun _ => segUdata <<< 3 ||| dplUser,
    setTf p .rsp fun kernel =>
      ustackAddr layout (kernel.slot p).pid + pgSz4K,
    setTf p .rsp fun kernel => kernel.tf p .rsp - xlenb,
    write fun kernel =>
      store64 kernel.mem (kernel.tf p .rsp) layout.spawnuserret,
    setTf p .rflags fun _ => flIf,
    setTf p .cs fun _ => segUcode <<< 3 ||| dplUser,
    setTf p .rip fun _ => desc.func,
    setTf p .rdi fun _ => desc.initarg,
    .setState p .runnable]

/-- The table entry that `spawnuser` fills in. -/
def spawnuserSlot (desc : NewProcDesc) (kernel : KernelState) : Slot where
  pid := kernel.nproc
  kstack := kstackAddr layout kernel.nproc
  ptRoot := kernel.image.upml4
  prio := desc.prio
  tf := firstTf layout kernel.nproc

/-- `spawnuser` gets as far as the mapping of the user stack. -/
theorem spawnuser_entry (prioValid : PrioValid desc)
    (bound : kernel.nproc < maxProc) :
    execAll kernel (spawnuser layout desc kernel.nproc) =
      execAll (built kernel kernel.nproc .reserve
        { kernel.image.heap with
          mem := spawnuserEntryMem layout desc kernel.nproc kernel.mem }
        (spawnuserSlot layout desc kernel))
        (spawnuserRest layout desc kernel.nproc) := by
  have entry := execAll_allocproc layout kernel
  have frame : ctxAt (spawnuserCtxMem layout desc kernel.nproc kernel.mem)
      (ctxAddr layout kernel.nproc) .rsp = firstTf layout kernel.nproc := by
    rw [spawnuserCtxMem_ctx bound, Function.update_self]
  unfold spawnuser
  rw [List.append_assoc, List.append_assoc, List.singleton_append,
    execAll_checkPrio _ prioValid, execAll_append _ entry]
  simp only [setNameAndPrio, setCtx, List.cons_append, List.nil_append]
  rw [execAll_write, execAll_writeSlot, execAll_writeSlot, execAll_write,
    execAll_write, execAll_write, execAll_write]
  simp only [built_slot, built_mem, KernelState.ctx]
  change execAll (built kernel kernel.nproc .reserve
    { kernel.image.heap with
      mem := spawnuserCtxMem layout desc kernel.nproc kernel.mem }
    { spawnuserSlot layout desc kernel with
      tf := (kernel.slot kernel.nproc).tf }) _ = _
  -- the pointer to the trap frame is read from the saved context
  rw [execAll_writeSlot, execAll_write, execAll_write]
  simp only [built_slot, built_mem, frame, spawnuserEntryMem]
  rfl

/-- `spawnuser` makes the entry `nproc` a runnable user process, if its user
stack can be mapped. -/
theorem spawnuser_eq (prioValid : PrioValid desc)
    (bound : kernel.nproc < maxProc) {heap : Heap}
    (mapped : pagingMap kernel.image.upml4
      (ustackAddr layout kernel.nproc)
      (v2p (ustackAddr layout kernel.nproc)) ustackSz (pfU ||| pfW)
      { kernel.image.heap with
        mem := spawnuserEntryMem layout desc kernel.nproc kernel.mem } =
        .ok heap) :
    execAll kernel (spawnuser layout desc kernel.nproc) =
      .ok (built kernel kernel.nproc .runnable
        { heap with
          mem := spawnuserFrameMem layout desc kernel.nproc
            (firstTf layout kernel.nproc) heap.mem }
        (spawnuserSlot layout desc kernel)) := by
  rw [spawnuser_entry layout prioValid bound, spawnuserRest]
  refine (execAll_mapUstack heap ?_ _).trans ?_
  · exact mapped
  simp only [setTf, execAll_write, execAll_setState, built_slot, built_mem,
    KernelState.tf]
  rfl

/-- If `spawnuser` returns, it has mapped the user stack. -/
theorem mapped_of_spawnuser {kernel' : KernelState}
    (prioValid : PrioValid desc) (bound : kernel.nproc < maxProc)
    (success : execAll kernel (spawnuser layout desc kernel.nproc) =
      .ok kernel') :
    ∃ heap, pagingMap kernel.image.upml4 (ustackAddr layout kernel.nproc)
      (v2p (ustackAddr layout kernel.nproc)) ustackSz (pfU ||| pfW)
      { kernel.image.heap with
        mem := spawnuserEntryMem layout desc kernel.nproc kernel.mem } =
        .ok heap := by
  rw [spawnuser_entry layout prioValid bound, spawnuserRest, execAll,
    List.foldlM_cons, bind_eq_ok] at success
  rcases success with ⟨middle, first, _⟩
  rw [bind_eq_ok] at first
  rcases first with ⟨result, ran, _⟩
  rw [Stmt.exec, bind_eq_ok] at ran
  rcases ran with ⟨image, maps, _⟩
  rw [mapUstack, built_slot, bind_eq_ok] at maps
  rcases maps with ⟨heap, mapped, _⟩
  exact ⟨heap, mapped⟩

end Spawnuser

end Rt64.Kernel.Spawn
