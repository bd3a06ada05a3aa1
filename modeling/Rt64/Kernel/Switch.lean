import Rt64.Kernel.Spawn
import Rt64.Lib.X64

/-!
# The context switch

`swtch` from `switch.S`, instruction by instruction.  It saves the caller's
context at `rdi` and takes up the one at `rsi`.  The return address is saved from
the top of the old stack and written to the top of the new one, so that `ret`
goes to where the context says.
-/

namespace Rt64.Kernel.Switch

open Rt64.Lib.ByteMemory
open Rt64.Lib.X64
open Rt64.Kernel.Process
open Rt64.Kernel.Spawn

/-- The first half of `swtch`: save to the old context. -/
def swtchSave : List Instr :=
  [.store .r15 0 .rdi,
    .store .r14 8 .rdi,
    .store .r13 16 .rdi,
    .store .r12 24 .rdi,
    .store .rbx 32 .rdi,
    .store .rbp 40 .rdi,
    .store .rdi 64 .rdi,
    -- the stack
    .store .rsp 56 .rdi,
    -- `rip`, from the top of the stack
    .load 0 .rsp .rax,
    .store .rax 48 .rdi]

/-- The second half: restore from the new context. -/
def swtchRestore : List Instr :=
  [.load 0 .rsi .r15,
    .load 8 .rsi .r14,
    .load 16 .rsi .r13,
    .load 24 .rsi .r12,
    .load 32 .rsi .rbx,
    .load 40 .rsi .rbp,
    .load 64 .rsi .rdi,
    .load 56 .rsi .rsp,
    -- `rip`, to the top of the stack
    .load 48 .rsi .rax,
    .store .rax 0 .rsp]

def swtch : Routine where
  body := swtchSave ++ swtchRestore
  last := .ret

/-! ## Saving -/

/-- The context of a thread at its call of `swtch`. -/
def callerCtx (cpu : Cpu) : CtxField → BitVec 64
  | .r15 => cpu.regs .r15
  | .r14 => cpu.regs .r14
  | .r13 => cpu.regs .r13
  | .r12 => cpu.regs .r12
  | .rbx => cpu.regs .rbx
  | .rbp => cpu.regs .rbp
  | .rip => load64 cpu.mem (cpu.regs .rsp)
  | .rsp => cpu.regs .rsp
  | .rdi => cpu.regs .rdi

/-- The memory when all but the return address is saved. -/
def saveRegs (cpu : Cpu) : Memory :=
  let old := cpu.regs .rdi
  let mem := store64 cpu.mem (old + CtxField.r15.offset) (cpu.regs .r15)
  let mem := store64 mem (old + CtxField.r14.offset) (cpu.regs .r14)
  let mem := store64 mem (old + CtxField.r13.offset) (cpu.regs .r13)
  let mem := store64 mem (old + CtxField.r12.offset) (cpu.regs .r12)
  let mem := store64 mem (old + CtxField.rbx.offset) (cpu.regs .rbx)
  let mem := store64 mem (old + CtxField.rbp.offset) (cpu.regs .rbp)
  let mem := store64 mem (old + CtxField.rdi.offset) (cpu.regs .rdi)
  store64 mem (old + CtxField.rsp.offset) (cpu.regs .rsp)

/-- The memory after the first half of `swtch`. -/
def saveCtx (cpu : Cpu) : Memory :=
  store64 (saveRegs cpu) (cpu.regs .rdi + CtxField.rip.offset)
    (load64 (saveRegs cpu) (cpu.regs .rsp + 0))

theorem execBody_swtchSave (cpu : Cpu) :
    execBody cpu swtchSave =
      { cpu.set .rax (load64 (saveRegs cpu) (cpu.regs .rsp + 0)) with
        mem := saveCtx cpu } := by
  simp only [swtchSave, execBody, List.foldl_cons, List.foldl_nil, Instr.exec,
    Cpu.set, saveCtx, saveRegs, CtxField.offset, Function.update_self,
    Function.update_of_ne, ne_eq, reduceCtorEq, not_false_eq_true]

section Save

variable (cpu : Cpu)

theorem saveRegs_outside {address : Addr}
    (outside : ¬ Within (cpu.regs .rdi) 72 address) :
    saveRegs cpu address = cpu.mem address := by
  have outsideField : ∀ field : CtxField,
      ¬ Within (cpu.regs .rdi + field.offset) 8 address :=
    fun field inside =>
      outside (contextRecord.within_of_field field inside)
  simp only [saveRegs, store64_outside _ _ _ _ (outsideField _)]

/-- Saving writes to the old context only. -/
theorem saveCtx_outside {address : Addr}
    (outside : ¬ Within (cpu.regs .rdi) 72 address) :
    saveCtx cpu address = cpu.mem address := by
  have outsideRip : ¬ Within (cpu.regs .rdi + CtxField.rip.offset) 8 address :=
    fun inside => outside (contextRecord.within_of_field .rip inside)
  rw [saveCtx, store64_outside _ _ _ _ outsideRip]
  exact saveRegs_outside cpu outside

/-- The old context holds the registers of the caller. -/
theorem saveCtx_ctx
    (apart : Apart (cpu.regs .rsp) 8 (cpu.regs .rdi) 72) :
    ctxAt (saveCtx cpu) (cpu.regs .rdi) = callerCtx cpu := by
  have ret : load64 (saveRegs cpu) (cpu.regs .rsp + 0) =
      load64 cpu.mem (cpu.regs .rsp) := by
    simp only [BitVec.ofNat_eq_ofNat, BitVec.add_zero]
    exact load64_congr _ fun address inside =>
      saveRegs_outside cpu (apart address inside)
  simp only [saveCtx, saveRegs, ctxAt_store] at ret ⊢
  rw [ret]
  funext field
  cases field <;> simp [callerCtx]

end Save

/-! ## Restoring -/

/-- A thread is taken up with the given context. -/
def resume (ctx : CtxField → BitVec 64) (cpu : Cpu) : Cpu :=
  { cpu with
    regs := fun
      | .r15 => ctx .r15
      | .r14 => ctx .r14
      | .r13 => ctx .r13
      | .r12 => ctx .r12
      | .rbx => ctx .rbx
      | .rbp => ctx .rbp
      | .rdi => ctx .rdi
      | .rsp => ctx .rsp + 8
      | .rax => ctx .rip
      | reg => cpu.regs reg
    rip := ctx .rip
    mem := store64 cpu.mem (ctx .rsp) (ctx .rip) }

/-- The second half of `swtch` and its `ret`. -/
theorem ret_swtchRestore (cpu : Cpu) :
    Jump.ret.exec (execBody cpu swtchRestore) =
      resume (ctxAt cpu.mem (cpu.regs .rsi)) cpu := by
  have field (field : CtxField) : ctxAt cpu.mem (cpu.regs .rsi) field =
      load64 cpu.mem (cpu.regs .rsi + field.offset) := rfl
  simp only [swtchRestore, execBody, List.foldl_cons, List.foldl_nil,
    Instr.exec, Jump.exec, Cpu.set, Function.update_self,
    Function.update_of_ne, ne_eq, reduceCtorEq, not_false_eq_true, resume,
    field, CtxField.offset, BitVec.ofNat_eq_ofNat, BitVec.add_zero,
    load64_store64_same, Cpu.mk.injEq, and_true]
  funext reg
  cases reg <;> simp

/-- What `swtch` does: the caller's context is saved, and the thread of the
other context goes on. -/
theorem swtch_run (cpu : Cpu) :
    swtch.run cpu =
      resume (ctxAt (saveCtx cpu) (cpu.regs .rsi))
        { cpu with mem := saveCtx cpu } := by
  rw [Routine.run, swtch, execBody_append, execBody_swtchSave,
    ret_swtchRestore]
  -- `rax` is the only other register that the first half changes
  simp only [resume, Cpu.set, Function.update_of_ne, ne_eq, reduceCtorEq,
    not_false_eq_true, Cpu.mk.injEq, and_true]
  funext reg
  cases reg <;> simp

/-- `swtch` writes to the old context and to the top of the new stack only. -/
theorem swtch_outside (cpu : Cpu) {address : Addr}
    (outsideOld : ¬ Within (cpu.regs .rdi) 72 address)
    (outsideNew : ¬ Within
      (ctxAt (saveCtx cpu) (cpu.regs .rsi) .rsp) 8 address) :
    (swtch.run cpu).mem address = cpu.mem address := by
  rw [swtch_run]
  exact (store64_outside _ _ _ _ outsideNew).trans
    (saveCtx_outside cpu outsideOld)

end Rt64.Kernel.Switch
