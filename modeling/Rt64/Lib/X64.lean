import Rt64.Lib.ByteMemory
import Mathlib.Logic.Function.Basic

/-!
# A fragment of the x86-64 architecture

The registers, the instructions that context switches and trap entries are made
of, and what the processor does on an interrupt and on `iretq`.  A routine is a
list of instructions with the jump that ends it, so that the instruction pointer
only matters where control is transferred.

The rules for stacks are stated for whole lists: pushing a list of words lays
them out downwards from the stack pointer, and popping into a list of registers
reads them back upwards.  Reserved bits of `rflags` are not modelled.
-/

namespace Rt64.Lib.X64

open Rt64.Lib.ByteMemory

inductive Reg where
  | rax
  | rbx
  | rcx
  | rdx
  | rbp
  | rsi
  | rdi
  | rsp
  | r8
  | r9
  | r10
  | r11
  | r12
  | r13
  | r14
  | r15
deriving DecidableEq, Repr

/-- An entry of the interrupt descriptor table. -/
structure Gate where
  handler : Addr
  selector : BitVec 16
  /-- The least privileged level that may use the gate by `int`. -/
  dpl : Nat
  /-- A trap gate leaves the interrupt flag alone. -/
  trapGate : Bool

structure Cpu where
  regs : Reg → BitVec 64
  rip : Addr
  rflags : BitVec 64
  cs : BitVec 16
  ss : BitVec 16
  mem : Memory
  idt : Nat → Gate
  /-- The stack for entries from user mode, from the task state segment. -/
  rsp0 : Addr
  /-- The base of the segment in `fs`. -/
  fsBase : Addr

namespace Cpu

def set (cpu : Cpu) (reg : Reg) (value : BitVec 64) : Cpu :=
  { cpu with regs := Function.update cpu.regs reg value }

/-- The current privilege level. -/
def cpl (cpu : Cpu) : Nat :=
  (cpu.cs &&& 3).toNat

def push (cpu : Cpu) (value : BitVec 64) : Cpu :=
  let top := cpu.regs .rsp - 8
  { cpu with
    regs := Function.update cpu.regs .rsp top
    mem := store64 cpu.mem top value }

def pop (cpu : Cpu) (dst : Reg) : Cpu :=
  let top := cpu.regs .rsp
  (cpu.set .rsp (top + 8)).set dst (load64 cpu.mem top)

end Cpu

/-! ## Instructions -/

/-- Instructions that go on with the next one, with the operands in the order
of the assembler: source first. -/
inductive Instr where
  | mov (src dst : Reg)
  | movImm (value : BitVec 64) (dst : Reg)
  /-- `mov disp(base), dst`. -/
  | load (disp : BitVec 64) (base dst : Reg)
  /-- `mov src, disp(base)`. -/
  | store (src : Reg) (disp : BitVec 64) (base : Reg)
  | push (src : Reg)
  | pushImm (value : BitVec 64)
  | pop (dst : Reg)
  | addImm (value : BitVec 64) (dst : Reg)

/-- The carry, parity, adjust, zero, sign and overflow flags after an addition. -/
def addFlags (left right flags : BitVec 64) : BitVec 64 :=
  let sum := left + right
  let bit (place : Nat) (condition : Bool) : BitVec 64 :=
    if condition then BitVec.ofNat 64 (2 ^ place) else 0
  let ones := ((List.range 8).filter fun i => sum.getLsbD i).length
  (flags &&& ~~~ 0x8D5#64) |||
    bit 0 (decide (2 ^ 64 ≤ left.toNat + right.toNat)) |||
    bit 2 (ones % 2 == 0) |||
    bit 4 ((left ^^^ right ^^^ sum).getLsbD 4) |||
    bit 6 (sum == 0) |||
    bit 7 sum.msb |||
    bit 11 (left.msb == right.msb && sum.msb != left.msb)

def Instr.exec (cpu : Cpu) : Instr → Cpu
  | .mov src dst => cpu.set dst (cpu.regs src)
  | .movImm value dst => cpu.set dst value
  | .load disp base dst => cpu.set dst (load64 cpu.mem (cpu.regs base + disp))
  | .store src disp base =>
      { cpu with
        mem := store64 cpu.mem (cpu.regs base + disp) (cpu.regs src) }
  | .push src => cpu.push (cpu.regs src)
  | .pushImm value => cpu.push value
  | .pop dst => cpu.pop dst
  | .addImm value dst =>
      { cpu.set dst (cpu.regs dst + value) with
        rflags := addFlags (cpu.regs dst) value cpu.rflags }

def execBody (cpu : Cpu) (code : List Instr) : Cpu :=
  code.foldl Instr.exec cpu

/-! ## Interrupts -/

/-- `TF`, `RF`, `NT` and `VM`, which every gate clears. -/
abbrev gateMask : BitVec 64 := 0x34100

/-- The interrupt flag. -/
abbrev interruptFlag : BitVec 64 := 0x200

/-- Push a list of words, the first of them at the highest address. -/
def pushAll (cpu : Cpu) (words : List (BitVec 64)) : Cpu :=
  words.foldl Cpu.push cpu

/--
The processor takes an interrupt or exception: it changes to the kernel's stack
if it was in user mode, aligns the stack pointer to 16 bytes, and pushes the
state to return to and the error code, if the vector has one.
-/
def deliver (vector : Nat) (err : Option (BitVec 64)) (cpu : Cpu) : Cpu :=
  let gate := cpu.idt vector
  let top := if cpu.cpl = 0 then cpu.regs .rsp else cpu.rsp0
  let frame := [cpu.ss.setWidth 64, cpu.regs .rsp, cpu.rflags,
    cpu.cs.setWidth 64, cpu.rip] ++ err.toList
  let pushed := pushAll (cpu.set .rsp (top &&& ~~~ 15#64)) frame
  let cleared := cpu.rflags &&& ~~~ gateMask
  { pushed with
    rip := gate.handler
    cs := gate.selector
    ss := if cpu.cpl = 0 then cpu.ss else 0
    rflags := if gate.trapGate then cleared
      else cleared &&& ~~~ interruptFlag }

def iretq (cpu : Cpu) : Cpu :=
  let word (i : Nat) :=
    load64 cpu.mem (cpu.regs .rsp + BitVec.ofNat 64 (8 * i))
  { cpu.set .rsp (word 3) with
    rip := word 0
    cs := (word 1).setWidth 16
    rflags := word 2
    ss := (word 4).setWidth 16 }

/-- The general protection fault. -/
abbrev gpVector : Nat := 13

/-- How a routine ends. -/
inductive Jump where
  | jmp (target : Addr)
  /-- A call, with the address of the instruction after it. -/
  | call (target next : Addr)
  | ret
  | iretq
  /-- `int $vector`, with its own address and that of the next instruction. -/
  | int (vector : Nat) (self next : Addr)

def Jump.exec (cpu : Cpu) : Jump → Cpu
  | .jmp target => { cpu with rip := target }
  | .call target next => { cpu.push next with rip := target }
  | .ret =>
      { cpu.set .rsp (cpu.regs .rsp + 8) with
        rip := load64 cpu.mem (cpu.regs .rsp) }
  | .iretq => X64.iretq cpu
  | .int vector self next =>
      if cpu.cpl ≤ (cpu.idt vector).dpl then
        deliver vector none { cpu with rip := next }
      else
        deliver gpVector (some (BitVec.ofNat 64 (8 * vector + 2)))
          { cpu with rip := self }

/-- A stretch of straight-line code and the jump at its end. -/
structure Routine where
  body : List Instr
  last : Jump

def Routine.run (routine : Routine) (cpu : Cpu) : Cpu :=
  routine.last.exec (execBody cpu routine.body)

/-! ## Registers -/

section Basic

variable (cpu : Cpu)

@[simp]
theorem set_same (reg : Reg) (value : BitVec 64) :
    (cpu.set reg value).regs reg = value :=
  Function.update_self ..

theorem set_other {reg reg' : Reg} (value : BitVec 64) (other : reg' ≠ reg) :
    (cpu.set reg value).regs reg' = cpu.regs reg' :=
  Function.update_of_ne other ..

@[simp]
theorem push_rsp (value : BitVec 64) :
    (cpu.push value).regs .rsp = cpu.regs .rsp - 8 :=
  Function.update_self Reg.rsp _ cpu.regs

theorem execBody_append (first second : List Instr) :
    execBody cpu (first ++ second) = execBody (execBody cpu first) second :=
  List.foldl_append

theorem pushAll_append (first second : List (BitVec 64)) :
    pushAll cpu (first ++ second) = pushAll (pushAll cpu first) second :=
  List.foldl_append

end Basic

/-! ## Pushing a list of words -/

theorem pushAll_cons (cpu : Cpu) (word : BitVec 64)
    (words : List (BitVec 64)) :
    pushAll cpu (word :: words) = pushAll (cpu.push word) words :=
  rfl

/-- Pushing changes the stack pointer and the memory only. -/
theorem pushAll_eq (cpu : Cpu) (words : List (BitVec 64)) :
    pushAll cpu words =
      { cpu with
        regs := Function.update cpu.regs .rsp
          (cpu.regs .rsp - BitVec.ofNat 64 (8 * words.length))
        mem := (pushAll cpu words).mem } := by
  induction words generalizing cpu with
  | nil => simp [pushAll]
  | cons word words induction =>
      have lower : cpu.regs .rsp - 8 - BitVec.ofNat 64 (8 * words.length) =
          cpu.regs .rsp - BitVec.ofNat 64 (8 * (word :: words).length) := by
        rw [List.length_cons]
        bv_omega
      rw [pushAll_cons, induction (cpu.push word)]
      simp only [Cpu.push, Function.update_self, Function.update_idem, lower]

/-! ## The base of `fs` -/

theorem deliver_fsBase (vector : Nat) (err : Option (BitVec 64)) (cpu : Cpu) :
    (deliver vector err cpu).fsBase = cpu.fsBase := by
  simp only [deliver]
  rw [pushAll_eq]
  rfl

theorem execBody_fsBase (cpu : Cpu) (code : List Instr) :
    (execBody cpu code).fsBase = cpu.fsBase := by
  induction code generalizing cpu with
  | nil => rfl
  | cons instr code induction =>
      refine (induction (instr.exec cpu)).trans ?_
      cases instr <;> rfl

/-- A routine leaves the base of `fs` alone, an interrupt at its end included. -/
theorem run_fsBase (routine : Routine) (cpu : Cpu) :
    (routine.run cpu).fsBase = cpu.fsBase := by
  rw [Routine.run, ← execBody_fsBase cpu routine.body]
  cases routine.last with
  | int vector self next =>
      simp only [Jump.exec]
      split
      · exact deliver_fsBase _ _ _
      · exact deliver_fsBase _ _ _
  | _ => rfl

/-- What is pushed where depends on the registers and the memory only. -/
theorem pushAll_congr {left right : Cpu} (regs : left.regs = right.regs)
    (mem : left.mem = right.mem) (words : List (BitVec 64)) :
    (pushAll left words).regs = (pushAll right words).regs ∧
      (pushAll left words).mem = (pushAll right words).mem := by
  induction words generalizing left right with
  | nil => exact ⟨regs, mem⟩
  | cons word words induction =>
      rw [pushAll_cons, pushAll_cons]
      apply induction
      · simp only [Cpu.push, regs]
      · simp only [Cpu.push, regs, mem]

theorem pushAll_rsp (cpu : Cpu) (words : List (BitVec 64)) :
    (pushAll cpu words).regs .rsp =
      cpu.regs .rsp - BitVec.ofNat 64 (8 * words.length) := by
  rw [pushAll_eq]
  exact Function.update_self Reg.rsp _ cpu.regs

theorem pushAll_other (cpu : Cpu) (words : List (BitVec 64)) {reg : Reg}
    (other : reg ≠ .rsp) : (pushAll cpu words).regs reg = cpu.regs reg := by
  rw [pushAll_eq]
  exact Function.update_of_ne other ..

/-- Pushing writes between the new stack pointer and the old one. -/
theorem pushAll_outside (cpu : Cpu) {words : List (BitVec 64)}
    {address : Addr} (small : 8 * words.length < 2 ^ 64)
    (outside : ¬ Within (cpu.regs .rsp - BitVec.ofNat 64 (8 * words.length))
      (8 * words.length) address) :
    (pushAll cpu words).mem address = cpu.mem address := by
  induction words generalizing cpu with
  | nil => rfl
  | cons word words induction =>
      rw [List.length_cons] at small outside
      have outsideSlot : ¬ Within (cpu.regs .rsp - 8) 8 address := by
        simp only [Within] at outside ⊢
        bv_omega
      have outsideRest : ¬ Within
          ((cpu.push word).regs .rsp - BitVec.ofNat 64 (8 * words.length))
          (8 * words.length) address := by
        rw [push_rsp]
        simp only [Within] at outside ⊢
        bv_omega
      rw [pushAll_cons, induction (cpu.push word) (by omega) outsideRest]
      exact store64_outside _ _ _ _ outsideSlot

/-- The word pushed after `k` others. -/
theorem pushAll_word (cpu : Cpu) {words : List (BitVec 64)} {k : Nat}
    (small : 8 * words.length < 2 ^ 64) (bound : k < words.length) :
    load64 (pushAll cpu words).mem
      (cpu.regs .rsp - BitVec.ofNat 64 (8 * (k + 1))) = words.get ⟨k, bound⟩ := by
  induction words generalizing cpu k with
  | nil => cases bound
  | cons word words induction =>
      rw [List.length_cons] at small
      rw [pushAll_cons]
      cases k with
      | zero =>
          -- the words pushed later lie below this one
          have kept : load64 (pushAll (cpu.push word) words).mem
              (cpu.regs .rsp - 8) =
                load64 (cpu.push word).mem (cpu.regs .rsp - 8) := by
            apply load64_congr
            intro address inside
            apply pushAll_outside _ (by omega)
            rw [push_rsp]
            simp only [Within] at inside ⊢
            bv_omega
          exact kept.trans (load64_store64_same _ _ _)
      | succ k =>
          have below : k < words.length := Nat.lt_of_succ_lt_succ bound
          have place : cpu.regs .rsp - BitVec.ofNat 64 (8 * (k + 1 + 1)) =
              (cpu.push word).regs .rsp - BitVec.ofNat 64 (8 * (k + 1)) := by
            rw [push_rsp]
            bv_omega
          rw [place]
          exact induction (cpu.push word) (by omega) below

/-- What the processor pushes when it takes an interrupt. -/
def deliverWords (err : Option (BitVec 64)) (cpu : Cpu) : List (BitVec 64) :=
  [cpu.ss.setWidth 64, cpu.regs .rsp, cpu.rflags, cpu.cs.setWidth 64,
    cpu.rip] ++ err.toList

/-- Where it starts to push. -/
def deliverTop (cpu : Cpu) : Addr :=
  (if cpu.cpl = 0 then cpu.regs .rsp else cpu.rsp0) &&& ~~~ 15#64

/-- The alignment costs at most 15 bytes. -/
theorem align_add (top : Addr) :
    ∃ rest : BitVec 64, rest.toNat < 16 ∧ (top &&& ~~~ 15#64) + rest = top := by
  have apart : (top &&& ~~~ 15#64) &&& (top &&& 15#64) = 0#64 := by
    ext i bound
    simp only [BitVec.getElem_and, BitVec.getElem_not, BitVec.getElem_zero]
    cases top[i] <;> cases (15#64)[i] <;> rfl
  refine ⟨top &&& 15#64, ?_, ?_⟩
  · rw [BitVec.toNat_and]
    exact Nat.lt_succ_of_le Nat.and_le_right
  · rw [BitVec.add_eq_or_of_and_eq_zero _ _ apart]
    ext i bound
    simp only [BitVec.getElem_or, BitVec.getElem_and, BitVec.getElem_not]
    cases top[i] <;> cases (15#64)[i] <;> rfl

theorem deliver_regs (vector : Nat) (err : Option (BitVec 64)) (cpu : Cpu) :
    (deliver vector err cpu).regs =
      (pushAll (cpu.set .rsp (deliverTop cpu)) (deliverWords err cpu)).regs := by
  simp only [deliver, deliverTop, deliverWords]

theorem deliver_mem (vector : Nat) (err : Option (BitVec 64)) (cpu : Cpu) :
    (deliver vector err cpu).mem =
      (pushAll (cpu.set .rsp (deliverTop cpu)) (deliverWords err cpu)).mem := by
  simp only [deliver, deliverTop, deliverWords]

/-- Pushing registers, none of them the stack pointer. -/
theorem execBody_push (cpu : Cpu) {regs : List Reg} (noRsp : .rsp ∉ regs) :
    execBody cpu (regs.map .push) = pushAll cpu (regs.map cpu.regs) := by
  induction regs generalizing cpu with
  | nil => rfl
  | cons reg regs induction =>
      have noRsp' : .rsp ∉ regs := fun member =>
        noRsp (List.mem_cons_of_mem _ member)
      have same : regs.map (cpu.push (cpu.regs reg)).regs =
          regs.map cpu.regs := by
        apply List.map_congr_left
        intro other member
        have different : other ≠ .rsp := by
          rintro rfl
          exact noRsp' member
        exact Function.update_of_ne different ..
      have rest := induction (cpu.push (cpu.regs reg)) noRsp'
      rw [same] at rest
      exact rest

/-! ## Popping into a list of registers -/

/-- Popping reads the words upwards from the stack pointer. -/
theorem execBody_pop (cpu : Cpu) {dsts : List Reg} (distinct : dsts.Nodup)
    (noRsp : .rsp ∉ dsts) :
    execBody cpu (dsts.map .pop) =
      { cpu with
        regs := fun reg =>
          if reg = .rsp then
            cpu.regs .rsp + BitVec.ofNat 64 (8 * dsts.length)
          else if reg ∈ dsts then
            load64 cpu.mem
              (cpu.regs .rsp + BitVec.ofNat 64 (8 * dsts.idxOf reg))
          else cpu.regs reg } := by
  induction dsts generalizing cpu with
  | nil =>
      have same : (fun reg => if reg = .rsp then cpu.regs .rsp
          else cpu.regs reg) = cpu.regs := by
        funext reg
        split
        · rename_i isRsp
          rw [isRsp]
        · rfl
      simp [execBody, same]
  | cons dst dsts induction =>
      have different : dst ≠ .rsp := by
        rintro rfl
        exact noRsp List.mem_cons_self
      have noRsp' : .rsp ∉ dsts := fun member =>
        noRsp (List.mem_cons_of_mem _ member)
      rcases List.nodup_cons.mp distinct with ⟨fresh, distinct'⟩
      have popped : (cpu.pop dst).regs .rsp = cpu.regs .rsp + 8 := by
        rw [Cpu.pop, set_other _ _ different.symm, set_same]
      have rest := induction (cpu.pop dst) distinct' noRsp'
      refine Eq.trans rest ?_
      rw [popped]
      simp only [Cpu.pop, Cpu.set, Cpu.mk.injEq, and_self, and_true]
      funext reg
      by_cases isRsp : reg = .rsp
      · rw [if_pos isRsp, if_pos isRsp, List.length_cons]
        bv_omega
      · rw [if_neg isRsp, if_neg isRsp]
        by_cases isDst : reg = dst
        · subst isDst
          rw [if_neg fresh, if_pos List.mem_cons_self, List.idxOf_cons_self,
            Function.update_self]
          simp
        · have place : cpu.regs .rsp + 8 +
              BitVec.ofNat 64 (8 * dsts.idxOf reg) =
                cpu.regs .rsp +
                  BitVec.ofNat 64 (8 * (dst :: dsts).idxOf reg) := by
            rw [List.idxOf_cons_ne _ (Ne.symm isDst)]
            bv_omega
          simp only [List.mem_cons, isDst, false_or, place,
            Function.update_of_ne isDst, Function.update_of_ne isRsp]

end Rt64.Lib.X64
