import Rt64.Kernel.Kalloc

/-!
# Page mapping

The functions of `paging.c`.  A table is an array of 512 entries in one frame,
reached through the direct map, so each function reads and writes the memory of
the heap it is given and passes the changed heap on.

`paging_map` strips huge pages and maps page by page; `pt_deepcopy_level`
copies a table and, above the last level, every table it refers to.
-/

namespace Rt64.Kernel.Paging

open Rt64.Lib.ByteMemory
open Rt64.Include.Defs
open Rt64.Klib.String
open Rt64.Kernel.Kalloc

/-! ## Entries -/

/-- The address of `pt[idx]`. -/
def entryAddr (pt : Addr) (idx : Nat) : Addr :=
  pt + BitVec.ofNat 64 (8 * idx)

/-- `pt[idx]`, read. -/
def getEnt (mem : Memory) (pt : Addr) (idx : Nat) : BitVec 64 :=
  load64 mem (entryAddr pt idx)

/-- `pt[idx] = ent`. -/
def setEnt (mem : Memory) (pt : Addr) (idx : Nat) (ent : BitVec 64) :
    Memory :=
  store64 mem (entryAddr pt idx) ent

def pml4Idx (va : BitVec 64) : Nat :=
  ((va >>> 39) &&& 511).toNat

def pdptIdx (va : BitVec 64) : Nat :=
  ((va >>> 30) &&& 511).toNat

def pdIdx (va : BitVec 64) : Nat :=
  ((va >>> 21) &&& 511).toNat

def ptIdx (va : BitVec 64) : Nat :=
  ((va >>> 12) &&& 511).toNat

/-! ## Mapping -/

def safeSetent (pt : Addr) (idx : Nat) (ent : BitVec 64) (heap : Heap) :
    Except Halt Heap := do
  assert .safeSetent "!(pt[idx] & PF_P)" (getEnt heap.mem pt idx &&& pfP = 0)
  return { heap with mem := setEnt heap.mem pt idx ent }

def safeNextptMayalloc (pt : Addr) (idx : Nat) (heap : Heap) :
    Except Halt (Addr × Heap) :=
  let ent := getEnt heap.mem pt idx
  if ent &&& pfP ≠ 0 then do
    assert .safeNextptMayalloc "!(ent & PF_PS)" (ent &&& pfPS = 0)
    return (p2v (peAddr ent), heap)
  else do
    let (nextpt, heap) ← kalloc heap
    let heap ← safeSetent pt idx (v2p nextpt ||| pfW ||| pfP ||| pfU) heap
    return (nextpt, heap)

def safeNextptNoalloc (pt : Addr) (idx : Nat) (heap : Heap) :
    Except Halt Addr := do
  let ent := getEnt heap.mem pt idx
  assert .safeNextptNoalloc "ent & PF_P" (ent &&& pfP ≠ 0)
  assert .safeNextptNoalloc "!(ent & PF_PS)" (ent &&& pfPS = 0)
  return p2v (peAddr ent)

def pagingMap4K (pml4 : Addr) (va pa flags : BitVec 64) (heap : Heap) :
    Except Halt Heap := do
  assert .pagingMap4K "ALIGNED(va, PG_SZ4K)" (aligned va pgSz4K)
  assert .pagingMap4K "ALIGNED(pa, PG_SZ4K)" (aligned pa pgSz4K)
  let (pdpt, heap) ← safeNextptMayalloc pml4 (pml4Idx va) heap
  let (pd, heap) ← safeNextptMayalloc pdpt (pdptIdx va) heap
  let (pt, heap) ← safeNextptMayalloc pd (pdIdx va) heap
  let ent := pa ||| flags ||| pfP
  return { heap with mem := setEnt heap.mem pt (ptIdx va) ent }

/-- `paging_getpteref`: the address of the entry that maps `va`, if any. -/
def pagingGetpteref (mem : Memory) (pml4 : Addr) (va : BitVec 64) :
    Option Addr :=
  let ent := entryAddr pml4 (pml4Idx va)
  if load64 mem ent &&& pfP = 0 then none
  else if load64 mem ent &&& pfPS ≠ 0 then some ent
  else
    let ent := entryAddr (p2v (peAddr (load64 mem ent))) (pdptIdx va)
    if load64 mem ent &&& pfP = 0 then none
    else if load64 mem ent &&& pfPS ≠ 0 then some ent
    else
      let ent := entryAddr (p2v (peAddr (load64 mem ent))) (pdIdx va)
      if load64 mem ent &&& pfP = 0 then none
      else if load64 mem ent &&& pfPS ≠ 0 then some ent
      else
        let ent := entryAddr (p2v (peAddr (load64 mem ent))) (ptIdx va)
        if load64 mem ent &&& pfP = 0 then none else some ent

/-- The loop of `paging_map`; `sz` is an `isize`. -/
def pagingMapLoop (pml4 : Addr) (va pa sz flags : BitVec 64) (heap : Heap) :
    Except Halt Heap :=
  if _positive : 0 < sz.toInt then
    if _whole : 4096 ≤ sz.toInt ∧ aligned (va ||| pa) pgSz4K then do
      let heap ← pagingMap4K pml4 va pa flags heap
      pagingMapLoop pml4 (va + pgSz4K) (pa + pgSz4K) (sz - pgSz4K) flags heap
    else
      .error (.panic .pagingMap "0")
  else
    .ok heap
termination_by sz.toNat
decreasing_by
  have small := BitVec.toInt_eq_toNat_cond sz
  split at small <;> bv_omega

def pagingMap (pml4 : Addr) (va pa sz flags : BitVec 64) (heap : Heap) :
    Except Halt Heap := do
  assert .pagingMap "ALIGNED(va, PG_SZ4K)" (aligned va pgSz4K)
  assert .pagingMap "ALIGNED(pa, PG_SZ4K)" (aligned pa pgSz4K)
  assert .pagingMap "ALIGNED(sz, PG_SZ4K)" (aligned sz pgSz4K)
  pagingMapLoop pml4 va pa sz flags heap

/-! ## Copying -/

/--
The body of the loop in `pt_deepcopy_level`, for one entry; `deepcopy` copies
the tables one level down.
-/
def deepcopyEntry (deepcopy : Addr → Heap → Except Halt (Addr × Heap))
    (pt newpt : Addr) (heap : Heap) (i : Nat) : Except Halt Heap :=
  if getEnt heap.mem pt i &&& pfP = 0 then
    .ok heap
  else if getEnt heap.mem pt i &&& pfPS ≠ 0 then
    .ok { heap with
      mem := setEnt heap.mem newpt i (getEnt heap.mem pt i) }
  else do
    let nextpt ← safeNextptNoalloc pt i heap
    let (newnextpt, heap) ← deepcopy nextpt heap
    let ent := v2p newnextpt ||| peFlags (getEnt heap.mem pt i)
    safeSetent newpt i ent heap

def ptDeepcopyLevel : Nat → Addr → Heap → Except Halt (Addr × Heap)
  | 0, _, _ =>
      .error (.panic .ptDeepcopyLevel "1 <= level && level <= 4")
  | level + 1, pt, heap => do
      assert .ptDeepcopyLevel "1 <= level && level <= 4"
        (1 ≤ level + 1 ∧ level + 1 ≤ 4)
      let (newpt, heap) ← kalloc heap
      if level + 1 = 1 then
        return (newpt,
          { heap with mem := memcpy heap.mem newpt pt pgSz4K })
      else
        let heap ← (List.range pgNent).foldlM
          (deepcopyEntry (ptDeepcopyLevel level) pt newpt) heap
        return (newpt, heap)

def ptRootDeepcopy (pt : Addr) (heap : Heap) : Except Halt (Addr × Heap) :=
  ptDeepcopyLevel 4 pt heap

/-! ## The two address spaces -/

/-- `paginginit_bsp`: the kernel's root table. -/
def paginginitBsp (heap : Heap) : Except Halt (Addr × Heap) := do
  let (kpml4, heap) ← kalloc heap
  let heap ← pagingMap kpml4 kernbase 0 maxPhysMem pfW heap
  let heap ← pagingMap kpml4 devbase 0xFE000000 (16 * pgSz2M)
    (pfPWT ||| pfPCD) heap
  return (kpml4, heap)

/-- `uvminit`: the root table shared by all user processes. -/
def uvminit (kpml4 ubegin uend : Addr) (heap : Heap) :
    Except Halt (Addr × Heap) := do
  assert .uvminit "kpml4" (kpml4 ≠ 0)
  let (upml4, heap) ← ptRootDeepcopy kpml4 heap
  let heap ← pagingMap upml4 ubegin (v2p ubegin) (uend - ubegin)
    (pfW ||| pfU) heap
  return (upml4, heap)

end Rt64.Kernel.Paging
