import Rt64.Kernel.PagingDeepcopy
import Rt64.Kernel.Spawn

/-!
# Address-space isolation

`paginginit_bsp` builds the kernel's address space, `uvminit` copies it and
opens the user section to user mode, and every `spawnuser` opens the stack of
one process.  All entries above the last level carry the user bit, so what user
mode can reach is decided by the last entries alone.

An address space is described by its last entries.  `paging_map` replaces those
of its range, `spawn` changes none, and since the two trees share no table
nothing done to the user's reaches the kernel's.
-/

namespace Rt64.Kernel.Isolation

open Rt64.Lib.ByteMemory
open Rt64.Lib.RadixTree
open Rt64.Include.Defs
open Rt64.Kernel.Kalloc
open Rt64.Kernel.Paging
open Rt64.Kernel.PageTree
open Rt64.Kernel.PagingMap
open Rt64.Kernel.PagingRange
open Rt64.Kernel.PagingDeepcopy
open Rt64.Kernel.Process
open Rt64.Kernel.Spawn

/-! ## Canonical addresses -/

/-- A 48-bit canonical address: bits 47 to 63 are equal. -/
def Canonical (va : BitVec 64) : Prop :=
  va.toNat < 2 ^ 47 ∨ 2 ^ 64 - 2 ^ 47 ≤ va.toNat

/-- A range of whole pages in the upper half of the canonical addresses. -/
structure UpperRange (va sz : BitVec 64) : Prop where
  vaAligned : aligned va pgSz4K
  szAligned : aligned sz pgSz4K
  low : 2 ^ 64 - 2 ^ 47 ≤ va.toNat
  high : va.toNat + sz.toNat ≤ 2 ^ 64

instance (va : BitVec 64) : Decidable (Canonical va) :=
  inferInstanceAs (Decidable (_ ∨ _))

instance (va sz address : BitVec 64) : Decidable (InRange va sz address) :=
  inferInstanceAs (Decidable (_ ∧ _))

namespace UpperRange

variable {va sz : BitVec 64} (upper : UpperRange va sz)
include upper

theorem nonneg : 0 ≤ sz.toInt := by
  have low := upper.low
  have high := upper.high
  rw [BitVec.toInt_eq_toNat_of_lt (by omega)]
  omega

theorem pages_le : pageCount sz ≤ 2 ^ 36 := by
  have low := upper.low
  have high := upper.high
  have whole := toNat_eq_pageCount upper.szAligned upper.nonneg
  omega

theorem toNat_pageAt {page : Nat} (bound : page < pageCount sz) :
    (pageAt va page).toNat = va.toNat + 4096 * page := by
  have high := upper.high
  have whole := toNat_eq_pageCount upper.szAligned upper.nonneg
  simp only [pageAt, BitVec.toNat_add, BitVec.toNat_ofNat]
  omega

/-- A table walk meets the pages of the range at its addresses only. -/
theorem inRange_of_samePage {address : BitVec 64} {page : Nat}
    (canonical : Canonical address) (bound : page < pageCount sz)
    (same : SamePage 4 address (pageAt va page)) :
    InRange va sz address := by
  have whole := toNat_eq_pageCount upper.szAligned upper.nonneg
  have isAligned := (aligned_pgSz4K_iff va).mp upper.vaAligned
  have low := upper.low
  have high := upper.high
  have range := address.isLt
  rw [samePage_iff, upper.toNat_pageAt bound] at same
  rcases canonical with lower | higher
  · exact ⟨by omega, by omega⟩
  · exact ⟨by omega, by omega⟩

end UpperRange

/-! ## Last entries -/

/-- The last entry on the path of `va`, if it is present. -/
def leaf (mem : Memory) (pml4 : Addr) (va : BitVec 64) : Option (BitVec 64) :=
  (resolve mem 4 pml4 va).2

/-- All entries above the last level carry the flags of `paging_map_4K`. -/
def Plain (mem : Memory) (pml4 : Addr) : Prop :=
  ∀ va, (resolve mem 4 pml4 va).1 = List.replicate 3 tableFlags

theorem resolve_of_plain {mem : Memory} {pml4 : Addr}
    (plain : Plain mem pml4) (va : BitVec 64) :
    resolve mem 4 pml4 va =
      (List.replicate 3 tableFlags, leaf mem pml4 va) :=
  Prod.ext (plain va) rfl

theorem not_hugeOnPath_of_plain {mem : Memory} {pml4 : Addr}
    (plain : Plain mem pml4) (va : BitVec 64) :
    ¬ HugeOnPath mem 4 pml4 va := by
  rw [hugeOnPath_iff, plain va, not_not]
  exact List.length_replicate

/-- The effect of `paging_map` on the last entries. -/
theorem leaf_of_mappedRange {last : Addr} {heap heap' : Heap}
    {free rest : List Addr} {allocated : Set Addr} {new : List Addr}
    {pml4 : Addr} {va pa sz flags address : BitVec 64}
    (upper : UpperRange va sz)
    (range : MappedRange last heap heap' free rest allocated new pml4 va pa
      flags (pageCount sz))
    (canonical : Canonical address) :
    leaf heap'.mem pml4 address =
      if InRange va sz address then
        some ((pa + peAddr address - va) ||| flags ||| pfP)
      else leaf heap.mem pml4 address := by
  split
  · rename_i inRange
    rcases inRange.exists_page upper.vaAligned upper.szAligned upper.nonneg
      with ⟨page, bound, same, start⟩
    have target : pa + peAddr address - va = pageAt pa page := by
      rw [← start, pageAt, pageAt]
      bv_omega
    rw [leaf, resolve_samePage _ _ same, range.inside upper.pages_le page bound,
      target, pageEnt]
  · rename_i outside
    apply range.outside
    intro page bound same
    exact outside (upper.inRange_of_samePage canonical bound same)

/-- Where a last entry exists no table is missing. -/
theorem missing_eq_nil {mem : Memory} {level : Nat} {pt : Addr}
    {va ent : BitVec 64}
    (found : (resolve mem (level + 1) pt va).2 = some ent) :
    missing mem (level + 1) pt va = [] := by
  induction level generalizing pt with
  | zero => rfl
  | succ level induction =>
      cases present : nextpt mem pt (levelIdx (level + 2) va) with
      | some next =>
          rw [resolve_of_next present] at found
          rw [missing_of_next present, induction found, List.map_nil]
      | none =>
          by_cases absent :
              getEnt mem pt (levelIdx (level + 2) va) &&& pfP = 0
          · rw [resolve_of_absent absent] at found
            cases found
          · simp only [missing, present, if_neg absent]

/-! ## The two address spaces -/

/-- The entry that `paging_map` makes for an address of its range. -/
def rangeEnt (va pa flags address : BitVec 64) : BitVec 64 :=
  (pa + peAddr address - va) ||| flags ||| pfP

/-- What `paginginit_bsp` maps. -/
def kernelLeaf (va : BitVec 64) : Option (BitVec 64) :=
  if InRange devbase (16 * pgSz2M) va then
    some (rangeEnt devbase 0xFE000000 (pfPWT ||| pfPCD) va)
  else if InRange kernbase maxPhysMem va then
    some (rangeEnt kernbase 0 pfW va)
  else none

/--
The kernel's and the users' address space, where the addresses `user` of the
direct map are open to user mode.
-/
structure Spaces (last : Addr) (heap : Heap) (kpml4 upml4 : Addr)
    (user : BitVec 64 → Prop) : Prop where
  separate : ∃ free allocated,
    Separate last heap free allocated kpml4 upml4
  kernelPlain : Plain heap.mem kpml4
  userPlain : Plain heap.mem upml4
  kernelClosed : ∀ va, Canonical va → leaf heap.mem kpml4 va = kernelLeaf va
  userOpen : ∀ va, Canonical va → user va →
    leaf heap.mem upml4 va = some (rangeEnt kernbase 0 (pfW ||| pfU) va)
  userClosed : ∀ va, Canonical va → ¬ user va →
    leaf heap.mem upml4 va = kernelLeaf va
  inDirectMap : ∀ va, user va → InRange kernbase maxPhysMem va

theorem canonical_of_kernbase_le {va : BitVec 64}
    (low : kernbase.toNat ≤ va.toNat) : Canonical va := by
  have base : kernbase.toNat = 0xFFFFFFFF80000000 := by decide
  exact Or.inr (by omega)

theorem exists_kernelLeaf {va : BitVec 64}
    (inDirectMap : InRange kernbase maxPhysMem va) :
    ∃ ent, kernelLeaf va = some ent := by
  unfold kernelLeaf
  split
  · exact ⟨_, rfl⟩
  · exact ⟨_, rfl⟩

/-- Writes outside the frames do not touch a tree. -/
theorem wellFormed_congr {last : Addr} {heap : Heap} {free : List Addr}
    {allocated : Set Addr} {root : Addr} {mem : Memory}
    (wellFormed : WellFormed last heap free allocated root)
    (agree : ∀ address, last.toNat ≤ address.toNat →
      mem address = heap.mem address) :
    tables mem 4 root = tables heap.mem 4 root ∧
      WellFormed last { heap with mem } free allocated root ∧
      ∀ va, resolve mem 4 root va = resolve heap.mem 4 root va := by
  have invariant : Invariant last { heap with mem } free allocated := by
    apply wellFormed.invariant.frame_rule
    intro frame isFree address inside
    exact agree address (last_le_of_within_frame
      (wellFormed.invariant.isFrame_of_free isFree) inside)
  have onTables : ∀ table ∈ tables heap.mem 4 root,
      ∀ address, Within table 4096 address →
        mem address = heap.mem address := by
    intro table member address inside
    exact agree address (last_le_of_within_frame
      (wellFormed.isFrame_of_table member) inside)
  have same := tables_congr 4 root onTables
  refine ⟨same, ⟨wellFormed.inMemory, invariant, ?_, ?_⟩,
    fun va => (resolve_congr 4 root va onTables).1⟩
  · rw [same]
    exact wellFormed.tree.distinct
  · intro table member
    rw [same] at member
    exact wellFormed.tree.allocated table member

theorem separate_congr {last : Addr} {heap : Heap} {free : List Addr}
    {allocated : Set Addr} {left right : Addr} {mem : Memory}
    (separate : Separate last heap free allocated left right)
    (agree : ∀ address, last.toNat ≤ address.toNat →
      mem address = heap.mem address) :
    Separate last { heap with mem } free allocated left right ∧
      (∀ va, resolve mem 4 left va = resolve heap.mem 4 left va) ∧
      ∀ va, resolve mem 4 right va = resolve heap.mem 4 right va := by
  rcases wellFormed_congr separate.wellFormedLeft agree with
    ⟨sameLeft, left', resolveLeft⟩
  rcases wellFormed_congr separate.wellFormedRight agree with
    ⟨sameRight, right', resolveRight⟩
  refine ⟨⟨left', right', ?_⟩, resolveLeft, resolveRight⟩
  intro table inLeft inRight
  rw [sameLeft] at inLeft
  rw [sameRight] at inRight
  exact separate.apart table inLeft inRight

/-- What is below the frames is not written. -/
theorem kept_below_last {last : Addr} {heap heap' : Heap}
    {free rest : List Addr} {allocated : Set Addr} {touched new : List Addr}
    (grown : Grown last heap heap' free rest allocated touched new)
    {address : Addr} (below : address.toNat < last.toNat) :
    heap'.mem address = heap.mem address := by
  apply grown.kept
  · intro table member inside
    have above := last_le_of_within_frame
      (grown.before.isFrame_of_allocated (grown.owned table member)) inside
    omega
  · intro frame member inside
    have above := last_le_of_within_frame
      (grown.before.isFrame_of_free (grown.free_of_new member)) inside
    omega

namespace Spaces

variable {last : Addr} {heap : Heap} {kpml4 upml4 : Addr}
variable {user : BitVec 64 → Prop}
variable (spaces : Spaces last heap kpml4 upml4 user)
include spaces

theorem congr {mem : Memory}
    (agree : ∀ address, last.toNat ≤ address.toNat →
      mem address = heap.mem address) :
    Spaces last { heap with mem } kpml4 upml4 user := by
  rcases spaces.separate with ⟨free, allocated, separate⟩
  rcases separate_congr separate agree with ⟨separate', sameKernel, sameUser⟩
  constructor
  · exact ⟨free, allocated, separate'⟩
  · intro va
    rw [sameKernel]
    exact spaces.kernelPlain va
  · intro va
    rw [sameUser]
    exact spaces.userPlain va
  · intro va canonical
    rw [leaf, sameKernel]
    exact spaces.kernelClosed va canonical
  · intro va canonical isOpen
    rw [leaf, sameUser]
    exact spaces.userOpen va canonical isOpen
  · intro va canonical isClosed
    rw [leaf, sameUser]
    exact spaces.userClosed va canonical isClosed
  · exact spaces.inDirectMap

/-- The direct map is present in the users' address space. -/
theorem exists_leaf {va : BitVec 64}
    (inDirectMap : InRange kernbase maxPhysMem va) :
    ∃ ent, leaf heap.mem upml4 va = some ent := by
  have canonical := canonical_of_kernbase_le inDirectMap.1
  by_cases isOpen : user va
  · exact ⟨_, spaces.userOpen va canonical isOpen⟩
  · rw [spaces.userClosed va canonical isOpen]
    exact exists_kernelLeaf inDirectMap

/-- No table is missing for a range of the direct map. -/
theorem missingTables_eq_empty {va sz : BitVec 64} (upper : UpperRange va sz)
    (inDirectMap : ∀ address, InRange va sz address →
      InRange kernbase maxPhysMem address) :
    missingTables heap.mem upml4 va (pageCount sz) = ∅ := by
  have present : ∀ page < pageCount sz,
      missing heap.mem 4 upml4 (pageAt va page) = [] := by
    intro page bound
    have whole := toNat_eq_pageCount upper.szAligned upper.nonneg
    have number := upper.toNat_pageAt bound
    rcases spaces.exists_leaf
        (inDirectMap (pageAt va page) ⟨by omega, by omega⟩) with
      ⟨ent, found⟩
    exact missing_eq_nil found
  ext path
  rw [mem_missingTables]
  constructor
  · rintro ⟨page, bound, member⟩
    rw [present page bound] at member
    cases member
  · intro impossible
    exact absurd impossible (Finset.notMem_empty path)

/-- Opening a range of the direct map takes no frame and leaves the image
alone. -/
theorem pagingMap {va sz : BitVec 64} (upper : UpperRange va sz)
    (inDirectMap : ∀ address, InRange va sz address →
      InRange kernbase maxPhysMem address) :
    ∃ heap', Paging.pagingMap upml4 va (v2p va) sz (pfW ||| pfU) heap =
        .ok heap' ∧
      Spaces last heap' kpml4 upml4
        (fun address => user address ∨ InRange va sz address) ∧
      ∀ address, address.toNat < last.toNat →
        heap'.mem address = heap.mem address := by
  rcases spaces.separate with ⟨free, allocated, separate⟩
  have wellFormed := separate.wellFormedRight
  have none := spaces.missingTables_eq_empty upper inDirectMap
  have paAligned : aligned (v2p va) pgSz4K := by
    have vaAligned := (aligned_pgSz4K_iff va).mp upper.vaAligned
    exact (aligned_pgSz4K_iff _).mpr (v2p_aligned vaAligned)
  rcases pagingMap_succeeds (pfW ||| pfU) upper.vaAligned paAligned
      upper.szAligned upper.nonneg wellFormed.invariant wellFormed.tree
      (fun page _ => not_hugeOnPath_of_plain spaces.userPlain _)
      (by rw [none]; exact Nat.zero_le _) with
    ⟨heap', success⟩
  rcases pagingMap_spec wellFormed.invariant wellFormed.tree success with
    ⟨new, rest, range⟩
  rcases separate.symm.pagingMap success with
    ⟨free', allocated', separate', sameKernel⟩
  have target : ∀ address : BitVec 64,
      v2p va + peAddr address - va = 0 + peAddr address - kernbase := by
    intro address
    bv_omega
  refine ⟨heap', success, ?_, ?_⟩
  · constructor
    · exact ⟨free', allocated', separate'.symm⟩
    · intro address
      rw [sameKernel]
      exact spaces.kernelPlain address
    · intro address
      rw [range.above]
      exact spaces.userPlain address
    · intro address canonical
      rw [leaf, sameKernel]
      exact spaces.kernelClosed address canonical
    · intro address canonical isOpen
      rw [leaf_of_mappedRange upper range canonical]
      split
      · rw [target, rangeEnt]
      · rename_i outside
        rcases isOpen with before | now
        · exact spaces.userOpen address canonical before
        · exact absurd now outside
    · intro address canonical isClosed
      rw [leaf_of_mappedRange upper range canonical,
        if_neg fun inRange => isClosed (Or.inr inRange)]
      exact spaces.userClosed address canonical
        fun before => isClosed (Or.inl before)
    · intro address isOpen
      rcases isOpen with before | now
      · exact spaces.inDirectMap address before
      · exact inDirectMap address now
  · intro address below
    exact kept_below_last range.grown below

end Spaces

/-! ## `paginginit_bsp` -/

/-- `paging_map` on a tree without huge pages, with a bound on the tables that
it has to add. -/
theorem pagingMap_of_plain {last : Addr} {heap : Heap} {free : List Addr}
    {allocated : Set Addr} {pml4 : Addr} {va sz : BitVec 64}
    (pa flags : BitVec 64) (count : Nat)
    (wellFormed : WellFormed last heap free allocated pml4)
    (plain : Plain heap.mem pml4) (upper : UpperRange va sz)
    (paAligned : aligned pa pgSz4K)
    (few : (missingTables heap.mem pml4 va (pageCount sz)).card ≤ count)
    (enough : count ≤ free.length) :
    ∃ heap' rest allocated' taken,
      pagingMap pml4 va pa sz flags heap = .ok heap' ∧
        WellFormed last heap' rest allocated' pml4 ∧
        Plain heap'.mem pml4 ∧
        (∀ address, Canonical address → leaf heap'.mem pml4 address =
          if InRange va sz address then some (rangeEnt va pa flags address)
          else leaf heap.mem pml4 address) ∧
        taken ≤ count ∧
        (tables heap'.mem 4 pml4).length =
          (tables heap.mem 4 pml4).length + taken ∧
        taken + rest.length = free.length := by
  rcases pagingMap_succeeds flags upper.vaAligned paAligned upper.szAligned
      upper.nonneg wellFormed.invariant wellFormed.tree
      (fun page _ => not_hugeOnPath_of_plain plain _)
      (few.trans enough) with
    ⟨heap', success⟩
  rcases pagingMap_spec wellFormed.invariant wellFormed.tree success with
    ⟨new, rest, range⟩
  refine ⟨heap', rest, _, new.length, success,
    ⟨wellFormed.inMemory, range.grown.invariant,
      range.grown.tree wellFormed.tree range.gains⟩,
    fun address => (range.above address).trans (plain address),
    fun address canonical => leaf_of_mappedRange upper range canonical,
    range.taken.trans few, ?_, ?_⟩
  · rw [range.gains.length_eq, List.length_append]
  · rw [range.grown.split, List.length_append]

/-- The tables for the direct map, by their paths. -/
def directMapPaths : Finset (List Nat) :=
  {[511], [511, 510]} ∪ (Finset.range 8).image fun idx => [511, 510, idx]

/-- The tables for the device window that the direct map does not need. -/
def devicePaths : Finset (List Nat) :=
  {[511, 509]} ∪ (Finset.range 16).image fun idx => [511, 509, idx]

theorem card_directMapPaths : directMapPaths.card ≤ 10 := by
  decide

theorem card_devicePaths : devicePaths.card ≤ 17 := by
  have images : ((Finset.range 16).image fun idx => [511, 509, idx]).card ≤
      16 := by
    simpa using Finset.card_image_le (s := Finset.range 16)
      (f := fun idx => [511, 509, idx])
  refine (Finset.card_union_le _ _).trans ?_
  rw [Finset.card_singleton]
  omega

theorem pathsBelow_four (va : BitVec 64) :
    pathsBelow 4 va =
      [[levelIdx 4 va], [levelIdx 4 va, levelIdx 3 va],
        [levelIdx 4 va, levelIdx 3 va, levelIdx 2 va]] :=
  rfl

theorem upper_directMap : UpperRange kernbase maxPhysMem :=
  ⟨by decide, by decide, by decide, by decide⟩

theorem upper_devices : UpperRange devbase (16 * pgSz2M) :=
  ⟨by decide, by decide, by decide, by decide⟩

theorem pageCount_directMap : pageCount maxPhysMem = 4096 := by
  decide

theorem pageCount_devices : pageCount (16 * pgSz2M) = 8192 := by
  decide

theorem mem_directMapPaths {page : Nat} (bound : page < 4096)
    {path : List Nat} (member : path ∈ pathsBelow 4 (pageAt kernbase page)) :
    path ∈ directMapPaths := by
  have number := @UpperRange.toNat_pageAt _ _ upper_directMap page
    (by rw [pageCount_directMap]; exact bound)
  have base : kernbase.toNat = 0xFFFFFFFF80000000 := by decide
  rw [base] at number
  have index4 : levelIdx 4 (pageAt kernbase page) = 511 := by
    rw [levelIdx_eq, number]
    omega
  have index3 : levelIdx 3 (pageAt kernbase page) = 510 := by
    rw [levelIdx_eq, number]
    omega
  have index2 : levelIdx 2 (pageAt kernbase page) < 8 := by
    rw [levelIdx_eq, number]
    omega
  rw [pathsBelow_four, index4, index3] at member
  simp only [List.mem_cons, List.not_mem_nil, or_false] at member
  simp only [directMapPaths, Finset.mem_union, Finset.mem_insert,
    Finset.mem_singleton, Finset.mem_image, Finset.mem_range]
  rcases member with rfl | rfl | rfl
  · exact Or.inl (Or.inl rfl)
  · exact Or.inl (Or.inr rfl)
  · exact Or.inr ⟨_, index2, rfl⟩

/-- A table that exists is not missing. -/
theorem singleton_not_mem_missing {mem : Memory} {level : Nat} {pt : Addr}
    {va va' ent : BitVec 64} {flags : List (BitVec 64)} {flag : BitVec 64}
    (found : resolve mem (level + 2) pt va' = (flag :: flags, some ent))
    (same : levelIdx (level + 2) va' = levelIdx (level + 2) va) :
    [levelIdx (level + 2) va] ∉ missing mem (level + 2) pt va := by
  cases present : nextpt mem pt (levelIdx (level + 2) va) with
  | none =>
      simp only [resolve, same, present] at found
      split at found
      · cases congrArg Prod.snd found
      · cases congrArg Prod.fst found
  | some next =>
      rw [missing_of_next present]
      intro member
      rcases List.mem_map.mp member with ⟨tail, below, single⟩
      exact ne_nil_of_mem_missing below (List.cons.inj single).2

theorem mem_devicePaths {mem : Memory} {pml4 : Addr} {ent : BitVec 64}
    (plain : Plain mem pml4) (found : leaf mem pml4 kernbase = some ent)
    {page : Nat} (bound : page < 8192) {path : List Nat}
    (member : path ∈ missing mem 4 pml4 (pageAt devbase page)) :
    path ∈ devicePaths := by
  have number := @UpperRange.toNat_pageAt _ _ upper_devices page
    (by rw [pageCount_devices]; exact bound)
  have base : devbase.toNat = 0xFFFFFFFF40000000 := by decide
  rw [base] at number
  have index4 : levelIdx 4 (pageAt devbase page) = 511 := by
    rw [levelIdx_eq, number]
    omega
  have index3 : levelIdx 3 (pageAt devbase page) = 509 := by
    rw [levelIdx_eq, number]
    omega
  have index2 : levelIdx 2 (pageAt devbase page) < 16 := by
    rw [levelIdx_eq, number]
    omega
  -- the direct map already has the table below the root
  have resolved := resolve_of_plain plain kernbase
  rw [found] at resolved
  have notRoot := @singleton_not_mem_missing mem 2 pml4 (pageAt devbase page)
    kernbase _ _ _ resolved (by rw [index4]; decide)
  have below := missing_subset_pathsBelow mem 4 pml4 _ member
  rw [pathsBelow_four] at below
  simp only [List.mem_cons, List.not_mem_nil, or_false] at below
  simp only [devicePaths, Finset.mem_union, Finset.mem_singleton,
    Finset.mem_image, Finset.mem_range]
  rcases below with rfl | rfl | rfl
  · exact absurd member notRoot
  · rw [index4, index3]
    exact Or.inl rfl
  · rw [index4, index3]
    exact Or.inr ⟨_, index2, rfl⟩

/-- `paginginit_bsp` maps the direct map and the devices, with 28 tables. -/
theorem paginginitBsp_spec {last : Addr} {heap : Heap} {free : List Addr}
    {allocated : Set Addr} (inMemory : kernbase ≤ last)
    (invariant : Invariant last heap free allocated)
    (enough : 56 ≤ free.length) :
    ∃ kpml4 heap' rest allocated',
      paginginitBsp heap = .ok (kpml4, heap') ∧
        WellFormed last heap' rest allocated' kpml4 ∧
        Plain heap'.mem kpml4 ∧
        (∀ va, Canonical va → leaf heap'.mem kpml4 va = kernelLeaf va) ∧
        (tables heap'.mem 4 kpml4).length ≤ rest.length := by
  rcases free with _ | ⟨kpml4, rest⟩
  · exact absurd enough (by decide)
  rcases kalloc_succeeds invariant with ⟨heap₀, taken⟩
  rcases wellFormed_of_kalloc inMemory invariant taken with
    ⟨rest₀, split, wellFormed₀, cleared⟩
  rcases (List.cons.inj split).2 with rfl
  have plain₀ : Plain heap₀.mem kpml4 := fun va => by
    rw [resolve_cleared 3 va cleared]
  have few₁ : (missingTables heap₀.mem kpml4 kernbase
      (pageCount maxPhysMem)).card ≤ 10 := by
    refine (card_missingTables_le _ _ directMapPaths ?_).trans
      card_directMapPaths
    rw [pageCount_directMap]
    exact fun page bound path member => mem_directMapPaths bound member
  rw [List.length_cons] at enough
  rcases pagingMap_of_plain 0 pfW 10 wellFormed₀ plain₀ upper_directMap
      (by decide) few₁ (by omega) with
    ⟨heap₁, rest₁, allocated₁, taken₁, mapped₁, wellFormed₁, plain₁, leaf₁,
      bound₁, tables₁, free₁⟩
  have present : leaf heap₁.mem kpml4 kernbase =
      some (rangeEnt kernbase 0 pfW kernbase) := by
    rw [leaf₁ kernbase (canonical_of_kernbase_le le_rfl), if_pos (by decide)]
  have few₂ : (missingTables heap₁.mem kpml4 devbase
      (pageCount (16 * pgSz2M))).card ≤ 17 := by
    refine (card_missingTables_le_of_missing devicePaths ?_).trans
      card_devicePaths
    rw [pageCount_devices]
    exact fun page bound path isMissing =>
      mem_devicePaths plain₁ present bound isMissing
  rcases pagingMap_of_plain 0xFE000000 (pfPWT ||| pfPCD) 17 wellFormed₁ plain₁
      upper_devices (by decide) few₂ (by omega) with
    ⟨heap₂, rest₂, allocated₂, taken₂, mapped₂, wellFormed₂, plain₂, leaf₂,
      bound₂, tables₂, free₂⟩
  refine ⟨kpml4, heap₂, rest₂, allocated₂, ?_, wellFormed₂, plain₂, ?_, ?_⟩
  · rw [paginginitBsp, taken, ok_bind]
    dsimp only
    rw [mapped₁, ok_bind, mapped₂, ok_bind]
    rfl
  · intro va canonical
    rw [leaf₂ va canonical, leaf₁ va canonical, leaf,
      resolve_cleared 3 va cleared]
    rfl
  · rw [tables_cleared 3 cleared, List.length_singleton] at tables₁
    omega

/-! ## `uvminit` -/

/-- `paginginit_bsp` and `uvminit`, in the order in which `main` calls them. -/
def initPaging (layout : Layout) (kernel : KernelState) :
    Except Halt KernelState := do
  let (kpml4, heap) ← paginginitBsp kernel.image.heap
  let image := { kernel.image with heap, kpml4, cr3 := v2p kpml4 }
  let (upml4, heap) ← uvminit kpml4 layout.ubegin layout.uend image.heap
  return { kernel with image := { image with heap, upml4 } }

/-- The addresses of the user section. -/
def UserSection (layout : Layout) (va : BitVec 64) : Prop :=
  layout.ubegin.toNat ≤ va.toNat ∧ va.toNat < layout.uend.toNat

/-- The address spaces of a kernel. -/
def KernelSpaces (layout : Layout) (kernel : KernelState)
    (user : BitVec 64 → Prop) : Prop :=
  Spaces layout.last kernel.image.heap kernel.image.kpml4
    kernel.image.upml4 user

theorem Spaces.of_iff {last : Addr} {heap : Heap} {kpml4 upml4 : Addr}
    {user user' : BitVec 64 → Prop}
    (spaces : Spaces last heap kpml4 upml4 user)
    (same : ∀ va, user va ↔ user' va) :
    Spaces last heap kpml4 upml4 user' := by
  have equal : user = user' := funext fun va => propext (same va)
  exact equal ▸ spaces

/-- The image ends inside the direct map. -/
theorem Spaces.last_le {last : Addr} {heap : Heap} {kpml4 upml4 : Addr}
    {user : BitVec 64 → Prop}
    (spaces : Spaces last heap kpml4 upml4 user) :
    last.toNat + 4096 ≤ memoryEnd := by
  rcases spaces.separate with ⟨_, _, separate⟩
  rcases separate.wellFormedLeft.isFrame_of_table (root_mem 3 kpml4) with
    ⟨_, above, fits⟩
  omega

theorem inRange_directMap_of_lt_last {last va : BitVec 64}
    (lastLow : last.toNat + 4096 ≤ memoryEnd)
    (low : kernbase.toNat ≤ va.toNat) (high : va.toNat < last.toNat) :
    InRange kernbase maxPhysMem va := by
  have base : kernbase.toNat = 0xFFFFFFFF80000000 := by decide
  have size : maxPhysMem.toNat = 0x1000000 := by decide
  rw [memoryEnd_eq] at lastLow
  exact ⟨low, by omega⟩

/-- After the copy both address spaces are the same. -/
theorem spaces_of_copied {last : Addr} {heap heap' : Heap}
    {free rest : List Addr} {allocated : Set Addr} {new : List Addr}
    {kpml4 upml4 : Addr} (wellFormed : WellFormed last heap free allocated kpml4)
    (plain : Plain heap.mem kpml4)
    (leaves : ∀ va, Canonical va → leaf heap.mem kpml4 va = kernelLeaf va)
    (copied : Copied last heap heap' free rest allocated new 4 kpml4 upml4) :
    Spaces last heap' kpml4 upml4 fun _ => False := by
  rcases copied.separate wellFormed with ⟨separate, sameKernel⟩
  constructor
  · exact ⟨rest, _, separate⟩
  · intro va
    rw [sameKernel]
    exact plain va
  · intro va
    rw [copied.same]
    exact plain va
  · intro va canonical
    rw [leaf, sameKernel]
    exact leaves va canonical
  · exact fun _ _ impossible => impossible.elim
  · intro va canonical _
    rw [leaf, copied.same]
    exact leaves va canonical
  · exact fun _ impossible => impossible.elim

theorem uvminit_spec {layout : Layout} (valid : Valid layout) {heap : Heap}
    {free : List Addr} {allocated : Set Addr} {kpml4 : Addr}
    (wellFormed : WellFormed layout.last heap free allocated kpml4)
    (plain : Plain heap.mem kpml4)
    (leaves : ∀ va, Canonical va → leaf heap.mem kpml4 va = kernelLeaf va)
    (enough : (tables heap.mem 4 kpml4).length ≤ free.length) :
    ∃ upml4 heap', uvminit kpml4 layout.ubegin layout.uend heap =
        .ok (upml4, heap') ∧
      Spaces layout.last heap' kpml4 upml4 (UserSection layout) := by
  rcases ptDeepcopyLevel_copies layout.last 3 (by decide)
      wellFormed.invariant wellFormed.tree enough with
    ⟨upml4, copy, new, rest, success, copied⟩
  have spaces := spaces_of_copied wellFormed plain leaves copied
  have nonzero : kpml4 ≠ 0 := wellFormed.invariant.ne_zero_of_isFrame
    (wellFormed.isFrame_of_table (root_mem 3 kpml4))
  have size : (layout.uend - layout.ubegin).toNat =
      layout.uend.toNat - layout.ubegin.toNat := by
    have ordered := valid.userOrdered
    bv_omega
  have base : kernbase.toNat = 0xFFFFFFFF80000000 := by decide
  have low := valid.ubeginLow
  have ordered := valid.userOrdered
  have placed := valid.userPlaced
  have range := layout.uend.isLt
  have upper : UpperRange layout.ubegin (layout.uend - layout.ubegin) := by
    have beginAligned := valid.ubeginAligned
    have endAligned := valid.uendAligned
    refine ⟨(aligned_pgSz4K_iff _).mpr beginAligned,
      (aligned_pgSz4K_iff _).mpr ?_, by omega, by omega⟩
    rw [size]
    omega
  have section_iff : ∀ va,
      InRange layout.ubegin (layout.uend - layout.ubegin) va ↔
        UserSection layout va := by
    intro va
    rw [InRange, UserSection, size]
    omega
  rcases spaces.pagingMap upper (by
      intro va inRange
      rw [section_iff] at inRange
      rcases inRange with ⟨above, below⟩
      exact inRange_directMap_of_lt_last spaces.last_le (by omega)
        (by omega)) with
    ⟨heap', mapped, opened, _⟩
  refine ⟨upml4, heap', ?_, opened.of_iff fun va => ?_⟩
  · rw [uvminit, assert_of_holds _ _ nonzero, ok_bind, ptRootDeepcopy,
      success, ok_bind]
    dsimp only
    rw [mapped, ok_bind]
    rfl
  · rw [section_iff, false_or]

theorem initPaging_spec {layout : Layout} (valid : Valid layout)
    {kernel : KernelState} {allocated : Set Addr}
    (reachable : Reachable layout.last kernel.image.heap allocated)
    (enough : 56 ≤ kernel.image.heap.nfreepages.toNat) :
    ∃ booted, initPaging layout kernel = .ok booted ∧
      booted.nproc = kernel.nproc ∧
      KernelSpaces layout booted (UserSection layout) := by
  rcases reachable.invariant with ⟨free, invariant⟩
  have count : 56 ≤ free.length := by
    rw [invariant.count, BitVec.toNat_ofNat] at enough
    exact enough.trans (Nat.mod_le _ _)
  have inMemory : kernbase ≤ layout.last := by
    rcases valid.procsPlaced with ⟨low, fits⟩
    have range := layout.last.isLt
    bv_omega
  rcases paginginitBsp_spec inMemory invariant count with
    ⟨kpml4, heap, rest, allocated', built, wellFormed, plain, leaves, room⟩
  rcases uvminit_spec valid wellFormed plain leaves room with
    ⟨upml4, heap', copied, spaces⟩
  refine ⟨{ kernel with
    image := { kernel.image with
      heap := heap', kpml4, upml4, cr3 := v2p kpml4 } }, ?_, rfl, spaces⟩
  rw [initPaging, built, ok_bind]
  dsimp only
  rw [copied, ok_bind]
  rfl

/-! ## Processes -/

/-- A call that creates a process. -/
inductive Call where
  | spawn (desc : NewProcDesc)
  | spawnuser (desc : NewProcDesc)

def Call.desc : Call → NewProcDesc
  | .spawn desc => desc
  | .spawnuser desc => desc

/-- The statements of the call while `nproc` is `p`. -/
def Call.code (layout : Layout) : Call → Nat → List Stmt
  | .spawn desc, p => Process.spawn layout desc p
  | .spawnuser desc, p => Process.spawnuser layout desc p

/-- A sequence of calls. -/
def spawnAll (layout : Layout) (calls : List Call) (kernel : KernelState) :
    Except Halt KernelState :=
  calls.foldlM
    (fun kernel call => execAll kernel (call.code layout kernel.nproc)) kernel

section Steps

variable {layout : Layout} (valid : Valid layout) {p : Nat}
variable (bound : p < maxProc) {address : Addr}
include valid bound

/-- The table entries and the stacks lie below the frames. -/
theorem not_within_ctx (above : layout.last.toNat ≤ address.toNat) :
    ¬ Within (ctxAddr layout p) 72 address := fun inside =>
  absurd (valid.procsPlaced.below_last
    (within_procs_of_ctx layout bound inside)) (by omega)

theorem not_within_name (above : layout.last.toNat ≤ address.toNat) :
    ¬ Within (nameAddr layout p) 16 address := fun inside =>
  absurd (valid.procsPlaced.below_last
    (within_procs_of_name layout bound inside)) (by omega)

theorem not_within_kstack (above : layout.last.toNat ≤ address.toNat) :
    ¬ Within (kstackAddr layout p) 4096 address := fun inside =>
  absurd (valid.kstacksPlaced.below_last
    (within_kstacks_of_kstack layout bound inside)) (by omega)

theorem not_within_ustack (above : layout.last.toNat ≤ address.toNat) :
    ¬ Within (ustackAddr layout p) 4096 address := fun inside =>
  absurd (valid.ustacksPlaced.below_last
    (within_ustacks_of_ustack layout bound inside)) (by omega)

/-- A user stack is a page of the direct map. -/
theorem upper_ustack : UpperRange (ustackAddr layout p) ustackSz := by
  have small : p < 8 := bound
  have base : kernbase.toNat = 0xFFFFFFFF80000000 := by decide
  have size : ustackSz.toNat = 4096 := by decide
  have isAligned := valid.ustacksAligned
  rcases valid.ustacksPlaced with ⟨low, fits⟩
  have range := layout.last.isLt
  have number : (ustackAddr layout p).toNat =
      layout.ustacks.toNat + 4096 * p := by
    rw [ustackAddr, BitVec.toNat_add, BitVec.toNat_ofNat]
    omega
  refine ⟨(aligned_pgSz4K_iff _).mpr ?_, by decide, by omega, by omega⟩
  omega

theorem inRange_ustack_iff (va : BitVec 64) :
    InRange (ustackAddr layout p) ustackSz va ↔
      Within (ustackAddr layout p) 4096 va := by
  have size : ustackSz.toNat = 4096 := by decide
  have high := (upper_ustack valid bound).high
  rw [InRange, Within, size]
  bv_omega

theorem inRange_directMap_of_ustack (lastLow :
      layout.last.toNat + 4096 ≤ memoryEnd) {va : BitVec 64}
    (inside : Within (ustackAddr layout p) 4096 va) :
    InRange kernbase maxPhysMem va := by
  have inArray := within_ustacks_of_ustack layout bound inside
  have low := valid.ustacksPlaced.1
  have high := valid.ustacksPlaced.below_last inArray
  have fits := valid.ustacksPlaced.2
  have range := layout.last.isLt
  apply inRange_directMap_of_lt_last lastLow _ high
  simp only [Within] at inArray
  bv_omega

end Steps

/-- The user addresses that a call opens. -/
def Call.opens (layout : Layout) (p : Nat) (va : BitVec 64) : Call → Prop
  | .spawn _ => False
  | .spawnuser _ => Within (ustackAddr layout p) 4096 va

/-- `spawnuser` gets its stack mapped, and the mapping leaves the image alone. -/
theorem ustack_mapped {layout : Layout} (valid : Valid layout)
    {kernel : KernelState} {user : BitVec 64 → Prop}
    (spaces : KernelSpaces layout kernel user)
    (bound : kernel.nproc < maxProc) (desc : NewProcDesc) :
    ∃ heap, pagingMap kernel.image.upml4 (ustackAddr layout kernel.nproc)
        (v2p (ustackAddr layout kernel.nproc)) ustackSz (pfU ||| pfW)
        { kernel.image.heap with
          mem := spawnuserEntryMem layout desc kernel.nproc kernel.mem } =
          .ok heap ∧
      Spaces layout.last heap kernel.image.kpml4 kernel.image.upml4
        (fun va => user va ∨
          Within (ustackAddr layout kernel.nproc) 4096 va) ∧
      ∀ address, address.toNat < layout.last.toNat →
        heap.mem address =
          spawnuserEntryMem layout desc kernel.nproc kernel.mem address := by
  have entered := Spaces.congr spaces
    fun address above =>
      spawnuserEntryMem_outside bound desc kernel.mem valid
        (not_within_ctx valid bound above)
        (not_within_name valid bound above)
        (not_within_kstack valid bound above)
  have inside := inRange_ustack_iff valid bound
  rcases entered.pagingMap (upper_ustack valid bound) (fun va inRange =>
      inRange_directMap_of_ustack valid bound entered.last_le
        ((inside va).mp inRange)) with
    ⟨heap, mapped, opened, below⟩
  exact ⟨heap, mapped, opened.of_iff fun va => or_congr_right (inside va),
    below⟩

theorem spaces_call {layout : Layout} (valid : Valid layout)
    {kernel : KernelState} {user : BitVec 64 → Prop} {call : Call}
    (spaces : KernelSpaces layout kernel user)
    (bound : kernel.nproc < maxProc) (prioValid : PrioValid call.desc) :
    ∃ kernel', execAll kernel (call.code layout kernel.nproc) = .ok kernel' ∧
      kernel'.nproc = kernel.nproc + 1 ∧
      KernelSpaces layout kernel' fun va =>
        user va ∨ call.opens layout kernel.nproc va := by
  cases call with
  | spawn desc =>
      refine ⟨_, spawn_eq layout prioValid kernel, rfl, ?_⟩
      have unchanged : ∀ address, layout.last.toNat ≤ address.toNat →
          spawnMem layout desc kernel.nproc kernel.mem address =
            kernel.mem address := fun address above =>
        spawnMem_outside valid bound desc kernel.mem
          (not_within_ctx valid bound above)
          (not_within_name valid bound above)
          (not_within_kstack valid bound above)
      exact (Spaces.congr spaces unchanged).of_iff fun va =>
        (or_iff_left not_false).symm
  | spawnuser desc =>
      rcases ustack_mapped valid spaces bound desc with
        ⟨heap, mapped, opened, _⟩
      refine ⟨_, spawnuser_eq layout prioValid bound mapped, rfl, ?_⟩
      exact opened.congr fun address above =>
        spawnuserFrameMem_outside desc heap.mem
          (not_within_kstack valid bound above)
          (not_within_ustack valid bound above)

/-- The stacks that a sequence of calls opens, when the first process that it
creates has the number `first`. -/
def UserStack (layout : Layout) (first : Nat) (calls : List Call)
    (va : BitVec 64) : Prop :=
  ∃ i desc, calls[i]? = some (.spawnuser desc) ∧
    Within (ustackAddr layout (first + i)) 4096 va

theorem userStack_cons (layout : Layout) (first : Nat) (call : Call)
    (calls : List Call) (va : BitVec 64) :
    UserStack layout first (call :: calls) va ↔
      call.opens layout first va ∨ UserStack layout (first + 1) calls va := by
  have later : ∀ i, first + (i + 1) = first + 1 + i := by omega
  constructor
  · rintro ⟨i, desc, created, inside⟩
    cases i with
    | zero =>
        rcases Option.some.inj created with rfl
        exact Or.inl inside
    | succ i =>
        rw [later] at inside
        exact Or.inr ⟨i, desc, created, inside⟩
  · rintro (opened | ⟨i, desc, created, inside⟩)
    · cases call with
      | spawn desc => exact opened.elim
      | spawnuser desc => exact ⟨0, desc, rfl, opened⟩
    · rw [← later] at inside
      exact ⟨i + 1, desc, created, inside⟩

theorem spaces_spawnAll {layout : Layout} (valid : Valid layout)
    {kernel : KernelState} {user : BitVec 64 → Prop} (calls : List Call)
    (spaces : KernelSpaces layout kernel user)
    (bound : kernel.nproc + calls.length ≤ maxProc)
    (prioValid : ∀ call ∈ calls, PrioValid call.desc) :
    ∃ kernel', spawnAll layout calls kernel = .ok kernel' ∧
      KernelSpaces layout kernel' fun va =>
        user va ∨ UserStack layout kernel.nproc calls va := by
  induction calls generalizing kernel user with
  | nil =>
      refine ⟨kernel, rfl, spaces.of_iff fun va => ?_⟩
      refine (or_iff_left ?_).symm
      rintro ⟨i, desc, created, _⟩
      cases created
  | cons call calls induction =>
      rw [List.length_cons] at bound
      rcases spaces_call valid spaces (by omega)
          (prioValid call List.mem_cons_self) with
        ⟨middle, first, count, opened⟩
      rcases induction opened (by omega) (fun call member =>
          prioValid call (List.mem_cons_of_mem _ member)) with
        ⟨kernel', rest, spaces'⟩
      refine ⟨kernel', ?_, spaces'.of_iff fun va => ?_⟩
      · rw [spawnAll, List.foldlM_cons, first, ok_bind]
        exact rest
      · rw [userStack_cons, count, or_assoc]

/-! ## Translation -/

/-- User mode can reach the address: the user bit is set on every level. -/
def UserAccessible (mem : Memory) (pml4 : Addr) (va : BitVec 64) : Prop :=
  ∃ translation, translate mem 4 pml4 va = some translation ∧
    ∀ flag ∈ translation.flags, flag &&& pfU ≠ 0

/-- The entries of a range of whole pages give the addresses behind it. -/
theorem frameOf_rangeEnt {va pa sz flags address : BitVec 64}
    (inRange : InRange va sz address) (vaAligned : va.toNat % 4096 = 0)
    (paAligned : pa.toNat % 4096 = 0) (small : flags.toNat < 2048)
    (fits : pa.toNat + sz.toNat ≤ 2 ^ 52) :
    frameOf (rangeEnt va pa flags address) 12 + address.toNat % 4096 =
        pa.toNat + (address.toNat - va.toNat) ∧
      peFlags (rangeEnt va pa flags address) = flags ||| pfP := by
  rcases inRange with ⟨low, high⟩
  have range := address.isLt
  have number : (pa + peAddr address - va).toNat =
      pa.toNat + (address.toNat / 4096 * 4096 - va.toNat) := by
    have page := toNat_peAddr address
    bv_omega
  have isAligned : (pa + peAddr address - va).toNat % 4096 = 0 := by
    omega
  have smallFlags : (flags ||| pfP).toNat < 4096 := by
    rw [BitVec.toNat_or]
    exact Nat.or_lt_two_pow (n := 12) (by omega) (by decide)
  rw [rangeEnt, BitVec.or_assoc]
  constructor
  · rw [frameOf, toNat_or_flags isAligned smallFlags]
    omega
  · exact peFlags_or_flags isAligned smallFlags

theorem translate_of_plain {last : Addr} {heap : Heap} {free : List Addr}
    {allocated : Set Addr} {pml4 : Addr}
    (wellFormed : WellFormed last heap free allocated pml4)
    (plain : Plain heap.mem pml4) (va : BitVec 64) :
    translate heap.mem 4 pml4 va =
      (leaf heap.mem pml4 va).map fun ent =>
        { target := frameOf ent 12 + va.toNat % 4096
          flags := [tableFlags, tableFlags, tableFlags, peFlags ent] } := by
  rw [wellFormed.translate_eq, resolve_of_plain plain]
  cases leaf heap.mem pml4 va <;> rfl

theorem inRange_iff_exists_offset {va sz : BitVec 64}
    (fits : va.toNat + sz.toNat ≤ 2 ^ 64) (address : BitVec 64) :
    InRange va sz address ↔
      ∃ x < sz.toNat, address = va + BitVec.ofNat 64 x := by
  constructor
  · rintro ⟨low, high⟩
    refine ⟨address.toNat - va.toNat, by omega, ?_⟩
    bv_omega
  · rintro ⟨x, small, rfl⟩
    have number : (va + BitVec.ofNat 64 x).toNat = va.toNat + x := by
      rw [BitVec.toNat_add, BitVec.toNat_ofNat]
      omega
    rw [InRange, number]
    omega

/-- The entries of the direct map, closed or open to users. -/
theorem frameOf_directMap {flags va : BitVec 64} (small : flags.toNat < 2048)
    (inDirectMap : InRange kernbase maxPhysMem va) :
    frameOf (rangeEnt kernbase 0 flags va) 12 + va.toNat % 4096 =
        va.toNat - kernbase.toNat ∧
      peFlags (rangeEnt kernbase 0 flags va) = flags ||| pfP := by
  have zero : (0 : BitVec 64).toNat = 0 := rfl
  have entry := @frameOf_rangeEnt _ 0 _ flags _ inDirectMap (by decide)
    (by decide) small (by decide)
  rwa [zero, Nat.zero_add] at entry

/-- The translation of an address of the direct map. -/
def directTranslation (x : Nat) : Translation :=
  { target := x
    flags := [tableFlags, tableFlags, tableFlags, pfW ||| pfP] }

/-- The translation of an address of the device window. -/
def deviceTranslation (x : Nat) : Translation :=
  { target := 0xFE000000 + x
    flags := [tableFlags, tableFlags, tableFlags, pfPWT ||| pfPCD ||| pfP] }

/-- The translation of an address of the direct map that is open to users. -/
def userTranslation (x : Nat) : Translation :=
  { target := x
    flags := [tableFlags, tableFlags, tableFlags, pfW ||| pfU ||| pfP] }

theorem not_inRange_devices {va : BitVec 64}
    (inDirectMap : InRange kernbase maxPhysMem va) :
    ¬ InRange devbase (16 * pgSz2M) va := by
  have base : kernbase.toNat = 0xFFFFFFFF80000000 := by decide
  have devices : devbase.toNat + (16 * pgSz2M).toNat ≤
      0xFFFFFFFF42000000 := by
    decide
  rintro ⟨_, high⟩
  have low := inDirectMap.1
  omega

section Translations

variable {last : Addr} {heap : Heap} {kpml4 upml4 : Addr}
variable {user : BitVec 64 → Prop} {va : BitVec 64}
variable (spaces : Spaces last heap kpml4 upml4 user)
include spaces

theorem Spaces.translate_kernel (canonical : Canonical va) :
    translate heap.mem 4 kpml4 va =
      if InRange devbase (16 * pgSz2M) va then
        some (deviceTranslation (va.toNat - devbase.toNat))
      else if InRange kernbase maxPhysMem va then
        some (directTranslation (va.toNat - kernbase.toNat))
      else none := by
  rcases spaces.separate with ⟨_, _, separate⟩
  rw [translate_of_plain separate.wellFormedLeft spaces.kernelPlain,
    spaces.kernelClosed va canonical, kernelLeaf]
  split
  · rename_i inDevices
    rcases @frameOf_rangeEnt _ 0xFE000000 _ (pfPWT ||| pfPCD) _ inDevices
        (by decide) (by decide) (by decide) (by decide) with
      ⟨target, flags⟩
    rw [Option.map_some, target, flags]
    rfl
  split
  · rename_i inDirectMap
    rcases @frameOf_directMap pfW _ (by decide) inDirectMap with
      ⟨target, flags⟩
    rw [Option.map_some, target, flags]
    rfl
  · rfl

theorem Spaces.translate_userOpen (isOpen : user va) :
    translate heap.mem 4 upml4 va =
      some (userTranslation (va.toNat - kernbase.toNat)) := by
  have inDirectMap := spaces.inDirectMap va isOpen
  have canonical := canonical_of_kernbase_le inDirectMap.1
  rcases spaces.separate with ⟨_, _, separate⟩
  rcases @frameOf_directMap (pfW ||| pfU) _ (by decide) inDirectMap with
    ⟨target, flags⟩
  rw [translate_of_plain separate.wellFormedRight spaces.userPlain,
    spaces.userOpen va canonical isOpen, Option.map_some, target, flags]
  rfl

theorem Spaces.translate_userClosed (canonical : Canonical va)
    (isClosed : ¬ user va) :
    translate heap.mem 4 upml4 va = translate heap.mem 4 kpml4 va := by
  rcases spaces.separate with ⟨_, _, separate⟩
  rw [translate_of_plain separate.wellFormedRight spaces.userPlain,
    translate_of_plain separate.wellFormedLeft spaces.kernelPlain,
    spaces.userClosed va canonical isClosed,
    spaces.kernelClosed va canonical]

/-- Both address spaces lead to the same places. -/
theorem Spaces.same_target (canonical : Canonical va) :
    (translate heap.mem 4 upml4 va).map Translation.target =
      (translate heap.mem 4 kpml4 va).map Translation.target := by
  by_cases isOpen : user va
  · have inDirectMap := spaces.inDirectMap va isOpen
    have own := spaces.translate_kernel canonical
    rw [if_neg (not_inRange_devices inDirectMap), if_pos inDirectMap] at own
    rw [spaces.translate_userOpen isOpen, own]
    rfl
  · rw [spaces.translate_userClosed canonical isOpen]

/-- User mode reaches nothing through the kernel's tables. -/
theorem Spaces.not_userAccessible (canonical : Canonical va) :
    ¬ UserAccessible heap.mem kpml4 va := by
  rintro ⟨translation, found, user⟩
  rw [spaces.translate_kernel canonical] at found
  split at found
  · rcases Option.some.inj found with rfl
    exact user (pfPWT ||| pfPCD ||| pfP) (by simp [deviceTranslation])
      (by decide)
  split at found
  · rcases Option.some.inj found with rfl
    exact user (pfW ||| pfP) (by simp [directTranslation]) (by decide)
  · cases found

end Translations

/-! ## Isolation -/

/--
What the two root tables translate, after the given calls: the kernel's maps
the direct map and the devices and is closed to user mode; the users' maps the
same addresses to the same places and is open on the user section and the
stacks of the user processes.
-/
structure Isolated (layout : Layout) (first : Nat) (calls : List Call)
    (kernel : KernelState) : Prop where
  kernelTranslates : ∀ va, Canonical va → ∀ translation,
    translate kernel.mem 4 kernel.image.kpml4 va = some translation ↔
      (∃ x < maxPhysMem.toNat, va = kernbase + BitVec.ofNat 64 x ∧
        translation = directTranslation x) ∨
      ∃ x < (16 * pgSz2M).toNat, va = devbase + BitVec.ofNat 64 x ∧
        translation = deviceTranslation x
  kernelClosed : ∀ va, Canonical va →
    ¬ UserAccessible kernel.mem kernel.image.kpml4 va
  sameTarget : ∀ va, Canonical va →
    (translate kernel.mem 4 kernel.image.upml4 va).map Translation.target =
      (translate kernel.mem 4 kernel.image.kpml4 va).map Translation.target
  userOpen : ∀ va, Canonical va →
    (UserAccessible kernel.mem kernel.image.upml4 va ↔
      UserSection layout va ∨ UserStack layout first calls va)

theorem Spaces.kernel_translates {last : Addr} {heap : Heap}
    {kpml4 upml4 : Addr} {user : BitVec 64 → Prop}
    (spaces : Spaces last heap kpml4 upml4 user) {va : BitVec 64}
    (canonical : Canonical va) (translation : Translation) :
    translate heap.mem 4 kpml4 va = some translation ↔
      (∃ x < maxPhysMem.toNat, va = kernbase + BitVec.ofNat 64 x ∧
        translation = directTranslation x) ∨
      ∃ x < (16 * pgSz2M).toNat, va = devbase + BitVec.ofNat 64 x ∧
        translation = deviceTranslation x := by
  have offset : ∀ {base sz : BitVec 64}, base.toNat + sz.toNat ≤ 2 ^ 64 →
      ∀ x < sz.toNat, (base + BitVec.ofNat 64 x).toNat - base.toNat = x := by
    intro base sz fits x small
    rw [BitVec.toNat_add, BitVec.toNat_ofNat]
    omega
  have direct := inRange_iff_exists_offset upper_directMap.high
  have devices := inRange_iff_exists_offset upper_devices.high
  rw [spaces.translate_kernel canonical]
  constructor
  · intro found
    split at found
    · rename_i inDevices
      rcases (devices va).mp inDevices with ⟨x, small, rfl⟩
      rw [offset upper_devices.high x small] at found
      exact Or.inr ⟨x, small, rfl, (Option.some.inj found).symm⟩
    split at found
    · rename_i inDirectMap
      rcases (direct va).mp inDirectMap with ⟨x, small, rfl⟩
      rw [offset upper_directMap.high x small] at found
      exact Or.inl ⟨x, small, rfl, (Option.some.inj found).symm⟩
    · cases found
  · rintro (⟨x, small, rfl, rfl⟩ | ⟨x, small, rfl, rfl⟩)
    · have inDirectMap := (direct _).mpr ⟨x, small, rfl⟩
      rw [if_neg (not_inRange_devices inDirectMap), if_pos inDirectMap,
        offset upper_directMap.high x small]
    · rw [if_pos ((devices _).mpr ⟨x, small, rfl⟩),
        offset upper_devices.high x small]

theorem KernelSpaces.isolated {layout : Layout} {kernel : KernelState}
    {first : Nat} {calls : List Call}
    (spaces : KernelSpaces layout kernel fun va =>
      UserSection layout va ∨ UserStack layout first calls va) :
    Isolated layout first calls kernel where
  kernelTranslates := fun _ canonical translation =>
    Spaces.kernel_translates spaces canonical translation
  kernelClosed := fun _ canonical =>
    Spaces.not_userAccessible spaces canonical
  sameTarget := fun _ canonical => Spaces.same_target spaces canonical
  userOpen := by
    intro va canonical
    constructor
    · rintro ⟨translation, found, user⟩
      by_contra isClosed
      have same := Spaces.translate_userClosed spaces canonical isClosed
      apply Spaces.not_userAccessible spaces canonical
      exact ⟨translation, same.symm.trans found, user⟩
    · intro isOpen
      refine ⟨_, Spaces.translate_userOpen spaces isOpen, ?_⟩
      intro flag member
      simp only [userTranslation, List.mem_cons, List.not_mem_nil,
        or_false] at member
      rcases member with rfl | rfl | rfl | rfl <;> decide

/--
With 56 free frames the two address spaces can be built, and whatever processes
are created afterwards, the kernel's tables translate exactly the direct map
and the device window and nothing in them is open to user mode, while the
users' tables translate the same addresses and are open exactly on the user
section and the stacks of the processes made by `spawnuser`.
-/
theorem address_spaces_isolated {layout : Layout} {kernel : KernelState}
    {allocated : Set Addr} (valid : Valid layout)
    (reachable : Reachable layout.last kernel.image.heap allocated)
    (enough : 56 ≤ kernel.image.heap.nfreepages.toNat) :
    ∃ booted, initPaging layout kernel = .ok booted ∧
      ∀ calls : List Call, kernel.nproc + calls.length ≤ maxProc →
        (∀ call ∈ calls, PrioValid call.desc) →
        ∃ kernel', spawnAll layout calls booted = .ok kernel' ∧
          Isolated layout kernel.nproc calls kernel' := by
  rcases initPaging_spec valid reachable enough with
    ⟨booted, boot, count, spaces⟩
  refine ⟨booted, boot, ?_⟩
  intro calls bound prioValid
  rw [← count] at bound ⊢
  rcases spaces_spawnAll valid calls spaces bound prioValid with
    ⟨kernel', run, opened⟩
  exact ⟨kernel', run, KernelSpaces.isolated opened⟩

/-- A kernel thread and a user process: the page of the second is open, that of
the first is not. -/
theorem address_spaces_isolated_two_processes :
    ∃ kernel booted kernel', initPaging sampleLayout kernel = .ok booted ∧
      spawnAll sampleLayout [.spawn sampleDesc, .spawnuser sampleDesc]
        booted = .ok kernel' ∧
      UserAccessible kernel'.mem kernel'.image.upml4 0xFFFFFFFF8010C123 ∧
      ¬ UserAccessible kernel'.mem kernel'.image.upml4
        0xFFFFFFFF8010B123 := by
  rcases kallocinit_returns sampleLayout.last (fun _ => 0) (by decide) with
    ⟨heap, initialised⟩
  rcases kallocinit_spec initialised with ⟨free, invariant, count⟩
  have enough : 56 ≤ heap.nfreepages.toNat := by
    rw [invariant.count, count]
    decide
  rcases @address_spaces_isolated sampleLayout
      { KernelState.zero heap with nproc := 1 } ∅ sampleLayout_valid
      (.init initialised) enough with
    ⟨booted, boot, isolates⟩
  have isolatesTwo : ∃ kernel', spawnAll sampleLayout
      [.spawn sampleDesc, .spawnuser sampleDesc] booted = .ok kernel' ∧
        Isolated sampleLayout 1 [.spawn sampleDesc, .spawnuser sampleDesc]
          kernel' := by
    apply isolates
    · exact show 1 + 2 ≤ maxProc by decide
    · intro call member
      rcases List.mem_cons.mp member with rfl | member
      · exact ⟨by decide, by decide⟩
      · rcases List.mem_singleton.mp member with rfl
        exact ⟨by decide, by decide⟩
  rcases isolatesTwo with ⟨kernel', run, isolated⟩
  refine ⟨_, booted, kernel', boot, run, ?_, ?_⟩
  · rw [isolated.userOpen _ (Or.inr (by decide))]
    exact Or.inr ⟨1, sampleDesc, rfl, by decide⟩
  · rw [isolated.userOpen _ (Or.inr (by decide))]
    rintro (inSection | ⟨i, desc, created, inside⟩)
    · exact absurd inSection.1 (by decide)
    · rcases i with _ | _ | i
      · cases created
      · exact absurd inside (by decide)
      · cases created

end Rt64.Kernel.Isolation
