import Rt64.Kernel.PagingMap

/-!
# Mapping a range

`paging_map` maps its range page by page.  The frames it needs are the tables
missing on the paths of the pages, each counted once.  With that many free
frames and no huge page in the way it returns, and `paging_getpteref` then finds
the new entries in the range and the old ones outside it.

The sizes are 64-bit numbers while a table walk sees 48 bits, so a range could
in principle cover a page twice.  It would need more tables than the 16M of
memory can hold.
-/

namespace Rt64.Kernel.PagingRange

open Rt64.Lib.ByteMemory
open Rt64.Lib.RadixTree
open Rt64.Include.Defs
open Rt64.Kernel.Kalloc
open Rt64.Kernel.Paging
open Rt64.Kernel.PageTree
open Rt64.Kernel.PagingMap

/-! ## Pages of a range -/

/-- The address of the given page of a range that starts at `va`. -/
def pageAt (va : BitVec 64) (page : Nat) : BitVec 64 :=
  va + BitVec.ofNat 64 (4096 * page)

/-- The entry that maps the given page of a range. -/
def pageEnt (pa flags : BitVec 64) (page : Nat) : BitVec 64 :=
  pageAt pa page ||| flags ||| pfP

@[simp]
theorem pageAt_zero (va : BitVec 64) : pageAt va 0 = va := by
  simp [pageAt]

theorem pageAt_succ (va : BitVec 64) (page : Nat) :
    pageAt (va + pgSz4K) page = pageAt va (page + 1) := by
  simp only [pageAt]
  bv_omega

theorem pageEnt_succ (pa flags : BitVec 64) (page : Nat) :
    pageEnt (pa + pgSz4K) flags page = pageEnt pa flags (page + 1) := by
  rw [pageEnt, pageAt_succ, pageEnt]

theorem pageEnt_present (pa flags : BitVec 64) (page : Nat) :
    pageEnt pa flags page &&& pfP ≠ 0 := by
  intro zero
  have bit := congrArg (fun word => BitVec.getLsbD word 0) zero
  simp [pageEnt] at bit

theorem aligned_next {va : BitVec 64} (isAligned : aligned va pgSz4K) :
    aligned (va + pgSz4K) pgSz4K := by
  rw [aligned_pgSz4K_iff] at isAligned ⊢
  bv_omega

/-- Addresses with the same indices lie in the same page, as 48-bit numbers. -/
theorem samePage_iff (va va' : BitVec 64) :
    SamePage 4 va va' ↔
      va.toNat % 2 ^ 48 / 4096 = va'.toNat % 2 ^ 48 / 4096 := by
  constructor
  · intro same
    have index0 := same 0 (by decide)
    have index1 := same 1 (by decide)
    have index2 := same 2 (by decide)
    have index3 := same 3 (by decide)
    simp only [levelIdx_eq] at index0 index1 index2 index3
    -- the indices are the digits of the page number, joined from below
    have low : va.toNat / 4096 % 2 ^ 18 = va'.toNat / 4096 % 2 ^ 18 := by
      clear index2 index3
      omega
    have middle : va.toNat / 4096 % 2 ^ 27 = va'.toNat / 4096 % 2 ^ 27 := by
      clear index0 index1 index3
      omega
    clear index0 index1 index2 low
    omega
  · intro same lower below
    rw [levelIdx_eq, levelIdx_eq]
    interval_cases lower <;> omega

/-- Up to 2^36 consecutive pages have different indices. -/
theorem not_samePage_pageAt {va : BitVec 64} {first second : Nat}
    (isAligned : aligned va pgSz4K) (ordered : first < second)
    (near : second < 2 ^ 36) :
    ¬ SamePage 4 (pageAt va first) (pageAt va second) := by
  rw [aligned_pgSz4K_iff] at isAligned
  rw [samePage_iff, pageAt, pageAt]
  have range := va.isLt
  simp only [BitVec.toNat_add, BitVec.toNat_ofNat]
  omega

/-! ## Frames needed -/

/-- The tables missing on the paths of the pages of a range. -/
def missingTables (mem : Memory) (pml4 : Addr) (va : BitVec 64)
    (pages : Nat) : Finset (List Nat) :=
  (Finset.range pages).biUnion fun page =>
    (missing mem 4 pml4 (pageAt va page)).toFinset

theorem mem_missingTables {mem : Memory} {pml4 : Addr} {va : BitVec 64}
    {pages : Nat} {path : List Nat} :
    path ∈ missingTables mem pml4 va pages ↔
      ∃ page < pages, path ∈ missing mem 4 pml4 (pageAt va page) := by
  simp [missingTables]

theorem pathsBelow_nodup (level : Nat) (va : BitVec 64) :
    (pathsBelow level va).Nodup := by
  match level with
  | 0 => exact List.nodup_nil
  | 1 => exact List.nodup_nil
  | level + 2 =>
      rw [pathsBelow, List.nodup_cons]
      constructor
      · intro member
        rcases List.mem_map.mp member with ⟨tail, tailMember, single⟩
        have head := head_of_mem_pathsBelow tailMember
        rw [(List.cons.inj single).2] at head
        cases head
      · apply (pathsBelow_nodup (level + 1) va).map
        exact List.cons_injective

theorem missing_nodup (mem : Memory) (level : Nat) (pt : Addr)
    (va : BitVec 64) : (missing mem level pt va).Nodup := by
  induction level generalizing pt with
  | zero => exact List.nodup_nil
  | succ level induction =>
      cases level with
      | zero => exact List.nodup_nil
      | succ level =>
          unfold missing
          split
          · rename_i next _
            exact (induction next).map List.cons_injective
          · split
            · exact pathsBelow_nodup (level + 2) va
            · exact List.nodup_nil

/-- Any set with the missing tables bounds what a range needs. -/
theorem card_missingTables_le_of_missing {mem : Memory} {pml4 : Addr}
    {va : BitVec 64} {pages : Nat} (paths : Finset (List Nat))
    (cover : ∀ page < pages, ∀ path ∈ missing mem 4 pml4 (pageAt va page),
      path ∈ paths) :
    (missingTables mem pml4 va pages).card ≤ paths.card := by
  apply Finset.card_le_card
  intro path member
  rcases mem_missingTables.mp member with ⟨page, bound, isMissing⟩
  exact cover page bound path isMissing

/-- The tables on the paths of a range bound what it can need. -/
theorem card_missingTables_le (mem : Memory) (pml4 : Addr)
    {va : BitVec 64} {pages : Nat} (paths : Finset (List Nat))
    (cover : ∀ page < pages, ∀ path ∈ pathsBelow 4 (pageAt va page),
      path ∈ paths) :
    (missingTables mem pml4 va pages).card ≤ paths.card :=
  card_missingTables_le_of_missing paths fun page bound path isMissing =>
    cover page bound path (missing_subset_pathsBelow mem 4 pml4 _ isMissing)

/-- Mapping the first page supplies its tables to the rest of the range. -/
theorem card_missingTables_cons {last : Addr} {heap middle : Heap}
    {free rest : List Addr} {allocated : Set Addr} {new : List Addr}
    {pml4 : Addr} {va ent : BitVec 64} (pages : Nat)
    (first : Mapped last heap middle free rest allocated new 4 pml4 va ent) :
    new.length + (missingTables middle.mem pml4 (va + pgSz4K) pages).card ≤
      (missingTables heap.mem pml4 va (pages + 1)).card := by
  let firstMissing := (missing heap.mem 4 pml4 va).toFinset
  have apart : Disjoint firstMissing
      (missingTables middle.mem pml4 (va + pgSz4K) pages) := by
    rw [Finset.disjoint_left]
    intro path inFirst inRest
    rcases mem_missingTables.mp inRest with ⟨page, _, member⟩
    exact (first.supplied _ path member).2 (List.mem_toFinset.mp inFirst)
  have covered : firstMissing ∪
      missingTables middle.mem pml4 (va + pgSz4K) pages ⊆
        missingTables heap.mem pml4 va (pages + 1) := by
    intro path member
    rw [mem_missingTables]
    rcases Finset.mem_union.mp member with inFirst | inRest
    · refine ⟨0, Nat.succ_pos pages, ?_⟩
      rw [pageAt_zero]
      exact List.mem_toFinset.mp inFirst
    · rcases mem_missingTables.mp inRest with ⟨page, bound, member⟩
      refine ⟨page + 1, by omega, ?_⟩
      rw [← pageAt_succ]
      exact (first.supplied _ path member).1
  have count := Finset.card_le_card covered
  rw [Finset.card_union_of_disjoint apart,
    List.toFinset_card_of_nodup (missing_nodup _ _ _ _)] at count
  rw [first.taken]
  exact count

/-! ## The loop -/

theorem aligned_or {va pa : BitVec 64} (vaAligned : aligned va pgSz4K)
    (paAligned : aligned pa pgSz4K) : aligned (va ||| pa) pgSz4K := by
  unfold aligned at *
  rw [BitVec.and_comm, BitVec.and_or_distrib_left,
    BitVec.and_comm _ va, BitVec.and_comm _ pa, vaAligned, paAligned]
  rfl

theorem pagingMapLoop_done (pml4 : Addr) (va pa flags : BitVec 64)
    {sz : BitVec 64} (heap : Heap) (done : sz.toInt ≤ 0) :
    pagingMapLoop pml4 va pa sz flags heap = .ok heap := by
  rw [pagingMapLoop, dif_neg (by omega)]

theorem pagingMapLoop_page (pml4 : Addr) {va pa sz : BitVec 64}
    (flags : BitVec 64) (heap : Heap) {pages : Nat}
    (vaAligned : aligned va pgSz4K) (paAligned : aligned pa pgSz4K)
    (small : sz.toNat < 2 ^ 63) (whole : sz.toNat = 4096 * (pages + 1)) :
    pagingMapLoop pml4 va pa sz flags heap =
      (mapLevel va (pageEnt pa flags 0) 4 pml4 heap >>= fun heap =>
        pagingMapLoop pml4 (va + pgSz4K) (pa + pgSz4K) (sz - pgSz4K) flags
          heap) := by
  have value : sz.toInt = sz.toNat :=
    BitVec.toInt_eq_toNat_of_lt (by omega)
  rw [pagingMapLoop, dif_pos (by omega),
    dif_pos ⟨by omega, aligned_or vaAligned paAligned⟩,
    pagingMap4K_eq pml4 heap vaAligned paAligned, pageEnt, pageAt_zero]

/--
The step to `heap'` maps `pages` pages from `va` on.  Pages are mapped in
order, so the entries are certain only when no two pages have the same indices.
-/
structure MappedRange (last : Addr) (heap heap' : Heap)
    (free rest : List Addr) (allocated : Set Addr) (new : List Addr)
    (pml4 : Addr) (va pa flags : BitVec 64) (pages : Nat) : Prop where
  grown : Grown last heap heap' free rest allocated
    (tables heap.mem 4 pml4) new
  gains : (tables heap'.mem 4 pml4).Perm (tables heap.mem 4 pml4 ++ new)
  above : ∀ va', (resolve heap'.mem 4 pml4 va').1 =
    (resolve heap.mem 4 pml4 va').1
  inside : pages ≤ 2 ^ 36 → ∀ page < pages,
    (resolve heap'.mem 4 pml4 (pageAt va page)).2 =
      some (pageEnt pa flags page)
  outside : ∀ va', (∀ page < pages, ¬ SamePage 4 va' (pageAt va page)) →
    (resolve heap'.mem 4 pml4 va').2 = (resolve heap.mem 4 pml4 va').2
  taken : new.length ≤ (missingTables heap.mem pml4 va pages).card

section Loop

variable {last : Addr} {heap middle heap' : Heap}
variable {free rest rest' : List Addr} {allocated : Set Addr}
variable {new new' : List Addr} {pml4 : Addr} {va pa flags : BitVec 64}

theorem MappedRange.none (invariant : Invariant last heap free allocated)
    (tree : Tree heap.mem allocated 4 pml4) :
    MappedRange last heap heap free free allocated [] pml4 va pa flags 0 where
  grown := Grown.refl invariant tree.allocated
  gains := by simp
  above := fun _ => rfl
  inside := fun _ page impossible => absurd impossible (Nat.not_lt_zero page)
  outside := fun _ _ => rfl
  taken := Nat.zero_le _

/-- One page, then the rest of the range. -/
theorem MappedRange.cons {pages : Nat} (isAligned : aligned va pgSz4K)
    (first : Mapped last heap middle free rest allocated new 4 pml4 va
      (pageEnt pa flags 0))
    (later : MappedRange last middle heap' rest rest'
      (allocated ∪ {frame | frame ∈ new}) new' pml4 (va + pgSz4K)
      (pa + pgSz4K) flags pages) :
    MappedRange last heap heap' free rest' allocated (new ++ new') pml4 va pa
      flags (pages + 1) where
  grown := by
    apply first.grown.trans later.grown
    intro table member
    exact List.mem_append.mp (first.gains.mem_iff.mp member)
  gains := by
    rw [← List.append_assoc]
    exact later.gains.trans (first.gains.append_right new')
  above := fun va' => (later.above va').trans (first.sameAbove va')
  inside := by
    intro few page bound
    cases page with
    | zero =>
        rw [later.outside, pageAt_zero, first.mapped]
        intro page' bound'
        rw [pageAt_succ]
        exact not_samePage_pageAt isAligned (Nat.succ_pos page') (by omega)
    | succ page =>
        rw [← pageAt_succ, ← pageEnt_succ]
        exact later.inside (by omega) page (by omega)
  outside := by
    intro va' apart
    rw [later.outside, first.others]
    · have notFirst := apart 0 (Nat.succ_pos pages)
      rwa [pageAt_zero] at notFirst
    · intro page bound
      rw [pageAt_succ]
      exact apart (page + 1) (by omega)
  taken := by
    have count := card_missingTables_cons pages first
    have countLater := later.taken
    rw [List.length_append]
    omega

end Loop

theorem pagingMapLoop_spec {last : Addr} {pml4 : Addr} {flags : BitVec 64}
    (pages : Nat) {va pa sz : BitVec 64} {heap heap' : Heap}
    {free : List Addr} {allocated : Set Addr}
    (vaAligned : aligned va pgSz4K) (paAligned : aligned pa pgSz4K)
    (small : sz.toNat < 2 ^ 63) (whole : sz.toNat = 4096 * pages)
    (invariant : Invariant last heap free allocated)
    (tree : Tree heap.mem allocated 4 pml4)
    (success : pagingMapLoop pml4 va pa sz flags heap = .ok heap') :
    ∃ new rest, MappedRange last heap heap' free rest allocated new pml4 va
      pa flags pages := by
  induction pages generalizing va pa sz heap free allocated with
  | zero =>
      have value : sz.toInt = sz.toNat :=
        BitVec.toInt_eq_toNat_of_lt (by omega)
      rw [pagingMapLoop_done _ _ _ _ _ (by omega)] at success
      rcases Except.ok.inj success with rfl
      exact ⟨[], free, MappedRange.none invariant tree⟩
  | succ pages induction =>
      rw [pagingMapLoop_page pml4 flags heap vaAligned paAligned small whole,
        bind_eq_ok] at success
      rcases success with ⟨middle, mappedFirst, mappedRest⟩
      rcases mapLevel_spec (pageEnt_present pa flags 0) 3 invariant tree
          mappedFirst with
        ⟨new, rest, first⟩
      rcases induction (aligned_next vaAligned) (aligned_next paAligned)
          (by bv_omega) (by bv_omega) first.grown.invariant
          (first.grown.tree tree first.gains) mappedRest with
        ⟨new', rest', later⟩
      exact ⟨new ++ new', rest', MappedRange.cons vaAligned first later⟩

theorem pagingMapLoop_succeeds {last : Addr} {pml4 : Addr}
    {flags : BitVec 64} (pages : Nat) {va pa sz : BitVec 64} {heap : Heap}
    {free : List Addr} {allocated : Set Addr}
    (vaAligned : aligned va pgSz4K) (paAligned : aligned pa pgSz4K)
    (small : sz.toNat < 2 ^ 63) (whole : sz.toNat = 4096 * pages)
    (invariant : Invariant last heap free allocated)
    (tree : Tree heap.mem allocated 4 pml4)
    (notHuge : ∀ page < pages,
      ¬ HugeOnPath heap.mem 4 pml4 (pageAt va page))
    (enough : (missingTables heap.mem pml4 va pages).card ≤ free.length) :
    ∃ heap', pagingMapLoop pml4 va pa sz flags heap = .ok heap' := by
  induction pages generalizing va pa sz heap free allocated with
  | zero =>
      have value : sz.toInt = sz.toNat :=
        BitVec.toInt_eq_toNat_of_lt (by omega)
      exact ⟨heap, pagingMapLoop_done _ _ _ _ _ (by omega)⟩
  | succ pages induction =>
      have firstNotHuge := notHuge 0 (Nat.succ_pos pages)
      rw [pageAt_zero] at firstNotHuge
      have firstEnough :
          (missing heap.mem 4 pml4 va).length ≤ free.length := by
        rw [← List.toFinset_card_of_nodup (missing_nodup _ _ _ _)]
        refine le_trans (Finset.card_le_card ?_) enough
        intro path member
        refine mem_missingTables.mpr ⟨0, Nat.succ_pos pages, ?_⟩
        rw [pageAt_zero]
        exact List.mem_toFinset.mp member
      rcases mapLevel_succeeds 3 invariant tree firstNotHuge firstEnough with
        ⟨middle, mappedFirst⟩
      rcases mapLevel_spec (pageEnt_present pa flags 0) 3 invariant tree
          mappedFirst with
        ⟨new, rest, first⟩
      have count := card_missingTables_cons pages first
      have lengths := congrArg List.length first.grown.split
      rw [List.length_append] at lengths
      rw [pagingMapLoop_page pml4 flags heap vaAligned paAligned small whole,
        mappedFirst]
      apply induction (aligned_next vaAligned) (aligned_next paAligned)
        (by bv_omega) (by bv_omega) first.grown.invariant
        (first.grown.tree tree first.gains) _ (by omega)
      intro page bound
      rw [pageAt_succ, hugeOnPath_iff, first.sameAbove, ← hugeOnPath_iff]
      exact notHuge (page + 1) (by omega)

/-! ## Whole ranges -/

/-- The number of pages that the loop maps for `sz` bytes. -/
def pageCount (sz : BitVec 64) : Nat :=
  (sz.toInt / 4096).toNat

theorem toNat_of_nonneg {sz : BitVec 64} (nonneg : 0 ≤ sz.toInt) :
    sz.toNat < 2 ^ 63 ∧ sz.toInt = sz.toNat := by
  have value := BitVec.toInt_eq_toNat_cond sz
  split at value <;> omega

theorem toNat_eq_pageCount {sz : BitVec 64} (isAligned : aligned sz pgSz4K)
    (nonneg : 0 ≤ sz.toInt) : sz.toNat = 4096 * pageCount sz := by
  rw [aligned_pgSz4K_iff] at isAligned
  have value := (toNat_of_nonneg nonneg).2
  simp only [pageCount, value]
  omega

theorem pagingMap_spec {last : Addr} {pml4 : Addr}
    {va pa sz flags : BitVec 64} {heap heap' : Heap} {free : List Addr}
    {allocated : Set Addr} (invariant : Invariant last heap free allocated)
    (tree : Tree heap.mem allocated 4 pml4)
    (success : pagingMap pml4 va pa sz flags heap = .ok heap') :
    ∃ new rest, MappedRange last heap heap' free rest allocated new pml4 va
      pa flags (pageCount sz) := by
  rw [pagingMap, assert_bind_eq_ok, assert_bind_eq_ok,
    assert_bind_eq_ok] at success
  rcases success with ⟨vaAligned, paAligned, szAligned, loop⟩
  by_cases nonneg : 0 ≤ sz.toInt
  · exact pagingMapLoop_spec (pageCount sz) vaAligned paAligned
      (toNat_of_nonneg nonneg).1 (toNat_eq_pageCount szAligned nonneg)
      invariant tree loop
  · have none : pageCount sz = 0 := by
      unfold pageCount
      omega
    rw [pagingMapLoop_done _ _ _ _ _ (by omega)] at loop
    rcases Except.ok.inj loop with rfl
    rw [none]
    exact ⟨[], free, MappedRange.none invariant tree⟩

theorem pagingMap_succeeds {last : Addr} {pml4 : Addr}
    {va pa sz : BitVec 64} (flags : BitVec 64) {heap : Heap}
    {free : List Addr} {allocated : Set Addr}
    (vaAligned : aligned va pgSz4K) (paAligned : aligned pa pgSz4K)
    (szAligned : aligned sz pgSz4K) (nonneg : 0 ≤ sz.toInt)
    (invariant : Invariant last heap free allocated)
    (tree : Tree heap.mem allocated 4 pml4)
    (notHuge : ∀ page < pageCount sz,
      ¬ HugeOnPath heap.mem 4 pml4 (pageAt va page))
    (enough : (missingTables heap.mem pml4 va (pageCount sz)).card ≤
      free.length) :
    ∃ heap', pagingMap pml4 va pa sz flags heap = .ok heap' := by
  rw [pagingMap, assert_of_holds _ _ vaAligned, assert_of_holds _ _ paAligned,
    assert_of_holds _ _ szAligned]
  exact pagingMapLoop_succeeds (pageCount sz) vaAligned paAligned
    (toNat_of_nonneg nonneg).1 (toNat_eq_pageCount szAligned nonneg)
    invariant tree notHuge enough

/-! ## Lookup -/

/-- One level of `paging_getpteref`. -/
theorem lookup_level {mem : Memory} {level : Nat} {pt : Addr}
    {va : BitVec 64} {below : Option Addr}
    (agrees : below.map (load64 mem) =
      (resolve mem (level + 1)
        (p2v (peAddr (getEnt mem pt (levelIdx (level + 2) va)))) va).2) :
    (if getEnt mem pt (levelIdx (level + 2) va) &&& pfP = 0 then none
      else if getEnt mem pt (levelIdx (level + 2) va) &&& pfPS ≠ 0 then
        some (entryAddr pt (levelIdx (level + 2) va))
      else below).map (load64 mem) = (resolve mem (level + 2) pt va).2 := by
  by_cases absent : getEnt mem pt (levelIdx (level + 2) va) &&& pfP = 0
  · rw [if_pos absent, resolve_of_absent absent]
    rfl
  · by_cases huge : getEnt mem pt (levelIdx (level + 2) va) &&& pfPS ≠ 0
    · have none : nextpt mem pt (levelIdx (level + 2) va) = none := by
        rw [nextpt, if_neg absent, if_pos huge]
      rw [if_neg absent, if_pos huge]
      simp only [resolve, none, if_neg absent, Option.map_some]
      rfl
    · have leads : nextpt mem pt (levelIdx (level + 2) va) =
          some (p2v (peAddr (getEnt mem pt (levelIdx (level + 2) va)))) := by
        rw [nextpt, if_neg absent, if_neg huge]
      rw [if_neg absent, if_neg huge, agrees, resolve_of_next leads]

/-- `paging_getpteref` refers to the entry at the end of the path. -/
theorem pagingGetpteref_eq (mem : Memory) (pml4 : Addr) (va : BitVec 64) :
    (pagingGetpteref mem pml4 va).map (load64 mem) =
      (resolve mem 4 pml4 va).2 := by
  have index4 : pml4Idx va = levelIdx 4 va := rfl
  have index3 : pdptIdx va = levelIdx 3 va := rfl
  have index2 : pdIdx va = levelIdx 2 va := rfl
  have index1 : ptIdx va = levelIdx 1 va := rfl
  have entry : ∀ pt idx, load64 mem (entryAddr pt idx) = getEnt mem pt idx :=
    fun _ _ => rfl
  simp only [pagingGetpteref, index4, index3, index2, index1, entry]
  apply @lookup_level mem 2
  apply @lookup_level mem 1
  apply @lookup_level mem 0
  simp only [resolve]
  split
  · rfl
  · rw [Option.map_some, entry]

/-! ## Long ranges -/

/-- The last table on the path of `va`, if all tables there exist. -/
def leafTable (mem : Memory) : Nat → Addr → BitVec 64 → Option Addr
  | 0, _, _ => none
  | 1, pt, _ => some pt
  | level + 2, pt, va =>
      match nextpt mem pt (levelIdx (level + 2) va) with
      | some next => leafTable mem (level + 1) next va
      | none => none

/-- The path of that table. -/
def leafPath : Nat → BitVec 64 → List Nat
  | 0, _ => []
  | 1, _ => []
  | level + 2, va => levelIdx (level + 2) va :: leafPath (level + 1) va

theorem exists_next_of_leafTable {mem : Memory} {level : Nat}
    {pt table : Addr} {va : BitVec 64}
    (found : leafTable mem (level + 2) pt va = some table) :
    ∃ next, nextpt mem pt (levelIdx (level + 2) va) = some next ∧
      leafTable mem (level + 1) next va = some table := by
  unfold leafTable at found
  split at found
  · rename_i next present
    exact ⟨next, present, found⟩
  · cases found

theorem leafTable_mem {mem : Memory} {level : Nat} {pt table : Addr}
    {va : BitVec 64} (found : leafTable mem (level + 1) pt va = some table) :
    table ∈ tables mem (level + 1) pt := by
  induction level generalizing pt with
  | zero =>
      rcases Option.some.inj found with rfl
      exact root_mem 0 pt
  | succ level induction =>
      rcases exists_next_of_leafTable found with ⟨next, present, below⟩
      exact child_subset (levelIdx_lt _ va) present (induction below)

/-- In a tree without sharing a last table belongs to one path. -/
theorem leafTable_injective {mem : Memory} {level : Nat} {pt table : Addr}
    {va va' : BitVec 64} (distinct : (tables mem (level + 1) pt).Nodup)
    (found : leafTable mem (level + 1) pt va = some table)
    (found' : leafTable mem (level + 1) pt va' = some table) :
    leafPath (level + 1) va = leafPath (level + 1) va' := by
  induction level generalizing pt with
  | zero => rfl
  | succ level induction =>
      rcases exists_next_of_leafTable found with ⟨next, present, below⟩
      rcases exists_next_of_leafTable found' with ⟨next', present', below'⟩
      have member := leafTable_mem below
      have member' := leafTable_mem below'
      by_cases same : levelIdx (level + 2) va = levelIdx (level + 2) va'
      · have sameNext : next' = next := by
          rw [← same, present] at present'
          exact (Option.some.inj present').symm
        subst sameNext
        have distinctBelow := branch_nodup distinct
          (levelIdx_lt (level + 2) va)
        rw [branch_of_some present] at distinctBelow
        rw [leafPath, leafPath, same, induction distinctBelow below below']
      · have apart := branch_disjoint distinct (levelIdx_lt _ va)
          (levelIdx_lt _ va') same
        rw [branch_of_some present, branch_of_some present'] at apart
        exact absurd member' (apart member)

theorem leafPath_mem_pathsBelow (level : Nat) (va : BitVec 64) :
    leafPath (level + 2) va ∈ pathsBelow (level + 2) va := by
  induction level with
  | zero => exact List.mem_cons_self
  | succ level induction =>
      exact List.mem_cons_of_mem _ (List.mem_map_of_mem induction)

theorem leafPath_missing {mem : Memory} {level : Nat} {pt : Addr}
    {va : BitVec 64} (notHuge : ¬ HugeOnPath mem (level + 1) pt va)
    (notFound : leafTable mem (level + 1) pt va = none) :
    leafPath (level + 1) va ∈ missing mem (level + 1) pt va := by
  induction level generalizing pt with
  | zero => cases notFound
  | succ level induction =>
      cases present : nextpt mem pt (levelIdx (level + 2) va) with
      | none =>
          simp only [HugeOnPath, present, not_not] at notHuge
          rw [missing_of_absent notHuge]
          exact leafPath_mem_pathsBelow level va
      | some next =>
          rw [hugeOnPath_of_next present] at notHuge
          simp only [leafTable, present] at notFound
          rw [missing_of_next present]
          exact List.mem_map_of_mem (induction notHuge notFound)

/-- What stands for the last table of `va`: the table, or its missing path. -/
def leafPlace (mem : Memory) (pml4 : Addr) (va : BitVec 64) :
    Addr ⊕ List Nat :=
  match leafTable mem 4 pml4 va with
  | some table => .inl table
  | none => .inr (leafPath 4 va)

theorem leafPlace_injective {mem : Memory} {pml4 : Addr}
    {va va' : BitVec 64} (distinct : (tables mem 4 pml4).Nodup)
    (equal : leafPlace mem pml4 va = leafPlace mem pml4 va') :
    leafPath 4 va = leafPath 4 va' := by
  unfold leafPlace at equal
  cases found : leafTable mem 4 pml4 va with
  | none =>
      cases found' : leafTable mem 4 pml4 va' with
      | none =>
          rw [found, found'] at equal
          exact Sum.inr.inj equal
      | some table =>
          rw [found, found'] at equal
          cases equal
  | some table =>
      cases found' : leafTable mem 4 pml4 va' with
      | none =>
          rw [found, found'] at equal
          cases equal
      | some table' =>
          rw [found, found'] at equal
          rw [Sum.inl.inj equal] at found
          exact leafTable_injective distinct found found'

theorem leafPlace_mem {mem : Memory} {pml4 : Addr} {va : BitVec 64}
    {pages page : Nat}
    (notHuge : ¬ HugeOnPath mem 4 pml4 (pageAt va page))
    (inRange : page < pages) :
    leafPlace mem pml4 (pageAt va page) ∈
      (tables mem 4 pml4).toFinset.disjSum
        (missingTables mem pml4 va pages) := by
  unfold leafPlace
  cases found : leafTable mem 4 pml4 (pageAt va page) with
  | some table =>
      exact Finset.inl_mem_disjSum.mpr
        (List.mem_toFinset.mpr (leafTable_mem found))
  | none =>
      exact Finset.inr_mem_disjSum.mpr
        (mem_missingTables.mpr ⟨page, inRange, leafPath_missing notHuge found⟩)

/-- Pages that are a multiple of 2M apart have different last tables. -/
theorem leafPath_pageAt_injective {va : BitVec 64} {first second : Nat}
    (firstBound : first < 8192) (secondBound : second < 8192)
    (same : leafPath 4 (pageAt va (512 * first)) =
      leafPath 4 (pageAt va (512 * second))) : first = second := by
  simp only [leafPath, levelIdx_eq, pageAt, List.cons.injEq, and_true] at same
  rcases same with ⟨index4, index3, index2⟩
  have range := va.isLt
  simp only [BitVec.toNat_add, BitVec.toNat_ofNat] at index4 index3 index2
  omega

/-- A root table of an allocator whose frames lie in the direct map. -/
structure WellFormed (last : Addr) (heap : Heap) (free : List Addr)
    (allocated : Set Addr) (pml4 : Addr) : Prop where
  inMemory : kernbase ≤ last
  invariant : Invariant last heap free allocated
  tree : Tree heap.mem allocated 4 pml4

namespace WellFormed

variable {last : Addr} {heap : Heap} {free : List Addr}
variable {allocated : Set Addr} {pml4 : Addr}
variable (wellFormed : WellFormed last heap free allocated pml4)
include wellFormed

theorem isFrame_of_table {table : Addr}
    (member : table ∈ tables heap.mem 4 pml4) : IsFrame last table :=
  wellFormed.invariant.isFrame_of_allocated
    (wellFormed.tree.allocated table member)

theorem table_below_maxPhysMem {table : Addr}
    (member : table ∈ tables heap.mem 4 pml4) :
    (v2p table).toNat < maxPhysMem.toNat := by
  have low := wellFormed.inMemory
  rcases wellFormed.isFrame_of_table member with ⟨_, above, fits⟩
  rw [memoryEnd_eq] at fits
  bv_omega

theorem translate_eq (va : BitVec 64) :
    translate heap.mem 4 pml4 va =
      translationOf 4 va (resolve heap.mem 4 pml4 va) := by
  apply PageTree.translate_eq
  intro table member
  exact lt_trans (wellFormed.table_below_maxPhysMem member) (by decide)

/-- Tables and free frames together fit into 16M. -/
theorem length_tables_add_length_free :
    (tables heap.mem 4 pml4).length + free.length ≤ 4096 := by
  have distinct : (tables heap.mem 4 pml4 ++ free).Nodup := by
    apply wellFormed.tree.distinct.append wellFormed.invariant.nodup
    intro table member isFree
    exact wellFormed.invariant.disjoint table isFree
      (wellFormed.tree.allocated table member)
  have count := length_le_frameCount last _ distinct (by
    intro frame member
    rcases List.mem_append.mp member with isTable | isFree
    · exact wellFormed.isFrame_of_table isTable
    · exact wellFormed.invariant.isFrame_of_free isFree)
  have low : 0xFFFFFFFF80000000 ≤ last.toNat := wellFormed.inMemory
  rw [List.length_append, frameCount, memoryEnd_eq] at count
  omega

theorem toNat_nfreepages : heap.nfreepages.toNat = free.length := by
  have few := wellFormed.length_tables_add_length_free
  rw [wellFormed.invariant.count, BitVec.toNat_ofNat]
  exact Nat.mod_eq_of_lt (by omega)

/--
There are not enough frames for a range with more than 2^36 pages: of its last
tables, those that exist are different tables of the tree and the others are
missing.
-/
theorem pages_le_of_enough {va : BitVec 64} {pages : Nat}
    (notHuge : ∀ page < pages,
      ¬ HugeOnPath heap.mem 4 pml4 (pageAt va page))
    (enough : (missingTables heap.mem pml4 va pages).card ≤ free.length) :
    pages ≤ 2 ^ 36 := by
  by_contra many
  have placed : ∀ index ∈ Finset.range 8192,
      leafPlace heap.mem pml4 (pageAt va (512 * index)) ∈
        (tables heap.mem 4 pml4).toFinset.disjSum
          (missingTables heap.mem pml4 va pages) := by
    intro index member
    have bound : index < 8192 := Finset.mem_range.mp member
    have inRange : 512 * index < pages := by omega
    exact leafPlace_mem (notHuge _ inRange) inRange
  have injective : Set.InjOn
      (fun index => leafPlace heap.mem pml4 (pageAt va (512 * index)))
      (Finset.range 8192) := by
    intro first firstMember second secondMember equal
    exact leafPath_pageAt_injective (Finset.mem_range.mp firstMember)
      (Finset.mem_range.mp secondMember)
      (leafPlace_injective wellFormed.tree.distinct equal)
  have count := Finset.card_le_card_of_injOn _ placed injective
  have few := wellFormed.length_tables_add_length_free
  rw [Finset.card_range, Finset.card_disjSum,
    List.toFinset_card_of_nodup wellFormed.tree.distinct] at count
  omega

end WellFormed

/-- A newly allocated root table is the root of an empty tree. -/
theorem wellFormed_of_kalloc {last : Addr} {heap heap' : Heap}
    {free : List Addr} {allocated : Set Addr} {pml4 : Addr}
    (inMemory : kernbase ≤ last)
    (invariant : Invariant last heap free allocated)
    (success : kalloc heap = .ok (pml4, heap')) :
    ∃ rest, free = pml4 :: rest ∧
      WellFormed last heap' rest (insert pml4 allocated) pml4 ∧
      ∀ address, Within pml4 4096 address → heap'.mem address = 0 := by
  rcases kalloc_spec invariant success with ⟨rest, split, after, effect⟩
  exact ⟨rest, split,
    ⟨inMemory, after,
      Tree.cleared 3 (Set.mem_insert pml4 allocated) effect.cleared⟩,
    effect.cleared⟩

/-! ## Map and lookup -/

/-- The addresses from `va` on, `sz` of them. -/
def InRange (va sz address : BitVec 64) : Prop :=
  va.toNat ≤ address.toNat ∧ address.toNat < va.toNat + sz.toNat

/-- An address of the range lies in one of its pages. -/
theorem InRange.exists_page {va sz address : BitVec 64}
    (inRange : InRange va sz address) (vaAligned : aligned va pgSz4K)
    (szAligned : aligned sz pgSz4K) (nonneg : 0 ≤ sz.toInt) :
    ∃ page < pageCount sz, SamePage 4 address (pageAt va page) ∧
      pageAt va page = peAddr address := by
  have whole := toNat_eq_pageCount szAligned nonneg
  rw [aligned_pgSz4K_iff] at vaAligned
  rcases inRange with ⟨low, high⟩
  have range := address.isLt
  have number : (pageAt va ((address.toNat - va.toNat) / 4096)).toNat =
      address.toNat / 4096 * 4096 := by
    simp only [pageAt, BitVec.toNat_add, BitVec.toNat_ofNat]
    omega
  refine ⟨(address.toNat - va.toNat) / 4096, by omega, ?_, ?_⟩
  · rw [samePage_iff, number]
    omega
  · apply BitVec.eq_of_toNat_eq
    rw [number, toNat_peAddr]

/-- A page of the range contains an address with any given offset. -/
theorem exists_inRange_of_samePage {va sz address : BitVec 64} {page : Nat}
    (vaAligned : aligned va pgSz4K) (szAligned : aligned sz pgSz4K)
    (nonneg : 0 ≤ sz.toInt) (noWrap : va.toNat + sz.toNat ≤ 2 ^ 64)
    (bound : page < pageCount sz)
    (same : SamePage 4 address (pageAt va page)) :
    ∃ address', InRange va sz address' ∧
      address.toNat % 2 ^ 48 = address'.toNat % 2 ^ 48 := by
  have whole := toNat_eq_pageCount szAligned nonneg
  rw [aligned_pgSz4K_iff] at vaAligned
  have number : (pageAt va page).toNat = va.toNat + 4096 * page := by
    simp only [pageAt, BitVec.toNat_add, BitVec.toNat_ofNat]
    omega
  rw [samePage_iff, number] at same
  have number' :
      (BitVec.ofNat 64 (va.toNat + 4096 * page + address.toNat % 4096)).toNat =
        va.toNat + 4096 * page + address.toNat % 4096 := by
    rw [BitVec.toNat_ofNat]
    exact Nat.mod_eq_of_lt (by omega)
  refine ⟨BitVec.ofNat 64 (va.toNat + 4096 * page + address.toNat % 4096),
    ?_, ?_⟩
  · rw [InRange, number']
    omega
  · rw [number']
    omega

/--
`paging_map` returns, and afterwards `paging_getpteref` finds the new entry for
every address of the range and what it found before for every other address, as
far as the 48 bits that a table walk sees can tell them apart.
-/
theorem paging_map_then_lookup {last : Addr} {heap : Heap}
    {free : List Addr} {allocated : Set Addr} {pml4 : Addr}
    {va pa sz flags : BitVec 64}
    (wellFormed : WellFormed last heap free allocated pml4)
    (vaAligned : aligned va pgSz4K) (paAligned : aligned pa pgSz4K)
    (szAligned : aligned sz pgSz4K) (nonneg : 0 ≤ sz.toInt)
    (noWrap : va.toNat + sz.toNat ≤ 2 ^ 64)
    (notHuge : ∀ address, InRange va sz address →
      ¬ HugeOnPath heap.mem 4 pml4 address)
    (enough : (missingTables heap.mem pml4 va (pageCount sz)).card ≤
      heap.nfreepages.toNat) :
    ∃ heap', pagingMap pml4 va pa sz flags heap = .ok heap' ∧
      (∀ address, InRange va sz address →
        ∃ ref, pagingGetpteref heap'.mem pml4 address = some ref ∧
          load64 heap'.mem ref =
            (pa + peAddr address - va) ||| flags ||| pfP) ∧
      (∀ address,
        (∀ address', InRange va sz address' →
          address.toNat % 2 ^ 48 ≠ address'.toNat % 2 ^ 48) →
        (pagingGetpteref heap'.mem pml4 address).map (load64 heap'.mem) =
          (pagingGetpteref heap.mem pml4 address).map (load64 heap.mem)) ∧
      ∃ free' allocated',
        WellFormed last heap' free' allocated' pml4 := by
  have whole := toNat_eq_pageCount szAligned nonneg
  have isAligned := (aligned_pgSz4K_iff va).mp vaAligned
  have pagesNotHuge : ∀ page < pageCount sz,
      ¬ HugeOnPath heap.mem 4 pml4 (pageAt va page) := by
    intro page bound
    apply notHuge
    have number : (pageAt va page).toNat = va.toNat + 4096 * page := by
      simp only [pageAt, BitVec.toNat_add, BitVec.toNat_ofNat]
      omega
    exact ⟨by omega, by omega⟩
  rw [wellFormed.toNat_nfreepages] at enough
  have few := wellFormed.pages_le_of_enough pagesNotHuge enough
  rcases pagingMap_succeeds flags vaAligned paAligned szAligned nonneg
      wellFormed.invariant wellFormed.tree pagesNotHuge enough with
    ⟨heap', success⟩
  rcases pagingMap_spec wellFormed.invariant wellFormed.tree success with
    ⟨new, rest, range⟩
  refine ⟨heap', success, ?_, ?_, rest, _,
    ⟨wellFormed.inMemory, range.grown.invariant,
      range.grown.tree wellFormed.tree range.gains⟩⟩
  · intro address inRange
    rcases inRange.exists_page vaAligned szAligned nonneg with
      ⟨page, bound, same, start⟩
    have found := pagingGetpteref_eq heap'.mem pml4 address
    rw [resolve_samePage _ _ same, range.inside few page bound,
      Option.map_eq_some_iff] at found
    rcases found with ⟨ref, refers, value⟩
    refine ⟨ref, refers, ?_⟩
    have target : pa + peAddr address - va = pageAt pa page := by
      rw [← start, pageAt, pageAt]
      bv_omega
    rw [value, target, pageEnt]
  · intro address outside
    rw [pagingGetpteref_eq, pagingGetpteref_eq]
    apply range.outside
    intro page bound same
    rcases exists_inRange_of_samePage vaAligned szAligned nonneg noWrap bound
        same with
      ⟨address', inRange, equal⟩
    exact outside address' inRange equal

/-- One page mapped in an empty tree, with six frames above the image. -/
theorem paging_map_then_lookup_empty :
    ∃ pml4 heap heap',
      pagingMap pml4 0x400000 0x7000 0x1000 pfW heap = .ok heap' ∧
        ∃ ref, pagingGetpteref heap'.mem pml4 0x400123 = some ref ∧
          load64 heap'.mem ref = 0x7003 := by
  rcases kallocinit_returns 0xFFFFFFFF80FFA000 (fun _ => 0) (by decide) with
    ⟨heap₀, initialised⟩
  rcases kallocinit_spec initialised with ⟨free, invariant, count⟩
  have six : free.length = 6 := by
    rw [count]
    decide
  rcases free with _ | ⟨pml4, rest⟩
  · cases six
  · rcases kalloc_succeeds invariant with ⟨heap, taken⟩
    rcases wellFormed_of_kalloc (by decide) invariant taken with
      ⟨rest', split, wellFormed, cleared⟩
    have five : rest'.length = 5 := by
      rw [← (List.cons.inj split).2]
      exact Nat.succ.inj six
    have one : pageCount 0x1000 = 1 := by decide
    rcases @paging_map_then_lookup _ _ _ _ _ 0x400000 0x7000 0x1000 pfW
        wellFormed (by decide) (by decide) (by decide) (by decide) (by decide)
        (fun _ _ => not_hugeOnPath_cleared 3 _ cleared)
        (by
          rw [wellFormed.toNat_nfreepages, five, one]
          exact (card_missingTables_le _ _ {[0], [0, 0], [0, 0, 2]}
            (by decide)).trans (by decide)) with
      ⟨heap', success, inside, _⟩
    rcases inside 0x400123 ⟨by decide, by decide⟩ with ⟨ref, refers, value⟩
    refine ⟨pml4, heap, heap', success, ref, refers, ?_⟩
    rw [value]
    decide

end Rt64.Kernel.PagingRange
