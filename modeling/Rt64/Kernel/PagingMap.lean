import Rt64.Kernel.PageTree

/-!
# Mapping one page

`paging_map_4K` descends three levels, allocating the tables that are missing,
and writes one entry.  Its effect is stated on the tree: the frames it takes
are the tables that were missing, the address mapped resolves to the new entry,
and every other address resolves as before.
-/

namespace Rt64.Kernel.PagingMap

open Rt64.Lib.ByteMemory
open Rt64.Lib.RadixTree
open Rt64.Include.Defs
open Rt64.Kernel.Kalloc
open Rt64.Kernel.Paging
open Rt64.Kernel.PageTree

/-! ## The next table -/

/-- The entry for a new table. -/
abbrev tableEnt (frame : Addr) : BitVec 64 :=
  v2p frame ||| pfW ||| pfP ||| pfU

theorem tableEnt_eq (frame : Addr) :
    tableEnt frame = v2p frame ||| tableFlags := by
  rw [tableEnt, BitVec.or_assoc, BitVec.or_assoc]
  rfl

theorem peFlags_tableEnt {frame : Addr}
    (isAligned : frame.toNat % 4096 = 0) :
    peFlags (tableEnt frame) = tableFlags := by
  rw [tableEnt_eq]
  exact peFlags_or_flags (v2p_aligned isAligned) (by decide)

/-- The entry for a new table leads to it. -/
theorem nextpt_tableEnt {mem : Memory} {pt frame : Addr} {idx : Nat}
    (isAligned : frame.toNat % 4096 = 0)
    (entry : getEnt mem pt idx = tableEnt frame) :
    nextpt mem pt idx = some frame := by
  have flags := peFlags_tableEnt isAligned
  have present : tableEnt frame &&& pfP ≠ 0 := by
    rw [and_pfP_eq, flags]
    decide
  have notHuge : tableEnt frame &&& pfPS = 0 := by
    rw [and_pfPS_eq, flags]
    decide
  have target : peAddr (tableEnt frame) = v2p frame := by
    rw [tableEnt_eq]
    exact peAddr_or_flags (v2p_aligned isAligned) (by decide)
  rw [nextpt, entry, if_neg present, if_neg (not_not.mpr notHuge), target,
    p2v_v2p]

theorem safeSetent_of_absent {pt : Addr} {idx : Nat} {heap : Heap}
    (ent : BitVec 64) (absent : getEnt heap.mem pt idx &&& pfP = 0) :
    safeSetent pt idx ent heap =
      .ok { heap with mem := setEnt heap.mem pt idx ent } := by
  rw [safeSetent, assert_of_holds _ _ absent]
  rfl

theorem safeNextptNoalloc_of_next {pt next : Addr} {idx : Nat} {heap : Heap}
    (leads : nextpt heap.mem pt idx = some next) :
    safeNextptNoalloc pt idx heap = .ok next := by
  rcases nextpt_eq_some leads with ⟨present, notHuge, rfl⟩
  dsimp only [safeNextptNoalloc]
  rw [assert_of_holds _ _ present, assert_of_holds _ _ notHuge]
  rfl

/-- A table that exists is used; one that does not is allocated. -/
theorem safeNextptMayalloc_eq_ok {pt next : Addr} {idx : Nat}
    {heap heap' : Heap}
    (success : safeNextptMayalloc pt idx heap = .ok (next, heap')) :
    (nextpt heap.mem pt idx = some next ∧ heap' = heap) ∨
      (getEnt heap.mem pt idx &&& pfP = 0 ∧
        ∃ middle, kalloc heap = .ok (next, middle) ∧
          heap' = { middle with
            mem := setEnt middle.mem pt idx (tableEnt next) }) := by
  unfold safeNextptMayalloc at success
  by_cases absent : getEnt heap.mem pt idx &&& pfP = 0
  · rw [if_neg (not_not.mpr absent), bind_eq_ok] at success
    rcases success with ⟨⟨frame, middle⟩, taken, rest⟩
    simp only [safeSetent, bind_eq_ok] at rest
    rcases rest with ⟨final, ⟨_, _, written⟩, result⟩
    rcases Except.ok.inj written with rfl
    rcases Prod.mk.inj (Except.ok.inj result) with ⟨rfl, rfl⟩
    exact Or.inr ⟨absent, middle, taken, rfl⟩
  · rw [if_pos absent, assert_bind_eq_ok] at success
    rcases success with ⟨notHuge, result⟩
    rcases Prod.mk.inj (Except.ok.inj result) with ⟨rfl, rfl⟩
    refine Or.inl ⟨?_, rfl⟩
    rw [nextpt, if_neg absent, if_neg (not_not.mpr notHuge)]

/-! ## A new table -/

/-- The step to `heap'` allocates `next` as the table for `pt[idx]`. -/
structure NewTable (last : Addr) (heap heap' : Heap) (free rest : List Addr)
    (allocated : Set Addr) (pt : Addr) (idx : Nat) (next : Addr) :
    Prop where
  grown : Grown last heap heap' free rest allocated [pt] [next]
  isAligned : next.toNat % 4096 = 0
  entry : getEnt heap'.mem pt idx = tableEnt next
  others : ∀ idx' < pgNent, idx' ≠ idx →
    getEnt heap'.mem pt idx' = getEnt heap.mem pt idx'
  cleared : ∀ address, Within next 4096 address → heap'.mem address = 0

theorem newTable_of_kalloc {last : Addr} {heap middle : Heap}
    {free : List Addr} {allocated : Set Addr} {idx : Nat} {pt next : Addr}
    (invariant : Invariant last heap free allocated)
    (owned : pt ∈ allocated) (bound : idx < pgNent)
    (taken : kalloc heap = .ok (next, middle)) :
    ∃ rest, NewTable last heap
      { middle with mem := setEnt middle.mem pt idx (tableEnt next) }
      free rest allocated pt idx next := by
  have owned' : ∀ table ∈ [pt], table ∈ allocated := by
    intro table member
    rwa [List.mem_singleton.mp member]
  rcases Grown.alloc invariant owned' taken with ⟨rest, first, cleared⟩
  have written : Grown last middle
      { middle with mem := setEnt middle.mem pt idx (tableEnt next) }
      rest rest (allocated ∪ {frame | frame ∈ [next]}) [pt] [] := by
    apply Grown.write first.invariant
      (fun table member => Or.inl (owned' table member)) List.mem_cons_self
    intro address outside
    exact setEnt_outside _ _ _ _ bound outside
  have nextFree := first.free_of_new List.mem_cons_self
  have isAligned := (invariant.isFrame_of_free nextFree).1
  have apart : Apart next 4096 pt 4096 :=
    apart_of_frames isAligned (invariant.isFrame_of_allocated owned).1
      (invariant.ne_of_free_of_allocated nextFree owned)
  refine ⟨rest, ⟨first.trans written fun table member => Or.inl member,
    isAligned, getEnt_setEnt_same _ _ _ _, ?_, ?_⟩⟩
  · intro idx' bound' different
    rw [getEnt_setEnt_other _ _ _ bound bound' different]
    apply getEnt_congr bound'
    intro address inside
    -- `pt` is written only after the allocation, which clears another frame
    rcases kalloc_spec invariant taken with ⟨_, _, _, effect⟩
    exact effect.kept address fun inNext => apart address inNext inside
  · intro address inside
    exact (setEnt_outside _ _ _ _ bound (apart address inside)).trans
      (cleared address inside)

namespace NewTable

variable {last : Addr} {heap heap' : Heap} {free rest : List Addr}
variable {allocated : Set Addr} {level idx : Nat} {pt next : Addr}
variable (newTable : NewTable last heap heap' free rest allocated pt idx next)
include newTable

theorem nextpt_eq : nextpt heap'.mem pt idx = some next :=
  nextpt_tableEnt newTable.isAligned newTable.entry

variable (tree : Tree heap.mem allocated (level + 2) pt)
variable (bound : idx < pgNent)
include tree

/-- The tables below the other entries keep their bytes. -/
theorem agree {idx' : Nat} (bound' : idx' < pgNent) {table : Addr}
    (member : table ∈ branch pgNent (nextpt heap.mem) (level + 1) pt idx')
    {address : Addr} (inside : Within table 4096 address) :
    heap'.mem address = heap.mem address := by
  have below := branch_subset bound' member
  have notRoot : table ∉ [pt] := by
    rw [List.mem_singleton]
    rintro rfl
    exact root_not_mem_branch tree.distinct bound' member
  exact newTable.grown.untouched (tree.allocated table below) notRoot inside

variable (absent : getEnt heap.mem pt idx &&& pfP = 0)
include bound absent

theorem gains :
    (tables heap'.mem (level + 2) pt).Perm
      (tables heap.mem (level + 2) pt ++ [next]) := by
  apply nodes_grow bound
  · intro idx' bound' different
    apply branch_congr (newTable.others idx' bound' different)
    intro table member address inside
    exact newTable.agree tree bound' member inside
  · rw [branch_of_none (nextpt_of_absent absent),
      branch_of_some newTable.nextpt_eq, List.nil_append]
    exact List.Perm.of_eq (tables_cleared level newTable.cleared)

omit bound in
/-- No address resolves differently. -/
theorem resolve_eq (va : BitVec 64) :
    resolve heap'.mem (level + 2) pt va =
      resolve heap.mem (level + 2) pt va := by
  by_cases through : levelIdx (level + 2) va = idx
  · subst through
    rw [resolve_of_next newTable.nextpt_eq, resolve_of_absent absent,
      resolve_cleared level va newTable.cleared, newTable.entry,
      peFlags_tableEnt newTable.isAligned]
    rfl
  · have bound' := levelIdx_lt (level + 2) va
    apply (resolve_congr_branch (newTable.others _ bound' through) ?_).1
    intro table member address inside
    exact newTable.agree tree bound' member inside

omit bound in
/-- The new table, and no other, is no longer missing. -/
theorem missing_eq (va : BitVec 64) :
    missing heap.mem (level + 2) pt va =
      (if levelIdx (level + 2) va = idx then [[idx]] else []) ++
        missing heap'.mem (level + 2) pt va := by
  by_cases through : levelIdx (level + 2) va = idx
  · subst through
    rw [if_pos rfl, missing_of_next newTable.nextpt_eq,
      missing_of_absent absent, missing_cleared level va newTable.cleared]
    rfl
  · have bound' := levelIdx_lt (level + 2) va
    rw [if_neg through, List.nil_append]
    apply (resolve_congr_branch (newTable.others _ bound' through) ?_).2.symm
    intro table member address inside
    exact newTable.agree tree bound' member inside

end NewTable

/-! ## Descending one level -/

/--
The step to `heap'` makes sure that `pt[idx]` leads to a table, `next`: the
frames `new` that it takes are the tables that were missing.
-/
structure Descended (last : Addr) (heap heap' : Heap)
    (free rest : List Addr) (allocated : Set Addr) (new : List Addr)
    (level : Nat) (pt : Addr) (idx : Nat) (next : Addr) : Prop where
  grown : Grown last heap heap' free rest allocated
    (tables heap.mem (level + 2) pt) new
  gains : (tables heap'.mem (level + 2) pt).Perm
    (tables heap.mem (level + 2) pt ++ new)
  leads : nextpt heap'.mem pt idx = some next
  sameResolve : ∀ va, resolve heap'.mem (level + 2) pt va =
    resolve heap.mem (level + 2) pt va
  supplied : ∀ va, missing heap.mem (level + 2) pt va =
    (if levelIdx (level + 2) va = idx then new.map fun _ => [idx] else []) ++
      missing heap'.mem (level + 2) pt va

theorem safeNextptMayalloc_spec {last : Addr} {heap heap' : Heap}
    {free : List Addr} {allocated : Set Addr} {level idx : Nat}
    {pt next : Addr} (invariant : Invariant last heap free allocated)
    (tree : Tree heap.mem allocated (level + 2) pt) (bound : idx < pgNent)
    (success : safeNextptMayalloc pt idx heap = .ok (next, heap')) :
    ∃ new rest,
      Descended last heap heap' free rest allocated new level pt idx next := by
  rcases safeNextptMayalloc_eq_ok success with
    ⟨present, rfl⟩ | ⟨absent, middle, taken, rfl⟩
  · exact ⟨[], free, Grown.refl invariant tree.allocated, by simp, present,
      fun _ => rfl, by simp⟩
  · have owned := tree.allocated pt (root_mem _ pt)
    rcases newTable_of_kalloc invariant owned bound taken with
      ⟨rest, newTable⟩
    have touchesRoot : ∀ table ∈ [pt],
        table ∈ tables heap.mem (level + 2) pt := by
      intro table member
      rw [List.mem_singleton.mp member]
      exact root_mem _ pt
    exact ⟨[next], rest, newTable.grown.mono touchesRoot tree.allocated,
      newTable.gains tree bound absent, newTable.nextpt_eq,
      newTable.resolve_eq tree absent, newTable.missing_eq tree absent⟩

/-- A step down works when no huge page and no lack of frames prevents it. -/
theorem safeNextptMayalloc_succeeds {last : Addr} {heap : Heap}
    {free : List Addr} {allocated : Set Addr} {level : Nat} {pt : Addr}
    {va : BitVec 64} (invariant : Invariant last heap free allocated)
    (owned : pt ∈ allocated)
    (notHuge : ¬ HugeOnPath heap.mem (level + 2) pt va)
    (enough : (missing heap.mem (level + 2) pt va).length ≤ free.length) :
    ∃ result,
      safeNextptMayalloc pt (levelIdx (level + 2) va) heap = .ok result := by
  have bound := levelIdx_lt (level + 2) va
  unfold safeNextptMayalloc
  by_cases absent : getEnt heap.mem pt (levelIdx (level + 2) va) &&& pfP = 0
  · rw [if_neg (not_not.mpr absent)]
    rw [missing_of_absent absent] at enough
    cases free with
    | nil => simp [pathsBelow] at enough
    | cons frame rest =>
        rcases kalloc_succeeds invariant with ⟨middle, taken⟩
        rcases kalloc_spec invariant taken with ⟨_, _, _, effect⟩
        have apart : Apart frame 4096 pt 4096 :=
          apart_of_frames
            (invariant.isFrame_of_free List.mem_cons_self).1
            (invariant.isFrame_of_allocated owned).1
            (invariant.ne_of_free_of_allocated List.mem_cons_self owned)
        have same : getEnt middle.mem pt (levelIdx (level + 2) va) =
            getEnt heap.mem pt (levelIdx (level + 2) va) :=
          getEnt_congr bound fun address inside =>
            effect.kept address fun inFrame => apart address inFrame inside
        rw [taken, ok_bind]
        dsimp only
        rw [safeSetent_of_absent _ (by rwa [same])]
        exact ⟨_, rfl⟩
  · have huge : getEnt heap.mem pt (levelIdx (level + 2) va) &&& pfPS = 0 := by
      by_contra isHuge
      apply notHuge
      have none : nextpt heap.mem pt (levelIdx (level + 2) va) = none := by
        rw [nextpt, if_neg absent, if_pos isHuge]
      simp only [HugeOnPath, none]
      exact absent
    rw [if_pos absent, assert_of_holds _ _ huge]
    exact ⟨_, rfl⟩

/-! ## One page -/

/-- The descent of `paging_map_4K` from a table of the given level. -/
def mapLevel (va ent : BitVec 64) : Nat → Addr → Heap → Except Halt Heap
  | 0, _, heap => .ok heap
  | 1, pt, heap =>
      .ok { heap with mem := setEnt heap.mem pt (levelIdx 1 va) ent }
  | level + 2, pt, heap => do
      let (next, heap) ←
        safeNextptMayalloc pt (levelIdx (level + 2) va) heap
      mapLevel va ent (level + 1) next heap

theorem pagingMap4K_eq {va pa flags : BitVec 64} (pml4 : Addr)
    (heap : Heap) (vaAligned : aligned va pgSz4K)
    (paAligned : aligned pa pgSz4K) :
    pagingMap4K pml4 va pa flags heap =
      mapLevel va (pa ||| flags ||| pfP) 4 pml4 heap := by
  rw [pagingMap4K, assert_of_holds _ _ vaAligned,
    assert_of_holds _ _ paAligned]
  rfl

/-- Two addresses have the same indices up to the given level. -/
def SamePage (level : Nat) (va va' : BitVec 64) : Prop :=
  ∀ lower, lower < level → levelIdx (lower + 1) va = levelIdx (lower + 1) va'

theorem SamePage.step {level : Nat} {va va' : BitVec 64}
    (same : SamePage level va va')
    (index : levelIdx (level + 1) va = levelIdx (level + 1) va') :
    SamePage (level + 1) va va' := by
  intro lower below
  rcases Nat.lt_succ_iff_lt_or_eq.mp below with inner | rfl
  · exact same lower inner
  · exact index

/-- The result for an address depends only on its indices. -/
theorem resolve_samePage (mem : Memory) {level : Nat} (pt : Addr)
    {va va' : BitVec 64} (same : SamePage level va va') :
    resolve mem level pt va = resolve mem level pt va' := by
  induction level generalizing pt with
  | zero => rfl
  | succ level induction =>
      have index := same level (Nat.lt_succ_self level)
      have inner : SamePage level va va' := fun lower below =>
        same lower (Nat.lt_succ_of_lt below)
      cases level with
      | zero => simp only [resolve, index]
      | succ level =>
          simp only [resolve, index]
          cases nextpt mem pt (levelIdx (level + 2) va') with
          | none => rfl
          | some next => simp only [induction next inner]

/--
The step to `heap'` maps the page of `va` to `ent`: it takes the tables that
were missing and changes the result for no other page.
-/
structure Mapped (last : Addr) (heap heap' : Heap) (free rest : List Addr)
    (allocated : Set Addr) (new : List Addr) (level : Nat) (pt : Addr)
    (va ent : BitVec 64) : Prop where
  grown : Grown last heap heap' free rest allocated
    (tables heap.mem level pt) new
  gains : (tables heap'.mem level pt).Perm (tables heap.mem level pt ++ new)
  mapped : resolve heap'.mem level pt va =
    ((resolve heap.mem level pt va).1, some ent)
  others : ∀ va', ¬ SamePage level va' va →
    resolve heap'.mem level pt va' = resolve heap.mem level pt va'
  taken : new.length = (missing heap.mem level pt va).length
  supplied : ∀ va', ∀ path ∈ missing heap'.mem level pt va',
    path ∈ missing heap.mem level pt va' ∧
      path ∉ missing heap.mem level pt va

theorem Mapped.sameAbove {last : Addr} {heap heap' : Heap}
    {free rest : List Addr} {allocated : Set Addr} {new : List Addr}
    {level : Nat} {pt : Addr} {va ent : BitVec 64}
    (mapped : Mapped last heap heap' free rest allocated new level pt va ent)
    (va' : BitVec 64) :
    (resolve heap'.mem level pt va').1 = (resolve heap.mem level pt va').1 := by
  by_cases same : SamePage level va' va
  · rw [resolve_samePage _ _ same, resolve_samePage _ _ same, mapped.mapped]
  · rw [mapped.others va' same]

/-- Writing the last entry. -/
theorem mapped_entry {last : Addr} {heap : Heap} {free : List Addr}
    {allocated : Set Addr} {pt : Addr} {va ent : BitVec 64}
    (invariant : Invariant last heap free allocated)
    (tree : Tree heap.mem allocated 1 pt) (present : ent &&& pfP ≠ 0) :
    Mapped last heap
      { heap with mem := setEnt heap.mem pt (levelIdx 1 va) ent }
      free free allocated [] 1 pt va ent where
  grown := by
    apply Grown.write invariant tree.allocated (root_mem 0 pt)
    intro address outside
    exact setEnt_outside _ _ _ _ (levelIdx_lt 1 va) outside
  gains := by simp [tables]
  mapped := by
    simp only [resolve, getEnt_setEnt_same, if_neg present]
  others := by
    intro va' different
    have index : levelIdx 1 va' ≠ levelIdx 1 va := by
      intro equal
      apply different
      intro lower below
      rwa [Nat.lt_one_iff.mp below]
    simp only [resolve]
    rw [getEnt_setEnt_other _ _ _ (levelIdx_lt 1 va) (levelIdx_lt 1 va')
      index]
  taken := rfl
  supplied := by
    intro va' path member
    cases member

section Above

variable {last : Addr} {heap middle heap' : Heap}
variable {free rest rest' : List Addr} {allocated : Set Addr}
variable {new new' : List Addr} {level : Nat} {pt next : Addr}
variable {va ent : BitVec 64}
variable (tree : Tree heap.mem allocated (level + 2) pt)
variable (down : Descended last heap middle free rest allocated new level pt
  (levelIdx (level + 2) va) next)
variable (below : Mapped last middle heap' rest rest'
  (allocated ∪ {frame | frame ∈ new}) new' (level + 1) next va ent)
include tree down below

theorem leads_of_mapped_below :
    getEnt heap'.mem pt (levelIdx (level + 2) va) =
        getEnt middle.mem pt (levelIdx (level + 2) va) ∧
      nextpt heap'.mem pt (levelIdx (level + 2) va) = some next := by
  have bound := levelIdx_lt (level + 2) va
  have same := getEnt_of_grown_child (down.grown.tree tree down.gains) bound
    down.leads below.grown bound
  exact ⟨same, (nextpt_congr same).trans down.leads⟩

theorem others_of_mapped_below {va' : BitVec 64}
    (different : ¬ SamePage (level + 2) va' va) :
    resolve heap'.mem (level + 2) pt va' =
      resolve heap.mem (level + 2) pt va' := by
  rcases leads_of_mapped_below tree down below with ⟨same, leads⟩
  rw [← down.sameResolve va']
  by_cases through :
      levelIdx (level + 2) va' = levelIdx (level + 2) va
  · have inner : ¬ SamePage (level + 1) va' va := fun lower =>
      different (lower.step through)
    have leads' := leads
    have leads'' := down.leads
    rw [← through] at same leads' leads''
    rw [resolve_of_next leads', resolve_of_next leads'', same,
      below.others va' inner]
  · exact (resolve_of_grown_child (down.grown.tree tree down.gains)
      (levelIdx_lt _ va) down.leads below.grown through).1

theorem supplied_of_mapped_below {va' : BitVec 64} {path : List Nat}
    (member : path ∈ missing heap'.mem (level + 2) pt va') :
    path ∈ missing heap.mem (level + 2) pt va' ∧
      path ∉ missing heap.mem (level + 2) pt va := by
  rcases leads_of_mapped_below tree down below with ⟨_, leads⟩
  rw [down.supplied va', down.supplied va, if_pos rfl,
    missing_of_next down.leads]
  by_cases through :
      levelIdx (level + 2) va' = levelIdx (level + 2) va
  · have leads' := down.leads
    rw [← through] at leads leads'
    rw [missing_of_next leads, List.mem_map] at member
    rcases member with ⟨tail, tailMember, rfl⟩
    rcases below.supplied va' tail tailMember with ⟨old, notTaken⟩
    rw [missing_of_next leads']
    refine ⟨List.mem_append_right _ (List.mem_map_of_mem old), ?_⟩
    rw [through, List.mem_append]
    rintro (isNew | below')
    · rcases List.mem_map.mp isNew with ⟨_, _, single⟩
      exact ne_nil_of_mem_missing tailMember (List.cons.inj single).2.symm
    · rcases List.mem_map.mp below' with ⟨other, otherMember, equal⟩
      rw [(List.cons.inj equal).2] at otherMember
      exact notTaken otherMember
  · have same := (resolve_of_grown_child (down.grown.tree tree down.gains)
      (levelIdx_lt _ va) down.leads below.grown through).2
    rw [same] at member
    refine ⟨List.mem_append_right _ member, ?_⟩
    have head := head_of_mem_pathsBelow
      (missing_subset_pathsBelow _ _ _ _ member)
    intro taken
    apply through
    rcases List.mem_append.mp taken with isNew | below'
    · rcases List.mem_map.mp isNew with ⟨_, _, rfl⟩
      exact (Option.some.inj head).symm
    · rcases List.mem_map.mp below' with ⟨_, _, rfl⟩
      exact (Option.some.inj head).symm

/-- A page mapped below one entry is mapped from the table above. -/
theorem Mapped.above :
    Mapped last heap heap' free rest' allocated (new ++ new') (level + 2) pt
      va ent where
  grown := by
    apply down.grown.trans below.grown
    intro table member
    exact List.mem_append.mp (down.gains.mem_iff.mp
      (child_subset (levelIdx_lt _ va) down.leads member))
  gains := by
    have lifted := gains_of_grown_child (down.grown.tree tree down.gains)
      (levelIdx_lt _ va) down.leads below.grown below.gains
    rw [← List.append_assoc]
    exact lifted.trans (down.gains.append_right new')
  mapped := by
    rcases leads_of_mapped_below tree down below with ⟨same, leads⟩
    rw [← down.sameResolve va, resolve_of_next leads,
      resolve_of_next down.leads, below.mapped, same]
  others := fun _ different =>
    others_of_mapped_below tree down below different
  taken := by
    rw [down.supplied va, if_pos rfl, missing_of_next down.leads]
    simp only [List.length_append, List.length_map, below.taken]
  supplied := fun _ _ member =>
    supplied_of_mapped_below tree down below member

end Above

theorem mapLevel_spec {last : Addr} {va ent : BitVec 64}
    (present : ent &&& pfP ≠ 0) (level : Nat) {pt : Addr}
    {heap heap' : Heap} {free : List Addr} {allocated : Set Addr}
    (invariant : Invariant last heap free allocated)
    (tree : Tree heap.mem allocated (level + 1) pt)
    (success : mapLevel va ent (level + 1) pt heap = .ok heap') :
    ∃ new rest, Mapped last heap heap' free rest allocated new (level + 1)
      pt va ent := by
  induction level generalizing pt heap free allocated with
  | zero =>
      rcases Except.ok.inj success with rfl
      exact ⟨[], free, mapped_entry invariant tree present⟩
  | succ level induction =>
      rw [mapLevel, bind_eq_ok] at success
      rcases success with ⟨⟨next, middle⟩, descended, mappedBelow⟩
      rcases safeNextptMayalloc_spec invariant tree (levelIdx_lt _ va)
          descended with
        ⟨new, rest, down⟩
      have tree' := down.grown.tree tree down.gains
      rcases induction down.grown.invariant
          (tree'.child (levelIdx_lt _ va) down.leads) mappedBelow with
        ⟨new', rest', below⟩
      exact ⟨new ++ new', rest', Mapped.above tree down below⟩

theorem mapLevel_succeeds {last : Addr} {va ent : BitVec 64} (level : Nat)
    {pt : Addr} {heap : Heap} {free : List Addr} {allocated : Set Addr}
    (invariant : Invariant last heap free allocated)
    (tree : Tree heap.mem allocated (level + 1) pt)
    (notHuge : ¬ HugeOnPath heap.mem (level + 1) pt va)
    (enough : (missing heap.mem (level + 1) pt va).length ≤ free.length) :
    ∃ heap', mapLevel va ent (level + 1) pt heap = .ok heap' := by
  induction level generalizing pt heap free allocated with
  | zero => exact ⟨_, rfl⟩
  | succ level induction =>
      rcases safeNextptMayalloc_succeeds invariant
          (tree.allocated pt (root_mem _ pt)) notHuge enough with
        ⟨⟨next, middle⟩, descended⟩
      rcases safeNextptMayalloc_spec invariant tree (levelIdx_lt _ va)
          descended with
        ⟨new, rest, down⟩
      have tree' := down.grown.tree tree down.gains
      have notHuge' : ¬ HugeOnPath middle.mem (level + 1) next va := by
        rw [← hugeOnPath_of_next down.leads, hugeOnPath_iff,
          down.sameResolve va, ← hugeOnPath_iff]
        exact notHuge
      have enough' :
          (missing middle.mem (level + 1) next va).length ≤ rest.length := by
        rw [down.supplied va, if_pos rfl, missing_of_next down.leads,
          down.grown.split] at enough
        simp only [List.length_append, List.length_map] at enough
        omega
      rw [mapLevel, descended]
      exact induction down.grown.invariant
        (tree'.child (levelIdx_lt _ va) down.leads) notHuge' enough'

end Rt64.Kernel.PagingMap
