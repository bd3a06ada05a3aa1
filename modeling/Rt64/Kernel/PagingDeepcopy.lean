import Rt64.Kernel.PagingRange

/-!
# Copying an address space

`pt_root_deepcopy` copies every table of a tree into a frame that was free.
The entries of the copy differ from those of the original only in the tables
they refer to, so both trees resolve every address to the same flags and the
same last entry.  The trees share no table, and `paging_map` writes only to the
tables of its root and to frames it allocates, so whatever is mapped in one of
them later is not seen through the other.
-/

namespace Rt64.Kernel.PagingDeepcopy

open Rt64.Lib.ByteMemory
open Rt64.Lib.RadixTree
open Rt64.Include.Defs
open Rt64.Klib.String
open Rt64.Kernel.Kalloc
open Rt64.Kernel.Paging
open Rt64.Kernel.PageTree
open Rt64.Kernel.PagingMap
open Rt64.Kernel.PagingRange

/-! ## What a copy is -/

/--
The step to `heap'` builds the copy `newpt` of the tree below `pt` in the
frames `new`, one for each table, and writes to nothing else.
-/
structure Copied (last : Addr) (heap heap' : Heap) (free rest : List Addr)
    (allocated : Set Addr) (new : List Addr) (level : Nat)
    (pt newpt : Addr) : Prop where
  grown : Grown last heap heap' free rest allocated [] new
  copies : (tables heap'.mem level newpt).Perm new
  same : ∀ va, resolve heap'.mem level newpt va = resolve heap.mem level pt va
  count : new.length = (tables heap.mem level pt).length

theorem peFlags_lt (ent : BitVec 64) : (peFlags ent).toNat < 4096 := by
  rw [toNat_peFlags]
  exact Nat.mod_lt _ (by decide)

/-- An entry with the flags of one that leads to a table leads to the new
table. -/
theorem nextpt_setEnt_peFlags (mem : Memory) (newpt : Addr) (idx : Nat)
    {original : Memory} {pt next newnext : Addr}
    (leads : nextpt original pt idx = some next)
    (isAligned : (v2p newnext).toNat % 4096 = 0) :
    nextpt (setEnt mem newpt idx
      (v2p newnext ||| peFlags (getEnt original pt idx))) newpt idx =
        some newnext := by
  rcases nextpt_eq_some leads with ⟨present, notHuge, _⟩
  have small := peFlags_lt (getEnt original pt idx)
  rw [and_pfP_eq] at present
  rw [and_pfPS_eq] at notHuge
  rw [nextpt, getEnt_setEnt_same, and_pfP_eq, and_pfPS_eq,
    peFlags_or_flags isAligned small, if_neg present,
    if_neg (not_not.mpr notHuge), peAddr_or_flags isAligned small, p2v_v2p]

/-- A frame copied by `memcpy` has the same entries. -/
theorem getEnt_memcpy {mem : Memory} {pt newpt : Addr} {idx : Nat}
    (bound : idx < pgNent) (targetFits : newpt.toNat + 4096 ≤ 2 ^ 64)
    (sourceFits : pt.toNat + 4096 ≤ 2 ^ 64) :
    getEnt (memcpy mem newpt pt pgSz4K) newpt idx = getEnt mem pt idx := by
  have size : pgSz4K.toNat = 4096 := by decide
  have entries : idx < 512 := bound
  rw [memcpy, memmove_eq_copy _ _ _ _ (by omega) (by omega), size]
  exact load64_copy mem newpt pt 4096 (8 * idx) (by omega) (by omega)

theorem memcpy_outside {mem : Memory} {pt newpt address : Addr}
    (targetFits : newpt.toNat + 4096 ≤ 2 ^ 64)
    (sourceFits : pt.toNat + 4096 ≤ 2 ^ 64)
    (outside : ¬ Within newpt 4096 address) :
    memcpy mem newpt pt pgSz4K address = mem address := by
  have size : pgSz4K.toNat = 4096 := by decide
  rw [memcpy, memmove_eq_copy _ _ _ _ (by omega) (by omega), size]
  exact copy_outside _ _ _ _ _ outside

theorem frame_fits {last frame : Addr} (isFrame : IsFrame last frame) :
    frame.toNat + 4096 ≤ 2 ^ 64 := by
  rcases isFrame with ⟨_, _, fits⟩
  rw [memoryEnd_eq] at fits
  omega

/-- Allocating the table that the copy starts with. -/
theorem kalloc_grown {last : Addr} {heap : Heap} {free : List Addr}
    {allocated : Set Addr} (invariant : Invariant last heap free allocated)
    (enough : 1 ≤ free.length) :
    ∃ newpt middle rest, kalloc heap = .ok (newpt, middle) ∧
      Grown last heap middle free rest allocated [] [newpt] ∧
      ∀ address, Within newpt 4096 address → middle.mem address = 0 := by
  rcases free with _ | ⟨newpt, rest⟩
  · exact absurd enough (by decide)
  · rcases kalloc_succeeds invariant with ⟨middle, taken⟩
    rcases Grown.alloc invariant (fun _ none => absurd none List.not_mem_nil)
        taken with
      ⟨rest', grown, cleared⟩
    exact ⟨newpt, middle, rest', taken, grown, cleared⟩

/-! ## The last level -/

theorem ptDeepcopyLevel_last {last : Addr} {heap : Heap}
    {free : List Addr} {allocated : Set Addr} {pt : Addr}
    (invariant : Invariant last heap free allocated)
    (owned : pt ∈ allocated) (enough : 1 ≤ free.length) :
    ∃ newpt heap' new rest,
      ptDeepcopyLevel 1 pt heap = .ok (newpt, heap') ∧
        Copied last heap heap' free rest allocated new 1 pt newpt := by
  rcases kalloc_grown invariant enough with
    ⟨newpt, middle, rest, taken, first, _⟩
  have sourceFits := frame_fits (invariant.isFrame_of_allocated owned)
  have targetFits := frame_fits
    (invariant.isFrame_of_free (first.free_of_new List.mem_cons_self))
  have written : Grown last middle
      { middle with mem := memcpy middle.mem newpt pt pgSz4K } rest rest
      (allocated ∪ {frame | frame ∈ [newpt]}) [newpt] [] := by
    apply Grown.write first.invariant
      (fun table member => Or.inr member) List.mem_cons_self
    intro address outside
    exact memcpy_outside targetFits sourceFits outside
  refine ⟨newpt, { middle with mem := memcpy middle.mem newpt pt pgSz4K },
    [newpt], rest, ?_, ⟨?_, ?_, ?_, ?_⟩⟩
  · rw [ptDeepcopyLevel, assert_of_holds _ _ (by decide), ok_bind, taken]
    rfl
  · exact first.trans written fun table member => Or.inr member
  · exact List.Perm.of_eq (nodes_one newpt)
  · intro va
    have copied := @getEnt_memcpy middle.mem _ _ _ (levelIdx_lt 1 va)
      targetFits sourceFits
    have kept : getEnt middle.mem pt (levelIdx 1 va) =
        getEnt heap.mem pt (levelIdx 1 va) :=
      getEnt_congr (levelIdx_lt 1 va) fun address inside =>
        first.untouched owned List.not_mem_nil inside
    simp only [resolve, copied, kept]
  · simp [tables]

/-! ## The loop over the entries -/

/--
The copy of the first `count` entries: the other entries are still absent, the
frames taken since the copy was allocated are the tables below it, and an
address that takes one of the entries resolves as in the original.
-/
structure CopyLoop (last : Addr) (heap heap' : Heap) (free rest : List Addr)
    (allocated : Set Addr) (new : List Addr) (level : Nat)
    (pt newpt : Addr) (count : Nat) : Prop where
  grown : Grown last heap heap' free rest allocated [] (newpt :: new)
  ahead : ∀ idx, count ≤ idx → idx < pgNent →
    getEnt heap'.mem newpt idx = 0
  copies : ((List.range count).flatMap
    (branch pgNent (nextpt heap'.mem) (level + 1) newpt)).Perm new
  same : ∀ va, levelIdx (level + 2) va < count →
    resolve heap'.mem (level + 2) newpt va =
      resolve heap.mem (level + 2) pt va
  lengths : new.length = ((List.range count).flatMap
    (branch pgNent (nextpt heap.mem) (level + 1) pt)).length

section Loop

variable {last : Addr} {heap middle heap' : Heap}
variable {free rest rest' : List Addr} {allocated : Set Addr}
variable {new new' : List Addr} {level : Nat} {pt newpt : Addr}
variable {count : Nat}

theorem CopyLoop.start
    (first : Grown last heap middle free rest allocated [] [newpt])
    (cleared : ∀ address, Within newpt 4096 address →
      middle.mem address = 0) :
    CopyLoop last heap middle free rest allocated [] level pt newpt 0 where
  grown := first
  ahead := fun _ _ bound => getEnt_cleared bound cleared
  copies := List.Perm.refl []
  same := fun _ impossible => absurd impossible (Nat.not_lt_zero _)
  lengths := rfl

/-- One entry more, whatever was done for it. -/
theorem CopyLoop.step
    (state : CopyLoop last heap middle free rest allocated new level pt newpt
      count)
    (bound : count < pgNent)
    (grown : Grown last middle heap' rest rest'
      (allocated ∪ {frame | frame ∈ newpt :: new}) [newpt] new')
    (others : ∀ idx < pgNent, idx ≠ count →
      getEnt heap'.mem newpt idx = getEnt middle.mem newpt idx)
    (copies : (branch pgNent (nextpt heap'.mem) (level + 1) newpt
      count).Perm new')
    (same : ∀ va, levelIdx (level + 2) va = count →
      resolve heap'.mem (level + 2) newpt va =
        resolve heap.mem (level + 2) pt va)
    (length : new'.length =
      (branch pgNent (nextpt heap.mem) (level + 1) pt count).length) :
    CopyLoop last heap heap' free rest' allocated (new ++ new') level pt
      newpt (count + 1) := by
  have distinct : (newpt :: new).Nodup := by
    have all := state.grown.before.nodup
    rw [state.grown.split] at all
    exact all.of_append_left
  -- the tables below the entries already copied are not written any more
  have agree : ∀ idx < count, ∀ table ∈
      branch pgNent (nextpt middle.mem) (level + 1) newpt idx,
      ∀ address, Within table 4096 address →
        heap'.mem address = middle.mem address := by
    intro idx earlier table member address inside
    have isNew : table ∈ new := state.copies.mem_iff.mp
      (List.mem_flatMap.mpr ⟨idx, List.mem_range.mpr earlier, member⟩)
    refine grown.untouched (Or.inr (List.mem_cons_of_mem _ isNew)) ?_ inside
    rw [List.mem_singleton]
    rintro rfl
    exact (List.nodup_cons.mp distinct).1 isNew
  have sameBranch : ∀ idx ∈ List.range count,
      branch pgNent (nextpt heap'.mem) (level + 1) newpt idx =
        branch pgNent (nextpt middle.mem) (level + 1) newpt idx := by
    intro idx member
    have earlier := List.mem_range.mp member
    exact branch_congr
      (others idx (Nat.lt_trans earlier bound) (Nat.ne_of_lt earlier))
      (agree idx earlier)
  constructor
  · exact state.grown.trans grown fun table member =>
      Or.inr (by rw [List.mem_singleton.mp member]; exact List.mem_cons_self)
  · intro idx later inTable
    rw [others idx inTable (by omega)]
    exact state.ahead idx (by omega) inTable
  · rw [List.range_succ, List.flatMap_append, List.flatMap_singleton,
      List.flatMap_congr sameBranch]
    exact state.copies.append copies
  · intro va inRange
    rcases Nat.lt_succ_iff_lt_or_eq.mp inRange with earlier | current
    · rw [← state.same va earlier]
      exact (resolve_congr_branch
        (others _ (levelIdx_lt _ va) (Nat.ne_of_lt earlier))
        (agree _ earlier)).1
    · exact same va current
  · rw [List.range_succ, List.flatMap_append, List.flatMap_singleton,
      List.length_append, List.length_append, state.lengths, length]

theorem newpt_owned (allocated : Set Addr) (new : List Addr)
    {newpt : Addr} :
    ∀ table ∈ [newpt], table ∈ allocated ∪ {frame | frame ∈ newpt :: new} := by
  intro table member
  rw [List.mem_singleton.mp member]
  exact Or.inr List.mem_cons_self

variable (state : CopyLoop last heap middle free rest allocated new level pt
  newpt count)
variable (bound : count < pgNent)
include state bound

/-- An absent entry stays absent in the copy. -/
theorem CopyLoop.absent (isAbsent : getEnt heap.mem pt count &&& pfP = 0) :
    CopyLoop last heap middle free rest allocated (new ++ []) level pt newpt
      (count + 1) := by
  have zero := state.ahead count (Nat.le_refl count) bound
  have isAbsent' : getEnt middle.mem newpt count &&& pfP = 0 := by
    simp [zero]
  apply state.step bound
    (Grown.refl state.grown.invariant (newpt_owned allocated new))
  · exact fun _ _ _ => rfl
  · rw [branch_of_none (nextpt_of_absent isAbsent')]
  · rintro va rfl
    rw [resolve_of_absent isAbsent, resolve_of_absent isAbsent']
  · rw [branch_of_none (nextpt_of_absent isAbsent)]

/-- A huge page is mapped by the same entry in the copy. -/
theorem CopyLoop.huge (present : getEnt heap.mem pt count &&& pfP ≠ 0)
    (isHuge : getEnt heap.mem pt count &&& pfPS ≠ 0) :
    CopyLoop last heap
      { middle with
        mem := setEnt middle.mem newpt count (getEnt heap.mem pt count) }
      free rest allocated (new ++ []) level pt newpt (count + 1) := by
  have noNext : nextpt heap.mem pt count = none := by
    rw [nextpt, if_neg present, if_pos isHuge]
  have noNext' : nextpt
      (setEnt middle.mem newpt count (getEnt heap.mem pt count)) newpt
        count = none := by
    rw [nextpt, getEnt_setEnt_same, if_neg present, if_pos isHuge]
  apply state.step bound
    (Grown.write state.grown.invariant (newpt_owned allocated new)
      List.mem_cons_self _)
  · intro idx inTable different
    exact getEnt_setEnt_other _ _ _ bound inTable different
  · rw [branch_of_none noNext']
  · rintro va rfl
    simp only [resolve, noNext, noNext', getEnt_setEnt_same]
  · rw [branch_of_none noNext]
  · intro address outside
    exact setEnt_outside _ _ _ _ bound outside

/-- A table is copied first, then entered with the flags of the original. -/
theorem CopyLoop.table {next newnext : Addr} {copied : Heap}
    (leads : nextpt heap.mem pt count = some next)
    (below : Copied last middle copied rest rest'
      (allocated ∪ {frame | frame ∈ newpt :: new}) new' (level + 1) next
      newnext)
    (sameBelow : ∀ va, resolve middle.mem (level + 1) next va =
      resolve heap.mem (level + 1) next va)
    (sameTables : tables middle.mem (level + 1) next =
      tables heap.mem (level + 1) next) :
    CopyLoop last heap
      { copied with
        mem := setEnt copied.mem newpt count
          (v2p newnext ||| peFlags (getEnt heap.mem pt count)) }
      free rest' allocated (new ++ new') level pt newpt (count + 1) := by
  have owned := newpt_owned allocated new newpt List.mem_cons_self
  have rootNew : newnext ∈ new' :=
    below.copies.mem_iff.mp (root_mem level newnext)
  have newIsFrame : ∀ table ∈ new', IsFrame last table := fun table member =>
    below.grown.before.isFrame_of_free (below.grown.free_of_new member)
  have isAligned := v2p_aligned (newIsFrame newnext rootNew).1
  have flags := peFlags_or_flags isAligned (peFlags_lt (getEnt heap.mem pt count))
  have leads' := nextpt_setEnt_peFlags copied.mem newpt count leads isAligned
  -- writing the entry does not touch the tables just copied
  have agree : ∀ table ∈ tables copied.mem (level + 1) newnext,
      ∀ address, Within table 4096 address →
        setEnt copied.mem newpt count
            (v2p newnext ||| peFlags (getEnt heap.mem pt count)) address =
          copied.mem address := by
    intro table member address inside
    have isNew := below.copies.mem_iff.mp member
    apply setEnt_outside _ _ _ _ bound
    exact apart_of_frames (newIsFrame table isNew).1
      (below.grown.before.isFrame_of_allocated owned).1
      (by rintro rfl; exact below.grown.not_allocated_of_new isNew owned)
      address inside
  have written : Grown last copied
      { copied with
        mem := setEnt copied.mem newpt count
          (v2p newnext ||| peFlags (getEnt heap.mem pt count)) }
      rest' rest'
      (allocated ∪ {frame | frame ∈ newpt :: new} ∪ {frame | frame ∈ new'})
      [newpt] [] := by
    apply Grown.write below.grown.invariant
      (fun table member => Or.inl (newpt_owned allocated new table member))
      List.mem_cons_self
    intro address outside
    exact setEnt_outside _ _ _ _ bound outside
  have grown := (below.grown.mono
    (fun _ none => absurd none List.not_mem_nil)
    (newpt_owned allocated new)).trans written fun _ member => Or.inl member
  rw [List.append_nil] at grown
  apply state.step bound grown
  · intro idx inTable different
    refine (getEnt_setEnt_other _ _ _ bound inTable different).trans ?_
    exact getEnt_congr inTable fun _ inside =>
      below.grown.untouched owned List.not_mem_nil inside
  · rw [branch_of_some leads']
    exact (List.Perm.of_eq (tables_congr (level + 1) newnext agree)).trans
      below.copies
  · rintro va rfl
    rw [resolve_of_next leads', resolve_of_next leads, getEnt_setEnt_same,
      flags, (resolve_congr (level + 1) newnext va agree).1, below.same va,
      sameBelow va]
  · rw [branch_of_some leads, below.count, sameTables]
    rfl

end Loop

/-! ## All levels -/

/-- With a frame for each table, copying returns a copy. -/
def Copies (last : Addr) (level : Nat) : Prop :=
  ∀ {pt : Addr} {heap : Heap} {free : List Addr} {allocated : Set Addr},
    Invariant last heap free allocated →
    Tree heap.mem allocated level pt →
    (tables heap.mem level pt).length ≤ free.length →
    ∃ newpt heap' new rest,
      ptDeepcopyLevel level pt heap = .ok (newpt, heap') ∧
        Copied last heap heap' free rest allocated new level pt newpt

section Entries

variable {last : Addr} {heap middle : Heap} {free rest : List Addr}
variable {allocated : Set Addr} {new : List Addr} {level : Nat}
variable {pt newpt : Addr} {count : Nat}

/-- One round of the loop. -/
theorem deepcopyEntry_returns (copies : Copies last (level + 1))
    (tree : Tree heap.mem allocated (level + 2) pt)
    (state : CopyLoop last heap middle free rest allocated new level pt newpt
      count)
    (bound : count < pgNent)
    (enough : (branch pgNent (nextpt heap.mem) (level + 1) pt count).length ≤
      rest.length) :
    ∃ heap' new' rest',
      deepcopyEntry (ptDeepcopyLevel (level + 1)) pt newpt middle count =
          .ok heap' ∧
        CopyLoop last heap heap' free rest' allocated new' level pt newpt
          (count + 1) := by
  have pageKept : ∀ heap' rest' new',
      Grown last heap heap' free rest' allocated [] new' →
        getEnt heap'.mem pt count = getEnt heap.mem pt count := by
    intro heap' rest' new' grown
    exact getEnt_congr bound fun _ inside =>
      grown.untouched (tree.allocated pt (root_mem _ pt)) List.not_mem_nil
        inside
  have source := pageKept _ _ _ state.grown
  unfold deepcopyEntry
  rw [source]
  by_cases isAbsent : getEnt heap.mem pt count &&& pfP = 0
  · rw [if_pos isAbsent]
    exact ⟨middle, _, rest, rfl, state.absent bound isAbsent⟩
  by_cases isHuge : getEnt heap.mem pt count &&& pfPS ≠ 0
  · rw [if_neg isAbsent, if_pos isHuge]
    exact ⟨_, _, rest, rfl, state.huge bound isAbsent isHuge⟩
  · have leads : nextpt heap.mem pt count =
        some (p2v (peAddr (getEnt heap.mem pt count))) := by
      rw [nextpt, if_neg isAbsent, if_neg isHuge]
    rcases state.grown.other_tree (tree.child bound leads)
        (fun _ _ => List.not_mem_nil) with
      ⟨sameTables, childTree, sameBelow⟩
    rw [branch_of_some leads] at enough
    rcases copies state.grown.invariant childTree (by rwa [sameTables]) with
      ⟨newnext, copied, new', rest', success, below⟩
    have source' : getEnt copied.mem pt count = getEnt heap.mem pt count :=
      pageKept _ _ _ (state.grown.trans below.grown
        fun _ none => absurd none List.not_mem_nil)
    have empty : getEnt copied.mem newpt count &&& pfP = 0 := by
      have kept : getEnt copied.mem newpt count =
          getEnt middle.mem newpt count :=
        getEnt_congr bound fun _ inside =>
          below.grown.untouched
            (newpt_owned allocated new newpt List.mem_cons_self)
            List.not_mem_nil inside
      rw [kept, state.ahead count (Nat.le_refl count) bound]
      decide
    refine ⟨_, _, rest', ?_,
      state.table bound leads below sameBelow sameTables⟩
    rw [if_neg isAbsent, if_neg isHuge,
      safeNextptNoalloc_of_next ((nextpt_congr source).trans leads), ok_bind,
      success, ok_bind]
    dsimp only
    rw [source']
    exact safeSetent_of_absent _ empty

/-- The loop over the first `count` entries. -/
theorem copyLoop_returns (copies : Copies last (level + 1))
    (tree : Tree heap.mem allocated (level + 2) pt)
    (first : Grown last heap middle free rest allocated [] [newpt])
    (cleared : ∀ address, Within newpt 4096 address →
      middle.mem address = 0)
    (enough : (tables heap.mem (level + 2) pt).length ≤ free.length)
    (inTable : count ≤ pgNent) :
    ∃ heap' new' rest',
      (List.range count).foldlM
          (deepcopyEntry (ptDeepcopyLevel (level + 1)) pt newpt) middle =
          .ok heap' ∧
        CopyLoop last heap heap' free rest' allocated new' level pt newpt
          count := by
  induction count with
  | zero => exact ⟨middle, [], rest, rfl, CopyLoop.start first cleared⟩
  | succ count induction =>
      rcases induction (Nat.le_of_succ_le inTable) with
        ⟨heap', new', rest', success, state⟩
      have sofar : (((List.range (count + 1)).flatMap
          (branch pgNent (nextpt heap.mem) (level + 1) pt)).length + 1 ≤
            free.length) := by
        have part := ((List.range_sublist.mpr inTable).flatMap
          (branch pgNent (nextpt heap.mem) (level + 1) pt)).length_le
        rw [tables, nodes_succ, List.length_cons] at enough
        omega
      have room :
          (branch pgNent (nextpt heap.mem) (level + 1) pt count).length ≤
            rest'.length := by
        rw [List.range_succ, List.flatMap_append, List.flatMap_singleton,
          List.length_append, ← state.lengths, state.grown.split,
          List.length_append, List.length_cons] at sofar
        omega
      rcases deepcopyEntry_returns copies tree state inTable room with
        ⟨heap'', new'', rest'', entry, state'⟩
      refine ⟨heap'', new'', rest'', ?_, state'⟩
      rw [List.range_succ, List.foldlM_append, success, ok_bind,
        List.foldlM_cons, entry]
      rfl

end Entries

/-- The loop over all entries makes a copy. -/
theorem CopyLoop.copied {last : Addr} {heap heap' : Heap}
    {free rest : List Addr} {allocated : Set Addr} {new : List Addr}
    {level : Nat} {pt newpt : Addr}
    (state : CopyLoop last heap heap' free rest allocated new level pt newpt
      pgNent) :
    Copied last heap heap' free rest allocated (newpt :: new) (level + 2) pt
      newpt where
  grown := state.grown
  copies := List.Perm.cons newpt state.copies
  same := fun va => state.same va (levelIdx_lt _ va)
  count := by
    rw [tables, nodes_succ, List.length_cons, List.length_cons,
      state.lengths]

theorem ptDeepcopyLevel_copies (last : Addr) (level : Nat)
    (small : level + 1 ≤ 4) : Copies last (level + 1) := by
  induction level with
  | zero =>
      intro pt heap free allocated invariant tree enough
      exact ptDeepcopyLevel_last invariant
        (tree.allocated pt (root_mem 0 pt)) (by simpa [tables] using enough)
  | succ level induction =>
      intro pt heap free allocated invariant tree enough
      have atLeastOne : 1 ≤ free.length := by
        rw [tables, nodes_succ, List.length_cons] at enough
        omega
      rcases kalloc_grown invariant atLeastOne with
        ⟨newpt, middle, rest, taken, first, cleared⟩
      rcases copyLoop_returns (induction (by omega)) tree first cleared enough
          (Nat.le_refl pgNent) with
        ⟨heap', new, rest', loop, state⟩
      refine ⟨newpt, heap', newpt :: new, rest', ?_, state.copied⟩
      rw [ptDeepcopyLevel, assert_of_holds _ _ ⟨by omega, small⟩, ok_bind,
        taken, ok_bind]
      dsimp only
      rw [if_neg (by omega), loop]
      rfl

/-! ## Two address spaces -/

/-- Two root tables of one allocator that share no table. -/
structure Separate (last : Addr) (heap : Heap) (free : List Addr)
    (allocated : Set Addr) (left right : Addr) : Prop where
  wellFormedLeft : WellFormed last heap free allocated left
  wellFormedRight : WellFormed last heap free allocated right
  apart : ∀ table ∈ tables heap.mem 4 left, table ∉ tables heap.mem 4 right

theorem Separate.symm {last : Addr} {heap : Heap} {free : List Addr}
    {allocated : Set Addr} {left right : Addr}
    (separate : Separate last heap free allocated left right) :
    Separate last heap free allocated right left where
  wellFormedLeft := separate.wellFormedRight
  wellFormedRight := separate.wellFormedLeft
  apart := fun table inRight inLeft => separate.apart table inLeft inRight

/-- The original and its copy share no table. -/
theorem Copied.separate {last : Addr} {heap heap' : Heap}
    {free rest : List Addr} {allocated : Set Addr} {new : List Addr}
    {pt newpt : Addr} (wellFormed : WellFormed last heap free allocated pt)
    (copied : Copied last heap heap' free rest allocated new 4 pt newpt) :
    Separate last heap' rest (allocated ∪ {frame | frame ∈ new}) pt newpt ∧
      ∀ va, resolve heap'.mem 4 pt va = resolve heap.mem 4 pt va := by
  rcases copied.grown.other_tree wellFormed.tree
      (fun _ _ => List.not_mem_nil) with
    ⟨sameTables, tree, sameResolve⟩
  have newDistinct : new.Nodup := by
    have all := wellFormed.invariant.nodup
    rw [copied.grown.split] at all
    exact all.of_append_left
  refine ⟨⟨⟨wellFormed.inMemory, copied.grown.invariant, tree⟩,
    ⟨wellFormed.inMemory, copied.grown.invariant, ⟨?_, ?_⟩⟩, ?_⟩,
    sameResolve⟩
  · exact copied.copies.nodup_iff.mpr newDistinct
  · intro table member
    exact Or.inr (copied.copies.mem_iff.mp member)
  · intro table inOriginal inCopy
    rw [sameTables] at inOriginal
    exact copied.grown.not_allocated_of_new
      (copied.copies.mem_iff.mp inCopy)
      (wellFormed.tree.allocated table inOriginal)

/-- Mapping in one address space is not seen in the other. -/
theorem Separate.pagingMap {last : Addr} {heap heap' : Heap}
    {free : List Addr} {allocated : Set Addr} {left right : Addr}
    {va pa sz flags : BitVec 64}
    (separate : Separate last heap free allocated left right)
    (success : pagingMap left va pa sz flags heap = .ok heap') :
    ∃ free' allocated', Separate last heap' free' allocated' left right ∧
      ∀ va, resolve heap'.mem 4 right va = resolve heap.mem 4 right va := by
  rcases pagingMap_spec separate.wellFormedLeft.invariant
      separate.wellFormedLeft.tree success with
    ⟨new, rest, range⟩
  rcases range.grown.other_tree separate.wellFormedRight.tree
      (fun table inRight inLeft => separate.apart table inLeft inRight) with
    ⟨sameTables, tree, sameResolve⟩
  have tree' := range.grown.tree separate.wellFormedLeft.tree range.gains
  refine ⟨rest, _,
    ⟨⟨separate.wellFormedLeft.inMemory, range.grown.invariant, tree'⟩,
      ⟨separate.wellFormedLeft.inMemory, range.grown.invariant, tree⟩, ?_⟩,
    sameResolve⟩
  intro table inLeft inRight
  rw [sameTables] at inRight
  rcases List.mem_append.mp (range.gains.mem_iff.mp inLeft) with old | fresh
  · exact separate.apart table old inRight
  · exact range.grown.not_allocated_of_new fresh
      (separate.wellFormedRight.tree.allocated table inRight)

/-- The arguments of one call of `paging_map`. -/
structure MapCall where
  va : BitVec 64
  pa : BitVec 64
  sz : BitVec 64
  flags : BitVec 64

/-- A sequence of calls of `paging_map` on one root table. -/
def mapAll (pml4 : Addr) (calls : List MapCall) (heap : Heap) :
    Except Halt Heap :=
  calls.foldlM
    (fun heap call => pagingMap pml4 call.va call.pa call.sz call.flags heap)
    heap

theorem Separate.mapAll {last : Addr} {heap heap' : Heap}
    {free : List Addr} {allocated : Set Addr} {left right : Addr}
    (calls : List MapCall)
    (separate : Separate last heap free allocated left right)
    (success : mapAll left calls heap = .ok heap') :
    ∃ free' allocated', Separate last heap' free' allocated' left right ∧
      ∀ va, resolve heap'.mem 4 right va = resolve heap.mem 4 right va := by
  induction calls generalizing heap free allocated with
  | nil =>
      rcases Except.ok.inj success with rfl
      exact ⟨free, allocated, separate, fun _ => rfl⟩
  | cons call calls induction =>
      rw [PagingDeepcopy.mapAll, List.foldlM_cons, bind_eq_ok] at success
      rcases success with ⟨middle, first, later⟩
      rcases separate.pagingMap first with
        ⟨free', allocated', separate', sameFirst⟩
      rcases induction separate' later with
        ⟨free'', allocated'', separate'', sameLater⟩
      exact ⟨free'', allocated'', separate'', fun va =>
        (sameLater va).trans (sameFirst va)⟩

/-- What is mapped in one address space is not translated by the other. -/
theorem Separate.translate_mapAll {last : Addr} {heap heap' : Heap}
    {free : List Addr} {allocated : Set Addr} {left right : Addr}
    {calls : List MapCall}
    (separate : Separate last heap free allocated left right)
    (success : PagingDeepcopy.mapAll left calls heap = .ok heap')
    (va : BitVec 64) :
    translate heap'.mem 4 right va = translate heap.mem 4 right va := by
  rcases separate.mapAll calls success with ⟨_, _, separate', same⟩
  rw [separate.wellFormedRight.translate_eq,
    separate'.wellFormedRight.translate_eq, same va]

/--
`pt_root_deepcopy` returns a root that translates every address as the original
does.  It writes only to frames that were free, the tables of the copy among
them, and no later sequence of `paging_map` calls on one root changes a
translation of the other.
-/
theorem deepcopy_translates_alike_and_apart {last : Addr} {heap : Heap}
    {free : List Addr} {allocated : Set Addr} {pt : Addr}
    (wellFormed : WellFormed last heap free allocated pt)
    (enough : (tables heap.mem 4 pt).length ≤ heap.nfreepages.toNat) :
    ∃ newpt heap', ptRootDeepcopy pt heap = .ok (newpt, heap') ∧
      (∀ va, translate heap'.mem 4 newpt va = translate heap.mem 4 pt va) ∧
      (∀ table ∈ tables heap'.mem 4 newpt, table ∈ free) ∧
      (∀ address,
        (∀ table ∈ tables heap'.mem 4 newpt, ¬ Within table 4096 address) →
          heap'.mem address = heap.mem address) ∧
      (∀ table ∈ tables heap.mem 4 pt, ∀ address,
        Within table 4096 address → heap'.mem address = heap.mem address) ∧
      (∀ calls heap'', mapAll newpt calls heap' = .ok heap'' →
        ∀ va, translate heap''.mem 4 pt va = translate heap.mem 4 pt va) ∧
      ∀ calls heap'', mapAll pt calls heap' = .ok heap'' →
        ∀ va, translate heap''.mem 4 newpt va =
          translate heap'.mem 4 newpt va := by
  rw [wellFormed.toNat_nfreepages] at enough
  rcases ptDeepcopyLevel_copies last 3 (by decide) wellFormed.invariant
      wellFormed.tree enough with
    ⟨newpt, heap', new, rest, success, copied⟩
  rcases copied.separate wellFormed with ⟨separate, kept⟩
  refine ⟨newpt, heap', success, ?_, ?_, ?_, ?_, ?_, ?_⟩
  · intro va
    rw [separate.wellFormedRight.translate_eq, wellFormed.translate_eq,
      copied.same va]
  · intro table member
    exact copied.grown.free_of_new (copied.copies.mem_iff.mp member)
  · intro address outside
    apply copied.grown.kept address (fun _ none =>
      absurd none List.not_mem_nil)
    intro table member
    exact outside table (copied.copies.mem_iff.mpr member)
  · intro table member address inside
    exact copied.grown.untouched (wellFormed.tree.allocated table member)
      List.not_mem_nil inside
  · intro calls heap'' mapped va
    rw [separate.symm.translate_mapAll mapped,
      separate.wellFormedLeft.translate_eq, wellFormed.translate_eq, kept va]
  · intro calls heap'' mapped va
    exact separate.translate_mapAll mapped va

/-- The copy of a tree with one page, with twelve frames above the image. -/
theorem deepcopy_translates_alike_and_apart_page :
    ∃ pt heap newpt heap', ptRootDeepcopy pt heap = .ok (newpt, heap') ∧
      translate heap'.mem 4 newpt 0x400123 =
        some { target := 0x7123, flags := [7, 7, 7, 3] } := by
  rcases kallocinit_returns 0xFFFFFFFF80FF4000 (fun _ => 0) (by decide) with
    ⟨heap₀, initialised⟩
  rcases kallocinit_spec initialised with ⟨free, invariant, count⟩
  have twelve : free.length = 12 := by
    rw [count]
    decide
  rcases free with _ | ⟨pt, rest⟩
  · cases twelve
  rcases kalloc_succeeds invariant with ⟨heap₁, taken⟩
  rcases wellFormed_of_kalloc (by decide) invariant taken with
    ⟨rest', split, empty, cleared⟩
  have eleven : rest'.length = 11 := by
    rw [← (List.cons.inj split).2]
    exact Nat.succ.inj twelve
  have one : pageCount 0x1000 = 1 := by decide
  have few := @card_missingTables_le heap₁.mem pt 0x400000 1
    {[0], [0, 0], [0, 0, 2]} (by decide)
  have three : ({[0], [0, 0], [0, 0, 2]} : Finset (List Nat)).card = 3 := by
    decide
  rcases @pagingMap_succeeds _ pt 0x400000 0x7000 0x1000 pfW _ _ _
      (by decide) (by decide) (by decide) (by decide)
      empty.invariant empty.tree
      (fun _ _ => not_hugeOnPath_cleared 3 _ cleared)
      (by rw [one]; omega) with
    ⟨heap, mapped⟩
  rcases pagingMap_spec empty.invariant empty.tree mapped with
    ⟨new, rest'', range⟩
  have wellFormed : WellFormed _ heap rest'' _ pt :=
    ⟨by decide, range.grown.invariant,
      range.grown.tree empty.tree range.gains⟩
  have found : resolve heap.mem 4 pt 0x400123 =
      ([7, 7, 7], some 0x7003) := by
    have same : SamePage 4 0x400123 (pageAt 0x400000 0) := by
      rw [samePage_iff]
      decide
    rw [resolve_samePage _ _ same]
    refine Prod.ext ?_ (range.inside (by decide) 0 (by decide))
    rw [range.above, resolve_cleared 3 _ cleared]
    rfl
  have enough : (tables heap.mem 4 pt).length ≤ heap.nfreepages.toNat := by
    have lengths := congrArg List.length range.grown.split
    have taken' := range.taken
    rw [one] at taken'
    rw [List.length_append] at lengths
    rw [wellFormed.toNat_nfreepages, range.gains.length_eq,
      List.length_append, tables_cleared 3 cleared, List.length_singleton]
    omega
  rcases deepcopy_translates_alike_and_apart wellFormed enough with
    ⟨newpt, heap', success, alike, _⟩
  refine ⟨pt, heap, newpt, heap', success, ?_⟩
  rw [alike, wellFormed.translate_eq, found]
  decide

end Rt64.Kernel.PagingDeepcopy
