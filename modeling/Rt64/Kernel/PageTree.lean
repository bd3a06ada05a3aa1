import Rt64.Kernel.Paging
import Rt64.Lib.RadixTree

/-!
# Page tables as trees

The tables reachable from a root form a radix tree of depth four.  The tree is
well formed when its tables are different allocated frames; a table frame is
then reached by one path only, and a write to it is seen through that path
only.

`resolve` walks the tree for one address and collects the flags met on the way
and the entry at the end.  For a table that is missing it already lists the
flags that the mapping code will give to the new entry, so that allocating the
table does not change the result.
-/

namespace Rt64.Kernel.PageTree

open Rt64.Lib.ByteMemory
open Rt64.Lib.RadixTree
open Rt64.Include.Defs
open Rt64.Kernel.Kalloc
open Rt64.Kernel.Paging

/-! ## Entries as numbers -/

theorem toNat_peFlags (ent : BitVec 64) :
    (peFlags ent).toNat = ent.toNat % 4096 :=
  toNat_and_low ent 12 (by decide)

theorem peAddr_eq_shift (ent : BitVec 64) :
    peAddr ent = (ent >>> 12) <<< 12 := by
  apply BitVec.eq_of_getLsbD_eq
  intro bit bound
  have mask : ∀ place, place < 64 →
      (~~~ 0xFFF#64).getLsbD place = !decide (place < 12) := by
    decide
  rw [peAddr, BitVec.getLsbD_and, mask bit bound, BitVec.getLsbD_shiftLeft,
    BitVec.getLsbD_ushiftRight]
  by_cases low : bit < 12
  · simp [low]
  · have back : 12 + (bit - 12) = bit := by omega
    simp [low, bound, back]

theorem toNat_peAddr (ent : BitVec 64) :
    (peAddr ent).toNat = ent.toNat / 4096 * 4096 := by
  rw [peAddr_eq_shift, BitVec.toNat_shiftLeft, BitVec.toNat_ushiftRight,
    Nat.shiftLeft_eq, Nat.shiftRight_eq_div_pow]
  have range := ent.isLt
  omega

/-- An aligned address and twelve flag bits do not overlap. -/
theorem toNat_or_flags {address flags : BitVec 64}
    (isAligned : address.toNat % 4096 = 0) (small : flags.toNat < 4096) :
    (address ||| flags).toNat = address.toNat + flags.toNat := by
  rw [BitVec.toNat_or]
  have quotient : address.toNat = (address.toNat / 4096) <<< 12 := by
    rw [Nat.shiftLeft_eq]
    omega
  rw [quotient]
  exact (Nat.shiftLeft_add_eq_or_of_lt small _).symm

theorem peAddr_or_flags {address flags : BitVec 64}
    (isAligned : address.toNat % 4096 = 0) (small : flags.toNat < 4096) :
    peAddr (address ||| flags) = address := by
  apply BitVec.eq_of_toNat_eq
  rw [toNat_peAddr, toNat_or_flags isAligned small]
  omega

theorem peFlags_or_flags {address flags : BitVec 64}
    (isAligned : address.toNat % 4096 = 0) (small : flags.toNat < 4096) :
    peFlags (address ||| flags) = flags := by
  apply BitVec.eq_of_toNat_eq
  rw [toNat_peFlags, toNat_or_flags isAligned small]
  omega

/-- The tested bits are among the flags. -/
theorem and_pfP_eq (ent : BitVec 64) :
    ent &&& pfP = peFlags ent &&& pfP := by
  rw [peFlags, BitVec.and_assoc]
  rfl

theorem and_pfPS_eq (ent : BitVec 64) :
    ent &&& pfPS = peFlags ent &&& pfPS := by
  rw [peFlags, BitVec.and_assoc]
  rfl

/-- The flags given to every entry that refers to a new table. -/
abbrev tableFlags : BitVec 64 := pfW ||| pfP ||| pfU

theorem v2p_aligned {frame : Addr} (isAligned : frame.toNat % 4096 = 0) :
    (v2p frame).toNat % 4096 = 0 := by
  bv_omega

theorem p2v_v2p (frame : Addr) : p2v (v2p frame) = frame := by
  bv_omega

/-! ## Entries in memory -/

theorem within_entry {pt address : Addr} {idx : Nat} (bound : idx < pgNent)
    (inside : Within (entryAddr pt idx) 8 address) :
    Within pt 4096 address := by
  have small : idx < 512 := bound
  exact inside.of_offset (by omega) (by omega)

theorem getEnt_congr {left right : Memory} {pt : Addr} {idx : Nat}
    (bound : idx < pgNent)
    (agree : ∀ address, Within pt 4096 address →
      left address = right address) :
    getEnt left pt idx = getEnt right pt idx :=
  load64_congr _ fun address inside =>
    agree address (within_entry bound inside)

@[simp]
theorem getEnt_setEnt_same (mem : Memory) (pt : Addr) (idx : Nat)
    (ent : BitVec 64) :
    getEnt (setEnt mem pt idx ent) pt idx = ent :=
  load64_store64_same mem _ ent

theorem getEnt_setEnt_other (mem : Memory) (pt : Addr) {idx idx' : Nat}
    (ent : BitVec 64) (bound : idx < pgNent) (bound' : idx' < pgNent)
    (different : idx' ≠ idx) :
    getEnt (setEnt mem pt idx ent) pt idx' = getEnt mem pt idx' := by
  have small : idx < 512 := bound
  have small' : idx' < 512 := bound'
  apply load64_store64_apart
  rcases Nat.lt_or_gt_of_ne different with before | after
  · exact apart_of_offsets pt (by omega) (by omega)
  · exact (apart_of_offsets pt (by omega) (by omega)).symm

theorem setEnt_outside (mem : Memory) (pt address : Addr) {idx : Nat}
    (ent : BitVec 64) (bound : idx < pgNent)
    (outside : ¬ Within pt 4096 address) :
    setEnt mem pt idx ent address = mem address :=
  store64_outside _ _ _ _ fun inside => outside (within_entry bound inside)

/-- Every entry of a cleared table is zero. -/
theorem getEnt_cleared {mem : Memory} {pt : Addr} {idx : Nat}
    (bound : idx < pgNent)
    (cleared : ∀ address, Within pt 4096 address → mem address = 0) :
    getEnt mem pt idx = 0 :=
  load64_eq_zero _ _ fun address inside =>
    cleared address (within_entry bound inside)

/-! ## The tree below a table -/

/-- The next table that `pt[idx]` refers to, if it refers to one. -/
def nextpt (mem : Memory) (pt : Addr) (idx : Nat) : Option Addr :=
  if getEnt mem pt idx &&& pfP = 0 then none
  else if getEnt mem pt idx &&& pfPS ≠ 0 then none
  else some (p2v (peAddr (getEnt mem pt idx)))

/-- The tables below a table of the given level, itself included. -/
def tables (mem : Memory) (level : Nat) (pt : Addr) : List Addr :=
  nodes pgNent (nextpt mem) level pt

/-- The tables are different frames, all of them allocated. -/
structure Tree (mem : Memory) (allocated : Set Addr) (level : Nat)
    (pt : Addr) : Prop where
  distinct : (tables mem level pt).Nodup
  allocated : ∀ table ∈ tables mem level pt, table ∈ allocated

/-- The index into a table of the given level; level 4 is the root. -/
def levelIdx (level : Nat) (va : BitVec 64) : Nat :=
  ((va >>> (12 + 9 * (level - 1))) &&& 511).toNat

theorem levelIdx_eq (level : Nat) (va : BitVec 64) :
    levelIdx level va =
      va.toNat / 2 ^ (12 + 9 * (level - 1)) % 512 := by
  have low := toNat_and_low (va >>> (12 + 9 * (level - 1))) 9 (by decide)
  rw [BitVec.toNat_ushiftRight, Nat.shiftRight_eq_div_pow] at low
  exact low

theorem levelIdx_lt (level : Nat) (va : BitVec 64) :
    levelIdx level va < pgNent := by
  rw [levelIdx_eq]
  exact Nat.mod_lt _ (by decide)

theorem nextpt_congr {left right : Memory} {pt : Addr} {idx : Nat}
    (same : getEnt left pt idx = getEnt right pt idx) :
    nextpt left pt idx = nextpt right pt idx := by
  simp only [nextpt, same]

theorem nextpt_eq_some {mem : Memory} {pt next : Addr} {idx : Nat}
    (present : nextpt mem pt idx = some next) :
    getEnt mem pt idx &&& pfP ≠ 0 ∧ getEnt mem pt idx &&& pfPS = 0 ∧
      next = p2v (peAddr (getEnt mem pt idx)) := by
  unfold nextpt at present
  split at present
  · cases present
  · rename_i isPresent
    split at present
    · cases present
    · rename_i notHuge
      exact ⟨isPresent, not_not.mp notHuge, (Option.some.inj present).symm⟩

/-- The tables below `pt` depend only on the bytes of those tables. -/
theorem tables_congr {left right : Memory} (level : Nat) (pt : Addr)
    (agree : ∀ table ∈ tables right level pt,
      ∀ address, Within table 4096 address → left address = right address) :
    tables left level pt = tables right level pt := by
  apply nodes_congr
  intro table member idx bound
  exact nextpt_congr (getEnt_congr bound (agree table member))

/-- The same for the tables below one entry. -/
theorem branch_congr {left right : Memory} {level idx : Nat} {pt : Addr}
    (same : getEnt left pt idx = getEnt right pt idx)
    (agree : ∀ table ∈ branch pgNent (nextpt right) level pt idx,
      ∀ address, Within table 4096 address → left address = right address) :
    branch pgNent (nextpt left) level pt idx =
      branch pgNent (nextpt right) level pt idx := by
  cases present : nextpt right pt idx with
  | none =>
      rw [branch_of_none present,
        branch_of_none ((nextpt_congr same).trans present)]
  | some next =>
      rw [branch_of_some present] at agree
      rw [branch_of_some present,
        branch_of_some ((nextpt_congr same).trans present)]
      exact tables_congr level next agree

/-- A cleared table refers to no other table. -/
theorem tables_cleared {mem : Memory} {pt : Addr} (level : Nat)
    (cleared : ∀ address, Within pt 4096 address → mem address = 0) :
    tables mem (level + 1) pt = [pt] := by
  have empty : ∀ idx ∈ List.range pgNent,
      branch pgNent (nextpt mem) level pt idx = [] := by
    intro idx member
    apply branch_of_none
    simp [nextpt, getEnt_cleared (List.mem_range.mp member) cleared]
  rw [tables, nodes_succ, List.flatMap_eq_nil_iff.mpr empty]

theorem Tree.cleared {mem : Memory} {allocated : Set Addr} {pt : Addr}
    (level : Nat) (owned : pt ∈ allocated)
    (cleared : ∀ address, Within pt 4096 address → mem address = 0) :
    Tree mem allocated (level + 1) pt where
  distinct := by
    rw [tables_cleared level cleared]
    exact List.nodup_singleton pt
  allocated := by
    rw [tables_cleared level cleared]
    intro table member
    rwa [List.mem_singleton.mp member]

/-! ## Walking the tree -/

/--
The flags of the entries above the last one on the path of `va`, and the last
entry when it is present.
-/
def resolve (mem : Memory) :
    Nat → Addr → BitVec 64 → List (BitVec 64) × Option (BitVec 64)
  | 0, _, _ => ([], none)
  | 1, pt, va =>
      let ent := getEnt mem pt (levelIdx 1 va)
      ([], if ent &&& pfP = 0 then none else some ent)
  | level + 2, pt, va =>
      let ent := getEnt mem pt (levelIdx (level + 2) va)
      match nextpt mem pt (levelIdx (level + 2) va) with
      | some next =>
          let below := resolve mem (level + 1) next va
          (peFlags ent :: below.1, below.2)
      | none =>
          if ent &&& pfP = 0 then
            (List.replicate (level + 1) tableFlags, none)
          else
            ([], some ent)

/-- Some entry above the last level on the path of `va` is a huge page. -/
def HugeOnPath (mem : Memory) : Nat → Addr → BitVec 64 → Prop
  | 0, _, _ => False
  | 1, _, _ => False
  | level + 2, pt, va =>
      match nextpt mem pt (levelIdx (level + 2) va) with
      | some next => HugeOnPath mem (level + 1) next va
      | none => getEnt mem pt (levelIdx (level + 2) va) &&& pfP ≠ 0

/--
Where the tables for `va` below a table of the given level belong, each given
by the indices on its path.
-/
def pathsBelow : Nat → BitVec 64 → List (List Nat)
  | 0, _ => []
  | 1, _ => []
  | level + 2, va =>
      [levelIdx (level + 2) va] ::
        (pathsBelow (level + 1) va).map (levelIdx (level + 2) va :: ·)

/-- The paths of the tables for `va` that do not exist yet. -/
def missing (mem : Memory) : Nat → Addr → BitVec 64 → List (List Nat)
  | 0, _, _ => []
  | 1, _, _ => []
  | level + 2, pt, va =>
      match nextpt mem pt (levelIdx (level + 2) va) with
      | some next =>
          (missing mem (level + 1) next va).map (levelIdx (level + 2) va :: ·)
      | none =>
          if getEnt mem pt (levelIdx (level + 2) va) &&& pfP = 0 then
            pathsBelow (level + 2) va
          else
            []

section Next

variable {mem : Memory} {level : Nat} {pt next : Addr} {va : BitVec 64}

theorem resolve_of_next
    (present : nextpt mem pt (levelIdx (level + 2) va) = some next) :
    resolve mem (level + 2) pt va =
      (peFlags (getEnt mem pt (levelIdx (level + 2) va)) ::
          (resolve mem (level + 1) next va).1,
        (resolve mem (level + 1) next va).2) := by
  simp only [resolve, present]

theorem hugeOnPath_of_next
    (present : nextpt mem pt (levelIdx (level + 2) va) = some next) :
    HugeOnPath mem (level + 2) pt va ↔ HugeOnPath mem (level + 1) next va := by
  simp only [HugeOnPath, present]

theorem missing_of_next
    (present : nextpt mem pt (levelIdx (level + 2) va) = some next) :
    missing mem (level + 2) pt va =
      (missing mem (level + 1) next va).map
        (levelIdx (level + 2) va :: ·) := by
  simp only [missing, present]

end Next

section Absent

variable {mem : Memory} {level : Nat} {pt : Addr} {va : BitVec 64}

theorem nextpt_of_absent {idx : Nat}
    (absent : getEnt mem pt idx &&& pfP = 0) : nextpt mem pt idx = none := by
  simp only [nextpt, absent, if_true]

theorem resolve_of_absent
    (absent : getEnt mem pt (levelIdx (level + 2) va) &&& pfP = 0) :
    resolve mem (level + 2) pt va =
      (List.replicate (level + 1) tableFlags, none) := by
  simp only [resolve, nextpt_of_absent absent, absent, if_true]

theorem missing_of_absent
    (absent : getEnt mem pt (levelIdx (level + 2) va) &&& pfP = 0) :
    missing mem (level + 2) pt va = pathsBelow (level + 2) va := by
  simp only [missing, nextpt_of_absent absent, absent, if_true]

end Absent

/-- A cleared table resolves nothing, and all tables below it are missing. -/
theorem resolve_cleared {mem : Memory} {pt : Addr} (level : Nat)
    (va : BitVec 64)
    (cleared : ∀ address, Within pt 4096 address → mem address = 0) :
    resolve mem (level + 1) pt va =
      (List.replicate level tableFlags, none) := by
  have zero := getEnt_cleared (levelIdx_lt (level + 1) va) cleared
  cases level with
  | zero => simp [resolve, zero]
  | succ level => exact resolve_of_absent (by simp [zero])

theorem missing_cleared {mem : Memory} {pt : Addr} (level : Nat)
    (va : BitVec 64)
    (cleared : ∀ address, Within pt 4096 address → mem address = 0) :
    missing mem (level + 1) pt va = pathsBelow (level + 1) va := by
  have zero := getEnt_cleared (levelIdx_lt (level + 1) va) cleared
  cases level with
  | zero => rfl
  | succ level => exact missing_of_absent (by simp [zero])

theorem missing_subset_pathsBelow (mem : Memory) (level : Nat) (pt : Addr)
    (va : BitVec 64) : missing mem level pt va ⊆ pathsBelow level va := by
  induction level generalizing pt with
  | zero => exact List.Subset.refl _
  | succ level induction =>
      cases level with
      | zero => exact List.Subset.refl _
      | succ level =>
          unfold missing
          split
          · rename_i next _
            exact List.subset_cons_of_subset _
              (List.map_subset _ (induction next))
          · split
            · exact List.Subset.refl _
            · exact List.nil_subset _

/-- Every path starts with an index into the table it starts from. -/
theorem head_of_mem_pathsBelow {level : Nat} {va : BitVec 64}
    {path : List Nat} (member : path ∈ pathsBelow level va) :
    path.head? = some (levelIdx level va) := by
  match level with
  | 0 => cases member
  | 1 => cases member
  | level + 2 =>
      rcases List.mem_cons.mp member with rfl | longer
      · rfl
      · rcases List.mem_map.mp longer with ⟨tail, _, rfl⟩
        rfl

theorem ne_nil_of_mem_missing {mem : Memory} {level : Nat} {pt : Addr}
    {va : BitVec 64} {path : List Nat}
    (member : path ∈ missing mem level pt va) : path ≠ [] := by
  rintro rfl
  have head := head_of_mem_pathsBelow
    (missing_subset_pathsBelow mem level pt va member)
  cases head

/-- The results for `va` depend on one entry and on the results below it. -/
theorem resolve_of_same_entry {left right : Memory} {level : Nat} {pt : Addr}
    {va : BitVec 64}
    (same : getEnt left pt (levelIdx (level + 2) va) =
      getEnt right pt (levelIdx (level + 2) va))
    (below : ∀ next, nextpt right pt (levelIdx (level + 2) va) = some next →
      resolve left (level + 1) next va = resolve right (level + 1) next va ∧
        missing left (level + 1) next va =
          missing right (level + 1) next va) :
    resolve left (level + 2) pt va = resolve right (level + 2) pt va ∧
      missing left (level + 2) pt va = missing right (level + 2) pt va := by
  have sameNext := nextpt_congr same
  cases present : nextpt right pt (levelIdx (level + 2) va) with
  | none =>
      rw [present] at sameNext
      simp only [resolve, missing, present, sameNext, same, and_self]
  | some next =>
      rw [present] at sameNext
      rcases below next present with ⟨sameResolve, sameMissing⟩
      rw [resolve_of_next present, resolve_of_next sameNext,
        missing_of_next present, missing_of_next sameNext,
        same, sameResolve, sameMissing]
      exact ⟨rfl, rfl⟩

/-- So they depend only on the bytes of the tables. -/
theorem resolve_congr {left right : Memory} (level : Nat) (pt : Addr)
    (va : BitVec 64)
    (agree : ∀ table ∈ tables right level pt,
      ∀ address, Within table 4096 address → left address = right address) :
    resolve left level pt va = resolve right level pt va ∧
      missing left level pt va = missing right level pt va := by
  induction level generalizing pt with
  | zero => exact ⟨rfl, rfl⟩
  | succ level induction =>
      have same : getEnt left pt (levelIdx (level + 1) va) =
          getEnt right pt (levelIdx (level + 1) va) :=
        getEnt_congr (levelIdx_lt _ va) (agree pt (root_mem level pt))
      cases level with
      | zero =>
          refine ⟨?_, rfl⟩
          simp only [resolve, same]
      | succ level =>
          apply resolve_of_same_entry same
          intro next present
          apply induction next
          intro table member
          exact agree table (child_subset (levelIdx_lt _ va) present member)

theorem resolve_congr_branch {left right : Memory} {level : Nat} {pt : Addr}
    {va : BitVec 64}
    (same : getEnt left pt (levelIdx (level + 2) va) =
      getEnt right pt (levelIdx (level + 2) va))
    (agree : ∀ table ∈ branch pgNent (nextpt right) (level + 1) pt
        (levelIdx (level + 2) va),
      ∀ address, Within table 4096 address → left address = right address) :
    resolve left (level + 2) pt va = resolve right (level + 2) pt va ∧
      missing left (level + 2) pt va = missing right (level + 2) pt va := by
  apply resolve_of_same_entry same
  intro next present
  rw [branch_of_some present] at agree
  exact resolve_congr (level + 1) next va agree

/-- A path without a huge page has one flag word for each level above. -/
theorem hugeOnPath_iff (mem : Memory) (level : Nat) (pt : Addr)
    (va : BitVec 64) :
    HugeOnPath mem (level + 1) pt va ↔
      (resolve mem (level + 1) pt va).1.length ≠ level := by
  induction level generalizing pt with
  | zero => simp [HugeOnPath, resolve]
  | succ level induction =>
      cases present : nextpt mem pt (levelIdx (level + 2) va) with
      | none =>
          by_cases absent :
              getEnt mem pt (levelIdx (level + 2) va) &&& pfP = 0
          · rw [resolve_of_absent absent, List.length_replicate]
            simp only [HugeOnPath, present]
            exact iff_of_false (not_not.mpr absent) (not_not.mpr rfl)
          · simp only [HugeOnPath, resolve, present, if_neg absent]
            exact iff_of_true absent (Nat.zero_ne_add_one level)
      | some next =>
          rw [hugeOnPath_of_next present, resolve_of_next present,
            induction next]
          simp

theorem not_hugeOnPath_cleared {mem : Memory} {pt : Addr} (level : Nat)
    (va : BitVec 64)
    (cleared : ∀ address, Within pt 4096 address → mem address = 0) :
    ¬ HugeOnPath mem (level + 1) pt va := by
  rw [hugeOnPath_iff, resolve_cleared level va cleared, not_not]
  exact List.length_replicate

/-! ## Translation -/

/--
What the processor finds for an address: the physical address behind it and
the flags of the entries on the way, from the root down.
-/
structure Translation where
  target : Nat
  flags : List (BitVec 64)
deriving DecidableEq

/-- The physical address in an entry, for a block of `2 ^ bits` bytes. -/
def frameOf (ent : BitVec 64) (bits : Nat) : Nat :=
  ent.toNat % 2 ^ 52 / 2 ^ bits * 2 ^ bits

/--
The table walk of the processor, from a table of the given level.  The huge-page
bit is honoured at levels two and three and reserved at level four.
-/
def translate (mem : Memory) : Nat → Addr → BitVec 64 → Option Translation
  | 0, _, _ => none
  | level + 1, pt, va =>
      let ent := getEnt mem pt (levelIdx (level + 1) va)
      let bits := 12 + 9 * level
      if ent &&& pfP = 0 then none
      else if level = 0 ∨ ent &&& pfPS ≠ 0 then
        if level < 3 then
          some
            { target := frameOf ent bits + va.toNat % 2 ^ bits
              flags := [peFlags ent] }
        else none
      else
        (translate mem level (p2v (BitVec.ofNat 64 (frameOf ent 12))) va).map
          fun below => { below with flags := peFlags ent :: below.flags }

/-- The translation that a result of `resolve` stands for. -/
def translationOf (level : Nat) (va : BitVec 64)
    (found : List (BitVec 64) × Option (BitVec 64)) : Option Translation :=
  match found.2 with
  | none => none
  | some ent =>
      let below := level - 1 - found.1.length
      let bits := 12 + 9 * below
      if below < 3 then
        some
          { target := frameOf ent bits + va.toNat % 2 ^ bits
            flags := found.1 ++ [peFlags ent] }
      else none

/-- Processor and kernel agree on the address of a table in memory. -/
theorem frameOf_eq_peAddr {ent : BitVec 64}
    (small : (peAddr ent).toNat < 2 ^ 52) :
    BitVec.ofNat 64 (frameOf ent 12) = peAddr ent := by
  apply BitVec.eq_of_toNat_eq
  rw [toNat_peAddr] at small ⊢
  rw [BitVec.toNat_ofNat, frameOf]
  omega

theorem translationOf_cons (level : Nat) (va flag : BitVec 64)
    (found : List (BitVec 64) × Option (BitVec 64)) :
    translationOf (level + 2) va (flag :: found.1, found.2) =
      (translationOf (level + 1) va found).map
        fun below => { below with flags := flag :: below.flags } := by
  rcases found with ⟨flags, _ | ent⟩
  · rfl
  · have sameLevel : level + 2 - 1 - (flag :: flags).length =
        level + 1 - 1 - flags.length := by
      rw [List.length_cons]
      omega
    simp only [translationOf, sameLevel]
    split
    · rfl
    · rfl

/-- The processor translates what the tree resolves. -/
theorem translate_eq {mem : Memory} (level : Nat) {pt : Addr}
    (va : BitVec 64)
    (inMemory : ∀ table ∈ tables mem (level + 1) pt,
      (v2p table).toNat < 2 ^ 52) :
    translate mem (level + 1) pt va =
      translationOf (level + 1) va (resolve mem (level + 1) pt va) := by
  induction level generalizing pt with
  | zero =>
      rw [translate]
      by_cases absent : getEnt mem pt (levelIdx 1 va) &&& pfP = 0
      · simp only [resolve, if_pos absent, translationOf]
      · simp only [resolve, if_neg absent, translationOf]
        rfl
  | succ level induction =>
      rw [translate]
      by_cases absent : getEnt mem pt (levelIdx (level + 2) va) &&& pfP = 0
      · rw [if_pos absent, resolve_of_absent absent]
        rfl
      by_cases huge : getEnt mem pt (levelIdx (level + 2) va) &&& pfPS ≠ 0
      · have none : nextpt mem pt (levelIdx (level + 2) va) = none := by
          rw [nextpt, if_neg absent, if_pos huge]
        rw [if_neg absent, if_pos (Or.inr huge)]
        simp only [resolve, none, if_neg absent, translationOf]
        rfl
      · have leads : nextpt mem pt (levelIdx (level + 2) va) =
            some (p2v (peAddr (getEnt mem pt (levelIdx (level + 2) va)))) := by
          rw [nextpt, if_neg absent, if_neg huge]
        have member : ∀ table ∈ tables mem (level + 1)
            (p2v (peAddr (getEnt mem pt (levelIdx (level + 2) va)))),
            table ∈ tables mem (level + 2) pt := fun table below =>
          child_subset (levelIdx_lt _ va) leads below
        have small := inMemory _ (member _ (root_mem level _))
        have physical : v2p (p2v (peAddr
            (getEnt mem pt (levelIdx (level + 2) va)))) =
              peAddr (getEnt mem pt (levelIdx (level + 2) va)) := by
          bv_omega
        rw [physical] at small
        rw [if_neg absent, if_neg (by simpa using huge),
          frameOf_eq_peAddr small,
          induction fun table below => inMemory table (member table below),
          resolve_of_next leads, translationOf_cons]

/-! ## Growth -/

/--
The step from `heap` to `heap'` takes the frames `new` off the free list and
writes only to them and to the tables `touched`.
-/
structure Grown (last : Addr) (heap heap' : Heap) (free rest : List Addr)
    (allocated : Set Addr) (touched new : List Addr) : Prop where
  before : Invariant last heap free allocated
  split : free = new ++ rest
  invariant : Invariant last heap' rest (allocated ∪ {frame | frame ∈ new})
  owned : ∀ table ∈ touched, table ∈ allocated
  kept : ∀ address, (∀ table ∈ touched, ¬ Within table 4096 address) →
    (∀ table ∈ new, ¬ Within table 4096 address) →
    heap'.mem address = heap.mem address

namespace Grown

variable {last : Addr} {heap heap' heap'' : Heap}
variable {free rest rest' : List Addr} {allocated : Set Addr}
variable {touched touched' new new' : List Addr}

theorem refl (invariant : Invariant last heap free allocated)
    (owned : ∀ table ∈ touched, table ∈ allocated) :
    Grown last heap heap free free allocated touched [] where
  before := invariant
  split := rfl
  invariant := by simpa using invariant
  owned := owned
  kept := fun _ _ _ => rfl

/-- One allocation. -/
theorem alloc {frame : Addr}
    (invariant : Invariant last heap free allocated)
    (owned : ∀ table ∈ touched, table ∈ allocated)
    (success : kalloc heap = .ok (frame, heap')) :
    ∃ rest, Grown last heap heap' free rest allocated touched [frame] ∧
      ∀ address, Within frame 4096 address → heap'.mem address = 0 := by
  rcases kalloc_spec invariant success with ⟨rest, split, after, effect⟩
  have frames : allocated ∪ {other | other ∈ [frame]} =
      insert frame allocated := by
    ext other
    simp [or_comm]
  refine ⟨rest, ⟨invariant, split, ?_, owned, ?_⟩, effect.cleared⟩
  · rwa [frames]
  · intro address _ outside
    exact effect.kept address (outside frame List.mem_cons_self)

/-- A write to one of the tables. -/
theorem write {table : Addr} {mem : Memory}
    (invariant : Invariant last heap free allocated)
    (owned : ∀ table ∈ touched, table ∈ allocated)
    (member : table ∈ touched)
    (agree : ∀ address, ¬ Within table 4096 address →
      mem address = heap.mem address) :
    Grown last heap { heap with mem } free free allocated touched [] where
  before := invariant
  split := rfl
  invariant := by
    simpa using invariant.of_write (owned table member) agree
  owned := owned
  kept := fun address outside _ => agree address (outside table member)

theorem trans
    (first : Grown last heap heap' free rest allocated touched new)
    (second : Grown last heap' heap'' rest rest'
      (allocated ∪ {frame | frame ∈ new}) touched' new')
    (within : ∀ table ∈ touched', table ∈ touched ∨ table ∈ new) :
    Grown last heap heap'' free rest' allocated touched (new ++ new') where
  before := first.before
  split := by rw [first.split, second.split, List.append_assoc]
  invariant := by
    have frames : allocated ∪ {frame | frame ∈ new ++ new'} =
        allocated ∪ {frame | frame ∈ new} ∪ {frame | frame ∈ new'} := by
      ext frame
      simp [or_assoc]
    rw [frames]
    exact second.invariant
  owned := first.owned
  kept := by
    intro address outside outsideNew
    have outsideFirst : ∀ table ∈ new, ¬ Within table 4096 address :=
      fun table member => outsideNew table (List.mem_append_left _ member)
    rw [second.kept address, first.kept address outside outsideFirst]
    · intro table member
      rcases within table member with old | fresh
      · exact outside table old
      · exact outsideFirst table fresh
    · intro table member
      exact outsideNew table (List.mem_append_right _ member)

theorem mono (grown : Grown last heap heap' free rest allocated touched new)
    (more : ∀ table ∈ touched, table ∈ touched')
    (owned : ∀ table ∈ touched', table ∈ allocated) :
    Grown last heap heap' free rest allocated touched' new where
  before := grown.before
  split := grown.split
  invariant := grown.invariant
  owned := owned
  kept := fun address outside outsideNew =>
    grown.kept address (fun table member => outside table (more table member))
      outsideNew

variable (grown : Grown last heap heap' free rest allocated touched new)
include grown

theorem free_of_new {frame : Addr} (member : frame ∈ new) : frame ∈ free := by
  rw [grown.split]
  exact List.mem_append_left _ member

theorem not_allocated_of_new {frame : Addr} (member : frame ∈ new) :
    frame ∉ allocated :=
  grown.before.disjoint frame (grown.free_of_new member)

/-- Allocated frames other than the touched tables keep their bytes. -/
theorem untouched {table : Addr} (isAllocated : table ∈ allocated)
    (other : table ∉ touched) {address : Addr}
    (inside : Within table 4096 address) :
    heap'.mem address = heap.mem address := by
  have isFrame := grown.before.isFrame_of_allocated isAllocated
  apply grown.kept
  · intro touchedTable member inTouched
    have isFrame' :=
      grown.before.isFrame_of_allocated (grown.owned touchedTable member)
    exact apart_of_frames isFrame.1 isFrame'.1
      (by rintro rfl; exact other member) address inside inTouched
  · intro frame member inNew
    have isFrame' :=
      grown.before.isFrame_of_free (grown.free_of_new member)
    exact apart_of_frames isFrame.1 isFrame'.1
      (by rintro rfl; exact grown.not_allocated_of_new member isAllocated)
      address inside inNew

/-- A tree that gains exactly the new frames stays a tree. -/
theorem tree {level : Nat} {pt : Addr}
    (tree : Tree heap.mem allocated level pt)
    (gains : (tables heap'.mem level pt).Perm
      (tables heap.mem level pt ++ new)) :
    Tree heap'.mem (allocated ∪ {frame | frame ∈ new}) level pt where
  distinct := by
    have newDistinct : new.Nodup := by
      have all := grown.before.nodup
      rw [grown.split] at all
      exact all.of_append_left
    rw [gains.nodup_iff]
    apply tree.distinct.append newDistinct
    intro table member fresh
    exact grown.not_allocated_of_new fresh (tree.allocated table member)
  allocated := by
    intro table member
    rcases List.mem_append.mp (gains.mem_iff.mp member) with old | fresh
    · exact Or.inl (tree.allocated table old)
    · exact Or.inr fresh

/-- A tree that shares no table with the touched ones stays as it is. -/
theorem other_tree {level : Nat} {pt : Addr}
    (tree : Tree heap.mem allocated level pt)
    (apart : ∀ table ∈ tables heap.mem level pt, table ∉ touched) :
    tables heap'.mem level pt = tables heap.mem level pt ∧
      Tree heap'.mem (allocated ∪ {frame | frame ∈ new}) level pt ∧
      ∀ va, resolve heap'.mem level pt va = resolve heap.mem level pt va := by
  have agree : ∀ table ∈ tables heap.mem level pt,
      ∀ address, Within table 4096 address →
        heap'.mem address = heap.mem address := by
    intro table member address inside
    exact grown.untouched (tree.allocated table member) (apart table member)
      inside
  have same := tables_congr level pt agree
  refine ⟨same, ⟨?_, ?_⟩, fun va => (resolve_congr level pt va agree).1⟩
  · rw [same]
    exact tree.distinct
  · intro table member
    rw [same] at member
    exact Or.inl (tree.allocated table member)

end Grown

/-! ## Growth below one entry -/

section Below

variable {last : Addr} {heap heap' : Heap} {free rest : List Addr}
variable {allocated : Set Addr} {new : List Addr}
variable {level idx : Nat} {pt next : Addr}
variable (tree : Tree heap.mem allocated (level + 2) pt)
variable (bound : idx < pgNent)
variable (present : nextpt heap.mem pt idx = some next)
include tree bound present

theorem Tree.child : Tree heap.mem allocated (level + 1) next where
  distinct := by
    have below := branch_nodup tree.distinct bound
    rwa [branch_of_some present] at below
  allocated := fun table member =>
    tree.allocated table (child_subset bound present member)

variable (grown : Grown last heap heap' free rest allocated
  (tables heap.mem (level + 1) next) new)
include grown

/-- Growth below one entry of a table leaves the table itself alone. -/
theorem getEnt_of_grown_child {idx' : Nat} (bound' : idx' < pgNent) :
    getEnt heap'.mem pt idx' = getEnt heap.mem pt idx' := by
  have notBelow := root_not_mem_branch tree.distinct bound
  rw [branch_of_some present] at notBelow
  exact getEnt_congr bound' fun address inside =>
    grown.untouched (tree.allocated pt (root_mem _ pt)) notBelow inside

/-- It also leaves the tables below the other entries alone. -/
theorem agree_of_grown_child {idx' : Nat} (bound' : idx' < pgNent)
    (different : idx' ≠ idx) {table : Addr}
    (member : table ∈ branch pgNent (nextpt heap.mem) (level + 1) pt idx')
    {address : Addr} (inside : Within table 4096 address) :
    heap'.mem address = heap.mem address := by
  have apart := branch_disjoint tree.distinct bound' bound different
  rw [branch_of_some present] at apart
  exact grown.untouched (tree.allocated table (branch_subset bound' member))
    (apart member) inside

/-- The tree gains what its subtree gains. -/
theorem gains_of_grown_child
    (gains : (tables heap'.mem (level + 1) next).Perm
      (tables heap.mem (level + 1) next ++ new)) :
    (tables heap'.mem (level + 2) pt).Perm
      (tables heap.mem (level + 2) pt ++ new) := by
  apply nodes_grow bound
  · intro idx' bound' different
    apply branch_congr
      (getEnt_of_grown_child tree bound present grown bound')
    intro table member address inside
    exact agree_of_grown_child tree bound present grown bound' different
      member inside
  · have present' : nextpt heap'.mem pt idx = some next :=
      (nextpt_congr (getEnt_of_grown_child tree bound present grown
        bound)).trans present
    rwa [branch_of_some present, branch_of_some present']

/-- Addresses that take another entry resolve as before. -/
theorem resolve_of_grown_child {va : BitVec 64}
    (different : levelIdx (level + 2) va ≠ idx) :
    resolve heap'.mem (level + 2) pt va =
        resolve heap.mem (level + 2) pt va ∧
      missing heap'.mem (level + 2) pt va =
        missing heap.mem (level + 2) pt va := by
  have bound' := levelIdx_lt (level + 2) va
  apply resolve_congr_branch
    (getEnt_of_grown_child tree bound present grown bound')
  intro table member address inside
  exact agree_of_grown_child tree bound present grown bound' different
    member inside

end Below

end Rt64.Kernel.PageTree
