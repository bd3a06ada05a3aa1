import Rt64.Klib.String

/-!
# Bounded string copies

`strncpy` and `safestrcpy` with the addresses that they read and write, and
`strlen`.  The counter is an `int` that the loops decrement in their conditions,
also where it is not positive any more.  The two copying loops differ only in
the place of the decrement, and come to the bulk copy of the characters up to the
limit or the terminator, whichever is first.
-/

namespace Rt64.Klib.StringCopy

open Rt64.Lib.ByteMemory
open Rt64.Include.Defs
open Rt64.Klib.String

/-- What a loop leaves: the memory, the place in the target, the counter, and
the addresses it has read and written, in this order. -/
structure Progress where
  memory : Memory
  s : Addr
  n : BitVec 32
  reads : List Addr
  writes : List Addr

/-- The same after some earlier accesses. -/
def Progress.after (progress : Progress) (reads writes : List Addr) :
    Progress :=
  { progress with
    reads := reads ++ progress.reads
    writes := writes ++ progress.writes }

/-- The loop `while (n-- > 0 && (*s++ = *t++) != 0)`. -/
def strncpyCopy (memory : Memory) (s t : Addr) (n : BitVec 32) :
    Nat → Progress
  | 0 => ⟨memory, s, n, [], []⟩
  | rounds + 1 =>
      if 0 < n.toInt then
        let byte := memory t
        let memory := Function.update memory s byte
        if byte ≠ 0 then
          (strncpyCopy memory (s + 1#64) (t + 1#64) (n - 1#32) rounds).after
            [t] [s]
        else
          ⟨memory, s + 1#64, n - 1#32, [t], [s]⟩
      else
        ⟨memory, s, n - 1#32, [], []⟩

/-- The loop `while (n-- > 0) *s++ = 0`. -/
def strncpyPad (memory : Memory) (s : Addr) (n : BitVec 32) : Nat → Progress
  | 0 => ⟨memory, s, n, [], []⟩
  | rounds + 1 =>
      if 0 < n.toInt then
        (strncpyPad (Function.update memory s 0) (s + 1#64) (n - 1#32)
          rounds).after [] [s]
      else
        ⟨memory, s, n - 1#32, [], []⟩

/-- `strncpy`.  No `int` lets a loop run for more rounds. -/
def strncpy (memory : Memory) (s t : Addr) (n : BitVec 32) : Progress :=
  let copied := strncpyCopy memory s t n (2 ^ 31)
  (strncpyPad copied.memory copied.s copied.n (2 ^ 31)).after
    copied.reads copied.writes

/-- The loop `while (--n > 0 && (*s++ = *t++) != 0)`. -/
def safestrcpyCopy (memory : Memory) (s t : Addr) (n : BitVec 32) :
    Nat → Progress
  | 0 => ⟨memory, s, n, [], []⟩
  | rounds + 1 =>
      let n := n - 1#32
      if 0 < n.toInt then
        let byte := memory t
        let memory := Function.update memory s byte
        if byte ≠ 0 then
          (safestrcpyCopy memory (s + 1#64) (t + 1#64) n rounds).after [t] [s]
        else
          ⟨memory, s + 1#64, n, [t], [s]⟩
      else
        ⟨memory, s, n, [], []⟩

/-- `safestrcpy` with its accesses. -/
def safestrcpyTraced (memory : Memory) (s t : Addr) (n : BitVec 32) :
    Progress :=
  if n.toInt ≤ 0 then
    ⟨memory, s, n, [], []⟩
  else
    let copied := safestrcpyCopy memory s t n (2 ^ 31)
    { copied with
      memory := Function.update copied.memory copied.s 0
      writes := copied.writes ++ [copied.s] }

/-- The loop `for (n = 0; s[n]; n++)`, from the given index on. -/
def strlenLoop (memory : Memory) (s : Addr) (n : BitVec 32) :
    Nat → Except Halt (BitVec 32)
  | 0 => .error .fuel
  | rounds + 1 =>
      if memory (s + n.signExtend 64) ≠ 0 then
        strlenLoop memory s (n + 1#32) rounds
      else
        .ok n

def strlen (memory : Memory) (s : Addr) (rounds : Nat) :
    Except Halt (BitVec 32) :=
  strlenLoop memory s 0 rounds

/-! ## Counters and addresses -/

/-- The addresses of a region, upwards. -/
def offsets (base : Addr) (size : Nat) : List Addr :=
  (List.range size).map fun i => base + BitVec.ofNat 64 i

theorem add_offset_succ (base : Addr) (i : Nat) :
    base + BitVec.ofNat 64 (i + 1) = base + 1#64 + BitVec.ofNat 64 i := by
  bv_omega

theorem offsets_succ (base : Addr) (size : Nat) :
    offsets base (size + 1) = base :: offsets (base + 1#64) size := by
  simp only [offsets, List.range_succ_eq_map, List.map_cons, List.map_map]
  congr 1
  · exact BitVec.add_zero base
  · apply List.map_congr_left
    intro i _
    exact add_offset_succ base i

theorem offsets_add (base : Addr) (first second : Nat) :
    offsets base (first + second) =
      offsets base first ++
        offsets (base + BitVec.ofNat 64 first) second := by
  simp only [offsets, List.range_add, List.map_append, List.map_map]
  congr 1
  apply List.map_congr_left
  intro i _
  dsimp only [Function.comp]
  bv_omega

theorem within_of_mem_offsets {base address : Addr} {size : Nat}
    (member : address ∈ offsets base size) (small : size ≤ 2 ^ 64) :
    Within base size address := by
  rcases List.mem_map.mp member with ⟨i, bound, rfl⟩
  exact within_offset base (List.mem_range.mp bound) small

/-- Decrementing a counter that has not reached the least `int`. -/
theorem toInt_pred {n : BitVec 32} (number : -2 ^ 31 < n.toInt) :
    (n - 1#32).toInt = n.toInt - 1 := by
  rw [BitVec.toInt_eq_toNat_cond] at number
  rw [BitVec.toInt_eq_toNat_cond, BitVec.toInt_eq_toNat_cond,
    BitVec.toNat_sub]
  have bound := n.isLt
  simp only [BitVec.toNat_ofNat]
  omega

/-! ## The length of a string -/

/-- The number of characters before the first NUL, of the first `limit`. -/
def lengthUpTo (memory : Memory) (t : Addr) : Nat → Nat
  | 0 => 0
  | limit + 1 =>
      if memory t = 0 then 0 else lengthUpTo memory (t + 1#64) limit + 1

theorem lengthUpTo_le (memory : Memory) (t : Addr) (limit : Nat) :
    lengthUpTo memory t limit ≤ limit := by
  induction limit generalizing t with
  | zero => exact le_rfl
  | succ limit induction =>
      rw [lengthUpTo]
      split
      · exact Nat.zero_le _
      · exact Nat.succ_le_succ (induction _)

/-- A smaller limit cuts the string short. -/
theorem lengthUpTo_min (memory : Memory) (t : Addr) {small large : Nat}
    (ordered : small ≤ large) :
    lengthUpTo memory t small = min (lengthUpTo memory t large) small := by
  induction small generalizing t large with
  | zero => exact (Nat.min_zero _).symm
  | succ small induction =>
      obtain ⟨large, rfl⟩ : ∃ rest, large = rest + 1 :=
        ⟨large - 1, by omega⟩
      rw [lengthUpTo, lengthUpTo]
      split
      · exact (Nat.zero_min _).symm
      · rw [induction _ (Nat.le_of_succ_le_succ ordered),
          Nat.add_min_add_right]

theorem lengthUpTo_character (memory : Memory) (t : Addr) {limit i : Nat}
    (before : i < lengthUpTo memory t limit) :
    memory (t + BitVec.ofNat 64 i) ≠ 0 := by
  induction limit generalizing t i with
  | zero => exact absurd before (Nat.not_lt_zero _)
  | succ limit induction =>
      rw [lengthUpTo] at before
      split at before
      · exact absurd before (Nat.not_lt_zero _)
      · rename_i character
        cases i with
        | zero => simpa using character
        | succ i =>
            rw [add_offset_succ]
            exact induction _ (Nat.lt_of_succ_lt_succ before)

/-- The string ends at its length, if that is below the limit. -/
theorem lengthUpTo_end (memory : Memory) (t : Addr) {limit : Nat}
    (ends : lengthUpTo memory t limit < limit) :
    memory (t + BitVec.ofNat 64 (lengthUpTo memory t limit)) = 0 := by
  induction limit generalizing t with
  | zero => exact absurd ends (Nat.not_lt_zero _)
  | succ limit induction =>
      rw [lengthUpTo] at ends ⊢
      split at ends
      · rename_i nul
        rw [if_pos nul]
        simpa using nul
      · rename_i character
        rw [if_neg character, add_offset_succ]
        exact induction _ (Nat.lt_of_succ_lt_succ ends)

theorem strlenLoop_eq (memory : Memory) (s : Addr) (i rounds : Nat)
    (small : i + rounds ≤ 2 ^ 31)
    (ends : lengthUpTo memory (s + BitVec.ofNat 64 i) rounds < rounds) :
    strlenLoop memory s (BitVec.ofNat 32 i) rounds =
      .ok (BitVec.ofNat 32
        (i + lengthUpTo memory (s + BitVec.ofNat 64 i) rounds)) := by
  induction rounds generalizing i with
  | zero => exact absurd ends (Nat.not_lt_zero _)
  | succ rounds induction =>
      have place : (BitVec.ofNat 32 i).signExtend 64 = BitVec.ofNat 64 i := by
        have positive : (BitVec.ofNat 32 i).msb = false := by
          rw [BitVec.msb_eq_false_iff_two_mul_lt, BitVec.toNat_ofNat]
          omega
        rw [BitVec.signExtend_eq_setWidth_of_msb_false positive]
        bv_omega
      have next : s + BitVec.ofNat 64 i + 1#64 =
          s + BitVec.ofNat 64 (i + 1) := by
        bv_omega
      have count : BitVec.ofNat 32 i + 1#32 = BitVec.ofNat 32 (i + 1) :=
        (BitVec.ofNat_add i 1).symm
      rw [strlenLoop, place]
      rw [lengthUpTo, next] at ends ⊢
      split at ends
      · rename_i nul
        rw [if_neg (not_not_intro nul), if_pos nul]
        rfl
      · rename_i character
        rw [if_pos character, if_neg character, count,
          induction (i + 1) (by omega) (by omega)]
        congr 2
        omega

/-- `strlen` finds the terminator. -/
theorem strlen_eq (memory : Memory) (s : Addr) {size : Nat}
    (small : size ≤ 2 ^ 31) (ends : lengthUpTo memory s size < size) :
    strlen memory s size =
      .ok (BitVec.ofNat 32 (lengthUpTo memory s size)) := by
  have start : s + BitVec.ofNat 64 0 = s := BitVec.add_zero s
  have found := strlenLoop_eq memory s 0 size (by omega)
  rw [start, Nat.zero_add] at found
  exact found ends

/-! ## The copying loops -/

/-- How many characters a loop moves that stops behind a NUL. -/
def moved (memory : Memory) (t : Addr) (limit : Nat) : Nat :=
  min (lengthUpTo memory t limit + 1) limit

theorem moved_zero (memory : Memory) (t : Addr) : moved memory t 0 = 0 :=
  Nat.min_zero _

theorem moved_of_nul {memory : Memory} {t : Addr} (nul : memory t = 0)
    (limit : Nat) : moved memory t (limit + 1) = 1 := by
  rw [moved, lengthUpTo, if_pos nul]
  omega

theorem moved_of_character {memory : Memory} {t : Addr}
    (character : memory t ≠ 0) (limit : Nat) :
    moved memory t (limit + 1) = moved memory (t + 1#64) limit + 1 := by
  rw [moved, lengthUpTo, if_neg character, Nat.add_min_add_right, moved]

theorem moved_le (memory : Memory) (t : Addr) (limit : Nat) :
    moved memory t limit ≤ limit :=
  Nat.min_le_right _ _

/-- A store outside of what is read does not change the length. -/
theorem lengthUpTo_update {memory : Memory} {s t : Addr} (byte : Byte)
    {limit : Nat} (small : limit < 2 ^ 64)
    (outside : ¬ Within t (moved memory t limit) s) :
    lengthUpTo (Function.update memory s byte) t limit =
      lengthUpTo memory t limit := by
  induction limit generalizing t with
  | zero => rfl
  | succ limit induction =>
      have notHere : t ≠ s := by
        rintro rfl
        apply outside
        have positive : 0 < moved memory t (limit + 1) := by
          rw [moved]
          omega
        simpa [Within] using positive
      rw [lengthUpTo, lengthUpTo, Function.update_of_ne notHere]
      split
      · rfl
      · rename_i character
        rw [induction (by omega)]
        intro inside
        apply outside
        rw [moved_of_character character]
        have bound := moved_le memory (t + 1#64) limit
        exact Within.of_offset inside (Nat.add_comm 1 _).le (by omega)

/-- The rest of the two regions after one character. -/
theorem apart_rest {s t : Addr} {size count : Nat}
    (apart : Apart s (size + 1) t (count + 1)) (small : size + 1 < 2 ^ 64)
    (fits : count + 1 < 2 ^ 64) :
    Apart (s + 1#64) size (t + 1#64) count := by
  refine apart.mono ?_ ?_
  · intro address inside
    exact Within.of_offset inside (Nat.add_comm 1 size).le (by omega)
  · intro address inside
    exact Within.of_offset inside (Nat.add_comm 1 count).le (by omega)

/-- The first place written is not among those that are read. -/
theorem not_within_of_apart {s t : Addr} {size count : Nat}
    (apart : Apart s (size + 1) t count) : ¬ Within t count s :=
  apart s (by simp [Within])

/-- What the first loop leaves of the counter: it is decremented once for every
character, and once more by the test that ends the loop at the limit. -/
def leftover (memory : Memory) (t : Addr) (n : BitVec 32) (limit : Nat) :
    BitVec 32 :=
  n - BitVec.ofNat 32 (moved memory t limit) -
    if lengthUpTo memory t limit < limit then 0 else 1

theorem leftover_of_nul {memory : Memory} {t : Addr} (nul : memory t = 0)
    (n : BitVec 32) (limit : Nat) :
    leftover memory t n (limit + 1) = n - 1#32 := by
  rw [leftover, moved_of_nul nul, lengthUpTo, if_pos nul,
    if_pos (Nat.succ_pos limit)]
  exact BitVec.sub_zero _

theorem leftover_of_character {memory : Memory} {t : Addr}
    (character : memory t ≠ 0) (n : BitVec 32) (limit : Nat) :
    leftover memory t n (limit + 1) =
      leftover memory (t + 1#64) (n - 1#32) limit := by
  have regroup (count : Nat) : n - BitVec.ofNat 32 (count + 1) =
      n - 1#32 - BitVec.ofNat 32 count := by
    bv_omega
  rw [leftover, moved_of_character character, lengthUpTo, if_neg character,
    regroup, leftover]
  simp only [Nat.succ_lt_succ_iff]

theorem strncpyCopy_eq (memory : Memory) (s t : Addr) {n : BitVec 32}
    {limit rounds : Nat} (count : n.toInt = limit) (enough : limit < rounds)
    (apart : Apart s limit t (moved memory t limit)) :
    strncpyCopy memory s t n rounds =
      ⟨copy memory s t (moved memory t limit),
        s + BitVec.ofNat 64 (moved memory t limit),
        leftover memory t n limit,
        offsets t (moved memory t limit),
        offsets s (moved memory t limit)⟩ := by
  have small : n.toInt < 2 ^ 31 := BitVec.toInt_lt
  -- along the limit: each round leaves one character less to go
  induction limit generalizing memory s t n rounds with
  | zero =>
      obtain ⟨rounds, rfl⟩ : ∃ rest, rounds = rest + 1 :=
        ⟨rounds - 1, by omega⟩
      rw [strncpyCopy, if_neg (by omega)]
      simp [moved_zero, leftover, offsets]
  | succ limit induction =>
      obtain ⟨rounds, rfl⟩ : ∃ rest, rounds = rest + 1 :=
        ⟨rounds - 1, by omega⟩
      have bound := moved_le memory (t + 1#64) limit
      have pred := toInt_pred (n := n) (by omega)
      have distinct := not_within_of_apart apart
      rw [strncpyCopy, if_pos (by omega)]
      dsimp only
      by_cases nul : memory t = 0
      · rw [moved_of_nul nul] at distinct ⊢
        have one := copy_update_up memory s t 0 (by omega)
          (Or.inr (Nat.not_lt.mp distinct))
        rw [copy_zero] at one
        rw [if_neg (not_not_intro nul), leftover_of_nul nul, one,
          offsets_succ, offsets_succ]
        rfl
      · rw [moved_of_character nul] at apart distinct ⊢
        have rest := apart_rest apart (by omega) (by omega)
        have unread : ¬ Within (t + 1#64) (moved memory (t + 1#64) limit) s := by
          intro inside
          exact distinct (Within.of_offset inside (Nat.add_comm 1 _).le
            (by omega))
        have length := lengthUpTo_update (memory t)
          (show limit < 2 ^ 64 by omega) unread
        have same : moved (Function.update memory s (memory t)) (t + 1#64)
            limit = moved memory (t + 1#64) limit := by
          rw [moved, moved, length]
        have left : leftover (Function.update memory s (memory t)) (t + 1#64)
            (n - 1#32) limit = leftover memory (t + 1#64) (n - 1#32) limit := by
          rw [leftover, leftover, same, length]
        have copied := copy_update_up memory s t
          (moved memory (t + 1#64) limit) (by omega)
          (Or.inr (Nat.not_lt.mp distinct))
        rw [if_pos nul, induction _ _ _ (by omega) (by omega)
          (by rw [same]; exact rest) (by omega), same, left, copied,
          leftover_of_character nul,
          add_offset_succ s (moved memory (t + 1#64) limit), offsets_succ,
          offsets_succ]
        rfl

theorem strncpyPad_eq (memory : Memory) (s : Addr) {n : BitVec 32}
    {size rounds : Nat} (count : n.toInt = size) (enough : size < rounds) :
    strncpyPad memory s n rounds =
      ⟨fill memory s size 0, s + BitVec.ofNat 64 size, -1, [],
        offsets s size⟩ := by
  have small : n.toInt < 2 ^ 31 := BitVec.toInt_lt
  induction size generalizing memory s n rounds with
  | zero =>
      obtain ⟨rounds, rfl⟩ : ∃ rest, rounds = rest + 1 :=
        ⟨rounds - 1, by omega⟩
      obtain rfl : n = 0 := BitVec.toInt_inj.mp count
      simp [strncpyPad, offsets]
  | succ size induction =>
      obtain ⟨rounds, rfl⟩ : ∃ rest, rounds = rest + 1 :=
        ⟨rounds - 1, by omega⟩
      have pred := toInt_pred (n := n) (by omega)
      have pieces := fill_fill memory s 0 1 size (by omega)
      rw [strncpyPad, if_pos (by omega),
        induction _ _ (by omega) (by omega) (by omega), update_eq_fill,
        add_offset_succ s size, offsets_succ, Nat.add_comm size 1, ← pieces]
      rfl

/-- A loop whose counter is not positive does nothing but decrement it. -/
theorem strncpyCopy_of_le {n : BitVec 32} (spent : n.toInt ≤ 0)
    (memory : Memory) (s t : Addr) {rounds : Nat} (positive : 0 < rounds) :
    strncpyCopy memory s t n rounds = ⟨memory, s, n - 1#32, [], []⟩ := by
  obtain ⟨rounds, rfl⟩ : ∃ rest, rounds = rest + 1 := ⟨rounds - 1, by omega⟩
  rw [strncpyCopy, if_neg (by omega)]

theorem strncpyPad_of_le {n : BitVec 32} (spent : n.toInt ≤ 0)
    (memory : Memory) (s : Addr) {rounds : Nat} (positive : 0 < rounds) :
    strncpyPad memory s n rounds = ⟨memory, s, n - 1#32, [], []⟩ := by
  obtain ⟨rounds, rfl⟩ : ∃ rest, rounds = rest + 1 := ⟨rounds - 1, by omega⟩
  rw [strncpyPad, if_neg (by omega)]

/-- The loop of `safestrcpy` is that of `strncpy` with the counter one ahead. -/
theorem safestrcpyCopy_eq (memory : Memory) (s t : Addr) (n : BitVec 32)
    (rounds : Nat) :
    let copied := strncpyCopy memory s t (n - 1#32) rounds
    ∃ left, safestrcpyCopy memory s t n rounds = { copied with n := left } := by
  induction rounds generalizing memory s t n with
  | zero => exact ⟨n, rfl⟩
  | succ rounds induction =>
      simp only [safestrcpyCopy, strncpyCopy]
      split
      · split
        · rcases induction (Function.update memory s (memory t)) (s + 1#64)
            (t + 1#64) (n - 1#32) with ⟨left, same⟩
          exact ⟨left, by rw [same]; rfl⟩
        · exact ⟨_, rfl⟩
      · exact ⟨_, rfl⟩

/-- The accesses left out, it is the loop of the plain `safestrcpy`. -/
theorem safestrcpyCopy_loop (memory : Memory) (s t : Addr) {n : BitVec 32}
    {limit rounds : Nat} (count : n.toInt = limit + 1)
    (enough : limit < rounds) :
    ((safestrcpyCopy memory s t n rounds).memory,
        (safestrcpyCopy memory s t n rounds).s) =
      safestrcpyLoop memory s t (limit + 1) := by
  induction limit generalizing memory s t n rounds with
  | zero =>
      obtain ⟨rounds, rfl⟩ : ∃ rest, rounds = rest + 1 :=
        ⟨rounds - 1, by omega⟩
      have pred := toInt_pred (n := n) (by omega)
      simp only [safestrcpyCopy, safestrcpyLoop]
      rw [if_neg (by omega), if_neg (by omega)]
  | succ limit induction =>
      obtain ⟨rounds, rfl⟩ : ∃ rest, rounds = rest + 1 :=
        ⟨rounds - 1, by omega⟩
      have pred := toInt_pred (n := n) (by omega)
      have more : 0 < (n - 1#32).toInt := by omega
      simp only [safestrcpyCopy, safestrcpyLoop, if_pos more,
        if_pos (Nat.succ_pos limit)]
      by_cases nul : memory t = 0
      · rw [if_neg (not_not_intro nul), if_neg (not_not_intro nul)]
      · rw [if_pos nul, if_pos nul]
        exact induction _ _ _ (by omega) (by omega)

/-! ## The functions -/

/-- A positive counter after some decrements. -/
theorem toInt_sub_ofNat {n : BitVec 32} {size count : Nat}
    (number : n.toInt = size) (bound : count ≤ size) :
    (n - BitVec.ofNat 32 count).toInt = ((size - count : Nat) : Int) := by
  rw [BitVec.toInt_eq_toNat_cond] at number ⊢
  rw [BitVec.toNat_sub]
  have range := n.isLt
  simp only [BitVec.toNat_ofNat]
  omega

theorem strncpy_eq (memory : Memory) (s t : Addr) {n : BitVec 32} {size : Nat}
    (number : n.toInt = size)
    (apart : Apart s size t (moved memory t size)) :
    ∃ left, strncpy memory s t n =
      ⟨fill (copy memory s t (moved memory t size))
          (s + BitVec.ofNat 64 (moved memory t size))
          (size - moved memory t size) 0,
        s + BitVec.ofNat 64 size, left,
        offsets t (moved memory t size), offsets s size⟩ := by
  have small : n.toInt < 2 ^ 31 := BitVec.toInt_lt
  have bound := moved_le memory t size
  have copied := strncpyCopy_eq memory s t number
    (show size < 2 ^ 31 by omega) apart
  have whole := offsets_add s (moved memory t size)
    (size - moved memory t size)
  rw [Nat.add_sub_cancel' bound] at whole
  have place : s + BitVec.ofNat 64 (moved memory t size) +
      BitVec.ofNat 64 (size - moved memory t size) =
        s + BitVec.ofNat 64 size := by
    bv_omega
  by_cases ends : lengthUpTo memory t size < size
  · -- the first loop stops at the terminator, and the second fills the rest
    have left : leftover memory t n size =
        n - BitVec.ofNat 32 (moved memory t size) := by
      rw [leftover, if_pos ends]
      exact BitVec.sub_zero _
    have padded := strncpyPad_eq (copy memory s t (moved memory t size))
      (s + BitVec.ofNat 64 (moved memory t size))
      (toInt_sub_ofNat number bound)
      (show size - moved memory t size < 2 ^ 31 by omega)
    rw [place] at padded
    refine ⟨-1, ?_⟩
    rw [strncpy, copied, left]
    dsimp only
    rw [padded, whole, Progress.after, List.append_nil]
  · -- the first loop stops at the limit, and its last test leaves minus one
    have all : moved memory t size = size := by
      have length := lengthUpTo_le memory t size
      rw [moved]
      omega
    have left : (leftover memory t n size).toInt ≤ 0 := by
      rw [leftover, if_neg ends, all]
      have zero := toInt_sub_ofNat number (le_refl size)
      have pred := toInt_pred (n := n - BitVec.ofNat 32 size) (by omega)
      change (n - BitVec.ofNat 32 size - 1#32).toInt ≤ 0
      omega
    refine ⟨leftover memory t n size - 1#32, ?_⟩
    rw [strncpy, copied]
    dsimp only
    rw [strncpyPad_of_le left _ _ (by decide), Progress.after, all,
      Nat.sub_self, fill_zero, List.append_nil, List.append_nil]

theorem strncpy_of_le {n : BitVec 32} (number : -2 ^ 31 < n.toInt)
    (spent : n.toInt ≤ 0) (memory : Memory) (s t : Addr) :
    strncpy memory s t n = ⟨memory, s, n - 1#32 - 1#32, [], []⟩ := by
  have pred := toInt_pred number
  rw [strncpy, strncpyCopy_of_le spent _ _ _ (by decide)]
  dsimp only
  rw [strncpyPad_of_le (by omega) _ _ (by decide)]
  rfl

theorem safestrcpyTraced_eq (memory : Memory) (s t : Addr) {n : BitVec 32}
    {limit : Nat} (number : n.toInt = limit + 1)
    (apart : Apart s limit t (moved memory t limit)) :
    ∃ left, safestrcpyTraced memory s t n =
      ⟨Function.update (copy memory s t (moved memory t limit))
          (s + BitVec.ofNat 64 (moved memory t limit)) 0,
        s + BitVec.ofNat 64 (moved memory t limit), left,
        offsets t (moved memory t limit),
        offsets s (moved memory t limit + 1)⟩ := by
  have small : n.toInt < 2 ^ 31 := BitVec.toInt_lt
  have pred := toInt_pred (n := n) (by omega)
  have copied := strncpyCopy_eq memory s t
    (show (n - 1#32).toInt = limit by omega)
    (show limit < 2 ^ 31 by omega) apart
  rcases safestrcpyCopy_eq memory s t n (2 ^ 31) with ⟨left, same⟩
  rw [copied] at same
  have whole := offsets_add s (moved memory t limit) 1
  refine ⟨left, ?_⟩
  rw [safestrcpyTraced, if_neg (by omega), same, whole]
  simp [offsets]

/-- Tracing the accesses does not change the result. -/
theorem safestrcpyTraced_memory (memory : Memory) (s t : Addr)
    (n : BitVec 32) :
    (safestrcpyTraced memory s t n).memory =
      safestrcpy memory s t n.toInt := by
  rw [safestrcpyTraced, safestrcpy]
  split
  · rfl
  · rename_i positive
    have small : n.toInt < 2 ^ 31 := BitVec.toInt_lt
    obtain ⟨limit, number⟩ : ∃ limit : Nat, n.toInt = limit + 1 :=
      ⟨(n.toInt - 1).toNat, by omega⟩
    have loop := safestrcpyCopy_loop memory s t number
      (show limit < 2 ^ 31 by omega)
    have count : n.toInt.toNat = limit + 1 := by omega
    rw [count, ← loop]

/-- The accesses of a copy into `size` bytes: it reads upwards from `t`, at most
`limit` bytes and none behind the terminator, and it writes, and changes, only
bytes of the target. -/
structure Bounded (before : Memory) (s t : Addr) (size limit length : Nat)
    (result : Progress) : Prop where
  reads : ∃ count, count ≤ limit ∧ count ≤ length + 1 ∧
    result.reads = offsets t count
  writes : ∀ address ∈ result.writes, Within s size address
  others : ∀ address, ¬ Within s size address →
    result.memory address = before address

/-- What the copies into `size` bytes do with a string that has `length`
characters before its terminator, or before the bound if there is none. -/
structure BoundedCopies (memory : Memory) (s t : Addr) (n : BitVec 32)
    (size length : Nat) : Prop where
  characters : ∀ i < length, memory (t + BitVec.ofNat 64 i) ≠ 0
  measured : length < size →
    strlen memory t size = .ok (BitVec.ofNat 32 length)
  terminated : 0 < size →
    (∀ i < min length (size - 1),
      safestrcpy memory s t n.toInt (s + BitVec.ofNat 64 i) =
        memory (t + BitVec.ofNat 64 i)) ∧
      safestrcpy memory s t n.toInt
        (s + BitVec.ofNat 64 (min length (size - 1))) = 0
  padded : ∀ i < size,
    (strncpy memory s t n).memory (s + BitVec.ofNat 64 i) =
      if i < length then memory (t + BitVec.ofNat 64 i) else 0
  traced : (safestrcpyTraced memory s t n).memory =
    safestrcpy memory s t n.toInt
  safestrcpyBounded :
    Bounded memory s t size (size - 1) length (safestrcpyTraced memory s t n)
  strncpyBounded :
    Bounded memory s t size size length (strncpy memory s t n)
  unchanged : n.toInt ≤ 0 →
    safestrcpy memory s t n.toInt = memory ∧
      (strncpy memory s t n).memory = memory

section Bounded

variable {memory : Memory} {s t : Addr} {size : Nat}

/-- A smaller target, and the part of the source that is read for it. -/
theorem apart_of_le {limit : Nat} (ordered : limit ≤ size)
    (apart : Apart s size t (moved memory t size)) :
    Apart s limit t (moved memory t limit) := by
  have shorter := lengthUpTo_min memory t ordered
  have fewer : moved memory t limit ≤ moved memory t size := by
    rw [moved, moved]
    omega
  refine apart.mono ?_ ?_
  · intro address inside
    exact Nat.lt_of_lt_of_le inside ordered
  · intro address inside
    exact Nat.lt_of_lt_of_le inside fewer

variable {n : BitVec 32}

theorem safestrcpy_terminated {limit : Nat} (number : n.toInt = limit + 1)
    (apart : Apart s limit t (moved memory t limit)) :
    (∀ i < lengthUpTo memory t limit,
      safestrcpy memory s t n.toInt (s + BitVec.ofNat 64 i) =
        memory (t + BitVec.ofNat 64 i)) ∧
      safestrcpy memory s t n.toInt
        (s + BitVec.ofNat 64 (lengthUpTo memory t limit)) = 0 := by
  have small : n.toInt < 2 ^ 31 := BitVec.toInt_lt
  have bound := moved_le memory t limit
  have length := lengthUpTo_le memory t limit
  have count : moved memory t limit =
      min (lengthUpTo memory t limit + 1) limit := rfl
  rcases safestrcpyTraced_eq memory s t number apart with ⟨left, same⟩
  have result := safestrcpyTraced_memory memory s t n
  rw [same] at result
  have copied (i : Nat) (inside : i < moved memory t limit) :
      safestrcpy memory s t n.toInt (s + BitVec.ofNat 64 i) =
        memory (t + BitVec.ofNat 64 i) := by
    have distinct : s + BitVec.ofNat 64 i ≠
        s + BitVec.ofNat 64 (moved memory t limit) := by
      bv_omega
    rw [← result]
    exact (Function.update_of_ne distinct _ _).trans
      (copy_offset memory s t inside (by omega))
  refine ⟨fun i before => copied i (by omega), ?_⟩
  by_cases ends : lengthUpTo memory t limit < limit
  · -- the terminator was copied, and a second one stands behind it
    rw [copied _ (by omega)]
    exact lengthUpTo_end memory t ends
  · have all : moved memory t limit = lengthUpTo memory t limit := by omega
    rw [← result, all]
    exact Function.update_self _ _ _

theorem safestrcpy_bounded {limit : Nat} (number : n.toInt = limit + 1)
    (apart : Apart s limit t (moved memory t limit)) :
    Bounded memory s t (limit + 1) limit (lengthUpTo memory t limit)
      (safestrcpyTraced memory s t n) := by
  have small : n.toInt < 2 ^ 31 := BitVec.toInt_lt
  have bound := moved_le memory t limit
  rcases safestrcpyTraced_eq memory s t number apart with ⟨left, same⟩
  rw [same]
  refine ⟨⟨moved memory t limit, bound, Nat.min_le_left _ _, rfl⟩, ?_, ?_⟩
  · intro address member
    exact Nat.lt_of_lt_of_le (within_of_mem_offsets member (by omega))
      (by omega)
  · intro address outside
    have notLast : address ≠ s + BitVec.ofNat 64 (moved memory t limit) := by
      rintro rfl
      exact outside (within_offset s (by omega) (by omega))
    refine (Function.update_of_ne notLast _ _).trans ?_
    apply copy_outside
    intro inside
    exact outside (Nat.lt_of_lt_of_le inside (by omega))

theorem strncpy_padded (number : n.toInt = size)
    (apart : Apart s size t (moved memory t size)) {i : Nat}
    (inside : i < size) :
    (strncpy memory s t n).memory (s + BitVec.ofNat 64 i) =
      if i < lengthUpTo memory t size then memory (t + BitVec.ofNat 64 i)
      else 0 := by
  have small : n.toInt < 2 ^ 31 := BitVec.toInt_lt
  have bound := moved_le memory t size
  have count : moved memory t size =
      min (lengthUpTo memory t size + 1) size := rfl
  rcases strncpy_eq memory s t number apart with ⟨left, same⟩
  rw [same]
  dsimp only
  by_cases early : i < moved memory t size
  · have outside : ¬ Within (s + BitVec.ofNat 64 (moved memory t size))
        (size - moved memory t size) (s + BitVec.ofNat 64 i) := by
      simp only [Within]
      bv_omega
    rw [fill_outside _ _ _ _ _ outside,
      copy_offset memory s t early (by omega)]
    split
    · rfl
    · -- the last character moved is the terminator
      obtain rfl : i = lengthUpTo memory t size := by omega
      exact lengthUpTo_end memory t inside
  · have late : Within (s + BitVec.ofNat 64 (moved memory t size))
        (size - moved memory t size) (s + BitVec.ofNat 64 i) := by
      simp only [Within]
      bv_omega
    rw [fill_inside _ _ _ _ _ late, if_neg (by omega)]

theorem strncpy_bounded (number : n.toInt = size)
    (apart : Apart s size t (moved memory t size)) :
    Bounded memory s t size size (lengthUpTo memory t size)
      (strncpy memory s t n) := by
  have small : n.toInt < 2 ^ 31 := BitVec.toInt_lt
  have bound := moved_le memory t size
  rcases strncpy_eq memory s t number apart with ⟨left, same⟩
  rw [same]
  refine ⟨⟨moved memory t size, bound, Nat.min_le_left _ _, rfl⟩, ?_, ?_⟩
  · intro address member
    exact within_of_mem_offsets member (by omega)
  · intro address outside
    dsimp only
    rw [fill_outside, copy_outside]
    · intro inside
      exact outside (Nat.lt_of_lt_of_le inside bound)
    · intro inside
      exact outside (Within.of_offset inside
        (Nat.add_sub_cancel' bound).le (by omega))

end Bounded

/-- An access to nothing. -/
theorem bounded_of_le (memory : Memory) (s t place : Addr) (n : BitVec 32)
    (limit length : Nat) :
    Bounded memory s t 0 limit length ⟨memory, place, n, [], []⟩ :=
  ⟨⟨0, Nat.zero_le _, Nat.zero_le _, rfl⟩, nofun, fun _ _ => rfl⟩

/--
For every memory, every `int` above the least one and every source that has no
byte up to its terminator, or to the limit, in common with the target:
`safestrcpy` leaves the characters that fit, followed by a NUL, and `strncpy` all
the characters, padded with NULs.  They stay within their bounds when they read
and write, and a limit that is not positive leaves everything as it was.
-/
theorem string_copies_bounded (memory : Memory) (s t : Addr) (n : BitVec 32)
    (number : -2 ^ 31 < n.toInt)
    (apart : Apart s n.toInt.toNat t (moved memory t n.toInt.toNat)) :
    BoundedCopies memory s t n n.toInt.toNat
      (lengthUpTo memory t n.toInt.toNat) := by
  have small : n.toInt < 2 ^ 31 := BitVec.toInt_lt
  by_cases positive : 0 < n.toInt
  · obtain ⟨limit, count⟩ : ∃ limit : Nat, n.toInt = limit + 1 :=
      ⟨(n.toInt - 1).toNat, by omega⟩
    have size : n.toInt.toNat = limit + 1 := by omega
    rw [size] at apart ⊢
    have shorter := apart_of_le (Nat.le_add_right limit 1) apart
    have cut := lengthUpTo_min memory t (Nat.le_add_right limit 1)
    have text := safestrcpy_terminated count shorter
    have accesses := safestrcpy_bounded count shorter
    rw [cut] at text
    exact
      { characters := fun i before => lengthUpTo_character memory t before
        measured := strlen_eq memory t (by omega)
        terminated := fun _ => text
        padded := fun i inside => strncpy_padded count apart inside
        traced := safestrcpyTraced_memory memory s t n
        safestrcpyBounded := by
          refine ⟨?_, accesses.writes, accesses.others⟩
          rcases accesses.reads with ⟨count, few, before, same⟩
          exact ⟨count, few, by omega, same⟩
        strncpyBounded := strncpy_bounded count apart
        unchanged := by omega }
  · have spent : n.toInt ≤ 0 := by omega
    have size : n.toInt.toNat = 0 := by omega
    have copied := strncpy_of_le number spent memory s t
    have kept : safestrcpy memory s t n.toInt = memory := by
      rw [safestrcpy, if_pos spent]
    rw [size]
    exact
      { characters := fun i before => absurd before (Nat.not_lt_zero i)
        measured := fun before => absurd before (Nat.not_lt_zero _)
        terminated := fun some => absurd some (Nat.not_lt_zero 0)
        padded := fun i inside => absurd inside (Nat.not_lt_zero i)
        traced := safestrcpyTraced_memory memory s t n
        safestrcpyBounded := by
          rw [safestrcpyTraced, if_pos spent]
          exact bounded_of_le memory s t s n _ _
        strncpyBounded := by
          rw [copied]
          exact bounded_of_le memory s t s _ _ _
        unchanged := fun _ => ⟨kept, by rw [copied]⟩ }

/-- A name of three characters, where four bytes leave room for its terminator
and three do not. -/
def sampleName : Memory := fun address =>
  if address = 0x2000 ∨ address = 0x2001 ∨ address = 0x2002 then 0x61 else 0

theorem string_copies_bounded_three :
    BoundedCopies sampleName 0x1000 0x2000 4 4 3 ∧
      BoundedCopies sampleName 0x1000 0x2000 3 3 3 := by
  have apart (size count : Nat) (few : size ≤ 4) (bound : count ≤ 4) :
      Apart 0x1000 size 0x2000 count := by
    intro address inside
    simp only [Within] at inside ⊢
    bv_omega
  exact ⟨string_copies_bounded sampleName 0x1000 0x2000 4 (by decide)
      (apart _ _ (by decide) (by decide)),
    string_copies_bounded sampleName 0x1000 0x2000 3 (by decide)
      (apart _ _ (by decide) (by decide))⟩

end Rt64.Klib.StringCopy
