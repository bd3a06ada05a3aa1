import Rt64.Include.Access
import Rt64.Kernel.Acpi

/-!
# The search for the ACPI tables

`acpiinit` looks for the root pointer in two areas of low memory, follows it to
the root table and goes through the tables that are listed there.  All addresses
and lengths on this way come from the firmware.  The direct map is the only
memory that can be read at that time.
-/

namespace Rt64.Kernel.Acpiinit

open Rt64.Lib.ByteMemory
open Rt64.Include.Defs
open Rt64.Include.Access
open Rt64.Kernel.Acpi

/-! ## The code -/

/-- `SIG_RDSP`, `"RSD PTR "`. -/
def sigRdsp : List Byte := [0x52, 0x53, 0x44, 0x20, 0x50, 0x54, 0x52, 0x20]

/-- `SIG_MADT`, `"APIC"`. -/
def sigMadt : List Byte := [0x41, 0x50, 0x49, 0x43]

/-- `sizeof(struct acpi_rdsp)` and the place of its field. -/
abbrev rdspSz : BitVec 64 := 36
abbrev rsdtAddrPhysOffset : BitVec 64 := 16

/-- `sizeof(struct acpi_desc_header)`, which is also that of `struct acpi_rsdt`. -/
abbrev headerSz : BitVec 64 := 36

/-- `memcmp` with the bytes of a constant. -/
def memcmp (view : View) (s1 : Addr) : List Byte → Except Stop Int
  | [] => .ok 0
  | c :: rest => do
      let byte ← fetch view s1
      if byte ≠ c then return byte.toNat - c.toNat
      else memcmp view (s1 + 1) rest

/-- The loop that adds up the bytes of a structure. -/
def sumLoop (view : View) : Nat → Addr → BitVec 64 → Except Stop (BitVec 64)
  | 0, _, sum => .ok sum
  | count + 1, p, sum => do
      let byte ← fetch view p
      sumLoop view count (p + 1) (sum + byte.setWidth 64)

/-- The loop of `scan_rdsp`. -/
def scanLoop (view : View) : Nat → Addr → BitVec 64 → Except Stop Addr
  | 0, _, _ => .error (.halt .fuel)
  | fuel + 1, p, len =>
      if rdspSz ≤ len then do
        let difference ← memcmp view p sigRdsp
        if difference = 0 then
          let sum ← sumLoop view 20 p 0
          if sum &&& 0xFF = 0 then return p
          else scanLoop view fuel (p + 4) (len - 4)
        else scanLoop view fuel (p + 4) (len - 4)
      else .ok 0

def scanRdsp (view : View) (fuel : Nat) (base len : BitVec 64) :
    Except Stop Addr :=
  scanLoop view fuel (p2v base) len

def findRdsp (view : View) (fuel : Nat) : Except Stop Addr := do
  let ebda ← fetchWord view (p2v 0x40E) 2
  let pa := ebda.setWidth 64 <<< 4
  let rdsp ← if pa ≠ 0 then scanRdsp view fuel pa 1024 else .ok 0
  if rdsp ≠ 0 then return rdsp
  else scanRdsp view fuel 0xE0000 0x20000

/-- The body of the loop of `acpiinit`: the fields of a header that are printed,
and whether it is that of the table that is looked for. -/
def visitTable (view : View) (hdr : Addr) : Except Stop Bool := do
  let _signature ← fetchWord view hdr 4
  let _oemId ← fetchWord view (hdr + 10) 6
  let _oemTableid ← fetchWord view (hdr + 16) 8
  let _creatorId ← fetchWord view (hdr + 28) 4
  let _oemRevision ← fetchWord view (hdr + 24) 4
  let _creatorRevision ← fetchWord view (hdr + 32) 4
  let difference ← memcmp view hdr sigMadt
  return difference = 0

/-- `notmapped`. -/
def notmapped : Stop :=
  .panic .acpiinit "acpi: tables not mapped"

/-- The address of `rsdt->entry[n]`. -/
def entryAddr (rsdt : Addr) (n : BitVec 32) : Addr :=
  rsdt + headerSz + 4 * n.setWidth 64

/-- The loop of `acpiinit`. -/
def tableLoop (view : View) (rsdt : Addr) (count : BitVec 32) :
    Nat → BitVec 32 → Addr → Except Stop Addr
  | 0, _, _ => .error (.halt .fuel)
  | fuel + 1, n, madt =>
      if n < count then do
        let entry ← fetchWord view (entryAddr rsdt n) 4
        if maxPhysMem < entry.setWidth 64 then .error notmapped
        else
          let isMadt ← visitTable view (p2v (entry.setWidth 64))
          tableLoop view rsdt count fuel (n + 1)
            (if isMadt then p2v (entry.setWidth 64) else madt)
      else .ok madt

/-- The number of entries that the length in the header leaves room for. -/
def entryCount (length : BitVec 32) : BitVec 32 :=
  ((length.setWidth 64 - headerSz) / 4).setWidth 32

/-- `acpiinit` up to its call of `acpi_config_smp`. -/
def findMadt (view : View) (fuel : Nat) : Except Stop Addr := do
  let rdsp ← findRdsp view fuel
  let addr ← fetchWord view (rdsp + rsdtAddrPhysOffset) 4
  if maxPhysMem < addr.setWidth 64 then .error notmapped
  else
    let rsdt := p2v (addr.setWidth 64)
    let length ← fetchWord view (rsdt + lengthOffset) 4
    tableLoop view rsdt (entryCount length) fuel 0 0

/-- The memory that is mapped when `acpiinit` is called. -/
def directView (mem : Memory) : View := fun address =>
  if Within kernbase maxPhysMem.toNat address then some (mem address) else none

def acpiinit (mem : Memory) (fuel : Nat) (smp : Smp) : Except Stop Smp := do
  let madt ← findMadt (directView mem) fuel
  (acpiConfigSmp mem madt fuel smp).mapError .halt

/-! ## The root pointer -/

/-- The bytes from an address on. -/
def bytesAt (mem : Memory) (p : Addr) : Nat → List Byte
  | 0 => []
  | count + 1 => mem p :: bytesAt mem (p + 1) count

/-- A root pointer lies at the address. -/
def IsRdsp (mem : Memory) (p : Addr) : Prop :=
  bytesAt mem p 8 = sigRdsp ∧
    ((bytesAt mem p 20).map BitVec.toNat).sum % 256 = 0

instance (mem : Memory) (p : Addr) : Decidable (IsRdsp mem p) :=
  inferInstanceAs (Decidable (_ ∧ _))

/-- The places that a scan from `p` on comes to. -/
def place (p : Addr) (k : Nat) : Addr :=
  p + BitVec.ofNat 64 (4 * k)

/-- The first root pointer of a window that leaves room for the larger structure is
at the address. -/
def First (mem : Memory) (p : Addr) (len : Nat) (result : Addr) : Prop :=
  ∃ k, 4 * k + 36 ≤ len ∧ IsRdsp mem (place p k) ∧
    (∀ j < k, ¬ IsRdsp mem (place p j)) ∧ result = place p k

/-- The result of a scan that goes on as long as there is room for the larger
structure. -/
def Finds (mem : Memory) (p : Addr) (len : Nat) (result : Addr) : Prop :=
  First mem p len result ∨
    (∀ k, 4 * k + 36 ≤ len → ¬ IsRdsp mem (place p k)) ∧ result = 0

section Scan

variable {view : View} {mem : Memory} {p : Addr}

theorem memcmp_eq {signature : List Byte}
    (shows : Shows view mem p signature.length)
    (small : signature.length < 2 ^ 64) :
    ∃ difference, memcmp view p signature = .ok difference ∧
      (difference = 0 ↔ bytesAt mem p signature.length = signature) := by
  induction signature generalizing p with
  | nil => exact ⟨0, rfl, iff_of_true rfl rfl⟩
  | cons c rest induction =>
      rw [memcmp, shows.fetch (Nat.succ_pos _), bind_ok]
      by_cases same : mem p = c
      · rcases induction (shows.tail small) (Nat.lt_of_succ_lt small) with
          ⟨difference, compared, equal⟩
        rw [if_neg (not_not.mpr same)]
        refine ⟨difference, compared, equal.trans ?_⟩
        simp [bytesAt, same]
      · rw [if_pos same]
        refine ⟨_, rfl, iff_of_false ?_ ?_⟩
        · intro zero
          exact same (BitVec.eq_of_toNat_eq (by omega))
        · intro equal
          exact same (List.cons.inj equal).1

theorem sumLoop_eq {count : Nat} {sum : BitVec 64}
    (shows : Shows view mem p count) (small : count < 2 ^ 64) :
    sumLoop view count p sum = .ok (sum +
      BitVec.ofNat 64 ((bytesAt mem p count).map BitVec.toNat).sum) := by
  induction count generalizing p sum with
  | zero =>
      show _ = Except.ok (sum + 0)
      rw [add_zero]
      rfl
  | succ count induction =>
      have byte : (mem p).setWidth 64 = BitVec.ofNat 64 (mem p).toNat :=
        (BitVec.ofNat_toNat 64 (mem p)).symm
      rw [sumLoop, shows.fetch (Nat.succ_pos _), bind_ok,
        induction (shows.tail small) (Nat.lt_of_succ_lt small), bytesAt,
        List.map_cons, List.sum_cons, byte, BitVec.ofNat_add, BitVec.add_assoc]

/-- The test of the sum. -/
theorem low_zero_iff {total : Nat} :
    (0 + BitVec.ofNat 64 total : BitVec 64) &&& 0xFF = 0 ↔ total % 256 = 0 := by
  have mask : (0xFF : BitVec 64) = BitVec.ofNat 64 (2 ^ 8 - 1) := by decide
  rw [zero_add, ← BitVec.toNat_inj, mask,
    toNat_and_low _ 8 (by decide), BitVec.toNat_ofNat]
  show total % 2 ^ 64 % 2 ^ 8 = 0 ↔ _
  omega

/-- One iteration of the scan. -/
theorem scanLoop_step {len : BitVec 64} (shows : Shows view mem p len.toNat)
    (long : rdspSz ≤ len) (fuel : Nat) :
    scanLoop view (fuel + 1) p len =
      if IsRdsp mem p then .ok p else scanLoop view fuel (p + 4) (len - 4) := by
  have room : 36 ≤ len.toNat := BitVec.le_def.mp long
  rcases memcmp_eq (show Shows view mem p sigRdsp.length from
    shows.first (Nat.le_trans (by decide) room)) (by decide) with
    ⟨difference, compared, equal⟩
  have sum := @sumLoop_eq view mem p 20 0 (shows.first (by omega)) (by decide)
  rw [scanLoop, if_pos long, compared, bind_ok]
  by_cases signed : bytesAt mem p 8 = sigRdsp
  · rw [if_pos (equal.mpr signed), sum, bind_ok]
    by_cases total : ((bytesAt mem p 20).map BitVec.toNat).sum % 256 = 0
    · rw [if_pos (low_zero_iff.mpr total), if_pos ⟨signed, total⟩]
      rfl
    · rw [if_neg (low_zero_iff.not.mpr total), if_neg fun is => total is.2]
  · rw [if_neg (equal.not.mpr signed), if_neg fun is => signed is.1]

theorem place_zero (p : Addr) : place p 0 = p :=
  BitVec.add_zero p

theorem place_succ (p : Addr) (k : Nat) : place (p + 4) k = place p (k + 1) := by
  simp only [place]
  bv_omega

theorem Finds.here {len : Nat} (long : 36 ≤ len) (isRdsp : IsRdsp mem p) :
    Finds mem p len p := by
  refine Or.inl ⟨0, long, ?_, fun j before => absurd before (Nat.not_lt_zero j),
    (place_zero p).symm⟩
  rw [place_zero]
  exact isRdsp

theorem Finds.later {len : Nat} {result : Addr} (long : 36 ≤ len)
    (isNot : ¬ IsRdsp mem p) (finds : Finds mem (p + 4) (len - 4) result) :
    Finds mem p len result := by
  rcases finds with ⟨k, fits, isRdsp, none, rfl⟩ | ⟨none, rfl⟩
  · rw [place_succ] at isRdsp
    refine Or.inl ⟨k + 1, by omega, isRdsp, ?_, place_succ p k⟩
    intro j before
    cases j with
    | zero =>
        rw [place_zero]
        exact isNot
    | succ j =>
        rw [← place_succ]
        exact none j (Nat.lt_of_succ_lt_succ before)
  · refine Or.inr ⟨?_, rfl⟩
    intro k fits
    cases k with
    | zero =>
        rw [place_zero]
        exact isNot
    | succ k =>
        rw [← place_succ]
        exact none k (by omega)

theorem scanLoop_finds {len : BitVec 64} {fuel : Nat}
    (shows : Shows view mem p len.toNat) (enough : len.toNat < fuel) :
    ∃ result, scanLoop view fuel p len = .ok result ∧
      Finds mem p len.toNat result := by
  induction fuel generalizing p len with
  | zero => exact absurd enough (Nat.not_lt_zero _)
  | succ fuel induction =>
      by_cases long : rdspSz ≤ len
      · have room : 36 ≤ len.toNat := BitVec.le_def.mp long
        have left : (len - 4).toNat = len.toNat - 4 :=
          BitVec.toNat_sub_of_le (BitVec.le_def.mpr (Nat.le_trans (by decide) room))
        rw [scanLoop_step shows long]
        by_cases isRdsp : IsRdsp mem p
        · exact ⟨p, if_pos isRdsp, .here room isRdsp⟩
        · have bound := len.isLt
          have rest : Shows view mem (p + 4) (len - 4).toNat := by
            rw [left]
            exact @Shows.part view mem p len.toNat shows 4 (len.toNat - 4)
              (by omega) (by omega)
          rcases induction rest (by omega) with ⟨result, scanned, finds⟩
          rw [left] at finds
          exact ⟨result, (if_neg isRdsp).trans scanned, finds.later room isRdsp⟩
      · have short : len.toNat < 36 := Nat.not_le.mp (BitVec.le_def.not.mp long)
        refine ⟨0, ?_, Or.inr ⟨fun k fits => by omega, rfl⟩⟩
        rw [scanLoop, if_neg long]

end Scan

/-- The lowest root pointer whose 20 bytes lie in the window is at the place `k`. -/
def Lowest (mem : Memory) (p : Addr) (len k : Nat) : Prop :=
  4 * k + 20 ≤ len ∧ IsRdsp mem (place p k) ∧
    ∀ j < k, ¬ IsRdsp mem (place p j)

/-- If there is a root pointer in the window, one of them is the lowest. -/
theorem exists_lowest {mem : Memory} {p : Addr} {len k : Nat}
    (fits : 4 * k + 20 ≤ len) (isRdsp : IsRdsp mem (place p k)) :
    ∃ k, Lowest mem p len k := by
  have some : ∃ k, IsRdsp mem (place p k) := ⟨k, isRdsp⟩
  have least : Nat.find some ≤ k := Nat.find_min' some isRdsp
  exact ⟨Nat.find some, by omega, Nat.find_spec some,
    fun j before => Nat.find_min some before⟩

theorem Lowest.unique {mem : Memory} {p : Addr} {len k k' : Nat}
    (isRdsp : IsRdsp mem (place p k))
    (first : ∀ j < k, ¬ IsRdsp mem (place p j))
    (lowest : Lowest mem p len k') : k' = k := by
  rcases Nat.lt_trichotomy k' k with before | same | after
  · exact absurd lowest.2.1 (first k' before)
  · exact same
  · exact absurd isRdsp (lowest.2.2 k after)

/--
Whatever the memory contains and wherever the window lies, the scan ends and reads
nothing but the bytes of the window.  It returns the lowest root pointer in the
window, and null exactly if there is none, if and only if the lowest one leaves
room for the larger structure of later versions and is not at the address zero.
-/
theorem rsdp_search_complete {mem : Memory} {base len : BitVec 64} {view : View}
    {fuel : Nat} (enough : len.toNat < fuel)
    (shows : Shows view mem (p2v base) len.toNat) :
    ∃ result, scanRdsp view fuel base len = .ok result ∧
      ((∀ k, Lowest mem (p2v base) len.toNat k → result = place (p2v base) k) ∧
          (result = 0 ↔ ∀ k, 4 * k + 20 ≤ len.toNat →
            ¬ IsRdsp mem (place (p2v base) k)) ↔
        ∀ k, Lowest mem (p2v base) len.toNat k →
          4 * k + 36 ≤ len.toNat ∧ place (p2v base) k ≠ 0) := by
  rcases scanLoop_finds shows enough with ⟨result, scanned, finds⟩
  refine ⟨result, scanned, ?_⟩
  rcases finds with ⟨k, fits, isRdsp, first, rfl⟩ | ⟨none, rfl⟩
  · have here : Lowest mem (p2v base) len.toNat k := ⟨by omega, isRdsp, first⟩
    constructor
    · rintro ⟨_, null⟩ k' lowest
      rcases Lowest.unique isRdsp first lowest with rfl
      refine ⟨fits, fun zero => null.mp zero k' here.1 isRdsp⟩
    · intro roomy
      refine ⟨fun k' lowest => ?_, ?_⟩
      · rw [Lowest.unique isRdsp first lowest]
      · refine iff_of_false (roomy k here).2 ?_
        exact fun absent => absent k here.1 isRdsp
  · constructor
    · rintro ⟨_, null⟩ k lowest
      exact absurd lowest.2.1 (null.mp rfl k lowest.1)
    · intro roomy
      have absent (k : Nat) (fits : 4 * k + 20 ≤ len.toNat) :
          ¬ IsRdsp mem (place (p2v base) k) := by
        intro isRdsp
        rcases exists_lowest fits isRdsp with ⟨k', lowest⟩
        exact none k' (roomy k' lowest).1 lowest.2.1
      exact ⟨fun k lowest => absurd lowest.2.1 (absent k lowest.1),
        iff_of_true rfl absent⟩

/-- The bytes of a root pointer with a checksum and the address of the root
table. -/
def rdspBytes (checksum : Byte) (rsdtAddrPhys : List Byte) : List Byte :=
  sigRdsp ++ [checksum] ++ List.replicate 7 0 ++ rsdtAddrPhys

/-- A root pointer at the given physical address. -/
def rdspAt (pa : BitVec 64) : Memory :=
  placeBytes (p2v pa) (rdspBytes 0xE1 [0, 0, 0, 0])

theorem rsdp_search_complete_third_place :
    scanRdsp (directView (rdspAt 0xE0008)) 65 0xE0000 64 = .ok (p2v 0xE0008) := by
  have only : ∀ k < 12, IsRdsp (rdspAt 0xE0008) (place (p2v 0xE0000) k) ↔ k = 2 := by
    decide +kernel
  have shows : Shows (directView (rdspAt 0xE0008)) (rdspAt 0xE0008)
      (p2v 0xE0000) (64#64).toNat := by
    intro address inside
    refine if_pos ?_
    simp only [Within, BitVec.toNat_ofNat] at inside ⊢
    bv_omega
  have lowest : Lowest (rdspAt 0xE0008) (p2v 0xE0000) (64#64).toNat 2 := by
    refine ⟨by decide, (only 2 (by decide)).mpr rfl, ?_⟩
    intro j before isRdsp
    exact absurd ((only j (by omega)).mp isRdsp) (by omega)
  rcases rsdp_search_complete (show (64#64).toNat < 65 by decide) shows with
    ⟨result, scanned, complete⟩
  have found := complete.mpr (by
    intro k isLowest
    rcases Lowest.unique lowest.2.1 lowest.2.2 isLowest with rfl
    decide)
  rw [found.1 2 lowest] at scanned
  exact scanned

/-- A root pointer of the first version in the last bytes of a window is missed. -/
theorem rsdp_at_end_missed :
    IsRdsp (rdspAt 0xE0000) (place (p2v 0xE0000) 0) ∧ 4 * 0 + 20 ≤ (32#64).toNat ∧
      ∀ view fuel, scanRdsp view (fuel + 1) 0xE0000 32 = .ok 0 := by
  refine ⟨by decide +kernel, by decide, ?_⟩
  intro view fuel
  rfl

/-! ## The tables -/

/-- Something has been read that is not mapped. -/
def Faults {α : Type} (result : Except Stop α) : Prop :=
  ∃ address, result = .error (.fault address)

/-- A read, whose only way to fail is a fault. -/
def Reads {α : Type} (result : Except Stop α) : Prop :=
  (∃ value, result = .ok value) ∨ Faults result

section Faults

variable {α β : Type} {first : Except Stop α} {next : α → Except Stop β}

theorem Faults.bind (faults : Faults first) : Faults (first >>= next) := by
  rcases faults with ⟨address, rfl⟩
  exact ⟨address, rfl⟩

/-- If what follows a read faults, then so does the whole. -/
theorem Reads.bind (reads : Reads first)
    (rest : ∀ value, first = .ok value → Faults (next value)) :
    Faults (first >>= next) := by
  rcases reads with ⟨value, rfl⟩ | faults
  · exact rest value rfl
  · exact faults.bind

theorem not_faults_mapError (result : Except Halt α) :
    ¬ Faults (result.mapError Stop.halt) := by
  rintro ⟨address, stops⟩
  cases result with
  | ok value => cases stops
  | error reason => cases stops

theorem fetchWord_reads (view : View) (address : Addr) (size : Nat) :
    Reads (fetchWord view address size) := by
  induction size generalizing address with
  | zero => exact Or.inl ⟨_, rfl⟩
  | succ size induction =>
      rw [fetchWord, fetch]
      split
      · rw [bind_ok]
        rcases induction (address + 1) with ⟨value, rest⟩ | faults
        · rw [rest]
          exact Or.inl ⟨_, rfl⟩
        · exact Or.inr faults.bind
      · exact Or.inr ⟨_, rfl⟩

/-- A word with a byte that is not mapped. -/
theorem fetchWord_faults {view : View} {address : Addr} {size i : Nat}
    (inside : i < size) (hidden : view (address + BitVec.ofNat 64 i) = none) :
    Faults (fetchWord view address size) := by
  induction size generalizing address i with
  | zero => exact absurd inside (Nat.not_lt_zero i)
  | succ size induction =>
      rw [fetchWord]
      cases i with
      | zero =>
          rw [BitVec.add_zero] at hidden
          rw [fetch, hidden]
          exact ⟨address, rfl⟩
      | succ i =>
          have next : address + BitVec.ofNat 64 (i + 1) =
              address + 1 + BitVec.ofNat 64 i := by
            rw [Nat.add_comm, BitVec.ofNat_add, ← BitVec.add_assoc]
            rfl
          rw [next] at hidden
          have rest := induction (Nat.lt_of_succ_lt_succ inside) hidden
          rw [fetch]
          split
          · rw [bind_ok]
            exact rest.bind
          · exact ⟨_, rfl⟩

end Faults

/-- The table that the root pointer leads to. -/
def rsdtAddrPhys (mem : Memory) (rdsp : Addr) : BitVec 32 :=
  load32 mem (rdsp + rsdtAddrPhysOffset)

def rsdtOf (mem : Memory) (rdsp : Addr) : Addr :=
  p2v ((rsdtAddrPhys mem rdsp).setWidth 64)

def rsdtLength (mem : Memory) (rdsp : Addr) : BitVec 32 :=
  load32 mem (rsdtOf mem rdsp + lengthOffset)

def rsdtEntry (mem : Memory) (rdsp : Addr) (n : BitVec 32) : BitVec 32 :=
  load32 mem (entryAddr (rsdtOf mem rdsp) n)

/-- The segment of the extended area of the BIOS, as an address. -/
def ebdaOf (mem : Memory) : BitVec 64 :=
  (load mem (p2v 0x40E) 2).setWidth 64 <<< 4

/-- The first root pointer of the two areas is at the address. -/
def RootPointer (mem : Memory) (rdsp : Addr) : Prop :=
  (ebdaOf mem ≠ 0 ∧ First mem (p2v (ebdaOf mem)) 1024 rdsp) ∨
    (ebdaOf mem = 0 ∨ ∀ other, ¬ First mem (p2v (ebdaOf mem)) 1024 other) ∧
      First mem (p2v 0xE0000) 0x20000 rdsp

/-- The walk over the root table comes to the entry `n`: it is one of those that
the length leaves room for, and none before it makes the kernel panic. -/
def Reached (mem : Memory) (rdsp : Addr) (n : Nat) : Prop :=
  n < (entryCount (rsdtLength mem rdsp)).toNat ∧
    ∀ m < n, (rsdtEntry mem rdsp (BitVec.ofNat 32 m)).toNat ≤ maxPhysMem.toNat

/-- If the root table starts in the direct map, then so does the end of its length
field, of every entry that the walk comes to, and of the headers of the tables that
start there. -/
structure TablesMapped (mem : Memory) (rdsp : Addr) : Prop where
  header : (rsdtAddrPhys mem rdsp).toNat ≤ maxPhysMem.toNat →
    (rsdtAddrPhys mem rdsp).toNat + 8 ≤ maxPhysMem.toNat
  entries : (rsdtAddrPhys mem rdsp).toNat ≤ maxPhysMem.toNat →
    ∀ n, Reached mem rdsp n →
      (rsdtAddrPhys mem rdsp).toNat + 36 + 4 * n + 4 ≤ maxPhysMem.toNat
  headers : (rsdtAddrPhys mem rdsp).toNat ≤ maxPhysMem.toNat →
    ∀ n, Reached mem rdsp n →
      (rsdtEntry mem rdsp (BitVec.ofNat 32 n)).toNat ≤ maxPhysMem.toNat →
        (rsdtEntry mem rdsp (BitVec.ofNat 32 n)).toNat + 36 ≤ maxPhysMem.toNat

section Tables

variable {mem : Memory}

theorem toNat_setWidth_word (word : BitVec 32) :
    (word.setWidth 64).toNat = word.toNat :=
  BitVec.toNat_setWidth_of_le (by decide)

theorem directView_shows {pa : BitVec 64} {size : Nat}
    (fits : pa.toNat + size ≤ 0x1000000) :
    Shows (directView mem) mem (p2v pa) size := by
  intro address inside
  refine if_pos ?_
  show (address - kernbase).toNat < 0x1000000
  simp only [Within] at inside
  bv_omega

/-- A scan of a window in the direct map finds the first root pointer there. -/
theorem scanRdsp_mapped {base len : BitVec 64} {fuel : Nat}
    (fits : base.toNat + len.toNat ≤ 0x1000000) (enough : len.toNat < fuel) :
    ∃ rdsp, scanRdsp (directView mem) fuel base len = .ok rdsp ∧
      ((∃ pa : BitVec 64, rdsp = p2v pa ∧ pa.toNat + 36 ≤ 0x1000000 ∧
          First mem (p2v base) len.toNat rdsp) ∨
        (∀ other, ¬ First mem (p2v base) len.toNat other) ∧ rdsp = 0) := by
  rcases scanLoop_finds (directView_shows fits) enough with
    ⟨rdsp, scanned, finds⟩
  refine ⟨rdsp, scanned, ?_⟩
  rcases finds with first | ⟨none, rfl⟩
  · obtain ⟨k, room, _, _, isPlace⟩ := id first
    refine Or.inl ⟨base + BitVec.ofNat 64 (4 * k), ?_, ?_, first⟩
    · simp only [isPlace, place]
      bv_omega
    · rw [BitVec.toNat_add, BitVec.toNat_ofNat]
      omega
  · refine Or.inr ⟨?_, rfl⟩
    rintro other ⟨k, room, isRdsp, _⟩
    exact none k room isRdsp

theorem First.unique {p rdsp rdsp' : Addr} {len : Nat}
    (first : First mem p len rdsp) (first' : First mem p len rdsp') :
    rdsp = rdsp' := by
  rcases first with ⟨k, _, isRdsp, none, rfl⟩
  rcases first' with ⟨k', fits', isRdsp', none', rfl⟩
  rw [@Lowest.unique mem p len k k' isRdsp none ⟨by omega, isRdsp', none'⟩]

theorem RootPointer.unique {rdsp rdsp' : Addr} (root : RootPointer mem rdsp)
    (root' : RootPointer mem rdsp') : rdsp = rdsp' := by
  rcases root with ⟨area, first⟩ | ⟨none, first⟩
  · rcases root' with ⟨_, first'⟩ | ⟨noArea | none', _⟩
    · exact first.unique first'
    · exact absurd noArea area
    · exact absurd first (none' rdsp)
  · rcases root' with ⟨area', first'⟩ | ⟨_, first'⟩
    · rcases none with noArea | none
      · exact absurd noArea area'
      · exact absurd first' (none rdsp')
    · exact first.unique first'

/-- The result is the first root pointer of the two areas, or null if there is
none. -/
def Locates (mem : Memory) (result : Except Stop Addr) : Prop :=
  (∃ pa : BitVec 64, result = .ok (p2v pa) ∧ pa.toNat + 36 ≤ 0x1000000 ∧
    RootPointer mem (p2v pa)) ∨
  result = .ok 0 ∧ ∀ rdsp, ¬ RootPointer mem rdsp

/-- Without a root pointer in the first area, the second one decides. -/
theorem scanRdsp_locates {fuel : Nat} (enough : 0x20000 < fuel)
    (none : ebdaOf mem = 0 ∨
      ∀ other, ¬ First mem (p2v (ebdaOf mem)) 1024 other) :
    Locates mem (scanRdsp (directView mem) fuel 0xE0000 0x20000) := by
  rcases @scanRdsp_mapped mem 0xE0000 0x20000 fuel (by decide) enough with
    ⟨result, scanned, ⟨pa, rfl, fits, first⟩ | ⟨absent, rfl⟩⟩
  · exact Or.inl ⟨pa, scanned, fits, Or.inr ⟨none, first⟩⟩
  · refine Or.inr ⟨scanned, ?_⟩
    rintro rdsp (⟨area, first⟩ | ⟨_, first⟩)
    · rcases none with noArea | none
      · exact area noArea
      · exact none rdsp first
    · exact absent rdsp first

theorem findRdsp_locates (mem : Memory) {fuel : Nat} (enough : 0x20000 < fuel) :
    Locates mem (findRdsp (directView mem) fuel) := by
  have word : Shows (directView mem) mem (p2v 0x40E) 2 :=
    directView_shows (by decide)
  have areas : findRdsp (directView mem) fuel = (do
      let rdsp ← if ebdaOf mem ≠ 0 then
        scanRdsp (directView mem) fuel (ebdaOf mem) 1024 else .ok 0
      if rdsp ≠ 0 then return rdsp
      else scanRdsp (directView mem) fuel 0xE0000 0x20000) := by
    rw [findRdsp, word.fetchWord (by decide), bind_ok]
    rfl
  rw [areas]
  have low : (ebdaOf mem).toNat ≤ 0xFFFF0 := by
    have bound := (load mem (p2v 0x40E) 2).isLt
    rw [ebdaOf, BitVec.toNat_shiftLeft, BitVec.toNat_setWidth, Nat.shiftLeft_eq]
    omega
  by_cases noArea : ebdaOf mem = 0
  · rw [if_neg (not_not.mpr noArea), bind_ok]
    dsimp only
    rw [if_neg (not_not.mpr rfl)]
    exact scanRdsp_locates enough (Or.inl noArea)
  · rcases @scanRdsp_mapped mem (ebdaOf mem) 1024 fuel
      (show _ + 1024 ≤ _ by omega) (show 1024 < _ by omega) with
      ⟨first, scanned, place⟩
    rw [if_pos noArea, scanned, bind_ok]
    dsimp only
    rcases place with ⟨pa, rfl, fits, found⟩ | ⟨absent, rfl⟩
    · have nonnull : p2v pa ≠ 0 := by
        intro zero
        have sum := congrArg BitVec.toNat zero
        simp only [p2v, kernbase] at sum
        bv_omega
      rw [if_pos nonnull]
      exact Or.inl ⟨pa, rfl, fits, Or.inl ⟨noArea, found⟩⟩
    · rw [if_neg (not_not.mpr rfl)]
      exact scanRdsp_locates enough (Or.inr absent)

/-- A part of a window that goes beyond the direct map. -/
theorem fetchWord_beyond {pa : BitVec 64} {offset size : Nat}
    (small : pa.toNat + offset + size < 2 ^ 63) (some : 0 < size)
    (beyond : 0x1000000 < pa.toNat + offset + size) :
    Faults (fetchWord (directView mem) (p2v pa + BitVec.ofNat 64 offset) size) := by
  refine @fetchWord_faults _ _ size (size - 1) (by omega) (if_neg ?_)
  show ¬ (p2v pa + BitVec.ofNat 64 offset + BitVec.ofNat 64 (size - 1) -
    kernbase).toNat < 0x1000000
  have distance : p2v pa + BitVec.ofNat 64 offset +
      BitVec.ofNat 64 (size - 1) - kernbase =
        pa + BitVec.ofNat 64 (offset + (size - 1)) := by
    rw [BitVec.ofNat_add]
    simp only [p2v]
    bv_omega
  rw [distance, BitVec.toNat_add, BitVec.toNat_ofNat]
  omega

/-- The header of a table is read as far as it goes. -/
theorem visitTable_mapped {pa : BitVec 64} (fits : pa.toNat + 36 ≤ 0x1000000) :
    ∃ isMadt, visitTable (directView mem) (p2v pa) = .ok isMadt := by
  have shows : Shows (directView mem) mem (p2v pa) 36 := directView_shows fits
  have field (offset size : Nat) (inside : offset + size ≤ 36) :
      fetchWord (directView mem) (p2v pa + BitVec.ofNat 64 offset) size =
        .ok (load mem (p2v pa + BitVec.ofNat 64 offset) size) :=
    (shows.part inside (by omega)).fetchWord (by omega)
  rcases memcmp_eq (show Shows (directView mem) mem (p2v pa) sigMadt.length from
    shows.first (by decide)) (by decide) with ⟨difference, compared, _⟩
  refine ⟨difference = 0, ?_⟩
  have signature := (shows.first (show 4 ≤ 36 by decide)).fetchWord (by decide)
  have oemId : fetchWord _ (p2v pa + 10) 6 = _ := field 10 6 (by decide)
  have oemTableid : fetchWord _ (p2v pa + 16) 8 = _ := field 16 8 (by decide)
  have creatorId : fetchWord _ (p2v pa + 28) 4 = _ := field 28 4 (by decide)
  have oemRevision : fetchWord _ (p2v pa + 24) 4 = _ := field 24 4 (by decide)
  have creatorRevision : fetchWord _ (p2v pa + 32) 4 = _ :=
    field 32 4 (by decide)
  rw [visitTable, signature, oemId, oemTableid, creatorId, oemRevision,
    creatorRevision, compared]
  rfl

/-- The last field of a header that goes beyond the direct map is not mapped. -/
theorem visitTable_faults {pa : BitVec 64} (start : pa.toNat ≤ 0x1000000)
    (beyond : 0x1000000 < pa.toNat + 36) :
    Faults (visitTable (directView mem) (p2v pa)) := by
  have last : Faults (fetchWord (directView mem) (p2v pa + 32) 4) :=
    @fetchWord_beyond mem pa 32 4 (by omega) (by decide) beyond
  refine (fetchWord_reads _ _ 4).bind fun _ _ => ?_
  refine (fetchWord_reads _ _ 6).bind fun _ _ => ?_
  refine (fetchWord_reads _ _ 8).bind fun _ _ => ?_
  refine (fetchWord_reads _ _ 4).bind fun _ _ => ?_
  refine (fetchWord_reads _ _ 4).bind fun _ _ => ?_
  exact last.bind

/-- The entry `n` of the root table and the header that it leads to are mapped. -/
structure Fine (mem : Memory) (rdsp : Addr) (n : Nat) : Prop where
  entry : (rsdtAddrPhys mem rdsp).toNat + 36 + 4 * n + 4 ≤ maxPhysMem.toNat
  header : (rsdtEntry mem rdsp (BitVec.ofNat 32 n)).toNat ≤ maxPhysMem.toNat →
    (rsdtEntry mem rdsp (BitVec.ofNat 32 n)).toNat + 36 ≤ maxPhysMem.toNat

section Walk

variable {rdsp : Addr} {count : BitVec 32} {n : Nat} (more : n < count.toNat)
include more

theorem index_lt : BitVec.ofNat 32 n < count := by
  have bound := count.isLt
  rw [BitVec.lt_def, BitVec.toNat_ofNat]
  omega

/-- Where an entry of the root table lies. -/
theorem entryAddr_eq : entryAddr (rsdtOf mem rdsp) (BitVec.ofNat 32 n) =
    p2v ((rsdtAddrPhys mem rdsp).setWidth 64) +
      BitVec.ofNat 64 (36 + 4 * n) := by
  have bound := count.isLt
  have width : (BitVec.ofNat 32 n).setWidth 64 = BitVec.ofNat 64 n := by
    apply BitVec.eq_of_toNat_eq
    rw [BitVec.toNat_setWidth, BitVec.toNat_ofNat, BitVec.toNat_ofNat]
    omega
  have offset : headerSz + 4 * BitVec.ofNat 64 n =
      BitVec.ofNat 64 (36 + 4 * n) := by
    rw [BitVec.ofNat_add, BitVec.ofNat_mul]
    rfl
  rw [entryAddr, rsdtOf, width, BitVec.add_assoc, offset]

/-- The loop gets past an entry that is mapped, or panics. -/
theorem tableLoop_fine (fine : Fine mem rdsp n) (fuel : Nat) (madt : Addr) :
    tableLoop (directView mem) (rsdtOf mem rdsp) count (fuel + 1)
          (BitVec.ofNat 32 n) madt = .error notmapped ∧
        maxPhysMem.toNat < (rsdtEntry mem rdsp (BitVec.ofNat 32 n)).toNat ∨
      (rsdtEntry mem rdsp (BitVec.ofNat 32 n)).toNat ≤ maxPhysMem.toNat ∧
        ∃ madt', tableLoop (directView mem) (rsdtOf mem rdsp) count (fuel + 1)
            (BitVec.ofNat 32 n) madt =
          tableLoop (directView mem) (rsdtOf mem rdsp) count fuel
            (BitVec.ofNat 32 (n + 1)) madt' := by
  have shows : Shows (directView mem) mem
      (entryAddr (rsdtOf mem rdsp) (BitVec.ofNat 32 n)) 4 := by
    have whole : Shows (directView mem) mem
        (p2v ((rsdtAddrPhys mem rdsp).setWidth 64)) (36 + 4 * n + 4) :=
      directView_shows (by
        rw [toNat_setWidth_word]
        exact Nat.le_trans (by omega) fine.entry)
    have bound := count.isLt
    rw [entryAddr_eq more]
    exact whole.part (Nat.le_refl _) (by omega)
  rw [tableLoop, if_pos (index_lt more), shows.fetch32, bind_ok]
  have header := fine.header
  simp only [rsdtEntry] at header ⊢
  generalize load32 mem (entryAddr (rsdtOf mem rdsp) (BitVec.ofNat 32 n)) =
    entry at header ⊢
  by_cases beyond : maxPhysMem < entry.setWidth 64
  · refine Or.inl ⟨if_pos beyond, ?_⟩
    rwa [BitVec.lt_def, toNat_setWidth_word] at beyond
  · have inside : entry.toNat ≤ maxPhysMem.toNat := by
      rw [BitVec.lt_def, toNat_setWidth_word] at beyond
      exact Nat.not_lt.mp beyond
    rcases @visitTable_mapped mem (entry.setWidth 64)
      (by rw [toNat_setWidth_word]; exact header inside) with ⟨isMadt, visited⟩
    refine Or.inr
      ⟨inside, if isMadt then p2v (entry.setWidth 64) else madt, ?_⟩
    rw [if_neg beyond, visited, bind_ok, BitVec.ofNat_add]
    rfl

/-- It faults at one that is not. -/
theorem tableLoop_bad (bad : ¬ Fine mem rdsp n)
    (start : (rsdtAddrPhys mem rdsp).toNat ≤ maxPhysMem.toNat) (fuel : Nat)
    (madt : Addr) :
    Faults (tableLoop (directView mem) (rsdtOf mem rdsp) count (fuel + 1)
      (BitVec.ofNat 32 n) madt) := by
  have bound := count.isLt
  have limit : maxPhysMem.toNat = 0x1000000 := rfl
  rw [tableLoop, if_pos (index_lt more)]
  by_cases entry :
      (rsdtAddrPhys mem rdsp).toNat + 36 + 4 * n + 4 ≤ maxPhysMem.toNat
  · have header : ¬ ((rsdtEntry mem rdsp (BitVec.ofNat 32 n)).toNat ≤
        maxPhysMem.toNat →
          (rsdtEntry mem rdsp (BitVec.ofNat 32 n)).toNat + 36 ≤
            maxPhysMem.toNat) := fun header => bad ⟨entry, header⟩
    refine (fetchWord_reads _ _ 4).bind fun word fetched => ?_
    have isEntry : word = rsdtEntry mem rdsp (BitVec.ofNat 32 n) := by
      have whole : Shows (directView mem) mem
          (p2v ((rsdtAddrPhys mem rdsp).setWidth 64)) (36 + 4 * n + 4) :=
        directView_shows (by
          rw [toNat_setWidth_word]
          exact Nat.le_trans (by omega) entry)
      have shows := whole.part (Nat.le_refl (36 + 4 * n + 4)) (by omega)
      rw [← entryAddr_eq more] at shows
      rw [shows.fetch32] at fetched
      exact (Except.ok.inj fetched).symm
    rw [← isEntry] at header
    have inside : word.toNat ≤ maxPhysMem.toNat := by
      by_contra above
      exact header fun inside => absurd inside above
    have beyond : ¬ maxPhysMem < word.setWidth 64 := by
      rw [BitVec.lt_def, toNat_setWidth_word]
      omega
    rw [if_neg beyond]
    exact (visitTable_faults (by rw [toNat_setWidth_word]; exact inside)
      (by rw [toNat_setWidth_word]; omega)).bind
  · refine Faults.bind ?_
    rw [entryAddr_eq more]
    refine fetchWord_beyond ?_ (by decide) ?_
    · rw [toNat_setWidth_word]
      omega
    · rw [toNat_setWidth_word]
      omega

end Walk

/-- The loop over the entries does not fault if those that it comes to are
mapped. -/
theorem tableLoop_faultless {rdsp : Addr} {count : BitVec 32} {n fuel : Nat}
    (fine : ∀ m, n ≤ m → m < count.toNat →
      (∀ k, n ≤ k → k < m →
        (rsdtEntry mem rdsp (BitVec.ofNat 32 k)).toNat ≤ maxPhysMem.toNat) →
      Fine mem rdsp m) (bounded : n ≤ count.toNat) (madt : Addr) :
    ¬ Faults (tableLoop (directView mem) (rsdtOf mem rdsp) count fuel
      (BitVec.ofNat 32 n) madt) := by
  induction fuel generalizing n madt with
  | zero => rintro ⟨address, ⟨⟩⟩
  | succ fuel induction =>
      rcases Nat.lt_or_ge n count.toNat with more | last
      · have here := fine n (Nat.le_refl n) more fun k from' before =>
          absurd before (Nat.not_lt.mpr from')
        rcases tableLoop_fine more here fuel madt with
          ⟨panics, _⟩ | ⟨inside, madt', next⟩
        · rw [panics]
          rintro ⟨address, ⟨⟩⟩
        · rw [next]
          refine induction (fun m above below clear => ?_) more madt'
          refine fine m (by omega) below fun k from' before => ?_
          rcases Nat.eq_or_lt_of_le from' with rfl | after
          · exact inside
          · exact clear k after before
      · have atEnd : ¬ BitVec.ofNat 32 n < count := by
          rw [BitVec.lt_def, BitVec.toNat_ofNat]
          have small := Nat.mod_le n (2 ^ 32)
          have bound := count.isLt
          have same : n = count.toNat := by omega
          rw [same, Nat.mod_eq_of_lt bound]
          exact Nat.lt_irrefl _
        rw [tableLoop, if_neg atEnd]
        rintro ⟨address, ⟨⟩⟩

/-- It faults if it comes to one that is not. -/
theorem tableLoop_faults {rdsp : Addr} {count : BitVec 32} {n distance fuel : Nat}
    (start : (rsdtAddrPhys mem rdsp).toNat ≤ maxPhysMem.toNat)
    (more : n + distance < count.toNat)
    (clear : ∀ k, n ≤ k → k < n + distance →
      (rsdtEntry mem rdsp (BitVec.ofNat 32 k)).toNat ≤ maxPhysMem.toNat)
    (bad : ¬ Fine mem rdsp (n + distance)) (enough : distance < fuel)
    (madt : Addr) :
    Faults (tableLoop (directView mem) (rsdtOf mem rdsp) count fuel
      (BitVec.ofNat 32 n) madt) := by
  induction distance generalizing n fuel madt with
  | zero =>
      obtain ⟨fuel, rfl⟩ := Nat.exists_eq_succ_of_ne_zero (Nat.ne_zero_of_lt enough)
      exact tableLoop_bad more bad start fuel madt
  | succ distance induction =>
      obtain ⟨fuel, rfl⟩ := Nat.exists_eq_succ_of_ne_zero (Nat.ne_zero_of_lt enough)
      have here : n < count.toNat := by omega
      by_cases fine : Fine mem rdsp n
      · rcases tableLoop_fine here fine fuel madt with
          ⟨_, beyond⟩ | ⟨_, madt', next⟩
        · -- an entry before the bad one does not make the kernel panic
          exact absurd (clear n (Nat.le_refl n) (by omega)) (Nat.not_le.mpr beyond)
        · rw [next]
          have place : n + 1 + distance = n + (distance + 1) := by omega
          exact induction (by omega)
            (fun k from' before => clear k (by omega) (by omega))
            (place ▸ bad) (by omega) madt'
      · exact tableLoop_bad here fine start fuel madt

/-- With the root table in the direct map, the loop faults exactly if an entry that
it comes to is not mapped. -/
theorem tableLoop_faults_iff {rdsp : Addr} {fuel : Nat}
    (start : (rsdtAddrPhys mem rdsp).toNat ≤ maxPhysMem.toNat)
    (header : (rsdtAddrPhys mem rdsp).toNat + 8 ≤ maxPhysMem.toNat)
    (enough : 0x400000 < fuel) :
    Faults (tableLoop (directView mem) (rsdtOf mem rdsp)
        (entryCount (rsdtLength mem rdsp)) fuel 0 0) ↔
      ¬ TablesMapped mem rdsp := by
  have limit : maxPhysMem.toNat = 0x1000000 := rfl
  constructor
  · intro faults mapped
    refine @tableLoop_faultless mem rdsp _ 0 fuel ?_ (Nat.zero_le _) 0 faults
    intro m _ below clear
    have reached : Reached mem rdsp m :=
      ⟨below, fun k before => clear k (Nat.zero_le k) before⟩
    exact ⟨mapped.entries start m reached, mapped.headers start m reached⟩
  · intro unmapped
    have some : ∃ n, Reached mem rdsp n ∧ ¬ Fine mem rdsp n := by
      by_contra all
      have fine (n : Nat) (reached : Reached mem rdsp n) : Fine mem rdsp n := by
        by_contra bad
        exact all ⟨n, reached, bad⟩
      exact unmapped ⟨fun _ => header, fun _ n reached => (fine n reached).entry,
        fun _ n reached => (fine n reached).header⟩
    rcases some with ⟨n, reached, bad⟩
    -- an entry that far behind does not fit into memory
    have early : ∃ n ≤ 0x400000, Reached mem rdsp n ∧ ¬ Fine mem rdsp n := by
      by_cases small : n ≤ 0x400000
      · exact ⟨n, small, reached, bad⟩
      · refine ⟨0x400000, Nat.le_refl _, ⟨by have := reached.1; omega,
          fun k before => reached.2 k (by omega)⟩, fun fine => ?_⟩
        have fits := fine.entry
        omega
    rcases early with ⟨n, small, reached, bad⟩
    refine @tableLoop_faults mem rdsp _ 0 n fuel start ?_ ?_ ?_ (by omega) 0
    · rw [Nat.zero_add]
      exact reached.1
    · intro k _ before
      exact reached.2 k (by omega)
    · rw [Nat.zero_add]
      exact bad

/-- Up to the call of `acpi_config_smp`, the walk faults exactly if the root pointer
is missing or a table is not mapped. -/
theorem findMadt_faults_iff {fuel : Nat} (enough : 0x400000 < fuel) :
    Faults (findMadt (directView mem) fuel) ↔
      ¬ ∃ rdsp, RootPointer mem rdsp ∧ TablesMapped mem rdsp := by
  have limit : maxPhysMem.toNat = 0x1000000 := rfl
  rw [findMadt]
  rcases @findRdsp_locates mem fuel (by omega) with
    ⟨pa, found, fits, root⟩ | ⟨found, none⟩
  · have unique : (∃ rdsp, RootPointer mem rdsp ∧ TablesMapped mem rdsp) ↔
        TablesMapped mem (p2v pa) := by
      constructor
      · rintro ⟨rdsp, root', mapped⟩
        rwa [root.unique root']
      · exact fun mapped => ⟨p2v pa, root, mapped⟩
    have pointer : Shows (directView mem) mem (p2v pa + rsdtAddrPhysOffset) 4 :=
      @Shows.part _ mem (p2v pa) 36 (directView_shows fits) 16 4 (by decide)
        (by decide)
    rw [unique, found, bind_ok, pointer.fetch32, bind_ok]
    show Faults (if maxPhysMem <
      BitVec.setWidth 64 (rsdtAddrPhys mem (p2v pa)) then _ else _) ↔ _
    by_cases beyond : maxPhysMem < BitVec.setWidth 64 (rsdtAddrPhys mem (p2v pa))
    · have outside : ¬ (rsdtAddrPhys mem (p2v pa)).toNat ≤ maxPhysMem.toNat := by
        rw [BitVec.lt_def, toNat_setWidth_word] at beyond
        omega
      rw [if_pos beyond]
      refine iff_of_false (by rintro ⟨address, ⟨⟩⟩) (not_not.mpr ?_)
      exact ⟨fun inside => absurd inside outside,
        fun inside => absurd inside outside,
        fun inside => absurd inside outside⟩
    · have start : (rsdtAddrPhys mem (p2v pa)).toNat ≤ maxPhysMem.toNat := by
        rw [BitVec.lt_def, toNat_setWidth_word] at beyond
        exact Nat.not_lt.mp beyond
      rw [if_neg beyond]
      show Faults (fetchWord _ (rsdtOf mem (p2v pa) + lengthOffset) 4 >>= _) ↔ _
      by_cases header : (rsdtAddrPhys mem (p2v pa)).toNat + 8 ≤ maxPhysMem.toNat
      · have length : Shows (directView mem) mem
            (rsdtOf mem (p2v pa) + lengthOffset) 4 :=
          @Shows.part _ mem (rsdtOf mem (p2v pa)) 8
            (directView_shows (by rw [toNat_setWidth_word]; exact header)) 4 4 (by decide)
            (by decide)
        rw [length.fetch32, bind_ok]
        exact tableLoop_faults_iff start header enough
      · have mapped : ¬ TablesMapped mem (p2v pa) := fun mapped =>
          header (mapped.header start)
        refine iff_of_true (Faults.bind ?_) mapped
        exact @fetchWord_beyond mem ((rsdtAddrPhys mem (p2v pa)).setWidth 64) 4 4
          (by rw [toNat_setWidth_word]; omega) (by decide) (by rw [toNat_setWidth_word]; omega)
  · rw [found, bind_ok]
    refine iff_of_true (Faults.bind ?_) fun ⟨rdsp, root, _⟩ => none rdsp root
    exact ⟨16, rfl⟩

end Tables

/-- Memory with a root pointer at the start of the extended area of the BIOS, and
some more bytes. -/
def firmware (checksum : Byte) (rsdtAddrPhys : List Byte) (rest : Memory) :
    Memory := fun address =>
  if address = p2v 0x40F then 0x90
  else if Within (p2v 0x90000) 20 address then
    placeBytes (p2v 0x90000) (rdspBytes checksum rsdtAddrPhys) address
  else rest address

/-- A root table with one entry, for a table of zeros. -/
def sampleFirmware : Memory :=
  firmware 0xC8 [0, 0x10, 0x09, 0]
    (placeBytes (p2v 0x91000)
      ([0x52, 0x53, 0x44, 0x54, 40, 0, 0, 0] ++ List.replicate 28 0 ++
        [0, 0x20, 0x09, 0]))

/-- The address of the fault that a run ends with. -/
def faultOf {α : Type} : Except Stop α → Option Addr
  | .error (.fault address) => some address
  | _ => none

end Rt64.Kernel.Acpiinit
