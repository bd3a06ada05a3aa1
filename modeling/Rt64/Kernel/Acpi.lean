import Rt64.Include.Defs
import Mathlib.Data.List.GetD
import Mathlib.Logic.Relation

/-!
# The processors in the ACPI tables

`acpi_config_smp` walks over the entries of the multiple APIC description table
and enters the processors that it finds in `cpus`.  An entry starts with its type
and its length; the walk skips what it does not know and ends at the first entry
that does not fit into the table.
-/

namespace Rt64.Kernel.Acpi

open Rt64.Lib.ByteMemory
open Rt64.Include.Defs

/-! ## The code -/

/-- `struct percpu`, the part that is filled in from the table. -/
structure PerCpu where
  index : Byte
  lapicid : Byte
deriving DecidableEq

/-- `cpus`, `ncpu` and `ioapicid`, and the local variable `nioapic`. -/
structure Smp where
  cpus : Nat → PerCpu
  ncpu : Nat
  ioapicid : Byte
  nioapic : Nat

/-- The variables before the call. -/
def Smp.zero : Smp where
  cpus _ := ⟨0, 0⟩
  ncpu := 0
  ioapicid := 0
  nioapic := 0

abbrev typeLapic : Byte := 0
abbrev typeIoapic : Byte := 1
abbrev apicLapicEnabled : BitVec 32 := 1
abbrev defaultLapicPaddr : BitVec 32 := 0xFEE00000
abbrev defaultIoapicPaddr : BitVec 32 := 0xFEC00000

/-- `sizeof(struct acpi_madt)` and the places of its fields. -/
abbrev madtSz : BitVec 64 := 44
abbrev lengthOffset : BitVec 64 := 4
abbrev addrOffset : BitVec 64 := 36

/-- `panic` in `acpi_config_smp`. -/
def acpiPanic (text : String) : Halt :=
  .panic .acpiConfigSmp text

/-- The variables with one more processor. -/
def Smp.withCpu (smp : Smp) (apicId : Byte) : Smp :=
  { smp with
    cpus := Function.update smp.cpus smp.ncpu
      ⟨BitVec.ofNat 8 smp.ncpu, apicId⟩
    ncpu := smp.ncpu + 1 }

/-- The stores to `cpus[ncpu]` and `ncpu++`.  The code does not look whether there
is such an entry. -/
def Smp.addCpu (site : Site) (smp : Smp) (apicId : Byte) : Except Halt Smp :=
  if smp.ncpu < maxCpu then .ok (smp.withCpu apicId)
  else .error (.bounds site smp.ncpu)

/-- `case TYPE_LAPIC`. -/
def lapicEntry (mem : Memory) (p len : BitVec 64) (smp : Smp) :
    Except Halt Smp :=
  if len < 8 then .ok smp
  else if load32 mem (p + 4) &&& apicLapicEnabled = 0 then .ok smp
  else smp.addCpu .acpiConfigSmp (mem (p + 3))

/-- `case TYPE_IOAPIC`. -/
def ioapicEntry (mem : Memory) (p len : BitVec 64) (smp : Smp) :
    Except Halt Smp :=
  if len < 12 then .ok smp
  else if load32 mem (p + 4) ≠ defaultIoapicPaddr then
    .error (acpiPanic "got unexpected ioapic address")
  else if smp.nioapic ≠ 0 then
    .error (acpiPanic "multiple ioapics are not supported")
  else .ok { smp with ioapicid := mem (p + 2), nioapic := smp.nioapic + 1 }

/-- The `switch` on the type of an entry. -/
def madtEntry (mem : Memory) (p len : BitVec 64) (smp : Smp) :
    Except Halt Smp :=
  if mem p = typeLapic then lapicEntry mem p len smp
  else if mem p = typeIoapic then ioapicEntry mem p len smp
  else .ok smp

/-- The length byte of an entry. -/
def lenAt (mem : Memory) (p : Addr) : BitVec 64 :=
  (mem (p + 1)).setWidth 64

/-- The loop over the entries.  The difference of the pointers is signed, and its
comparison with `len` is unsigned. -/
def entryLoop (mem : Memory) (e : Addr) :
    Nat → Addr → Smp → Except Halt Smp
  | 0, _, _ => .error .fuel
  | fuel + 1, p, smp =>
      if p < e then
        if (e - p).slt 2 then .ok smp
        else if e - p < lenAt mem p then .ok smp
        else do
          let smp ← madtEntry mem p (lenAt mem p) smp
          entryLoop mem e fuel (p + lenAt mem p) smp
      else .ok smp

/-- The end of the table. -/
def tableEnd (mem : Memory) (madt : Addr) : Addr :=
  madt + madtSz + (load32 mem (madt + lengthOffset)).setWidth 64 - madtSz

def acpiConfigSmp (mem : Memory) (madt : Addr) (fuel : Nat) (smp : Smp) :
    Except Halt Smp :=
  if madt = 0 then .error (acpiPanic "acpi: cannot find madt")
  else if (load32 mem (madt + lengthOffset)).setWidth 64 < madtSz then
    .error (acpiPanic "acpi: invalid madt")
  else if load32 mem (madt + addrOffset) ≠ defaultLapicPaddr then
    .error (acpiPanic "got unexpected lapic address %p")
  else do
    let smp ← entryLoop mem (tableEnd mem madt) fuel (madt + madtSz)
      { smp with nioapic := 0 }
    if smp.ncpu = 0 then .error (acpiPanic "acpi: cannot detect lapic")
    else .ok smp

/-! ## The iterations of the loop -/

/-- The entry after the one at `p`, if that one is complete. -/
def advance (mem : Memory) (e p : Addr) : Option Addr :=
  if p < e ∧ (e - p).slt 2 = false ∧ lenAt mem p ≤ e - p then
    some (p + lenAt mem p)
  else none

/-- The state of the loop: the entry that it has come to, and the variables. -/
abbrev Position : Type := Addr × Smp

/-- One iteration that gets through. -/
def Iterates (mem : Memory) (e : Addr) (position next : Position) : Prop :=
  advance mem e position.1 = some next.1 ∧
    madtEntry mem position.1 (lenAt mem position.1) position.2 = .ok next.2

/-- The loop comes from one position to the other. -/
def Visits (mem : Memory) (e : Addr) : Position → Position → Prop :=
  Relation.ReflTransGen (Iterates mem e)

section Loop

variable {mem : Memory} {e p : Addr} {smp smp' : Smp}

theorem entryLoop_of_advance {q : Addr} (next : advance mem e p = some q)
    (fuel : Nat) (smp : Smp) :
    entryLoop mem e (fuel + 1) p smp =
      madtEntry mem p (lenAt mem p) smp >>= entryLoop mem e fuel q := by
  unfold advance at next
  split at next
  · rename_i complete
    rcases complete with ⟨before, two, fits⟩
    rw [entryLoop, if_pos before, two, if_neg Bool.false_ne_true,
      if_neg (BitVec.not_lt.mpr fits), ← Option.some.inj next]
  · cases next

theorem entryLoop_of_none (last : advance mem e p = none) (fuel : Nat)
    (smp : Smp) : entryLoop mem e (fuel + 1) p smp = .ok smp := by
  unfold advance at last
  split at last
  · cases last
  · rename_i incomplete
    rw [entryLoop]
    split
    · rename_i before
      split
      · rfl
      · rename_i two
        have short : e - p < lenAt mem p := by
          rw [← BitVec.not_le]
          intro fits
          exact incomplete ⟨before, Bool.eq_false_iff.mpr two, fits⟩
        rw [if_pos short]
    · rfl

/-- An iteration of the loop that gets through. -/
theorem entryLoop_of_iterates {position next : Position}
    (iterates : Iterates mem e position next) (fuel : Nat) :
    entryLoop mem e (fuel + 1) position.1 position.2 =
      entryLoop mem e fuel next.1 next.2 := by
  rw [entryLoop_of_advance iterates.1, iterates.2, ok_bind]

/-- A walk to the end is a sequence of iterations. -/
theorem visits_of_walked {fuel : Nat}
    (walked : entryLoop mem e fuel p smp = .ok smp') :
    ∃ q, Visits mem e (p, smp) (q, smp') := by
  induction fuel generalizing p smp with
  | zero => cases walked
  | succ fuel induction =>
      cases isNext : advance mem e p with
      | none =>
          rw [entryLoop_of_none isNext] at walked
          rcases Except.ok.inj walked with rfl
          exact ⟨p, .refl⟩
      | some q =>
          rw [entryLoop_of_advance isNext, bind_eq_ok] at walked
          rcases walked with ⟨between, handled, rest⟩
          rcases induction rest with ⟨last, visits⟩
          exact ⟨last, .head ⟨isNext, handled⟩ visits⟩

/-- A table that is accepted has been walked over to its end. -/
theorem walked_of_accepted {madt : Addr} {fuel : Nat}
    (accepted : acpiConfigSmp mem madt fuel smp = .ok smp') :
    entryLoop mem (tableEnd mem madt) fuel (madt + madtSz)
      { smp with nioapic := 0 } = .ok smp' := by
  unfold acpiConfigSmp at accepted
  split at accepted
  · cases accepted
  split at accepted
  · cases accepted
  split at accepted
  · cases accepted
  · rw [bind_eq_ok] at accepted
    rcases accepted with ⟨walked, loop, detected⟩
    split at detected
    · cases detected
    · rcases Except.ok.inj detected with rfl
      exact loop

/-- The header passes the checks before the loop. -/
structure Scanned (mem : Memory) (madt : Addr) : Prop where
  present : madt ≠ 0
  valid : madtSz ≤ (load32 mem (madt + lengthOffset)).setWidth 64
  addr : load32 mem (madt + addrOffset) = defaultLapicPaddr

/-- Behind the checks of the header, what stops the function other than a panic
stops the loop. -/
theorem acpiConfigSmp_eq_error_iff {madt : Addr} (scanned : Scanned mem madt)
    {fuel : Nat} {halt : Halt} (notPanic : ∀ text, halt ≠ acpiPanic text) :
    acpiConfigSmp mem madt fuel smp = .error halt ↔
      entryLoop mem (tableEnd mem madt) fuel (madt + madtSz)
        { smp with nioapic := 0 } = .error halt := by
  rw [acpiConfigSmp, if_neg scanned.present,
    if_neg (BitVec.not_lt.mpr scanned.valid), if_neg (not_not.mpr scanned.addr)]
  cases entryLoop mem (tableEnd mem madt) fuel (madt + madtSz)
      { smp with nioapic := 0 } with
  | error halt' => exact Iff.rfl
  | ok smp' =>
      rw [ok_bind]
      split
      · refine iff_of_false ?_ nofun
        intro same
        exact notPanic _ (Except.error.inj same).symm
      · exact iff_of_false nofun nofun

end Loop

/-! ## Termination -/

section Termination

variable {mem : Memory} {e p : Addr} {position : Position}

/-- An entry with a length brings the loop nearer to the end. -/
theorem advance_lt {q : Addr} (next : advance mem e p = some q)
    (positive : mem (p + 1) ≠ 0) : p < q ∧ q ≤ e := by
  unfold advance at next
  split at next
  · rename_i complete
    rcases complete with ⟨before, _, fits⟩
    rcases Option.some.inj next with rfl
    have width : (lenAt mem p).toNat = (mem (p + 1)).toNat :=
      BitVec.toNat_setWidth_of_le (by decide)
    have length : 0 < (mem (p + 1)).toNat := by
      refine Nat.pos_of_ne_zero fun zero => positive ?_
      exact BitVec.eq_of_toNat_eq zero
    rw [BitVec.lt_def] at before ⊢
    rw [BitVec.le_def] at fits ⊢
    bv_omega
  · cases next

theorem not_fuel_of_madtEntry (p len : BitVec 64) (smp : Smp) :
    madtEntry mem p len smp ≠ .error .fuel := by
  unfold madtEntry lapicEntry Smp.addCpu ioapicEntry acpiPanic
  split
  · split
    · nofun
    split
    · nofun
    split
    · nofun
    · nofun
  split
  · split
    · nofun
    split
    · nofun
    split
    · nofun
    · nofun
  · nofun

/-- An entry of length 0 is too short for everything that the loop looks for. -/
theorem madtEntry_zero (smp : Smp) : madtEntry mem p 0#64 smp = .ok smp := by
  unfold madtEntry lapicEntry ioapicEntry
  split
  · rfl
  split
  · rfl
  · rfl

/-- No entry that the loop comes to and does not stop at has the length 0. -/
def Positive (mem : Memory) (e : Addr) (position : Position) : Prop :=
  ∀ later, Visits mem e position later → (advance mem e later.1).isSome →
    mem (later.1 + 1) ≠ 0

theorem Positive.next {next : Position} (positive : Positive mem e position)
    (iterates : Iterates mem e position next) : Positive mem e next :=
  fun later visits => positive later (.head iterates visits)

/-- The loop ends when every entry on its way has a length. -/
theorem entryLoop_ends (positive : Positive mem e position) {fuel : Nat}
    (enough : e.toNat - position.1.toNat < fuel) :
    entryLoop mem e fuel position.1 position.2 ≠ .error .fuel := by
  induction fuel generalizing position with
  | zero => omega
  | succ fuel induction =>
      cases next : advance mem e position.1 with
      | none =>
          rw [entryLoop_of_none next]
          nofun
      | some q =>
          have complete : (advance mem e position.1).isSome := by
            rw [next]
            rfl
          rcases advance_lt next (positive _ .refl complete) with ⟨less, le⟩
          rw [BitVec.lt_def] at less
          rw [BitVec.le_def] at le
          cases handled :
              madtEntry mem position.1 (lenAt mem position.1) position.2 with
          | error halt =>
              rw [entryLoop_of_advance next, handled]
              intro same
              rcases Except.error.inj same with rfl
              exact not_fuel_of_madtEntry _ _ _ handled
          | ok smp' =>
              have iterates : Iterates mem e position (q, smp') :=
                ⟨next, handled⟩
              rw [entryLoop_of_iterates iterates]
              exact induction (positive.next iterates)
                (show e.toNat - q.toNat < fuel by omega)

/-- At an entry of length 0 the loop makes an iteration that changes nothing. -/
theorem iterates_of_zero (complete : (advance mem e position.1).isSome)
    (zero : mem (position.1 + 1) = 0) : Iterates mem e position position := by
  have length : lenAt mem position.1 = 0#64 := by
    rw [lenAt, zero]
    rfl
  refine ⟨?_, by rw [length, madtEntry_zero]⟩
  unfold advance at complete ⊢
  split at complete
  · rename_i holds
    rw [if_pos holds, length, BitVec.add_zero]
  · cases complete

/-- From an entry of length 0 on, and from all before it, the loop does not end. -/
theorem entryLoop_stuck {stuck : Position} (visits : Visits mem e position stuck)
    (again : Iterates mem e stuck stuck) (fuel : Nat) :
    entryLoop mem e fuel position.1 position.2 = .error .fuel := by
  induction fuel generalizing position with
  | zero => rfl
  | succ fuel induction =>
      rcases visits.cases_head with rfl | ⟨next, iterates, rest⟩
      · rw [entryLoop_of_iterates again]
        exact induction .refl
      · rw [entryLoop_of_iterates iterates]
        exact induction rest

end Termination

/-- A byte of a list that lies at an address; zero elsewhere. -/
def placeBytes (base : Addr) (bytes : List Byte) : Memory :=
  fun address => bytes.getD (address - base).toNat 0

/-- The header of a table with the given length and local APIC address, up to
the entries. -/
def madtHeader (length : Byte) (addr : List Byte) : List Byte :=
  [0x41, 0x50, 0x49, 0x43, length, 0, 0, 0] ++ List.replicate 28 0 ++ addr ++
    [0, 0, 0, 0]

/-- The bytes of `DEFAULT_LAPIC_PADDR`. -/
def lapicAddr : List Byte := [0, 0, 0xE0, 0xFE]

abbrev sampleMadt : Addr := 0xFFFFFFFF80001000

/-- A table with one enabled local APIC, whose number is 5. -/
def sampleTable : Memory :=
  placeBytes sampleMadt (madtHeader 52 lapicAddr ++ [0, 8, 0, 5, 1, 0, 0, 0])

theorem sampleTable_first :
    advance sampleTable (tableEnd sampleTable sampleMadt)
      (sampleMadt + madtSz) = some (tableEnd sampleTable sampleMadt) := by
  decide +kernel

theorem sampleTable_last :
    advance sampleTable (tableEnd sampleTable sampleMadt)
      (tableEnd sampleTable sampleMadt) = none := by
  decide +kernel

theorem sampleTable_scanned : Scanned sampleTable sampleMadt :=
  ⟨by decide, by decide +kernel, by decide +kernel⟩

/-- A table with one entry, of length 0. -/
def emptyEntryTable : Memory :=
  placeBytes sampleMadt (madtHeader 46 lapicAddr ++ [0, 0])

/-- The entry is that of an enabled processor, and it is complete. -/
def Enters (mem : Memory) (p len : BitVec 64) : Prop :=
  mem p = typeLapic ∧ ¬ len < 8 ∧ load32 mem (p + 4) &&& apicLapicEnabled ≠ 0

instance (mem : Memory) (p len : BitVec 64) : Decidable (Enters mem p len) :=
  inferInstanceAs (Decidable (_ ∧ _ ∧ _))

/-- How many I/O APICs there are after the entry, unless it makes the kernel
panic. -/
def ioapicsAfter (mem : Memory) (p len : BitVec 64) (nioapic : Nat) :
    Option Nat :=
  if mem p = typeIoapic ∧ ¬ len < 12 then
    if load32 mem (p + 4) = defaultIoapicPaddr ∧ nioapic = 0 then
      some (nioapic + 1)
    else none
  else some nioapic

section Enters

variable {mem : Memory} {p len : BitVec 64} {smp smp' : Smp}

theorem madtEntry_of_enters (enters : Enters mem p len) :
    madtEntry mem p len smp = smp.addCpu .acpiConfigSmp (mem (p + 3)) := by
  rcases enters with ⟨type, long, enabled⟩
  rw [madtEntry, if_pos type, lapicEntry, if_neg long, if_neg enabled]

theorem ioapicsAfter_of_enters (enters : Enters mem p len) (nioapic : Nat) :
    ioapicsAfter mem p len nioapic = some nioapic := by
  apply if_neg
  rintro ⟨isIoapic, _⟩
  rw [enters.1] at isIoapic
  cases isIoapic

theorem addCpu_eq_ok {site : Site} {apicId : Byte}
    (added : smp.addCpu site apicId = .ok smp') :
    smp.ncpu < maxCpu ∧ smp' = smp.withCpu apicId := by
  unfold Smp.addCpu at added
  split at added
  · rename_i room
    exact ⟨room, (Except.ok.inj added).symm⟩
  · cases added

/-- An entry that is not of an enabled processor panics or leaves the processors
alone. -/
theorem madtEntry_of_not_enters (notEnters : ¬ Enters mem p len) (smp : Smp) :
    match ioapicsAfter mem p len smp.nioapic with
    | none => ∃ text, madtEntry mem p len smp = .error (acpiPanic text)
    | some nioapic => ∃ smp', madtEntry mem p len smp = .ok smp' ∧
        smp'.nioapic = nioapic ∧ smp'.cpus = smp.cpus ∧
        smp'.ncpu = smp.ncpu := by
  have different : typeLapic ≠ typeIoapic := by decide
  unfold madtEntry ioapicsAfter
  by_cases isLapic : mem p = typeLapic
  · have untouched : lapicEntry mem p len smp = .ok smp := by
      unfold lapicEntry
      split
      · rfl
      split
      · rfl
      · rename_i long enabled
        exact absurd ⟨isLapic, long, enabled⟩ notEnters
    rw [if_pos isLapic, untouched, isLapic,
      if_neg fun isIoapic => different isIoapic.1]
    exact ⟨smp, rfl, rfl, rfl, rfl⟩
  rw [if_neg isLapic]
  by_cases isIoapic : mem p = typeIoapic
  · rw [if_pos isIoapic, ioapicEntry]
    by_cases short : len < 12
    · rw [if_pos short, if_neg fun complete => complete.2 short]
      exact ⟨smp, rfl, rfl, rfl, rfl⟩
    rw [if_neg short, if_pos (⟨isIoapic, short⟩ : _ ∧ _)]
    by_cases isKnown : load32 mem (p + 4) = defaultIoapicPaddr
    · rw [if_neg (not_not.mpr isKnown)]
      by_cases isFirst : smp.nioapic = 0
      · rw [if_pos (⟨isKnown, isFirst⟩ : _ ∧ _), if_neg (not_not.mpr isFirst)]
        exact ⟨_, rfl, rfl, rfl, rfl⟩
      · rw [if_neg fun both => isFirst both.2, if_pos isFirst]
        exact ⟨_, rfl⟩
    · rw [if_neg fun both => isKnown both.1, if_pos isKnown]
      exact ⟨_, rfl⟩
  · rw [if_neg isIoapic, if_neg fun complete => isIoapic complete.1]
    exact ⟨smp, rfl, rfl, rfl, rfl⟩

/-- What is left of the variables for the processor table. -/
theorem unchanged_of_not_enters (notEnters : ¬ Enters mem p len)
    (handled : madtEntry mem p len smp = .ok smp') :
    ioapicsAfter mem p len smp.nioapic = some smp'.nioapic ∧
      smp'.cpus = smp.cpus ∧ smp'.ncpu = smp.ncpu := by
  have outcome := madtEntry_of_not_enters notEnters smp
  split at outcome
  · rcases outcome with ⟨text, panics⟩
    rw [handled] at panics
    cases panics
  · rename_i after
    rcases outcome with ⟨smp'', handled', rfl, cpus, ncpu⟩
    rw [handled] at handled'
    rcases Except.ok.inj handled' with rfl
    exact ⟨after, cpus, ncpu⟩

end Enters

/-! ## The size of the processor table -/

/-- The number of enabled processors among the next entries, up to one that makes
the kernel panic, when `nioapic` I/O APICs have been found. -/
def processors (mem : Memory) (e : Addr) : Nat → Addr → Nat → Nat
  | 0, _, _ => 0
  | count + 1, p, nioapic =>
      match advance mem e p, ioapicsAfter mem p (lenAt mem p) nioapic with
      | some q, some after =>
          (if Enters mem p (lenAt mem p) then 1 else 0) +
            processors mem e count q after
      | _, _ => 0

section Size

variable {mem : Memory} {e p : Addr} {position next : Position} {smp smp' : Smp}

theorem Iterates.enters (iterates : Iterates mem e position next) :
    ioapicsAfter mem position.1 (lenAt mem position.1) position.2.nioapic =
        some next.2.nioapic ∧
      next.2.ncpu = position.2.ncpu +
        (if Enters mem position.1 (lenAt mem position.1) then 1 else 0) ∧
      next.2.ncpu ≤ max maxCpu position.2.ncpu ∧
      ∀ k, next.2.ncpu ≤ k → next.2.cpus k = position.2.cpus k := by
  rcases iterates with ⟨_, handled⟩
  by_cases enters : Enters mem position.1 (lenAt mem position.1)
  · rw [madtEntry_of_enters enters] at handled
    rcases addCpu_eq_ok handled with ⟨room, isNext⟩
    have ncpu : next.2.ncpu = position.2.ncpu + 1 := by
      rw [isNext]
      rfl
    have nioapic : next.2.nioapic = position.2.nioapic := by
      rw [isNext]
      rfl
    refine ⟨?_, by rw [if_pos enters, ncpu], by omega, ?_⟩
    · rw [ioapicsAfter_of_enters enters, nioapic]
    · intro k beyond
      rw [isNext]
      exact Function.update_of_ne (by omega) ..
  · rcases unchanged_of_not_enters enters handled with ⟨after, cpus, ncpu⟩
    refine ⟨after, by rw [if_neg enters, ncpu, Nat.add_zero], by omega, ?_⟩
    intro k _
    rw [cpus]

/-- What the loop has done to the table is in its bounds. -/
theorem Visits.table (visits : Visits mem e position next)
    (fits : position.2.ncpu ≤ maxCpu) :
    next.2.ncpu ≤ maxCpu ∧ position.2.ncpu ≤ next.2.ncpu ∧
      ∀ k, next.2.ncpu ≤ k → next.2.cpus k = position.2.cpus k := by
  induction visits with
  | refl => exact ⟨fits, Nat.le_refl _, fun _ _ => rfl⟩
  | @tail middle last _ iterates induction =>
      rcases induction with ⟨bound, above, kept⟩
      rcases iterates.enters with ⟨_, ncpu, limit, kept'⟩
      refine ⟨by omega, by omega, fun k beyond => ?_⟩
      rw [kept' k beyond, kept k (by omega)]

/-- An entry that is stored behind the end of the table. -/
theorem bounds_of_madtEntry {len : BitVec 64} {site : Site} {k : Nat}
    (stops : madtEntry mem p len smp = .error (.bounds site k)) :
    Enters mem p len ∧ maxCpu ≤ smp.ncpu := by
  by_cases enters : Enters mem p len
  · rw [madtEntry_of_enters enters, Smp.addCpu] at stops
    split at stops
    · cases stops
    · rename_i full
      exact ⟨enters, Nat.not_lt.mp full⟩
  · have outcome := madtEntry_of_not_enters enters smp
    split at outcome
    · rcases outcome with ⟨text, panics⟩
      rw [stops] at panics
      cases panics
    · rcases outcome with ⟨smp', handled, _⟩
      rw [stops] at handled
      cases handled

/-- The loop stores behind the end of the table only if there are more processors
than it has entries. -/
theorem processors_of_bounds {fuel : Nat} {site : Site} {k : Nat}
    (stops : entryLoop mem e fuel p smp = .error (.bounds site k)) :
    ∃ count, maxCpu < smp.ncpu + processors mem e count p smp.nioapic := by
  induction fuel generalizing p smp with
  | zero => cases stops
  | succ fuel induction =>
      cases isNext : advance mem e p with
      | none =>
          rw [entryLoop_of_none isNext] at stops
          cases stops
      | some q =>
          rw [entryLoop_of_advance isNext] at stops
          cases handled : madtEntry mem p (lenAt mem p) smp with
          | error halt =>
              rw [handled] at stops
              rcases Except.error.inj stops with rfl
              rcases bounds_of_madtEntry handled with ⟨enters, full⟩
              refine ⟨1, ?_⟩
              simp only [processors, isNext, ioapicsAfter_of_enters enters,
                if_pos enters]
              omega
          | ok smp' =>
              have iterates : Iterates mem e (p, smp) (q, smp') :=
                ⟨isNext, handled⟩
              rcases iterates.enters with ⟨after, ncpu, _⟩
              dsimp only at after ncpu
              rw [handled, ok_bind] at stops
              rcases induction stops with ⟨count, crowded⟩
              refine ⟨count + 1, ?_⟩
              simp only [processors, isNext, after]
              omega

/-- With more processors than entries the loop does store behind the end. -/
theorem bounds_of_processors {count : Nat} (fits : smp.ncpu ≤ maxCpu)
    (crowded : maxCpu < smp.ncpu + processors mem e count p smp.nioapic) :
    ∃ fuel, entryLoop mem e fuel p smp =
      .error (.bounds .acpiConfigSmp maxCpu) := by
  induction count generalizing p smp with
  | zero =>
      rw [processors] at crowded
      omega
  | succ count induction =>
      rw [processors] at crowded
      split at crowded
      · rename_i q after isNext isAfter
        cases handled : madtEntry mem p (lenAt mem p) smp with
        | ok smp' =>
            have iterates : Iterates mem e (p, smp) (q, smp') :=
              ⟨isNext, handled⟩
            rcases iterates.enters with ⟨after', ncpu, limit, _⟩
            dsimp only at after' ncpu limit
            rw [isAfter, Option.some.injEq] at after'
            subst after'
            rcases @induction q smp' (by omega) (by omega) with ⟨fuel, stops⟩
            exact ⟨fuel + 1, (entryLoop_of_iterates iterates fuel).trans stops⟩
        | error halt =>
            refine ⟨1, ?_⟩
            rw [entryLoop_of_advance isNext, handled]
            by_cases enters : Enters mem p (lenAt mem p)
            · rw [madtEntry_of_enters enters, Smp.addCpu] at handled
              split at handled
              · cases handled
              · rename_i full
                have isFull : smp.ncpu = maxCpu := by omega
                rw [← Except.error.inj handled, isFull]
                rfl
            · have outcome := madtEntry_of_not_enters enters smp
              rw [isAfter] at outcome
              rcases outcome with ⟨smp', handled', _⟩
              rw [handled] at handled'
              cases handled'
      · omega

end Size

/--
Whatever the table contains, a store to `cpus` goes behind the end of the array
exactly if the checks of the header pass and more than `MAX_CPU` of the entries that
the loop comes to before it ends or panics are enabled processors.  If the function
returns, the number of processors is not larger than the array, and the entries
behind it are untouched.
-/
theorem cpu_table_bounded (mem : Memory) (madt : Addr) :
    ((∀ fuel site k, acpiConfigSmp mem madt fuel Smp.zero ≠
        .error (.bounds site k)) ↔
      (Scanned mem madt → ∀ count,
        processors mem (tableEnd mem madt) count (madt + madtSz) 0 ≤ maxCpu)) ∧
    ∀ fuel smp, acpiConfigSmp mem madt fuel Smp.zero = .ok smp →
      smp.ncpu ≤ maxCpu ∧ ∀ k, smp.ncpu ≤ k → smp.cpus k = Smp.zero.cpus k := by
  refine ⟨⟨?_, ?_⟩, ?_⟩
  · intro inside scanned count
    by_contra crowded
    have start : maxCpu < 0 + processors mem (tableEnd mem madt) count
        (madt + madtSz) 0 := by omega
    rcases @bounds_of_processors mem (tableEnd mem madt) (madt + madtSz)
      { Smp.zero with nioapic := 0 } count (Nat.zero_le _) start with
      ⟨fuel, stops⟩
    exact inside fuel _ _ ((acpiConfigSmp_eq_error_iff scanned fun _ => by nofun).mpr stops)
  · intro few fuel site k stops
    by_cases scanned : Scanned mem madt
    · rcases processors_of_bounds
        ((acpiConfigSmp_eq_error_iff scanned fun _ => by nofun).mp stops) with
        ⟨count, crowded⟩
      have bound := few scanned count
      have start : maxCpu < 0 + processors mem (tableEnd mem madt) count
        (madt + madtSz) 0 := crowded
      omega
    · unfold acpiConfigSmp at stops
      split at stops
      · cases stops
      rename_i present
      split at stops
      · cases stops
      rename_i valid
      split at stops
      · cases stops
      rename_i addr
      exact scanned ⟨present, BitVec.not_lt.mp valid, not_not.mp addr⟩
  · intro fuel smp accepted
    rcases visits_of_walked (walked_of_accepted accepted) with ⟨q, visits⟩
    rcases visits.table (Nat.zero_le _) with ⟨bound, _, kept⟩
    exact ⟨bound, kept⟩

/-- A table is accepted if running the code on it says so. -/
theorem accepted_of_check {mem : Memory} {fuel : Nat} {check : Smp → Bool}
    (checked : (match acpiConfigSmp mem sampleMadt fuel Smp.zero with
      | .ok smp => check smp
      | .error _ => false) = true) :
    ∃ smp, acpiConfigSmp mem sampleMadt fuel Smp.zero = .ok smp ∧
      check smp = true := by
  cases result : acpiConfigSmp mem sampleMadt fuel Smp.zero with
  | ok smp =>
      rw [result] at checked
      exact ⟨smp, rfl, checked⟩
  | error halt =>
      rw [result] at checked
      cases checked

/-- A table with nine enabled local APICs. -/
def crowdedTable : Memory :=
  placeBytes sampleMadt (madtHeader 116 lapicAddr ++
    (List.range 9).flatMap fun i =>
      [0, 8, 0, BitVec.ofNat 8 i, 1, 0, 0, 0])

/-- The ninth processor is entered behind the end of `cpus`. -/
theorem cpu_table_overrun :
    acpiConfigSmp crowdedTable sampleMadt 10 Smp.zero =
      .error (.bounds .acpiConfigSmp maxCpu) := by
  have stopped : (match acpiConfigSmp crowdedTable sampleMadt 10 Smp.zero with
      | .ok _ => false
      | .error halt => halt == .bounds .acpiConfigSmp maxCpu) = true := by
    decide +kernel
  cases result : acpiConfigSmp crowdedTable sampleMadt 10 Smp.zero with
  | ok smp =>
      rw [result] at stopped
      cases stopped
  | error halt =>
      rw [result] at stopped
      rw [eq_of_beq stopped]

/-! ## The numbers of the processors -/

/-- The processors are numbered in the order of the table. -/
def Indexed (smp : Smp) : Prop :=
  ∀ i < smp.ncpu, (smp.cpus i).index = BitVec.ofNat 8 i

section Indexed

variable {mem : Memory} {smp smp' : Smp}

theorem Indexed.withCpu (indexed : Indexed smp) (apicId : Byte) :
    Indexed (smp.withCpu apicId) := by
  intro i bound
  have bound' : i < smp.ncpu + 1 := bound
  by_cases isNew : i = smp.ncpu
  · subst isNew
    simp [Smp.withCpu]
  · simp only [Smp.withCpu, Function.update_of_ne isNew]
    exact indexed i (by omega)

theorem Indexed.madtEntry {p len : BitVec 64} (indexed : Indexed smp)
    (handled : madtEntry mem p len smp = .ok smp') : Indexed smp' := by
  by_cases enters : Enters mem p len
  · rw [madtEntry_of_enters enters] at handled
    rcases addCpu_eq_ok handled with ⟨_, rfl⟩
    exact indexed.withCpu _
  · rcases unchanged_of_not_enters enters handled with ⟨_, cpus, ncpu⟩
    intro i bound
    rw [cpus]
    exact indexed i (ncpu ▸ bound)

theorem Indexed.entryLoop {e p : Addr} {fuel : Nat} (indexed : Indexed smp)
    (walked : entryLoop mem e fuel p smp = .ok smp') : Indexed smp' := by
  induction fuel generalizing p smp with
  | zero => cases walked
  | succ fuel induction =>
      cases next : advance mem e p with
      | none =>
          rw [entryLoop_of_none next] at walked
          rcases Except.ok.inj walked with rfl
          exact indexed
      | some q =>
          rw [entryLoop_of_advance next, bind_eq_ok] at walked
          rcases walked with ⟨between, handled, rest⟩
          exact induction (indexed.madtEntry handled) rest

/-- The tables that `acpi_config_smp` accepts leave the numbers in order. -/
theorem indexed_of_accepted {madt : Addr} {fuel : Nat}
    (accepted : acpiConfigSmp mem madt fuel Smp.zero = .ok smp) :
    Indexed smp :=
  Indexed.entryLoop (fun i bound => absurd bound (Nat.not_lt_zero i))
    (walked_of_accepted accepted)

end Indexed

/-! ## Tables as lists of entries -/

/-- An entry of a table, with what follows its type and its length. -/
structure Entry where
  type : Byte
  payload : List Byte
  short : payload.length + 2 < 256

namespace Entry

def length (entry : Entry) : Nat :=
  entry.payload.length + 2

def bytes (entry : Entry) : List Byte :=
  entry.type :: BitVec.ofNat 8 entry.length :: entry.payload

def byte (entry : Entry) (i : Nat) : Byte :=
  entry.bytes.getD i 0

/-- The 32-bit field at an offset of 4. -/
def word (entry : Entry) : BitVec 32 :=
  load32 (placeBytes 0 entry.bytes) 4

/-- The number of the local APIC that an entry describes, if the entry is long
enough and the APIC is enabled. -/
def enabledLapic (entry : Entry) : Option Byte :=
  if entry.type = typeLapic ∧ 8 ≤ entry.length ∧
      entry.word &&& apicLapicEnabled ≠ 0 then
    some (entry.byte 3)
  else none

/-- The number and the address of the I/O APIC that an entry describes, if the
entry is long enough. -/
def ioapic (entry : Entry) : Option (Byte × BitVec 32) :=
  if entry.type = typeIoapic ∧ 12 ≤ entry.length then
    some (entry.byte 2, entry.word)
  else none

/-- What an entry does to the variables. -/
def apply (smp : Smp) (entry : Entry) : Except Halt Smp :=
  match entry.ioapic with
  | some (id, addr) =>
      if addr ≠ defaultIoapicPaddr then
        .error (acpiPanic "got unexpected ioapic address")
      else if smp.nioapic ≠ 0 then
        .error (acpiPanic "multiple ioapics are not supported")
      else .ok { smp with ioapicid := id, nioapic := smp.nioapic + 1 }
  | none =>
      match entry.enabledLapic with
      | some apicId => smp.addCpu .acpiConfigSmp apicId
      | none => .ok smp

end Entry

/-- The bytes lie in memory from an address on. -/
def Holds (mem : Memory) (base : Addr) (bytes : List Byte) : Prop :=
  ∀ i < bytes.length, mem (base + BitVec.ofNat 64 i) = bytes.getD i 0

theorem Holds.append_left {mem : Memory} {base : Addr} {left right : List Byte}
    (holds : Holds mem base (left ++ right)) : Holds mem base left := by
  intro i bound
  have found := holds i (by rw [List.length_append]; omega)
  rwa [List.getD_append _ _ _ _ bound] at found

theorem Holds.append_right {mem : Memory} {base : Addr}
    {left right : List Byte} (holds : Holds mem base (left ++ right)) :
    Holds mem (base + BitVec.ofNat 64 left.length) right := by
  intro i bound
  have place : base + BitVec.ofNat 64 left.length + BitVec.ofNat 64 i =
      base + BitVec.ofNat 64 (left.length + i) := by
    rw [BitVec.add_assoc, ← BitVec.ofNat_add]
  have found := holds (left.length + i) (by rw [List.length_append]; omega)
  rw [List.getD_append_right _ _ _ _ (Nat.le_add_right _ _),
    Nat.add_sub_cancel_left] at found
  rw [place]
  exact found

/-- Bytes that have been placed at an address lie there. -/
theorem holds_placeBytes (base : Addr) {bytes : List Byte}
    (small : bytes.length ≤ 2 ^ 64) :
    Holds (placeBytes base bytes) base bytes := by
  intro i bound
  have offset : (base + BitVec.ofNat 64 i - base).toNat = i := by
    bv_omega
  rw [placeBytes, offset]

section Entries

variable {mem : Memory} {p : Addr} {entry : Entry}

theorem Entry.length_bytes (entry : Entry) :
    entry.bytes.length = entry.length := rfl

theorem Entry.length_lt (entry : Entry) : entry.length < 256 := entry.short

theorem lenAt_of_holds (holds : Holds mem p entry.bytes) :
    lenAt mem p = BitVec.ofNat 64 entry.length := by
  have found : mem (p + 1) = BitVec.ofNat 8 entry.length :=
    holds 1 (by rw [entry.length_bytes, Entry.length]; omega)
  have small := entry.length_lt
  rw [lenAt, found]
  apply BitVec.eq_of_toNat_eq
  rw [BitVec.toNat_setWidth, BitVec.toNat_ofNat, BitVec.toNat_ofNat]
  omega

theorem byte_of_holds (holds : Holds mem p entry.bytes) {i : Nat}
    (bound : i < entry.length) :
    mem (p + BitVec.ofNat 64 i) = entry.byte i :=
  holds i bound

theorem word_of_holds (holds : Holds mem p entry.bytes)
    (long : 8 ≤ entry.length) : load32 mem (p + 4) = entry.word := by
  apply load_of_bytes
  intro i bound
  have place : p + 4 + BitVec.ofNat 64 i = p + BitVec.ofNat 64 (4 + i) := by
    rw [BitVec.add_assoc, BitVec.ofNat_add]
    rfl
  have offset : ((4 : BitVec 64) + BitVec.ofNat 64 i - 0).toNat = 4 + i := by
    bv_omega
  rw [place, byte_of_holds holds (by omega), placeBytes, offset]
  rfl

theorem len_lt_iff (entry : Entry) {bound : Nat} (small : bound < 256) :
    BitVec.ofNat 64 entry.length < BitVec.ofNat 64 bound ↔
      entry.length < bound := by
  have short := entry.length_lt
  rw [BitVec.lt_def, BitVec.toNat_ofNat, BitVec.toNat_ofNat]
  omega

theorem lapicEntry_of_holds (holds : Holds mem p entry.bytes)
    (isLapic : entry.type = typeLapic) (smp : Smp) :
    lapicEntry mem p (BitVec.ofNat 64 entry.length) smp =
      match entry.enabledLapic with
      | some apicId => smp.addCpu .acpiConfigSmp apicId
      | none => .ok smp := by
  have isShort : BitVec.ofNat 64 entry.length < 8 ↔ entry.length < 8 :=
    len_lt_iff entry (by decide)
  rw [lapicEntry]
  by_cases short : entry.length < 8
  · have absent : entry.enabledLapic = none :=
      if_neg fun enabled => absurd enabled.2.1 (by omega)
    rw [if_pos (isShort.mpr short), absent]
  · have long : 8 ≤ entry.length := by omega
    have id : mem (p + 3) = entry.byte 3 :=
      byte_of_holds holds (show 3 < entry.length by omega)
    rw [if_neg (mt isShort.mp short), word_of_holds holds long, id]
    by_cases disabled : entry.word &&& apicLapicEnabled = 0
    · have absent : entry.enabledLapic = none :=
        if_neg fun enabled => enabled.2.2 disabled
      rw [if_pos disabled, absent]
    · have found : entry.enabledLapic = some (entry.byte 3) :=
        if_pos ⟨isLapic, long, disabled⟩
      rw [if_neg disabled, found]

theorem ioapicEntry_of_holds (holds : Holds mem p entry.bytes)
    (isIoapic : entry.type = typeIoapic) (smp : Smp) :
    ioapicEntry mem p (BitVec.ofNat 64 entry.length) smp =
      entry.apply smp := by
  have isShort : BitVec.ofNat 64 entry.length < 12 ↔ entry.length < 12 :=
    len_lt_iff entry (by decide)
  have notLapic : entry.enabledLapic = none := by
    apply if_neg
    rintro ⟨isLapic, _⟩
    rw [isIoapic] at isLapic
    cases isLapic
  rw [ioapicEntry, Entry.apply, notLapic]
  by_cases short : entry.length < 12
  · have absent : entry.ioapic = none :=
      if_neg fun complete => absurd complete.2 (by omega)
    rw [if_pos (isShort.mpr short), absent]
  · have found : entry.ioapic = some (entry.byte 2, entry.word) :=
      if_pos ⟨isIoapic, by omega⟩
    have id : mem (p + 2) = entry.byte 2 :=
      byte_of_holds holds (show 2 < entry.length by omega)
    rw [if_neg (mt isShort.mp short), found, word_of_holds holds (by omega), id]

/-- The code sees in memory what the entry contains. -/
theorem madtEntry_of_holds (holds : Holds mem p entry.bytes) (smp : Smp) :
    madtEntry mem p (lenAt mem p) smp = entry.apply smp := by
  have type : mem p = entry.type := by
    have found := byte_of_holds holds
      (show 0 < entry.length from Nat.succ_pos _)
    rwa [BitVec.add_zero] at found
  rw [madtEntry, lenAt_of_holds holds, type]
  by_cases isLapic : entry.type = typeLapic
  · have notIoapic : entry.ioapic = none := by
      apply if_neg
      rintro ⟨isIoapic, _⟩
      rw [isLapic] at isIoapic
      cases isIoapic
    rw [if_pos isLapic, lapicEntry_of_holds holds isLapic, Entry.apply,
      notIoapic]
  · rw [if_neg isLapic]
    by_cases isIoapic : entry.type = typeIoapic
    · rw [if_pos isIoapic, ioapicEntry_of_holds holds isIoapic]
    · have notLapic : entry.enabledLapic = none :=
        if_neg fun enabled => isLapic enabled.1
      have notIoapic : entry.ioapic = none :=
        if_neg fun complete => isIoapic complete.1
      rw [if_neg isIoapic, Entry.apply, notIoapic, notLapic]

end Entries

/-- What is left of an entry that does not fit into the table, or nothing. -/
def Truncated (tail : List Byte) : Prop :=
  2 ≤ tail.length → tail.length < (tail.getD 1 0).toNat

def tableBytes (entries : List Entry) (tail : List Byte) : List Byte :=
  entries.flatMap Entry.bytes ++ tail

theorem tableBytes_cons (entry : Entry) (entries : List Entry)
    (tail : List Byte) :
    tableBytes (entry :: entries) tail =
      entry.bytes ++ tableBytes entries tail := by
  rw [tableBytes, List.flatMap_cons, List.append_assoc]
  rfl

section Walk

variable {mem : Memory} {p : Addr} {size : Nat}
variable (fits : p.toNat + size < 2 ^ 64) (small : size < 2 ^ 63)
include fits small

/-- The loop goes on to the next entry if there is one. -/
theorem advance_eq :
    advance mem (p + BitVec.ofNat 64 size) p =
      if 2 ≤ size ∧ (mem (p + 1)).toNat ≤ size then
        some (p + lenAt mem p)
      else none := by
  have distance : p + BitVec.ofNat 64 size - p = BitVec.ofNat 64 size := by
    bv_omega
  have number : (BitVec.ofNat 64 size).toNat = size :=
    Nat.mod_eq_of_lt (by omega)
  have before : p < p + BitVec.ofNat 64 size ↔ 0 < size := by
    rw [BitVec.lt_def, BitVec.toNat_add, number]
    omega
  have two : (BitVec.ofNat 64 size).slt 2 = false ↔ 2 ≤ size := by
    have sign : (BitVec.ofNat 64 size).toInt = size := by
      rw [BitVec.toInt_eq_toNat_of_lt (by omega), number]
    have limit : (2 : BitVec 64).toInt = 2 := by decide
    rw [BitVec.slt_eq_decide, decide_eq_false_iff_not, sign, limit]
    omega
  have complete : lenAt mem p ≤ BitVec.ofNat 64 size ↔
      (mem (p + 1)).toNat ≤ size := by
    rw [BitVec.le_def, number, lenAt, BitVec.toNat_setWidth_of_le (by decide)]
  rw [advance, distance]
  refine if_congr ?_ rfl rfl
  rw [before, two, complete]
  constructor
  · exact fun ⟨_, isTwo, isComplete⟩ => ⟨isTwo, isComplete⟩
  · exact fun ⟨isTwo, isComplete⟩ => ⟨by omega, isTwo, isComplete⟩

end Walk

/-- The loop performs the entries one after the other. -/
theorem entryLoop_entries {mem : Memory} {entries : List Entry}
    {tail : List Byte} (truncated : Truncated tail) {p : Addr}
    (holds : Holds mem p (tableBytes entries tail))
    (fits : p.toNat + (tableBytes entries tail).length < 2 ^ 64)
    (small : (tableBytes entries tail).length < 2 ^ 63)
    {fuel : Nat} (enough : entries.length < fuel) (smp : Smp) :
    entryLoop mem (p + BitVec.ofNat 64 (tableBytes entries tail).length) fuel
        p smp =
      entries.foldlM Entry.apply smp := by
  induction entries generalizing p fuel smp with
  | nil =>
      obtain ⟨fuel, rfl⟩ :=
        Nat.exists_eq_succ_of_ne_zero (Nat.ne_zero_of_lt enough)
      refine entryLoop_of_none ?_ fuel smp
      rw [advance_eq fits small]
      apply if_neg
      rintro ⟨two, complete⟩
      have cut := truncated two
      have second : mem (p + 1) = tail.getD 1 0 := holds 1 two
      rw [← second] at cut
      exact absurd complete (Nat.not_le.mpr cut)
  | cons entry entries induction =>
      obtain ⟨fuel, rfl⟩ :=
        Nat.exists_eq_succ_of_ne_zero (Nat.ne_zero_of_lt enough)
      rw [tableBytes_cons] at holds fits small ⊢
      have here := holds.append_left
      have there := holds.append_right
      rw [entry.length_bytes] at there
      have size : (entry.bytes ++ tableBytes entries tail).length =
          entry.length + (tableBytes entries tail).length :=
        List.length_append
      have atLeast : 2 ≤ entry.length := Nat.le_add_left 2 _
      have length := lenAt_of_holds here
      have lengthByte : (mem (p + 1)).toNat = entry.length := by
        have found := congrArg BitVec.toNat length
        rw [lenAt, BitVec.toNat_setWidth_of_le (by decide)] at found
        rw [found]
        exact Nat.mod_eq_of_lt (by have := entry.length_lt; omega)
      have next : advance mem
          (p + BitVec.ofNat 64 (entry.bytes ++ tableBytes entries tail).length)
          p = some (p + BitVec.ofNat 64 entry.length) := by
        rw [advance_eq fits small, length]
        apply if_pos
        omega
      have isEnd : p + BitVec.ofNat 64
          (entry.bytes ++ tableBytes entries tail).length =
          p + BitVec.ofNat 64 entry.length +
            BitVec.ofNat 64 (tableBytes entries tail).length := by
        rw [size, BitVec.ofNat_add, BitVec.add_assoc]
      have place : (p + BitVec.ofNat 64 entry.length).toNat =
          p.toNat + entry.length := by
        rw [BitVec.toNat_add, BitVec.toNat_ofNat]
        omega
      rw [entryLoop_of_advance next, madtEntry_of_holds here,
        List.foldlM_cons, isEnd]
      congr 1
      funext smp'
      exact induction there (by omega) (by omega)
        (Nat.lt_of_succ_lt_succ enough) smp'

/-! ## What the table says -/

/-- The numbers of the enabled local APICs, in the order of the table. -/
def enabledLapics (entries : List Entry) : List Byte :=
  entries.filterMap Entry.enabledLapic

/-- The numbers and the addresses of the I/O APICs. -/
def ioapics (entries : List Entry) : List (Byte × BitVec 32) :=
  entries.filterMap Entry.ioapic

/-- The I/O APICs are as the kernel expects them, after `found` others. -/
def Expected (found : Nat) (apics : List (Byte × BitVec 32)) : Prop :=
  (∀ apic ∈ apics, apic.2 = defaultIoapicPaddr) ∧ found + apics.length ≤ 1

/-- The variables after a list of local and I/O APICs. -/
structure Parsed (smp : Smp) (lapics : List Byte)
    (apics : List (Byte × BitVec 32)) (smp' : Smp) : Prop where
  ncpu : smp'.ncpu = smp.ncpu + lapics.length
  added : ∀ i < lapics.length, smp'.cpus (smp.ncpu + i) =
    ⟨BitVec.ofNat 8 (smp.ncpu + i), lapics.getD i 0⟩
  others : ∀ k, k < smp.ncpu ∨ smp.ncpu + lapics.length ≤ k →
    smp'.cpus k = smp.cpus k
  ioapicid : smp'.ioapicid = (apics.head?.map Prod.fst).getD smp.ioapicid

section Parsed

variable {smp smp' : Smp} {lapics : List Byte}
variable {apics : List (Byte × BitVec 32)}

theorem Parsed.withCpu {apicId : Byte}
    (parsed : Parsed (smp.withCpu apicId) lapics apics smp') :
    Parsed smp (apicId :: lapics) apics smp' where
  ncpu := by
    rw [parsed.ncpu, List.length_cons]
    exact Nat.add_right_comm _ _ _
  added := by
    intro i bound
    cases i with
    | zero =>
        have first := parsed.others smp.ncpu (Or.inl (Nat.lt_succ_self _))
        rw [Nat.add_zero, first]
        exact Function.update_self ..
    | succ i =>
        have later := parsed.added i (Nat.lt_of_succ_lt_succ bound)
        have place : (smp.withCpu apicId).ncpu + i = smp.ncpu + (i + 1) :=
          Nat.add_right_comm _ _ _
        rw [place] at later
        exact later
  others := by
    intro k outside
    rw [List.length_cons] at outside
    have place : (smp.withCpu apicId).ncpu = smp.ncpu + 1 := rfl
    rw [parsed.others k (by omega)]
    exact Function.update_of_ne (by omega) ..
  ioapicid := parsed.ioapicid

/-- The first I/O APIC is the only one. -/
theorem Parsed.setIoapic {id : Byte} {addr : BitVec 32}
    (parsed : Parsed { smp with ioapicid := id, nioapic := smp.nioapic + 1 }
      lapics [] smp') :
    Parsed smp lapics [(id, addr)] smp' where
  ncpu := parsed.ncpu
  added := parsed.added
  others := parsed.others
  ioapicid := parsed.ioapicid

end Parsed

theorem enabledLapics_cons (entry : Entry) (entries : List Entry) :
    enabledLapics (entry :: entries) =
      entry.enabledLapic.toList ++ enabledLapics entries := by
  rw [enabledLapics, List.filterMap_cons]
  cases entry.enabledLapic <;> rfl

theorem ioapics_cons (entry : Entry) (entries : List Entry) :
    ioapics (entry :: entries) = entry.ioapic.toList ++ ioapics entries := by
  rw [ioapics, List.filterMap_cons]
  cases entry.ioapic <;> rfl

/-- An entry describes at most one of the two. -/
theorem enabledLapic_of_ioapic {entry : Entry} {apic : Byte × BitVec 32}
    (isIoapic : entry.ioapic = some apic) : entry.enabledLapic = none := by
  unfold Entry.ioapic at isIoapic
  split at isIoapic
  · rename_i complete
    apply if_neg
    rintro ⟨isLapic, _⟩
    rw [complete.1] at isLapic
    cases isLapic
  · cases isIoapic

section Apply

variable {entry : Entry} {smp : Smp}

theorem apply_ioapic {id : Byte} {addr : BitVec 32}
    (isIoapic : entry.ioapic = some (id, addr))
    (known : addr = defaultIoapicPaddr) (first : smp.nioapic = 0) :
    entry.apply smp =
      .ok { smp with ioapicid := id, nioapic := smp.nioapic + 1 } := by
  rw [Entry.apply, isIoapic]
  dsimp only
  rw [if_neg (not_not.mpr known), if_neg (not_not.mpr first)]

theorem apply_lapic {apicId : Byte} (notIoapic : entry.ioapic = none)
    (isLapic : entry.enabledLapic = some apicId) (room : smp.ncpu < maxCpu) :
    entry.apply smp = .ok (smp.withCpu apicId) := by
  rw [Entry.apply, notIoapic, isLapic]
  exact if_pos room

theorem apply_other (notIoapic : entry.ioapic = none)
    (notLapic : entry.enabledLapic = none) : entry.apply smp = .ok smp := by
  rw [Entry.apply, notIoapic, notLapic]

end Apply

/-- Performing the entries gets through if the I/O APICs are as expected and there
is room for the processors. -/
theorem foldlM_apply_ok {entries : List Entry} {smp : Smp}
    (expected : Expected smp.nioapic (ioapics entries))
    (few : smp.ncpu + (enabledLapics entries).length ≤ maxCpu) :
    ∃ smp', entries.foldlM Entry.apply smp = .ok smp' ∧
      Parsed smp (enabledLapics entries) (ioapics entries) smp' := by
  induction entries generalizing smp with
  | nil =>
      exact ⟨smp, rfl, rfl, fun i bound => absurd bound (Nat.not_lt_zero i),
        fun _ _ => rfl, rfl⟩
  | cons entry entries induction =>
      rw [ioapics_cons] at expected ⊢
      rw [enabledLapics_cons, List.length_append] at few
      rw [enabledLapics_cons, List.foldlM_cons]
      cases isIoapic : entry.ioapic with
      | some apic =>
          rcases apic with ⟨id, addr⟩
          rw [isIoapic] at expected
          rcases expected with ⟨known, single⟩
          have isKnown : addr = defaultIoapicPaddr :=
            known (id, addr) List.mem_cons_self
          have size : ((some (id, addr)).toList ++ ioapics entries).length =
              1 + (ioapics entries).length := List.length_append
          have noOther : ioapics entries = [] :=
            List.eq_nil_of_length_eq_zero (by omega)
          have applied := @apply_ioapic _ smp _ _ isIoapic isKnown (by omega)
          rcases @induction { smp with
            ioapicid := id, nioapic := smp.nioapic + 1 } (by
              rw [noOther]
              refine ⟨nofun, ?_⟩
              show smp.nioapic + 1 + 0 ≤ 1
              omega) (by show smp.ncpu + _ ≤ maxCpu; omega) with
            ⟨smp', ran, parsed⟩
          refine ⟨smp', ?_, ?_⟩
          · rw [applied, ok_bind]
            exact ran
          · rw [enabledLapic_of_ioapic isIoapic]
            rw [noOther] at parsed ⊢
            exact parsed.setIoapic
      | none =>
          rw [isIoapic] at expected
          cases isLapic : entry.enabledLapic with
          | some apicId =>
              rw [isLapic, Option.toList_some, List.length_singleton] at few
              have applied := @apply_lapic _ smp _ isIoapic isLapic (by omega)
              rcases @induction (smp.withCpu apicId) expected
                (by show smp.ncpu + 1 + _ ≤ maxCpu; omega) with
                ⟨smp', ran, parsed⟩
              refine ⟨smp', ?_, parsed.withCpu⟩
              rw [applied, ok_bind]
              exact ran
          | none =>
              rcases induction expected (by omega) with ⟨smp', ran, parsed⟩
              refine ⟨smp', ?_, parsed⟩
              rw [apply_other isIoapic isLapic, ok_bind]
              exact ran

/-- It panics if they are not. -/
theorem foldlM_apply_panics {entries : List Entry} {smp : Smp}
    (unexpected : ¬ Expected smp.nioapic (ioapics entries))
    (single : smp.nioapic ≤ 1)
    (few : smp.ncpu + (enabledLapics entries).length ≤ maxCpu) :
    ∃ text, entries.foldlM Entry.apply smp = .error (acpiPanic text) := by
  induction entries generalizing smp with
  | nil => exact absurd ⟨nofun, single⟩ unexpected
  | cons entry entries induction =>
      rw [ioapics_cons] at unexpected
      rw [enabledLapics_cons, List.length_append] at few
      rw [List.foldlM_cons]
      cases isIoapic : entry.ioapic with
      | some apic =>
          rcases apic with ⟨id, addr⟩
          rw [isIoapic] at unexpected
          by_cases isKnown : addr = defaultIoapicPaddr
          · by_cases isFirst : smp.nioapic = 0
            · rw [apply_ioapic isIoapic isKnown isFirst, ok_bind]
              refine induction (fun expected => unexpected ?_)
                (show smp.nioapic + 1 ≤ 1 by omega)
                (by show smp.ncpu + _ ≤ maxCpu; omega)
              refine ⟨?_, ?_⟩
              · intro apic member
                rcases List.mem_cons.mp member with rfl | later
                · exact isKnown
                · exact expected.1 apic later
              · have rest : smp.nioapic + 1 + (ioapics entries).length ≤ 1 :=
                  expected.2
                show smp.nioapic + ((ioapics entries).length + 1) ≤ 1
                omega
            · rw [Entry.apply, isIoapic]
              dsimp only
              rw [if_neg (not_not.mpr isKnown), if_pos isFirst]
              exact ⟨_, rfl⟩
          · rw [Entry.apply, isIoapic]
            dsimp only
            rw [if_pos isKnown]
            exact ⟨_, rfl⟩
      | none =>
          rw [isIoapic] at unexpected
          cases isLapic : entry.enabledLapic with
          | some apicId =>
              rw [isLapic, Option.toList_some, List.length_singleton] at few
              rw [apply_lapic isIoapic isLapic (by omega), ok_bind]
              exact @induction (smp.withCpu apicId) unexpected single
                (by show smp.ncpu + 1 + _ ≤ maxCpu; omega)
          | none =>
              rw [apply_other isIoapic isLapic, ok_bind]
              exact induction unexpected single (by omega)

/-- The table lies in memory: its header, the entries and possibly a part of one
more. -/
structure Placed (mem : Memory) (madt : Addr) (entries : List Entry)
    (tail : List Byte) : Prop where
  nonnull : madt ≠ 0
  fits : madt.toNat + 44 + (tableBytes entries tail).length < 2 ^ 64
  small : 44 + (tableBytes entries tail).length < 2 ^ 32
  length : load32 mem (madt + lengthOffset) =
    BitVec.ofNat 32 (44 + (tableBytes entries tail).length)
  bytes : Holds mem (madt + madtSz) (tableBytes entries tail)
  truncated : Truncated tail

/-- The processor table and the I/O APIC of a description table. -/
structure Configured (entries : List Entry) (smp : Smp) : Prop where
  ncpu : smp.ncpu = (enabledLapics entries).length
  index : ∀ i < smp.ncpu, (smp.cpus i).index.toNat = i
  lapicid : ∀ i < smp.ncpu,
    (smp.cpus i).lapicid = (enabledLapics entries).getD i 0
  unused : ∀ i, smp.ncpu ≤ i → smp.cpus i = ⟨0, 0⟩
  ioapicid : ∀ apic, (ioapics entries).head? = some apic →
    smp.ioapicid = apic.1
  noIoapic : ioapics entries = [] → smp.ioapicid = 0

/-- The walk over a table in memory. -/
theorem entryLoop_placed {mem : Memory} {madt : Addr} {entries : List Entry}
    {tail : List Byte} (placed : Placed mem madt entries tail) {fuel : Nat}
    (enough : entries.length < fuel) (smp : Smp) :
    entryLoop mem (tableEnd mem madt) fuel (madt + madtSz) smp =
      entries.foldlM Entry.apply smp := by
  have fits := placed.fits
  have small := placed.small
  have place : (madt + madtSz).toNat = madt.toNat + 44 := by
    rw [BitVec.toNat_add]
    exact Nat.mod_eq_of_lt (by show madt.toNat + 44 < 2 ^ 64; omega)
  have isEnd : tableEnd mem madt = madt + madtSz +
      BitVec.ofNat 64 (tableBytes entries tail).length := by
    have width : (BitVec.ofNat 32
        (44 + (tableBytes entries tail).length)).setWidth 64 =
        BitVec.ofNat 64 (44 + (tableBytes entries tail).length) := by
      apply BitVec.eq_of_toNat_eq
      rw [BitVec.toNat_setWidth, BitVec.toNat_ofNat, BitVec.toNat_ofNat]
      omega
    rw [tableEnd, placed.length, width]
    bv_omega
  rw [isEnd]
  exact entryLoop_entries placed.truncated placed.bytes (by omega) (by omega)
    enough smp

theorem configured_of_parsed {entries : List Entry} {smp : Smp}
    (few : (enabledLapics entries).length ≤ maxCpu)
    (parsed : Parsed Smp.zero (enabledLapics entries) (ioapics entries) smp) :
    Configured entries smp := by
  have ncpu : smp.ncpu = (enabledLapics entries).length :=
    parsed.ncpu.trans (Nat.zero_add _)
  have added (i : Nat) (bound : i < smp.ncpu) :
      smp.cpus i = ⟨BitVec.ofNat 8 i, (enabledLapics entries).getD i 0⟩ := by
    have entry := parsed.added i (ncpu ▸ bound)
    have place : Smp.zero.ncpu + i = i := Nat.zero_add i
    rwa [place] at entry
  constructor
  · exact ncpu
  · intro i bound
    have small : i < maxCpu := bound.trans_le (ncpu ▸ few)
    rw [added i bound]
    exact Nat.mod_eq_of_lt (small.trans (by decide))
  · intro i bound
    rw [added i bound]
  · intro i beyond
    refine parsed.others i (Or.inr ?_)
    rw [ncpu] at beyond
    exact (Nat.zero_add _).trans_le beyond
  · intro apic isFirst
    rw [parsed.ioapicid, isFirst]
    rfl
  · intro isEmpty
    rw [parsed.ioapicid, isEmpty]
    rfl

/-- On a table in memory, the function is the walk over its entries between the
checks of its own. -/
theorem acpiConfigSmp_placed {mem : Memory} {madt : Addr}
    {entries : List Entry} {tail : List Byte}
    (placed : Placed mem madt entries tail) {fuel : Nat}
    (enough : entries.length < fuel) :
    acpiConfigSmp mem madt fuel Smp.zero =
      if load32 mem (madt + addrOffset) ≠ defaultLapicPaddr then
        .error (acpiPanic "got unexpected lapic address %p")
      else
        (entries.foldlM Entry.apply Smp.zero >>= fun smp =>
          if smp.ncpu = 0 then .error (acpiPanic "acpi: cannot detect lapic")
          else .ok smp) := by
  have long : ¬ (load32 mem (madt + lengthOffset)).setWidth 64 < madtSz := by
    have small := placed.small
    rw [placed.length, BitVec.lt_def, BitVec.toNat_setWidth,
      BitVec.toNat_ofNat]
    show ¬ _ < 44
    omega
  have walk := entryLoop_placed placed enough Smp.zero
  rw [acpiConfigSmp, if_neg placed.nonnull, if_neg long, ← walk]
  rfl

/--
For every table made of entries, possibly with a truncated one at its end, and
with at most `MAX_CPU` enabled local APICs, `acpi_config_smp` panics exactly when
the address of the local APICs is not the expected one, an I/O APIC has an
unexpected address, there are two I/O APICs, or no local APIC is enabled.
Otherwise it fills in the processor table in the order of the entries.  Entries
that are too short or of an unknown type do not matter.
-/
theorem madt_parsed {mem : Memory} {madt : Addr} {entries : List Entry}
    {tail : List Byte} (placed : Placed mem madt entries tail)
    (few : (enabledLapics entries).length ≤ maxCpu) {fuel : Nat}
    (enough : entries.length < fuel) :
    let result := acpiConfigSmp mem madt fuel Smp.zero
    let unexpected := load32 mem (madt + addrOffset) ≠ defaultLapicPaddr ∨
      (∃ apic ∈ ioapics entries, apic.2 ≠ defaultIoapicPaddr) ∨
      2 ≤ (ioapics entries).length ∨ enabledLapics entries = []
    (unexpected → ∃ text, result = .error (acpiPanic text)) ∧
      (¬ unexpected → ∃ smp, result = .ok smp ∧ Configured entries smp) := by
  intro result unexpected
  have call : result = _ := acpiConfigSmp_placed placed enough
  by_cases addr : load32 mem (madt + addrOffset) = defaultLapicPaddr
  · rw [if_neg (not_not.mpr addr)] at call
    by_cases expected : Expected 0 (ioapics entries)
    · rcases @foldlM_apply_ok entries Smp.zero expected
        ((Nat.zero_add _).trans_le few) with ⟨smp, ran, parsed⟩
      have configured := configured_of_parsed few parsed
      rw [ran, ok_bind] at call
      constructor
      · rintro (badAddr | ⟨apic, member, bad⟩ | two | empty)
        · exact absurd addr badAddr
        · exact absurd (expected.1 apic member) bad
        · exact absurd expected.2 (by omega)
        · have none : smp.ncpu = 0 := by
            rw [configured.ncpu, empty]
            rfl
          rw [if_pos none] at call
          exact ⟨_, call⟩
      · intro fine
        have some : smp.ncpu ≠ 0 := by
          rw [configured.ncpu]
          intro none
          exact fine (Or.inr (Or.inr (Or.inr
            (List.eq_nil_of_length_eq_zero none))))
        rw [if_neg some] at call
        exact ⟨smp, call, configured⟩
    · rcases @foldlM_apply_panics entries Smp.zero expected (by decide)
        ((Nat.zero_add _).trans_le few) with ⟨text, failed⟩
      rw [failed] at call
      refine ⟨fun _ => ⟨text, call⟩, ?_⟩
      intro fine
      refine absurd ⟨?_, ?_⟩ expected
      · intro apic member
        by_contra bad
        exact fine (Or.inr (Or.inl ⟨apic, member, bad⟩))
      · by_contra two
        exact fine (Or.inr (Or.inr (Or.inl (by omega))))
  · rw [if_pos addr] at call
    exact ⟨fun _ => ⟨_, call⟩, fun fine => absurd (Or.inl addr) fine⟩

/-- Two processors and an I/O APIC, between an entry of another type and one that
is too short. -/
def sampleEntries : List Entry :=
  [⟨0, [0, 5, 1, 0, 0, 0], by decide⟩, ⟨2, [0, 0], by decide⟩,
    ⟨0, [9], by decide⟩, ⟨1, [3, 0, 0, 0, 0xC0, 0xFE, 0, 0, 0, 0], by decide⟩,
    ⟨0, [1, 2, 1, 0, 0, 0], by decide⟩]

/-- A table of these entries and the first bytes of one more. -/
def sampleEntryTable (addr : List Byte) : Memory :=
  placeBytes sampleMadt
    (madtHeader 82 addr ++ tableBytes sampleEntries [0, 8, 1])

theorem sampleEntryTable_placed {addr : List Byte} (word : addr.length = 4) :
    Placed (sampleEntryTable addr) sampleMadt sampleEntries [0, 8, 1] := by
  have header : (madtHeader 82 addr).length = 44 := by
    rw [madtHeader, List.length_append, List.length_append, word]
    rfl
  have size : (tableBytes sampleEntries [0, 8, 1]).length = 38 := rfl
  have holds : Holds (sampleEntryTable addr) sampleMadt
      (madtHeader 82 addr ++ tableBytes sampleEntries [0, 8, 1]) :=
    holds_placeBytes sampleMadt (by
      rw [List.length_append, header, size]
      decide)
  refine ⟨by decide, by decide, by decide, ?_, ?_, fun _ => by decide⟩
  · have length : load32 (placeBytes 0 [82, 0, 0, 0]) 0 = 82 := by
      decide +kernel
    refine (load_of_bytes 4 ?_).trans length
    rintro (_ | _ | _ | _ | i) bound
    · rfl
    · rfl
    · rfl
    · rfl
    · omega
  · have entries := holds.append_right
    rwa [header] at entries

theorem madt_parsed_two_processors :
    ∃ smp, acpiConfigSmp (sampleEntryTable lapicAddr) sampleMadt 6 Smp.zero =
        .ok smp ∧
      smp.ncpu = 2 ∧ (smp.cpus 1).lapicid = 2 ∧ smp.ioapicid = 3 := by
  have lapics : enabledLapics sampleEntries = [5, 2] := by decide +kernel
  have apics : ioapics sampleEntries = [(3, defaultIoapicPaddr)] := by
    decide +kernel
  have placed := @sampleEntryTable_placed lapicAddr rfl
  rcases (madt_parsed placed (by rw [lapics]; decide)
    (show sampleEntries.length < 6 by decide)).2 (by
      rw [lapics, apics]
      decide +kernel) with ⟨smp, result, configured⟩
  have ncpu : smp.ncpu = 2 := by
    rw [configured.ncpu, lapics]
    rfl
  refine ⟨smp, result, ncpu, ?_, ?_⟩
  · rw [configured.lapicid 1 (by omega), lapics]
    rfl
  · exact configured.ioapicid (3, defaultIoapicPaddr) (by rw [apics]; rfl)

/-- A table with another address of the local APICs makes the kernel panic,
though its entries are as expected. -/
theorem madt_lapic_address_panics :
    ∃ mem text, Placed mem sampleMadt sampleEntries [0, 8, 1] ∧
      (enabledLapics sampleEntries).length = 2 ∧
      ioapics sampleEntries = [(3, defaultIoapicPaddr)] ∧
      ∀ fuel, acpiConfigSmp mem sampleMadt fuel Smp.zero =
        .error (acpiPanic text) := by
  refine ⟨sampleEntryTable [0, 0, 0, 0], "got unexpected lapic address %p",
    sampleEntryTable_placed rfl, by decide +kernel, by decide +kernel,
    fun fuel => ?_⟩
  rw [acpiConfigSmp, if_neg (by decide), if_neg (by decide +kernel),
    if_pos (by decide +kernel)]

end Rt64.Kernel.Acpi
