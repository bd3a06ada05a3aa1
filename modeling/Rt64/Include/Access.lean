import Rt64.Include.Defs

/-!
# Checked accesses

Some functions follow pointers, and fill arrays, whose places they take from data
that the kernel has no control of.  They are modelled over a partial memory, and
an access outside of it, or of an array, ends the run.
-/

namespace Rt64.Include.Access

open Rt64.Lib.ByteMemory
open Rt64.Include.Defs

/-- Why a computation whose accesses are checked has no result. -/
inductive Stop where
  | halt (reason : Halt)
  /-- A byte that cannot be read. -/
  | fault (address : Addr)
  /-- An index outside of its array. -/
  | bounds (index : Nat)
deriving DecidableEq, Repr

/-- `panic` in the given function. -/
def Stop.panic (site : Site) (text : String) : Stop :=
  .halt (.panic site text)

/-- `ASSERT` in the given function, with the text it prints. -/
def require (site : Site) (text : String)
    (condition : Prop) [Decidable condition] : Except Stop Unit :=
  if condition then .ok () else .error (.panic site text)

/-- The memory that can be read. -/
abbrev View : Type := Addr → Option Byte

def fetch (view : View) (address : Addr) : Except Stop Byte :=
  match view address with
  | some byte => .ok byte
  | none => .error (.fault address)

/-- The bytes of a word, from the lowest address on. -/
def fetchWord (view : View) (address : Addr) :
    (size : Nat) → Except Stop (BitVec (8 * size))
  | 0 => .ok 0#0
  | size + 1 => do
      let byte ← fetch view address
      let rest ← fetchWord view (address + 1) size
      return rest ++ byte

@[simp]
theorem bind_ok {α β : Type} (value : α) (next : α → Except Stop β) :
    (Except.ok value >>= next) = next value :=
  rfl

/-- A sequence that succeeds has a first part that does. -/
theorem exists_of_bind_ok {α β : Type} {first : Except Stop α}
    {next : α → Except Stop β} {result : β}
    (returns : (first >>= next) = .ok result) :
    ∃ value, first = .ok value ∧ next value = .ok result := by
  cases first with
  | error stop => cases returns
  | ok value => exact ⟨value, rfl, returns⟩

theorem view_of_fetch {view : View} {address : Addr} {byte : Byte}
    (fetched : fetch view address = .ok byte) : view address = some byte := by
  rw [fetch] at fetched
  split at fetched
  · rename_i found
    rw [found, Except.ok.inj fetched]
  · cases fetched

theorem mapError_eq_ok {α : Type} {computed : Except Stop α}
    {reason : Stop → Halt} {value : α} :
    computed.mapError reason = .ok value ↔ computed = .ok value := by
  cases computed with
  | error stop => exact iff_of_false nofun nofun
  | ok result =>
      constructor
      · intro same
        rw [Except.ok.inj same]
      · intro same
        rw [Except.ok.inj same]
        rfl

/-- In a region all bytes can be read, and they are those of the memory. -/
def Shows (view : View) (mem : Memory) (base : Addr) (size : Nat) : Prop :=
  ∀ address, Within base size address → view address = some (mem address)

section Shows

variable {view : View} {mem : Memory} {base : Addr} {size : Nat}

theorem Shows.part (shows : Shows view mem base size) {offset part : Nat}
    (fits : offset + part ≤ size) (small : offset + part < 2 ^ 64) :
    Shows view mem (base + BitVec.ofNat 64 offset) part := by
  intro address inside
  exact shows address (inside.of_offset fits small)

theorem Shows.first (shows : Shows view mem base size) {part : Nat}
    (fits : part ≤ size) : Shows view mem base part := by
  intro address inside
  exact shows address (Nat.lt_of_lt_of_le inside fits)

theorem Shows.fetch (shows : Shows view mem base size)
    (positive : 0 < size) : fetch view base = .ok (mem base) := by
  have inside : Within base size base := by
    rw [Within, BitVec.sub_self]
    exact positive
  rw [Access.fetch, shows base inside]

theorem Shows.tail (shows : Shows view mem base (size + 1))
    (small : size + 1 < 2 ^ 64) : Shows view mem (base + 1) size := by
  rw [Nat.add_comm] at shows small
  exact shows.part (Nat.le_refl (1 + size)) small

theorem Shows.fetchWord (shows : Shows view mem base size)
    (small : size < 2 ^ 64) :
    fetchWord view base size = .ok (load mem base size) := by
  induction size generalizing base with
  | zero => rfl
  | succ size induction =>
      rw [Access.fetchWord, shows.fetch (Nat.succ_pos size), bind_ok,
        induction (shows.tail small) (by omega)]
      rfl

theorem Shows.fetch32 (shows : Shows view mem base 4) :
    Access.fetchWord view base 4 = .ok (load32 mem base) :=
  shows.fetchWord (by decide)

end Shows

end Rt64.Include.Access
