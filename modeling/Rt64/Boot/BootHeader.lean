import Rt64.Boot.Bootmain

/-!
# What the header checks rule out

`bootmain` looks for the magic number at every word of the first 8192 bytes, and
compares the addresses of the header with each other, but not with the place
where the header was found.  A header whose magic number is among the last seven
words runs over the end of what was read, and one that is nearer to the start of
the file than it says gives an offset below the start of the file.
-/

namespace Rt64.Boot.BootHeader

open Rt64.Lib.ByteMemory
open Rt64.Include.Defs
open Rt64.Boot.Bootmain

/-! ## The header that is used -/

/-- More fuel does not change a result. -/
theorem readsegLoop_mono {disk : Disk} {epa pa : PhysAddr}
    {offset : BitVec 32} {fuel fuel' : Nat} {mem mem' : PhysMemory}
    (ended : readsegLoop disk epa fuel pa offset mem = .ok mem')
    (more : fuel ≤ fuel') :
    readsegLoop disk epa fuel' pa offset mem = .ok mem' := by
  induction fuel generalizing fuel' pa offset mem with
  | zero => cases ended
  | succ fuel induction =>
      obtain ⟨fuel', rfl⟩ : ∃ rest, fuel' = rest + 1 :=
        ⟨fuel' - 1, by omega⟩
      rw [readsegLoop] at ended ⊢
      split
      · rename_i before
        rw [if_pos before] at ended
        exact induction ended (Nat.le_of_succ_le_succ more)
      · rename_i past
        rwa [if_neg past] at ended

/-- The loop comes to its end if the last multiple of the sector size that it could
get to is not before the end of the range. -/
theorem readsegLoop_ends_iff (disk : Disk) (epa pa : PhysAddr)
    (offset : BitVec 32) (mem : PhysMemory) :
    (∃ fuel mem', readsegLoop disk epa fuel pa offset mem = .ok mem') ↔
      epa.toNat ≤ 2 ^ 32 - 512 + pa.toNat % 512 := by
  constructor
  · rintro ⟨fuel, mem', ended⟩
    induction fuel generalizing pa offset mem with
    | zero => cases ended
    | succ fuel induction =>
        rw [readsegLoop] at ended
        split at ended
        · have later := induction _ _ _ ended
          have residue : (pa + sectSize).toNat % 512 = pa.toNat % 512 := by
            bv_omega
          rwa [residue] at later
        · bv_omega
  · intro reached
    -- the loop is at most as long as the rest of the address space
    generalize count : 2 ^ 23 - pa.toNat / 512 = rest
    induction rest generalizing pa offset mem with
    | zero => bv_omega
    | succ rest induction =>
        by_cases before : pa < epa
        · have place : (pa + sectSize).toNat = pa.toNat + 512 := by
            bv_omega
          rcases induction (pa + sectSize) (offset + 1)
            (readsect disk pa offset mem) (by omega) (by omega) with
            ⟨fuel, mem', ended⟩
          exact ⟨fuel + 1, mem', by rw [readsegLoop, if_pos before, ended]⟩
        · exact ⟨1, mem, by rw [readsegLoop, if_neg before]⟩

/-- The first read fills the scratch area, whatever the fuel was. -/
theorem fetched_of_readseg {disk : Disk} {fuel : Nat}
    {mem fetchedMem : PhysMemory}
    (fetch : readseg disk fuel scratch 8192 0 mem = .ok fetchedMem) :
    Fetched disk fetchedMem ∧
      ∀ address, ¬ InScratch address → fetchedMem address = mem address := by
  rcases readseg_scratch disk mem (Nat.le_max_right fuel (2 ^ 23)) with
    ⟨mem', again, fetched, around⟩
  have same := readsegLoop_mono fetch (Nat.le_max_left fuel (2 ^ 23))
  rw [readseg] at again
  obtain rfl : fetchedMem = mem' := Except.ok.inj (same.symm.trans again)
  exact ⟨fetched, around⟩

/-- Word `n` from the start of the scratch area: of the kernel file, or of what
the memory behind the area has. -/
def scanned (disk : Disk) (mem : PhysMemory) (n : Nat) : BitVec 32 :=
  if n < 2048 then diskWord disk (512 + 4 * n) else scratchWord mem n

/-- The header that `bootmain` sees at word `n`. -/
def scannedHeader (disk : Disk) (mem : PhysMemory) (n : Nat) : MbHeader :=
  .ofWords fun i => scanned disk mem (n + i)

/-- A word behind the scratch area keeps its value. -/
theorem scratchWord_behind {mem fetchedMem : PhysMemory} {n : Nat}
    (around : ∀ address, ¬ InScratch address →
      fetchedMem address = mem address)
    (behind : 2048 ≤ n) (near : n < 4096) :
    scratchWord fetchedMem n = scratchWord mem n := by
  have byte (i : Nat) (inWord : i < 4) :
      fetchedMem (scratch + BitVec.ofNat 32 (4 * n) + BitVec.ofNat 32 i) =
        mem (scratch + BitVec.ofNat 32 (4 * n) + BitVec.ofNat 32 i) := by
    apply around
    have place : (scratch + BitVec.ofNat 32 (4 * n) + BitVec.ofNat 32 i).toNat =
        0x10000 + 4 * n + i := by
      have base : scratch.toNat = 0x10000 := rfl
      rw [BitVec.toNat_add, BitVec.toNat_add, BitVec.toNat_ofNat,
        BitVec.toNat_ofNat, base]
      omega
    rintro ⟨-, inside⟩
    omega
  have first := byte 0 (by omega)
  rw [show BitVec.ofNat 32 0 = 0#32 from rfl, BitVec.add_zero] at first
  rw [scratchWord, scratchWord, word, word, first]
  exact congrArg₂ _ (congrArg₂ _ (congrArg₂ _ (byte 3 (by omega))
    (byte 2 (by omega))) (byte 1 (by omega))) rfl

theorem headerAt_fetched {disk : Disk} {mem fetchedMem : PhysMemory}
    (fetched : Fetched disk fetchedMem)
    (around : ∀ address, ¬ InScratch address →
      fetchedMem address = mem address)
    {n : Nat} (bound : n < 2048) :
    headerAt fetchedMem n = scannedHeader disk mem n := by
  have words (i : Nat) (field : i < 8) :
      scratchWord fetchedMem (n + i) = scanned disk mem (n + i) := by
    rw [scanned]
    split
    · exact fetched.scratchWord (by omega)
    · exact scratchWord_behind around (by omega) (by omega)
  simp only [headerAt, scannedHeader, MbHeader.ofWords, words 0 (by omega),
    words 1 (by omega), words 2 (by omega), words 3 (by omega),
    words 4 (by omega), words 5 (by omega), words 6 (by omega),
    words 7 (by omega)]

/-- The search stops at word `n`. -/
structure First (disk : Disk) (mem : PhysMemory) (n : Nat) : Prop where
  bound : n < 2048
  valid : (scannedHeader disk mem n).Valid
  earlier : ∀ m, m < n → ¬ (scannedHeader disk mem m).Valid

theorem findHeader_fetched {disk : Disk} {mem fetchedMem : PhysMemory}
    (fetched : Fetched disk fetchedMem)
    (around : ∀ address, ¬ InScratch address →
      fetchedMem address = mem address) (n : Nat) :
    findHeader fetchedMem = some n ↔ First disk mem n := by
  rw [findHeader, List.find?_range_eq_some, List.mem_range]
  constructor
  · rintro ⟨valid, bound, earlier⟩
    rw [headerAt_fetched fetched around bound] at valid
    refine ⟨bound, of_decide_eq_true valid, fun m before => ?_⟩
    have invalid := earlier m before
    rw [headerAt_fetched fetched around (before.trans bound)] at invalid
    simpa using invalid
  · rintro ⟨bound, valid, earlier⟩
    rw [headerAt_fetched fetched around bound]
    refine ⟨decide_eq_true valid, bound, fun m before => ?_⟩
    rw [headerAt_fetched fetched around (before.trans bound)]
    simpa using earlier m before

/-- The header at word `n` passes the checks that `bootmain` makes, and the loop
that reads the image comes to its end. -/
structure Accepted (hdr : MbHeader) (n : Nat) : Prop where
  flags : hdr.flags &&& 0x10000 ≠ 0
  header : hdr.loadAddr.toNat ≤ hdr.headerAddr.toNat
  size : hdr.loadAddr.toNat ≤ hdr.loadEndAddr.toNat
  ends : hdr.loadEndAddr.toNat ≤
    2 ^ 32 - 512 + (hdr.headerAddr - BitVec.ofNat 32 (n * 4)).toNat % 512

/-- The read of the image, whose first sector starts as far before a multiple of
the sector size as the file would. -/
theorem readseg_image_ends_iff (disk : Disk) (hdr : MbHeader) (n : Nat)
    (mem : PhysMemory) :
    (∃ fuel mem', readseg disk fuel hdr.loadAddr
        (hdr.loadEndAddr - hdr.loadAddr)
        (BitVec.ofNat 32 (n * 4) - (hdr.headerAddr - hdr.loadAddr)) mem =
          .ok mem') ↔
      hdr.loadEndAddr.toNat ≤ 2 ^ 32 - 512 +
        (hdr.headerAddr - BitVec.ofNat 32 (n * 4)).toNat % 512 := by
  simp only [readseg]
  rw [readsegLoop_ends_iff]
  have last : hdr.loadAddr + (hdr.loadEndAddr - hdr.loadAddr) =
      hdr.loadEndAddr := by
    bv_omega
  have start : (hdr.loadAddr - (BitVec.ofNat 32 (n * 4) -
      (hdr.headerAddr - hdr.loadAddr)) % sectSize).toNat % 512 =
        (hdr.headerAddr - BitVec.ofNat 32 (n * 4)).toNat % 512 := by
    generalize offset : BitVec.ofNat 32 (n * 4) -
      (hdr.headerAddr - hdr.loadAddr) = skipped
    have image : hdr.headerAddr - BitVec.ofNat 32 (n * 4) =
        hdr.loadAddr - skipped := by
      rw [← offset]
      bv_omega
    have rest : (skipped % sectSize).toNat = skipped.toNat % 512 := rfl
    rw [image, BitVec.toNat_sub, BitVec.toNat_sub, rest]
    omega
  rw [last, start]

/-- When `bootmain` calls the entry point, the header it has used is the first valid
one, and was accepted. -/
theorem accepted_of_enters {disk : Disk} {fuel : Nat} {mem mem' : PhysMemory}
    {entry : PhysAddr}
    (entered : bootmain disk fuel mem = .ok (.enters entry mem')) :
    ∃ fetchedMem n, readseg disk fuel scratch 8192 0 mem = .ok fetchedMem ∧
      findHeader fetchedMem = some n ∧
      headerAt fetchedMem n = scannedHeader disk mem n ∧
      First disk mem n ∧ Accepted (scannedHeader disk mem n) n := by
  rw [bootmain, bind_eq_ok] at entered
  rcases entered with ⟨fetchedMem, fetch, entered⟩
  rcases fetched_of_readseg fetch with ⟨fetched, around⟩
  refine ⟨fetchedMem, ?_⟩
  cases found : findHeader fetchedMem with
  | none =>
      rw [found] at entered
      cases entered
  | some n =>
      rw [found] at entered
      have first := (findHeader_fetched fetched around n).mp found
      have header := headerAt_fetched fetched around first.bound
      dsimp only at entered
      split at entered
      · cases entered
      split at entered
      · cases entered
      split at entered
      · cases entered
      rename_i flags ordered sized
      rw [bind_eq_ok] at entered
      rcases entered with ⟨imageMem, load, -⟩
      rw [header] at flags ordered sized load
      exact ⟨n, fetch, rfl, header, first, flags, BitVec.not_lt.mp ordered,
        BitVec.not_lt.mp sized,
        (readseg_image_ends_iff disk _ n fetchedMem).mp ⟨fuel, imageMem, load⟩⟩

/-- An accepted header is used. -/
theorem enters_of_accepted {disk : Disk} {mem : PhysMemory} {n : Nat}
    (first : First disk mem n) (accepted : Accepted (scannedHeader disk mem n) n) :
    ∃ fuel entry mem', bootmain disk fuel mem = .ok (.enters entry mem') := by
  rcases readseg_scratch disk mem (Nat.le_refl _) with
    ⟨fetchedMem, fetch, fetched, around⟩
  have header := headerAt_fetched fetched around first.bound
  rcases (readseg_image_ends_iff disk _ n fetchedMem).mpr accepted.ends with
    ⟨fuel, imageMem, load⟩
  have fetch' : readseg disk (max (2 ^ 23) fuel) scratch 8192 0 mem =
      .ok fetchedMem :=
    readsegLoop_mono fetch (Nat.le_max_left _ _)
  have load' : readseg disk (max (2 ^ 23) fuel)
      (scannedHeader disk mem n).loadAddr _ _ fetchedMem = .ok imageMem :=
    readsegLoop_mono load (Nat.le_max_right _ _)
  have entered := @bootmain_enters _ _ n _ _ imageMem fetch'
    ((findHeader_fetched fetched around n).mpr first)
  rw [header] at entered
  exact ⟨_, _, _, entered accepted.flags (Nat.not_lt.mpr accepted.header)
    (Nat.not_lt.mpr accepted.size) load'⟩

/-! ## Sound files -/

/--
What the checks leave to the kernel file: if the header at which the search stops is
accepted, it ends within the first 8192 bytes, and it is at least as far into the
file as it says.
-/
def Sound (disk : Disk) (mem : PhysMemory) : Prop :=
  ∀ n, First disk mem n → Accepted (scannedHeader disk mem n) n →
    4 * n + 32 ≤ 8192 ∧
      (scannedHeader disk mem n).headerAddr.toNat -
        (scannedHeader disk mem n).loadAddr.toNat ≤ 4 * n

/-- The stack of the loader and the boot block. -/
def Loader (address : PhysAddr) : Prop :=
  0x7000 ≤ address.toNat ∧ address.toNat < 0x7E00

/-- The image is not read over the loader or over the header. -/
def Spares (disk : Disk) (mem : PhysMemory) : Prop :=
  ∀ n, First disk mem n → ∀ address,
    (scannedHeader disk mem n).Written address →
      ¬ InScratch address ∧ ¬ Loader address

/-! ## Files given by their words -/

/-- A disk whose kernel file has the given words. -/
def fileOf (words : Nat → BitVec 32) : Disk := fun position =>
  if position < 512 then 0
  else
    (words ((position - 512) / 4) >>> (8 * ((position - 512) % 4))).setWidth 8

theorem word_of_bytes (word : BitVec 32) :
    (word >>> 24).setWidth 8 ++ (word >>> 16).setWidth 8 ++
      (word >>> 8).setWidth 8 ++ word.setWidth 8 = word := by
  apply BitVec.eq_of_getLsbD_eq
  intro bit bound
  simp only [BitVec.getLsbD_append, BitVec.getLsbD_setWidth,
    BitVec.getLsbD_ushiftRight]
  by_cases first : bit < 8
  · simp [first]
  by_cases second : bit - 8 < 8
  · have place : 8 + (bit - 8) = bit := by omega
    simp [first, second, place]
  by_cases third : bit - 8 - 8 < 8
  · have place : 16 + (bit - 8 - 8) = bit := by omega
    simp [first, second, third, place]
  · have last : bit - 8 - 8 - 8 < 8 := by omega
    have place : 24 + (bit - 8 - 8 - 8) = bit := by omega
    simp [first, second, third, last, place]

theorem diskWord_fileOf (words : Nat → BitVec 32) (n : Nat) :
    diskWord (fileOf words) (512 + 4 * n) = words n := by
  have byte (i : Nat) (inWord : i < 4) :
      fileOf words (512 + 4 * n + i) =
        (words n >>> (8 * i)).setWidth 8 := by
    have index : (512 + 4 * n + i - 512) / 4 = n := by omega
    have place : (512 + 4 * n + i - 512) % 4 = i := by omega
    rw [fileOf, if_neg (by omega), index, place]
  rw [diskWord, byte 3 (by omega), byte 2 (by omega), byte 1 (by omega)]
  have first := byte 0 (by omega)
  rw [Nat.add_zero] at first
  rw [first]
  exact word_of_bytes (words n)

theorem diskHeader_fileOf (words : Nat → BitVec 32) (n : Nat) :
    diskHeader (fileOf words) n = .ofWords fun i => words (n + i) := by
  simp only [diskHeader, diskWord_fileOf]

/-- The header is the first thing in the file, the image is empty, and the header
says where it is itself. -/
def leadingWords (headerAddr : BitVec 32) : Nat → BitVec 32
  | 0 => mbootMagic
  | 1 => 0x10000
  | 2 => 0xE4514FFE
  | 3 => headerAddr
  | 4 => 0x100200
  | 5 => 0x100200
  | 6 => 0x100200
  | 7 => 0x100200
  | _ => 0

theorem valid_leading (headerAddr : BitVec 32) :
    (MbHeader.ofWords (leadingWords headerAddr)).Valid := by
  have sum : mbootMagic + 0x10000 + 0xE4514FFE = 0 := by decide
  exact ⟨rfl, sum⟩

theorem diskHeader_leading (headerAddr : BitVec 32) :
    diskHeader (fileOf (leadingWords headerAddr)) 0 =
      .ofWords (leadingWords headerAddr) := by
  rw [diskHeader_fileOf]
  simp only [Nat.zero_add]

/-- Wherever the header says it is, if only not before the image, `bootmain` calls
the entry point. -/
theorem bootmain_leading {headerAddr : BitVec 32}
    (ordered : ¬ headerAddr < 0x100200) (mem : PhysMemory) :
    ∃ fetchedMem entry mem',
      readseg (fileOf (leadingWords headerAddr)) (2 ^ 23) scratch 8192 0 mem =
        .ok fetchedMem ∧ findHeader fetchedMem = some 0 ∧
      headerAt fetchedMem 0 = .ofWords (leadingWords headerAddr) ∧
      bootmain (fileOf (leadingWords headerAddr)) (2 ^ 23) mem =
        .ok (.enters entry mem') := by
  rcases readseg_scratch (fileOf (leadingWords headerAddr)) mem
    (Nat.le_refl _) with ⟨fetchedMem, fetch, fetched, -⟩
  have header : headerAt fetchedMem 0 =
      .ofWords (leadingWords headerAddr) := by
    rw [fetched.headerAt (by omega), diskHeader_leading]
  have found : findHeader fetchedMem = some 0 := by
    rw [findHeader, List.find?_range_eq_some]
    refine ⟨?_, List.mem_range.mpr (by omega), by simp⟩
    rw [header]
    exact decide_eq_true (valid_leading headerAddr)
  have low : (BitVec.ofNat 32 (0 * 4) - (headerAddr - 0x100200)).toNat % 512 ≤
      (0x100200 : PhysAddr).toNat :=
    (Nat.mod_lt _ (by decide)).le.trans (by decide)
  have load := readseg_eq (fileOf (leadingWords headerAddr)) low
    (show (0x100200 : PhysAddr).toNat + (0x100200 - 0x100200 : BitVec 32).toNat +
      511 < 2 ^ 32 by decide) (Nat.le_refl (2 ^ 23)) fetchedMem
  have entered := fun imageMem =>
    @bootmain_enters _ _ _ _ _ imageMem fetch found
  rw [header] at entered
  exact ⟨fetchedMem, _, _, fetch, found, header,
    entered _ (show (0x10000 : BitVec 32) &&& 0x10000 ≠ 0 by decide) ordered
      (show ¬ (0x100200 : BitVec 32) < 0x100200 by decide) load⟩

/-! ## The header of a sound file -/

/-- The header, at word `n` of the scratch area, lies inside of what was read, and
the offset of the image in the file is not below zero. -/
structure Contained (mem : PhysMemory) (n : Nat) : Prop where
  header : 4 * n + 32 ≤ 8192
  ordered : (headerAt mem n).loadAddr.toNat ≤ (headerAt mem n).headerAddr.toNat
  offset : (BitVec.ofNat 32 (n * 4) -
      ((headerAt mem n).headerAddr - (headerAt mem n).loadAddr)).toNat +
    ((headerAt mem n).headerAddr.toNat - (headerAt mem n).loadAddr.toNat) =
      4 * n

theorem contained_iff {mem : PhysMemory} {n : Nat}
    (ordered : (headerAt mem n).loadAddr.toNat ≤
      (headerAt mem n).headerAddr.toNat) :
    Contained mem n ↔ 4 * n + 32 ≤ 8192 ∧
      (headerAt mem n).headerAddr.toNat - (headerAt mem n).loadAddr.toNat ≤
        4 * n := by
  constructor
  · rintro ⟨inside, -, offset⟩
    exact ⟨inside, by omega⟩
  · rintro ⟨inside, inFile⟩
    have place : (BitVec.ofNat 32 (n * 4)).toNat = 4 * n := by
      rw [BitVec.toNat_ofNat]
      omega
    have gap := BitVec.toNat_sub_of_le (BitVec.le_def.mpr ordered)
    refine ⟨inside, ordered, ?_⟩
    rw [BitVec.toNat_sub_of_le (by rw [BitVec.le_def, place, gap]; exact inFile),
      place, gap]
    omega

/-- The header that `bootmain` uses, when it calls the entry point, is contained. -/
def Validated (disk : Disk) (mem : PhysMemory) : Prop :=
  ∀ fuel entry mem', bootmain disk fuel mem = .ok (.enters entry mem') →
    ∃ fetchedMem n, readseg disk fuel scratch 8192 0 mem = .ok fetchedMem ∧
      findHeader fetchedMem = some n ∧ Contained fetchedMem n

theorem validated_of_sound {disk : Disk} {mem : PhysMemory}
    (sound : Sound disk mem) : Validated disk mem := by
  intro fuel entry mem' entered
  rcases accepted_of_enters entered with
    ⟨fetchedMem, n, fetch, found, header, first, accepted⟩
  refine ⟨fetchedMem, n, fetch, found, ?_⟩
  rw [contained_iff (by rw [header]; exact accepted.header), header]
  exact sound n first accepted

theorem sound_of_validated {disk : Disk} {mem : PhysMemory}
    (validated : Validated disk mem) : Sound disk mem := by
  intro n first accepted
  rcases enters_of_accepted first accepted with ⟨fuel, entry, mem', entered⟩
  rcases validated fuel entry mem' entered with
    ⟨fetchedMem, n', fetch, found, contained⟩
  rcases fetched_of_readseg fetch with ⟨fetched, around⟩
  have found' := (findHeader_fetched fetched around n).mpr first
  obtain rfl : n = n' := Option.some.inj (found'.symm.trans found)
  have header := headerAt_fetched fetched around first.bound
  have result := (contained_iff (by rw [header]; exact accepted.header)).mp
    contained
  rwa [header] at result

/--
For every kernel file and arbitrary memory around the scratch area: if the file is
sound, then whenever `bootmain` calls the entry point, the header it has used is
contained in the first 8192 bytes, and its file offset has not wrapped.  If the
image leaves the loader alone, no other file has this property.
-/
theorem boot_header_contained (disk : Disk) (mem : PhysMemory) :
    (Sound disk mem → Validated disk mem) ∧
      (Spares disk mem → (Validated disk mem ↔ Sound disk mem)) :=
  ⟨validated_of_sound, fun _ => ⟨sound_of_validated, validated_of_sound⟩⟩

/-- A header at the start of the file that says so. -/
theorem boot_header_contained_leading :
    ∃ disk mem, Sound disk mem ∧ Spares disk mem ∧ Validated disk mem ∧
      ∃ entry mem', bootmain disk (2 ^ 23) mem = .ok (.enters entry mem') := by
  rcases bootmain_leading (show ¬ (0x100200 : BitVec 32) < 0x100200 by decide)
    (fun _ => 0) with ⟨-, entry, mem', -, -, -, entered⟩
  have header : scannedHeader (fileOf (leadingWords 0x100200)) (fun _ => 0) 0 =
      .ofWords (leadingWords 0x100200) := by
    simp only [scannedHeader, MbHeader.ofWords, scanned, diskWord_fileOf]
    rfl
  have zero {n : Nat}
      (first : First (fileOf (leadingWords 0x100200)) (fun _ => 0) n) :
      n = 0 := by
    by_contra later
    refine first.earlier 0 (Nat.pos_of_ne_zero later) ?_
    rw [header]
    exact valid_leading _
  have sound : Sound (fileOf (leadingWords 0x100200)) fun _ => 0 := by
    intro n first _
    rw [zero first, header]
    decide
  refine ⟨_, _, sound, ?_, (boot_header_contained _ _).1 sound, entry, mem',
    entered⟩
  intro n first address written
  rw [zero first, header] at written
  have above : 0x100200 ≤ address.toNat + 511 := written.1
  constructor
  · rintro ⟨-, inside⟩
    omega
  · rintro ⟨-, inside⟩
    omega

/-! ## A header that runs over the end -/

/-- The header starts at word 2041, so that its entry address is behind the
scratch area. -/
def straddlingWords : Nat → BitVec 32
  | 2041 => mbootMagic
  | 2042 => 0x10000
  | 2043 => 0xE4514FFE
  | 2044 => 0x101FE4
  | 2045 => 0x100000
  | 2046 => 0x100000
  | 2047 => 0x100000
  | _ => 0

theorem straddlingWords_of_lt {n : Nat} (before : n < 2041) :
    straddlingWords n ≠ mbootMagic := by
  unfold straddlingWords
  split
  all_goals first | omega | decide

/-- The entry point is taken from behind the scratch area. -/
theorem bootmain_straddling (mem : PhysMemory) :
    ∃ fetchedMem, readseg (fileOf straddlingWords) (2 ^ 23) scratch 8192 0 mem =
        .ok fetchedMem ∧ findHeader fetchedMem = some 2041 ∧
      bootmain (fileOf straddlingWords) (2 ^ 23) mem =
        .ok (.enters (word mem 0x12000) fetchedMem) := by
  rcases readseg_scratch (fileOf straddlingWords) mem (Nat.le_refl _) with
    ⟨fetchedMem, fetch, fetched, around⟩
  have words (n : Nat) (inside : n < 2048) :
      scratchWord fetchedMem n = straddlingWords n := by
    rw [fetched.scratchWord (by omega), diskWord_fileOf]
  have behind : scratchWord fetchedMem 2048 = word mem 0x12000 := by
    have outside (address : PhysAddr) (past : 0x12000 ≤ address.toNat) :
        fetchedMem address = mem address := by
      apply around
      rintro ⟨-, inside⟩
      omega
    show word fetchedMem 0x12000 = word mem 0x12000
    rw [word, outside _ (by decide), outside _ (by decide),
      outside _ (by decide), outside _ (by decide), word]
  have header : headerAt fetchedMem 2041 =
      ⟨mbootMagic, 0x10000, 0xE4514FFE, 0x101FE4, 0x100000, 0x100000,
        0x100000, word mem 0x12000⟩ := by
    simp only [headerAt, MbHeader.ofWords, Nat.reduceAdd, behind,
      words 2041 (by omega), words 2042 (by omega), words 2043 (by omega),
      words 2044 (by omega), words 2045 (by omega), words 2046 (by omega),
      words 2047 (by omega)]
    rfl
  have found : findHeader fetchedMem = some 2041 := by
    rw [findHeader, List.find?_range_eq_some]
    refine ⟨?_, List.mem_range.mpr (by omega), ?_⟩
    · have sum : mbootMagic + 0x10000 + 0xE4514FFE = 0 := by decide
      rw [header]
      exact decide_eq_true ⟨rfl, sum⟩
    · intro m before
      have invalid : ¬ (headerAt fetchedMem m).Valid := by
        rintro ⟨magic, -⟩
        have first : scratchWord fetchedMem m = mbootMagic := magic
        rw [words m (by omega)] at first
        exact straddlingWords_of_lt before first
      simpa using invalid
  refine ⟨fetchedMem, fetch, found, ?_⟩
  -- the image is empty, so the second read and the clearing change nothing
  have offset : BitVec.ofNat 32 (2041 * 4) - (0x101FE4 - 0x100000) =
      (0 : BitVec 32) := by decide
  have load := readseg_eq (fileOf straddlingWords)
    (show (0 : BitVec 32).toNat % 512 ≤ (0x100000 : PhysAddr).toNat by decide)
    (show (0x100000 : PhysAddr).toNat + (0x100000 - 0x100000 : BitVec 32).toNat +
      511 < 2 ^ 32 by decide) (Nat.le_refl (2 ^ 23)) fetchedMem
  have nothing : sectorCount ((0x100000 - 0x100000 : BitVec 32).toNat +
      (0 : BitVec 32).toNat % 512) = 0 := by decide
  have empty : ¬ (0x100000 : BitVec 32) < 0x100000 := by decide
  rw [nothing, readSectors_zero, ← offset] at load
  have cleared : (headerAt fetchedMem 2041).clearBss fetchedMem =
      fetchedMem := by
    rw [header]
    exact if_neg empty
  have entered := @bootmain_enters _ _ _ _ _ fetchedMem fetch found
  rw [cleared, header] at entered
  exact entered (show (0x10000 : BitVec 32) &&& 0x10000 ≠ 0 by decide)
    (show ¬ (0x101FE4 : BitVec 32) < 0x100000 by decide) empty load

/-- Neither a header that runs over the end of what was read nor one whose file
offset wraps is rejected. -/
theorem boot_header_not_contained :
    (∃ disk, ∀ mem, ∃ fetchedMem,
      readseg disk (2 ^ 23) scratch 8192 0 mem = .ok fetchedMem ∧
        findHeader fetchedMem = some 2041 ∧
        bootmain disk (2 ^ 23) mem =
          .ok (.enters (word mem 0x12000) fetchedMem)) ∧
      ∃ disk, ∀ mem, ∃ fetchedMem entry mem',
        readseg disk (2 ^ 23) scratch 8192 0 mem = .ok fetchedMem ∧
          findHeader fetchedMem = some 0 ∧
          (headerAt fetchedMem 0).headerAddr -
            (headerAt fetchedMem 0).loadAddr = 4 ∧
          bootmain disk (2 ^ 23) mem = .ok (.enters entry mem') := by
  refine ⟨⟨fileOf straddlingWords, bootmain_straddling⟩,
    ⟨fileOf (leadingWords 0x100204), ?_⟩⟩
  intro mem
  rcases bootmain_leading (show ¬ (0x100204 : BitVec 32) < 0x100200 by decide)
    mem with ⟨fetchedMem, entry, mem', fetch, found, header, entered⟩
  refine ⟨fetchedMem, entry, mem', fetch, found, ?_, entered⟩
  rw [header]
  exact (show (0x100204 : BitVec 32) - 0x100200 = 4 by decide)

end Rt64.Boot.BootHeader
