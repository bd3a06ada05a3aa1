import Rt64.Klib.String
import Rt64.Lib.LinkedChain
import Mathlib.Data.Finset.Card
import Mathlib.Order.Interval.Finset.Nat
import Mathlib.Tactic.Ring

/-!
# The frame allocator

`kalloc.c` keeps its free frames on an intrusive list: the first word of a free
frame holds the address of the next one.  The allocator's two static variables
and the memory that holds the links form a `Heap`.

`Invariant` ties the heap to a list of free frames and a set of allocated ones.
Every operation comes with the invariant it establishes, and `Reachable`
collects all histories of the allocator in which clients write only into frames
they own.
-/

namespace Rt64.Kernel.Kalloc

open Rt64.Lib.ByteMemory
open Rt64.Lib.LinkedChain
open Rt64.Include.Defs
open Rt64.Klib.String

/-! ## The allocator -/

/-- Memory and the static variables `allocator.nfreepages` and `.freelist`. -/
structure Heap where
  mem : Memory
  nfreepages : BitVec 32
  freelist : Addr

def kfree (frame : Addr) (heap : Heap) : Except Halt Heap := do
  assert .kfree "ALIGNED(frame, PG_SZ4K)" (aligned frame pgSz4K)
  let mem := store64 heap.mem frame heap.freelist
  return { mem, freelist := frame, nfreepages := heap.nfreepages + 1 }

def kalloc (heap : Heap) : Except Halt (Addr × Heap) := do
  assert .kalloc "allocator.freelist != NULL" (heap.freelist ≠ 0)
  let f := heap.freelist
  let freelist := load64 heap.mem f
  let nfreepages := heap.nfreepages - 1
  let mem := memset heap.mem f 0 pgSz4K
  return (f, { mem, nfreepages, freelist })

/-- The loop of `kallocinit`, from the highest frame downwards. -/
def kallocinitLoop (first it : Addr) : Nat → Heap → Except Halt Heap
  | 0, _ => .error .fuel
  | fuel + 1, heap =>
      if first ≤ it then do
        let heap ← kfree it heap
        kallocinitLoop first (it - pgSz4K) fuel heap
      else
        .ok heap

/-- `kallocinit`, for a kernel image that ends at `last`. -/
def kallocinit (last : Addr) (fuel : Nat) (heap : Heap) :
    Except Halt Heap :=
  kallocinitLoop last (p2v maxPhysMem - pgSz4K) fuel heap

/-! ## Frames -/

/-- The end of the direct map, `P2V(MAX_PHYS_MEM)`. -/
def memoryEnd : Nat :=
  (p2v maxPhysMem).toNat

theorem memoryEnd_eq : memoryEnd = 0xFFFFFFFF81000000 := by
  decide

/-- The frames between the end of the kernel image and the end of memory. -/
def IsFrame (last frame : Addr) : Prop :=
  frame.toNat % 4096 = 0 ∧ last.toNat ≤ frame.toNat ∧
    frame.toNat + 4096 ≤ memoryEnd

instance (last frame : Addr) : Decidable (IsFrame last frame) :=
  inferInstanceAs (Decidable (_ ∧ _ ∧ _))

/-- How many frames there are above `last`. -/
def frameCount (last : Addr) : Nat :=
  (memoryEnd - last.toNat) / 4096

/-- Different frames have no byte in common. -/
theorem apart_of_frames {first second : Addr}
    (firstAligned : first.toNat % 4096 = 0)
    (secondAligned : second.toNat % 4096 = 0)
    (different : first ≠ second) :
    Apart first 4096 second 4096 := by
  intro address inFirst inSecond
  apply different
  simp only [Within] at inFirst inSecond
  bv_omega

theorem within_frame_of_word {frame address : Addr}
    (inWord : Within frame 8 address) : Within frame 4096 address := by
  simp only [Within] at inWord ⊢
  omega

/-- A list of different frames is no longer than the number of frames. -/
theorem length_le_frameCount (last : Addr) (frames : List Addr)
    (different : frames.Nodup)
    (areFrames : ∀ frame ∈ frames, IsFrame last frame) :
    frames.length ≤ frameCount last := by
  let number : Addr → Nat := fun frame => frame.toNat / 4096
  have injective : ∀ first ∈ frames, ∀ second ∈ frames,
      number first = number second → first = second := by
    intro first firstMember second secondMember equal
    rcases areFrames first firstMember with ⟨firstAligned, _, _⟩
    rcases areFrames second secondMember with ⟨secondAligned, _, _⟩
    simp only [number] at equal
    bv_omega
  have numbers : (frames.map number).Nodup :=
    different.map_on injective
  have inRange : (frames.map number).toFinset ⊆
      Finset.Ico ((last.toNat + 4095) / 4096)
        (memoryEnd / 4096) := by
    intro place member
    rcases List.mem_map.mp (List.mem_toFinset.mp member) with
      ⟨frame, frameMember, rfl⟩
    rcases areFrames frame frameMember with ⟨_, low, high⟩
    rw [Finset.mem_Ico]
    simp only [number]
    omega
  have bound := Finset.card_le_card inRange
  rw [List.toFinset_card_of_nodup numbers, List.length_map,
    Nat.card_Ico] at bound
  simp only [frameCount, memoryEnd_eq] at bound ⊢
  omega

/-! ## The invariant -/

/--
The free list is `free`, its length is counted, and the free and the allocated
frames together are exactly the frames above `last`.
-/
structure Invariant (last : Addr) (heap : Heap)
    (free : List Addr) (allocated : Set Addr) : Prop where
  chain : Chain (load64 heap.mem) 0 heap.freelist free
  count : heap.nfreepages = BitVec.ofNat 32 free.length
  frames : ∀ frame, IsFrame last frame ↔ frame ∈ free ∨ frame ∈ allocated
  disjoint : ∀ frame ∈ free, frame ∉ allocated
  nonzero : last ≠ 0

namespace Invariant

variable {last : Addr} {heap : Heap} {free : List Addr} {allocated : Set Addr}

theorem isFrame_of_free (invariant : Invariant last heap free allocated)
    {frame : Addr} (member : frame ∈ free) : IsFrame last frame :=
  (invariant.frames frame).mpr (Or.inl member)

theorem isFrame_of_allocated (invariant : Invariant last heap free allocated)
    {frame : Addr} (member : frame ∈ allocated) : IsFrame last frame :=
  (invariant.frames frame).mpr (Or.inr member)

/-- The page at address zero is never a frame. -/
theorem ne_zero_of_isFrame (invariant : Invariant last heap free allocated)
    {frame : Addr} (isFrame : IsFrame last frame) : frame ≠ 0 := by
  have nonzero := invariant.nonzero
  rcases isFrame with ⟨_, low, _⟩
  bv_omega

theorem nodup (invariant : Invariant last heap free allocated) :
    free.Nodup :=
  invariant.chain.nodup

theorem ne_of_free_of_allocated
    (invariant : Invariant last heap free allocated)
    {freeFrame frame : Addr} (isFree : freeFrame ∈ free)
    (isAllocated : frame ∈ allocated) : freeFrame ≠ frame := by
  rintro rfl
  exact invariant.disjoint freeFrame isFree isAllocated

/-- Memory may change freely outside the first words of the free frames. -/
theorem frame_rule (invariant : Invariant last heap free allocated)
    {mem : Memory}
    (agree : ∀ frame ∈ free, ∀ address, Within frame 4096 address →
      mem address = heap.mem address) :
    Invariant last { heap with mem } free allocated where
  chain := by
    apply invariant.chain.congr
    intro frame member
    apply load64_congr
    intro address inWord
    exact agree frame member address (within_frame_of_word inWord)
  count := invariant.count
  frames := invariant.frames
  disjoint := invariant.disjoint
  nonzero := invariant.nonzero

/-- A change confined to an allocated frame keeps the invariant. -/
theorem of_write (invariant : Invariant last heap free allocated)
    {frame : Addr} (isAllocated : frame ∈ allocated) {mem : Memory}
    (agree : ∀ address, ¬ Within frame 4096 address →
      mem address = heap.mem address) :
    Invariant last { heap with mem } free allocated := by
  apply invariant.frame_rule
  intro freeFrame isFree address inside
  apply agree
  exact apart_of_frames
    (invariant.isFrame_of_free isFree).1
    (invariant.isFrame_of_allocated isAllocated).1
    (invariant.ne_of_free_of_allocated isFree isAllocated) address inside

end Invariant

/-! ## Specifications of the operations -/

/-- A successful allocation takes the first free frame and clears it. -/
structure Allocated (heap heap' : Heap) (frame : Addr) : Prop where
  cleared : ∀ address, Within frame 4096 address → heap'.mem address = 0
  kept : ∀ address, ¬ Within frame 4096 address →
    heap'.mem address = heap.mem address

theorem memset_page_eq_fill (memory : Memory) (frame : Addr) :
    memset memory frame 0 pgSz4K = fill memory frame 4096 0 := by
  have whole := memset_eq_fill memory frame 0 pgSz4K (by decide)
  simpa using whole

theorem kalloc_eq_ok {heap heap' : Heap} {frame : Addr}
    (success : kalloc heap = .ok (frame, heap')) :
    heap.freelist ≠ 0 ∧ frame = heap.freelist ∧
      heap' =
        { mem := fill heap.mem frame 4096 0
          nfreepages := heap.nfreepages - 1
          freelist := load64 heap.mem frame } := by
  rw [kalloc, assert_bind_eq_ok] at success
  rcases success with ⟨available, result⟩
  cases result
  exact ⟨available, rfl, by rw [memset_page_eq_fill]⟩

/-- A free list with a frame on it can serve an allocation. -/
theorem kalloc_of_ne_zero {heap : Heap} (available : heap.freelist ≠ 0) :
    kalloc heap =
      .ok (heap.freelist,
        { mem := fill heap.mem heap.freelist 4096 0
          nfreepages := heap.nfreepages - 1
          freelist := load64 heap.mem heap.freelist }) := by
  rw [kalloc, assert_of_holds _ _ available, ← memset_page_eq_fill]
  rfl

theorem kalloc_spec {last : Addr} {heap heap' : Heap} {frame : Addr}
    {free : List Addr} {allocated : Set Addr}
    (invariant : Invariant last heap free allocated)
    (success : kalloc heap = .ok (frame, heap')) :
    ∃ rest, free = frame :: rest ∧
      Invariant last heap' rest (insert frame allocated) ∧
      Allocated heap heap' frame := by
  rcases kalloc_eq_ok success with ⟨available, rfl, rfl⟩
  rcases invariant.chain.exists_cons available with ⟨rest, rfl, tail⟩
  have firstFree : heap.freelist ∈ heap.freelist :: rest :=
    List.mem_cons_self
  have notInRest : heap.freelist ∉ rest :=
    (List.nodup_cons.mp invariant.nodup).1
  refine ⟨rest, rfl, ?_, ?_⟩
  · constructor
    · apply tail.congr
      intro cell member
      apply load64_congr
      intro address inWord
      apply fill_outside
      exact apart_of_frames
        (invariant.isFrame_of_free (List.mem_cons_of_mem _ member)).1
        (invariant.isFrame_of_free firstFree).1
        (by rintro rfl; exact notInRest member)
        address (within_frame_of_word inWord)
    · have count := invariant.count
      simp only [List.length_cons] at count
      rw [count]
      bv_omega
    · intro frame
      rw [invariant.frames frame, List.mem_cons, Set.mem_insert_iff]
      constructor
      · rintro ((first | later) | taken)
        · exact Or.inr (Or.inl first)
        · exact Or.inl later
        · exact Or.inr (Or.inr taken)
      · rintro (later | first | taken)
        · exact Or.inl (Or.inr later)
        · exact Or.inl (Or.inl first)
        · exact Or.inr taken
    · intro frame member taken
      rcases Set.mem_insert_iff.mp taken with rfl | old
      · exact notInRest member
      · exact invariant.disjoint frame (List.mem_cons_of_mem _ member) old
    · exact invariant.nonzero
  · constructor
    · intro address inside
      exact fill_inside _ _ _ _ _ inside
    · intro address outside
      exact fill_outside _ _ _ _ _ outside

/-- With a frame on the free list an allocation succeeds and returns it. -/
theorem kalloc_succeeds {last : Addr} {heap : Heap} {frame : Addr}
    {rest : List Addr} {allocated : Set Addr}
    (invariant : Invariant last heap (frame :: rest) allocated) :
    ∃ heap', kalloc heap = .ok (frame, heap') := by
  rcases invariant.chain with ⟨rfl, available, _⟩
  exact ⟨_, kalloc_of_ne_zero available⟩

theorem kfree_of_aligned {heap : Heap} {frame : Addr}
    (isAligned : frame.toNat % 4096 = 0) :
    kfree frame heap =
      .ok { mem := store64 heap.mem frame heap.freelist
            freelist := frame
            nfreepages := heap.nfreepages + 1 } := by
  have passes := (aligned_pgSz4K_iff frame).mpr isAligned
  rw [kfree, assert_of_holds _ _ passes]
  rfl

/-- Pushing a frame that is on no chain extends the chain. -/
theorem chain_push {mem : Memory} {start frame : Addr} {free : List Addr}
    (chain : Chain (load64 mem) 0 start free)
    (frameAligned : frame.toNat % 4096 = 0)
    (freeAligned : ∀ cell ∈ free, cell.toNat % 4096 = 0)
    (fresh : frame ∉ free) (nonzero : frame ≠ 0) :
    Chain (load64 (store64 mem frame start)) 0 frame (frame :: free) := by
  refine ⟨rfl, nonzero, ?_⟩
  rw [load64_store64_same]
  apply chain.congr
  intro cell member
  apply load64_store64_apart
  have pages : Apart cell 4096 frame 4096 :=
    apart_of_frames (freeAligned cell member) frameAligned
      (by rintro rfl; exact fresh member)
  exact pages.mono
    (fun _ inWord => within_frame_of_word inWord)
    (fun _ inWord => within_frame_of_word inWord)

theorem kfree_spec {last : Addr} {heap heap' : Heap} {frame : Addr}
    {free : List Addr} {allocated : Set Addr}
    (invariant : Invariant last heap free allocated)
    (isAllocated : frame ∈ allocated)
    (success : kfree frame heap = .ok heap') :
    Invariant last heap' (frame :: free) (allocated \ {frame}) := by
  have isFrame := invariant.isFrame_of_allocated isAllocated
  have fresh : frame ∉ free := fun member =>
    invariant.disjoint frame member isAllocated
  rw [kfree_of_aligned isFrame.1, Except.ok.injEq] at success
  subst success
  constructor
  · exact chain_push invariant.chain isFrame.1
      (fun cell member => (invariant.isFrame_of_free member).1)
      fresh (invariant.ne_zero_of_isFrame isFrame)
  · simp only [invariant.count, List.length_cons]
    bv_omega
  · intro other
    rw [invariant.frames other, List.mem_cons, Set.mem_sdiff,
      Set.mem_singleton_iff]
    by_cases same : other = frame
    · subst same
      simp [isAllocated]
    · simp [same]
  · intro other member
    rw [Set.mem_sdiff, Set.mem_singleton_iff]
    rintro ⟨taken, different⟩
    rcases List.mem_cons.mp member with same | old
    · exact different same
    · exact invariant.disjoint other old taken
  · exact invariant.nonzero

/-! ## Initialisation -/

/--
The state of the initialisation loop at `it`: every frame above `it` is free,
and there are as many of them as pages between `it` and the end of memory.
-/
structure LoopInvariant (last it : Addr) (heap : Heap)
    (free : List Addr) : Prop where
  chain : Chain (load64 heap.mem) 0 heap.freelist free
  count : heap.nfreepages = BitVec.ofNat 32 free.length
  isAligned : it.toNat % 4096 = 0
  pages : it.toNat + 4096 * (free.length + 1) = memoryEnd
  members : ∀ frame, frame ∈ free ↔
    frame.toNat % 4096 = 0 ∧ it.toNat < frame.toNat ∧
      frame.toNat + 4096 ≤ memoryEnd
  above : ∀ frame ∈ free, last.toNat ≤ frame.toNat

theorem LoopInvariant.start (last : Addr) (mem : Memory) :
    LoopInvariant last (p2v maxPhysMem - pgSz4K)
      { mem, nfreepages := 0, freelist := 0 } [] where
  chain := rfl
  count := rfl
  isAligned := by decide
  pages := by decide
  members := by
    intro frame
    have top : (p2v maxPhysMem - pgSz4K).toNat = 0xFFFFFFFF80FFF000 := by
      decide
    simp only [List.not_mem_nil, false_iff, top, memoryEnd_eq]
    omega
  above := by simp

/-- One round of the loop frees the frame at `it`. -/
theorem LoopInvariant.step {last it : Addr} {heap : Heap}
    {free : List Addr} (state : LoopInvariant last it heap free)
    (inRange : last ≤ it) (nonzero : last ≠ 0) :
    ∃ heap', kfree it heap = .ok heap' ∧
      LoopInvariant last (it - pgSz4K) heap' (it :: free) := by
  have isAligned := state.isAligned
  have positive : it ≠ 0 := by bv_omega
  have below : (it - pgSz4K).toNat + 4096 = it.toNat := by bv_omega
  have fresh : it ∉ free := by
    intro member
    have := ((state.members it).mp member).2.1
    omega
  refine ⟨_, kfree_of_aligned isAligned, ?_⟩
  constructor
  · exact chain_push state.chain isAligned
      (fun cell member => ((state.members cell).mp member).1) fresh positive
  · simp only [state.count, List.length_cons]
    bv_omega
  · omega
  · have pages := state.pages
    calc
      (it - pgSz4K).toNat + 4096 * ((it :: free).length + 1) =
          (it - pgSz4K).toNat + 4096 + 4096 * (free.length + 1) := by
        rw [List.length_cons]
        ring
      _ = memoryEnd := by rw [below, pages]
  · intro frame
    have pages := state.pages
    rw [List.mem_cons, state.members frame]
    simp only [memoryEnd_eq] at pages ⊢
    constructor
    · rintro (rfl | ⟨frameAligned, higher, fits⟩)
      · exact ⟨isAligned, by omega, by omega⟩
      · exact ⟨frameAligned, by omega, fits⟩
    · rintro ⟨frameAligned, higher, fits⟩
      by_cases same : frame = it
      · exact Or.inl same
      · have different : frame.toNat ≠ it.toNat := by
          intro equal
          exact same (BitVec.eq_of_toNat_eq equal)
        exact Or.inr ⟨frameAligned, by omega, fits⟩
  · intro frame member
    rcases List.mem_cons.mp member with rfl | old
    · exact inRange
    · exact state.above frame old

/-- A loop that has ended has freed exactly the frames above `last`. -/
theorem LoopInvariant.finish {last it : Addr} {heap : Heap}
    {free : List Addr} (state : LoopInvariant last it heap free)
    (outOfRange : ¬ last ≤ it) :
    Invariant last heap free ∅ where
  chain := state.chain
  count := state.count
  frames := by
    intro frame
    have beyond : it.toNat < last.toNat := by bv_omega
    rw [state.members frame]
    constructor
    · rintro ⟨frameAligned, low, high⟩
      exact Or.inl ⟨frameAligned, by omega, high⟩
    · rintro (⟨frameAligned, higher, fits⟩ | impossible)
      · have member := (state.members frame).mpr ⟨frameAligned, higher, fits⟩
        exact ⟨frameAligned, state.above frame member, fits⟩
      · exact impossible.elim
  disjoint := by simp
  nonzero := by bv_omega

/-- What holds when the loop has returned. -/
theorem kallocinitLoop_spec {last it : Addr} {heap heap' : Heap}
    {free : List Addr} (fuel : Nat)
    (state : LoopInvariant last it heap free) (nonzero : last ≠ 0)
    (success : kallocinitLoop last it fuel heap = .ok heap') :
    ∃ it' free', LoopInvariant last it' heap' free' ∧ ¬ last ≤ it' ∧
      (free' = free ∨ last ≤ it' + pgSz4K) := by
  induction fuel generalizing it heap free with
  | zero => simp [kallocinitLoop] at success
  | succ fuel induction =>
      rw [kallocinitLoop] at success
      split at success
      · rename_i inRange
        rcases state.step inRange nonzero with ⟨middle, freed, next⟩
        rw [freed] at success
        rcases induction next success with ⟨it', free', final, ended, edge⟩
        refine ⟨it', free', final, ended, Or.inr ?_⟩
        rcases edge with rfl | reached
        · -- the round just made was the last one, so `it'` is one page below
          have same : it' = it - pgSz4K := by
            have before := next.pages
            have after := final.pages
            rw [memoryEnd_eq] at before after
            bv_omega
          subst same
          bv_omega
        · exact reached
      · rename_i outOfRange
        cases success
        exact ⟨it, free, state, outOfRange, Or.inl rfl⟩

theorem kallocinitLoop_returns {last it : Addr} {heap : Heap}
    {free : List Addr} (fuel : Nat)
    (state : LoopInvariant last it heap free) (nonzero : last ≠ 0)
    (enough : it.toNat / 4096 + 1 < fuel) :
    ∃ heap', kallocinitLoop last it fuel heap = .ok heap' := by
  induction fuel generalizing it heap free with
  | zero => omega
  | succ fuel induction =>
      rw [kallocinitLoop]
      split
      · rename_i inRange
        rcases state.step inRange nonzero with ⟨middle, freed, next⟩
        have below : (it - pgSz4K).toNat + 4096 = it.toNat := by
          have isAligned := state.isAligned
          bv_omega
        rw [freed]
        exact induction next (by omega)
      · exact ⟨heap, rfl⟩

/-- A kernel image that ends at zero is never cleared by the loop. -/
theorem kallocinitLoop_zero (it : Addr) (fuel : Nat) (heap heap' : Heap) :
    kallocinitLoop 0 it fuel heap ≠ .ok heap' := by
  induction fuel generalizing it heap with
  | zero => simp [kallocinitLoop]
  | succ fuel induction =>
      have inRange : (0 : Addr) ≤ it := by bv_omega
      rw [kallocinitLoop, if_pos inRange, ne_eq, bind_eq_ok]
      rintro ⟨middle, _, rest⟩
      exact induction _ _ rest

theorem kallocinit_returns (last : Addr) (mem : Memory)
    (nonzero : last ≠ 0) :
    ∃ heap,
      kallocinit last (2 ^ 53) { mem, nfreepages := 0, freelist := 0 } =
        .ok heap :=
  kallocinitLoop_returns (2 ^ 53) (LoopInvariant.start last mem) nonzero
    (by decide)

/-- After `kallocinit` every frame above `last` is free. -/
theorem kallocinit_spec {last : Addr} {mem : Memory} {fuel : Nat}
    {heap : Heap}
    (success : kallocinit last fuel { mem, nfreepages := 0, freelist := 0 } =
      .ok heap) :
    ∃ free, Invariant last heap free ∅ ∧
      free.length = frameCount last := by
  have nonzero : last ≠ 0 := by
    rintro rfl
    exact kallocinitLoop_zero _ _ _ _ success
  rcases kallocinitLoop_spec fuel (LoopInvariant.start last mem) nonzero
      success with
    ⟨it, free, final, ended, edge⟩
  refine ⟨free, final.finish ended, ?_⟩
  have pages := final.pages
  have low : it.toNat < last.toNat := by bv_omega
  simp only [frameCount, memoryEnd_eq] at pages ⊢
  rcases edge with rfl | reached
  · simp only [List.length_nil] at pages ⊢
    omega
  · have high : last.toNat ≤ it.toNat + 4096 := by bv_omega
    omega

/-! ## Histories -/

/--
All histories of the allocator: initialisation, then allocations, releases of
frames that are allocated, and client writes of single bytes into allocated
frames, in any order.
-/
inductive Reachable (last : Addr) : Heap → Set Addr → Prop where
  | init {mem : Memory} {fuel : Nat} {heap : Heap}
      (success : kallocinit last fuel
        { mem, nfreepages := 0, freelist := 0 } = .ok heap) :
      Reachable last heap ∅
  | alloc {heap heap' : Heap} {allocated : Set Addr} {frame : Addr}
      (before : Reachable last heap allocated)
      (success : kalloc heap = .ok (frame, heap')) :
      Reachable last heap' (insert frame allocated)
  | free {heap heap' : Heap} {allocated : Set Addr} {frame : Addr}
      (before : Reachable last heap allocated)
      (isAllocated : frame ∈ allocated)
      (success : kfree frame heap = .ok heap') :
      Reachable last heap' (allocated \ {frame})
  | write {heap : Heap} {allocated : Set Addr} {frame address : Addr}
      {value : Byte}
      (before : Reachable last heap allocated)
      (isAllocated : frame ∈ allocated)
      (inside : Within frame 4096 address) :
      Reachable last
        { heap with mem := Function.update heap.mem address value } allocated

theorem Reachable.invariant {last : Addr} {heap : Heap}
    {allocated : Set Addr} (reachable : Reachable last heap allocated) :
    ∃ free, Invariant last heap free allocated := by
  induction reachable with
  | init success =>
      rcases kallocinit_spec success with ⟨free, invariant, _⟩
      exact ⟨free, invariant⟩
  | alloc before success induction =>
      rcases induction with ⟨free, invariant⟩
      rcases kalloc_spec invariant success with ⟨rest, _, after, _⟩
      exact ⟨rest, after⟩
  | free before isAllocated success induction =>
      rcases induction with ⟨free, invariant⟩
      exact ⟨_, kfree_spec invariant isAllocated success⟩
  | write before isAllocated inside induction =>
      rcases induction with ⟨free, invariant⟩
      refine ⟨free, invariant.of_write isAllocated ?_⟩
      intro address outside
      apply Function.update_of_ne
      rintro rfl
      exact outside inside

/--
What a client may rely on.  The list from `freelist` ends, visits no frame
twice and has the counted length; with the allocated frames it makes up all
frames, each on one side; and an allocation returns one of its frames, cleared,
and touches nothing else.
-/
structure Sound (last : Addr) (heap : Heap) (allocated : Set Addr)
    (free : List Addr) : Prop where
  chain : Chain (load64 heap.mem) 0 heap.freelist free
  acyclic : free.Nodup
  counted : heap.nfreepages.toInt = free.length
  pages : ∀ frame ∈ free, aligned frame pgSz4K
  disjoint : ∀ frame ∈ free, frame ∉ allocated
  exhaustive : ∀ frame,
    frame ∈ free ∨ frame ∈ allocated ↔ IsFrame last frame
  allocates : ∀ frame heap', kalloc heap = .ok (frame, heap') →
    frame ∈ free ∧ Allocated heap heap' frame

theorem Invariant.sound {last : Addr} {heap : Heap} {free : List Addr}
    {allocated : Set Addr}
    (invariant : Invariant last heap free allocated)
    (countable : frameCount last < 2 ^ 31) :
    Sound last heap allocated free where
  chain := invariant.chain
  acyclic := invariant.nodup
  counted := by
    have bound := length_le_frameCount last free invariant.nodup
      (fun frame member => invariant.isFrame_of_free member)
    have value : heap.nfreepages.toNat = free.length := by
      rw [invariant.count, BitVec.toNat_ofNat]
      exact Nat.mod_eq_of_lt (by omega)
    rw [BitVec.toInt_eq_toNat_of_lt (by omega), value]
  pages := by
    intro frame member
    exact (aligned_pgSz4K_iff frame).mpr
      (invariant.isFrame_of_free member).1
  disjoint := invariant.disjoint
  exhaustive := fun frame => (invariant.frames frame).symm
  allocates := by
    intro frame heap' success
    rcases kalloc_spec invariant success with ⟨rest, rfl, _, effect⟩
    exact ⟨List.mem_cons_self, effect⟩

/-- The direct map has 16 MiB of memory. -/
theorem frameCount_le {last : Addr} (mapped : kernbase ≤ last) :
    frameCount last ≤ 4096 := by
  have above := BitVec.le_def.mp mapped
  rw [show kernbase.toNat = 0xFFFFFFFF80000000 from rfl] at above
  rw [frameCount, memoryEnd_eq]
  omega

/--
The allocator is sound in every history, for every end of the kernel image in the
direct map, where the linker places it.
-/
theorem free_list_partitions_frames (last : Addr) (mapped : kernbase ≤ last) :
    (∀ mem, ∃ fuel heap,
      kallocinit last fuel { mem, nfreepages := 0, freelist := 0 } =
        .ok heap) ∧
      ∀ heap allocated, Reachable last heap allocated →
        ∃ free, Sound last heap allocated free := by
  have nonzero : last ≠ 0 := by
    rintro rfl
    exact absurd mapped (by decide)
  have few := frameCount_le mapped
  constructor
  · intro mem
    exact ⟨2 ^ 53, kallocinit_returns last mem nonzero⟩
  · intro heap allocated reachable
    rcases reachable.invariant with ⟨free, invariant⟩
    exact ⟨free, invariant.sound (by omega)⟩

/-- An image that ends one byte into a page leaves that page out. -/
theorem free_list_partitions_frames_unaligned :
    ∃ heap, Reachable 0xFFFFFFFF80FFE001 heap ∅ ∧
      ∃ free, Sound 0xFFFFFFFF80FFE001 heap ∅ free := by
  have sound :=
    free_list_partitions_frames 0xFFFFFFFF80FFE001 (by decide)
  rcases sound.1 (fun _ => 0) with ⟨fuel, heap, success⟩
  exact ⟨heap, .init success, sound.2 heap ∅ (.init success)⟩

end Rt64.Kernel.Kalloc
