import Rt64.Kapp.Minctest
import Rt64.Kernel.ConsoleFormat

/-!
# The lines of the latency test

The statistics are those of the samples so far: the timer thread clears them
before it takes the first, and the master looks at them only while it has the
processor.  Each line comes after a sample and reports their number, the last and
the maximum, and, while the sum fits a `u64`, the mean.  The minimum starts from
1000000, which is less than the period of the timer, so that a line reports the
minimum only if a sample has been as small as that.
-/

namespace Rt64.Kapp.MinctestStats

open Rt64.Lib.ByteMemory
open Rt64.Lib.Numeral
open Rt64.Lib.Transition
open Rt64.Include.Defs
open Rt64.Include.Access
open Rt64.Kernel
open Rt64.Kernel.Process
open Rt64.Kernel.Processor (Machine)
open Rt64.Kernel.Lapic
open Rt64.Kernel.Trap
open Rt64.Kernel.Console
open Rt64.Kernel.ConsoleFormat
open Rt64.Kapp.Minctest

/-! ## The statistics of a list of samples -/

/-- The statistics after the samples. -/
def statsOf (samples : List (BitVec 64)) : Stats :=
  samples.foldl (fun stats diff => updatestats diff stats) Stats.zero.init

/-- The fields after an update. -/
theorem updatestats_eq (diff : BitVec 64) (stats : Stats) :
    updatestats diff stats =
      { min := if diff < stats.min then diff else stats.min
        max := if stats.max < diff then diff else stats.max
        sum := stats.sum + diff
        act := diff
        cycles := stats.cycles + 1 } := by
  by_cases less : diff < stats.min
  · by_cases more : stats.max < diff
    · simp only [updatestats, if_pos less, if_pos more]
    · simp only [updatestats, if_pos less, if_neg more]
  · by_cases more : stats.max < diff
    · simp only [updatestats, if_neg less, if_pos more]
    · simp only [updatestats, if_neg less, if_neg more]

section Samples

variable (samples : List (BitVec 64)) (diff : BitVec 64)

/-- The sum of the samples, without overflow. -/
def total : Nat :=
  (samples.map BitVec.toNat).sum

theorem total_concat : total (samples ++ [diff]) = total samples + diff.toNat := by
  rw [total, List.map_append, List.sum_append]
  exact congrArg _ (Nat.add_zero diff.toNat)

theorem statsOf_concat :
    statsOf (samples ++ [diff]) = updatestats diff (statsOf samples) :=
  List.foldl_concat _ _ _ _

theorem statsOf_cycles :
    (statsOf samples).cycles = BitVec.ofNat 64 samples.length := by
  induction samples using List.reverseRecOn with
  | nil => rfl
  | append_singleton samples diff induction =>
      rw [statsOf_concat, updatestats_eq, List.length_append, BitVec.ofNat_add,
        ← induction]
      rfl

theorem statsOf_sum :
    (statsOf samples).sum = BitVec.ofNat 64 (total samples) := by
  induction samples using List.reverseRecOn with
  | nil => rfl
  | append_singleton samples diff induction =>
      rw [statsOf_concat, updatestats_eq, total_concat, BitVec.ofNat_add,
        BitVec.ofNat_toNat, BitVec.setWidth_eq, ← induction]

/-- The minimum of the samples and the value it starts from. -/
theorem statsOf_min :
    ((statsOf samples).min = 1000000 ∨ (statsOf samples).min ∈ samples) ∧
      (statsOf samples).min ≤ 1000000 ∧
      ∀ sample ∈ samples, (statsOf samples).min ≤ sample := by
  induction samples using List.reverseRecOn with
  | nil => exact ⟨Or.inl rfl, BitVec.le_refl _, nofun⟩
  | append_singleton samples diff induction =>
      rcases induction with ⟨origin, start, least⟩
      rw [statsOf_concat, updatestats_eq]
      dsimp only
      split
      · rename_i less
        refine ⟨Or.inr List.mem_concat_self,
          BitVec.le_trans (BitVec.le_of_lt less) start, ?_⟩
        intro sample inside
        rcases List.mem_append.mp inside with old | new
        · exact BitVec.le_trans (BitVec.le_of_lt less) (least sample old)
        · rw [List.mem_singleton.mp new]
          exact BitVec.le_refl diff
      · rename_i notLess
        refine ⟨origin.imp_right (List.mem_append_left [diff]), start, ?_⟩
        intro sample inside
        rcases List.mem_append.mp inside with old | new
        · exact least sample old
        · rw [List.mem_singleton.mp new]
          exact BitVec.not_lt.mp notLess

theorem statsOf_max :
    ((statsOf samples).max = 0 ∨ (statsOf samples).max ∈ samples) ∧
      ∀ sample ∈ samples, sample ≤ (statsOf samples).max := by
  induction samples using List.reverseRecOn with
  | nil => exact ⟨Or.inl rfl, nofun⟩
  | append_singleton samples diff induction =>
      rcases induction with ⟨origin, greatest⟩
      rw [statsOf_concat, updatestats_eq]
      dsimp only
      split
      · rename_i more
        refine ⟨Or.inr List.mem_concat_self, ?_⟩
        intro sample inside
        rcases List.mem_append.mp inside with old | new
        · exact BitVec.le_trans (greatest sample old) (BitVec.le_of_lt more)
        · rw [List.mem_singleton.mp new]
          exact BitVec.le_refl diff
      · rename_i notMore
        refine ⟨origin.imp_right (List.mem_append_left [diff]), ?_⟩
        intro sample inside
        rcases List.mem_append.mp inside with old | new
        · exact greatest sample old
        · rw [List.mem_singleton.mp new]
          exact BitVec.not_lt.mp notMore

end Samples

/-! ## What a line reports -/

/-- The number of the samples, their minimum, the last one, the floor of their
mean and their maximum. -/
structure Reports (samples : List (BitVec 64)) (line : Line) : Prop where
  cycles : line.cycles.toNat = samples.length
  min : line.min ∈ samples ∧ ∀ sample ∈ samples, line.min ≤ sample
  act : samples.getLast? = some line.act
  avg : line.avg.toNat = total samples / samples.length
  max : line.max ∈ samples ∧ ∀ sample ∈ samples, sample ≤ line.max

/-- The sum does not overflow, and the number of samples is positive as a
`long`. -/
structure InRange (samples : List (BitVec 64)) : Prop where
  sum : total samples < 2 ^ 64
  length : samples.length < 2 ^ 63

/-- A sample is as small as the start of the minimum. -/
def HasSmall (samples : List (BitVec 64)) : Prop :=
  ∃ sample ∈ samples, sample ≤ 1000000

section Reporting

variable {samples : List (BitVec 64)}

theorem toNat_cycles (short : samples.length < 2 ^ 63) :
    (statsOf samples).cycles.toNat = samples.length := by
  rw [statsOf_cycles, BitVec.toNat_ofNat]
  exact Nat.mod_eq_of_lt (by omega)

theorem cycles_ne_zero (nonempty : samples ≠ [])
    (short : samples.length < 2 ^ 63) : (statsOf samples).cycles ≠ 0 := by
  intro zero
  have number := toNat_cycles short
  rw [zero] at number
  exact nonempty (List.length_eq_zero_iff.mp number.symm)

theorem statsOf_act (nonempty : samples ≠ []) :
    samples.getLast? = some (statsOf samples).act := by
  rcases List.eq_nil_or_concat' samples with empty | ⟨front, last, rfl⟩
  · exact absurd empty nonempty
  · rw [List.getLast?_concat, statsOf_concat, updatestats_eq]

theorem statsOf_max_mem (nonempty : samples ≠ []) :
    (statsOf samples).max ∈ samples := by
  rcases statsOf_max samples with ⟨zero | inside, greatest⟩
  · rcases List.exists_mem_of_ne_nil samples nonempty with ⟨sample, inside⟩
    have same : (statsOf samples).max = sample :=
      BitVec.le_antisymm (zero.symm ▸ Nat.zero_le _) (greatest sample inside)
    exact same.symm ▸ inside
  · exact inside

/-- The minimum is one of the samples exactly if its start is not below them
all. -/
theorem statsOf_min_mem_iff :
    (statsOf samples).min ∈ samples ↔ HasSmall samples := by
  rcases statsOf_min samples with ⟨origin, start, least⟩
  constructor
  · intro inside
    exact ⟨_, inside, start⟩
  · rintro ⟨sample, inside, small⟩
    rcases origin with unchanged | inside'
    · have same : (statsOf samples).min = sample :=
        BitVec.le_antisymm (least sample inside) (unchanged.symm ▸ small)
      exact same.symm ▸ inside
    · exact inside'

theorem toNat_avg (inRange : InRange samples) :
    (statsOf samples).line.avg.toNat = total samples / samples.length := by
  show ((statsOf samples).sum / (statsOf samples).cycles).toNat = _
  rw [BitVec.toNat_udiv, toNat_cycles inRange.length, statsOf_sum,
    BitVec.toNat_ofNat, Nat.mod_eq_of_lt inRange.sum]

theorem reports_statsOf_iff (nonempty : samples ≠ [])
    (inRange : InRange samples) :
    Reports samples (statsOf samples).line ↔ HasSmall samples := by
  constructor
  · intro reports
    exact statsOf_min_mem_iff.mp reports.min.1
  · intro small
    exact
      { cycles := toNat_cycles inRange.length
        min := ⟨statsOf_min_mem_iff.mpr small, (statsOf_min samples).2.2⟩
        act := statsOf_act nonempty
        avg := toNat_avg inRange
        max := ⟨statsOf_max_mem nonempty, (statsOf_max samples).2⟩ }

/-- The sum of samples with a bound. -/
theorem total_le {bound : Nat}
    (bounded : ∀ sample ∈ samples, sample.toNat ≤ bound) :
    total samples ≤ samples.length * bound := by
  induction samples using List.reverseRecOn with
  | nil => exact Nat.zero_le _
  | append_singleton samples diff induction =>
      have front := induction fun sample inside =>
        bounded sample (List.mem_append_left _ inside)
      have last := bounded diff List.mem_concat_self
      rw [total_concat, List.length_append, Nat.add_mul]
      exact Nat.add_le_add front (last.trans_eq (Nat.one_mul bound).symm)

end Reporting

/-! ## The text of a line -/

/-- The format of `minctestmain`. -/
abbrev fmt : String :=
  "C:%7l Min:%7l Act:%5l Avg:%5l Max:%8l\n"

def lineArgs (line : Line) : Args
  | 0 => line.cycles
  | 1 => line.min
  | 2 => line.act
  | 3 => line.avg
  | _ => line.max

/-- A label and the number after it. -/
def lineField (label : String)
    (plain : ∀ c ∈ ascii label, c ≠ 0 ∧ c ≠ charByte '%') (width : Fin 10) :
    List Token :=
  literals (ascii label) plain ++ [.conversion [width] .l]

def lineFormat : Format where
  tokens :=
    lineField "C:" (by decide) 7 ++ (lineField " Min:" (by decide) 7 ++
      (lineField " Act:" (by decide) 5 ++ (lineField " Avg:" (by decide) 5 ++
        (lineField " Max:" (by decide) 8 ++
          literals (ascii "\n") (by decide)))))
  unfinished := none

theorem lineFormat_text : lineFormat.text = ascii fmt := by
  decide

/-- A number with the spaces before it that the width asks for. -/
def numberField (width number : Nat) : List Byte :=
  (numeral 10 number).leftpad width (charByte ' ')

/-- What `cprintf` prints. -/
def lineText (line : Line) : List Byte :=
  ascii "C:" ++ numberField 7 line.cycles.toNat ++
  ascii " Min:" ++ numberField 7 line.min.toNat ++
  ascii " Act:" ++ numberField 5 line.act.toNat ++
  ascii " Avg:" ++ numberField 5 line.avg.toNat ++
  ascii " Max:" ++ numberField 8 line.max.toNat ++ ascii "\n"

/-- The numbers are positive as `long`s. -/
structure Positive (line : Line) : Prop where
  cycles : line.cycles.toNat < 2 ^ 63
  min : line.min.toNat < 2 ^ 63
  act : line.act.toNat < 2 ^ 63
  avg : line.avg.toNat < 2 ^ 63
  max : line.max.toNat < 2 ^ 63

section Text

variable {args : Args} {strings : Nat → List Byte}

theorem signedField_toInt {number : BitVec 64} (positive : number.toNat < 2 ^ 63)
    (width : Nat) :
    signedField width number.toInt = numberField width number.toNat := by
  have nonnegative : ¬ (number.toNat : Int) < 0 := by omega
  rw [BitVec.toInt_eq_toNat_of_lt (by omega), signedField,
    decide_eq_false nonnegative]
  rfl

theorem taken_lineField {label : String}
    (plain : ∀ c ∈ ascii label, c ≠ 0 ∧ c ≠ charByte '%') (width : Fin 10) :
    taken (lineField label plain width) = 1 := by
  rw [taken, lineField, List.map_append, List.sum_append]
  exact congrArg (· + 1) (taken_literals plain)

/-- A field followed by the rest of the line. -/
theorem render_lineField {label : String}
    (plain : ∀ c ∈ ascii label, c ≠ 0 ∧ c ≠ charByte '%') {width : Fin 10}
    {rest : List Token} {ap : Nat} (positive : (args ap).toNat < 2 ^ 63) :
    render args strings (lineField label plain width ++ rest) ap =
      ascii label ++ numberField width (args ap).toNat ++
        render args strings rest (ap + 1) := by
  have number : render args strings [.conversion [width] .l] ap =
      numberField width (args ap).toNat := by
    rw [← signedField_toInt positive]
    have value : Width.value [width] = width := Nat.zero_add _
    rw [← value]
    exact List.append_nil _
  rw [render_append, taken_lineField, lineField, render_append,
    render_literals, taken_literals, Nat.add_zero, number]

theorem render_line {line : Line} (positive : Positive line) :
    render (lineArgs line) strings lineFormat.tokens 0 = lineText line := by
  have last : render (lineArgs line) strings
      (literals (ascii "\n") (by decide)) 5 = ascii "\n" :=
    render_literals _ _ _ _
  rw [lineFormat, render_lineField _ positive.cycles,
    render_lineField _ positive.min, render_lineField _ positive.act,
    render_lineField _ positive.avg, render_lineField _ positive.max, last]
  simp only [lineText, List.append_assoc]
  rfl

/-- `cprintf` prints the line wherever its format is. -/
theorem prints_line {view : View} {address : Addr} {line : Line}
    (positive : Positive line) (nonnull : address ≠ 0)
    (stored : StringAt view address (ascii fmt)) :
    Prints view address (lineArgs line) (lineText line) 5 := by
  have numeric : ∀ token ∈ lineFormat.tokens, token.isNumeric = true := by
    decide
  rw [← lineFormat_text] at stored
  have printed := prints_format nonnull
    (matches_of_isNumeric (lineArgs line) (fun _ => []) view numeric 0) stored
  rw [render_line positive] at printed
  exact printed

/-- The numbers of samples up to the period are positive. -/
theorem positive_statsOf {samples : List (BitVec 64)} (nonempty : samples ≠ [])
    (inRange : InRange samples)
    (bounded : ∀ sample ∈ samples, sample ≤ period) :
    Positive (statsOf samples).line := by
  have small {sample : BitVec 64} (inside : sample ∈ samples) :
      sample.toNat < 2 ^ 63 :=
    Nat.lt_of_le_of_lt (bounded sample inside) (by decide)
  exact
    { cycles := by
        have length := inRange.length
        rw [← toNat_cycles length] at length
        exact length
      min := Nat.lt_of_le_of_lt (statsOf_min samples).2.1 (by decide)
      act := small (List.mem_of_getLast? (statsOf_act nonempty))
      avg := by
        have sum := total_le bounded
        rw [toNat_avg inRange]
        refine Nat.lt_of_le_of_lt (Nat.div_le_of_le_mul sum) (by decide)
      max := small (statsOf_max_mem nonempty) }

end Text

/-! ## The invariant -/

/-- The master has left its first loop. -/
def isPast : MasterPoint → Bool
  | .evaluate | .print _ | .pause => true
  | _ => false

/-- The count that the timer thread has read and not used yet. -/
def countRead : TimerPoint → Option (BitVec 64)
  | .readTicks _ nowcct | .check _ nowcct _ | .update _ nowcct => some nowcct
  | _ => none

/-- The statistics and the lines are those of the samples. -/
structure Consistent (system : System) : Prop where
  fresh : system.timer = .start → system.stats = .zero ∧ system.samples = []
  counted : system.timer ≠ .start → system.stats = statsOf system.samples
  read : ∀ nowcct, countRead system.timer = some nowcct → nowcct ≤ period
  bounded : ∀ sample ∈ system.samples, sample ≤ period
  past : isPast system.master = true → system.samples ≠ []
  printing : ∀ line, system.master = .print line →
    Runs 1 system.machine ∧ line = system.stats.line
  printed : ∀ entry ∈ system.lines, entry.1 <+: system.samples ∧
    entry.1 ≠ [] ∧ entry.2 = (statsOf entry.1).line

namespace Consistent

variable {layout : Layout} {symbols : Symbols} {before after : System}

theorem boot (index : Byte) (heap : Kalloc.Heap) (image : Image) :
    Consistent (Minctest.boot layout index heap image) where
  fresh _ := ⟨rfl, rfl⟩
  counted notStart := absurd rfl notStart
  read := nofun
  bounded := nofun
  past := nofun
  printing := nofun
  printed := nofun

/-- Once there is a sample, the timer thread has cleared the statistics. -/
theorem stats_eq (consistent : Consistent before)
    (nonempty : before.samples ≠ []) :
    before.stats = statsOf before.samples :=
  consistent.counted fun start => nonempty (consistent.fresh start).2

/-- As soon as the count is not zero, there is a sample. -/
theorem sampled (consistent : Consistent before)
    (counts : before.stats.cycles ≠ 0) : before.samples ≠ [] := by
  intro empty
  apply counts
  by_cases start : before.timer = .start
  · rw [(consistent.fresh start).1]
    rfl
  · rw [consistent.counted start, empty]
    rfl

/-- The machine takes a step that leaves a printing master alone. -/
theorem machine (consistent : Consistent before) {machine : Machine}
    {main : MainPoint}
    (keeps : Runs 1 before.machine → Runs 1 machine) :
    Consistent { before with machine, main } :=
  { consistent with
    printing := fun line point =>
      ⟨keeps (consistent.printing line point).1,
        (consistent.printing line point).2⟩ }

/-- The master goes on, and does not print. -/
theorem master (consistent : Consistent before) {machine : Machine}
    {point : MasterPoint} (silent : ∀ line, point ≠ .print line)
    (past : isPast point = true → before.samples ≠ []) :
    Consistent { before with machine, master := point } :=
  { consistent with
    past
    printing := fun line same => absurd same (silent line) }

/-- The master does not print while another thread runs. -/
theorem not_printing (consistent : Consistent before)
    (runs : Runs 2 before.machine) (line : Line) :
    before.master ≠ .print line := by
  intro point
  have thread := (consistent.printing line point).1.thread
  rw [runs.thread] at thread
  cases thread

/-- The timer thread goes on, and leaves the statistics. -/
theorem timer (consistent : Consistent before) (runs : Runs 2 before.machine)
    {machine : Machine} {point : TimerPoint} (started : before.timer ≠ .start)
    (notStart : point ≠ .start)
    (read : ∀ nowcct, countRead point = some nowcct → nowcct ≤ period) :
    Consistent { before with machine, timer := point } :=
  { consistent with
    fresh := fun start => absurd start notStart
    counted := fun _ => consistent.counted started
    read
    printing := fun line same =>
      absurd same (consistent.not_printing runs line) }

theorem start (consistent : Consistent before) (runs : Runs 2 before.machine)
    (point : before.timer = .start) :
    Consistent { before with
      stats := before.stats.init
      timer := .firstSleep } :=
  { consistent with
    fresh := nofun
    counted := fun _ => by
      rw [(consistent.fresh point).1, (consistent.fresh point).2]
      rfl
    read := nofun
    printing := fun line same =>
      absurd same (consistent.not_printing runs line) }

theorem print (consistent : Consistent before) {line : Line}
    (point : before.master = .print line) :
    Consistent { before with
      master := .pause
      lines := before.lines ++ [(before.samples, line)] } := by
  have nonempty := consistent.past (point ▸ rfl)
  have reported : line = (statsOf before.samples).line := by
    rw [← consistent.stats_eq nonempty]
    exact (consistent.printing line point).2
  exact
    { consistent with
      past := fun _ => nonempty
      printing := nofun
      printed := by
        intro entry inside
        rcases List.mem_append.mp inside with old | new
        · exact consistent.printed entry old
        · rw [List.mem_singleton.mp new]
          exact ⟨List.prefix_refl _, nonempty, reported⟩ }

theorem update (consistent : Consistent before) (runs : Runs 2 before.machine)
    {lastticks nowcct : BitVec 64}
    (point : before.timer = .update lastticks nowcct) :
    Consistent { before with
      stats := updatestats (period - nowcct) before.stats
      samples := before.samples ++ [period - nowcct]
      timer := .sleep lastticks } := by
  have started : before.timer ≠ .start := by
    rw [point]
    exact nofun
  have small : nowcct ≤ period := consistent.read nowcct (point ▸ rfl)
  exact
    { fresh := nofun
      counted := fun _ => by
        rw [statsOf_concat, ← consistent.counted started]
      read := nofun
      bounded := by
        intro sample inside
        rcases List.mem_append.mp inside with old | new
        · exact consistent.bounded sample old
        · rw [List.mem_singleton.mp new, BitVec.le_def,
            BitVec.toNat_sub_of_le small]
          exact Nat.sub_le _ _
      past := fun _ => List.concat_ne_nil _ _
      printing := fun line same =>
        absurd same (consistent.not_printing runs line)
      printed := by
        intro entry inside
        rcases consistent.printed entry inside with ⟨front, rest⟩
        exact ⟨front.trans (List.prefix_append _ _), rest⟩ }

theorem step (consistent : Consistent before) {event : Event}
    (stepped : Minctest.step layout symbols event before =
      some (.ok after)) : Consistent after := by
  cases step_cases stepped with
  | run ran =>
      -- a master that prints is in no kernel function
      refine consistent.machine fun runs => ?_
      rcases Processor.code_of_run ran with ⟨stmt, rest, code⟩
      rw [runs.code] at code
      cases code
  | tick ticked =>
      refine consistent.machine fun runs => ?_
      rcases Processor.step_tick ticked with ⟨_, rfl⟩
      exact ⟨runs.thread, runs.code⟩
  | main runs called =>
      refine consistent.machine fun elsewhere => ?_
      have thread := elsewhere.thread
      rw [runs.thread] at thread
      cases thread
  | spawnTimer => exact consistent.master nofun nofun
  | test runs point =>
      by_cases zero : before.stats.cycles = 0
      · rw [if_pos zero]
        exact consistent.master nofun nofun
      · -- the statistics start from zero, and are cleared before the first sample
        rw [if_neg zero]
        exact consistent.master nofun fun _ => consistent.sampled zero
  | wait => exact consistent.master nofun nofun
  | evaluate runs point divisor =>
      exact
        { consistent with
          past := fun _ => consistent.past (point ▸ rfl)
          printing := fun line same =>
            ⟨runs, (MasterPoint.print.inj same).symm⟩ }
  | print runs point => exact consistent.print point
  | pause runs point =>
      exact consistent.master nofun fun _ => consistent.past (point ▸ rfl)
  | start runs point => exact consistent.start runs point
  | firstSleep runs point =>
      exact consistent.timer runs (point ▸ nofun) nofun nofun
  | firstTicks runs point =>
      exact consistent.timer runs (point ▸ nofun) nofun nofun
  | sleep runs point =>
      exact consistent.timer runs (point ▸ nofun) nofun nofun
  | @readCount cct lastticks runs point counts =>
      refine consistent.timer runs (point ▸ nofun) nofun ?_
      rintro nowcct ⟨⟩
      rw [BitVec.le_def, BitVec.toNat_setWidth_of_le (by decide)]
      exact counts
  | readTicks runs point =>
      refine consistent.timer runs (point ▸ nofun) nofun ?_
      exact fun nowcct same => consistent.read nowcct (point ▸ same)
  | check runs point =>
      refine consistent.timer runs (point ▸ nofun) nofun ?_
      exact fun nowcct same => consistent.read nowcct (point ▸ same)
  | update runs point => exact consistent.update runs point

theorem of_reachable (reachable : Reachable layout symbols before) :
    Consistent before := by
  rcases reachable with ⟨index, heap, image, reaches⟩
  exact reaches.invariant
    (fun _ _ _ consistent stepped => consistent.step stepped)
    (Consistent.boot index heap image)

/-- The divisor is not zero while the count does not wrap around. -/
theorem not_divide (consistent : Consistent before)
    (short : before.samples.length < 2 ^ 63) (event : Event) :
    Minctest.step layout symbols event before ≠ some (.error .divide) := by
  intro failed
  cases fault_cases failed with
  | divide runs point zero =>
      have nonempty := consistent.past (point ▸ rfl)
      rw [consistent.stats_eq nonempty] at zero
      exact cycles_ne_zero nonempty short zero

end Consistent

/-! ## Results -/

/--
Every line of every run is printed after at least one sample, and the division
for its mean is none by zero.  While the sum of the samples fits a `u64` and their
number a `long`, the text of the line is that of its five numbers, and they are
those of the samples exactly if one of the samples is at most 1000000.
-/
theorem lines_report_samples {layout : Layout} {symbols : Symbols}
    {system : System} (reachable : Reachable layout symbols system) :
    (∀ sample ∈ system.samples, sample ≤ period) ∧
    (∀ entry ∈ system.lines,
      entry.1 <+: system.samples ∧ entry.1 ≠ [] ∧
      (InRange entry.1 →
        (Reports entry.1 entry.2 ↔ HasSmall entry.1) ∧
        ∀ (view : View) (address : Addr), address ≠ 0 →
          StringAt view address (ascii fmt) →
          Prints view address (lineArgs entry.2) (lineText entry.2) 5)) ∧
    (system.samples.length < 2 ^ 63 →
      ∀ event, step layout symbols event system ≠ some (.error .divide)) := by
  have consistent := Consistent.of_reachable reachable
  refine ⟨consistent.bounded, ?_, consistent.not_divide⟩
  intro entry inside
  rcases consistent.printed entry inside with ⟨front, nonempty, line⟩
  refine ⟨front, nonempty, fun inRange => ?_⟩
  rw [line]
  refine ⟨reports_statsOf_iff nonempty inRange, ?_⟩
  intro view address nonnull stored
  have positive := positive_statsOf nonempty inRange fun sample inside' =>
    consistent.bounded sample (front.subset inside')
  exact prints_line positive nonnull stored

/-- The master wakes up after the first sample and prints a line. -/
def sampleLine (cct : BitVec 32) : List Event :=
  sampleAwakening ++ sampleReading cct ++ List.replicate 8 .tick ++
    List.replicate 12 .run ++ sampleCall 0 ++ sampleCall 0 ++ sampleCall 0

theorem exists_of_sampleLine {cct : BitVec 32}
    {lines : List (List (BitVec 64) × Line)}
    (printed : (follow (step sampleLayout sampleSymbols) (sampleLine cct)
      sampleStart).map (fun run => run.2.lines) = some lines) :
    ∃ system, Reachable sampleLayout sampleSymbols system ∧
      system.lines = lines := by
  rcases Option.map_eq_some_iff.mp printed with ⟨⟨steps, system⟩, run, same⟩
  exact ⟨system, ⟨_, _, _, steps, Path.of_follow run⟩, same⟩

/-- A line after one sample of 250000. -/
theorem lines_report_samples_once :
    ∃ system, Reachable sampleLayout sampleSymbols system ∧
      ∃ entry ∈ system.lines, InRange entry.1 ∧ HasSmall entry.1 ∧
        Reports entry.1 entry.2 := by
  rcases @exists_of_sampleLine 9750000
    [([250000], ⟨1, 250000, 250000, 250000, 250000⟩)]
    (by decide +kernel) with ⟨system, reachable, lines⟩
  have inside : ([250000], ⟨1, 250000, 250000, 250000, 250000⟩) ∈
      system.lines := by
    rw [lines]
    exact List.mem_singleton_self _
  have inRange : InRange [250000] := ⟨by decide, by decide⟩
  have small : HasSmall [250000] := ⟨250000, by decide, by decide⟩
  have reports := ((lines_report_samples reachable).2.1 _ inside).2.2 inRange
  exact ⟨system, reachable, _, inside, inRange, small, reports.1.mpr small⟩

/-- After one sample of 2000000, half that is printed as the minimum. -/
theorem line_reports_wrong_minimum :
    ∃ system, Reachable sampleLayout sampleSymbols system ∧
      ∃ line, ([2000000], line) ∈ system.lines ∧
        lineText line = ascii
          "C:      1 Min:1000000 Act:2000000 Avg:2000000 Max: 2000000\n" ∧
        ¬ Reports [2000000] line := by
  rcases @exists_of_sampleLine 8000000
    [([2000000], ⟨1, 1000000, 2000000, 2000000, 2000000⟩)]
    (by decide +kernel) with ⟨system, reachable, lines⟩
  refine ⟨system, reachable, ⟨1, 1000000, 2000000, 2000000, 2000000⟩, ?_,
    by decide +kernel, fun reports => ?_⟩
  · rw [lines]
    exact List.mem_singleton_self _
  · exact absurd reports.min.1 (by decide)

end Rt64.Kapp.MinctestStats
