import DpuTest.Lib.Blocks
import Mathlib.Data.List.GetD
import Mathlib.Data.List.Infix
import Mathlib.Data.Rat.Defs

/-!
# Durations of recoveries

`recover_time.py` polls the state of a cluster and reports how long each recovery took.
It remembers when the current one was first seen, and whether the last sample that
changed something was in recovery.  A poll can fail, which changes nothing.

The samples, one flag each, are a list of flags as `Lib.Blocks` has it.  `Tracks` says
what the two variables hold after a run: the recovery that goes on is the open block,
and one duration has been reported for each closed block.  Every turn of the loop keeps
it (`exists_turn`), and in particular raises no exception.  So `reportsEpisodes` holds of
every sequence of polls.

Times are in microseconds, and what Python computes with floating-point numbers is
computed exactly.  A message holds these numbers, and not the two decimals that the format
prints of them.
-/

namespace DpuTest.CephCompress

open Lib

/-- An entry of `pgs_by_state`. -/
structure PgState where
  stateName : List Char
  count : Nat

/-- What a poll brings, and when. -/
structure Sample where
  pgStatus : List PgState
  /-- `pgmap.get('recovering_bytes_per_sec', 0)` -/
  recoveringBytesPerSec : Rat
  currentTime : Int

inductive Poll where
  /-- `ret != 0` -/
  | failed (err : List Char)
  | sample (x : Sample)

/-- `recovery_keywords` -/
def recoveryKeywords : List (List Char) :=
  [['r', 'e', 'c', 'o', 'v', 'e', 'r', 'i', 'n', 'g'],
    ['b', 'a', 'c', 'k', 'f', 'i', 'l', 'l', 'i', 'n', 'g'],
    ['d', 'e', 'g', 'r', 'a', 'd', 'e', 'd'],
    ['r', 'e', 'm', 'a', 'p', 'p', 'e', 'd'],
    ['b', 'a', 'c', 'k', 'f', 'i', 'l', 'l', '_', 'w', 'a', 'i', 't'],
    ['b', 'a', 'c', 'k', 'f', 'i', 'l', 'l', '_', 't', 'o', 'o', 'f', 'u', 'l', 'l'],
    ['i', 'n', 'c', 'o', 'm', 'p', 'l', 'e', 't', 'e']]

/-- `keyword in state_name` -/
def occursIn (keyword stateName : List Char) : Bool :=
  stateName.tails.any (fun rest => keyword.isPrefixOf rest)

theorem occursIn_iff {keyword stateName : List Char} :
    occursIn keyword stateName = true ↔ keyword <:+: stateName := by
  simp only [occursIn, List.any_eq_true, List.mem_tails, List.isPrefixOf_iff_prefix]
  rw [List.infix_iff_prefix_suffix]
  exact exists_congr fun rest => and_comm

/-- `is_in_recovery_state(pg_status)` -/
def isInRecoveryState (pgStatus : List PgState) : Bool :=
  pgStatus.any (fun state => recoveryKeywords.any (fun keyword => occursIn keyword state.stateName))

/-- The values of `last_status`, apart from `None`. -/
inductive LastStatus where
  | recovering
  | activeClean
  deriving DecidableEq

/-- The exceptions that the arithmetic can raise. -/
inductive MonitorError where
  | typeError
  | zeroDivisionError

/-- What is printed. -/
inductive Message where
  | pollFailed (err : List Char)
  | recoveryStarted (currentTime : Int) (pgStatus : List PgState)
  /-- `estimate` is the amount of data in MB, and the speed in MB/s. -/
  | recoveryDone (currentTime : Int) (recoveryDuration : Rat) (estimate : Option (Rat × Rat))
    (pgStatus : List PgState)
  | progress (currentTime : Int) (elapsed : Rat) (recoveringPgs totalPgs : Nat)

structure MonitorState where
  recoveryStart : Option Int
  lastStatus : Option LastStatus
  output : List Message

/-- `(current_time - recovery_start).total_seconds()` -/
def elapsedSeconds (currentTime : Int) (recoveryStart : Option Int) : Except MonitorError Rat :=
  match recoveryStart with
  | none => .error .typeError
  | some start => .ok (((currentTime - start : Int) : Rat) / 1000000)

/-- `a / b` -/
def divide (a b : Rat) : Except MonitorError Rat :=
  if b = 0 then .error .zeroDivisionError else .ok (a / b)

/-- The estimate that is printed with a recovery that is over. -/
def estimate (bytesRecovered recoveryDuration : Rat) : Except MonitorError (Option (Rat × Rat)) :=
  if 0 < bytesRecovered then
    (divide bytesRecovered recoveryDuration).map
      (fun speed => some (bytesRecovered / 1024 / 1024, speed / 1024 / 1024))
  else .ok none

def shownStates (pgStatus : List PgState) : List PgState :=
  pgStatus.filter (fun state => 0 < state.count)

def sumCounts (pgStatus : List PgState) : Nat :=
  pgStatus.foldl (fun total state => total + state.count) 0

/-- A recovery is seen for the first time. -/
def enterRecovery (x : Sample) (s : MonitorState) : MonitorState where
  recoveryStart := some x.currentTime
  lastStatus := some .recovering
  output := s.output ++ [.recoveryStarted x.currentTime (shownStates x.pgStatus)]

/-- A recovery is over. -/
def leaveRecovery (x : Sample) (s : MonitorState) : Except MonitorError MonitorState := do
  let recoveryDuration ← elapsedSeconds x.currentTime s.recoveryStart
  let estimate ← estimate (x.recoveringBytesPerSec * recoveryDuration) recoveryDuration
  return { s with
    lastStatus := some .activeClean
    output := s.output ++
      [.recoveryDone x.currentTime recoveryDuration estimate (shownStates x.pgStatus)] }

/-- A recovery goes on: its progress is printed in the seconds that ten divides. -/
def stayInRecovery (x : Sample) (s : MonitorState) : Except MonitorError MonitorState := do
  let elapsed ← elapsedSeconds x.currentTime s.recoveryStart
  if elapsed.num.tdiv elapsed.den % 10 = 0 then
    return { s with
      output := s.output ++
        [.progress x.currentTime elapsed
          (sumCounts (x.pgStatus.filter (fun state => isInRecoveryState [state])))
          (sumCounts x.pgStatus)] }
  else return s

/-- A turn of the loop of `monitor_recovery_duration`. -/
def turn (s : MonitorState) : Poll → Except MonitorError MonitorState
  | .failed err => .ok { s with output := s.output ++ [.pollFailed err] }
  | .sample x =>
    let inRecovery := isInRecoveryState x.pgStatus
    if inRecovery ∧ s.lastStatus ≠ some .recovering then .ok (enterRecovery x s)
    else if ¬ inRecovery ∧ s.lastStatus = some .recovering then leaveRecovery x s
    else if s.lastStatus = some .recovering then stayInRecovery x s
    else .ok s

/-- `monitor_recovery_duration(conf_path, check_interval)`, stopped behind some polls. -/
def monitorRecoveryDuration (polls : List Poll) : Except MonitorError MonitorState :=
  polls.foldlM turn { recoveryStart := none, lastStatus := none, output := [] }

/-! ## Episodes -/

def Poll.sample? : Poll → Option Sample
  | .failed _ => none
  | .sample x => some x

/-- The samples of the polls that did not fail. -/
def samplesOf (polls : List Poll) : List Sample := polls.filterMap Poll.sample?

/-- Which samples are in recovery. -/
def flags (samples : List Sample) : List Bool :=
  samples.map (fun x => isInRecoveryState x.pgStatus)

def timeAt (samples : List Sample) (i : Nat) : Int := (samples.map Sample.currentTime).getD i 0

/-- From the first sample of a block to the one that ends it. -/
def episodeDuration (samples : List Sample) (e : Nat × Nat) : Rat :=
  ((timeAt samples e.2 - timeAt samples e.1 : Int) : Rat) / 1000000

def Message.duration? : Message → Option Rat
  | .recoveryDone _ recoveryDuration _ _ => some recoveryDuration
  | _ => none

/-- The durations that have been reported. -/
def durations (output : List Message) : List Rat := output.filterMap Message.duration?

/-- The run ends without an exception, and has reported the duration of every block of
samples in recovery that another sample ended, in order. -/
def ReportsEpisodes (polls : List Poll) : Prop :=
  ∃ s es, monitorRecoveryDuration polls = .ok s ∧ ClosedBlocks (flags (samplesOf polls)) es ∧
    durations s.output = es.map (episodeDuration (samplesOf polls))

section

variable {samples : List Sample} {x : Sample} {s : MonitorState} {es : List (Nat × Nat)}
  {output output' : List Message} {i : Nat}

theorem flags_concat (samples : List Sample) (x : Sample) :
    flags (samples ++ [x]) = flags samples ++ [isInRecoveryState x.pgStatus] :=
  List.map_append

theorem length_flags (samples : List Sample) : (flags samples).length = samples.length :=
  List.length_map _

theorem timeAt_concat (h : i < samples.length) : timeAt (samples ++ [x]) i = timeAt samples i := by
  rw [timeAt, timeAt, List.map_append]
  exact List.getD_append _ _ _ _ (by simpa using h)

theorem timeAt_concat_length (samples : List Sample) (x : Sample) :
    timeAt (samples ++ [x]) samples.length = x.currentTime := by
  rw [timeAt, List.map_append, List.getD_append_right _ _ _ _ (by simp)]
  simp

/-- What has been reported stays true. -/
theorem map_episodeDuration_concat (h : ClosedBlocks (flags samples) es) (x : Sample) :
    es.map (episodeDuration (samples ++ [x])) = es.map (episodeDuration samples) := by
  refine List.map_congr_left fun e he => ?_
  have hclosed := (h.mem_iff e).mp he
  have hlt := hclosed.lt
  have hend := lt_length_of_getElem? hclosed.down
  rw [length_flags] at hend
  rw [episodeDuration, episodeDuration, timeAt_concat hend, timeAt_concat (by omega)]

theorem durations_concat (output : List Message) (m : Message) :
    durations (output ++ [m]) = durations output ++ m.duration?.toList := by
  rw [durations, List.filterMap_append]
  cases hm : m.duration? with
  | none => simp [durations, hm]
  | some d => simp [durations, hm]

/-! ## What the loop keeps -/

/-- One duration has been reported for each closed block. -/
def Reported (samples : List Sample) (output : List Message) : Prop :=
  ∃ es, ClosedBlocks (flags samples) es ∧ durations output = es.map (episodeDuration samples)

/-- The two variables know the block that is open. -/
structure Tracks (samples : List Sample) (s : MonitorState) : Prop where
  reported : Reported samples s.output
  active : s.lastStatus = some .recovering →
    ∃ i, OpenBlock (flags samples) i ∧ s.recoveryStart = some (timeAt samples i)
  idle : s.lastStatus ≠ some .recovering → ∀ i, ¬ OpenBlock (flags samples) i

/-- A sample that ends no block. -/
theorem Reported.concat (h : Reported samples output) (hsame : durations output' = durations output)
    (hnone : isInRecoveryState x.pgStatus = false → ∀ i, ¬ OpenBlock (flags samples) i) :
    Reported (samples ++ [x]) output' := by
  obtain ⟨es, hes, hdurations⟩ := h
  refine ⟨es, ?_, ?_⟩
  · rw [flags_concat]
    exact hes.concat hnone
  · rw [hsame, hdurations, map_episodeDuration_concat hes]

/-- A sample that ends the open block. -/
theorem Reported.close (h : Reported samples output) (hopen : OpenBlock (flags samples) i)
    (hin : isInRecoveryState x.pgStatus = false)
    (hdone : durations output' = durations output ++
      [((x.currentTime - timeAt samples i : Int) : Rat) / 1000000]) :
    Reported (samples ++ [x]) output' := by
  obtain ⟨es, hes, hdurations⟩ := h
  have hstart : i < samples.length := by
    rw [← length_flags]
    exact hopen.lt
  refine ⟨es ++ [(i, (flags samples).length)], ?_, ?_⟩
  · rw [flags_concat, hin]
    exact hes.close hopen
  · rw [hdone, hdurations, List.map_append, map_episodeDuration_concat hes, List.map_singleton,
      episodeDuration, length_flags, timeAt_concat_length, timeAt_concat hstart]

/-- There is no division by zero: without a duration there are no bytes. -/
theorem exists_estimate (rate recoveryDuration : Rat) :
    ∃ e, estimate (rate * recoveryDuration) recoveryDuration = .ok e := by
  rw [estimate]
  by_cases hpos : 0 < rate * recoveryDuration
  · have hne : recoveryDuration ≠ 0 := by
      intro hzero
      rw [hzero, Rat.mul_zero] at hpos
      exact Rat.lt_irrefl hpos
    rw [if_pos hpos, divide, if_neg hne]
    exact ⟨_, rfl⟩
  · rw [if_neg hpos]
    exact ⟨_, rfl⟩

theorem tracks_enterRecovery (h : Tracks samples s) (hin : isInRecoveryState x.pgStatus = true)
    (hstatus : s.lastStatus ≠ some .recovering) : Tracks (samples ++ [x]) (enterRecovery x s) where
  reported := by
    refine h.reported.concat ?_ fun hout => absurd hin (by rw [hout]; decide)
    rw [enterRecovery, durations_concat]
    exact List.append_nil _
  active _ := by
    refine ⟨samples.length, ?_, ?_⟩
    · rw [flags_concat, hin, ← length_flags]
      exact openBlock_concat_of_not (h.idle hstatus)
    · rw [timeAt_concat_length]
      rfl
  idle hidle := absurd rfl hidle

theorem exists_leaveRecovery (h : Tracks samples s) (hin : isInRecoveryState x.pgStatus = false)
    (hstatus : s.lastStatus = some .recovering) :
    ∃ t, leaveRecovery x s = .ok t ∧ Tracks (samples ++ [x]) t := by
  obtain ⟨i, hopen, hstart⟩ := h.active hstatus
  obtain ⟨e, he⟩ := exists_estimate x.recoveringBytesPerSec
    (((x.currentTime - timeAt samples i : Int) : Rat) / 1000000)
  rw [leaveRecovery, hstart]
  simp only [elapsedSeconds, bind, Except.bind, he, pure, Except.pure]
  refine ⟨_, rfl, ?_⟩
  exact
    { reported := h.reported.close hopen hin (durations_concat _ _)
      active := nofun
      idle := fun _ i => by
        rw [flags_concat, hin]
        exact not_openBlock_concat }

/-- The block goes on. -/
theorem Tracks.stay {t : MonitorState} (h : Tracks samples s)
    (hin : isInRecoveryState x.pgStatus = true) (hstatus : s.lastStatus = some .recovering)
    (hstart : t.recoveryStart = s.recoveryStart) (hlast : t.lastStatus = s.lastStatus)
    (hsame : durations t.output = durations s.output) : Tracks (samples ++ [x]) t where
  reported := h.reported.concat hsame fun hout => absurd hin (by rw [hout]; decide)
  active _ := by
    obtain ⟨i, hopen, hfirst⟩ := h.active hstatus
    have hlt : i < samples.length := by
      rw [← length_flags]
      exact hopen.lt
    refine ⟨i, ?_, ?_⟩
    · rw [flags_concat, hin]
      exact hopen.concat
    · rw [hstart, hfirst, timeAt_concat hlt]
  idle hidle := absurd (hlast.trans hstatus) hidle

theorem exists_stayInRecovery (h : Tracks samples s) (hin : isInRecoveryState x.pgStatus = true)
    (hstatus : s.lastStatus = some .recovering) :
    ∃ t, stayInRecovery x s = .ok t ∧ Tracks (samples ++ [x]) t := by
  obtain ⟨i, -, hstart⟩ := h.active hstatus
  rw [stayInRecovery, hstart]
  simp only [elapsedSeconds, bind, Except.bind, pure, Except.pure]
  split
  · refine ⟨_, rfl, h.stay hin hstatus hstart.symm rfl ?_⟩
    rw [durations_concat]
    exact List.append_nil _
  · exact ⟨s, rfl, h.stay hin hstatus rfl rfl rfl⟩

/-- A sample out of recovery, when no block is open. -/
theorem tracks_idle (h : Tracks samples s) (hin : isInRecoveryState x.pgStatus = false)
    (hstatus : s.lastStatus ≠ some .recovering) : Tracks (samples ++ [x]) s where
  reported := h.reported.concat rfl fun _ => h.idle hstatus
  active hactive := absurd hactive hstatus
  idle _ i := by
    rw [flags_concat, hin]
    exact not_openBlock_concat

/-- A turn of the loop goes through, and keeps track. -/
theorem exists_turn (h : Tracks samples s) (poll : Poll) :
    ∃ t, turn s poll = .ok t ∧ Tracks (samples ++ poll.sample?.toList) t := by
  cases poll with
  | failed err =>
    refine ⟨_, rfl, ?_⟩
    rw [Poll.sample?, Option.toList_none, List.append_nil]
    obtain ⟨es, hes, hdurations⟩ := h.reported
    refine ⟨⟨es, hes, ?_⟩, h.active, h.idle⟩
    rw [durations_concat, ← hdurations]
    exact List.append_nil _
  | sample x =>
    show ∃ t, turn s (.sample x) = .ok t ∧ Tracks (samples ++ [x]) t
    cases hin : isInRecoveryState x.pgStatus with
    | true =>
      by_cases hstatus : s.lastStatus = some .recovering
      · simp only [turn, hin, hstatus]
        exact exists_stayInRecovery h hin hstatus
      · have hturn : turn s (.sample x) = .ok (enterRecovery x s) := if_pos ⟨hin, hstatus⟩
        exact ⟨_, hturn, tracks_enterRecovery h hin hstatus⟩
    | false =>
      by_cases hstatus : s.lastStatus = some .recovering
      · simp only [turn, hin, hstatus]
        exact exists_leaveRecovery h hin hstatus
      · simp only [turn, hin, hstatus]
        exact ⟨_, rfl, tracks_idle h hin hstatus⟩

theorem exists_foldlM_turn (h : Tracks samples s) (polls : List Poll) :
    ∃ t, polls.foldlM turn s = .ok t ∧ Tracks (samples ++ samplesOf polls) t := by
  induction polls generalizing samples s with
  | nil => exact ⟨s, rfl, (List.append_nil samples).symm ▸ h⟩
  | cons poll polls ih =>
    obtain ⟨mid, hturn, hmid⟩ := exists_turn h poll
    obtain ⟨t, hrest, ht⟩ := ih hmid
    refine ⟨t, ?_, ?_⟩
    · rw [List.foldlM_cons, hturn]
      exact hrest
    · have hsamples : samplesOf (poll :: polls) = poll.sample?.toList ++ samplesOf polls := by
        rw [samplesOf, List.filterMap_cons]
        cases poll.sample? <;> rfl
      rw [hsamples, ← List.append_assoc]
      exact ht

end

theorem tracks_start :
    Tracks [] { recoveryStart := none, lastStatus := none, output := [] } where
  reported := ⟨[], ClosedBlocks.nil, rfl⟩
  active := nofun
  idle _ _ := not_openBlock_nil

/-- Whatever the polls bring, the durations are those of the episodes. -/
theorem reportsEpisodes (polls : List Poll) : ReportsEpisodes polls := by
  obtain ⟨s, hrun, h⟩ := exists_foldlM_turn tracks_start polls
  obtain ⟨es, hes, hdurations⟩ := h.reported
  exact ⟨s, es, hrun, hes, hdurations⟩

/-- A recovery of four samples, with a failed poll in it, that is over 3.5 seconds after it
was first seen. -/
def oneRecovery : List Poll :=
  let degraded := ⟨['d', 'e', 'g', 'r', 'a', 'd', 'e', 'd'], 2⟩
  let clean := ⟨['c', 'l', 'e', 'a', 'n'], 8⟩
  [.sample ⟨[clean], 0, 500000⟩, .sample ⟨[clean, degraded], 1024, 1000000⟩,
    .sample ⟨[degraded], 1024, 1500000⟩, .failed [], .sample ⟨[clean], 1048576, 4500000⟩,
    .sample ⟨[clean], 0, 5000000⟩]

example : ((monitorRecoveryDuration oneRecovery).toOption.map fun s => durations s.output) =
    some [7 / 2] := by
  decide +kernel

end DpuTest.CephCompress
