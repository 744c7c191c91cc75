import OpenAvb.Pipeline.MediaQ
import OpenAvb.Pipeline.Util
import Mathlib.Data.List.Chain
import Mathlib.Data.UInt

/-!
# Presentation times on the wire

A frame carries the low 32 bits of a presentation time. The listener puts the time
together again by its own clock, whose low 32 bits may have wrapped since, or not
yet.
-/

namespace OpenAvb.Pipeline

open Util (Timespec)

def getNsTime (tmTime : Timespec) : UInt64 :=
  UInt64.ofInt tmTime.tv_sec * 1000000000 + UInt64.ofInt tmTime.tv_nsec

def getTimestamp (timeNsec : UInt64) : UInt32 := (timeNsec &&& 0x00000000FFFFFFFF).toUInt32

def openavbAvtpTimeMaxTsDiff : UInt32 := 0x7FFFFFFF

def timestampDelta (tsNow timestamp : UInt32) : UInt32 :=
  if tsNow < timestamp then timestamp - tsNow
  else if timestamp < tsNow then
    (timestamp.toUInt64 + (0x100000000 - tsNow.toUInt64)).toUInt32
  else 0

/-- With what `CLOCK_GETTIME` gives, if it succeeds. -/
def openavbAvtpTimeSetToTimestamp (t : AvtpTime) (timestamp : UInt32) : Option Timespec → AvtpTime
  | some tmNow =>
    let nsNow := getNsTime tmNow
    let delta := timestampDelta (getTimestamp nsNow) timestamp
    let timeNsec :=
      -- Normal case, timestamp is upcoming
      if delta < openavbAvtpTimeMaxTsDiff then nsNow + delta.toUInt64
      -- Timestamp is past
      else nsNow - (0x100000000 - delta.toUInt64)
    { t with timeNsec, bTimestampValid := true, bTimestampUncertain := false }
  | none => { t with bTimestampValid := false, bTimestampUncertain := true }

/-- `openavbAvtpTimeSetToWallTime`, with what the clock says. -/
def AvtpTime.setToWallTime (t : AvtpTime) : Option UInt64 → AvtpTime
  | some nsNow => { t with timeNsec := nsNow, bTimestampValid := true, bTimestampUncertain := false }
  | none => { t with bTimestampValid := false, bTimestampUncertain := false }

def AvtpTime.getAvtpTimestamp (t : AvtpTime) : UInt32 := getTimestamp t.timeNsec

theorem toNat_getTimestamp (timeNsec : UInt64) :
    (getTimestamp timeNsec).toNat = timeNsec.toNat % 2 ^ 32 := by
  have hmask : (0x00000000FFFFFFFF : UInt64).toNat = 2 ^ 32 - 1 := rfl
  rw [getTimestamp, UInt64.toNat_toUInt32, UInt64.toNat_and, hmask, Nat.and_two_pow_sub_one_eq_mod,
    Nat.mod_mod]

theorem toNat_timestampDelta (tsNow timestamp : UInt32) : (timestampDelta tsNow timestamp).toNat =
      (timestamp.toNat + (2 ^ 32 - tsNow.toNat)) % 2 ^ 32 := by
  have hnow := tsNow.toNat_lt
  simp only [timestampDelta, UInt32.lt_iff_toNat_lt]
  split_ifs
  · rw [UInt32.toNat_sub]
    omega
  · simp only [UInt64.toNat_toUInt32, UInt64.toNat_add, UInt64.toNat_sub, UInt32.toNat_toUInt64,
      UInt64.reduceToNat]
    omega
  · rw [UInt32.toNat_zero]
    omega

/-- A time that is less than half the turn of 32 bits away from the clock comes back whole. -/
theorem setToTimestamp_recovers (t talker : AvtpTime) (tmNow : Timespec)
    (hnow : 2 ^ 32 ≤ (getNsTime tmNow).toNat)
    (hpast : (getNsTime tmNow).toNat ≤ talker.timeNsec.toNat + 2 ^ 31)
    (hfuture : talker.timeNsec.toNat + 2 ≤ (getNsTime tmNow).toNat + 2 ^ 31) :
    talker.getAvtpTimestamp.toNat = talker.timeNsec.toNat % 2 ^ 32 ∧
      (openavbAvtpTimeSetToTimestamp t talker.getAvtpTimestamp (some tmNow)).timeNsec =
        talker.timeNsec := by
  refine ⟨toNat_getTimestamp _, ?_⟩
  have hT := talker.timeNsec.toNat_lt
  have hmax : openavbAvtpTimeMaxTsDiff.toNat = 2 ^ 31 - 1 := rfl
  have hdelta := toNat_timestampDelta (getTimestamp (getNsTime tmNow)) talker.getAvtpTimestamp
  rw [AvtpTime.getAvtpTimestamp, toNat_getTimestamp, toNat_getTimestamp] at hdelta
  rw [← UInt64.toNat_inj, openavbAvtpTimeSetToTimestamp]
  simp only [AvtpTime.getAvtpTimestamp, UInt32.lt_iff_toNat_lt, hmax]
  split_ifs with hupcoming
  · simp only [UInt64.toNat_add, UInt32.toNat_toUInt64]
    omega
  · simp only [UInt64.toNat_sub, UInt32.toNat_toUInt64, UInt64.reduceToNat]
    omega

/-- A time one second behind a clock whose low 32 bits have just wrapped. -/
theorem setToTimestamp_recovers_past :
    let tmNow : Timespec := ⟨4, 294967300⟩
    let talker : AvtpTime := ⟨3294967300, 0, true, false⟩
    talker.getAvtpTimestamp.toNat = talker.timeNsec.toNat % 2 ^ 32 ∧
      (openavbAvtpTimeSetToTimestamp ⟨0, 0, false, false⟩ talker.getAvtpTimestamp
        (some tmNow)).timeNsec = talker.timeNsec :=
  setToTimestamp_recovers ⟨0, 0, false, false⟩ ⟨3294967300, 0, true, false⟩ ⟨4, 294967300⟩
    (by decide) (by decide) (by decide)

/-! ## Evaluation of timestamps -/

structure TimestampEval where
  started : Bool
  (tsRateInterval reportInterval tsCnt tsPrev tsInterval tsJitter tsDrift tsMaxJitter : UInt32)
  (tsAccumJitter tsTtlReal tsTtlCalc : UInt64)
  printbuf : List (UInt32 × UInt32 × UInt32 × UInt32)

/-- `abs` of the `int` with these bits. -/
def absInt (x : UInt32) : UInt32 := if x < 0x80000000 then x else -x

def openavbTimestampEvalNew : TimestampEval := ⟨false, 0, 0, 0, 0, 0, 0, 0, 0, 0, 0, 0, []⟩

def openavbTimestampEvalInitialize (tsRateInterval : UInt32) (tsEval : TimestampEval) :
    TimestampEval :=
  { tsEval with started := false, tsRateInterval := tsRateInterval, printbuf := [] }

/-- The interval from the timestamp before. -/
def tsInterval (tsPrev ts : UInt32) : UInt32 :=
  -- `(U32)-1` is one short of the modulus
  if tsPrev > ts then (0xFFFFFFFF - tsPrev) + ts else ts - tsPrev

def tsReport (tsEval : TimestampEval) : TimestampEval :=
  if tsEval.reportInterval ≠ 0 ∧ tsEval.tsCnt % tsEval.reportInterval = 0 then
    { tsEval with
      printbuf := tsEval.printbuf ++ [(tsEval.tsJitter,
        (tsEval.tsAccumJitter / tsEval.tsCnt.toUInt64).toUInt32, tsEval.tsMaxJitter,
        tsEval.tsDrift)] }
  else tsEval

/-- The timestamp itself is returned as it is. -/
def openavbTimestampEvalTimestamp (tsEval : TimestampEval) (ts : UInt32) : TimestampEval :=
  let tsInterval := tsInterval tsEval.tsPrev ts
  let tsEval := { tsEval with tsInterval := tsInterval, tsPrev := ts, tsCnt := tsEval.tsCnt + 1 }
  if tsEval.started = false then { tsEval with tsTtlCalc := 0, tsTtlReal := 0, started := true }
  else
    let tsTtlCalc := tsEval.tsTtlCalc + tsEval.tsRateInterval.toUInt64
    let tsTtlReal := tsEval.tsTtlReal + tsInterval.toUInt64
    let tsJitter := absInt (tsEval.tsRateInterval - tsInterval)
    tsReport { tsEval with
      tsTtlCalc := tsTtlCalc
      tsTtlReal := tsTtlReal
      tsJitter := tsJitter
      tsMaxJitter := if tsJitter > tsEval.tsMaxJitter then tsJitter else tsEval.tsMaxJitter
      tsAccumJitter := tsEval.tsAccumJitter + tsJitter.toUInt64
      tsDrift := absInt (tsTtlCalc - tsTtlReal).toUInt32 }

/-- The timestamps of the true times, one after the other. -/
def evalTimes (times : List Nat) (tsEval : TimestampEval) : TimestampEval :=
  (times.map UInt32.ofNat).foldl openavbTimestampEvalTimestamp tsEval

/-- A step of the true time. -/
def Follows (time next : Nat) : Prop := time ≤ next ∧ next - time < 2 ^ 32

variable {tsEval : TimestampEval} {first time next : Nat}

theorem tsReport_fields : (tsReport tsEval).started = tsEval.started ∧
    (tsReport tsEval).tsPrev = tsEval.tsPrev ∧
    (tsReport tsEval).tsTtlReal = tsEval.tsTtlReal := by
  unfold tsReport
  split <;> exact ⟨rfl, rfl, rfl⟩

/-- A wrap of the timestamp takes one from the interval. -/
theorem toNat_tsInterval (h : Follows time next) :
    (tsInterval (UInt32.ofNat time) (UInt32.ofNat next)).toNat =
      next - time - (next / 2 ^ 32 - time / 2 ^ 32) := by
  obtain ⟨hle, hstep⟩ := h
  simp only [tsInterval, gt_iff_lt, UInt32.lt_iff_toNat_lt, UInt32.toNat_ofNat']
  split
  · rw [UInt32.toNat_add, UInt32.toNat_sub, UInt32.toNat_ofNat', UInt32.toNat_ofNat']
    show ((2 ^ 32 - time % 2 ^ 32 + 4294967295) % 2 ^ 32 + next % 2 ^ 32) % 2 ^ 32 = _
    omega
  · rw [UInt32.toNat_sub, UInt32.toNat_ofNat', UInt32.toNat_ofNat']
    omega

theorem evalTimes_started (times : List Nat) (h : tsEval.started = true)
    (hprev : tsEval.tsPrev = UInt32.ofNat time) (hle : first ≤ time)
    (htotal : tsEval.tsTtlReal = UInt64.ofNat (time - first - (time / 2 ^ 32 - first / 2 ^ 32)))
    (hsteps : (time :: times).IsChain Follows) :
    first ≤ times.getLastD time ∧ (evalTimes times tsEval).tsTtlReal =
      UInt64.ofNat (times.getLastD time - first -
        (times.getLastD time / 2 ^ 32 - first / 2 ^ 32)) := by
  -- the sum is the time passed, less one for each wrap
  induction times generalizing tsEval time with
  | nil => exact ⟨hle, htotal⟩
  | cons next times ih =>
    obtain ⟨hnext, hsteps⟩ := List.isChain_cons_cons.mp hsteps
    rw [List.getLastD_cons]
    refine ih ?_ ?_ (hle.trans hnext.1) ?_ hsteps
    · simp [openavbTimestampEvalTimestamp, h, tsReport_fields]
    · simp [openavbTimestampEvalTimestamp, h, tsReport_fields]
    · have hinterval := toNat_tsInterval hnext
      simp only [openavbTimestampEvalTimestamp, h, tsReport_fields, Bool.true_eq_false, if_false]
      rw [htotal, hprev, ← UInt64.toNat_inj, UInt64.toNat_add, UInt64.toNat_ofNat',
        UInt64.toNat_ofNat', UInt32.toNat_toUInt64, hinterval]
      unfold Follows at hnext
      omega

/-- The sum is right iff no timestamp has wrapped. -/
theorem tsTtlReal_eq_iff (tsEval : TimestampEval) (tsRateInterval : UInt32) (first : Nat)
    (times : List Nat) (hsteps : (first :: times).IsChain Follows) : (evalTimes (first :: times)
        (openavbTimestampEvalInitialize tsRateInterval tsEval)).tsTtlReal.toNat =
      times.getLastD first - first ↔ times.getLastD first / 2 ^ 32 = first / 2 ^ 32 := by
  let started := openavbTimestampEvalTimestamp
    (openavbTimestampEvalInitialize tsRateInterval tsEval) (UInt32.ofNat first)
  have hzero : started.tsTtlReal =
      UInt64.ofNat (first - first - (first / 2 ^ 32 - first / 2 ^ 32)) := by
    simp [started, openavbTimestampEvalTimestamp, openavbTimestampEvalInitialize]
  obtain ⟨hle, htotal⟩ := evalTimes_started times rfl rfl (le_refl first) hzero hsteps
  show (evalTimes times started).tsTtlReal.toNat = _ ↔ _
  rw [htotal, UInt64.toNat_ofNat']
  omega

theorem tsTtlReal_eq_iff_second :
    (evalTimes [5, 125006]
        (openavbTimestampEvalInitialize 125000 openavbTimestampEvalNew)).tsTtlReal.toNat =
      125006 - 5 ↔ 125006 / 2 ^ 32 = 5 / 2 ^ 32 :=
  tsTtlReal_eq_iff openavbTimestampEvalNew 125000 5 [125006] (by simp [Follows])

/-- The step over a wrap is counted as no time. -/
theorem wrap_loses_one :
    (evalTimes [2 ^ 32 - 1, 2 ^ 32]
      (openavbTimestampEvalInitialize 1 openavbTimestampEvalNew)).tsTtlReal = 0 := by
  decide

end OpenAvb.Pipeline
