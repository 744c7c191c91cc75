import Mathlib.Data.UInt
import OpenAvb.Gptp.PeerDelay

/-!
# Arithmetic of timestamps

A timestamp has 48 bits of seconds in two fields and the nanoseconds in a third.
The operators carry and borrow between the fields by hand; what each loses on the
way is said here as an amount of time.
-/

namespace OpenAvb.Gptp

open Timestamp

def maxNanoseconds : UInt32 := 1000000000

section

variable (t o : Stamp)

def Stamp.commonVersion : UInt8 :=
  if t.version = o.version then t.version else invalidTimestampVersion

/-- `operator+` -/
def Stamp.add : Stamp :=
  let nanoseconds := t.timestamp.nanoseconds + o.timestamp.nanoseconds
  let carry := nanoseconds < t.timestamp.nanoseconds ∨ maxNanoseconds ≤ nanoseconds
  let nanoseconds := nanoseconds - if carry then maxNanoseconds else 0
  let secondsLs := t.timestamp.secondsLs + o.timestamp.secondsLs + if carry then 1 else 0
  let carry := secondsLs < t.timestamp.secondsLs
  let secondsMs := t.timestamp.secondsMs + o.timestamp.secondsMs + if carry then 1 else 0
  ⟨⟨secondsMs, secondsLs, nanoseconds⟩, t.commonVersion o⟩

/-- The nanoseconds of a difference, with the carry and what is borrowed from the seconds. -/
def subNanoseconds (t o : UInt32) : UInt32 × Bool × UInt32 :=
  let borrowThis := t < o
  let nanoseconds := ((if borrowThis then maxNanoseconds else 0) + t) - o
  let carry := maxNanoseconds < nanoseconds
  (nanoseconds - if carry then maxNanoseconds else 0, carry, if borrowThis then 1 else 0)

/-- A seconds field of a difference and `borrow_total` behind it. Both fields are computed in 32
bits. -/
def subSeconds (seconds o borrowTotal : UInt32) : UInt32 × UInt32 :=
  let borrowThis := seconds < borrowTotal ∨ seconds - borrowTotal < o
  (if borrowThis then seconds - o + (0 - 1) else (seconds - borrowTotal) - o,
    if borrowThis then borrowTotal + 1 else 0)

/-- `operator-` -/
def Stamp.sub : Stamp :=
  let (nanoseconds, carry, borrowTotal) :=
    subNanoseconds t.timestamp.nanoseconds o.timestamp.nanoseconds
  let (secondsLs, borrowTotal) :=
    subSeconds ((if carry then 1 else 0) + t.timestamp.secondsLs) o.timestamp.secondsLs
      borrowTotal
  let (secondsMs, _) :=
    subSeconds ((if carry then 1 else 0) + t.timestamp.secondsMs).toUInt32
      o.timestamp.secondsMs.toUInt32 borrowTotal
  ⟨⟨secondsMs.toUInt16, secondsLs, nanoseconds⟩, t.commonVersion o⟩

def nsPerSecond : UInt64 := 1000000000
def lsSecMax : UInt64 := 0xFFFFFFFF

def Timestamp.secs (t : Timestamp) : UInt64 :=
  t.secondsLs.toUInt64 ||| (t.secondsMs.toUInt64 <<< 32)

def Timestamp.ofSecs (secs nanos : UInt64) : Timestamp :=
  ⟨(secs >>> 32).toUInt16, (secs &&& lsSecMax).toUInt32, nanos.toUInt32⟩

/-- `TIMESTAMP_SUB_NS` -/
def timestampSubNs (ts : Stamp) (ns : UInt64) : Stamp :=
  let secs := ts.timestamp.secs - ns / nsPerSecond
  let nanos := ts.timestamp.nanoseconds.toUInt64
  let ns := ns % nsPerSecond
  -- borrow
  let (secs, nanos) := if nanos < ns then (secs - 1, nanos + nsPerSecond) else (secs, nanos)
  { ts with timestamp := .ofSecs secs (nanos - ns) }

/-- `TIMESTAMP_ADD_NS` -/
def timestampAddNs (ts : Stamp) (ns : UInt64) : Stamp :=
  let secs := ts.timestamp.secs + ns / nsPerSecond
  let nanos := ts.timestamp.nanoseconds.toUInt64 + ns % nsPerSecond
  -- carry
  let (secs, nanos) :=
    if nsPerSecond < nanos then (secs + 1, nanos - nsPerSecond) else (secs, nanos)
  { ts with timestamp := .ofSecs secs nanos }

def Timestamp.seconds (t : Timestamp) : Nat := t.secondsMs.toNat * 2 ^ 32 + t.secondsLs.toNat

def Timestamp.time (t : Timestamp) : Nat := t.seconds * 10 ^ 9 + t.nanoseconds.toNat

def Timestamp.Normalised (t : Timestamp) : Prop := t.nanoseconds.toNat < 10 ^ 9

instance (t : Timestamp) : Decidable t.Normalised := inferInstanceAs (Decidable (_ < _))

def timeSpan : Nat := 2 ^ 48 * 10 ^ 9

theorem Timestamp.seconds_lt (t : Timestamp) : t.seconds < 2 ^ 48 := by
  have hms := t.secondsMs.toNat_lt
  have hls := t.secondsLs.toNat_lt
  unfold seconds
  omega

theorem Timestamp.eq_of_seconds {t u : Timestamp} (hseconds : t.seconds = u.seconds)
    (hnanos : t.nanoseconds.toNat = u.nanoseconds.toNat) : t = u := by
  have ht := t.secondsLs.toNat_lt
  have hu := u.secondsLs.toNat_lt
  unfold seconds at hseconds
  have hms : t.secondsMs = u.secondsMs := UInt16.toNat_inj.mp (by omega)
  have hls : t.secondsLs = u.secondsLs := UInt32.toNat_inj.mp (by omega)
  cases t
  cases u
  rw [mk.injEq]
  exact ⟨hms, hls, UInt32.toNat_inj.mp hnanos⟩

theorem Stamp.eq_of_timestamp {t u : Stamp} (htimestamp : t.timestamp = u.timestamp)
    (hversion : t.version = u.version) : t = u := by
  cases t
  cases u
  rw [Stamp.mk.injEq]
  exact ⟨htimestamp, hversion⟩

theorem Timestamp.time_lt {t : Timestamp} (ht : t.Normalised) : t.time < timeSpan := by
  have hseconds := t.seconds_lt
  unfold Normalised at ht
  unfold time timeSpan
  omega

/-- What `operator+` loses: a carry into a field of ones comes back unseen to where it started. -/
def Stamp.sumLoss : Nat :=
  if 10 ^ 9 ≤ t.timestamp.nanoseconds.toNat + o.timestamp.nanoseconds.toNat ∧
      o.timestamp.secondsLs.toNat = 2 ^ 32 - 1 then 2 ^ 32 * 10 ^ 9
  else 0

theorem Stamp.time_add {t o : Stamp} (ht : t.timestamp.Normalised) (ho : o.timestamp.Normalised)
    (hspan : t.timestamp.time + o.timestamp.time < timeSpan) :
    (t.add o).timestamp.time + t.sumLoss o = t.timestamp.time + o.timestamp.time := by
  have hls := t.timestamp.secondsLs.toNat_lt
  have hlo := o.timestamp.secondsLs.toNat_lt
  have hmax : maxNanoseconds.toNat = 10 ^ 9 := rfl
  unfold Timestamp.Normalised at ht ho
  unfold timeSpan at hspan
  simp only [time, seconds] at hspan ⊢
  simp only [Stamp.add, Stamp.sumLoss, UInt32.lt_iff_toNat_lt, UInt32.le_iff_toNat_le,
    UInt32.toNat_add, UInt32.toNat_sub, UInt16.toNat_add, hmax, apply_ite UInt32.toNat,
    apply_ite UInt16.toNat, UInt32.reduceToNat, UInt16.reduceToNat]
  split_ifs <;> omega

theorem subNanoseconds_normalised {t o : UInt32} (ht : t.toNat < 10 ^ 9) (ho : o.toNat < 10 ^ 9) :
    ∃ n : UInt32, subNanoseconds t o = (n, false, if t.toNat < o.toNat then 1 else 0) ∧
      n.toNat < 10 ^ 9 ∧ n.toNat + o.toNat = t.toNat + if t.toNat < o.toNat then 10 ^ 9 else 0 := by
  have hmax : maxNanoseconds.toNat = 10 ^ 9 := rfl
  have hn : (((if t < o then maxNanoseconds else 0) + t) - o).toNat + o.toNat =
      t.toNat + if t.toNat < o.toNat then 10 ^ 9 else 0 := by
    simp only [UInt32.lt_iff_toNat_lt, UInt32.toNat_add, UInt32.toNat_sub, hmax,
      apply_ite UInt32.toNat, UInt32.reduceToNat]
    split_ifs <;> omega
  have hlt : (((if t < o then maxNanoseconds else 0) + t) - o).toNat < 10 ^ 9 := by
    split_ifs at hn ⊢ <;> omega
  -- below a second, so that the carry is never set
  have hcarry : ¬ maxNanoseconds < ((if t < o then maxNanoseconds else 0) + t) - o := by
    rw [UInt32.lt_iff_toNat_lt, hmax]
    omega
  refine ⟨_, ?_, hlt, hn⟩
  simp only [subNanoseconds, hcarry, if_false, decide_false, UInt32.sub_zero]
  simp only [UInt32.lt_iff_toNat_lt]

theorem subSeconds_spec (seconds o borrowTotal : UInt32) :
    ∃ d b : UInt32, subSeconds seconds o borrowTotal = (d, b) ∧
      if o.toNat + borrowTotal.toNat ≤ seconds.toNat then
        b = 0 ∧ d.toNat + o.toNat + borrowTotal.toNat = seconds.toNat
      else b = borrowTotal + 1 ∧ (d.toNat + o.toNat + 1) % 2 ^ 32 = seconds.toNat := by
  have hs := seconds.toNat_lt
  have ho := o.toNat_lt
  have hborrow : (seconds < borrowTotal ∨ seconds - borrowTotal < o) ↔
      ¬ o.toNat + borrowTotal.toNat ≤ seconds.toNat := by
    simp only [UInt32.lt_iff_toNat_lt, UInt32.toNat_sub]
    omega
  refine ⟨_, _, rfl, ?_⟩
  simp only [hborrow]
  split_ifs
  · simp only [UInt32.toNat_sub, true_and]
    omega
  · simp only [UInt32.toNat_sub, UInt32.toNat_add, UInt32.reduceToNat, true_and]
    omega

def Stamp.borrows : Nat :=
  if t.timestamp.nanoseconds.toNat < o.timestamp.nanoseconds.toNat then 1 else 0

/-- What `operator-` loses. A low field that borrows gives away a second even if none was borrowed
of it; if one was, the high field gives away two, unless it has to borrow itself. -/
def Stamp.differenceLoss : Nat :=
  if o.timestamp.secondsLs.toNat + t.borrows o ≤ t.timestamp.secondsLs.toNat then 0
  else if t.borrows o = 0 then 10 ^ 9
  else if t.timestamp.secondsMs.toNat = o.timestamp.secondsMs.toNat + 1 then 0
  else 2 ^ 32 * 10 ^ 9

theorem Stamp.borrows_cases : t.borrows o = 0 ∨ t.borrows o = 1 := by
  unfold borrows
  split_ifs <;> simp

theorem Stamp.differenceLoss_eq_zero : t.differenceLoss o = 0 ↔
      o.timestamp.secondsLs.toNat + t.borrows o ≤ t.timestamp.secondsLs.toNat ∨
        t.borrows o = 1 ∧ t.timestamp.secondsMs.toNat = o.timestamp.secondsMs.toNat + 1 := by
  have hborrows := t.borrows_cases o
  unfold differenceLoss
  split_ifs with hlow hb hhigh
  · simp [hlow]
  · simp only [hb] at hlow ⊢
    simpa using hlow
  · simp only [hhigh, true_iff, and_true]
    omega
  · simp [hlow, hhigh]

end

theorem Stamp.sub_timestamp {t o : Stamp} {n lo hi b b' c : UInt32}
    (hnanos : subNanoseconds t.timestamp.nanoseconds o.timestamp.nanoseconds = (n, false, b))
    (hlow : subSeconds t.timestamp.secondsLs o.timestamp.secondsLs b = (lo, b'))
    (hhigh : subSeconds t.timestamp.secondsMs.toUInt32 o.timestamp.secondsMs.toUInt32 b' =
      (hi, c)) : (t.sub o).timestamp = ⟨hi.toUInt16, lo, n⟩ := by
  simp [Stamp.sub, hnanos, Bool.false_eq_true, hlow, hhigh]

theorem Stamp.sub_spec {t o : Stamp} (ht : t.timestamp.Normalised) (ho : o.timestamp.Normalised)
    (hle : o.timestamp.time ≤ t.timestamp.time) : (t.sub o).timestamp.Normalised ∧
      (t.sub o).timestamp.nanoseconds.toNat + o.timestamp.nanoseconds.toNat =
        t.timestamp.nanoseconds.toNat + t.borrows o * 10 ^ 9 ∧
      (t.sub o).timestamp.time + t.differenceLoss o + o.timestamp.time = t.timestamp.time := by
  obtain ⟨n, hnanos, hnlt, hn⟩ := subNanoseconds_normalised ht ho
  have hn : n.toNat + o.timestamp.nanoseconds.toNat =
      t.timestamp.nanoseconds.toNat + t.borrows o * 10 ^ 9 := by
    rw [hn, Stamp.borrows]
    split_ifs <;> rfl
  have hb : (if t.timestamp.nanoseconds.toNat < o.timestamp.nanoseconds.toNat then
      (1 : UInt32) else 0).toNat = t.borrows o := by
    unfold Stamp.borrows
    split_ifs <;> rfl
  generalize (if t.timestamp.nanoseconds.toNat < o.timestamp.nanoseconds.toNat then
    (1 : UInt32) else 0) = b at hnanos hb
  have hms := t.timestamp.secondsMs.toNat_lt
  have hlo := o.timestamp.secondsLs.toNat_lt
  unfold Timestamp.Normalised at ht ho
  unfold time seconds at hle
  obtain ⟨lo, b', hlow, hlowN⟩ := subSeconds_spec t.timestamp.secondsLs o.timestamp.secondsLs b
  obtain ⟨hi, c, hhigh, hhighN⟩ :=
    subSeconds_spec t.timestamp.secondsMs.toUInt32 o.timestamp.secondsMs.toUInt32 b'
  have hloLt := lo.toNat_lt
  rw [Stamp.sub_timestamp hnanos hlow hhigh]
  refine ⟨hnlt, hn, ?_⟩
  simp only [time, seconds, UInt32.toNat_toUInt16, Stamp.differenceLoss]
  rw [hb] at hlowN
  simp only [UInt16.toNat_toUInt32] at hhighN
  split_ifs at hlowN with henough
  · obtain ⟨rfl, hlowN⟩ := hlowN
    rw [if_pos henough]
    simp only [UInt32.reduceToNat] at hhighN
    split_ifs at hhighN <;> omega
  · obtain ⟨rfl, hlowN⟩ := hlowN
    have hb2 : (b + 1).toNat = t.borrows o + 1 := by
      simp only [UInt32.toNat_add, UInt32.reduceToNat]
      omega
    rw [if_neg henough]
    -- a high field that borrows is one more than the other, and nothing is left of it
    split_ifs at hhighN ⊢ <;> omega

/-- The difference is exact if the low seconds do not borrow, or if both they and the nanoseconds do
and the high seconds differ by one. In the second case the sum is exact unless the low seconds are
all ones. -/
theorem sub_exact_iff (t o : Stamp) (ht : t.timestamp.Normalised) (ho : o.timestamp.Normalised)
    (hle : o.timestamp.time ≤ t.timestamp.time) : ((t.sub o).timestamp.Normalised ∧
        (t.sub o).timestamp.time = t.timestamp.time - o.timestamp.time ∧
        ((t.sub o).add o).timestamp.time = t.timestamp.time) ↔
      (o.timestamp.secondsLs.toNat + t.borrows o ≤ t.timestamp.secondsLs.toNat ∨
        t.borrows o = 1 ∧ t.timestamp.secondsMs.toNat = o.timestamp.secondsMs.toNat + 1 ∧
          o.timestamp.secondsLs.toNat ≠ 2 ^ 32 - 1) := by
  obtain ⟨hnormal, hnanos, htime⟩ := Stamp.sub_spec ht ho hle
  have hspan := time_lt ht
  have hadd := Stamp.time_add hnormal ho (by omega)
  have hls := t.timestamp.secondsLs.toNat_lt
  have hborrows := t.borrows_cases o
  -- the sum carries where the difference borrowed
  have hcarry : 10 ^ 9 ≤ (t.sub o).timestamp.nanoseconds.toNat + o.timestamp.nanoseconds.toNat ↔
      t.borrows o = 1 := by
    unfold Timestamp.Normalised at ht
    omega
  have hsum : (t.sub o).sumLoss o = 0 ↔
      ¬ (t.borrows o = 1 ∧ o.timestamp.secondsLs.toNat = 2 ^ 32 - 1) := by
    simp only [Stamp.sumLoss, hcarry]
    split_ifs with hlost
    · simp [hlost]
    · simpa using hlost
  refine Iff.trans (b := t.differenceLoss o = 0 ∧ (t.sub o).sumLoss o = 0) ?_ ?_
  · constructor
    · rintro ⟨-, hsub, hback⟩
      omega
    · rintro ⟨hdiff, hlost⟩
      exact ⟨hnormal, by omega, by omega⟩
  rw [hsum, Stamp.differenceLoss_eq_zero]
  constructor
  · rintro ⟨hlow | ⟨hb, hhigh⟩, hkept⟩
    · exact .inl hlow
    · exact .inr ⟨hb, hhigh, fun hones => hkept ⟨hb, hones⟩⟩
  · rintro (hlow | ⟨hb, hhigh, hones⟩)
    · exact ⟨.inl hlow, by omega⟩
    · exact ⟨.inr ⟨hb, hhigh⟩, fun h => hones h.2⟩

theorem sub_exact_second :
    let t : Stamp := ⟨⟨0, 5, 100⟩, 0⟩
    let o : Stamp := ⟨⟨0, 3, 200⟩, 0⟩
    (t.sub o).timestamp = ⟨0, 1, 999999900⟩ ∧
      (((t.sub o).timestamp.Normalised ∧
        (t.sub o).timestamp.time = t.timestamp.time - o.timestamp.time ∧
        ((t.sub o).add o).timestamp.time = t.timestamp.time) ↔
      (o.timestamp.secondsLs.toNat + t.borrows o ≤ t.timestamp.secondsLs.toNat ∨
        t.borrows o = 1 ∧ t.timestamp.secondsMs.toNat = o.timestamp.secondsMs.toNat + 1 ∧
          o.timestamp.secondsLs.toNat ≠ 2 ^ 32 - 1)) :=
  ⟨by decide, sub_exact_iff ⟨⟨0, 5, 100⟩, 0⟩ ⟨⟨0, 3, 200⟩, 0⟩ (by decide) (by decide) (by decide)⟩

/-- From 2^32 s to 1 s it is a second too little. -/
theorem sub_loses_second :
    let t : Stamp := ⟨⟨1, 0, 0⟩, 0⟩
    let o : Stamp := ⟨⟨0, 1, 0⟩, 0⟩
    t.timestamp.Normalised ∧ o.timestamp.Normalised ∧ o.timestamp.time ≤ t.timestamp.time ∧
      (t.sub o).timestamp = ⟨0, 2 ^ 32 - 2, 0⟩ ∧
      t.timestamp.time - o.timestamp.time = (2 ^ 32 - 1) * 10 ^ 9 ∧
      (t.sub o).timestamp.time = (2 ^ 32 - 2) * 10 ^ 9 := by
  decide

theorem Timestamp.toNat_secs (t : Timestamp) : t.secs.toNat = t.seconds := by
  have hls := t.secondsLs.toNat_lt
  have hms := t.secondsMs.toNat_lt
  have hhigh : (t.secondsMs.toUInt64 <<< 32).toNat = t.secondsMs.toNat <<< 32 := by
    rw [UInt64.toNat_shiftLeft, UInt16.toNat_toUInt64]
    simp only [UInt64.reduceToNat, Nat.reduceMod, Nat.shiftLeft_eq]
    omega
  rw [secs, UInt64.toNat_or, hhigh, UInt32.toNat_toUInt64, Nat.or_comm,
    ← Nat.shiftLeft_add_eq_or_of_lt hls, Nat.shiftLeft_eq, seconds]

theorem Timestamp.ofSecs_seconds (secs nanos : UInt64) :
    (ofSecs secs nanos).seconds = secs.toNat % 2 ^ 48 := by
  have hmask : lsSecMax.toNat = 2 ^ 32 - 1 := rfl
  simp only [ofSecs, seconds, UInt64.toNat_toUInt16, UInt64.toNat_toUInt32, UInt64.toNat_and,
    hmask, Nat.and_two_pow_sub_one_eq_mod, UInt64.toNat_shiftRight, UInt64.reduceToNat,
    Nat.reduceMod, Nat.shiftRight_eq_div_pow]
  omega

theorem timestampSubNs_spec {ts : Stamp} (ns : UInt64)
    (hnanos : ts.timestamp.nanoseconds.toNat ≤ 10 ^ 9) :
    (timestampSubNs ts ns).version = ts.version ∧
      (timestampSubNs ts ns).timestamp.nanoseconds.toNat + ns.toNat % 10 ^ 9 =
        ts.timestamp.nanoseconds.toNat +
          (if ts.timestamp.nanoseconds.toNat < ns.toNat % 10 ^ 9 then 10 ^ 9 else 0) ∧
      ((timestampSubNs ts ns).timestamp.seconds + ns.toNat / 10 ^ 9 +
          if ts.timestamp.nanoseconds.toNat < ns.toNat % 10 ^ 9 then 1 else 0) % 2 ^ 48 =
        ts.timestamp.seconds := by
  have hper : nsPerSecond.toNat = 10 ^ 9 := rfl
  have hseconds := ts.timestamp.seconds_lt
  have hns := ns.toNat_lt
  have hborrow : ts.timestamp.nanoseconds.toUInt64 < ns % nsPerSecond ↔
      ts.timestamp.nanoseconds.toNat < ns.toNat % 10 ^ 9 := by
    rw [UInt64.lt_iff_toNat_lt, UInt64.toNat_mod, UInt32.toNat_toUInt64, hper]
  refine ⟨rfl, ?_⟩
  simp only [timestampSubNs, hborrow, ofSecs_seconds]
  split_ifs
  · simp only [ofSecs, UInt64.toNat_toUInt32, UInt64.toNat_sub, UInt64.toNat_add,
      UInt64.toNat_mod, UInt64.toNat_div, UInt32.toNat_toUInt64, hper, toNat_secs,
      UInt64.reduceToNat]
    omega
  · simp only [ofSecs, UInt64.toNat_toUInt32, UInt64.toNat_sub, UInt64.toNat_mod,
      UInt64.toNat_div, UInt32.toNat_toUInt64, hper, toNat_secs]
    omega

theorem timestampAddNs_spec {ts : Stamp} (ns : UInt64) (hnormal : ts.timestamp.Normalised) :
    (timestampAddNs ts ns).version = ts.version ∧
      (timestampAddNs ts ns).timestamp.nanoseconds.toNat +
          (if 10 ^ 9 < ts.timestamp.nanoseconds.toNat + ns.toNat % 10 ^ 9 then 10 ^ 9 else 0) =
        ts.timestamp.nanoseconds.toNat + ns.toNat % 10 ^ 9 ∧
      (timestampAddNs ts ns).timestamp.seconds = (ts.timestamp.seconds + ns.toNat / 10 ^ 9 +
          if 10 ^ 9 < ts.timestamp.nanoseconds.toNat + ns.toNat % 10 ^ 9 then 1 else 0) %
            2 ^ 48 := by
  have hper : nsPerSecond.toNat = 10 ^ 9 := rfl
  unfold Timestamp.Normalised at hnormal
  have hsum : (ts.timestamp.nanoseconds.toUInt64 + ns % nsPerSecond).toNat =
      ts.timestamp.nanoseconds.toNat + ns.toNat % 10 ^ 9 := by
    rw [UInt64.toNat_add, UInt64.toNat_mod, UInt32.toNat_toUInt64, hper]
    omega
  refine ⟨rfl, ?_⟩
  simp only [timestampAddNs, UInt64.lt_iff_toNat_lt, hsum, hper]
  split_ifs
  · simp only [ofSecs_seconds]
    simp only [ofSecs, UInt64.toNat_toUInt32, UInt64.toNat_sub, hsum, hper,
      UInt64.toNat_add, UInt64.toNat_div, toNat_secs, UInt64.reduceToNat]
    omega
  · simp only [ofSecs_seconds]
    simp only [ofSecs, UInt64.toNat_toUInt32, hsum, hper, UInt64.toNat_add,
      UInt64.toNat_div, toNat_secs]
    omega

/-- What is expected of the two: normalised timestamps of the right time, and one undoes the
other. -/
structure Stamp.NsExact (ts : Stamp) (ns : UInt64) : Prop where
  addNormalised : (timestampAddNs ts ns).timestamp.Normalised
  subNormalised : (timestampSubNs ts ns).timestamp.Normalised
  addTime : (timestampAddNs ts ns).timestamp.time = (ts.timestamp.time + ns.toNat) % timeSpan
  subTime : ((timestampSubNs ts ns).timestamp.time : Int) =
    ((ts.timestamp.time : Int) - ns.toNat) % timeSpan
  subAdd : timestampSubNs (timestampAddNs ts ns) ns = ts
  addSub : timestampAddNs (timestampSubNs ts ns) ns = ts

section Normalised

variable {ts : Stamp} {ns : UInt64} (hnormal : ts.timestamp.Normalised)
include hnormal

theorem timestampSubNs_normalised (ns : UInt64) : (timestampSubNs ts ns).timestamp.Normalised := by
  have hspec := (timestampSubNs_spec ns (le_of_lt hnormal)).2
  unfold Timestamp.Normalised at hnormal ⊢
  split_ifs at hspec <;> omega

theorem timestampSubNs_time : ((timestampSubNs ts ns).timestamp.time : Int) =
      ((ts.timestamp.time : Int) - ns.toNat) % timeSpan := by
  have hspec := (timestampSubNs_spec ns (le_of_lt hnormal)).2
  have hseconds := (timestampSubNs ts ns).timestamp.seconds_lt
  unfold timeSpan time
  unfold Timestamp.Normalised at hnormal
  split_ifs at hspec <;> omega

theorem timestampAddNs_normalised_iff : (timestampAddNs ts ns).timestamp.Normalised ↔
      ts.timestamp.nanoseconds.toNat + ns.toNat % 10 ^ 9 ≠ 10 ^ 9 := by
  have hspec := (timestampAddNs_spec ns hnormal).2
  unfold Timestamp.Normalised at hnormal ⊢
  split_ifs at hspec <;> omega

theorem timestampAddNs_time (hwhole : ts.timestamp.nanoseconds.toNat + ns.toNat % 10 ^ 9 ≠ 10 ^ 9) :
    (timestampAddNs ts ns).timestamp.time = (ts.timestamp.time + ns.toNat) % timeSpan := by
  have hspec := (timestampAddNs_spec ns hnormal).2
  unfold timeSpan time
  unfold Timestamp.Normalised at hnormal
  split_ifs at hspec <;> omega

theorem timestampSubNs_addNs : timestampSubNs (timestampAddNs ts ns) ns = ts := by
  have hadd := timestampAddNs_spec ns hnormal
  have hseconds := ts.timestamp.seconds_lt
  unfold Timestamp.Normalised at hnormal
  have hnanos : (timestampAddNs ts ns).timestamp.nanoseconds.toNat ≤ 10 ^ 9 := by
    split_ifs at hadd <;> omega
  have hsub := timestampSubNs_spec ns hnanos
  have hlt := (timestampSubNs (timestampAddNs ts ns) ns).timestamp.seconds_lt
  have hback : (timestampSubNs (timestampAddNs ts ns) ns).timestamp = ts.timestamp := by
    have hadd := hadd.2
    have hsub := hsub.2
    apply eq_of_seconds <;> split_ifs at hadd hsub <;> omega
  exact Stamp.eq_of_timestamp hback (hsub.1.trans hadd.1)

theorem timestampAddNs_subNs_iff : timestampAddNs (timestampSubNs ts ns) ns = ts ↔
      (ts.timestamp.nanoseconds.toNat = 0 → ns.toNat % 10 ^ 9 = 0) := by
  have hsub := timestampSubNs_spec ns (le_of_lt hnormal)
  have hadd := timestampAddNs_spec ns (timestampSubNs_normalised hnormal ns)
  unfold Timestamp.Normalised at hnormal
  constructor
  · intro hback hzero
    rw [hback, hzero] at hadd
    have hadd := hadd.2
    have hsub := hsub.2
    split_ifs at hadd hsub <;> omega
  · intro hzero
    have hback : (timestampAddNs (timestampSubNs ts ns) ns).timestamp = ts.timestamp := by
      have hadd := hadd.2
      have hsub := hsub.2
      apply eq_of_seconds <;> split_ifs at hadd hsub <;> omega
    exact Stamp.eq_of_timestamp hback (hadd.1.trans hsub.1)

end Normalised

/-- They are exact where nothing adds up to a whole second, neither the nanoseconds of the sum nor
those of the timestamp behind a borrow. -/
theorem nsExact_iff (ts : Stamp) (ns : UInt64) (hnormal : ts.timestamp.Normalised) : ts.NsExact ns ↔
      ts.timestamp.nanoseconds.toNat + ns.toNat % 10 ^ 9 ≠ 10 ^ 9 ∧
        (ts.timestamp.nanoseconds.toNat = 0 → ns.toNat % 10 ^ 9 = 0) := by
  constructor
  · intro hexact
    exact ⟨(timestampAddNs_normalised_iff hnormal).mp hexact.addNormalised,
      (timestampAddNs_subNs_iff hnormal).mp hexact.addSub⟩
  · rintro ⟨hwhole, hzero⟩
    exact {
      addNormalised := (timestampAddNs_normalised_iff hnormal).mpr hwhole
      subNormalised := timestampSubNs_normalised hnormal ns
      addTime := timestampAddNs_time hnormal hwhole
      subTime := timestampSubNs_time hnormal
      subAdd := timestampSubNs_addNs hnormal
      addSub := (timestampAddNs_subNs_iff hnormal).mpr hzero }

theorem nsExact_half_second : (⟨⟨0, 7, 400000000⟩, 0⟩ : Stamp).NsExact 1500000000 :=
  (nsExact_iff ⟨⟨0, 7, 400000000⟩, 0⟩ 1500000000 (by decide)).mpr ⟨by decide, by decide⟩

/-- Half a second is added to half a second, and a nanosecond is taken from a whole second and put
back. -/
theorem ns_whole_second :
    timestampAddNs ⟨⟨0, 7, 500000000⟩, 0⟩ 500000000 = ⟨⟨0, 7, 1000000000⟩, 0⟩ ∧
      timestampAddNs (timestampSubNs ⟨⟨0, 7, 0⟩, 0⟩ 1) 1 = ⟨⟨0, 6, 1000000000⟩, 0⟩ ∧
      ¬ (⟨⟨0, 7, 500000000⟩, 0⟩ : Stamp).NsExact 500000000 ∧ ¬ (⟨⟨0, 7, 0⟩, 0⟩ : Stamp).NsExact 1 :=
  ⟨by decide, by decide, fun h => absurd h.addNormalised (by decide),
    fun h => absurd h.addSub (by decide)⟩

end OpenAvb.Gptp
