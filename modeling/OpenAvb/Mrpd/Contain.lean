import OpenAvb.Mrpd.Mvrp
import OpenAvb.Mrpd.Mmrp

/-!
# What a receiver makes of the octets behind a frame

A receiver is told how many octets it got, but checks less than it reads. It
keeps to the frame, whatever stands behind it in the buffer, exactly if every
vector it comes to lies inside the frame or has nothing to say.
-/

namespace OpenAvb.Mrpd

open List

variable {τ κ ν : Type}

section

variable (R : Reception τ κ ν)
include R

theorem decodeDigits_append : decodeDigits R c k (ds ++ ds') = ((decodeDigits R c k ds).1 ++
          (decodeDigits R (decodeDigits R c k ds).2 (k + ds.length) ds').1,
        (decodeDigits R (decodeDigits R c k ds).2 (k + ds.length) ds').2) := by
  induction ds generalizing c k with
  | nil => simp [decodeDigits]
  | cons d ds ih =>
    simp only [cons_append, decodeDigits, ih, length_cons,
      show k + 1 + ds.length = k + (ds.length + 1) by omega]
    cases (R.take c).1 <;> cases AttributeEvent.ofCode d <;> rfl

theorem decodeOctets_digits (hd : R.discards = false) :
    decodeOctets R c k nv bs = (decodeDigits R c k ((bs.flatMap digits3).take nv)).1 := by
  induction bs generalizing c k nv with
  | nil => simp [decodeOctets, decodeDigits]
  | cons b bs ih =>
    have hlen : (digits3 b).length = 3 := rfl
    simp only [decodeOctets, hd, Bool.false_and, Bool.false_eq_true, if_false, ih,
      flatMap_cons, take_append, hlen, decodeDigits_append]
    rcases le_total nv 3 with hn | hn
    · simp [min_eq_right hn, Nat.sub_eq_zero_of_le hn, decodeDigits]
    · have hall : ∀ j, 3 ≤ j → (digits3 b).take j = digits3 b := fun j hj =>
        take_of_length_le (by omega)
      rw [min_eq_left hn, hall 3 (le_refl 3), hall nv hn, hlen]

theorem decodeOctets_append (h : nv ≤ 3 * bs.length) :
    decodeOctets R c k nv (bs ++ cs) = decodeOctets R c k nv bs := by
  induction bs generalizing c k nv with
  | nil =>
    obtain rfl : nv = 0 := by simpa using h
    rw [decodeOctets_zero, decodeOctets_zero]
  | cons b bs ih =>
    rw [length_cons] at h
    have hih : ∀ c k, decodeOctets R c k (nv - min 3 nv) (bs ++ cs) =
        decodeOctets R c k (nv - min 3 nv) bs := fun c k => ih (by omega)
    simp only [cons_append, decodeOctets, hih]

theorem decodeVector_congr (h : ∀ i, p + 2 ≤ i → i < p + R.vectorLength t nv → m i = m' i) :
    decodeVector R m p t nv = decodeVector R m' p t nv := by
  have hfirst : read m (p + 2) (R.attributeLength t) = read m' (p + 2) (R.attributeLength t) :=
    read_congr fun i hi hn => h i hi (by simp only [Reception.vectorLength]; omega)
  have hevents : read m (p + 2 + R.attributeLength t) (packed3 nv) =
      read m' (p + 2 + R.attributeLength t) (packed3 nv) :=
    read_congr fun i hi hn => h i (by omega) (by simp only [Reception.vectorLength]; omega)
  have hsubs : R.fourPacked t = true →
      read m (p + 2 + R.attributeLength t + packed3 nv) ((nv + 3) / 4) =
        read m' (p + 2 + R.attributeLength t + packed3 nv) ((nv + 3) / 4) := by
    intro hf
    refine read_congr fun i hi hn => h i (by omega) ?_
    simp only [Reception.vectorLength, Reception.packed4, hf, if_true]
    omega
  have hcut : ∀ m : Mem, ∀ c, decodeOctets R c 0 nv
      (read m (p + 2 + R.attributeLength t) (packed3 nv + 1)) =
        decodeOctets R c 0 nv (read m (p + 2 + R.attributeLength t) (packed3 nv)) := by
    intro m c
    rw [read_add, decodeOctets_append R (by simp only [length_read, packed3]; omega)]
  simp only [decodeVector, hcut, hfirst, hevents]
  cases hf : R.fourPacked t with
  | false => rfl
  | true => simp [hsubs hf]

end

/-- The locals of a receiver behind `k` values, and its value number `k`. -/
def Reception.after (R : Reception τ κ ν) : Nat → κ → κ
  | 0, c => c
  | k + 1, c => R.after k (R.take c).2

def Reception.valueAt (R : Reception τ κ ν) (c : κ) (k : Nat) : Option ν :=
  (R.take (R.after k c)).1

theorem decodeDigits_eq_nil (R : Reception τ κ ν) : (decodeDigits R c k ds).1 = [] ↔
      ∀ i d, ds[i]? = some d → R.valueAt c i = none ∨ AttributeEvent.ofCode d = none := by
  induction ds generalizing c k with
  | nil => simp [decodeDigits]
  | cons d ds ih =>
    have hsplit : (∀ i d', (d :: ds)[i]? = some d' →
        R.valueAt c i = none ∨ AttributeEvent.ofCode d' = none) ↔
        (R.valueAt c 0 = none ∨ AttributeEvent.ofCode d = none) ∧
          ∀ i d', ds[i]? = some d' →
            R.valueAt (R.take c).2 i = none ∨ AttributeEvent.ofCode d' = none := by
      constructor
      · intro h
        exact ⟨h 0 d rfl, fun i d' hi => h (i + 1) d' hi⟩
      · rintro ⟨h0, hs⟩ i d' hi
        cases i with
        | zero =>
          obtain rfl : d = d' := by simpa using hi
          exact h0
        | succ i => exact hs i d' hi
    rw [hsplit, ← @ih _ (k + 1)]
    simp only [decodeDigits, Reception.valueAt, Reception.after]
    cases (R.take c).1 <;> cases AttributeEvent.ofCode d <;> simp

structure Reception.Plain (R : Reception τ κ ν) : Prop where
  listLength : R.listLength = false
  fourPacked : ∀ t, R.fourPacked t = false
  skipsNull : R.skipsNull = false
  discards : R.discards = false
  length_pos : ∀ t, 0 < R.attributeLength t
  /-- A FirstValue whose leading octets already make it worthless. -/
  cut : ∀ t j first first', first.length = R.attributeLength t →
    first'.length = R.attributeLength t → 0 < j → j < R.attributeLength t →
    first.take j = first'.take j → R.valueAt (R.firstval t first' []) 0 = none →
    ∀ k, R.valueAt (R.firstval t first []) k = none

def Reception.Idle (R : Reception τ κ ν) (m : Mem) (t : τ) (p numvalues : Nat) : Prop :=
  ∀ k, k < numvalues →
    R.valueAt (R.firstval t (read m (p + 2) (R.attributeLength t)) []) k = none ∨
      AttributeEvent.ofCode (digitAt m (p + 2 + R.attributeLength t) k) = none

/-- The memories hold the same frame of `eof` octets; the second one is cleared behind it. -/
structure SameFrame (m m0 : Mem) (eof : Nat) : Prop where
  agree : ∀ i, i < eof → m i = m0 i
  clear : ∀ i, eof ≤ i → m0 i = 0

theorem SameFrame.word (h : SameFrame m m0 eof) (hp : p + 1 < eof) : word m p = word m0 p := by
  rw [OpenAvb.word, OpenAvb.word, h.agree p (by omega), h.agree (p + 1) hp]

variable {R : Reception τ κ ν}

theorem decodeVector_eq_nil (hR : R.Plain) : decodeVector R m p t nv = [] ↔ R.Idle m t p nv := by
  simp only [decodeVector, hR.fourPacked, Bool.false_eq_true, if_false]
  rw [decodeOctets_digits R hR.discards, take_digits3_read (by simp only [packed3]; omega),
    decodeDigits_eq_nil]
  constructor
  · intro h k hk
    exact h k _ (by simp [hk])
  · intro h k d hd
    obtain ⟨hk, rfl⟩ : k < nv ∧ digitAt m (p + 2 + R.attributeLength t) k = d := by
      simpa [List.getElem?_eq_some_iff] using hd
    exact h k hk

theorem SameFrame.idle (h : SameFrame m m0 eof) (hR : R.Plain)
    (hp : p + 2 < eof) (hnv : 0 < nv) (h0 : R.Idle m0 t p nv) : R.Idle m t p nv := by
  have hmissing : ∀ k, eof ≤ p + 2 + R.attributeLength t + k / 3 →
      AttributeEvent.ofCode (digitAt m0 (p + 2 + R.attributeLength t) k) ≠ none := by
    intro k hk
    have hdig : digits3 0 = [0, 0, 0] := by decide
    have hzero : digitAt m0 (p + 2 + R.attributeLength t) k = 0 := by
      rw [digitAt, h.clear _ hk, hdig]
      rcases (by omega : k % 3 = 0 ∨ k % 3 = 1 ∨ k % 3 = 2) with h3 | h3 | h3 <;> rw [h3] <;> rfl
    rw [hzero]
    decide
  rcases lt_or_ge eof (p + 2 + R.attributeLength t) with hfirst | hfirst
  · -- the FirstValue is cut off
    intro k _
    refine .inl (hR.cut t (eof - (p + 2)) _ (read m0 (p + 2) (R.attributeLength t)) length_read
      length_read (by omega) (by omega) ?_ ((h0 0 hnv).resolve_right (hmissing 0 (by omega))) k)
    obtain ⟨j, hj⟩ : ∃ j, R.attributeLength t = eof - (p + 2) + j :=
      ⟨R.attributeLength t - (eof - (p + 2)), by omega⟩
    rw [hj, read_add, read_add, take_left' length_read, take_left' length_read]
    exact read_congr fun i _ hi => h.agree i (by omega)
  · have hread : read m (p + 2) (R.attributeLength t) = read m0 (p + 2) (R.attributeLength t) :=
      read_congr fun i _ hi => h.agree i (by omega)
    intro k hk
    rw [hread]
    rcases lt_or_ge (p + 2 + R.attributeLength t + k / 3) eof with hin | hout
    · have hdigit : digitAt m (p + 2 + R.attributeLength t) k =
          digitAt m0 (p + 2 + R.attributeLength t) k := by
        rw [digitAt, digitAt, h.agree _ hin]
      rw [hdigit]
      exact h0 k hk
    · exact .inl ((h0 k hk).resolve_right (hmissing k hout))

def Parsed.Quiet (q : Parsed τ ν) : Prop := q.leaveAll = false ∧ q.events = []

theorem Parsed.quiet_iff {q : Parsed τ ν} : q.Quiet ↔ q.raises src = [] := by
  cases hq : q.leaveAll <;> simp [Parsed.Quiet, Parsed.raises, hq]

section Settled

variable [DecidableEq τ]

def Reception.Mute (R : Reception τ κ ν) (m : Mem) (eof : Nat) (saw : List τ) (t : τ)
    (p : Nat) : Prop :=
  (m p = 0 ∧ m (p + 1) = 0) ∨
    R.fresh t saw (lvaAt m p) = false ∧
      (numvaluesAt m p = 0 ∨ eof ≤ p + 2 + numvaluesAt m p / 3 ∨ R.Idle m t p (numvaluesAt m p))

/-- What stands behind the frame cannot show: a message that is skipped has its count inside the
frame, a vector lies inside the frame or is mute, and no LeaveAll can count any more where the frame
has ended. -/
def RecvState.Settled (R : Reception τ κ ν) (m : Mem) (eof : Nat) (s : RecvState τ) : Prop :=
  match s.phase with
  | .messages _ =>
    s.ptr + 2 < eof → ¬ (m s.ptr = 0 ∧ m (s.ptr + 1) = 0) → R.typeOf (m s.ptr) = none →
      R.skipsUnknown (m 14) = true → s.ptr + 3 < eof
  | .vectors t =>
    if s.ptr < eof then
      s.ptr + R.vectorLength t (numvaluesAt m s.ptr) ≤ eof ∨ R.Mute m eof s.saw t s.ptr
    else R.lvaOnce t = true ∧ t ∈ s.saw

def RecvState.Ending (R : Reception τ κ ν) (m : Mem) (eof : Nat) (s : RecvState τ) : Prop :=
  (∀ q ∈ (recvStep R m eof s).1, q.Quiet) ∧
    ∀ s', (recvStep R m eof s).2 = .inl s' → s'.ptr = s.ptr ∧ recvStep R m eof s' = ([], .inr .ok)

theorem lvaAt_cut (h : m p = m' p) : lvaAt m p = lvaAt m' p := by
  have hx := (m (p + 1)).toNat_lt
  have hy := (m' (p + 1)).toNat_lt
  have hword : word m p / 8192 = word m' p / 8192 := by
    simp only [word, h]
    omega
  simp only [lvaAt, hword]

theorem recvVector_ending (hR : R.Plain) (hp : eof ≤ p + 1)
    (h : m p = 0 ∧ m (p + 1) = 0 ∨ R.fresh t saw (lvaAt m p) = false) :
    RecvState.Ending R m eof ⟨p, .vectors t, saw⟩ := by
  have hhalt : recvStep R m eof ⟨p, .messages 0, saw⟩ = ([], .inr .ok) := by
    simp only [recvStep, recvMessage]
    rw [if_pos (by omega)]
  by_cases hend : m p = 0 ∧ m (p + 1) = 0
  · have hstep : recvStep R m eof ⟨p, .vectors t, saw⟩ = ([], .inl ⟨p, .messages 0, saw⟩) := by
      simp only [recvStep, recvVector, if_pos hend]
    simp only [RecvState.Ending, hstep, not_mem_nil, false_imp_iff, implies_true, true_and,
      Sum.inl.injEq]
    rintro s' rfl
    exact ⟨rfl, hhalt⟩
  · have hfresh := h.resolve_left hend
    have hstep : recvStep R m eof ⟨p, .vectors t, saw⟩ =
        ([⟨t, p, numvaluesAt m p, false, []⟩], .inr .failed) := by
      simp only [Reception.fresh] at hfresh
      simp only [recvStep, recvVector, if_neg hend, hfresh, hR.skipsNull, hR.fourPacked]
      rw [if_pos (show eof ≤ p + 2 + numvaluesAt m p / 3 +
        (if false = true then numvaluesAt m p / 4 else 0) by simp; omega)]
      simp
    simp [RecvState.Ending, hstep, Parsed.Quiet]

/-- From a settled state a receiver does the same whatever stands behind the frame, or
nothing of note any more. -/
theorem SameFrame.settled (h : SameFrame m m0 eof) (hR : R.Plain)
    (hs : s.Settled R m0 eof) (h14 : 14 < eof) :
    recvStep R m0 eof s = recvStep R m eof s ∨ s.Ending R m0 eof ∧ s.Ending R m eof := by
  obtain ⟨p, phase, saw⟩ := s
  cases phase with
  | messages e =>
    left
    simp only [recvStep, recvMessage]
    rcases lt_or_ge (p + 2) eof with hp | hp
    · simp only [if_neg (show ¬ eof ≤ p + 2 by omega), h.agree p (by omega),
        h.agree (p + 1) (by omega), h.agree 14 h14]
      split
      · rfl
      · rename_i hend
        cases ht : R.typeOf (m0 p) with
        | some t => simp [hR.listLength]
        | none =>
          simp only
          split
          · rename_i hskip
            rw [numvaluesAt, numvaluesAt, h.word (hs hp hend ht hskip)]
          · rfl
    · simp only [if_pos hp]
  | vectors t =>
    simp only [RecvState.Settled] at hs
    rcases lt_or_ge (p + 1) eof with hp | hp
    · left
      have hnv : numvaluesAt m p = numvaluesAt m0 p := by rw [numvaluesAt, numvaluesAt, h.word hp]
      rw [if_pos (by omega)] at hs
      simp only [recvStep, recvVector, h.agree p (by omega), h.agree (p + 1) hp, hnv,
        lvaAt_cut (h.agree p (by omega)), hR.fourPacked, Bool.false_eq_true, if_false,
        Bool.false_and, add_zero]
      split
      · rfl
      · rename_i hend
        split
        · rfl
        · rename_i hpos
          split
          · rfl
          · rename_i hbound
            have hdec : decodeVector R m0 p t (numvaluesAt m0 p) =
                decodeVector R m p t (numvaluesAt m0 p) := by
              rcases hs with hin | hmute
              · exact decodeVector_congr R fun i _ hi => (h.agree i (by omega)).symm
              · have hidle : R.Idle m0 t p (numvaluesAt m0 p) := by
                  rcases hmute with hm | ⟨-, hm | hm | hm⟩
                  · exact absurd hm hend
                  · exact absurd hm hpos
                  · exact absurd hm hbound
                  · exact hm
                rw [(decodeVector_eq_nil hR).mpr hidle, (decodeVector_eq_nil hR).mpr
                  (h.idle hR (by omega) (by omega) hidle)]
            rw [hdec]
    · right
      have hfresh : ∀ m' : Mem, (p < eof → m' p = m0 p) →
          m' p = 0 ∧ m' (p + 1) = 0 ∨ R.fresh t saw (lvaAt m' p) = false := by
        intro m' hm'
        right
        by_cases hlt : p < eof
        · rw [if_pos hlt] at hs
          rw [lvaAt_cut (hm' hlt)]
          rcases hs with hin | hm | hm
          · simp only [Reception.vectorLength] at hin
            omega
          · simp [lvaAt, word_eq_zero.mpr hm, Reception.fresh]
          · exact hm.1
        · rw [if_neg hlt] at hs
          simp [Reception.fresh, hs.1, hs.2]
      exact ⟨recvVector_ending hR hp (hfresh m0 fun _ => rfl),
        recvVector_ending hR hp (hfresh m fun hlt => h.agree p hlt)⟩

theorem recvStep_inside (hR : R.Plain) (h : recvStep R m eof s = (out, .inl s'))
    (hp : eof ≤ s.ptr) : recvStep R m eof s' = ([], .inr .ok) ∧ s'.ptr = s.ptr := by
  obtain ⟨p, phase, saw⟩ := s
  simp only at hp
  cases phase with
  | messages e =>
    simp only [recvStep, recvMessage] at h
    rw [if_pos (by omega)] at h
    simp at h
  | vectors t =>
    simp only [recvStep, recvVector, hR.skipsNull, hR.fourPacked] at h
    split at h
    · simp only [Prod.mk.injEq, Sum.inl.injEq] at h
      obtain ⟨-, rfl⟩ := h
      refine ⟨?_, rfl⟩
      simp only [recvStep, recvMessage]
      rw [if_pos (by omega)]
    · rw [if_pos (show eof ≤ p + 2 + numvaluesAt m p / 3 +
        (if false = true then numvaluesAt m p / 4 else 0) by omega)] at h
      simp at h

theorem recvSteps_bound (hR : R.Plain) (h : Steps (recvStep R m eof) n s out s') :
    n = 0 ∨ s.measure + n ≤ 2 * eof + 1 ∨ eof ≤ s.ptr ∧ n ≤ 1 := by
  have hmeasure : ∀ s : RecvState τ, s.ptr < eof → s.measure + 1 ≤ 2 * eof := by
    intro s hp
    simp only [RecvState.measure]
    split <;> omega
  induction h with
  | refl => exact .inl rfl
  | @cons s _ s' n _ _ hs hrest ih =>
    right
    have hlt := recvStep_measure hs
    rcases lt_or_ge s.ptr eof with hp | hp
    · have := hmeasure s hp
      rcases ih with ih | ih | ih <;> left <;> omega
    · right
      have hhalt := (recvStep_inside hR hs hp).1
      cases hrest with
      | refl => exact ⟨hp, by omega⟩
      | cons hs' => rw [hhalt] at hs'; simp at hs'

theorem recvSteps_lt (hR : R.Plain) (hsize : eof ≤ maxFrameSize)
    (h : Steps (recvStep R m eof) n recvStart out s) : n < recvFuel := by
  have hb := recvSteps_bound hR h
  simp only [maxFrameSize] at hsize
  simp only [recvFuel, maxFrameSize]
  omega

def moveStep (R : Reception τ κ ν) (m : Mem) (eof : Nat) (s : RecvState τ) :
    List Nat × (RecvState τ ⊕ Rc) :=
  (match (recvStep R m eof s).2 with
    | .inl s' => if s'.ptr = s.ptr then [] else [s'.ptr]
    | .inr _ => [], (recvStep R m eof s).2)

def Addressed (etype : Nat) (dest : List UInt8) (m : Mem) (bytes : Nat) : Prop :=
  17 ≤ bytes ∧ word m 12 = etype ∧ read m 0 6 = dest

instance : Decidable (Addressed etype dest m bytes) := inferInstanceAs (Decidable (_ ∧ _))

def recvMoves (R : Reception τ κ ν) (etype : Nat) (dest : List UInt8) (m : Mem) (bytes : Nat) :
    List Nat :=
  if Addressed etype dest m bytes then (walk (moveStep R m bytes) .overrun recvFuel recvStart).1
  else []

theorem recvMsg_eq (R : Reception τ κ ν) : recvMsg R etype dest m bytes =
    if Addressed etype dest m bytes then walk (recvStep R m bytes) .overrun recvFuel recvStart
    else ([], .failed) := by
  simp only [recvMsg, Addressed, ← not_lt]
  split <;> simp_all
  split <;> simp_all

def Parsed.Inside (R : Reception τ κ ν) (eof : Nat) (q : Parsed τ ν) : Prop :=
  q.offset + R.vectorLength q.type q.numvalues ≤ eof

structure Contained (R : Reception τ κ ν) (data : List UInt8)
    (recv : (rest : Mem) → List (Parsed τ ν) × Rc) (moves : (rest : Mem) → List Nat) : Prop where
  events : ∀ rest rest', raises (sourceAddr data) (recv rest).1 =
    raises (sourceAddr data) (recv rest').1
  moves : ∀ rest rest', moves rest = moves rest'
  inside : ∀ rest, ∀ q ∈ (recv rest).1, q.raises (sourceAddr data) ≠ [] → q.Inside R data.length

theorem sameFrame_recvBuffer :
    SameFrame (recvBuffer data rest) (recvBuffer data cleared) data.length := by
  constructor
  · intro i hi
    simp [recvBuffer, hi]
  · intro i hi
    simp [recvBuffer, cleared, hi]

theorem SameFrame.addressed (h : SameFrame m m0 eof) :
    Addressed etype dest m eof ↔ Addressed etype dest m0 eof := by
  refine and_congr_right fun hlen => ?_
  have hdest : read m 0 6 = read m0 0 6 := read_congr fun i _ hi => h.agree i (by omega)
  rw [h.word (by omega), hdest]

theorem RecvState.Ending.quiet (h : s.Ending R m eof) :
    ∀ q ∈ (walk (recvStep R m eof) stuck fuel s).1, q.Quiet := by
  refine forall_walk fun n out s' hsteps => ?_
  cases hsteps with
  | refl => exact h.1
  | cons hs hrest =>
    have hhalt := (h.2 _ (by rw [hs])).2
    cases hrest with
    | refl => simp [hhalt]
    | cons hs' => rw [hhalt] at hs'; simp at hs'

theorem RecvState.Ending.moves (h : s.Ending R m eof) :
    (walk (moveStep R m eof) stuck fuel s).1 = [] := by
  cases fuel with
  | zero => rfl
  | succ fuel =>
    rw [walk, moveStep]
    cases hs : (recvStep R m eof s).2 with
    | inr r => rfl
    | inl s' =>
      obtain ⟨hptr, hhalt⟩ := h.2 s' hs
      simp only [hptr, if_true, nil_append]
      cases fuel with
      | zero => rfl
      | succ fuel => rw [walk, moveStep, hhalt]

theorem mute_iff (hR : R.Plain) : R.Mute m eof saw t p ↔
    ∀ q ∈ (recvStep R m eof ⟨p, .vectors t, saw⟩).1, q.Quiet := by
  simp only [recvStep, recvVector, Reception.Mute, Reception.fresh, hR.skipsNull, hR.fourPacked,
    Bool.false_eq_true, if_false, Bool.false_and, add_zero]
  split
  · rename_i hend
    simp [hend]
  · rename_i hend
    split
    · rename_i hnv
      simp [hend, hnv, Parsed.Quiet]
    · rename_i hnv
      split
      · rename_i hb
        simp [hend, hb, Parsed.Quiet]
      · rename_i hb
        simp [hend, hnv, hb, false_or, forall_eq, Parsed.Quiet, decodeVector_eq_nil hR]

theorem recvVector_parsed (h : q ∈ (recvStep R m eof ⟨p, .vectors t, saw⟩).1) :
    q.offset = p ∧ q.type = t ∧ q.numvalues = numvaluesAt m p := by
  simp only [recvStep, recvVector] at h
  repeat' split at h
  all_goals simp only [not_mem_nil, mem_singleton] at h
  all_goals
    subst h
    exact ⟨rfl, rfl, rfl⟩

section Containment

variable {R : Reception τ κ ν} {etype : Nat} {dest data : List UInt8}

/-- Every state the receiver comes to when nothing stands behind the frame is settled. -/
def SettledRun (R : Reception τ κ ν) (data : List UInt8) : Prop :=
  ∀ n out s, Steps (recvStep R (recvBuffer data cleared) data.length) n recvStart out s →
    s.Settled R (recvBuffer data cleared) data.length

section

variable (h : SettledRun R data) (hR : R.Plain) (hlen : 17 ≤ data.length) (rest : Mem)
include h hR hlen rest

theorem SettledRun.step
    (hs : Steps (recvStep R (recvBuffer data cleared) data.length) n recvStart out s) :
    recvStep R (recvBuffer data cleared) data.length s =
        recvStep R (recvBuffer data rest) data.length s ∨
      s.Ending R (recvBuffer data cleared) data.length ∧
        s.Ending R (recvBuffer data rest) data.length :=
  sameFrame_recvBuffer.settled hR (h n out s hs) (by omega)

theorem SettledRun.raises_eq :
    raises src (walk (recvStep R (recvBuffer data cleared) data.length) stuck fuel recvStart).1 =
      raises src (walk (recvStep R (recvBuffer data rest) data.length) stuck fuel recvStart).1 := by
  have hquiet : ∀ qs : List (Parsed τ ν), (∀ q ∈ qs, q.Quiet) → raises src qs = [] :=
    fun qs hqs => flatMap_eq_nil_iff.mpr fun q hq => Parsed.quiet_iff.mp (hqs q hq)
  refine walk_rel (P := fun x y => raises src x.1 = raises src y.1) (fun _ => rfl) ?_ ?_
  · intro out x y hxy
    simp only [raises, flatMap_append] at hxy ⊢
    rw [hxy]
  · intro n out s hs
    refine (h.step hR hlen rest hs).imp id fun hend fuel => ?_
    rw [hquiet _ hend.1.quiet, hquiet _ hend.2.quiet]

theorem SettledRun.moves_eq :
    (walk (moveStep R (recvBuffer data cleared) data.length) stuck fuel recvStart).1 =
      (walk (moveStep R (recvBuffer data rest) data.length) stuck fuel recvStart).1 := by
  refine walk_rel (P := fun x y => x.1 = y.1) (fun _ => rfl) (fun out x y hxy => by rw [hxy]) ?_
  intro n out s hs
  obtain ⟨out', hs'⟩ := hs.other (recvStep R (recvBuffer data cleared) data.length) fun _ => rfl
  rcases h.step hR hlen rest hs' with heq | hend
  · left
    rw [moveStep, moveStep, heq]
  · right
    intro fuel
    rw [hend.1.moves, hend.2.moves]

end

theorem RecvState.Settled.inside (hR : R.Plain)
    (h : RecvState.Settled R (recvBuffer data cleared) data.length s) :
    ∀ q ∈ (recvStep R (recvBuffer data cleared) data.length s).1,
      q.raises src ≠ [] → q.Inside R data.length := by
  have hframe : SameFrame (recvBuffer data cleared) (recvBuffer data cleared) data.length :=
    sameFrame_recvBuffer
  have hzero := hframe.clear
  generalize recvBuffer data cleared = m at *
  obtain ⟨p, phase, saw⟩ := s
  intro q hq hne
  rw [Ne, ← Parsed.quiet_iff] at hne
  cases phase with
  | messages e =>
    simp only [recvStep, recvMessage] at hq
    repeat' split at hq
    all_goals simp at hq
  | vectors t =>
    by_cases hmute : R.Mute m data.length saw t p
    · exact absurd ((mute_iff hR).mp hmute q hq) hne
    · have hin : p + R.vectorLength t (numvaluesAt m p) ≤ data.length := by
        simp only [RecvState.Settled] at h
        split at h
        · exact h.resolve_right hmute
        · exact absurd (.inl ⟨hzero p (by omega), hzero (p + 1) (by omega)⟩) hmute
      obtain ⟨hoff, htype, hnv⟩ := recvVector_parsed hq
      rwa [Parsed.Inside, hoff, htype, hnv]

theorem SettledRun.inside (h : SettledRun R data) (hR : R.Plain) (hlen : 17 ≤ data.length)
    (rest : Mem) :
    ∀ q ∈ (walk (recvStep R (recvBuffer data rest) data.length) stuck fuel recvStart).1,
      q.raises src ≠ [] → q.Inside R data.length := by
  have hcleared : ∀ q ∈ (walk (recvStep R (recvBuffer data cleared) data.length) stuck fuel
      recvStart).1, q.raises src ≠ [] → q.Inside R data.length :=
    forall_walk fun n out s hs => (h n out s hs).inside hR
  revert hcleared
  refine walk_rel (P := fun x y : List (Parsed τ ν) × Rc =>
    (∀ q ∈ x.1, q.raises src ≠ [] → q.Inside R data.length) →
      ∀ q ∈ y.1, q.raises src ≠ [] → q.Inside R data.length) (fun _ => id) ?_ ?_
  · intro out x y hxy hx q hq
    rcases mem_append.mp hq with hq | hq
    · exact hx q (mem_append_left _ hq)
    · exact hxy (fun q hq => hx q (mem_append_right _ hq)) q hq
  · intro n out s hs
    refine (h.step hR hlen rest hs).imp id fun hend fuel _ q hq hne => ?_
    exact absurd (Parsed.quiet_iff.mp (hend.2.quiet q hq)) hne

/-- The way to the first state that is not settled does not depend on what stands behind
the frame. -/
theorem steps_transport (hR : R.Plain) (hlen : 17 ≤ data.length) (rest : Mem)
    (h : Steps (recvStep R (recvBuffer data cleared) data.length) n s out s')
    (hbefore : ∀ k out s', k < n →
      Steps (recvStep R (recvBuffer data cleared) data.length) k s out s' →
      s'.Settled R (recvBuffer data cleared) data.length)
    (hs' : ¬ s'.Settled R (recvBuffer data cleared) data.length) :
    Steps (recvStep R (recvBuffer data rest) data.length) n s out s' ∧
      ∃ moves, Steps (moveStep R (recvBuffer data cleared) data.length) n s moves s' ∧
        Steps (moveStep R (recvBuffer data rest) data.length) n s moves s' := by
  induction h with
  | refl s => exact ⟨.refl s, [], .refl s, .refl s⟩
  | @cons s _ s1 n _ s2 hs hrest ih =>
    obtain ⟨ihs, moves, ihm, ihm'⟩ := ih
      (fun k out s'' hk hk' => hbefore (k + 1) _ s'' (by omega) (.cons hs hk')) hs'
    rcases sameFrame_recvBuffer.settled hR (hbefore 0 [] s (by omega) (.refl s)) (by omega)
      with heq | hend
    · have hs2 : recvStep R (recvBuffer data rest) data.length s = _ := heq.symm.trans hs
      refine ⟨.cons hs2 ihs, _, .cons (Prod.ext rfl ?_) ihm, .cons (Prod.ext ?_ ?_) ihm'⟩
      · simp only [moveStep, hs]
      · simp only [moveStep, hs, hs2]
      · simp only [moveStep, hs2]
    · -- an ending walk has no states left to be unsettled
      have hhalt := (hend.1.2 s1 (by rw [hs])).2
      cases hrest with
      | cons hs'' => rw [hhalt] at hs''; simp at hs''
      | refl =>
        refine absurd ?_ hs'
        obtain ⟨p, phase, saw⟩ := s1
        cases phase with
        | messages e =>
          intro hp hend' ht hskip
          simp only [recvStep, recvMessage, if_neg (Nat.not_le.mpr hp), if_neg hend'] at hhalt
          simp [ht, hskip] at hhalt
        | vectors t =>
          simp only [recvStep, recvVector] at hhalt
          repeat' split at hhalt
          all_goals simp at hhalt

theorem moveStep_unknown (hp : p + 2 < eof) (hend : ¬ (m p = 0 ∧ m (p + 1) = 0))
    (ht : R.typeOf (m p) = none) (hskip : R.skipsUnknown (m 14) = true) :
    (moveStep R m eof ⟨p, .messages e, saw⟩).1 =
      [p + 2 + (2 + (m (p + 1)).toNat + (numvaluesAt m (p + 2) + 2) / 3)] := by
  have hne : p + 2 + (2 + (m (p + 1)).toNat + (numvaluesAt m (p + 2) + 2) / 3) ≠ p := by omega
  simp [moveStep, recvStep, recvMessage, if_neg (Nat.not_le.mpr hp), if_neg hend, ht, hskip,
    if_neg hne]

theorem moveStep_cut (e : Nat) (saw : List τ) (hp : p + 3 = data.length)
    (hend : ¬ (recvBuffer data cleared p = 0 ∧ recvBuffer data cleared (p + 1) = 0))
    (ht : R.typeOf (recvBuffer data cleared p) = none)
    (hskip : R.skipsUnknown (recvBuffer data cleared 14) = true) (h14 : 14 < data.length) :
    ∃ q q', q ≠ q' ∧
      (moveStep R (recvBuffer data cleared) data.length ⟨p, .messages e, saw⟩).1 = [q] ∧
      (moveStep R (recvBuffer data fun _ => 3) data.length ⟨p, .messages e, saw⟩).1 = [q'] := by
  have hframe : SameFrame (recvBuffer data fun _ => 3) (recvBuffer data cleared) data.length :=
    sameFrame_recvBuffer
  have hlast : recvBuffer data (fun _ => 3) (p + 3) = 3 := by simp [recvBuffer, hp]
  refine ⟨_, _, ?_, moveStep_unknown (by omega) hend ht hskip, moveStep_unknown (by omega) ?_ ?_ ?_⟩
  · have h2 := hframe.agree (p + 2) (by omega)
    simp only [numvaluesAt, word, show p + 2 + 1 = p + 3 by omega, h2, hlast,
      hframe.clear (p + 3) (by omega), hframe.agree (p + 1) (by omega)]
    simp
    omega
  · rwa [hframe.agree p (by omega), hframe.agree (p + 1) (by omega)]
  · rwa [hframe.agree p (by omega)]
  · rwa [hframe.agree 14 h14]

theorem recvVector_leaveAll (hR : R.Plain) (hm : m p = 0x20 ∧ m (p + 1) = 0)
    (hfresh : ¬ (R.lvaOnce t = true ∧ t ∈ saw)) :
    (recvStep R m eof ⟨p, .vectors t, saw⟩).1 = [⟨t, p, 0, true, []⟩] := by
  have hend : ¬ (m p = 0 ∧ m (p + 1) = 0) := by simp [hm.1]
  have hnv : numvaluesAt m p = 0 := by simp [numvaluesAt, word, hm.1, hm.2]
  have hlva : lvaAt m p = true := by simp [lvaAt, word, hm.1, hm.2]
  have hf : (R.lvaOnce t && saw.contains t) = false := by simpa using hfresh
  simp only [recvStep, recvVector, if_neg hend, hnv, hlva, hf, hR.skipsNull]
  rfl

theorem Contained.settledRun (hR : R.Plain) (hsize : data.length ≤ maxFrameSize)
    (h : Contained R data (fun rest => recvMsg R etype dest (recvBuffer data rest) data.length)
      (fun rest => recvMoves R etype dest (recvBuffer data rest) data.length))
    (ha : Addressed etype dest (recvBuffer data cleared) data.length) : SettledRun R data := by
  intro n
  induction n using Nat.strongRecOn with
  | _ n ih =>
    intro out s hs
    by_contra hns
    have haddr : ∀ rest, Addressed etype dest (recvBuffer data rest) data.length := fun rest =>
      sameFrame_recvBuffer.addressed.mpr ha
    have hpath := fun rest => steps_transport hR ha.1 rest hs
      (fun k out s' hk => ih k hk out s') hns
    have hfuel : n < recvFuel := recvSteps_lt hR hsize hs
    have hinside : ∀ rest, ∀ q ∈ (recvStep R (recvBuffer data rest) data.length s).1,
        ¬ q.Quiet → q.Inside R data.length := by
      intro rest q hq hne
      refine h.inside rest q ?_ (mt Parsed.quiet_iff.mpr hne)
      simp only [recvMsg_eq, if_pos (haddr rest)]
      obtain ⟨outs, hwalk⟩ := (hpath rest).1.walk_out hfuel
      rw [hwalk]
      simp [hq]
    obtain ⟨p, phase, saw⟩ := s
    cases phase with
    | messages e =>
      simp only [RecvState.Settled, Classical.not_imp] at hns
      obtain ⟨hp, hend, ht, hskip, hcut⟩ := hns
      obtain ⟨-, moves, hm0, hm3⟩ := hpath fun _ => 3
      obtain ⟨q, q', hne, hq, hq'⟩ := moveStep_cut e saw (by omega) hend ht hskip
        (by have := ha.1; omega)
      obtain ⟨outs, hwalk⟩ := hm0.walk_out hfuel
      obtain ⟨outs', hwalk'⟩ := hm3.walk_out hfuel
      have heq := h.moves cleared fun _ => 3
      simp only [recvMoves, if_pos (haddr _)] at heq
      rw [hwalk, hwalk', hq, hq', append_cancel_left_eq] at heq
      exact hne (head_eq_of_cons_eq heq)
    | vectors t =>
      simp only [RecvState.Settled] at hns
      split at hns
      · -- the vector ends behind the frame and says something
        rename_i hp
        rw [not_or, mute_iff hR] at hns
        push Not at hns
        obtain ⟨hout, q, hq, hne⟩ := hns
        refine absurd (hinside cleared q hq hne) ?_
        obtain ⟨hoff, htype, hnv⟩ := recvVector_parsed hq
        rw [Parsed.Inside, hoff, htype, hnv]
        omega
      · rename_i hp
        have hq := hinside (fun i => if i = p then 0x20 else 0) ⟨t, p, 0, true, []⟩
          (by
            rw [recvVector_leaveAll hR ?_ hns]
            · simp
            · simp at hp
              simp [recvBuffer, hp, show data.length ≤ p + 1 by omega])
          (by simp [Parsed.Quiet])
        simp only [Parsed.Inside, Reception.vectorLength] at hq
        omega

theorem contained_iff (hR : R.Plain) (hsize : data.length ≤ maxFrameSize) :
    Contained R data (fun rest => recvMsg R etype dest (recvBuffer data rest) data.length)
        (fun rest => recvMoves R etype dest (recvBuffer data rest) data.length) ↔
      (Addressed etype dest (recvBuffer data cleared) data.length → SettledRun R data) := by
  refine ⟨Contained.settledRun hR hsize, fun h => ?_⟩
  have haddr : ∀ rest, Addressed etype dest (recvBuffer data rest) data.length ↔
      Addressed etype dest (recvBuffer data cleared) data.length :=
    fun rest => sameFrame_recvBuffer.addressed
  by_cases ha : Addressed etype dest (recvBuffer data cleared) data.length
  · have hrun := h ha
    constructor
    · intro rest rest'
      simp only [recvMsg_eq, haddr, if_pos ha]
      exact (hrun.raises_eq hR ha.1 rest).symm.trans (hrun.raises_eq hR ha.1 rest')
    · intro rest rest'
      simp only [recvMoves, haddr, if_pos ha]
      exact (hrun.moves_eq hR ha.1 rest).symm.trans (hrun.moves_eq hR ha.1 rest')
    · intro rest
      simp only [recvMsg_eq, haddr, if_pos ha]
      exact hrun.inside hR ha.1 rest
  · constructor <;> simp [recvMsg_eq, recvMoves, haddr, if_neg ha, implies_true, not_mem_nil]

end Containment

end Settled

/-! ## Truncated MVRP and MMRP frames -/

/-- What `mrpd_recvmsgbuf` can receive into its buffer. -/
def RecvFrame : Type := { data : List UInt8 // data.length ≤ maxFrameSize }

def mvrpMoves (data : List UInt8) (rest : Mem) : List Nat :=
  recvMoves mvrpReception mvrpEtype mvrpCustomerBridgeAddr (recvBuffer data rest) data.length

def mmrpMoves (data : List UInt8) (rest : Mem) : List Nat :=
  recvMoves mmrpReception mmrpEtype mmrpAddr (recvBuffer data rest) data.length

theorem mvrp_after_junk (h : 0xFFF < vid) (k : Nat) : mvrpReception.after k vid = vid := by
  induction k with
  | zero => rfl
  | succ k ih =>
    have htake : (mvrpReception.take vid).2 = vid := by simp [mvrpReception, h]
    rw [Reception.after, htake, ih]

theorem mvrp_plain : mvrpReception.Plain where
  listLength := rfl
  fourPacked _ := rfl
  skipsNull := rfl
  discards := rfl
  length_pos _ := Nat.zero_lt_two
  cut := by
    intro t j first first' hlen hlen' hj hjL htake hjunk k
    obtain rfl : j = 1 := by simp only [mvrpReception] at hjL; omega
    obtain ⟨hi, lo, rfl⟩ := List.length_eq_two.mp hlen
    obtain ⟨hi', lo', rfl⟩ := List.length_eq_two.mp hlen'
    obtain rfl : hi = hi' := by simpa using htake
    have hlt := hi.toNat_lt
    -- whether a VID is junk is said by its first octet
    have hval : ∀ x : UInt8, 0xFFF < UInt16.ofNat (number [hi, x]) ↔ 15 < hi.toNat := by
      intro x
      have hx := x.toNat_lt
      rw [UInt16.lt_iff_toNat_lt, UInt16.toNat_ofNat']
      simp [number]
      omega
    have hhi : 15 < hi.toNat := by
      rw [← hval lo']
      by_contra hle
      simp [Reception.valueAt, Reception.after, mvrpReception, hle] at hjunk
    have hj : 0xFFF < UInt16.ofNat (number [hi, lo]) := (hval lo).mpr hhi
    show (mvrpReception.take (mvrpReception.after k (UInt16.ofNat (number [hi, lo])))).1 = none
    rw [mvrp_after_junk hj]
    simp [mvrpReception, hj]

theorem mmrp_plain : mmrpReception.Plain where
  listLength := rfl
  fourPacked _ := rfl
  skipsNull := rfl
  discards := rfl
  length_pos t := by cases t <;> decide
  cut := by
    intro t j first first' hlen hlen' hj hjL htake hjunk k
    cases t with
    | svcreq =>
      simp only [mmrpReception] at hjL
      omega
    | macvec => simp [Reception.valueAt, Reception.after, mmrpReception, mmrpTake] at hjunk

/-- MVRP and MMRP reception keep to the frame exactly if every vector the receiver comes to
lies inside the frame or has nothing to say. -/
theorem reception_contained_iff (frame : RecvFrame) :
    (Contained mvrpReception frame.val (mvrpRecvMsg frame.val) (mvrpMoves frame.val) ↔
        (Addressed mvrpEtype mvrpCustomerBridgeAddr (recvBuffer frame.val cleared)
          frame.val.length → SettledRun mvrpReception frame.val)) ∧
      (Contained mmrpReception frame.val (mmrpRecvMsg frame.val) (mmrpMoves frame.val) ↔
        (Addressed mmrpEtype mmrpAddr (recvBuffer frame.val cleared) frame.val.length →
          SettledRun mmrpReception frame.val)) :=
  ⟨contained_iff mvrp_plain frame.property, contained_iff mmrp_plain frame.property⟩

/-- An MVRP frame that ends behind the FirstValue of its vector, and an MMRP frame that
ends inside it. -/
def truncatedVid : List UInt8 :=
  ethHeader mvrpCustomerBridgeAddr [0x02, 0, 0, 0, 0, 0x01] mvrpEtype mvrpProtVer ++
    [mvrpVidType, 2, 0, 1, 0, 5]

def truncatedMac : List UInt8 :=
  ethHeader mmrpAddr [0x02, 0, 0, 0, 0, 0x01] mmrpEtype mmrpProtVer ++
    [mmrpMacvecType, 6, 0, 1, 0x91, 0xE0]

/-- The truncated vectors raise events about values nobody declared, and what they raise
depends on the octets behind the frame. -/
theorem truncated_raise : raises (sourceAddr truncatedVid) (mvrpRecvMsg truncatedVid cleared).1 =
        [.attribute .rnew (received [0x02, 0, 0, 0, 0, 0x01] 5)] ∧
      raises (sourceAddr truncatedVid) (mvrpRecvMsg truncatedVid fun _ => 180).1 =
        [.attribute .rlv (received [0x02, 0, 0, 0, 0, 0x01] 5)] ∧
      raises (sourceAddr truncatedMac) (mmrpRecvMsg truncatedMac cleared).1 =
        [.attribute .rnew (received [0x02, 0, 0, 0, 0, 0x01]
          (.macvec ⟨[0x91, 0xE0, 0, 0, 0, 0], rfl⟩))] ∧
      ¬ Contained mvrpReception truncatedVid (mvrpRecvMsg truncatedVid) (mvrpMoves truncatedVid) ∧
      ¬ Contained mmrpReception truncatedMac (mmrpRecvMsg truncatedMac)
        (mmrpMoves truncatedMac) := by
  refine ⟨by decide +kernel, by decide +kernel, by decide +kernel, fun h => ?_, fun h => ?_⟩
  · exact absurd (h.events cleared fun _ => 180) (by decide +kernel)
  · exact absurd (h.events cleared fun _ => 36) (by decide +kernel)

end OpenAvb.Mrpd
