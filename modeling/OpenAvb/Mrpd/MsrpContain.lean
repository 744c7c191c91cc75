import OpenAvb.Mrpd.MsrpCodec
import OpenAvb.Mrpd.Contain

/-!
# Truncated MSRP frames

The receiver checks the list length of a message, but walks on to an end mark
wherever that may be. The octet behind the frame may make the end mark that the list
length points to, and then decides whether the list is taken or passed over.
-/

namespace OpenAvb.Mrpd

open List

variable {τ κ ν : Type}

structure Reception.Listed (R : Reception τ κ ν) : Prop where
  listLength : R.listLength = true
  skipsNull : R.skipsNull = true
  skipsUnknown : ∀ version, R.skipsUnknown version = false
  length_pos : ∀ t, 0 < R.attributeLength t

/-- The octet just behind the frame decides whether the list of a message is taken: it is the second
one of the end mark that the list length points to, and the first one is zero. -/
def RecvState.AtEdge (R : Reception τ κ ν) (m : Mem) (eof : Nat) (s : RecvState τ) : Prop :=
  match s.phase with
  | .messages _ =>
    (∃ t, R.typeOf (m s.ptr) = some t ∧ (m (s.ptr + 1)).toNat = R.attributeLength t ∧
        R.attributeLength t + 3 ≤ word m (s.ptr + 2)) ∧
      s.ptr + 2 + word m (s.ptr + 2) + 1 = eof ∧ m (s.ptr + 2 + word m (s.ptr + 2)) = 0
  | .vectors _ => False

/-- The memories hold the same frame of `eof` octets, and the octet behind it does not decide at
`s`. -/
structure SameAt (R : Reception τ κ ν) (m m0 : Mem) (eof : Nat) (s : RecvState τ) : Prop where
  agree : ∀ i, i < eof → m i = m0 i
  edge : ¬ s.AtEdge R m0 eof

variable {R : Reception τ κ ν}

theorem SameAt.word_eq (h : SameAt R m m0 eof s) (hp : p + 1 < eof) : word m p = word m0 p :=
  word_congr (h.agree p (by omega)) (h.agree (p + 1) hp)

theorem SameAt.numvalues_eq (h : SameAt R m m0 eof s) (hp : p + 1 < eof) :
    numvaluesAt m p = numvaluesAt m0 p :=
  congrArg (· % 8192) (h.word_eq hp)

theorem checkAttribListLen_cut (hp : eof ≤ p + 1) : checkAttribListLen m p eof = false := by
  unfold checkAttribListLen
  dsimp only
  rcases Nat.eq_zero_or_pos (word m p) with hzero | hpos
  · simp [hzero]
  · have hout : decide (eof ≤ p + word m p) = true := decide_eq_true (by omega)
    rw [hout]
    simp

theorem SameAt.check_eq (h : SameAt R m m0 eof ⟨p, .messages e, saw⟩)
    (ht : R.typeOf (m0 p) = some t) (hlength : (m0 (p + 1)).toNat = R.attributeLength t) :
    checkAttribListLen m (p + 2) eof = checkAttribListLen m0 (p + 2) eof := by
  rcases lt_or_ge (p + 2 + 1) eof with hp | hp
  · have hedge : ¬ ((∃ t, R.typeOf (m0 p) = some t ∧ (m0 (p + 1)).toNat = R.attributeLength t ∧
        R.attributeLength t + 3 ≤ word m0 (p + 2)) ∧ p + 2 + word m0 (p + 2) + 1 = eof ∧
          m0 (p + 2 + word m0 (p + 2)) = 0) := h.edge
    unfold checkAttribListLen
    rw [h.word_eq hp, h.agree (p + 2 - 1) (by omega)]
    generalize word m0 (p + 2) = listLen at *
    rcases lt_or_ge (p + 2 + listLen) eof with hin | hout
    · by_cases hshort : listLen < (m0 (p + 1)).toNat + 2 + 1
      · simp [hshort]
      by_cases hfirst : m0 (p + 2 + listLen) = 0
      · -- the octet behind the frame does not decide, so the end mark is inside
        have hlast : p + 2 + listLen + 1 < eof := by
          refine Nat.lt_of_le_of_ne hin fun hlast => hedge ⟨⟨t, ht, hlength, ?_⟩, hlast, hfirst⟩
          rw [← hlength]
          exact Nat.le_of_not_lt hshort
        simp only [h.agree _ hin, h.agree _ hlast]
      · simp [h.agree _ hin, hfirst]
    · have hout : decide (eof ≤ p + 2 + listLen) = true := decide_eq_true hout
      simp only [hout, Bool.not_true, Bool.and_false, Bool.false_and]
  · rw [checkAttribListLen_cut hp, checkAttribListLen_cut hp]

def Reception.Drops (R : Reception τ κ ν) (eof : Nat) (t : τ) (p numvalues : Nat) : Prop :=
  eof ≤ p + 2 + numvalues / 3 + (if R.fourPacked t then numvalues / 4 else 0) ∨
    R.fourPacked t = true ∧ eof ≤ p + R.vectorLength t numvalues

instance (R : Reception τ κ ν) : Decidable (R.Drops eof t p nv) := inferInstanceAs (Decidable (_ ∨ _))

theorem Reception.drops_cut (R : Reception τ κ ν) (hp : eof ≤ p + 2) : R.Drops eof t p nv :=
  .inl (by omega)

/-- Two results that raise the same and end the same; if the first one raises only what is
inside the frame, so does the second. -/
structure Alike (R : Reception τ κ ν) (eof : Nat) (src : List UInt8)
    (x y : List (Parsed τ ν) × Rc) : Prop where
  events : raises src x.1 = raises src y.1
  rc : x.2 = y.2
  inside : (∀ q ∈ x.1, q.raises src ≠ [] → q.Inside R eof) →
    ∀ q ∈ y.1, q.raises src ≠ [] → q.Inside R eof

theorem Alike.refl (R : Reception τ κ ν) (eof : Nat) (src : List UInt8)
    (x : List (Parsed τ ν) × Rc) : Alike R eof src x x := ⟨rfl, rfl, id⟩

theorem Alike.put (out : List (Parsed τ ν)) {x y : List (Parsed τ ν) × Rc}
    (h : Alike R eof src x y) : Alike R eof src (out ++ x.1, x.2) (out ++ y.1, y.2) where
  events := by
    have hxy := h.events
    unfold raises at hxy ⊢
    rw [flatMap_append, flatMap_append, hxy]
  rc := h.rc
  inside hx q hq := by
    rcases mem_append.mp hq with hq | hq
    · exact hx q (mem_append_left _ hq)
    · exact h.inside (fun q hq => hx q (mem_append_right _ hq)) q hq

theorem sameAt_recvBuffer {s : RecvState τ} (h : ¬ s.AtEdge R (recvBuffer data rest') data.length) :
    SameAt R (recvBuffer data rest) (recvBuffer data rest') data.length s :=
  ⟨fun i hi => by simp [recvBuffer, hi], h⟩

section Settled

variable [DecidableEq τ]

section

variable (R : Reception τ κ ν)

/-- The header of the vector at `p` is inside the frame, or its first octet is and has a count but
no LeaveAll to tell; and the vector is inside the frame as a whole, or the receiver gives up. -/
def Reception.VectorSettled (m : Mem) (eof : Nat) (saw : List τ) (t : τ) (p : Nat) : Prop :=
  if p + 1 < eof then
    (m p = 0 ∧ m (p + 1) = 0) ∨ p + R.vectorLength t (numvaluesAt m p) ≤ eof ∨
      R.fresh t saw (lvaAt m p) = false ∧
        (numvaluesAt m p = 0 ∨ R.Drops eof t p (numvaluesAt m p))
  else p < eof ∧ R.fresh t saw (lvaAt m p) = false ∧ (m p).toNat % 32 ≠ 0

def RecvState.VectorSettled (m : Mem) (eof : Nat) (s : RecvState τ) : Prop :=
  ∀ t, s.phase = .vectors t → R.VectorSettled m eof s.saw t s.ptr

/-- What the receivers still do from here is the same but for the count of a vector that is
dropped, or the offset they skip to before they halt. -/
def Parts (m m0 : Mem) (eof : Nat) (s : RecvState τ) : Prop :=
  (∃ q q0, recvStep R m eof s = ([q], .inr .failed) ∧
      recvStep R m0 eof s = ([q0], .inr .failed) ∧ q.Quiet ∧ q0.Quiet) ∨
    ∃ s1 s0, recvStep R m eof s = ([], .inl s1) ∧ recvStep R m0 eof s = ([], .inl s0) ∧
      recvStep R m eof s1 = ([], .inr .ok) ∧ recvStep R m0 eof s0 = ([], .inr .ok)

theorem recvMessage_behind (hp : eof ≤ p + 2) :
    recvStep R m eof ⟨p, .messages e, saw⟩ = ([], .inr .ok) := by
  simp only [recvStep, recvMessage, if_pos hp]

end

theorem recvMessage_cases (hR : R.Listed) (m0 : Mem) (hp : p + 2 < eof) :
    (∃ r, ∀ m, SameAt R m m0 eof ⟨p, .messages e, saw⟩ →
        recvStep R m eof ⟨p, .messages e, saw⟩ = ([], r)) ∨
      ∃ t, ∀ m, SameAt R m m0 eof ⟨p, .messages e, saw⟩ → recvStep R m eof ⟨p, .messages e, saw⟩ =
        ([], .inl ⟨p + 4 + R.vectorLength t (numvaluesAt m (p + 4)), .messages 0, saw⟩) := by
  have hopen : ¬ eof ≤ p + 2 := Nat.not_le.mpr hp
  have htype : ∀ m, SameAt R m m0 eof ⟨p, .messages e, saw⟩ → m p = m0 p :=
    fun m h => h.agree p (by omega)
  have hlen : ∀ m, SameAt R m m0 eof ⟨p, .messages e, saw⟩ → m (p + 1) = m0 (p + 1) :=
    fun m h => h.agree (p + 1) (by omega)
  by_cases hend : m0 p = 0 ∧ m0 (p + 1) = 0
  · by_cases he : e + 1 < 2
    · refine .inl ⟨.inl ⟨p + 2, .messages (e + 1), saw⟩, fun m h => ?_⟩
      simp [recvStep, recvMessage, hopen, htype m h, hlen m h, hend, he, and_self]
    · refine .inl ⟨.inr .ok, fun m h => ?_⟩
      simp [recvStep, recvMessage, hopen, htype m h, hlen m h, hend, he, and_self]
  cases ht : R.typeOf (m0 p) with
  | none =>
    refine .inl ⟨.inr .failed, fun m h => ?_⟩
    simp [recvStep, recvMessage, hopen, htype m h, hlen m h, hend, ht, hR.skipsUnknown,
      Bool.false_eq_true]
  | some t =>
    by_cases hlength : (m0 (p + 1)).toNat ≠ R.attributeLength t
    · refine .inl ⟨.inr .failed, fun m h => ?_⟩
      simp only [recvStep, recvMessage, hopen, htype m h, hlen m h, hend, ht, if_false]
      exact if_pos hlength
    have hcheck_eq := fun m (h : SameAt R m m0 eof ⟨p, .messages e, saw⟩) =>
      h.check_eq ht (Classical.not_not.mp hlength)
    cases hcheck : checkAttribListLen m0 (p + 2) eof with
    | true =>
      refine .inl ⟨.inl ⟨p + 4, .vectors t, saw⟩, fun m h => ?_⟩
      simp [recvStep, recvMessage, hopen, htype m h, hlen m h, hend, ht, hlength, hcheck_eq m h,
        hcheck, hR.listLength]
    | false =>
      refine .inr ⟨t, fun m h => ?_⟩
      simp [recvStep, recvMessage, hopen, htype m h, hlen m h, hend, ht, hlength, hcheck_eq m h,
        hcheck, hR.listLength, Bool.false_eq_true]

theorem SameAt.message (h : SameAt R m m0 eof ⟨p, .messages e, saw⟩) (hR : R.Listed) :
    recvStep R m eof ⟨p, .messages e, saw⟩ = recvStep R m0 eof ⟨p, .messages e, saw⟩ ∨
      Parts R m m0 eof ⟨p, .messages e, saw⟩ := by
  rcases lt_or_ge (p + 2) eof with hp | hp
  case inr => exact .inl (by rw [recvMessage_behind R hp, recvMessage_behind R hp])
  have h0 : SameAt R m0 m0 eof ⟨p, .messages e, saw⟩ := ⟨fun _ _ => rfl, h.edge⟩
  rcases recvMessage_cases hR m0 hp with ⟨r, hstep⟩ | ⟨t, hstep⟩
  · exact .inl ((hstep m h).trans (hstep m0 h0).symm)
  rcases lt_or_ge (p + 4 + 1) eof with hcount | hcount
  · exact .inl (by rw [hstep m h, hstep m0 h0, h.numvalues_eq hcount])
  · refine .inr (.inr ⟨_, _, hstep m h, hstep m0 h0, ?_, ?_⟩)
    all_goals
      refine recvMessage_behind R ?_
      omega

theorem recvVector_listed (hR : R.Listed) (m : Mem) (eof p : Nat) (t : τ) (saw : List τ) :
    let nv := numvaluesAt m p
    let fresh := R.fresh t saw (lvaAt m p)
    recvStep R m eof ⟨p, .vectors t, saw⟩ =
      if m p = 0 ∧ m (p + 1) = 0 then ([], .inl ⟨p, .messages 0, saw⟩)
      else if nv = 0 then
        ([⟨t, p, nv, fresh, []⟩],
          .inl ⟨p + 2 + R.attributeLength t, .vectors t, R.sawAfter t saw (lvaAt m p)⟩)
      else if R.Drops eof t p nv then ([⟨t, p, nv, fresh, []⟩], .inr .failed)
      else ([⟨t, p, nv, fresh, decodeVector R m p t nv⟩],
        .inl ⟨p + R.vectorLength t nv, .vectors t, R.sawAfter t saw (lvaAt m p)⟩) := by
  intro nv fresh
  simp only [recvStep, recvVector, hR.skipsNull, if_true]
  by_cases hend : m p = 0 ∧ m (p + 1) = 0
  · rw [if_pos hend, if_pos hend]
  rw [if_neg hend, if_neg hend]
  by_cases hzero : numvaluesAt m p = 0
  · rw [if_pos hzero, if_pos hzero]
    rfl
  rw [if_neg hzero, if_neg hzero]
  by_cases hroom : eof ≤ p + 2 + nv / 3 + (if R.fourPacked t then nv / 4 else 0)
  · rw [if_pos hroom, if_pos (show R.Drops eof t p nv from .inl hroom)]
    rfl
  rw [if_neg hroom]
  have hiff : (R.fourPacked t && decide (eof ≤ p + R.vectorLength t nv)) = true ↔
      R.fourPacked t = true ∧ eof ≤ p + R.vectorLength t nv := by
    rw [Bool.and_eq_true, decide_eq_true_iff]
  by_cases hedge : R.fourPacked t = true ∧ eof ≤ p + R.vectorLength t nv
  · rw [if_pos (hiff.mpr hedge), if_pos (show R.Drops eof t p nv from .inr hedge)]
    rfl
  · rw [if_neg (mt hiff.mp hedge),
      if_neg (show ¬ R.Drops eof t p nv from not_or.mpr ⟨hroom, hedge⟩)]
    rfl

theorem SameAt.vector (h : SameAt R m m0 eof ⟨p, .vectors t, saw⟩)
    (hR : R.Listed) (hs : R.VectorSettled m0 eof saw t p) :
    recvStep R m eof ⟨p, .vectors t, saw⟩ = recvStep R m0 eof ⟨p, .vectors t, saw⟩ ∨
      Parts R m m0 eof ⟨p, .vectors t, saw⟩ := by
  unfold Reception.VectorSettled at hs
  split at hs
  case isTrue hp =>
    left
    rw [recvVector_listed hR, recvVector_listed hR, h.agree p (by omega), h.agree (p + 1) hp,
      h.numvalues_eq hp, lvaAt_cut (h.agree p (by omega))]
    split
    · rfl
    case isFalse hend =>
      split
      · rfl
      case isFalse hzero =>
        split
        · rfl
        case isFalse hdrop =>
          -- only a vector inside the frame is decoded
          have hin : p + R.vectorLength t (numvaluesAt m0 p) ≤ eof :=
            (hs.resolve_left hend).resolve_right fun hs => (hs.2.elim hzero hdrop).elim
          rw [decodeVector_congr R fun i _ hi => h.agree i (by omega)]
  case isFalse hp =>
    obtain ⟨hlt, hfresh, hbits⟩ := hs
    obtain rfl : eof = p + 1 := by omega
    -- the vector has values, whatever the second octet of its header is
    have hfail : ∀ m' : Mem, m' p = m0 p → recvStep R m' (p + 1) ⟨p, .vectors t, saw⟩ =
        ([⟨t, p, numvaluesAt m' p, false, []⟩], .inr .failed) := by
      intro m' hfirst
      have hlow := (m' (p + 1)).toNat_lt
      have hcount : numvaluesAt m' p ≠ 0 := by
        simp only [numvaluesAt, word, hfirst]
        omega
      have hend : ¬ (m' p = 0 ∧ m' (p + 1) = 0) := fun hend =>
        hcount (by rw [numvaluesAt, word_eq_zero.mpr hend])
      rw [recvVector_listed hR, if_neg hend, if_neg hcount, if_pos (R.drops_cut (by omega)),
        lvaAt_cut hfirst, hfresh]
    exact .inr (.inl ⟨_, _, hfail m (h.agree p hlt), hfail m0 rfl, ⟨rfl, rfl⟩, rfl, rfl⟩)

theorem SameAt.step (h : SameAt R m m0 eof s) (hR : R.Listed)
    (hs : RecvState.VectorSettled R m0 eof s) :
    recvStep R m eof s = recvStep R m0 eof s ∨ Parts R m m0 eof s := by
  obtain ⟨p, phase, saw⟩ := s
  cases phase with
  | messages e => exact h.message hR
  | vectors t => exact h.vector hR (hs t rfl)

theorem recvVector_quiet (hR : R.Listed) (hfresh : R.fresh t saw (lvaAt m p) = false)
    (h : numvaluesAt m p = 0 ∨ R.Drops eof t p (numvaluesAt m p)) :
    ∀ q ∈ (recvStep R m eof ⟨p, .vectors t, saw⟩).1, q.Quiet := by
  rw [recvVector_listed hR, hfresh]
  intro q hq
  split at hq
  · cases hq
  split at hq
  · obtain rfl := mem_singleton.mp hq
    exact ⟨rfl, rfl⟩
  case isFalse hzero =>
    rw [if_pos (h.resolve_left hzero)] at hq
    obtain rfl := mem_singleton.mp hq
    exact ⟨rfl, rfl⟩

theorem RecvState.VectorSettled.inside (hR : R.Listed) (hs : RecvState.VectorSettled R m eof s) :
    ∀ q ∈ (recvStep R m eof s).1, ¬ q.Quiet → q.Inside R eof := by
  obtain ⟨p, phase, saw⟩ := s
  intro q hq hne
  cases phase with
  | messages e =>
    simp only [recvStep, recvMessage] at hq
    repeat' split at hq
    all_goals cases hq
  | vectors t =>
    obtain ⟨hoff, htype, hnv⟩ := recvVector_parsed hq
    rw [Parsed.Inside, hoff, htype, hnv]
    have hs : R.VectorSettled m eof saw t p := hs t rfl
    unfold Reception.VectorSettled at hs
    split at hs
    case isTrue =>
      rcases hs with hend | hin | ⟨hfresh, hdrop⟩
      · rw [recvVector_listed hR, if_pos hend] at hq
        cases hq
      · exact hin
      · exact absurd (recvVector_quiet hR hfresh hdrop q hq) hne
    case isFalse hp =>
      have hdrop : R.Drops eof t p (numvaluesAt m p) := R.drops_cut (by omega)
      exact absurd (recvVector_quiet hR hs.2.1 (.inr hdrop) q hq) hne

theorem Parts.alike (h : Parts R m m0 eof s) (stuck : Rc) (fuel : Nat) :
    Alike R eof src (walk (recvStep R m0 eof) stuck fuel s) (walk (recvStep R m eof) stuck fuel s) := by
  cases fuel with
  | zero => exact .refl ..
  | succ fuel =>
    rcases h with ⟨q, q0, hm, hm0, hq, hq0⟩ | ⟨s1, s0, hm, hm0, hend, hend0⟩
    · rw [walk_halt hm, walk_halt hm0]
      have hraises : q.raises src = [] := Parsed.quiet_iff.mp hq
      refine ⟨?_, rfl, fun _ q' hq' hne => ?_⟩
      · simp only [raises, flatMap_singleton, hraises, Parsed.quiet_iff.mp hq0]
      · obtain rfl := mem_singleton.mp hq'
        exact absurd hraises hne
    · rw [walk, walk, hm, hm0]
      refine Alike.put [] ?_
      cases fuel with
      | zero => exact .refl ..
      | succ fuel =>
        rw [walk_halt hend, walk_halt hend0]
        exact .refl ..

/-- Every vector the receiver comes to is settled. -/
def VectorsSettled (R : Reception τ κ ν) (data : List UInt8) : Prop :=
  ∀ n out s, Steps (recvStep R (recvBuffer data cleared) data.length) n recvStart out s →
    s.VectorSettled R (recvBuffer data cleared) data.length

/-- The receiver comes to a message for which the octet behind the frame decides. -/
def EdgeReached (R : Reception τ κ ν) (data : List UInt8) : Prop :=
  ∃ n out s, Steps (recvStep R (recvBuffer data cleared) data.length) n recvStart out s ∧
    s.AtEdge R (recvBuffer data cleared) data.length

def recvFrame (R : Reception τ κ ν) (etype : Nat) (dest data : List UInt8) (rest : Mem) :
    List (Parsed τ ν) × Rc :=
  recvMsg R etype dest (recvBuffer data rest) data.length

theorem recvFrame_eq (R : Reception τ κ ν)
    (ha : Addressed etype dest (recvBuffer data cleared) data.length) (rest : Mem) :
    recvFrame R etype dest data rest =
      walk (recvStep R (recvBuffer data rest) data.length) .overrun recvFuel recvStart :=
  (recvMsg_eq R).trans (if_pos (sameFrame_recvBuffer.addressed.mpr ha))

/-- A receiver does alike while it is settled and the octet behind the frame does not decide. -/
theorem VectorsSettled.alike (h : VectorsSettled R data) (hR : R.Listed)
    (ha : Addressed etype dest (recvBuffer data cleared) data.length) (hedge : ¬ EdgeReached R data)
    (src : List UInt8) (rest : Mem) : Alike R data.length src (recvFrame R etype dest data cleared)
      (recvFrame R etype dest data rest) := by
  rw [recvFrame_eq R ha, recvFrame_eq R ha]
  refine walk_rel (Alike.refl R _ src) (fun out x y => Alike.put out) fun n out s hs => ?_
  have hsame : SameAt R (recvBuffer data rest) (recvBuffer data cleared) data.length s :=
    sameAt_recvBuffer fun hat => hedge ⟨n, out, s, hs, hat⟩
  rcases hsame.step hR (h n out s hs) with heq | hparts
  · exact .inl heq.symm
  · exact .inr fun fuel => hparts.alike .overrun fuel

theorem VectorsSettled.inside (h : VectorsSettled R data) (hR : R.Listed)
    (ha : Addressed etype dest (recvBuffer data cleared) data.length) :
    ∀ q ∈ (recvFrame R etype dest data cleared).1, q.raises src ≠ [] → q.Inside R data.length := by
  rw [recvFrame_eq R ha]
  exact forall_walk fun n out s hs q hq hne =>
    (h n out s hs).inside hR q hq (mt Parsed.quiet_iff.mp hne)

/-- What a receiver raises and returns is a matter of the frame `data` alone, and it raises
nothing for a vector that is not completely inside the frame. -/
structure ReceivedOnly (R : Reception τ κ ν) (data : List UInt8)
    (recv : (rest : Mem) → List (Parsed τ ν) × Rc) : Prop where
  events : ∀ rest rest', raises (sourceAddr data) (recv rest).1 =
    raises (sourceAddr data) (recv rest').1
  rc : ∀ rest rest', (recv rest).2 = (recv rest').2
  inside : ∀ rest, ∀ q ∈ (recv rest).1, q.raises (sourceAddr data) ≠ [] → q.Inside R data.length

section Received

variable {R : Reception τ κ ν} {etype : Nat} {dest data : List UInt8}

theorem receivedOnly_of_settled (hR : R.Listed)
    (h : Addressed etype dest (recvBuffer data cleared) data.length →
      VectorsSettled R data ∧ ¬ EdgeReached R data) :
    ReceivedOnly R data (recvFrame R etype dest data) := by
  by_cases ha : Addressed etype dest (recvBuffer data cleared) data.length
  · obtain ⟨hsettled, hedge⟩ := h ha
    have halike := hsettled.alike hR ha hedge (sourceAddr data)
    exact ⟨fun rest rest' => (halike rest).events.symm.trans (halike rest').events,
      fun rest rest' => (halike rest).rc.symm.trans (halike rest').rc,
      fun rest => (halike rest).inside (hsettled.inside hR ha)⟩
  · have hnot : ∀ rest, recvFrame R etype dest data rest = ([], .failed) := fun rest =>
      (recvMsg_eq R).trans (if_neg (mt sameFrame_recvBuffer.addressed.mp ha))
    constructor <;> simp [hnot, implies_true, not_mem_nil]

end Received

end Settled

theorem msrp_listed : msrpReception.Listed where
  listLength := rfl
  skipsNull := rfl
  skipsUnknown _ := rfl
  length_pos t := by cases t <;> decide

/-- MSRP reception depends on the received octets only, if every vector that is come to is settled
and the octet just behind the frame nowhere decides whether a list is taken. -/
theorem msrpRecvMsg_receivedOnly (frame : RecvFrame)
    (h : Addressed msrpEtype msrpAddr (recvBuffer frame.val cleared) frame.val.length →
      VectorsSettled msrpReception frame.val ∧ ¬ EdgeReached msrpReception frame.val) :
    ReceivedOnly msrpReception frame.val (msrpRecvMsg frame.val) :=
  receivedOnly_of_settled msrp_listed h

def domainFrame : List UInt8 :=
  ethHeader msrpAddr [0x02, 0, 0, 0, 0, 0x01] msrpEtype msrpProtVer ++
    [msrpDomainType, 4, 0, 9, 0, 1, 6, 3, 0, 2, 0, 0, 0, 0, 0]

theorem steps_domainFrame {s : RecvState MsrpType}
    (h : Steps (recvStep msrpReception (recvBuffer domainFrame cleared) domainFrame.length) n
      recvStart out s) :
    s = recvStart ∨ s = ⟨19, .vectors .domain, []⟩ ∨ s = ⟨26, .vectors .domain, []⟩ ∨
      s = ⟨26, .messages 0, []⟩ ∨ s = ⟨28, .messages 1, []⟩ := by
  rcases h.next (t := ⟨19, .vectors .domain, []⟩) (by decide +kernel) with hs | ⟨n, out, h⟩
  · exact .inl hs
  rcases h.next (t := ⟨26, .vectors .domain, []⟩) (by decide +kernel) with hs | ⟨n, out, h⟩
  · exact .inr (.inl hs)
  rcases h.next (t := ⟨26, .messages 0, []⟩) (by decide +kernel) with hs | ⟨n, out, h⟩
  · exact .inr (.inr (.inl hs))
  rcases h.next (t := ⟨28, .messages 1, []⟩) (by decide +kernel) with hs | ⟨n, out, h⟩
  · exact .inr (.inr (.inr (.inl hs)))
  · exact .inr (.inr (.inr (.inr (h.halted (r := .ok) (by decide +kernel)))))

/-- One domain is declared, and the frame is complete. -/
theorem msrpRecvMsg_receivedOnly_domain :
    Addressed msrpEtype msrpAddr (recvBuffer domainFrame cleared) domainFrame.length ∧
      ReceivedOnly msrpReception domainFrame (msrpRecvMsg domainFrame) := by
  refine ⟨by decide +kernel, msrpRecvMsg_receivedOnly ⟨domainFrame, by decide⟩ fun _ => ⟨?_, ?_⟩⟩
  · intro n out s h t ht
    rcases steps_domainFrame h with rfl | rfl | rfl | rfl | rfl <;> cases ht
    · exact .inr (.inl (by decide +kernel))
    · exact .inl ⟨rfl, rfl⟩
  · rintro ⟨n, out, s, h, hat⟩
    rcases steps_domainFrame h with rfl | rfl | rfl | rfl | rfl
    · exact absurd hat.2.1 (by decide +kernel)
    · exact hat
    · exact hat
    · exact absurd hat.2.1 (by decide +kernel)
    · exact absurd hat.2.1 (by decide +kernel)

def truncatedDomains : List UInt8 :=
  ethHeader msrpAddr [0x02, 0, 0, 0, 0, 0x01] msrpEtype msrpProtVer ++
    [msrpDomainType, 4, 0, 9, 0, 20, 6, 3, 0, 2, 0, 0, 0, 0, 0]

/-- All twenty are declared, and the events of the last five stand behind the frame; so does the
header that decides about the result. -/
theorem truncatedDomains_raise :
    let ofNumber := fun k (ps : List (Parsed MsrpType MsrpValue)) =>
      ps.flatMap fun q => q.events.filter fun e => e.number = k
    truncatedDomains.length = 30 ∧
      (msrpRecvMsg truncatedDomains cleared).1.map (fun q => (q.offset, q.numvalues)) = [(19, 20)] ∧
      ofNumber 18 (msrpRecvMsg truncatedDomains cleared).1 = [⟨18, .new, .domain ⟨24, 21, 21, 2⟩⟩] ∧
      ofNumber 18 (msrpRecvMsg truncatedDomains fun _ => 180).1 =
        [⟨18, .lv, .domain ⟨24, 21, 21, 2⟩⟩] ∧
      (msrpRecvMsg truncatedDomains cleared).2 = .ok ∧
      (msrpRecvMsg truncatedDomains fun _ => 180).2 = .failed ∧
      ¬ ReceivedOnly msrpReception truncatedDomains (msrpRecvMsg truncatedDomains) := by
  refine ⟨by decide, by decide +kernel, by decide +kernel, by decide +kernel, by decide +kernel,
    by decide +kernel, fun h => ?_⟩
  exact absurd (h.rc cleared fun _ => 180) (by decide +kernel)

end OpenAvb.Mrpd
