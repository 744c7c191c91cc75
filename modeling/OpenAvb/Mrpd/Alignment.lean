import OpenAvb.Counting
import OpenAvb.Mrpd.Contain
import OpenAvb.Mrpd.MsrpCodec

/-!
# Which value an event is applied to

A receiver counts the values of a vector as it takes the events from their
octets. The MSRP receiver passes over an octet that is no three events without
counting the values that go with it.
-/

namespace OpenAvb.Mrpd

open AttributeEvent TalkListen List

variable {τ κ ν : Type}

section

variable (R : Reception τ κ ν)
include R

theorem Reception.after_add (j k : Nat) (c : κ) : R.after k (R.after j c) = R.after (j + k) c := by
  induction j generalizing c with
  | zero => rw [zero_add]; rfl
  | succ j ih => rw [Nat.succ_add, after, after, ih]

theorem Reception.valueAt_after (j k : Nat) (c : κ) :
    R.valueAt (R.after j c) k = R.valueAt c (j + k) := by
  rw [valueAt, valueAt, R.after_add]

theorem decodeDigits_locals : (decodeDigits R c k ds).2 = R.after ds.length c := by
  induction ds generalizing c k with
  | nil => rfl
  | cons d ds ih =>
    rw [length_cons, Reception.after, ← @ih _ (k + 1)]
    simp only [decodeDigits]
    split <;> rfl

theorem mem_decodeDigits :
    e ∈ (decodeDigits R c k ds).1 ↔ ∃ n d, ds[n]? = some d ∧ e.number = k + n ∧
      ofCode d = some e.event ∧ R.valueAt c n = some e.value := by
  induction ds generalizing c k with
  | nil => simp [decodeDigits]
  | cons d ds ih =>
    have hsplit : (∃ n d', (d :: ds)[n]? = some d' ∧ e.number = k + n ∧
          ofCode d' = some e.event ∧ R.valueAt c n = some e.value) ↔
        (e.number = k ∧ ofCode d = some e.event ∧ (R.take c).1 = some e.value) ∨
          e ∈ (decodeDigits R (R.take c).2 (k + 1) ds).1 := by
      rw [ih]
      constructor
      · rintro ⟨_ | n, d', hd, hnumber, hevent, hvalue⟩
        · obtain rfl := Option.some.inj hd
          exact .inl ⟨hnumber, hevent, hvalue⟩
        · exact .inr ⟨n, d', hd, by omega, hevent, hvalue⟩
      · rintro (⟨hnumber, hevent, hvalue⟩ | ⟨n, d', hd, hnumber, hevent, hvalue⟩)
        · exact ⟨0, d, rfl, hnumber, hevent, hvalue⟩
        · exact ⟨n + 1, d', hd, by omega, hevent, hvalue⟩
    rw [hsplit, decodeDigits]
    obtain ⟨number, event, value⟩ := e
    cases (R.take c).1 <;> cases ofCode d <;> simp [eq_comm]

end

section

variable (R : Reception τ κ ν)

def Reception.passesOver (b : UInt8) : Bool := R.discards && 5 < b.toNat / 36

/-- Event number `n` of the octets `bs`, `nv` events being there, is `e`. It goes with the value
the receiver has counted to: the octets it has passed over are missing from the count. -/
def Reception.Says (c : κ) (nv : Nat) (bs : List UInt8) (n : Nat)
    (event : AttributeEvent) (value : ν) : Prop :=
  n < nv ∧ ∃ b, bs[n / 3]? = some b ∧ R.passesOver b = false ∧
    ofCode ((digits3 b).getD (n % 3) 0) = some event ∧
    R.valueAt c (n - 3 * (bs.take (n / 3)).countP R.passesOver) = some value

theorem exists_three_iff {P : Nat → Prop} : (∃ n, P n) ↔ (∃ n < 3, P n) ∨ ∃ n, P (n + 3) := by
  constructor
  · rintro ⟨n, h⟩
    rcases lt_or_ge n 3 with hn | hn
    · exact .inl ⟨n, hn, h⟩
    · obtain ⟨j, rfl⟩ := Nat.exists_eq_add_of_le' hn
      exact .inr ⟨j, h⟩
  · rintro (⟨n, -, h⟩ | ⟨n, h⟩)
    · exact ⟨n, h⟩
    · exact ⟨n + 3, h⟩

theorem Reception.says_first (hn : n < 3) :
    R.Says c nv (b :: bs) n event value ↔ n < nv ∧ R.passesOver b = false ∧
      ofCode ((digits3 b).getD n 0) = some event ∧ R.valueAt c n = some value := by
  unfold Says
  rw [Nat.div_eq_of_lt hn, Nat.mod_eq_of_lt hn]
  simp

theorem Reception.says_passed (hb : R.passesOver b = true) :
    R.Says c nv (b :: bs) (n + 3) event value ↔ R.Says c (nv - min 3 nv) bs n event value := by
  unfold Says
  rw [Nat.add_div_right n (by omega), Nat.add_mod_right, take_succ_cons,
    countP_cons_of_pos hb, mul_add, Nat.add_sub_add_right, getElem?_cons_succ]
  refine and_congr_left fun _ => ?_
  omega

theorem Reception.says_counted (hb : R.passesOver b = false) :
    R.Says c nv (b :: bs) (n + 3) event value ↔
      R.Says (R.after (min 3 nv) c) (nv - min 3 nv) bs n event value := by
  have hcount : (bs.take (n / 3)).countP R.passesOver ≤ n / 3 :=
    countP_le_length.trans (length_take_le _ _)
  unfold Says
  rw [Nat.add_div_right n (by omega), Nat.add_mod_right, take_succ_cons,
    countP_cons_of_neg (by rw [hb]; decide), getElem?_cons_succ, R.valueAt_after]
  have hlt : n + 3 < nv ↔ n < nv - min 3 nv := by omega
  rw [hlt]
  refine and_congr_right fun hn => ?_
  rw [show min 3 nv + (n - 3 * (bs.take (n / 3)).countP R.passesOver) =
    n + 3 - 3 * (bs.take (n / 3)).countP R.passesOver by omega]

theorem digits3_getElem : ((digits3 b).take (min 3 nv))[n]? = some d ↔
    n < 3 ∧ n < nv ∧ (digits3 b).getD n 0 = d := by
  rw [getElem?_take]
  rcases lt_or_ge n (min 3 nv) with hn | hn
  · have hlen : n < (digits3 b).length := lt_of_lt_of_le hn (min_le_left 3 nv)
    rw [if_pos hn, getD_eq_getElem?_getD, getElem?_eq_getElem hlen, Option.getD_some,
      Option.some_inj]
    exact ⟨fun h => ⟨by omega, by omega, h⟩, fun h => h.2.2⟩
  · rw [if_neg (Nat.not_lt.mpr hn)]
    exact iff_of_false nofun fun h => by omega

theorem mem_decodeOctets :
    e ∈ decodeOctets R c k nv bs ↔ ∃ n, R.Says c nv bs n e.event e.value ∧ e.number = k + n := by
  induction bs generalizing c k nv with
  | nil => simp [decodeOctets, Reception.Says]
  | cons b bs ih =>
    rw [exists_three_iff]
    have hshift : ∀ n, k + 3 + n = k + (n + 3) := by omega
    by_cases hpass : R.passesOver b = true
    · have hnone : ¬ ∃ n < 3, R.Says c nv (b :: bs) n e.event e.value ∧ e.number = k + n := by
        rintro ⟨n, hn, hsays, -⟩
        rw [R.says_first hn, hpass] at hsays
        cases hsays.2.1
      rw [or_iff_right hnone, decodeOctets]
      show e ∈ (if R.passesOver b then _ else _) ↔ _
      rw [if_pos hpass, ih]
      simp only [R.says_passed hpass, hshift]
    · rw [Bool.not_eq_true] at hpass
      have hlen : ((digits3 b).take (min 3 nv)).length = min 3 nv := by
        rw [length_take]
        exact min_eq_left (min_le_left 3 nv)
      rw [decodeOctets]
      show e ∈ (if R.passesOver b then _ else _ ++ _) ↔ _
      rw [if_neg (by rw [hpass]; decide), mem_append, ih, decodeDigits_locals, hlen,
        mem_decodeDigits]
      simp only [R.says_counted hpass, hshift]
      refine or_congr_left ?_
      constructor
      · rintro ⟨n, d, hd, hnumber, hevent, hvalue⟩
        obtain ⟨hn, hnv, rfl⟩ := digits3_getElem.mp hd
        exact ⟨n, hn, (R.says_first hn).mpr ⟨hnv, hpass, hevent, hvalue⟩, hnumber⟩
      · rintro ⟨n, hn, hsays, hnumber⟩
        obtain ⟨hnv, -, hevent, hvalue⟩ := (R.says_first hn).mp hsays
        exact ⟨n, _, digits3_getElem.mpr ⟨hn, hnv, rfl⟩, hnumber, hevent, hvalue⟩

def Reception.firstvalAt (m : Mem) (p : Nat) (t : τ) (numvalues : Nat) : κ :=
  R.firstval t (read m (p + 2) (R.attributeLength t))
    (if R.fourPacked t then
      unpack4 numvalues
        (read m (p + 2 + R.attributeLength t + packed3 numvalues) ((numvalues + 3) / 4)) else [])

theorem mem_decodeVector : e ∈ decodeVector R m p t nv ↔ e.number < nv ∧
      R.passesOver (m (p + 2 + R.attributeLength t + e.number / 3)) = false ∧
      ofCode (digitAt m (p + 2 + R.attributeLength t) e.number) = some e.event ∧
      R.valueAt (R.firstvalAt m p t nv) (e.number -
        3 * (read m (p + 2 + R.attributeLength t) (e.number / 3)).countP R.passesOver) =
          some e.value := by
  have hdecode : decodeVector R m p t nv = decodeOctets R (R.firstvalAt m p t nv) 0 nv
      (read m (p + 2 + R.attributeLength t) (packed3 nv + 1)) := rfl
  have htake : ∀ n, n < nv → (read m (p + 2 + R.attributeLength t) (packed3 nv + 1)).take (n / 3) =
      read m (p + 2 + R.attributeLength t) (n / 3) := by
    intro n hn
    obtain ⟨j, hj⟩ : ∃ j, packed3 nv + 1 = n / 3 + j :=
      Nat.exists_eq_add_of_le (by simp only [packed3]; omega)
    rw [hj, read_add, take_left' length_read]
  simp only [hdecode, mem_decodeOctets, zero_add, exists_eq_right']
  refine and_congr_right fun hn => ?_
  rw [getElem_read (by simp only [packed3]; omega), htake _ hn]
  simp only [Option.some.injEq, exists_eq_left']
  rfl

end

theorem recvStep_events [DecidableEq τ] {R : Reception τ κ ν} (hR : ∀ t, 0 < R.attributeLength t)
    (h : q ∈ (recvStep R m eof s).1) (hin : q.Inside R eof) : q.numvalues = numvaluesAt m q.offset ∧
      q.events = if R.fourPacked q.type ∧ eof ≤ q.offset + R.vectorLength q.type q.numvalues then []
        else decodeVector R m q.offset q.type q.numvalues := by
  obtain ⟨p, phase, saw⟩ := s
  cases phase with
  | messages endmarks =>
    simp only [recvStep, recvMessage] at h
    repeat' split at h
    all_goals cases h
  | vectors t =>
    obtain ⟨hoff, htype, hnv⟩ := recvVector_parsed h
    rw [Parsed.Inside, hoff, htype, hnv] at hin
    have hpos := hR t
    have hroom : ¬ eof ≤ p + 2 + numvaluesAt m p / 3 +
        (if R.fourPacked t then numvaluesAt m p / 4 else 0) := by
      simp only [Reception.vectorLength, Reception.packed4, packed3] at hin
      split at hin
      case isTrue hfour => rw [if_pos hfour]; omega
      case isFalse hfour => rw [if_neg hfour]; omega
    have hnil : decodeVector R m p t 0 = [] := decodeOctets_zero R
    rw [hoff, htype, hnv]
    refine ⟨rfl, ?_⟩
    simp only [recvStep, recvVector, if_neg hroom, Bool.and_eq_true, decide_eq_true_iff] at h
    split at h
    · cases h
    split at h
    case isTrue hzero =>
      have hevents : q.events = [] := by
        split at h <;> obtain rfl := mem_singleton.mp h <;> rfl
      rw [hevents, hzero, hnil, ite_self]
    case isFalse =>
      split at h
      case isTrue hedge =>
        obtain rfl := mem_singleton.mp h
        exact (if_pos hedge).symm
      case isFalse hedge =>
        obtain rfl := mem_singleton.mp h
        exact (if_neg hedge).symm

def TalkListen.plus (t : TalkListen) (k : Nat) : TalkListen :=
  { t with streamID := t.streamID.plus k, destAddr := t.destAddr.plus k }

def Domain.plus (d : Domain) (k : Nat) : Domain :=
  { d with
    srClassID := d.srClassID + UInt8.ofNat k
    srClassPriority := d.srClassPriority + UInt8.ofNat k
    neighborSRclassPriority := d.neighborSRclassPriority + UInt8.ofNat k }

theorem TalkListen.next_iterate (t : TalkListen) (j : Nat) :
    next^[j] t =
      { t with streamID := Octets.bumpTail^[j] t.streamID
               destAddr := Octets.bumpTail^[j] t.destAddr } := by
  induction j with
  | zero => rfl
  | succ j ih =>
    rw [Function.iterate_succ_apply', Function.iterate_succ_apply', Function.iterate_succ_apply', ih]
    rfl

theorem msrp_after_talker (failed : Bool) (t : TalkListen) (j : Nat) :
    msrpReception.after j (.talker failed t) = .talker failed (next^[j] t) := by
  induction j generalizing t with
  | zero => rfl
  | succ j ih => exact ih t.next

theorem msrp_after_listener (s : Octets 8) (substates : List Nat) (j : Nat) :
    msrpReception.after j (.listener s substates) =
      .listener (Octets.bumpTail^[j] s) (substates.drop j) := by
  induction j generalizing s substates with
  | zero => rfl
  | succ j ih =>
    cases substates with
    | nil =>
      rw [drop_nil]
      exact (ih s.bumpTail []).trans (by rw [drop_nil]; rfl)
    | cons x substates => exact ih s.bumpTail substates

theorem msrp_after_domain (d : Domain) (hd : d.neighborSRclassPriority = d.srClassPriority)
    (j : Nat) : msrpReception.after j (.domain d) = .domain (d.plus j) := by
  induction j generalizing d with
  | zero => simp [Reception.after, Domain.plus]
  | succ j ih =>
    refine (ih { d with
      srClassID := d.srClassID + 1
      srClassPriority := d.srClassPriority + 1
      neighborSRclassPriority := d.srClassPriority + 1 } rfl).trans ?_
    have hsucc : ∀ x : UInt8, x + 1 + UInt8.ofNat j = x + UInt8.ofNat (j + 1) := fun x => by
      rw [UInt8.ofNat_add, UInt8.add_assoc, UInt8.add_comm 1]
      rfl
    simp only [Domain.plus, hsucc, hd]

theorem TalkListen.next_eq_plus {t : TalkListen} (hj : j ≤ k) (hk : k < 256 ^ 5) :
    next^[j] t = t.plus k ↔ j = k ∧ number t.streamID.val.tail + k < 256 ^ 7 ∧
      number t.destAddr.val.tail + k < 256 ^ 5 := by
  have hstream : Octets.bumpTail^[j] t.streamID = t.streamID.plus k ↔ _ :=
    Octets.bumpTail_eq_plus hj (lt_trans hk (by decide))
  have hdest : Octets.bumpTail^[j] t.destAddr = t.destAddr.plus k ↔ _ :=
    Octets.bumpTail_eq_plus hj hk
  rw [t.next_iterate, plus]
  simp only [mk.injEq, and_true, hstream, hdest]
  exact and_and_left.symm

theorem Domain.plus_eq_plus {d : Domain} : d.plus j = d.plus k ↔ j % 256 = k % 256 := by
  have hbyte : ∀ x : UInt8, x + UInt8.ofNat j = x + UInt8.ofNat k ↔ j % 256 = k % 256 := by
    intro x
    rw [UInt8.add_right_inj, ← UInt8.toNat_inj]
    exact Iff.of_eq (congrArg₂ Eq UInt8.toNat_ofNat' UInt8.toNat_ofNat')
  simp only [plus, Domain.mk.injEq, hbyte, and_self, and_true]

section Vector

variable (m : Mem) (q : Parsed MsrpType MsrpValue)

def Parsed.eventsAt : Nat := q.offset + 2 + msrpReception.attributeLength q.type

/-- The octets before that of event number `k` that are no three events. -/
def Parsed.passed (k : Nat) : Nat := (read m q.eventsAt (k / 3)).countP (216 ≤ ·)

def Parsed.substateAt (k : Nat) : Nat := digit4At m (q.eventsAt + packed3 q.numvalues) k

def Parsed.valueAt (k : Nat) : MsrpValue :=
  let first := read m (q.offset + 2) (msrpReception.attributeLength q.type)
  match q.type with
  | .talkerAdv => .talker false ((ofFirst false first).plus k)
  | .talkerFailed => .talker true ((ofFirst true first).plus k)
  | .listener => .listener ((Octets.ofList 8 first).plus k) (q.substateAt m k)
  | .domain => .domain ((Domain.ofFirst first).plus k)

/-- An event is the one the vector has under its number, and about the value that goes with it. -/
def Parsed.Aligned (e : Numbered MsrpValue) : Prop :=
  e.number < q.numvalues ∧
    ofCode (digitAt m q.eventsAt e.number) = some e.event ∧
    e.value = q.valueAt m e.number

/-- Event number `k` is applied: its octet is one of three events, and for a listener there is
an octet behind the vector and the substate the receiver takes is no Ignore. -/
def Parsed.Applied (eof k : Nat) : Prop :=
  k < q.numvalues ∧ m (q.eventsAt + k / 3) < 216 ∧
    (q.type = .listener → q.offset + msrpReception.vectorLength q.type q.numvalues < eof ∧
      q.substateAt m (k - 3 * q.passed m k) ≠ msrpListenerIgnore)

/-- The receiver has counted to `k` at event number `k`: it has passed over no octet, and no
address has carried into its first octet. The octets of a domain count modulo 256. -/
def Parsed.InStep (k : Nat) : Prop :=
  let streamFits := number (read m (q.offset + 3) 7) + k < 256 ^ 7
  let destFits := number (read m (q.offset + 11) 5) + k < 256 ^ 5
  match q.type with
  | .talkerAdv | .talkerFailed => q.passed m k = 0 ∧ streamFits ∧ destFits
  | .listener => q.passed m k = 0 ∧ streamFits
  | .domain => 256 ∣ q.passed m k

end Vector

theorem msrp_passesOver (b : UInt8) : msrpReception.passesOver b = decide (216 ≤ b) := by
  have hdiv : 5 < b.toNat / 36 ↔ 216 ≤ b := by
    rw [UInt8.le_iff_toNat_le]
    show 5 < b.toNat / 36 ↔ 216 ≤ b.toNat
    omega
  show (true && decide (5 < b.toNat / 36)) = _
  rw [Bool.true_and, decide_eq_decide]
  exact hdiv

def Parsed.taken (m : Mem) (q : Parsed MsrpType MsrpValue) (k : Nat) : Option MsrpValue :=
  msrpReception.valueAt (msrpReception.firstvalAt m q.offset q.type q.numvalues)
    (k - 3 * q.passed m k)

theorem Parsed.passed_le (m : Mem) (q : Parsed MsrpType MsrpValue) (k : Nat) :
    3 * q.passed m k ≤ k := by
  have hcount : q.passed m k ≤ (read m q.eventsAt (k / 3)).length := countP_le_length
  rw [length_read] at hcount
  omega

theorem talker_inStep {failed : Bool} (hL : 25 ≤ L) (hj : j ≤ k) (hk : k < 8192) :
    next^[j] (ofFirst failed (read m (p + 2) L)) =
        (ofFirst failed (read m (p + 2) L)).plus k ↔
      j = k ∧ number (read m (p + 3) 7) + k < 256 ^ 7 ∧ number (read m (p + 11) 5) + k < 256 ^ 5 := by
  have hstream : (ofFirst failed (read m (p + 2) L)).streamID.val.tail = read m (p + 3) 7 := by
    rw [ofFirst, Octets.val_ofList_read (by omega)]
    rfl
  have hdest : (ofFirst failed (read m (p + 2) L)).destAddr.val.tail = read m (p + 11) 5 := by
    rw [ofFirst]
    rw [drop_read (by omega), Octets.val_ofList_read (by omega)]
    rfl
  rw [next_eq_plus hj (by omega), hstream, hdest]

def Parsed.counted (m : Mem) (q : Parsed MsrpType MsrpValue) (j : Nat) : MsrpValue :=
  let first := read m (q.offset + 2) (msrpReception.attributeLength q.type)
  match q.type with
  | .talkerAdv => .talker false (next^[j] (.ofFirst false first))
  | .talkerFailed => .talker true (next^[j] (.ofFirst true first))
  | .listener => .listener (Octets.bumpTail^[j] (.ofList 8 first)) (q.substateAt m j)
  | .domain => .domain ((Domain.ofFirst first).plus j)

variable {q : Parsed MsrpType MsrpValue}

theorem Parsed.taken_eq (hk : k < q.numvalues) :
    q.taken m k = some v ↔
      (q.type = .listener → q.substateAt m (k - 3 * q.passed m k) ≠ msrpListenerIgnore) ∧
        q.counted m (k - 3 * q.passed m k) = v := by
  unfold taken
  generalize hj : k - 3 * q.passed m k = j
  have hlt : j < q.numvalues := by omega
  obtain ⟨t, p, nv, la, events⟩ := q
  unfold Reception.valueAt Reception.firstvalAt counted
  cases t with
  | talkerAdv =>
    rw [show msrpReception.firstval .talkerAdv _ _ = .talker false _ from rfl, msrp_after_talker]
    simp [msrpReception, msrpTake]
  | talkerFailed =>
    rw [show msrpReception.firstval .talkerFailed _ _ = .talker true _ from rfl, msrp_after_talker]
    simp [msrpReception, msrpTake]
  | listener =>
    generalize hsubs : ite (msrpReception.fourPacked .listener = true) _ _ = substates
    have hsub : substates[j]? = some (substateAt m ⟨.listener, p, nv, la, events⟩ j) := by
      rw [← hsubs]
      exact getElem_unpack4_read hlt
    obtain ⟨hlen, hget⟩ := List.getElem?_eq_some_iff.mp hsub
    rw [show msrpReception.firstval .listener _ substates = .listener _ substates from rfl,
      msrp_after_listener, drop_eq_getElem_cons hlen, hget]
    simp only [msrpReception, msrpTake, forall_const]
    split
    case isTrue hignore => simp [hignore]
    case isFalse hignore => simp [hignore]
  | domain =>
    rw [show msrpReception.firstval .domain _ _ = .domain _ from rfl, msrp_after_domain _ rfl]
    simp [msrpReception, msrpTake]

theorem Parsed.counted_eq_valueAt (hk : k < q.numvalues) (hnv : q.numvalues < 8192) :
    q.counted m (k - 3 * q.passed m k) = q.valueAt m k ↔ q.InStep m k := by
  have hpassed := q.passed_le m k
  have hnone : k - 3 * q.passed m k = k ↔ q.passed m k = 0 := by omega
  unfold counted valueAt InStep
  cases q.type with
  | talkerAdv =>
    have hlength : 25 ≤ msrpReception.attributeLength .talkerAdv := by decide
    rw [MsrpValue.talker.injEq, and_iff_right rfl,
      talker_inStep hlength (Nat.sub_le _ _) (lt_trans hk hnv), hnone]
  | talkerFailed =>
    have hlength : 25 ≤ msrpReception.attributeLength .talkerFailed := by decide
    rw [MsrpValue.talker.injEq, and_iff_right rfl,
      talker_inStep hlength (Nat.sub_le _ _) (lt_trans hk hnv), hnone]
  | listener =>
    have hlength : 8 ≤ msrpReception.attributeLength .listener := by decide
    have htail : (Octets.ofList 8 (read m (q.offset + 2)
        (msrpReception.attributeLength .listener))).val.tail = read m (q.offset + 3) 7 := by
      rw [Octets.val_ofList_read hlength]
      rfl
    rw [MsrpValue.listener.injEq, Octets.bumpTail_eq_plus (Nat.sub_le _ _)
      (lt_trans (lt_trans hk hnv) (by decide)), htail, hnone, and_assoc]
    refine and_congr_right fun hzero => and_iff_left ?_
    rw [hnone.mpr hzero]
  | domain =>
    rw [MsrpValue.domain.injEq, Domain.plus_eq_plus]
    omega

theorem Parsed.mem_events
    (h : q.events = decodeVector msrpReception m q.offset q.type q.numvalues) :
    e ∈ q.events ↔ e.number < q.numvalues ∧ m (q.eventsAt + e.number / 3) < 216 ∧
      ofCode (digitAt m q.eventsAt e.number) = some e.event ∧
      q.taken m e.number = some e.value := by
  have hpass : msrpReception.passesOver = fun b => decide (216 ≤ b) := funext msrp_passesOver
  rw [h, mem_decodeVector, hpass, decide_eq_false_iff_not, UInt8.not_le]
  rfl

theorem ofCode_digitAt (h : m (p + k / 3) < 216) :
    ∃ event, ofCode (digitAt m p k) = some event := by
  have hlt : (m (p + k / 3)).toNat < 216 := UInt8.lt_iff_toNat_lt.mp h
  have hdigit : digitAt m p k < 6 := by
    unfold digitAt digits3
    rcases (by omega : k % 3 = 0 ∨ k % 3 = 1 ∨ k % 3 = 2) with h3 | h3 | h3
    all_goals
      rw [h3]
      simp only [getD_cons_zero, getD_cons_succ]
      omega
  have hsome : ∀ d < 6, (ofCode d).isSome := by decide
  exact Option.isSome_iff_exists.mp (hsome _ hdigit)

theorem msrpRecvMsg_events : ∀ q ∈ (msrpRecvMsg data rest).1, q.Inside msrpReception data.length →
      q.numvalues = numvaluesAt (recvBuffer data rest) q.offset ∧
        q.events = if msrpReception.fourPacked q.type ∧
            data.length ≤ q.offset + msrpReception.vectorLength q.type q.numvalues then []
          else decodeVector msrpReception (recvBuffer data rest) q.offset q.type q.numvalues := by
  have hlengths : ∀ t, 0 < msrpReception.attributeLength t := by
    intro t
    cases t <;> decide
  unfold msrpRecvMsg
  rw [recvMsg_eq]
  split
  · exact forall_walk fun n out s _ q hq hin => recvStep_events hlengths hq hin
  · nofun

/-- The events of a vector are applied to the values FirstValue + `k` that go with them iff the
receiver is in step at every event it applies. -/
theorem msrpRecvMsg_aligned_iff (data : List UInt8) (rest : Mem)
    (hq : q ∈ (msrpRecvMsg data rest).1) (hin : q.Inside msrpReception data.length) :
    (∀ e ∈ q.events, q.Aligned (recvBuffer data rest) e) ↔
      ∀ k, q.Applied (recvBuffer data rest) data.length k → q.InStep (recvBuffer data rest) k := by
  obtain ⟨hnv, hevents⟩ := msrpRecvMsg_events q hq hin
  generalize recvBuffer data rest = m at *
  have hmany : q.numvalues < 8192 := hnv ▸ Nat.mod_lt _ (by decide)
  split at hevents
  case isTrue hedge =>
    refine iff_of_true (by rw [hevents]; nofun) fun k hk => ?_
    have hlistener : q.type = .listener := of_decide_eq_true hedge.1
    exact absurd (hk.2.2 hlistener).1 (Nat.not_lt.mpr hedge.2)
  case isFalse hedge =>
    constructor
    · rintro h k ⟨hk, hb, hsub⟩
      obtain ⟨event, hevent⟩ := ofCode_digitAt hb
      have htaken := (Parsed.taken_eq hk).mpr ⟨fun ht => (hsub ht).2, rfl⟩
      have halign := (h ⟨k, event, _⟩ ((Parsed.mem_events hevents).mpr ⟨hk, hb, hevent, htaken⟩)).2.2
      exact (Parsed.counted_eq_valueAt hk hmany).mp halign
    · rintro h e he
      obtain ⟨hk, hb, hevent, htaken⟩ := (Parsed.mem_events hevents).mp he
      obtain ⟨hsub, hcounted⟩ := (Parsed.taken_eq hk).mp htaken
      refine ⟨hk, hevent, hcounted.symm.trans ((Parsed.counted_eq_valueAt hk hmany).mpr ?_)⟩
      refine h e.number ⟨hk, hb, fun ht => ⟨?_, hsub ht⟩⟩
      exact Nat.lt_of_not_le fun hle => hedge ⟨decide_eq_true ht, hle⟩

def listenerFrame (streamID : Octets 8) (numvalues : Nat) (events substates : List UInt8) :
    List UInt8 :=
  ethHeader msrpAddr [0x02, 0, 0, 0, 0, 0x01] msrpEtype msrpProtVer ++
    ([msrpListenerType, 8] ++ be16 (12 + events.length + substates.length) ++
      (be16 numvalues ++ streamID.val ++ events ++ substates ++ [0, 0, 0, 0]))

/-- Two values with an Ignore between two that are declared are counted all the same. -/
theorem msrpRecvMsg_aligned_ignores :
    let frame := listenerFrame (sampleStream 5) 4 [0, 0] [fourPack 2 0 0 1]
    let q : Parsed MsrpType MsrpValue := ⟨.listener, 19, 4, false,
      [⟨0, .new, .listener (sampleStream 5) 2⟩, ⟨3, .new, .listener (sampleStream 8) 1⟩]⟩
    q ∈ (msrpRecvMsg frame cleared).1 ∧ q.Inside msrpReception frame.length ∧
      ∀ e ∈ q.events, q.Aligned (recvBuffer frame cleared) e := by
  intro frame q
  have hq : q ∈ (msrpRecvMsg frame cleared).1 := by decide +kernel
  have hin : q.Inside msrpReception frame.length :=
    show 19 + msrpReception.vectorLength .listener 4 ≤ frame.length by decide
  have hsteps : ∀ k < 4, q.passed (recvBuffer frame cleared) k = 0 ∧
      number (read (recvBuffer frame cleared) 22 7) + k < 256 ^ 7 := by decide +kernel
  exact ⟨hq, hin, (msrpRecvMsg_aligned_iff frame cleared hq hin).mpr fun k hk => hsteps k hk.1⟩

/-- Behind an octet that is no three events, the fourth event is applied to the first value; and a
StreamID does not carry into its first octet. -/
theorem msrpRecvMsg_misaligned :
    let discarded := listenerFrame (sampleStream 5) 4 [0xFF, 0] [fourPack 2 2 2 1]
    let full := listenerFrame ⟨[0, 255, 255, 255, 255, 255, 255, 255], rfl⟩ 2 [0] [fourPack 2 2 0 0]
    let zero : Octets 8 := ⟨[0, 0, 0, 0, 0, 0, 0, 0], rfl⟩
    let one : Octets 8 := ⟨[1, 0, 0, 0, 0, 0, 0, 0], rfl⟩
    (msrpRecvMsg discarded cleared).1 =
        [⟨.listener, 19, 4, false, [⟨3, .new, .listener (sampleStream 5) 2⟩]⟩] ∧
      Parsed.valueAt (recvBuffer discarded cleared) ⟨.listener, 19, 4, false, []⟩ 3 =
        .listener (sampleStream 8) 1 ∧
      (msrpRecvMsg full cleared).1.flatMap (fun q => q.events.drop 1) =
        [⟨1, .new, .listener zero 2⟩] ∧
      Parsed.valueAt (recvBuffer full cleared) ⟨.listener, 19, 2, false, []⟩ 1 =
        .listener one 2 := by
  decide +kernel

/-- The first octet is never reached: a carry out of the others is lost. -/
theorem increments_iff (streamid : Octets 8) (macaddr : Octets 6) :
    (number (msrpIncrementStreamid streamid).val = (number streamid.val + 1) % 2 ^ 64 ↔
      number streamid.val.tail + 1 < 2 ^ 56) ∧
    (number (mmrpIncrementMacaddr macaddr).val = (number macaddr.val + 1) % 2 ^ 48 ↔
      number macaddr.val.tail + 1 < 2 ^ 40) :=
  ⟨Octets.number_bumpTail_iff (by decide), Octets.number_bumpTail_iff (by decide)⟩

theorem increment_keeps_first :
    let streamid : Octets 8 := ⟨[0, 255, 255, 255, 255, 255, 255, 255], rfl⟩
    number (msrpIncrementStreamid streamid).val = 0 ∧
      (number streamid.val + 1) % 2 ^ 64 = 2 ^ 56 := by
  decide

end OpenAvb.Mrpd
