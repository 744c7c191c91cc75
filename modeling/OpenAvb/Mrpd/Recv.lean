import OpenAvb.Run
import OpenAvb.Mrpd.Mrp

/-!
# Receiving a PDU

The receivers of the three applications walk a received frame message by
message and vector by vector. The frame stands in a buffer whose octets behind
the received ones may hold anything, so a receiver reads a total memory and the
number of octets received.
-/

namespace OpenAvb.Mrpd

/-- What tells receivers apart: types `τ`, values `ν`, and the locals `κ` to count values with. -/
structure Reception (τ κ ν : Type) where
  typeOf : UInt8 → Option τ
  attributeLength : τ → Nat
  listLength : Bool
  fourPacked : τ → Bool
  /-- A vector of no values is skipped; otherwise it makes the PDU malformed. -/
  skipsNull : Bool
  /-- A message of unknown type is skipped in a PDU of this protocol version. -/
  skipsUnknown : UInt8 → Bool
  /-- Only the first LeaveAll of the type counts. -/
  lvaOnce : τ → Bool
  /-- An event octet outside the legal range is passed over as a whole. -/
  discards : Bool
  firstval : τ → List UInt8 → List Nat → κ
  take : κ → Option ν × κ

structure Numbered (ν : Type) where
  number : Nat
  event : AttributeEvent
  value : ν
  deriving DecidableEq

structure Parsed (τ ν : Type) where
  type : τ
  (offset numvalues : Nat)
  leaveAll : Bool
  events : List (Numbered ν)
  deriving DecidableEq

/-- The result of a receiver. `overrun` stands for a walk that has left the buffer. -/
inductive Rc where
  | ok | failed | overrun
  deriving DecidableEq

variable {τ κ ν : Type}

def decodeDigits (R : Reception τ κ ν) : κ → (number : Nat) → List Nat → List (Numbered ν) × κ
  | c, _, [] => ([], c)
  | c, k, d :: ds =>
    let (out, c') := decodeDigits R (R.take c).2 (k + 1) ds
    match (R.take c).1, AttributeEvent.ofCode d with
    | some v, some e => (⟨k, e, v⟩ :: out, c')
    | _, _ => (out, c')

def decodeOctets (R : Reception τ κ ν) :
    κ → (number : Nat) → (numvalues : Nat) → List UInt8 → List (Numbered ν)
  | _, _, _, [] => []
  | c, k, numvalues, b :: bs =>
    let processed := min 3 numvalues
    if R.discards && 5 < b.toNat / 36 then
      decodeOctets R c (k + 3) (numvalues - processed) bs
    else
      let (out, c) := decodeDigits R c k ((digits3 b).take processed)
      out ++ decodeOctets R c (k + 3) (numvalues - processed) bs

def packed3 (numvalues : Nat) : Nat := (numvalues + 2) / 3

def Reception.packed4 (R : Reception τ κ ν) (t : τ) (numvalues : Nat) : Nat :=
  if R.fourPacked t then (numvalues + 3) / 4 else 0

def Reception.vectorLength (R : Reception τ κ ν) (t : τ) (numvalues : Nat) : Nat :=
  2 + R.attributeLength t + packed3 numvalues + R.packed4 t numvalues

def decodeVector (R : Reception τ κ ν) (m : Mem) (p : Nat) (t : τ) (numvalues : Nat) :
    List (Numbered ν) :=
  let events := p + 2 + R.attributeLength t
  let substates :=
    if R.fourPacked t then
      unpack4 numvalues (read m (events + packed3 numvalues) ((numvalues + 3) / 4))
    else []
  decodeOctets R (R.firstval t (read m (p + 2) (R.attributeLength t)) substates) 0 numvalues
    (read m events (packed3 numvalues + 1))

inductive Phase (τ : Type) where
  | messages (endmarks : Nat)
  | vectors (t : τ)
  deriving DecidableEq

structure RecvState (τ : Type) where
  ptr : Nat
  phase : Phase τ
  saw : List τ
  deriving DecidableEq

/-- `msrp_recv_msg_check_attrib_list_len`, the length field being at `p`. -/
def checkAttribListLen (m : Mem) (p eof : Nat) : Bool :=
  let listLen := word m p
  !(listLen < (m (p - 1)).toNat + 2 + 1) && !(eof ≤ p + listLen) &&
    (m (p + listLen) = 0 && m (p + listLen + 1) = 0)

def numvaluesAt (m : Mem) (p : Nat) : Nat := word m p % 8192

def lvaAt (m : Mem) (p : Nat) : Bool := word m p / 8192 = 1

abbrev Step (τ ν : Type) := List (Parsed τ ν) × (RecvState τ ⊕ Rc)

def recvMessage (R : Reception τ κ ν) (m : Mem) (eof : Nat) (s : RecvState τ)
    (endmarks : Nat) : Step τ ν :=
  let p := s.ptr
  if eof ≤ p + 2 then ([], .inr .ok)
  else if m p = 0 ∧ m (p + 1) = 0 then
    if endmarks + 1 < 2 then ([], .inl { s with ptr := p + 2, phase := .messages (endmarks + 1) })
    else ([], .inr .ok)
  else match R.typeOf (m p) with
    | none =>
      if R.skipsUnknown (m 14) then
        let skip := 2 + (m (p + 1)).toNat + (numvaluesAt m (p + 2) + 2) / 3
        ([], .inl { s with ptr := p + 2 + skip, phase := .messages 0 })
      else ([], .inr .failed)
    | some t =>
      if (m (p + 1)).toNat ≠ R.attributeLength t then ([], .inr .failed)
      else if R.listLength then
        if checkAttribListLen m (p + 2) eof then
          ([], .inl { s with ptr := p + 4, phase := .vectors t })
        else
          let skip := R.vectorLength t (numvaluesAt m (p + 4))
          ([], .inl { s with ptr := p + 4 + skip, phase := .messages 0 })
      else ([], .inl { s with ptr := p + 2, phase := .vectors t })

def recvVector [DecidableEq τ] (R : Reception τ κ ν) (m : Mem) (eof : Nat) (s : RecvState τ)
    (t : τ) : Step τ ν :=
  let p := s.ptr
  if m p = 0 ∧ m (p + 1) = 0 then ([], .inl { s with phase := .messages 0 })
  else
    let numvalues := numvaluesAt m p
    let leaveAll := lvaAt m p && !(R.lvaOnce t && s.saw.contains t)
    let saw := if leaveAll && R.lvaOnce t then t :: s.saw else s.saw
    let parsed : Parsed τ ν :=
      { type := t, offset := p, numvalues := numvalues, leaveAll := leaveAll, events := [] }
    if numvalues = 0 then
      if R.skipsNull then
        ([parsed], .inl { s with ptr := p + 2 + R.attributeLength t, saw := saw })
      else ([parsed], .inr .failed)
    else if eof ≤ p + 2 + numvalues / 3 + (if R.fourPacked t then numvalues / 4 else 0) then
      ([parsed], .inr .failed)
    else if R.fourPacked t && eof ≤ p + R.vectorLength t numvalues then
      ([parsed], .inr .failed)
    else
      ([{ parsed with events := decodeVector R m p t numvalues }],
        .inl { s with ptr := p + R.vectorLength t numvalues, saw := saw })

def recvStep [DecidableEq τ] (R : Reception τ κ ν) (m : Mem) (eof : Nat) (s : RecvState τ) :
    Step τ ν :=
  match s.phase with
  | .messages endmarks => recvMessage R m eof s endmarks
  | .vectors t => recvVector R m eof s t

def recvStart : RecvState τ := { ptr := 15, phase := .messages 0, saw := [] }

def recvFuel : Nat := 4 * maxFrameSize

/-- A receiver, on a frame of `bytes` octets: what it did with each vector, and its result. -/
def recvMsg [DecidableEq τ] (R : Reception τ κ ν) (etype : Nat) (dest : List UInt8) (m : Mem)
    (bytes : Nat) : List (Parsed τ ν) × Rc :=
  if bytes < 17 then ([], .failed)
  else if word m 12 ≠ etype then ([], .failed)
  else if read m 0 6 ≠ dest then ([], .failed)
  else walk (recvStep R m bytes) .overrun recvFuel recvStart

def cleared : Mem := fun _ => 0

inductive Raised (τ ν : Type) where
  | leaveAll (t : τ)
  | attribute (event : MrpEvent) (rattrib : Attribute ν)
  deriving DecidableEq

def sourceAddr (data : List UInt8) : List UInt8 := (data.drop 6).take 6

def received (src : List UInt8) (value : ν) : Attribute ν :=
  { alloc value with registrar := { (alloc value).registrar with macaddr := src } }

def Parsed.raises (src : List UInt8) (p : Parsed τ ν) : List (Raised τ ν) :=
  (if p.leaveAll then [.leaveAll p.type] else []) ++
    p.events.map fun e => .attribute e.event.received (received src e.value)

def raises (src : List UInt8) (ps : List (Parsed τ ν)) : List (Raised τ ν) :=
  ps.flatMap (Parsed.raises src)

/-! ## What the receivers compute on a well-formed PDU -/

open List

variable {τ κ ν : Type}

section

variable (R : Reception τ κ ν)

theorem decodeOctets_zero : decodeOctets R c k 0 bs = [] := by
  induction bs generalizing k with
  | nil => rfl
  | cons b bs ih => simp [decodeOctets, decodeDigits, ih]

theorem decodeOctets_pack3 (h : ∀ d ∈ ds, d < 6) :
    decodeOctets R c k ds.length (pack3 ds ++ bs) = (decodeDigits R c k ds).1 := by
  have keeps : ∀ x y z : Nat, x < 6 → y < 6 → z < 6 → ¬ 5 < (threePack x y z).toNat / 36 := by
    intro x y z hx hy hz
    rw [toNat_threePack hx hy hz]
    omega
  induction ds using pack3.induct generalizing c k with
  | case1 => simp [pack3, decodeDigits, decodeOctets_zero]
  | case2 x =>
    simp only [mem_singleton, forall_eq] at h
    simp [pack3, decodeOctets, keeps x 0 0 h, digits3_threePack h, decodeOctets_zero]
  | case3 x y =>
    simp only [mem_cons, not_mem_nil, or_false, forall_eq_or_imp, forall_eq] at h
    simp [pack3, decodeOctets, keeps x y 0 h.1 h.2, digits3_threePack h.1 h.2, decodeOctets_zero]
  | case4 x y z rest ih =>
    simp only [mem_cons, forall_eq_or_imp] at h
    have hd := digits3_threePack h.1 h.2.1 h.2.2.1
    have hk := keeps x y z h.1 h.2.1 h.2.2.1
    simp only [pack3, cons_append, decodeOctets, hk, decide_false, Bool.and_false,
      Bool.false_eq_true, if_false, hd, length_cons]
    rw [show min 3 (rest.length + 1 + 1 + 1) = 3 by omega,
      show rest.length + 1 + 1 + 1 - 3 = rest.length by omega, ih h.2.2.2]
    simp only [take_succ_cons, take_zero, decodeDigits]
    cases (R.take c).1 <;> cases AttributeEvent.ofCode x <;>
      cases (R.take (R.take c).2).1 <;> cases AttributeEvent.ofCode y <;>
      cases (R.take (R.take (R.take c).2).2).1 <;> cases AttributeEvent.ofCode z <;> rfl

def eventsOf (t : τ) (v : VectorAttribute) : List (Numbered ν) :=
  (decodeDigits R (R.firstval t v.firstValue v.substates) 0 (v.events.map AttributeEvent.code)).1

structure Reception.WellFormed (t : τ) (v : VectorAttribute) : Prop where
  firstValue : v.firstValue.length = R.attributeLength t
  numvalues : v.events.length < 8192
  substates : v.substates.length = if R.fourPacked t then v.events.length else 0
  /-- The receiver does with the unpacked substates what it would do with the substates. -/
  firstval : R.firstval t v.firstValue (unpack4 v.substates.length (pack4 v.substates)) =
    R.firstval t v.firstValue v.substates
  /-- The header is not an end mark. -/
  header : v.events ≠ [] ∨ v.leaveAll = true

end

variable {R : Reception τ κ ν}

theorem Reception.WellFormed.length_octets (hv : R.WellFormed t v) :
    v.octets.length = R.vectorLength t v.events.length := by
  rw [length_vector_octets, hv.firstValue, hv.substates, vectorLength, packed4, packed3]
  split <;> omega

section

variable {t : τ} (hv : R.WellFormed t v) (h : Stands m p v.octets)
include hv h

theorem Reception.WellFormed.word_header :
    word m p = v.events.length + if v.leaveAll then 8192 else 0 := by
  simp only [VectorAttribute.octets, append_assoc] at h
  rw [stands_append] at h
  rw [word_of_stands h.1 vectorHeader_lt, vectorHeader, Nat.mod_eq_of_lt hv.numvalues]

theorem Reception.WellFormed.word_ne_zero : word m p ≠ 0 := by
  rw [hv.word_header h]
  rcases hv.header with he | hl
  · have := length_pos_iff.mpr he
    omega
  · simp [hl]

theorem Reception.WellFormed.numvaluesAt_eq : numvaluesAt m p = v.events.length := by
  rw [numvaluesAt, hv.word_header h]
  have := hv.numvalues
  split <;> omega

theorem Reception.WellFormed.lvaAt_eq : lvaAt m p = v.leaveAll := by
  rw [lvaAt, hv.word_header h]
  have := hv.numvalues
  cases v.leaveAll
  · simp only [Bool.false_eq_true, if_false, decide_eq_false_iff_not]
    omega
  · simp only [if_true, decide_eq_true_eq]
    omega

theorem decodeVector_eq : decodeVector R m p t v.events.length = eventsOf R t v := by
  simp only [VectorAttribute.octets, append_assoc, stands_append, length_be16, length_pack3,
    length_map, hv.firstValue] at h
  obtain ⟨-, hfirst, hevents, hsubs⟩ := h
  have hcodes : ∀ d ∈ v.events.map AttributeEvent.code, d < 6 := by
    intro d hd
    obtain ⟨e, -, rfl⟩ := mem_map.mp hd
    exact e.code_lt
  have hread : read m (p + 2 + R.attributeLength t) (packed3 v.events.length + 1) =
      pack3 (v.events.map AttributeEvent.code) ++
        read m (p + 2 + R.attributeLength t + packed3 v.events.length) 1 := by
    rw [read_add, hevents.read_eq (by simp [packed3])]
  have hsub : (if R.fourPacked t then
      unpack4 v.events.length (read m (p + 2 + R.attributeLength t + packed3 v.events.length)
        ((v.events.length + 3) / 4)) else []) =
      unpack4 v.substates.length (pack4 v.substates) := by
    have hlen := hv.substates
    split
    case isTrue hf =>
      rw [if_pos hf] at hlen
      rw [packed3, hsubs.read_eq (by simp [hlen]), ← hlen]
    case isFalse hf =>
      rw [if_neg hf] at hlen
      rw [length_eq_zero_iff.mp hlen]
      rfl
  simp only [decodeVector, hsub, hfirst.read_eq hv.firstValue.symm, hread, eventsOf, hv.firstval]
  rw [← decodeOctets_pack3 R hcodes, length_map]

end

variable [DecidableEq τ]

/-- The LeaveAll of a vector counts: it is flagged and, where only the first one counts,
it is the first one. -/
def Reception.fresh (R : Reception τ κ ν) (t : τ) (saw : List τ) (leaveAll : Bool) : Bool :=
  leaveAll && !(R.lvaOnce t && saw.contains t)

def Reception.sawAfter (R : Reception τ κ ν) (t : τ) (saw : List τ) (leaveAll : Bool) : List τ :=
  if R.fresh t saw leaveAll && R.lvaOnce t then t :: saw else saw

def parseVectors (R : Reception τ κ ν) (t : τ) :
    List τ → Nat → List VectorAttribute → List (Parsed τ ν) × List τ
  | saw, _, [] => ([], saw)
  | saw, p, v :: vs =>
    let (out, saw') := parseVectors R t (R.sawAfter t saw v.leaveAll) (p + v.octets.length) vs
    (⟨t, p, v.events.length, R.fresh t saw v.leaveAll, eventsOf R t v⟩ :: out, saw')

theorem recvVector_eq (hv : R.WellFormed t v)
    (hn : R.skipsNull = true ∨ v.events ≠ []) (h : Stands m p v.octets)
    (hroom : p + v.octets.length < eof) : recvStep R m eof ⟨p, .vectors t, saw⟩ =
      ([⟨t, p, v.events.length, R.fresh t saw v.leaveAll, eventsOf R t v⟩],
        .inl ⟨p + v.octets.length, .vectors t, R.sawAfter t saw v.leaveAll⟩) := by
  have hw := hv.word_ne_zero h
  rw [Ne, word_eq_zero] at hw
  rw [hv.length_octets] at hroom ⊢
  simp only [recvStep, recvVector, if_neg hw, hv.numvaluesAt_eq h, hv.lvaAt_eq h]
  by_cases he : v.events = []
  · have hs : R.skipsNull = true := hn.resolve_right (absurd he)
    have hlen : R.vectorLength t 0 = 2 + R.attributeLength t := by
      simp [Reception.vectorLength, packed3, Reception.packed4]
    simp [he, hs, hlen, eventsOf, decodeDigits, Reception.fresh, Reception.sawAfter, add_assoc]
  · have hpos : v.events.length ≠ 0 := by simpa using he
    have hbound : ¬ eof ≤ p + 2 + v.events.length / 3 +
        (if R.fourPacked t then v.events.length / 4 else 0) := by
      simp only [Reception.vectorLength, packed3, Reception.packed4] at hroom
      split at hroom <;> simp_all <;> omega
    have hend : ¬ (R.fourPacked t && decide (eof ≤ p + R.vectorLength t v.events.length)) =
        true := by
      simp only [Bool.and_eq_true, decide_eq_true_eq, not_and]
      omega
    rw [if_neg hpos, if_neg hbound, if_neg hend, decodeVector_eq hv h]
    rfl

theorem recvVectors_steps (hvs : ∀ v ∈ vs, R.WellFormed t v ∧ (R.skipsNull = true ∨ v.events ≠ []))
    (h : Stands m p (vectorOctets vs)) (hroom : p + (vectorOctets vs).length < eof) :
    Steps (recvStep R m eof) vs.length ⟨p, .vectors t, saw⟩ (parseVectors R t saw p vs).1
      ⟨p + (vectorOctets vs).length, .vectors t, (parseVectors R t saw p vs).2⟩ := by
  induction vs generalizing p saw with
  | nil => exact .refl _
  | cons v vs ih =>
    simp only [mem_cons, forall_eq_or_imp] at hvs
    simp only [vectorOctets_cons, stands_append, length_append] at h hroom ⊢
    have hstep : recvStep R m eof ⟨p, .vectors t, saw⟩ = _ :=
      recvVector_eq hvs.1.1 hvs.1.2 h.1 (by omega)
    rw [← add_assoc]
    exact .cons hstep (ih hvs.2 h.2 (by omega))

/-- A message of type `t` that a receiver takes as it is meant. -/
structure Reception.Accepts (R : Reception τ κ ν) (t : τ) (msg : Message) : Prop where
  type : R.typeOf msg.attributeType = some t
  length : msg.attributeLength = R.attributeLength t
  length_pos : 0 < R.attributeLength t
  length_lt : R.attributeLength t < 256
  nonempty : msg.vectors ≠ []
  vectors : ∀ v ∈ msg.vectors, R.WellFormed t v ∧ (R.skipsNull = true ∨ v.events ≠ [])

def Reception.dataOffset (R : Reception τ κ ν) : Nat := 2 + if R.listLength then 2 else 0

section

variable {t : τ} (ha : R.Accepts t msg) (h : Stands m p (msg.octets R.listLength))
  (hsize : eof < 65536) (hroom : p + (msg.octets R.listLength).length + 2 ≤ eof)
include ha h hsize hroom

theorem recvMessage_enter :
    recvStep R m eof ⟨p, .messages e, saw⟩ = ([], .inl ⟨p + R.dataOffset, .vectors t, saw⟩) := by
  simp only [length_message_octets] at hroom
  simp only [Message.octets, append_assoc] at h
  rw [stands_append, stands_append, stands_append] at h
  obtain ⟨hhead, hlist, hbody, hmark⟩ := h
  simp only [stands_cons, stands_nil, and_true] at hhead hmark
  have hL : (m (p + 1)).toNat = R.attributeLength t := by
    rw [hhead.2, ha.length, UInt8.toNat_ofNat']
    exact Nat.mod_eq_of_lt ha.length_lt
  have hne : ¬ (m p = 0 ∧ m (p + 1) = 0) := by
    rintro ⟨-, h0⟩
    rw [h0] at hL
    have := ha.length_pos
    simp at hL
    omega
  simp only [recvStep, recvMessage]
  rw [if_neg (by split at hroom <;> omega), if_neg hne, hhead.1, ha.type]
  simp only [hL, ne_eq, not_true_eq_false, if_false]
  cases hll : R.listLength with
  | false => simp [Reception.dataOffset, hll]
  | true =>
    rw [hll] at hlist hbody hmark hroom
    simp only [if_true, length_cons, length_nil, length_be16] at hlist hbody hmark hroom
    -- the list length leads to the end mark of the message
    obtain ⟨v, vs, hvs⟩ := exists_cons_of_ne_nil ha.nonempty
    have hvec : 2 + R.attributeLength t ≤ (vectorOctets msg.vectors).length := by
      have hv := (ha.vectors v (by simp [hvs])).1
      rw [hvs, vectorOctets_cons, length_append, length_vector_octets, hv.firstValue]
      omega
    have hlen : word m (p + 2) = (vectorOctets msg.vectors).length + 2 :=
      word_of_stands hlist (by omega)
    have hcheck : checkAttribListLen m (p + 2) eof = true := by
      simp only [checkAttribListLen, hlen, show p + 2 - 1 = p + 1 by omega, hL]
      rw [show p + 2 + ((vectorOctets msg.vectors).length + 2) =
        p + (0 + 1 + 1) + 2 + (vectorOctets msg.vectors).length by omega]
      simp only [hmark.1, hmark.2, decide_true, Bool.and_self, Bool.and_true, Bool.and_eq_true,
        Bool.not_eq_true', decide_eq_false_iff_not]
      omega
    simp [hcheck, Reception.dataOffset, hll]

theorem recvMessage_steps :
    Steps (recvStep R m eof) (1 + (msg.vectors.length + 2)) ⟨p, .messages e, saw⟩
      (parseVectors R t saw (p + R.dataOffset) msg.vectors).1
      ⟨p + (msg.octets R.listLength).length, .messages 1,
        (parseVectors R t saw (p + R.dataOffset) msg.vectors).2⟩ := by
  have henter : recvStep R m eof ⟨p, .messages e, saw⟩ = _ := recvMessage_enter ha h hsize hroom
  have hlen : (msg.octets R.listLength).length =
      R.dataOffset + (vectorOctets msg.vectors).length + 2 := by
    simp only [length_message_octets, Reception.dataOffset]
    omega
  rw [hlen] at hroom ⊢
  simp only [Message.octets, append_assoc] at h
  rw [stands_append, stands_append, stands_append] at h
  obtain ⟨-, -, hbody, hmark⟩ := h
  have hoff : p + (([msg.attributeType, UInt8.ofNat msg.attributeLength] : List UInt8).length) +
      (if R.listLength then be16 ((vectorOctets msg.vectors).length + 2) else []).length =
      p + R.dataOffset := by
    simp only [length_cons, length_nil, Reception.dataOffset]
    split <;> simp
  rw [hoff] at hbody hmark
  simp only [stands_cons, stands_nil, and_true] at hmark
  have hvecs : Steps (recvStep R m eof) _ ⟨p + R.dataOffset, .vectors t, saw⟩ _ _ :=
    recvVectors_steps ha.vectors hbody (by omega)
  -- the end mark ends the vectors, and is then read again as the first of two
  have hend : recvStep R m eof ⟨p + R.dataOffset + (vectorOctets msg.vectors).length, .vectors t,
      (parseVectors R t saw (p + R.dataOffset) msg.vectors).2⟩ =
      ([], .inl ⟨p + R.dataOffset + (vectorOctets msg.vectors).length, .messages 0,
        (parseVectors R t saw (p + R.dataOffset) msg.vectors).2⟩) := by
    simp [recvStep, recvVector, hmark]
  have hskip : recvStep R m eof ⟨p + R.dataOffset + (vectorOctets msg.vectors).length, .messages 0,
      (parseVectors R t saw (p + R.dataOffset) msg.vectors).2⟩ =
      ([], .inl ⟨p + (R.dataOffset + (vectorOctets msg.vectors).length + 2), .messages 1,
        (parseVectors R t saw (p + R.dataOffset) msg.vectors).2⟩) := by
    simp only [recvStep, recvMessage]
    rw [if_neg (by omega), if_pos hmark]
    simp [add_assoc]
  have htail := hvecs.trans (.cons hend (.one hskip))
  simpa using (Steps.one henter).trans htail

end

def parseMessages (R : Reception τ κ ν) :
    List τ → Nat → List Message → List (Parsed τ ν) × List τ
  | saw, _, [] => ([], saw)
  | saw, p, msg :: ms =>
    match R.typeOf msg.attributeType with
    | none => ([], saw)
    | some t =>
      let (out, saw) := parseVectors R t saw (p + R.dataOffset) msg.vectors
      let (outs, saw) := parseMessages R saw (p + (msg.octets R.listLength).length) ms
      (out ++ outs, saw)

def RecvState.measure (s : RecvState τ) : Nat :=
  2 * s.ptr + match s.phase with
    | .messages _ => 1
    | .vectors _ => 0

theorem recvStep_measure (h : recvStep R m eof s = (out, .inl s')) : s.measure < s'.measure := by
  obtain ⟨p, phase, saw⟩ := s
  cases phase
  all_goals
    simp only [recvStep, recvMessage, recvVector] at h
    repeat' split at h
  all_goals
    simp only [Prod.mk.injEq, reduceCtorEq, Sum.inl.injEq, and_false] at h
  all_goals
    obtain ⟨-, rfl⟩ := h
    simp only [RecvState.measure, Reception.vectorLength]
    omega

theorem recvMessages_steps (hms : ∀ msg ∈ ms, ∃ t, R.Accepts t msg)
    (h : Stands m p (messageOctets R.listLength ms)) (hsize : eof < 65536)
    (hroom : p + (messageOctets R.listLength ms).length + 2 ≤ eof) (he : e ≤ 1) :
    ∃ n e', e' ≤ 1 ∧ Steps (recvStep R m eof) n ⟨p, .messages e, saw⟩ (parseMessages R saw p ms).1
      ⟨p + (messageOctets R.listLength ms).length, .messages e', (parseMessages R saw p ms).2⟩ := by
  induction ms generalizing p e saw with
  | nil => exact ⟨0, e, he, .refl _⟩
  | cons msg ms ih =>
    simp only [mem_cons, forall_eq_or_imp] at hms
    simp only [messageOctets_cons, stands_append, length_append] at h hroom ⊢
    obtain ⟨t, ht⟩ := hms.1
    have hfirst : Steps (recvStep R m eof) _ ⟨p, .messages e, saw⟩ _ _ :=
      recvMessage_steps ht h.1 hsize (by omega)
    obtain ⟨n, e', he', hrest⟩ := @ih _ 1
      (parseVectors R t saw (p + R.dataOffset) msg.vectors).2 hms.2 h.2 (by omega) (by omega)
    rw [← add_assoc]
    simp only [parseMessages, ht.type]
    exact ⟨_, e', he', hfirst.trans hrest⟩

theorem walk_messages (hms : ∀ msg ∈ ms, ∃ t, R.Accepts t msg)
    (h : Stands m 15 (messageOctets R.listLength ms))
    (hbytes : bytes = 15 + (messageOctets R.listLength ms).length + 2)
    (hsize : bytes ≤ maxFrameSize) : walk (recvStep R m bytes) .overrun recvFuel recvStart =
      ((parseMessages R [] 15 ms).1, .ok) := by
  have hmax : maxFrameSize = 2000 := rfl
  have hall : ∃ n e, e ≤ 1 ∧ Steps (recvStep R m bytes) n ⟨15, .messages 0, []⟩ _
      ⟨_, .messages e, _⟩ := recvMessages_steps hms h (by omega) (by omega) (by omega)
  obtain ⟨n, e, he, hsteps⟩ := hall
  have hlast : recvStep R m bytes ⟨15 + (messageOctets R.listLength ms).length, .messages e,
      (parseMessages R [] 15 ms).2⟩ = ([], .inr .ok) := by
    simp only [recvStep, recvMessage]
    rw [if_pos (by omega)]
  have hn := hsteps.measure_le RecvState.measure fun _ _ _ h => recvStep_measure h
  simp only [RecvState.measure] at hn
  rw [recvStart, hsteps.walk_halt hlast (by simp only [recvFuel]; omega), append_nil]

theorem sourceAddr_ethHeader (hd : dest.length = 6) (station : Octets 6) :
    sourceAddr (ethHeader dest station.val etype version ++ body) = station.val := by
  simp only [sourceAddr, ethHeader, append_assoc]
  rw [drop_left' hd, take_left' station.property]

theorem recvMsg_header (hd : dest.length = 6) (station : Octets 6)
    (he : etype < 65536) (hframe : frame = ethHeader dest station.val etype version ++ body)
    (hbody : 2 ≤ body.length) : recvMsg R etype dest (recvBuffer frame rest) frame.length =
        walk (recvStep R (recvBuffer frame rest) frame.length) .overrun recvFuel recvStart ∧
      Stands (recvBuffer frame rest) 15 body ∧ frame.length = 15 + body.length := by
  have hst : Stands (recvBuffer frame rest) 0 frame := stands_recvBuffer
  have hlen : (ethHeader dest station.val etype version).length = 15 := by
    simp [ethHeader, hd, station.property]
  have hflen : frame.length = 15 + body.length := by rw [hframe, length_append, hlen]
  generalize recvBuffer frame rest = m at hst ⊢
  generalize frame.length = n at hflen ⊢
  rw [hframe, stands_append, hlen, zero_add] at hst
  obtain ⟨hh, hm⟩ := hst
  simp only [ethHeader, append_assoc] at hh
  rw [stands_append, stands_append, stands_append, hd, station.property] at hh
  have htype : word m 12 = etype := word_of_stands hh.2.2.1 he
  have hdest : read m 0 6 = dest := hh.1.read_eq hd.symm
  refine ⟨?_, hm, hflen⟩
  simp only [recvMsg, htype, hdest, ne_eq, not_true_eq_false, if_false]
  rw [if_neg (by omega)]

theorem recvMsg_frame (hms : ∀ msg ∈ ms, ∃ t, R.Accepts t msg)
    (hd : dest.length = 6) (station : Octets 6) (he : etype < 65536)
    (hframe : frame = ethHeader dest station.val etype version ++
      (messageOctets R.listLength ms ++ [0, 0])) (hsize : frame.length ≤ maxFrameSize) :
    recvMsg R etype dest (recvBuffer frame rest) frame.length =
      ((parseMessages R [] 15 ms).1, .ok) := by
  have hheader : recvMsg R etype dest (recvBuffer frame rest) frame.length = _ ∧ _ :=
    recvMsg_header hd station he hframe (by simp)
  obtain ⟨hwalk, hst, hlen⟩ := hheader
  rw [hwalk]
  exact walk_messages hms (stands_append.mp hst).1 (by rw [hlen]; simp [add_assoc]) hsize

end OpenAvb.Mrpd
