import OpenAvb.Mrpd.Contain

/-!
# Messages of unknown type

A PDU of a newer protocol version may hold messages of attribute types this
version does not know. They are to be discarded up to their end mark; the
receiver of MVRP passes over them by the length of one vector.
-/

namespace OpenAvb.Mrpd

open List

/-- A vector of any type: no end mark, a FirstValue as long as stated, an octet for three events. -/
structure RawVector (attributeLength : Nat) where
  header : Nat
  header_lt : header < 65536
  header_ne : header ≠ 0
  firstValue : Octets attributeLength
  events : Octets (packed3 (header % 8192))

def RawVector.numvalues (v : RawVector n) : Nat := v.header % 8192

def RawVector.octets (v : RawVector n) : List UInt8 :=
  be16 v.header ++ (v.firstValue.val ++ v.events.val)

structure RawMessage where
  (attributeType attributeLength : UInt8)
  vectors : List (RawVector attributeLength.toNat)
  header_ne : ¬ (attributeType = 0 ∧ attributeLength = 0)

def rawVectorOctets (vs : List (RawVector n)) : List UInt8 := vs.flatMap RawVector.octets

def RawMessage.octets (u : RawMessage) : List UInt8 :=
  [u.attributeType, u.attributeLength] ++ (rawVectorOctets u.vectors ++ [0, 0])

def rawOctets (us : List RawMessage) : List UInt8 := us.flatMap RawMessage.octets

def RawMessage.Unknown (u : RawMessage) : Prop := u.attributeType ≠ mvrpVidType

structure RawMessage.Vid (u : RawMessage) : Prop where
  type : u.attributeType = mvrpVidType
  length : u.attributeLength = 2
  numvalues : ∀ v ∈ u.vectors, v.numvalues ≠ 0

def mvrpPdu (station : Octets 6) (version : UInt8) (us : List RawMessage) (padding : Nat) :
    List UInt8 :=
  ethHeader mvrpCustomerBridgeAddr station.val mvrpEtype version ++
    (rawOctets us ++ List.replicate (2 + padding) 0)

@[simp] theorem length_rawVector (v : RawVector n) :
    v.octets.length = 2 + n + packed3 v.numvalues := by
  simp [RawVector.octets, RawVector.numvalues, v.firstValue.property, v.events.property]
  omega

theorem length_rawMessage (u : RawMessage) :
    u.octets.length = 4 + (rawVectorOctets u.vectors).length := by
  simp [RawMessage.octets]
  omega

@[simp] theorem rawVectorOctets_cons {v : RawVector n} :
    rawVectorOctets (v :: vs) = v.octets ++ rawVectorOctets vs := rfl

@[simp] theorem rawOctets_cons : rawOctets (u :: us) = u.octets ++ rawOctets us := rfl

@[simp] theorem rawOctets_append : rawOctets (us ++ ws) = rawOctets us ++ rawOctets ws := by
  simp [rawOctets]

def RawVector.parsed (saw : List Unit) (p : Nat) (v : RawVector n) : Parsed Unit UInt16 where
  type := ()
  offset := p
  numvalues := v.numvalues
  leaveAll := mvrpReception.fresh () saw (v.header / 8192 = 1)
  events := decodeOctets mvrpReception (UInt16.ofNat (number v.firstValue.val)) 0 v.numvalues
    v.events.val

def vectorsRaise (src : List UInt8) :
    List Unit → List (RawVector n) → List (Raised Unit UInt16) × List Unit
  | saw, [] => ([], saw)
  | saw, v :: vs =>
    let (out, saw') := vectorsRaise src (mvrpReception.sawAfter () saw (v.header / 8192 = 1)) vs
    ((v.parsed saw 0).raises src ++ out, saw')

def messagesRaise (src : List UInt8) :
    List Unit → List RawMessage → List (Raised Unit UInt16) × List Unit
  | saw, [] => ([], saw)
  | saw, u :: us =>
    if u.attributeType = mvrpVidType then
      let (out, saw') := vectorsRaise src saw u.vectors
      let (outs, saw'') := messagesRaise src saw' us
      (out ++ outs, saw'')
    else messagesRaise src saw us

theorem messagesRaise_remove (hu : u.Unknown) :
    messagesRaise src saw (us ++ u :: ws) = messagesRaise src saw (us ++ ws) := by
  induction us generalizing saw with
  | nil => simp [messagesRaise, if_neg hu]
  | cons w us ih => simp only [cons_append, messagesRaise, ih]

theorem RawVector.word_header (v : RawVector n) (h : Stands m p v.octets) :
    word m p = v.header := by
  rw [RawVector.octets, stands_append] at h
  exact word_of_stands h.1 v.header_lt

theorem RawVector.decodeVector_eq (v : RawVector 2) (saw : List Unit) (h : Stands m p v.octets) :
    decodeVector mvrpReception m p () v.numvalues = (v.parsed saw p).events := by
  simp only [RawVector.octets, stands_append, length_be16, v.firstValue.property] at h
  obtain ⟨-, hfirst, hevents⟩ := h
  have hlen : v.events.val.length = packed3 v.numvalues := v.events.property
  have hread : read m (p + 2 + 2) (packed3 v.numvalues + 1) =
      v.events.val ++ read m (p + 2 + 2 + packed3 v.numvalues) 1 := by
    rw [read_add, hevents.read_eq hlen.symm]
  have hval : read m (p + 2) 2 = v.firstValue.val := hfirst.read_eq v.firstValue.property.symm
  simp only [decodeVector, mvrpReception, RawVector.parsed, hval, hread]
  exact decodeOctets_append _ (by rw [hlen, packed3]; omega)

theorem RawVector.recvVector_eq (v : RawVector 2) (hn : v.numvalues ≠ 0) (h : Stands m p v.octets)
    (hroom : p + v.octets.length < eof) : recvStep mvrpReception m eof ⟨p, .vectors (), saw⟩ =
      ([v.parsed saw p], .inl ⟨p + v.octets.length, .vectors (),
        mvrpReception.sawAfter () saw (v.header / 8192 = 1)⟩) := by
  have hw := v.word_header h
  have hmark : ¬ (m p = 0 ∧ m (p + 1) = 0) := by
    rw [← word_eq_zero, hw]
    exact v.header_ne
  have hnum : numvaluesAt m p = v.numvalues := by rw [numvaluesAt, hw, RawVector.numvalues]
  have hlva : lvaAt m p = decide (v.header / 8192 = 1) := by rw [lvaAt, hw]
  have hdecode := v.decodeVector_eq saw h
  rw [length_rawVector] at hroom ⊢
  have hend : ¬ eof ≤ p + 2 + v.numvalues / 3 + 0 := by
    rw [packed3] at hroom
    omega
  simp only [recvStep, recvVector, if_neg hmark, hnum, hlva, if_neg hn]
  simp only [show mvrpReception.fourPacked () = false from rfl, Bool.false_eq_true, if_false,
    Bool.false_and, if_neg hend, hdecode]
  rfl

theorem rawVectors_steps (src : List UInt8) (saw : List Unit) {vs : List (RawVector 2)}
    (hn : ∀ v ∈ vs, v.numvalues ≠ 0) (h : Stands m p (rawVectorOctets vs))
    (hroom : p + (rawVectorOctets vs).length < eof) :
    ∃ n out, Steps (recvStep mvrpReception m eof) n ⟨p, .vectors (), saw⟩ out
        ⟨p + (rawVectorOctets vs).length, .vectors (), (vectorsRaise src saw vs).2⟩ ∧
      raises src out = (vectorsRaise src saw vs).1 := by
  induction vs generalizing p saw with
  | nil => exact ⟨0, [], .refl _, rfl⟩
  | cons v vs ih =>
    simp only [mem_cons, forall_eq_or_imp] at hn
    simp only [rawVectorOctets_cons, stands_append, length_append] at h hroom ⊢
    have hstep : recvStep mvrpReception m eof ⟨p, .vectors (), saw⟩ = _ :=
      v.recvVector_eq hn.1 h.1 (by omega)
    obtain ⟨n, out, hsteps, hout⟩ :=
      ih (mvrpReception.sawAfter () saw (v.header / 8192 = 1)) hn.2 h.2 (by omega)
    rw [← add_assoc]
    refine ⟨n + 1, _, .cons hstep hsteps, ?_⟩
    simp only [vectorsRaise, ← hout]
    rfl

theorem endMark_step [DecidableEq τ] (R : Reception τ κ ν) (saw : List τ)
    (h : m p = 0 ∧ m (p + 1) = 0) (hroom : p + 2 < eof) :
    recvStep R m eof ⟨p, .messages 0, saw⟩ = ([], .inl ⟨p + 2, .messages 1, saw⟩) := by
  simp only [recvStep, recvMessage]
  rw [if_neg (by omega), if_pos h]
  rfl

variable {u : RawMessage}

theorem vidMessage_steps (src : List UInt8) (saw : List Unit) (hu : u.Vid)
    (h : Stands m p u.octets) (hroom : p + u.octets.length + 2 ≤ eof) :
    ∃ n out, Steps (recvStep mvrpReception m eof) n ⟨p, .messages e, saw⟩ out
        ⟨p + u.octets.length, .messages 1, (vectorsRaise src saw u.vectors).2⟩ ∧
      raises src out = (vectorsRaise src saw u.vectors).1 := by
  obtain ⟨type, length, vectors, hne⟩ := u
  obtain ⟨htype, hlength, hnum⟩ := hu
  subst htype hlength
  rw [length_rawMessage] at hroom ⊢
  simp only [RawMessage.octets, stands_append, stands_cons, stands_nil, length_cons,
    length_nil] at h hroom ⊢
  obtain ⟨⟨hp, hp1, -⟩, hbody, hmark, hmark1, -⟩ := h
  have henter : recvStep mvrpReception m eof ⟨p, .messages e, saw⟩ =
      ([], .inl ⟨p + 2, .vectors (), saw⟩) := by
    simp only [recvStep, recvMessage]
    rw [if_neg (by omega), if_neg (by rw [hp]; exact fun h => absurd h.1 (by decide)), hp, hp1]
    rfl
  have hin : p + 2 + (rawVectorOctets vectors).length + 2 < eof := by omega
  obtain ⟨n, out, hsteps, hout⟩ := rawVectors_steps src saw hnum hbody (Nat.lt_of_add_right_lt hin)
  -- the end mark ends the vectors, and is then read again as the first of two
  have hend : recvStep mvrpReception m eof ⟨p + 2 + (rawVectorOctets vectors).length,
      .vectors (), (vectorsRaise src saw vectors).2⟩ =
      ([], .inl ⟨p + 2 + (rawVectorOctets vectors).length, .messages 0,
        (vectorsRaise src saw vectors).2⟩) := by
    exact if_pos ⟨hmark, hmark1⟩
  have hskip := endMark_step mvrpReception (vectorsRaise src saw vectors).2 ⟨hmark, hmark1⟩ hin
  have hall := (Steps.one henter).trans (hsteps.trans (.cons hend (.one hskip)))
  simp only [nil_append, append_nil] at hall
  rw [show p + (4 + (rawVectorOctets vectors).length) =
    p + 2 + (rawVectorOctets vectors).length + 2 by omega]
  exact ⟨_, out, hall, hout⟩

/-- The octets the receiver passes over: up to the end of what it takes for a vector. -/
def RawMessage.skipped (u : RawMessage) : Nat :=
  match u.vectors with
  | [] => 4 + u.attributeLength.toNat
  | v :: _ => 2 + v.octets.length

def RawMessage.OneVector (u : RawMessage) : Prop :=
  u.vectors.length = 1 ∨ (u.vectors = [] ∧ u.attributeLength = 0)

theorem RawMessage.skipped_iff (u : RawMessage) :
    u.skipped = u.octets.length ∨ u.skipped + 2 = u.octets.length ↔ u.OneVector := by
  rw [length_rawMessage, RawMessage.skipped, RawMessage.OneVector]
  cases u.vectors with
  | nil =>
    rw [← UInt8.toNat_inj]
    simp [rawVectorOctets]
    omega
  | cons v vs =>
    have hpos : vs = [] ↔ (rawVectorOctets vs).length = 0 := by
      cases vs with
      | nil => simp [rawVectorOctets]
      | cons w ws => simp
    simp only [rawVectorOctets_cons, length_append, length_cons, reduceCtorEq,
      false_and, or_false, Nat.add_eq_right, length_eq_zero_iff]
    rw [hpos]
    omega

theorem unknown_step (saw : List Unit) (e : Nat) (hu : u.Unknown)
    (h : Stands m p u.octets) (hversion : m 14 ≠ mvrpProtVer) (hroom : p + 2 < eof) :
    recvStep mvrpReception m eof ⟨p, .messages e, saw⟩ =
      ([], .inl ⟨p + u.skipped, .messages 0, saw⟩) := by
  simp only [RawMessage.octets, stands_append, stands_cons, stands_nil, length_cons,
    length_nil] at h
  obtain ⟨⟨hp, hp1, -⟩, hbody, hmark⟩ := h
  have hnot : ¬ (m p = 0 ∧ m (p + 1) = 0) := by
    rw [hp, hp1]
    exact u.header_ne
  have hnum : p + 2 + (2 + u.attributeLength.toNat + (numvaluesAt m (p + 2) + 2) / 3) =
      p + u.skipped := by
    rw [RawMessage.skipped]
    cases hvs : u.vectors with
    | nil =>
      rw [hvs] at hmark
      have hzero : word m (p + 2) = 0 := word_eq_zero.mpr ⟨hmark.1, hmark.2.1⟩
      simp only [numvaluesAt, hzero]
      omega
    | cons v vs =>
      rw [hvs, rawVectorOctets_cons, stands_append] at hbody
      have hw : word m (p + 2) = v.header := v.word_header hbody.1
      simp only [numvaluesAt, hw, length_rawVector, RawVector.numvalues, packed3]
      omega
  have htype : mvrpReception.typeOf u.attributeType = none := if_neg hu
  have hskips : mvrpReception.skipsUnknown (m 14) = true := bne_iff_ne.mpr hversion
  simp only [recvStep, recvMessage]
  rw [if_neg (by omega), if_neg hnot, hp, htype, hp1]
  simp [hskips, hnum]

theorem oneVector_steps (saw : List Unit) (hu : u.Unknown)
    (hone : u.OneVector) (h : Stands m p u.octets) (hversion : m 14 ≠ mvrpProtVer)
    (hroom : p + u.octets.length + 2 ≤ eof) :
    ∃ n e', e' ≤ 1 ∧ Steps (recvStep mvrpReception m eof) n ⟨p, .messages e, saw⟩ []
      ⟨p + u.octets.length, .messages e', saw⟩ := by
  have hlen := length_rawMessage u
  have hin : p + 2 < eof := by omega
  have hstep := unknown_step saw e hu h hversion hin
  rcases u.skipped_iff.mpr hone with hexact | hshort
  · rw [hexact] at hstep
    exact ⟨1, 0, by omega, .one hstep⟩
  · -- the receiver stands in front of the end mark
    rw [RawMessage.octets, ← append_assoc, stands_append] at h
    have hat : p + ([u.attributeType, u.attributeLength] ++ rawVectorOctets u.vectors).length =
        p + u.skipped := by
      simp only [length_append, length_cons, length_nil]
      omega
    rw [hat] at h
    have hmark : m (p + u.skipped) = 0 ∧ m (p + u.skipped + 1) = 0 := by simpa using h.2
    have hlast : p + u.skipped + 2 < eof := by omega
    have hskip := endMark_step mvrpReception saw hmark hlast
    rw [show p + u.octets.length = p + u.skipped + 2 by omega]
    exact ⟨2, 1, by omega, .cons hstep (.one hskip)⟩

theorem rawMessages_steps (src : List UInt8) (saw : List Unit)
    (hus : ∀ u ∈ us, RawMessage.Vid u ∨ u.Unknown ∧ u.OneVector) (h : Stands m p (rawOctets us))
    (hversion : m 14 ≠ mvrpProtVer) (hroom : p + (rawOctets us).length + 2 ≤ eof) (he : e ≤ 1) :
    ∃ n out e', e' ≤ 1 ∧ Steps (recvStep mvrpReception m eof) n ⟨p, .messages e, saw⟩ out
        ⟨p + (rawOctets us).length, .messages e', (messagesRaise src saw us).2⟩ ∧
      raises src out = (messagesRaise src saw us).1 := by
  induction us generalizing p saw e with
  | nil => exact ⟨0, [], e, he, .refl _, rfl⟩
  | cons u us ih =>
    simp only [mem_cons, forall_eq_or_imp] at hus
    simp only [rawOctets_cons, stands_append, length_append] at h hroom ⊢
    have hin : p + u.octets.length + 2 ≤ eof := by omega
    rw [← add_assoc]
    rcases hus.1 with hvid | ⟨hunknown, hone⟩
    · obtain ⟨n, out, hfirst, hout⟩ := vidMessage_steps (e := e) src saw hvid h.1 hin
      obtain ⟨n', out', e', he', hrest, hout'⟩ := ih (e := 1)
        (vectorsRaise src saw u.vectors).2 hus.2 h.2 (by omega) (by omega)
      simp only [messagesRaise, if_pos hvid.type, ← hout, ← hout']
      exact ⟨_, _, e', he', hfirst.trans hrest, by simp [raises]⟩
    · obtain ⟨n, e₁, he₁, hfirst⟩ := oneVector_steps (e := e) saw hunknown hone h.1 hversion hin
      obtain ⟨n', out', e', he', hrest, hout'⟩ := ih saw hus.2 h.2 (by omega) he₁
      simp only [messagesRaise, if_neg hunknown]
      exact ⟨_, _, e', he', hfirst.trans hrest, hout'⟩

theorem zeros_halt (saw : List Unit) (hz : ∀ i, p ≤ i → i < eof → m i = 0) (he : e ≤ 1) :
    ∃ n s, n ≤ 1 ∧ Steps (recvStep mvrpReception m eof) n ⟨p, .messages e, saw⟩ [] s ∧
      recvStep mvrpReception m eof s = ([], .inr .ok) := by
  have hlast : ∀ p, (∀ i, p ≤ i → i < eof → m i = 0) →
      recvStep mvrpReception m eof ⟨p, .messages 1, saw⟩ = ([], .inr .ok) := by
    intro p hz
    simp only [recvStep, recvMessage]
    split
    · rfl
    · rw [if_pos ⟨hz p (by omega) (by omega), hz (p + 1) (by omega) (by omega)⟩]
      rfl
  by_cases hend : eof ≤ p + 2
  · refine ⟨0, _, by omega, .refl _, ?_⟩
    simp only [recvStep, recvMessage, if_pos hend]
  · rcases Nat.le_one_iff_eq_zero_or_eq_one.mp he with rfl | rfl
    · have hstep := endMark_step mvrpReception saw
        ⟨hz p (by omega) (by omega), hz (p + 1) (by omega) (by omega)⟩ (Nat.lt_of_not_le hend)
      exact ⟨1, _, by omega, .one hstep, hlast _ fun i hi => hz i (by omega)⟩
    · exact ⟨0, _, by omega, .refl _, hlast p hz⟩

structure HoldsPdu (m : Mem) (bytes : Nat) (version : UInt8) (us : List RawMessage) : Prop where
  version : m 14 = version
  messages : Stands m 15 (rawOctets us)
  room : 15 + (rawOctets us).length + 2 ≤ bytes
  zeros : ∀ i, 15 + (rawOctets us).length ≤ i → i < bytes → m i = 0

section
variable {station : Octets 6} {version : UInt8} {us : List RawMessage} {padding : Nat} {rest : Mem}

theorem length_mvrpPdu : (mvrpPdu station version us padding).length =
    15 + (rawOctets us).length + (2 + padding) := by
  simp [mvrpPdu, ethHeader, mvrpCustomerBridgeAddr, station.property]
  omega

theorem holdsPdu_mvrpPdu : HoldsPdu (recvBuffer (mvrpPdu station version us padding) rest)
    (mvrpPdu station version us padding).length version us := by
  have hst : Stands (recvBuffer (mvrpPdu station version us padding) rest) 0
    (mvrpPdu station version us padding) := stands_recvBuffer
  rw [length_mvrpPdu]
  generalize recvBuffer (mvrpPdu station version us padding) rest = m at hst
  simp only [mvrpPdu, ethHeader, stands_append, stands_cons, length_be16, station.property,
    mvrpCustomerBridgeAddr, length_cons, length_nil, length_append] at hst
  obtain ⟨⟨⟨-, -⟩, hversion, -⟩, hmessages, hzeros⟩ := hst
  exact ⟨hversion, hmessages, by omega, fun i hp hi => hzeros.of_replicate hp hi⟩

theorem mvrpRecvMsg_mvrpPdu : mvrpRecvMsg (mvrpPdu station version us padding) rest =
    walk (recvStep mvrpReception (recvBuffer (mvrpPdu station version us padding) rest)
      (mvrpPdu station version us padding).length) .overrun recvFuel recvStart := by
  have hbody : 2 ≤ (rawOctets us ++ List.replicate (2 + padding) (0 : UInt8)).length := by
    simp
    omega
  have hheader : mvrpRecvMsg (mvrpPdu station version us padding) rest = _ ∧ _ :=
    recvMsg_header rfl station (by decide) rfl hbody
  exact hheader.1

theorem raises_mvrpPdu (hus : ∀ u ∈ us, RawMessage.Vid u ∨ u.Unknown ∧ u.OneVector)
    (hversion : version ≠ mvrpProtVer)
    (hsize : (mvrpPdu station version us padding).length ≤ maxFrameSize) :
    raises src (mvrpRecvMsg (mvrpPdu station version us padding) rest).1 =
      (messagesRaise src [] us).1 := by
  have hc : HoldsPdu (recvBuffer (mvrpPdu station version us padding) rest) _ version us :=
    holdsPdu_mvrpPdu
  rw [mvrpRecvMsg_mvrpPdu]
  generalize recvBuffer (mvrpPdu station version us padding) rest = m at hc
  generalize (mvrpPdu station version us padding).length = bytes at hc hsize
  obtain ⟨n, out, e, he, hsteps, hout⟩ := rawMessages_steps (e := 0) src [] hus hc.messages
    (by rw [hc.version]; exact hversion) hc.room (by omega)
  obtain ⟨n', s, hn', hzeros, hhalt⟩ := zeros_halt (messagesRaise src [] us).2 hc.zeros he
  have hn := hsteps.measure_le RecvState.measure fun _ _ _ h => recvStep_measure h
  have hroom := hc.room
  simp only [RecvState.measure] at hn
  simp only [maxFrameSize] at hsize
  have hfuel : n + n' < recvFuel := by
    simp only [recvFuel, maxFrameSize]
    omega
  rw [recvStart, (hsteps.trans hzeros).walk_halt hhalt hfuel]
  simpa using hout

/-- The walk passes from the message at `p`, raising nothing, to the octet behind it or its end
mark. -/
def Discards (m : Mem) (bytes p : Nat) (u : RawMessage) : Prop :=
  ∃ n out e saw r, Steps (recvStep mvrpReception m bytes) n recvStart out ⟨p, .messages e, saw⟩ ∧
    recvStep mvrpReception m bytes ⟨p, .messages e, saw⟩ = ([], .inl ⟨r, .messages 0, saw⟩) ∧
    (r = p + u.octets.length ∨ r + 2 = p + u.octets.length)

/-- Every message of unknown type is discarded, and the rest of the PDU is received as without
it. -/
def DiscardsUnknown (station : Octets 6) (version : UInt8) (us : List RawMessage) (padding : Nat)
    (rest : Mem) : Prop :=
  ∀ ms u ns, us = ms ++ u :: ns → u.Unknown →
    Discards (recvBuffer (mvrpPdu station version us padding) rest)
      (mvrpPdu station version us padding).length (15 + (rawOctets ms).length) u ∧
    ∀ rest', raises station.val (mvrpRecvMsg (mvrpPdu station version us padding) rest).1 =
      raises station.val (mvrpRecvMsg (mvrpPdu station version (ms ++ ns) padding) rest').1

section

variable (hc : HoldsPdu m bytes version (ms ++ u :: ns)) (hversion : version ≠ mvrpProtVer)
  (hu : u.Unknown)
include hc hversion hu

theorem HoldsPdu.unknown_step (saw : List Unit) (e : Nat) :
    recvStep mvrpReception m bytes ⟨15 + (rawOctets ms).length, .messages e, saw⟩ =
      ([], .inl ⟨15 + (rawOctets ms).length + u.skipped, .messages 0, saw⟩) := by
  have hmessages := hc.messages
  have hroom := hc.room
  simp only [rawOctets_append, rawOctets_cons, stands_append, length_append,
    length_rawMessage] at hmessages hroom
  exact Mrpd.unknown_step saw e hu hmessages.2.1 (by rw [hc.version]; exact hversion) (by omega)

theorem HoldsPdu.oneVector_of_discards
    (h : Discards m bytes (15 + (rawOctets ms).length) u) : u.OneVector := by
  obtain ⟨n, out, e, saw, r, -, hr, hbehind⟩ := h
  rw [hc.unknown_step hversion hu saw e] at hr
  simp only [Prod.mk.injEq, Sum.inl.injEq, RecvState.mk.injEq, true_and, and_true] at hr
  rw [← u.skipped_iff]
  omega

theorem HoldsPdu.discards (hone : u.OneVector)
    (hms : ∀ w ∈ ms, RawMessage.Vid w ∨ w.Unknown ∧ w.OneVector) :
    Discards m bytes (15 + (rawOctets ms).length) u := by
  have hmessages := hc.messages
  have hroom := hc.room
  simp only [rawOctets_append, stands_append, length_append] at hmessages hroom
  have hin : 15 + (rawOctets ms).length + 2 ≤ bytes := by omega
  obtain ⟨n, out, e, -, hsteps, -⟩ := rawMessages_steps (e := 0) [] [] hms hmessages.1
    (by rw [hc.version]; exact hversion) hin (by omega)
  refine ⟨n, out, e, _, _, hsteps, hc.unknown_step hversion hu _ e, ?_⟩
  have hskip := u.skipped_iff.mpr hone
  omega

end

/-- A PDU of a newer version has its unknown messages discarded exactly if each of them has
one vector, or has none and states no length. -/
theorem unknown_discarded_iff (hversion : mvrpProtVer < version)
    (hus : ∀ u ∈ us, RawMessage.Vid u ∨ u.Unknown)
    (hsize : (mvrpPdu station version us padding).length ≤ maxFrameSize) :
    DiscardsUnknown station version us padding rest ↔ ∀ u ∈ us, u.Unknown → u.OneVector := by
  have hne : version ≠ mvrpProtVer := fun h => by simp [h] at hversion
  constructor
  · intro hall u hmem hu
    obtain ⟨ms, ns, rfl⟩ := append_of_mem hmem
    exact holdsPdu_mvrpPdu.oneVector_of_discards hne hu (hall ms u ns rfl hu).1
  · rintro hone ms u ns rfl hu
    have hwhole : ∀ w ∈ ms ++ u :: ns, RawMessage.Vid w ∨ w.Unknown ∧ w.OneVector :=
      fun w hw => (hus w hw).imp id fun hunknown => ⟨hunknown, hone w hw hunknown⟩
    have hrest : ∀ w ∈ ms ++ ns, RawMessage.Vid w ∨ w.Unknown ∧ w.OneVector := fun w hw =>
      hwhole w (mem_append.mpr ((mem_append.mp hw).imp id (mem_cons_of_mem u)))
    constructor
    · exact holdsPdu_mvrpPdu.discards hne hu (hone u (by simp) hu)
        fun w hw => hwhole w (mem_append_left _ hw)
    · intro rest'
      have hsmaller : (mvrpPdu station version (ms ++ ns) padding).length ≤ maxFrameSize := by
        simp only [length_mvrpPdu, rawOctets_append, rawOctets_cons, length_append]
          at hsize ⊢
        omega
      rw [raises_mvrpPdu hwhole hne hsize, raises_mvrpPdu hrest hne hsmaller,
        messagesRaise_remove hu]

end

def newMessages (type : UInt8) (firsts : List UInt8) (h : type ≠ 0) : RawMessage where
  attributeType := type
  attributeLength := 2
  vectors := firsts.map fun first => ⟨1, by decide, by decide, ⟨[0, first], rfl⟩, ⟨[0], rfl⟩⟩
  header_ne hzero := h hzero.1

theorem unknown_discarded_iff_one : DiscardsUnknown ⟨[2, 0, 0, 0, 0, 1], rfl⟩ 1
      [newMessages 2 [7] (by decide), newMessages 1 [5] (by decide)] 0 cleared := by
  refine (unknown_discarded_iff (by decide) ?_ (by decide +kernel)).mpr ?_
  · intro u hu
    simp only [mem_cons, not_mem_nil, or_false] at hu
    rcases hu with rfl | rfl
    · exact .inr (show (2 : UInt8) ≠ mvrpVidType by decide)
    · exact .inl ⟨rfl, rfl, by decide⟩
  · intro u hu hunknown
    simp only [mem_cons, not_mem_nil, or_false] at hu
    rcases hu with rfl | rfl
    · exact .inl rfl
    · exact absurd rfl hunknown

/-- Behind an unknown message of two vectors the declaration of VID 5 is lost. -/
theorem second_vector_loses_declaration : let station : Octets 6 := ⟨[2, 0, 0, 0, 0, 1], rfl⟩
    let unknown := newMessages 2 [7, 7] (by decide)
    let vid := newMessages 1 [5] (by decide)
    mvrpProtVer < 1 ∧
      raises station.val (mvrpRecvMsg (mvrpPdu station 1 [unknown, vid] 0) cleared).1 = [] ∧
      raises station.val (mvrpRecvMsg (mvrpPdu station 1 [vid] 0) cleared).1 =
        [.attribute .rnew (received station.val 5)] := by
  decide +kernel

end OpenAvb.Mrpd
