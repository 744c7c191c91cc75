import OpenAvb.Layout

/-!
# gPTP messages

The messages of `ptp_message.cpp`, how they are laid out by `sendPort` and how
`buildPTPMessage` reads them, on a little-endian host. A C++ enumeration is four
octets wide, so that storing or loading the control field touches the three
octets behind it.
-/

namespace OpenAvb.Gptp

section

abbrev ClockIdentity := Octets 8

structure PortIdentity where
  clockIdentity : ClockIdentity
  portNumber : UInt16
  deriving DecidableEq

structure Timestamp where
  secondsMs : UInt16
  (secondsLs nanoseconds : UInt32)
  deriving DecidableEq

/-- `PTPMessageCommon`; the message type is that of the body. -/
structure Header where
  versionPTP : UInt8
  messageLength : UInt16
  domainNumber : UInt8
  flags : Octets 2
  correctionField : UInt64
  sourcePortIdentity : PortIdentity
  sequenceId : UInt16
  control : UInt32
  logMeanMessageInterval : UInt8

structure ClockQuality where
  (cqClass clockAccuracy : UInt8)
  offsetScaledLogVariance : UInt16
  deriving DecidableEq

structure Announce where
  currentUtcOffset : UInt16
  grandmasterPriority1 : UInt8
  grandmasterClockQuality : ClockQuality
  grandmasterPriority2 : UInt8
  grandmasterIdentity : ClockIdentity
  stepsRemoved : UInt16
  timeSource : UInt8
  pathTrace : List ClockIdentity
  deriving DecidableEq

/-- A peer delay request has no body. The TLV of a follow-up is kept in network byte order. -/
inductive Body where
  | sync (originTimestamp : Timestamp)
  | followUp (preciseOriginTimestamp : Timestamp) (tlv : Octets 32)
  | pathDelayReq
  | pathDelayResp (requestReceiptTimestamp : Timestamp) (requestingPortIdentity : PortIdentity)
  | pathDelayRespFollowUp (responseOriginTimestamp : Timestamp)
      (requestingPortIdentity : PortIdentity)
  | announce (announce : Announce)
  deriving DecidableEq

structure Message where
  header : Header
  body : Body

def syncMessage : Nat := 0
def pathDelayReqMessage : Nat := 2
def pathDelayRespMessage : Nat := 3
def followupMessage : Nat := 8
def pathDelayFollowupMessage : Nat := 0xA
def announceMessage : Nat := 0xB

def Body.messageType : Body → Nat
  | .sync _ => syncMessage
  | .followUp _ _ => followupMessage
  | .pathDelayReq => pathDelayReqMessage
  | .pathDelayResp _ _ => pathDelayRespMessage
  | .pathDelayRespFollowUp _ _ => pathDelayFollowupMessage
  | .announce _ => announceMessage

def ptpCommonHdrLength : Nat := 34
def ptpAnnounceLength : Nat := 30
def ptpSyncLength : Nat := 10
def ptpFollowupLength : Nat := 10
def ptpPdelayReqLength : Nat := 20
def ptpPdelayRespLength : Nat := 20
def followupTlvSize : Nat := 32
def pathTraceTlvType : Nat := 8

def be64 (n : Nat) : List UInt8 := be32 (n / 2 ^ 32) ++ be32 n

def le32 (n : Nat) : List UInt8 := (be32 n).reverse

def PortIdentity.fields (id : PortIdentity) (clock port : Nat) : List Field :=
  [(clock, id.clockIdentity.val), (port, be16 id.portNumber.toNat)]

def Timestamp.fields (t : Timestamp) (p : Nat) : List Field :=
  [(p, be16 t.secondsMs.toNat), (p + 2, be32 t.secondsLs.toNat), (p + 6, be32 t.nanoseconds.toNat)]

def Header.front (h : Header) (messageType : Nat) : List Field :=
  [(0, [UInt8.ofNat (messageType + 0x10)]), (1, [h.versionPTP]), (2, be16 h.messageLength.toNat),
    (4, [h.domainNumber]), (6, h.flags.val), (8, be64 h.correctionField.toNat)] ++
    h.sourcePortIdentity.fields 20 28 ++ [(30, be16 h.sequenceId.toNat)]

def Header.controlField (h : Header) : Field := (32, le32 h.control.toNat)

def buildCommonHeader (h : Header) (messageType : Nat) : List Field :=
  h.front messageType ++ [h.controlField, (33, [h.logMeanMessageInterval])]

def ClockQuality.octets (q : ClockQuality) : List UInt8 :=
  [q.cqClass, q.clockAccuracy] ++ be16 q.offsetScaledLogVariance.toNat

def identityOctets (ids : List ClockIdentity) : List UInt8 := ids.flatMap Subtype.val

def pathTraceOctets (ids : List ClockIdentity) : List UInt8 :=
  be16 pathTraceTlvType ++ be16 (ids.length * 8) ++ identityOctets ids

def Announce.fields (a : Announce) : List Field :=
  [(44, be16 a.currentUtcOffset.toNat), (47, [a.grandmasterPriority1]),
    (48, a.grandmasterClockQuality.octets), (52, [a.grandmasterPriority2]),
    (53, a.grandmasterIdentity.val), (61, be16 a.stepsRemoved.toNat), (63, [a.timeSource]),
    (64, pathTraceOctets a.pathTrace)]

def Body.fields : Body → List Field
  | .sync t => t.fields 34
  | .followUp t tlv => t.fields 34 ++ [(44, tlv.val)]
  | .pathDelayReq => []
  | .pathDelayResp t id => t.fields 34 ++ id.fields 44 52
  | .pathDelayRespFollowUp t id => t.fields 34 ++ id.fields 44 52
  | .announce a => a.fields

def Body.messageLength : Body → Nat
  | .sync _ => ptpCommonHdrLength + ptpSyncLength
  | .followUp _ _ => ptpCommonHdrLength + ptpFollowupLength + followupTlvSize
  | .pathDelayReq => ptpCommonHdrLength + ptpPdelayReqLength
  | .pathDelayResp _ _ => ptpCommonHdrLength + ptpPdelayRespLength
  | .pathDelayRespFollowUp _ _ => ptpCommonHdrLength + ptpPdelayRespLength
  | .announce a => ptpCommonHdrLength + ptpAnnounceLength + (4 + 8 * a.pathTrace.length)

/-- A Sync message is sent with the time of the clock, and every message with its length. The
source's `getTime` is always 0. -/
def Message.stamped (m : Message) (now : Timestamp) : Message where
  header := { m.header with messageLength := UInt16.ofNat m.body.messageLength }
  body :=
    match m.body with
    | .sync _ => .sync now
    | body => body

def Message.octets (m : Message) : List UInt8 :=
  read (look (store [] (buildCommonHeader m.header m.body.messageType ++ m.body.fields))) 0
    m.body.messageLength

def Message.sendPort (m : Message) (now : Timestamp) : Message × List UInt8 :=
  (m.stamped now, (m.stamped now).octets)

structure RxTimestamp where
  timestamp : Timestamp
  version : UInt8
  counterValue : UInt32

/-- What the decoder asks of the port. `getRxTimestamp` fails on some of its attempts. -/
structure RxPort where
  bmca : Bool
  getRxTimestamp : PortIdentity → UInt16 → Nat → Option RxTimestamp

def RxPort.rxTimestamp (port : RxPort) (id : PortIdentity) (sequenceId : UInt16) :
    Option RxTimestamp :=
  (List.range 6).findSome? (port.getRxTimestamp id sequenceId)

structure Received where
  message : Message
  rx : RxTimestamp

def noTimestamp : RxTimestamp := ⟨⟨0, 0, 0⟩, 0xFF, 0⟩

def octetsAt (n : Nat) (m : Mem) (p : Nat) : Octets n := ⟨read m p n, length_read⟩

section

variable (m : Mem) (p : Nat)

def ntohs : UInt16 := UInt16.ofNat (number (read m p 2))
def ntohl : UInt32 := UInt32.ofNat (number (read m p 4))

def load16 : UInt16 := UInt16.ofNat (number (read m p 2).reverse)
def load32 : UInt32 := UInt32.ofNat (number (read m p 4).reverse)

def portIdentityAt (clock port : Nat) : PortIdentity := ⟨octetsAt 8 m clock, ntohs m port⟩

def timestampAt : Timestamp := ⟨ntohs m p, ntohl m (p + 2), ntohl m (p + 6)⟩

def syncTimestampAt : Timestamp :=
  ⟨load16 m p, load32 m (p + 2), load32 m (p + 6)⟩

/-- `PathTraceTLV::parseClockIdentity`, which does not know where the message ends. -/
def parseClockIdentity : List ClockIdentity :=
  (List.range (word m p / 8)).map fun i => octetsAt 8 m (p + 2 + 8 * i)

def announceAt (size : Nat) : Announce × Nat :=
  -- for `size - (PTP_COMMON_HDR_LENGTH + PTP_ANNOUNCE_LENGTH)`
  let tlvLength : Int := size - ptpCommonHdrLength + ptpAnnounceLength
  let hasTlv := 4 < tlvLength ∧ word m 64 = pathTraceTlvType
  ({ currentUtcOffset := ntohs m 44
     grandmasterPriority1 := m 47
     grandmasterClockQuality := ⟨m 48, m 49, ntohs m 50⟩
     grandmasterPriority2 := m 52
     grandmasterIdentity := octetsAt 8 m 53
     stepsRemoved := ntohs m 61
     timeSource := m 63
     pathTrace := if hasTlv then parseClockIdentity m 66 else [] }, if hasTlv then 66 else 64)

/-- The body of a message, and the offset that is then taken for the start of the header. -/
def bodyAt (bmca : Bool) (messageType : Nat) (m : Mem) (size : Nat) : Option (Body × Nat) :=
  if messageType = syncMessage then
    if size < ptpCommonHdrLength + ptpSyncLength then none
    else some (.sync (syncTimestampAt m 34), 0)
  else if messageType = followupMessage then
    if size < ptpCommonHdrLength + ptpFollowupLength + followupTlvSize then none
    -- the TLV is taken from the middle of the header
    else some (.followUp (timestampAt m 34) (octetsAt 32 m ptpFollowupLength), 0)
  else if messageType = pathDelayReqMessage then
    if size < ptpCommonHdrLength + ptpPdelayReqLength ∧ size ≠ 46 then none
    else some (.pathDelayReq, 0)
  else if messageType = pathDelayRespMessage then
    if size < ptpCommonHdrLength + ptpPdelayRespLength then none
    else some (.pathDelayResp (timestampAt m 34) (portIdentityAt m 44 52), 0)
  else if messageType = pathDelayFollowupMessage then
    some (.pathDelayRespFollowUp (timestampAt m 34) (portIdentityAt m 44 52), 0)
  else if messageType = announceMessage then
    if bmca then some (.announce (announceAt m size).1, (announceAt m size).2) else none
  else none

/-- The fields of the header that are read last, from the offset `p` on. -/
def headerAt (source : PortIdentity) (sequenceId : UInt16) : Header where
  versionPTP := m (p + 1)
  messageLength := ntohs m (p + 2)
  domainNumber := m (p + 4)
  flags := octetsAt 2 m (p + 6)
  correctionField := UInt64.ofNat (number (read m (p + 8) 8))
  sourcePortIdentity := source
  sequenceId := sequenceId
  control := load32 m (p + 32)
  logMeanMessageInterval := m (p + 33)

end

def buildPTPMessage (port : RxPort) (m : Mem) (size : Nat) : Option Received :=
  let messageType := (m 0).toNat % 16
  let transportSpecific := (m 0).toNat / 16
  let source := portIdentityAt m 20 28
  let sequenceId := ntohs m 30
  let rx := if messageType < 8 then port.rxTimestamp source sequenceId else some noTimestamp
  rx.bind fun rx =>
    if transportSpecific ≠ 1 then none
    else (bodyAt port.bmca messageType m size).map fun (body, p) =>
      { message := { header := headerAt m p source sequenceId, body := body }, rx := rx }

/-! ## Decoding and the end of a message -/

open List

def Agree (n : Nat) (m m' : Mem) : Prop := ∀ i < n, m i = m' i

variable {m m' : Mem} {n p : Nat}

section

variable (h : Agree n m m')
include h

theorem Agree.read (hp : p + k ≤ n) :
    OpenAvb.read m p k = OpenAvb.read m' p k :=
  read_congr fun i _ hi => h i (by omega)

theorem Agree.ntohs (hp : p + 2 ≤ n) : Gptp.ntohs m p = Gptp.ntohs m' p := by
  unfold Gptp.ntohs
  rw [h.read hp]

theorem Agree.ntohl (hp : p + 4 ≤ n) : Gptp.ntohl m p = Gptp.ntohl m' p := by
  unfold Gptp.ntohl
  rw [h.read hp]

theorem Agree.load16 (hp : p + 2 ≤ n) : Gptp.load16 m p = Gptp.load16 m' p := by
  unfold Gptp.load16
  rw [h.read hp]

theorem Agree.load32 (hp : p + 4 ≤ n) : Gptp.load32 m p = Gptp.load32 m' p := by
  unfold Gptp.load32
  rw [h.read hp]

theorem Agree.octetsAt (hp : p + k ≤ n) :
    Gptp.octetsAt k m p = Gptp.octetsAt k m' p := Subtype.ext (h.read hp)

theorem Agree.word (hp : p + 2 ≤ n) : OpenAvb.word m p = OpenAvb.word m' p :=
  word_congr (h p (by omega)) (h (p + 1) (by omega))

theorem Agree.portIdentityAt (hp : p + 8 ≤ n) (hq : q + 2 ≤ n) :
    Gptp.portIdentityAt m p q = Gptp.portIdentityAt m' p q := by
  unfold Gptp.portIdentityAt
  rw [h.octetsAt hp, h.ntohs hq]

theorem Agree.timestampAt (hp : p + 10 ≤ n) : Gptp.timestampAt m p = Gptp.timestampAt m' p := by
  unfold Gptp.timestampAt
  rw [h.ntohs (by omega), h.ntohl (by omega), h.ntohl (by omega)]

theorem Agree.syncTimestampAt (hp : p + 10 ≤ n) :
    Gptp.syncTimestampAt m p = Gptp.syncTimestampAt m' p := by
  unfold Gptp.syncTimestampAt
  rw [h.load16 (by omega), h.load32 (by omega), h.load32 (by omega)]

theorem Agree.headerAt (hp : p + 36 ≤ n) (source : PortIdentity) (sequenceId : UInt16) :
    Gptp.headerAt m p source sequenceId = Gptp.headerAt m' p source sequenceId := by
  unfold Gptp.headerAt
  rw [h (p + 1) (by omega), h (p + 4) (by omega), h (p + 33) (by omega), h.ntohs (by omega),
    h.octetsAt (by omega), h.read (by omega), h.load32 (by omega)]

theorem Agree.parseClockIdentity (hp : p + 2 + 8 * (OpenAvb.word m p / 8) ≤ n) :
    Gptp.parseClockIdentity m p = Gptp.parseClockIdentity m' p := by
  unfold Gptp.parseClockIdentity
  rw [← h.word (by omega)]
  refine map_congr_left fun i hi => h.octetsAt ?_
  have := mem_range.mp hi
  omega

end

def AnnounceFits (m : Mem) (size : Nat) : Prop :=
  100 ≤ size ∧
    (word m 64 = pathTraceTlvType → 102 ≤ size ∧ 68 + 8 * (word m 66 / 8) ≤ size)

theorem hasTlv_iff {P : Prop} {size : Nat} (hsize : 9 ≤ size) :
    (4 < (size : Int) - ptpCommonHdrLength + ptpAnnounceLength ∧ P) ↔ P := by
  refine and_iff_right ?_
  simp only [ptpCommonHdrLength, ptpAnnounceLength]
  omega

theorem Agree.announceAt (h : Agree n m m') (hfits : AnnounceFits m n) :
    Gptp.announceAt m n = Gptp.announceAt m' n := by
  obtain ⟨hn, htlv⟩ := hfits
  have hids : (if OpenAvb.word m 64 = pathTraceTlvType then Gptp.parseClockIdentity m 66 else []) =
      if OpenAvb.word m 64 = pathTraceTlvType then Gptp.parseClockIdentity m' 66 else [] := by
    split
    case isTrue hw => exact h.parseClockIdentity (htlv hw).2
    case isFalse => rfl
  have hsize : 9 ≤ n := by omega
  simp only [Gptp.announceAt, hasTlv_iff hsize, ← h.word (p := 64) (by omega), hids]
  rw [h.ntohs (by omega), h.ntohs (by omega), h.ntohs (by omega), h.octetsAt (by omega),
    h 47 (by omega), h 48 (by omega), h 49 (by omega), h 52 (by omega), h 63 (by omega)]

theorem bodyAt_sync : bodyAt bmca syncMessage m n =
    if n < 44 then none else some (.sync (syncTimestampAt m 34), 0) := rfl

theorem bodyAt_followUp : bodyAt bmca followupMessage m n =
    if n < 76 then none else some (.followUp (timestampAt m 34) (octetsAt 32 m 10), 0) := rfl

theorem bodyAt_pathDelayReq : bodyAt bmca pathDelayReqMessage m n =
    if n < 54 ∧ n ≠ 46 then none else some (.pathDelayReq, 0) := rfl

theorem bodyAt_pathDelayResp : bodyAt bmca pathDelayRespMessage m n =
    if n < 54 then none
    else some (.pathDelayResp (timestampAt m 34) (portIdentityAt m 44 52), 0) := rfl

theorem bodyAt_pathDelayRespFollowUp : bodyAt bmca pathDelayFollowupMessage m n =
    some (.pathDelayRespFollowUp (timestampAt m 34) (portIdentityAt m 44 52), 0) := rfl

theorem bodyAt_announce : bodyAt bmca announceMessage m n =
    if bmca then some (.announce (announceAt m n).1, (announceAt m n).2) else none := rfl

theorem messageType_cases (t : Nat) :
    t = syncMessage ∨ t = followupMessage ∨ t = pathDelayReqMessage ∨
      t = pathDelayRespMessage ∨ t = pathDelayFollowupMessage ∨ t = announceMessage ∨
      ∀ bmca m n, bodyAt bmca t m n = none := by
  simp only [or_iff_not_imp_left]
  rintro h1 h2 h3 h4 h5 h6 bmca m n
  unfold bodyAt
  rw [if_neg h1, if_neg h2, if_neg h3, if_neg h4, if_neg h5, if_neg h6]

/-- Whatever the type, the octets that are read lie inside a message of `n` octets. -/
def BodyFits (bmca : Bool) (messageType : Nat) (m : Mem) (n : Nat) : Prop :=
  (messageType = pathDelayFollowupMessage → 54 ≤ n) ∧
    (messageType = announceMessage → bmca = true → AnnounceFits m n)

theorem Agree.bodyAt (h : Agree n m m') (hfits : BodyFits bmca t m n) :
    Gptp.bodyAt bmca t m n = Gptp.bodyAt bmca t m' n := by
  obtain ⟨hfollow, hannounce⟩ := hfits
  rcases messageType_cases t with rfl | rfl | rfl | rfl | rfl | rfl | hother
  · rw [bodyAt_sync, bodyAt_sync]
    split
    · rfl
    · rw [h.syncTimestampAt (by omega)]
  · rw [bodyAt_followUp, bodyAt_followUp]
    split
    · rfl
    · rw [h.timestampAt (by omega), h.octetsAt (by omega)]
  · rw [bodyAt_pathDelayReq, bodyAt_pathDelayReq]
  · rw [bodyAt_pathDelayResp, bodyAt_pathDelayResp]
    split
    · rfl
    · rw [h.timestampAt (by omega), h.portIdentityAt (by omega) (by omega)]
  · have hn := hfollow rfl
    rw [bodyAt_pathDelayRespFollowUp, bodyAt_pathDelayRespFollowUp, h.timestampAt (by omega),
      h.portIdentityAt (by omega) (by omega)]
  · rw [bodyAt_announce, bodyAt_announce]
    split
    case isTrue hb => rw [h.announceAt (hannounce rfl hb)]
    case isFalse => rfl
  · rw [hother, hother]

theorem cursor_le (hfits : BodyFits bmca t m n) (h : bodyAt bmca t m n = some (body, p)) :
    p + 36 ≤ n := by
  obtain ⟨hfollow, hannounce⟩ := hfits
  rcases messageType_cases t with rfl | rfl | rfl | rfl | rfl | rfl | hother
  · rw [bodyAt_sync] at h
    split at h
    · cases h
    · cases h
      omega
  · rw [bodyAt_followUp] at h
    split at h
    · cases h
    · cases h
      omega
  · rw [bodyAt_pathDelayReq] at h
    split at h
    · cases h
    · cases h
      omega
  · rw [bodyAt_pathDelayResp] at h
    split at h
    · cases h
    · cases h
      omega
  · have hn := hfollow rfl
    rw [bodyAt_pathDelayRespFollowUp] at h
    cases h
    omega
  · rw [bodyAt_announce] at h
    split at h
    case isTrue hb =>
      obtain ⟨hn, htlv⟩ := hannounce rfl hb
      have hsize : 9 ≤ n := by omega
      simp only [announceAt, hasTlv_iff hsize] at h
      cases h
      split
      case isTrue hw => exact (htlv hw).1
      case isFalse => exact hn
    case isFalse => cases h
  · rw [hother] at h
    cases h

theorem Agree.buildPTPMessage (h : Agree n m m') (hn : 0 < n) (port : RxPort)
    (hfits : (m 0).toNat / 16 = 1 → BodyFits port.bmca ((m 0).toNat % 16) m n) :
    Gptp.buildPTPMessage port m n = Gptp.buildPTPMessage port m' n := by
  unfold Gptp.buildPTPMessage
  rw [← h 0 hn]
  by_cases ht : (m 0).toNat / 16 = 1
  · simp only [ht, ne_eq, not_true_eq_false, if_false]
    rw [← h.bodyAt (hfits ht)]
    cases hb : Gptp.bodyAt port.bmca ((m 0).toNat % 16) m n with
    | none => simp only [Option.map_none, Option.bind_fun_none]
    | some bp =>
      obtain ⟨body, p⟩ := bp
      have hp : p + 36 ≤ n := cursor_le (hfits ht) hb
      rw [h.portIdentityAt (by omega) (by omega), h.ntohs (by omega)]
      simp only [Option.map_some, h.headerAt hp]
  · simp [ht, ne_eq, not_false_eq_true, Option.bind_fun_none]

theorem agree_recvBuffer (data : List UInt8) (rest rest' : Mem) :
    Agree data.length (recvBuffer data rest) (recvBuffer data rest') := by
  intro i hi
  simp [recvBuffer, hi]

theorem recvBuffer_behind (rest : Mem) (h : data.length ≤ i) : recvBuffer data rest i = rest i := by
  simp [recvBuffer, List.getD, getElem?_eq_none h]

theorem recvBuffer_look (h : i ≠ j) :
    recvBuffer data (look [(j, 1)]) i = recvBuffer data (look []) i := by
  simp [recvBuffer, look_cons, h]

theorem recvBuffer_differ (h : data.length ≤ j) :
    recvBuffer data (look []) j ≠ recvBuffer data (look [(j, 1)]) j := by
  rw [recvBuffer_behind _ h, recvBuffer_behind _ h]
  simp [look]

theorem read_inj (h : read m p k = read m' p k) (hi : i < k) : m (p + i) = m' (p + i) := by
  have hget : (read m p k)[i]? = (read m' p k)[i]? := by rw [h]
  rw [getElem_read hi, getElem_read hi] at hget
  exact Option.some.inj hget

theorem ntohs_last : (ntohs m p).toNat % 256 = (m (p + 1)).toNat := by
  have h' := (m (p + 1)).toNat_lt
  simp only [ntohs, read, number, UInt16.toNat_ofNat', length_cons, length_nil]
  omega

theorem load32_last : (load32 m p).toNat / 2 ^ 24 = (m (p + 3)).toNat := by
  have h := (m p).toNat_lt
  have h1 := (m (p + 1)).toNat_lt
  have h2 := (m (p + 2)).toNat_lt
  have h3 := (m (p + 3)).toNat_lt
  simp only [load32, read, reverse_cons, reverse_nil, nil_append, cons_append,
    number, UInt32.toNat_ofNat', length_cons, length_nil, add_assoc, Nat.reduceAdd]
  omega

theorem ntohs_differ (h : m (p + 1) ≠ m' (p + 1)) : ntohs m p ≠ ntohs m' p := by
  intro heq
  refine h (UInt8.toNat_inj.mp ?_)
  rw [← ntohs_last, ← ntohs_last, heq]

theorem load32_differ (h : m (p + 3) ≠ m' (p + 3)) : load32 m p ≠ load32 m' p := by
  intro heq
  refine h (UInt8.toNat_inj.mp ?_)
  rw [← load32_last, ← load32_last, heq]

theorem buildPTPMessage_general (port : RxPort) (ht : (m 0).toNat / 16 = 1)
    (htype : 8 ≤ (m 0).toNat % 16) (hb : bodyAt port.bmca ((m 0).toNat % 16) m n = some (body, p)) :
    buildPTPMessage port m n =
      some ⟨⟨headerAt m p (portIdentityAt m 20 28) (ntohs m 30), body⟩, noTimestamp⟩ := by
  have hnot : ¬ (m 0).toNat % 16 < 8 := by omega
  simp [buildPTPMessage, hnot, Option.bind_some, ht, ne_eq, not_true_eq_false, hb, Option.map_some]

def Independent (port : RxPort) (data : List UInt8) : Prop :=
  ∀ rest rest', buildPTPMessage port (recvBuffer data rest) data.length =
    buildPTPMessage port (recvBuffer data rest') data.length

def Contained (bmca : Bool) (data : List UInt8) : Prop :=
  let m := recvBuffer data (look [])
  0 < data.length ∧ ((m 0).toNat / 16 = 1 → BodyFits bmca ((m 0).toNat % 16) m data.length)

theorem Contained.independent (h : Contained port.bmca data) : Independent port data := by
  obtain ⟨hn, hfits⟩ := h
  rintro rest rest'
  rw [← (agree_recvBuffer data (look []) rest).buildPTPMessage hn port hfits,
    ← (agree_recvBuffer data (look []) rest').buildPTPMessage hn port hfits]

-- Conversely, one octet behind the message is enough to change what is decoded.

theorem Independent.nonempty (h : Independent port data) : 0 < data.length := by
  rw [length_pos_iff]
  rintro rfl
  have hsome : buildPTPMessage port (recvBuffer [] (look [(0, 0x1A)])) 0 = some _ :=
    buildPTPMessage_general port (by decide) (by decide) bodyAt_pathDelayRespFollowUp
  have hnone : buildPTPMessage port (recvBuffer [] (look [])) 0 = none := by
    simp [buildPTPMessage, recvBuffer, look]
  have heq : buildPTPMessage port (recvBuffer [] (look [])) 0 =
      buildPTPMessage port (recvBuffer [] (look [(0, 0x1A)])) 0 := h _ _
  rw [hnone, hsome] at heq
  cases heq

theorem Independent.general (h : Independent port data) (hj : 0 < j)
    (ht : (recvBuffer data (look []) 0).toNat / 16 = 1)
    (htype : (recvBuffer data (look []) 0).toNat % 16 = t) (ht8 : 8 ≤ t)
    (hb : bodyAt port.bmca t (recvBuffer data (look [])) data.length = some (body, p))
    (hb' : bodyAt port.bmca t (recvBuffer data (look [(j, 1)])) data.length = some (body', p)) :
    body = body' ∧
      load32 (recvBuffer data (look [])) (p + 32) =
        load32 (recvBuffer data (look [(j, 1)])) (p + 32) := by
  have h0 : recvBuffer data (look [(j, 1)]) 0 = recvBuffer data (look []) 0 :=
    recvBuffer_look (by omega)
  have heq := h (look []) (look [(j, 1)])
  rw [buildPTPMessage_general port ht (by omega) (by rw [htype]; exact hb),
    buildPTPMessage_general port (by rw [h0]; exact ht) (by rw [h0]; omega)
      (by rw [h0, htype]; exact hb')] at heq
  simp only [Option.some.injEq, Received.mk.injEq, Message.mk.injEq, headerAt,
    Header.mk.injEq] at heq
  exact ⟨heq.1.2, heq.1.1.2.2.2.2.2.2.2.1⟩

theorem Independent.followUp (h : Independent port data)
    (ht : (recvBuffer data (look []) 0).toNat / 16 = 1)
    (htype : (recvBuffer data (look []) 0).toNat % 16 = pathDelayFollowupMessage) :
    54 ≤ data.length := by
  by_contra hn
  obtain ⟨hbody, -⟩ := h.general (j := 53) (by omega) ht htype (by decide)
    bodyAt_pathDelayRespFollowUp bodyAt_pathDelayRespFollowUp
  injection hbody with _ hid
  injection hid with _ hport
  exact ntohs_differ (recvBuffer_differ (by omega)) hport

theorem cursor_look (hj : 66 ≤ j) : (announceAt (recvBuffer data (look [(j, 1)])) n).2 =
      (announceAt (recvBuffer data (look [])) n).2 := by
  have hw : word (recvBuffer data (look [(j, 1)])) 64 = word (recvBuffer data (look [])) 64 :=
    word_congr (recvBuffer_look (by omega)) (recvBuffer_look (by omega))
  simp only [announceAt, hw]

theorem parseClockIdentity_differ (hw : word m p = word m' p) (hl : 0 < word m p / 8)
    (h : m (p + 1 + 8 * (word m p / 8)) ≠ m' (p + 1 + 8 * (word m p / 8))) :
    parseClockIdentity m p ≠ parseClockIdentity m' p := by
  intro heq
  unfold parseClockIdentity at heq
  rw [← hw, map_inj_left] at heq
  have hlast := heq (word m p / 8 - 1) (mem_range.mpr (by omega))
  have hoctet := read_inj (congrArg Subtype.val hlast) (i := 7) (by omega)
  rw [show p + 2 + 8 * (word m p / 8 - 1) + 7 = p + 1 + 8 * (word m p / 8) by omega] at hoctet
  exact h hoctet

section

variable (h : Independent port data) (hb : port.bmca = true)
  (ht : (recvBuffer data (look []) 0).toNat / 16 = 1)
  (htype : (recvBuffer data (look []) 0).toNat % 16 = announceMessage)
include h hb ht htype

theorem Independent.announce (hj : 66 ≤ j) :
    (announceAt (recvBuffer data (look [])) data.length).1 =
        (announceAt (recvBuffer data (look [(j, 1)])) data.length).1 ∧
      load32 (recvBuffer data (look []))
          ((announceAt (recvBuffer data (look [])) data.length).2 + 32) =
        load32 (recvBuffer data (look [(j, 1)]))
          ((announceAt (recvBuffer data (look [])) data.length).2 + 32) := by
  obtain ⟨hbody, hcontrol⟩ := h.general (j := j) (by omega) ht htype (by decide)
    (by rw [bodyAt_announce, if_pos hb])
    (by rw [bodyAt_announce, if_pos hb, cursor_look hj])
  injection hbody with hannounce
  exact ⟨hannounce, hcontrol⟩

theorem Independent.cursor_le (hp : (announceAt (recvBuffer data (look [])) data.length).2 = p)
    (h64 : 64 ≤ p) : p + 36 ≤ data.length := by
  by_contra hn
  obtain ⟨-, hcontrol⟩ := h.announce hb ht htype (j := p + 32 + 3) (by omega)
  rw [hp] at hcontrol
  exact load32_differ (recvBuffer_differ (by omega)) hcontrol

theorem Independent.identities
    (hn : 102 ≤ data.length) (hw : word (recvBuffer data (look [])) 64 = pathTraceTlvType) :
    68 + 8 * (word (recvBuffer data (look [])) 66 / 8) ≤ data.length := by
  by_contra hlen
  generalize hl : word (recvBuffer data (look [])) 66 / 8 = l at hlen
  obtain ⟨hannounce, -⟩ := h.announce hb ht htype (j := 66 + 1 + 8 * l) (by omega)
  have hw64 : word (recvBuffer data (look [(66 + 1 + 8 * l, 1)])) 64 = pathTraceTlvType := by
    rw [← hw]
    exact word_congr (recvBuffer_look (by omega)) (recvBuffer_look (by omega))
  have hw66 : word (recvBuffer data (look [])) 66 =
      word (recvBuffer data (look [(66 + 1 + 8 * l, 1)])) 66 :=
    (word_congr (recvBuffer_look (by omega)) (recvBuffer_look (by omega))).symm
  have hsize : 9 ≤ data.length := by omega
  simp only [announceAt, hasTlv_iff hsize, if_pos hw, if_pos hw64] at hannounce
  injection hannounce with _ _ _ _ _ _ _ hids
  refine parseClockIdentity_differ hw66 (by omega) ?_ hids
  rw [hl]
  exact recvBuffer_differ (by omega)

theorem Independent.announceFits :
    AnnounceFits (recvBuffer data (look [])) data.length := by
  have hp : 64 ≤ (announceAt (recvBuffer data (look [])) data.length).2 := by
    simp only [announceAt]
    split <;> omega
  have hn : 100 ≤ data.length := by
    have := h.cursor_le hb ht htype rfl hp
    omega
  refine ⟨hn, fun hw => ?_⟩
  have hn' : 102 ≤ data.length := by
    refine h.cursor_le hb ht htype (p := 66) ?_ (by omega)
    have hsize : 9 ≤ data.length := by omega
    simp only [announceAt, hasTlv_iff hsize, if_pos hw]
  exact ⟨hn', h.identities hb ht htype hn' hw⟩

end

/-- What is decoded depends on nothing behind the message if and only if everything that is read
for its type lies inside. -/
theorem buildPTPMessage_independent_iff (port : RxPort) (data : List UInt8) :
    Independent port data ↔ Contained port.bmca data := by
  constructor
  · intro h
    exact ⟨h.nonempty, fun ht => ⟨h.followUp ht, fun htype hb => h.announceFits hb ht htype⟩⟩
  · exact Contained.independent

/-- A peer delay follow-up that ends with its header is completed from what an earlier message left
in the buffer, and so is an announce message without a path trace. -/
theorem buildPTPMessage_reads_behind : let port : RxPort := ⟨true, fun _ _ _ => none⟩
    let followUp : List UInt8 := 0x1A :: List.replicate 33 0
    let announce : List UInt8 := 0x1B :: List.replicate 63 0
    ((buildPTPMessage port (recvBuffer followUp (look [(53, 1)])) 34).map (·.message.body) ≠
        (buildPTPMessage port (recvBuffer followUp (look [])) 34).map (·.message.body)) ∧
      ((buildPTPMessage port (recvBuffer announce (look [(66, 1)])) 64).map
          (·.message.header.messageLength) ≠
        (buildPTPMessage port (recvBuffer announce (look [])) 64).map
          (·.message.header.messageLength)) := by
  decide +kernel

end

/-! ## Sending and decoding a message -/

open List

variable {m : Mem} {n p : Nat}

@[simp] theorem length_be64 : (be64 n).length = 8 := rfl

@[simp] theorem length_le32 : (le32 n).length = 4 := rfl

theorem number_be16 (h : n < 2 ^ 16) : number (be16 n) = n := by
  simp only [be16, number, length_cons, length_nil, UInt8.toNat_ofNat']
  omega

theorem number_append (xs ys : List UInt8) :
    number (xs ++ ys) = number xs * 256 ^ ys.length + number ys := by
  induction xs with
  | nil => simp [number]
  | cons x xs ih =>
    rw [cons_append, number, number, ih, length_append, Nat.pow_add, add_mul, mul_assoc, add_assoc]

theorem number_be32 (h : n < 2 ^ 32) : number (be32 n) = n := by
  rw [be32, number_append, number_be16 (by omega)]
  simp only [be16, number, length_cons, length_nil, UInt8.toNat_ofNat']
  omega

theorem number_be64 (h : n < 2 ^ 64) : number (be64 n) = n := by
  rw [be64, number_append, number_be32 (by omega), length_be32]
  simp only [be32, be16, number, length_cons, length_nil, UInt8.toNat_ofNat',
    cons_append, nil_append]
  omega

theorem number_eq_iff (hlen : xs.length = ys.length) (hy : number ys = n) :
    number xs = n ↔ xs = ys := by
  rw [← hy]
  exact ⟨number_inj hlen, congrArg number⟩

theorem number_read_lt : number (read m p k) < 256 ^ k := by
  have h := @number_lt (read m p k)
  rwa [length_read] at h

theorem number_reverse_lt : number (read m p k).reverse < 256 ^ k := by
  have h := @number_lt (read m p k).reverse
  rwa [length_reverse, length_read] at h

theorem ntohs_eq_iff {x : UInt16} : ntohs m p = x ↔ Stands m p (be16 x.toNat) := by
  rw [← UInt16.toNat_inj, ntohs, UInt16.toNat_ofNat_of_lt' number_read_lt]
  exact number_eq_iff (by simp) (number_be16 x.toNat_lt)

theorem ntohl_eq_iff {x : UInt32} : ntohl m p = x ↔ Stands m p (be32 x.toNat) := by
  rw [← UInt32.toNat_inj, ntohl, UInt32.toNat_ofNat_of_lt' number_read_lt]
  exact number_eq_iff (by simp) (number_be32 x.toNat_lt)

theorem correction_eq_iff {x : UInt64} :
    UInt64.ofNat (number (read m p 8)) = x ↔ Stands m p (be64 x.toNat) := by
  rw [← UInt64.toNat_inj, UInt64.toNat_ofNat_of_lt' number_read_lt]
  exact number_eq_iff (by simp) (number_be64 x.toNat_lt)

theorem load16_eq_iff {x : UInt16} : load16 m p = x ↔ Stands m p (be16 x.toNat).reverse := by
  rw [← UInt16.toNat_inj, load16, UInt16.toNat_ofNat_of_lt' number_reverse_lt,
    number_eq_iff (by simp) (number_be16 x.toNat_lt), reverse_eq_iff]
  rfl

theorem load32_eq_iff {x : UInt32} : load32 m p = x ↔ Stands m p (le32 x.toNat) := by
  rw [← UInt32.toNat_inj, load32, UInt32.toNat_ofNat_of_lt' number_reverse_lt,
    number_eq_iff (by simp) (number_be32 x.toNat_lt), reverse_eq_iff]
  rfl

theorem octetsAt_eq_iff {o : Octets k} : octetsAt k m p = o ↔ Stands m p o.val := by
  rw [← Subtype.val_inj]
  unfold octetsAt Stands
  rw [o.property]

theorem portIdentityAt_eq_iff {id : PortIdentity} :
    portIdentityAt m p q = id ↔ AllStand m (id.fields p q) := by
  obtain ⟨clock, port⟩ := id
  simp only [portIdentityAt, PortIdentity.mk.injEq, octetsAt_eq_iff, ntohs_eq_iff,
    PortIdentity.fields, allStand_cons, allStand_nil, and_true]

theorem timestampAt_eq_iff {t : Timestamp} : timestampAt m p = t ↔ AllStand m (t.fields p) := by
  obtain ⟨ms, ls, ns⟩ := t
  simp only [timestampAt, Timestamp.mk.injEq, ntohs_eq_iff, ntohl_eq_iff, Timestamp.fields,
    allStand_cons, allStand_nil, and_true]

def Header.late (h : Header) (p : Nat) : List Field :=
  [(p + 1, [h.versionPTP]), (p + 2, be16 h.messageLength.toNat), (p + 4, [h.domainNumber]),
    (p + 6, h.flags.val), (p + 8, be64 h.correctionField.toNat), (p + 32, le32 h.control.toNat),
    (p + 33, [h.logMeanMessageInterval])]

theorem headerAt_eq_iff {h : Header} {source : PortIdentity} {sequenceId : UInt16} :
    headerAt m p source sequenceId = h ↔
      AllStand m (h.late p) ∧ source = h.sourcePortIdentity ∧ sequenceId = h.sequenceId := by
  obtain ⟨version, len, domain, flags, correction, src, seq, control, log⟩ := h
  simp only [headerAt, Header.mk.injEq, ntohs_eq_iff, octetsAt_eq_iff, correction_eq_iff,
    load32_eq_iff, Header.late, allStand_cons, allStand_nil, stands_cons, stands_nil, and_true]
  tauto

@[simp] theorem length_octets (o : Octets k) : o.val.length = k := o.property

@[simp] theorem length_identityOctets (ids : List ClockIdentity) :
    (identityOctets ids).length = 8 * ids.length := by
  induction ids with
  | nil => rfl
  | cons id ids ih =>
    unfold identityOctets at ih ⊢
    rw [flatMap_cons, length_append, ih, id.property, length_cons]
    omega

def Header.fields (h : Header) (messageType : Nat) : List Field :=
  h.front messageType ++ [(33, [h.logMeanMessageInterval])]

theorem Header.ascending (h : Header) (t : Nat) : Ascending (h.fields t) := by
  simp [Ascending, Header.fields, Header.front, PortIdentity.fields, Field.stop]

theorem Header.stop_le (h : Header) (t : Nat) : ∀ w ∈ h.fields t, w.stop ≤ 34 := by
  simp [Header.fields, Header.front, PortIdentity.fields, Field.stop]

theorem Body.ascending (body : Body) : Ascending body.fields := by
  cases body with
  | sync | followUp => simp [Ascending, Body.fields, Timestamp.fields, Field.stop]
  | pathDelayReq => exact List.Pairwise.nil
  | pathDelayResp | pathDelayRespFollowUp =>
    simp [Ascending, Body.fields, Timestamp.fields, PortIdentity.fields, Field.stop]
  | announce a => simp [Ascending, Body.fields, Announce.fields, ClockQuality.octets, Field.stop]

theorem Body.fields_within (body : Body) :
    ∀ w ∈ body.fields, 34 ≤ w.1 ∧ w.stop ≤ body.messageLength := by
  cases body with
  | sync t => simp [Body.fields, Timestamp.fields, Field.stop, Body.messageLength,
      ptpCommonHdrLength, ptpSyncLength]
  | followUp t tlv => simp [Body.fields, Timestamp.fields, Field.stop, Body.messageLength,
      ptpCommonHdrLength, ptpFollowupLength, followupTlvSize]
  | pathDelayReq => simp [Body.fields]
  | pathDelayResp t id => simp [Body.fields, Timestamp.fields, PortIdentity.fields, Field.stop,
      Body.messageLength, ptpCommonHdrLength, ptpPdelayRespLength]
  | pathDelayRespFollowUp t id => simp [Body.fields, Timestamp.fields, PortIdentity.fields,
      Field.stop, Body.messageLength, ptpCommonHdrLength, ptpPdelayRespLength]
  | announce a =>
    simp [Body.fields, Announce.fields, ClockQuality.octets, Field.stop,
      Body.messageLength, ptpCommonHdrLength, ptpAnnounceLength, pathTraceOctets]
    omega

theorem Body.messageLength_ge (body : Body) : 44 ≤ body.messageLength := by
  cases body <;> simp only [Body.messageLength, ptpCommonHdrLength, ptpSyncLength,
    ptpFollowupLength, followupTlvSize, ptpPdelayReqLength, ptpPdelayRespLength,
    ptpAnnounceLength] <;> omega

theorem Message.length_octets (msg : Message) : msg.octets.length = msg.body.messageLength :=
  length_read

/-- What a decoder finds. The two octets behind the header are control field until the body uses
them. -/
structure Laid (m : Mem) (msg : Message) : Prop where
  header : AllStand m (msg.header.fields msg.body.messageType)
  body : AllStand m msg.body.fields
  control : Stands m 32 [UInt8.ofNat msg.header.control.toNat]
  reserved : Stands m 16 [0, 0, 0, 0]
  behind : (∀ w ∈ msg.body.fields, 36 ≤ w.1) →
    Stands m 34 [UInt8.ofNat (msg.header.control.toNat / 65536),
      UInt8.ofNat (msg.header.control.toNat / 65536 / 256)]

theorem le32_eq (n : Nat) : le32 n = [UInt8.ofNat n, UInt8.ofNat (n / 256),
    UInt8.ofNat (n / 65536), UInt8.ofNat (n / 65536 / 256)] := rfl

theorem laid_store (msg : Message) :
    Laid (look (store [] (buildCommonHeader msg.header msg.body.messageType ++ msg.body.fields)))
      msg := by
  obtain ⟨h, body⟩ := msg
  have hbody := body.fields_within
  have hfront : ∀ w ∈ h.front body.messageType, w.stop ≤ 32 := by
    simp [Header.front, PortIdentity.fields, Field.stop]
  have hasc : Ascending
      (h.front body.messageType ++ (33, [h.logMeanMessageInterval]) :: body.fields) := by
    rw [append_cons]
    refine pairwise_append.mpr ⟨h.ascending _, body.ascending, fun w hw w' hw' => ?_⟩
    exact le_trans (h.stop_le _ w hw) (hbody w' hw').1
  have hfields : buildCommonHeader h body.messageType ++ body.fields = h.front body.messageType ++
      (32, le32 h.control.toNat) :: ((33, [h.logMeanMessageInterval]) :: body.fields) := by
    simp [buildCommonHeader, Header.controlField]
  -- the log interval overwrites the second octet of the control field
  have hall := @allStand_store_insert _ _ _ [] (le32 h.control.toNat) hasc hfront
  rw [← hfields, append_cons, allStand_append] at hall
  have hclear : Stands (look []) 16 [0, 0, 0, 0] := rfl
  have hgap : ∀ w ∈ buildCommonHeader h body.messageType, w.stop ≤ 16 ∨ 20 ≤ w.1 := by
    simp [buildCommonHeader, Header.front, Header.controlField, PortIdentity.fields, Field.stop]
  refine ⟨hall.1, hall.2, ?_, hclear.store ?_, fun hbehind => ?_⟩
  · rw [hfields]
    refine stands_store_insert [] _ (le32_eq _) rfl (forall_mem_cons.mpr ⟨?_, fun w hw => ?_⟩)
    · exact .inr (le_refl 33)
    · exact .inr (le_trans (Nat.le_succ 33) (hbody w hw).1)
  · refine forall_mem_append.mpr ⟨hgap, fun w hw => .inr ?_⟩
    exact le_trans (Nat.le_add_right 20 14) (hbody w hw).1
  · rw [hfields]
    refine stands_store_insert [_, _] [] (le32_eq _) rfl
      (forall_mem_cons.mpr ⟨.inl (le_refl 34), fun w hw => .inr (hbehind w hw)⟩)

theorem recvBuffer_read (rest : Mem) (h : i < n) : recvBuffer (read m 0 n) rest i = m i := by
  simp [recvBuffer, List.getD, getElem_read h, Option.getD_some]

theorem laid_octets (msg : Message) (rest : Mem) : Laid (recvBuffer msg.octets rest) msg := by
  have hlaid := laid_store msg
  have hlen := msg.body.messageLength_ge
  have hm : ∀ i, i < msg.body.messageLength → recvBuffer msg.octets rest i = _ :=
    fun i hi => recvBuffer_read rest hi
  have hfixed : ∀ {p xs}, Stands _ p xs → p + xs.length ≤ 44 →
      Stands (recvBuffer msg.octets rest) p xs :=
    fun h hp => h.congr fun i _ hi => hm i (by omega)
  refine ⟨hlaid.header.congr (fun w hw => ?_) hm,
    hlaid.body.congr (fun w hw => (msg.body.fields_within w hw).2) hm,
    hfixed hlaid.control (by simp), hfixed hlaid.reserved (by decide),
    fun hbehind => hfixed (hlaid.behind hbehind) (by simp)⟩
  have := msg.header.stop_le _ w hw
  omega

theorem allStand_header {h : Header} : AllStand m (h.fields t) ↔
    m 0 = UInt8.ofNat (t + 0x10) ∧ m 1 = h.versionPTP ∧ Stands m 2 (be16 h.messageLength.toNat) ∧
      m 4 = h.domainNumber ∧ Stands m 6 h.flags.val ∧ Stands m 8 (be64 h.correctionField.toNat) ∧
      AllStand m (h.sourcePortIdentity.fields 20 28) ∧ Stands m 30 (be16 h.sequenceId.toNat) ∧
      m 33 = h.logMeanMessageInterval := by
  simp only [Header.fields, Header.front, PortIdentity.fields, cons_append, nil_append,
    allStand_cons, allStand_nil, stands_cons, stands_nil, and_true, and_assoc]

theorem le32_control (h : c ≤ 5) : le32 c = [UInt8.ofNat c, 0, 0, 0] := by
  rw [le32_eq, Nat.div_eq_of_lt (by omega), Nat.div_eq_of_lt (by omega)]
  rfl

theorem Laid.headerAt_iff (h : Laid m msg) (hcontrol : msg.header.control.toNat ≤ 5) :
    headerAt m 0 (portIdentityAt m 20 28) (ntohs m 30) = msg.header ↔
      msg.header.logMeanMessageInterval = 0 ∧ Stands m 34 [0, 0] := by
  obtain ⟨h0, h1, h2, h4, h6, h8, hsource, hseq, h33⟩ := allStand_header.mp h.header
  have h32 := h.control
  rw [headerAt_eq_iff, portIdentityAt_eq_iff, ntohs_eq_iff, and_iff_left ⟨hsource, hseq⟩]
  simp only [Header.late, zero_add, le32_control hcontrol, allStand_cons, allStand_nil,
    stands_cons, stands_nil, and_true] at h32 ⊢
  rw [and_iff_right h1, and_iff_right h2, and_iff_right h4, and_iff_right h6, and_iff_right h8,
    and_iff_right h32, h33, and_iff_left rfl]

theorem Laid.behind_zero (h : Laid m msg) (hcontrol : msg.header.control.toNat ≤ 5)
    (hbody : ∀ w ∈ msg.body.fields, 36 ≤ w.1) : Stands m 34 [0, 0] := by
  have hbehind := h.behind hbody
  have hsmall : msg.header.control.toNat / 65536 = 0 := by omega
  rwa [hsmall] at hbehind

theorem Body.messageType_lt (body : Body) : body.messageType < 16 := by
  unfold Body.messageType
  split <;> decide

def RxPort.Timestamps (port : RxPort) (msg : Message) : Prop :=
  msg.body.messageType < 8 →
    (port.rxTimestamp msg.header.sourcePortIdentity msg.header.sequenceId).isSome

theorem Laid.decoded_iff (h : Laid m msg) (hrx : port.Timestamps msg) :
    (buildPTPMessage port m n).map (·.message) = some msg ↔
      ∃ p, bodyAt port.bmca msg.body.messageType m n = some (msg.body, p) ∧
        headerAt m p (portIdentityAt m 20 28) (ntohs m 30) = msg.header := by
  obtain ⟨h0, -, -, -, -, -, hsource, hseq, -⟩ := allStand_header.mp h.header
  have hlt := msg.body.messageType_lt
  have htype : (m 0).toNat % 16 = msg.body.messageType := by
    rw [h0, UInt8.toNat_ofNat']
    omega
  have htransport : (m 0).toNat / 16 = 1 := by
    rw [h0, UInt8.toNat_ofNat']
    omega
  obtain ⟨rx, hrx⟩ : ∃ rx, (if msg.body.messageType < 8 then
      port.rxTimestamp (portIdentityAt m 20 28) (ntohs m 30) else some noTimestamp) = some rx := by
    split
    case isTrue hevent =>
      rw [portIdentityAt_eq_iff.mpr hsource, ntohs_eq_iff.mpr hseq]
      exact Option.isSome_iff_exists.mp (hrx hevent)
    case isFalse => exact ⟨_, rfl⟩
  simp only [buildPTPMessage, htype, htransport, hrx, Option.bind_some, ne_eq, not_true_eq_false,
    if_false, Option.map_map]
  rw [Option.map_eq_some_iff]
  obtain ⟨header, body⟩ := msg
  constructor
  · rintro ⟨⟨b, p⟩, hbody, hmsg⟩
    obtain ⟨rfl, rfl⟩ := Message.mk.inj hmsg
    exact ⟨p, hbody, rfl⟩
  · rintro ⟨p, hbody, rfl⟩
    exact ⟨_, hbody, rfl⟩

theorem stands_le32_iff (h : Stands m p (be32 n)) :
    Stands m p (le32 n) ↔ (be32 n).reverse = be32 n := by
  unfold Stands at h ⊢
  rw [length_be32] at h
  rw [length_le32, h, eq_comm]
  rfl

/-- A Sync timestamp below `2 ^ 32` seconds is read back if its octets are the same in both
orders. -/
theorem syncTimestampAt_iff {t : Timestamp} (h : AllStand m (t.fields 34)) (hms : t.secondsMs = 0) :
    syncTimestampAt m 34 = t ↔ (be32 t.secondsLs.toNat).reverse = be32 t.secondsLs.toNat ∧
        (be32 t.nanoseconds.toNat).reverse = be32 t.nanoseconds.toNat := by
  obtain ⟨ms, ls, ns⟩ := t
  subst hms
  simp only [Timestamp.fields, allStand_cons, allStand_nil, and_true] at h
  obtain ⟨h34, h36, h40⟩ := h
  simp only [syncTimestampAt, Timestamp.mk.injEq, load16_eq_iff, load32_eq_iff]
  rw [stands_le32_iff h36, stands_le32_iff h40, and_iff_right]
  exact h34

theorem secondsMs_iff {t : Timestamp} (h : AllStand m (t.fields 34)) :
    Stands m 34 [0, 0] ↔ t.secondsMs = 0 := by
  have hms : ntohs m 34 = t.secondsMs := ntohs_eq_iff.mpr (allStand_cons.mp h).1
  rw [← hms, ntohs_eq_iff]
  rfl

def misplacedTlv (h : Header) (t : Timestamp) : List UInt8 :=
  (be64 h.correctionField.toNat).drop 2 ++ [0, 0, 0, 0] ++
    h.sourcePortIdentity.clockIdentity.val ++ be16 h.sourcePortIdentity.portNumber.toNat ++
    be16 h.sequenceId.toNat ++ [UInt8.ofNat h.control.toNat] ++ [h.logMeanMessageInterval] ++
    be16 t.secondsMs.toNat ++ be32 t.secondsLs.toNat ++ (be32 t.nanoseconds.toNat).take 2

theorem Laid.misplacedTlv {hd : Header} (h : Laid m ⟨hd, .followUp t tlv⟩) :
    Stands m 10 (Gptp.misplacedTlv hd t) := by
  obtain ⟨-, -, -, -, -, hcorrection, hsource, hseq, h33⟩ := allStand_header.mp h.header
  obtain ⟨ht, -⟩ := allStand_append.mp h.body
  simp only [PortIdentity.fields, Timestamp.fields, allStand_cons, allStand_nil, and_true]
    at hsource ht
  obtain ⟨hclock, hport⟩ := hsource
  obtain ⟨h34, h36, h40⟩ := ht
  rw [← take_append_drop 2 (be64 _), stands_append] at hcorrection
  rw [← take_append_drop 2 (be32 t.nanoseconds.toNat), stands_append] at h40
  unfold Gptp.misplacedTlv
  simp only [stands_append, length_append, length_drop, length_be64, length_octets,
    length_be16, length_be32, length_cons, length_nil]
  exact ⟨⟨⟨⟨⟨⟨⟨⟨⟨hcorrection.2, h.reserved⟩, hclock⟩, hport⟩, hseq⟩, h.control⟩, by simpa using h33⟩,
    h34⟩, h36⟩, h40.1⟩

theorem Laid.tlv_iff {hd : Header} (h : Laid m ⟨hd, .followUp t tlv⟩) :
    octetsAt 32 m 10 = tlv ↔ tlv.val = Gptp.misplacedTlv hd t := by
  have hread : read m 10 32 = Gptp.misplacedTlv hd t :=
    h.misplacedTlv.read_eq (by simp [Gptp.misplacedTlv])
  rw [← Subtype.val_inj, ← hread, eq_comm]
  rfl

theorem identities_eq {ids : List ClockIdentity} (h : Stands m p (identityOctets ids)) :
    ((List.range ids.length).map fun i => octetsAt 8 m (p + 8 * i)) = ids := by
  induction ids generalizing p with
  | nil => rfl
  | cons id ids ih =>
    unfold identityOctets at h
    rw [flatMap_cons, stands_append, id.property] at h
    obtain ⟨hid, hids⟩ := h
    rw [length_cons, range_succ_eq_map, map_cons, map_map]
    refine congrArg₂ List.cons (octetsAt_eq_iff.mpr hid) ((map_congr_left fun i _ => ?_).trans
      (ih hids))
    show octetsAt 8 m (p + 8 * (i + 1)) = octetsAt 8 m (p + 8 + 8 * i)
    rw [show p + 8 * (i + 1) = p + 8 + 8 * i by omega]

theorem announceAt_eq_of_fields {a : Announce} (h : AllStand m a.fields)
    (hids : a.pathTrace.length < 8192) (hn : 9 ≤ n) : announceAt m n = (a, 66) := by
  obtain ⟨utc, prio1, ⟨cls, accuracy, variance⟩, prio2, gm, steps, source, ids⟩ := a
  simp only [Announce.fields, ClockQuality.octets, pathTraceOctets, allStand_cons, allStand_nil,
    stands_append, stands_cons, stands_nil, length_append, length_cons, length_nil,
    length_be16, and_true] at h
  obtain ⟨hutc, hprio1, ⟨⟨hcls, hacc⟩, hvar⟩, hprio2, hgm, hsteps, hsource, ⟨htype, hlen⟩, hstands⟩ := h
  have hword : word m 64 = pathTraceTlvType := word_of_stands htype (by decide)
  have hlength : word m 66 / 8 = ids.length := by
    have hlt : ids.length < 8192 := hids
    rw [word_of_stands hlen (by omega)]
    omega
  have htrace : parseClockIdentity m 66 = ids := by
    rw [parseClockIdentity, hlength]
    exact identities_eq hstands
  simp only [announceAt, hasTlv_iff hn, if_pos hword]
  rw [htrace, hprio1, hcls, hacc, hprio2, hsource,
    ntohs_eq_iff.mpr hutc, ntohs_eq_iff.mpr hvar, ntohs_eq_iff.mpr hsteps, octetsAt_eq_iff.mpr hgm]

def behindLength (ids : List ClockIdentity) (rest : Mem) : Mem :=
  recvBuffer (identityOctets ids) fun i => rest (68 + i)

theorem recvBuffer_of_stands {rest : Mem} (h : Stands m p xs)
    (hrest : ∀ i, xs.length ≤ i → m (p + i) = rest i) : recvBuffer xs rest i = m (p + i) := by
  by_cases hi : i < xs.length
  · have hget : (read m p xs.length)[i]? = some (m (p + i)) := getElem_read hi
    rw [h.read_eq rfl] at hget
    simp only [recvBuffer, List.getD, hget, Option.getD_some]
  · rw [recvBuffer_behind _ (by omega), hrest i (by omega)]

theorem behindLength_eq (hd : Header) (a : Announce) (rest : Mem) :
    (behindLength a.pathTrace rest) i =
      recvBuffer (Message.octets ⟨hd, .announce a⟩) rest (68 + i) := by
  have hlaid := laid_octets ⟨hd, .announce a⟩ rest
  refine recvBuffer_of_stands ?_ fun i hi => recvBuffer_behind rest ?_
  · have hbody : AllStand _ a.fields := hlaid.body
    simp only [Announce.fields, pathTraceOctets, allStand_cons, allStand_nil, stands_append] at hbody
    exact hbody.2.2.2.2.2.2.2.1.2
  · rw [Message.length_octets]
    simp only [length_identityOctets] at hi
    simp only [Body.messageLength, ptpCommonHdrLength, ptpAnnounceLength]
    omega

theorem stands_shift {m' : Mem} (h : ∀ i, m' i = m (p + i)) : Stands m (p + q) xs ↔ Stands m' q xs := by
  induction xs generalizing q with
  | nil => simp
  | cons x xs ih => rw [stands_cons, stands_cons, h q, add_assoc, ih]

theorem announce_headerAt_iff (hd : Header) (a : Announce) (rest : Mem) :
    let m := recvBuffer (Message.octets ⟨hd, .announce a⟩) rest
    headerAt m 66 (portIdentityAt m 20 28) (ntohs m 30) = hd ↔
      hd.versionPTP = UInt8.ofNat (8 * a.pathTrace.length) ∧
        AllStand (behindLength a.pathTrace rest)
          [(0, be16 hd.messageLength.toNat), (2, [hd.domainNumber]), (4, hd.flags.val),
            (6, be64 hd.correctionField.toNat), (30, le32 hd.control.toNat),
            (31, [hd.logMeanMessageInterval])] := by
  intro m
  have hlaid : Laid m ⟨hd, .announce a⟩ := laid_octets _ rest
  obtain ⟨-, -, -, -, -, -, hsource, hseq, -⟩ := allStand_header.mp hlaid.header
  have hversion : m 67 = UInt8.ofNat (8 * a.pathTrace.length) := by
    have hbody : AllStand m a.fields := hlaid.body
    simp only [Announce.fields, pathTraceOctets, be16, allStand_cons, allStand_nil, stands_append,
      stands_cons, stands_nil] at hbody
    rw [mul_comm]
    exact hbody.2.2.2.2.2.2.2.1.1.2.2.1
  have hshift : ∀ q {xs}, Stands m (68 + q) xs ↔ Stands (behindLength a.pathTrace rest) q xs :=
    fun q => stands_shift fun i => behindLength_eq hd a rest
  have h67 : Stands m 67 [hd.versionPTP] ↔
      hd.versionPTP = UInt8.ofNat (8 * a.pathTrace.length) := by
    rw [stands_cons, hversion, and_iff_left stands_nil, eq_comm]
  rw [headerAt_eq_iff, portIdentityAt_eq_iff, ntohs_eq_iff, and_iff_left ⟨hsource, hseq⟩]
  simp only [Header.late, allStand_cons, allStand_nil, and_true]
  exact and_congr h67 (and_congr (hshift 0) (and_congr (hshift 2) (and_congr (hshift 4)
    (and_congr (hshift 6) (and_congr (hshift 30) (hshift 31))))))

def Message.Survives (bmca : Bool) (rest : Mem) (msg : Message) : Prop :=
  match msg.body with
  | .sync t =>
    msg.header.logMeanMessageInterval = 0 ∧ t.secondsMs = 0 ∧
      (be32 t.secondsLs.toNat).reverse = be32 t.secondsLs.toNat ∧
      (be32 t.nanoseconds.toNat).reverse = be32 t.nanoseconds.toNat
  | .followUp t tlv =>
    msg.header.logMeanMessageInterval = 0 ∧ t.secondsMs = 0 ∧ tlv.val = misplacedTlv msg.header t
  | .pathDelayReq => msg.header.logMeanMessageInterval = 0
  | .pathDelayResp t _ => msg.header.logMeanMessageInterval = 0 ∧ t.secondsMs = 0
  | .pathDelayRespFollowUp t _ => msg.header.logMeanMessageInterval = 0 ∧ t.secondsMs = 0
  | .announce a =>
    bmca = true ∧ msg.header.versionPTP = UInt8.ofNat (8 * a.pathTrace.length) ∧
      AllStand (behindLength a.pathTrace rest)
        [(0, be16 msg.header.messageLength.toNat), (2, [msg.header.domainNumber]),
          (4, msg.header.flags.val), (6, be64 msg.header.correctionField.toNat),
          (30, le32 msg.header.control.toNat), (31, [msg.header.logMeanMessageInterval])]

theorem Laid.decoded_front_iff {b : Body} (h : Laid m msg) (hrx : port.Timestamps msg)
    (hcontrol : msg.header.control.toNat ≤ 5)
    (hbody : bodyAt port.bmca msg.body.messageType m n = some (b, 0)) :
    (buildPTPMessage port m n).map (·.message) = some msg ↔
      msg.header.logMeanMessageInterval = 0 ∧ Stands m 34 [0, 0] ∧ b = msg.body := by
  rw [h.decoded_iff hrx, hbody, ← and_assoc, ← h.headerAt_iff hcontrol]
  constructor
  · rintro ⟨p, hp, hhead⟩
    obtain ⟨rfl, rfl⟩ := Prod.mk.inj (Option.some.inj hp)
    exact ⟨hhead, rfl⟩
  · rintro ⟨hhead, rfl⟩
    exact ⟨0, rfl, hhead⟩

theorem Laid.decoded_timestamp_iff {b : Body} {t : Timestamp} (h : Laid m msg)
    (hrx : port.Timestamps msg) (hcontrol : msg.header.control.toNat ≤ 5)
    (hbody : bodyAt port.bmca msg.body.messageType m n = some (b, 0))
    (ht : AllStand m (t.fields 34)) : (buildPTPMessage port m n).map (·.message) = some msg ↔
      msg.header.logMeanMessageInterval = 0 ∧ t.secondsMs = 0 ∧ b = msg.body := by
  rw [h.decoded_front_iff hrx hcontrol hbody, secondsMs_iff ht]

theorem decoded_iff_survives (msg : Message) (rest : Mem) (hrx : port.Timestamps msg)
    (hcontrol : msg.header.control.toNat ≤ 5) (hfits : msg.body.messageLength ≤ 256) :
    (buildPTPMessage port (recvBuffer msg.octets rest) msg.octets.length).map (·.message) =
      some msg ↔ msg.Survives port.bmca rest := by
  have h : Laid (recvBuffer msg.octets rest) msg := laid_octets msg rest
  obtain ⟨hd, body⟩ := msg
  rw [Message.length_octets]
  cases body with
  | sync t =>
    have ht : AllStand _ (t.fields 34) := h.body
    refine (h.decoded_timestamp_iff hrx hcontrol
      (bodyAt_sync.trans (if_neg (lt_irrefl 44))) ht).trans ?_
    refine and_congr_right fun _ => and_congr_right fun hms => ?_
    rw [Body.sync.injEq, syncTimestampAt_iff ht hms]
  | followUp t tlv =>
    obtain ⟨ht, -⟩ := allStand_append.mp h.body
    refine (h.decoded_timestamp_iff hrx hcontrol
      (bodyAt_followUp.trans (if_neg (lt_irrefl 76))) ht).trans ?_
    refine and_congr_right fun _ => and_congr_right fun hms => ?_
    rw [Body.followUp.injEq, h.tlv_iff, timestampAt_eq_iff, and_iff_right ht]
  | pathDelayReq =>
    refine (h.decoded_front_iff hrx hcontrol (bodyAt_pathDelayReq.trans
      (if_neg fun hlt => lt_irrefl 54 hlt.1))).trans ?_
    exact and_iff_left ⟨h.behind_zero hcontrol nofun, rfl⟩
  | pathDelayResp t id =>
    obtain ⟨ht, hid⟩ := allStand_append.mp h.body
    refine (h.decoded_timestamp_iff hrx hcontrol
      (bodyAt_pathDelayResp.trans (if_neg (lt_irrefl 54))) ht).trans ?_
    rw [timestampAt_eq_iff.mpr ht, portIdentityAt_eq_iff.mpr hid]
    exact and_congr_right fun _ => and_iff_left rfl
  | pathDelayRespFollowUp t id =>
    obtain ⟨ht, hid⟩ := allStand_append.mp h.body
    refine (h.decoded_timestamp_iff hrx hcontrol bodyAt_pathDelayRespFollowUp ht).trans ?_
    rw [timestampAt_eq_iff.mpr ht, portIdentityAt_eq_iff.mpr hid]
    exact and_congr_right fun _ => and_iff_left rfl
  | announce a =>
    have hlen : a.pathTrace.length < 8192 := by
      simp only [Body.messageLength, ptpCommonHdrLength, ptpAnnounceLength] at hfits
      omega
    have hbody : announceAt _ _ = (a, 66) := announceAt_eq_of_fields h.body hlen
      (le_trans (by decide) (Body.messageLength_ge (.announce a)))
    rw [h.decoded_iff hrx]
    show (∃ p, bodyAt port.bmca announceMessage _ _ = some (.announce a, p) ∧ _) ↔ _
    rw [bodyAt_announce, hbody]
    refine Iff.trans ?_ (and_congr_right fun _ => announce_headerAt_iff hd a rest)
    constructor
    · rintro ⟨p, hp, hhead⟩
      split at hp
      case isTrue hb =>
        obtain ⟨-, rfl⟩ := Prod.mk.inj (Option.some.inj hp)
        exact ⟨hb, hhead⟩
      case isFalse => cases hp
    · rintro ⟨hb, hhead⟩
      exact ⟨66, if_pos hb, hhead⟩

/-- A message is decoded as it was sent in just these cases. -/
theorem sendPort_buildPTPMessage_iff (port : RxPort) (m : Message) (now : Timestamp) (rest : Mem)
    (hrx : port.Timestamps m) (hcontrol : m.header.control.toNat ≤ 5)
    (hfits : m.body.messageLength ≤ 256) :
    let (sent, octets) := m.sendPort now
    (buildPTPMessage port (recvBuffer octets rest) octets.length).map (·.message) = some sent ↔
      sent.Survives port.bmca rest := by
  have hbody : (m.stamped now).body.messageType = m.body.messageType ∧
      (m.stamped now).body.messageLength = m.body.messageLength := by
    unfold Message.stamped
    cases m.body <;> exact ⟨rfl, rfl⟩
  refine decoded_iff_survives (m.stamped now) rest ?_ hcontrol (by rw [hbody.2]; exact hfits)
  unfold RxPort.Timestamps at hrx ⊢
  rw [hbody.1]
  exact hrx

def samplePort : RxPort := ⟨true, fun _ _ _ => some ⟨⟨0, 9, 0⟩, 0, 0⟩⟩

def sampleHeader (control : UInt32) (log : UInt8) : Header where
  versionPTP := 2
  messageLength := 0
  domainNumber := 0
  flags := .ofList 2 [0, 8]
  correctionField := 0
  sourcePortIdentity := ⟨⟨[0, 1, 2, 255, 254, 3, 4, 5], rfl⟩, 1⟩
  sequenceId := 7
  control := control
  logMeanMessageInterval := log

theorem pathDelayReq_round_trip :
    let (sent, octets) := Message.sendPort ⟨sampleHeader 5 0, .pathDelayReq⟩ ⟨0, 0, 0⟩
    (buildPTPMessage samplePort (recvBuffer octets (look [])) octets.length).map (·.message) =
      some sent :=
  (sendPort_buildPTPMessage_iff samplePort ⟨sampleHeader 5 0, .pathDelayReq⟩ ⟨0, 0, 0⟩ (look [])
    (fun _ => rfl) (by decide) (by decide)).mpr rfl

/-- A follow-up with its TLV, a peer delay response and an announce message with one identity are
decoded as something else. -/
theorem messages_changed_by_round_trip :
    let body : Message → Option Body := fun msg =>
      (buildPTPMessage samplePort (recvBuffer msg.octets (look [])) msg.octets.length).map
        (·.message.body)
    let control : Message → Option (UInt16 × UInt32) := fun msg =>
      (buildPTPMessage samplePort (recvBuffer msg.octets (look [])) msg.octets.length).map fun r =>
        (r.message.header.messageLength, r.message.header.control)
    let tlv : Octets 32 := Octets.ofList 32 [0, 3, 0, 28, 0, 0x80, 0xC2, 0, 0, 1]
    let followUp := Message.sendPort ⟨sampleHeader 2 0, .followUp ⟨0, 1, 0⟩ tlv⟩ ⟨0, 0, 0⟩
    let response := Message.sendPort
      ⟨sampleHeader 5 0x7F, .pathDelayResp ⟨0, 1, 0⟩ (sampleHeader 5 0).sourcePortIdentity⟩ ⟨0, 0, 0⟩
    let announce := Message.sendPort ⟨sampleHeader 5 0, .announce
      ⟨0, 248, ⟨248, 254, 0⟩, 248, ⟨[0, 1, 2, 255, 254, 3, 4, 5], rfl⟩, 0, 160,
        [⟨[0, 1, 2, 255, 254, 3, 4, 5], rfl⟩]⟩⟩ ⟨0, 0, 0⟩
    body followUp.1 ≠ some followUp.1.body ∧
      control response.1 = some (54, 0x7F05) ∧
      (control announce.1).map Prod.fst = some 1 ∧ announce.2.length = 76 := by
  decide +kernel

end OpenAvb.Gptp
