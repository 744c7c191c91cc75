import OpenAvb.Gptp.Clock

/-!
# The peer delay mechanism

A port asks its peer for two timestamps, and measures the delay of the link and
the ratio of the two clocks from them. The follow-up is put off while the request
has no transmit timestamp yet.
-/

namespace OpenAvb.Gptp

section

open List

structure Stamp where
  timestamp : Timestamp
  version : UInt8
  deriving DecidableEq

def invalidTimestampVersion : UInt8 := 0xFF
def invalidTimestamp : Stamp := ⟨⟨0, 0, 0xC0000000⟩, invalidTimestampVersion⟩
def pdelayPendingTimestamp : Stamp := ⟨⟨0, 0, 0xC0000001⟩, invalidTimestampVersion⟩

/-- `TIMESTAMP_TO_NS` -/
def Timestamp.toNs (t : Timestamp) : Int64 :=
  ((Int64.ofNat t.secondsMs.toNat <<< 32) + Int64.ofNat t.secondsLs.toNat) * 1000000000 +
    Int64.ofNat t.nanoseconds.toNat

def Timestamp.since (t u : Timestamp) : Int64 :=
  ((Int64.ofNat t.secondsMs.toNat - Int64.ofNat u.secondsMs.toNat) <<< 32) * 1000000000 +
    (Int64.ofNat t.secondsLs.toNat - Int64.ofNat u.secondsLs.toNat) * 1000000000 +
    (Int64.ofNat t.nanoseconds.toNat - Int64.ofNat u.nanoseconds.toNat)

/-- What is computed with a `FrequencyRatio`, which is a `long double`. -/
structure FrequencyArith (ρ : Type) where
  one : ρ
  near : ρ → Bool
  scale : UInt64 → ρ → UInt64
  ratio : UInt64 → UInt64 → ρ

structure PDelayReq where
  sequenceId : UInt16
  sourcePortIdentity : PortIdentity
  timestamp : Stamp
  deriving DecidableEq

structure PDelayResp where
  sequenceId : UInt16
  (sourcePortIdentity requestingPortIdentity : PortIdentity)
  requestReceiptTimestamp : Timestamp
  timestamp : Stamp
  deriving DecidableEq

structure PDelayRespFollowUp where
  sequenceId : UInt16
  (sourcePortIdentity requestingPortIdentity : PortIdentity)
  responseOriginTimestamp : Timestamp
  deriving DecidableEq

structure Exchange where
  req : PDelayReq
  resp : PDelayResp
  fwup : PDelayRespFollowUp
  deriving DecidableEq

def Exchange.Proper (own : PortIdentity) (t : Exchange) : Prop :=
  t.req.sourcePortIdentity = own ∧ t.req.sequenceId = t.fwup.sequenceId ∧
    t.resp.sequenceId = t.fwup.sequenceId ∧
    t.resp.sourcePortIdentity = t.fwup.sourcePortIdentity ∧
    t.resp.requestingPortIdentity = own ∧ t.fwup.requestingPortIdentity = own

/-- The part of `IEEE1588Port` that measures the link. While `sending`, the timer thread waits for a
transmit timestamp; every exchange measured is kept in `updates`. -/
structure PeerDelay (ρ : Type) where
  place : Nat
  portIdentity : PortIdentity
  portState : PortState
  pdelaySequenceId : UInt16
  lastPDelayReq : Option PDelayReq
  lastPDelayResp : Option PDelayResp
  lastPDelayRespFollowUp : Option PDelayRespFollowUp
  oneWayDelay : Int64
  peerRateOffset : ρ
  (peerOffsetTsMine peerOffsetTsTheirs : Timestamp)
  (peerOffsetInit asCapable : Bool)
  pdelayCount : UInt32
  timers : Timers
  (sending aborted : Bool)
  updates : List Exchange

inductive Verdict where
  | ignore
  | abort
  | defer
  | measure (t : Exchange)
  deriving DecidableEq

def Verdict.exchange : Verdict → Option Exchange
  | .measure t => some t
  | _ => none

inductive PeerDelayInput where
  | receive (r : Received)
  | expire (e : Event)
  /-- `getTxTimestamp` for the request that is being sent, `none` if all attempts fail. -/
  | txTimestamp (t : Option Stamp)
  | setPortState (state : PortState)

namespace PeerDelay

variable {ρ : Type}

section

variable (s : PeerDelay ρ)

def getLinkDelay : UInt64 := if 0 < s.oneWayDelay then s.oneWayDelay.toUInt64 else 0

def Ignores : Prop := s.portState = .disabled ∨ s.portState = .faulty

instance (s : PeerDelay ρ) : Decidable s.Ignores :=
  inferInstanceAs (Decidable (s.portState = .disabled ∨ s.portState = .faulty))

/-- `PTPMessagePathDelayResp::processMessage` -/
def processPathDelayResp (resp : PDelayResp) : PeerDelay ρ :=
  if s.Ignores then s
  else
    { s with
      timers := deleteEventTimer s.timers s.place .pdelayRespReceiptTimeoutExpires
      lastPDelayResp := some resp }

/-- The checks of `PTPMessagePathDelayRespFollowUp::processMessage`; identities are not among
them. -/
def verdict (f : PDelayRespFollowUp) : Verdict :=
  if s.Ignores then .ignore
  else match s.lastPDelayReq, s.lastPDelayResp with
  | some req, some resp =>
    if req.sequenceId ≠ f.sequenceId then .abort
    else if resp.sequenceId ≠ f.sequenceId ∨
        resp.requestingPortIdentity ≠ f.requestingPortIdentity then .abort
    else if req.timestamp.timestamp.nanoseconds = invalidTimestamp.timestamp.nanoseconds then .abort
    else if req.timestamp.timestamp.nanoseconds = pdelayPendingTimestamp.timestamp.nanoseconds then
      .defer
    else if req.timestamp.version ≠ resp.timestamp.version then .abort
    else .measure ⟨req, resp, f⟩
  | _, _ => .abort

variable (ar : FrequencyArith ρ)

def measure (s : PeerDelay ρ) (t : Exchange) : PeerDelay ρ :=
  let requestTx := t.req.timestamp.timestamp
  let remoteReqRx := t.resp.requestReceiptTimestamp
  let turnAround := (t.fwup.responseOriginTimestamp.since remoteReqRx).toUInt64
  let turnAround :=
    if ar.near s.peerRateOffset then ar.scale turnAround s.peerRateOffset else turnAround
  let linkDelay := ((t.resp.timestamp.timestamp.since requestTx).toUInt64 - turnAround).toInt64 / 2
  let s :=
    if s.peerOffsetInit then
      let mineElapsed := (requestTx.toNs - s.peerOffsetTsMine.toNs).toUInt64
      let theirsElapsed := (remoteReqRx.toNs - s.peerOffsetTsTheirs.toNs).toUInt64 - s.getLinkDelay +
        (if linkDelay < 0 then 0 else linkDelay.toUInt64)
      { s with peerRateOffset := ar.ratio mineElapsed theirsElapsed, asCapable := true }
    else s
  { s with
    pdelayCount := s.pdelayCount + 1
    oneWayDelay := linkDelay
    peerOffsetTsMine := requestTx
    peerOffsetTsTheirs := remoteReqRx
    peerOffsetInit := true
    updates := t :: s.updates }

def dropExchange : PeerDelay ρ :=
  { s with lastPDelayReq := none, lastPDelayResp := none }

/-- `PTPMessagePathDelayRespFollowUp::processMessage`, with what it leaves in `_gc`. -/
def processFollowUp (s : PeerDelay ρ) (f : PDelayRespFollowUp) : PeerDelay ρ × Bool :=
  match s.verdict f with
  | .ignore => (s, false)
  | .abort => (s.dropExchange, true)
  | .defer =>
    ({ s with
        lastPDelayRespFollowUp := some f
        timers := addEventTimer s.timers s.place .pdelayDeferredProcessing }, false)
  | .measure t => ((s.measure ar t).dropExchange, true)

/-- A request is answered from its own contents, so that it changes nothing here. -/
def receive (s : PeerDelay ρ) (r : Received) : PeerDelay ρ :=
  let h := r.message.header
  match r.message.body with
  | .pathDelayResp t requesting =>
    s.processPathDelayResp
      ⟨h.sequenceId, h.sourcePortIdentity, requesting, t, ⟨r.rx.timestamp, r.rx.version⟩⟩
  | .pathDelayRespFollowUp t requesting =>
    (s.processFollowUp ar ⟨h.sequenceId, h.sourcePortIdentity, requesting, t⟩).1
  | _ => s

def sendRequest : PeerDelay ρ :=
  { s with
    lastPDelayReq := some ⟨s.pdelaySequenceId, s.portIdentity, pdelayPendingTimestamp⟩
    pdelaySequenceId := s.pdelaySequenceId + 1
    sending := true }

def requestSent (t : Option Stamp) : PeerDelay ρ :=
  { s with
    lastPDelayReq := s.lastPDelayReq.map fun req => { req with timestamp := t.getD invalidTimestamp }
    timers := addEventTimer (addEventTimer s.timers s.place .pdelayRespReceiptTimeoutExpires) s.place
      .pdelayIntervalTimeoutExpires
    sending := false }

/-- `PDELAY_DEFERRED_PROCESSING` -/
def deferredProcessing (s : PeerDelay ρ) : PeerDelay ρ :=
  match s.lastPDelayRespFollowUp with
  | none => { s with aborted := true }
  | some f =>
    let (s, garbage) := s.processFollowUp ar f
    if garbage then { s with lastPDelayRespFollowUp := none } else s

/-- `PDELAY_RESP_RECEIPT_TIMEOUT_EXPIRES` -/
def respReceiptTimeout : PeerDelay ρ :=
  { s with asCapable := false, peerOffsetInit := false, pdelayCount := 0 }

def processEvent (s : PeerDelay ρ) : Event → PeerDelay ρ
  | .pdelayIntervalTimeoutExpires => s.sendRequest
  | .pdelayDeferredProcessing => s.deferredProcessing ar
  | .pdelayRespReceiptTimeoutExpires => s.respReceiptTimeout
  | _ => s

/-- The events are processed by one thread, which may be waiting for a timestamp. -/
def step (s : PeerDelay ρ) (i : PeerDelayInput) : PeerDelay ρ :=
  if s.aborted then s
  else
    match i with
    | .receive r => s.receive ar r
    | .expire e =>
      if s.sending = false ∧ (e, s.place) ∈ s.timers then
        { s with timers := s.timers.erase (e, s.place) }.processEvent ar e
      else s
    | .txTimestamp t => if s.sending then s.requestSent t else s
    | .setPortState state => { s with portState := state }

/-- A port whose first request is scheduled. The constructor leaves the peer offset as it is. -/
def start (place : Nat) (id : PortIdentity) (mine theirs : Timestamp)
    (init : Bool) : PeerDelay ρ where
  place := place
  portIdentity := id
  portState := .initializing
  pdelaySequenceId := 0
  lastPDelayReq := none
  lastPDelayResp := none
  lastPDelayRespFollowUp := none
  oneWayDelay := 3600000000000
  peerRateOffset := ar.one
  peerOffsetTsMine := mine
  peerOffsetTsTheirs := theirs
  peerOffsetInit := init
  asCapable := false
  pdelayCount := 0
  timers := [(.pdelayIntervalTimeoutExpires, place)]
  sending := false
  aborted := false
  updates := []

def measured : Int64 × ρ × Timestamp × Timestamp :=
  (s.oneWayDelay, s.peerRateOffset, s.peerOffsetTsMine, s.peerOffsetTsTheirs)

def handled (i : PeerDelayInput) : Option PDelayRespFollowUp :=
  if s.aborted then none
  else
    match i with
    | .receive r =>
      match r.message.body with
      | .pathDelayRespFollowUp t requesting => some
          ⟨r.message.header.sequenceId, r.message.header.sourcePortIdentity, requesting, t⟩
      | _ => none
    | .expire e =>
      if e = .pdelayDeferredProcessing ∧ s.sending = false ∧ (e, s.place) ∈ s.timers then
        s.lastPDelayRespFollowUp
      else none
    | _ => none

def measures (i : PeerDelayInput) : Option Exchange :=
  (s.handled i).bind fun f => (s.verdict f).exchange

end

/-- The request was sent and stamped, by the clock that stamped the response. -/
structure Usable (req : PDelayReq) (resp : PDelayResp) : Prop where
  valid : req.timestamp.timestamp.nanoseconds ≠ invalidTimestamp.timestamp.nanoseconds
  sent : req.timestamp.timestamp.nanoseconds ≠ pdelayPendingTimestamp.timestamp.nanoseconds
  version : req.timestamp.version = resp.timestamp.version

variable {ar : FrequencyArith ρ} {s : PeerDelay ρ}

theorem verdict_exchange_iff : (s.verdict f).exchange = some t ↔ ¬ s.Ignores ∧
    s.lastPDelayReq = some t.req ∧ s.lastPDelayResp = some t.resp ∧ f = t.fwup ∧
      t.req.sequenceId = f.sequenceId ∧ t.resp.sequenceId = f.sequenceId ∧
      t.resp.requestingPortIdentity = f.requestingPortIdentity ∧ Usable t.req t.resp := by
  constructor
  · rintro h
    unfold verdict at h
    split at h
    case isTrue => cases h
    rename_i hstate
    split at h
    case h_2 => cases h
    case h_1 req resp hreq hresp =>
      split_ifs at h with hseq hanswers hvalid hsent hversion
      case neg =>
        obtain rfl : (⟨req, resp, f⟩ : Exchange) = t := Option.some.inj h
        obtain ⟨hrespSeq, hrequesting⟩ := not_or.mp hanswers
        exact ⟨hstate, hreq, hresp, rfl, not_not.mp hseq, not_not.mp hrespSeq, not_not.mp hrequesting,
          hvalid, hsent, not_not.mp hversion⟩
      all_goals cases h
  · obtain ⟨req, resp, fwup⟩ := t
    rintro ⟨hstate, hreq, hresp, rfl, hseq, hrespSeq, hrequesting, hvalid, hsent, hversion⟩
    unfold verdict
    simp only [hreq, hresp]
    rw [if_neg hstate, if_neg (not_not.mpr hseq),
      if_neg (not_or.mpr ⟨not_not.mpr hrespSeq, not_not.mpr hrequesting⟩),
      if_neg hvalid, if_neg hsent, if_neg (not_not.mpr hversion)]
    rfl

def Own (s : PeerDelay ρ) : Prop :=
  ∀ req, s.lastPDelayReq = some req → req.sourcePortIdentity = s.portIdentity

/-- `s'` comes from `s` by a step that measures `t`, if anything. -/
structure After (s s' : PeerDelay ρ) (t : Option Exchange) : Prop where
  updates : s'.updates = t.toList ++ s.updates
  measured : t = none → s'.measured = s.measured
  portIdentity : s'.portIdentity = s.portIdentity
  own : s.Own → s'.Own

theorem After.trans (h : After s s' t) (h' : After s' s'' none) : After s s'' t :=
  ⟨h'.updates.trans h.updates, fun ht => (h'.measured rfl).trans (h.measured ht),
    h'.portIdentity.trans h.portIdentity, fun hown => h'.own (h.own hown)⟩

theorem After.of_none (h : After s s' none) (h' : After s' s'' t) : After s s'' t :=
  ⟨h'.updates.trans (congrArg (t.toList ++ ·) h.updates),
    fun ht => (h'.measured ht).trans (h.measured rfl), h'.portIdentity.trans h.portIdentity,
    fun hown => h'.own (h.own hown)⟩

theorem After.dropExchange (s : PeerDelay ρ) : After s s.dropExchange none :=
  ⟨rfl, fun _ => rfl, rfl, fun _ => nofun⟩

theorem After.measure (s : PeerDelay ρ) (t : Exchange) : After s (s.measure ar t) (some t) := by
  unfold PeerDelay.measure
  dsimp only
  split <;> exact ⟨rfl, nofun, rfl, fun hown req hreq => hown req hreq⟩

theorem After.sendRequest (s : PeerDelay ρ) : After s s.sendRequest none := by
  refine ⟨rfl, fun _ => rfl, rfl, fun _ req hreq => ?_⟩
  obtain rfl := Option.some.inj hreq
  rfl

theorem After.requestSent (s : PeerDelay ρ) (t : Option Stamp) : After s (s.requestSent t) none := by
  refine ⟨rfl, fun _ => rfl, rfl, fun hown req hreq => ?_⟩
  obtain ⟨req', hreq', rfl⟩ := Option.map_eq_some_iff.mp hreq
  exact hown req' hreq'

theorem processPathDelayResp_after (resp : PDelayResp) :
    After s (s.processPathDelayResp resp) none := by
  unfold processPathDelayResp
  split
  · exact ⟨rfl, fun _ => rfl, rfl, id⟩
  · exact ⟨rfl, fun _ => rfl, rfl, id⟩

theorem processFollowUp_after (f : PDelayRespFollowUp) :
    After s (s.processFollowUp ar f).1 (s.verdict f).exchange := by
  unfold processFollowUp
  cases s.verdict f with
  | ignore => exact ⟨rfl, fun _ => rfl, rfl, id⟩
  | abort => exact .dropExchange s
  | defer => exact ⟨rfl, fun _ => rfl, rfl, id⟩
  | measure t => exact (After.measure s t).trans (.dropExchange _)

theorem deferredProcessing_after : After s (s.deferredProcessing ar)
    (s.lastPDelayRespFollowUp.bind fun f => (s.verdict f).exchange) := by
  unfold deferredProcessing
  split
  case h_1 hnone =>
    rw [hnone]
    exact ⟨rfl, fun _ => rfl, rfl, id⟩
  case h_2 f hf =>
    have hprocessed : After s (s.processFollowUp ar f).1 _ := processFollowUp_after f
    rw [hf]
    dsimp only
    split
    · exact hprocessed.trans ⟨rfl, fun _ => rfl, rfl, id⟩
    · exact hprocessed

theorem step_after (s : PeerDelay ρ) (i : PeerDelayInput) : After s (s.step ar i) (s.measures i) := by
  have hsame : After s s none := ⟨rfl, fun _ => rfl, rfl, id⟩
  unfold step measures handled
  split
  case isTrue => exact hsame
  cases i with
  | receive r =>
    dsimp only [receive]
    cases r.message.body with
    | pathDelayResp t requesting => exact processPathDelayResp_after _
    | pathDelayRespFollowUp t requesting => exact processFollowUp_after _
    | _ => exact hsame
  | expire e =>
    dsimp only
    split
    case isFalse hidle =>
      rw [if_neg fun h => hidle h.2]
      exact hsame
    case isTrue hdue =>
      have hexpired : After s { s with timers := s.timers.erase (e, s.place) } none :=
        ⟨rfl, fun _ => rfl, rfl, id⟩
      cases e with
      | pdelayDeferredProcessing =>
        rw [if_pos ⟨rfl, hdue⟩]
        exact hexpired.of_none deferredProcessing_after
      | pdelayIntervalTimeoutExpires => exact hexpired.trans (.sendRequest _)
      | pdelayRespReceiptTimeoutExpires => exact hexpired.trans ⟨rfl, fun _ => rfl, rfl, id⟩
      | _ => exact hexpired
  | txTimestamp t =>
    dsimp only
    split
    · exact .requestSent s t
    · exact hsame
  | setPortState state => exact ⟨rfl, fun _ => rfl, rfl, id⟩

/-- The follow-up processed, if it fits what is kept, comes from the sender of the response and is
meant for this port. -/
def FollowUpBelongs (s : PeerDelay ρ) (i : PeerDelayInput) : Prop :=
  ∀ f, s.handled i = some f → ¬ s.Ignores → ∀ req resp, s.lastPDelayReq = some req →
    s.lastPDelayResp = some resp → req.sequenceId = f.sequenceId → resp.sequenceId = f.sequenceId →
    resp.requestingPortIdentity = f.requestingPortIdentity → Usable req resp →
    resp.sourcePortIdentity = f.sourcePortIdentity ∧ f.requestingPortIdentity = s.portIdentity

theorem measures_proper_iff (hown : s.Own) :
    (∀ t, s.measures i = some t → t.Proper s.portIdentity) ↔ s.FollowUpBelongs i := by
  constructor
  · rintro h f hf hstate req resp hreq hresp hseq hrespSeq hrequesting husable
    have ht : s.measures i = some ⟨req, resp, f⟩ := by
      rw [measures, hf, Option.bind_some, verdict_exchange_iff]
      exact ⟨hstate, hreq, hresp, rfl, hseq, hrespSeq, hrequesting, husable⟩
    obtain ⟨-, -, -, hsource, -, hfor⟩ := h _ ht
    exact ⟨hsource, hfor⟩
  · rintro h t ht
    obtain ⟨f, hf, hverdict⟩ := Option.bind_eq_some_iff.mp ht
    obtain ⟨hstate, hreq, hresp, rfl, hseq, hrespSeq, hrequesting, husable⟩ :=
      verdict_exchange_iff.mp hverdict
    obtain ⟨hsource, hfor⟩ := h t.fwup hf hstate _ _ hreq hresp hseq hrespSeq hrequesting husable
    exact ⟨hown _ hreq, hseq, hrespSeq, hsource, hrequesting.trans hfor, hfor⟩

def UpdatesProper (s : PeerDelay ρ) : Prop := ∀ t ∈ s.updates, t.Proper s.portIdentity

theorem step_updatesProper_iff (hown : s.Own) (hproper : s.UpdatesProper) :
    (s.step ar i).UpdatesProper ↔ s.FollowUpBelongs i := by
  obtain ⟨hupdates, -, hid, -⟩ : After s (s.step ar i) _ := step_after s i
  rw [← measures_proper_iff hown]
  unfold UpdatesProper
  rw [hupdates, hid]
  simp only [mem_append, Option.mem_toList, or_imp, forall_and]
  exact and_iff_left hproper

theorem measured_of_updates_eq (h : (s.step ar i).updates = s.updates) :
    (s.step ar i).measured = s.measured := by
  obtain ⟨hupdates, hmeasured, -, -⟩ : After s (s.step ar i) _ := step_after s i
  rw [hupdates, append_left_eq_self, Option.toList_eq_nil_iff] at h
  exact hmeasured h

/-- The measured values change only with an exchange, and in exactly the runs whose follow-ups all
belong to what they fit is every exchange the port's own. -/
theorem peerDelay_updatesProper_iff (ar : FrequencyArith ρ) (place : Nat) (id : PortIdentity)
    (mine theirs : Timestamp) (init : Bool) (inputs : List PeerDelayInput) :
    (∀ s i, (step ar s i).updates = s.updates → (step ar s i).measured = s.measured) ∧
      (Always (step ar) UpdatesProper (start ar place id mine theirs init) inputs ↔
        Each (step ar) FollowUpBelongs (start ar place id mine theirs init) inputs) := by
  refine ⟨fun _ _ => measured_of_updates_eq, ?_⟩
  exact always_iff_each (I := Own) (fun s i => (step_after s i).own)
    (fun _ _ => step_updatesProper_iff) nofun nofun

instance (own : PortIdentity) (t : Exchange) : Decidable (t.Proper own) :=
  inferInstanceAs (Decidable (_ ∧ _ ∧ _ ∧ _ ∧ _ ∧ _))

instance : DecidablePred (UpdatesProper (ρ := ρ)) := fun s =>
  inferInstanceAs (Decidable (∀ t ∈ s.updates, t.Proper s.portIdentity))

def sampleArith : FrequencyArith Unit where
  one := ()
  near _ := true
  scale t _ := t
  ratio _ _ := ()

def sampleIdentity (n : UInt8) : PortIdentity := ⟨.ofList 8 [0, 1, 2, 255, 254, 3, 4, n], 1⟩

def samplePeerDelay : PeerDelay Unit :=
  start sampleArith 0 (sampleIdentity 5) ⟨0, 0, 0⟩ ⟨0, 0, 0⟩ false

def sampleReceived (source : PortIdentity) (body : Body) : Received :=
  { message :=
      { header :=
          { versionPTP := 2
            messageLength := 54
            domainNumber := 0
            flags := ⟨[2, 8], rfl⟩
            correctionField := 0
            sourcePortIdentity := source
            sequenceId := 0
            control := 5
            logMeanMessageInterval := 0x7F }
        body := body }
    rx := ⟨⟨0, 1, 1000⟩, 0, 0⟩ }

def sampleAnswers (n : UInt8) (requesting : PortIdentity) : List PeerDelayInput :=
  [.expire .pdelayIntervalTimeoutExpires, .txTimestamp (some ⟨⟨0, 1, 0⟩, 0⟩),
    .receive (sampleReceived (sampleIdentity 6) (.pathDelayResp ⟨0, 9, 100⟩ requesting)),
    .receive (sampleReceived (sampleIdentity n) (.pathDelayRespFollowUp ⟨0, 9, 300⟩ requesting))]

/-- The follow-up of another station is taken, and so is an answer to another port. -/
theorem peerDelay_measures_others :
    (∀ answers ∈ [sampleAnswers 7 (sampleIdentity 5), sampleAnswers 6 (sampleIdentity 8)],
      ¬ Always (step sampleArith) UpdatesProper samplePeerDelay answers ∧
        (run (step sampleArith) samplePeerDelay answers).oneWayDelay = 400) ∧
    Always (step sampleArith) UpdatesProper samplePeerDelay (sampleAnswers 6 (sampleIdentity 5)) := by
  decide

def followUp? (r : Received) : Option PDelayRespFollowUp :=
  match r.message.body with
  | .pathDelayRespFollowUp t requesting =>
    some ⟨r.message.header.sequenceId, r.message.header.sourcePortIdentity, requesting, t⟩
  | _ => none

section

variable (s : PeerDelay ρ)

/-- The follow-up fits what is kept, and the request has no transmit timestamp yet. -/
def PutsOff (f : PDelayRespFollowUp) : Prop :=
  ¬ s.Ignores ∧ ∃ req ∈ s.lastPDelayReq, ∃ resp ∈ s.lastPDelayResp,
    req.sequenceId = f.sequenceId ∧ resp.sequenceId = f.sequenceId ∧
      resp.requestingPortIdentity = f.requestingPortIdentity ∧
      req.timestamp.timestamp.nanoseconds = pdelayPendingTimestamp.timestamp.nanoseconds

def deferredTimer : Event × Nat := (.pdelayDeferredProcessing, s.place)

def FollowUpAlone : PeerDelayInput → Prop
  | .receive r => ∀ f ∈ followUp? r, s.PutsOff f → s.deferredTimer ∉ s.timers
  | _ => True

/-- When the timer of a follow-up that was put off is handled, a follow-up is kept. -/
def FollowUpKept : PeerDelayInput → Prop
  | .expire .pdelayDeferredProcessing =>
    s.sending = false → s.deferredTimer ∈ s.timers → s.lastPDelayRespFollowUp ≠ none
  | _ => True

theorem verdict_defer_iff (f : PDelayRespFollowUp) : s.verdict f = .defer ↔ s.PutsOff f := by
  have hpending : pdelayPendingTimestamp.timestamp.nanoseconds ≠
      invalidTimestamp.timestamp.nanoseconds := by decide
  unfold verdict PutsOff
  by_cases hignores : s.Ignores
  · simp [hignores]
  cases hreq : s.lastPDelayReq with
  | none => simp [hignores]
  | some req =>
    cases hresp : s.lastPDelayResp with
    | none => simp [hignores]
    | some resp =>
      simp only [hignores, if_false, not_false_eq_true, true_and, Option.mem_def,
        Option.some.injEq, exists_eq_left']
      constructor
      · intro h
        split_ifs at h with hseq hanswers hvalid hsent hversion
        obtain ⟨hrespSeq, hrequesting⟩ := not_or.mp hanswers
        exact ⟨not_not.mp hseq, not_not.mp hrespSeq, not_not.mp hrequesting, hsent⟩
      · rintro ⟨hseq, hrespSeq, hrequesting, hsent⟩
        simp [hseq, hrespSeq, hrequesting, hsent, hpending]

instance (s : PeerDelay ρ) (f : PDelayRespFollowUp) : Decidable (s.PutsOff f) :=
  decidable_of_iff _ (verdict_defer_iff s f)

instance (s : PeerDelay ρ) : (i : PeerDelayInput) → Decidable (s.FollowUpAlone i)
  | .receive r =>
    inferInstanceAs (Decidable (∀ f ∈ followUp? r, s.PutsOff f → s.deferredTimer ∉ s.timers))
  | .expire _ | .txTimestamp _ | .setPortState _ => inferInstanceAs (Decidable True)

structure Backed : Prop where
  running : s.aborted = false
  timer : s.timers.count s.deferredTimer ≤ if s.lastPDelayRespFollowUp.isSome then 1 else 0

end

theorem processFollowUp_of_not_putsOff (ar : FrequencyArith ρ) (h : ¬ s.PutsOff f) :
    (s.processFollowUp ar f).1.timers = s.timers ∧ (s.processFollowUp ar f).1.place = s.place ∧
      (s.processFollowUp ar f).1.aborted = s.aborted ∧
      (s.processFollowUp ar f).1.lastPDelayRespFollowUp = s.lastPDelayRespFollowUp := by
  rw [← verdict_defer_iff] at h
  unfold processFollowUp
  cases hv : s.verdict f with
  | defer => exact absurd hv h
  | ignore => exact ⟨rfl, rfl, rfl, rfl⟩
  | abort => exact ⟨rfl, rfl, rfl, rfl⟩
  | measure t =>
    unfold dropExchange measure
    dsimp only
    split <;> exact ⟨rfl, rfl, rfl, rfl⟩

theorem processFollowUp_of_putsOff (h : s.PutsOff f) :
    s.processFollowUp ar f =
      ({ s with
        lastPDelayRespFollowUp := some f
        timers := s.deferredTimer :: s.timers }, false) := by
  rw [← verdict_defer_iff] at h
  unfold processFollowUp
  rw [h]
  rfl

theorem Backed.processFollowUp (h : s.Backed) (halone : s.PutsOff f → s.deferredTimer ∉ s.timers) :
    (s.processFollowUp ar f).1.Backed := by
  by_cases hoff : s.PutsOff f
  · have hnone := count_eq_zero.mpr (halone hoff)
    rw [processFollowUp_of_putsOff hoff]
    exact ⟨h.running, by simpa [deferredTimer] using hnone⟩
  · obtain ⟨htimers, hplace, haborted, hkept⟩ := processFollowUp_of_not_putsOff ar hoff
    refine ⟨haborted.trans h.running, ?_⟩
    rw [deferredTimer, htimers, hplace, hkept]
    exact h.timer

theorem Backed.receive (h : s.Backed) (halone : s.FollowUpAlone (.receive r)) :
    (s.receive ar r).Backed := by
  unfold PeerDelay.receive
  simp only [FollowUpAlone, followUp?] at halone
  split
  case h_1 =>
    unfold processPathDelayResp
    split
    · exact h
    · exact ⟨h.running, le_trans (filter_sublist.count_le _) h.timer⟩
  case h_2 t requesting hbody =>
    rw [hbody] at halone
    exact h.processFollowUp (halone _ rfl)
  case h_3 => exact h

theorem Backed.deferred (hrunning : s.aborted = false) (hgone : s.deferredTimer ∉ s.timers)
    (hkept : s.lastPDelayRespFollowUp ≠ none) : (s.deferredProcessing ar).Backed := by
  obtain ⟨f, hf⟩ := Option.ne_none_iff_exists'.mp hkept
  have hcount := count_eq_zero.mpr hgone
  have hbacked : s.Backed := ⟨hrunning, by rw [hcount]; exact Nat.zero_le _⟩
  unfold PeerDelay.deferredProcessing
  rw [hf]
  dsimp only
  split
  case isTrue hgarbage =>
    have hoff : ¬ s.PutsOff f := by
      intro hoff
      rw [processFollowUp_of_putsOff hoff] at hgarbage
      cases hgarbage
    obtain ⟨htimers, hplace, haborted, -⟩ := processFollowUp_of_not_putsOff ar hoff
    refine ⟨haborted.trans hrunning, ?_⟩
    simp only [deferredTimer, htimers, hplace] at hcount ⊢
    rw [hcount]
    exact Nat.zero_le _
  case isFalse => exact hbacked.processFollowUp fun _ => hgone

theorem Backed.kept (h : s.Backed) (hdue : s.deferredTimer ∈ s.timers) :
    s.lastPDelayRespFollowUp ≠ none := by
  intro hnone
  have hpos := count_pos_iff.mpr hdue
  have htimer := h.timer
  simp only [hnone, Option.isSome_none, Bool.false_eq_true, if_false] at htimer
  omega

theorem Backed.erase (h : s.Backed) : s.deferredTimer ∉ s.timers.erase s.deferredTimer := by
  have htimer := h.timer
  rw [← count_eq_zero, count_erase_self]
  split at htimer <;> omega

theorem Backed.expire (h : s.Backed) (hdue : (e, s.place) ∈ s.timers) :
    ({ s with timers := s.timers.erase (e, s.place) }.processEvent ar e).Backed := by
  have hrest : ({ s with timers := s.timers.erase (e, s.place) } : PeerDelay ρ).Backed :=
    ⟨h.running, le_trans (erase_sublist.count_le _) h.timer⟩
  cases e with
  | pdelayDeferredProcessing =>
    exact Backed.deferred (s := { s with timers := s.timers.erase s.deferredTimer }) h.running
      h.erase (h.kept hdue)
  | pdelayIntervalTimeoutExpires => exact ⟨hrest.running, hrest.timer⟩
  | pdelayRespReceiptTimeoutExpires => exact ⟨hrest.running, hrest.timer⟩
  | _ => exact hrest

theorem Backed.requestSent (h : s.Backed) (t : Option Stamp) : (s.requestSent t).Backed := by
  refine ⟨h.running, ?_⟩
  show List.count s.deferredTimer ((.pdelayIntervalTimeoutExpires, s.place) ::
    (.pdelayRespReceiptTimeoutExpires, s.place) :: s.timers) ≤ _
  rw [count_cons_of_ne (by simp [deferredTimer]), count_cons_of_ne (by simp [deferredTimer])]
  exact h.timer

theorem Backed.step (s : PeerDelay ρ) (i : PeerDelayInput) (h : s.Backed)
    (halone : s.FollowUpAlone i) : (s.step ar i).Backed := by
  unfold PeerDelay.step
  rw [if_neg (by simp [h.running])]
  cases i with
  | receive r => exact h.receive halone
  | expire e =>
    dsimp only
    split
    case isTrue hdue => exact h.expire hdue.2
    case isFalse => exact h
  | txTimestamp t =>
    dsimp only
    split
    · exact h.requestSent t
    · exact h
  | setPortState state => exact ⟨h.running, h.timer⟩

theorem Backed.followUpKept (s : PeerDelay ρ) (i : PeerDelayInput) (h : s.Backed) :
    s.FollowUpKept i := by
  unfold FollowUpKept
  split
  · exact fun _ => h.kept
  · trivial

/-- In every run in which no follow-up is put off while another one waits, the timer of one that was
put off finds it, and the port does not abort. -/
theorem peerDelay_deferred_kept (ar : FrequencyArith ρ) (place : Nat) (id : PortIdentity)
    (mine theirs : Timestamp) (init : Bool) {inputs : List PeerDelayInput}
    (h : Each (step ar) FollowUpAlone (start ar place id mine theirs init) inputs) :
    Each (step ar) FollowUpKept (start ar place id mine theirs init) inputs ∧
      Always (step ar) (fun s => s.aborted = false) (start ar place id mine theirs init) inputs := by
  have hstart : (start ar place id mine theirs init).Backed := ⟨rfl, le_refl 0⟩
  have hbacked := h.always Backed.step hstart
  exact ⟨h.imp_of_always hbacked fun s i hs _ => hs.followUpKept s i,
    hbacked.imp fun _ hs => hs.running⟩

def deferredInputs (followUps timers : Nat) : List PeerDelayInput :=
  [.expire .pdelayIntervalTimeoutExpires,
    .receive (sampleReceived (sampleIdentity 6) (.pathDelayResp ⟨0, 9, 100⟩ (sampleIdentity 5)))] ++
  List.replicate followUps (.receive (sampleReceived (sampleIdentity 6)
    (.pathDelayRespFollowUp ⟨0, 9, 300⟩ (sampleIdentity 5)))) ++
  [.txTimestamp (some ⟨⟨0, 1, 0⟩, 0⟩)] ++
  List.replicate timers (.expire .pdelayDeferredProcessing)

theorem peerDelay_deferred_kept_one :
    Always (step sampleArith) (fun s => s.aborted = false) samplePeerDelay (deferredInputs 1 2) :=
  (peerDelay_deferred_kept sampleArith 0 (sampleIdentity 5) ⟨0, 0, 0⟩ ⟨0, 0, 0⟩ false (by decide)).2

/-- The follow-up comes twice: its first timer uses up the one that is kept, and the second one
aborts. -/
theorem peerDelay_duplicate_aborts :
    (run (step sampleArith) samplePeerDelay (deferredInputs 2 1)).lastPDelayRespFollowUp = none ∧
      (run (step sampleArith) samplePeerDelay (deferredInputs 2 2)).aborted = true := by
  decide

end PeerDelay

end

/-! ## Following a master -/

structure SyncMessage where
  sequenceId : UInt16
  sourcePortIdentity : PortIdentity
  timestamp : Stamp

/-- What the clock makes of a Sync and its Follow_Up, given the link delay and the rate of the peer. -/
structure Servo (ρ κ : Type) where
  masterRate : κ → SyncMessage → Header → Timestamp → Octets 32 → UInt64 → ρ → κ
  masterOffset : κ → SyncMessage → Header → Timestamp → Octets 32 → UInt64 → ρ → κ

structure SyncPort (ρ κ : Type) extends PeerDelay ρ where
  lastSync : Option SyncMessage
  pdelayStarted : Bool
  syncCount : UInt32
  clock : κ

def ptpAssistByte : Nat := 0
def ptpAssistBit : Nat := 1

/-- `one_way_delay` before the first measurement. -/
def unknownDelay : UInt64 := 3600000000000

namespace SyncPort

variable {ρ κ : Type}

section

variable (s : SyncPort ρ κ)

/-- `PTPMessageSync::processMessage` -/
def processSync (h : Header) (rx : RxTimestamp) : SyncPort ρ κ :=
  if s.Ignores then s
  else if (h.flags.val.getD ptpAssistByte 0).toNat.testBit ptpAssistBit then
    { s with lastSync := some ⟨h.sequenceId, h.sourcePortIdentity, ⟨rx.timestamp, rx.version⟩⟩ }
  else s

def syncDone : SyncPort ρ κ :=
  if s.pdelayStarted then s
  else
    { s with
      pdelayStarted := true
      timers := addEventTimer s.timers s.place .pdelayIntervalTimeoutExpires }

def stopSyncReceipt : SyncPort ρ κ :=
  { s with timers := deleteEventTimer s.timers s.place .syncReceiptTimeoutExpires }

def startSyncReceipt : SyncPort ρ κ :=
  { s with timers := addEventTimer s.timers s.place .syncReceiptTimeoutExpires }

def synchronize (servo : Servo ρ κ) (s : SyncPort ρ κ) (sync : SyncMessage) (h : Header)
    (origin : Timestamp) (tlv : Octets 32) : SyncPort ρ κ :=
  let delay := s.getLinkDelay
  if delay = unknownDelay then s
  else
    let clock := servo.masterRate s.clock sync h origin tlv delay s.peerRateOffset
    if s.portState = .master then { s with clock := clock }
    else
      let clock := servo.masterOffset clock sync h origin tlv delay s.peerRateOffset
      { s with clock := clock, syncCount := s.syncCount + 1 }.syncDone.startSyncReceipt

def dropSync : SyncPort ρ κ := { s with lastSync := none }

def followSync (servo : Servo ρ κ) (s : SyncPort ρ κ) (h : Header) (origin : Timestamp)
    (tlv : Octets 32) : SyncPort ρ κ :=
  if s.Ignores then s
  else
    match s.lastSync with
    | none => s
    | some sync =>
      if sync.sequenceId ≠ h.sequenceId ∨ sync.sourcePortIdentity ≠ h.sourcePortIdentity then
        s.dropSync
      else (s.synchronize servo sync h origin tlv).dropSync

/-- `PTPMessageFollowUp::processMessage` -/
def processFollowUp (servo : Servo ρ κ) (s : SyncPort ρ κ) (h : Header) (origin : Timestamp)
    (tlv : Octets 32) : SyncPort ρ κ :=
  s.stopSyncReceipt.followSync servo h origin tlv

def receive (ar : FrequencyArith ρ) (servo : Servo ρ κ) (s : SyncPort ρ κ) (r : Received) :
    SyncPort ρ κ :=
  match r.message.body with
  | .sync _ => s.processSync r.message.header r.rx
  | .followUp origin tlv => s.processFollowUp servo r.message.header origin tlv
  | .announce _ => s
  | _ => { s with toPeerDelay := s.toPeerDelay.receive ar r }

def Armed : Prop := (.syncReceiptTimeoutExpires, s.place) ∈ s.timers

/-- The Follow_Up belongs to the Sync that is kept, and the delay of the link is known. -/
def Fits (h : Header) : Prop :=
  s.getLinkDelay ≠ unknownDelay ∧ ∃ sync, s.lastSync = some sync ∧
    sync.sequenceId = h.sequenceId ∧ sync.sourcePortIdentity = h.sourcePortIdentity

def FollowUpFits (r : Received) : Prop :=
  ∀ origin tlv, r.message.body = .followUp origin tlv → s.Fits r.message.header

end

variable {ar : FrequencyArith ρ} {servo : Servo ρ κ} {s : SyncPort ρ κ}

theorem startSyncReceipt_armed (s : SyncPort ρ κ) : s.startSyncReceipt.Armed :=
  mem_addEventTimer.mpr (.inl rfl)

theorem stopSyncReceipt_not_armed (s : SyncPort ρ κ) : ¬ s.stopSyncReceipt.Armed := by
  rintro harmed
  have hkept : (_, s.place) ∈ deleteEventTimer s.timers s.place .syncReceiptTimeoutExpires := harmed
  exact (mem_deleteEventTimer.mp hkept).2 rfl

theorem synchronize_armed_iff (hslave : s.portState = .slave) (hstopped : ¬ s.Armed) :
    (s.synchronize servo sync h origin tlv).Armed ↔ s.getLinkDelay ≠ unknownDelay := by
  have hmaster : s.portState ≠ .master := by
    rw [hslave]
    nofun
  unfold synchronize
  dsimp only
  rw [if_neg hmaster]
  split
  case isTrue hunknown => exact iff_of_false hstopped (not_not.mpr hunknown)
  case isFalse hknown => exact iff_of_true (startSyncReceipt_armed _) hknown

theorem followSync_armed_iff (hslave : s.portState = .slave) (hstopped : ¬ s.Armed) :
    (s.followSync servo h origin tlv).Armed ↔ s.Fits h := by
  have hstate : ¬ s.Ignores := by
    unfold PeerDelay.Ignores
    rw [hslave]
    nofun
  unfold followSync Fits
  rw [if_neg hstate]
  cases s.lastSync with
  | none =>
    refine iff_of_false hstopped ?_
    rintro ⟨-, sync, hsome, -⟩
    cases hsome
  | some sync =>
    simp only [Option.some.injEq, exists_eq_left']
    split
    case isTrue hother => exact iff_of_false hstopped (by tauto)
    case isFalse hbelongs =>
      obtain ⟨hseq, hsource⟩ := not_or.mp hbelongs
      rw [and_iff_left ⟨not_not.mp hseq, not_not.mp hsource⟩]
      exact synchronize_armed_iff hslave hstopped

theorem processFollowUp_armed_iff (hslave : s.portState = .slave) :
    (s.processFollowUp servo h origin tlv).Armed ↔ s.Fits h :=
  followSync_armed_iff hslave s.stopSyncReceipt_not_armed

structure Kept (s s' : PeerDelay ρ) : Prop where
  portState : s'.portState = s.portState
  place : s'.place = s.place
  timer : ∀ j, (.syncReceiptTimeoutExpires, j) ∈ s'.timers ↔ (.syncReceiptTimeoutExpires, j) ∈ s.timers

theorem Kept.trans {s s' s'' : PeerDelay ρ} (h : Kept s s') (h' : Kept s' s'') : Kept s s'' :=
  ⟨h'.portState.trans h.portState, h'.place.trans h.place, fun j => (h'.timer j).trans (h.timer j)⟩

theorem Kept.armed_iff {s s' : SyncPort ρ κ} (h : Kept s.toPeerDelay s'.toPeerDelay) :
    s'.Armed ↔ s.Armed := by
  unfold Armed
  rw [h.place, h.timer]

theorem dropExchange_kept (s : PeerDelay ρ) : Kept s s.dropExchange := ⟨rfl, rfl, fun _ => .rfl⟩

theorem measure_kept (s : PeerDelay ρ) (t : Exchange) : Kept s (s.measure ar t) := by
  unfold PeerDelay.measure
  dsimp only
  split
  · exact ⟨rfl, rfl, fun _ => .rfl⟩
  · exact ⟨rfl, rfl, fun _ => .rfl⟩

theorem peerFollowUp_kept (s : PeerDelay ρ) (f : PDelayRespFollowUp) :
    Kept s (s.processFollowUp ar f).1 := by
  unfold PeerDelay.processFollowUp
  cases s.verdict f with
  | ignore => exact ⟨rfl, rfl, fun _ => .rfl⟩
  | abort => exact dropExchange_kept s
  | defer =>
    refine ⟨rfl, rfl, fun j => ?_⟩
    simp [mem_addEventTimer]
  | measure t => exact (measure_kept s t).trans (dropExchange_kept _)

theorem peerResp_kept (s : PeerDelay ρ) (resp : PDelayResp) : Kept s (s.processPathDelayResp resp) := by
  unfold PeerDelay.processPathDelayResp
  split
  · exact ⟨rfl, rfl, fun _ => .rfl⟩
  · refine ⟨rfl, rfl, fun j => ?_⟩
    simp [mem_deleteEventTimer]

theorem processSync_kept (s : SyncPort ρ κ) (h : Header) (rx : RxTimestamp) :
    Kept s.toPeerDelay (s.processSync h rx).toPeerDelay := by
  unfold processSync
  split
  · exact ⟨rfl, rfl, fun _ => .rfl⟩
  split
  · exact ⟨rfl, rfl, fun _ => .rfl⟩
  · exact ⟨rfl, rfl, fun _ => .rfl⟩

theorem synchronize_portState : (s.synchronize servo sync h origin tlv).portState = s.portState := by
  unfold synchronize syncDone
  dsimp only
  split
  · rfl
  split
  · rfl
  split
  · rfl
  · rfl

theorem processFollowUp_portState :
    (s.processFollowUp servo h origin tlv).portState = s.portState := by
  unfold processFollowUp followSync
  split
  · rfl
  split
  · rfl
  split
  · rfl
  · exact synchronize_portState

theorem receive_kept (r : Received) (hbody : ∀ origin tlv, r.message.body ≠ .followUp origin tlv) :
    Kept s.toPeerDelay (s.receive ar servo r).toPeerDelay := by
  unfold receive PeerDelay.receive
  cases hr : r.message.body with
  | sync => exact processSync_kept ..
  | followUp origin tlv => exact absurd hr (hbody origin tlv)
  | pathDelayReq => exact ⟨rfl, rfl, fun _ => .rfl⟩
  | pathDelayResp => exact peerResp_kept ..
  | pathDelayRespFollowUp => exact peerFollowUp_kept ..
  | announce => exact ⟨rfl, rfl, fun _ => .rfl⟩

theorem receive_portState (r : Received) : (s.receive ar servo r).portState = s.portState := by
  by_cases hbody : ∃ origin tlv, r.message.body = .followUp origin tlv
  · obtain ⟨origin, tlv, hr⟩ := hbody
    unfold receive
    rw [hr]
    exact processFollowUp_portState
  · exact (receive_kept r fun origin tlv hr => hbody ⟨origin, tlv, hr⟩).portState

theorem receive_armed_iff (r : Received) (hslave : s.portState = .slave) (harmed : s.Armed) :
    (s.receive ar servo r).Armed ↔ s.FollowUpFits r := by
  by_cases hbody : ∃ origin tlv, r.message.body = .followUp origin tlv
  · obtain ⟨origin, tlv, hr⟩ := hbody
    have hfits : s.FollowUpFits r ↔ s.Fits r.message.header :=
      ⟨fun h => h origin tlv hr, fun h _ _ _ => h⟩
    rw [hfits, receive, hr]
    exact processFollowUp_armed_iff hslave
  · have hother : ∀ origin tlv, r.message.body ≠ .followUp origin tlv :=
      fun origin tlv hr => hbody ⟨origin, tlv, hr⟩
    have hfits : s.FollowUpFits r := fun origin tlv hr => absurd hr (hother origin tlv)
    exact iff_of_true ((receive_kept r hother).armed_iff.mpr harmed) hfits

/-- The timer of a slave runs in every state of exactly the runs in which every Follow_Up fits. -/
theorem syncReceipt_armed_iff (ar : FrequencyArith ρ) (servo : Servo ρ κ) (s : SyncPort ρ κ)
    (hslave : s.portState = .slave) (harmed : s.Armed) (messages : List Received) :
    Always (receive ar servo) Armed s messages ↔ Each (receive ar servo) FollowUpFits s messages :=
  always_iff_each (I := fun s => s.portState = .slave)
    (fun _ r hslave => (receive_portState r).trans hslave)
    (fun _ r hslave harmed => receive_armed_iff r hslave harmed) hslave harmed

instance : DecidablePred (Armed (ρ := ρ) (κ := κ)) := fun s =>
  inferInstanceAs (Decidable ((_, s.place) ∈ s.timers))

def sampleServo : Servo Unit Unit := ⟨fun _ _ _ _ _ _ _ => (), fun _ _ _ _ _ _ _ => ()⟩

def sampleSlave : SyncPort Unit Unit where
  toPeerDelay :=
    { PeerDelay.samplePeerDelay with
      portState := .slave
      oneWayDelay := 400
      timers := [(.syncReceiptTimeoutExpires, 0)] }
  lastSync := none
  pdelayStarted := true
  syncCount := 0
  clock := ()

def sampleSync : Received := PeerDelay.sampleReceived (PeerDelay.sampleIdentity 6) (.sync ⟨0, 9, 0⟩)

def sampleFollowUp (n : UInt8) : Received :=
  PeerDelay.sampleReceived (PeerDelay.sampleIdentity n)
    (.followUp ⟨0, 9, 0⟩ ⟨List.replicate 32 0, rfl⟩)

theorem syncReceipt_armed_sampleSync :
    Always (receive PeerDelay.sampleArith sampleServo) Armed sampleSlave
      [sampleSync, sampleFollowUp 6] := by
  refine (syncReceipt_armed_iff PeerDelay.sampleArith sampleServo sampleSlave rfl (by decide) _).mpr
    ⟨nofun, fun _ _ _ => ⟨by decide, _, rfl, rfl, rfl⟩, trivial⟩

/-- A Follow_Up without a Sync, one of another station, and one that comes before the link is
measured. -/
theorem syncReceipt_stopped_by_followUp :
    sampleSlave.Armed ∧
    ¬ (sampleSlave.receive PeerDelay.sampleArith sampleServo (sampleFollowUp 6)).Armed ∧
    ¬ (run (receive PeerDelay.sampleArith sampleServo) sampleSlave
      [sampleSync, sampleFollowUp 7]).Armed ∧
    ¬ (run (receive PeerDelay.sampleArith sampleServo)
      { sampleSlave with oneWayDelay := 3600000000000 } [sampleSync, sampleFollowUp 6]).Armed := by
  decide

end SyncPort

end OpenAvb.Gptp
