import OpenAvb.Mrpd.RoundTrip

/-!
# MSRP

Registration of talkers, listeners and domains. Talker advertise and talker
failed are two types of one kind of attribute, which differ in the failure
information the second one carries and turn into each other by merging.
-/

namespace OpenAvb.Mrpd

def msrpEtype : Nat := 0x22EA
def msrpAddr : List UInt8 := [0x01, 0x80, 0xC2, 0x00, 0x00, 0x0E]
def msrpProtVer : UInt8 := 0
def msrpTalkerAdvType : UInt8 := 1
def msrpTalkerFailedType : UInt8 := 2
def msrpListenerType : UInt8 := 3
def msrpDomainType : UInt8 := 4

def msrpListenerIgnore : Nat := 0
def msrpListenerAskfailed : Nat := 1

inductive MsrpType where
  | talkerAdv | talkerFailed | listener | domain
  deriving DecidableEq

structure TalkListen where
  streamID : Octets 8
  destAddr : Octets 6
  (vlanID maxFrameSize maxIntervalFrames : UInt16)
  priorityAndRank : UInt8
  accumulatedLatency : UInt32
  bridgeID : Octets 8
  failureCode : UInt8
  deriving DecidableEq

structure Domain where
  (srClassID srClassPriority neighborSRclassPriority : UInt8)
  srClassVID : UInt16
  deriving DecidableEq

inductive MsrpValue where
  | talker (failed : Bool) (talk : TalkListen)
  | listener (streamID : Octets 8) (substate : Nat)
  | domain (domain : Domain)
  deriving DecidableEq

def talkerType (failed : Bool) : MsrpType := if failed then .talkerFailed else .talkerAdv

def MsrpValue.type : MsrpValue → MsrpType
  | .talker failed _ => talkerType failed
  | .listener _ _ => .listener
  | .domain _ => .domain

def msrpLookup (rattrib attrib : MsrpValue) : Bool :=
  match rattrib, attrib with
  | .talker _ r, .talker _ a => a.streamID = r.streamID
  | .listener r _, .listener a _ => a = r
  | .domain r, .domain a => a.srClassID = r.srClassID
  | _, _ => false

def Domain.octets (d : Domain) : List UInt8 :=
  [d.srClassID, d.srClassPriority, d.neighborSRclassPriority, 0,
    UInt8.ofNat d.srClassVID.toNat, UInt8.ofNat (d.srClassVID.toNat / 256)]

def msrpBelow : MsrpValue → MsrpValue → Bool
  | .talker _ a, .talker _ b => a.streamID.val < b.streamID.val
  | .listener a _, .listener b _ => a.val < b.val
  | .domain a, .domain b => a.octets < b.octets
  | _, _ => false

def msrpAdd : Attribute MsrpValue → List (Attribute MsrpValue) → List (Attribute MsrpValue) :=
  addGrouped (fun r a => r.type = a.type) msrpBelow

def Attribute.forceNotify (a : Attribute ν) : Attribute ν :=
  { a with registrar := { a.registrar with mrpState := .mtState } }

def hasTalker (streamID : Octets 8) (l : List (Attribute MsrpValue)) : Bool :=
  l.any fun a =>
    match a.value with
    | .talker _ t => t.streamID = streamID
    | _ => false

def hasListener (streamID : Octets 8) (l : List (Attribute MsrpValue)) : Bool :=
  l.any fun a =>
    match a.value with
    | .listener s _ => s = streamID
    | _ => false

def msrpMerge (l : List (Attribute MsrpValue)) (rattrib attrib : Attribute MsrpValue) :
    Attribute MsrpValue :=
  let attrib :=
    { attrib with registrar := { attrib.registrar with macaddr := rattrib.registrar.macaddr } }
  match attrib.value, rattrib.value with
  | .talker failed t, .talker failed' r =>
    let t := { t with failureCode := r.failureCode, bridgeID := r.bridgeID }
    let attrib := if failed ≠ failed' then attrib.forceNotify else attrib
    { attrib with value := .talker failed' t }
  | .listener s substate, .listener _ substate' =>
    -- AskingFailed is left only if the talker is known
    if substate ≠ substate' ∧ ¬ (substate = msrpListenerAskfailed ∧ hasTalker s l = false) then
      { attrib.forceNotify with value := .listener s substate' }
    else attrib
  | .domain d, .domain r =>
    if d.srClassPriority ≠ r.srClassPriority ∨ d.srClassVID ≠ r.srClassVID then
      { attrib.forceNotify with value := .domain { d with
          neighborSRclassPriority := r.srClassPriority
          srClassVID := r.srClassVID } }
    else attrib
  | _, _ => attrib

def msrpIncrementStreamid (streamid : Octets 8) : Octets 8 := streamid.bumpTail

def TalkListen.next (t : TalkListen) : TalkListen :=
  { t with streamID := msrpIncrementStreamid t.streamID, destAddr := t.destAddr.bumpTail }

def TalkListen.firstValue (failed : Bool) (t : TalkListen) : List UInt8 :=
  t.streamID.val ++ (t.destAddr.val ++ (be16 t.vlanID.toNat ++ (be16 t.maxFrameSize.toNat ++
    (be16 t.maxIntervalFrames.toNat ++ ([t.priorityAndRank] ++ (be32 t.accumulatedLatency.toNat ++
      if failed then t.bridgeID.val ++ [t.failureCode] else []))))))

def talkerLength (failed : Bool) : Nat := if failed then 34 else 25

theorem TalkListen.length_firstValue (failed : Bool) (t : TalkListen) :
    (t.firstValue failed).length = talkerLength failed := by
  cases failed <;>
    simp [TalkListen.firstValue, talkerLength, t.streamID.property, t.destAddr.property,
      t.bridgeID.property]

/-- `msrp_emit_talkervectors`; a talker that is the head with both addresses incremented joins
(`vectorize_talker`). -/
def talkerEmitter (failed : Bool) : Emitter MsrpValue where
  selects v := v.type = talkerType failed
  next
    | .talker f t => .talker f t.next
    | v => v
  continues expected v := v = expected
  attributeType := if failed then msrpTalkerFailedType else msrpTalkerAdvType
  attributeLength := talkerLength failed
  listLength := true
  vectorSize := if failed then 37 else 28
  firstValue
    | .talker _ t => t.firstValue failed
    | _ => List.replicate (talkerLength failed) 0
  length_firstValue := fun v => by
    cases v with
    | talker _ t => exact t.length_firstValue failed
    | _ => exact List.length_replicate
  fourPacked := false
  substate _ := 0

def listenerEmitter : Emitter MsrpValue where
  selects v := v.type = .listener
  next
    | .listener s substate => .listener (msrpIncrementStreamid s) substate
    | v => v
  continues expected v := msrpLookup expected v
  attributeType := msrpListenerType
  attributeLength := 8
  listLength := true
  vectorSize := 13
  firstValue
    | .listener s _ => s.val
    | _ => List.replicate 8 0
  length_firstValue := fun v => by
    cases v with
    | listener s _ => exact s.property
    | _ => rfl
  fourPacked := true
  substate
    | .listener _ substate => substate
    | _ => 0

def domainEmitter : Emitter MsrpValue where
  selects v := v.type = .domain
  next v := v
  continues _ _ := false
  attributeType := msrpDomainType
  attributeLength := 4
  listLength := true
  vectorSize := 5
  firstValue
    | .domain d => [d.srClassID, d.srClassPriority] ++ be16 d.srClassVID.toNat
    | _ => List.replicate 4 0
  length_firstValue := fun v => by cases v <;> rfl
  fourPacked := false
  substate _ := 0

def msrpEmitTalkervectors (failed sendEmptyLeaveAll lva : Bool) (stores : Stores) (msgbuf : Nat)
    (attribs : List (Attribute MsrpValue)) : Emission MsrpValue :=
  emitVectors (talkerEmitter failed) maxFrameSize sendEmptyLeaveAll lva stores msgbuf attribs

def Attribute.markListener (a : Attribute MsrpValue) : Attribute MsrpValue :=
  if a.value.type = .listener then { a with applicant := { a.applicant with tx := true } } else a

def markListeners (attribs : List (Attribute MsrpValue)) : List (Attribute MsrpValue) :=
  attribs.map Attribute.markListener

def msrpEmitListenvectors (sendEmptyLeaveAll lva : Bool) (stores : Stores) (msgbuf : Nat)
    (attribs : List (Attribute MsrpValue)) : Emission MsrpValue :=
  if maxFrameSize < msgbuf + listenerEmitter.vectorSize then ⟨stores, attribs, none⟩
  else
    emitVectors listenerEmitter maxFrameSize sendEmptyLeaveAll lva stores msgbuf
      (markListeners attribs)

def msrpEmitDomainvectors (sendEmptyLeaveAll lva : Bool) (stores : Stores) (msgbuf : Nat)
    (attribs : List (Attribute MsrpValue)) : Emission MsrpValue :=
  emitVectors domainEmitter maxFrameSize sendEmptyLeaveAll lva stores msgbuf attribs

structure Draft (ν : Type) where
  stores : Stores
  ptr : Nat
  attribs : List (Attribute ν)

/-- Run an emitter at the end of the frame; one that returns -1 ends the attempt. -/
def Draft.emit (emitter : Stores → Nat → List (Attribute ν) → Emission ν) (d : Draft ν) :
    Except (Draft ν) (Draft ν) :=
  let em := emitter d.stores d.ptr d.attribs
  match em.bytesUsed with
  | none => .error { d with stores := em.stores, attribs := em.attribs }
  | some bytes => .ok { stores := em.stores, ptr := d.ptr + bytes, attribs := em.attribs }

def msrpDraft (station : Octets 6) (db : Database MsrpValue) :
    Except (Draft MsrpValue) (Draft MsrpValue) := do
  let lva := db.mrpDb.lva.tx
  let d : Draft MsrpValue :=
    { stores := openPdu msrpAddr station msrpEtype msrpProtVer, ptr := messageList
      attribs := db.attribList }
  let d ← d.emit (msrpEmitTalkervectors false db.sendEmptyLeaveAll lva)
  let d ← d.emit (msrpEmitTalkervectors true db.sendEmptyLeaveAll lva)
  if maxFrameSize ≤ d.ptr + 2 then throw d
  let d ← d.emit (msrpEmitListenvectors db.sendEmptyLeaveAll lva)
  d.emit (msrpEmitDomainvectors db.sendEmptyLeaveAll lva)

def msrpTxpdu (station : Octets 6) (db : Database MsrpValue) : Transmission MsrpValue :=
  match msrpDraft station db with
  | .error d => ⟨d.stores, d.attribs, none⟩
  | .ok d =>
    let (stores, frame) := closePdu d.stores d.ptr
    ⟨stores, d.attribs, frame⟩

/-- The locals of the receiver: the next value, for listeners with the substates to come. -/
inductive MsrpCount where
  | talker (failed : Bool) (talk : TalkListen)
  | listener (streamID : Octets 8) (substates : List Nat)
  | domain (domain : Domain)

def fieldAt (first : List UInt8) (i n : Nat) : Nat := number ((first.drop i).take n)

def TalkListen.ofFirst (failed : Bool) (first : List UInt8) : TalkListen where
  streamID := Octets.ofList 8 first
  destAddr := Octets.ofList 6 (first.drop 8)
  vlanID := UInt16.ofNat (fieldAt first 14 2)
  maxFrameSize := UInt16.ofNat (fieldAt first 16 2)
  maxIntervalFrames := UInt16.ofNat (fieldAt first 18 2)
  priorityAndRank := UInt8.ofNat (fieldAt first 20 1)
  accumulatedLatency := UInt32.ofNat (fieldAt first 21 4)
  bridgeID := if failed then Octets.ofList 8 (first.drop 25) else ⟨List.replicate 8 0, rfl⟩
  failureCode := if failed then UInt8.ofNat (fieldAt first 33 1) else 0

def Domain.ofFirst (first : List UInt8) : Domain where
  srClassID := UInt8.ofNat (fieldAt first 0 1)
  srClassPriority := UInt8.ofNat (fieldAt first 1 1)
  neighborSRclassPriority := UInt8.ofNat (fieldAt first 1 1)
  srClassVID := UInt16.ofNat (fieldAt first 2 2)

def msrpFirstval (first : List UInt8) (substates : List Nat) : MsrpType → MsrpCount
  | .talkerAdv => .talker false (.ofFirst false first)
  | .talkerFailed => .talker true (.ofFirst true first)
  | .listener => .listener (Octets.ofList 8 first) substates
  | .domain => .domain (.ofFirst first)

def msrpTake : MsrpCount → Option MsrpValue × MsrpCount
  | .talker failed t => (some (.talker failed t), .talker failed t.next)
  | .listener s [] => (none, .listener (msrpIncrementStreamid s) [])
  | .listener s (substate :: rest) =>
    (if substate = msrpListenerIgnore then none else some (.listener s substate),
      .listener (msrpIncrementStreamid s) rest)
  | .domain d =>
    (some (.domain d), .domain { d with
        srClassID := d.srClassID + 1
        srClassPriority := d.srClassPriority + 1
        neighborSRclassPriority := d.srClassPriority + 1 })

def msrpTypeOf (b : UInt8) : Option MsrpType :=
  if b = msrpDomainType then some .domain
  else if b = msrpListenerType then some .listener
  else if b = msrpTalkerAdvType then some .talkerAdv
  else if b = msrpTalkerFailedType then some .talkerFailed
  else none

def msrpReception : Reception MsrpType MsrpCount MsrpValue where
  typeOf := msrpTypeOf
  attributeLength
    | .talkerAdv => 25
    | .talkerFailed => 34
    | .listener => 8
    | .domain => 4
  listLength := true
  fourPacked t := t = .listener
  skipsNull := true
  skipsUnknown _ := false
  lvaOnce _ := true
  discards := true
  firstval t first substates := msrpFirstval first substates t
  take := msrpTake

def msrpRecvMsg (data : List UInt8) (rest : Mem) : List (Parsed MsrpType MsrpValue) × Rc :=
  recvMsg msrpReception msrpEtype msrpAddr (recvBuffer data rest) data.length

structure Pruning where
  enabled : Bool
  interestingStreamIds : List (Octets 8)

/-- A talker is registered only if its StreamID is interesting or a listener asks for it. -/
def msrpInterested (pruning : Pruning) (l : List (Attribute MsrpValue)) (v : MsrpValue) : Bool :=
  match v with
  | .talker _ t =>
    !pruning.enabled || pruning.interestingStreamIds.contains t.streamID ||
      hasListener t.streamID l
  | _ => true

def msrpApplication (station : Octets 6) (pruning : Pruning) : Application MsrpType MsrpValue where
  typeOf := MsrpValue.type
  lookup := msrpLookup
  add := msrpAdd
  merge := msrpMerge
  reclaims := true
  periodic := false
  interested := msrpInterested pruning
  txpdu db :=
    let tx := msrpTxpdu station db
    ({ db with
        attribList := tx.attribs
        mrpDb := { db.mrpDb with lva := { db.mrpDb.lva with tx := false } } }, tx.frame)

def msrpEvent (station : Octets 6) (pruning : Pruning) (p2pmac : Bool)
    (call : Call MsrpType MsrpValue) (db : Database MsrpValue) : Outcome MsrpValue :=
  mrpEvent (msrpApplication station pruning) p2pmac call db

/-! ## The frames of MSRP -/

variable {ν : Type}

section

variable (E : Emitter ν)

/-- The groups an emitter that starts at `p` finds room for; `none` if it returns -1. -/
def Emitter.plan (p : Nat) (gs : List (Group ν)) : Option (List (Group ν)) :=
  if maxFrameSize < p + E.vectorSize then none
  else E.layout maxFrameSize p (p + E.dataOffset) gs

def Emitter.behind (emptyLeaveAll lva : Bool) (p : Nat) (ws : List (Group ν)) : Nat :=
  p + (messageOctets E.listLength (E.sent emptyLeaveAll lva ws)).length

theorem Emitter.le_behind : p ≤ E.behind emptyLeaveAll lva p ws :=
  Nat.le_add_right _ _

theorem Emitter.plan_mem (h : E.plan p gs = some ws) : ∀ g ∈ ws, g ∈ gs ∧ g.Valid := by
  rw [plan] at h
  split at h
  · cases h
  · exact E.layout_mem h

theorem Emitter.plan_fits (hsize : E.vectorSize ≤ E.span 1 + 1)
    (hgs : ∀ g ∈ gs, g.Valid) (hfit : E.behind emptyLeaveAll lva p gs + 2 ≤ maxFrameSize)
    (hroom : p + E.vectorSize ≤ maxFrameSize) : E.plan p gs = some gs := by
  rw [plan, if_neg (Nat.not_lt.mpr hroom)]
  cases gs with
  | nil => rfl
  | cons g gs =>
    rw [behind, E.length_sent] at hfit
    exact E.layout_fits lva hsize hgs (by omega) (by omega)

theorem Emitter.plan_eq_of_fits (h : E.plan p gs = some ws)
    (hsize : E.vectorSize ≤ E.span 1 + 1) (hgs : ∀ g ∈ gs, g.Valid)
    (hfit : E.behind emptyLeaveAll lva p gs + 2 ≤ maxFrameSize) : gs = ws := by
  by_cases hroom : p + E.vectorSize ≤ maxFrameSize
  · exact Option.some.inj ((E.plan_fits hsize hgs hfit hroom).symm.trans h)
  · rw [plan, if_pos (Nat.lt_of_not_le hroom)] at h
    cases h

end

structure MsrpPlan where
  (advertised failed listeners domains : List (Group MsrpValue))

def msrpEmitter : MsrpType → Emitter MsrpValue
  | .talkerAdv => talkerEmitter false
  | .talkerFailed => talkerEmitter true
  | .listener => listenerEmitter
  | .domain => domainEmitter

def msrpTypes : List MsrpType := [.talkerAdv, .talkerFailed, .listener, .domain]

def MsrpPlan.ofType (plan : MsrpPlan) : MsrpType → List (Group MsrpValue)
  | .talkerAdv => plan.advertised
  | .talkerFailed => plan.failed
  | .listener => plan.listeners
  | .domain => plan.domains

def msrpGroups (l : List (Attribute MsrpValue)) : MsrpPlan where
  advertised := (talkerEmitter false).groups 0 l
  failed := (talkerEmitter true).groups 0 l
  listeners := listenerEmitter.groups 0 (markListeners l)
  domains := domainEmitter.groups 0 l

section Flagged

variable (emptyLeaveAll lva : Bool) (plan : MsrpPlan)

def MsrpPlan.messages : List Message :=
  msrpTypes.flatMap fun t => (msrpEmitter t).sent emptyLeaveAll lva (plan.ofType t)

/-- Where the second, third and fourth emitter start, and where the frame ends. -/
def MsrpPlan.failedAt : Nat :=
  (talkerEmitter false).behind emptyLeaveAll lva messageList plan.advertised

def MsrpPlan.listenersAt : Nat :=
  (talkerEmitter true).behind emptyLeaveAll lva (plan.failedAt emptyLeaveAll lva) plan.failed

def MsrpPlan.domainsAt : Nat :=
  listenerEmitter.behind emptyLeaveAll lva (plan.listenersAt emptyLeaveAll lva) plan.listeners

def MsrpPlan.endsAt : Nat :=
  domainEmitter.behind emptyLeaveAll lva (plan.domainsAt emptyLeaveAll lva) plan.domains

structure MsrpPlan.Writes (plan gs : MsrpPlan) : Prop where
  advertised : (talkerEmitter false).plan messageList gs.advertised = some plan.advertised
  failed : (talkerEmitter true).plan (plan.failedAt emptyLeaveAll lva) gs.failed = some plan.failed
  room : plan.listenersAt emptyLeaveAll lva + 2 < maxFrameSize
  listeners : listenerEmitter.plan (plan.listenersAt emptyLeaveAll lva) gs.listeners =
    some plan.listeners
  domains : domainEmitter.plan (plan.domainsAt emptyLeaveAll lva) gs.domains = some plan.domains

end Flagged

theorem MsrpPlan.Writes.unique {plan plan' gs : MsrpPlan} (h : plan.Writes emptyLeaveAll lva gs)
    (h' : plan'.Writes emptyLeaveAll lva gs) : plan = plan' := by
  cases plan
  cases plan'
  obtain rfl := Option.some.inj (h.advertised.symm.trans h'.advertised)
  obtain rfl := Option.some.inj (h.failed.symm.trans h'.failed)
  obtain rfl := Option.some.inj (h.listeners.symm.trans h'.listeners)
  obtain rfl := Option.some.inj (h.domains.symm.trans h'.domains)
  rfl

theorem MsrpPlan.Writes.mem {plan gs : MsrpPlan} (h : plan.Writes emptyLeaveAll lva gs)
    (t : MsrpType) : ∀ g ∈ plan.ofType t, g ∈ gs.ofType t ∧ g.Valid := by
  cases t with
  | talkerAdv => exact Emitter.plan_mem _ h.advertised
  | talkerFailed => exact Emitter.plan_mem _ h.failed
  | listener => exact Emitter.plan_mem _ h.listeners
  | domain => exact Emitter.plan_mem _ h.domains

theorem MsrpPlan.at_le (plan : MsrpPlan) (emptyLeaveAll lva : Bool) :
    messageList ≤ plan.failedAt emptyLeaveAll lva ∧
      plan.failedAt emptyLeaveAll lva ≤ plan.listenersAt emptyLeaveAll lva ∧
      plan.listenersAt emptyLeaveAll lva ≤ plan.domainsAt emptyLeaveAll lva ∧
      plan.domainsAt emptyLeaveAll lva ≤ plan.endsAt emptyLeaveAll lva :=
  ⟨Emitter.le_behind _, Emitter.le_behind _, Emitter.le_behind _, Emitter.le_behind _⟩

theorem MsrpPlan.Writes.eq_of_fits {plan gs : MsrpPlan} (h : plan.Writes emptyLeaveAll lva gs)
    (hgs : ∀ t, ∀ g ∈ gs.ofType t, g.Valid)
    (hfits : gs.endsAt emptyLeaveAll lva + 2 ≤ maxFrameSize) : gs = plan := by
  have hat := gs.at_le emptyLeaveAll lva
  cases gs
  cases plan
  obtain rfl := Emitter.plan_eq_of_fits _ h.advertised (by decide) (hgs .talkerAdv)
    (le_trans (Nat.add_le_add_right hat.2.1 2) (by omega))
  obtain rfl := Emitter.plan_eq_of_fits _ h.failed (by decide) (hgs .talkerFailed)
    (le_trans (Nat.add_le_add_right hat.2.2.1 2) (by omega))
  obtain rfl := Emitter.plan_eq_of_fits _ h.listeners (by decide) (hgs .listener)
    (le_trans (Nat.add_le_add_right hat.2.2.2 2) (by omega))
  obtain rfl := Emitter.plan_eq_of_fits _ h.domains (by decide) (hgs .domain) hfits
  rfl

theorem MsrpPlan.writes_of_room {gs : MsrpPlan} (hgs : ∀ t, ∀ g ∈ gs.ofType t, g.Valid)
    (hroom : gs.endsAt emptyLeaveAll lva + 37 ≤ maxFrameSize) : gs.Writes emptyLeaveAll lva gs := by
  have hat := gs.at_le emptyLeaveAll lva
  have hfits : ∀ n, n ≤ gs.endsAt emptyLeaveAll lva → ∀ k ≤ 37, n + k ≤ maxFrameSize := by omega
  constructor
  · exact Emitter.plan_fits _ (by decide) (hgs .talkerAdv)
      (hfits (gs.failedAt emptyLeaveAll lva) (by omega) 2 (by omega)) (by decide)
  · exact Emitter.plan_fits _ (by decide) (hgs .talkerFailed)
      (hfits (gs.listenersAt emptyLeaveAll lva) (by omega) 2 (by omega))
      (hfits _ (by omega) 37 (by omega))
  · omega
  · exact Emitter.plan_fits _ (by decide) (hgs .listener)
      (hfits (gs.domainsAt emptyLeaveAll lva) (by omega) 2 (by omega))
      (hfits _ (by omega) 13 (by omega))
  · exact Emitter.plan_fits _ (by decide) (hgs .domain)
      (hfits (gs.endsAt emptyLeaveAll lva) (by omega) 2 (by omega))
      (hfits _ (by omega) 5 (by omega))

theorem MsrpPlan.messages_eq (plan : MsrpPlan) : plan.messages emptyLeaveAll lva =
      (talkerEmitter false).sent emptyLeaveAll lva plan.advertised ++
        (talkerEmitter true).sent emptyLeaveAll lva plan.failed ++
        listenerEmitter.sent emptyLeaveAll lva plan.listeners ++
        domainEmitter.sent emptyLeaveAll lva plan.domains := by
  simp [messages, msrpTypes, msrpEmitter, ofType]

theorem MsrpPlan.endsAt_eq (plan : MsrpPlan) : plan.endsAt emptyLeaveAll lva =
      messageList + (messageOctets true (plan.messages emptyLeaveAll lva)).length := by
  simp only [endsAt, domainsAt, listenersAt, failedAt, Emitter.behind, messages_eq,
    messageOctets_append, List.length_append]
  simp only [talkerEmitter, listenerEmitter, domainEmitter]
  omega

structure Draft.Emitted (E : Emitter ν) (emptyLeaveAll lva : Bool) (header : List UInt8)
    (ms : List Message) (ws : List (Group ν)) (d d' : Draft ν) : Prop where
  ptr : d'.ptr = E.behind emptyLeaveAll lva d.ptr ws
  building : Building true header d'.stores d'.ptr (ms ++ E.sent emptyLeaveAll lva ws)
  touched : List.Forall₂ (Touched E.selects) d.attribs d'.attribs

theorem Draft.emit_spec {d : Draft ν} (E : Emitter ν) (hE : E.listLength = true)
    (h : Building true header d.stores d.ptr ms) (emptyLeaveAll lva : Bool) :
    (∃ d', d.emit (emitVectors E maxFrameSize emptyLeaveAll lva) = .error d' ∧
      E.plan d.ptr (E.groups 0 d.attribs) = none) ∨
    ∃ ws d', d.emit (emitVectors E maxFrameSize emptyLeaveAll lva) = .ok d' ∧
      E.plan d.ptr (E.groups 0 d.attribs) = some ws ∧
      Emitted E emptyLeaveAll lva header ms ws d d' := by
  rw [← hE] at h
  rcases emitVectors_spec E maxFrameSize emptyLeaveAll lva d.attribs h.clear with
    ⟨hnone, hwhy⟩ | ⟨ws, hroom, hlay, hused, hleft⟩
  · refine .inl ⟨_, by simp only [Draft.emit, hnone]; rfl, ?_⟩
    rw [Emitter.plan]
    split
    · rfl
    · rename_i hroom
      exact hwhy.resolve_left hroom
  · have hb := h.extend hleft
    rw [hE] at hb
    refine .inr ⟨ws, _, by simp only [Draft.emit, hused]; rfl, ?_, rfl, ?_, emitVectors_touched E hused⟩
    · rw [Emitter.plan, if_neg (Nat.not_lt.mpr hroom), hlay]
    · rw [hE]
      exact hb

theorem types_apart {t t' : MsrpType} (h : t ≠ t') (v : MsrpValue)
    (hv : decide (v.type = t) = true) : decide (v.type = t') = false :=
  decide_eq_false fun hv' => h ((of_decide_eq_true hv).symm.trans hv')

@[simp] theorem value_markListener (a : Attribute MsrpValue) : a.markListener.value = a.value := by
  simp only [Attribute.markListener]
  split <;> rfl

theorem markListeners_touched (h : List.Forall₂ (Touched selects) l l') :
    List.Forall₂ (Touched selects) (markListeners l) (markListeners l') := by
  induction h with
  | nil => exact .nil
  | @cons a b l l' hab _ ih =>
    refine .cons ⟨by simp [hab.1], fun hs => ?_⟩ ih
    rw [value_markListener] at hs
    rw [hab.2 hs]

theorem touched_markListeners (l : List (Attribute MsrpValue)) :
    List.Forall₂ (Touched listenerEmitter.selects) l (markListeners l) := by
  induction l with
  | nil => exact .nil
  | cons a l ih =>
    refine .cons ⟨value_markListener a, fun hs => ?_⟩ ih
    have hl : a.value.type ≠ .listener := by simpa [listenerEmitter] using hs
    rw [Attribute.markListener, if_neg hl]

theorem Touched.trans (h : Touched selects a b) (h' : Touched selects b c) : Touched selects a c :=
  ⟨h'.1.trans h.1, fun hs => by
    obtain rfl := h.2 hs
    exact h'.2 hs⟩

theorem forall₂_touched_trans (h : List.Forall₂ (Touched selects) l l')
    (h' : List.Forall₂ (Touched selects) l' l'') : List.Forall₂ (Touched selects) l l'' := by
  induction h generalizing l'' with
  | nil => exact h'
  | cons hab _ ih =>
    cases h' with
    | cons hbc h' => exact .cons (hab.trans hbc) (ih h')

theorem Draft.listeners_spec {d : Draft MsrpValue} (h : Building true header d.stores d.ptr ms)
    (emptyLeaveAll lva : Bool) :
    (∃ d', d.emit (msrpEmitListenvectors emptyLeaveAll lva) = .error d' ∧
      listenerEmitter.plan d.ptr (listenerEmitter.groups 0 (markListeners d.attribs)) = none) ∨
    ∃ ws d', d.emit (msrpEmitListenvectors emptyLeaveAll lva) = .ok d' ∧
      listenerEmitter.plan d.ptr (listenerEmitter.groups 0 (markListeners d.attribs)) = some ws ∧
      Emitted listenerEmitter emptyLeaveAll lva header ms ws d d' := by
  by_cases hroom : maxFrameSize < d.ptr + listenerEmitter.vectorSize
  · exact .inl ⟨_, by simp only [Draft.emit, msrpEmitListenvectors, if_pos hroom]; rfl,
      by rw [Emitter.plan, if_pos hroom]⟩
  · have hemit : d.emit (msrpEmitListenvectors emptyLeaveAll lva) =
        Draft.emit (emitVectors listenerEmitter maxFrameSize emptyLeaveAll lva)
          { d with attribs := markListeners d.attribs } := by
      simp only [Draft.emit, msrpEmitListenvectors, if_neg hroom]
    rw [hemit]
    rcases Draft.emit_spec (d := { d with attribs := markListeners d.attribs }) listenerEmitter rfl
      h emptyLeaveAll lva with herr | ⟨ws, d', hd, hplan, hptr, hb, ht⟩
    · exact .inl herr
    · exact .inr ⟨ws, d', hd, hplan, hptr, hb, forall₂_touched_trans (touched_markListeners _) ht⟩

variable (station : Octets 6)

def msrpHeader : List UInt8 :=
  ethHeader msrpAddr station.val msrpEtype msrpProtVer

def msrpOpened (l : List (Attribute MsrpValue)) : Draft MsrpValue where
  stores := openPdu msrpAddr station msrpEtype msrpProtVer
  ptr := messageList
  attribs := l

theorem building_msrpOpened (l : List (Attribute MsrpValue)) :
    Building true (msrpHeader station) (msrpOpened station l).stores (msrpOpened station l).ptr [] :=
  have hdest : msrpAddr.length = 6 := rfl
  building_open true hdest station msrpEtype msrpProtVer

variable (db : Database MsrpValue)

theorem msrpDraft_eq :
    msrpDraft station db =
      ((msrpOpened station db.attribList).emit (emitVectors (talkerEmitter false) maxFrameSize
        db.sendEmptyLeaveAll db.mrpDb.lva.tx)).bind fun d =>
      (d.emit (emitVectors (talkerEmitter true) maxFrameSize
        db.sendEmptyLeaveAll db.mrpDb.lva.tx)).bind fun d =>
      if maxFrameSize ≤ d.ptr + 2 then .error d
      else (d.emit (msrpEmitListenvectors db.sendEmptyLeaveAll db.mrpDb.lva.tx)).bind fun d =>
        d.emit (emitVectors domainEmitter maxFrameSize
          db.sendEmptyLeaveAll db.mrpDb.lva.tx) := by
  rfl

structure Drafted (plan : MsrpPlan) (d : Draft MsrpValue) : Prop where
  writes : plan.Writes db.sendEmptyLeaveAll db.mrpDb.lva.tx (msrpGroups db.attribList)
  ptr : d.ptr = plan.endsAt db.sendEmptyLeaveAll db.mrpDb.lva.tx
  building : Building true (msrpHeader station) d.stores d.ptr
    (plan.messages db.sendEmptyLeaveAll db.mrpDb.lva.tx)

theorem msrpDraft_spec :
    (∃ d plan, msrpDraft station db = .ok d ∧ Drafted station db plan d) ∨
      (∃ d, msrpDraft station db = .error d) ∧ ∀ plan : MsrpPlan,
          ¬ plan.Writes db.sendEmptyLeaveAll db.mrpDb.lva.tx (msrpGroups db.attribList) := by
  have hb0 := building_msrpOpened station db.attribList
  rw [msrpDraft_eq]
  rcases Draft.emit_spec (talkerEmitter false) rfl hb0 db.sendEmptyLeaveAll db.mrpDb.lva.tx with
    ⟨d1, h1, hplan1⟩ | ⟨ta, d1, h1, hplan1, hptr1, hb1, ht1⟩
  · refine .inr ⟨⟨d1, by rw [h1]; rfl⟩, fun plan hw => ?_⟩
    cases hplan1.symm.trans hw.advertised
  rw [h1, Except.bind]
  have hg2 : (talkerEmitter true).groups 0 d1.attribs = (msrpGroups db.attribList).failed :=
    Sequence.groups_touched _ ht1 (types_apart (by decide))
  rcases Draft.emit_spec (talkerEmitter true) rfl hb1 db.sendEmptyLeaveAll db.mrpDb.lva.tx with
    ⟨d2, h2, hplan2⟩ | ⟨tf, d2, h2, hplan2, hptr2, hb2, ht2⟩
  all_goals rw [hg2, hptr1] at hplan2
  · refine .inr ⟨⟨d2, by rw [h2]; rfl⟩, fun plan hw => ?_⟩
    obtain rfl := Option.some.inj (hplan1.symm.trans hw.advertised)
    cases hplan2.symm.trans hw.failed
  rw [hptr1] at hptr2
  rw [h2, Except.bind]
  by_cases hroom : maxFrameSize ≤ d2.ptr + 2
  · refine .inr ⟨⟨d2, by rw [if_pos hroom]⟩, fun plan hw => ?_⟩
    obtain rfl := Option.some.inj (hplan1.symm.trans hw.advertised)
    obtain rfl := Option.some.inj (hplan2.symm.trans hw.failed)
    rw [hptr2] at hroom
    exact Nat.not_lt.mpr hroom hw.room
  rw [if_neg hroom]
  have hg3 : listenerEmitter.groups 0 (markListeners d2.attribs) =
      (msrpGroups db.attribList).listeners :=
    (Sequence.groups_touched _ (markListeners_touched ht2) (types_apart (by decide))).trans
      (Sequence.groups_touched _ (markListeners_touched ht1) (types_apart (by decide)))
  rcases Draft.listeners_spec hb2 db.sendEmptyLeaveAll db.mrpDb.lva.tx with
    ⟨d3, h3, hplan3⟩ | ⟨li, d3, h3, hplan3, hptr3, hb3, ht3⟩
  all_goals rw [hg3, hptr2] at hplan3
  · refine .inr ⟨⟨d3, by rw [h3]; rfl⟩, fun plan hw => ?_⟩
    obtain rfl := Option.some.inj (hplan1.symm.trans hw.advertised)
    obtain rfl := Option.some.inj (hplan2.symm.trans hw.failed)
    cases hplan3.symm.trans hw.listeners
  rw [hptr2] at hptr3
  rw [h3, Except.bind]
  have hg4 : domainEmitter.groups 0 d3.attribs = (msrpGroups db.attribList).domains :=
    (Sequence.groups_touched _ ht3 (types_apart (by decide))).trans
      ((Sequence.groups_touched _ ht2 (types_apart (by decide))).trans
        (Sequence.groups_touched _ ht1 (types_apart (by decide))))
  rcases Draft.emit_spec domainEmitter rfl hb3 db.sendEmptyLeaveAll db.mrpDb.lva.tx with
    ⟨d4, h4, hplan4⟩ | ⟨dm, d4, h4, hplan4, hptr4, hb4, ht4⟩
  all_goals rw [hg4, hptr3] at hplan4
  · refine .inr ⟨⟨d4, h4⟩, fun plan hw => ?_⟩
    obtain rfl := Option.some.inj (hplan1.symm.trans hw.advertised)
    obtain rfl := Option.some.inj (hplan2.symm.trans hw.failed)
    obtain rfl := Option.some.inj (hplan3.symm.trans hw.listeners)
    cases hplan4.symm.trans hw.domains
  rw [hptr3] at hptr4
  rw [hptr2] at hroom
  exact .inl ⟨d4, ⟨ta, tf, li, dm⟩, h4, ⟨hplan1, hplan2, Nat.lt_of_not_le hroom, hplan3, hplan4⟩,
    hptr4, by rw [MsrpPlan.messages_eq]; exact hb4⟩

/-- The attributes an attempt leaves, whether or not it succeeds, are those of `l` but for
transmit flags. -/
def Leaves (l : List (Attribute ν)) : Except (Draft ν) (Draft ν) → Prop
  | .ok d | .error d => List.Forall₂ TxChanged l d.attribs

theorem forall₂_txChanged_trans {l l' l'' : List (Attribute ν)} (h : List.Forall₂ TxChanged l l')
    (h' : List.Forall₂ TxChanged l' l'') : List.Forall₂ TxChanged l l'' := by
  induction h generalizing l'' with
  | nil => exact h'
  | cons hab _ ih =>
    cases h' with
    | cons hbc h' => exact .cons (hab.trans hbc) (ih h')

theorem Leaves.bind {r : Except (Draft ν) (Draft ν)} {f : Draft ν → Except (Draft ν) (Draft ν)}
    (h : Leaves l r) (hf : ∀ d, Leaves d.attribs (f d)) : Leaves l (r.bind f) := by
  cases r with
  | error d => exact h
  | ok d =>
    have hd := hf d
    show Leaves l (f d)
    cases hr : f d with
    | error | ok =>
      rw [hr] at hd
      exact forall₂_txChanged_trans h hd

theorem leaves_emit {emitter : Stores → Nat → List (Attribute ν) → Emission ν}
    (h : ∀ s p l, List.Forall₂ TxChanged l (emitter s p l).attribs) (d : Draft ν) :
    Leaves d.attribs (d.emit emitter) := by
  simp only [Draft.emit]
  split <;> exact h _ _ _

theorem emitVectors_txChanged (E : Emitter ν) (emptyLeaveAll lva : Bool) (s : Stores) (p : Nat)
    (l : List (Attribute ν)) :
    List.Forall₂ TxChanged l (emitVectors E maxFrameSize emptyLeaveAll lva s p l).attribs :=
  (emitWith_txCleared E _).imp fun _ _ => TxCleared.changed

theorem markListeners_txChanged (l : List (Attribute MsrpValue)) :
    List.Forall₂ TxChanged l (markListeners l) := by
  induction l with
  | nil => exact .nil
  | cons a l ih =>
    refine .cons ?_ ih
    rw [Attribute.markListener]
    split
    · exact ⟨true, rfl⟩
    · exact ⟨a.applicant.tx, rfl⟩

theorem msrpTxpdu_txChanged :
    List.Forall₂ TxChanged db.attribList (msrpTxpdu station db).attribs := by
  have hlisten : ∀ s p l, List.Forall₂ TxChanged l
      (msrpEmitListenvectors db.sendEmptyLeaveAll db.mrpDb.lva.tx s p l).attribs := by
    intro s p l
    simp only [msrpEmitListenvectors]
    split
    · exact List.forall₂_same.mpr fun a _ => ⟨a.applicant.tx, rfl⟩
    · exact forall₂_txChanged_trans (markListeners_txChanged l) (emitVectors_txChanged _ _ _ _ _ _)
  have hleaves : Leaves db.attribList (msrpDraft station db) := by
    rw [msrpDraft_eq]
    refine (leaves_emit (emitVectors_txChanged _ _ _) (msrpOpened station db.attribList)).bind
      fun d => (leaves_emit (emitVectors_txChanged _ _ _) d).bind fun d => ?_
    split
    · exact List.forall₂_same.mpr fun a _ => ⟨a.applicant.tx, rfl⟩
    · exact (leaves_emit hlisten d).bind fun d => leaves_emit (emitVectors_txChanged _ _ _) d
  simp only [msrpTxpdu]
  cases hd : msrpDraft station db with
  | error | ok =>
    rw [hd] at hleaves
    exact hleaves

def MsrpPlan.frame (emptyLeaveAll lva : Bool) (plan : MsrpPlan) : List UInt8 :=
  msrpHeader station ++ (messageOctets true (plan.messages emptyLeaveAll lva) ++ [0, 0])

theorem msrpTxpdu_frame :
    let flag := db.sendEmptyLeaveAll
    let lva := db.mrpDb.lva.tx
    (msrpTxpdu station db).frame = some frame ↔
      ∃ plan : MsrpPlan, plan.Writes flag lva (msrpGroups db.attribList) ∧
        plan.messages flag lva ≠ [] ∧ plan.endsAt flag lva + 2 < maxFrameSize ∧
        frame = plan.frame station flag lva := by
  intro flag lva
  rcases msrpDraft_spec station db with ⟨d, plan, hd, hw, hptr, hb⟩ | ⟨⟨d, hd⟩, hno⟩
  · have hdest : msrpAddr.length = 6 := rfl
    have hclose := hb.close (length_ethHeader hdest station)
    rw [hptr] at hclose
    simp only [msrpTxpdu, hd, hptr, hclose]
    constructor
    · intro h
      split at h
      case isTrue => cases h
      case isFalse hc =>
        rw [not_or, not_le] at hc
        exact ⟨plan, hw, hc.1, hc.2, (Option.some.inj h).symm⟩
    · rintro ⟨plan', hw', hne, hroom, rfl⟩
      obtain rfl := hw.unique hw'
      rw [if_neg (not_or.mpr ⟨hne, Nat.not_le.mpr hroom⟩)]
      rfl
  · simp only [msrpTxpdu, hd]
    refine ⟨fun h => ?_, fun ⟨plan, hw, _⟩ => absurd hw (hno plan)⟩
    cases h

end OpenAvb.Mrpd
