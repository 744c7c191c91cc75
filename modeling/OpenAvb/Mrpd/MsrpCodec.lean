import OpenAvb.Mrpd.Msrp

/-!
# MSRP PDUs, sent and received

The four types of MSRP attributes have a message each. A receiver gets the
values of a vector back by counting in the same way as the emitter did when it
joined them.
-/

namespace OpenAvb.Mrpd

open List

/-- What a receiver sees of a talker: a talker advertise carries no failure information. -/
def TalkListen.seen (failed : Bool) (t : TalkListen) : TalkListen :=
  if failed then t else
    { t with bridgeID := ⟨List.replicate 8 0, length_replicate⟩, failureCode := 0 }

/-- What a receiver sees of a value: of a domain it takes the priority for the neighbor's. -/
def msrpSeen : MsrpValue → MsrpValue
  | .talker failed t => .talker failed (t.seen failed)
  | .listener s substate => .listener s substate
  | .domain d => .domain { d with neighborSRclassPriority := d.srClassPriority }

def msrpView (v : MsrpValue) : Option MsrpValue :=
  match v with
  | .listener _ substate => if substate = msrpListenerIgnore then none else some (msrpSeen v)
  | v => some (msrpSeen v)

/-- A reading of MSRP frames that deals with talkers and domains as the receiver does; `view`
is what it makes of a value. -/
structure Reading (R : Reception MsrpType MsrpCount MsrpValue)
    (view : MsrpValue → Option MsrpValue) : Prop where
  agrees : ∀ t, (msrpEmitter t).Agrees R t
  skipsNull : R.skipsNull = true
  talker : ∀ failed first substates, R.firstval (talkerType failed) first substates =
    .talker failed (.ofFirst failed first)
  domain : ∀ first substates, R.firstval .domain first substates = .domain (.ofFirst first)
  take_talker : ∀ failed t, R.take (.talker failed t) =
    (some (.talker failed t), .talker failed t.next)
  take_domain : ∀ d, (R.take (.domain d)).1 = some (.domain d)
  view_talker : ∀ failed t, view (.talker failed t) = some (msrpSeen (.talker failed t))
  view_domain : ∀ d, view (.domain d) = some (msrpSeen (.domain d))

theorem msrpReception_reading : Reading msrpReception msrpView where
  agrees t := by cases t <;> constructor <;> first | rfl | decide
  skipsNull := rfl
  talker failed _ _ := by cases failed <;> rfl
  domain _ _ := rfl
  take_talker _ _ := rfl
  take_domain _ := rfl
  view_talker _ _ := rfl
  view_domain _ := rfl

theorem TalkListen.ofFirst_firstValue (failed : Bool) (t : TalkListen) :
    TalkListen.ofFirst failed (t.firstValue failed) = t.seen failed := by
  have hs : t.streamID.val.length = 8 := t.streamID.property
  have hd : t.destAddr.val.length = 6 := t.destAddr.property
  have hb : t.bridgeID.val.length = 8 := t.bridgeID.property
  simp only [ofFirst, firstValue]
  -- every field is found behind the ones before it
  simp (disch := omega) only [fieldAt, drop_append_of_le hs, drop_append_of_le hd,
    drop_append_of_le length_be16, drop_append_of_le length_be32,
    drop_append_of_le length_singleton, Nat.reduceSub, drop_zero,
    take_left' length_be16, take_left' length_be32,
    take_left' length_singleton, ofNat_number_be16, ofNat_number_be32,
    ofNat_number_singleton, Octets.ofList_append]
  cases failed with
  | false => rfl
  | true => simp [seen, Octets.ofList_append, drop_append_of_le hb, ofNat_number_singleton]

theorem Domain.ofFirst_firstValue (d : Domain) :
    Domain.ofFirst (domainEmitter.firstValue (.domain d)) =
      { d with neighborSRclassPriority := d.srClassPriority } := by
  simp [ofFirst, domainEmitter, fieldAt, ofNat_number_singleton,
    take_of_length_le (le_of_eq length_be16), ofNat_number_be16]

theorem TalkListen.seen_next (failed : Bool) (t : TalkListen) :
    (t.seen failed).next = t.next.seen failed := by
  cases failed <;> rfl

variable {R : Reception MsrpType MsrpCount MsrpValue} {view : MsrpValue → Option MsrpValue}

theorem talker_counts (hR : Reading R view) (ha : a.value = .talker failed t)
    (hrun : (talkerEmitter failed).run a.value rest = rest.length) :
    R.Counts view (.talker failed (t.seen failed)) (a :: rest) := by
  have htake := hR.take_talker failed (t.seen failed)
  have hview : view a.value = some (.talker failed (t.seen failed)) := by
    rw [ha, hR.view_talker]
    rfl
  induction rest generalizing a t with
  | nil => exact ⟨by rw [htake, hview], trivial⟩
  | cons b rest ih =>
    obtain ⟨⟨-, -, hb⟩, hr⟩ := (talkerEmitter failed).run_cons_eq hrun
    rw [ha] at hb hr
    have hbv : b.value = .talker failed t.next := by simpa [talkerEmitter] using hb
    have hnext : R.Counts view (.talker failed (t.next.seen failed)) (b :: rest) :=
      ih hbv (by rw [hbv]; exact hr) (hR.take_talker failed _)
        (by rw [hbv, hR.view_talker]; rfl)
    rw [← TalkListen.seen_next] at hnext
    exact ⟨by rw [htake, hview], by rw [htake]; exact hnext⟩

theorem listener_run_cons
    (hrun : listenerEmitter.run (.listener s first) (b :: rest) = (b :: rest).length) :
    (∃ substate, b.value = .listener (msrpIncrementStreamid s) substate) ∧
      listenerEmitter.run (.listener (msrpIncrementStreamid s) first) rest = rest.length := by
  obtain ⟨⟨-, -, hb⟩, hr⟩ := listenerEmitter.run_cons_eq hrun
  refine ⟨?_, hr⟩
  cases hv : b.value with
  | listener s' substate =>
    have hs : s' = msrpIncrementStreamid s := by simpa [listenerEmitter, msrpLookup, hv] using hb
    exact ⟨substate, by rw [hs]⟩
  | _ => simp [listenerEmitter, msrpLookup, hv] at hb

theorem listener_counts (ha : a.value = .listener s substate)
    (hrun : listenerEmitter.run (.listener s first) rest = rest.length) :
    msrpReception.Counts msrpView (.listener s
      ((a :: rest).flatMap fun a => listenerEmitter.declares a.value)) (a :: rest) := by
  have hdecl : listenerEmitter.declares a.value = [substate] := by rw [ha]; rfl
  rw [flatMap_cons, hdecl]
  induction rest generalizing a s substate with
  | nil => exact ⟨by rw [ha]; rfl, trivial⟩
  | cons b rest ih =>
    obtain ⟨⟨substate', hbv⟩, hr⟩ := listener_run_cons hrun
    have hdecl' : listenerEmitter.declares b.value = [substate'] := by rw [hbv]; rfl
    rw [flatMap_cons, hdecl']
    exact ⟨by rw [ha]; rfl, ih hbv hr hdecl'⟩

theorem talker_counted (hR : Reading R view) (hg : g ∈ (talkerEmitter failed).groups 0 l) :
    (talkerEmitter failed).Counted R (talkerType failed) view g := by
  obtain ⟨hrun, hstarts⟩ := (talkerEmitter failed).mem_groups hg
  obtain ⟨t, ht⟩ : ∃ t, g.head.value = .talker failed t := by
    simp only [Sequence.starts, Bool.and_eq_true] at hstarts
    have hsel : g.head.value.type = talkerType failed := by simpa [talkerEmitter] using hstarts.1.1
    cases hv : g.head.value with
    | talker f t =>
      have hf : f = failed := by
        cases f <;> cases failed <;> simp_all [MsrpValue.type, talkerType]
      exact ⟨t, by rw [hf]⟩
    | _ => cases failed <;> simp [hv, MsrpValue.type, talkerType] at hsel
  have hfirst : (talkerEmitter failed).firstValue g.head.value = t.firstValue failed := by
    rw [ht]; rfl
  rw [Emitter.Counted, hfirst, hR.talker, TalkListen.ofFirst_firstValue]
  exact talker_counts hR ht hrun

theorem listener_groups (hg : g ∈ listenerEmitter.groups 0 l) :
    ∃ s substate, g.head.value = .listener s substate ∧ listenerEmitter.IsRun g := by
  obtain ⟨hrun, hstarts⟩ := listenerEmitter.mem_groups hg
  simp only [Sequence.starts, Bool.and_eq_true] at hstarts
  have hsel : g.head.value.type = .listener := by simpa [listenerEmitter] using hstarts.1.1
  cases hv : g.head.value with
  | listener s substate => exact ⟨s, substate, rfl, hrun⟩
  | talker f => cases f <;> simp [hv, MsrpValue.type, talkerType] at hsel
  | domain => simp [hv, MsrpValue.type] at hsel

theorem listener_counted (hg : g ∈ listenerEmitter.groups 0 l) :
    listenerEmitter.Counted msrpReception .listener msrpView g := by
  obtain ⟨s, substate, hs, hrun⟩ := listener_groups hg
  have hfirst : listenerEmitter.firstValue g.head.value = s.val := by rw [hs]; rfl
  rw [Sequence.IsRun, hs] at hrun
  rw [Emitter.Counted, hfirst]
  have hcount := listener_counts hs hrun
  rw [← Octets.ofList_val s] at hcount
  exact hcount

theorem domain_counted (hR : Reading R view) (hg : g ∈ domainEmitter.groups 0 l) :
    domainEmitter.Counted R .domain view g := by
  obtain ⟨hrun, hstarts⟩ := domainEmitter.mem_groups hg
  obtain ⟨d, hd⟩ : ∃ d, g.head.value = .domain d := by
    simp only [Sequence.starts, Bool.and_eq_true] at hstarts
    have hsel : g.head.value.type = .domain := by simpa [domainEmitter] using hstarts.1.1
    cases hv : g.head.value with
    | domain d => exact ⟨d, rfl⟩
    | talker f => cases f <;> simp [hv, MsrpValue.type, talkerType] at hsel
    | listener => simp [hv, MsrpValue.type] at hsel
  -- domains are never joined
  have hnone : g.joined = [] := by
    cases hj : g.joined with
    | nil => rfl
    | cons b rest =>
      rw [Sequence.IsRun, hj] at hrun
      obtain ⟨⟨-, -, hb⟩, -⟩ := domainEmitter.run_cons_eq hrun
      cases hb
  have hmembers : g.members = [g.head] := by rw [Group.members, hnone]
  rw [Emitter.Counted, hmembers, hR.domain, hd, Domain.ofFirst_firstValue]
  refine ⟨?_, trivial⟩
  rw [hR.take_domain, hd, hR.view_domain]
  rfl

theorem Reading.counted (hR : Reading R view)
    (hlisten : ∀ g ∈ listenerEmitter.groups 0 l, listenerEmitter.Counted R .listener view g)
    (t : MsrpType) (hg : g ∈ (msrpEmitter t).groups 0 l) : (msrpEmitter t).Counted R t view g := by
  cases t with
  | talkerAdv => exact talker_counted hR hg
  | talkerFailed => exact talker_counted hR hg
  | listener => exact hlisten g hg
  | domain => exact domain_counted hR hg

/-- A planned frame is accepted; type by type it raises a LeaveAll if flagged and the own event of
every attribute carried. -/
theorem Reading.recvMsg_plan (hR : Reading R view) (station : Octets 6) {plan : MsrpPlan}
    (hread : ∀ t, ∀ g ∈ plan.ofType t, (msrpEmitter t).Readable R t view g)
    (hlva : ∀ t, plan.ofType t = [] → emptyLeaveAll = lva)
    (hroom : plan.endsAt emptyLeaveAll lva + 2 < maxFrameSize) (rest : Mem) :
    let frame := plan.frame station emptyLeaveAll lva
    let received := recvMsg R msrpEtype msrpAddr (recvBuffer frame rest) frame.length
    received.2 = .ok ∧ ∀ src, raises src received.1 =
      msrpTypes.flatMap fun t =>
        typeRaises view src lva t ((plan.ofType t).flatMap Group.members) := by
  rw [plan.endsAt_eq, messageList] at hroom
  have hsent : ∀ t, (messageOctets (msrpEmitter t).listLength
      ((msrpEmitter t).sent emptyLeaveAll lva (plan.ofType t))).length ≤ maxFrameSize := by
    intro t
    have hll : (msrpEmitter t).listLength = true := by cases t <;> rfl
    simp only [MsrpPlan.messages_eq, messageOctets_append, length_append] at hroom
    rw [hll]
    cases t <;> simp only [msrpEmitter, MsrpPlan.ofType] <;> omega
  have hacc : ∀ msg ∈ plan.messages emptyLeaveAll lva, ∃ t, R.Accepts t msg := by
    intro msg hmsg
    obtain ⟨t, -, hmsg⟩ := mem_flatMap.mp hmsg
    have hvalid : ∀ g ∈ plan.ofType t, g.Valid := fun g hg => (hread t g hg).valid
    exact ⟨t, (hR.agrees t).accepts hvalid
      (fun g hg => (msrpEmitter t).members_lt hvalid hg (hsent t))
      (fun g hg => (hread t g hg).declarable) (.inl hR.skipsNull) msg hmsg⟩
  have hdest : msrpAddr.length = 6 := rfl
  have hlen : (plan.frame station emptyLeaveAll lva).length =
      15 + ((messageOctets true (plan.messages emptyLeaveAll lva)).length + 2) := by
    rw [MsrpPlan.frame, length_append, msrpHeader, length_ethHeader hdest station, length_append]
    rfl
  have hll : R.listLength = true := (hR.agrees .domain).listLength
  intro frame
  have hrecv : recvMsg R msrpEtype msrpAddr (recvBuffer frame rest) frame.length = _ :=
    recvMsg_frame hacc hdest station (by decide) (by rw [hll]; rfl)
      (show (plan.frame station emptyLeaveAll lva).length ≤ _ by omega)
  simp only [hrecv, true_and]
  intro src
  exact raises_sents hR.agrees hread hlva (by decide) (fun t _ => not_mem_nil) 15

inductive MsrpKey where
  | talker (streamID : Octets 8)
  | listener (streamID : Octets 8)
  | domain (srClassID : UInt8)
  deriving DecidableEq

def msrpKey : MsrpValue → MsrpKey
  | .talker _ t => .talker t.streamID
  | .listener s _ => .listener s
  | .domain d => .domain d.srClassID

def MsrpBuilt (l : List (Attribute MsrpValue)) : Prop :=
  ∃ as : List (Attribute MsrpValue), (as.map fun a => msrpKey a.value).Nodup ∧
    l = as.foldl (fun l a => msrpAdd a l) []

theorem MsrpBuilt.nodup (h : MsrpBuilt l) : (l.map fun a => msrpKey a.value).Nodup := by
  obtain ⟨as, hn, rfl⟩ := h
  refine ((foldl_addGrouped_perm _ _ as []).map _).nodup_iff.mpr ?_
  rwa [append_nil]

def MsrpValue.Declared : MsrpValue → Prop
  | .listener _ substate => 0 < substate ∧ substate < 4
  | _ => True

instance (v : MsrpValue) : Decidable v.Declared := by
  cases v <;> unfold MsrpValue.Declared <;> infer_instance

def msrpCarried (t : MsrpType) (l : List (Attribute MsrpValue)) : List (Attribute MsrpValue) :=
  (msrpEmitter t).carried none l

theorem markListeners_eq (h : ∀ a ∈ l, a.applicant.tx = true) : markListeners l = l := by
  refine (map_congr_left fun a ha => ?_).trans (map_id l)
  rw [Attribute.markListener, ← h a ha]
  split <;> rfl

theorem msrpGroups_ofType (h : ∀ a ∈ l, a.applicant.tx = true) (t : MsrpType) :
    (msrpGroups l).ofType t = (msrpEmitter t).groups 0 l := by
  cases t with
  | listener =>
    show listenerEmitter.groups 0 (markListeners l) = _
    rw [markListeners_eq h]
    rfl
  | _ => rfl

theorem msrp_declarable (t : MsrpType) (hl : ∀ a ∈ l, a.value.Declared)
    (hg : g ∈ (msrpEmitter t).groups 0 l) : (msrpEmitter t).Declarable msrpReception t g := by
  refine Emitter.declarable_of_lt fun hfour a ha => ?_
  have hdecl := hl a (((msrpEmitter t).members_sublist hg).subset ha)
  cases t with
  | listener =>
    cases hv : a.value with
    | listener s substate =>
      rw [hv] at hdecl
      exact hdecl.2
    | _ => exact Nat.zero_lt_succ 3
  | _ => cases hfour

def MsrpFits (db : Database MsrpValue) : Prop :=
  (msrpGroups db.attribList).endsAt db.sendEmptyLeaveAll db.mrpDb.lva.tx + 2 < maxFrameSize

instance (db : Database MsrpValue) : Decidable (MsrpFits db) := inferInstanceAs (Decidable (_ < _))

section Stepped

variable {db : Database MsrpValue} (he : event = .tx ∨ event = .txla)
  (hstep : ∀ a ∈ db.attribList, a.applicant.JustStepped event)

include he hstep

theorem msrpGroups_stepped (t : MsrpType) :
    (msrpGroups db.attribList).ofType t = (msrpEmitter t).groups 0 db.attribList :=
  msrpGroups_ofType (fun a ha => (hstep a ha).tx he) t

theorem msrpGroups_valid (t : MsrpType) : ∀ g ∈ (msrpGroups db.attribList).ofType t, g.Valid := by
  rw [msrpGroups_stepped he hstep]
  exact (msrpEmitter t).groups_valid fun a ha => (hstep a ha).event_isSome he

theorem msrpRecvMsg_frame (station : Octets 6) (hdecl : ∀ a ∈ db.attribList, a.value.Declared)
    (hlva : db.sendEmptyLeaveAll = db.mrpDb.lva.tx) (hfits : MsrpFits db)
    (hframe : (msrpTxpdu station db).frame = some frame) (rest : Mem) :
    sourceAddr frame = station.val ∧ (msrpRecvMsg frame rest).2 = .ok ∧
      ∀ src, raises src (msrpRecvMsg frame rest).1 =
        msrpTypes.flatMap fun t =>
          typeRaises msrpView src db.mrpDb.lva.tx t (msrpCarried t db.attribList) := by
  obtain ⟨plan, hw, -, hroom, rfl⟩ := (msrpTxpdu_frame station db).mp hframe
  have hvalid := msrpGroups_valid he hstep
  obtain rfl := hw.eq_of_fits hvalid (le_of_lt hfits)
  have hread : ∀ t, ∀ g ∈ (msrpGroups db.attribList).ofType t,
      (msrpEmitter t).Readable msrpReception t msrpView g := by
    intro t g hg
    have hg' := hg
    rw [msrpGroups_stepped he hstep] at hg'
    exact ⟨hvalid t g hg, msrp_declarable t hdecl hg',
      msrpReception_reading.counted (fun _ => listener_counted) t hg'⟩
  obtain ⟨hrc, hraises⟩ :=
    msrpReception_reading.recvMsg_plan station hread (fun _ _ => hlva) hroom rest
  have hdest : msrpAddr.length = 6 := rfl
  refine ⟨sourceAddr_ethHeader hdest station, hrc, fun src => (hraises src).trans ?_⟩
  refine flatMap_congr fun t _ => ?_
  rw [msrpGroups_stepped he hstep, msrpCarried, ((msrpEmitter t).carried_eq _).1]

end Stepped

theorem msrpView_declared (h : v.Declared) : msrpView v = some (msrpSeen v) := by
  cases v with
  | listener s substate => exact if_neg (Nat.ne_of_gt h.1)
  | _ => rfl

theorem msrpEmitter_selects (v : MsrpValue) : (msrpEmitter v.type).selects v = true := by
  cases v with
  | talker failed t => cases failed <;> rfl
  | _ => rfl

theorem msrpMessages_ne_nil {db : Database MsrpValue} (he : event = .tx ∨ event = .txla)
    (hstep : ∀ a ∈ db.attribList, a.applicant.JustStepped event)
    (hmust : emptyLeaveAll = true ∨ ∃ a ∈ db.attribList, a.applicant.encode = .yes) :
    (msrpGroups db.attribList).messages emptyLeaveAll lva ≠ [] := by
  intro hnil
  have hsent : ∀ t ∈ msrpTypes, (msrpGroups db.attribList).ofType t = [] ∧ emptyLeaveAll = false :=
    fun t ht => (msrpEmitter t).sent_eq_nil.mp (flatMap_eq_nil_iff.mp hnil t ht)
  rcases hmust with hflag | ⟨a, ha, hyes⟩
  · exact absurd hflag (by simp [(hsent .domain (by decide)).2])
  · have hmem : a.value.type ∈ msrpTypes := by
      cases a.value.type <;> decide
    have hnone := (hsent _ hmem).1
    rw [msrpGroups_stepped he hstep] at hnone
    exact (msrpEmitter a.value.type).groups_ne_nil ha
      (by simp [Sequence.starts, msrpEmitter_selects, (hstep a ha).tx he, hyes]) hnone

/-- MSRP PDUs are read back as they were meant: if the encoding fits, the receiver accepts the frame
and raises, type by type, a LeaveAll if one was flagged and the own event of every attribute that
must be sent or that continues a vector. -/
theorem msrpRecvMsg_msrpTxpdu (station : Octets 6) (rest : Mem) (db : Database MsrpValue)
    (event : MrpEvent) (he : event = .tx ∨ event = .txla) (hbuilt : MsrpBuilt db.attribList)
    (hdecl : ∀ a ∈ db.attribList, a.value.Declared)
    (hstep : ∀ a ∈ db.attribList, a.applicant.JustStepped event)
    (hlva : db.sendEmptyLeaveAll = db.mrpDb.lva.tx) (hfits : MsrpFits db) :
    (∀ t, (msrpCarried t db.attribList).Sublist db.attribList ∧
      ((msrpCarried t db.attribList).map fun a => msrpKey a.value).Nodup ∧
      ∀ a ∈ msrpCarried t db.attribList, a.event.isSome) ∧
    (∀ a ∈ db.attribList, a.applicant.encode = .yes → a ∈ msrpCarried a.value.type db.attribList) ∧
    (∀ frame, (msrpTxpdu station db).frame = some frame → (msrpRecvMsg frame rest).2 = .ok ∧
      raises (sourceAddr frame) (msrpRecvMsg frame rest).1 =
        [.talkerAdv, .talkerFailed, .listener, .domain].flatMap fun t =>
          (if db.mrpDb.lva.tx then [.leaveAll t] else []) ++ (msrpCarried t db.attribList).filterMap
              (Attribute.raised (fun v => some (msrpSeen v)) station.val)) ∧
    ((db.mrpDb.lva.tx = true ∨ ∃ a ∈ db.attribList, a.applicant.encode = .yes) →
      (msrpGroups db.attribList).endsAt db.sendEmptyLeaveAll db.mrpDb.lva.tx + 37 ≤ maxFrameSize →
      ∃ frame, (msrpTxpdu station db).frame = some frame) := by
  have hsub : ∀ t, (msrpCarried t db.attribList).Sublist db.attribList :=
    fun t => (msrpEmitter t).carried_sublist
  refine ⟨fun t => ⟨hsub t, hbuilt.nodup.sublist ((hsub t).map _),
    fun a ha => (hstep a ((hsub t).subset ha)).event_isSome he⟩, fun a ha hyes => ?_,
    fun frame hframe => ?_, fun hmust hroom => ?_⟩
  · exact (msrpEmitter a.value.type).mem_carried ha
      (by simp [Sequence.starts, msrpEmitter_selects, (hstep a ha).tx he, hyes])
  · obtain ⟨hsrc, hrc, hraises⟩ := msrpRecvMsg_frame he hstep station hdecl hlva hfits hframe rest
    refine ⟨hrc, (hraises _).trans (flatMap_congr fun t _ => ?_)⟩
    rw [typeRaises, hsrc]
    congr 1
    refine filterMap_congr fun a ha => ?_
    simp only [Attribute.raised, msrpView_declared (hdecl a ((hsub t).subset ha))]
  · rw [← hlva] at hmust
    exact ⟨_, (msrpTxpdu_frame station db).mpr ⟨_,
      MsrpPlan.writes_of_room (msrpGroups_valid he hstep) hroom,
      msrpMessages_ne_nil he hstep hmust, hfits, rfl⟩⟩

def sampleStream (x : UInt8) : Octets 8 := ⟨[0x02, 0, 0, 0, 0, 0x01, 0, x], rfl⟩

def sampleTalk (x : UInt8) : TalkListen where
  streamID := sampleStream x
  destAddr := ⟨[0x91, 0xE0, 0xF0, 0, 0x0E, x], rfl⟩
  vlanID := 2
  maxFrameSize := 84
  maxIntervalFrames := 1
  priorityAndRank := 0x70
  accumulatedLatency := 3900
  bridgeID := ⟨[0, 0, 0, 0, 0, 0, 0, 0], rfl⟩
  failureCode := 0

def sampleDomain : Domain where
  srClassID := 6
  srClassPriority := 3
  neighborSRclassPriority := 3
  srClassVID := 2

/-- All types after TXLA: the second talker and the second listener, which are only offered,
are carried in the vector of the first. -/
theorem msrpRecvMsg_msrpTxpdu_mixed :
    let failed := { sampleTalk 9 with failureCode := 8 }
    let db := afterTx .txla true
      [inStates .aa .mtState (.talker false (sampleTalk 1)),
        inStates .vo .inState (.talker false (sampleTalk 2)),
        inStates .an .inState (.talker true failed),
        inStates .qa .inState (.listener (sampleStream 3) 2),
        inStates .ao .mtState (.listener (sampleStream 4) 1),
        inStates .vn .mtState (.domain sampleDomain)]
    ∃ frame, (msrpTxpdu sampleStation db).frame = some frame ∧
      (msrpRecvMsg frame cleared).2 = .ok ∧
      raises (sourceAddr frame) (msrpRecvMsg frame cleared).1 =
        [.leaveAll .talkerAdv,
          .attribute .rjoinmt (received sampleStation.val (.talker false (sampleTalk 1))),
          .attribute .rin (received sampleStation.val (.talker false (sampleTalk 2))),
          .leaveAll .talkerFailed,
          .attribute .rnew (received sampleStation.val (.talker true failed)), .leaveAll .listener,
          .attribute .rjoinin (received sampleStation.val (.listener (sampleStream 3) 2)),
          .attribute .rmt (received sampleStation.val (.listener (sampleStream 4) 1)),
          .leaveAll .domain,
          .attribute .rnew (received sampleStation.val (.domain sampleDomain))] := by
  intro failed db
  obtain ⟨-, -, hread, hbuild⟩ := msrpRecvMsg_msrpTxpdu sampleStation cleared db .txla (.inr rfl)
    ⟨db.attribList, by decide, by decide +kernel⟩ (by decide)
    (fun a ha => by
      obtain ⟨b, -, rfl⟩ := mem_map.mp ha
      exact .stepApplicant b true (.inr rfl)) rfl (by decide +kernel)
  obtain ⟨frame, hframe⟩ := hbuild (.inl rfl) (by decide +kernel)
  obtain ⟨hrc, hraises⟩ := hread frame hframe
  exact ⟨frame, hframe, hrc, hraises.trans (by decide +kernel)⟩

/-- An attribute that is only offered is not sent; and a talker advertise comes back without the
failure information it was declared with. -/
theorem msrpTxpdu_offers :
    let offered := afterTx .tx false
      [inStates .aa .mtState (.talker false (sampleTalk 1)),
        inStates .qa .mtState (.talker false (sampleTalk 5))]
    let coded := afterTx .tx false
      [inStates .aa .mtState (.talker false { sampleTalk 1 with failureCode := 8 })]
    let calls := some [.attribute .rjoinmt (received sampleStation.val (.talker false (sampleTalk 1)))]
    (∀ db ∈ [offered, coded], MsrpBuilt db.attribList ∧ MsrpFits db ∧
      (∀ a ∈ db.attribList, a.applicant.JustStepped .tx ∧ a.applicant.tx = true) ∧
      (msrpTxpdu sampleStation db).frame.map
          (fun frame => raises (sourceAddr frame) (msrpRecvMsg frame cleared).1) = calls) := by
  intro offered coded calls db hdb
  have hstep : ∀ a ∈ db.attribList, a.applicant.JustStepped .tx ∧ a.applicant.tx = true := by
    intro a ha
    have hs : a.applicant.JustStepped .tx := by
      simp only [mem_cons, not_mem_nil, or_false] at hdb
      rcases hdb with rfl | rfl
      all_goals
        obtain ⟨b, -, rfl⟩ := mem_map.mp ha
        exact .stepApplicant b true (.inl rfl)
    exact ⟨hs, hs.tx (.inl rfl)⟩
  simp only [mem_cons, not_mem_nil, or_false] at hdb
  rcases hdb with rfl | rfl
  · exact ⟨⟨offered.attribList, by decide, by decide +kernel⟩, by decide +kernel, hstep,
      by decide +kernel⟩
  · exact ⟨⟨coded.attribList, by decide, by decide +kernel⟩, by decide +kernel, hstep,
      by decide +kernel⟩

theorem msrp_keyed (station : Octets 6) (pruning : Pruning) :
    (msrpApplication station pruning).Keyed msrpKey where
  lookup r v := by
    show msrpLookup r v = _
    cases r <;> cases v <;> simp [msrpLookup, msrpKey]
  add_perm := addGrouped_perm _ _
  key_merge l r a h := by
    obtain ⟨v, aa, ar⟩ := a
    obtain ⟨v', ra, rr⟩ := r
    show msrpKey (msrpMerge l ⟨v', ra, rr⟩ ⟨v, aa, ar⟩).value = msrpKey v
    cases v <;> cases v' <;> simp only [msrpMerge]
    case talker.talker => rfl
    case listener.listener => split <;> rfl
    case domain.domain => split <;> rfl
  txpdu db := msrpTxpdu_txChanged station db
  txpdu_lva _ := rfl
  txpdu_flag _ := rfl

def MsrpDatabase : Type := { db : Database MsrpValue // db.Resting msrpKey }

end OpenAvb.Mrpd
