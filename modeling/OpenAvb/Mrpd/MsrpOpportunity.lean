import OpenAvb.Mrpd.MsrpText

/-!
# What a transmit opportunity leaves behind

The applicants take a transmit opportunity before the frame is built. A declaration
that does not get into the frame, or whose frame is not sent, is lost unless the
applicant sends it once more anyway.
-/

namespace OpenAvb.Mrpd

section

open List

inductive Opportunity where
  | tx
  | lvatimer

open Opportunity

namespace Opportunity

def call : Opportunity → Call MsrpType MsrpValue
  | tx => .tx
  | lvatimer => .lvatimer

def event : Opportunity → MrpEvent
  | tx => .tx
  | lvatimer => .txla

def leaveAll : Opportunity → Bool
  | tx => false
  | lvatimer => true

def transition (o : Opportunity) (registrarIsIn : Bool) (s : ApplicantState) : Transition :=
  match o with
  | tx => txTransition registrarIsIn s
  | lvatimer => txlaTransition s

/-- The New, Join or Leave that an applicant in state `s` requires, and does not only offer. -/
def required (o : Opportunity) (registrarIsIn : Bool) (s : ApplicantState) : Option SndMsg :=
  let t := o.transition registrarIsIn s
  if t.tx && !t.optional && (t.sndmsg = .sndNew || t.sndmsg = .sndJoin || t.sndmsg = .sndLv) then
    some t.sndmsg
  else none

/-- The states in which an applicant requires a message and then requires it once more. -/
def retains : Opportunity → ApplicantState → Bool
  | tx, s => s = .vp || s = .vn
  | lvatimer, s => s = .vn

def step (o : Opportunity) (p2pmac : Bool) (a : Attribute MsrpValue) : Attribute MsrpValue :=
  match o with
  | tx => a.stepApplicant p2pmac .tx
  | lvatimer => a.stepBoth p2pmac .txla

def ready (o : Opportunity) (p2pmac : Bool) (db : Database MsrpValue) : Database MsrpValue :=
  match o with
  | tx => db.txReady p2pmac
  | lvatimer => db.lvaReady p2pmac

end Opportunity

inductive Pending (msg : SndMsg) : ApplicantState → Prop where
  | now {s : ApplicantState}
    (h : ∀ registrarIsIn, tx.required registrarIsIn s = some msg) : Pending msg s
  | later {s : ApplicantState}
    (h : ∀ registrarIsIn, Pending msg (txTransition registrarIsIn s).mrpState) : Pending msg s

variable {o : Opportunity} {registrarIsIn : Bool} {msg : SndMsg} {s : ApplicantState}

theorem pending_states (h : Pending msg s) :
    msg = .sndNew ∧ (s = .vn ∨ s = .an) ∨ msg ≠ .sndNew ∧ s ≠ .qa ∧ s ≠ .vo := by
  induction h with
  | @now s h =>
    have hnow := h true
    cases s <;> simp [required, transition, txTransition, Transition.send,
      Transition.offer] at hnow <;> simp [← hnow]
  | @later s _ ih =>
    cases s <;> simp_all [txTransition, Transition.send, Transition.offer]

theorem opportunity_pending_iff (h : o.required registrarIsIn s = some msg) :
    Pending msg (o.transition registrarIsIn s).mrpState ↔ o.retains s = true := by
  constructor
  · intro hpending
    have hstates := pending_states hpending
    cases o <;> cases s <;> cases registrarIsIn <;>
      simp_all [required, transition, retains, txTransition,
        txlaTransition, Transition.send, Transition.offer]
  · intro hretains
    refine .now fun registrarIsIn => ?_
    cases o <;> cases s <;>
      simp_all [required, transition, retains, txTransition, txlaTransition, Transition.send]

variable {p2pmac : Bool} {db : Database MsrpValue} {a b : Attribute MsrpValue}

@[simp] theorem value_opportunity : (o.step p2pmac a).value = a.value := by
  cases o <;> rfl

theorem applicant_opportunity (a : Attribute MsrpValue) (p2pmac : Bool) :
    (o.step p2pmac a).applicant = (a.stepApplicant p2pmac o.event).applicant := by
  cases o <;> rfl

theorem justStepped_opportunity (a : Attribute MsrpValue) (p2pmac : Bool) :
    (o.step p2pmac a).applicant.JustStepped o.event := by
  rw [applicant_opportunity]
  exact .stepApplicant a p2pmac (by cases o <;> simp [event])

theorem state_opportunity (a : Attribute MsrpValue) (p2pmac : Bool) :
    (o.step p2pmac a).applicant.mrpState =
      (o.transition (mrpRegistrarIn a.registrar) a.applicant.mrpState).mrpState := by
  cases o <;> rfl

theorem required_opportunity (p2pmac : Bool)
    (h : o.required (mrpRegistrarIn a.registrar) a.applicant.mrpState = some msg) :
    (o.step p2pmac a).applicant.sndmsg = msg ∧ (msg = .sndNew ∨ msg = .sndJoin ∨ msg = .sndLv) := by
  have hmsg : (o.step p2pmac a).applicant.sndmsg =
      (o.transition (mrpRegistrarIn a.registrar) a.applicant.mrpState).sndmsg := by
    cases o <;> rfl
  rw [required] at h
  obtain ⟨hask, rfl⟩ : _ ∧ _ := by simpa using h
  exact ⟨hmsg, or_assoc.mp hask.2⟩

theorem attribList_ready : (o.ready p2pmac db).attribList = db.attribList.map (o.step p2pmac) := by
  cases o <;> rfl

theorem flags_ready (o : Opportunity) (p2pmac : Bool) (h : db.Resting msrpKey) :
    (o.ready p2pmac db).sendEmptyLeaveAll = o.leaveAll ∧
      (o.ready p2pmac db).mrpDb.lva.tx = o.leaveAll := by
  cases o with
  | tx => exact ⟨h.flag, h.lva⟩
  | lvatimer => exact ⟨rfl, rfl⟩

theorem frame_opportunity (station : Octets 6) (pruning : Pruning) (p2pmac : Bool)
    (db : Database MsrpValue) : (msrpEvent station pruning p2pmac o.call db).frame =
      (msrpTxpdu station (o.ready p2pmac db)).frame := by
  cases o <;> rfl

theorem entry_opportunity (station : Octets 6) (pruning : Pruning) (p2pmac : Bool)
    (h : db.Resting msrpKey) (ha : a ∈ db.attribList) :
    ((msrpEvent station pruning p2pmac o.call db).db.entry msrpKey (msrpKey a.value)).map
        (·.applicant.mrpState) =
      some (o.transition (mrpRegistrarIn a.registrar) a.applicant.mrpState).mrpState := by
  have hdb : (msrpEvent station pruning p2pmac o.call db).db.attribList =
      (msrpTxpdu station (o.ready p2pmac db)).attribs.map Attribute.settle := by
    cases o <;> rfl
  have hentry : OpenAvb.entry (fun a => msrpKey a.value) (msrpKey a.value) db.attribList =
      some a := (entry_eq_some h.unique).mpr ⟨ha, rfl⟩
  have hsettle : ∀ a : Attribute MsrpValue, msrpKey a.settle.value = msrpKey a.value := fun _ => rfl
  have hstep : ∀ a, msrpKey (o.step p2pmac a).value = msrpKey a.value :=
    fun _ => congrArg msrpKey value_opportunity
  rw [Database.entry, hdb, entry_map hsettle, Option.map_map,
    entry_txChanged (msrpTxpdu_txChanged station _) fun _ _ => rfl, attribList_ready,
    entry_map hstep, hentry]
  exact congrArg some (state_opportunity a p2pmac)

/-- A reader of PDUs that takes every declaration of a listener, whatever its substate. -/
def msrpContents : Reception MsrpType MsrpCount MsrpValue :=
  { msrpReception with
    firstval := fun t first _ => msrpFirstval first [] t
    take := fun
      | .listener s rest => (some (.listener s 0), .listener (msrpIncrementStreamid s) rest)
      | c => msrpTake c }

def msrpIdentity : MsrpValue → MsrpValue
  | .listener s _ => .listener s 0
  | v => msrpSeen v

def msrpDeclarations (frame : List UInt8) : List (Raised MsrpType MsrpValue) :=
  raises (sourceAddr frame)
    (recvMsg msrpContents msrpEtype msrpAddr (recvBuffer frame cleared) frame.length).1

def SndMsg.says : SndMsg → MrpEvent → Bool
  | .sndNew, .rnew => true
  | .sndJoin, .rjoinin | .sndJoin, .rjoinmt => true
  | .sndLv, .rlv => true
  | _, _ => false

def Declares (frame : List UInt8) (msg : SndMsg) (v : MsrpValue) : Prop :=
  ∃ event r, Raised.attribute event r ∈ msrpDeclarations frame ∧ msg.says event = true ∧
    r.value = msrpIdentity v

theorem msrpContents_reading : Reading msrpContents (fun v => some (msrpIdentity v)) where
  agrees t := by cases t <;> constructor <;> first | rfl | decide
  skipsNull := rfl
  talker failed _ _ := by cases failed <;> rfl
  domain _ _ := rfl
  take_talker _ _ := rfl
  take_domain _ := rfl
  view_talker _ _ := rfl
  view_domain _ := rfl

theorem msrpKey_identity (v : MsrpValue) : msrpKey (msrpIdentity v) = msrpKey v := by
  cases v with
  | talker failed t => cases failed <;> rfl
  | _ => rfl

theorem contents_listener_counts {rest : List (Attribute MsrpValue)} {substate : Nat}
    {streamID : Octets 8} {first : Nat} (ha : a.value = .listener streamID substate)
    (hrun : listenerEmitter.run (.listener streamID first) rest = rest.length) :
    msrpContents.Counts (fun v => some (msrpIdentity v)) (.listener streamID []) (a :: rest) := by
  induction rest generalizing a streamID substate with
  | nil => exact ⟨by rw [ha]; rfl, trivial⟩
  | cons b rest ih =>
    obtain ⟨⟨substate', hb⟩, hr⟩ := listener_run_cons hrun
    exact ⟨by rw [ha]; rfl, ih hb hr⟩

theorem contents_listener_counted {g : Group MsrpValue} {l : List (Attribute MsrpValue)}
    (hg : g ∈ listenerEmitter.groups 0 l) :
    listenerEmitter.Counted msrpContents .listener (fun v => some (msrpIdentity v)) g := by
  obtain ⟨streamID, substate, hs, hrun⟩ := listener_groups hg
  have hfirst : listenerEmitter.firstValue g.head.value = streamID.val := by rw [hs]; rfl
  rw [Sequence.IsRun, hs] at hrun
  rw [Emitter.Counted, hfirst]
  have hcount := contents_listener_counts hs hrun
  rw [← Octets.ofList_val streamID] at hcount
  exact hcount

theorem mem_msrpDeclarations {plan : MsrpPlan} {flag lva : Bool} {event : MrpEvent}
    {r : Attribute MsrpValue} (station : Octets 6) (hread : ∀ t, ∀ g ∈ plan.ofType t,
      (msrpEmitter t).Readable msrpContents t (fun v => some (msrpIdentity v)) g)
    (hlva : flag = lva) (hroom : plan.endsAt flag lva + 2 < maxFrameSize) :
    .attribute event r ∈ msrpDeclarations (plan.frame station flag lva) ↔
      ∃ t, ∃ b ∈ (plan.ofType t).flatMap Group.members, ∃ e, b.event = some e ∧ event = e.received ∧
        r = received (sourceAddr (plan.frame station flag lva)) (msrpIdentity b.value) := by
  obtain ⟨-, hraises⟩ :=
    msrpContents_reading.recvMsg_plan station hread (fun _ _ => hlva) hroom cleared
  rw [msrpDeclarations, hraises, mem_flatMap]
  constructor
  · rintro ⟨t, -, hmem⟩
    rw [typeRaises, mem_append, mem_filterMap] at hmem
    rcases hmem with hleave | ⟨b, hb, hraised⟩
    · split at hleave
      · simp at hleave
      · cases hleave
    · obtain ⟨e, he, hsame⟩ : ∃ e, b.event = some e ∧
          Raised.attribute e.received (received _ (msrpIdentity b.value)) =
            (.attribute event r : Raised MsrpType MsrpValue) := by
        simpa [Attribute.raised] using hraised
      obtain ⟨rfl, rfl⟩ := Raised.attribute.inj hsame
      exact ⟨t, b, hb, e, he, rfl, rfl⟩
  · rintro ⟨t, b, hb, e, he, rfl, rfl⟩
    refine ⟨t, by cases t <;> decide, mem_append_right _ (mem_filterMap.mpr ⟨b, hb, ?_⟩)⟩
    simp [Attribute.raised, he]

/-- The sizes of the other vectors let the emitters finish, and the attribute's own is written. -/
def Carries (db : Database MsrpValue) (a : Attribute MsrpValue) : Prop :=
  ∃ plan : MsrpPlan,
    plan.Writes db.sendEmptyLeaveAll db.mrpDb.lva.tx (msrpGroups db.attribList) ∧
    plan.endsAt db.sendEmptyLeaveAll db.mrpDb.lva.tx + 2 < maxFrameSize ∧
    ∃ t, a ∈ (plan.ofType t).flatMap Group.members

theorem says_event (p2pmac : Bool)
    (h : o.required (mrpRegistrarIn a.registrar) a.applicant.mrpState = some msg) :
    ∃ e, (o.step p2pmac a).event = some e ∧ msg.says e.received = true := by
  obtain ⟨hmsg, hkind⟩ := required_opportunity p2pmac h
  rw [Attribute.event, hmsg]
  rcases hkind with rfl | rfl | rfl
  · exact ⟨_, rfl, rfl⟩
  · cases mrpRegistrarIn (o.step p2pmac a).registrar <;> exact ⟨_, rfl, rfl⟩
  · exact ⟨_, rfl, rfl⟩

theorem groups_opportunity {plan : MsrpPlan}
    (hw : plan.Writes (o.ready p2pmac db).sendEmptyLeaveAll (o.ready p2pmac db).mrpDb.lva.tx
      (msrpGroups (o.ready p2pmac db).attribList)) (t : MsrpType) (g : Group MsrpValue)
    (hg : g ∈ plan.ofType t) :
    (msrpEmitter t).Readable msrpContents t (fun v => some (msrpIdentity v)) g ∧
      g ∈ (msrpEmitter t).groups 0 (o.ready p2pmac db).attribList := by
  have hstep : ∀ b ∈ (o.ready p2pmac db).attribList, b.applicant.JustStepped o.event := by
    rw [attribList_ready]
    intro b hb
    obtain ⟨b, -, rfl⟩ := mem_map.mp hb
    exact justStepped_opportunity b p2pmac
  have he : o.event = .tx ∨ o.event = .txla := by cases o <;> simp [event]
  obtain ⟨hmem, hvalid⟩ := hw.mem t g hg
  rw [msrpGroups_stepped he hstep] at hmem
  exact ⟨⟨hvalid, rfl,
    msrpContents_reading.counted (fun _ => contents_listener_counted) t hmem⟩, hmem⟩

theorem declares_iff (station : Octets 6) (p2pmac : Bool) (h : db.Resting msrpKey)
    (ha : a ∈ db.attribList)
    (hreq : o.required (mrpRegistrarIn a.registrar) a.applicant.mrpState = some msg) :
    (∃ frame, (msrpTxpdu station (o.ready p2pmac db)).frame = some frame ∧
        Declares frame msg a.value) ↔ Carries (o.ready p2pmac db) (o.step p2pmac a) := by
  obtain ⟨hflag, hlva⟩ := flags_ready o p2pmac h
  constructor
  · rintro ⟨frame, hframe, event, r, hmem, hsays, hvalue⟩
    obtain ⟨plan, hw, -, hroom, rfl⟩ := (msrpTxpdu_frame station _).mp hframe
    have hread := fun t g hg => (groups_opportunity hw t g hg).1
    obtain ⟨t, b, hb, e, hbe, rfl, rfl⟩ := (mem_msrpDeclarations station hread
      (hflag.trans hlva.symm) hroom).mp hmem
    refine ⟨plan, hw, hroom, t, ?_⟩
    -- the attribute found is the one asked for, since they have the same key
    obtain ⟨g, hg, hbg⟩ := mem_flatMap.mp hb
    have hlist := ((msrpEmitter t).members_sublist (groups_opportunity hw t g hg).2).subset hbg
    rw [attribList_ready] at hlist
    obtain ⟨c, hc, rfl⟩ := mem_map.mp hlist
    have hkey : msrpKey c.value = msrpKey a.value := by
      have := congrArg msrpKey hvalue
      simpa [received, alloc, msrpKey_identity] using this
    have hsame : c = a := by
      have hentry := (entry_eq_some h.unique).mpr ⟨hc, rfl⟩
      rw [hkey, (entry_eq_some h.unique).mpr ⟨ha, rfl⟩] at hentry
      exact (Option.some.inj hentry).symm
    rwa [hsame] at hb
  · rintro ⟨plan, hw, hroom, t, hmem⟩
    have hne : plan.messages (o.ready p2pmac db).sendEmptyLeaveAll
        (o.ready p2pmac db).mrpDb.lva.tx ≠ [] := by
      intro hnil
      have hnone := flatMap_eq_nil_iff.mp hnil t (by cases t <;> decide)
      rw [((msrpEmitter t).sent_eq_nil.mp hnone).1] at hmem
      cases hmem
    have hread := fun t g hg => (groups_opportunity hw t g hg).1
    obtain ⟨e, hevent, hsays⟩ := says_event p2pmac hreq
    refine ⟨_, (msrpTxpdu_frame station _).mpr ⟨plan, hw, hne, hroom, rfl⟩, _, _,
      (mem_msrpDeclarations station hread (hflag.trans hlva.symm) hroom).mpr
        ⟨t, _, hmem, e, hevent, rfl, rfl⟩, hsays, ?_⟩
    rw [value_opportunity]
    rfl

/-- No declaration is lost iff each New, Join or Leave that is required comes from a state that
requires it once more, or the send succeeds and the attribute is in one of the vectors that fit. -/
theorem msrpEvent_keeps_iff (station : Octets 6) (pruning : Pruning) (p2pmac : Bool)
    (o : Opportunity) (s : MsrpDatabase) (sent : Bool) :
    let out := msrpEvent station pruning p2pmac o.call s.val
    (∀ a ∈ s.val.attribList, ∀ msg,
      o.required (mrpRegistrarIn a.registrar) a.applicant.mrpState = some msg →
        (sent = true ∧ ∃ frame, out.frame = some frame ∧ Declares frame msg a.value) ∨
          ∃ b, out.db.entry msrpKey (msrpKey a.value) = some b ∧ Pending msg b.applicant.mrpState) ↔
      ∀ a ∈ s.val.attribList,
        (o.required (mrpRegistrarIn a.registrar) a.applicant.mrpState).isSome →
          o.retains a.applicant.mrpState = true ∨
            sent = true ∧ Carries (o.ready p2pmac s.val) (o.step p2pmac a) := by
  intro out
  have hone : ∀ a ∈ s.val.attribList, ∀ msg,
      o.required (mrpRegistrarIn a.registrar) a.applicant.mrpState = some msg →
        (((sent = true ∧ ∃ frame, out.frame = some frame ∧ Declares frame msg a.value) ∨
          ∃ b, out.db.entry msrpKey (msrpKey a.value) = some b ∧ Pending msg b.applicant.mrpState) ↔
        (o.retains a.applicant.mrpState = true ∨
          sent = true ∧ Carries (o.ready p2pmac s.val) (o.step p2pmac a))) := by
    intro a ha msg hreq
    have hstate : (∃ b, out.db.entry msrpKey (msrpKey a.value) = some b ∧
        Pending msg b.applicant.mrpState) ↔ o.retains a.applicant.mrpState = true := by
      rw [← opportunity_pending_iff hreq]
      obtain ⟨b, hb, hsame⟩ := Option.map_eq_some_iff.mp
        (entry_opportunity station pruning p2pmac s.property ha)
      rw [← hsame]
      constructor
      · rintro ⟨b', hb', hpending⟩
        obtain rfl : b = b' := Option.some.inj (hb.symm.trans hb')
        exact hpending
      · exact fun hpending => ⟨b, hb, hpending⟩
    have hframe : out.frame = (msrpTxpdu station (o.ready p2pmac s.val)).frame :=
      frame_opportunity station pruning p2pmac s.val
    rw [hstate, hframe, declares_iff station p2pmac s.property ha hreq]
    exact or_comm
  constructor
  · intro h a ha hsome
    obtain ⟨msg, hreq⟩ := Option.isSome_iff_exists.mp hsome
    exact (hone a ha msg hreq).mp (h a ha msg hreq)
  · intro h a ha msg hreq
    exact (hone a ha msg hreq).mpr (h a ha (by rw [hreq]; rfl))

def leavingTalkers (n : Nat) : Database MsrpValue where
  mrpDb := mrpJointimerStart (emptyDatabase : Database MsrpValue).mrpDb
  attribList := (List.range n).map fun i =>
    inStates .la .mtState (.talker false (sampleTalk (UInt8.ofNat (2 * i))))
  sendEmptyLeaveAll := false

theorem not_pending_leave : ¬ Pending .sndLv .vo := by
  intro h
  simpa using pending_states h

/-- A Leave is due at a transmit opportunity, and is neither sent nor due afterwards. -/
def LosesLeave (sent : Bool) (station : Octets 6) (pruning : Pruning) (p2pmac : Bool)
    (db : Database MsrpValue) (a : Attribute MsrpValue) : Prop :=
  let out := msrpEvent station pruning p2pmac .tx db
  tx.required (mrpRegistrarIn a.registrar) a.applicant.mrpState = some .sndLv ∧
    ¬ ((sent = true ∧ ∃ frame, out.frame = some frame ∧ Declares frame .sndLv a.value) ∨
      ∃ b, out.db.entry msrpKey (msrpKey a.value) = some b ∧ Pending .sndLv b.applicant.mrpState)

theorem losesLeave_of_unsent {sent : Bool} (station : Octets 6) (pruning : Pruning) (p2pmac : Bool)
    (h : db.Resting msrpKey) (ha : a ∈ db.attribList) (hla : a.applicant.mrpState = .la)
    (hno : sent = false ∨ (msrpEvent station pruning p2pmac .tx db).frame = none) :
    LosesLeave sent station pruning p2pmac db a := by
  have hstate := @entry_opportunity .tx db a station pruning p2pmac h ha
  rw [LosesLeave, hla]
  rw [hla] at hstate
  refine ⟨rfl, ?_⟩
  rintro (⟨hsent, frame, hframe, -⟩ | ⟨b, hb, hpending⟩)
  · rcases hno with hfails | hnone
    · exact Bool.false_ne_true (hfails.symm.trans hsent)
    · cases hnone.symm.trans hframe
  · obtain ⟨b', hb', hvo⟩ := Option.map_eq_some_iff.mp hstate
    obtain rfl : b' = b := Option.some.inj (hb'.symm.trans hb)
    rw [hvo] at hpending
    exact not_pending_leave hpending

/-- The Leave of a talker is lost if the send fails, and that of the first of seventy even if it
would succeed, since no frame is built at all. -/
theorem leave_lost :
    let a := inStates .la .mtState (.talker false (sampleTalk 0))
    ((leavingTalkers 1).Resting msrpKey ∧ a ∈ (leavingTalkers 1).attribList ∧
      LosesLeave false sampleStation ⟨false, []⟩ true (leavingTalkers 1) a) ∧
    (leavingTalkers 70).Resting msrpKey ∧ a ∈ (leavingTalkers 70).attribList ∧
      LosesLeave true sampleStation ⟨false, []⟩ true (leavingTalkers 70) a := by
  intro a
  have hunique : ∀ n, ((leavingTalkers n).attribList.map fun a => msrpKey a.value).Nodup →
      (leavingTalkers n).Resting msrpKey := fun n h => ⟨h, rfl, rfl⟩
  have hfirst : ∀ n, a ∈ (leavingTalkers (n + 1)).attribList := by
    intro n
    exact mem_map.mpr ⟨0, by simp, rfl⟩
  constructor
  · have hrest := hunique 1 (by decide)
    exact ⟨hrest, hfirst 0,
      losesLeave_of_unsent sampleStation ⟨false, []⟩ true hrest (hfirst 0) rfl (.inl rfl)⟩
  · have hrest := hunique 70 (by decide +kernel)
    exact ⟨hrest, hfirst 69,
      losesLeave_of_unsent sampleStation ⟨false, []⟩ true hrest (hfirst 69) rfl
        (.inr (by decide +kernel))⟩

end

/-! ## The substates of listeners -/

open List

section Placed

variable {ν : Type}

def Emitter.placed (E : Emitter ν) : Nat → List (Group ν) → List (Nat × Group ν)
  | _, [] => []
  | p, g :: gs => (p, g) :: E.placed (p + E.span g.members.length) gs

def Emitter.substatesAt (E : Emitter ν) (p : Nat) (g : Group ν) : Nat :=
  p + 2 + E.attributeLength + packed3 g.members.length

theorem Emitter.stands_placed (E : Emitter ν) (hgs : ∀ g ∈ gs, g.Valid)
    (h : Stands m p (vectorOctets (E.vectors lva gs))) (hg : (q, g) ∈ E.placed p gs) :
    Stands m (E.substatesAt q g) (pack4 (g.members.flatMap fun a => E.declares a.value)) := by
  induction gs generalizing p lva with
  | nil => cases hg
  | cons g' gs ih =>
    simp only [mem_cons, forall_eq_or_imp] at hgs
    simp only [Emitter.vectors, vectorOctets_cons, stands_append, E.length_vector hgs.1] at h
    rcases mem_cons.mp hg with heq | hg
    · cases heq
      have hvector := h.1
      simp only [VectorAttribute.octets, Emitter.vector, stands_append, length_append,
        length_be16, E.length_firstValue, length_pack3, length_map, hgs.1.length_events] at hvector
      have hat : E.substatesAt q g = q + (2 + E.attributeLength + (g.members.length + 2) / 3) := by
        simp only [Emitter.substatesAt, packed3]
        omega
      rw [hat]
      exact hvector.2
    · exact ih hgs.2 h.2 hg

theorem Emitter.mem_of_mem_placed (E : Emitter ν) (hg : (q, g) ∈ E.placed p gs) : g ∈ gs := by
  induction gs generalizing p with
  | nil => cases hg
  | cons g' gs ih =>
    rcases mem_cons.mp hg with heq | hg
    · cases heq
      exact mem_cons_self
    · exact mem_cons_of_mem _ (ih hg)

end Placed

structure ListenerVector where
  substatesAt : Nat
  listeners : List (Attribute MsrpValue)

def ListenerVector.declared (v : ListenerVector) : List Nat :=
  v.listeners.map fun a => listenerEmitter.substate a.value

def ListenerVector.substate (v : ListenerVector) (frame : List UInt8) (k : Nat) : Nat :=
  digit4At (recvBuffer frame cleared) v.substatesAt k

def MsrpPlan.listenerVectors (emptyLeaveAll lva : Bool) (plan : MsrpPlan) : List ListenerVector :=
  (listenerEmitter.placed (plan.listenersAt emptyLeaveAll lva + listenerEmitter.dataOffset)
    plan.listeners).map fun (p, g) => ⟨listenerEmitter.substatesAt p g, g.members⟩

def SendsListeners (station : Octets 6) (db : Database MsrpValue) (frame : List UInt8)
    (vectors : List ListenerVector) : Prop :=
  (msrpTxpdu station db).frame = some frame ∧
    ∃ plan : MsrpPlan,
      plan.Writes db.sendEmptyLeaveAll db.mrpDb.lva.tx (msrpGroups db.attribList) ∧
      vectors = plan.listenerVectors db.sendEmptyLeaveAll db.mrpDb.lva.tx

theorem MsrpPlan.stands_listeners (plan : MsrpPlan) (hne : plan.listeners ≠ [])
    (h : Stands m 0 (plan.frame station emptyLeaveAll lva)) :
    Stands m (plan.listenersAt emptyLeaveAll lva + listenerEmitter.dataOffset)
      (vectorOctets (listenerEmitter.vectors lva plan.listeners)) := by
  have hdest : msrpAddr.length = 6 := rfl
  have hheader : (msrpHeader station).length = 15 := length_ethHeader hdest station
  have hat : plan.listenersAt emptyLeaveAll lva = 15 +
      (messageOctets true ((talkerEmitter false).sent emptyLeaveAll lva plan.advertised)).length +
        (messageOctets true ((talkerEmitter true).sent emptyLeaveAll lva plan.failed)).length := rfl
  have hsent : listenerEmitter.sent emptyLeaveAll lva plan.listeners =
      [⟨listenerEmitter.attributeType, listenerEmitter.attributeLength,
        listenerEmitter.vectors lva plan.listeners⟩] := by
    obtain ⟨g, gs, hgs⟩ := exists_cons_of_ne_nil hne
    rw [hgs]
    rfl
  simp only [MsrpPlan.frame, MsrpPlan.messages_eq, messageOctets_append, hsent, stands_append,
    hheader, length_append, zero_add, ← add_assoc, ← hat] at h
  have hmessage := h.2.1.1.2
  simp only [messageOctets, flatMap_cons, flatMap_nil, append_nil, Message.octets,
    stands_append, if_true, length_append, length_be16] at hmessage
  exact hmessage.1.2

section

variable (h : SendsListeners station db frame vectors) (hv : v ∈ vectors)
include h hv

theorem SendsListeners.stands :
    Stands (recvBuffer frame rest) v.substatesAt (pack4 v.declared) := by
  obtain ⟨hframe, plan, hwrites, rfl⟩ := h
  obtain ⟨plan', hwrites', -, -, rfl⟩ := (msrpTxpdu_frame station db).mp hframe
  obtain rfl := hwrites.unique hwrites'
  obtain ⟨⟨p, g⟩, hg, rfl⟩ := mem_map.mp hv
  have hgs : ∀ g ∈ plan.listeners, g.Valid := fun g hg => (hwrites.mem .listener g hg).2
  have hne : plan.listeners ≠ [] := ne_nil_of_mem (listenerEmitter.mem_of_mem_placed hg)
  have hdeclared : (g.members.flatMap fun a => listenerEmitter.declares a.value) =
      g.members.map fun a => listenerEmitter.substate a.value :=
    (map_eq_flatMap ..).symm
  rw [ListenerVector.declared, ← hdeclared]
  exact listenerEmitter.stands_placed hgs (plan.stands_listeners hne stands_recvBuffer) hg

theorem SendsListeners.mem_declared
    (hd : d ∈ v.declared) : ∃ a ∈ db.attribList, d = listenerEmitter.substate a.value := by
  obtain ⟨-, plan, hwrites, rfl⟩ := h
  obtain ⟨⟨p, g⟩, hg, rfl⟩ := mem_map.mp hv
  obtain ⟨b, hb, rfl⟩ := mem_map.mp hd
  have hgroup : g ∈ listenerEmitter.groups 0 (markListeners db.attribList) :=
    (hwrites.mem .listener g (listenerEmitter.mem_of_mem_placed hg)).1
  obtain ⟨a, ha, rfl⟩ := mem_map.mp ((listenerEmitter.members_sublist hgroup).subset hb)
  exact ⟨a, ha, congrArg listenerEmitter.substate (value_markListener a)⟩

end

section Values

variable {τ ν κ : Type} [DecidableEq κ] {A : Application τ ν} {key : ν → κ} {db : Database ν}

theorem forall_value_attribute (P : ν → Prop) (hA : A.Keyed key) (p2pmac : Bool)
    (event : MrpEvent) {r : Attribute ν} (hmerge : ∀ l a, P a.value → P (A.merge l r a).value)
    (hr : P r.value) (h : ∀ a ∈ db.attribList, P a.value) :
    ∀ a ∈ (db.attribute A p2pmac event r).db.attribList, P a.value := by
  have hmerged : ∀ a ∈ db.merged A r, P a.value := by
    intro a ha
    rcases mem_merged hA ha with ha | rfl | ⟨b, hb, rfl⟩
    · exact h a ha
    · exact hr
    · exact hmerge _ b (h b hb)
  by_cases hi : A.interested db.attribList r.value = true
  · intro a ha
    rcases mem_attribute hi ha with ha | ⟨b, hfind, rfl⟩
    · exact hmerged a ha
    · rw [value_stepRequest]
      exact hmerged b (mem_of_find?_eq_some hfind)
  · rw [attribute_of_not_interested hi]
    exact h

end Values

def SubstatesFit (l : List (Attribute MsrpValue)) : Prop :=
  ∀ a ∈ l, listenerEmitter.substate a.value < 4

theorem substate_msrpMerge (l : List (Attribute MsrpValue)) (r a : Attribute MsrpValue) :
    listenerEmitter.substate (msrpMerge l r a).value = listenerEmitter.substate a.value ∨
      listenerEmitter.substate (msrpMerge l r a).value = listenerEmitter.substate r.value := by
  obtain ⟨v, aa, ar⟩ := a
  obtain ⟨w, ra, rr⟩ := r
  cases v <;> cases w
  case listener.listener =>
    simp only [msrpMerge]
    split
    · exact .inr rfl
    · exact .inl rfl
  case domain.domain =>
    simp only [msrpMerge]
    split <;> exact .inl rfl
  all_goals exact .inl rfl

/-- `cmd_report_listener_status`: the substate of an `S+L` command is not looked at. -/
def MsrpConfig.reportListenerStatus (cfg : MsrpConfig) (s : MsrpDaemon) (c : Octets 8 × Nat) :
    MsrpDaemon :=
  cfg.step s (.command (.reportListenerStatus c.1 c.2))

variable {cfg : MsrpConfig} {s : MsrpDaemon} {c : Octets 8 × Nat} {commands : List (Octets 8 × Nat)}

theorem SubstatesFit.reportListenerStatus (h : SubstatesFit s.db.attribList) (hc : c.2 < 4) :
    SubstatesFit (cfg.reportListenerStatus s c).db.attribList := by
  have hkeyed := msrp_keyed cfg.station (cfg.pruning s.interestingStreamIds)
  have hmerge : ∀ l a, listenerEmitter.substate a.value < 4 →
      listenerEmitter.substate (msrpMerge l (alloc (.listener c.1 c.2)) a).value < 4 := by
    intro l a ha
    rcases substate_msrpMerge l (alloc (.listener c.1 c.2)) a with hm | hm
    · exact hm.trans_lt ha
    · exact hm.trans_lt hc
  intro a ha
  obtain ⟨b, hb, rfl⟩ := mem_map.mp ha
  exact forall_value_attribute (fun v => listenerEmitter.substate v < 4) hkeyed cfg.p2pmac .new
    hmerge hc h b hb

theorem substatesFit_run (h : SubstatesFit s.db.attribList) (hcs : ∀ c ∈ commands, c.2 < 4) :
    SubstatesFit (run cfg.reportListenerStatus s commands).db.attribList := by
  induction commands generalizing s with
  | nil => exact h
  | cons c commands ih =>
    simp only [mem_cons, forall_eq_or_imp] at hcs
    exact ih (h.reportListenerStatus hcs.1) hcs.2

theorem SubstatesFit.ready {db : Database MsrpValue} (h : SubstatesFit db.attribList)
    (o : Opportunity) (p2pmac : Bool) : SubstatesFit (o.ready p2pmac db).attribList := by
  intro a ha
  rw [attribList_ready] at ha
  obtain ⟨b, hb, rfl⟩ := mem_map.mp ha
  cases o <;> exact h b hb

/-- The substate of a listener, if it is a digit below four, is sent as it was declared if and only
if four divides what the substates of the listeners behind it in the octet carry into its place. -/
theorem listener_substate_kept_iff (cfg : MsrpConfig) (s : MsrpDaemon)
    (commands : List (Octets 8 × Nat)) (o : Opportunity) :
    let db := o.ready cfg.p2pmac (run cfg.reportListenerStatus s commands).db
    ∀ frame vectors, SendsListeners cfg.station db frame vectors → ∀ v ∈ vectors,
      (∀ k d, v.declared[k]? = some d → d < 4 →
        (v.substate frame k = d ↔ 4 ∣ carry4 (mates4 v.declared k))) ∧
      (SubstatesFit s.db.attribList → (∀ c ∈ commands, c.2 < 4) →
        ∀ k d, v.declared[k]? = some d → v.substate frame k = d) := by
  intro db frame vectors hsends v hv
  have hstands : Stands (recvBuffer frame cleared) v.substatesAt (pack4 v.declared) :=
    hsends.stands hv
  refine ⟨fun k d hk hd => digit4At_eq_iff hstands hk hd, fun hs hcs k d hk => ?_⟩
  have hfit : SubstatesFit db.attribList := (substatesFit_run hs hcs).ready o cfg.p2pmac
  have hdigits : ∀ e ∈ v.declared, e < 4 := by
    intro e he
    obtain ⟨a, ha, rfl⟩ := hsends.mem_declared hv he
    exact hfit a ha
  have hzero : carry4 (mates4 v.declared k) = 0 :=
    carry4_eq_zero fun e he => hdigits e (mem_of_mem_mates4 he)
  refine (digit4At_eq_iff hstands hk (hdigits d (mem_of_getElem? hk))).mpr ?_
  rw [hzero]
  exact Nat.dvd_zero 4

def declareListeners (n : UInt8) : List Nat → List (Octets 8 × Nat)
  | [] => []
  | d :: ds => (sampleStream n, d) :: declareListeners (n + 1) ds

def listenersOnly (db : Database MsrpValue) : MsrpPlan where
  advertised := []
  failed := []
  listeners := (msrpGroups db.attribList).listeners
  domains := []

def declaredListeners (ds : List Nat) : Database MsrpValue :=
  Opportunity.tx.ready sampleConfig.p2pmac
    (run sampleConfig.reportListenerStatus msrpInit (declareListeners 1 ds)).db

def declaredFrame (ds : List Nat) : List UInt8 :=
  let db := declaredListeners ds
  (listenersOnly db).frame sampleConfig.station db.sendEmptyLeaveAll db.mrpDb.lva.tx

def declaredVectors (ds : List Nat) : List ListenerVector :=
  let db := declaredListeners ds
  (listenersOnly db).listenerVectors db.sendEmptyLeaveAll db.mrpDb.lva.tx

theorem sends_declaredListeners : ∀ ds ∈ [[2, 3], [2, 5]],
    SendsListeners sampleConfig.station (declaredListeners ds) (declaredFrame ds)
      (declaredVectors ds) := by
  intro ds hds
  have hwrites : (listenersOnly (declaredListeners ds)).Writes
      (declaredListeners ds).sendEmptyLeaveAll (declaredListeners ds).mrpDb.lva.tx
      (msrpGroups (declaredListeners ds).attribList) := by
    constructor <;> revert ds <;> decide +kernel
  refine ⟨(msrpTxpdu_frame _ _).mpr ⟨_, hwrites, ?_, ?_, rfl⟩, _, hwrites, rfl⟩
  all_goals
    clear hwrites
    revert ds
    decide +kernel

theorem listener_substate_kept_digits :
    ∃ frame vectors, SendsListeners sampleConfig.station (declaredListeners [2, 3]) frame vectors ∧
      ∃ v ∈ vectors, v.declared = [2, 3] ∧ v.substate frame 0 = 2 ∧ v.substate frame 1 = 3 := by
  have hsends := sends_declaredListeners [2, 3] (by simp)
  have hdeclared : (declaredVectors [2, 3]).map ListenerVector.declared = [[2, 3]] := by
    decide +kernel
  have hmem : [2, 3] ∈ (declaredVectors [2, 3]).map ListenerVector.declared := by simp [hdeclared]
  obtain ⟨v, hv, hd⟩ := mem_map.mp hmem
  have hempty : SubstatesFit msrpInit.db.attribList := by
    intro a ha
    cases ha
  obtain ⟨hkept, hfit⟩ := listener_substate_kept_iff sampleConfig msrpInit
    (declareListeners 1 [2, 3]) .tx _ _ hsends v hv
  have hfirst : v.declared[0]? = some 2 := by simp [hd]
  have hsecond : v.declared[1]? = some 3 := by simp [hd]
  have hcarry : 4 ∣ carry4 (mates4 v.declared 0) := by
    rw [hd]
    decide
  exact ⟨_, _, hsends, v, hv, hd, (hkept 0 2 hfirst (by decide)).mpr hcarry,
    hfit hempty (by decide) 1 3 hsecond⟩

/-- The second of two listeners is declared with 5, and the first one, which was declared with 2,
is sent with 3. -/
theorem listener_substate_changed :
    sampleConfig.readCmd ("S+L:L=0200000000010002,D=5".toList ++ [Char.ofNat 0]) =
      .ok (.reportListenerStatus (sampleStream 2) 5) ∧
    SendsListeners sampleConfig.station (declaredListeners [2, 5]) (declaredFrame [2, 5])
      (declaredVectors [2, 5]) ∧
    (declaredVectors [2, 5]).map (fun v => (v.declared, v.substate (declaredFrame [2, 5]) 0)) =
      [([2, 5], 3)] :=
  ⟨by decide +kernel, sends_declaredListeners [2, 5] (by simp), by decide +kernel⟩

end OpenAvb.Mrpd
