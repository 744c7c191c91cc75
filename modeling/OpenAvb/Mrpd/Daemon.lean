import OpenAvb.Mrpd.MsrpCodec
import OpenAvb.Mrpd.MvrpLink
import OpenAvb.Mrpd.Mmrp

/-!
# The daemon

What `process_events` lets happen to the MSRP database: commands of a client,
received PDUs, timers that expire and reclaim passes. The text of a command is
parsed elsewhere, and one that does not parse changes nothing.
-/

namespace OpenAvb.Mrpd

section

open List

structure MsrpConfig where
  station : Octets 6
  (p2pmac enablePruning : Bool)
  maxInterestingStreamIds : Nat

structure MsrpDaemon where
  db : Database MsrpValue
  interestingStreamIds : List (Octets 8)

structure Served where
  daemon : MsrpDaemon
  notified : List (MsrpValue × Notify) := []

def Served.andThen (o o' : Served) : Served := { o' with notified := o.notified ++ o'.notified }

inductive MsrpCommand where
  /-- `S??` -/
  | dumptable
  /-- `S-L` -/
  | withdrawListenerStatus (streamID : Octets 8)
  /-- `S+D` and `S-D` -/
  | reportDomainStatus (report : Bool) (srClassID srClassPriority : UInt8) (srClassVID : UInt16)
  /-- `S--` -/
  | leaveStream (streamID : Octets 8)
  /-- `S+L` -/
  | reportListenerStatus (streamID : Octets 8) (substate : Nat)
  /-- `S++` and `S+?`, with failure information or without -/
  | joinOrNewStream (new failed : Bool) (talk : TalkListen)
  /-- `I+S` -/
  | addStreamId (streamID : Octets 8)
  /-- `I-S` -/
  | removeStreamId (streamID : Octets 8)
  /-- `I-A` -/
  | removeAllStreamIds
  deriving DecidableEq

inductive MsrpInput where
  | command (c : MsrpCommand)
  | receive (data : List UInt8) (rest : Mem)
  | lvatimer | lvtimer | tx | periodic
  | reclaim

def MsrpInput.due (s : MsrpDaemon) : MsrpInput → Bool
  | .lvatimer => s.db.mrpDb.lvaTimerRunning
  | .lvtimer => s.db.mrpDb.lvTimerRunning
  | .tx => s.db.mrpDb.joinTimerRunning
  | _ => true

-- The array is kept sorted for `bsearch`, which then finds what it contains.

def eui64setFind (ids : List (Octets 8)) (id : Octets 8) : Bool := ids.contains id

/-- `none` if the set is full. -/
def eui64setInsertAndSort (maxEntries : Nat) (ids : List (Octets 8)) (id : Octets 8) :
    Option (List (Octets 8)) :=
  if ids.length < maxEntries then some (id :: ids) else none

/-- `none` if there is nothing to remove. -/
def eui64setRemoveAndSort (ids : List (Octets 8)) (id : Octets 8) : Option (List (Octets 8)) :=
  if eui64setFind ids id then some (ids.erase id) else none

namespace MsrpConfig

variable (cfg : MsrpConfig)

def maxEntries : Nat := if cfg.maxInterestingStreamIds < 8 then 8 else cfg.maxInterestingStreamIds

def pruning (ids : List (Octets 8)) : Pruning := ⟨cfg.enablePruning, ids⟩

def event (call : Call MsrpType MsrpValue) (s : MsrpDaemon) : Served :=
  let o := msrpEvent cfg.station (cfg.pruning s.interestingStreamIds) cfg.p2pmac call s.db
  { daemon := { s with db := o.db }, notified := o.notified }

def events (calls : List (Call MsrpType MsrpValue)) (s : MsrpDaemon) : Served :=
  calls.foldl (fun o call => o.andThen (cfg.event call o.daemon)) { daemon := s }

end MsrpConfig

def TalkListen.ofStreamID (streamID : Octets 8) : TalkListen where
  streamID := streamID
  destAddr := Octets.ofList 6 []
  vlanID := 0
  maxFrameSize := 0
  maxIntervalFrames := 0
  priorityAndRank := 0
  accumulatedLatency := 0
  bridgeID := Octets.ofList 8 []
  failureCode := 0

def MsrpValue.isTalkerOf (streamID : Octets 8) : MsrpValue → Bool
  | .talker _ t => t.streamID = streamID
  | _ => false

/-- The loop that frees the talkers of a StreamID; the clients are not told. -/
def MsrpDaemon.freeTalkers (streamID : Octets 8) (s : MsrpDaemon) : MsrpDaemon :=
  { s with db := { s.db with
      attribList := s.db.attribList.filter fun a => !a.value.isTalkerOf streamID } }

def MsrpDaemon.listenerSubstate (streamID : Octets 8) (s : MsrpDaemon) : Nat :=
  match (s.db.attribList.find? fun a => msrpLookup (.listener streamID 0) a.value).map
    Attribute.value with
  | some (.listener _ substate) => substate
  | _ => msrpListenerIgnore

namespace MsrpConfig

variable (cfg : MsrpConfig)

def withdrawListenerStatus (streamID : Octets 8) (s : MsrpDaemon) : Served :=
  let o := cfg.event
    (.attribute .lv (alloc (.listener streamID (s.listenerSubstate streamID)))) s
  if cfg.enablePruning && !eui64setFind o.daemon.interestingStreamIds streamID then
    { o with daemon := o.daemon.freeTalkers streamID }
  else o

def removeStreamId (streamID : Octets 8) (s : MsrpDaemon) : MsrpDaemon :=
  if cfg.enablePruning then
    match eui64setRemoveAndSort s.interestingStreamIds streamID with
    | none => s
    | some ids =>
      let s := { s with interestingStreamIds := ids }
      if hasListener streamID s.db.attribList then s else s.freeTalkers streamID
  else s

def addStreamId (streamID : Octets 8) (s : MsrpDaemon) : MsrpDaemon :=
  if cfg.enablePruning && !eui64setFind s.interestingStreamIds streamID then
    match eui64setInsertAndSort cfg.maxEntries s.interestingStreamIds streamID with
    | none => s
    | some ids => { s with interestingStreamIds := ids }
  else s

def recvCmd (c : MsrpCommand) (s : MsrpDaemon) : Served :=
  match c with
  | .dumptable => { daemon := s }
  | .withdrawListenerStatus streamID => cfg.withdrawListenerStatus streamID s
  | .reportDomainStatus report srClassID srClassPriority srClassVID =>
    -- the neighbor's priority is assumed to be ours
    let domain : Domain := ⟨srClassID, srClassPriority, srClassPriority, srClassVID⟩
    cfg.event (.attribute (if report then .join else .lv) (alloc (.domain domain))) s
  | .leaveStream streamID =>
    cfg.event (.attribute .lv (alloc (.talker false (.ofStreamID streamID)))) s
  | .reportListenerStatus streamID substate =>
    cfg.event (.attribute .new (alloc (.listener streamID substate))) s
  | .joinOrNewStream new failed talk =>
    cfg.event (.attribute (if new then .new else .join) (alloc (.talker failed (talk.seen failed)))) s
  | .addStreamId streamID => { daemon := cfg.addStreamId streamID s }
  | .removeStreamId streamID => { daemon := cfg.removeStreamId streamID s }
  | .removeAllStreamIds => { daemon := { s with interestingStreamIds := [] } }

def received (data : List UInt8) (rest : Mem) : List (Call MsrpType MsrpValue) :=
  (raises (sourceAddr data) (msrpRecvMsg data rest).1).map Raised.call

def serve (s : MsrpDaemon) (i : MsrpInput) : Served :=
  match i with
  | .command c => cfg.recvCmd c s
  | .receive data rest => cfg.events (received data rest) s
  | .lvatimer => cfg.event .lvatimer s
  | .lvtimer => cfg.event .lvtimer s
  | .tx => cfg.event .tx s
  | .periodic => cfg.event .periodic s
  | .reclaim =>
    let o := mrpReclaim s.db
    { daemon := { s with db := o.db }, notified := o.notified }

def step (s : MsrpDaemon) (i : MsrpInput) : MsrpDaemon := (cfg.serve s i).daemon

def log (o : Served) (i : MsrpInput) : Served := o.andThen (cfg.serve o.daemon i)

end MsrpConfig

def msrpInit : MsrpDaemon where
  db := emptyDatabase
  interestingStreamIds := []

def Call.Fresh {τ ν : Type} : Call τ ν → Prop
  | .attribute _ r => r.states = (.vo, .mtState)
  | _ => True

structure MsrpInput.Makes (i : MsrpInput) (call : Call MsrpType MsrpValue) : Prop where
  lvatimer : call = .lvatimer → i = .lvatimer
  fresh : call.Fresh

variable {cfg : MsrpConfig} {s : MsrpDaemon} {o : Served} {i : MsrpInput}

theorem Served.andThen_assoc (o o' o'' : Served) :
    (o.andThen o').andThen o'' = o.andThen (o'.andThen o'') := by
  simp [andThen, append_assoc]

theorem makes_received (hcall : call ∈ MsrpConfig.received data rest) :
    (MsrpInput.receive data rest).Makes call := by
  obtain ⟨r, hr, rfl⟩ := mem_map.mp hcall
  obtain ⟨p, _, hr⟩ := mem_flatMap.mp hr
  rcases mem_append.mp hr with hlva | hevent
  · split at hlva
    · obtain rfl := mem_singleton.mp hlva
      exact ⟨nofun, trivial⟩
    · cases hlva
  · obtain ⟨e, _, rfl⟩ := mem_map.mp hevent
    exact ⟨nofun, rfl⟩

theorem andThen_events (calls : List (Call MsrpType MsrpValue)) (o : Served) :
    o.andThen (cfg.events calls o.daemon) =
      calls.foldl (fun o call => o.andThen (cfg.event call o.daemon)) o := by
  have hgen : ∀ o' : Served, o.andThen (calls.foldl (fun o call =>
      o.andThen (cfg.event call o.daemon)) o') =
      calls.foldl (fun o call => o.andThen (cfg.event call o.daemon)) (o.andThen o') := by
    induction calls with
    | nil => exact fun _ => rfl
    | cons call calls ih =>
      intro o'
      rw [foldl_cons, foldl_cons, ih, ← Served.andThen_assoc]
      rfl
  refine (hgen { daemon := o.daemon }).trans ?_
  simp [Served.andThen]

theorem daemon_events (calls : List (Call MsrpType MsrpValue)) (s : MsrpDaemon) :
    (cfg.events calls s).daemon = calls.foldl (fun s call => (cfg.event call s).daemon) s :=
  (foldl_hom Served.daemon fun _ _ => rfl).symm

theorem log_preserves {P : Served → Prop}
    (hevent : ∀ o call, i.Makes call → P o → P (o.andThen (cfg.event call o.daemon)))
    (hreclaim : i = .reclaim → ∀ o, P o → P (o.andThen (cfg.serve o.daemon .reclaim)))
    (hfree : cfg.enablePruning = true →
      ∀ o streamID, P o → P { o with daemon := o.daemon.freeTalkers streamID })
    (hids : ∀ o ids, P o → P { o with daemon := { o.daemon with interestingStreamIds := ids } })
    (h : P o) : P (cfg.log o i) := by
  have hsame : ∀ s, o.andThen { daemon := s } = { o with daemon := s } := by simp [Served.andThen]
  cases i with
  | command c =>
    cases c with
    | dumptable =>
      show P (o.andThen { daemon := o.daemon })
      rw [hsame]
      exact h
    | withdrawListenerStatus streamID =>
      have hlv := hevent o (.attribute .lv (alloc (.listener streamID
        (o.daemon.listenerSubstate streamID)))) ⟨nofun, rfl⟩ h
      simp only [MsrpConfig.log, MsrpConfig.serve, MsrpConfig.recvCmd,
        MsrpConfig.withdrawListenerStatus]
      split
      case isTrue hprune => exact hfree (Bool.and_eq_true _ _ ▸ hprune).1 _ streamID hlv
      case isFalse => exact hlv
    | reportDomainStatus | leaveStream | reportListenerStatus | joinOrNewStream =>
      exact hevent o _ ⟨nofun, rfl⟩ h
    | addStreamId streamID =>
      simp only [MsrpConfig.log, MsrpConfig.serve, MsrpConfig.recvCmd, MsrpConfig.addStreamId, hsame]
      split
      · split
        · exact h
        · exact hids o _ h
      · exact h
    | removeStreamId streamID =>
      simp only [MsrpConfig.log, MsrpConfig.serve, MsrpConfig.recvCmd, MsrpConfig.removeStreamId,
        hsame]
      split
      case isTrue hprune =>
        split
        · exact h
        · split
          · exact hids o _ h
          · exact hfree hprune _ streamID (hids o _ h)
      case isFalse => exact h
    | removeAllStreamIds =>
      show P (o.andThen { daemon := { o.daemon with interestingStreamIds := [] } })
      rw [hsame]
      exact hids o [] h
  | receive data rest =>
    have hmakes : ∀ call ∈ MsrpConfig.received data rest, (MsrpInput.receive data rest).Makes call :=
      fun call => makes_received
    show P (o.andThen (cfg.events _ o.daemon))
    rw [andThen_events]
    generalize MsrpConfig.received data rest = calls at hmakes
    induction calls generalizing o with
    | nil => exact h
    | cons call calls ih =>
      rw [foldl_cons]
      exact ih (hevent o call (hmakes call mem_cons_self) h) (by simp [Served.andThen])
        fun c hc => hmakes c (mem_cons_of_mem _ hc)
  | lvatimer => exact hevent o _ ⟨fun _ => rfl, trivial⟩ h
  | lvtimer | tx | periodic => exact hevent o _ ⟨nofun, trivial⟩ h
  | reclaim => exact hreclaim rfl o h

theorem step_preserves {P : MsrpDaemon → Prop}
    (hevent : ∀ s call, i.Makes call → P s → P (cfg.event call s).daemon)
    (hreclaim : ∀ s, P s → P { s with db := (mrpReclaim s.db).db })
    (hfree : ∀ s streamID, P s → P (s.freeTalkers streamID))
    (hids : ∀ s ids, P s → P { s with interestingStreamIds := ids }) (h : P s) : P (cfg.step s i) :=
  log_preserves (P := fun o => P o.daemon) (o := { daemon := s })
    (fun o call => hevent o.daemon call) (fun _ o => hreclaim o.daemon)
    (fun _ o => hfree o.daemon) (fun o => hids o.daemon) h

theorem resting_step (h : s.db.Resting msrpKey) (i : MsrpInput) :
    (cfg.step s i).db.Resting msrpKey := by
  apply step_preserves (P := fun s => s.db.Resting msrpKey) ?_ ?_ ?_ ?_ h
  · rintro s call _ h
    exact h.event (msrp_keyed _ _) cfg.p2pmac call
  · rintro s h
    exact ⟨h.unique.sublist (filter_sublist.map _), h.lva, h.flag⟩
  · rintro s streamID h
    exact ⟨h.unique.sublist (filter_sublist.map _), h.lva, h.flag⟩
  · rintro s ids h
    exact h

theorem resting_msrpInit : msrpInit.db.Resting msrpKey := ⟨nodup_nil, rfl, rfl⟩

def sampleConfig : MsrpConfig where
  station := Octets.ofList 6 [0, 1, 2, 3, 4, 5]
  p2pmac := true
  enablePruning := false
  maxInterestingStreamIds := 0

def talkerEventFrame (e : AttributeEvent) : List UInt8 :=
  [0x01, 0x80, 0xC2, 0, 0, 0x0E] ++ [0, 1, 2, 3, 4, 6] ++ [0x22, 0xEA] ++ [0] ++
    [1, 25, 0, 30] ++ [0, 1] ++ (sampleTalk 1).firstValue false ++ pack3 [e.code] ++ [0, 0] ++ [0, 0]

end

/-! ## Pruning of talkers -/

section

open List

variable {cfg : MsrpConfig} {s : MsrpDaemon}

def MsrpDaemon.pruned (s : MsrpDaemon) : Bool :=
  s.db.attribList.all fun a =>
    match a.value with
    | .talker _ t =>
      eui64setFind s.interestingStreamIds t.streamID || hasListener t.streamID s.db.attribList
    | _ => true

def MsrpDaemon.exposed (s : MsrpDaemon) (x : Octets 8) : Bool :=
  hasTalker x s.db.attribList && !eui64setFind s.interestingStreamIds x

/-- No listener that `p` accepts is the only reason for a talker. -/
def MsrpDaemon.keeps (p : Attribute MsrpValue → Bool) (s : MsrpDaemon) : Bool :=
  s.db.attribList.all fun a =>
    match a.value with
    | .listener x _ => !(s.exposed x && p a)
    | _ => true

def freedStates : MrpEvent → List ApplicantState
  | .rin => [.vo, .ao, .qo]
  | .rmt => [.vo, .ao, .qo, .lo]
  | .lv => [.vo, .ao, .qo, .vp, .ap, .qp]
  | _ => []

def frees (event : MrpEvent) (r a : Attribute MsrpValue) : Bool :=
  match r.value, a.value with
  | .listener y substate', .listener x substate =>
    y = x && (a.registrar.mrpState = .mtState || substate ≠ substate') &&
      a.applicant.mrpState ∈ freedStates event
  | _, _ => false

def goes (call : Call MsrpType MsrpValue) (a : Attribute MsrpValue) : Bool :=
  match call with
  | .lvtimer => a.registrar.mrpState ≠ .inState && a.applicant.mrpState ∈ [.vo, .ao, .qo]
  | .attribute event r => frees event r a
  | _ => false

def MsrpConfig.keepsReasons (cfg : MsrpConfig) (s : MsrpDaemon) (i : MsrpInput) : Bool :=
  match i with
  | .command .removeAllStreamIds =>
    s.db.attribList.all fun a =>
      match a.value with
      | .talker _ t => hasListener t.streamID s.db.attribList
      | _ => true
  | .receive data rest =>
    decide (Each (fun s call => (cfg.event call s).daemon) (fun s call => s.keeps (goes call) = true)
      s (received data rest))
  | .lvtimer => s.keeps (goes .lvtimer)
  | .reclaim => s.keeps Attribute.reclaimable
  | _ => true

theorem hasTalker_eq (x : Octets 8) (db : Database MsrpValue) :
    hasTalker x db.attribList = (db.content msrpKey (.talker x)).isSome := by
  unfold hasTalker Database.content Database.entry OpenAvb.entry
  rw [Option.isSome_map, isSome_find?]
  congr 1
  funext a
  cases hv : a.value <;> simp [hv, msrpKey]

theorem hasListener_eq (x : Octets 8) (db : Database MsrpValue) :
    hasListener x db.attribList = (db.content msrpKey (.listener x)).isSome := by
  unfold hasListener Database.content Database.entry OpenAvb.entry
  rw [Option.isSome_map, isSome_find?]
  congr 1
  funext a
  cases hv : a.value <;> simp [hv, msrpKey]

def MsrpDaemon.Covered (s : MsrpDaemon) (x : Octets 8) : Prop :=
  hasTalker x s.db.attribList = true →
    x ∈ s.interestingStreamIds ∨ hasListener x s.db.attribList = true

theorem pruned_iff : s.pruned = true ↔ ∀ x, s.Covered x := by
  unfold MsrpDaemon.pruned MsrpDaemon.Covered
  rw [all_eq_true]
  constructor
  · rintro h x hx
    obtain ⟨a, ha, hax⟩ := any_eq_true.mp hx
    have hreason := h a ha
    cases hv : a.value with
    | talker failed t =>
      simp only [hv, decide_eq_true_eq] at hax hreason
      subst hax
      simpa [eui64setFind] using hreason
    | listener | domain => simp [hv] at hax
  · rintro h a ha
    cases hv : a.value with
    | talker failed t =>
      have hx : hasTalker t.streamID s.db.attribList = true := any_eq_true.mpr ⟨a, ha, by simp [hv]⟩
      simpa [eui64setFind] using h t.streamID hx
    | listener | domain => rfl

/-- The listeners of the StreamID that `p` accepts are not the only reason for a talker. -/
def MsrpDaemon.Spares (p : Attribute MsrpValue → Bool) (s : MsrpDaemon) (x : Octets 8) : Prop :=
  s.exposed x = true → ∀ a ∈ s.db.attribList, msrpKey a.value = .listener x → p a = false

theorem listener_of_key (h : msrpKey v = .listener x) : ∃ substate, v = .listener x substate := by
  cases v with
  | listener y substate =>
    cases h
    exact ⟨substate, rfl⟩
  | talker | domain => cases h

theorem spares_of_keeps (h : s.keeps p = true) (x : Octets 8) : s.Spares p x := by
  rintro hx a ha hk
  obtain ⟨substate, hv⟩ := listener_of_key hk
  have hkept := all_eq_true.mp h a ha
  simpa [hv, hx] using hkept

theorem applicantState_mem (x : ApplicantState) :
    x ∈ [.vo, .vp, .vn, .an, .aa, .qa, .la, .ao, .qo, .ap, .qp, .lo] := by
  cases x <;> decide

theorem registrarState_mem (x : RegistrarState) : x ∈ [.inState, .lvState, .mtState] := by
  cases x <;> decide

theorem reclaimable_requestNext (he : e ∈ attributeEvents)
    (h : (requestNext p2pmac e x).reclaimable = true) : x.2 = .mtState ∧ x.1 ∈ freedStates e := by
  have htable : ∀ e ∈ attributeEvents, ∀ p2pmac,
      ∀ app ∈ [.vo, .vp, .vn, .an, .aa, .qa, .la, .ao, .qo, .ap, .qp, .lo],
      ∀ reg ∈ [.inState, .lvState, .mtState],
      (requestNext p2pmac e (app, reg)).reclaimable = true →
        reg = .mtState ∧ app ∈ freedStates e := by
    decide +kernel
  exact htable e he p2pmac x.1 (applicantState_mem x.1) x.2 (registrarState_mem x.2) h

theorem states_msrpMerge_listener (hv : a.value = .listener x substate)
    (hr : r.value = .listener y substate') : (msrpMerge l r a).states = a.states ∨
      substate ≠ substate' ∧ (msrpMerge l r a).states = (a.states.1, .mtState) := by
  simp only [msrpMerge, hv, hr]
  split
  case isTrue h => exact .inr ⟨h.1, rfl⟩
  case isFalse => exact .inl rfl

theorem frees_of_gone (he : e ∈ attributeEvents) (hv : a.value = .listener x substate)
    (hr : r.value = .listener x substate')
    (h : ((msrpMerge l r a).stepRequest p2pmac e).reclaimable = true) : frees e r a = true := by
  rw [reclaimable_eq, states_stepRequest] at h
  obtain ⟨hreg, happ⟩ := reclaimable_requestNext he h
  have hstates := states_msrpMerge_listener (l := l) hv hr
  simp only [frees, hv, hr, decide_true, Bool.true_and, Bool.and_eq_true, Bool.or_eq_true,
    decide_eq_true_eq]
  rcases hstates with hsame | ⟨hsub, hforced⟩
  · rw [hsame] at hreg happ
    exact ⟨.inl hreg, happ⟩
  · rw [hforced] at happ
    exact ⟨.inr hsub, happ⟩

theorem listener_stays (hr : s.db.Resting msrpKey) (hkeep : s.Spares (goes call) x)
    (hexposed : s.exposed x = true) (hlistener : (s.db.content msrpKey (.listener x)).isSome) :
    (contentNext (msrpApplication station pruning) msrpKey p2pmac s.db (.listener x) call).isSome := by
  by_contra hgone
  rw [Option.not_isSome_iff_eq_none] at hgone
  obtain ⟨c, hc⟩ := Option.isSome_iff_exists.mp hlistener
  obtain ⟨a, hentry, rfl⟩ := Option.map_eq_some_iff.mp hc
  obtain ⟨ha, hak⟩ := (entry_eq_some hr.unique).mp hentry
  obtain ⟨substate, hv⟩ := listener_of_key hak
  rcases contentNext_gone hlistener hgone with ⟨rfl, c, hc', hrec⟩ | ⟨e, r, rfl, he, hk, hnone⟩
  · obtain rfl : a.content = c := Option.some.inj (hc.symm.trans hc')
    have hgoes := hkeep hexposed a ha hak
    revert hgoes hrec
    simp only [goes, Attribute.content, Attribute.states]
    cases a.registrar.mrpState <;> cases a.applicant.mrpState <;> decide
  · have hgoes : frees e r a = false := hkeep hexposed a ha hak
    obtain ⟨substate', hr⟩ := listener_of_key hk.symm
    rw [hentry] at hnone
    simp only [attributeNext, Option.map_some, Option.getD_some] at hnone
    split at hnone
    case isTrue hrec =>
      have hfrees : frees e r a = true := frees_of_gone he hv hr hrec
      rw [hgoes] at hfrees
      cases hfrees
    case isFalse => cases hnone

theorem covered_event (hprune : cfg.enablePruning = true) (hr : s.db.Resting msrpKey)
    (h : s.Covered x) (hkeep : s.Spares (goes call) x) : (cfg.event call s).daemon.Covered x := by
  intro htalker
  by_cases hx : x ∈ s.interestingStreamIds
  · exact .inl hx
  right
  have hcontent : ∀ k, (cfg.event call s).daemon.db.content msrpKey k = _ :=
    content_event (msrp_keyed cfg.station (cfg.pruning s.interestingStreamIds)) hr.unique
      cfg.p2pmac call
  rw [hasTalker_eq, hcontent] at htalker
  rw [hasListener_eq, hcontent]
  rcases contentNext_new htalker with hold | ⟨event, r, rfl, hi, hk⟩
  · rw [← hasTalker_eq] at hold
    have hexposed : s.exposed x = true := by simpa [MsrpDaemon.exposed, hold, eui64setFind] using hx
    refine listener_stays hr hkeep hexposed ?_
    rw [← hasListener_eq]
    exact (h hold).resolve_left hx
  · -- a talker that is added has its reason
    have hlistener : hasListener x s.db.attribList = true := by
      cases hv : r.value with
      | talker failed t =>
        obtain rfl : x = t.streamID := by simpa [hv, msrpKey] using hk
        simpa [msrpApplication, msrpInterested, MsrpConfig.pruning, hv, hprune, hx] using hi
      | listener | domain => simp [hv, msrpKey] at hk
    rw [hasListener_eq] at hlistener
    simpa [contentNext, ← hk] using hlistener

theorem hasTalker_freeTalkers : hasTalker x (s.freeTalkers y).db.attribList = true ↔
    hasTalker x s.db.attribList = true ∧ x ≠ y := by
  simp only [hasTalker, MsrpDaemon.freeTalkers, any_eq_true, mem_filter]
  constructor
  · rintro ⟨a, ⟨ha, hkept⟩, hx⟩
    refine ⟨⟨a, ha, hx⟩, ?_⟩
    rintro rfl
    cases hv : a.value <;> simp [hv, MsrpValue.isTalkerOf] at hx hkept
    exact hkept hx
  · rintro ⟨⟨a, ha, hx⟩, hne⟩
    refine ⟨a, ⟨ha, ?_⟩, hx⟩
    cases hv : a.value <;> simp [hv, MsrpValue.isTalkerOf] at hx ⊢
    exact hx ▸ hne

theorem hasListener_freeTalkers :
    hasListener x (s.freeTalkers y).db.attribList = hasListener x s.db.attribList := by
  simp only [hasListener, MsrpDaemon.freeTalkers, any_filter]
  congr 1
  funext a
  cases hv : a.value <;> simp [MsrpValue.isTalkerOf]

theorem covered_freeTalkers (h : x ≠ y → s.Covered x) : (s.freeTalkers y).Covered x := by
  intro hx
  obtain ⟨htalker, hne⟩ := hasTalker_freeTalkers.mp hx
  rw [hasListener_freeTalkers]
  exact h hne htalker

theorem covered_withdraw (hprune : cfg.enablePruning = true) (hr : s.db.Resting msrpKey)
    (h : ∀ x, s.Covered x) (x y : Octets 8) :
    (cfg.withdrawListenerStatus y s).daemon.Covered x := by
  unfold MsrpConfig.withdrawListenerStatus
  -- the event is about the listener of `y` only
  have hother : x ≠ y → (cfg.event (.attribute .lv
      (alloc (.listener y (s.listenerSubstate y)))) s).daemon.Covered x := by
    intro hne
    refine covered_event hprune hr (h x) fun _ a _ hk => ?_
    obtain ⟨substate, hv⟩ := listener_of_key hk
    simp [goes, frees, alloc, hv, Ne.symm hne]
  simp only [hprune, Bool.true_and]
  split
  case isTrue => exact covered_freeTalkers hother
  case isFalse hfind =>
    by_cases hxy : x = y
    · subst hxy
      intro _
      left
      simpa [eui64setFind] using hfind
    · exact hother hxy

theorem covered_removeStreamId (h : s.Covered x) (y : Octets 8) :
    (cfg.removeStreamId y s).Covered x := by
  unfold MsrpConfig.removeStreamId eui64setRemoveAndSort
  split
  case isFalse => exact h
  case isTrue =>
    split
    case h_1 => exact h
    case h_2 ids hids =>
      have hkept : x ≠ y → MsrpDaemon.Covered { s with interestingStreamIds := ids } x := by
        rintro hne hx
        refine (h hx).imp_left fun hmem => ?_
        split at hids
        · cases hids
          exact (mem_erase_of_ne hne).mpr hmem
        · cases hids
      simp only
      split
      case isTrue hlistener =>
        by_cases hxy : x = y
        · subst hxy
          exact fun _ => .inr hlistener
        · exact hkept hxy
      case isFalse => exact covered_freeTalkers hkept

theorem covered_addStreamId (h : s.Covered x) (y : Octets 8) : (cfg.addStreamId y s).Covered x := by
  unfold MsrpConfig.addStreamId eui64setInsertAndSort
  split
  · split
    case h_1 => exact h
    case h_2 ids hids =>
      intro hx
      refine (h hx).imp_left fun hmem => ?_
      split at hids
      · cases hids
        exact mem_cons_of_mem _ hmem
      · cases hids
  · exact h

theorem covered_reclaim (hr : s.db.Resting msrpKey) (h : s.Covered x)
    (hkeep : s.Spares Attribute.reclaimable x) :
    MsrpDaemon.Covered { s with db := (mrpReclaim s.db).db } x := by
  have hcontent : ∀ k, (mrpReclaim s.db).db.content msrpKey k = _ :=
    fun k => content_reclaim hr.unique rfl
  intro htalker
  by_cases hx : x ∈ s.interestingStreamIds
  · exact .inl hx
  right
  rw [hasTalker_eq, hcontent] at htalker
  have hold : hasTalker x s.db.attribList = true := by
    rw [hasTalker_eq]
    cases hc : s.db.content msrpKey (.talker x) with
    | none => simp [hc] at htalker
    | some c => rfl
  have hexposed : s.exposed x = true := by simpa [MsrpDaemon.exposed, hold, eui64setFind] using hx
  have hlistener := (h hold).resolve_left hx
  rw [hasListener_eq] at hlistener ⊢
  obtain ⟨c, hc⟩ := Option.isSome_iff_exists.mp hlistener
  obtain ⟨a, hentry, rfl⟩ := Option.map_eq_some_iff.mp hc
  obtain ⟨ha, hak⟩ := (entry_eq_some hr.unique).mp hentry
  have hstays : a.states.reclaimable = false := hkeep hexposed a ha hak
  rw [hcontent, hc]
  simp [Attribute.content, hstays]

section

variable (hprune : cfg.enablePruning = true) (hr : s.db.Resting msrpKey) (h : ∀ x, s.Covered x)
include hprune hr h

theorem covered_events (hkeep : Each (fun s call => (cfg.event call s).daemon)
      (fun s call => s.keeps (goes call) = true) s calls) :
    ∀ x, (cfg.events calls s).daemon.Covered x := by
  rw [daemon_events]
  induction calls generalizing s with
  | nil => exact h
  | cons call calls ih =>
    have hnext : ∀ x, (cfg.event call s).daemon.Covered x := fun x =>
      covered_event hprune hr (h x) (spares_of_keeps hkeep.1 x)
    exact ih (hr.event (msrp_keyed _ _) cfg.p2pmac call) hnext hkeep.2

theorem covered_step (hkeep : cfg.keepsReasons s i = true) (x : Octets 8) :
    (cfg.step s i).Covered x := by
  have hquiet : ∀ call : Call MsrpType MsrpValue, (∀ a, goes call a = false) →
      (cfg.event call s).daemon.Covered x := fun call hgoes =>
    covered_event hprune hr (h x) fun _ a _ _ => hgoes a
  cases i with
  | command c =>
    cases c with
    | dumptable => exact h x
    | withdrawListenerStatus y => exact covered_withdraw hprune hr h x y
    | reportDomainStatus | leaveStream | joinOrNewStream => exact hquiet _ fun _ => rfl
    | reportListenerStatus y substate =>
      refine hquiet _ fun a => ?_
      cases hv : a.value <;> simp [goes, frees, freedStates, alloc, hv]
    | addStreamId y => exact covered_addStreamId (h x) y
    | removeStreamId y => exact covered_removeStreamId (h x) y
    | removeAllStreamIds =>
      intro hx
      obtain ⟨a, ha, hax⟩ := any_eq_true.mp hx
      have hreason := all_eq_true.mp hkeep a ha
      cases hv : a.value with
      | talker failed t =>
        simp only [hv, decide_eq_true_eq] at hax hreason
        exact .inr (hax ▸ hreason)
      | listener | domain => simp [hv] at hax
  | receive data rest => exact covered_events hprune hr h (of_decide_eq_true hkeep) x
  | lvtimer => exact covered_event hprune hr (h x) (spares_of_keeps hkeep x)
  | lvatimer | tx | periodic => exact hquiet _ fun _ => rfl
  | reclaim => exact covered_reclaim hr (h x) (spares_of_keeps hkeep x)

end

/-- Every talker in the database is there for a reason, if the interesting StreamIDs are cleared
only when all talkers have listeners, and no listener is reclaimed that is the only reason for a
talker. -/
theorem msrp_always_pruned (cfg : MsrpConfig) (hprune : cfg.enablePruning = true)
    (inputs : List MsrpInput)
    (h : Each cfg.step (fun s i => cfg.keepsReasons s i = true) msrpInit inputs) :
    Always cfg.step (fun s => s.pruned = true) msrpInit inputs := by
  have hboth : Always cfg.step (fun s => s.db.Resting msrpKey ∧ ∀ x, s.Covered x) msrpInit inputs := by
    refine h.always ?_ ⟨resting_msrpInit, fun x hx => ?_⟩
    · rintro s i ⟨hr, hcovered⟩ hkeep
      exact ⟨resting_step hr i, covered_step hprune hr hcovered hkeep⟩
    · cases hx
  exact hboth.imp fun s hs => pruned_iff.mpr hs.2

def pruningConfig : MsrpConfig := { sampleConfig with enablePruning := true }

theorem msrp_always_pruned_listener : let inputs : List MsrpInput :=
      [.command (.addStreamId (sampleStream 1)), .receive (talkerEventFrame .new) cleared,
        .command (.reportListenerStatus (sampleStream 1) 2), .command .removeAllStreamIds,
        .tx, .lvatimer, .lvtimer, .reclaim]
    hasTalker (sampleStream 1) (run pruningConfig.step msrpInit inputs).db.attribList = true ∧
    Always pruningConfig.step (fun s => s.pruned = true) msrpInit inputs :=
  ⟨by decide +kernel, msrp_always_pruned pruningConfig rfl _ (by decide +kernel)⟩

/-- A talker whose StreamID was interesting outlives `I-A`; and one that is heard of between
`S-L` and the Leave of the listener outlives the listener. -/
theorem msrp_talker_left_behind : let forgotten : List MsrpInput :=
      [.command (.addStreamId (sampleStream 1)), .receive (talkerEventFrame .new) cleared,
        .command .removeAllStreamIds]
    let withdrawn : List MsrpInput :=
      [.command (.reportListenerStatus (sampleStream 1) 2), .tx, .tx, .tx,
        .command (.withdrawListenerStatus (sampleStream 1)), .receive (talkerEventFrame .new) cleared,
        .tx, .reclaim]
    ∀ inputs ∈ [forgotten, withdrawn],
      Each pruningConfig.step (fun s i => i.due s = true) msrpInit inputs ∧
      hasTalker (sampleStream 1) (run pruningConfig.step msrpInit inputs).db.attribList = true ∧
      (run pruningConfig.step msrpInit inputs).pruned = false := by
  decide +kernel

end

/-! ## The MVRP and MMRP daemons -/

/-- `mvrp_recv_cmd` and `mmrp_recv_cmd`: `V??` and `M??`, `V--` and `M--`, and `V++`, `V+?`, `M++`
and `M+?` with the value that was parsed. -/
inductive DbCommand (ν : Type) where
  | dumptable
  | leave (value : ν)
  | joinOrNew (new : Bool) (value : ν)

inductive DbInput (ν : Type) where
  | command (c : DbCommand ν)
  /-- A frame, and what stands behind it in the receive buffer. -/
  | receive (data : List UInt8) (rest : Mem)
  | lvatimer | lvtimer | tx | periodic | reclaim

/-- A daemon: its application, what is fixed when it starts, and its receiver. -/
structure DbConfig (τ ν : Type) where
  app : Application τ ν
  p2pmac : Bool
  recvMsg : List UInt8 → Mem → List (Parsed τ ν) × Rc

def mvrpConfig (station : Octets 6) (p2pmac : Bool) : DbConfig Unit UInt16 :=
  ⟨mvrpApplication station, p2pmac, mvrpRecvMsg⟩

def mmrpConfig (station : Octets 6) (p2pmac : Bool) (vectevt : Slots) :
    DbConfig MmrpType MmrpValue :=
  ⟨mmrpApplication station vectevt, p2pmac, mmrpRecvMsg⟩

variable {τ ν : Type}

def DbCommand.calls : DbCommand ν → List (Call τ ν)
  | .dumptable => []
  | .leave v => [.attribute .lv (alloc v)]
  | .joinOrNew new v => [.attribute (if new then .new else .join) (alloc v)]

def DbConfig.calls (cfg : DbConfig τ ν) : DbInput ν → List (Call τ ν)
  | .command c => c.calls
  | .receive data rest => (raises (sourceAddr data) (cfg.recvMsg data rest).1).map Raised.call
  | .lvatimer => [.lvatimer]
  | .lvtimer => [.lvtimer]
  | .tx => [.tx]
  | .periodic => [.periodic]
  | .reclaim => []

section
variable [DecidableEq τ] (cfg : DbConfig τ ν)

def DbConfig.event (db : Database ν) (call : Call τ ν) : Database ν :=
  (mrpEvent cfg.app cfg.p2pmac call db).db

def DbConfig.step (db : Database ν) (i : DbInput ν) : Database ν :=
  match i with
  | .reclaim => (mrpReclaim db).db
  | i => (cfg.calls i).foldl cfg.event db

end

theorem DbConfig.step_keeps [DecidableEq τ] (cfg : DbConfig τ ν) {P : Database ν → Prop}
    (hevent : ∀ db call, P db → P (cfg.event db call))
    (hreclaim : ∀ db, P db → P (mrpReclaim db).db) (h : P db) (i : DbInput ν) :
    P (cfg.step db i) := by
  have hcalls : ∀ calls : List (Call τ ν), P (calls.foldl cfg.event db) := by
    intro calls
    induction calls generalizing db with
    | nil => exact h
    | cons call calls ih => exact ih (hevent db call h)
  cases i with
  | reclaim => exact hreclaim db h
  | command | receive | lvatimer | lvtimer | tx | periodic => exact hcalls _

theorem svcLoop_txCleared : List.Forall₂ TxCleared l (svcLoop eof c vectevt k l).2 := by
  fun_induction svcLoop eof c vectevt k l
  case case1 => exact .nil
  case case2 => exact clearTxs_txCleared _ _
  case case4 hrest ih =>
    rw [hrest] at ih
    exact .cons (.refl _) ih
  case case6 => exact .cons (.inr rfl) (clearTxs_txCleared _ _)
  case case3 hrest ih | case5 hrest ih | case7 hrest ih =>
    rw [hrest] at ih
    exact .cons (.inr rfl) ih

theorem mmrpEmitSvcvectors_txCleared (vectevt : Slots) (emptyLeaveAll lva : Bool) (s : Stores)
    (p : Nat) (l : List (Attribute MmrpValue)) :
    List.Forall₂ TxCleared l (mmrpEmitSvcvectors vectevt emptyLeaveAll lva s p l).attribs := by
  simp only [mmrpEmitSvcvectors]
  split
  · exact forall₂_txCleared_refl l
  · generalize hloop : svcLoop maxFrameSize _ vectevt 0 l = out
    have hcleared : List.Forall₂ TxCleared l out.2 := hloop ▸ svcLoop_txCleared
    obtain ⟨result, attribs⟩ := out
    cases result <;> exact hcleared

theorem mmrpTxpdu_txChanged (station : Octets 6) (vectevt : Slots) (db : Database MmrpValue) :
    List.Forall₂ TxChanged db.attribList (mmrpTxpdu station vectevt db).attribs := by
  have hmac : List.Forall₂ TxChanged db.attribList (mmrpEmitMacvectors db.mrpDb.lva.tx
      (openPdu mmrpAddr station mmrpEtype mmrpProtVer) messageList db.attribList).attribs :=
    (emitWith_txCleared macEmitter _).imp fun _ _ => TxCleared.changed
  simp only [mmrpTxpdu]
  split
  · exact hmac
  · split
    · exact hmac
    · have hsvc : ∀ s p l, List.Forall₂ TxChanged l
          (mmrpEmitSvcvectors vectevt db.sendEmptyLeaveAll db.mrpDb.lva.tx s p l).attribs :=
        fun s p l => (mmrpEmitSvcvectors_txCleared vectevt _ _ s p l).imp
          fun _ _ => TxCleared.changed
      split <;> exact forall₂_txChanged_trans hmac (hsvc _ _ _)

theorem mmrp_keyed (station : Octets 6) (vectevt : Slots) :
    (mmrpApplication station vectevt).Keyed id where
  lookup _ _ := rfl
  add_perm := addGrouped_perm _ _
  key_merge _ _ _ _ := rfl
  txpdu := mmrpTxpdu_txChanged station vectevt
  txpdu_lva _ := rfl
  txpdu_flag _ := rfl

end OpenAvb.Mrpd
