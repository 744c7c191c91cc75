import OpenAvb.Mrpd.Links
import OpenAvb.Mrpd.MsrpOpportunity

/-!
# LeaveAll PDUs

When the LeaveAll timer expires a station sends the LeaveAll of every attribute
type and declares its attributes anew. The flag stands on the first vector of a
type, so that a receiver takes the LeaveAll first and the declarations behind it.
-/

namespace OpenAvb.Mrpd

open Attribute List

section Receiving

variable {τ κ ν : Type} [DecidableEq κ]

/-- A merge gives an attribute the type it was received with, and everything is of interest. -/
structure Application.Typed (A : Application τ ν) (key : ν → κ) : Prop where
  keyed : A.Keyed key
  merge : ∀ l (r a : Attribute ν), key a.value = key r.value →
    A.typeOf (A.merge l r a).value = A.typeOf r.value
  interested : ∀ l v, A.interested l v = true

def Database.Registers (A : Application τ ν) (key : ν → κ) (k : κ) (t : τ) (db : Database ν) :
    Prop :=
  ∃ v s, db.content key k = some (v, s) ∧ A.typeOf v = t ∧ s.2 = .inState

def Raised.Spares (key : ν → κ) (k : κ) (t : τ) : Raised τ ν → Prop
  | .leaveAll t' => t' ≠ t
  | .attribute _ r => key r.value ≠ k

def AttributeEvent.redeclares : AttributeEvent → Bool
  | .new | .joinIn | .joinMt => true
  | .isIn | .mt | .lv => false

variable [DecidableEq τ] {A : Application τ ν} {key : ν → κ} {db : Database ν}

theorem Database.Registers.spared (h : db.Registers A key k t) (hA : A.Typed key)
    (hdb : db.Resting key) (p2pmac : Bool) {r : Raised τ ν} (hr : r.Spares key k t) :
    (mrpEvent A p2pmac r.call db).db.Registers A key k t := by
  obtain ⟨v, s, hc, ht, hs⟩ := h
  refine ⟨v, s, ?_, ht, hs⟩
  rw [content_event hA.keyed hdb.unique, ← hc]
  match r, hr with
  | .leaveAll t', hr =>
    have hother : ¬ A.typeOf v = t' := fun h => hr (h.symm.trans ht)
    simp [Raised.call, contentNext, hc, hother]
  | .attribute event r, hr =>
    have hother : ¬ k = key r.value := fun h => hr h.symm
    simp [Raised.call, contentNext, hother]

variable {e : AttributeEvent}

theorem registers_redeclared (hA : A.Typed key) (hdb : db.Resting key) (p2pmac : Bool)
    (he : e.redeclares = true) (r : Attribute ν) :
    (mrpEvent A p2pmac (.attribute e.received r) db).db.Registers A key (key r.value)
      (A.typeOf r.value) := by
  have hevent : e.received ∈ attributeEvents := by cases e <;> decide
  have hstate : ∀ a : Attribute ν, (a.stepRequest p2pmac e.received).states.2 = .inState := by
    intro a
    rw [states_stepRequest]
    generalize a.states = x
    obtain ⟨applicant, registrar⟩ := x
    cases e with
    | new | joinIn | joinMt => cases registrar <;> rfl
    | isIn | mt | lv => cases he
  let a := ((db.entry key (key r.value)).map (A.merge db.attribList r)).getD r
  have hnext : attributeNext A p2pmac e.received r db.attribList (db.entry key (key r.value)) =
      some (a.stepRequest p2pmac e.received) := by
    have hkept : (a.stepRequest p2pmac e.received).reclaimable = false := by
      rw [reclaimable_eq, States.reclaimable, hstate]
      rfl
    rw [attributeNext, hkept, Bool.and_false]
    rfl
  refine ⟨a.value, (a.stepRequest p2pmac e.received).states, ?_, ?_, hstate a⟩
  · rw [content_event hA.keyed hdb.unique]
    simp only [contentNext]
    rw [if_pos ⟨hevent, hA.interested _ _, trivial⟩, hnext, Option.map_some, content,
      value_stepRequest]
  · cases hentry : db.entry key (key r.value) with
    | none => simp [a, hentry]
    | some b =>
      have hkey : key b.value = key r.value :=
        ((entry_eq_some hdb.unique).mp hentry).2
      simp only [a, hentry, Option.map_some, Option.getD_some]
      exact hA.merge _ r b hkey

theorem Database.receive_cons (A : Application τ ν) (p2pmac : Bool) (r : Raised τ ν)
    (rs : List (Raised τ ν)) (db : Database ν) :
    db.receive A p2pmac (r :: rs) = ((mrpEvent A p2pmac r.call db).db).receive A p2pmac rs := rfl

theorem Database.Resting.receive (h : db.Resting key) (hA : A.Keyed key) (p2pmac : Bool)
    (rs : List (Raised τ ν)) : (db.receive A p2pmac rs).Resting key := by
  induction rs generalizing db with
  | nil => exact h
  | cons r rs ih => exact ih (h.event hA p2pmac r.call)

theorem Database.Registers.receive (h : db.Registers A key k t) (hA : A.Typed key)
    (hdb : db.Resting key) (p2pmac : Bool) {rs : List (Raised τ ν)}
    (hrs : ∀ r ∈ rs, r.Spares key k t) : (db.receive A p2pmac rs).Registers A key k t := by
  induction rs generalizing db with
  | nil => exact h
  | cons r rs ih =>
    simp only [mem_cons, forall_eq_or_imp] at hrs
    exact ih (h.spared hA hdb p2pmac hrs.1) (hdb.event hA.keyed p2pmac r.call) hrs.2

theorem registers_receive (hA : A.Typed key) (hdb : db.Resting key) (p2pmac : Bool)
    (he : e.redeclares = true) {r : Attribute ν} {xs ys : List (Raised τ ν)}
    (hys : ∀ y ∈ ys, y.Spares key (key r.value) (A.typeOf r.value)) :
    (db.receive A p2pmac (xs ++ .attribute e.received r :: ys)).Registers A key (key r.value)
      (A.typeOf r.value) := by
  have hrest := hdb.receive hA.keyed p2pmac xs
  have happend : db.receive A p2pmac (xs ++ .attribute e.received r :: ys) =
      ((db.receive A p2pmac xs).receive A p2pmac (.attribute e.received r :: ys)) :=
    foldl_append
  rw [happend, Database.receive_cons]
  exact (registers_redeclared hA hrest p2pmac he r).receive hA
    (hrest.event hA.keyed p2pmac _) p2pmac hys

/-- What a receiver makes of a value, if anything, is of the same type and key. -/
def Recognises (A : Application τ ν) (key : ν → κ) (view : ν → Option ν) (v : ν) : Prop :=
  ∀ w, view v = some w → key w = key v ∧ A.typeOf w = A.typeOf v

omit [DecidableEq τ] [DecidableEq κ] in
theorem spares_raised {view : ν → Option ν} {b : Attribute ν}
    (hview : Recognises A key view b.value) (hb : key b.value ≠ k) {r : Raised τ ν}
    (hr : raised view src b = some r) : r.Spares key k t := by
  simp only [raised, Option.bind_eq_some_iff, Option.map_eq_some_iff] at hr
  obtain ⟨w, hw, e, -, rfl⟩ := hr
  exact fun h => hb ((hview w hw).1.symm.trans h)

structure SentOf (A : Application τ ν) (key : ν → κ) (view : ν → Option ν)
    (l : List (Attribute ν)) (sent : τ → List (Attribute ν)) : Prop where
  keys : (l.map fun a => key a.value).Nodup
  sublist : ∀ t, (sent t).Sublist l
  type : ∀ t, ∀ a ∈ sent t, A.typeOf a.value = t
  view : ∀ a ∈ l, Recognises A key view a.value

section

variable {view : ν → Option ν} {l : List (Attribute ν)} {sent : τ → List (Attribute ν)}
  (h : SentOf A key view l sent)

include h

omit [DecidableEq τ] [DecidableEq κ] in
theorem SentOf.spares_typeRaises (ha : a ∈ sent t) (ht : t' ≠ t) :
    ∀ r ∈ typeRaises view src lva t' (sent t'), r.Spares key (key a.value) t := by
  intro r hr
  rcases mem_append.mp hr with hr | hr
  · split at hr
    · rw [mem_singleton.mp hr]
      exact ht
    · cases hr
  · obtain ⟨b, hb, hr⟩ := mem_filterMap.mp hr
    have hbl := (h.sublist t').subset hb
    refine spares_raised (h.view b hbl) (fun hk => ?_) hr
    have hba : b = a := inj_on_of_nodup_map h.keys hbl ((h.sublist t).subset ha) hk
    exact ht ((h.type t' b hb).symm.trans (hba ▸ h.type t a ha))

omit [DecidableEq τ] [DecidableEq κ] in
theorem SentOf.spares_behind (hsent : sent t = xs ++ a :: ys) :
    ∀ r ∈ (ys.filterMap (raised view src) : List (Raised τ ν)), r.Spares key (key a.value) t := by
  intro r hr
  obtain ⟨b, hb, hr⟩ := mem_filterMap.mp hr
  have hbt : b ∈ sent t := by
    rw [hsent]
    exact mem_append_right _ (mem_cons_of_mem _ hb)
  refine spares_raised (h.view b ((h.sublist t).subset hbt)) (fun hk => ?_) hr
  have hnodup := h.keys.sublist ((h.sublist t).map _)
  rw [hsent, map_append, map_cons] at hnodup
  have hnot := (nodup_cons.mp hnodup.of_append_right).1
  exact hnot (hk ▸ mem_map_of_mem hb)

/-- Type by type the LeaveAll and the declarations are received, and what was declared is
registered. -/
theorem SentOf.registers (hA : A.Typed key) (hdb : db.Resting key) (p2pmac : Bool)
    (src : List UInt8) (lva : Bool) {ts : List τ} (hts : ts.Nodup) (ht : t ∈ ts) (ha : a ∈ sent t)
    (hv : view a.value = some v) (he : a.event = some e) (hre : e.redeclares = true) :
    (db.receive A p2pmac (ts.flatMap fun t => typeRaises view src lva t (sent t))).Registers A key
      (key a.value) t := by
  obtain ⟨before, behind, rfl⟩ := append_of_mem ht
  obtain ⟨xs, ys, hsent⟩ := append_of_mem ha
  obtain ⟨hkey, htype⟩ := h.view a ((h.sublist t).subset ha) v hv
  rw [h.type t a ha] at htype
  have hraised : raised view src a =
      some (.attribute e.received (received src v) : Raised τ ν) := by
    simp [raised, hv, he]
  have hsplit : ((before ++ t :: behind).flatMap fun t => typeRaises view src lva t (sent t)) =
      ((before.flatMap fun t => typeRaises view src lva t (sent t)) ++
        ((if lva then [.leaveAll t] else []) ++ xs.filterMap (raised view src))) ++
      .attribute e.received (received src v) ::
        (ys.filterMap (raised view src) ++
          behind.flatMap fun t => typeRaises view src lva t (sent t)) := by
    rw [flatMap_append, flatMap_cons, typeRaises, hsent, filterMap_append,
      filterMap_cons_some hraised]
    simp only [append_assoc, cons_append]
  have hspares : ∀ y ∈ ys.filterMap (raised view src) ++
      behind.flatMap (fun t => typeRaises view src lva t (sent t)),
      y.Spares key (key a.value) t := by
    intro y hy
    rcases mem_append.mp hy with hy | hy
    · exact h.spares_behind hsent y hy
    · obtain ⟨t', ht', hy⟩ := mem_flatMap.mp hy
      have hother : t' ≠ t := by
        rintro rfl
        exact (nodup_cons.mp hts.of_append_right).1 ht'
      exact h.spares_typeRaises ha hother y hy
  rw [hsplit, ← hkey, ← htype]
  rw [← hkey, ← htype] at hspares
  exact registers_receive hA hdb p2pmac hre (r := received src v) hspares

end

end Receiving

def Message.FlaggedOnce (m : Message) : Prop :=
  ∃ v vs, m.vectors = v :: vs ∧ v.leaveAll = true ∧ ∀ w ∈ vs, w.leaveAll = false

def FlagsEachType (listLength : Bool) (types : List UInt8) (frame : List UInt8) : Prop :=
  ∃ ms : List Message, frame.drop messageList = messageOctets listLength ms ++ [0, 0] ∧
    ms.map Message.attributeType = types ∧ ∀ m ∈ ms, m.FlaggedOnce

theorem Emitter.vectors_unflagged (E : Emitter ν) :
    ∀ w ∈ E.vectors false gs, w.leaveAll = false := by
  induction gs with
  | nil => exact nofun
  | cons g gs ih =>
    intro w hw
    rcases mem_cons.mp hw with rfl | hw
    · rfl
    · exact ih w hw

theorem Emitter.sent_flagged (E : Emitter ν) (gs : List (Group ν))
    (h : emptyLeaveAll = true ∨ gs ≠ []) :
    ∃ m, E.sent emptyLeaveAll true gs = [m] ∧ m.attributeType = E.attributeType ∧
      m.FlaggedOnce := by
  cases gs with
  | nil =>
    obtain rfl := h.resolve_right (fun h => h rfl)
    exact ⟨_, rfl, rfl, _, _, rfl, rfl, nofun⟩
  | cons g gs => exact ⟨_, rfl, rfl, _, _, rfl, rfl, E.vectors_unflagged⟩

theorem flagsEachType_sents {τ ν : Type} (E : τ → Emitter ν) (ws : τ → List (Group ν))
    (ts : List τ) {header : List UInt8} (hheader : header.length = messageList) :
    FlagsEachType listLength (ts.map fun t => (E t).attributeType)
      (header ++ (messageOctets listLength (ts.flatMap fun t => (E t).sent true true (ws t)) ++
        [0, 0])) := by
  refine ⟨_, drop_left' hheader, ?_, fun m hm => ?_⟩
  · induction ts with
    | nil => rfl
    | cons t ts ih =>
      obtain ⟨m, hm, htype, -⟩ := (E t).sent_flagged (ws t) (.inl rfl)
      rw [flatMap_cons, hm, map_append, ih]
      exact congrArg (· :: _) htype
  · obtain ⟨t, -, hm⟩ := mem_flatMap.mp hm
    obtain ⟨m', hm', -, hflagged⟩ := (E t).sent_flagged (ws t) (.inl rfl)
    rw [hm', mem_singleton] at hm
    exact hm ▸ hflagged

section Ready

variable {ν : Type} (db : Database ν) (p2pmac : Bool)

theorem justStepped_lvaReady :
    ∀ a ∈ (db.lvaReady p2pmac).attribList, a.applicant.JustStepped .txla := by
  intro a ha
  obtain ⟨b, -, rfl⟩ := mem_map.mp ha
  exact .stepApplicant b p2pmac (.inr rfl)

theorem value_lvaReady : (db.lvaReady p2pmac).attribList.map value = db.attribList.map value :=
  map_map

theorem registrar_lvaReady :
    ∀ a ∈ (db.lvaReady p2pmac).attribList, mrpRegistrarIn a.registrar = false := by
  intro a ha
  obtain ⟨b, -, rfl⟩ := mem_map.mp ha
  have hstate : (b.stepBoth p2pmac .txla).states.2 ≠ .inState := by
    rw [states_stepBoth]
    cases hb : b.registrar.mrpState <;>
      simp [registrarNext, applicantNext, states, registrarTransition, hb]
  exact decide_eq_false hstate

theorem starts_lvaReady {q : Sequence ν} (ha : a ∈ (db.lvaReady p2pmac).attribList)
    (hselects : q.selects a.value = true) (hyes : a.applicant.encode = .yes) :
    q.starts a = true := by
  have htx := (justStepped_lvaReady db p2pmac a ha).tx (.inr rfl)
  simp [Sequence.starts, hselects, htx, hyes]

end Ready

theorem Sequence.selects_carried (q : Sequence ν) (h : a ∈ q.carried last l) :
    q.selects a.value = true := by
  induction l generalizing last with
  | nil => cases h
  | cons b rest ih =>
    rw [carried] at h
    split at h
    case isTrue hb =>
      have hselects : q.selects b.value = true := (Bool.and_eq_true_iff.mp hb).1
      split at h
      · rcases mem_cons.mp h with rfl | h
        · exact hselects
        · exact ih h
      · split at h
        · rcases mem_cons.mp h with rfl | h
          · exact hselects
          · exact ih h
        · exact ih h
    case isFalse => exact ih h

/-- A LeaveAll PDU, of which a receiver raises `raised`: every type is flagged once, and every
attribute that is declared anew is registered at a peer, in whatever state the peer was. -/
structure LeaveAllSent {τ κ ν : Type} [DecidableEq τ] [DecidableEq κ] (A : Application τ ν)
    (key : ν → κ) (listLength : Bool) (types : List UInt8) (l carried : List (Attribute ν))
    (raised : List (Raised τ ν)) (frame : List UInt8) : Prop where
  flags : FlagsEachType listLength types frame
  carries : carried ⊆ l ∧ ∀ a ∈ l, a.applicant.encode = .yes → a ∈ carried
  registers : ∀ (p2pmac : Bool) (peer : Database ν), peer.Resting key →
    ∀ a ∈ carried, ∀ e, a.event = some e → e.redeclares = true →
      (peer.receive A p2pmac raised).Registers A key (key a.value) (A.typeOf a.value)

theorem msrp_typed (station : Octets 6) (ids : List (Octets 8)) :
    (msrpApplication station ⟨false, ids⟩).Typed msrpKey where
  keyed := msrp_keyed station ⟨false, ids⟩
  merge l r a hkey := by
    have hfound : msrpLookup r.value a.value = true := by
      have hlookup := (msrp_keyed station ⟨false, ids⟩).lookup r.value a.value
      exact hlookup.trans (decide_eq_true hkey)
    exact congrArg Prod.fst (shape_msrpMerge hfound)
  interested l v := by cases v <;> rfl

theorem recognises_msrpView (station : Octets 6) (pruning : Pruning) (v : MsrpValue) :
    Recognises (msrpApplication station pruning) msrpKey msrpView v := by
  intro w hw
  cases v with
  | talker failed t =>
    cases hw
    cases failed <;> exact ⟨rfl, rfl⟩
  | listener s substate =>
    simp only [msrpView] at hw
    split at hw
    · cases hw
    · cases hw
      exact ⟨rfl, rfl⟩
  | domain d =>
    cases hw
    exact ⟨rfl, rfl⟩

theorem type_of_selects {t : MsrpType} {v : MsrpValue} (h : (msrpEmitter t).selects v = true) :
    v.type = t := by
  cases t <;> simpa [msrpEmitter, talkerEmitter, listenerEmitter, domainEmitter, talkerType] using h

theorem msrp_leaveAllSent {db : Database MsrpValue} (sender receiver : Octets 6)
    (ids : List (Octets 8)) (p2pmac : Bool) (rest : Mem) (hkeys : db.Unique msrpKey)
    (hdecl : ∀ a ∈ db.attribList, a.value.Declared) (hfits : MsrpFits (db.lvaReady p2pmac))
    (hframe : (msrpTxpdu sender (db.lvaReady p2pmac)).frame = some frame) :
    LeaveAllSent (msrpApplication receiver ⟨false, ids⟩) msrpKey true
      (msrpTypes.map fun t => (msrpEmitter t).attributeType) (db.lvaReady p2pmac).attribList
      (msrpTypes.flatMap fun t => msrpCarried t (db.lvaReady p2pmac).attribList)
      (raises (sourceAddr frame) (msrpRecvMsg frame rest).1) frame := by
  have hready : ∀ a ∈ (db.lvaReady p2pmac).attribList, a.value.Declared := by
    intro a ha
    obtain ⟨b, hb, rfl⟩ := mem_map.mp ha
    exact hdecl b hb
  have hsent : SentOf (msrpApplication receiver ⟨false, ids⟩) msrpKey msrpView
      (db.lvaReady p2pmac).attribList
      fun t => msrpCarried t (db.lvaReady p2pmac).attribList :=
    { keys := hkeys.of_map (value_lvaReady db p2pmac)
      sublist := fun t => (msrpEmitter t).carried_sublist
      type := fun t a ha => type_of_selects ((msrpEmitter t).selects_carried ha)
      view := fun a _ => recognises_msrpView receiver _ a.value }
  obtain ⟨-, -, hraises⟩ := msrpRecvMsg_frame (.inr rfl) (justStepped_lvaReady db p2pmac) sender
    hready rfl hfits hframe rest
  refine ⟨?_, ⟨?_, ?_⟩, ?_⟩
  · obtain ⟨plan, -, -, -, rfl⟩ := (msrpTxpdu_frame sender _).mp hframe
    have hdest : msrpAddr.length = 6 := rfl
    exact flagsEachType_sents msrpEmitter _ msrpTypes (length_ethHeader hdest sender)
  · intro a ha
    obtain ⟨t, -, ha⟩ := mem_flatMap.mp ha
    exact (hsent.sublist t).subset ha
  · intro a ha hyes
    have hstarts : (msrpEmitter a.value.type).starts a = true :=
      starts_lvaReady db p2pmac ha (msrpEmitter_selects a.value) hyes
    have htype : a.value.type ∈ msrpTypes := by
      generalize a.value.type = t
      cases t <;> decide
    exact mem_flatMap.mpr ⟨_, htype, (msrpEmitter a.value.type).mem_carried ha hstarts⟩
  · intro p2pmac' peer hpeer a ha e he hre
    obtain ⟨t, ht, ha⟩ := mem_flatMap.mp ha
    have hview := msrpView_declared (hready a ((hsent.sublist t).subset ha))
    rw [hraises, hsent.type t a ha]
    exact hsent.registers (msrp_typed receiver ids) hpeer p2pmac' _ _ (by decide) ht ha hview he hre

theorem mvrp_typed (station : Octets 6) : (mvrpApplication station).Typed id where
  keyed := mvrp_keyed station
  merge _ _ _ _ := rfl
  interested _ _ := rfl

theorem mvrp_leaveAllSent {db : Database UInt16} (sender receiver : Octets 6) (p2pmac : Bool)
    (rest : Mem) (hsort : VidSorted db.attribList) (hvid : ∀ a ∈ db.attribList, a.value ≤ 0xFFF)
    (hfits : MvrpFits (db.lvaReady p2pmac)) :
    ∃ frame, (mvrpTxpdu sender (db.lvaReady p2pmac)).frame = some frame ∧
      LeaveAllSent (mvrpApplication receiver) id false [mvrpVidType]
        (db.lvaReady p2pmac).attribList (vidEmitter.carried none (db.lvaReady p2pmac).attribList)
        (raises (sourceAddr frame) (mvrpRecvMsg frame rest).1) frame := by
  have hstep := justStepped_lvaReady db p2pmac
  have hevents : ∀ a ∈ (db.lvaReady p2pmac).attribList, a.event.isSome :=
    fun a ha => (hstep a ha).event_isSome (.inr rfl)
  have hsorted : VidSorted (db.lvaReady p2pmac).attribList := hsort.map fun _ => rfl
  have hready : ∀ a ∈ (db.lvaReady p2pmac).attribList, a.value ≤ 0xFFF := by
    intro a ha
    obtain ⟨b, hb, rfl⟩ := mem_map.mp ha
    exact hvid b hb
  have hsent : SentOf (mvrpApplication receiver) id vidView (db.lvaReady p2pmac).attribList
      fun _ => vidEmitter.carried none (db.lvaReady p2pmac).attribList :=
    { keys := hsorted.unique
      sublist := fun _ => vidEmitter.carried_sublist
      type := fun _ _ _ => rfl
      view := fun a _ w hw => by
        simp only [vidView] at hw
        split at hw
        · exact ⟨(Option.some.inj hw).symm, rfl⟩
        · cases hw }
  obtain ⟨m, hm, -⟩ := vidEmitter.sent_flagged
    (vidEmitter.groups 0 (db.lvaReady p2pmac).attribList) (.inl rfl)
  have hmessages : mvrpMessages (db.lvaReady p2pmac) ≠ [] := by
    intro hnil
    cases hm.symm.trans hnil
  have hframe := mvrpTxpdu_frame sender hfits hevents
  rw [if_neg hmessages] at hframe
  refine ⟨_, hframe, ?_, ⟨vidEmitter.carried_sublist.subset, fun a ha hyes => ?_⟩,
    fun p2pmac' peer hpeer a ha e he hre => ?_⟩
  · have hdest : mvrpCustomerBridgeAddr.length = 6 := rfl
    have hheader : (ethHeader _ sender.val mvrpEtype mvrpProtVer).length = messageList :=
      length_ethHeader hdest sender
    have hflags : FlagsEachType false _ _ := flagsEachType_sents (fun _ => vidEmitter)
      (fun _ => vidEmitter.groups 0 (db.lvaReady p2pmac).attribList) [()] hheader
    rw [flatMap_singleton] at hflags
    exact hflags
  · exact vidEmitter.mem_carried ha (starts_lvaReady db p2pmac ha rfl hyes)
  · rw [sourceAddr_ethHeader rfl,
      (mvrpRecvMsg_frame sender hfits hsorted hevents rfl hframe _ rest).1]
    have hview : vidView a.value = some a.value := if_pos (hready a ((hsent.sublist ()).subset ha))
    have hreg := hsent.registers (mvrp_typed receiver) hpeer p2pmac' sender.val true
      (nodup_singleton ()) mem_cons_self ha hview he hre
    rw [flatMap_singleton] at hreg
    exact hreg

theorem mmrp_typed (station : Octets 6) (vectevt : Slots) :
    (mmrpApplication station vectevt).Typed id where
  keyed := mmrp_keyed station vectevt
  merge _ _ _ hkey := congrArg MmrpValue.type hkey
  interested _ _ := rfl

theorem svc_agrees : svcEmitter.Agrees mmrpReception .svcreq where
  type := rfl
  length := rfl
  length_pos := by decide
  length_lt := by decide
  listLength := rfl
  fourPacked := rfl

/-- What `mmrp_txpdu` can say with a LeaveAll: MAC addresses in one vector. -/
structure MmrpLeaveAll (db : Database MmrpValue) : Prop where
  one : (macEmitter.groups 0 db.attribList).length = 1
  idle : ∀ a ∈ db.attribList, svcEmitter.starts a = false

theorem macRegular_lvaReady {db : Database MmrpValue} (h : MmrpLeaveAll (db.lvaReady p2pmac)) :
    MacRegular (db.lvaReady p2pmac) where
  lva := .inr (le_of_eq h.one)
  joins g hg a ha _ := by
    have hmem := (macEmitter.members_sublist hg).subset
    rw [registrar_lvaReady db p2pmac a (hmem (mem_cons_of_mem _ ha)),
      registrar_lvaReady db p2pmac g.head (hmem mem_cons_self)]
  idle := h.idle

theorem parseMessages_saw {R : Reception τ κ ν} [DecidableEq τ]
    (h : u ∈ (parseMessages R saw p ms).2) :
    u ∈ saw ∨ ∃ msg ∈ ms, R.typeOf msg.attributeType = some u := by
  induction ms generalizing saw p with
  | nil => exact .inl h
  | cons msg ms ih =>
    rw [parseMessages] at h
    cases ht : R.typeOf msg.attributeType with
    | none =>
      rw [ht] at h
      exact .inl h
    | some t =>
      rw [ht] at h
      rcases ih h with h | ⟨msg', hmsg', htype⟩
      · rcases parseVectors_saw h with rfl | h
        · exact .inr ⟨msg, mem_cons_self, ht⟩
        · exact .inl h
      · exact .inr ⟨msg', mem_cons_of_mem _ hmsg', htype⟩

def mmrpCarried (l : List (Attribute MmrpValue)) : MmrpType → List (Attribute MmrpValue)
  | .macvec => macEmitter.carried none l
  | .svcreq => []

theorem mmrp_sentOf (receiver : Octets 6) (vectevt : Slots) {l : List (Attribute MmrpValue)}
    (hkeys : (l.map fun a => id a.value).Nodup) :
    SentOf (mmrpApplication receiver vectevt) id some l (mmrpCarried l) where
  keys := hkeys
  sublist t := by
    cases t with
    | macvec => exact macEmitter.carried_sublist
    | svcreq => exact nil_sublist _
  type t a ha := by
    cases t with
    | macvec => exact of_decide_eq_true (macEmitter.selects_carried ha)
    | svcreq => cases ha
  view a _ w hw := by
    cases hw
    exact ⟨rfl, rfl⟩

section

variable {db : Database MmrpValue} {p2pmac : Bool}
  (hsend : MmrpLeaveAll (db.lvaReady p2pmac))

include hsend

theorem MmrpLeaveAll.groups_ne_nil : macEmitter.groups 0 (db.lvaReady p2pmac).attribList ≠ [] := by
  intro hnil
  have hone := hsend.one
  rw [hnil] at hone
  cases hone

theorem mmrpMessages_leaveAll : ∃ mac svc, mmrpMessages (db.lvaReady p2pmac) = [mac, svc] ∧
    macEmitter.sent false true (macEmitter.groups 0 (db.lvaReady p2pmac).attribList) = [mac] ∧
    (mac.attributeType = mmrpMacvecType ∧ mac.FlaggedOnce) ∧
    svc.attributeType = mmrpSvcreqType ∧ svc.FlaggedOnce := by
  obtain ⟨mac, hmac, hmacFlags⟩ := macEmitter.sent_flagged _ (.inr hsend.groups_ne_nil)
  obtain ⟨svc, hsvc, hsvcFlags⟩ := svcEmitter.sent_flagged [] (.inl rfl)
  exact ⟨mac, svc, congrArg₂ (· ++ ·) hmac hsvc, hmac, hmacFlags, hsvcFlags⟩

theorem mmrpRecvMsg_leaveAll (sender : Octets 6) (rest : Mem) (src : List UInt8)
    (hevents : ∀ a ∈ (db.lvaReady p2pmac).attribList, a.event.isSome)
    (hframe : frame = ethHeader mmrpAddr sender.val mmrpEtype mmrpProtVer ++
      (messageOctets false (mmrpMessages (db.lvaReady p2pmac)) ++ [0, 0]))
    (hsize : frame.length ≤ maxFrameSize) :
    raises src (mmrpRecvMsg frame rest).1 = [MmrpType.macvec, .svcreq].flatMap fun t =>
      typeRaises some src true t (mmrpCarried (db.lvaReady p2pmac).attribList t) := by
  have hgroups := hsend.groups_ne_nil
  obtain ⟨mac, -, -, hmac, ⟨htype, -⟩, -⟩ := mmrpMessages_leaveAll hsend
  generalize hl : (db.lvaReady p2pmac).attribList = l at hgroups hevents hmac ⊢
  have hvalid := macEmitter.groups_valid hevents
  have hmessages : mmrpMessages (db.lvaReady p2pmac) =
      macEmitter.sent false true (macEmitter.groups 0 l) ++ svcEmitter.sent true true [] := by
    rw [← hl]
    rfl
  rw [hmessages] at hframe
  have hlen : (messageOctets macEmitter.listLength
      (macEmitter.sent false true (macEmitter.groups 0 l))).length ≤ maxFrameSize := by
    refine le_trans ?_ hsize
    rw [hframe, messageOctets_append]
    simp only [length_append, macEmitter]
    omega
  have hacc : ∀ msg ∈ macEmitter.sent false true (macEmitter.groups 0 l),
      ∃ t, mmrpReception.Accepts t msg := fun msg hmsg =>
    ⟨.macvec, mac_agrees.accepts hvalid (fun g hg => macEmitter.members_lt hvalid hg hlen)
      (fun g _ => Emitter.declarable_of_lt (fun h => by cases h)) (.inr hgroups) msg hmsg⟩
  have hfresh : MmrpType.svcreq ∉ (parseMessages mmrpReception [] 15
      (macEmitter.sent false true (macEmitter.groups 0 l))).2 := by
    intro hmem
    rcases parseMessages_saw hmem with h | ⟨msg, hmsg, h⟩
    · cases h
    · rw [hmac, mem_singleton] at hmsg
      rw [hmsg, htype] at h
      cases h
  have hrecv : mmrpRecvMsg frame rest = _ :=
    recvMsg_emptyLeaveAll svc_agrees rfl rfl hacc hfresh rfl sender true (by decide) hframe hsize
  obtain ⟨saw, p, -, hraises⟩ : ∃ saw p, _ ∧ raises src _ = _ :=
    raises_sent mac_agrees not_mem_nil (fun h => absurd h hgroups) hvalid
      (fun g hg => mac_counted hg) 15 []
  rw [append_nil] at hraises
  rw [hrecv, raises_append, hraises]
  simp [parseMessages, raises, Parsed.raises, typeRaises, mmrpCarried, (macEmitter.carried_eq _).1]

theorem mmrp_leaveAllSent (sender receiver : Octets 6) (vectevt vectevt' : Slots) (rest : Mem)
    (hkeys : db.Unique id) (hfits : MmrpFits (db.lvaReady p2pmac)) :
    ∃ frame, (mmrpTxpdu sender vectevt (db.lvaReady p2pmac)).frame = some frame ∧
      LeaveAllSent (mmrpApplication receiver vectevt') id false
        [mmrpMacvecType, mmrpSvcreqType] (db.lvaReady p2pmac).attribList
        (macEmitter.carried none (db.lvaReady p2pmac).attribList)
        (raises (sourceAddr frame) (mmrpRecvMsg frame rest).1) frame := by
  have hdest : mmrpAddr.length = 6 := rfl
  have hevents : ∀ a ∈ (db.lvaReady p2pmac).attribList, a.event.isSome :=
    fun a ha => (justStepped_lvaReady db p2pmac a ha).event_isSome (.inr rfl)
  obtain ⟨mac, svc, hmessages, -, hmac, hsvc⟩ := mmrpMessages_leaveAll hsend
  have hframe := mmrpTxpdu_frame sender vectevt (macRegular_lvaReady hsend) hfits hevents
  rw [if_neg (by simp [hmessages])] at hframe
  refine ⟨_, hframe, ?_, ⟨macEmitter.carried_sublist.subset, fun a ha hyes => ?_⟩,
    fun p2pmac' peer hpeer a ha e he hre => ?_⟩
  · rw [hmessages]
    refine ⟨[mac, svc], drop_left' (length_ethHeader hdest sender), ?_, ?_⟩
    · simp [hmac.1, hsvc.1]
    · simp [hmac.2, hsvc.2]
  · have hmacvec : macEmitter.selects a.value = true := by
      cases hv : a.value with
      | macvec => rfl
      | svcreq x =>
        have hstarts : svcEmitter.starts a = true :=
          starts_lvaReady db p2pmac ha (by rw [hv]; rfl) hyes
        exact absurd (hsend.idle a ha) (by simp [hstarts])
    exact macEmitter.mem_carried ha (starts_lvaReady db p2pmac ha hmacvec hyes)
  · have hsent := mmrp_sentOf receiver vectevt' (hkeys.of_map (value_lvaReady db p2pmac))
    have hmem : a ∈ mmrpCarried (db.lvaReady p2pmac).attribList .macvec := ha
    have hsize : (ethHeader mmrpAddr sender.val mmrpEtype mmrpProtVer ++
        (messageOctets false (mmrpMessages (db.lvaReady p2pmac)) ++ [0, 0])).length ≤
          maxFrameSize := by
      rw [length_append, length_ethHeader hdest sender, length_append]
      simp only [MmrpFits, messageList] at hfits
      simp only [length_cons, length_nil]
      omega
    rw [mmrpRecvMsg_leaveAll hsend sender rest _ hevents rfl hsize, hsent.type _ a hmem]
    exact hsent.registers (mmrp_typed receiver vectevt') hpeer p2pmac' _ true (by decide)
      mem_cons_self hmem rfl he hre

end

/-- LeaveAll PDUs flag every attribute type once, and what they declare anew is registered at a peer
that does not prune; for MMRP where the MAC addresses make one vector and there is no service
requirement to send. -/
theorem leaveAll_redeclares (sender receiver : Octets 6) (pruning : Pruning)
    (ids : List (Octets 8)) (vectevt vectevt' : Slots) (p2pmac : Bool) (rest : Mem) :
    (∀ db : Database MsrpValue, db.Unique msrpKey → (∀ a ∈ db.attribList, a.value.Declared) →
      MsrpFits (db.lvaReady p2pmac) →
      (∀ frame, (msrpEvent sender pruning p2pmac .lvatimer db).frame = some frame →
        LeaveAllSent (msrpApplication receiver ⟨false, ids⟩) msrpKey true
          (msrpTypes.map fun t => (msrpEmitter t).attributeType) (db.lvaReady p2pmac).attribList
          (msrpTypes.flatMap fun t => msrpCarried t (db.lvaReady p2pmac).attribList)
          (raises (sourceAddr frame) (msrpRecvMsg frame rest).1) frame) ∧
      ((msrpGroups (db.lvaReady p2pmac).attribList).endsAt true true + 37 ≤ maxFrameSize →
        ∃ frame, (msrpEvent sender pruning p2pmac .lvatimer db).frame = some frame)) ∧
    (∀ db : Database UInt16, VidSorted db.attribList → (∀ a ∈ db.attribList, a.value ≤ 0xFFF) →
      MvrpFits (db.lvaReady p2pmac) →
      ∃ frame, (mvrpEvent sender p2pmac .lvatimer db).frame = some frame ∧
        LeaveAllSent (mvrpApplication receiver) id false [mvrpVidType]
          (db.lvaReady p2pmac).attribList (vidEmitter.carried none (db.lvaReady p2pmac).attribList)
          (raises (sourceAddr frame) (mvrpRecvMsg frame rest).1) frame) ∧
    (∀ db : Database MmrpValue, db.Unique id → MmrpLeaveAll (db.lvaReady p2pmac) →
      MmrpFits (db.lvaReady p2pmac) →
      ∃ frame, (mmrpEvent sender vectevt p2pmac .lvatimer db).frame = some frame ∧
        LeaveAllSent (mmrpApplication receiver vectevt') id false
          [mmrpMacvecType, mmrpSvcreqType] (db.lvaReady p2pmac).attribList
          (macEmitter.carried none (db.lvaReady p2pmac).attribList)
          (raises (sourceAddr frame) (mmrpRecvMsg frame rest).1) frame) := by
  refine ⟨fun db hkeys hdecl hfits => ⟨fun frame hframe => ?_, fun hroom => ?_⟩,
    fun db hsort hvid hfits => mvrp_leaveAllSent sender receiver p2pmac rest hsort hvid hfits,
    fun db hkeys hsend hfits =>
      mmrp_leaveAllSent hsend sender receiver vectevt vectevt' rest hkeys hfits⟩
  · exact msrp_leaveAllSent sender receiver ids p2pmac rest hkeys hdecl hfits hframe
  · have hstep := justStepped_lvaReady db p2pmac
    exact ⟨_, (msrpTxpdu_frame sender _).mpr ⟨_,
      MsrpPlan.writes_of_room (msrpGroups_valid (.inr rfl) hstep) hroom,
      msrpMessages_ne_nil (.inr rfl) hstep (.inl rfl), hfits, rfl⟩⟩

def restingDatabase (l : List (Attribute ν)) : Database ν :=
  { (emptyDatabase : Database ν) with attribList := l }

/-- A talker and a listener, no VID, and two MAC addresses in a row. -/
theorem leaveAll_redeclares_samples :
    let msrp := restingDatabase [inStates .qa .mtState (.talker false (sampleTalk 1)),
      inStates .an .inState (.listener (sampleStream 3) 2)]
    let mvrp : Database UInt16 := restingDatabase []
    let mmrp := restingDatabase [inStates .qa .mtState (sampleMac 1),
      inStates .qa .inState (sampleMac 2)]
    (∃ frame, (msrpEvent sampleStation ⟨true, []⟩ true .lvatimer msrp).frame = some frame ∧
      FlagsEachType true (msrpTypes.map fun t => (msrpEmitter t).attributeType) frame) ∧
    (∃ frame, (mvrpEvent sampleStation true .lvatimer mvrp).frame = some frame ∧
      FlagsEachType false [mvrpVidType] frame) ∧
    ∃ frame, (mmrpEvent sampleStation (0, 0, 0) true .lvatimer mmrp).frame = some frame ∧
      FlagsEachType false [mmrpMacvecType, mmrpSvcreqType] frame ∧
      (mmrp.receive (mmrpApplication sampleStation (0, 0, 0)) true
        (raises (sourceAddr frame) (mmrpRecvMsg frame cleared).1)).Registers
          (mmrpApplication sampleStation (0, 0, 0)) id (sampleMac 1) .macvec := by
  intro msrp mvrp mmrp
  obtain ⟨hmsrp, hmvrp, hmmrp⟩ := leaveAll_redeclares sampleStation sampleStation ⟨true, []⟩ []
    (0, 0, 0) (0, 0, 0) true cleared
  have hunique : (mmrp.attribList.map fun a => id a.value).Nodup := by decide
  obtain ⟨hread, hsent⟩ := hmsrp msrp (show List.Nodup _ by decide) (by decide)
    (by decide +kernel)
  obtain ⟨frame, hframe⟩ := hsent (by decide +kernel)
  obtain ⟨vframe, hvframe, hvid⟩ := hmvrp mvrp (by decide) (by decide) (by decide +kernel)
  obtain ⟨mframe, hmframe, hmac⟩ := hmmrp mmrp hunique ⟨by decide, by decide⟩
    (by decide +kernel)
  refine ⟨⟨frame, hframe, (hread frame hframe).flags⟩, ⟨vframe, hvframe, hvid.flags⟩, mframe,
    hmframe, hmac.flags, ?_⟩
  exact hmac.registers true mmrp ⟨hunique, rfl, rfl⟩
    ((inStates .qa .mtState (sampleMac 1)).stepBoth true .txla) (by decide) .joinMt (by decide) rfl

/-- A peer that prunes does not register a talker it is not interested in; a LeaveAll that is
repeated makes the first MAC address leave again, and without MAC addresses none is sent for them.
-/
theorem leaveAll_pruned :
    let msrp := restingDatabase [inStates .qa .mtState (.talker false (sampleTalk 1))]
    let mmrp := restingDatabase [inStates .qa .mtState (sampleMac 1),
      inStates .qa .mtState (sampleMac 5)]
    let nothing : Database MmrpValue := restingDatabase []
    ((msrp.lvaReady true).attribList.map event = [some .joinMt] ∧
      (msrpEvent sampleStation ⟨false, []⟩ true .lvatimer msrp).frame.map (fun frame =>
        ((restingDatabase []).receive (msrpApplication sampleStation ⟨true, []⟩) true
          (raises (sourceAddr frame) (msrpRecvMsg frame cleared).1)).attribList) = some []) ∧
    ((mmrp.lvaReady true).attribList.map event = [some .joinMt, some .joinMt] ∧
      (mmrpEvent sampleStation (0, 0, 0) true .lvatimer mmrp).frame.map (fun frame =>
        ((restingDatabase []).receive (mmrpApplication sampleStation (0, 0, 0)) true
          (raises (sourceAddr frame) (mmrpRecvMsg frame cleared).1)).attribList.map
            fun a => (a.value, a.registrar.mrpState)) =
        some [(sampleMac 1, .lvState), (sampleMac 5, .inState)]) ∧
    (mmrpEvent sampleStation (0, 0, 0) true .lvatimer nothing).frame.map (fun frame =>
      raises (sourceAddr frame) (mmrpRecvMsg frame cleared).1) = some [.leaveAll .svcreq] := by
  decide +kernel

end OpenAvb.Mrpd
