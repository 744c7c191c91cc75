import OpenAvb.Mrpd.Mvrp

/-!
# Two MVRP stations on a point-to-point link

Every PDU one station sends is received by the other before either goes on.
What the two databases hold for one VID is a pair of state machines on each
side; the PDU codec is what connects the pairs.
-/

namespace OpenAvb.Mrpd

open List

section

variable {db db' peer : Database UInt16} {r : Attribute UInt16}

theorem mvrp_keyed (station : Octets 6) : (mvrpApplication station).Keyed id where
  lookup _ _ := rfl
  add_perm := addGrouped_perm _ _
  key_merge _ _ _ _ := rfl
  txpdu db := by
    simp only [mvrpApplication, mvrpTxpdu, mvrpEmitVidvectors]
    split <;> exact (emitWith_txCleared vidEmitter _).imp fun _ _ => TxCleared.changed
  txpdu_lva _ := rfl
  txpdu_flag _ := rfl

structure MvrpOk (db : Database UInt16) : Prop where
  sorted : VidSorted db.attribList
  lva : db.mrpDb.lva.tx = false
  flag : db.sendEmptyLeaveAll = false

theorem vidSorted_iff : VidSorted l ↔ (l.map Attribute.value).Pairwise (· < ·) := pairwise_map.symm

theorem VidSorted.unique (h : VidSorted l) : UniqueKeys (fun a => id a.value) l :=
  (vidSorted_iff.mp h).imp UInt16.ne_of_lt

variable {f : Attribute UInt16 → Attribute UInt16}

theorem VidSorted.map (h : VidSorted l)
    (hf : ∀ a, (f a).value = a.value) : VidSorted (l.map f) := by
  rw [vidSorted_iff, map_map, funext (f := Attribute.value ∘ f) hf]
  exact vidSorted_iff.mp h

theorem VidSorted.txChanged (h : VidSorted l) (hc : List.Forall₂ TxChanged l l') :
    VidSorted l' := by
  rw [vidSorted_iff, map_txChanged hc fun _ _ => rfl]
  exact vidSorted_iff.mp h

theorem VidSorted.updateFirst {p : Attribute UInt16 → Bool} (h : VidSorted l)
    (hf : ∀ a, p a → (f a).value = a.value) : VidSorted (OpenAvb.updateFirst p f l) := by
  rw [vidSorted_iff, map_key_updateFirst hf]
  exact vidSorted_iff.mp h

theorem VidSorted.ite {c : Prop} [Decidable c] (h : c → VidSorted l) (h' : ¬ c → VidSorted l') :
    VidSorted (if c then l else l') := by
  by_cases hc : c
  · rw [if_pos hc]
    exact h hc
  · rw [if_neg hc]
    exact h' hc

theorem VidSorted.attribute (h : VidSorted db.attribList) (station : Octets 6) :
    VidSorted (db.attribute (mvrpApplication station) p2pmac event r).db.attribList := by
  have hmerged : VidSorted (db.merged (mvrpApplication station) r) := by
    refine VidSorted.ite (fun _ => h.updateFirst fun _ _ => rfl) fun hany => ?_
    refine mvrpAdd_sorted h fun a ha hv => hany ?_
    exact any_eq_true.mpr ⟨a, ha, by simpa [mvrpApplication, mvrpLookup] using hv⟩
  have hvalue : ∀ a : Attribute UInt16, mvrpLookup r.value a.value →
      (a.stepRequest p2pmac event).value = a.value := fun a _ => value_stepRequest a
  have hstepped := hmerged.updateFirst hvalue
  exact VidSorted.ite (fun _ => hstepped.sublist removeFirst_sublist) fun _ => hstepped

def vidStates (db : Database UInt16) (v : UInt16) : Option States :=
  (db.entry id v).map Attribute.states

def heardNext (p2pmac : Bool) (event : MrpEvent) (x : Option States) : Option States :=
  let y := requestNext p2pmac event (x.getD (.vo, .mtState))
  if y.reclaimable then none else some y

def vidNext (p2pmac : Bool) (v : UInt16) : Call Unit UInt16 → Option States → Option States
  | .lvatimer, x => x.map fun y => registrarNext .txla (applicantNext p2pmac .txla y)
  | .tx, x => x.map (applicantNext p2pmac .tx)
  | .lvtimer, x => (x.map (registrarNext .lvtimer)).filter fun y => !y.reclaimable
  | .periodic, x => x.map (applicantNext p2pmac .periodic)
  | .rla _, x => x.map fun y => registrarNext .rla (applicantNext p2pmac .rla y)
  | .attribute event r, x => if v = r.value then heardNext p2pmac event x else x

/-- An attribute call is about a fresh attribute and has an attribute event. -/
def Call.Regular : Call Unit UInt16 → Prop
  | .attribute event r => r.states = (.vo, .mtState) ∧ event ∈ attributeEvents
  | _ => True

theorem vidStates_notify (o : Outcome UInt16) : vidStates o.notify.db v = vidStates o.db v := by
  rw [vidStates, entry_notify, Option.map_map]
  rfl

theorem vidStates_map {g : States → States}
    (hl : db'.attribList = db.attribList.map f) (hv : ∀ a, (f a).value = a.value)
    (hs : ∀ a, (f a).states = g a.states) : vidStates db' v = (vidStates db v).map g := by
  have hmap : OpenAvb.entry (fun a => id a.value) v (db.attribList.map f) = _ := entry_map hv
  rw [vidStates, Database.entry, hl, hmap, vidStates, Option.map_map, Option.map_map]
  exact congrArg (Option.map · _) (funext hs)

theorem vidStates_txpdu (station : Octets 6) :
    vidStates ((mvrpApplication station).txpdu db).1 v = vidStates db v :=
  entry_txChanged ((mvrp_keyed station).txpdu db) fun _ _ => rfl

theorem vidStates_reclaim (h : VidSorted db.attribList)
    (hl : db'.attribList = (reclaim db.attribList).1) :
    vidStates db' v = (vidStates db v).filter fun y => !y.reclaimable := by
  have hfilter : OpenAvb.entry (fun a => id a.value) v (db.attribList.filter fun a =>
      !a.reclaimable) = _ := entry_filter h.unique _
  rw [vidStates, Database.entry, hl, reclaim, hfilter, vidStates, Database.entry]
  cases OpenAvb.entry (fun a => id a.value) v db.attribList with
  | none => rfl
  | some a =>
    simp only [Option.filter_some, Option.map_some, reclaimable_eq]
    split <;> rfl

theorem vidStates_attribute (h : VidSorted db.attribList) (station : Octets 6)
    (hr : r.states = (.vo, .mtState)) :
    vidStates (db.attribute (mvrpApplication station) p2pmac event r).db v =
      if v = r.value then heardNext p2pmac event (vidStates db v) else vidStates db v := by
  have hentry : (db.attribute (mvrpApplication station) p2pmac event r).db.entry id v = _ :=
    (entry_attribute (mvrp_keyed station) h.unique r rfl).2 v
  rw [vidStates, hentry, id_eq]
  by_cases hv : v = r.value
  · have hstates : (((db.entry id v).map (mvrpMerge r)).getD r).states =
        (vidStates db v).getD (.vo, .mtState) := by
      rw [vidStates]
      cases db.entry id v with
      | none => exact hr
      | some a => rfl
    rw [if_pos hv, if_pos hv, attributeNext, heardNext, ← hstates, ← states_stepRequest]
    simp only [mvrpApplication, Bool.true_and, reclaimable_eq]
    split <;> rfl
  · rw [if_neg hv, if_neg hv]
    rfl

theorem VidSorted.event (h : VidSorted db.attribList) (station : Octets 6)
    (call : Call Unit UInt16) : VidSorted (mvrpEvent station p2pmac call db).db.attribList := by
  have hmap : ∀ f : Attribute UInt16 → Attribute UInt16, (∀ a, (f a).value = a.value) →
      VidSorted (db.attribList.map f) := fun f hf => h.map hf
  have hnotify : ∀ o : Outcome UInt16, VidSorted o.db.attribList →
      VidSorted o.notify.db.attribList := fun o ho => ho.map fun _ => rfl
  match call with
  | .lvatimer =>
    exact hnotify _ ((hmap (Attribute.stepBoth p2pmac .txla) fun _ => rfl).txChanged
      ((mvrp_keyed station).txpdu (db.lvaReady p2pmac)))
  | .tx =>
    exact hnotify _ ((hmap (Attribute.stepApplicant p2pmac .tx) fun _ => rfl).txChanged
      ((mvrp_keyed station).txpdu (db.txReady p2pmac)))
  | .lvtimer =>
    exact hnotify _ ((hmap (Attribute.stepRegistrar .lvtimer) fun _ => rfl).sublist filter_sublist)
  | .periodic => exact hnotify _ (hmap _ fun _ => rfl)
  | .rla t =>
    refine hnotify _ (hmap (fun a => if () = t then a.stepBoth p2pmac .rla else a) fun a => ?_)
    split <;> rfl
  | .attribute event r =>
    rw [mvrpEvent, mrpEvent_attribute]
    split
    · exact hnotify _ (h.attribute station)
    · exact hnotify _ h

section

variable (h : MvrpOk db) (station : Octets 6)
include h station

theorem MvrpOk.event (call : Call Unit UInt16) : MvrpOk (mvrpEvent station p2pmac call db).db :=
  have hrest : db.Resting id := ⟨h.sorted.unique, h.lva, h.flag⟩
  have hnext := hrest.event (mvrp_keyed station) p2pmac call
  ⟨h.sorted.event station call, hnext.lva, hnext.flag⟩

theorem vidStates_event (call : Call Unit UInt16) (hc : call.Regular) :
    vidStates (mvrpEvent station p2pmac call db).db v = vidNext p2pmac v call (vidStates db v) := by
  match call with
  | .lvatimer =>
    rw [mvrpEvent, mrpEvent, vidStates_notify]
    refine (vidStates_txpdu station).trans ?_
    exact vidStates_map rfl (fun _ => rfl) fun a => states_stepBoth a
  | .tx =>
    rw [mvrpEvent, mrpEvent, vidStates_notify]
    refine (vidStates_txpdu station).trans ?_
    exact vidStates_map rfl (fun _ => rfl) fun a => states_stepApplicant a
  | .lvtimer =>
    rw [mvrpEvent, mrpEvent, vidStates_notify]
    have hstepped : VidSorted (db.attribList.map (Attribute.stepRegistrar .lvtimer)) :=
      h.sorted.map fun _ => rfl
    let db' : Database UInt16 :=
      { db with attribList := db.attribList.map (Attribute.stepRegistrar .lvtimer) }
    refine (vidStates_reclaim (show VidSorted db'.attribList from hstepped) rfl).trans ?_
    exact congrArg (Option.filter _)
      (vidStates_map rfl (fun _ => rfl) fun a => states_stepRegistrar a)
  | .periodic =>
    rw [mvrpEvent, mrpEvent, vidStates_notify]
    exact vidStates_map rfl (fun _ => rfl) fun a => states_stepApplicant a
  | .rla t =>
    rw [mvrpEvent, mrpEvent, vidStates_notify]
    exact vidStates_map rfl (fun _ => rfl) fun a => states_stepBoth a
  | .attribute event r =>
    rw [mvrpEvent, mrpEvent_attribute, if_pos hc.2, vidStates_notify]
    exact vidStates_attribute h.sorted station hc.1

theorem vidStates_receive {raised : List (Raised Unit UInt16)} (hr : ∀ r ∈ raised, r.call.Regular) :
    MvrpOk (db.receive (mvrpApplication station) p2pmac raised) ∧
      vidStates (db.receive (mvrpApplication station) p2pmac raised) v =
        raised.foldl (fun x r => vidNext p2pmac v r.call x) (vidStates db v) := by
  induction raised generalizing db with
  | nil => exact ⟨h, rfl⟩
  | cons r rs ih =>
    simp only [mem_cons, forall_eq_or_imp] at hr
    have hok : MvrpOk (mvrpEvent station p2pmac r.call db).db := h.event station r.call
    have hnext := ih hok hr.2
    rw [vidStates_event h station r.call hr.1] at hnext
    exact hnext

end

theorem Attribute.raised_regular {a : Attribute UInt16} {r : Raised Unit UInt16}
    (h : Attribute.raised view src a = some r) : r.call.Regular := by
  simp only [Attribute.raised, Option.bind_eq_some_iff, Option.map_eq_some_iff] at h
  obtain ⟨v, -, e, -, rfl⟩ := h
  exact ⟨rfl, by cases e <;> decide⟩

theorem foldl_raised (hs : VidSorted ms) (hv : v ≤ 0xFFF) (x : Option States) :
    (ms.filterMap (Attribute.raised vidView src)).foldl (fun x r => vidNext p2pmac v r.call x) x =
      ((OpenAvb.entry (fun a => id a.value) v ms).bind Attribute.event).elim x
        fun e => heardNext p2pmac e.received x := by
  induction ms generalizing x with
  | nil => rfl
  | cons a ms ih =>
    obtain ⟨ha, hms⟩ := pairwise_cons.mp hs
    rw [entry_cons, id_eq]
    by_cases hav : a.value = v
    · have hnone : OpenAvb.entry (fun a => id a.value) v ms = none :=
        entry_eq_none.mpr fun b hb hbv => UInt16.ne_of_lt (ha b hb) (hav.trans hbv.symm)
      have hview : vidView a.value = some v := by simp [vidView, hav, hv]
      rw [if_pos hav]
      cases he : a.event with
      | none =>
        rw [filterMap_cons_none (by simp [Attribute.raised, he]), ih hms, hnone]
        simp [he]
      | some e =>
        rw [filterMap_cons_some (by simp [Attribute.raised, hview, he]; rfl),
          foldl_cons, ih hms, hnone]
        simp [Raised.call, vidNext, received, alloc, he]
    · rw [if_neg hav, ← ih hms]
      cases hr : Attribute.raised vidView src a with
      | none => rw [filterMap_cons_none hr]
      | some r =>
        rw [filterMap_cons_some hr, foldl_cons]
        simp only [Attribute.raised, Option.bind_eq_some_iff, Option.map_eq_some_iff] at hr
        obtain ⟨w, hw, e, -, rfl⟩ := hr
        have hwv : v ≠ w := by
          simp only [vidView] at hw
          split at hw
          · exact fun h => hav ((Option.some.inj hw).trans h.symm)
          · cases hw
        simp [Raised.call, vidNext, received, alloc, hwv]

theorem entry_carried (hs : VidSorted l) (v : UInt16) :
    let carried := OpenAvb.entry (fun a => id a.value) v (vidEmitter.carried none l)
    let own := OpenAvb.entry (fun a => id a.value) v l
    (carried = none ∨ carried = own) ∧
      ∀ a, own = some a → vidEmitter.starts a = true → carried = some a := by
  intro carried own
  have hsub : (vidEmitter.carried none l).Sublist l := vidEmitter.carried_sublist
  have hc : UniqueKeys (fun a => id a.value) (vidEmitter.carried none l) :=
    VidSorted.unique (hs.sublist hsub)
  constructor
  · cases h : carried with
    | none => exact .inl rfl
    | some a =>
      obtain ⟨ha, hv⟩ := (entry_eq_some hc).mp h
      exact .inr ((entry_eq_some hs.unique).mpr ⟨hsub.subset ha, hv⟩).symm
  · intro a ha hstart
    obtain ⟨ha, hv⟩ := (entry_eq_some hs.unique).mp ha
    exact (entry_eq_some hc).mpr ⟨vidEmitter.mem_carried ha hstart, hv⟩

def mvrpDeliver (station : Octets 6) (p2pmac : Bool) (frame : Option (List UInt8))
    (peer : Database UInt16) : Database UInt16 :=
  frame.elim peer fun data =>
    peer.receive (mvrpApplication station) p2pmac
      (raises (sourceAddr data) (mvrpRecvMsg data cleared).1)

theorem vidStates_deliver (hp : MvrpOk peer) (sender receiver : Octets 6) (hfits : MvrpFits db)
    (hsort : VidSorted db.attribList) (hevents : ∀ a ∈ db.attribList, a.event.isSome)
    (hlva : db.sendEmptyLeaveAll = db.mrpDb.lva.tx) (hv : v ≤ 0xFFF) :
    MvrpOk (mvrpDeliver receiver p2pmac (mvrpTxpdu sender db).frame peer) ∧
    vidStates (mvrpDeliver receiver p2pmac (mvrpTxpdu sender db).frame peer) v =
      let y := if db.mrpDb.lva.tx then vidNext p2pmac v (.rla ()) (vidStates peer v)
        else vidStates peer v
      ((OpenAvb.entry (fun a => id a.value) v (vidEmitter.carried none db.attribList)).bind
        Attribute.event).elim y fun e => heardNext p2pmac e.received y := by
  cases hframe : (mvrpTxpdu sender db).frame with
  | none =>
    refine ⟨hp, ?_⟩
    have hmsgs : mvrpMessages db = [] := by
      rw [mvrpTxpdu_frame sender hfits hevents] at hframe
      by_contra hne
      rw [if_neg hne] at hframe
      cases hframe
    obtain ⟨hgroups, hflag⟩ := vidEmitter.sent_eq_nil.mp hmsgs
    have hcarried : vidEmitter.carried none db.attribList = [] := by
      rw [(vidEmitter.carried_eq _).1, hgroups]
      rfl
    rw [hcarried, ← hlva, hflag]
    rfl
  | some frame =>
    have hraises := (mvrpRecvMsg_frame sender hfits hsort hevents hlva hframe (sourceAddr frame)
      cleared).1
    have hregular : ∀ r ∈ (if db.mrpDb.lva.tx then [Raised.leaveAll ()] else []) ++
        (vidEmitter.carried none db.attribList).filterMap
          (Attribute.raised vidView (sourceAddr frame)), r.call.Regular := by
      intro r hr
      rcases mem_append.mp hr with hr | hr
      · split at hr
        · rw [mem_singleton.mp hr]
          trivial
        · cases hr
      · obtain ⟨a, -, ha⟩ := mem_filterMap.mp hr
        exact Attribute.raised_regular ha
    obtain ⟨hok, hstates⟩ := vidStates_receive (v := v) hp receiver hregular
    rw [← hraises] at hok hstates
    refine ⟨hok, hstates.trans ?_⟩
    rw [hraises, foldl_append, foldl_raised (hsort.sublist vidEmitter.carried_sublist) hv]
    cases db.mrpDb.lva.tx <;> rfl

end

/-! ## Agreement of two MVRP stations -/

variable {db peer : Database UInt16}

/-- The station does not declare the VID: its applicant, if any, observes. -/
def Observes (y : Option States) : Prop := ∀ z, y = some z → z.1 = .vo ∨ z.1 = .lo

/-- The invariant: `y` observes, and knows of the VID if `x` is quiet and active. -/
structure Agree (x y : Option States) : Prop where
  observes : Observes y
  registered : ∀ r, x = some (.qa, r) → ∃ s, y = some (s, .inState)

theorem observes_none : Observes none := fun _ h => by cases h

theorem Observes.map {f : States → States} (h : Observes y)
    (hf : ∀ z : States, z.1 = .vo ∨ z.1 = .lo → (f z).1 = .vo ∨ (f z).1 = .lo) :
    Observes (y.map f) := by
  intro z hz
  obtain ⟨z', hz', rfl⟩ := Option.map_eq_some_iff.mp hz
  exact hf z' (h z' hz')

theorem Observes.filter {p : States → Bool} (h : Observes y) : Observes (y.filter p) :=
  fun z hz => h z (Option.filter_eq_some_iff.mp hz).1

theorem Observes.heard (h : Observes y) (e : AttributeEvent) :
    Observes (heardNext true e.received y) := by
  have hstep : ∀ z : States, z.1 = .vo ∨ z.1 = .lo →
      (requestNext true e.received z).1 = .vo ∨ (requestNext true e.received z).1 = .lo := by
    rintro ⟨s, r⟩ (rfl | rfl) <;> cases e <;> simp [requestNext, registrarNext, applicantNext,
      applicantTransition, AttributeEvent.received, Transition.quiet, rjoininState, rinState,
      rmtState, rlaState]
  intro z hz
  have hz' : z = requestNext true e.received (y.getD (.vo, .mtState)) := by
    simp only [heardNext] at hz
    split at hz
    · cases hz
    · exact (Option.some.inj hz).symm
  rw [hz']
  refine hstep _ ?_
  cases y with
  | none => exact .inl rfl
  | some z => exact h z rfl

theorem Observes.rla (h : Observes y) : Observes (vidNext true v (.rla ()) y) :=
  h.map fun ⟨s, r⟩ hs => by rcases hs with rfl | rfl <;> simp [registrarNext, applicantNext,
    applicantTransition, Transition.quiet, rlaState]

theorem heardNext_declared {e : AttributeEvent} (y : Option States)
    (he : e = .new ∨ e = .joinIn ∨ e = .joinMt) :
    ∃ s, heardNext true e.received y = some (s, .inState) := by
  have hreg : (requestNext true e.received (y.getD (.vo, .mtState))).2 = .inState := by
    rcases he with rfl | rfl | rfl <;> rfl
  refine ⟨(requestNext true e.received (y.getD (.vo, .mtState))).1, ?_⟩
  rw [heardNext, if_neg (by simp [States.reclaimable, hreg]), ← hreg]

/-- What a PDU may say of a VID behind the transition `t`: its event, or nothing if it was
offered. -/
def Says (t : Transition) (registrarIn : Bool) (e : Option AttributeEvent) : Prop :=
  e = eventOf t.sndmsg registrarIn ∨ (t.optional = true ∧ e = none)

def carriedEvent (l : List (Attribute UInt16)) (v : UInt16) : Option AttributeEvent :=
  (OpenAvb.entry (fun a => id a.value) v (vidEmitter.carried none l)).bind Attribute.event

theorem says_carried {f : Attribute UInt16 → Attribute UInt16} {t : States → Transition}
    {registrarIn : States → Bool} (h : VidSorted db.attribList) (hv : ∀ a, (f a).value = a.value)
    (hevent : ∀ a, (f a).event = eventOf (t a.states).sndmsg (registrarIn a.states))
    (hstarts : ∀ a, vidEmitter.starts (f a) = !(t a.states).optional) :
    (vidStates db v = none → carriedEvent (db.attribList.map f) v = none) ∧
    ∀ y, vidStates db v = some y → Says (t y) (registrarIn y) (carriedEvent (db.attribList.map f) v) := by
  have hmap : OpenAvb.entry (fun a => id a.value) v (db.attribList.map f) = (db.entry id v).map f :=
    entry_map hv
  obtain ⟨hown, hmust⟩ := entry_carried (h.map hv) v
  rw [hmap] at hown hmust
  constructor
  · intro hnone
    rw [vidStates, Option.map_eq_none_iff] at hnone
    rw [hnone] at hown
    rw [carriedEvent, or_self_iff.mp hown]
    rfl
  · intro y hy
    obtain ⟨a, ha, rfl⟩ := Option.map_eq_some_iff.mp hy
    rw [ha, Option.map_some] at hown hmust
    by_cases hopt : (t a.states).optional = true
    · rcases hown with hown | hown
      · exact .inr ⟨hopt, by rw [carriedEvent, hown]; rfl⟩
      · exact .inl (by rw [carriedEvent, hown]; exact hevent a)
    · refine .inl ?_
      rw [carriedEvent, hmust (f a) rfl (by rw [hstarts]; simpa using hopt)]
      exact hevent a

theorem says_tx (h : VidSorted db.attribList) (v : UInt16) :
    let e := carriedEvent (db.txReady true).attribList v
    (vidStates db v = none → e = none) ∧
      ∀ y, vidStates db v = some y → Says (txTransition y.isIn y.1) y.isIn e := by
  refine says_carried h (fun _ => rfl) (fun _ => rfl) fun a => ?_
  obtain ⟨v, ⟨s, tx, msg, enc, prev⟩, r⟩ := a
  cases s <;> rfl

theorem says_lva (h : VidSorted db.attribList) (v : UInt16) :
    let e := carriedEvent (db.lvaReady true).attribList v
    (vidStates db v = none → e = none) ∧
      ∀ y, vidStates db v = some y → Says (txlaTransition y.1) (registrarNext .txla y).isIn e := by
  refine says_carried h (fun _ => rfl) (fun _ => rfl) fun a => ?_
  obtain ⟨v, ⟨s, tx, msg, enc, prev⟩, r⟩ := a
  cases s <;> rfl

theorem heard_of_says {e : Option AttributeEvent} (h : Says t registrarIn e)
    (hmust : t.optional = false) (hmsg : t.sndmsg = .sndNew ∨ t.sndmsg = .sndJoin)
    (y : Option States) :
    ∃ s, (e.elim y fun e => heardNext true e.received y) = some (s, .inState) := by
  rcases h with rfl | ⟨hopt, -⟩
  · rcases hmsg with hm | hm
    · rw [hm]
      exact heardNext_declared y (.inl rfl)
    · rw [hm]
      cases registrarIn
      · exact heardNext_declared y (.inr (.inr rfl))
      · exact heardNext_declared y (.inr (.inl rfl))
  · rw [hmust] at hopt
    cases hopt

theorem Observes.elim {e : Option AttributeEvent} (h : Observes y) :
    Observes (e.elim y fun e => heardNext true e.received y) := by
  cases e with
  | none => exact h
  | some e => exact h.heard e

theorem Agree.txA {x y : Option States} (h : Agree x y) (hnone : x = none → e = none)
    (hsome : ∀ z, x = some z → Says (txTransition z.isIn z.1) z.isIn e) :
    Agree (x.map (applicantNext true .tx)) (e.elim y fun e => heardNext true e.received y) where
  observes := h.observes.elim
  registered := by
    intro r hr
    obtain ⟨⟨s, r'⟩, rfl, hz⟩ := Option.map_eq_some_iff.mp hr
    have hsays := hsome _ rfl
    have hqa : (txTransition (States.isIn (s, r')) s).mrpState = .qa := congrArg Prod.fst hz
    cases s <;> simp only [txTransition, Transition.send, Transition.offer, reduceCtorEq] at hqa
    case an => exact heard_of_says hsays rfl (.inl rfl) y
    case aa | ap => exact heard_of_says hsays rfl (.inr rfl) y
    case qa =>
      -- the Join is only offered, but then the peer knew before
      rcases hsays with rfl | ⟨-, rfl⟩
      · cases hin : States.isIn (ApplicantState.qa, r')
        · exact heardNext_declared y (.inr (.inr rfl))
        · exact heardNext_declared y (.inr (.inl rfl))
      · exact h.registered r' rfl

theorem Agree.lvaA {x y : Option States} (h : Agree x y)
    (hsome : ∀ z, x = some z → Says (txlaTransition z.1) (registrarNext .txla z).isIn e) :
    Agree (vidNext true v .lvatimer x)
      (e.elim (vidNext true v (.rla ()) y) fun e =>
        heardNext true e.received (vidNext true v (.rla ()) y)) where
  observes := h.observes.rla.elim
  registered := by
    intro r hr
    obtain ⟨⟨s, r'⟩, rfl, hz⟩ := Option.map_eq_some_iff.mp hr
    have hsays := hsome _ rfl
    have hqa : (txlaTransition s).mrpState = .qa := congrArg Prod.fst hz
    cases s <;> simp only [txlaTransition, Transition.send, Transition.offer, reduceCtorEq] at hqa
    case an => exact heard_of_says hsays rfl (.inl rfl) _
    case aa | qa | ap | qp => exact heard_of_says hsays rfl (.inr rfl) _

theorem says_in (ht : t.sndmsg = .sndIn) (h : Says t registrarIn (some e)) :
    e = .mt ∨ (e = .isIn ∧ registrarIn = true) := by
  rcases h with h | ⟨-, h⟩
  · rw [ht] at h
    cases registrarIn
    · exact .inl (Option.some.inj h)
    · exact .inr ⟨Option.some.inj h, rfl⟩
  · cases h

theorem tx_observer {z : States} (hz : z.1 = .vo ∨ z.1 = .lo) :
    (txTransition z.isIn z.1).sndmsg = .sndIn ∧ (txlaTransition z.1).sndmsg = .sndIn := by
  rcases hz with hz | hz <;> rw [hz] <;> exact ⟨rfl, rfl⟩

theorem heardNext_fst (h : heardNext p2pmac event x = some z) :
    z.1 = (requestNext p2pmac event (x.getD (.vo, .mtState))).1 := by
  simp only [heardNext] at h
  split at h
  · cases h
  · rw [← Option.some.inj h]

theorem heardNext_mt (x : Option States) : heardNext true .rmt x ≠ some (.qa, r) := by
  intro h
  have hs := heardNext_fst h
  generalize x.getD (.vo, .mtState) = z at hs
  obtain ⟨s, r'⟩ := z
  cases s <;> cases hs

theorem Agree.txB {x y : Option States} (h : Agree x y) (hnone : y = none → e = none)
    (hsome : ∀ z, y = some z → Says (txTransition z.isIn z.1) z.isIn e) :
    Agree (e.elim x fun e => heardNext true e.received x) (y.map (applicantNext true .tx)) where
  observes := h.observes.map fun ⟨s, r⟩ hs => by rcases hs with rfl | rfl <;> exact .inl rfl
  registered := by
    intro r hr
    cases e with
    | none =>
      obtain ⟨s, rfl⟩ := h.registered r hr
      exact ⟨_, rfl⟩
    | some e =>
      obtain ⟨z, rfl⟩ := Option.ne_none_iff_exists'.mp fun hy => Option.some_ne_none e (hnone hy)
      rcases says_in (tx_observer (h.observes z rfl)).1 (hsome z rfl) with rfl | ⟨-, hin⟩
      · exact absurd hr (heardNext_mt x)
      · have hz : z.2 = .inState := of_decide_eq_true hin
        exact ⟨(applicantNext true .tx z).1, by rw [← hz]; rfl⟩

theorem Agree.lvaB {x y : Option States} (h : Agree x y) (hnone : y = none → e = none)
    (hsome : ∀ z, y = some z → Says (txlaTransition z.1) (registrarNext .txla z).isIn e) :
    Agree (e.elim (vidNext true v (.rla ()) x) fun e =>
        heardNext true e.received (vidNext true v (.rla ()) x))
      (vidNext true v .lvatimer y) where
  observes := h.observes.map fun ⟨s, r⟩ hs => by
    rcases hs with rfl | rfl
    · exact .inr rfl
    · exact .inl rfl
  registered := by
    intro r hr
    exfalso
    have hrla : ∀ z, vidNext true v (.rla ()) x = some z → z.1 ≠ .qa ∧ z.1 ≠ .aa := by
      intro z hz
      obtain ⟨⟨s, r'⟩, -, rfl⟩ := Option.map_eq_some_iff.mp hz
      cases s <;> exact ⟨fun h => (nomatch h), fun h => (nomatch h)⟩
    cases e with
    | none => exact (hrla _ hr).1 rfl
    | some e =>
      obtain ⟨z, rfl⟩ := Option.ne_none_iff_exists'.mp fun hy => Option.some_ne_none e (hnone hy)
      rcases says_in (tx_observer (h.observes z rfl)).2 (hsome z rfl) with rfl | ⟨rfl, -⟩
      · exact heardNext_mt _ hr
      · have hs := heardNext_fst hr
        cases hx : vidNext true v (.rla ()) x with
        | none =>
          rw [hx] at hs
          cases hs
        | some z' =>
          obtain ⟨h1, h2⟩ := hrla z' hx
          rw [hx, Option.getD_some] at hs
          obtain ⟨s, r'⟩ := z'
          cases s <;> first | exact h1 rfl | exact h2 rfl | cases hs

theorem Agree.ofA {x x' y : Option States} (h : Agree x y)
    (hx : ∀ r, x' = some (.qa, r) → ∃ r', x = some (.qa, r')) : Agree x' y where
  observes := h.observes
  registered := fun r hr => by
    obtain ⟨r', hr'⟩ := hx r hr
    exact h.registered r' hr'

theorem heardNext_request (hev : event = .new ∨ event = .join ∨ event = .lv)
    (h : heardNext true event x = some (.qa, r)) : ∃ r', x = some (.qa, r') := by
  have hs := heardNext_fst h
  cases x with
  | none => rcases hev with rfl | rfl | rfl <;> cases hs
  | some z =>
    obtain ⟨s, r'⟩ := z
    rcases hev with rfl | rfl | rfl <;> cases s <;> first | exact ⟨r', rfl⟩ | cases hs

theorem Agree.mapB {x y : Option States} (h : Agree x y) {f : States → States}
    (hf : ∀ z : States, z.1 = .vo ∨ z.1 = .lo → (f z).1 = .vo ∨ (f z).1 = .lo)
    (hreg : ∀ s, (f (s, .inState)).2 = .inState) : Agree x (y.map f) where
  observes := h.observes.map hf
  registered := fun r hr => by
    obtain ⟨s, rfl⟩ := h.registered r hr
    exact ⟨(f (s, .inState)).1, congrArg some (Prod.ext rfl (hreg s))⟩

theorem Agree.reclaimB {x y : Option States} (h : Agree x y) :
    Agree x (y.filter fun z => !z.reclaimable) where
  observes := h.observes.filter
  registered := fun r hr => by
    obtain ⟨s, rfl⟩ := h.registered r hr
    exact ⟨s, rfl⟩

def mvrpInit : Database UInt16 := emptyDatabase

inductive Side where
  | a | b

inductive Request where
  | new | join | lv

def Request.event : Request → MrpEvent
  | .new => .new
  | .join => .join
  | .lv => .lv

/-- What a station does next: a request of a client, a timer, or a reclaim pass. -/
inductive Action where
  | request (r : Request) (vid : UInt16)
  | tx | lvatimer | lvtimer | periodic | reclaim

def Action.perform (station : Octets 6) (act : Action) (db : Database UInt16) : Outcome UInt16 :=
  match act with
  | .request r vid => mvrpEvent station true (.attribute r.event (alloc vid)) db
  | .tx => mvrpEvent station true .tx db
  | .lvatimer => mvrpEvent station true .lvatimer db
  | .lvtimer => mvrpEvent station true .lvtimer db
  | .periodic => mvrpEvent station true .periodic db
  | .reclaim => mrpReclaim db

def Action.Fits (act : Action) (db : Database UInt16) : Prop :=
  match act with
  | .tx => MvrpFits (db.txReady true)
  | .lvatimer => MvrpFits (db.lvaReady true)
  | _ => True

structure Link where
  (a b : Database UInt16)

def Link.side (s : Link) : Side → Database UInt16
  | .a => s.a
  | .b => s.b

def Link.act (stationA stationB : Octets 6) (who : Side) (act : Action) (s : Link) : Link :=
  match who with
  | .a =>
    let o := act.perform stationA s.a
    { a := o.db, b := mvrpDeliver stationB true o.frame s.b }
  | .b =>
    let o := act.perform stationB s.b
    { a := mvrpDeliver stationA true o.frame s.a, b := o.db }

/-- The runs from empty databases in which only side A makes requests for `v`. -/
inductive Link.Run (stationA stationB : Octets 6) (v : UInt16) : Link → Prop
  | init : Run stationA stationB v ⟨mvrpInit, mvrpInit⟩
  | step (who : Side) (act : Action) (h : Run stationA stationB v s)
      (hown : who = .b → ∀ r, act ≠ .request r v) (hfits : act.Fits (s.side who)) :
      Run stationA stationB v (s.act stationA stationB who act)

structure Link.Ok (v : UInt16) (s : Link) : Prop where
  a : MvrpOk s.a
  b : MvrpOk s.b
  agree : Agree (vidStates s.a v) (vidStates s.b v)

theorem deliver_tx (h : MvrpOk db) (hp : MvrpOk peer) (sender receiver : Octets 6)
    (hfits : MvrpFits (db.txReady true)) (hv : v ≤ 0xFFF) :
    let frame := (mvrpTxpdu sender (db.txReady true)).frame
    let e := carriedEvent (db.txReady true).attribList v
    MvrpOk (mvrpDeliver receiver true frame peer) ∧
      vidStates (mvrpDeliver receiver true frame peer) v =
        e.elim (vidStates peer v) fun e => heardNext true e.received (vidStates peer v) := by
  have hevents : ∀ a ∈ (db.txReady true).attribList, a.event.isSome := by
    intro a ha
    obtain ⟨b, -, rfl⟩ := List.mem_map.mp ha
    exact (Applicant.JustStepped.stepApplicant b true (.inl rfl)).event_isSome (.inl rfl)
  have hlva : (db.txReady true).mrpDb.lva.tx = false := h.lva
  have hflag : (db.txReady true).sendEmptyLeaveAll = (db.txReady true).mrpDb.lva.tx :=
    h.flag.trans hlva.symm
  obtain ⟨hok, hstates⟩ := vidStates_deliver hp sender receiver hfits
    (h.sorted.map fun _ => rfl) hevents hflag hv
  rw [hlva] at hstates
  exact ⟨hok, hstates⟩

theorem deliver_lva (h : MvrpOk db) (hp : MvrpOk peer) (sender receiver : Octets 6)
    (hfits : MvrpFits (db.lvaReady true)) (hv : v ≤ 0xFFF) :
    let frame := (mvrpTxpdu sender (db.lvaReady true)).frame
    let e := carriedEvent (db.lvaReady true).attribList v
    let y := vidNext true v (.rla ()) (vidStates peer v)
    MvrpOk (mvrpDeliver receiver true frame peer) ∧
      vidStates (mvrpDeliver receiver true frame peer) v =
        e.elim y fun e => heardNext true e.received y := by
  have hevents : ∀ a ∈ (db.lvaReady true).attribList, a.event.isSome := by
    intro a ha
    obtain ⟨b, -, rfl⟩ := List.mem_map.mp ha
    exact Applicant.JustStepped.event_isSome (a := b.stepBoth true .txla)
      (.stepApplicant b true (.inr rfl)) (.inr rfl)
  exact vidStates_deliver hp sender receiver hfits (h.sorted.map fun _ => rfl) hevents rfl hv

theorem request_regular (r : Request) (vid : UInt16) :
    (Call.attribute r.event (alloc vid) : Call Unit UInt16).Regular :=
  ⟨rfl, by cases r <;> decide⟩

theorem MvrpOk.reclaim (h : MvrpOk db) : MvrpOk (mrpReclaim db).db :=
  ⟨h.sorted.sublist List.filter_sublist, h.lva, h.flag⟩

theorem filter_not_reclaimable {x : Option States}
    (h : x.filter (fun y => !y.reclaimable) = some z) : x = some z :=
  (Option.filter_eq_some_iff.mp h).1

theorem Link.Ok.stepA {s : Link} (h : s.Ok v) (hv : v ≤ 0xFFF) (act : Action) (hfits : act.Fits s.a)
    (stationA stationB : Octets 6) : (s.act stationA stationB .a act).Ok v := by
  have hevent : ∀ call, MvrpOk (mvrpEvent stationA true call s.a).db := h.a.event stationA
  have hnext : ∀ call, call.Regular →
      vidStates (mvrpEvent stationA true call s.a).db v = vidNext true v call (vidStates s.a v) :=
    vidStates_event h.a stationA
  match act with
  | .request r vid =>
    have hb : (s.act stationA stationB .a (.request r vid)).b = s.b := by
      simp only [Link.act, Action.perform, mvrpEvent, frame_attribute]
      rfl
    refine ⟨hevent _, hb ▸ h.b, hb ▸ h.agree.ofA fun q hq => ?_⟩
    have hq' := (hnext _ (request_regular r vid)).symm.trans hq
    simp only [vidNext] at hq'
    split at hq'
    · refine heardNext_request ?_ hq'
      cases r
      · exact .inl rfl
      · exact .inr (.inl rfl)
      · exact .inr (.inr rfl)
    · exact ⟨q, hq'⟩
  | .tx =>
    obtain ⟨hok, hstates⟩ := deliver_tx h.a h.b stationA stationB hfits hv
    obtain ⟨hnone, hsome⟩ := says_tx h.a.sorted v
    refine ⟨hevent .tx, hok, ?_⟩
    rw [show vidStates (s.act stationA stationB .a .tx).a v = _ from hnext .tx trivial]
    exact hstates ▸ h.agree.txA hnone hsome
  | .lvatimer =>
    obtain ⟨hok, hstates⟩ := deliver_lva h.a h.b stationA stationB hfits hv
    obtain ⟨-, hsome⟩ := says_lva h.a.sorted v
    refine ⟨hevent .lvatimer, hok, ?_⟩
    rw [show vidStates (s.act stationA stationB .a .lvatimer).a v = _ from hnext .lvatimer trivial]
    exact hstates ▸ h.agree.lvaA hsome
  | .lvtimer =>
    refine ⟨hevent .lvtimer, h.b, h.agree.ofA fun q hq => ?_⟩
    have hq' := filter_not_reclaimable ((hnext .lvtimer trivial).symm.trans hq)
    obtain ⟨⟨s', r'⟩, hx, hz⟩ := Option.map_eq_some_iff.mp hq'
    obtain rfl : s' = .qa := congrArg Prod.fst hz
    exact ⟨r', hx⟩
  | .periodic =>
    refine ⟨hevent .periodic, h.b, h.agree.ofA fun q hq => ?_⟩
    obtain ⟨⟨s', r'⟩, -, hz⟩ := Option.map_eq_some_iff.mp ((hnext .periodic trivial).symm.trans hq)
    have hs : periodicState s' = .qa := congrArg Prod.fst hz
    cases s' <;> cases hs
  | .reclaim =>
    refine ⟨h.a.reclaim, h.b, h.agree.ofA fun q hq => ⟨q, ?_⟩⟩
    exact filter_not_reclaimable ((vidStates_reclaim h.a.sorted rfl).symm.trans hq)

theorem Link.Ok.stepB {s : Link} (h : s.Ok v) (hv : v ≤ 0xFFF) (act : Action)
    (hown : ∀ r, act ≠ .request r v) (hfits : act.Fits s.b) (stationA stationB : Octets 6) :
    (s.act stationA stationB .b act).Ok v := by
  have hevent : ∀ call, MvrpOk (mvrpEvent stationB true call s.b).db := h.b.event stationB
  have hnext : ∀ call, call.Regular →
      vidStates (mvrpEvent stationB true call s.b).db v = vidNext true v call (vidStates s.b v) :=
    vidStates_event h.b stationB
  match act with
  | .request r vid =>
    have ha : (s.act stationA stationB .b (.request r vid)).a = s.a := by
      simp only [Link.act, Action.perform, mvrpEvent, frame_attribute]
      rfl
    have hvid : v ≠ vid := fun h => hown r (h ▸ rfl)
    refine ⟨ha ▸ h.a, hevent _, ?_⟩
    rw [ha, show vidStates (s.act stationA stationB .b (.request r vid)).b v = _ from
      hnext _ (request_regular r vid)]
    simpa [vidNext, alloc, hvid] using h.agree
  | .tx =>
    obtain ⟨hok, hstates⟩ := deliver_tx h.b h.a stationB stationA hfits hv
    obtain ⟨hnone, hsome⟩ := says_tx h.b.sorted v
    refine ⟨hok, hevent .tx, ?_⟩
    rw [show vidStates (s.act stationA stationB .b .tx).b v = _ from hnext .tx trivial]
    exact hstates ▸ h.agree.txB hnone hsome
  | .lvatimer =>
    obtain ⟨hok, hstates⟩ := deliver_lva h.b h.a stationB stationA hfits hv
    obtain ⟨hnone, hsome⟩ := says_lva h.b.sorted v
    refine ⟨hok, hevent .lvatimer, ?_⟩
    rw [show vidStates (s.act stationA stationB .b .lvatimer).b v = _ from hnext .lvatimer trivial]
    exact hstates ▸ h.agree.lvaB hnone hsome
  | .lvtimer =>
    refine ⟨h.a, hevent .lvtimer, ?_⟩
    rw [show vidStates (s.act stationA stationB .b .lvtimer).b v = _ from hnext .lvtimer trivial]
    exact (h.agree.mapB (f := registrarNext .lvtimer) (fun _ hz => hz) fun _ => rfl).reclaimB
  | .periodic =>
    refine ⟨h.a, hevent .periodic, ?_⟩
    rw [show vidStates (s.act stationA stationB .b .periodic).b v = _ from hnext .periodic trivial]
    refine h.agree.mapB (fun z hz => ?_) fun _ => rfl
    obtain ⟨s', r'⟩ := z
    rcases hz with rfl | rfl
    · exact .inl rfl
    · exact .inr rfl
  | .reclaim =>
    refine ⟨h.a, h.b.reclaim, ?_⟩
    rw [show vidStates (s.act stationA stationB .b .reclaim).b v = _ from
      vidStates_reclaim h.b.sorted rfl]
    exact h.agree.reclaimB

theorem Link.Run.ok (hv : v ≤ 0xFFF) (h : Link.Run stationA stationB v s) : s.Ok v := by
  have hinit : MvrpOk mvrpInit := ⟨List.Pairwise.nil, rfl, rfl⟩
  induction h with
  | init => exact ⟨hinit, hinit, observes_none, fun _ h => by cases h⟩
  | step who act _ hown hfits ih =>
    cases who with
    | a => exact ih.stepA hv act hfits stationA stationB
    | b => exact ih.stepB hv act (hown rfl) hfits stationA stationB

/-- Agreement: in every run in which only A declares a VID, whenever A's applicant for it is
in QA, B has it registered. -/
theorem link_agreement (stationA stationB : Octets 6) (v : UInt16) (hv : v ≤ 0xFFF) (s : Link)
    (hrun : Link.Run stationA stationB v s) (a : Attribute UInt16) (ha : a ∈ s.a.attribList)
    (hav : a.value = v) (hqa : a.applicant.mrpState = .qa) :
    ∃ b ∈ s.b.attribList, b.value = v ∧ b.registrar.mrpState = .inState := by
  have hok := hrun.ok hv
  have hx : vidStates s.a v = some (.qa, a.registrar.mrpState) := by
    rw [vidStates, Database.entry, (entry_eq_some hok.a.sorted.unique).mpr ⟨ha, hav⟩,
      Option.map_some, Attribute.states, hqa]
  obtain ⟨t, hb⟩ := hok.agree.registered _ hx
  obtain ⟨b, hb, hstates⟩ := Option.map_eq_some_iff.mp hb
  obtain ⟨hmem, hbv⟩ := (entry_eq_some hok.b.sorted.unique).mp hb
  exact ⟨b, hmem, hbv, congrArg Prod.snd hstates⟩

/-- A joins a VID and has two transmit opportunities. -/
theorem link_agreement_joined :
    let s := [(Side.a, Action.request .join 5), (.a, .tx), (.a, .tx)].foldl
      (fun s x => s.act sampleStation ⟨[2, 0, 0, 0, 0, 2], rfl⟩ x.1 x.2)
      (⟨mvrpInit, mvrpInit⟩ : Link)
    (∃ a ∈ s.a.attribList, a.value = 5 ∧ a.applicant.mrpState = .qa) ∧
      ∃ b ∈ s.b.attribList, b.value = 5 ∧ b.registrar.mrpState = .inState := by
  refine ⟨by decide +kernel, ?_⟩
  obtain ⟨a, ha, hav, hqa⟩ : ∃ a ∈ ([(Side.a, Action.request .join 5), (.a, .tx), (.a, .tx)].foldl
      (fun s x => s.act sampleStation ⟨[2, 0, 0, 0, 0, 2], rfl⟩ x.1 x.2)
      (⟨mvrpInit, mvrpInit⟩ : Link)).a.attribList,
      a.value = 5 ∧ a.applicant.mrpState = .qa := by decide +kernel
  refine link_agreement sampleStation ⟨[2, 0, 0, 0, 0, 2], rfl⟩ 5 (by decide) _ ?_ a ha hav hqa
  refine .step .a .tx (.step .a .tx (.step .a (.request .join 5) .init ?_ ?_) ?_ ?_) ?_ ?_
  · exact fun h => (nomatch h)
  · trivial
  · exact fun h => (nomatch h)
  · show MvrpFits _
    decide +kernel
  · exact fun h => (nomatch h)
  · show MvrpFits _
    decide +kernel

end OpenAvb.Mrpd
