import OpenAvb.Mrpd.Daemon

/-!
# The timers of a database

A transmit opportunity is requested by starting the join timer. Every event
that leaves an applicant with a message it must send has started the timer,
except the expiry of the LeaveAll timer, which stops it.
-/

namespace OpenAvb.Mrpd

open List

variable {τ κ ν : Type}

def ApplicantState.pending (s : ApplicantState) : Bool :=
  (txTransition false s).tx && !(txTransition false s).optional

def Database.applicantStates (db : Database ν) : List ApplicantState :=
  db.attribList.map fun a => a.applicant.mrpState

def Database.Armed (db : Database ν) : Prop :=
  (∃ s ∈ db.applicantStates, s.pending = true) → db.mrpDb.joinTimerRunning = true

instance (db : Database ν) : Decidable db.Armed := by
  unfold Database.Armed
  infer_instance

variable [DecidableEq κ] {A : Application τ ν} {key : ν → κ} {db db' : Database ν}

theorem Database.Armed.of_running (h : db.mrpDb.joinTimerRunning = true) : db.Armed := fun _ => h

theorem Database.Armed.mono (h : db.Armed) (hsub : db'.applicantStates ⊆ db.applicantStates)
    (ht : db.mrpDb.joinTimerRunning = true → db'.mrpDb.joinTimerRunning = true) : db'.Armed := by
  rintro ⟨s, hs, hpending⟩
  exact ht (h ⟨s, hsub hs, hpending⟩)

@[simp] theorem applicantStates_notify (o : Outcome ν) :
    o.notify.db.applicantStates = o.db.applicantStates := map_map

theorem armed_notify {o : Outcome ν} : o.notify.db.Armed ↔ o.db.Armed := by
  unfold Database.Armed
  rw [applicantStates_notify]
  rfl

@[simp] theorem joinTimerRunning_startLvtimer (m : MrpDatabase) (l : List (Attribute ν)) :
    (startLvtimer event l m).joinTimerRunning = m.joinTimerRunning := by
  unfold startLvtimer
  split <;> rfl

theorem impliesTx_of_pending {x : Applicant} (hs : x.mrpState = (txTransition isIn s).mrpState)
    (hprev : x.mrpPreviousState = some s) (h : x.mrpState.pending = true) :
    mrpApplicantStateTransitionImpliesTx x = true := by
  unfold mrpApplicantStateTransitionImpliesTx
  rw [hs] at h
  rw [hprev, hs]
  revert h
  cases isIn <;> cases s <;> decide

theorem armed_tx (hA : A.Keyed key) (p2pmac : Bool) (db : Database ν) :
    (db.tx A p2pmac).db.Armed := by
  rintro ⟨s, hs, hpending⟩
  have hstates : (db.tx A p2pmac).db.applicantStates = (db.txReady p2pmac).applicantStates :=
    map_txChanged (hA.txpdu _) fun _ _ => rfl
  rw [hstates] at hs
  obtain ⟨b, hb, rfl⟩ := mem_map.mp hs
  obtain ⟨a, ha, rfl⟩ := mem_map.mp hb
  have hagain : ((db.txReady p2pmac).attribList.any fun a =>
      mrpApplicantStateTransitionImpliesTx a.applicant) = true :=
    any_eq_true.mpr ⟨_, hb, impliesTx_of_pending rfl rfl hpending⟩
  simp only [Database.tx, hagain, if_true]
  rfl

theorem Database.Armed.reclaim (h : db.Armed) : (mrpReclaim db).db.Armed :=
  h.mono (map_subset _ (filter_subset_self _)) id

theorem Database.Armed.lvtimer (h : db.Armed) (A : Application τ ν) : (db.lvtimer A).db.Armed := by
  have hstep : ({ db with
      attribList := db.attribList.map (Attribute.stepRegistrar .lvtimer) } : Database ν).Armed :=
    h.mono (by simp [applicantStates, Function.comp_def, Attribute.stepRegistrar]) id
  unfold Database.lvtimer
  split
  · exact hstep.reclaim.mono (List.Subset.refl _) id
  · exact hstep.mono (List.Subset.refl _) id

theorem Database.Armed.periodic (h : db.Armed) (A : Application τ ν) (p2pmac : Bool) :
    (db.periodic A p2pmac).db.Armed := by
  unfold Database.periodic
  split
  · rintro ⟨s, hs, _⟩
    obtain ⟨b, hb, _⟩ := mem_map.mp hs
    obtain ⟨a, ha, _⟩ := mem_map.mp hb
    have hne : db.attribList.isEmpty = false := by
      rw [isEmpty_eq_false_iff]
      exact ne_nil_of_mem ha
    simp only [hne, Bool.false_eq_true, if_false]
    rfl
  · exact h

theorem armed_rla [DecidableEq τ] (A : Application τ ν) (p2pmac : Bool) (t : τ)
    (db : Database ν) : (db.rla A p2pmac t).db.Armed := by
  apply Database.Armed.of_running
  show (mrpLvatimerStart (mrpLvatimerStop _)).joinTimerRunning = true
  simp [mrpLvatimerStart, mrpLvatimerStop, mrpJointimerStart]

theorem Database.Armed.attribute (h : db.Armed) (A : Application τ ν) (p2pmac : Bool)
    (event : MrpEvent) (r : Attribute ν) : (db.attribute A p2pmac event r).db.Armed := by
  unfold Database.attribute
  split
  · apply Database.Armed.of_running
    show (Option.elim _ _ _ : MrpDatabase).joinTimerRunning = true
    cases List.find? _ _ with
    | none => rfl
    | some a => simp [mrpJointimerStart]
  · exact h

theorem Database.Armed.event [DecidableEq τ] (h : db.Armed) (hA : A.Keyed key) (p2pmac : Bool)
    {call : Call τ ν} (hcall : call ≠ .lvatimer) : (mrpEvent A p2pmac call db).db.Armed := by
  match call with
  | .lvatimer => exact absurd rfl hcall
  | .tx => exact armed_notify.mpr (armed_tx hA p2pmac db)
  | .lvtimer => exact armed_notify.mpr (h.lvtimer A)
  | .periodic => exact armed_notify.mpr (h.periodic A p2pmac)
  | .rla t => exact armed_notify.mpr (armed_rla A p2pmac t db)
  | .attribute e r =>
    rw [mrpEvent_attribute]
    split
    · exact armed_notify.mpr (h.attribute A p2pmac e r)
    · exact armed_notify.mpr h

def ApplicantState.settled (s : ApplicantState) : Bool := s ∈ [.an, .aa, .ap, .qa, .qp, .lo]

theorem pending_txla (s : ApplicantState) : (txlaTransition s).mrpState.pending = !s.settled := by
  cases s <;> rfl

theorem armed_lvatimer (hA : A.Keyed key)
    (htimer : ∀ db, (A.txpdu db).1.mrpDb.joinTimerRunning = db.mrpDb.joinTimerRunning)
    (p2pmac : Bool) (db : Database ν) :
    (db.lvatimer A p2pmac).db.Armed ↔ ∀ s ∈ db.applicantStates, s.settled = true := by
  have hstates : (db.lvatimer A p2pmac).db.applicantStates =
      db.applicantStates.map fun s => (txlaTransition s).mrpState := by
    have hready : (db.lvaReady p2pmac).applicantStates = _ := map_map
    have hsent : (db.lvatimer A p2pmac).db.applicantStates = _ :=
      map_txChanged (hA.txpdu (db.lvaReady p2pmac)) fun _ _ => rfl
    rw [hsent]
    refine hready.trans ?_
    rw [Database.applicantStates, map_map]
    rfl
  have hstopped : (db.lvatimer A p2pmac).db.mrpDb.joinTimerRunning = false := by
    refine (htimer (db.lvaReady p2pmac)).trans ?_
    show (startLvtimer .txla db.attribList _).joinTimerRunning = false
    rw [joinTimerRunning_startLvtimer]
    rfl
  unfold Database.Armed
  rw [hstates, hstopped]
  constructor
  · rintro h s hs
    by_contra hsettled
    refine absurd (h ⟨_, mem_map_of_mem hs, ?_⟩) Bool.false_ne_true
    rw [pending_txla, Bool.eq_false_iff.mpr hsettled]
    rfl
  · rintro h ⟨_, hmem, hpending⟩
    obtain ⟨s, hs, rfl⟩ := mem_map.mp hmem
    rw [pending_txla, h s hs] at hpending
    exact hpending

theorem armed_step {cfg : MsrpConfig} {s : MsrpDaemon} (h : s.db.Armed) (hi : i ≠ .lvatimer) :
    (cfg.step s i).db.Armed := by
  apply step_preserves (P := fun s => s.db.Armed) ?_ ?_ ?_ ?_ h
  · rintro s call hcall h
    exact h.event (msrp_keyed _ _) cfg.p2pmac fun hc => hi (hcall.lvatimer hc)
  · rintro s h
    exact h.reclaim
  · rintro s streamID h
    exact h.mono (map_subset _ (filter_subset_self _)) id
  · rintro s ids h
    exact h

theorem armed_step_iff (cfg : MsrpConfig) {s : MsrpDaemon} (i : MsrpInput) (h : s.db.Armed) :
    (cfg.step s i).db.Armed ↔ (i = .lvatimer → ∀ x ∈ s.db.applicantStates, x.settled = true) := by
  cases i with
  | lvatimer =>
    have hlva : (cfg.step s .lvatimer).db.Armed ↔ _ :=
      armed_notify.trans (armed_lvatimer (msrp_keyed _ _) (fun _ => rfl) cfg.p2pmac s.db)
    rw [hlva]
    exact ⟨fun h _ => h, fun h => h rfl⟩
  | command | receive | lvtimer | tx | periodic | reclaim =>
    exact ⟨fun _ => nofun, fun _ => armed_step h nofun⟩

/-- A message that must be sent has the join timer running, in exactly the runs in which the
LeaveAll timer expires only when every applicant is in AN, AA, AP, QA, QP or LO. -/
theorem msrp_joinTimer_armed_iff (cfg : MsrpConfig) (inputs : List MsrpInput) :
    Always cfg.step (fun s => s.db.Armed) msrpInit inputs ↔ Each cfg.step
        (fun s i => i = .lvatimer → ∀ x ∈ s.db.applicantStates, x.settled = true) msrpInit inputs :=
  always_iff_each (I := fun _ => True) (fun _ _ _ => trivial)
    (fun _ i _ h => armed_step_iff cfg i h) trivial (by decide)

/-- A client declares a stream, and the LeaveAll timer expires before the join timer: the New
is still to be repeated, and no timer is running for it. -/
theorem msrp_joinTimer_unarmed : let inputs : List MsrpInput :=
      [.command (.joinOrNewStream true false (sampleTalk 1)), .lvatimer]
    Each sampleConfig.step (fun s i => i.due s = true) msrpInit inputs ∧
    ((run sampleConfig.step msrpInit inputs).db.applicantStates = [.an] ∧
      (run sampleConfig.step msrpInit inputs).db.mrpDb.joinTimerRunning = false) ∧
    ¬ Always sampleConfig.step (fun s => s.db.Armed) msrpInit inputs := by
  decide +kernel

/-! ## The leave and LeaveAll timers -/

variable {τ κ ν π : Type}

def Database.registrarStates (db : Database ν) : List RegistrarState :=
  db.attribList.map fun a => a.registrar.mrpState

structure Database.Timed (db : Database ν) : Prop where
  leave : .lvState ∈ db.registrarStates → db.mrpDb.lvTimerRunning = true
  leaveAll : db.mrpDb.lvaTimerRunning = true
  passive : db.mrpDb.lva.active = false

theorem registrarTransition_lv {s : RegistrarState}
    (h : ((registrarTransition event s).map Prod.fst).getD s = .lvState) : event ≠ .lvtimer ∧
      (s = .lvState ∨ ((registrarTransition event s).map (·.2.2)).getD false = true) := by
  revert h
  cases event <;> cases s <;> decide

theorem lv_of_stepRegistrar {a : Attribute ν} {event : MrpEvent}
    (h : (a.stepRegistrar event).registrar.mrpState = .lvState) :
    event ≠ .lvtimer ∧ (a.registrar.mrpState = .lvState ∨ a.startsLvtimer event = true) := by
  have hstate : (a.stepRegistrar event).states.2 = .lvState := h
  rw [states_stepRegistrar] at hstate
  obtain ⟨hevent, hcases⟩ := registrarTransition_lv hstate
  refine ⟨hevent, hcases.imp id fun hstart => ?_⟩
  rw [Attribute.startsLvtimer, mrpRegistrarFsm, Option.map_map]
  exact hstart

@[simp] theorem lvaTimerRunning_startLvtimer (m : MrpDatabase) (l : List (Attribute ν)) :
    (startLvtimer event l m).lvaTimerRunning = m.lvaTimerRunning := by
  unfold startLvtimer
  split <;> rfl

theorem lvTimerRunning_startLvtimer {m : MrpDatabase} {l : List (Attribute ν)}
    (h : m.lvTimerRunning = true ∨ ∃ a ∈ l, a.startsLvtimer event = true) :
    (startLvtimer event l m).lvTimerRunning = true := by
  unfold startLvtimer
  split
  · rfl
  case isFalse hnone =>
    rcases h with h | h
    · exact h
    · exact absurd (any_eq_true.mpr h) hnone

section
variable [DecidableEq κ] {A : Application τ ν} {key : ν → κ} {db db' : Database ν}

theorem Database.Timed.mono (h : db.Timed) (hsub : db'.registrarStates ⊆ db.registrarStates)
    (hmrp : db'.mrpDb = db.mrpDb) : db'.Timed := by
  obtain ⟨hleave, hleaveAll, hpassive⟩ := h
  rw [← hmrp] at hleave hleaveAll hpassive
  exact ⟨fun hlv => hleave (hsub hlv), hleaveAll, hpassive⟩

theorem timed_notify {o : Outcome ν} (h : o.db.Timed) : o.notify.db.Timed :=
  h.mono (by simp [Database.registrarStates, Outcome.notify, Function.comp_def]) rfl

/-- The leave and LeaveAll timers and the LeaveAll machine. -/
def MrpDatabase.timers (m : MrpDatabase) : Bool × Bool × Bool :=
  (m.lvTimerRunning, m.lvaTimerRunning, m.lva.active)

structure Application.Timely (A : Application τ ν) : Prop where
  merged : ∀ (db : Database ν) {r b : Attribute ν}, r.registrar.mrpState = .mtState →
    b ∈ db.merged A r → b.registrar.mrpState = .lvState → .lvState ∈ db.registrarStates
  txpdu_states : ∀ db, (A.txpdu db).1.registrarStates = db.registrarStates
  txpdu_timers : ∀ db, (A.txpdu db).1.mrpDb.timers = db.mrpDb.timers

theorem Application.Keyed.timely (hA : A.Keyed key) (hmerge : ∀ l r a,
      (A.merge l r a).registrar.mrpState = .lvState → a.registrar.mrpState = .lvState)
    (htimers : ∀ db, (A.txpdu db).1.mrpDb.timers = db.mrpDb.timers) : A.Timely where
  merged db r b hr hb hlv := by
    rcases mem_merged hA hb with hb | rfl | ⟨a, ha, rfl⟩
    · exact mem_map.mpr ⟨b, hb, hlv⟩
    · rw [hr] at hlv
      cases hlv
    · exact mem_map.mpr ⟨a, ha, hmerge _ r a hlv⟩
  txpdu_states db := map_txChanged (hA.txpdu db) fun _ _ => rfl
  txpdu_timers := htimers

omit [DecidableEq κ] in
theorem Application.Timely.txpdu (hA : A.Timely) (db : Database ν)
    (hleave : .lvState ∈ db.registrarStates → db.mrpDb.lvTimerRunning = true)
    (hleaveAll : db.mrpDb.lvaTimerRunning = true) (hpassive : db.mrpDb.lva.active = false) :
    (A.txpdu db).1.Timed := by
  obtain ⟨hlv, hlva, hactive⟩ : _ = _ ∧ _ = _ ∧ _ = _ := by
    simpa [MrpDatabase.timers] using hA.txpdu_timers db
  refine ⟨fun hmem => ?_, hlva.trans hleaveAll, hactive.trans hpassive⟩
  rw [hA.txpdu_states] at hmem
  exact hlv.trans (hleave hmem)

/-- The application when `malloc` finds a transmit buffer, or does not and `_txpdu` returns. -/
def Application.buffered (A : Application τ ν) (found : Bool) : Application τ ν :=
  if found then A else { A with txpdu := fun db => (db, none) }

omit [DecidableEq κ] in
theorem Application.Timely.buffered (hA : A.Timely) (found : Bool) : (A.buffered found).Timely := by
  cases found with
  | true => exact hA
  | false => exact ⟨hA.merged, fun _ => rfl, fun _ => rfl⟩

section

variable (h : db.Timed)
include h

theorem Database.Timed.lvatimer (hA : A.Timely) (p2pmac : Bool) :
    (db.lvatimer A p2pmac).db.Timed := by
  refine (hA.txpdu (db.lvaReady p2pmac) (fun hlv => ?_) rfl rfl).mono (Subset.refl _) rfl
  obtain ⟨b, hb, hlv⟩ := mem_map.mp hlv
  obtain ⟨a, ha, rfl⟩ := mem_map.mp hb
  refine lvTimerRunning_startLvtimer ?_
  rcases (lv_of_stepRegistrar hlv).2 with hwas | hstart
  · exact .inl (h.leave (mem_map.mpr ⟨a, ha, hwas⟩))
  · exact .inr ⟨a, ha, hstart⟩

theorem Database.Timed.rla [DecidableEq τ] (A : Application τ ν) (p2pmac : Bool)
    (t : τ) : (db.rla A p2pmac t).db.Timed := by
  refine ⟨fun hlv => ?_, rfl, rfl⟩
  obtain ⟨b, hb, hlv⟩ := mem_map.mp hlv
  obtain ⟨a, ha, rfl⟩ := mem_map.mp hb
  refine lvTimerRunning_startLvtimer ?_
  have hwas : a.registrar.mrpState = .lvState →
      (mrpJointimerStart db.mrpDb).lvTimerRunning = true :=
    fun hwas => h.leave (mem_map.mpr ⟨a, ha, hwas⟩)
  by_cases htype : A.typeOf a.value = t
  · rw [if_pos htype] at hlv
    rcases (lv_of_stepRegistrar hlv).2 with hlv | hstart
    · exact .inl (hwas hlv)
    · exact .inr ⟨a, mem_filter.mpr ⟨ha, by simpa using htype⟩, hstart⟩
  · rw [if_neg htype] at hlv
    exact .inl (hwas hlv)

theorem Database.Timed.tx (hA : A.Timely) (p2pmac : Bool) : (db.tx A p2pmac).db.Timed := by
  have hstates : (db.txReady p2pmac).registrarStates = db.registrarStates := map_map
  obtain ⟨hleave, hleaveAll, hpassive⟩ :=
    hA.txpdu (db.txReady p2pmac) (fun hlv => h.leave (hstates ▸ hlv)) h.leaveAll h.passive
  simp only [Database.tx]
  split <;> exact ⟨hleave, hleaveAll, hpassive⟩

theorem Database.Timed.lvtimer (A : Application τ ν) : (db.lvtimer A).db.Timed := by
  have hnone : ∀ a ∈ db.attribList.map (Attribute.stepRegistrar .lvtimer),
      a.registrar.mrpState ≠ .lvState := by
    intro b hb hlv
    obtain ⟨a, -, rfl⟩ := mem_map.mp hb
    exact (lv_of_stepRegistrar hlv).1 rfl
  unfold Database.lvtimer
  split
  · refine ⟨fun hlv => ?_, h.leaveAll, h.passive⟩
    obtain ⟨a, ha, hlv⟩ := mem_map.mp hlv
    exact absurd hlv (hnone a (mem_of_mem_filter ha))
  · refine ⟨fun hlv => ?_, h.leaveAll, h.passive⟩
    obtain ⟨a, ha, hlv⟩ := mem_map.mp hlv
    exact absurd hlv (hnone a ha)

theorem Database.Timed.periodic (A : Application τ ν) (p2pmac : Bool) :
    (db.periodic A p2pmac).db.Timed := by
  have hstates : (db.attribList.map (Attribute.stepApplicant p2pmac .periodic)).map
      (fun a => a.registrar.mrpState) = db.registrarStates := map_map
  unfold Database.periodic
  split
  · refine ⟨fun hlv => ?_, ?_, ?_⟩
    · have hrunning := h.leave (hstates ▸ hlv)
      split <;> exact hrunning
    · show (if _ then _ else _ : MrpDatabase).lvaTimerRunning = true
      split <;> exact h.leaveAll
    · show (if _ then _ else _ : MrpDatabase).lva.active = false
      split <;> exact h.passive
  · exact h

theorem Database.Timed.attribute (hA : A.Timely) (p2pmac : Bool)
    (event : MrpEvent) {r : Attribute ν} (hr : r.registrar.mrpState = .mtState) :
    (db.attribute A p2pmac event r).db.Timed := by
  by_cases hi : A.interested db.attribList r.value = true
  · have hwas : ∀ b ∈ db.merged A r, b.registrar.mrpState = .lvState →
        (mrpJointimerStart db.mrpDb).lvTimerRunning = true :=
      fun b hb hlv => h.leave (hA.merged db hr hb hlv)
    have hmem : ∀ b ∈ (db.attribute A p2pmac event r).db.attribList, _ :=
      fun b hb => mem_attribute hi hb
    rw [Database.attribute, if_pos hi] at hmem ⊢
    refine ⟨fun hlv => ?_, ?_, ?_⟩
    · obtain ⟨b, hb, hlv⟩ := mem_map.mp hlv
      rcases hmem b hb with hb | ⟨a, hfind, rfl⟩
      · have hrunning := hwas b hb hlv
        show (Option.elim _ _ _ : MrpDatabase).lvTimerRunning = true
        cases List.find? _ _ with
        | none => exact hrunning
        | some a => exact lvTimerRunning_startLvtimer (.inl hrunning)
      · have hstep : ((a.stepApplicant p2pmac event).stepRegistrar
            (registrarEvent event (mrpRegistrarIn a.registrar))).registrar.mrpState = .lvState := by
          simp only [Attribute.stepRequest] at hlv
          split at hlv <;> exact hlv
        show (Option.elim _ _ _ : MrpDatabase).lvTimerRunning = true
        rw [hfind]
        refine lvTimerRunning_startLvtimer ?_
        rcases (lv_of_stepRegistrar hstep).2 with hlv | hstart
        · exact .inl (hwas a (mem_of_find?_eq_some hfind) hlv)
        · exact .inr ⟨a, by simp, hstart⟩
    · show (Option.elim _ _ _ : MrpDatabase).lvaTimerRunning = true
      cases List.find? _ _ with
      | none => exact h.leaveAll
      | some a => exact (lvaTimerRunning_startLvtimer _ _).trans h.leaveAll
    · show (Option.elim _ _ _ : MrpDatabase).lva.active = false
      cases List.find? _ _ with
      | none => exact h.passive
      | some a => exact (congrArg LvaTimer.active lva_startLvtimer).trans h.passive
  · rw [attribute_of_not_interested hi]
    exact h

theorem Database.Timed.event [DecidableEq τ] (hA : A.Timely) (p2pmac : Bool)
    {call : Call τ ν} (hcall : call.Fresh) : (mrpEvent A p2pmac call db).db.Timed := by
  match call with
  | .lvatimer => exact timed_notify (h.lvatimer hA p2pmac)
  | .tx => exact timed_notify (h.tx hA p2pmac)
  | .lvtimer => exact timed_notify (h.lvtimer A)
  | .periodic => exact timed_notify (h.periodic A p2pmac)
  | .rla t => exact timed_notify (h.rla A p2pmac t)
  | .attribute event r =>
    have hr : r.registrar.mrpState = .mtState := congrArg Prod.snd hcall
    rw [mrpEvent_attribute]
    split
    · exact timed_notify (h.attribute hA p2pmac event hr)
    · exact timed_notify h

theorem Database.Timed.filter (p : Attribute ν → Bool) :
    ({ db with attribList := db.attribList.filter p } : Database ν).Timed :=
  h.mono (map_subset _ (filter_subset_self _)) rfl

end

end

/-- What happens to a database: an event about a fresh attribute, under what `π` leaves open, or a
loop that frees attributes. -/
inductive DbMove (π τ ν : Type) where
  | event (param : π) (call : { call : Call τ ν // call.Fresh })
  | free (cond : Attribute ν → Bool)

def dbMove [DecidableEq τ] (app : π → Application τ ν) (p2pmac : Bool) (db : Database ν) :
    DbMove π τ ν → Database ν
  | .event param call => (mrpEvent (app param) p2pmac call.val db).db
  | .free cond => { db with attribList := db.attribList.filter fun a => !cond a }

def DbMove.Buffered : DbMove (π × Bool) τ ν → Prop
  | .event param _ => param.2 = true
  | .free _ => True

/-- A registrar in LV has its timer running, and a LeaveAll is not due. -/
def Database.LvCovered (db : Database ν) : Prop :=
  (∃ a ∈ db.attribList, a.registrar.mrpState = .lvState) →
    db.mrpDb.lvTimerRunning = true ∧ db.mrpDb.lvaTimerRunning = true ∧ db.mrpDb.lva.active = false

theorem Database.Timed.lvCovered {db : Database ν} (h : db.Timed) : db.LvCovered := by
  rintro ⟨a, ha, hlv⟩
  exact ⟨h.leave (mem_map.mpr ⟨a, ha, hlv⟩), h.leaveAll, h.passive⟩

/-- The timers run whether or not there are transmit buffers; and no LeaveAll is on its way in a run
that always finds one. -/
def LeaveTimersRun [DecidableEq τ] (app : π → Application τ ν) (p2pmac : Bool) : Prop :=
  ∀ moves, let step := dbMove (fun param : π × Bool => (app param.1).buffered param.2) p2pmac
    Always step Database.LvCovered emptyDatabase moves ∧
      ((∀ move ∈ moves, move.Buffered) →
        Always step (fun db => db.mrpDb.lva.tx = false) emptyDatabase moves)

theorem leaveTimersRun [DecidableEq τ] [DecidableEq κ] {app : π → Application τ ν} {key : ν → κ}
    (hkeyed : ∀ param, (app param).Keyed key) (htimely : ∀ param, (app param).Timely)
    (p2pmac : Bool) : LeaveTimersRun app p2pmac := by
  intro moves step
  constructor
  · refine (always_of_step (fun db move (h : db.Timed) => ?_) ⟨nofun, rfl, rfl⟩ moves).imp
      fun db h => h.lvCovered
    cases move with
    | event param call => exact h.event ((htimely param.1).buffered param.2) p2pmac call.property
    | free cond => exact h.filter _
  · intro hfound
    have heach : Each step (fun _ move => move.Buffered) emptyDatabase moves :=
      each_iff_forall.mpr hfound
    refine (heach.always (P := Database.Resting key) (fun db move h hmove => ?_)
      ⟨by exact .nil, rfl, rfl⟩).imp fun db h => h.lva
    cases move with
    | event param call =>
      obtain ⟨param, found⟩ := param
      obtain rfl : found = true := hmove
      exact h.event (hkeyed param) p2pmac call.val
    | free cond => exact ⟨h.unique.sublist (filter_sublist.map _), h.lva, h.flag⟩

theorem msrp_timely (station : Octets 6) (pruning : Pruning) :
    (msrpApplication station pruning).Timely := by
  refine (msrp_keyed station pruning).timely (fun l r a h => ?_) fun _ => rfl
  obtain ⟨v, aa, ar⟩ := a
  obtain ⟨w, ra, rr⟩ := r
  replace h : (msrpMerge l ⟨w, ra, rr⟩ ⟨v, aa, ar⟩).registrar.mrpState = .lvState := h
  cases v <;> cases w <;> simp only [msrpMerge] at h
  case talker.talker | listener.listener | domain.domain =>
    split at h
    · cases h
    · exact h
  all_goals exact h

/-- In every run of events and frees, a registrar in LV has the leave timer and the LeaveAll timer
running, in all three databases. -/
theorem leave_timers_running (station : Octets 6) (p2pmac : Bool) :
    LeaveTimersRun (msrpApplication station) p2pmac ∧
      LeaveTimersRun (fun _ : Unit => mvrpApplication station) p2pmac ∧
      LeaveTimersRun (mmrpApplication station) p2pmac :=
  ⟨leaveTimersRun (msrp_keyed station) (msrp_timely station) p2pmac,
    leaveTimersRun (fun _ => mvrp_keyed station)
      (fun _ => (mvrp_keyed station).timely (fun _ _ _ h => h) fun _ => rfl) p2pmac,
    leaveTimersRun (mmrp_keyed station)
      (fun vectevt => (mmrp_keyed station vectevt).timely (fun _ _ _ h => h) fun _ => rfl) p2pmac⟩

/-- A VID is registered, and the LeaveAll timer expires when there is no buffer to send from. -/
theorem leaveAll_unbuffered :
    let step := dbMove (fun param : Unit × Bool => (mvrpApplication sampleStation).buffered param.2)
      false
    let db := run step emptyDatabase
      [.event ((), true) ⟨.attribute .rjoinin (alloc 5), rfl⟩,
        .event ((), false) ⟨.lvatimer, trivial⟩]
    db.registrarStates = [.lvState] ∧ db.mrpDb.lva.tx = true :=
  ⟨rfl, rfl⟩

end OpenAvb.Mrpd
