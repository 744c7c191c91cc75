import OpenAvb.Keyed
import OpenAvb.Mrpd.Emit
import OpenAvb.Mrpd.Recv
import Mathlib.Order.Nat

/-!
# Attribute databases and their events

`msrp_event`, `mvrp_event` and `mmrp_event` are one function up to how an
application finds, orders, merges and sends its attributes. An event may hand a
frame to the socket and notifications to the clients; both are part of its result.
-/

namespace OpenAvb.Mrpd

structure Database (ν : Type) where
  mrpDb : MrpDatabase
  attribList : List (Attribute ν)
  sendEmptyLeaveAll : Bool

/-- What `msrp_init`, `mvrp_init` and `mmrp_init` leave: no attributes, and the LeaveAll timer
running. -/
def emptyDatabase : Database ν where
  mrpDb :=
    { lva := { active := false, tx := false, sndmsg := .sndNone }
      joinTimerRunning := false, lvTimerRunning := false, lvaTimerRunning := true }
  attribList := []
  sendEmptyLeaveAll := false

/-- What an event function leaves: the database, the frame for `mrpd_send`, the notifications. -/
structure Outcome (ν : Type) where
  db : Database ν
  frame : Option (List UInt8) := none
  notified : List (ν × Notify) := []

structure Application (τ ν : Type) where
  typeOf : ν → τ
  lookup : ν → ν → Bool
  add : Attribute ν → List (Attribute ν) → List (Attribute ν)
  merge : List (Attribute ν) → Attribute ν → Attribute ν → Attribute ν
  (reclaims periodic : Bool)
  /-- An attribute nobody here is interested in is not registered. -/
  interested : List (Attribute ν) → ν → Bool
  txpdu : Database ν → Database ν × Option (List UInt8)

variable {τ ν : Type}

/-- The `_add` functions: a type stands together, ordered by `below`; the first of it is
appended. -/
def addGrouped (sameType below : ν → ν → Bool) (r : Attribute ν) :
    List (Attribute ν) → List (Attribute ν)
  | [] => [r]
  | a :: rest =>
    if sameType r.value a.value then
      if below a.value r.value then
        match rest with
        | [] => [a, r]
        | b :: _ =>
          if sameType r.value b.value then a :: addGrouped sameType below r rest
          else a :: r :: rest
      else r :: a :: rest
    else a :: addGrouped sameType below r rest

def Attribute.stepApplicant (p2pmac : Bool) (event : MrpEvent) (a : Attribute ν) : Attribute ν :=
  { a with applicant :=
      (mrpApplicantFsm p2pmac a.applicant event (mrpRegistrarIn a.registrar)).getD a.applicant }

def Attribute.stepRegistrar (event : MrpEvent) (a : Attribute ν) : Attribute ν :=
  { a with registrar := ((mrpRegistrarFsm a.registrar event).map Prod.fst).getD a.registrar }

def Attribute.startsLvtimer (event : MrpEvent) (a : Attribute ν) : Bool :=
  ((mrpRegistrarFsm a.registrar event).map Prod.snd).getD false

def startLvtimer (event : MrpEvent) (l : List (Attribute ν)) (db : MrpDatabase) : MrpDatabase :=
  if l.any (Attribute.startsLvtimer event) then mrpLvtimerStart db else db

def Attribute.stepBoth (p2pmac : Bool) (event : MrpEvent) (a : Attribute ν) : Attribute ν :=
  (a.stepApplicant p2pmac event).stepRegistrar event

/-- The registrar event of a received attribute event or of a local request. -/
def registrarEvent (event : MrpEvent) (registrarIsIn : Bool) : MrpEvent :=
  match event with
  | .new => .begin
  | .join => if registrarIsIn then .rjoinin else .rjoinmt
  | .lv => .rlv
  | e => e

def Attribute.stepRequest (p2pmac : Bool) (event : MrpEvent) (a : Attribute ν) : Attribute ν :=
  let a := a.stepApplicant p2pmac event
  let a := a.stepRegistrar (registrarEvent event (mrpRegistrarIn a.registrar))
  if event = .new then { a with registrar := { a.registrar with notify := .new } } else a

def Attribute.reclaimable (a : Attribute ν) : Bool :=
  a.registrar.mrpState = .mtState &&
    (a.applicant.mrpState = .vo || a.applicant.mrpState = .ao || a.applicant.mrpState = .qo)

def reclaim (l : List (Attribute ν)) : List (Attribute ν) × List (Attribute ν) :=
  (l.filter fun a => !a.reclaimable, l.filter Attribute.reclaimable)

def Outcome.notify (o : Outcome ν) : Outcome ν :=
  { o with
    notified := o.notified ++
      (o.db.attribList.filter fun a => a.registrar.notify != .none).map fun a =>
        (a.value, a.registrar.notify)
    db := { o.db with attribList := o.db.attribList.map fun a =>
      { a with registrar := { a.registrar with notify := .none } } } }

/-- The database handed to `_txpdu` when the LeaveAll timer expires. -/
def Database.lvaReady (p2pmac : Bool) (db : Database ν) : Database ν :=
  let mrpDb := mrpJointimerStop (mrpLvatimerStop db.mrpDb)
  let mrpDb := startLvtimer .txla db.attribList mrpDb
  let mrpDb := (mrpLvatimerFsm mrpDb .lvatimer).getD mrpDb
  let mrpDb := (mrpLvatimerFsm mrpDb .tx).getD mrpDb
  { mrpDb := mrpDb
    attribList := db.attribList.map (Attribute.stepBoth p2pmac .txla)
    sendEmptyLeaveAll := true }

section

variable (A : Application τ ν) (p2pmac : Bool) (db : Database ν)

def Database.lvatimer : Outcome ν :=
  let sent := A.txpdu (db.lvaReady p2pmac)
  { db := { sent.1 with sendEmptyLeaveAll := false }, frame := sent.2 }

def Database.rla [DecidableEq τ] (A : Application τ ν) (p2pmac : Bool) (t : τ)
    (db : Database ν) : Outcome ν :=
  let mrpDb := mrpJointimerStart db.mrpDb
  let mrpDb := startLvtimer .rla (db.attribList.filter fun a => A.typeOf a.value = t) mrpDb
  let attribs := db.attribList.map fun a =>
    if A.typeOf a.value = t then a.stepBoth p2pmac .rla else a
  let mrpDb := (mrpLvatimerFsm mrpDb .rla).getD mrpDb
  { db := { db with mrpDb := mrpDb, attribList := attribs } }

/-- The database handed to `_txpdu` at a transmit opportunity. -/
def Database.txReady : Database ν :=
  { db with
    mrpDb := mrpJointimerStop db.mrpDb
    attribList := db.attribList.map (Attribute.stepApplicant p2pmac .tx) }

def Database.tx : Outcome ν :=
  let ready := db.txReady p2pmac
  let sent := A.txpdu ready
  -- another transmit opportunity is requested for what has become anxious
  let again := ready.attribList.any fun a => mrpApplicantStateTransitionImpliesTx a.applicant
  { db := { sent.1 with
      mrpDb := if again then mrpJointimerStart sent.1.mrpDb else sent.1.mrpDb }
    frame := sent.2 }

def Database.lvtimer : Outcome ν :=
  let mrpDb := mrpLvtimerStop db.mrpDb
  let attribs := db.attribList.map (Attribute.stepRegistrar .lvtimer)
  if A.reclaims then
    { db := { db with mrpDb := mrpDb, attribList := (reclaim attribs).1 }
      notified := (reclaim attribs).2.map fun a => (a.value, .lv) }
  else { db := { db with mrpDb := mrpDb, attribList := attribs } }

def Database.periodic : Outcome ν :=
  if A.periodic then
    let mrpDb := if db.attribList.isEmpty then db.mrpDb else mrpJointimerStart db.mrpDb
    { db := { db with mrpDb := mrpDb
                      attribList := db.attribList.map (Attribute.stepApplicant p2pmac .periodic) } }
  else { db := db }

def Database.merged (rattrib : Attribute ν) (db : Database ν) : List (Attribute ν) :=
  let found : Attribute ν → Bool := fun a => A.lookup rattrib.value a.value
  if db.attribList.any found then updateFirst found (A.merge db.attribList rattrib) db.attribList
  else A.add rattrib db.attribList

def Database.attribute (event : MrpEvent) (rattrib : Attribute ν) (db : Database ν) : Outcome ν :=
  if A.interested db.attribList rattrib.value then
    let found : Attribute ν → Bool := fun a => A.lookup rattrib.value a.value
    let merged := db.merged A rattrib
    let mrpDb := (merged.find? found).elim (mrpJointimerStart db.mrpDb) fun a =>
      startLvtimer (registrarEvent event (mrpRegistrarIn a.registrar)) [a]
        (mrpJointimerStart db.mrpDb)
    let attribs := updateFirst found (Attribute.stepRequest p2pmac event) merged
    let freed := (attribs.find? found).filter fun a => A.reclaims && a.reclaimable
    { db := { db with
        mrpDb := mrpDb
        attribList := if freed.isSome then removeFirst found attribs else attribs }
      notified := freed.toList.map fun a => (a.value, .lv) }
  else { db := db }

end

/-- A call of an event function. A LeaveAll names the attribute type it is about. -/
inductive Call (τ ν : Type) where
  | lvatimer | tx | lvtimer | periodic
  | rla (t : τ)
  | attribute (event : MrpEvent) (rattrib : Attribute ν)

def mrpEvent [DecidableEq τ] (A : Application τ ν) (p2pmac : Bool) (call : Call τ ν)
    (db : Database ν) : Outcome ν :=
  match call with
  | .lvatimer => (db.lvatimer A p2pmac).notify
  | .tx => (db.tx A p2pmac).notify
  | .lvtimer => (db.lvtimer A).notify
  | .periodic => (db.periodic A p2pmac).notify
  | .rla t => (db.rla A p2pmac t).notify
  | .attribute event rattrib =>
    match event with
    | .new | .join | .rnew | .rjoinin | .rjoinmt | .lv | .rin | .rmt | .rlv =>
      (db.attribute A p2pmac event rattrib).notify
    | _ => ({ db := db } : Outcome ν).notify

def mrpReclaim (db : Database ν) : Outcome ν where
  db := { db with attribList := (reclaim db.attribList).1 }
  notified := (reclaim db.attribList).2.map fun a => (a.value, .lv)

def Raised.call : Raised τ ν → Call τ ν
  | .leaveAll t => .rla t
  | .attribute event rattrib => .attribute event rattrib

def Database.receive [DecidableEq τ] (A : Application τ ν) (p2pmac : Bool)
    (raised : List (Raised τ ν)) (db : Database ν) : Database ν :=
  raised.foldl (fun db r => (mrpEvent A p2pmac r.call db).db) db

/-! ## What an event does to one attribute -/

open List

variable {τ κ ν : Type}

structure Application.Keyed [DecidableEq κ] (A : Application τ ν) (key : ν → κ) : Prop where
  lookup : ∀ r v, A.lookup r v = decide (key v = key r)
  add_perm : ∀ r l, (A.add r l).Perm (r :: l)
  key_merge : ∀ l (r a : Attribute ν), key a.value = key r.value →
    key (A.merge l r a).value = key a.value
  txpdu : ∀ db, List.Forall₂ TxChanged db.attribList (A.txpdu db).1.attribList
  txpdu_lva : ∀ db, (A.txpdu db).1.mrpDb.lva.tx = false
  txpdu_flag : ∀ db, (A.txpdu db).1.sendEmptyLeaveAll = db.sendEmptyLeaveAll

theorem addGrouped_cons (sameType below : ν → ν → Bool) (r a : Attribute ν)
    (l : List (Attribute ν)) : addGrouped sameType below r (a :: l) =
      if sameType r.value a.value then if below a.value r.value then
          if l.head?.any fun b => sameType r.value b.value then a :: addGrouped sameType below r l
          else a :: r :: l else r :: a :: l else a :: addGrouped sameType below r l := by
  cases l <;> rfl

theorem addGrouped_perm (sameType below : ν → ν → Bool) (r : Attribute ν)
    (l : List (Attribute ν)) : (addGrouped sameType below r l).Perm (r :: l) := by
  induction l with
  | nil => exact .refl _
  | cons a rest ih =>
    have hswap : (a :: r :: rest).Perm (r :: a :: rest) := .swap r a rest
    rw [addGrouped_cons]
    split
    · split
      · split
        · exact (ih.cons a).trans hswap
        · exact hswap
      · exact .refl _
    · exact (ih.cons a).trans hswap

theorem map_addGrouped {θ : Type} [DecidableEq θ] {shape : ν → θ × Nat} {r : Attribute ν}
    {l : List (Attribute ν)}
    (hsame : ∀ a, sameType r.value a = decide ((shape r.value).1 = (shape a).1))
    (hbelow : ∀ a ∈ l, (shape r.value).1 = (shape a.value).1 →
      (below a.value r.value = true ↔ (shape a.value).2 < (shape r.value).2)) :
    (addGrouped sameType below r l).map (fun a => shape a.value) =
      insertGroup (shape r.value) (l.map fun a => shape a.value) := by
  induction l with
  | nil => rfl
  | cons a l ih =>
    simp only [mem_cons, forall_eq_or_imp] at hbelow
    have hnext : (l.head?.any fun b => sameType r.value b.value) =
        (l.map fun a => shape a.value).head?.any fun x => (shape r.value).1 = x.1 := by
      cases l <;> simp [hsame]
    rw [addGrouped_cons, map_cons, insertGroup, ← hnext, hsame]
    by_cases htype : (shape r.value).1 = (shape a.value).1
    · rw [if_pos (decide_eq_true htype), if_pos htype]
      by_cases hlt : (shape a.value).2 < (shape r.value).2
      · rw [if_pos ((hbelow.1 htype).mpr hlt), if_pos hlt]
        split
        · exact congrArg _ (ih hbelow.2)
        · rfl
      · rw [if_neg fun h => hlt ((hbelow.1 htype).mp h), if_neg hlt]
        rfl
    · rw [if_neg (by simpa using htype), if_neg htype]
      exact congrArg _ (ih hbelow.2)

theorem foldl_addGrouped_perm (sameType below : ν → ν → Bool) (as l : List (Attribute ν)) :
    (as.foldl (fun l a => addGrouped sameType below a l) l).Perm (as ++ l) := by
  induction as generalizing l with
  | nil => exact .refl l
  | cons a as ih =>
    refine (ih _).trans (((addGrouped_perm sameType below a l).append_left as).trans ?_)
    exact perm_middle

def Database.entry [DecidableEq κ] (key : ν → κ) (k : κ) (db : Database ν) :
    Option (Attribute ν) :=
  OpenAvb.entry (fun a => key a.value) k db.attribList

def Database.Unique (key : ν → κ) (db : Database ν) : Prop :=
  UniqueKeys (fun a => key a.value) db.attribList

variable [DecidableEq κ] {A : Application τ ν} {key : ν → κ} {db : Database ν}

@[simp] theorem value_stepRequest (a : Attribute ν) :
    (a.stepRequest p2pmac event).value = a.value := by
  simp only [Attribute.stepRequest]
  split <;> rfl

theorem mem_merged (hA : A.Keyed key) {r a : Attribute ν} (h : a ∈ db.merged A r) :
    a ∈ db.attribList ∨ a = r ∨ ∃ b ∈ db.attribList, a = A.merge db.attribList r b := by
  simp only [Database.merged] at h
  split at h
  · rcases mem_updateFirst h with h | ⟨b, hfind, hb⟩
    · exact .inl h
    · exact .inr (.inr ⟨b, mem_of_find?_eq_some hfind, hb⟩)
  · rcases mem_cons.mp ((hA.add_perm r db.attribList).mem_iff.mp h) with h | h
    · exact .inr (.inl h)
    · exact .inl h

omit [DecidableEq κ] in
theorem attribute_of_not_interested {r : Attribute ν}
    (hi : ¬ A.interested db.attribList r.value = true) :
    db.attribute A p2pmac event r = { db := db } := by
  exact if_neg hi

omit [DecidableEq κ] in
theorem mem_attribute {r a : Attribute ν} (hi : A.interested db.attribList r.value = true)
    (h : a ∈ (db.attribute A p2pmac event r).db.attribList) : a ∈ db.merged A r ∨
      ∃ b, (db.merged A r).find? (fun a => A.lookup r.value a.value) = some b ∧
        a = b.stepRequest p2pmac event := by
  simp only [Database.attribute, hi, if_true] at h
  refine mem_updateFirst ?_
  split at h
  · exact removeFirst_sublist.subset h
  · exact h

def attributeNext (A : Application τ ν) (p2pmac : Bool) (event : MrpEvent) (r : Attribute ν)
    (l : List (Attribute ν)) (a : Option (Attribute ν)) : Option (Attribute ν) :=
  let a := ((a.map (A.merge l r)).getD r).stepRequest p2pmac event
  if A.reclaims && a.reclaimable then none else some a

theorem entry_merged (hA : A.Keyed key) (hn : db.Unique key) (r : Attribute ν) :
    UniqueKeys (fun a => key a.value) (db.merged A r) ∧
    ∀ k, OpenAvb.entry (fun a => key a.value) k (db.merged A r) =
      if k = key r.value then some (((db.entry key k).map (A.merge db.attribList r)).getD r)
      else db.entry key k := by
  have hfound : (fun a : Attribute ν => A.lookup r.value a.value) =
      fun a => decide (key a.value = key r.value) := funext fun a => hA.lookup _ _
  rw [Database.merged, hfound]
  generalize hl : (if (db.attribList.any fun a => decide (key a.value = key r.value)) = true then
    updateFirst (fun a => decide (key a.value = key r.value)) (A.merge db.attribList r) db.attribList
    else A.add r db.attribList) = l
  by_cases hany : (db.attribList.any fun a => decide (key a.value = key r.value)) = true
  · rw [if_pos hany] at hl
    replace hl := hl.symm
    have hmap : l.map (fun a => key a.value) = db.attribList.map (fun a => key a.value) := by
      rw [hl]
      exact map_key_updateFirst fun a ha => hA.key_merge _ r a (by simpa using ha)
    refine ⟨by rw [UniqueKeys, hmap]; exact hn, fun k => ?_⟩
    rw [hl, entry_updateFirst fun a ha => (hA.key_merge _ r a ha).trans ha]
    split
    case isTrue hk =>
      subst hk
      obtain ⟨a, ha, hak⟩ := any_eq_true.mp hany
      have : db.entry key (key r.value) = some a :=
        (entry_eq_some hn).mpr ⟨ha, by simpa using hak⟩
      simp [Database.entry] at this
      simp [Database.entry, this]
    case isFalse => rfl
  · rw [if_neg hany] at hl
    have hnone : ∀ a ∈ db.attribList, key a.value ≠ key r.value := by
      intro a ha hk
      exact hany (any_eq_true.mpr ⟨a, ha, by simpa using hk⟩)
    have hperm : l.Perm (r :: db.attribList) := hl ▸ hA.add_perm r _
    have hcons : UniqueKeys (fun a => key a.value) (r :: db.attribList) := by
      refine nodup_cons.mpr ⟨?_, hn⟩
      simpa using hnone
    refine ⟨(hperm.map _).nodup_iff.mpr hcons, fun k => ?_⟩
    rw [entry_of_perm ((hperm.map _).nodup_iff.mpr hcons) hperm, entry_cons]
    by_cases hk : k = key r.value
    · subst hk
      have : db.entry key (key r.value) = none := entry_eq_none.mpr hnone
      simp [this]
    · simp [hk, Ne.symm hk, Database.entry]

theorem entry_attribute (hA : A.Keyed key) (hn : db.Unique key) (r : Attribute ν)
    (hi : A.interested db.attribList r.value = true) :
    (db.attribute A p2pmac event r).db.Unique key ∧
    ∀ k, (db.attribute A p2pmac event r).db.entry key k =
      if k = key r.value then attributeNext A p2pmac event r db.attribList (db.entry key k)
      else db.entry key k := by
  have hfound : (fun a : Attribute ν => A.lookup r.value a.value) =
      fun a => decide (key a.value = key r.value) := funext fun a => hA.lookup _ _
  obtain ⟨hun, hentry⟩ := entry_merged hA hn r
  simp only [Database.attribute, hi, if_true]
  generalize db.merged A r = l at hun hentry
  rw [hfound]
  have hstep : UniqueKeys (fun a => key a.value)
      (updateFirst (fun a => decide (key a.value = key r.value))
        (Attribute.stepRequest p2pmac event) l) := by
    have hmap : (updateFirst (fun a => decide (key a.value = key r.value))
        (Attribute.stepRequest p2pmac event) l).map (fun a => key a.value) = l.map _ :=
      map_key_updateFirst fun a _ => congrArg key (value_stepRequest a)
    exact (congrArg List.Nodup hmap).mpr hun
  have hat : ∀ k, OpenAvb.entry (fun a => key a.value) k
      (updateFirst (fun a => decide (key a.value = key r.value))
        (Attribute.stepRequest p2pmac event) l) =
      if k = key r.value then
        some ((((db.entry key k).map (A.merge db.attribList r)).getD r).stepRequest p2pmac event)
      else db.entry key k := by
    intro k
    rw [entry_updateFirst fun a ha => (congrArg key (value_stepRequest a)).trans ha, hentry]
    split <;> rfl
  generalize updateFirst (fun a => decide (key a.value = key r.value))
    (Attribute.stepRequest p2pmac event) l = l' at hstep hat
  have hr := hat (key r.value)
  rw [if_pos rfl] at hr
  have hfind : l'.find? (fun a => decide (key a.value = key r.value)) = _ := hr
  simp only [hfind, Option.filter_some]
  by_cases hreclaim : (A.reclaims && Attribute.reclaimable
      ((((db.entry key (key r.value)).map (A.merge db.attribList r)).getD r).stepRequest
        p2pmac event)) = true
  · simp only [hreclaim, if_true, Option.isSome_some]
    refine ⟨hstep.sublist (removeFirst_sublist.map _), fun k => ?_⟩
    rw [Database.entry, entry_removeFirst hstep, hat]
    split
    case isTrue hk =>
      subst hk
      rw [attributeNext, if_pos hreclaim]
    case isFalse => rfl
  · simp only [hreclaim, Bool.false_eq_true, if_false, Option.isSome_none]
    refine ⟨hstep, fun k => ?_⟩
    rw [Database.entry, hat]
    split
    case isTrue hk =>
      subst hk
      rw [attributeNext, if_neg hreclaim]
    case isFalse => rfl

abbrev States := ApplicantState × RegistrarState

def Attribute.states (a : Attribute ν) : States := (a.applicant.mrpState, a.registrar.mrpState)

def States.isIn (x : States) : Bool := x.2 = .inState

def applicantNext (p2pmac : Bool) (event : MrpEvent) (x : States) : States :=
  (((applicantTransition p2pmac event x.isIn x.1).map Transition.mrpState).getD x.1, x.2)

def registrarNext (event : MrpEvent) (x : States) : States :=
  (x.1, ((registrarTransition event x.2).map Prod.fst).getD x.2)

def requestNext (p2pmac : Bool) (event : MrpEvent) (x : States) : States :=
  registrarNext (registrarEvent event x.isIn) (applicantNext p2pmac event x)

def States.reclaimable (x : States) : Bool :=
  x.2 = .mtState && (x.1 = .vo || x.1 = .ao || x.1 = .qo)

section

variable (a : Attribute ν)
include a

@[simp] theorem states_stepApplicant :
    (a.stepApplicant p2pmac event).states = applicantNext p2pmac event a.states := by
  have hfsm : mrpApplicantFsm p2pmac a.applicant event (mrpRegistrarIn a.registrar) =
      (applicantTransition p2pmac event a.states.isIn a.states.1).map _ := rfl
  rw [Attribute.stepApplicant, hfsm, applicantNext]
  cases applicantTransition p2pmac event a.states.isIn a.states.1 <;> rfl

@[simp] theorem states_stepRegistrar :
    (a.stepRegistrar event).states = registrarNext event a.states := by
  simp only [Attribute.states, registrarNext, Attribute.stepRegistrar, mrpRegistrarFsm]
  cases registrarTransition event a.registrar.mrpState <;> rfl

@[simp] theorem states_stepBoth :
    (a.stepBoth p2pmac event).states = registrarNext event (applicantNext p2pmac event a.states) := by
  simp [Attribute.stepBoth]

@[simp] theorem states_stepRequest :
    (a.stepRequest p2pmac event).states = requestNext p2pmac event a.states := by
  have h : ((a.stepApplicant p2pmac event).stepRegistrar (registrarEvent event
      (mrpRegistrarIn (a.stepApplicant p2pmac event).registrar))).states = _ :=
    states_stepRegistrar _
  rw [states_stepApplicant] at h
  simp only [Attribute.stepRequest]
  split
  · exact h
  · exact h

theorem reclaimable_eq : a.reclaimable = a.states.reclaimable := rfl

end

@[simp] theorem lva_startLvtimer : (startLvtimer event l m).lva = m.lva := by
  simp only [startLvtimer]
  split <;> rfl

def Attribute.settle (a : Attribute ν) : Attribute ν :=
  { a with registrar := { a.registrar with notify := .none } }

theorem notify_attribList (o : Outcome ν) :
    o.notify.db.attribList = o.db.attribList.map Attribute.settle := rfl

def attributeEvents : List MrpEvent :=
  [.new, .join, .rnew, .rjoinin, .rjoinmt, .lv, .rin, .rmt, .rlv]

theorem mrpEvent_attribute [DecidableEq τ] (A : Application τ ν) (p2pmac : Bool) (event : MrpEvent)
    (r : Attribute ν) (db : Database ν) : mrpEvent A p2pmac (.attribute event r) db =
      if event ∈ attributeEvents then (db.attribute A p2pmac event r).notify
      else ({ db := db } : Outcome ν).notify := by
  cases event <;> rfl

theorem frame_attribute [DecidableEq τ] (A : Application τ ν) (r : Attribute ν)
    (db : Database ν) : (mrpEvent A p2pmac (.attribute event r) db).frame = none := by
  rw [mrpEvent_attribute]
  split
  · simp only [Outcome.notify, Database.attribute]
    split <;> rfl
  · rfl

theorem entry_notify (o : Outcome ν) :
    o.notify.db.entry key k = (o.db.entry key k).map Attribute.settle :=
  entry_map fun _ => rfl

variable {f : Attribute ν → β}

theorem entry_txChanged (h : List.Forall₂ TxChanged l l')
    (hf : ∀ a tx, f (a.setTx tx) = f a) : (OpenAvb.entry (fun a => key a.value) k l').map f =
      (OpenAvb.entry (fun a => key a.value) k l).map f := by
  induction h with
  | nil => rfl
  | @cons a b l l' hab _ ih =>
    obtain ⟨tx, rfl⟩ := hab
    have hv : (a.setTx tx).value = a.value := rfl
    rw [entry_cons, entry_cons, hv]
    split
    · exact congrArg some (hf a tx)
    · exact ih

theorem map_txChanged (h : List.Forall₂ TxChanged l l')
    (hf : ∀ a tx, f (a.setTx tx) = f a) : l'.map f = l.map f := by
  induction h with
  | nil => rfl
  | cons hab _ ih =>
    obtain ⟨tx, rfl⟩ := hab
    rw [map_cons, map_cons, ih, hf]

structure Database.Resting (key : ν → κ) (db : Database ν) : Prop where
  unique : db.Unique key
  lva : db.mrpDb.lva.tx = false
  flag : db.sendEmptyLeaveAll = false

omit [DecidableEq κ] in
theorem Database.Unique.of_map (h : db.Unique key) {db' : Database ν}
    (hl : db'.attribList.map Attribute.value = db.attribList.map Attribute.value) :
    db'.Unique key := by
  have hkeys : ∀ l : List (Attribute ν), l.map (fun a => key a.value) =
      (l.map Attribute.value).map key := fun l => by rw [map_map]; rfl
  rw [Unique, UniqueKeys, hkeys] at h ⊢
  rwa [hl]

omit [DecidableEq κ] in
theorem Database.Resting.notify {o : Outcome ν} (h : o.db.Resting key) : o.notify.db.Resting key :=
  ⟨h.unique.of_map (map_map), h.lva, h.flag⟩

theorem Database.Resting.event [DecidableEq τ] (h : db.Resting key) (hA : A.Keyed key)
    (p2pmac : Bool) (call : Call τ ν) : (mrpEvent A p2pmac call db).db.Resting key := by
  have hmap : ∀ f : Attribute ν → Attribute ν, (∀ a, (f a).value = a.value) →
      (db.attribList.map f).map Attribute.value = db.attribList.map Attribute.value := by
    intro f hf
    rw [map_map]
    exact map_congr_left fun a _ => hf a
  match call with
  | .lvatimer =>
    refine Resting.notify ⟨h.unique.of_map ?_, hA.txpdu_lva _, rfl⟩
    exact (map_txChanged (hA.txpdu (db.lvaReady p2pmac)) fun _ _ => rfl).trans (hmap _ fun _ => rfl)
  | .tx =>
    refine Resting.notify ⟨h.unique.of_map ?_, ?_, (hA.txpdu_flag _).trans h.flag⟩
    · exact (map_txChanged (hA.txpdu (db.txReady p2pmac)) fun _ _ => rfl).trans (hmap _ fun _ => rfl)
    · simp only [Database.tx]
      split <;> exact hA.txpdu_lva _
  | .lvtimer =>
    simp only [mrpEvent, Database.lvtimer]
    have hstep := hmap (Attribute.stepRegistrar .lvtimer) fun _ => rfl
    split
    · refine Resting.notify ⟨?_, h.lva, h.flag⟩
      have hunique : Database.Unique key { db with
          attribList := db.attribList.map (Attribute.stepRegistrar .lvtimer) } :=
        h.unique.of_map hstep
      exact hunique.sublist (filter_sublist.map _)
    · exact Resting.notify ⟨h.unique.of_map hstep, h.lva, h.flag⟩
  | .periodic =>
    simp only [mrpEvent, Database.periodic]
    split
    · refine Resting.notify ⟨h.unique.of_map (hmap _ fun _ => rfl), ?_, h.flag⟩
      split <;> exact h.lva
    · exact Resting.notify h
  | .rla t =>
    refine Resting.notify ⟨h.unique.of_map (hmap _ fun a => ?_), rfl, h.flag⟩
    split <;> rfl
  | .attribute event r =>
    rw [mrpEvent_attribute]
    split
    · by_cases hi : A.interested db.attribList r.value = true
      · refine Resting.notify ⟨(entry_attribute hA h.unique r hi).1, ?_, ?_⟩
        · simp only [Database.attribute, hi, if_true]
          cases List.find? _ _ with
          | none => exact h.lva
          | some a => rw [Option.elim_some, lva_startLvtimer]; exact h.lva
        · simp only [Database.attribute, hi, if_true]
          exact h.flag
      · rw [attribute_of_not_interested hi]
        exact Resting.notify h
    · exact Resting.notify h

/-! ## What an event leaves of one attribute -/

variable {τ κ ν : Type}

def Attribute.content (a : Attribute ν) : ν × States := (a.value, a.states)

variable [DecidableEq κ] {A : Application τ ν} {key : ν → κ} {db db' : Database ν}

def Database.content (key : ν → κ) (k : κ) (db : Database ν) : Option (ν × States) :=
  (db.entry key k).map Attribute.content

theorem content_notify (o : Outcome ν) : o.notify.db.content key k = o.db.content key k := by
  unfold Database.content
  rw [entry_notify, Option.map_map]
  rfl

theorem content_map {f : Attribute ν → Attribute ν} {g : ν × States → ν × States}
    (hl : db'.attribList = db.attribList.map f) (hv : ∀ a, (f a).value = a.value)
    (hg : ∀ a, (f a).content = g a.content) : db'.content key k = (db.content key k).map g := by
  have hmap : OpenAvb.entry (fun a => key a.value) k (db.attribList.map f) = _ :=
    entry_map fun a => congrArg key (hv a)
  unfold Database.content Database.entry
  rw [hl, hmap, Option.map_map, Option.map_map]
  exact congrArg (Option.map · _) (funext hg)

theorem content_txpdu (hA : A.Keyed key) (db : Database ν) :
    (A.txpdu db).1.content key k = db.content key k :=
  entry_txChanged (hA.txpdu db) fun _ _ => rfl

theorem content_reclaim (h : db.Unique key) (hl : db'.attribList = (reclaim db.attribList).1) :
    db'.content key k = (db.content key k).filter fun c => !c.2.reclaimable := by
  have hfilter : OpenAvb.entry (fun a => key a.value) k (db.attribList.filter fun a =>
      !a.reclaimable) = _ := entry_filter h _
  unfold Database.content Database.entry
  rw [hl, reclaim, hfilter]
  cases OpenAvb.entry (fun a => key a.value) k db.attribList with
  | none => rfl
  | some a =>
    simp only [Option.filter_some, Option.map_some, reclaimable_eq]
    split
    case isTrue h => simp [h, Attribute.content]
    case isFalse h => simp [h, Attribute.content]

def bothNext (p2pmac : Bool) (event : MrpEvent) (x : States) : States :=
  registrarNext event (applicantNext p2pmac event x)

def contentNext [DecidableEq τ] (A : Application τ ν) (key : ν → κ) (p2pmac : Bool)
    (db : Database ν) (k : κ) (call : Call τ ν) : Option (ν × States) :=
  let c := db.content key k
  match call with
  | .lvatimer => c.map (Prod.map id (bothNext p2pmac .txla))
  | .tx => c.map (Prod.map id (applicantNext p2pmac .tx))
  | .lvtimer =>
    (c.map (Prod.map id (registrarNext .lvtimer))).filter fun c => !(A.reclaims && c.2.reclaimable)
  | .periodic => if A.periodic then c.map (Prod.map id (applicantNext p2pmac .periodic)) else c
  | .rla t => c.map fun c => if A.typeOf c.1 = t then Prod.map id (bothNext p2pmac .rla) c else c
  | .attribute event r =>
    if event ∈ attributeEvents ∧ A.interested db.attribList r.value = true ∧ k = key r.value then
      (attributeNext A p2pmac event r db.attribList (db.entry key k)).map Attribute.content
    else c

theorem content_attribute (hA : A.Keyed key) (h : db.Unique key) (r : Attribute ν) :
    (db.attribute A p2pmac event r).db.content key k =
      if A.interested db.attribList r.value = true ∧ k = key r.value then
        (attributeNext A p2pmac event r db.attribList (db.entry key k)).map Attribute.content
      else db.content key k := by
  by_cases hi : A.interested db.attribList r.value = true
  · unfold Database.content
    rw [(entry_attribute hA h r hi).2 k]
    by_cases hk : k = key r.value
    · rw [if_pos hk, if_pos ⟨hi, hk⟩]
    · rw [if_neg hk, if_neg fun h => hk h.2]
  · rw [attribute_of_not_interested hi, if_neg fun h => hi h.1]

theorem content_event [DecidableEq τ] (hA : A.Keyed key) (h : db.Unique key) (p2pmac : Bool)
    (call : Call τ ν) (k : κ) :
    (mrpEvent A p2pmac call db).db.content key k = contentNext A key p2pmac db k call := by
  match call with
  | .lvatimer =>
    refine (content_notify _).trans ((content_txpdu hA (db.lvaReady p2pmac)).trans ?_)
    exact content_map rfl (fun _ => rfl) fun a => Prod.ext rfl (states_stepBoth a)
  | .tx =>
    refine (content_notify _).trans ((content_txpdu hA (db.txReady p2pmac)).trans ?_)
    exact content_map rfl (fun _ => rfl) fun a => Prod.ext rfl (states_stepApplicant a)
  | .lvtimer =>
    refine (content_notify _).trans ?_
    let stepped : Database ν :=
      { db with attribList := db.attribList.map (Attribute.stepRegistrar .lvtimer) }
    have hstep : stepped.content key k = (db.content key k).map
        (Prod.map id (registrarNext .lvtimer)) :=
      content_map rfl (fun _ => rfl) fun a => Prod.ext rfl (states_stepRegistrar a)
    have hunique : stepped.Unique key :=
      h.of_map (by rw [List.map_map]; exact List.map_congr_left fun _ _ => rfl)
    simp only [Database.lvtimer, contentNext, ← hstep]
    cases A.reclaims with
    | true => exact content_reclaim hunique rfl
    | false =>
      show stepped.content key k = _
      cases stepped.content key k <;> rfl
  | .periodic =>
    refine (content_notify _).trans ?_
    unfold Database.periodic contentNext
    cases A.periodic with
    | true => exact content_map rfl (fun _ => rfl) fun a => Prod.ext rfl (states_stepApplicant a)
    | false => rfl
  | .rla t =>
    refine (content_notify _).trans (content_map rfl (fun a => ?_) fun a => ?_)
    · split <;> rfl
    · have htype : a.content.1 = a.value := rfl
      rw [htype]
      by_cases ht : A.typeOf a.value = t
      · simp only [ht, if_true]
        exact Prod.ext rfl (states_stepBoth a)
      · simp [ht]
  | .attribute event r =>
    rw [mrpEvent_attribute]
    by_cases he : event ∈ attributeEvents
    · rw [if_pos he, content_notify, content_attribute hA h]
      simp only [contentNext, he, true_and]
    · rw [if_neg he, content_notify]
      simp [contentNext, he, false_and]

theorem contentNext_new [DecidableEq τ] (h : (contentNext A key p2pmac db k call).isSome) :
    (db.content key k).isSome ∨
      ∃ event r, call = .attribute event r ∧ A.interested db.attribList r.value = true ∧
        k = key r.value := by
  match call with
  | .lvatimer | .tx | .rla t =>
    left
    simpa [contentNext] using h
  | .lvtimer =>
    left
    cases hc : db.content key k with
    | none => simp [contentNext, hc] at h
    | some c => rfl
  | .periodic =>
    left
    simp only [contentNext] at h
    split at h
    · simpa using h
    · exact h
  | .attribute event r =>
    simp only [contentNext] at h
    split at h
    case isTrue hc => exact .inr ⟨event, r, rfl, hc.2⟩
    case isFalse => exact .inl h

theorem contentNext_gone [DecidableEq τ] (hc : (db.content key k).isSome)
    (h : contentNext A key p2pmac db k call = none) :
    (call = .lvtimer ∧ ∃ c, db.content key k = some c ∧
        (registrarNext .lvtimer c.2).reclaimable = true) ∨
      ∃ event r, call = .attribute event r ∧ event ∈ attributeEvents ∧ k = key r.value ∧
        attributeNext A p2pmac event r db.attribList (db.entry key k) = none := by
  obtain ⟨c, hc⟩ := Option.isSome_iff_exists.mp hc
  match call with
  | .lvatimer | .tx | .rla t => simp [contentNext, hc] at h
  | .lvtimer =>
    simp [contentNext, hc] at h
    exact .inl ⟨rfl, c, hc, h.2⟩
  | .periodic =>
    simp only [contentNext, hc, Option.map_some] at h
    split at h <;> cases h
  | .attribute event r =>
    simp only [contentNext] at h
    split at h
    case isTrue hr => exact .inr ⟨event, r, rfl, hr.1, hr.2.2, Option.map_eq_none_iff.mp h⟩
    case isFalse =>
      rw [hc] at h
      cases h

end OpenAvb.Mrpd
