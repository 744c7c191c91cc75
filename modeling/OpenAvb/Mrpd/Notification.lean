import OpenAvb.Mrpd.Links
import OpenAvb.Mrpd.Timers

/-!
# What the clients are told

The registrar notifies when an attribute is joined or declared new, on every Leave,
and when the leave timer expires; freeing an attribute notifies once more. The last
word about a key agrees with the registration.
-/

namespace OpenAvb.Mrpd

section

open List

variable {τ κ ν : Type} [DecidableEq κ] {A : Application τ ν} {key : ν → κ} {k : κ}
  {db : Database ν}

def lastNotified (key : ν → κ) (k : κ) : List (ν × Notify) → Option Notify
  | [] => none
  | n :: rest => (lastNotified key k rest).or (if key n.1 = k then some n.2 else none)

theorem lastNotified_append (l l' : List (ν × Notify)) :
    lastNotified key k (l ++ l') = (lastNotified key k l').or (lastNotified key k l) := by
  induction l with
  | nil => simp [lastNotified]
  | cons n l ih => rw [cons_append, lastNotified, lastNotified, ih, Option.or_assoc]

theorem lastNotified_eq_none (h : ∀ n ∈ l, key n.1 ≠ k) : lastNotified key k l = none := by
  induction l with
  | nil => rfl
  | cons n l ih =>
    obtain ⟨hn, hl⟩ := forall_mem_cons.mp h
    rw [lastNotified, ih hl, if_neg hn]
    rfl

theorem lastNotified_part {l : List (Attribute ν)} (h : UniqueKeys (fun a => key a.value) l)
    (p : Attribute ν → Bool) (f : Attribute ν → Notify) :
    lastNotified key k ((l.filter p).map fun a => (a.value, f a)) =
      ((OpenAvb.entry (fun a => key a.value) k l).filter p).map f := by
  induction l with
  | nil => rfl
  | cons a l ih =>
    obtain ⟨ha, hl⟩ := nodup_cons.mp h
    rw [entry_cons, filter_cons]
    by_cases hk : key a.value = k
    · have hrest : lastNotified key k ((l.filter p).map fun a => (a.value, f a)) = none := by
        refine lastNotified_eq_none fun n hn => ?_
        obtain ⟨b, hb, rfl⟩ := mem_map.mp hn
        intro hbk
        exact ha (mem_map.mpr ⟨b, mem_of_mem_filter hb, hbk.trans hk.symm⟩)
      rw [if_pos hk, Option.filter_some]
      split
      · rw [map_cons, lastNotified, hrest, if_pos hk]
        rfl
      · exact hrest
    · rw [if_neg hk, ← ih hl]
      split
      · rw [map_cons, lastNotified, if_neg hk, Option.or_none]
      · rfl

/-- What the last word about a key may be, by what the database holds; anything if it may be freed
silently. -/
def Told (silent : Bool) (x : Option RegistrarState) (last : Option Notify) : Prop :=
  match x with
  | some .inState => last = some .join ∨ last = some .new
  | some _ => True
  | none => silent = true ∨ last = none ∨ last = some .lv

def Database.Quiet (db : Database ν) : Prop := ∀ a ∈ db.attribList, a.registrar.notify = .none

theorem quiet_notify (o : Outcome ν) : o.notify.db.Quiet := by
  intro a ha
  obtain ⟨b, _, rfl⟩ := mem_map.mp ha
  rfl

def Database.registrar (key : ν → κ) (k : κ) (db : Database ν) : Option Registrar :=
  (db.entry key k).map Attribute.registrar

def Database.registrarState (key : ν → κ) (k : κ) (db : Database ν) : Option RegistrarState :=
  (db.registrar key k).map Registrar.mrpState

def Registrar.Announces (r : Registrar) (was : Option RegistrarState) : Prop :=
  r.mrpState = .inState →
    r.notify = .join ∨ r.notify = .new ∨ r.notify = .none ∧ was = some .inState

/-- What an event function has done about a key when it comes to its last loop. -/
structure Outcome.Honest (key : ν → κ) (k : κ) (db : Database ν) (o : Outcome ν) : Prop where
  kept : ∀ r, o.db.registrar key k = some r →
    lastNotified key k o.notified = none ∧ r.Announces (db.registrarState key k)
  gone : o.db.registrar key k = none →
    lastNotified key k o.notified = some .lv ∨
      lastNotified key k o.notified = none ∧ db.registrar key k = none

def Registrar.word (r : Registrar) : Option Notify := if r.notify = .none then none else some r.notify

theorem lastNotified_notify {o : Outcome ν} (hu : o.notify.db.Unique key) :
    lastNotified key k o.notify.notified =
      ((o.db.registrar key k).bind Registrar.word).or (lastNotified key k o.notified) := by
  have hvalues : o.notify.db.attribList.map Attribute.value = _ := map_map
  have h : o.db.Unique key := hu.of_map hvalues.symm
  have hpart := lastNotified_part (k := k) h (fun a => a.registrar.notify != .none)
    fun a => a.registrar.notify
  refine (lastNotified_append _ _).trans ?_
  rw [hpart]
  congr 1
  unfold Database.registrar Database.entry
  cases OpenAvb.entry (fun a => key a.value) k o.db.attribList with
  | none => rfl
  | some a => by_cases hn : a.registrar.notify = .none <;> simp [Registrar.word, hn]

theorem registrarState_notify (o : Outcome ν) :
    o.notify.db.registrarState key k = o.db.registrarState key k := by
  unfold Database.registrarState Database.registrar
  rw [entry_notify, Option.map_map, Option.map_map, Option.map_map]
  rfl

theorem Outcome.Honest.told {o : Outcome ν} (h : o.Honest key k db) (hu : o.notify.db.Unique key)
    (ht : Told silent (db.registrarState key k) last) :
    Told silent (o.notify.db.registrarState key k) ((lastNotified key k o.notify.notified).or last) := by
  rw [registrarState_notify, lastNotified_notify hu]
  unfold Database.registrarState at ht ⊢
  cases hr : o.db.registrar key k with
  | none =>
    rcases h.gone hr with hlv | ⟨hnone, hwas⟩
    · rw [hlv]
      exact .inr (.inr rfl)
    · rw [hwas] at ht
      rw [hnone]
      exact ht
  | some r =>
    obtain ⟨hnone, hannounced⟩ := h.kept r hr
    rw [hnone, Option.map_some, Option.bind_some, Option.or_none]
    cases hstate : r.mrpState with
    | lvState | mtState => trivial
    | inState =>
      rcases hannounced hstate with hn | hn | ⟨hn, hwas⟩
      · simp [Told, Registrar.word, hn]
      · simp [Told, Registrar.word, hn]
      · unfold Database.registrarState at hwas
        rw [hwas] at ht
        simpa [Told, Registrar.word, hn] using ht

def registrarStep (event : MrpEvent) (r : Registrar) : Registrar :=
  ((mrpRegistrarFsm r event).map Prod.fst).getD r

theorem announces_leave (hleave : event = .txla ∨ event = .rla) (r : Registrar) :
    (registrarStep event r).Announces was := by
  unfold Registrar.Announces registrarStep mrpRegistrarFsm
  rcases hleave with rfl | rfl <;> simp only [registrarTransition] <;>
    cases r.mrpState <;> simp

theorem announces_lvtimer (r : Registrar) :
    (registrarStep .lvtimer r).Announces (some r.mrpState) := by
  unfold Registrar.Announces registrarStep mrpRegistrarFsm
  simp only [registrarTransition]
  cases r.mrpState <;> simp

theorem announces_quiet {r : Registrar} (h : r.notify = .none) : r.Announces (some r.mrpState) :=
  fun hin => .inr (.inr ⟨h, congrArg some hin⟩)

def registrarRequest (event : MrpEvent) (r : Registrar) : Registrar :=
  let r := registrarStep (registrarEvent event (mrpRegistrarIn r)) r
  if event = .new then { r with notify := .new } else r

theorem registrar_stepRequest (a : Attribute ν) :
    (a.stepRequest p2pmac event).registrar = registrarRequest event a.registrar := by
  unfold Attribute.stepRequest registrarRequest
  split <;> rfl

theorem announces_request (he : event ∈ attributeEvents) (r : Registrar) :
    (registrarRequest event r).Announces (some r.mrpState) := by
  obtain ⟨state, notify, macaddr⟩ := r
  simp only [attributeEvents, mem_cons, not_mem_nil, or_false] at he
  rcases he with rfl | rfl | rfl | rfl | rfl | rfl | rfl | rfl | rfl <;>
    cases state <;>
    simp [Registrar.Announces, registrarRequest, registrarStep, registrarEvent, mrpRegistrarIn,
      mrpRegistrarFsm, registrarTransition]

theorem honest_of_silent {o : Outcome ν} (hn : o.notified = [])
    (hreg : ∀ r, o.db.registrar key k = some r → r.Announces (db.registrarState key k))
    (hgone : o.db.registrar key k = none → db.registrar key k = none) : o.Honest key k db where
  kept r hr := ⟨by rw [hn]; rfl, hreg r hr⟩
  gone hr := .inr ⟨by rw [hn]; rfl, hgone hr⟩

theorem announces_same (hq : db.Quiet) (h : db.registrar key k = some r) :
    r.Announces (db.registrarState key k) := by
  obtain ⟨a, ha, rfl⟩ := Option.map_eq_some_iff.mp h
  unfold Database.registrarState
  rw [h]
  exact announces_quiet (hq a (mem_of_find?_eq_some ha))

theorem honest_same {o : Outcome ν} (hq : db.Quiet) (hn : o.notified = [])
    (hreg : o.db.registrar key k = db.registrar key k) : o.Honest key k db :=
  honest_of_silent hn (fun _ hr => announces_same hq (hreg ▸ hr)) fun hr => hreg ▸ hr

variable {db' : Database ν} {f : Attribute ν → Attribute ν}

theorem registrar_map
    (hl : db'.attribList = db.attribList.map f) (hv : ∀ a, (f a).value = a.value) :
    db'.registrar key k = (db.entry key k).map fun a => (f a).registrar := by
  have hmap : OpenAvb.entry (fun a => key a.value) k (db.attribList.map f) = _ :=
    entry_map fun a => congrArg key (hv a)
  unfold Database.registrar Database.entry
  rw [hl, hmap, Option.map_map]
  rfl

theorem registrar_txpdu (hA : A.Keyed key) (db : Database ν) :
    (A.txpdu db).1.registrar key k = db.registrar key k :=
  entry_txChanged (hA.txpdu db) fun _ _ => rfl

theorem honest_map {o : Outcome ν} (hn : o.notified = [])
    (hreg : o.db.registrar key k = (db.entry key k).map fun a => (f a).registrar)
    (hf : ∀ a ∈ db.attribList, (f a).registrar.Announces (some a.registrar.mrpState)) :
    o.Honest key k db := by
  refine honest_of_silent hn ?_ ?_
  · rintro r hr
    rw [hreg] at hr
    obtain ⟨a, ha, rfl⟩ := Option.map_eq_some_iff.mp hr
    have hwas : db.registrarState key k = some a.registrar.mrpState := by
      simp [Database.registrarState, Database.registrar, ha]
    rw [hwas]
    exact hf a (mem_of_find?_eq_some ha)
  · rintro hr
    rw [hreg, Option.map_eq_none_iff] at hr
    exact Option.map_eq_none_iff.mpr hr

theorem honest_lvatimer (hA : A.Keyed key) : (db.lvatimer A p2pmac).Honest key k db := by
  refine honest_map (f := Attribute.stepBoth p2pmac .txla) rfl ?_ fun a _ =>
    announces_leave (.inl rfl) a.registrar
  exact (registrar_txpdu hA (db.lvaReady p2pmac)).trans (registrar_map rfl fun _ => rfl)

theorem honest_tx (hA : A.Keyed key) (hq : db.Quiet) : (db.tx A p2pmac).Honest key k db := by
  refine honest_map (f := Attribute.stepApplicant p2pmac .tx) rfl ?_ fun a ha =>
    announces_quiet (hq a ha)
  exact (registrar_txpdu hA (db.txReady p2pmac)).trans (registrar_map rfl fun _ => rfl)

theorem honest_periodic (hq : db.Quiet) : (db.periodic A p2pmac).Honest key k db := by
  unfold Database.periodic
  split
  · exact honest_map (f := Attribute.stepApplicant p2pmac .periodic) rfl
      (registrar_map rfl fun _ => rfl) fun a ha => announces_quiet (hq a ha)
  · exact honest_same hq rfl rfl

theorem honest_rla [DecidableEq τ] (hq : db.Quiet) (t : τ) :
    (db.rla A p2pmac t).Honest key k db := by
  refine honest_map rfl (registrar_map rfl fun a => ?_) fun a ha => ?_
  · split <;> rfl
  · split
    · exact announces_leave (.inr rfl) a.registrar
    · exact announces_quiet (hq a ha)

theorem honest_reclaim (hu : db.Unique key) {o : Outcome ν}
    (hdb : o.db.attribList = (reclaim db.attribList).1)
    (hn : o.notified = (reclaim db.attribList).2.map fun a => (a.value, .lv))
    (hf : ∀ a, db.entry key k = some a → a.registrar.Announces (db'.registrarState key k))
    (hgone : db.entry key k = none → db'.registrar key k = none) : o.Honest key k db' := by
  have hreg : o.db.registrar key k =
      ((db.entry key k).filter fun a => !a.reclaimable).map Attribute.registrar := by
    have hfilter : OpenAvb.entry (fun a => key a.value) k (db.attribList.filter fun a =>
        !a.reclaimable) = _ := entry_filter hu _
    unfold Database.registrar Database.entry
    rw [hdb, reclaim, hfilter]
  have hlast : lastNotified key k o.notified =
      ((db.entry key k).filter Attribute.reclaimable).map fun _ => .lv := by
    rw [hn]
    exact lastNotified_part hu _ _
  cases hentry : db.entry key k with
  | none =>
    rw [hentry] at hreg hlast
    exact ⟨fun r hr => (by cases hreg.symm.trans hr), fun _ => .inr ⟨hlast, hgone hentry⟩⟩
  | some a =>
    rw [hentry, Option.filter_some] at hreg hlast
    by_cases hrec : a.reclaimable = true
    · simp only [hrec, if_true, Bool.not_true, Bool.false_eq_true, if_false] at hreg hlast
      exact ⟨fun r hr => (by cases hreg.symm.trans hr), fun _ => .inl hlast⟩
    · simp only [hrec, if_true, Bool.not_false, Bool.false_eq_true, if_false] at hreg hlast
      refine ⟨fun r hr => ⟨hlast, ?_⟩, fun hr => (by cases hreg.symm.trans hr)⟩
      obtain rfl : a.registrar = r := Option.some.inj (hreg.symm.trans hr)
      exact hf a hentry

theorem honest_lvtimer (hu : db.Unique key) (hreclaims : A.reclaims = true) :
    (db.lvtimer A).Honest key k db := by
  let stepped : Database ν :=
    { db with attribList := db.attribList.map (Attribute.stepRegistrar .lvtimer) }
  have hunique : stepped.Unique key :=
    hu.of_map (by rw [map_map]; exact map_congr_left fun _ _ => rfl)
  have hentry : stepped.entry key k = (db.entry key k).map (Attribute.stepRegistrar .lvtimer) :=
    entry_map fun _ => rfl
  unfold Database.lvtimer
  rw [if_pos hreclaims]
  refine honest_reclaim hunique rfl rfl ?_ ?_
  · rintro b hb
    rw [hentry] at hb
    obtain ⟨a, ha, rfl⟩ := Option.map_eq_some_iff.mp hb
    have hwas : db.registrarState key k = some a.registrar.mrpState := by
      simp [Database.registrarState, Database.registrar, ha]
    rw [hwas]
    exact announces_lvtimer a.registrar
  · rintro hnone
    rw [hentry, Option.map_eq_none_iff] at hnone
    exact Option.map_eq_none_iff.mpr hnone

/-- The attribute an event is about, between the merge and the step of the state machines. -/
def Database.about (A : Application τ ν) (key : ν → κ) (r : Attribute ν) (db : Database ν) :
    Attribute ν :=
  ((db.entry key (key r.value)).map (A.merge db.attribList r)).getD r

theorem key_about (hA : A.Keyed key) (r : Attribute ν) :
    key (db.about A key r).value = key r.value := by
  unfold Database.about
  cases hentry : db.entry key (key r.value) with
  | none => rfl
  | some a =>
    have hk : key a.value = key r.value := by simpa using find?_some hentry
    exact (hA.key_merge _ r a hk).trans hk

theorem notified_attribute (hA : A.Keyed key) (hu : db.Unique key) (r : Attribute ν)
    (hi : A.interested db.attribList r.value = true) : (db.attribute A p2pmac event r).notified =
      let a := (db.about A key r).stepRequest p2pmac event
      if A.reclaims && a.reclaimable then [(a.value, .lv)] else [] := by
  have hfound : (fun a : Attribute ν => A.lookup r.value a.value) =
      fun a => decide (key a.value = key r.value) := funext fun a => hA.lookup _ _
  obtain ⟨_, hentry⟩ := entry_merged hA hu r
  have hfind : (updateFirst (fun a => decide (key a.value = key r.value))
      (Attribute.stepRequest p2pmac event) (db.merged A r)).find?
        (fun a => decide (key a.value = key r.value)) =
      some ((db.about A key r).stepRequest p2pmac event) := by
    refine (entry_updateFirst fun a ha => (congrArg key (value_stepRequest a)).trans ha).trans ?_
    rw [if_pos rfl, hentry, if_pos rfl]
    rfl
  simp only [Database.attribute, hi, if_true, hfound, hfind, Option.filter_some]
  split <;> rfl

theorem honest_attribute (hA : A.Keyed key) (hu : db.Unique key) (hq : db.Quiet)
    (hmerge : ∀ l r (a : Attribute ν), (A.merge l r a).registrar.mrpState = .inState →
      a.registrar.mrpState = .inState)
    (he : event ∈ attributeEvents) (hfresh : r.registrar.mrpState ≠ .inState) :
    (db.attribute A p2pmac event r).Honest key k db := by
  by_cases hi : A.interested db.attribList r.value = true
  case neg =>
    have hidle : db.attribute A p2pmac event r = { db := db } := by
      exact if_neg hi
    rw [hidle]
    exact honest_same hq rfl rfl
  have hentry : (db.attribute A p2pmac event r).db.entry key k = _ :=
    (entry_attribute hA hu r hi).2 k
  have hnotified : (db.attribute A p2pmac event r).notified = _ := notified_attribute hA hu r hi
  by_cases hk : k = key r.value
  · subst hk
    rw [if_pos rfl] at hentry
    have hnext : attributeNext A p2pmac event r db.attribList (db.entry key (key r.value)) =
        if A.reclaims && ((db.about A key r).stepRequest p2pmac event).reclaimable then none
        else some ((db.about A key r).stepRequest p2pmac event) := rfl
    rw [hnext] at hentry
    simp only at hnotified
    have hkey : key ((db.about A key r).stepRequest p2pmac event).value = key r.value := by
      rw [value_stepRequest, key_about hA]
    split at hnotified
    case isTrue hrec =>
      rw [if_pos hrec] at hentry
      refine ⟨fun r' hr' => ?_, fun _ => .inl ?_⟩
      · rw [Database.registrar, hentry] at hr'
        cases hr'
      · rw [hnotified, lastNotified, if_pos hkey]
        rfl
    case isFalse hrec =>
      rw [if_neg hrec] at hentry
      refine ⟨fun r' hr' => ⟨by rw [hnotified]; rfl, ?_⟩, fun hr' => ?_⟩
      · rw [Database.registrar, hentry, Option.map_some] at hr'
        obtain rfl := Option.some.inj hr'
        rw [registrar_stepRequest]
        intro hin
        refine (announces_request he (db.about A key r).registrar hin).imp_right
          (Or.imp_right (And.imp_right fun hwas => ?_))
        replace hwas : (db.about A key r).registrar.mrpState = .inState := Option.some.inj hwas
        unfold Database.about at hwas
        cases hold : db.entry key (key r.value) with
        | none =>
          rw [hold] at hwas
          exact absurd hwas hfresh
        | some a =>
          rw [hold] at hwas
          simp [Database.registrarState, Database.registrar, hold, hmerge _ r a hwas]
      · rw [Database.registrar, hentry] at hr'
        cases hr'
  · rw [if_neg hk] at hentry
    have hreg : (db.attribute A p2pmac event r).db.registrar key k = db.registrar key k := by
      unfold Database.registrar
      rw [hentry]
    have hlast : lastNotified key k (db.attribute A p2pmac event r).notified = none := by
      refine lastNotified_eq_none fun n hn hnk => ?_
      rw [hnotified] at hn
      simp only at hn
      split at hn
      · obtain rfl := mem_singleton.mp hn
        exact hk (hnk.symm.trans ((congrArg key (value_stepRequest _)).trans (key_about hA r)))
      · cases hn
    exact ⟨fun r' hr' => ⟨hlast, announces_same hq (hreg ▸ hr')⟩, fun hr' => .inr ⟨hlast, hreg ▸ hr'⟩⟩

theorem told_event [DecidableEq τ] (hA : A.Keyed key) (hreclaims : A.reclaims = true)
    (hmerge : ∀ l r (a : Attribute ν), (A.merge l r a).registrar.mrpState = .inState →
      a.registrar.mrpState = .inState) (hr : db.Resting key) (hq : db.Quiet) (hfresh : call.Fresh)
    (h : Told silent (db.registrarState key k) last) :
    Told silent ((mrpEvent A p2pmac call db).db.registrarState key k)
      ((lastNotified key k (mrpEvent A p2pmac call db).notified).or last) := by
  have hu := (hr.event hA p2pmac call).unique
  match call with
  | .lvatimer => exact (honest_lvatimer hA).told hu h
  | .tx => exact (honest_tx hA hq).told hu h
  | .lvtimer => exact (honest_lvtimer hr.unique hreclaims).told hu h
  | .periodic => exact (honest_periodic hq).told hu h
  | .rla t => exact (honest_rla hq t).told hu h
  | .attribute event r =>
    have hmt : r.registrar.mrpState ≠ .inState := by
      rw [show r.registrar.mrpState = .mtState from congrArg Prod.snd hfresh]
      decide
    rw [mrpEvent_attribute] at hu ⊢
    split at hu
    case isTrue he =>
      rw [if_pos he]
      exact (honest_attribute hA hr.unique hq hmerge he hmt).told hu h
    case isFalse he =>
      rw [if_neg he]
      exact (honest_same hq rfl rfl).told hu h

theorem quiet_event [DecidableEq τ] (A : Application τ ν) (p2pmac : Bool) (call : Call τ ν)
    (db : Database ν) : (mrpEvent A p2pmac call db).db.Quiet := by
  match call with
  | .lvatimer | .tx | .lvtimer | .periodic | .rla t => exact quiet_notify _
  | .attribute event r =>
    rw [mrpEvent_attribute]
    split <;> exact quiet_notify _

theorem told_reclaim (hr : db.Resting key) (hq : db.Quiet)
    (h : Told silent (db.registrarState key k) last) :
    Told silent ((mrpReclaim db).db.registrarState key k)
      ((lastNotified key k (mrpReclaim db).notified).or last) := by
  have hhonest : (mrpReclaim db).Honest key k db := by
    refine honest_reclaim hr.unique rfl rfl (fun a ha => ?_) Option.map_eq_none_iff.mpr
    exact announces_same hq (Option.map_eq_some_iff.mpr ⟨a, ha, rfl⟩)
  -- there is nothing left for a last loop to send
  have hsettled : (mrpReclaim db).notify.notified = (mrpReclaim db).notified := by
    refine (congrArg _ (congrArg _ (filter_eq_nil_iff.mpr ?_))).trans (append_nil _)
    rintro a ha
    simp [hq a (mem_of_mem_filter ha)]
  have hu : (mrpReclaim db).notify.db.Unique key := by
    have hreclaimed : (mrpReclaim db).db.Resting key :=
      ⟨hr.unique.sublist (filter_sublist.map _), hr.lva, hr.flag⟩
    exact hreclaimed.notify.unique
  have htold := hhonest.told hu h
  rwa [registrarState_notify, hsettled] at htold

theorem msrpMerge_in (h : (msrpMerge l r a).registrar.mrpState = .inState) :
    a.registrar.mrpState = .inState := by
  unfold msrpMerge at h
  simp only at h
  split at h
  case h_4 => exact h
  all_goals
    split at h
    · cases h
    · exact h

def MsrpConfig.silent (cfg : MsrpConfig) : MsrpKey → Bool
  | .talker _ => cfg.enablePruning
  | _ => false

structure Served.Honest (cfg : MsrpConfig) (o : Served) : Prop where
  resting : o.daemon.db.Resting msrpKey
  quiet : o.daemon.db.Quiet
  told : ∀ k, Told (cfg.silent k) (o.daemon.db.registrarState msrpKey k)
    (lastNotified msrpKey k o.notified)

theorem registrarState_freeTalkers {s : MsrpDaemon} (hu : s.db.Unique msrpKey) (x : Octets 8)
    (k : MsrpKey) : (s.freeTalkers x).db.registrarState msrpKey k =
      if k = .talker x then none else s.db.registrarState msrpKey k := by
  have hentry : (s.freeTalkers x).db.entry msrpKey k =
      (s.db.entry msrpKey k).filter fun a => !a.value.isTalkerOf x := entry_filter hu _
  unfold Database.registrarState Database.registrar
  rw [hentry]
  cases ha : s.db.entry msrpKey k with
  | none => split <;> rfl
  | some a =>
    have hk : msrpKey a.value = k := by simpa using find?_some ha
    subst hk
    cases hv : a.value with
    | talker failed t =>
      by_cases hx : t.streamID = x <;> simp [MsrpValue.isTalkerOf, msrpKey, hv, hx]
    | listener | domain => simp [MsrpValue.isTalkerOf, msrpKey, hv]

theorem Served.Honest.log {cfg : MsrpConfig} {o : Served} (h : o.Honest cfg) (i : MsrpInput) :
    (cfg.log o i).Honest cfg := by
  apply log_preserves ?_ ?_ ?_ ?_ h
  · rintro o call hmakes h
    refine ⟨h.resting.event (msrp_keyed _ _) cfg.p2pmac call, quiet_event _ _ _ _, fun k => ?_⟩
    show Told _ _ (lastNotified msrpKey k (o.notified ++ _))
    rw [lastNotified_append]
    exact told_event (msrp_keyed _ _) rfl (fun _ _ _ => msrpMerge_in) h.resting h.quiet
      hmakes.fresh (h.told k)
  · rintro - o h
    refine ⟨⟨h.resting.unique.sublist (filter_sublist.map _), h.resting.lva, h.resting.flag⟩,
      fun a ha => h.quiet a (mem_of_mem_filter ha), fun k => ?_⟩
    show Told _ _ (lastNotified msrpKey k (o.notified ++ _))
    rw [lastNotified_append]
    exact told_reclaim h.resting h.quiet (h.told k)
  · rintro hprune o x h
    refine ⟨⟨h.resting.unique.sublist (filter_sublist.map _), h.resting.lva, h.resting.flag⟩,
      fun a ha => h.quiet a (mem_of_mem_filter ha), fun k => ?_⟩
    rw [registrarState_freeTalkers h.resting.unique]
    split
    case isTrue hk =>
      rw [hk]
      exact .inl hprune
    case isFalse => exact h.told k
  · rintro o ids h
    exact ⟨h.resting, h.quiet, h.told⟩

end

/-! ## Runs of the MVRP and MMRP databases -/

open List

variable {τ κ ν π : Type} [DecidableEq τ] [DecidableEq κ] {key : ν → κ}

/-- The LeaveAll timer expires only when no applicant has to repeat a message. -/
def DbMove.Settled (db : Database ν) : DbMove π τ ν → Prop
  | .event _ ⟨.lvatimer, _⟩ => ∀ s ∈ db.applicantStates, s.settled = true
  | _ => True

theorem armed_dbMove_iff {app : π → Application τ ν} (happ : ∀ param, (app param).Keyed key)
    (htimer : ∀ param db,
      ((app param).txpdu db).1.mrpDb.joinTimerRunning = db.mrpDb.joinTimerRunning)
    {db : Database ν} (h : db.Armed) (p2pmac : Bool) (move : DbMove π τ ν) :
    (dbMove app p2pmac db move).Armed ↔ move.Settled db := by
  match move with
  | .event param ⟨.lvatimer, _⟩ =>
    exact armed_notify.trans (armed_lvatimer (happ param) (htimer param) p2pmac db)
  | .event param ⟨.tx, _⟩ | .event param ⟨.lvtimer, _⟩ | .event param ⟨.periodic, _⟩
  | .event param ⟨.rla _, _⟩ | .event param ⟨.attribute _ _, _⟩ =>
    exact iff_of_true (h.event (happ param) p2pmac nofun) trivial
  | .free cond => exact iff_of_true (h.mono (map_subset _ (filter_subset_self _)) id) trivial

/-- A message that must be sent has the join timer running in exactly the runs in which the
LeaveAll timer expires only then. -/
theorem mvrp_mmrp_joinTimer_armed_iff (station : Octets 6) (p2pmac : Bool) :
    (∀ moves, Always (dbMove (fun _ : Unit => mvrpApplication station) p2pmac) Database.Armed
        emptyDatabase moves ↔
      Each (dbMove (fun _ : Unit => mvrpApplication station) p2pmac) DbMove.Settled emptyDatabase
        moves) ∧
    ∀ moves, Always (dbMove (mmrpApplication station) p2pmac) Database.Armed emptyDatabase moves ↔
      Each (dbMove (mmrpApplication station) p2pmac) DbMove.Settled emptyDatabase moves := by
  constructor
  · intro moves
    refine always_iff_each (I := fun _ => True) (fun _ _ _ => trivial) (fun _ move _ h => ?_) trivial
      nofun
    exact armed_dbMove_iff (fun _ => mvrp_keyed station) (fun _ _ => rfl) h p2pmac move
  · intro moves
    refine always_iff_each (I := fun _ => True) (fun _ _ _ => trivial) (fun _ move _ h => ?_) trivial
      nofun
    exact armed_dbMove_iff (mmrp_keyed station) (fun _ _ => rfl) h p2pmac move

theorem mvrpOk_empty : MvrpOk emptyDatabase := ⟨.nil, rfl, rfl⟩

/-- What an input of the daemon is to the machine of a VID. -/
def vidStep (cfg : DbConfig Unit UInt16) (v : UInt16) (x : Option States) :
    DbInput UInt16 → Option States
  | .reclaim => x.filter fun y => !y.reclaimable
  | i => (cfg.calls i).foldl (fun x call => vidNext cfg.p2pmac v call x) x

theorem mvrp_calls_regular {cfg : DbConfig Unit UInt16} {i : DbInput UInt16}
    (h : call ∈ cfg.calls i) : call.Regular := by
  cases i with
  | reclaim => cases h
  | lvatimer | lvtimer | tx | periodic =>
    obtain rfl := mem_singleton.mp h
    trivial
  | command c =>
    match c with
    | .dumptable => cases h
    | .leave _ | .joinOrNew true _ | .joinOrNew false _ =>
      obtain rfl := mem_singleton.mp h
      exact ⟨rfl, by decide⟩
  | receive data rest =>
    obtain ⟨r, hr, rfl⟩ := mem_map.mp h
    obtain ⟨p, -, hr⟩ := mem_flatMap.mp hr
    rcases mem_append.mp hr with hlva | hevent
    · split at hlva
      · obtain rfl := mem_singleton.mp hlva
        trivial
      · cases hlva
    · obtain ⟨e, -, rfl⟩ := mem_map.mp hevent
      exact ⟨rfl, by cases e.event <;> decide⟩

theorem MvrpOk.step {db : Database UInt16} (h : MvrpOk db) (station : Octets 6) (p2pmac : Bool)
    (v : UInt16) (i : DbInput UInt16) : MvrpOk ((mvrpConfig station p2pmac).step db i) ∧
      vidStates ((mvrpConfig station p2pmac).step db i) v =
        vidStep (mvrpConfig station p2pmac) v (vidStates db v) i := by
  have hcalls : ∀ calls : List (Call Unit UInt16), (∀ call ∈ calls, call.Regular) →
      MvrpOk (calls.foldl (mvrpConfig station p2pmac).event db) ∧
        vidStates (calls.foldl (mvrpConfig station p2pmac).event db) v =
          calls.foldl (fun x call => vidNext p2pmac v call x) (vidStates db v) := by
    intro calls hregular
    induction calls generalizing db with
    | nil => exact ⟨h, rfl⟩
    | cons call calls ih =>
      obtain ⟨hcall, hregular⟩ := forall_mem_cons.mp hregular
      have hok : MvrpOk ((mvrpConfig station p2pmac).event db call) := h.event station call
      have hstates : vidStates ((mvrpConfig station p2pmac).event db call) v = _ :=
        vidStates_event h station call hcall
      have hnext := ih hok hregular
      rwa [hstates] at hnext
  cases i with
  | reclaim => exact ⟨h.reclaim, vidStates_reclaim h.sorted rfl⟩
  | command | receive | lvatimer | lvtimer | tx | periodic =>
    exact hcalls _ fun _ hcall => mvrp_calls_regular hcall

/-- The list in memory is linked and in order, and holds the VID in the state of its machine. -/
def HoldsVid (v : UInt16) (s : LinkedDatabase UInt16) (x : Option States) : Prop :=
  ∃ db, ReadsAs s db ∧ MvrpOk db ∧ vidStates db v = x

theorem HoldsVid.step {s : LinkedDatabase UInt16} (h : HoldsVid v s x) (station : Octets 6)
    (p2pmac : Bool) (malloc : Malloc) (i : DbInput UInt16) :
    HoldsVid v ((mvrpConfig station p2pmac).linkedStep mvrpOrder malloc s i)
      (vidStep (mvrpConfig station p2pmac) v x i) := by
  obtain ⟨db, hreads, hok, rfl⟩ := h
  exact ⟨_, hreads.step (mvrp_ordered station) malloc i, hok.step station p2pmac v i⟩

/-- In every run of the daemon each VID of the list in memory goes through the states of its own
machine, whatever the others do and wherever `malloc` puts them. -/
theorem mvrp_memory_vids_apart (station : Octets 6) (p2pmac : Bool) (malloc : Malloc) (v : UInt16)
    (inputs : List (DbInput UInt16)) :
    vidStates (run ((mvrpConfig station p2pmac).linkedStep mvrpOrder malloc) emptyLinkedDatabase
        inputs).read v = run (vidStep (mvrpConfig station p2pmac) v) none inputs := by
  have hempty : HoldsVid v emptyLinkedDatabase none :=
    ⟨emptyDatabase, ⟨rfl, rfl, Linked.keeps_empty⟩, mvrpOk_empty, rfl⟩
  obtain ⟨db, hreads, -, hstates⟩ :=
    run_related (fun _ _ i h => h.step station p2pmac malloc i) hempty inputs
  rw [hreads.read, hstates]

/-- An event of the MVRP database or, with `none`, a reclaim pass. -/
def mvrpMove (station : Octets 6) (p2pmac : Bool) (db : Database UInt16) :
    Option { call : Call Unit UInt16 // call.Regular } → Outcome UInt16
  | none => mrpReclaim db
  | some call => mvrpEvent station p2pmac call.val db

theorem MvrpOk.move {db : Database UInt16} (h : MvrpOk db) (station : Octets 6) (p2pmac : Bool)
    (move) : MvrpOk (mvrpMove station p2pmac db move).db := by
  cases move with
  | none => exact h.reclaim
  | some call => exact h.event station call.val

/-- The database after a move, and all that the clients have been told. -/
def mvrpLog (station : Octets 6) (p2pmac : Bool) (o : Outcome UInt16)
    (move : Option { call : Call Unit UInt16 // call.Regular }) : Outcome UInt16 :=
  let next := mvrpMove station p2pmac o.db move
  { next with notified := o.notified ++ next.notified }

structure Outcome.Logged (o : Outcome UInt16) : Prop where
  ok : MvrpOk o.db
  quiet : o.db.Quiet
  told : ∀ v, Told false (o.db.registrarState id v) (lastNotified id v o.notified)

theorem Outcome.Logged.log {o : Outcome UInt16} (h : o.Logged) (station : Octets 6) (p2pmac : Bool)
    (move) : (mvrpLog station p2pmac o move).Logged := by
  have hrest : o.db.Resting id := ⟨h.ok.sorted.unique, h.ok.lva, h.ok.flag⟩
  refine ⟨h.ok.move station p2pmac move, ?_, fun v => ?_⟩
  · cases move with
    | none => exact fun a ha => h.quiet a (mem_of_mem_filter ha)
    | some call => exact quiet_event _ _ _ _
  · show Told _ _ (lastNotified id v (o.notified ++ _))
    rw [lastNotified_append]
    cases move with
    | none => exact told_reclaim hrest h.quiet (h.told v)
    | some call =>
      refine told_event (mvrp_keyed station) rfl (fun _ _ _ => id) hrest h.quiet ?_ (h.told v)
      match call with
      | ⟨.attribute _ _, hcall⟩ => exact hcall.1
      | ⟨.tx, _⟩ | ⟨.lvatimer, _⟩ | ⟨.lvtimer, _⟩ | ⟨.periodic, _⟩ | ⟨.rla _, _⟩ => trivial

end OpenAvb.Mrpd
