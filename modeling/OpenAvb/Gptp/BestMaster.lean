import OpenAvb.Gptp.Clock

/-!
# The choice of the best master

Both loops of `STATE_CHANGE_EVENT` go over the port list without ever moving
behind the first port that they find there. What the other ports have received
does not count, and nobody tells them anything.
-/

namespace OpenAvb.Gptp

open List

theorem memcmp_lt_iff (hlen : xs.length = ys.length) :
    memcmp xs ys = .lt ↔ number xs < number ys := by
  rw [number_lt_iff hlen]
  induction xs generalizing ys with
  | nil =>
    obtain rfl := length_eq_zero_iff.mp hlen.symm
    simp [memcmp]
  | cons x xs ih =>
    cases ys with
    | nil => cases hlen
    | cons y ys =>
      rw [memcmp, cons_lt_cons_iff, ← ih (Nat.succ.inj hlen)]
      rcases lt_trichotomy x.toNat y.toNat with h | h | h
      · simp [UInt8.lt_iff_toNat_lt, h]
      · simp [UInt8.toNat_inj.mp h]
      · have hne : x ≠ y := fun heq => lt_irrefl _ (heq ▸ h)
        simp [UInt8.lt_iff_toNat_lt, h, Nat.lt_asymm h, hne]

@[simp] theorem length_priorityVector (identity : ClockIdentity) :
    (priorityVector p1 q p2 identity).length = 14 := by
  simp [priorityVector, ClockQuality.octets, identity.property]

theorem announce_isBetterThan_iff (a b : Announce) :
    a.isBetterThan b = true ↔ number a.vector < number b.vector := by
  unfold Announce.isBetterThan
  rw [decide_eq_true_iff]
  exact memcmp_lt_iff (by simp [Announce.vector])

theorem clock_isBetterThan_iff (c : Clock) (a : Announce) :
    c.isBetterThan a = true ↔ number c.vector < number a.vector := by
  unfold Clock.isBetterThan
  rw [decide_eq_true_iff]
  exact memcmp_lt_iff (by simp [Clock.vector, Announce.vector])

namespace Clock

variable {c : Clock} {p : Port}

theorem cursor_of_port (h : c.port j = some p) : c.cursor j = some j := by
  have hget : c.portList[j]? = some (some p) := Option.join_eq_some_iff.mp h
  obtain ⟨hlt, hj⟩ := List.getElem?_eq_some_iff.mp hget
  unfold cursor
  rw [drop_eq_getElem_cons hlt, hj, findIdx?_cons]
  rfl

theorem port_of_cursor (h : c.cursor j = some f) : ∃ p, c.port f = some p := by
  obtain ⟨i, hi, rfl⟩ := Option.map_eq_some_iff.mp h
  obtain ⟨hlt, hsome, -⟩ := findIdx?_eq_some_iff_getElem.mp hi
  obtain ⟨p, hp⟩ := Option.isSome_iff_exists.mp hsome
  have hget : (c.portList.drop j)[i]? = some (some p) := by rw [getElem?_eq_getElem hlt, hp]
  rw [getElem?_drop] at hget
  exact ⟨p, Option.join_eq_some_iff.mpr hget⟩

theorem exists_cursor (h : c.port j = some p) : ∃ f, c.cursor 0 = some f := by
  have hget : c.portList[j]? = some (some p) := Option.join_eq_some_iff.mp h
  unfold cursor
  cases hfind : (c.portList.drop 0).findIdx? Option.isSome with
  | none =>
    have hnone := findIdx?_eq_none_iff.mp hfind (some p)
      (mem_of_getElem? hget)
    cases hnone
  | some i => exact ⟨_, rfl⟩

def firstBest (p : Port) (f : Nat) : Option Nat :=
  if p.Enabled then p.qualifiedAnnounce.map fun _ => f else none

theorem bestTurn_first (hf : c.cursor j = some f) (hp : c.port f = some p) :
    c.bestTurn (j, none) = some (f, firstBest p f) := by
  unfold bestTurn firstBest
  by_cases henabled : p.Enabled
  · simp [hf, hp, henabled]
  · simp [hf, hp, henabled]

theorem bestTurn_again (hp : c.port f = some p) :
    c.bestTurn (f, firstBest p f) = some (f, firstBest p f) := by
  have hf := cursor_of_port hp
  cases hbest : firstBest p f with
  | none => rw [bestTurn_first hf hp, hbest]
  | some k =>
    unfold firstBest at hbest
    split at hbest
    case isTrue henabled =>
      obtain ⟨a, ha, rfl⟩ := Option.map_eq_some_iff.mp hbest
      have her : c.erBest f = some a := by simp [erBest, hp, ha]
      unfold bestTurn
      simp [hf, hp, henabled, ha, her]
    case isFalse => cases hbest

end Clock

theorem loop_fixed {f : σ → Option σ} (h : f s = some s') (hfix : f s' = some s') (n : Nat) :
    loop f (n + 1) s = some s' := by
  have hstay : ∀ n, loop f n s' = some s' := by
    intro n
    induction n with
    | zero => rfl
    | succ n ih => rw [loop, hfix, Option.bind_some, ih]
  rw [loop, h, Option.bind_some, hstay]

namespace Clock

variable {c : Clock} {p : Port}

theorem eBest_eq (hf : c.cursor 0 = some f) (hp : c.port f = some p) (hn : 0 < c.numberPorts) :
    c.eBest = some (firstBest p f) := by
  obtain ⟨n, hn⟩ := Nat.exists_eq_succ_of_ne_zero (Nat.ne_of_gt hn)
  unfold eBest
  rw [hn, loop_fixed (bestTurn_first hf hp) (bestTurn_again hp)]
  rfl

theorem port_setPort (h : c.port j = some p) (p' : Port) : (c.setPort j p').port j = some p' := by
  have hget : c.portList[j]? = some (some p) := Option.join_eq_some_iff.mp h
  obtain ⟨hlt, -⟩ := List.getElem?_eq_some_iff.mp hget
  unfold setPort port
  rw [getElem?_set_self hlt]
  rfl

def Holds (c : Clock) (j : Nat) (a : Announce) : Prop :=
  ∃ p, c.port j = some p ∧ p.Enabled ∧ p.qualifiedAnnounce = some a

theorem Holds.erBest (h : c.Holds j a) : c.erBest j = some a := by
  obtain ⟨p, hp, -, ha⟩ := h
  unfold Clock.erBest
  rw [hp]
  exact ha

theorem Holds.recommendState (h : c.Holds j a) (hp : c.port j = some p) (state : PortState) :
    (c.recommendState j p state).Holds j a := by
  obtain ⟨q, hq, henabled, ha⟩ := h
  obtain rfl : p = q := Option.some.inj (hp.symm.trans hq)
  fun_cases Clock.recommendState
  case case1 => exact ⟨{ p with portState := .master }, port_setPort hp _, ⟨nofun, nofun⟩, ha⟩
  case case3 => exact ⟨{ p with portState := .slave }, port_setPort hp _, ⟨nofun, nofun⟩, ha⟩
  all_goals exact ⟨p, hp, henabled, ha⟩

theorem recommendState_slave_vector (c : Clock) (j : Nat) (p : Port) :
    (c.recommendState j p .slave).vector = c.vector := by
  unfold recommendState
  simp only
  split <;> rfl

end Clock

namespace Turn

variable {t : Turn}

theorem next_eq (hj : t.clock.cursor t.j = some f) (hf : t.clock.Holds f a) (hbest : t.best = some f)
    (hp : t.clock.port f = some p) : t.next changed = some
      (if t.clock.isBetterThan a then { t.recommend f p .master changed with best := none }
      else { t.recommend f p .slave changed with
        clock.grandmasterClockIdentity := a.grandmasterIdentity }) := by
  have her := hf.erBest
  obtain ⟨q, hq, henabled, ha⟩ := hf
  obtain rfl : p = q := Option.some.inj (hp.symm.trans hq)
  unfold next
  simp only [hj, hp, henabled, hbest, her, Option.bind_eq_bind, Option.bind_some, not_true_eq_false,
    if_false, if_true]
  split
  · rfl
  · rfl

theorem next_none (hj : t.clock.cursor t.j = some f) (hp : t.clock.port f = some p)
    (hbest : t.best = none) : t.next changed = some { t with j := f } := by
  unfold next
  simp [hj, hp, hbest]

section

variable (n : Nat) (hj : t.clock.cursor t.j = some f) (hf : t.clock.Holds f a)
  (hbest : t.best = some f)
include n hj hf hbest

theorem loop_slave (hbetter : t.clock.isBetterThan a = false) :
    ∃ t', loop (next changed) n t = some t' ∧
      t'.calls = t.calls ++ List.replicate n ⟨f, .slave, changed⟩ := by
  induction n generalizing t with
  | zero => exact ⟨t, rfl, by simp⟩
  | succ n ih =>
    have hf' := hf
    obtain ⟨p, hp, -⟩ := hf'
    let t₁ : Turn := { t.recommend f p .slave changed with
      clock.grandmasterClockIdentity := a.grandmasterIdentity }
    have hnext : t.next changed = some t₁ := by
      rw [next_eq hj hf hbest hp, if_neg (by rw [hbetter]; nofun)]
    have hheld : t₁.clock.Holds f a := hf.recommendState hp .slave
    have hcursor : t₁.clock.cursor t₁.j = some f := by
      obtain ⟨q, hq, -⟩ := hheld
      exact Clock.cursor_of_port hq
    have hworse : t₁.clock.isBetterThan a = false := by
      rw [← hbetter]
      unfold Clock.isBetterThan
      rw [← Clock.recommendState_slave_vector t.clock f p]
      rfl
    obtain ⟨t', hloop, hcalls⟩ := ih hcursor hheld hbest hworse
    refine ⟨t', ?_, ?_⟩
    · rw [loop, hnext]
      exact hloop
    · rw [hcalls, replicate_succ, append_cons]
      rfl

theorem loop_master (hbetter : t.clock.isBetterThan a = true) :
    ∃ t', loop (next changed) (n + 1) t = some t' ∧
      t'.calls = t.calls ++ [⟨f, .master, changed⟩] := by
  have hf' := hf
  obtain ⟨p, hp, -⟩ := hf'
  have hheld := hf.recommendState hp .master
  obtain ⟨q, hq, -⟩ := hheld
  let t₁ : Turn := { t.recommend f p .master changed with best := none }
  have hnext : t.next changed = some t₁ := by rw [next_eq hj hf hbest hp, if_pos hbetter]
  have hfixed : t₁.next changed = some t₁ := next_none (Clock.cursor_of_port hq) hq rfl
  exact ⟨t₁, loop_fixed hnext hfixed n, rfl⟩

end

end Turn

namespace Clock

variable {c : Clock} {p : Port}

theorem noteBest_portList (c : Clock) (a : Announce) : (c.noteBest a).portList = c.portList := by
  unfold noteBest
  simp only
  split <;> rfl

theorem noteBest_cursor : (c.noteBest a).cursor j = c.cursor j := by
  unfold cursor
  rw [noteBest_portList]

theorem noteBest_port : (c.noteBest a).port j = c.port j := by
  unfold port
  rw [noteBest_portList]

theorem noteBest_holds : (c.noteBest a).Holds j b ↔ c.Holds j b := by
  unfold Holds
  rw [noteBest_port]

theorem noteBest_isBetterThan : (c.noteBest a).isBetterThan b = c.isBetterThan b := by
  unfold noteBest
  simp only
  split <;> rfl

theorem Holds.firstBest (h : c.Holds f a) (hp : c.port f = some p) :
    Clock.firstBest p f = some f := by
  obtain ⟨q, hq, henabled, ha⟩ := h
  obtain rfl : p = q := Option.some.inj (hp.symm.trans hq)
  unfold Clock.firstBest
  rw [if_pos henabled, ha]
  rfl

theorem holds_of_firstBest (hp : c.port f = some p) (h : Clock.firstBest p f = some k) :
    ∃ a, c.Holds f a := by
  unfold Clock.firstBest at h
  split at h
  case isTrue henabled =>
    obtain ⟨a, ha, -⟩ := Option.map_eq_some_iff.mp h
    exact ⟨a, p, hp, henabled, ha⟩
  case isFalse => cases h

section
variable (hf : c.cursor 0 = some f) (hp : c.port f = some p) (hn : 0 < c.numberPorts)
  (hprio : c.priority1 ≠ 255)

include hf hp hn in
theorem stateChange_quiet (hbest : firstBest p f = none) : c.stateChange true = some (c, []) := by
  unfold stateChange
  split
  · rfl
  · rw [eBest_eq hf hp hn, hbest]
    rfl

include hf hp hn hprio in
theorem stateChange_eq_loop (h : c.Holds f a) :
    ∃ changed, c.stateChange true = (loop (Turn.next changed) c.numberPorts
      ⟨c.noteBest a, 0, some f, []⟩).map fun t => (t.clock, t.calls) := by
  refine ⟨decide (a.grandmasterIdentity ≠ c.lastEBestIdentity), ?_⟩
  unfold stateChange
  rw [if_neg (by simp [hprio]), eBest_eq hf hp hn, h.firstBest hp]
  show (c.erBest f).bind _ = _
  rw [h.erBest]
  exact Option.map_eq_bind.symm

include hf hp hn hprio in
theorem stateChange_loop {calls : Bool → List Recommendation} (h : c.Holds f a)
    (hloop : ∀ changed (t : Turn), t.clock.cursor t.j = some f → t.clock.Holds f a →
      t.best = some f → t.clock.isBetterThan a = c.isBetterThan a →
      ∃ t', loop (Turn.next changed) c.numberPorts t = some t' ∧
        t'.calls = t.calls ++ calls changed) :
    ∃ c' changed, c.stateChange true = some (c', calls changed) := by
  obtain ⟨changed, hchange⟩ := stateChange_eq_loop hf hp hn hprio h
  obtain ⟨t', hloop, hcalls⟩ := hloop changed ⟨c.noteBest a, 0, some f, []⟩
    (noteBest_cursor.trans hf) (noteBest_holds.mpr h) rfl noteBest_isBetterThan
  exact ⟨t'.clock, changed, by rw [hchange, hloop, Option.map_some, hcalls]; rfl⟩

include hf hp hn hprio in
theorem stateChange_slave (h : c.Holds f a) (hbetter : c.isBetterThan a = false) :
    ∃ c' changed, c.stateChange true =
      some (c', List.replicate c.numberPorts ⟨f, .slave, changed⟩) := by
  refine stateChange_loop hf hp hn hprio h fun changed t hj hheld hbest hsame => ?_
  exact Turn.loop_slave _ hj hheld hbest (hsame.trans hbetter)

include hf hp hn hprio in
theorem stateChange_master (h : c.Holds f a) (hbetter : c.isBetterThan a = true) :
    ∃ c' changed, c.stateChange true = some (c', [⟨f, .master, changed⟩]) := by
  obtain ⟨n, hn'⟩ := Nat.exists_eq_succ_of_ne_zero (Nat.ne_of_gt hn)
  refine stateChange_loop hf hp hn hprio h fun changed t hj hheld hbest hsame => ?_
  rw [hn']
  exact Turn.loop_master n hj hheld hbest (hsame.trans hbetter)

end

theorem stateChange_one (hp : c.port 0 = some p) (hn : c.numberPorts = 1)
    (hprio : c.priority1 ≠ 255) : ∃ c' calls, c.stateChange true = some (c', calls) ∧
      (c' = c ∨ ∃ a, p.qualifiedAnnounce = some a ∧
        (c.isBetterThan a = true ∧ c' = (c.noteBest a).recommendState 0 p .master ∨
          c.isBetterThan a = false ∧ c' = { (c.noteBest a).recommendState 0 p .slave with
            grandmasterClockIdentity := a.grandmasterIdentity })) := by
  have hf := cursor_of_port hp
  have hpos : 0 < c.numberPorts := by omega
  cases hbest : firstBest p 0 with
  | none => exact ⟨c, [], stateChange_quiet hf hp hpos hbest, .inl rfl⟩
  | some k =>
    obtain ⟨a, hheld⟩ := holds_of_firstBest hp hbest
    have ha : p.qualifiedAnnounce = some a := by
      rw [← hheld.erBest, erBest, hp]
      rfl
    obtain ⟨changed, hchange⟩ := stateChange_eq_loop hf hp hpos hprio hheld
    have hnext : Turn.next changed ⟨c.noteBest a, 0, some 0, []⟩ = _ :=
      Turn.next_eq (noteBest_cursor.trans hf) (noteBest_holds.mpr hheld) rfl
        (noteBest_port.trans hp)
    rw [hn, loop, hnext, noteBest_isBetterThan] at hchange
    cases hbetter : c.isBetterThan a with
    | true =>
      rw [hbetter, if_pos rfl] at hchange
      exact ⟨_, _, hchange, .inr ⟨a, ha, .inl ⟨hbetter, rfl⟩⟩⟩
    | false =>
      rw [hbetter, if_neg nofun] at hchange
      exact ⟨_, _, hchange, .inr ⟨a, ha, .inr ⟨hbetter, rfl⟩⟩⟩

def Enabled (c : Clock) (j : Nat) : Prop := ∃ p, c.port j = some p ∧ p.Enabled

/-- Just the enabled ports are told: the one with the best announce message to be slave, the rest to
be master; all to be master if the clock itself is the best. -/
def Elects (c : Clock) (calls : List Recommendation) : Prop :=
  (∀ r ∈ calls, c.Enabled r.port) ∧ (∀ j, c.Enabled j → ∃ r ∈ calls, r.port = j) ∧
    ((∀ j a, c.Holds j a → c.isBetterThan a = true) ∧ (∀ r ∈ calls, r.state = .master) ∨
      ∃ k a, c.Holds k a ∧ c.isBetterThan a = false ∧
        (∀ j b, c.Holds j b → j ≠ k → a.isBetterThan b = true) ∧
        ∀ r ∈ calls, r.state = if r.port = k then .slave else .master)

/-- A state change tells the ports what the best announce message says, if there is one. -/
def ElectsBest (c : Clock) : Prop :=
  (∃ j a, c.Holds j a) → ∃ c' calls, c.stateChange true = some (c', calls) ∧ c.Elects calls

def Registered (c : Clock) : Prop := c.numberPorts = c.portList.countP Option.isSome

theorem Registered.registerPort (h : c.Registered) (hlen : c.portList.length = maxPorts)
    (hfree : c.port (index - 1) = none) (hpos : 0 < index) (hmax : index < maxPorts) (p : Port) :
    (c.registerPort p index).Registered := by
  have hlt : index - 1 < c.portList.length := by
    rw [hlen]
    omega
  have hnone : c.portList[index - 1] = none := by
    unfold port at hfree
    rw [getElem?_eq_getElem hlt] at hfree
    exact hfree
  unfold Registered Clock.registerPort at *
  rw [if_neg (by omega), if_pos hmax]
  rw [h, countP_set hlt, hnone]
  rfl

theorem Registered.pos (h : c.Registered) (hp : c.port j = some p) : 0 < c.numberPorts := by
  rw [h, countP_pos_iff]
  exact ⟨some p, mem_of_getElem? (Option.join_eq_some_iff.mp hp), rfl⟩

theorem Holds.enabled (h : c.Holds j a) : c.Enabled j := by
  obtain ⟨p, hp, henabled, -⟩ := h
  exact ⟨p, hp, henabled⟩

theorem Holds.unique (h : c.Holds j a) (h' : c.Holds j b) : a = b :=
  Option.some.inj (h.erBest.symm.trans h'.erBest)

theorem electsBest_of_first (hreg : c.Registered) (hprio : c.priority1 ≠ 255)
    (hfirst : ∀ j, c.Enabled j → c.cursor 0 = some j) : c.ElectsBest := by
  rintro ⟨f, a, hheld⟩
  have hf := hfirst f hheld.enabled
  obtain ⟨p, hp⟩ := port_of_cursor hf
  have hn := hreg.pos hp
  have honly : ∀ j, c.Enabled j → j = f := fun j hj =>
    Option.some.inj ((hfirst j hj).symm.trans hf)
  obtain ⟨n, hn'⟩ := Nat.exists_eq_succ_of_ne_zero (Nat.ne_of_gt hn)
  cases hbetter : c.isBetterThan a with
  | true =>
    obtain ⟨c', changed, hcalls⟩ := stateChange_master hf hp hn hprio hheld hbetter
    refine ⟨c', _, hcalls, ?_, ?_, .inl ⟨?_, ?_⟩⟩
    · exact forall_mem_singleton.mpr hheld.enabled
    · rintro j hj
      exact ⟨_, mem_singleton_self _, (honly j hj).symm⟩
    · rintro j b hb
      obtain rfl := honly j hb.enabled
      obtain rfl := hheld.unique hb
      exact hbetter
    · exact forall_mem_singleton.mpr rfl
  | false =>
    obtain ⟨c', changed, hcalls⟩ := stateChange_slave hf hp hn hprio hheld hbetter
    refine ⟨c', _, hcalls, ?_, ?_, .inr ⟨f, a, hheld, hbetter, ?_, ?_⟩⟩
    · rintro r hr
      obtain rfl := eq_of_mem_replicate hr
      exact hheld.enabled
    · rintro j hj
      rw [hn', replicate_succ]
      exact ⟨_, mem_cons_self, (honly j hj).symm⟩
    · rintro j b hb hne
      exact absurd (honly j hb.enabled) hne
    · rintro r hr
      obtain rfl := eq_of_mem_replicate hr
      exact (if_pos rfl).symm

theorem calls_first (hreg : c.Registered) (hprio : c.priority1 ≠ 255) (hf : c.cursor 0 = some f)
    (h : c.stateChange true = some (c', calls)) : ∀ r ∈ calls, r.port = f := by
  obtain ⟨p, hp⟩ := port_of_cursor hf
  have hn := hreg.pos hp
  cases hbest : firstBest p f with
  | none =>
    rw [stateChange_quiet hf hp hn hbest] at h
    cases h
    nofun
  | some k =>
    obtain ⟨a, hheld⟩ := holds_of_firstBest hp hbest
    cases hbetter : c.isBetterThan a with
    | true =>
      obtain ⟨_, changed, hcalls⟩ := stateChange_master hf hp hn hprio hheld hbetter
      rw [hcalls] at h
      cases h
      exact forall_mem_singleton.mpr rfl
    | false =>
      obtain ⟨_, changed, hcalls⟩ := stateChange_slave hf hp hn hprio hheld hbetter
      rw [hcalls] at h
      cases h
      rintro r hr
      rw [eq_of_mem_replicate hr]

end Clock

/-- Both comparisons are one total order, the priority vectors as numbers. The ports are told what
the best announce message says if and only if there is none, or the first port of the list is the
only one that is enabled. -/
theorem stateChange_electsBest_iff (c : Clock) (hreg : c.Registered) (hprio : c.priority1 ≠ 255) :
    (∀ a b : Announce, a.isBetterThan b = true ↔ number a.vector < number b.vector) ∧
      (∀ a : Announce, c.isBetterThan a = true ↔ number c.vector < number a.vector) ∧
      (c.ElectsBest ↔ (∀ j a, ¬ c.Holds j a) ∨ ∀ j, c.Enabled j → c.cursor 0 = some j) := by
  refine ⟨announce_isBetterThan_iff, clock_isBetterThan_iff c, ?_, ?_⟩
  · intro h
    by_cases hnone : ∃ j a, c.Holds j a
    · refine .inr fun j hj => ?_
      obtain ⟨c', calls, hcalls, -, htold, -⟩ := h hnone
      obtain ⟨r, hr, rfl⟩ := htold j hj
      obtain ⟨p, hp, -⟩ := hj
      obtain ⟨f, hf⟩ := Clock.exists_cursor hp
      rw [Clock.calls_first hreg hprio hf hcalls r hr]
      exact hf
    · exact .inl fun j a hheld => hnone ⟨j, a, hheld⟩
  · rintro (hnone | hfirst)
    · rintro ⟨j, a, hheld⟩
      exact absurd hheld (hnone j a)
    · exact Clock.electsBest_of_first hreg hprio hfirst

def sampleAnnounce (priority1 : UInt8) : Announce where
  currentUtcOffset := 0
  grandmasterPriority1 := priority1
  grandmasterClockQuality := ⟨248, 254, 16640⟩
  grandmasterPriority2 := 248
  grandmasterIdentity := ⟨[0, 1, 2, 255, 254, 3, 4, priority1], rfl⟩
  stepsRemoved := 0
  timeSource := 160
  pathTrace := []

def samplePortWith (announce : Option Announce) : Port where
  portState := .initializing
  bmca := true
  qualifiedAnnounce := announce
  asCapable := true
  ifindex := 1
  announceSequenceId := 0
  logMeanAnnounceInterval := 0

def sampleClock : Clock where
  clockIdentity := ⟨[0, 1, 2, 255, 254, 9, 9, 9], rfl⟩
  priority1 := 248
  clockQuality := ⟨248, 254, 16640⟩
  priority2 := 248
  domainNumber := 0
  currentUtcOffset := 0
  timeSource := 160
  grandmasterClockIdentity := .ofList 8 []
  lastEBestIdentity := ⟨[255, 255, 255, 255, 255, 255, 255, 255], rfl⟩

theorem stateChange_electsBest_one_port :
    (sampleClock.registerPort (samplePortWith (some (sampleAnnounce 100))) 1).ElectsBest := by
  have hreg : sampleClock.Registered := rfl
  refine ((stateChange_electsBest_iff _ (hreg.registerPort rfl rfl (by decide) (by decide) _)
    (by decide)).2.2).mpr (.inr ?_)
  rintro j ⟨p, hp, -⟩
  cases j with
  | zero => rfl
  | succ j =>
    have hnone : (List.replicate 31 (none : Option Port))[j]?.join = some p := hp
    rw [getElem?_replicate] at hnone
    split at hnone <;> cases hnone

/-- Two ports, the second of which has heard of a better clock than the first: it is told nothing,
and the first one becomes the slave. -/
theorem stateChange_ignores_second_port :
    let c := (sampleClock.registerPort (samplePortWith (some (sampleAnnounce 200))) 1).registerPort
      (samplePortWith (some (sampleAnnounce 100))) 2
    (c.stateChange true).map Prod.snd = some [⟨0, .slave, true⟩, ⟨0, .slave, true⟩] ∧
      c.Holds 1 (sampleAnnounce 100) ∧ ¬ c.ElectsBest := by
  intro c
  have hcalls : (c.stateChange true).map Prod.snd = some [⟨0, .slave, true⟩, ⟨0, .slave, true⟩] := by
    decide +kernel
  have hheld : c.Holds 1 (sampleAnnounce 100) := ⟨_, rfl, ⟨nofun, nofun⟩, rfl⟩
  refine ⟨hcalls, hheld, fun h => ?_⟩
  obtain ⟨c', calls, hc, -, htold, -⟩ := h ⟨1, _, hheld⟩
  obtain ⟨r, hr, hport⟩ := htold 1 hheld.enabled
  rw [hc] at hcalls
  obtain rfl := Option.some.inj hcalls
  have hfirst : ∀ r ∈ [Recommendation.mk 0 .slave true, ⟨0, .slave, true⟩], r.port ≠ 1 := by decide
  exact hfirst r hr hport

/-! ## Two stations on a link -/

inductive Side where
  | left
  | right
  deriving DecidableEq

def Side.other : Side → Side
  | .left => .right
  | .right => .left

/-- The two clocks, and the frames on their way from each of them, the oldest first. -/
structure Link where
  clock : Side → Clock
  wire : Side → List (List UInt8)

/-- State changes and receipt timeouts come at any time, an announce message when its timer expires;
`asCapable` is up to the peer delay mechanism. -/
inductive LinkInput where
  | powerup (s : Side)
  | stateChange (s : Side)
  | receiptTimeout (s : Side) (e : Event)
  | announceInterval (s : Side) (now : Timestamp)
  | setAsCapable (s : Side) (asCapable : Bool)
  | lose (s : Side) (i : Nat)
  | receive (s : Side) (rest : Mem)

def Clock.listen (c : Clock) (p : Port) (frame : List UInt8) (rest : Mem) : Clock :=
  match buildPTPMessage ⟨p.bmca, fun _ _ _ => none⟩ (recvBuffer frame rest) frame.length with
  | none => c
  | some r =>
    match r.message.body with
    | .announce a => c.processAnnounce 0 p r.message.header.sourcePortIdentity a
    | _ => c

/-- The timer that expires is no longer pending when its event is processed. -/
def Clock.announce (c : Clock) (p : Port) (now : Timestamp) : Clock × List (List UInt8) :=
  if (.announceIntervalTimeoutExpires, 0) ∈ c.timers then
    let c := { c with timers := c.timers.erase (.announceIntervalTimeoutExpires, 0) }
    let (c, messages) := c.announceInterval 0 p
    (c, messages.map fun m => (m.sendPort now).2)
  else (c, [])

namespace Link

def setClock (l : Link) (s : Side) (c : Clock) : Link :=
  { l with clock := fun s' => if s' = s then c else l.clock s' }

def setWire (l : Link) (s : Side) (frames : List (List UInt8)) : Link :=
  { l with wire := fun s' => if s' = s then frames else l.wire s' }

def onPort (l : Link) (s : Side) (f : Clock → Port → Clock) : Link :=
  match (l.clock s).port 0 with
  | none => l
  | some p => l.setClock s (f (l.clock s) p)

def step (l : Link) : LinkInput → Link
  | .powerup s => l.onPort s fun c p => c.powerup 0 p
  | .stateChange s => l.onPort s fun c p => ((c.stateChange p.bmca).map Prod.fst).getD c
  | .receiptTimeout s e => l.onPort s fun c p => c.receiptTimeout 0 p e
  | .announceInterval s now =>
    match (l.clock s).port 0 with
    | none => l
    | some p =>
      let (c, frames) := (l.clock s).announce p now
      (l.setClock s c).setWire s (l.wire s ++ frames)
  | .setAsCapable s b => l.onPort s fun c p => c.setPort 0 { p with asCapable := b }
  | .lose s i => l.setWire s ((l.wire s).eraseIdx i)
  | .receive s rest =>
    match l.wire s.other with
    | [] => l
    | frame :: frames =>
      (l.setWire s.other frames).onPort s fun c p => c.listen p frame rest

end Link

structure Clock.Starts (c : Clock) : Prop where
  prio : c.priority1 ≠ 255
  ports : c.numberPorts = 1
  timers : c.timers = []
  port : ∃ p, c.port 0 = some p ∧ p.portState = .initializing ∧ p.bmca = true ∧
    p.qualifiedAnnounce = none

/-- The port announces only as a master and only itself, is slave only of a better clock, and has
heard only of the other station. -/
structure PortOk (own others : List UInt8) (c : Clock) (p : Port) : Prop where
  bmca : p.bmca = true
  announces : ∀ t ∈ c.timers, t.1 = .announceIntervalTimeoutExpires → p.portState = .master
  master : p.portState = .master → c.grandmasterClockIdentity = c.clockIdentity
  slave : p.portState = .slave → number others ≤ number own
  heard : ∀ a, p.qualifiedAnnounce = some a → a.vector = others

structure StationOk (own others : List UInt8) (c : Clock) : Prop where
  vector : c.vector = own
  prio : c.priority1 ≠ 255
  ports : c.numberPorts = 1
  port : ∃ p, c.port 0 = some p ∧ PortOk own others c p

variable {own others : List UInt8} {c : Clock} {p : Port}

theorem Clock.Starts.ok (h : c.Starts) (others : List UInt8) : StationOk c.vector others c := by
  obtain ⟨hprio, hports, htimers, p, hp, hstate, hbmca, hnone⟩ := h
  refine ⟨rfl, hprio, hports, p, hp, hbmca, ?_, ?_, ?_, ?_⟩
  · rw [htimers]
    nofun
  · rw [hstate]
    nofun
  · rw [hstate]
    nofun
  · rw [hnone]
    nofun

theorem StationOk.portOk (h : StationOk own others c) (hp : c.port 0 = some p) :
    PortOk own others c p := by
  obtain ⟨-, -, -, q, hq, hok⟩ := h
  obtain rfl : q = p := Option.some.inj (hq.symm.trans hp)
  exact hok

theorem StationOk.set (h : StationOk own others c) (hp : c.port 0 = some p) {p' : Port}
    {timers : Timers} {gm last : ClockIdentity}
    (hok : PortOk own others { c with timers := timers, grandmasterClockIdentity := gm } p') :
    StationOk own others { c.setPort 0 p' with
      timers := timers, grandmasterClockIdentity := gm, lastEBestIdentity := last } := by
  obtain ⟨hvector, hprio, hports, -⟩ := h
  obtain ⟨hbmca, hannounces, hmaster, hslave, hheard⟩ := hok
  exact ⟨hvector, hprio, hports, p', Clock.port_setPort hp p', hbmca, hannounces, hmaster, hslave,
    hheard⟩

theorem slaveTimers_silent (ts : Timers) (j : Nat) :
    ∀ t ∈ slaveTimers true ts j, t.1 ≠ .announceIntervalTimeoutExpires := by
  rintro t ht
  obtain rfl | ht := mem_addEventTimer.mp ht
  · nofun
  · have hkept : t ∈ deleteEventTimer ts j .announceIntervalTimeoutExpires :=
      (mem_deleteEventTimer.mp ht).1
    exact (mem_deleteEventTimer.mp hkept).2

section
variable (h : StationOk own others c) (hp : c.port 0 = some p)

include h hp in
theorem StationOk.retime {ts : Timers}
    (hts : ∀ t ∈ ts, t.1 = .announceIntervalTimeoutExpires → p.portState = .master) :
    StationOk own others { c with timers := ts } := by
  obtain ⟨hbmca, -, hmaster, hslave, hheard⟩ := h.portOk hp
  exact ⟨h.vector, h.prio, h.ports, p, hp, hbmca, hts, hmaster, hslave, hheard⟩

include h in
theorem StationOk.add (j : Nat) (e : Event) (he : e ≠ .announceIntervalTimeoutExpires) :
    StationOk own others (c.add j e) := by
  obtain ⟨p, hp, hok⟩ := h.port
  refine h.retime hp fun t ht hannounce => ?_
  obtain rfl | ht := mem_addEventTimer.mp ht
  · exact absurd hannounce he
  · exact hok.announces t ht hannounce

include h hp in
theorem StationOk.becomeMaster (hgm : c.grandmasterClockIdentity = c.clockIdentity) :
    StationOk own others (c.becomeMaster 0 p true) := by
  obtain ⟨hbmca, -, -, -, hheard⟩ := h.portOk hp
  exact h.set hp ⟨hbmca, fun _ _ _ => rfl, fun _ => hgm, nofun, hheard⟩

include h hp in
theorem StationOk.becomeSlave (hworse : number others ≤ number own) {gm : ClockIdentity} :
    StationOk own others { c.becomeSlave 0 p with grandmasterClockIdentity := gm } := by
  obtain ⟨hbmca, -, -, -, hheard⟩ := h.portOk hp
  have hsilent : ∀ t ∈ slaveTimers p.bmca c.timers 0, t.1 ≠ .announceIntervalTimeoutExpires := by
    rw [hbmca]
    exact slaveTimers_silent _ _
  exact h.set hp ⟨hbmca, fun t ht hannounce => absurd hannounce (hsilent t ht), nofun,
    fun _ => hworse, hheard⟩

include h hp in
theorem StationOk.powerup : StationOk own others (c.powerup 0 p) := by
  have hok := h.portOk hp
  unfold Clock.powerup
  by_cases hmaster : p.portState = .master
  · have hprio := h.prio
    simp only [hmaster, ne_eq, not_true_eq_false, if_false, hprio, false_or, if_true]
    exact h.becomeMaster hp (hok.master hmaster)
  · have hstarted : StationOk own others (c.add 0 .pdelayIntervalTimeoutExpires) := h.add 0 _ nofun
    simp only [hmaster, ne_eq, not_false_eq_true, if_true, if_false]
    split
    case isTrue hslave =>
      obtain hprio | hslave := hslave
      · exact absurd hprio h.prio
      · exact hstarted.becomeSlave hp (hok.slave hslave)
    case isFalse =>
      rw [if_pos hok.bmca]
      exact hstarted.add 0 _ nofun

include h hp in
theorem StationOk.receiptTimeout (e : Event) : StationOk own others (c.receiptTimeout 0 p e) := by
  obtain ⟨hbmca, -⟩ := h.portOk hp
  unfold Clock.receiptTimeout
  rw [if_neg h.prio]
  split
  · exact h.set hp ⟨hbmca, fun _ _ _ => rfl, fun _ => rfl, nofun, nofun⟩
  · exact h

include h hp in
theorem StationOk.setAsCapable (b : Bool) :
    StationOk own others (c.setPort 0 { p with asCapable := b }) := by
  obtain ⟨hbmca, hannounces, hmaster, hslave, hheard⟩ := h.portOk hp
  exact h.set hp ⟨hbmca, hannounces, hmaster, hslave, hheard⟩

include h in
theorem StationOk.note {gm last : ClockIdentity}
    (hgm : ∀ p, c.port 0 = some p → p.portState = .master → gm = c.clockIdentity) :
    StationOk own others
      { c with lastEBestIdentity := last, grandmasterClockIdentity := gm } := by
  obtain ⟨hvector, hprio, hports, p, hp, hbmca, hannounces, -, hslave, hheard⟩ := h
  exact ⟨hvector, hprio, hports, p, hp, hbmca, hannounces, hgm p hp, hslave, hheard⟩

include h hp in
theorem StationOk.stateChange :
    StationOk own others (((c.stateChange p.bmca).map Prod.fst).getD c) := by
  have hok := h.portOk hp
  obtain ⟨c', calls, hchange, hc⟩ := Clock.stateChange_one hp h.ports h.prio
  rw [hok.bmca, hchange]
  obtain rfl | ⟨a, ha, ⟨hbetter, rfl⟩ | ⟨hworse, rfl⟩⟩ := hc
  · exact h
  · have hnote : c.noteBest a = { c with
        lastEBestIdentity := a.grandmasterIdentity
        grandmasterClockIdentity := c.clockIdentity } := if_pos hbetter
    have hnoted : StationOk own others (c.noteBest a) := by
      rw [hnote]
      exact h.note fun _ _ _ => rfl
    unfold Clock.recommendState
    simp only
    split
    · exact hnoted.becomeMaster (Clock.noteBest_port.trans hp) (by rw [hnote])
    · exact hnoted
  · have hnote : c.noteBest a = { c with lastEBestIdentity := a.grandmasterIdentity } :=
      if_neg (Bool.eq_false_iff.mp hworse)
    have hnoted : StationOk own others (c.noteBest a) := by
      rw [hnote]
      refine h.note fun q hq => ?_
      exact (h.portOk hq).master
    have hle : number others ≤ number own := by
      rw [← hok.heard a ha, ← h.vector, ← not_lt, ← clock_isBetterThan_iff, hworse]
      nofun
    unfold Clock.recommendState
    simp only
    split
    · exact hnoted.becomeSlave (Clock.noteBest_port.trans hp) hle
    case isFalse hslave =>
      refine hnoted.note fun q hq hmaster => ?_
      obtain rfl : p = q := Option.some.inj (hp.symm.trans (Clock.noteBest_port.symm.trans hq))
      rw [not_not.mp hslave] at hmaster
      cases hmaster

def Announces (own frame : List UInt8) : Prop :=
  ∃ hd a, frame = Message.octets ⟨hd, .announce a⟩ ∧ a.vector = own ∧ a.pathTrace.length < 8192

include h hp in
theorem StationOk.announceInterval (hmaster : p.portState = .master) :
    StationOk own others (c.announceInterval 0 p).1 ∧ ∀ m ∈ (c.announceInterval 0 p).2,
      ∃ a, m.body = .announce a ∧ a.vector = own ∧ a.pathTrace.length = 1 := by
  have hok := h.portOk hp
  unfold Clock.announceInterval
  rw [if_neg (not_not.mpr hok.bmca)]
  split
  case isFalse => exact ⟨h.retime hp fun _ _ _ => hmaster, nofun⟩
  case isTrue =>
    refine ⟨h.set hp ⟨hok.bmca, fun _ _ _ => hmaster, hok.master, hok.slave, hok.heard⟩, ?_⟩
    rintro m hm
    obtain rfl := List.mem_singleton.mp hm
    refine ⟨_, rfl, ?_, rfl⟩
    -- a master is its own grandmaster, so that the identity it announces is its own
    rw [← h.vector, Announce.vector, hok.master hmaster]
    rfl

include h hp in
theorem StationOk.announce (now : Timestamp) : StationOk own others (c.announce p now).1 ∧
    ∀ frame ∈ (c.announce p now).2, Announces own frame := by
  have hok := h.portOk hp
  unfold Clock.announce
  split
  case isFalse => exact ⟨h, nofun⟩
  case isTrue harmed =>
    have hmaster : p.portState = .master := hok.announces _ harmed rfl
    have hexpired := h.retime hp fun t ht =>
      hok.announces t (List.mem_of_mem_erase (b := (Event.announceIntervalTimeoutExpires, 0)) ht)
    obtain ⟨hstation, hmessages⟩ := hexpired.announceInterval hp hmaster
    refine ⟨hstation, fun frame hframe => ?_⟩
    obtain ⟨m, hm, rfl⟩ := List.mem_map.mp hframe
    obtain ⟨a, ha, hvector, hids⟩ := hmessages m hm
    refine ⟨(m.stamped now).header, a, ?_, hvector, by omega⟩
    unfold Message.sendPort Message.stamped
    rw [ha]

variable {frame : List UInt8} {s : Side}

theorem Announces.heard (hframe : Announces others frame) (rest : Mem) :
    ∃ r a, buildPTPMessage ⟨true, fun _ _ _ => none⟩ (recvBuffer frame rest) frame.length = some r ∧
      r.message.body = .announce a ∧ a.vector = others := by
  obtain ⟨hd, a, rfl, hvector, hids⟩ := hframe
  have hlaid := laid_octets ⟨hd, .announce a⟩ rest
  have hlen : 9 ≤ (Message.octets ⟨hd, .announce a⟩).length := by
    rw [Message.length_octets]
    exact le_trans (by decide) (Body.messageLength_ge _)
  have hfirst : (recvBuffer (Message.octets ⟨hd, .announce a⟩) rest 0).toNat =
      16 + announceMessage := by
    rw [(allStand_header.mp hlaid.header).1]
    simp [Body.messageType, announceMessage]
  refine ⟨_, a, buildPTPMessage_general (p := 66) _ ?_ ?_ ?_, rfl, hvector⟩
  · rw [hfirst]
    rfl
  · rw [hfirst]
    decide
  · rw [hfirst]
    show bodyAt true announceMessage _ _ = some (.announce a, 66)
    rw [bodyAt_announce, if_pos rfl, announceAt_eq_of_fields hlaid.body hids hlen]

include h hp in
theorem StationOk.processAnnounce (source : PortIdentity) {a : Announce} (ha : a.vector = others) :
    StationOk own others (c.processAnnounce 0 p source a) := by
  have hok := h.portOk hp
  have hkept : ∀ t ∈ deleteEventTimer c.timers 0 .announceReceiptTimeoutExpires,
      t.1 = .announceIntervalTimeoutExpires → p.portState = .master := by
    rintro t ht
    exact hok.announces t (mem_deleteEventTimer.mp ht).1
  refine StationOk.add ?_ 0 _ nofun
  split
  case isTrue => exact h.retime hp hkept
  case isFalse =>
    refine StationOk.add ?_ 0 _ nofun
    refine h.set hp ⟨hok.bmca, hkept, hok.master, hok.slave, ?_⟩
    rintro b hb
    obtain rfl := Option.some.inj hb
    exact ha

include h hp in
theorem StationOk.listen (hframe : Announces others frame) (rest : Mem) :
    StationOk own others (c.listen p frame rest) := by
  obtain ⟨r, a, hr, hbody, ha⟩ := hframe.heard rest
  unfold Clock.listen
  rw [(h.portOk hp).bmca, hr]
  simp only [hbody]
  exact h.processAnnounce hp _ ha

end

structure LinkOk (vector : Side → List UInt8) (l : Link) : Prop where
  station : ∀ s, StationOk (vector s) (vector s.other) (l.clock s)
  wire : ∀ s, ∀ frame ∈ l.wire s, Announces (vector s) frame

section
variable {vector : Side → List UInt8} {l : Link} (h : LinkOk vector l)

include h in
theorem LinkOk.setClock {c : Clock} (hc : StationOk (vector s) (vector s.other) c) :
    LinkOk vector (l.setClock s c) := by
  refine ⟨fun s' => ?_, h.wire⟩
  unfold Link.setClock
  simp only
  split
  case isTrue hs =>
    subst hs
    exact hc
  case isFalse => exact h.station s'

include h in
theorem LinkOk.setWire {frames : List (List UInt8)}
    (hframes : ∀ frame ∈ frames, Announces (vector s) frame) :
    LinkOk vector (l.setWire s frames) := by
  refine ⟨h.station, fun s' => ?_⟩
  unfold Link.setWire
  simp only
  split
  case isTrue hs =>
    subst hs
    exact hframes
  case isFalse => exact h.wire s'

include h in
theorem LinkOk.onPort {f : Clock → Port → Clock} (hf : ∀ p, (l.clock s).port 0 = some p →
      StationOk (vector s) (vector s.other) (f (l.clock s) p)) : LinkOk vector (l.onPort s f) := by
  unfold Link.onPort
  split
  · exact h
  case h_2 p hp => exact h.setClock (hf p hp)

include h in
theorem LinkOk.step (i : LinkInput) : LinkOk vector (l.step i) := by
  cases i with
  | powerup s =>
    simp only [Link.step]
    exact h.onPort fun p hp => (h.station s).powerup hp
  | stateChange s =>
    simp only [Link.step]
    exact h.onPort fun p hp => (h.station s).stateChange hp
  | receiptTimeout s e =>
    simp only [Link.step]
    exact h.onPort fun p hp => (h.station s).receiptTimeout hp e
  | setAsCapable s b =>
    simp only [Link.step]
    exact h.onPort fun p hp => (h.station s).setAsCapable hp b
  | lose s i => exact h.setWire fun frame hframe => h.wire s frame (List.mem_of_mem_eraseIdx hframe)
  | announceInterval s now =>
    simp only [Link.step]
    split
    · exact h
    case h_2 p hp =>
      obtain ⟨hstation, hframes⟩ := (h.station s).announce hp now
      refine (h.setClock hstation).setWire fun frame hframe => ?_
      obtain hold | hnew := List.mem_append.mp hframe
      · exact h.wire s frame hold
      · exact hframes frame hnew
  | receive s rest =>
    simp only [Link.step]
    split
    · exact h
    case h_2 frame frames hwire =>
      have hold := h.wire s.other
      rw [hwire] at hold
      refine (h.setWire fun f hf => hold f (.tail _ hf)).onPort fun p hp => ?_
      exact (h.station s).listen hp (hold frame (.head _)) rest

end

def Link.BothSlave (l : Link) : Prop := ∀ s, ∃ p, (l.clock s).port 0 = some p ∧ p.portState = .slave

theorem Clock.vector_inj {c d : Clock} (h : c.vector = d.vector) :
    c.clockIdentity = d.clockIdentity := by
  have hdrop : ∀ c : Clock, c.vector.drop 6 = c.clockIdentity.val := fun _ => rfl
  refine Subtype.ext ?_
  rw [← hdrop c, ← hdrop d, h]

theorem LinkOk.not_bothSlave {vector : Side → List UInt8} {l : Link} (h : LinkOk vector l)
    (hne : vector .left ≠ vector .right) (hlen : (vector .left).length = (vector .right).length) :
    ¬ l.BothSlave := by
  rintro hslave
  have hle : ∀ s, number (vector (Side.other s)) ≤ number (vector s) := by
    rintro s
    obtain ⟨p, hp, hstate⟩ := hslave s
    exact ((h.station s).portOk hp).slave hstate
  exact hne (number_inj hlen (le_antisymm (hle .right) (hle .left)))

theorem always_linkOk {clock : Side → Clock} (hstart : ∀ s, (clock s).Starts)
    (inputs : List LinkInput) :
    Always Link.step (LinkOk fun s => (clock s).vector) ⟨clock, fun _ => []⟩ inputs :=
  always_of_step (fun _ i h => h.step i) ⟨fun s => (hstart s).ok _, nofun⟩ inputs

theorem never_bothSlave (clock : Side → Clock) (hstart : ∀ s, (clock s).Starts)
    (hdiff : (clock .left).clockIdentity ≠ (clock .right).clockIdentity) (inputs : List LinkInput) :
    Always Link.step (fun l => ¬ l.BothSlave) ⟨clock, fun _ => []⟩ inputs := by
  refine (always_linkOk hstart inputs).imp fun l hl => hl.not_bothSlave ?_ ?_
  · exact fun heq => hdiff (Clock.vector_inj heq)
  · simp [Clock.vector, priorityVector, ClockQuality.octets]

def sampleStation : Side → Clock
  | .left => sampleClock.registerPort (samplePortWith none) 1
  | .right =>
    { sampleClock with clockIdentity := ⟨[0, 1, 2, 255, 254, 9, 9, 10], rfl⟩ }.registerPort
      (samplePortWith none) 1

def sampleElection : List LinkInput :=
  [.powerup .left, .powerup .right, .receiptTimeout .left .announceReceiptTimeoutExpires,
    .announceInterval .left ⟨0, 0, 0⟩, .receive .right fun _ => 0, .stateChange .right]

theorem sampleStation_starts (s : Side) : (sampleStation s).Starts := by
  cases s <;> exact ⟨by decide, rfl, rfl, _, rfl, rfl, rfl, rfl⟩

theorem never_bothSlave_sampleElection :
    Always Link.step (fun l => ¬ l.BothSlave) ⟨sampleStation, fun _ => []⟩ sampleElection ∧
    (((run Link.step ⟨sampleStation, fun _ => []⟩ sampleElection).clock .right).port 0).map
      (·.portState) = some .slave :=
  ⟨never_bothSlave sampleStation sampleStation_starts (by decide) sampleElection, by decide⟩

/-- The better station is not slave, a station has an announce message due only as a master, and
what is on its way from it announces the station itself. -/
def Link.Led (clock : Side → Clock) (l : Link) : Prop := ∀ s p, (l.clock s).port 0 = some p →
  (number (clock s).vector < number (clock s.other).vector → p.portState ≠ .slave) ∧
  (∀ t ∈ (l.clock s).timers, t.1 = .announceIntervalTimeoutExpires → p.portState = .master) ∧
  ∀ frame ∈ l.wire s, Announces (clock s).vector frame

theorem always_led (clock : Side → Clock) (hstart : ∀ s, (clock s).Starts)
    (inputs : List LinkInput) : Always Link.step (Link.Led clock) ⟨clock, fun _ => []⟩ inputs := by
  refine (always_linkOk hstart inputs).imp fun l hl s p hp => ?_
  have hport := (hl.station s).portOk hp
  exact ⟨fun hbetter hslave => not_lt.mpr (hport.slave hslave) hbetter, hport.announces, hl.wire s⟩

theorem always_led_sampleElection :
    Always Link.step (Link.Led sampleStation) ⟨sampleStation, fun _ => []⟩ sampleElection :=
  always_led sampleStation sampleStation_starts sampleElection

end OpenAvb.Gptp
