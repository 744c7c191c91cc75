import OpenAvb.Keyed
import OpenAvb.Run
import OpenAvb.Gptp.Message

/-!
# The timer queue

`LinuxTimerQueue` and the timers of the kernel. A timer that expires queues a
signal with the key of its entry, and the handler looks the entry up by that key.
A key is free again as soon as its entry is gone, which a signal that is still
queued does not know.
-/

namespace OpenAvb.Gptp

section

open List

inductive Occurrence where
  | expired (timer : Nat)
  | cancelled (timer : Nat)
  | dispatched (timer : Nat)
  deriving DecidableEq

def Occurrence.timer : Occurrence → Nat
  | .expired t => t
  | .cancelled t => t
  | .dispatched t => t

structure ActionArg (ε α : Type) where
  timerHandle : Nat
  type : ε
  innerArg : α

/-- The queue and the kernel: how many timers were created, the armed ones with their keys, and the
signals that wait. The newest occurrence comes first. -/
structure TimerQueue (ε α : Type) where
  timerQueueMap : List (Nat × ActionArg ε α) := []
  key : Nat := 0
  created : Nat := 0
  armed : List (Nat × Nat) := []
  signals : List Nat := []
  log : List Occurrence := []

/-- How far `addEvent` came: `timer_create` and `timer_settime` may fail. -/
inductive AddResult where
  | createFailed
  | armFailed
  | armed
  deriving DecidableEq

def freeKey (keys : List Nat) : Nat → Nat → Nat
  | 0, key => key
  | fuel + 1, key => if key ∈ keys then freeKey keys fuel (key + 1) else key

namespace TimerQueue

variable {ε α : Type} (q : TimerQueue ε α)

def nextKey : Nat :=
  freeKey (q.timerQueueMap.map Prod.fst) q.timerQueueMap.length q.key

def addEvent (type : ε) (arg : α) (result : AddResult) : TimerQueue ε α :=
  match result with
  | .createFailed => { q with key := q.nextKey }
  | _ =>
    { q with
      key := q.nextKey
      created := q.created + 1
      timerQueueMap := (q.nextKey, ⟨q.created, type, arg⟩) :: q.timerQueueMap
      armed := if result = .armed then (q.created, q.nextKey) :: q.armed else q.armed }

def cancelEvent [DecidableEq ε] (q : TimerQueue ε α) (type : ε) : TimerQueue ε α :=
  let gone := (q.timerQueueMap.filter (·.2.type = type)).map (·.2.timerHandle)
  { q with
    timerQueueMap := q.timerQueueMap.filter (·.2.type ≠ type)
    armed := q.armed.filter (·.1 ∉ gone)
    log := gone.map .cancelled ++ q.log }

def expire (timer : Nat) : TimerQueue ε α :=
  match entry Prod.fst timer q.armed with
  | none => q
  | some (_, key) =>
    { q with
      armed := q.armed.filter (·.1 ≠ timer)
      signals := q.signals ++ [key]
      log := .expired timer :: q.log }

/-- `LinuxTimerQueueHandler` with one of the signals that wait, up to the call of the action. -/
def handler (j : Nat) : TimerQueue ε α :=
  match q.signals[j]? with
  | none => q
  | some key =>
    match entry Prod.fst key q.timerQueueMap with
    | none => { q with signals := q.signals.eraseIdx j }
    | some (_, arg) =>
      { q with
        signals := q.signals.eraseIdx j
        timerQueueMap := q.timerQueueMap.filter (·.1 ≠ key)
        log := .dispatched arg.timerHandle :: q.log }

def timerDelete (timer : Nat) : TimerQueue ε α :=
  if .dispatched timer ∈ q.log then { q with armed := q.armed.filter (·.1 ≠ timer) } else q

end TimerQueue

inductive TimerInput (ε α : Type) where
  | addEvent (type : ε) (arg : α) (result : AddResult)
  | cancelEvent (type : ε)
  | expire (timer : Nat)
  | handler (j : Nat)
  | timerDelete (timer : Nat)

def TimerQueue.step [DecidableEq ε] (q : TimerQueue ε α) : TimerInput ε α → TimerQueue ε α
  | .addEvent type arg result => q.addEvent type arg result
  | .cancelEvent type => q.cancelEvent type
  | .expire timer => q.expire timer
  | .handler j => q.handler j
  | .timerDelete timer => q.timerDelete timer

def Proper : List Occurrence → Prop
  | [] => True
  | .dispatched t :: log =>
    (.expired t ∈ log ∧ .cancelled t ∉ log ∧ .dispatched t ∉ log) ∧ Proper log
  | _ :: log => Proper log

instance decidableProper : (log : List Occurrence) → Decidable (Proper log)
  | [] => inferInstanceAs (Decidable True)
  | .expired _ :: log => decidableProper log
  | .cancelled _ :: log => decidableProper log
  | .dispatched t :: log =>
    have := decidableProper log
    inferInstanceAs (Decidable
      ((.expired t ∈ log ∧ .cancelled t ∉ log ∧ .dispatched t ∉ log) ∧ Proper log))

theorem Proper.cancelled (h : Proper log) (ts : List Nat) : Proper (ts.map .cancelled ++ log) := by
  induction ts with
  | nil => exact h
  | cons t ts ih => exact ih

theorem Proper.expired_of_dispatched (h : Proper log) (hmem : .dispatched t ∈ log) :
    .expired t ∈ log := by
  induction log with
  | nil => cases hmem
  | cons o log ih =>
    obtain rfl | htail := mem_cons.mp hmem
    · exact mem_cons_of_mem _ h.1.1
    · cases o with
      | expired t' => exact mem_cons_of_mem _ (ih h htail)
      | cancelled t' => exact mem_cons_of_mem _ (ih h htail)
      | dispatched t' => exact mem_cons_of_mem _ (ih h.2 htail)

theorem freeKey_not_mem (h : (ks.filter (key ≤ ·)).length ≤ fuel) : freeKey ks fuel key ∉ ks := by
  induction fuel generalizing key with
  | zero =>
    intro hmem
    have hkey : key ∈ ks.filter (key ≤ ·) := mem_filter.mpr ⟨hmem, by simp⟩
    rw [length_eq_zero_iff.mp (Nat.le_zero.mp h)] at hkey
    cases hkey
  | succ fuel ih =>
    unfold freeKey
    split
    case isTrue hmem =>
      refine ih (Nat.le_of_lt_succ (Nat.lt_of_lt_of_le ?_ h))
      have hfilter : ks.filter (key + 1 ≤ ·) = (ks.filter (key ≤ ·)).filter (· ≠ key) := by
        rw [filter_filter]
        refine filter_congr fun k _ => ?_
        by_cases hk : k = key
        · simp [hk]
        · simp [hk]
          omega
      rw [hfilter]
      exact length_filter_lt_length_iff_exists.mpr
        ⟨key, mem_filter.mpr ⟨hmem, by simp⟩, by simp⟩
    case isFalse hmem => exact hmem

theorem TimerQueue.nextKey_not_mem (q : TimerQueue ε α) :
    q.nextKey ∉ q.timerQueueMap.map Prod.fst := by
  refine freeKey_not_mem ?_
  rw [← q.timerQueueMap.length_map]
  exact length_filter_le _ _

namespace TimerQueue

variable {ε α : Type}

/-- An armed timer is that of the entry with its key, unless the entry was dispatched too early. -/
structure Ok (q : TimerQueue ε α) : Prop where
  keys : UniqueKeys Prod.fst q.timerQueueMap
  handles : UniqueKeys (·.2.timerHandle) q.timerQueueMap
  fresh : ∀ e ∈ q.timerQueueMap, e.2.timerHandle < q.created
  past : ∀ o ∈ q.log, o.timer < q.created
  live : ∀ e ∈ q.timerQueueMap,
    .cancelled e.2.timerHandle ∉ q.log ∧ .dispatched e.2.timerHandle ∉ q.log
  armed : ∀ t ∈ q.armed, .expired t.1 ∉ q.log ∧ t.1 < q.created ∧
    (.dispatched t.1 ∈ q.log ∨ ∃ e ∈ q.timerQueueMap, e.1 = t.2 ∧ e.2.timerHandle = t.1)

theorem ok_empty : Ok ({} : TimerQueue ε α) where
  keys := nodup_nil
  handles := nodup_nil
  fresh := nofun
  past := nofun
  live := nofun
  armed := nofun

variable {q : TimerQueue ε α}

section

variable (h : q.Ok)
include h

theorem Ok.not_logged (o : Occurrence) (ho : o.timer = q.created) : o ∉ q.log :=
  fun hmem => Nat.lt_irrefl _ (ho ▸ h.past o hmem)

theorem Ok.insert (arg : α) (type : ε) {armed : List (Nat × Nat)}
    (harmed : ∀ t ∈ armed, t ∈ q.armed ∨ t = (q.created, q.nextKey)) :
    Ok { q with
      key := q.nextKey
      created := q.created + 1
      timerQueueMap := (q.nextKey, ⟨q.created, type, arg⟩) :: q.timerQueueMap
      armed := armed } where
  keys := nodup_cons.mpr ⟨q.nextKey_not_mem, h.keys⟩
  handles := by
    refine nodup_cons.mpr ⟨fun hmem => ?_, h.handles⟩
    obtain ⟨e, he, heq⟩ := mem_map.mp hmem
    exact Nat.ne_of_lt (h.fresh e he) heq
  fresh := forall_mem_cons.mpr ⟨Nat.lt_succ_self _, fun e he => Nat.lt_succ_of_lt (h.fresh e he)⟩
  past o ho := Nat.lt_succ_of_lt (h.past o ho)
  live := forall_mem_cons.mpr ⟨⟨h.not_logged _ rfl, h.not_logged _ rfl⟩, h.live⟩
  armed t ht := by
    obtain ht | rfl := harmed t ht
    · obtain ⟨hexp, hlt, hback⟩ := h.armed t ht
      refine ⟨hexp, Nat.lt_succ_of_lt hlt, hback.imp_right ?_⟩
      rintro ⟨e, he, heq⟩
      exact ⟨e, mem_cons_of_mem _ he, heq⟩
    · exact ⟨h.not_logged _ rfl, Nat.lt_succ_self _, .inr ⟨_, mem_cons_self, rfl, rfl⟩⟩

theorem Ok.addEvent (type : ε) (arg : α) (result : AddResult) :
    (q.addEvent type arg result).Ok := by
  cases result with
  | createFailed => exact ⟨h.keys, h.handles, h.fresh, h.past, h.live, h.armed⟩
  | armFailed => exact h.insert arg type fun t ht => .inl ht
  | armed => exact h.insert arg type fun t ht => (mem_cons.mp ht).symm

theorem Ok.cancelEvent [DecidableEq ε] (type : ε) : (q.cancelEvent type).Ok := by
  have hkept : (q.timerQueueMap.filter (·.2.type ≠ type)).Sublist q.timerQueueMap := filter_sublist
  have hold : ∀ {o}, o ∉ q.log → (∀ t, o ≠ .cancelled t) → o ∉ (q.cancelEvent type).log := by
    rintro o ho hne hmem
    obtain hmem | hmem := mem_append.mp hmem
    · obtain ⟨t, _, rfl⟩ := mem_map.mp hmem
      exact hne t rfl
    · exact ho hmem
  have hgone : ∀ {t}, .cancelled t ∈ (q.cancelEvent type).log →
      .cancelled t ∈ q.log ∨ ∃ e ∈ q.timerQueueMap, e.2.type = type ∧ e.2.timerHandle = t := by
    rintro t hmem
    obtain hmem | hmem := mem_append.mp hmem
    · obtain ⟨t', ht', hcancelled⟩ := mem_map.mp hmem
      obtain rfl := Occurrence.cancelled.inj hcancelled
      obtain ⟨e, he, rfl⟩ := mem_map.mp ht'
      obtain ⟨he, htype⟩ := mem_filter.mp he
      exact .inr ⟨e, he, of_decide_eq_true htype, rfl⟩
    · exact .inl hmem
  refine ⟨h.keys.sublist (hkept.map _), h.handles.sublist (hkept.map _),
    fun e he => h.fresh e (hkept.mem he), ?_, ?_, ?_⟩
  · rintro o ho
    obtain ho | ho := mem_append.mp ho
    · obtain ⟨t, ht, rfl⟩ := mem_map.mp ho
      obtain ⟨e, he, rfl⟩ := mem_map.mp ht
      exact h.fresh e (mem_filter.mp he).1
    · exact h.past o ho
  · rintro e he
    obtain ⟨hmem, htype⟩ := mem_filter.mp he
    obtain ⟨hcancelled, hdispatched⟩ := h.live e hmem
    refine ⟨fun hlog => ?_, hold hdispatched nofun⟩
    obtain hlog | ⟨e', he', htype', heq⟩ := hgone hlog
    · exact hcancelled hlog
    · obtain rfl := inj_on_of_nodup_map h.handles he' hmem heq
      exact of_decide_eq_true htype htype'
  · rintro t ht
    obtain ⟨ht, hnot⟩ := mem_filter.mp ht
    obtain ⟨hexp, hlt, hback⟩ := h.armed t ht
    refine ⟨hold hexp nofun, hlt, ?_⟩
    obtain hdispatched | ⟨e, he, hkey, heq⟩ := hback
    · exact .inl (mem_append_right _ hdispatched)
    · refine .inr ⟨e, mem_filter.mpr ⟨he, decide_eq_true fun htype => ?_⟩, hkey, heq⟩
      refine of_decide_eq_true hnot ?_
      exact mem_map.mpr ⟨e, mem_filter.mpr ⟨he, decide_eq_true htype⟩, heq⟩

theorem Ok.expire (timer : Nat) : (q.expire timer).Ok := by
  unfold TimerQueue.expire
  split
  · exact h
  case h_2 t key hentry =>
    obtain rfl : t = timer := key_entry hentry
    have harmed : (t, key) ∈ q.armed := mem_of_find?_eq_some hentry
    refine ⟨h.keys, h.handles, h.fresh, forall_mem_cons.mpr ⟨(h.armed _ harmed).2.1, h.past⟩,
      fun e he => ?_, fun t' ht' => ?_⟩
    · obtain ⟨hcancelled, hdispatched⟩ := h.live e he
      exact ⟨not_mem_cons_of_ne_of_not_mem nofun hcancelled,
        not_mem_cons_of_ne_of_not_mem nofun hdispatched⟩
    · obtain ⟨ht', hne⟩ := mem_filter.mp ht'
      obtain ⟨hexp, hlt, hback⟩ := h.armed t' ht'
      refine ⟨not_mem_cons_of_ne_of_not_mem (fun heq => ?_) hexp, hlt,
        hback.imp_left (mem_cons_of_mem _)⟩
      exact of_decide_eq_true hne (Occurrence.expired.inj heq)

theorem Ok.timerDelete (timer : Nat) : (q.timerDelete timer).Ok := by
  unfold TimerQueue.timerDelete
  split
  · exact ⟨h.keys, h.handles, h.fresh, h.past, h.live, fun t ht => h.armed t (mem_filter.mp ht).1⟩
  · exact h

theorem Ok.handler (j : Nat) : (q.handler j).Ok := by
  unfold TimerQueue.handler
  split
  · exact h
  rename_i key hj
  split
  · exact ⟨h.keys, h.handles, h.fresh, h.past, h.live, h.armed⟩
  case h_2 k arg hentry =>
    obtain rfl : k = key := key_entry hentry
    have hmem : (k, arg) ∈ q.timerQueueMap := mem_of_find?_eq_some hentry
    have hkept : (q.timerQueueMap.filter (·.1 ≠ k)).Sublist q.timerQueueMap := filter_sublist
    refine ⟨h.keys.sublist (hkept.map _), h.handles.sublist (hkept.map _),
      fun e he => h.fresh e (hkept.mem he), forall_mem_cons.mpr ⟨h.fresh _ hmem, h.past⟩,
      fun e he => ?_, fun t ht => ?_⟩
    · obtain ⟨he, hne⟩ := mem_filter.mp he
      obtain ⟨hcancelled, hdispatched⟩ := h.live e he
      refine ⟨not_mem_cons_of_ne_of_not_mem nofun hcancelled,
        not_mem_cons_of_ne_of_not_mem (fun heq => ?_) hdispatched⟩
      have hsame : e = (k, arg) :=
        inj_on_of_nodup_map h.handles he hmem (Occurrence.dispatched.inj heq)
      exact of_decide_eq_true hne (congrArg Prod.fst hsame)
    · obtain ⟨hexp, hlt, hback⟩ := h.armed t ht
      refine ⟨not_mem_cons_of_ne_of_not_mem nofun hexp, hlt, ?_⟩
      obtain hdispatched | ⟨e, he, hkey, heq⟩ := hback
      · exact .inl (mem_cons_of_mem _ hdispatched)
      by_cases hk : e.1 = k
      · obtain rfl : e = (k, arg) := inj_on_of_nodup_map h.keys he hmem hk
        exact .inl (heq ▸ mem_cons_self)
      · exact .inr ⟨e, mem_filter.mpr ⟨he, decide_eq_true hk⟩, hkey, heq⟩

theorem Ok.step [DecidableEq ε] (input : TimerInput ε α) : (q.step input).Ok := by
  cases input with
  | addEvent type arg result => exact h.addEvent type arg result
  | cancelEvent type => exact h.cancelEvent type
  | expire timer => exact h.expire timer
  | handler j => exact h.handler j
  | timerDelete timer => exact h.timerDelete timer

end

def DispatchesDue (q : TimerQueue ε α) : Prop := ∀ j, Proper (q.handler j).log

def Due (q : TimerQueue ε α) : Prop :=
  Proper q.log ∧ ∀ e ∈ q.timerQueueMap, e.1 ∈ q.signals → .expired e.2.timerHandle ∈ q.log

theorem Ok.dispatchesDue_iff (h : q.Ok) : q.DispatchesDue ↔ q.Due := by
  constructor
  · intro hdue
    constructor
    · have hidle := hdue q.signals.length
      unfold TimerQueue.handler at hidle
      rwa [getElem?_eq_none (Nat.le_refl _)] at hidle
    · rintro ⟨key, arg⟩ he hsignal
      obtain ⟨j, hj⟩ := getElem?_of_mem hsignal
      have hentry : entry Prod.fst key q.timerQueueMap = some (key, arg) :=
        (entry_eq_some h.keys).mpr ⟨he, rfl⟩
      have hnext := hdue j
      unfold TimerQueue.handler at hnext
      simp only [hj, hentry] at hnext
      exact hnext.1.1
  · rintro ⟨hproper, hsignals⟩ j
    unfold TimerQueue.handler
    split
    · exact hproper
    case h_2 key hj =>
      split
      · exact hproper
      case h_2 k arg hentry =>
        obtain rfl : k = key := key_entry hentry
        have hmem : (k, arg) ∈ q.timerQueueMap := mem_of_find?_eq_some hentry
        exact ⟨⟨hsignals _ hmem (mem_of_getElem? hj), h.live _ hmem⟩, hproper⟩

theorem Ok.due_insert (h : q.Ok) (hdue : q.Due) (arg : α) (type : ε) {armed : List (Nat × Nat)} :
    Due { q with
      key := q.nextKey
      created := q.created + 1
      timerQueueMap := (q.nextKey, ⟨q.created, type, arg⟩) :: q.timerQueueMap
      armed := armed } ↔ q.nextKey ∉ q.signals := by
  obtain ⟨hproper, hsignals⟩ := hdue
  constructor
  · rintro ⟨-, hnew⟩ hmem
    exact h.not_logged (.expired q.created) rfl (hnew _ mem_cons_self hmem)
  · rintro hfree
    exact ⟨hproper, forall_mem_cons.mpr ⟨fun hmem => absurd hmem hfree, hsignals⟩⟩

theorem Due.cancelEvent [DecidableEq ε] (h : q.Due) (type : ε) : (q.cancelEvent type).Due := by
  obtain ⟨hproper, hsignals⟩ := h
  refine ⟨hproper.cancelled _, fun e he hsignal => mem_append_right _ ?_⟩
  exact hsignals e (mem_filter.mp he).1 hsignal

theorem Due.expire (h : q.Due) (hok : q.Ok) (timer : Nat) : (q.expire timer).Due := by
  obtain ⟨hproper, hsignals⟩ := h
  unfold TimerQueue.expire
  split
  · exact ⟨hproper, hsignals⟩
  case h_2 t key hentry =>
    obtain rfl : t = timer := key_entry hentry
    refine ⟨hproper, fun e he hsignal => ?_⟩
    obtain hwaiting | hnew := mem_append.mp hsignal
    · exact mem_cons_of_mem _ (hsignals e he hwaiting)
    · obtain ⟨hexp, -, hback⟩ := hok.armed _ (mem_of_find?_eq_some hentry)
      obtain hdispatched | ⟨e', he', hkey, rfl⟩ := hback
      · exact absurd (hproper.expired_of_dispatched hdispatched) hexp
      · have hsame : e' = e := inj_on_of_nodup_map hok.keys he' he
          (hkey.trans (mem_singleton.mp hnew).symm)
        rw [hsame]
        exact mem_cons_self

theorem Due.handler (h : q.Due) (hok : q.Ok) (j : Nat) : (q.handler j).Due := by
  refine ⟨hok.dispatchesDue_iff.mpr h j, ?_⟩
  obtain ⟨-, hsignals⟩ := h
  unfold TimerQueue.handler
  split
  · exact hsignals
  rename_i key hj
  split
  · exact fun e he hsignal => hsignals e he (mem_of_mem_eraseIdx hsignal)
  case h_2 k arg hentry =>
    rintro e he hsignal
    exact mem_cons_of_mem _
      (hsignals e (mem_filter.mp he).1 (mem_of_mem_eraseIdx hsignal))

theorem Due.timerDelete (h : q.Due) (timer : Nat) : (q.timerDelete timer).Due := by
  unfold TimerQueue.timerDelete
  split
  · exact h
  · exact h

def KeyIsFree (q : TimerQueue ε α) : TimerInput ε α → Prop
  | .addEvent _ _ result => result ≠ .createFailed → q.nextKey ∉ q.signals
  | _ => True

theorem Ok.due_step_iff [DecidableEq ε] (h : q.Ok) (hdue : q.Due) (input : TimerInput ε α) :
    (q.step input).Due ↔ q.KeyIsFree input := by
  cases input with
  | addEvent type arg result =>
    cases result with
    | createFailed => exact iff_of_true hdue nofun
    | armFailed | armed => exact (h.due_insert hdue arg type).trans (imp_iff_right nofun).symm
  | cancelEvent type => exact iff_of_true (hdue.cancelEvent type) trivial
  | expire timer => exact iff_of_true (hdue.expire h timer) trivial
  | handler j => exact iff_of_true (hdue.handler h j) trivial
  | timerDelete timer => exact iff_of_true (hdue.timerDelete timer) trivial

end TimerQueue

/-- In a run, every handler call that can be dispatched is due, if and only if no entry was ever
added under a key that a queued signal carries. -/
theorem timerQueue_dispatches_due_iff [DecidableEq ε] (inputs : List (TimerInput ε α)) :
    Always TimerQueue.step TimerQueue.DispatchesDue ({} : TimerQueue ε α) inputs ↔
      Each TimerQueue.step TimerQueue.KeyIsFree ({} : TimerQueue ε α) inputs := by
  refine always_iff_each (I := TimerQueue.Ok) (fun q input h => h.step input) ?_
    TimerQueue.ok_empty ?_
  · intro q input h hdue
    rw [(h.step input).dispatchesDue_iff]
    exact h.due_step_iff (h.dispatchesDue_iff.mp hdue) input
  · exact TimerQueue.ok_empty.dispatchesDue_iff.mpr ⟨trivial, nofun⟩

/-- A timer expires, its entry is cancelled before the signal is handled, and a new entry gets the
key: it is dispatched although its own timer runs. -/
theorem timerQueue_dispatches_early :
    let inputs : List (TimerInput Nat Nat) := [.addEvent 9 1 .armed, .expire 0, .cancelEvent 9,
      .addEvent 9 1 .armed, .handler 0]
    (run TimerQueue.step {} inputs).log = [.dispatched 1, .cancelled 0, .expired 0] ∧
      ¬ Proper (run TimerQueue.step {} inputs).log := by
  decide

end

/-! ## The clock and its ports -/

inductive PortState where
  | master
  | preMaster
  | slave
  | uncalibrated
  | disabled
  | faulty
  | initializing
  | listening
  deriving DecidableEq

inductive Event where
  | nullEvent
  | powerup
  | initializeEvent
  | stateChangeEvent
  | syncIntervalTimeoutExpires
  | pdelayIntervalTimeoutExpires
  | syncReceiptTimeoutExpires
  | qualificationTimeoutExpires
  | announceReceiptTimeoutExpires
  | announceIntervalTimeoutExpires
  | faultDetected
  | pdelayDeferredProcessing
  | pdelayRespReceiptTimeoutExpires
  deriving DecidableEq

abbrev Timers := List (Event × Nat)

instance : LawfulBEq (Event × Nat) := inferInstance

def addEventTimer (ts : Timers) (target : Nat) (e : Event) : Timers := (e, target) :: ts

def deleteEventTimer (ts : Timers) (_target : Nat) (e : Event) : Timers := ts.filter (·.1 ≠ e)

theorem mem_addEventTimer : t ∈ addEventTimer ts target e ↔ t = (e, target) ∨ t ∈ ts :=
  List.mem_cons

theorem mem_deleteEventTimer : t ∈ deleteEventTimer ts target e ↔ t ∈ ts ∧ t.1 ≠ e := by
  unfold deleteEventTimer
  rw [List.mem_filter, decide_eq_true_iff]

def memcmp : List UInt8 → List UInt8 → Ordering
  | x :: xs, y :: ys => if x < y then .lt else if y < x then .gt else memcmp xs ys
  | _, _ => .eq

def priorityVector (priority1 : UInt8) (quality : ClockQuality) (priority2 : UInt8)
    (identity : ClockIdentity) : List UInt8 :=
  [priority1] ++ quality.octets ++ [priority2] ++ identity.val

def Announce.vector (a : Announce) : List UInt8 :=
  priorityVector a.grandmasterPriority1 a.grandmasterClockQuality a.grandmasterPriority2
    a.grandmasterIdentity

def Announce.isBetterThan (a msg : Announce) : Bool := memcmp a.vector msg.vector = .lt

structure Port where
  portState : PortState
  bmca : Bool
  qualifiedAnnounce : Option Announce
  asCapable : Bool
  (ifindex announceSequenceId : UInt16)
  logMeanAnnounceInterval : UInt8

def maxPorts : Nat := 32

structure Clock where
  clockIdentity : ClockIdentity
  priority1 : UInt8
  clockQuality : ClockQuality
  (priority2 domainNumber : UInt8)
  currentUtcOffset : UInt16
  timeSource : UInt8
  (grandmasterClockIdentity lastEBestIdentity : ClockIdentity)
  portList : List (Option Port) := List.replicate maxPorts none
  numberPorts : Nat := 0
  timers : Timers := []

namespace Clock

def registerPort (c : Clock) (port : Port) (index : Nat) : Clock :=
  if index = 0 then c
  else
    { c with
      portList := if index < maxPorts then c.portList.set (index - 1) (some port) else c.portList
      numberPorts := c.numberPorts + 1 }

def vector (c : Clock) : List UInt8 :=
  priorityVector c.priority1 c.clockQuality c.priority2 c.clockIdentity

def isBetterThan (c : Clock) (msg : Announce) : Bool := memcmp c.vector msg.vector = .lt

def port (c : Clock) (j : Nat) : Option Port := c.portList[j]?.join

def setPort (c : Clock) (j : Nat) (p : Port) : Clock :=
  { c with portList := c.portList.set j (some p) }

end Clock

def startAnnounce (bmca : Bool) (ts : Timers) (j : Nat) : Timers :=
  if bmca then addEventTimer ts j .announceIntervalTimeoutExpires else ts

def masterTimers (bmca annc : Bool) (ts : Timers) (j : Nat) : Timers :=
  let ts := deleteEventTimer ts j .syncReceiptTimeoutExpires
  let ts := if bmca then deleteEventTimer ts j .announceReceiptTimeoutExpires else ts
  let ts := if annc then startAnnounce bmca ts j else ts
  addEventTimer ts j .syncIntervalTimeoutExpires

def slaveTimers (bmca : Bool) (ts : Timers) (j : Nat) : Timers :=
  let ts := if bmca then deleteEventTimer ts j .announceIntervalTimeoutExpires else ts
  let ts := deleteEventTimer ts j .syncIntervalTimeoutExpires
  if bmca then addEventTimer ts j .announceReceiptTimeoutExpires else ts

namespace Clock

variable (c : Clock) (j : Nat)

def becomeMaster (p : Port) (annc : Bool) : Clock :=
  { c.setPort j { p with portState := .master } with
    timers := masterTimers p.bmca annc c.timers j }

def becomeSlave (p : Port) : Clock :=
  { c.setPort j { p with portState := .slave } with timers := slaveTimers p.bmca c.timers j }

def add (e : Event) : Clock :=
  { c with timers := addEventTimer c.timers j e }

def recommendState (p : Port) (state : PortState) : Clock :=
  match state with
  | .master => if p.portState ≠ .master then c.becomeMaster j p true else c
  | .slave => if p.portState ≠ .slave then c.becomeSlave j p else c
  | _ => c

def powerup (p : Port) : Clock :=
  let c := if p.portState ≠ .master then c.add j .pdelayIntervalTimeoutExpires else c
  if c.priority1 = 255 ∨ p.portState = .slave then c.becomeSlave j p
  else if p.portState = .master then c.becomeMaster j p true
  else if p.bmca then c.add j .announceReceiptTimeoutExpires
  else c

/-- `while (ports[j] == NULL) ++j`; nothing if it leaves the list. -/
def cursor : Option Nat :=
  ((c.portList.drop j).findIdx? Option.isSome).map (j + ·)

def erBest : Option Announce := (c.port j).bind (·.qualifiedAnnounce)

end Clock

def Port.Enabled (p : Port) : Prop := p.portState ≠ .disabled ∧ p.portState ≠ .faulty

instance (p : Port) : Decidable p.Enabled := inferInstanceAs (Decidable (_ ∧ _))

def loop (f : σ → Option σ) : Nat → σ → Option σ
  | 0, s => some s
  | n + 1, s => (f s).bind (loop f n)

def Clock.bestTurn (c : Clock) (s : Nat × Option Nat) : Option (Nat × Option Nat) := do
  let j ← c.cursor s.1
  let p ← c.port j
  if ¬ p.Enabled then return (j, s.2)
  match s.2 with
  | none => return (j, p.qualifiedAnnounce.map fun _ => j)
  | some k =>
    let er ← p.qualifiedAnnounce
    let best ← c.erBest k
    return (j, if er.isBetterThan best then some j else some k)

structure Recommendation where
  port : Nat
  state : PortState
  changedExternalMaster : Bool
  deriving DecidableEq

/-- The second loop: the clock, `j`, `EBest` and the calls of `recommendState`. -/
structure Turn where
  clock : Clock
  j : Nat
  best : Option Nat
  calls : List Recommendation

def Turn.recommend (t : Turn) (j : Nat) (p : Port) (state : PortState) (changed : Bool) : Turn :=
  { t with
    clock := t.clock.recommendState j p state
    j := j
    calls := t.calls ++ [⟨j, state, changed⟩] }

def Turn.next (changed : Bool) (t : Turn) : Option Turn := do
  let j ← t.clock.cursor t.j
  let p ← t.clock.port j
  if ¬ p.Enabled then return { t with j := j }
  match t.best with
  | none => return { t with j := j }
  | some k =>
    let best ← t.clock.erBest k
    if t.clock.isBetterThan best then return { t.recommend j p .master changed with best := none }
    else if k = j then
      let t := t.recommend j p .slave changed
      return { t with clock.grandmasterClockIdentity := best.grandmasterIdentity }
    else return t.recommend j p .master changed

namespace Clock

variable (c : Clock)

def eBest : Option (Option Nat) :=
  (loop c.bestTurn c.numberPorts (0, none)).map Prod.snd

def noteBest (best : Announce) : Clock :=
  let c := { c with lastEBestIdentity := best.grandmasterIdentity }
  if c.isBetterThan best then { c with grandmasterClockIdentity := c.clockIdentity } else c

/-- `STATE_CHANGE_EVENT`; nothing if a null pointer is followed. -/
def stateChange (bmca : Bool) : Option (Clock × List Recommendation) :=
  if ¬ bmca ∨ c.priority1 = 255 then some (c, [])
  else do
    match ← c.eBest with
    | none => return (c, [])
    | some k =>
      let best ← c.erBest k
      let changed : Bool := best.grandmasterIdentity ≠ c.lastEBestIdentity
      let t ← loop (Turn.next changed) c.numberPorts ⟨c.noteBest best, 0, some k, []⟩
      return (t.clock, t.calls)

/-- `ANNOUNCE_RECEIPT_TIMEOUT_EXPIRES` and `SYNC_RECEIPT_TIMEOUT_EXPIRES` -/
def receiptTimeout (j : Nat) (p : Port) (e : Event) : Clock :=
  if c.priority1 = 255 then
    if e = .announceReceiptTimeoutExpires ∧ p.bmca then c.add j .announceReceiptTimeoutExpires
    else c.add j .syncReceiptTimeoutExpires
  else if p.portState = .initializing ∨ p.portState = .uncalibrated ∨ p.portState = .slave ∨
      p.portState = .preMaster then
    let c := { c with grandmasterClockIdentity := c.clockIdentity }
    let p := { p with portState := .master, qualifiedAnnounce := none }
    let c := (c.setPort j p).add j .syncIntervalTimeoutExpires
    { c with timers := startAnnounce p.bmca c.timers j }
  else c

/-- `PTPMessageAnnounce::PTPMessageAnnounce` -/
def announceMessage (p : Port) : Message where
  header :=
    { versionPTP := 2
      messageLength := 0
      domainNumber := c.domainNumber
      flags := ⟨[0, 8], rfl⟩
      correctionField := 0
      sourcePortIdentity := ⟨c.clockIdentity, p.ifindex⟩
      sequenceId := p.announceSequenceId
      control := 5
      logMeanMessageInterval := p.logMeanAnnounceInterval }
  body := .announce
    { currentUtcOffset := c.currentUtcOffset
      grandmasterPriority1 := c.priority1
      grandmasterClockQuality := c.clockQuality
      grandmasterPriority2 := c.priority2
      grandmasterIdentity := c.grandmasterClockIdentity
      stepsRemoved := 0
      timeSource := c.timeSource
      pathTrace := [c.clockIdentity] }

/-- `ANNOUNCE_INTERVAL_TIMEOUT_EXPIRES`, with what is sent. -/
def announceInterval (j : Nat) (p : Port) : Clock × List Message :=
  if ¬ p.bmca then (c, [])
  else if p.asCapable then
    let next := { p with announceSequenceId := p.announceSequenceId + 1 }
    ((c.setPort j next).add j .announceIntervalTimeoutExpires, [c.announceMessage p])
  else (c.add j .announceIntervalTimeoutExpires, [])

/-- `PTPMessageAnnounce::processMessage` -/
def processAnnounce (j : Nat) (p : Port) (source : PortIdentity) (a : Announce) : Clock :=
  let c :=
    { c with timers := deleteEventTimer c.timers j .announceReceiptTimeoutExpires }
  let c :=
    if 255 ≤ a.stepsRemoved.toNat ∨ source.clockIdentity = c.clockIdentity ∨
        c.clockIdentity ∈ a.pathTrace then c
    else (c.setPort j { p with qualifiedAnnounce := some a }).add j .stateChangeEvent
  c.add j .announceReceiptTimeoutExpires

end Clock

/-- `event_descriptor_t`, with the time that the timer of its entry is armed with. -/
structure EventDescriptor where
  event : Event
  port : Nat
  micros : UInt32

abbrev EventQueue := TimerQueue Event EventDescriptor

structure EventTimer where
  target : Nat
  e : Event
  timeNs : UInt64
  result : AddResult

namespace EventQueue

def addEventTimer (q : EventQueue) (c : EventTimer) : EventQueue :=
  q.addEvent c.e ⟨c.e, c.target, (c.timeNs / 1000).toUInt32⟩ c.result

def deleteEventTimer (q : EventQueue) (_target : Nat) (event : Event) : EventQueue :=
  q.cancelEvent event

variable {q : EventQueue} {target : Nat} {event : Event}

/-- Every entry has the type of its own event, and no timer was dispatched. -/
structure Built (q : EventQueue) : Prop where
  ok : q.Ok
  typed : ∀ e ∈ q.timerQueueMap, e.2.type = e.2.innerArg.event
  log_eq : q.log = []

theorem built_empty : Built {} := ⟨TimerQueue.ok_empty, nofun, rfl⟩

theorem Built.addEventTimer (h : q.Built) (c : EventTimer) : (q.addEventTimer c).Built where
  ok := h.ok.addEvent ..
  typed := by
    unfold EventQueue.addEventTimer TimerQueue.addEvent
    split
    · exact h.typed
    · simpa using h.typed
  log_eq := by
    unfold EventQueue.addEventTimer TimerQueue.addEvent
    split <;> exact h.log_eq

/-- Exactly the entries for the port and the event go, and exactly the timers of the others stay
armed. -/
structure DeletesOnly (q : EventQueue) (target : Nat) (event : Event) : Prop where
  entries : (q.deleteEventTimer target event).timerQueueMap =
    q.timerQueueMap.filter fun e => ¬ (e.2.innerArg.port = target ∧ e.2.innerArg.event = event)
  armed : ∀ t ∈ q.armed, t ∈ (q.deleteEventTimer target event).armed ↔
    ∃ e ∈ (q.deleteEventTimer target event).timerQueueMap, e.1 = t.2 ∧ e.2.timerHandle = t.1

theorem Built.armed_iff (h : q.Built) {t : Nat × Nat} (ht : t ∈ q.armed) :
    t ∈ (q.deleteEventTimer target event).armed ↔
      ∃ e ∈ (q.deleteEventTimer target event).timerQueueMap, e.1 = t.2 ∧ e.2.timerHandle = t.1 := by
  obtain ⟨-, -, hdispatched | ⟨e, he, hkey, hhandle⟩⟩ := h.ok.armed t ht
  · simp [h.log_eq] at hdispatched
  · -- the timer is that of `e` only
    have hsame : ∀ e' ∈ q.timerQueueMap, e'.2.timerHandle = t.1 → e' = e := fun e' he' heq =>
      List.inj_on_of_nodup_map h.ok.handles he' he (heq.trans hhandle.symm)
    simp only [deleteEventTimer, TimerQueue.cancelEvent, List.mem_filter, ht, true_and,
      decide_eq_true_eq, List.mem_map]
    constructor
    · intro hgone
      exact ⟨e, ⟨he, fun htype => hgone ⟨e, ⟨he, htype⟩, hhandle⟩⟩, hkey, hhandle⟩
    · rintro ⟨e', ⟨he', hne⟩, -, heq⟩ ⟨e'', ⟨he'', htype⟩, heq'⟩
      rw [hsame e' he' heq] at hne
      rw [hsame e'' he'' heq'] at htype
      exact hne htype

/-- Deleting removes what it should exactly if no other port has a timer for the event. -/
theorem deleteEventTimer_only_iff (calls : List EventTimer) (target : Nat) (event : Event) :
    (run addEventTimer {} calls).DeletesOnly target event ↔
      ∀ e ∈ (run addEventTimer {} calls).timerQueueMap,
        e.2.innerArg.event = event → e.2.innerArg.port = target := by
  have hbuilt : (run addEventTimer {} calls).Built :=
    (always_of_step (fun q c (h : Built q) => h.addEventTimer c) built_empty calls).last
  generalize run addEventTimer {} calls = q at hbuilt
  constructor
  · intro h e he hevent
    by_contra hport
    have hstays : e ∈ (q.deleteEventTimer target event).timerQueueMap := by
      rw [h.entries]
      simp [he, hport]
    simp [deleteEventTimer, TimerQueue.cancelEvent, hbuilt.typed e he, hevent] at hstays
  · intro h
    refine ⟨List.filter_congr fun e he => ?_, fun t => hbuilt.armed_iff⟩
    have hport := h e he
    by_cases hevent : e.2.innerArg.event = event <;> simp_all [hbuilt.typed e he]

/-- Two ports wait for a sync message, and one of them stops waiting. -/
theorem deleteEventTimer_other_port :
    let q := run addEventTimer {} [⟨0, .syncReceiptTimeoutExpires, 375000000, .armed⟩,
      ⟨1, .syncReceiptTimeoutExpires, 375000000, .armed⟩]
    q.timerQueueMap.map (fun e => e.2.innerArg.port) = [1, 0] ∧
      (q.deleteEventTimer 0 .syncReceiptTimeoutExpires).timerQueueMap = [] ∧
      (q.deleteEventTimer 0 .syncReceiptTimeoutExpires).armed = [] := by
  decide

end EventQueue

end OpenAvb.Gptp
