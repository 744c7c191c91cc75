import OpenAvb.Ring
import OpenAvb.Run

/-!
# The queue of the log

Slots in a ring, each with a flag that it is filled. A full and an empty queue have
their positions in one place. A push fills the slot that was locked; a caller that
gets no slot does not push, and one that gets none at the tail does not pull.
-/

namespace OpenAvb.Pipeline

section

variable {α : Type}

structure QueueElem (α : Type) where
  setFlg : Bool
  data : α

structure Queue (α : Type) where
  (queueSize head tail : Nat)
  elemArray : Nat → QueueElem α

namespace Queue

def newQueue (blank : α) (queueSize : Nat) : Queue α := ⟨queueSize, 0, 0, fun _ => ⟨false, blank⟩⟩

def getElemCount (q : Queue α) : Nat :=
  (if q.head > q.tail then q.head - q.tail - 1
    else if q.head < q.tail then q.head + ((q.queueSize - 1) - q.tail) else 0) +
  if (q.elemArray q.tail).setFlg then 1 else 0

/-- The position of the slot. -/
def headLock (q : Queue α) : Option Nat :=
  if !(q.elemArray q.head).setFlg then some q.head else none

def headPush (q : Queue α) (x : α) : Queue α :=
  { q with
    elemArray := Function.update q.elemArray q.head ⟨true, x⟩
    head := if q.head + 1 ≥ q.queueSize then 0 else q.head + 1 }

def tailLock (q : Queue α) : Option α :=
  if (q.elemArray q.tail).setFlg then some (q.elemArray q.tail).data else none

def tailPull (q : Queue α) : Queue α :=
  { q with
    elemArray := Function.update q.elemArray q.tail { q.elemArray q.tail with setFlg := false }
    tail := if q.tail + 1 ≥ q.queueSize then 0 else q.tail + 1 }

end Queue

inductive ElemCall (α : Type) where
  | push (x : α)
  | pull

def Queue.step (q : Queue α) : ElemCall α → Queue α
  | .push x => if q.headLock.isSome then q.headPush x else q
  | .pull => if q.tailLock.isSome then q.tailPull else q

/-- The queue as it is meant, with room for `N`. -/
def fifoStep (N : Nat) (queued : List α) : ElemCall α → List α
  | .push x => if queued.length < N then queued ++ [x] else queued
  | .pull => queued.tail

def QueueElem.content (e : QueueElem α) : Option α := if e.setFlg then some e.data else none

structure Queue.Holds (N : Nat) (q : Queue α) (queued : List α) : Prop where
  size : q.queueSize = N
  tail : q.tail < N
  fits : queued.length ≤ N
  head : q.head = slot N q.tail queued.length
  stored : ∀ k < N, (q.elemArray (slot N q.tail k)).content = queued[k]?

namespace Queue.Holds

variable {N : Nat} {q : Queue α} {queued : List α}

theorem new (blank : α) (hN : 0 < N) : Holds N (newQueue blank N) [] := by
  refine ⟨rfl, hN, Nat.zero_le N, (slot_zero hN).symm, fun k _ => ?_⟩
  simp [newQueue, QueueElem.content]

section

variable (h : Holds N q queued)
include h

theorem tailLock : q.tailLock = queued.head? := by
  have hfirst := h.stored 0 (Nat.zero_lt_of_lt h.tail)
  rw [slot_zero h.tail] at hfirst
  rw [List.head?_eq_getElem?, ← hfirst]
  rfl

theorem headLock : q.headLock = none ↔ queued.length = N := by
  -- in a full queue the head stands at the oldest element
  rcases Nat.lt_or_eq_of_le h.fits with hroom | hfull
  · have hfree := h.stored queued.length hroom
    rw [← h.head, List.getElem?_eq_none (le_refl _)] at hfree
    cases hset : (q.elemArray q.head).setFlg with
    | false => simp [Queue.headLock, hset, ne_of_lt hroom]
    | true => simp [QueueElem.content, hset] at hfree
  · have hN : 0 < queued.length := hfull ▸ Nat.zero_lt_of_lt h.tail
    have hhead : q.head = q.tail := by rw [h.head, hfull, slot_ring h.tail]
    have hfirst := h.stored 0 (hfull ▸ hN)
    rw [slot_zero h.tail, List.getElem?_eq_getElem hN] at hfirst
    cases hset : (q.elemArray q.tail).setFlg with
    | false => simp [QueueElem.content, hset] at hfirst
    | true => simp [Queue.headLock, hhead, hset, hfull]

theorem headPush (hroom : queued.length < N) (x : α) : Holds N (q.headPush x) (queued ++ [x]) where
  size := h.size
  tail := h.tail
  fits := by simp; omega
  head := by
    have hnext := slot_succ (t := q.tail) (k := queued.length) (Nat.zero_lt_of_lt hroom)
    simpa [Queue.headPush, h.size, ← h.head] using hnext.symm
  stored k hk := by
    by_cases hlast : k = queued.length
    · subst hlast
      simp [Queue.headPush, ← h.head, QueueElem.content]
    · have hother : slot N q.tail k ≠ q.head := by
        rw [h.head]
        exact fun heq => hlast (slot_inj hk hroom heq)
      simp only [Queue.headPush, Function.update_of_ne hother, h.stored k hk]
      grind

theorem tailPull (hany : queued ≠ []) : Holds N q.tailPull queued.tail := by
  have hpos := List.length_pos_of_ne_nil hany
  have hfits := h.fits
  have hnext : q.tailPull.tail = slot N q.tail 1 := by
    rw [slot_succ (by omega), slot_zero h.tail, ← h.size]
    rfl
  refine ⟨h.size, hnext ▸ slot_lt (by omega), by simp; omega, ?_, fun k hk => ?_⟩
  · rw [hnext, slot_slot, List.length_tail, Nat.add_sub_cancel' hpos]
    exact h.head
  · rw [hnext, slot_slot, add_comm, List.getElem?_tail]
    by_cases hwrap : k + 1 = N
    · rw [hwrap, slot_ring h.tail, List.getElem?_eq_none (by omega)]
      simp [Queue.tailPull, QueueElem.content]
    · rw [← h.stored (k + 1) (by omega)]
      simp [Queue.tailPull, slot_ne h.tail (Nat.succ_pos k) (show k + 1 < N by omega)]

theorem step (call : ElemCall α) : Holds N (q.step call) (fifoStep N queued call) := by
  have hfits := h.fits
  cases call with
  | push x =>
    by_cases hroom : queued.length < N
    · have hlock : q.headLock ≠ none := fun hnone => by have := h.headLock.mp hnone; omega
      simpa [Queue.step, fifoStep, hroom, Option.isSome_iff_ne_none, hlock] using h.headPush hroom x
    · simpa [Queue.step, fifoStep, hroom, h.headLock.mpr (by omega)] using h
  | pull =>
    cases queued with
    | nil => simpa [Queue.step, fifoStep, h.tailLock] using h
    | cons y rest => simpa [Queue.step, fifoStep, h.tailLock] using h.tailPull (by simp)

theorem run (calls : List (ElemCall α)) :
    Holds N (OpenAvb.run Queue.step q calls) (OpenAvb.run (fifoStep N) queued calls) := by
  induction calls generalizing q queued with
  | nil => exact h
  | cons call calls ih => exact ih (h.step call)

theorem getElemCount : q.getElemCount = if queued.length = N then 1 else queued.length := by
  have hfits := h.fits
  have htail := h.tail
  have hset : (q.elemArray q.tail).setFlg = !queued.isEmpty := by
    have hlock := h.tailLock
    cases hq : queued <;> cases he : (q.elemArray q.tail).setFlg <;>
      simp [Queue.tailLock, hq, he] at hlock ⊢
  have hhead : q.head = if q.tail + queued.length < N then q.tail + queued.length
      else q.tail + queued.length - N := by
    rw [h.head, slot]
    split
    · exact Nat.mod_eq_of_lt ‹_›
    · rw [Nat.mod_eq_sub_mod (by omega), Nat.mod_eq_of_lt (by omega)]
  rw [Queue.getElemCount, hset, h.size, hhead]
  cases queued with
  | nil => simp [show q.tail < N from htail]; omega
  | cons x rest => simp at hfits ⊢; grind

end

end Queue.Holds

/-- Behind any calls the queue locks and gives out what a bounded FIFO does; its count is right
exactly if it is not full, or has only one slot. -/
theorem queue_fifo_count_iff (blank : α) (N : Nat) (hN : 1 ≤ N) (calls : List (ElemCall α)) :
    let q := run Queue.step (.newQueue blank N) calls
    let queued := run (fifoStep N) [] calls
    (q.headLock = none ↔ queued.length = N) ∧ (q.tailLock = none ↔ queued = []) ∧
      q.tailLock = queued.head? ∧
      (q.getElemCount = queued.length ↔ queued.length < N ∨ N = 1) := by
  intro q queued
  have h : q.Holds N queued := (Queue.Holds.new blank hN).run calls
  have hfits := h.fits
  refine ⟨h.headLock, by simp [h.tailLock], h.tailLock, ?_⟩
  rw [h.getElemCount]
  split <;> omega

theorem queue_fifo_count_iff_two : (run Queue.step (.newQueue 0 2) [.push 7]).getElemCount =
      (run (fifoStep 2) [] [.push 7]).length :=
  (queue_fifo_count_iff 0 2 (by decide) [.push 7]).2.2.2.mpr (by decide)

/-- Two elements fill a queue of two, which then counts one. -/
theorem queue_full_counts_one : (run (fifoStep 2) [] [.push 7, .push 8]).length = 2 ∧
      (run Queue.step (.newQueue 0 2) [.push 7, .push 8]).getElemCount = 1 := by
  decide

end

/-! ## Messages that are logged in real time -/

open List

structure RtItem (α : Type) where
  data : α
  bEnd : Bool

/-- `logQueue` holds ordinary messages, `none`, and markers with the items of their message in
`logRTQueue`; `opened` are those of the message that is being logged, under the mutex, and `ending`
says that its marker is to follow. `msg` is what the thread has rendered, `rendered` that the end
was found. -/
structure RtLog (α : Type) where
  (rtSize logSize : Nat)
  logRTQueue : List (RtItem α)
  logQueue : List (Option (List (RtItem α)))
  (locked ending : Bool)
  (opened msg : List (RtItem α))
  rendered : Bool

/-- Accesses to the queues; the end call makes two, between which the thread may run. -/
inductive LogCall (α : Type) where
  | avbLogFn
  | rtBegin (now : α)
  | rtItem (data : α)
  | rtEnd (data : α)
  | rtMark
  | thread

/-- What the loop of `avbLogRTRender` takes off the queue, `none` if it waits for another item. -/
def avbLogRTRender {α : Type} : List (RtItem α) → Option (List (RtItem α) × List (RtItem α))
  | [] => none
  | i :: items =>
    if i.bEnd then some ([i], items)
    else (avbLogRTRender items).map fun r => (i :: r.1, r.2)

namespace RtLog

variable {α : Type}

def init (rtSize logSize : Nat) : RtLog α := ⟨rtSize, logSize, [], [], false, false, [], [], false⟩

section

variable (s : RtLog α)

def pushItem (i : RtItem α) : RtLog α :=
  if s.logRTQueue.length < s.rtSize then
    { s with logRTQueue := s.logRTQueue ++ [i], opened := s.opened ++ [i] }
  else s

def pushEntry (entry : Option (List (RtItem α))) : RtLog α :=
  if s.logQueue.length < s.logSize then { s with logQueue := s.logQueue ++ [entry] } else s

/-- The logging thread up to its next access to a queue. -/
def threadStep : RtLog α :=
  if s.rendered then { s with logQueue := s.logQueue.tail, msg := [], rendered := false }
  else
    match s.logQueue, s.logRTQueue with
    | none :: log, _ => { s with logQueue := log }
    | some _ :: _, i :: items =>
      { s with logRTQueue := items, msg := s.msg ++ [i], rendered := i.bEnd }
    | _, _ => s

def step : LogCall α → RtLog α
  | .avbLogFn => if s.locked then s else s.pushEntry none
  | .rtBegin now => if s.locked then s else { s.pushItem ⟨now, false⟩ with locked := true }
  | .rtItem data => if s.locked && !s.ending then s.pushItem ⟨data, false⟩ else s
  | .rtEnd data =>
    if s.locked && !s.ending then { s.pushItem ⟨data, true⟩ with ending := true } else s
  | .rtMark =>
    if s.ending then
      { s.pushEntry (some s.opened) with locked := false, ending := false, opened := [] }
    else s
  | .thread => s.threadStep

/-- For each marker in turn the loop ends with what is in the queue, and its text, for the first one
behind `msg`, is that of the message; the items in `opened` are left. -/
def Splits (opened : List (RtItem α)) :
    List (RtItem α) → List (Option (List (RtItem α))) → List (RtItem α) → Prop
  | msg, [], items => msg = [] ∧ items = opened
  | msg, none :: log, items => msg = [] ∧ Splits opened [] log items
  | msg, some whole :: log, items =>
    ∃ text rest, avbLogRTRender items = some (text, rest) ∧ msg ++ text = whole ∧
      Splits opened [] log rest

def Whole : Prop :=
  if s.rendered then ∃ log, s.logQueue = some s.msg :: log ∧ Splits s.opened [] log s.logRTQueue
  else Splits s.opened s.msg s.logQueue s.logRTQueue

/-- When the marker of a message is to follow there is room for it and the end of the message was
queued, or there is no room and none of its items was. -/
def HasRoom : LogCall α → Prop
  | .rtMark => s.ending →
      if s.logQueue.length < s.logSize then ∃ i ∈ s.opened, i.bEnd else s.opened = []
  | _ => True

/-- A message is only ended by its last item. -/
structure Opened : Prop where
  ended : ∃ body, (∀ i ∈ body, i.bEnd = false) ∧
    (s.opened = body ∨ s.ending = true ∧ ∃ data, s.opened = body ++ [⟨data, true⟩])
  unlocked : s.locked = false → s.opened = [] ∧ s.ending = false

end

variable {s s' : RtLog α} {i : RtItem α} {opened opened' msg items text rest : List (RtItem α)}
  {log log' : List (Option (List (RtItem α)))}

theorem render_append (h : avbLogRTRender items = some (text, rest)) (behind : List (RtItem α)) :
    avbLogRTRender (items ++ behind) = some (text, rest ++ behind) := by
  induction items generalizing text with
  | nil => cases h
  | cons i items ih =>
    simp only [avbLogRTRender, cons_append] at h ⊢
    cases hend : i.bEnd with
    | true => simp_all
    | false =>
      simp only [hend, Bool.false_eq_true, if_false, Option.map_eq_some_iff] at h ⊢
      obtain ⟨⟨text', rest'⟩, hrender, hcons⟩ := h
      cases hcons
      exact ⟨_, ih hrender, rfl⟩

theorem render_opened (h : ∀ i ∈ opened, i.bEnd = false) : avbLogRTRender opened = none ∧
    ∀ data, avbLogRTRender (opened ++ [⟨data, true⟩]) = some (opened ++ [⟨data, true⟩], []) := by
  induction opened with
  | nil => exact ⟨rfl, fun _ => rfl⟩
  | cons i opened ih =>
    obtain ⟨hi, hopened⟩ := forall_mem_cons.mp h
    simp [avbLogRTRender, hi, ih hopened]

/-- What is put behind queues that split does not change the messages in front. -/
theorem splits_append_iff (h : Splits opened msg log items) :
    Splits opened' msg (log ++ log') (items ++ rest) ↔ Splits opened' [] log' (opened ++ rest) := by
  induction log generalizing msg items with
  | nil =>
    obtain ⟨rfl, rfl⟩ := h
    rfl
  | cons entry log ih =>
    cases entry with
    | none => simpa [Splits, h.1] using ih h.2
    | some whole =>
      obtain ⟨text, left, hrender, hwhole, hrest⟩ := h
      simp [Splits, render_append hrender, hwhole, ih hrest]

theorem whole_append_iff (h : s.Whole) (hrendered : s'.rendered = s.rendered)
    (hmsg : s'.msg = s.msg) (hlog : s'.logQueue = s.logQueue ++ l)
    (hitems : s'.logRTQueue = s.logRTQueue ++ r) :
    s'.Whole ↔ Splits s'.opened [] l (s.opened ++ r) := by
  unfold Whole at h ⊢
  rw [hrendered, hmsg, hlog, hitems]
  cases hdone : s.rendered with
  | true =>
    simp only [hdone, if_true] at h ⊢
    obtain ⟨log, hhead, hsplits⟩ := h
    simp [hhead, splits_append_iff hsplits]
  | false =>
    simp only [hdone, Bool.false_eq_true, if_false] at h ⊢
    exact splits_append_iff h

theorem Whole.thread (h : s.Whole) : s.threadStep.Whole := by
  unfold threadStep
  cases hrendered : s.rendered with
  | true =>
    simp only [Whole, hrendered, if_true] at h
    obtain ⟨log, hlog, hsplits⟩ := h
    simpa [Whole, hlog] using hsplits
  | false =>
    simp only [Whole, hrendered, Bool.false_eq_true, if_false] at h ⊢
    split
    case h_1 log hlog =>
      rw [hlog] at h
      simpa [hrendered, h.1] using h.2
    case h_2 whole log i items hlog hitems =>
      rw [hlog, hitems] at h
      obtain ⟨text, rest, hrender, hwhole, hrest⟩ := h
      simp only [avbLogRTRender] at hrender
      cases hend : i.bEnd with
      | true => simp_all
      | false =>
        simp only [hend, Bool.false_eq_true, if_false, Option.map_eq_some_iff] at hrender
        obtain ⟨⟨text', rest'⟩, hrender, hcons⟩ := hrender
        cases hcons
        simp [hlog, Splits, hrender, ← hwhole, hrest]
    case h_3 => simpa [hrendered] using h

theorem Opened.more (h : s.Opened) (hending : s.ending = false) : ∀ i ∈ s.opened, i.bEnd = false := by
  obtain ⟨body, hbody, hopened | ⟨htrue, -⟩⟩ := h.ended
  · rwa [hopened]
  · cases hending.symm.trans htrue

theorem Opened.item (h : s.Opened) (hending : s.ending = false) (data : α) :
    ∀ i ∈ (s.pushItem ⟨data, false⟩).opened, i.bEnd = false := by
  have hmore := h.more hending
  unfold pushItem
  split
  · simpa [or_imp, forall_and] using hmore
  · exact hmore

theorem Opened.step (h : s.Opened) (call : LogCall α) : (s.step call).Opened := by
  cases call with
  | avbLogFn =>
    simp only [RtLog.step, pushEntry]
    split
    · exact h
    · split <;> exact ⟨h.ended, h.unlocked⟩
  | rtBegin now =>
    cases hlocked : s.locked with
    | true => simpa [RtLog.step, hlocked] using h
    | false =>
      simp only [RtLog.step, hlocked]
      exact ⟨⟨_, h.item (h.unlocked hlocked).2 now, .inl rfl⟩, nofun⟩
  | rtItem data =>
    simp only [RtLog.step, Bool.and_eq_true, Bool.not_eq_true']
    split
    case isTrue hopen =>
      refine ⟨⟨_, h.item hopen.2 data, .inl rfl⟩, fun hlocked => ?_⟩
      unfold pushItem at hlocked
      split at hlocked <;> cases hopen.1.symm.trans hlocked
    case isFalse => exact h
  | rtEnd data =>
    simp only [RtLog.step, Bool.and_eq_true, Bool.not_eq_true']
    split
    case isTrue hopen =>
      unfold pushItem
      split
      · exact ⟨⟨_, h.more hopen.2, .inr ⟨rfl, data, rfl⟩⟩,
          fun hlocked => Bool.noConfusion (hopen.1.symm.trans hlocked)⟩
      · exact ⟨⟨_, h.more hopen.2, .inl rfl⟩,
          fun hlocked => Bool.noConfusion (hopen.1.symm.trans hlocked)⟩
    case isFalse => exact h
  | rtMark =>
    simp only [RtLog.step]
    split
    · exact ⟨⟨[], nofun, .inl rfl⟩, fun _ => ⟨rfl, rfl⟩⟩
    · exact h
  | thread =>
    simp only [RtLog.step, threadStep]
    repeat' split
    all_goals exact ⟨h.ended, h.unlocked⟩

theorem whole_mark_iff (h : s.Whole) (hopened : s.Opened) (hending : s.ending = true) :
    (s.step .rtMark).Whole ↔ s.HasRoom .rtMark := by
  simp only [step, hending, if_true, HasRoom, true_imp_iff]
  by_cases hroom : s.logQueue.length < s.logSize
  · rw [whole_append_iff (l := [some s.opened]) (r := []) h]
    · obtain ⟨body, hbody, hbare | ⟨-, data, hended⟩⟩ := hopened.ended
      · obtain ⟨hnone, -⟩ := render_opened hbody
        simpa [hroom, hbare, Splits, hnone] using hbody
      · obtain ⟨-, hsome⟩ := render_opened hbody
        simp [hroom, hended, Splits, hsome data]
    all_goals simp [hroom, pushEntry]
  · rw [whole_append_iff (l := []) (r := []) h]
    all_goals simp [hroom, pushEntry, Splits]

theorem Whole.pushItem (h : s.Whole) (i : RtItem α) : (s.pushItem i).Whole := by
  unfold RtLog.pushItem
  split
  · exact Iff.mpr (whole_append_iff h rfl rfl (append_nil _).symm rfl) ⟨rfl, rfl⟩
  · exact h

theorem whole_step_iff (h : s.Whole) (hopened : s.Opened) (call : LogCall α) :
    (s.step call).Whole ↔ s.HasRoom call := by
  cases call with
  | avbLogFn =>
    refine iff_of_true ?_ trivial
    simp only [step, pushEntry]
    split
    · exact h
    · split
      · exact Iff.mpr (whole_append_iff h rfl rfl rfl (append_nil _).symm) (by simp [Splits])
      · exact h
  | rtBegin now =>
    refine iff_of_true ?_ trivial
    simp only [step]
    split
    · exact h
    · exact h.pushItem ⟨now, false⟩
  | rtItem data =>
    refine iff_of_true ?_ trivial
    simp only [step]
    split
    · exact h.pushItem ⟨data, false⟩
    · exact h
  | rtEnd data =>
    refine iff_of_true ?_ trivial
    simp only [step]
    split
    · exact h.pushItem ⟨data, true⟩
    · exact h
  | rtMark =>
    cases hending : s.ending with
    | true => exact whole_mark_iff h hopened hending
    | false => simpa [step, HasRoom, hending] using h
  | thread => exact iff_of_true h.thread trivial

/-- Every message is rendered whole, without a wait, in every state of exactly the runs in which no
marker follows a message without its end, and none that is dropped leaves items behind. -/
theorem rtLog_whole_iff (rtSize logSize : Nat) (calls : List (LogCall α)) :
    Always step Whole (init rtSize logSize) calls ↔ Each step HasRoom (init rtSize logSize) calls :=
  always_iff_each (I := Opened) (fun _ call h => h.step call)
    (fun _ call hopened h => whole_step_iff h hopened call)
    ⟨⟨[], nofun, .inl rfl⟩, fun _ => ⟨rfl, rfl⟩⟩ ⟨rfl, rfl⟩

/-- With room for two items, the end of the message is dropped and its marker is not: the thread
takes both items and waits. -/
theorem rtLog_waits :
    let s := run step (init 2 8) [.rtBegin 0, .rtItem 1, .rtEnd 2, .rtMark, .thread, .thread]
    s.logQueue.length = 1 ∧ s.rendered = false ∧ s.logRTQueue.length = 0 := by
  decide

end RtLog

end OpenAvb.Pipeline
