import Mathlib.Algebra.BigOperators.Fin
import Mathlib.Data.Fintype.Card
import Mathlib.Data.List.Nodup
import OpenAvb.Run

/-!
# The ticketing lock

Two counters of eight bits: the next ticket to issue and the ticket that is served. A thread that
only tries gives its ticket back. A call of `lock` is cut at its waits, where the mutex is free.
-/

namespace OpenAvb.Gptp

open Function List

structure TicketingLock where
  initFlag : Bool
  (condTicketIssue condTicketServing : UInt8)

/-- How a call of `lock` leaves the mutex. -/
inductive Admission where
  | refused
  | obtained
  | busy
  | waits (ticket : UInt8)

namespace TicketingLock

/-- The test of the loop in `lock`, at its start and behind a wait; `got`: the caller wants the
result. -/
def awaitTurn (got : Bool) (ticket : UInt8) (l : TicketingLock) : Admission × TicketingLock :=
  if ticket ≠ l.condTicketServing then
    if got then (.busy, { l with condTicketIssue := l.condTicketIssue - 1 })
    else (.waits ticket, l)
  else (.obtained, l)

def lock (got : Bool) (l : TicketingLock) : Admission × TicketingLock :=
  if !l.initFlag then (.refused, l)
  else
    let ticket := l.condTicketIssue
    awaitTurn got ticket { l with condTicketIssue := l.condTicketIssue + 1 }

def unlock (l : TicketingLock) : Bool × TicketingLock :=
  if !l.initFlag then (false, l)
  else (true, { l with condTicketServing := l.condTicketServing + 1 })

def new (issue serving : UInt8) : TicketingLock := ⟨false, issue, serving⟩

def init (l : TicketingLock) : Bool × TicketingLock :=
  if l.initFlag then (false, l) else (true, ⟨true, 0, 0⟩)

variable {l : TicketingLock}

theorem lock_served (hinit : l.initFlag = true) (h : l.condTicketIssue = l.condTicketServing) :
    l.lock got = (.obtained, { l with condTicketIssue := l.condTicketIssue + 1 }) := by
  simp [lock, awaitTurn, hinit, h]

section

variable (hinit : l.initFlag = true) (h : l.condTicketIssue ≠ l.condTicketServing)
include hinit h

theorem lock_waits :
    l.lock false =
      (.waits l.condTicketIssue, { l with condTicketIssue := l.condTicketIssue + 1 }) := by
  simp [lock, awaitTurn, hinit, h]

theorem trylock_busy : l.lock true = (.busy, l) := by
  cases l
  simp_all [lock, awaitTurn]

end

theorem trylock_not_obtained (h : (l.lock true).1 ≠ .obtained) :
    l.lock true = (.refused, l) ∨ l.lock true = (.busy, l) := by
  cases hinit : l.initFlag with
  | false => exact .inl (by simp [lock, hinit])
  | true =>
    by_cases hs : l.condTicketIssue = l.condTicketServing
    · exact absurd (congrArg Prod.fst (lock_served hinit hs)) h
    · exact .inr (trylock_busy hinit hs)

end TicketingLock

structure Thread where
  waiting : Option UInt8
  /-- The condition was signalled since it started to wait. -/
  woken : Bool
  holds : Nat

structure Threads (n : Nat) where
  lock : TicketingLock
  thread : Fin n → Thread
  (issued obtained : List (Fin n))

/-- One critical section of the mutex. A thread may be woken without a signal. -/
inductive Section (n : Nat) where
  | lock (t : Fin n)
  | trylock (t : Fin n)
  | wake (t : Fin n)
  | unlock (t : Fin n)

namespace Threads

variable {n : Nat}

section

variable (s : Threads n) (t : Fin n)

def hold (l : TicketingLock) : Threads n :=
  { s with
    lock := l
    thread := update s.thread t ⟨none, false, (s.thread t).holds + 1⟩
    obtained := s.obtained ++ [t] }

def wait (ticket : UInt8) (l : TicketingLock) : Threads n :=
  { s with
    lock := l
    thread := update s.thread t ⟨some ticket, false, (s.thread t).holds⟩ }

def settle : Admission × TicketingLock → Threads n
  | (.refused, l) | (.busy, l) => { s with lock := l }
  | (.obtained, l) => s.hold t l
  | (.waits ticket, l) => s.wait t ticket l

def issue : Admission → Threads n
  | .refused | .busy => s
  | .obtained | .waits _ => { s with issued := s.issued ++ [t] }

def step : Section n → Threads n
  | .lock t => (s.issue t (s.lock.lock false).1).settle t (s.lock.lock false)
  | .trylock t => (s.issue t (s.lock.lock true).1).settle t (s.lock.lock true)
  | .wake t =>
    match (s.thread t).waiting with
    | none => s
    | some ticket => s.settle t (s.lock.awaitTurn false ticket)
  | .unlock t =>
    { s with
      lock := s.lock.unlock.2
      -- the broadcast wakes all that wait
      thread := fun u =>
        { s.thread u with
          woken := true
          holds := if u = t then (s.thread u).holds - 1 else (s.thread u).holds } }

/-- A thread calls only while it is not inside `lock`, and unlocks only what it holds. -/
def Proper : Section n → Prop
  | .lock t | .trylock t => (s.thread t).waiting = none
  | .wake t => (s.thread t).waiting ≠ none
  | .unlock t => (s.thread t).waiting = none ∧ 0 < (s.thread t).holds

instance (s : Threads n) : (c : Section n) → Decidable (s.Proper c)
  | .lock _ | .trylock _ => inferInstanceAs (Decidable (_ = _))
  | .wake _ => inferInstanceAs (Decidable (_ ≠ _))
  | .unlock _ => inferInstanceAs (Decidable (_ ∧ _))

def start (n : Nat) (issue serving : UInt8) : Threads n where
  lock := (TicketingLock.new issue serving).init.2
  thread := fun _ => ⟨none, false, 0⟩
  issued := []
  obtained := []

def held : Nat := ∑ t, (s.thread t).holds

/-- The threads of the line wait with the tickets behind the one that was admitted last. -/
structure Line (line : List (Fin n)) : Prop where
  initFlag : s.lock.initFlag = true
  issued : s.issued = s.obtained ++ line
  nodup : line.Nodup
  waiting : ∀ t, (s.thread t).waiting ≠ none → t ∈ line
  ticket : ∀ k t, (line)[k]? = some t →
    (s.thread t).waiting = some (UInt8.ofNat (s.obtained.length + k))
  issue : s.lock.condTicketIssue = UInt8.ofNat (s.obtained.length + line.length)
  held : s.held ≤ 1
  serving : ∃ released, s.obtained.length = released + s.held ∧
    s.lock.condTicketServing = UInt8.ofNat released

def Signalled : Prop :=
  ∀ t, (s.thread t).waiting = some s.lock.condTicketServing → (s.thread t).woken = true

theorem ofNat_eq_base_iff (hk : k < 256) : UInt8.ofNat (a + k) = UInt8.ofNat a ↔ k = 0 := by
  constructor
  · intro h
    have h := congrArg UInt8.toNat h
    simp only [UInt8.toNat_ofNat'] at h
    omega
  · rintro rfl
    rfl

theorem sum_holds_update (thread : Fin n → Thread) (t : Fin n) (th : Thread) :
    ∑ u, (update thread t th u).holds + (thread t).holds = ∑ u, (thread u).holds + th.holds := by
  have hupdate : ∀ u ∈ Finset.univ.erase t,
      (update thread t th u).holds = (thread u).holds := by
    intro u hu
    rw [update_of_ne (Finset.ne_of_mem_erase hu)]
  rw [← Finset.add_sum_erase _ _ (Finset.mem_univ t), Finset.sum_congr rfl hupdate,
    ← Finset.add_sum_erase _ (fun u => (thread u).holds) (Finset.mem_univ t), update_self]
  omega

theorem held_hold (l : TicketingLock) : (s.hold t l).held = s.held + 1 := by
  have h := sum_holds_update s.thread t ⟨none, false, (s.thread t).holds + 1⟩
  unfold held hold
  simp only at h ⊢
  omega

theorem held_wait (ticket : UInt8) (l : TicketingLock) : (s.wait t ticket l).held = s.held := by
  have h := sum_holds_update s.thread t ⟨some ticket, false, (s.thread t).holds⟩
  unfold held wait
  simp only at h ⊢
  omega

end

variable {s : Threads n}

theorem held_unlock (ht : 0 < (s.thread t).holds) : (s.step (.unlock t)).held + 1 = s.held := by
  have h := sum_holds_update s.thread t ⟨none, false, (s.thread t).holds - 1⟩
  have heq : (s.step (.unlock t)).held =
      ∑ u, (update s.thread t ⟨none, false, (s.thread t).holds - 1⟩ u).holds := by
    refine Finset.sum_congr rfl fun u _ => ?_
    by_cases hu : u = t
    · subst hu
      simp [step]
    · simp [step, hu]
  rw [heq]
  unfold held
  simp only at h
  omega

theorem hold_wait (s : Threads n) (t : Fin n) (ticket : UInt8) (l l' : TicketingLock) :
    (s.wait t ticket l').hold t l = s.hold t l := by
  simp [hold, wait]

namespace Line

variable {s : Threads n} {line : List (Fin n)}

section

variable (h : s.Line line)
include h

theorem not_mem (ht : (s.thread t).waiting = none) : t ∉ line := by
  intro hmem
  obtain ⟨k, hk⟩ := mem_iff_getElem?.mp hmem
  rw [h.ticket k t hk] at ht
  cases ht

theorem length_lt (ht : (s.thread t).waiting = none) : line.length < n := by
  have hnodup : (t :: line).Nodup := nodup_cons.mpr ⟨h.not_mem ht, h.nodup⟩
  have hcard := hnodup.length_le_card
  rwa [Fintype.card_fin] at hcard

theorem length_le : line.length ≤ n := by simpa using h.nodup.length_le_card

/-- The `k`-th ticket of the line, or the next to issue, is served if it is first and the lock
free. -/
theorem served_iff (hk : s.held + k < 256) :
    UInt8.ofNat (s.obtained.length + k) = s.lock.condTicketServing ↔ s.held = 0 ∧ k = 0 := by
  obtain ⟨released, hlength, hserving⟩ := h.serving
  rw [hlength, hserving, add_assoc, ofNat_eq_base_iff hk, Nat.add_eq_zero_iff]

theorem join (ht : (s.thread t).waiting = none) :
    ((s.issue t (.waits s.lock.condTicketIssue)).wait t s.lock.condTicketIssue
      { s.lock with condTicketIssue := s.lock.condTicketIssue + 1 }).Line (line ++ [t]) where
  initFlag := h.initFlag
  issued := by simp [wait, Threads.issue, h.issued]
  nodup := by
    have hne : ∀ u ∈ line, u ≠ t := fun u hu => ne_of_mem_of_not_mem hu (h.not_mem ht)
    simpa [nodup_append, h.nodup] using hne
  waiting := by
    intro u hu
    by_cases hut : u = t
    · simp [hut]
    · simp only [wait, Threads.issue, update_of_ne hut] at hu
      simp [h.waiting u hu]
  ticket := by
    intro k u hk
    rcases lt_trichotomy k line.length with hlt | rfl | hgt
    · rw [getElem?_append_left hlt] at hk
      have hut : u ≠ t := ne_of_mem_of_not_mem (mem_of_getElem? hk) (h.not_mem ht)
      simpa [wait, Threads.issue, update_of_ne hut] using h.ticket k u hk
    · simp only [getElem?_concat_length, Option.some.injEq] at hk
      simp [wait, Threads.issue, ← hk, h.issue]
    · rw [getElem?_eq_none (by simpa using Nat.succ_le_of_lt hgt)] at hk
      cases hk
  issue := by simp [wait, Threads.issue, h.issue, ← add_assoc]
  held := by
    rw [held_wait]
    exact h.held
  serving := by
    rw [held_wait]
    exact h.serving

end

theorem enter (h : s.Line (t :: line)) (hheld : s.held = 0) : (s.hold t s.lock).Line line where
  initFlag := h.initFlag
  issued := by simp [hold, h.issued]
  nodup := h.nodup.of_cons
  waiting := by
    intro u hu
    by_cases hut : u = t
    · simp [hold, hut] at hu
    · simp only [hold, update_of_ne hut] at hu
      simpa [hut] using h.waiting u hu
  ticket := by
    intro k u hk
    have hut : u ≠ t := ne_of_mem_of_not_mem (mem_of_getElem? hk) (nodup_cons.mp h.nodup).1
    have hticket := h.ticket (k + 1) u (by simpa using hk)
    simpa [hold, update_of_ne hut, add_assoc, add_comm 1] using hticket
  issue := by simp [hold, h.issue, add_assoc, add_comm 1]
  held := by rw [held_hold, hheld]
  serving := by
    obtain ⟨released, hlength, hserving⟩ := h.serving
    refine ⟨released, ?_, hserving⟩
    rw [held_hold, ← add_assoc, ← hlength]
    simp [hold]

variable {x : UInt8}

theorem sleep (h : s.Line line) (ht : (s.thread t).waiting = some x) :
    (s.wait t x s.lock).Line line where
  initFlag := h.initFlag
  issued := h.issued
  nodup := h.nodup
  waiting := by
    intro u hu
    by_cases hut : u = t
    · subst hut
      exact h.waiting u (by simp [ht])
    · simp only [wait, update_of_ne hut] at hu
      exact h.waiting u hu
  ticket := by
    intro k u hk
    by_cases hut : u = t
    · subst hut
      simpa [wait, ht] using h.ticket k u hk
    · simpa [wait, update_of_ne hut] using h.ticket k u hk
  issue := h.issue
  held := by
    rw [held_wait]
    exact h.held
  serving := by
    rw [held_wait]
    exact h.serving

theorem release (h : s.Line line) (ht : 0 < (s.thread t).holds) :
    (s.step (.unlock t)).Line line := by
  have hheld := held_unlock ht
  obtain ⟨released, hlength, hserving⟩ := h.serving
  have hone := h.held
  exact
    { initFlag := by simp [step, TicketingLock.unlock, h.initFlag]
      issued := h.issued
      nodup := h.nodup
      waiting := h.waiting
      ticket := h.ticket
      issue := by simp [step, TicketingLock.unlock, h.initFlag, h.issue]
      held := by omega
      serving := by
        refine ⟨released + 1, ?_, ?_⟩
        · show s.obtained.length = _
          omega
        · simp [step, TicketingLock.unlock, h.initFlag, hserving] }

section

variable (h : s.Line line) (hn : n ≤ 255)
include h hn

theorem call (ht : (s.thread t).waiting = none) :
    ∃ line', ((s.issue t (s.lock.lock got).1).settle t (s.lock.lock got)).Line line' := by
  have hlt := h.length_lt ht
  have hone := h.held
  have hiff := h.served_iff (k := line.length) (by omega)
  rw [← h.issue] at hiff
  by_cases hserved : s.lock.condTicketIssue = s.lock.condTicketServing
  · obtain ⟨hheld, hline⟩ := hiff.mp hserved
    rw [length_eq_zero_iff.mp hline] at h
    rw [TicketingLock.lock_served h.initFlag hserved]
    have hjoin := (h.join ht).enter (by rw [held_wait]; exact hheld)
    rw [hold_wait] at hjoin
    exact ⟨_, hjoin⟩
  · cases got with
    | false =>
      rw [TicketingLock.lock_waits h.initFlag hserved]
      exact ⟨_, h.join ht⟩
    | true =>
      rw [TicketingLock.trylock_busy h.initFlag hserved]
      exact ⟨_, h⟩

theorem waiting_served_iff (ht : (s.thread t).waiting = some x) :
    x = s.lock.condTicketServing ↔ line.head? = some t ∧ s.held = 0 := by
  obtain ⟨k, hk⟩ := mem_iff_getElem?.mp (h.waiting t (by simp [ht]))
  have hle := h.length_le
  have hlt := (List.getElem?_eq_some_iff.mp hk).1
  have hone := h.held
  have hx : x = UInt8.ofNat (s.obtained.length + k) := by simpa [ht] using h.ticket k t hk
  have hhead : line.head? = some t ↔ k = 0 := by
    rw [head?_eq_getElem?]
    constructor
    · intro h0
      exact (getElem?_inj hlt h.nodup).mp (hk.trans h0.symm)
    · rintro rfl
      exact hk
  rw [hx, h.served_iff (by omega), hhead]
  exact And.comm

theorem wake (ht : (s.thread t).waiting = some x) :
    ∃ line', (s.settle t (s.lock.awaitTurn false x)).Line line' := by
  by_cases hserved : x = s.lock.condTicketServing
  · obtain ⟨hhead, hheld⟩ := (h.waiting_served_iff hn ht).mp hserved
    obtain ⟨line, rfl⟩ := head?_eq_some_iff.mp hhead
    refine ⟨line, ?_⟩
    simpa [TicketingLock.awaitTurn, hserved, settle] using h.enter hheld
  · refine ⟨line, ?_⟩
    simpa [TicketingLock.awaitTurn, hserved, settle] using h.sleep ht

theorem step {c : Section n} (hc : s.Proper c) : ∃ line', (s.step c).Line line' := by
  cases c with
  | lock t => exact h.call hn hc
  | trylock t => exact h.call hn hc
  | wake t =>
    obtain ⟨x, hx⟩ := Option.ne_none_iff_exists'.mp hc
    simpa [Threads.step, hx] using h.wake hn hx
  | unlock t => exact ⟨line, h.release hc.2⟩

end

theorem start (n : Nat) (issue serving : UInt8) : (start n issue serving).Line [] where
  initFlag := rfl
  issued := rfl
  nodup := .nil
  waiting := by simp [Threads.start]
  ticket := by simp
  issue := rfl
  held := by simp [Threads.held, Threads.start]
  serving := ⟨0, by simp [Threads.held, Threads.start], rfl⟩

end Line

theorem Signalled.settle (h : s.Signalled) (hl : l.condTicketServing = s.lock.condTicketServing) :
    (s.settle t (TicketingLock.awaitTurn got x l)).Signalled := by
  unfold TicketingLock.awaitTurn
  rw [hl]
  by_cases hx : x = s.lock.condTicketServing
  · intro u hu
    by_cases hut : u = t
    · simp [Threads.settle, hold, hx, hut] at hu
    · simp only [Threads.settle, hold, hx, ne_eq, not_true_eq_false, ↓reduceIte,
        update_of_ne hut, hl] at hu ⊢
      exact h u hu
  · cases got with
    | false =>
      intro u hu
      by_cases hut : u = t
      · simp [Threads.settle, wait, hx, hut, hl] at hu
      · simp only [Threads.settle, wait, ne_eq, hx, not_false_eq_true, ↓reduceIte,
          Bool.false_eq_true, update_of_ne hut, hl] at hu ⊢
        exact h u hu
    | true => simpa [Threads.settle, hx, Signalled, hl] using h

theorem Signalled.issue (h : s.Signalled) : (s.issue t a).Signalled := by
  cases a <;> exact h

theorem Signalled.call (h : s.Signalled) :
    ((s.issue t a).settle t (s.lock.lock got)).Signalled := by
  unfold TicketingLock.lock
  split
  · cases a <;> exact h
  · exact h.issue.settle (by cases a <;> rfl)

theorem Signalled.step (c : Section n) (h : s.Signalled) : (s.step c).Signalled := by
  cases c with
  | lock t => exact h.call
  | trylock t => exact h.call
  | wake t =>
    cases hx : (s.thread t).waiting with
    | none => simpa [Threads.step, hx] using h
    | some x => simpa [Threads.step, hx] using h.settle rfl
  | unlock t =>
    intro u hu
    rfl

structure Orderly (s : Threads n) : Prop where
  exclusive : s.held ≤ 1
  /-- The threads that wait are those whose tickets were issued behind the last one admitted; the
  first of them sleeps no longer when the lock is free, and is the next to obtain it. -/
  fifo : ∃ line, s.issued = s.obtained ++ line ∧ line.Nodup ∧
    (∀ t, (s.thread t).waiting ≠ none ↔ t ∈ line) ∧
    ∀ t, (s.step (.wake t)).obtained = s.obtained ++ [t] ↔ line.head? = some t ∧ s.held = 0
  signalled : ∀ t, (s.step (.wake t)).obtained ≠ s.obtained → (s.thread t).woken = true
  /-- A call that does not get the lock and does not wait changes nothing. -/
  trylock : ∀ t, (s.lock.lock true).1 ≠ .obtained → s.step (.trylock t) = s

theorem obtained_wake (s : Threads n) (t : Fin n) : (s.step (.wake t)).obtained =
      if (s.thread t).waiting = some s.lock.condTicketServing then s.obtained ++ [t]
      else s.obtained := by
  cases hx : (s.thread t).waiting with
  | none => simp [step, hx]
  | some x =>
    by_cases hserved : x = s.lock.condTicketServing <;>
      simp [step, hx, hserved, TicketingLock.awaitTurn, settle, hold, wait]

theorem trylock_unchanged (t : Fin n) (h : (s.lock.lock true).1 ≠ .obtained) :
    s.step (.trylock t) = s := by
  rcases TicketingLock.trylock_not_obtained h with ho | ho <;> simp [step, ho, settle, issue]

theorem Line.orderly (h : s.Line line) (hn : n ≤ 255) (hsignal : s.Signalled) : s.Orderly where
  exclusive := h.held
  fifo := by
    refine ⟨line, h.issued, h.nodup, ?_, ?_⟩
    · intro t
      constructor
      · exact h.waiting t
      · intro hmem hnone
        exact h.not_mem hnone hmem
    · intro t
      rw [obtained_wake]
      cases hx : (s.thread t).waiting with
      | none =>
        have hhead : line.head? ≠ some t := fun hhead =>
          h.not_mem hx (mem_of_head? hhead)
        simp [hhead]
      | some x =>
        rw [← h.waiting_served_iff hn hx]
        by_cases hserved : x = s.lock.condTicketServing <;> simp [hserved]
  signalled := by
    intro t ht
    rw [obtained_wake] at ht
    by_cases hserved : (s.thread t).waiting = some s.lock.condTicketServing
    · exact hsignal t hserved
    · simp [hserved] at ht
  trylock := fun t => trylock_unchanged t

/-- Up to 255 threads that use the lock properly, in any order of their critical sections: the
counters may wrap any number of times. -/
theorem ticketing_lock_orderly (hn : n ≤ 255) (issue serving : UInt8) {cs : List (Section n)}
    (h : Each step Proper (start n issue serving) cs) :
    Always step Orderly (start n issue serving) cs := by
  have hkeep : ∀ (s : Threads n) c, ((∃ line, s.Line line) ∧ s.Signalled) → s.Proper c →
      (∃ line, (s.step c).Line line) ∧ (s.step c).Signalled := by
    rintro s c ⟨⟨line, hline⟩, hsignal⟩ hc
    exact ⟨hline.step hn hc, hsignal.step c⟩
  have hstart : (∃ line, (start n issue serving).Line line) ∧ (start n issue serving).Signalled :=
    ⟨⟨[], .start n issue serving⟩, fun t ht => by cases ht⟩
  refine (h.always hkeep hstart).imp ?_
  rintro s ⟨⟨line, hline⟩, hsignal⟩
  exact hline.orderly hn hsignal

/-- Three threads, two of them in line behind the first, and a try in between. -/
theorem ticketing_lock_orderly_three : ∃ cs : List (Section 3), cs.length = 9 ∧
      Always step Orderly (start 3 0 0) cs ∧ (run step (start 3 0 0) cs).obtained = [0, 2, 1] :=
  ⟨[.lock 0, .lock 2, .lock 1, .trylock 0, .unlock 0, .wake 1, .wake 2, .unlock 2, .wake 1],
    by decide, ticketing_lock_orderly (by decide) 0 0 (by decide), by decide⟩

end Threads

end OpenAvb.Gptp
