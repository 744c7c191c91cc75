import OpenAvb.Linked
import OpenAvb.Run
import Mathlib.Algebra.Ring.Int.Defs
import Mathlib.Tactic.Common

/-!
# The list of the pipeline and its iterator

The list keeps one iterator, and deleting a node does not look at it. `calloc`
fails, or finds memory that no node takes.
-/

namespace OpenAvb.Util

section

open OpenAvb.Linked List

variable {α : Type}

/-- A list, and the nodes that were added and not deleted since, in the order of their insertion. -/
structure NodeList (α : Type) where
  heap : Heap α
  (tail iter : Option Nat)
  inserted : List (Nat × α)

inductive ListCall (α : Type) where
  -- `openavbListNew` allocates the data and adds it.
  | add (node : Nat) (data : α)
  | delete (node : Nat)
  | iterFirst
  | iterLast
  | iterNext
  | iterPrev

namespace NodeList

def newList : NodeList α := ⟨.empty, none, none, []⟩

def addHeap (s : NodeList α) (node : Nat) (data : α) : Heap α :=
  let h := s.heap.malloc node data
  match s.heap.head, s.tail with
  | none, _ => { h with head := some node }
  | some _, some t => (h.setPrev node s.tail).setNext t (some node)
  | some _, none => h

def deleteHeap (h : Heap α) (node : Nat) : Heap α :=
  let next := h.next node
  let prev := h.prev node
  let h := if h.head = some node then { h with head := next } else h
  let h := match prev with
    | some p => h.setNext p next
    | none => h
  (h.backLink next prev).free node

def step (s : NodeList α) : ListCall α → NodeList α
  | .add node data =>
    if node ∈ addresses s.inserted then s
    else { s with
      heap := s.addHeap node data
      tail := some node
      inserted := s.inserted ++ [(node, data)] }
  | .delete node =>
    if node ∈ addresses s.inserted then
      { s with
        heap := deleteHeap s.heap node
        tail := if s.tail = some node then s.heap.prev node else s.tail
        inserted := s.inserted.filter fun m => m.1 ≠ node }
    else s
  | .iterFirst => { s with iter := s.heap.head }
  | .iterLast => { s with iter := s.tail }
  | .iterNext => { s with iter := s.iter.bind s.heap.next }
  | .iterPrev => { s with iter := s.iter.bind s.heap.prev }

/-- Both directions visit the nodes and end there, and the iterator stands on one of them or
nowhere. -/
structure InOrder (s : NodeList α) : Prop where
  forward : ∀ n, s.inserted.length ≤ n → trail s.heap.next n s.heap.head = addresses s.inserted
  backward : ∀ n, s.inserted.length ≤ n →
    trail s.heap.prev n s.tail = (addresses s.inserted).reverse
  iter : ∀ node ∈ s.iter, node ∈ addresses s.inserted

def NotAtIter (s : NodeList α) : ListCall α → Prop
  | .delete node => node ∈ addresses s.inserted → s.iter ≠ some node
  | _ => True

structure Linked (s : NodeList α) : Prop where
  holds : Holds s.heap s.inserted
  tail : s.tail = last s.inserted none

variable {s : NodeList α} {h : Heap α} {xs ys : List (Nat × α)} {m : Nat × α}

theorem Linked.inOrder_iff (h : s.Linked) :
    s.InOrder ↔ ∀ node ∈ s.iter, node ∈ addresses s.inserted := by
  refine ⟨InOrder.iter, fun hiter => ⟨fun n hn => ?_, fun n hn => ?_, hiter⟩⟩
  · have hh : Holds s.heap ([] ++ s.inserted) := h.holds
    rw [h.holds.head]
    exact hh.trail_next hn
  · have hh : Holds s.heap (s.inserted ++ []) := by simpa using h.holds
    rw [h.tail]
    exact hh.trail_prev hn

theorem Linked.addHeap (h : s.Linked) (node : Nat) (data : α) :
    s.addHeap node data = (s.heap.malloc node data).append (last s.inserted none) node := by
  have hfresh : (s.heap.malloc node data).setNext node none = s.heap.malloc node data := by
    simp [Heap.malloc, Heap.setNext, Heap.modify]
  rw [Heap.append, hfresh, NodeList.addHeap, h.holds.head, h.tail]
  rcases eq_nil_or_concat' s.inserted with hnil | ⟨xs, m, hconcat⟩
  · simp [hnil, Heap.link, Heap.malloc, Heap.setPrev, Heap.modify]
  · cases xs <;> simp [hconcat, Heap.link]

theorem deleteHeap_eq (hh : Holds h (xs ++ m :: ys)) :
    deleteHeap h m.1 = (h.unlink m.1).free m.1 := by
  have hhead := hh.head
  have hm := hh.notMem
  rw [hh.unlink_eq, deleteHeap, hh.next_eq, hh.prev_eq]
  cases xs with
  | nil => simp_all [Heap.link]
  | cons x xs =>
    have hne : x.1 ≠ m.1 := by
      rintro heq
      simp [heq] at hm
    obtain ⟨p, hlast⟩ : ∃ p, last (x :: xs) none = some p := by
      rcases eq_nil_or_concat' (x :: xs) with hnil | ⟨xs', m', hconcat⟩
      · cases hnil
      · exact ⟨m'.1, by simp [hconcat]⟩
    simp [hhead, hne, hlast, Heap.link]

theorem filter_without (hm : m.1 ∉ addresses (xs ++ ys)) :
    ((xs ++ m :: ys).filter fun m' => m'.1 ≠ m.1) = xs ++ ys := by
  have hother : ∀ m' ∈ xs ++ ys, m'.1 ≠ m.1 := fun m' hm' heq => hm (heq ▸ mem_map_of_mem hm')
  rw [filter_append, filter_cons_of_neg (by simp), ← filter_append]
  exact filter_eq_self.mpr fun m' hm' => decide_eq_true (hother m' hm')

theorem Linked.step (h : s.Linked) (call : ListCall α) : (s.step call).Linked := by
  cases call with
  | add node data =>
    by_cases hnode : node ∈ addresses s.inserted
    · simpa [NodeList.step, hnode] using h
    · simp only [NodeList.step, hnode, if_false]
      refine ⟨?_, by simp⟩
      rw [h.addHeap]
      exact h.holds.append node data hnode
  | delete node =>
    by_cases hnode : node ∈ addresses s.inserted
    · simp only [NodeList.step, hnode, if_true]
      obtain ⟨m, hmem, rfl⟩ := mem_map.mp hnode
      obtain ⟨xs, ys, hsplit⟩ := append_of_mem hmem
      have hh := h.holds
      have htail := h.tail
      rw [hsplit] at hh htail
      have hm := hh.notMem
      rw [hsplit, filter_without hm, deleteHeap_eq hh, htail, hh.prev_eq]
      refine ⟨hh.remove, ?_⟩
      cases ys with
      | nil => simp
      | cons y ys =>
        have hne : last ys (some y.1) ≠ some m.1 := by
          intro hlast
          have hmem : m.1 ∈ addresses (y :: ys) := last_mem hlast
          simp_all
        simp [hne]
    · simpa [NodeList.step, hnode] using h
  | iterFirst | iterLast | iterNext | iterPrev => exact ⟨h.holds, h.tail⟩

theorem Linked.iter_step_iff (h : s.Linked) (hiter : ∀ node ∈ s.iter, node ∈ addresses s.inserted)
    (call : ListCall α) :
    (∀ node ∈ (s.step call).iter, node ∈ addresses (s.step call).inserted) ↔ s.NotAtIter call := by
  -- the neighbours of a node are nodes of the list
  have hnext : ∀ p ∈ s.iter, ∀ node, s.heap.next p = some node ∨ s.heap.prev p = some node →
      node ∈ addresses s.inserted := by
    intro p hp node hnode
    obtain ⟨m, hmem, rfl⟩ := mem_map.mp (hiter p hp)
    obtain ⟨xs, ys, hsplit⟩ := append_of_mem hmem
    have hh := h.holds
    rw [hsplit] at hh ⊢
    rw [hh.next_eq, hh.prev_eq] at hnode
    rcases hnode with hfirst | hlast
    · simp [first_mem hfirst]
    · simp [last_mem hlast]
  cases call with
  | add node data =>
    refine iff_of_true (fun p hp => ?_) trivial
    by_cases hnode : node ∈ addresses s.inserted <;>
      simp_all [NodeList.step]
  | delete node =>
    by_cases hnode : node ∈ addresses s.inserted
    · simp only [NodeList.step, hnode, if_true, NotAtIter, true_imp_iff]
      constructor
      · rintro hlive heq
        simpa [addresses] using hlive node heq
      · rintro hne p hp
        obtain ⟨m, hmem, rfl⟩ := mem_map.mp (hiter p hp)
        refine mem_map_of_mem (mem_filter.mpr ⟨hmem, decide_eq_true ?_⟩)
        rintro rfl
        exact hne hp
    · simpa [NodeList.step, hnode, NotAtIter] using hiter
  | iterFirst => exact iff_of_true (fun p hp => first_mem (h.holds.head.symm.trans hp)) trivial
  | iterLast => exact iff_of_true (fun p hp => last_mem (h.tail.symm.trans hp)) trivial
  | iterNext =>
    refine iff_of_true (fun node hnode => ?_) trivial
    obtain ⟨p, hp, hstep⟩ := Option.bind_eq_some_iff.mp hnode
    exact hnext p hp node (.inl hstep)
  | iterPrev =>
    refine iff_of_true (fun node hnode => ?_) trivial
    obtain ⟨p, hp, hstep⟩ := Option.bind_eq_some_iff.mp hnode
    exact hnext p hp node (.inr hstep)

/-- Traversal and iterator are right in every state of exactly the runs that never delete the node
the iterator stands on. -/
theorem list_inOrder_iff (calls : List (ListCall α)) :
    Always step InOrder newList calls ↔ Each step NotAtIter newList calls := by
  have hnew : (newList : NodeList α).Linked := ⟨holds_empty, rfl⟩
  refine always_iff_each (I := Linked) (fun s call h => h.step call) (fun s call h hP => ?_)
    hnew (hnew.inOrder_iff.mpr nofun)
  rw [(h.step call).inOrder_iff]
  exact h.iter_step_iff (h.inOrder_iff.mp hP) call

/-- The node at the iterator is deleted. -/
theorem deletes_at_iter :
    let s := run step newList [.add 7 'a', .iterFirst, .delete 7]
    s.iter = some 7 ∧ s.inserted = [] ∧ s.heap.cell 7 = none := by
  decide

end NodeList

end

/-! ## Adding to and subtracting from a timespec -/

structure Timespec where
  (tv_sec tv_nsec : Int)
  deriving DecidableEq

/-- The value in 64 bits without a sign. -/
def toU64 (n : Int) : Int := n % 2 ^ 64

/-- The value in 64 bits with a sign. -/
def toS64 (n : Int) : Int := if toU64 n < 2 ^ 63 then toU64 n else toU64 n - 2 ^ 64

def nanosecondsPerSecond : Int := 10 ^ 9

def nanosecondsPerUsec : Int := 1000

namespace Timespec

/-- Both are divided without a sign. -/
def carry (t : Timespec) : Timespec where
  tv_sec := toS64 (toU64 t.tv_sec + toU64 t.tv_nsec / nanosecondsPerSecond)
  tv_nsec := toS64 (toU64 t.tv_nsec % nanosecondsPerSecond)

def timespec_add_usec (t : Timespec) (us : Int) : Timespec :=
  carry { t with tv_nsec := toS64 (toU64 t.tv_nsec + toU64 (us * nanosecondsPerUsec)) }

def timespec_sub_usec (t : Timespec) (us : Int) : Timespec :=
  let t := carry { t with tv_nsec := toS64 (toU64 t.tv_nsec - toU64 (us * nanosecondsPerUsec)) }
  -- the remainder is without a sign: this is never taken
  if t.tv_nsec < 0 then
    { tv_sec := toS64 (t.tv_sec - 1)
      tv_nsec := toS64 (nanosecondsPerSecond + toU64 t.tv_nsec) }
  else t

def openavbTimeTimespecAddUsec (t : Timespec) (us : Int) : Timespec :=
  carry { t with tv_nsec := toS64 (t.tv_nsec + toS64 (us * nanosecondsPerUsec)) }

def openavbTimeTimespecSubUsec (t : Timespec) (us : Int) : Timespec :=
  let nSec := toU64 (toU64 t.tv_sec * nanosecondsPerSecond + toU64 t.tv_nsec)
  let nSec := toU64 (nSec - us * nanosecondsPerUsec)
  { tv_sec := toS64 (nSec / nanosecondsPerSecond)
    tv_nsec := toS64 (nSec % nanosecondsPerSecond) }

variable {t t' : Timespec} {nanos nanos' us n : Int}

/-- Normalised, and so many nanoseconds. -/
def Is (t : Timespec) (nanos : Int) : Prop :=
  0 ≤ t.tv_nsec ∧ t.tv_nsec < 10 ^ 9 ∧ t.tv_sec * 10 ^ 9 + t.tv_nsec = nanos

theorem Is.eq_iff (h : t.Is nanos) (h' : t'.Is nanos') : t = t' ↔ nanos = nanos' := by
  obtain ⟨sec, nsec⟩ := t
  obtain ⟨sec', nsec'⟩ := t'
  simp only [Is, Timespec.mk.injEq] at *
  omega

theorem toU64_eq (h : 0 ≤ n) (h' : n < 2 ^ 64) : toU64 n = n := Int.emod_eq_of_lt h h'

theorem toS64_eq (h : 0 ≤ n) (h' : n < 2 ^ 63) : toS64 n = n := by
  rw [toS64, toU64_eq h (by omega), if_pos h']

theorem toU64_toS64 : toU64 (toS64 n) = toU64 n := by
  unfold toS64 toU64
  split <;> omega

theorem carry_is {s : Int} (hsec : 0 ≤ s) (hsec' : s < 2 ^ 62) :
    (carry ⟨s, toS64 n⟩).Is (s * 10 ^ 9 + toU64 n) := by
  have hbits : 0 ≤ toU64 n ∧ toU64 n < 2 ^ 64 := by
    unfold toU64
    omega
  simp only [Is, carry, toU64_toS64, nanosecondsPerSecond]
  rw [toU64_eq hsec (by omega), toS64_eq (by omega) (by omega), toS64_eq (by omega) (by omega)]
  omega

/-- Both additions and both subtractions are exact, and subtracting restores what was added to. -/
structure Exact (t : Timespec) (nanos us : Int) : Prop where
  add : (timespec_add_usec t us).Is (nanos + us * 1000)
  timeAdd : (openavbTimeTimespecAddUsec t us).Is (nanos + us * 1000)
  sub : us * 1000 ≤ nanos → (timespec_sub_usec t us).Is (nanos - us * 1000)
  timeSub : us * 1000 ≤ nanos → (openavbTimeTimespecSubUsec t us).Is (nanos - us * 1000)
  restores : timespec_sub_usec (timespec_add_usec t us) us = t
  timeRestores : openavbTimeTimespecSubUsec (openavbTimeTimespecAddUsec t us) us = t

section
variable (h : t.Is nanos) (hnanos : 0 ≤ nanos) (hlt : nanos < 2 ^ 64 - 2 ^ 42) (hus : 0 ≤ us)
  (hus' : us < 2 ^ 32)
include h hnanos hlt hus hus'

theorem Is.add_usec : (timespec_add_usec t us).Is (nanos + us * 1000) ∧
    openavbTimeTimespecAddUsec t us = timespec_add_usec t us := by
  obtain ⟨hnsec, hnsec', htotal⟩ := h
  simp only [timespec_add_usec, openavbTimeTimespecAddUsec, nanosecondsPerUsec]
  rw [toU64_eq hnsec (by omega), toU64_eq (by omega) (by omega),
    toS64_eq (n := us * 1000) (by omega) (by omega)]
  have hcarry := carry_is (n := t.tv_nsec + us * 1000) (s := t.tv_sec) (by omega) (by omega)
  rw [toU64_eq (by omega) (by omega), ← Int.add_assoc, htotal] at hcarry
  exact ⟨hcarry, rfl⟩

/-- What is borrowed is the quotient of a number just below 2^64. -/
theorem Is.sub_usec : (timespec_sub_usec t us).Is
    (if us * 1000 ≤ t.tv_nsec then nanos - us * 1000 else nanos + 2 ^ 64 - us * 1000) := by
  obtain ⟨hnsec, hnsec', htotal⟩ := h
  have hcarry := carry_is (n := t.tv_nsec - us * 1000) (s := t.tv_sec) (by omega) (by omega)
  have hdiff : toU64 t.tv_nsec - toU64 (us * nanosecondsPerUsec) = t.tv_nsec - us * 1000 := by
    rw [nanosecondsPerUsec, toU64_eq hnsec (by omega), toU64_eq (by omega) (by omega)]
  simp only [timespec_sub_usec, hdiff, if_neg (Int.not_lt.mpr hcarry.1)]
  convert hcarry using 1
  rw [toU64]
  split <;> omega

theorem Is.timeSub_usec (hle : us * 1000 ≤ nanos) :
    (openavbTimeTimespecSubUsec t us).Is (nanos - us * 1000) := by
  obtain ⟨hnsec, hnsec', htotal⟩ := h
  simp only [Is, openavbTimeTimespecSubUsec, nanosecondsPerSecond, nanosecondsPerUsec]
  rw [toU64_eq (n := t.tv_sec) (by omega) (by omega), toU64_eq hnsec (by omega), htotal,
    toU64_eq hnanos (by omega), toU64_eq (by omega) (by omega), toS64_eq (by omega) (by omega),
    toS64_eq (by omega) (by omega)]
  omega

end

/-- Only `timespec_sub_usec` goes wrong, whenever it has to borrow: from `t` or from a sum that has
carried. -/
theorem timespec_exact_iff (t : Timespec) (nanos us : Int) (h : t.Is nanos) (hsec : 0 ≤ t.tv_sec)
    (hsec' : t.tv_sec < 2 ^ 33) (hus : 0 ≤ us) (hus' : us < 2 ^ 32) :
    t.Exact nanos us ↔ (us * 1000 ≤ nanos → us * 1000 ≤ t.tv_nsec) ∧
      t.tv_nsec + us * 1000 < 10 ^ 9 := by
  have hparts := h
  obtain ⟨hnsec, hnsec', htotal⟩ := hparts
  obtain ⟨hadd, hsame⟩ := h.add_usec (by omega) (by omega) hus hus'
  have hsub := h.sub_usec (by omega) (by omega) hus hus'
  have hback := hadd.sub_usec (by omega) (by omega) hus hus'
  have hparts := hadd
  obtain ⟨hsum, hsum', htotal'⟩ := hparts
  constructor
  · rintro ⟨-, -, hexact, -, hrestores, -⟩
    constructor
    · intro hle
      -- with a borrow the value is 2^64 nanoseconds off
      have hvalue := (hsub.eq_iff (hexact hle)).mp rfl
      split at hvalue <;> omega
    · have hvalue := (hback.eq_iff h).mp hrestores
      split at hvalue <;> omega
  · rintro ⟨hborrow, hcarry⟩
    refine ⟨hadd, hsame ▸ hadd, fun hle => ?_,
      h.timeSub_usec (by omega) (by omega) hus hus', (hback.eq_iff h).mpr ?_, ?_⟩
    · rwa [if_pos (hborrow hle)] at hsub
    · rw [if_pos (by omega)]
      omega
    · rw [hsame, (hadd.timeSub_usec (by omega) (by omega) hus hus' (by omega)).eq_iff h]
      omega

theorem timespec_exact_within : (⟨1, 5000⟩ : Timespec).Exact 1000005000 3 :=
  (timespec_exact_iff ⟨1, 5000⟩ 1000005000 3 (by unfold Is; decide) (by decide) (by decide)
    (by decide) (by decide)).mpr (by decide)

/-- A second less a microsecond comes to 584 years. -/
theorem sub_borrows_unsigned :
    timespec_sub_usec ⟨1, 0⟩ 1 = ⟨18446744074, 709550616⟩ ∧
      openavbTimeTimespecSubUsec ⟨1, 0⟩ 1 = ⟨0, 999999000⟩ := by
  decide

end Timespec
end OpenAvb.Util
