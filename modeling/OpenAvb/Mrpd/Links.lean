import OpenAvb.Linked
import OpenAvb.Mrpd.Daemon
import Mathlib.Data.List.TakeWhile

/-!
# Attribute events on a list in memory

The daemons keep their attributes in cells that point to each other. An attribute
event finds its attribute along the pointers or links a new cell in, and may unlink
and free it in the end.
-/

namespace OpenAvb.Mrpd

section

open Linked

section

variable {τ ν κ : Type}

/-- `malloc` finds room that the list does not take. -/
structure Malloc where
  place : List Nat → Nat
  place_free : ∀ ptrs, place ptrs ∉ ptrs

structure AddOrder (ν : Type) where
  sameType : ν → ν → Bool
  below : ν → ν → Bool

theorem addGrouped_eq (sameType below : ν → ν → Bool) (r : Attribute ν) (l : List (Attribute ν)) :
    addGrouped sameType below r l = addOrdered (fun r a => sameType r.value a.value)
      (fun a r => below a.value r.value) r l := by
  induction l with
  | nil => rfl
  | cons a l ih => rw [addGrouped_cons, ih, addOrdered]

/-- An attribute event of interest: `_lookup`, `_merge` or `_add`, state machines, reclaim. -/
def linkedRequest (A : Application τ ν) (o : AddOrder ν) (malloc : Malloc) (p2pmac : Bool)
    (event : MrpEvent) (rattrib : Attribute ν) (h : Heap (Attribute ν)) : Heap (Attribute ν) :=
  h.revise (fun r a => o.sameType r.value a.value) (fun a r => o.below a.value r.value)
    (fun a => A.lookup rattrib.value a.value) (A.merge h.toList rattrib)
    (Attribute.stepRequest p2pmac event) (fun a => A.reclaims && a.reclaimable)
    (malloc.place (trail h.next h.live h.head)) rattrib

variable {A : Application τ ν} {key : ν → κ}

theorem Keeps.linkedRequest [DecidableEq κ] (hA : A.Keyed key) {o : AddOrder ν}
    (hadd : A.add = addGrouped o.sameType o.below) {h : Heap (Attribute ν)} {db : Database ν}
    (hh : Keeps h db.attribList) (hi : A.interested db.attribList r.value = true) (malloc : Malloc)
    (p2pmac : Bool) (event : MrpEvent) : Keeps (linkedRequest A o malloc p2pmac event r h)
      (db.attribute A p2pmac event r).db.attribList := by
  have hfound : ∀ a : Attribute ν, A.lookup r.value a.value = true ↔ key a.value = key r.value := by
    intro a
    rw [hA.lookup, decide_eq_true_eq]
  have hmerge : ∀ a : Attribute ν, A.lookup r.value a.value = true →
      A.lookup r.value (A.merge h.toList r a).value = true := by
    intro a ha
    rw [hfound] at ha ⊢
    exact (hA.key_merge _ r a ha).trans ha
  have hstep : ∀ a : Attribute ν, A.lookup r.value a.value = true →
      A.lookup r.value (a.stepRequest p2pmac event).value = true := by
    intro a ha
    rwa [value_stepRequest]
  have hkeeps := hh.revise (fun r a => o.sameType r.value a.value)
    (fun a r => o.below a.value r.value) (fun a => A.reclaims && a.reclaimable)
    (malloc.place_free _) ((hfound r).mpr rfl) hmerge hstep
  have hmerged : db.merged A r = mergeOrAdd (fun r a => o.sameType r.value a.value)
      (fun a r => o.below a.value r.value) (fun a => A.lookup r.value a.value)
      (A.merge db.attribList r) r db.attribList := by
    simp only [Database.merged, hadd, addGrouped_eq, mergeOrAdd]
  rw [hh.toList] at hkeeps
  simp only [Database.attribute, hi, if_true, hmerged, Mrpd.linkedRequest]
  rw [Option.isSome_filter, hh.toList]
  exact hkeeps

theorem length_mrpEvent [DecidableEq τ] [DecidableEq κ]
    (hA : A.Keyed key) (db : Database ν) (p2pmac : Bool) (call : Call τ ν) (hlv : call ≠ .lvtimer)
    (hattr : ∀ event r, call ≠ .attribute event r) :
    (mrpEvent A p2pmac call db).db.attribList.length = db.attribList.length := by
  match call with
  | .lvtimer => exact absurd rfl hlv
  | .attribute event r => exact absurd rfl (hattr event r)
  | .lvatimer =>
    have hlength := (hA.txpdu (db.lvaReady p2pmac)).length_eq
    simpa [mrpEvent, Outcome.notify, Database.lvatimer, Database.lvaReady] using hlength.symm
  | .tx =>
    have hlength := (hA.txpdu (db.txReady p2pmac)).length_eq
    simpa [mrpEvent, Outcome.notify, Database.tx, Database.txReady] using hlength.symm
  | .periodic =>
    simp only [mrpEvent, Outcome.notify, Database.periodic]
    split <;> simp
  | .rla t => simp [mrpEvent, Outcome.notify, Database.rla]

/-! ## The MSRP attribute list in memory -/

open Linked

/-- The loop of `msrp_add` for the new cell `r` with the attribute `v`: `p` is `attrib` and `tail`
is `attrib_tail`, which the `continue` within a group leaves behind. -/
def addLoop (r : Nat) (v : Attribute MsrpValue) :
    Nat → Option Nat → Option Nat → Heap (Attribute MsrpValue) → Heap (Attribute MsrpValue)
  | n + 1, some p, tail, h =>
    match h.val? p with
    | none => h
    | some a =>
      if v.value.type = a.value.type then
        if msrpBelow a.value v.value then
          match h.next p with
          | some q =>
            if (h.val? q).any fun b => a.value.type = b.value.type then
              addLoop r v n (some q) tail h
            else h.insertAfter p r
          | none => h.insertAfter p r
        else h.insertBefore p r
      else addLoop r v n (h.next p) (some p) h
  | _, _, tail, h => h.append tail r

def msrpOrder : AddOrder MsrpValue := ⟨fun r a => r.type = a.type, msrpBelow⟩

theorem addLoop_eq (r : Nat) (v : Attribute MsrpValue) (n : Nat) (p tail : Option Nat)
    (h : Heap (Attribute MsrpValue)) :
    addLoop r v n p tail h = h.addLoop (fun r a => msrpOrder.sameType r.value a.value)
      (fun a r => msrpOrder.below a.value r.value) r v n p tail := by
  induction n generalizing p tail with
  | zero => rfl
  | succ n ih =>
    cases p with
    | none => rfl
    | some p =>
      simp only [addLoop, Heap.addLoop, ih]
      cases h.val? p with
      | none => rfl
      | some a =>
        by_cases htype : v.value.type = a.value.type
        · have hsame : msrpOrder.sameType v.value a.value = true := decide_eq_true htype
          have hnext : ∀ b : Option (Attribute MsrpValue),
              (b.any fun b => a.value.type = b.value.type) =
                b.any fun b => msrpOrder.sameType v.value b.value := by
            intro b
            rw [← htype]
            rfl
          simp only [if_pos htype, hsame, if_true, hnext]
          rfl
        · have hsame : msrpOrder.sameType v.value a.value = false := decide_eq_false htype
          simp [if_neg htype, hsame, Bool.false_eq_true]

structure LinkedDaemon where
  mrpDb : MrpDatabase
  heap : Heap (Attribute MsrpValue)
  sendEmptyLeaveAll : Bool
  interestingStreamIds : List (Octets 8)

def LinkedDaemon.read (s : LinkedDaemon) : MsrpDaemon where
  db :=
    { mrpDb := s.mrpDb, attribList := s.heap.toList, sendEmptyLeaveAll := s.sendEmptyLeaveAll }
  interestingStreamIds := s.interestingStreamIds

def freePass (f : Attribute MsrpValue → Attribute MsrpValue) (cond : Attribute MsrpValue → Bool)
    (h : Heap (Attribute MsrpValue)) : Heap (Attribute MsrpValue) :=
  h.sweep f cond h.live h.head

def passOver (f : Attribute MsrpValue → Attribute MsrpValue) :
    Heap (Attribute MsrpValue) → Heap (Attribute MsrpValue) :=
  freePass f fun _ => false

def msrpConditionalReclaim (p : Nat) (h : Heap (Attribute MsrpValue)) :
    Heap (Attribute MsrpValue) :=
  if (h.val? p).any Attribute.reclaimable then (h.unlink p).free p else h

def lookupOrAdd (malloc : Malloc) (rattrib : Attribute MsrpValue)
    (h : Heap (Attribute MsrpValue)) : Nat × Heap (Attribute MsrpValue) :=
  match h.search (fun a => msrpLookup rattrib.value a.value) h.live h.head with
  | some p => (p, h.mapVal p (msrpMerge h.toList rattrib))
  | none =>
    let r := malloc.place (trail h.next h.live h.head)
    (r, addLoop r rattrib h.live h.head h.head (h.malloc r rattrib))

def linkedAttribute (malloc : Malloc) (p2pmac : Bool) (event : MrpEvent)
    (rattrib : Attribute MsrpValue) (h : Heap (Attribute MsrpValue)) :
    Heap (Attribute MsrpValue) :=
  let (p, h) := lookupOrAdd malloc rattrib h
  msrpConditionalReclaim p (h.mapVal p (Attribute.stepRequest p2pmac event))

namespace MsrpConfig

variable (cfg : MsrpConfig) (malloc : Malloc)

/-- `msrp_event`: attributes change in their places, but where one is added or freed. -/
def linkedEvent (call : Call MsrpType MsrpValue) (s : LinkedDaemon) : LinkedDaemon :=
  let next := (cfg.event call s.read).daemon
  { mrpDb := next.db.mrpDb
    sendEmptyLeaveAll := next.db.sendEmptyLeaveAll
    interestingStreamIds := s.interestingStreamIds
    heap :=
      match call with
      | .lvtimer =>
        passOver Attribute.settle
          (freePass (Attribute.stepRegistrar .lvtimer) Attribute.reclaimable s.heap)
      | .attribute event rattrib =>
        passOver Attribute.settle <|
          if event ∈ attributeEvents ∧
              msrpInterested (cfg.pruning s.interestingStreamIds) s.heap.toList rattrib.value then
            linkedAttribute malloc cfg.p2pmac event rattrib s.heap
          else s.heap
      | _ => s.heap.store next.db.attribList s.heap.head }

end MsrpConfig

def HoldsValues (h : Heap (Attribute MsrpValue)) (vs : List (Attribute MsrpValue)) : Prop :=
  ∃ l, Holds h l ∧ values l = vs

section
variable {h : Heap (Attribute MsrpValue)} {vs : List (Attribute MsrpValue)}

section

variable (hh : HoldsValues h vs) (f : Attribute MsrpValue → Attribute MsrpValue)
include hh f

theorem HoldsValues.freePass (cond : Attribute MsrpValue → Bool) :
    HoldsValues (freePass f cond h) ((vs.map f).filter fun a => !cond a) :=
  Keeps.pass hh f cond

theorem HoldsValues.passOver : HoldsValues (passOver f h) (vs.map f) := Keeps.passOver hh f

end

theorem linkedAttribute_eq (malloc : Malloc) (station : Octets 6) (pruning : Pruning)
    (p2pmac : Bool) (event : MrpEvent) (r : Attribute MsrpValue) :
    linkedAttribute malloc p2pmac event r h =
      linkedRequest (msrpApplication station pruning) msrpOrder malloc p2pmac event r h := by
  simp only [linkedAttribute, lookupOrAdd, addLoop_eq]
  rfl

theorem HoldsValues.linkedAttribute {db : Database MsrpValue} (hh : HoldsValues h db.attribList)
    (malloc : Malloc) (station : Octets 6) (pruning : Pruning) (p2pmac : Bool) (event : MrpEvent)
    (r : Attribute MsrpValue) (hi : msrpInterested pruning db.attribList r.value = true) :
    HoldsValues (linkedAttribute malloc p2pmac event r h)
      (db.attribute (msrpApplication station pruning) p2pmac event r).db.attribList := by
  rw [linkedAttribute_eq malloc station pruning]
  exact Keeps.linkedRequest (msrp_keyed station pruning) rfl hh hi malloc p2pmac event

end

structure Refines (s : LinkedDaemon) (d : MsrpDaemon) : Prop where
  mrpDb : s.mrpDb = d.db.mrpDb
  sendEmptyLeaveAll : s.sendEmptyLeaveAll = d.db.sendEmptyLeaveAll
  interestingStreamIds : s.interestingStreamIds = d.interestingStreamIds
  heap : HoldsValues s.heap d.db.attribList

variable {cfg : MsrpConfig} {malloc : Malloc} {s : LinkedDaemon} {d : MsrpDaemon}

theorem Refines.read (h : Refines s d) : s.read = d := by
  obtain ⟨⟨mrpDb, l, flag⟩, ids⟩ := d
  obtain ⟨rfl, rfl, rfl, hheap⟩ := h
  simp [LinkedDaemon.read, Keeps.toList hheap]

theorem Refines.event (h : Refines s d) (cfg : MsrpConfig) (malloc : Malloc)
    (call : Call MsrpType MsrpValue) :
    Refines (cfg.linkedEvent malloc call s) (cfg.event call d).daemon := by
  have hread := h.read
  subst hread
  refine ⟨rfl, rfl, rfl, ?_⟩
  have hheap : HoldsValues s.heap s.read.db.attribList := h.heap
  match call with
  | .lvtimer =>
    exact (hheap.freePass (Attribute.stepRegistrar .lvtimer) Attribute.reclaimable).passOver
      Attribute.settle
  | .attribute event r =>
    have hevent : (cfg.event (.attribute event r) s.read).daemon.db.attribList =
        (mrpEvent (msrpApplication cfg.station (cfg.pruning s.interestingStreamIds)) cfg.p2pmac
          (.attribute event r) s.read.db).db.attribList := rfl
    rw [hevent, mrpEvent_attribute]
    simp only [MsrpConfig.linkedEvent]
    by_cases hevents : event ∈ attributeEvents
    · rw [if_pos hevents]
      cases hi : msrpInterested (cfg.pruning s.interestingStreamIds) s.heap.toList r.value with
      | true =>
        simp only [hevents, and_self, if_true]
        exact (hheap.linkedAttribute malloc cfg.station _ cfg.p2pmac event r hi).passOver _
      | false =>
        have hidle : s.read.db.attribute (msrpApplication cfg.station
            (cfg.pruning s.interestingStreamIds)) cfg.p2pmac event r = { db := s.read.db } :=
          attribute_of_not_interested (Bool.eq_false_iff.mp hi)
        simp only [hidle, and_false, if_false, Bool.false_eq_true]
        exact hheap.passOver _
    · rw [if_neg hevents]
      simp only [hevents, false_and, if_false]
      exact hheap.passOver _
  | .lvatimer | .tx | .periodic | .rla _ =>
    refine Keeps.store hheap (length_mrpEvent (msrp_keyed cfg.station _) _ _ _ ?_ ?_) <;> simp

def LinkedDaemon.freeTalkers (streamID : Octets 8) (s : LinkedDaemon) : LinkedDaemon :=
  { s with heap := freePass id (fun a => a.value.isTalkerOf streamID) s.heap }

namespace MsrpConfig

variable (cfg : MsrpConfig) (malloc : Malloc)

def linkedRecvCmd (c : MsrpCommand) (s : LinkedDaemon) : LinkedDaemon :=
  match c with
  | .dumptable => s
  | .withdrawListenerStatus streamID =>
    let s := cfg.linkedEvent malloc
      (.attribute .lv (alloc (.listener streamID (s.read.listenerSubstate streamID)))) s
    if cfg.enablePruning && !eui64setFind s.interestingStreamIds streamID then
      s.freeTalkers streamID
    else s
  | .reportDomainStatus report srClassID srClassPriority srClassVID =>
    let domain : Domain := ⟨srClassID, srClassPriority, srClassPriority, srClassVID⟩
    cfg.linkedEvent malloc
      (.attribute (if report then .join else .lv) (alloc (.domain domain))) s
  | .leaveStream streamID =>
    cfg.linkedEvent malloc (.attribute .lv (alloc (.talker false (.ofStreamID streamID)))) s
  | .reportListenerStatus streamID substate =>
    cfg.linkedEvent malloc (.attribute .new (alloc (.listener streamID substate))) s
  | .joinOrNewStream new failed talk =>
    cfg.linkedEvent malloc
      (.attribute (if new then .new else .join) (alloc (.talker failed (talk.seen failed)))) s
  | .addStreamId streamID =>
    { s with interestingStreamIds := (cfg.addStreamId streamID s.read).interestingStreamIds }
  | .removeStreamId streamID =>
    if cfg.enablePruning then
      match eui64setRemoveAndSort s.interestingStreamIds streamID with
      | none => s
      | some ids =>
        let s := { s with interestingStreamIds := ids }
        if hasListener streamID s.heap.toList then s else s.freeTalkers streamID
    else s
  | .removeAllStreamIds => { s with interestingStreamIds := [] }

def linkedStep (s : LinkedDaemon) (i : MsrpInput) : LinkedDaemon :=
  match i with
  | .command c => cfg.linkedRecvCmd malloc c s
  | .receive data rest =>
    (received data rest).foldl (fun s call => cfg.linkedEvent malloc call s) s
  | .lvatimer => cfg.linkedEvent malloc .lvatimer s
  | .lvtimer => cfg.linkedEvent malloc .lvtimer s
  | .tx => cfg.linkedEvent malloc .tx s
  | .periodic => cfg.linkedEvent malloc .periodic s
  | .reclaim => { s with heap := freePass id Attribute.reclaimable s.heap }

end MsrpConfig

def linkedInit : LinkedDaemon where
  mrpDb := msrpInit.db.mrpDb
  heap := .empty
  sendEmptyLeaveAll := msrpInit.db.sendEmptyLeaveAll
  interestingStreamIds := msrpInit.interestingStreamIds

theorem refines_linkedInit : Refines linkedInit msrpInit := ⟨rfl, rfl, rfl, [], holds_empty, rfl⟩

theorem Refines.freeTalkers (h : Refines s d) (streamID : Octets 8) :
    Refines (s.freeTalkers streamID) (d.freeTalkers streamID) := by
  have hpass := h.heap.freePass id fun a => a.value.isTalkerOf streamID
  rw [List.map_id] at hpass
  exact ⟨h.mrpDb, h.sendEmptyLeaveAll, h.interestingStreamIds, hpass⟩

theorem Refines.withIds (h : Refines s d) (ids : List (Octets 8)) :
    Refines { s with interestingStreamIds := ids } { d with interestingStreamIds := ids } :=
  ⟨h.mrpDb, h.sendEmptyLeaveAll, rfl, h.heap⟩

theorem Refines.recvCmd (h : Refines s d) (c : MsrpCommand) :
    Refines (cfg.linkedRecvCmd malloc c s) (cfg.recvCmd c d).daemon := by
  have hread := h.read
  cases c with
  | dumptable => exact h
  | reportDomainStatus | leaveStream | reportListenerStatus | joinOrNewStream =>
    exact h.event cfg malloc _
  | removeAllStreamIds => exact h.withIds []
  | addStreamId streamID =>
    simp only [MsrpConfig.linkedRecvCmd, MsrpConfig.recvCmd, hread]
    have hdb : cfg.addStreamId streamID d =
        { d with interestingStreamIds := (cfg.addStreamId streamID d).interestingStreamIds } := by
      unfold MsrpConfig.addStreamId
      split
      · split <;> rfl
      · rfl
    rw [hdb]
    exact h.withIds _
  | withdrawListenerStatus streamID =>
    simp only [MsrpConfig.linkedRecvCmd, MsrpConfig.recvCmd, MsrpConfig.withdrawListenerStatus,
      hread]
    have hevent := h.event cfg malloc
      (.attribute .lv (alloc (.listener streamID (d.listenerSubstate streamID))))
    rw [hevent.interestingStreamIds]
    split
    · exact hevent.freeTalkers streamID
    · exact hevent
  | removeStreamId streamID =>
    simp only [MsrpConfig.linkedRecvCmd, MsrpConfig.recvCmd, MsrpConfig.removeStreamId,
      h.interestingStreamIds, Keeps.toList h.heap]
    split
    · cases eui64setRemoveAndSort d.interestingStreamIds streamID with
      | none => exact h
      | some ids =>
        simp only
        split
        · exact h.withIds ids
        · exact (h.withIds ids).freeTalkers streamID
    · exact h

theorem Refines.step (h : Refines s d) (i : MsrpInput) :
    Refines (cfg.linkedStep malloc s i) (cfg.step d i) := by
  cases i with
  | command c => exact h.recvCmd c
  | lvatimer | lvtimer | tx | periodic => exact h.event cfg malloc _
  | reclaim =>
    have hpass := h.heap.freePass id Attribute.reclaimable
    rw [List.map_id] at hpass
    exact ⟨h.mrpDb, h.sendEmptyLeaveAll, h.interestingStreamIds, hpass⟩
  | receive data rest =>
    simp only [MsrpConfig.linkedStep, MsrpConfig.step, MsrpConfig.serve, daemon_events]
    generalize MsrpConfig.received data rest = calls
    induction calls generalizing s d with
    | nil => exact h
    | cons call calls ih => exact ih (h.event cfg malloc call)

/-- `next` from the head and `prev` from the last cell visit the same cells; no two hold a domain of
one SR class, or a listener or a talker of one stream. -/
def WellLinked (h : Heap (Attribute MsrpValue)) : Prop :=
  ∃ forward : List Nat,
    (∀ n, forward.length ≤ n →
      trail h.next n h.head = forward ∧ trail h.prev n forward.getLast? = forward.reverse) ∧
    forward.Nodup ∧ (∀ p ∈ forward, (h.val? p).isSome) ∧
    forward.Pairwise fun p q => ∀ a ∈ h.val? p, ∀ b ∈ h.val? q, msrpKey a.value ≠ msrpKey b.value

theorem HoldsValues.wellLinked {h : Heap (Attribute MsrpValue)} (hh : HoldsValues h vs)
    (hkeys : (vs.map fun a => msrpKey a.value).Nodup) : WellLinked h := by
  obtain ⟨forward, htrails, hnodup, hvals⟩ := Keeps.linksUp hh
  refine ⟨forward, htrails, hnodup, fun p hp => ?_, ?_⟩
  · have hmem : h.val? p ∈ vs.map some := hvals ▸ List.mem_map_of_mem hp
    obtain ⟨a, -, ha⟩ := List.mem_map.mp hmem
    simp [← ha]
  · have hpairs : (forward.map h.val?).Pairwise fun x y =>
        ∀ a ∈ x, ∀ b ∈ y, msrpKey a.value ≠ msrpKey b.value := by
      rw [hvals, List.pairwise_map]
      refine (List.pairwise_map.mp hkeys).imp fun hne => ?_
      simpa using hne
    exact List.pairwise_map.mp hpairs

/-- In every run of the daemon, whatever `malloc` does, the list is linked in both directions and
its attributes have different keys. -/
theorem msrp_list_well_linked (cfg : MsrpConfig) (malloc : Malloc) (inputs : List MsrpInput) :
    Always (cfg.linkedStep malloc) (fun s => WellLinked s.heap) linkedInit inputs := by
  have hstep : ∀ s i, (∃ d, Refines s d ∧ d.db.Resting msrpKey) →
      ∃ d, Refines (cfg.linkedStep malloc s i) d ∧ d.db.Resting msrpKey := by
    rintro s i ⟨d, h, hrest⟩
    exact ⟨cfg.step d i, h.step i, resting_step hrest i⟩
  refine (always_of_step hstep ⟨msrpInit, refines_linkedInit, resting_msrpInit⟩ inputs).imp ?_
  rintro s ⟨d, h, hrest⟩
  exact h.heap.wellLinked hrest.unique

end

/-! ## The lists of MVRP and MMRP -/

open List

open Linked

variable {τ ν θ : Type}

def mvrpOrder : AddOrder UInt16 := ⟨fun _ _ => true, fun attrib rattrib => attrib < rattrib⟩

def mmrpOrder : AddOrder MmrpValue := ⟨fun r a => r.type = a.type, mmrpBelow⟩

/-- The list is grouped by the first part of `shape`, ordered by the second, searched by both. -/
structure Application.Ordered [DecidableEq θ] (A : Application τ ν) (o : AddOrder ν)
    (shape : ν → θ × Nat) : Prop where
  keyed : A.Keyed shape
  add : A.add = addGrouped o.sameType o.below
  sameType : ∀ r a, o.sameType r a = decide ((shape r).1 = (shape a).1)
  below : ∀ r a, (shape r).1 = (shape a).1 → (o.below a r = true ↔ (shape a).2 < (shape r).2)

def vidShape (v : UInt16) : Unit × Nat := ((), v.toNat)

def MmrpValue.shape (v : MmrpValue) : MmrpType × Nat :=
  (v.type, match v with
    | .svcreq s => s.toNat
    | .macvec a => number a.val)

theorem MmrpValue.shape_inj {v w : MmrpValue} : v.shape = w.shape ↔ v = w := by
  constructor
  · intro h
    obtain ⟨htype, hkey⟩ := Prod.mk.inj h
    cases v <;> cases w <;> cases htype
    · exact congrArg _ (UInt8.toNat_inj.mp hkey)
    · rename_i a b
      exact congrArg _ (Subtype.ext (number_inj (a.property.trans b.property.symm) hkey))
  · exact congrArg _

theorem mvrp_ordered (station : Octets 6) :
    (mvrpApplication station).Ordered mvrpOrder vidShape where
  keyed :=
    { mvrp_keyed station with
      lookup := fun r v => by
        show decide (v = r) = _
        simp [vidShape, UInt16.toNat_inj]
      key_merge := fun _ _ _ _ => rfl }
  add := rfl
  sameType _ _ := by simp [mvrpOrder, vidShape]
  below r a _ := by simp [mvrpOrder, vidShape, UInt16.lt_iff_toNat_lt]

theorem mmrp_ordered (station : Octets 6) (vectevt : Slots) :
    (mmrpApplication station vectevt).Ordered mmrpOrder MmrpValue.shape where
  keyed :=
    { mmrp_keyed station vectevt with
      lookup := fun r v => by
        show decide (v = r) = _
        simp [MmrpValue.shape_inj]
      key_merge := fun _ _ _ _ => rfl }
  add := rfl
  sameType _ _ := rfl
  below r a htype := by
    cases r with
    | svcreq r =>
      cases a with
      | svcreq a => simp [mmrpOrder, mmrpBelow, MmrpValue.shape, UInt8.lt_iff_toNat_lt]
      | macvec a => cases htype
    | macvec r =>
      cases a with
      | svcreq a => cases htype
      | macvec a =>
        simp [mmrpOrder, mmrpBelow, MmrpValue.shape,
          number_lt_iff (a.property.trans r.property.symm)]

def GroupedBy (shape : ν → θ × Nat) (l : List (Attribute ν)) : Prop :=
  Grouped (l.map fun a => shape a.value)

variable {shape : ν → θ × Nat}

theorem GroupedBy.sublist (h : GroupedBy shape l) (hs : l'.Sublist l) :
    GroupedBy shape l' :=
  Grouped.sublist h (hs.map _)

theorem GroupedBy.of_values (h : GroupedBy shape l)
    (heq : l'.map Attribute.value = l.map Attribute.value) : GroupedBy shape l' := by
  have hmap : ∀ l : List (Attribute ν), l.map (fun a => shape a.value) =
      (l.map Attribute.value).map shape := by simp
  rw [GroupedBy, hmap] at h ⊢
  rwa [heq]

section
variable [DecidableEq θ] {A : Application τ ν} {o : AddOrder ν} {shape : ν → θ × Nat}
  {db : Database ν}

theorem Application.Ordered.map_add (hA : A.Ordered o shape) (r : Attribute ν)
    (l : List (Attribute ν)) : (A.add r l).map (fun a => shape a.value) =
      insertGroup (shape r.value) (l.map fun a => shape a.value) := by
  rw [hA.add]
  exact map_addGrouped (hA.sameType _) fun a _ => hA.below _ _

section

variable (hA : A.Ordered o shape) (h : GroupedBy shape db.attribList)
include hA h

theorem GroupedBy.merged (r : Attribute ν) : GroupedBy shape (db.merged A r) := by
  have hfound : ∀ a : Attribute ν, A.lookup r.value a.value = true ↔
      shape a.value = shape r.value := by
    intro a
    rw [hA.keyed.lookup, decide_eq_true_eq]
  simp only [Database.merged]
  split
  · rw [GroupedBy, map_key_updateFirst]
    · exact h
    · exact fun a ha => hA.keyed.key_merge _ r a ((hfound a).mp ha)
  case isFalse hany =>
    rw [GroupedBy, hA.map_add]
    refine Grouped.insertGroup h fun hmem => hany ?_
    obtain ⟨a, ha, heq⟩ := mem_map.mp hmem
    exact any_eq_true.mpr ⟨a, ha, (hfound a).mpr heq⟩

theorem GroupedBy.attribute (p2pmac : Bool) (event : MrpEvent) (r : Attribute ν) :
    GroupedBy shape (db.attribute A p2pmac event r).db.attribList := by
  have hmerged := h.merged hA r
  have hstepped : GroupedBy shape (updateFirst (fun a => A.lookup r.value a.value)
      (Attribute.stepRequest p2pmac event) (db.merged A r)) :=
    hmerged.of_values (map_key_updateFirst fun a _ => value_stepRequest a)
  simp only [Database.attribute]
  split
  · simp only
    split
    · exact hstepped.sublist removeFirst_sublist
    · exact hstepped
  · exact h

theorem GroupedBy.event [DecidableEq τ] (p2pmac : Bool) (call : Call τ ν) :
    GroupedBy shape (mrpEvent A p2pmac call db).db.attribList := by
  have hnotify : ∀ o : Outcome ν, GroupedBy shape o.db.attribList →
      GroupedBy shape o.notify.db.attribList :=
    fun o ho => ho.of_values map_map
  have htx := hA.keyed.txpdu
  match call with
  | .lvatimer =>
    refine hnotify _ (h.of_values ?_)
    exact (map_txChanged (htx (db.lvaReady p2pmac)) fun _ _ => rfl).trans map_map
  | .tx =>
    refine hnotify _ (h.of_values ?_)
    exact (map_txChanged (htx (db.txReady p2pmac)) fun _ _ => rfl).trans map_map
  | .lvtimer =>
    have hstepped : GroupedBy shape (db.attribList.map (Attribute.stepRegistrar .lvtimer)) :=
      h.of_values map_map
    refine hnotify _ ?_
    simp only [Database.lvtimer]
    split
    · exact hstepped.sublist filter_sublist
    · exact hstepped
  | .periodic =>
    refine hnotify _ ?_
    simp only [Database.periodic]
    split
    · exact h.of_values map_map
    · exact h
  | .rla t =>
    refine hnotify _ (h.of_values ?_)
    refine map_map.trans (map_congr_left fun a _ => ?_)
    show (if _ then _ else _ : Attribute ν).value = a.value
    split <;> rfl
  | .attribute event r =>
    rw [mrpEvent_attribute]
    split
    · exact hnotify _ (h.attribute hA p2pmac event r)
    · exact hnotify _ h

end

end

/-- `struct mvrp_database` or `struct mmrp_database` with the attribute list in memory. -/
structure LinkedDatabase (ν : Type) where
  mrpDb : MrpDatabase
  heap : Heap (Attribute ν)
  sendEmptyLeaveAll : Bool

def LinkedDatabase.read (s : LinkedDatabase ν) : Database ν :=
  { mrpDb := s.mrpDb, attribList := s.heap.toList, sendEmptyLeaveAll := s.sendEmptyLeaveAll }

def emptyLinkedDatabase : LinkedDatabase ν where
  mrpDb := (emptyDatabase : Database ν).mrpDb
  heap := .empty
  sendEmptyLeaveAll := false

namespace DbConfig

variable [DecidableEq τ] (cfg : DbConfig τ ν) (o : AddOrder ν) (malloc : Malloc)

/-- The event function: attributes change in their places, but where one is added or freed. -/
def linkedEvent (s : LinkedDatabase ν) (call : Call τ ν) : LinkedDatabase ν :=
  let next := cfg.event s.read call
  { mrpDb := next.mrpDb
    sendEmptyLeaveAll := next.sendEmptyLeaveAll
    heap :=
      match call with
      | .lvtimer =>
        (s.heap.pass (Attribute.stepRegistrar .lvtimer) fun a =>
          cfg.app.reclaims && a.reclaimable).pass Attribute.settle fun _ => false
      | .attribute event rattrib =>
        (if event ∈ attributeEvents ∧ cfg.app.interested s.heap.toList rattrib.value then
            linkedRequest cfg.app o malloc cfg.p2pmac event rattrib s.heap
          else s.heap).pass Attribute.settle fun _ => false
      | _ => s.heap.store next.attribList s.heap.head }

/-- `mvrp_reclaim` and `mmrp_reclaim` free what nobody declares. -/
def linkedStep (s : LinkedDatabase ν) (i : DbInput ν) : LinkedDatabase ν :=
  match i with
  | .reclaim => { s with heap := s.heap.pass id Attribute.reclaimable }
  | i => (cfg.calls i).foldl (cfg.linkedEvent o malloc) s

end DbConfig

/-- The database in memory reads as the database over lists, and its list is linked. -/
structure ReadsAs (s : LinkedDatabase ν) (db : Database ν) : Prop where
  mrpDb : s.mrpDb = db.mrpDb
  sendEmptyLeaveAll : s.sendEmptyLeaveAll = db.sendEmptyLeaveAll
  heap : Keeps s.heap db.attribList

theorem ReadsAs.read (h : ReadsAs s db) : s.read = db := by
  obtain ⟨mrpDb, l, flag⟩ := db
  obtain ⟨rfl, rfl, hheap⟩ := h
  simp [LinkedDatabase.read, hheap.toList]

section
variable [DecidableEq τ] [DecidableEq θ] {cfg : DbConfig τ ν} {o : AddOrder ν}
  {shape : ν → θ × Nat} {s : LinkedDatabase ν} {db : Database ν}

theorem ReadsAs.event (h : ReadsAs s db) (hA : cfg.app.Ordered o shape) (malloc : Malloc)
    (call : Call τ ν) : ReadsAs (cfg.linkedEvent o malloc s call) (cfg.event db call) := by
  have hread := h.read
  subst hread
  refine ⟨rfl, rfl, ?_⟩
  have hheap : Keeps s.heap s.read.attribList := h.heap
  match call with
  | .lvtimer =>
    have hpass := (hheap.pass (Attribute.stepRegistrar .lvtimer) fun a =>
      cfg.app.reclaims && a.reclaimable).passOver Attribute.settle
    simp only [DbConfig.linkedEvent, DbConfig.event, mrpEvent, notify_attribList, Database.lvtimer]
    cases hreclaims : cfg.app.reclaims with
    | true => simpa [hreclaims, reclaim] using hpass
    | false => simpa [hreclaims] using hpass
  | .attribute event r =>
    simp only [DbConfig.linkedEvent, DbConfig.event, mrpEvent_attribute]
    by_cases hevents : event ∈ attributeEvents
    · rw [if_pos hevents, notify_attribList]
      cases hi : cfg.app.interested s.heap.toList r.value with
      | true =>
        simp only [hevents, and_self, if_true]
        exact (Keeps.linkedRequest hA.keyed hA.add hheap hi malloc cfg.p2pmac event).passOver _
      | false =>
        have hidle : s.read.attribute cfg.app cfg.p2pmac event r = { db := s.read } :=
          attribute_of_not_interested (Bool.eq_false_iff.mp hi)
        simp only [hidle, and_false, if_false, Bool.false_eq_true]
        exact hheap.passOver _
    · rw [if_neg hevents, notify_attribList]
      simp only [hevents, false_and, if_false]
      exact hheap.passOver _
  | .lvatimer | .tx | .periodic | .rla _ =>
    refine hheap.store (length_mrpEvent hA.keyed _ _ _ ?_ ?_) <;> simp

theorem ReadsAs.step (h : ReadsAs s db) (hA : cfg.app.Ordered o shape) (malloc : Malloc)
    (i : DbInput ν) : ReadsAs (cfg.linkedStep o malloc s i) (cfg.step db i) := by
  have hcalls : ∀ calls : List (Call τ ν), ReadsAs (calls.foldl (cfg.linkedEvent o malloc) s)
      (calls.foldl cfg.event db) := by
    intro calls
    induction calls generalizing s db with
    | nil => exact h
    | cons call calls ih => exact ih (h.event hA malloc call)
  cases i with
  | reclaim =>
    have hpass := h.heap.pass id Attribute.reclaimable
    rw [map_id] at hpass
    exact ⟨h.mrpDb, h.sendEmptyLeaveAll, hpass⟩
  | command | receive | lvatimer | lvtimer | tx | periodic => exact hcalls _

theorem GroupedBy.step (h : GroupedBy shape db.attribList) (hA : cfg.app.Ordered o shape)
    (i : DbInput ν) : GroupedBy shape (cfg.step db i).attribList :=
  cfg.step_keeps (P := fun db => GroupedBy shape db.attribList)
    (fun _ call hdb => hdb.event hA cfg.p2pmac call)
    (fun _ hdb => hdb.sublist filter_sublist) h i

def OrderedInMemory (shape : ν → θ × Nat) (s : LinkedDatabase ν) : Prop :=
  ∃ db, ReadsAs s db ∧ GroupedBy shape db.attribList

omit [DecidableEq θ] in
theorem orderedInMemory_empty : OrderedInMemory shape emptyLinkedDatabase :=
  ⟨emptyDatabase, ⟨rfl, rfl, keeps_empty⟩, grouped_nil⟩

theorem OrderedInMemory.step (h : OrderedInMemory shape s) (hA : cfg.app.Ordered o shape)
    (malloc : Malloc) (i : DbInput ν) : OrderedInMemory shape (cfg.linkedStep o malloc s i) := by
  obtain ⟨db, hreads, hgrouped⟩ := h
  exact ⟨cfg.step db i, hreads.step hA malloc i, hgrouped.step hA i⟩

end

/-- The MVRP list in memory: linked in both directions, with increasing VIDs. -/
def VidsInOrder (h : Heap (Attribute UInt16)) : Prop :=
  ∃ l, LinksUp h l ∧ l.Pairwise fun a b => a.value < b.value

/-- The MMRP list in memory: linked both ways, types together, in increasing order. -/
def MacsInOrder (h : Heap (Attribute MmrpValue)) : Prop :=
  ∃ l, LinksUp h l ∧ Contiguous (l.map fun a => a.value.type) ∧
    l.Pairwise fun a b => a.value.type = b.value.type → mmrpBelow a.value b.value = true

theorem OrderedInMemory.vids (h : OrderedInMemory vidShape s) : VidsInOrder s.heap := by
  obtain ⟨db, hreads, hgrouped⟩ := h
  refine ⟨_, hreads.heap.linksUp, ?_⟩
  refine (pairwise_map.mp hgrouped.increasing).imp fun hlt => ?_
  exact UInt16.lt_iff_toNat_lt.mpr (hlt rfl)

theorem OrderedInMemory.macs (h : OrderedInMemory MmrpValue.shape s) : MacsInOrder s.heap := by
  obtain ⟨db, hreads, hgrouped⟩ := h
  refine ⟨_, hreads.heap.linksUp, ?_, ?_⟩
  · have hcontiguous := hgrouped.contiguous
    rwa [map_map] at hcontiguous
  · refine (pairwise_map.mp hgrouped.increasing).imp fun hlt htype => ?_
    exact ((mmrp_ordered (Octets.ofList 6 []) (0, 0, 0)).below _ _ htype.symm).mpr (hlt htype)

/-- In every run of the two daemons the lists are linked and in order, whatever `malloc` does. -/
theorem mvrp_mmrp_lists_in_order (station : Octets 6) (p2pmac : Bool) (malloc : Malloc) :
    (∀ inputs, Always ((mvrpConfig station p2pmac).linkedStep mvrpOrder malloc)
      (fun s => VidsInOrder s.heap) emptyLinkedDatabase inputs) ∧
    (∀ inputs, Always (fun s (i : Slots × DbInput MmrpValue) =>
        (mmrpConfig station p2pmac i.1).linkedStep mmrpOrder malloc s i.2)
      (fun s => MacsInOrder s.heap) emptyLinkedDatabase inputs) := by
  constructor
  · intro inputs
    refine (always_of_step (fun s i (hs : OrderedInMemory vidShape s) => ?_)
      orderedInMemory_empty inputs).imp fun s hs => hs.vids
    exact hs.step (mvrp_ordered station) malloc i
  · intro inputs
    refine (always_of_step (fun s i (hs : OrderedInMemory MmrpValue.shape s) => ?_)
      orderedInMemory_empty inputs).imp fun s hs => hs.macs
    exact hs.step (mmrp_ordered station i.1) malloc i.2

end

/-! ## The order of the MSRP attribute list -/

open List

def MsrpValue.shape (v : MsrpValue) : MsrpType × Nat :=
  (v.type, match v with
    | .talker _ t => number t.streamID.val
    | .listener streamID _ => number streamID.val
    | .domain d => d.srClassID.toNat)

def shapes (l : List (Attribute MsrpValue)) : List (MsrpType × Nat) := l.map fun a => a.value.shape

theorem octets_eq_of_number {a b : Octets n} (h : number a.val = number b.val) : a = b :=
  Subtype.ext (number_inj (a.property.trans b.property.symm) h)

theorem msrpLookup_of_shape (h : v.shape = w.shape) : msrpLookup v w = true := by
  obtain ⟨htype, hkey⟩ := Prod.mk.inj h
  cases v with
  | talker f t =>
    cases w with
    | talker g u => simp [msrpLookup, octets_eq_of_number hkey]
    | _ => cases f <;> cases htype
  | listener s =>
    cases w with
    | listener s' => simp [msrpLookup, octets_eq_of_number hkey]
    | talker g u => cases g <;> cases htype
    | _ => cases htype
  | domain d =>
    cases w with
    | domain d' => simpa [msrpLookup] using (UInt8.toNat_inj.mp hkey).symm
    | talker g u => cases g <;> cases htype
    | _ => cases htype

theorem msrpBelow_iff (htype : v.type = w.type) (hne : v.shape ≠ w.shape) :
    msrpBelow v w = true ↔ v.shape.2 < w.shape.2 := by
  have hoctets : ∀ a b : Octets 8, number a.val < number b.val ↔ a.val < b.val :=
    fun a b => number_lt_iff (a.property.trans b.property.symm)
  cases v with
  | talker f t =>
    cases w with
    | talker g u => simp [msrpBelow, MsrpValue.shape, hoctets]
    | _ => cases f <;> cases htype
  | listener s =>
    cases w with
    | listener s' => simp [msrpBelow, MsrpValue.shape, hoctets]
    | talker g u => cases g <;> cases htype
    | _ => cases htype
  | domain d =>
    cases w with
    | domain d' =>
      have hclass : d.srClassID ≠ d'.srClassID := by
        rintro heq
        exact hne (by simp [MsrpValue.shape, heq, MsrpValue.type])
      simp [msrpBelow, MsrpValue.shape, Domain.octets, cons_lt_cons_iff, hclass,
        UInt8.lt_iff_toNat_lt]
    | talker g u => cases g <;> cases htype
    | _ => cases htype

theorem shapes_msrpAdd (r : Attribute MsrpValue) (l : List (Attribute MsrpValue))
    (hr : r.value.shape ∉ shapes l) :
    shapes (msrpAdd r l) = insertGroup r.value.shape (shapes l) := by
  refine map_addGrouped (fun _ => rfl) fun a ha htype => ?_
  refine msrpBelow_iff htype.symm fun heq => hr ?_
  exact mem_map.mpr ⟨a, ha, heq⟩

theorem shape_msrpMerge (hfound : msrpLookup r.value a.value = true) :
    (msrpMerge l r a).value.shape = (r.value.type, a.value.shape.2) := by
  obtain ⟨v, aa, ar⟩ := a
  obtain ⟨w, ra, rr⟩ := r
  cases v <;> cases w <;> simp only [msrpLookup, Bool.false_eq_true] at hfound
  case talker.talker => rfl
  case listener.listener =>
    simp only [msrpMerge]
    split <;> rfl
  case domain.domain =>
    simp only [msrpMerge]
    split <;> rfl

def InOrder (l : List (Attribute MsrpValue)) : Prop := Grouped (shapes l)

theorem InOrder.sublist (h : InOrder l) (hs : l'.Sublist l) : InOrder l' :=
  Grouped.sublist h (hs.map _)

theorem InOrder.of_values (h : InOrder l)
    (heq : l'.map Attribute.value = l.map Attribute.value) : InOrder l' := by
  have hshapes : ∀ l, shapes l = (l.map Attribute.value).map MsrpValue.shape := by
    simp [shapes, Function.comp_def]
  rw [InOrder, hshapes] at h ⊢
  rwa [heq]

/-- The attribute that `r` is about, if it is there, may be given the type of `r` where it
stands. -/
def Retypes (r : MsrpValue) (l : List (Attribute MsrpValue)) : Prop :=
  match l.dropWhile fun a => !msrpLookup r a.value with
  | [] => True
  | a :: ys =>
    Borders r.type (shapes (l.takeWhile fun a => !msrpLookup r a.value)) a.value.shape (shapes ys)

instance (r : MsrpValue) (l : List (Attribute MsrpValue)) : Decidable (Retypes r l) :=
  match h : l.dropWhile fun a => !msrpLookup r a.value with
  | [] => isTrue (by simp [Retypes, h])
  | a :: ys =>
    decidable_of_iff (Borders r.type (shapes (l.takeWhile fun a => !msrpLookup r a.value))
      a.value.shape (shapes ys)) (by simp [Retypes, h])

theorem Retypes.borders (h : Retypes r (xs ++ a :: ys))
    (hxs : ∀ b ∈ xs, msrpLookup r b.value = false) (ha : msrpLookup r a.value = true) :
    Borders r.type (shapes xs) a.value.shape (shapes ys) := by
  have hnot : ∀ b ∈ xs, (!msrpLookup r b.value) = true := by
    rintro b hb
    simp [hxs b hb]
  rw [Retypes, dropWhile_append_of_pos hnot, takeWhile_append_of_pos hnot,
    dropWhile_cons_of_neg (by simp [ha]), takeWhile_cons_of_neg (by simp [ha])] at h
  simpa using h

theorem InOrder.merged {db : Database MsrpValue} (h : InOrder db.attribList)
    (hr : Retypes r.value db.attribList) (station : Octets 6) (pruning : Pruning) :
    InOrder (db.merged (msrpApplication station pruning) r) := by
  have hmerged : db.merged (msrpApplication station pruning) r =
      if db.attribList.any (fun a => msrpLookup r.value a.value) then
        updateFirst (fun a => msrpLookup r.value a.value) (msrpMerge db.attribList r) db.attribList
      else msrpAdd r db.attribList := rfl
  rw [hmerged]
  generalize db.attribList = l at h hr
  rcases find?_cases (fun a => msrpLookup r.value a.value) l with
    ⟨hnone, -⟩ | ⟨xs, a, ys, rfl, hxs, ha, -⟩
  · have hnew : r.value.shape ∉ shapes l := by
      intro hmem
      obtain ⟨a, ha, heq⟩ := mem_map.mp hmem
      have hfound := msrpLookup_of_shape heq.symm
      rw [hnone a ha] at hfound
      cases hfound
    rw [if_neg (by simpa using hnone), InOrder, shapes_msrpAdd r l hnew]
    exact Grouped.insertGroup h hnew
  · rw [if_pos (any_eq_true.mpr ⟨a, by simp, ha⟩), updateFirst_append hxs ha]
    have hgrouped : Grouped (shapes xs ++ a.value.shape :: shapes ys) := by
      simpa [InOrder, shapes] using h
    have hchange := hgrouped.change (hr.borders hxs ha)
    rw [← shape_msrpMerge ha] at hchange
    simpa [InOrder, shapes] using hchange

theorem values_attribute_sublist (db : Database MsrpValue) (station : Octets 6)
    (pruning : Pruning) (p2pmac : Bool) (event : MrpEvent) (r : Attribute MsrpValue)
    (hi : msrpInterested pruning db.attribList r.value = true) :
    ((db.attribute (msrpApplication station pruning) p2pmac event r).db.attribList.map
      Attribute.value).Sublist
      ((db.merged (msrpApplication station pruning) r).map Attribute.value) := by
  have hi' : (msrpApplication station pruning).interested db.attribList r.value = true := hi
  have hstep : (updateFirst (fun a => (msrpApplication station pruning).lookup r.value a.value)
      (Attribute.stepRequest p2pmac event) (db.merged (msrpApplication station pruning) r)).map
        Attribute.value = (db.merged (msrpApplication station pruning) r).map Attribute.value :=
    map_key_updateFirst fun a _ => value_stepRequest a
  simp only [Database.attribute, hi', if_true]
  rw [← hstep]
  split
  · exact removeFirst_sublist.map _
  · exact .refl _

namespace MsrpConfig

variable (cfg : MsrpConfig)

/-- The event does not give a talker another type within its group or away from the others. -/
def KeepsGroups (s : MsrpDaemon) (call : Call MsrpType MsrpValue) : Prop :=
  match call with
  | .attribute event r =>
    event ∈ attributeEvents →
      msrpInterested (cfg.pruning s.interestingStreamIds) s.db.attribList r.value = true →
        Retypes r.value s.db.attribList
  | _ => True

end MsrpConfig

variable {cfg : MsrpConfig} {s : MsrpDaemon}

theorem InOrder.event (h : InOrder s.db.attribList) (call : Call MsrpType MsrpValue)
    (hcall : cfg.KeepsGroups s call) : InOrder (cfg.event call s).daemon.db.attribList := by
  have hnotify : ∀ o : Outcome MsrpValue, InOrder o.db.attribList →
      InOrder o.notify.db.attribList :=
    fun o ho => ho.of_values map_map
  have htx := (msrp_keyed cfg.station (cfg.pruning s.interestingStreamIds)).txpdu
  match call with
  | .lvatimer =>
    refine hnotify _ (h.of_values ?_)
    exact (map_txChanged (htx (s.db.lvaReady cfg.p2pmac)) fun _ _ => rfl).trans map_map
  | .tx =>
    refine hnotify _ (h.of_values ?_)
    exact (map_txChanged (htx (s.db.txReady cfg.p2pmac)) fun _ _ => rfl).trans map_map
  | .lvtimer =>
    refine hnotify _ (InOrder.sublist ?_ filter_sublist)
    exact h.of_values map_map
  | .periodic => exact hnotify _ h
  | .rla t =>
    refine hnotify _ (h.of_values ?_)
    refine map_map.trans (map_congr_left fun a _ => ?_)
    show (if _ then _ else _ : Attribute MsrpValue).value = a.value
    split <;> rfl
  | .attribute event r =>
    have hevent : (cfg.event (.attribute event r) s).daemon.db.attribList =
        (mrpEvent (msrpApplication cfg.station (cfg.pruning s.interestingStreamIds)) cfg.p2pmac
          (.attribute event r) s.db).db.attribList := rfl
    rw [hevent, mrpEvent_attribute]
    by_cases hevents : event ∈ attributeEvents
    · rw [if_pos hevents]
      refine hnotify _ ?_
      cases hi : msrpInterested (cfg.pruning s.interestingStreamIds) s.db.attribList r.value with
      | true =>
        have hmerged := h.merged (hcall hevents hi) cfg.station
          (cfg.pruning s.interestingStreamIds)
        have hsub := values_attribute_sublist s.db cfg.station _ cfg.p2pmac event r hi
        have hshapes := hsub.map MsrpValue.shape
        simp only [map_map] at hshapes
        exact Grouped.sublist hmerged hshapes
      | false =>
        have hnot : ¬ (msrpApplication cfg.station
            (cfg.pruning s.interestingStreamIds)).interested s.db.attribList r.value = true :=
          Bool.eq_false_iff.mp hi
        rw [attribute_of_not_interested hnot]
        exact h
    · rw [if_neg hevents]
      exact hnotify _ h

theorem retypes_of_type (htype : ∀ v, msrpLookup r v = true → r.type = v.type)
    (l : List (Attribute MsrpValue)) : Retypes r l := by
  rcases find?_cases (fun a => msrpLookup r a.value) l with
    ⟨hnone, -⟩ | ⟨xs, a, ys, rfl, hxs, ha, -⟩
  · have hdrop : l.dropWhile (fun a => !msrpLookup r a.value) = [] := by
      rw [dropWhile_eq_nil_iff]
      rintro a ha
      simp [hnone a ha]
    simp [Retypes, hdrop]
  · have hnot : ∀ b ∈ xs, (!msrpLookup r b.value) = true := by
      rintro b hb
      simp [hxs b hb]
    rw [Retypes, dropWhile_append_of_pos hnot, dropWhile_cons_of_neg (by simp [ha])]
    exact .inl (htype a.value ha)

theorem retypes_listener (streamID : Octets 8) (substate : Nat) (l : List (Attribute MsrpValue)) :
    Retypes (.listener streamID substate) l := by
  refine retypes_of_type (fun v hv => ?_) l
  cases v <;> simp [msrpLookup, MsrpValue.type] at hv ⊢

theorem retypes_domain (d : Domain) (l : List (Attribute MsrpValue)) : Retypes (.domain d) l := by
  refine retypes_of_type (fun v hv => ?_) l
  cases v <;> simp [msrpLookup, MsrpValue.type] at hv ⊢

namespace MsrpConfig

variable (cfg : MsrpConfig)

/-- What the talker events of an input find, each in the state that takes it. -/
def StepKeepsGroups (s : MsrpDaemon) (i : MsrpInput) : Prop :=
  match i with
  | .command (.leaveStream streamID) =>
    cfg.KeepsGroups s (.attribute .lv (alloc (.talker false (.ofStreamID streamID))))
  | .command (.joinOrNewStream new failed talk) =>
    cfg.KeepsGroups s
      (.attribute (if new then .new else .join) (alloc (.talker failed (talk.seen failed))))
  | .receive data rest =>
    Each (fun s call => (cfg.event call s).daemon) cfg.KeepsGroups s (received data rest)
  | _ => True

end MsrpConfig

theorem InOrder.step (h : InOrder s.db.attribList) (i : MsrpInput)
    (hi : cfg.StepKeepsGroups s i) : InOrder (cfg.step s i).db.attribList := by
  have hfree : ∀ (d : MsrpDaemon) streamID, InOrder d.db.attribList →
      InOrder (d.freeTalkers streamID).db.attribList :=
    fun d streamID hd => hd.sublist filter_sublist
  cases i with
  | lvatimer | lvtimer | tx | periodic => exact h.event _ trivial
  | reclaim => exact h.sublist filter_sublist
  | receive data rest =>
    have hrun : Always (fun s call => (cfg.event call s).daemon)
        (fun s => InOrder s.db.attribList) s (MsrpConfig.received data rest) :=
      Each.always (fun s call hs hcall => hs.event call hcall) h hi
    simp only [MsrpConfig.step, MsrpConfig.serve, daemon_events]
    exact hrun.last
  | command c =>
    cases c with
    | dumptable | removeAllStreamIds => exact h
    | addStreamId streamID =>
      simp only [MsrpConfig.step, MsrpConfig.serve, MsrpConfig.recvCmd, MsrpConfig.addStreamId]
      split
      · split <;> exact h
      · exact h
    | removeStreamId streamID =>
      simp only [MsrpConfig.step, MsrpConfig.serve, MsrpConfig.recvCmd, MsrpConfig.removeStreamId]
      split
      · split
        · exact h
        · split
          · exact h
          · exact hfree _ streamID h
      · exact h
    | leaveStream | joinOrNewStream => exact h.event _ hi
    | reportDomainStatus => exact h.event _ fun _ _ => retypes_domain ..
    | reportListenerStatus => exact h.event _ fun _ _ => retypes_listener ..
    | withdrawListenerStatus streamID =>
      have hevent : InOrder (cfg.event (.attribute .lv (alloc (.listener streamID
          (s.listenerSubstate streamID)))) s).daemon.db.attribList :=
        h.event _ fun _ _ => retypes_listener ..
      simp only [MsrpConfig.step, MsrpConfig.serve, MsrpConfig.recvCmd,
        MsrpConfig.withdrawListenerStatus]
      split
      · exact hfree _ streamID hevent
      · exact hevent

def announce (failed : Bool) (n : UInt8) : MsrpInput :=
  .command (.joinOrNewStream true failed (sampleTalk n))

/-- In every run whose talker events keep the groups, all attributes of a type stand together in
every state, with increasing keys. -/
theorem msrp_list_in_order (cfg : MsrpConfig) (inputs : List MsrpInput)
    (h : Each cfg.step cfg.StepKeepsGroups msrpInit inputs) :
    Always cfg.step (fun s => InOrder s.db.attribList) msrpInit inputs :=
  h.always (fun _ i hs hi => hs.step i hi) grouped_nil

/-- The last of two streams fails. -/
theorem msrp_list_in_order_last_fails : Each sampleConfig.step sampleConfig.StepKeepsGroups msrpInit
        [announce false 1, announce false 2, announce true 2] ∧
      Always sampleConfig.step (fun s => InOrder s.db.attribList) msrpInit
        [announce false 1, announce false 2, announce true 2] := by
  have h : Each sampleConfig.step sampleConfig.StepKeepsGroups msrpInit
      [announce false 1, announce false 2, announce true 2] :=
    ⟨fun _ _ => by decide +kernel, fun _ _ => by decide +kernel, fun _ _ => by decide +kernel,
      trivial⟩
  exact ⟨h, msrp_list_in_order sampleConfig _ h⟩

/-- The one in the middle of three streams fails. -/
theorem msrp_list_out_of_order : ¬ InOrder (run sampleConfig.step msrpInit
      [announce false 1, announce false 2, announce false 3, announce true 2]).db.attribList := by
  intro h
  have hfailed := h.contiguous .talkerAdv .talkerFailed (by decide +kernel)
  cases hfailed

end OpenAvb.Mrpd
