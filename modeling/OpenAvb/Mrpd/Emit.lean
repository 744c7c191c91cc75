import OpenAvb.Mrpd.Mrp
import Mathlib.Data.List.Forall2

/-!
# Emitting vectors

The emitters walk the attribute list, start a vector at every attribute that must be
sent, and look ahead for attributes that continue it. What was stored before `oops`
stays stored, so every result carries the stores.
-/

namespace OpenAvb.Mrpd

def eventOf (sndmsg : SndMsg) (registrarIn : Bool) : Option AttributeEvent :=
  match sndmsg with
  | .sndIn => some (if registrarIn then .isIn else .mt)
  | .sndNew => some .new
  | .sndLv => some .lv
  | .sndJoin => some (if registrarIn then .joinIn else .joinMt)
  | .sndLva | .sndNull | .sndNone => none

def Attribute.event (a : Attribute ν) : Option AttributeEvent :=
  eventOf a.applicant.sndmsg (mrpRegistrarIn a.registrar)

def Attribute.clearTx (a : Attribute ν) : Attribute ν :=
  { a with applicant := { a.applicant with tx := false } }

def clearTxs : Nat → List (Attribute ν) → List (Attribute ν)
  | n + 1, a :: rest => a.clearTx :: clearTxs n rest
  | _, rest => rest

/-- An emitter goes on, or leaves by `oops` with the flags of `joined` attributes cleared. -/
inductive Flow (α : Type) where
  | ok (a : α)
  | oops (stores : Stores) (joined : Nat)

/-- The locals of a vector: `vectidx` as an offset, the events to pack and the substates to send. -/
structure VectorState where
  stores : Stores
  vectidx : Nat
  vectevt : List AttributeEvent
  listenDeclare : List Nat
  numvalues : Nat

def VectorState.flush (v : VectorState) : VectorState :=
  let packed := pack3 (v.vectevt.map AttributeEvent.code)
  { v with stores := put v.stores v.vectidx packed
           vectidx := v.vectidx + packed.length
           vectevt := [] }

def VectorState.push (v : VectorState) (e : AttributeEvent) (declared : List Nat) : VectorState :=
  let v := { v with vectevt := v.vectevt ++ [e]
                    listenDeclare := v.listenDeclare ++ declared
                    numvalues := v.numvalues + 1 }
  if 2 < v.vectevt.length then v.flush else v

structure Sequence (ν : Type) where
  selects : ν → Bool
  next : ν → ν
  continues : ν → ν → Bool

variable {ν : Type}

/-- The look-ahead: `margin` octets stay free, `event` is the code of a joined attribute, `declares`
the listener declaration it adds. -/
def lookAhead (q : Sequence ν) (eof margin : Nat) (event : Attribute ν → Option AttributeEvent)
    (declares : ν → List Nat) (v : VectorState) (firstval : ν) :
    List (Attribute ν) → Flow VectorState
  | [] => .ok v
  | a :: rest =>
    if !(q.selects a.value && a.applicant.tx) then .ok v
    else if !q.continues (q.next firstval) a.value then .ok v
    else match event a with
      | none => .oops v.stores v.numvalues
      | some e =>
        let v := v.push e (declares a.value)
        if eof < v.vectidx + margin then .oops v.stores (v.numvalues - 1)
        else lookAhead q eof margin event declares v (q.next firstval) rest

/-- The 4-packed listener declarations: whole octets are checked, the trailer is not. -/
def emitSubstates (eof : Nat) (stores : Stores) (vectidx : Nat) :
    List Nat → Except Stores (Stores × Nat)
  | w :: x :: y :: z :: rest =>
    if eof < vectidx + 2 then .error stores
    else
      let stores := put stores vectidx [fourPack w x y z]
      if eof < vectidx + 1 + 3 then .error stores
      else emitSubstates eof stores (vectidx + 1) rest
  | trailer => .ok (put stores vectidx (pack4 trailer), vectidx + (pack4 trailer).length)

structure Emitter (ν : Type) extends Sequence ν where
  attributeType : UInt8
  attributeLength : Nat
  listLength : Bool
  vectorSize : Nat
  firstValue : ν → List UInt8
  length_firstValue : ∀ v, (firstValue v).length = attributeLength
  fourPacked : Bool
  substate : ν → Nat

def Emitter.dataOffset (E : Emitter ν) : Nat := 2 + if E.listLength then 2 else 0

def Emitter.declares (E : Emitter ν) (v : ν) : List Nat :=
  if E.fourPacked then [E.substate v] else []

def finishVector (eof : Nat) (lva : Bool) (vectorptr : Nat) (v : VectorState) :
    Flow VectorState :=
  let v := v.flush
  match emitSubstates eof v.stores v.vectidx v.listenDeclare with
  | .error stores => .oops stores (v.numvalues - 1)
  | .ok (stores, vectidx) =>
    if eof < vectidx + 2 then .oops stores (v.numvalues - 1)
    else .ok { v with
      stores := put stores vectorptr (be16 (vectorHeader lva v.numvalues))
      vectidx := vectidx }

def emitVector (E : Emitter ν) (eof : Nat) (lva : Bool) (stores : Stores) (vectorptr : Nat)
    (a : Attribute ν) (rest : List (Attribute ν)) : Flow VectorState :=
  let stores := put stores (vectorptr + 2) (E.firstValue a.value)
  match a.event with
  | none => .oops stores 0
  | some e =>
    let v : VectorState :=
      { stores := stores, vectidx := vectorptr + 2 + E.attributeLength, vectevt := [e]
        listenDeclare := E.declares a.value, numvalues := 1 }
    match lookAhead E.toSequence eof 2 Attribute.event E.declares v a.value rest with
    | .oops stores joined => .oops stores joined
    | .ok v => finishVector eof lva vectorptr v

structure Cursor where
  stores : Stores
  (msgPtr vectorptr : Nat)
  (found lva : Bool)

/-- How a loop starts vectors; `keepsLva` if the LeaveAll flag is not reset behind the first one. -/
structure Writer (ν : Type) where
  selects : ν → Bool
  vectorSize : Nat
  keepsLva : Bool
  write : (lva : Bool) → Stores → (vectorptr : Nat) → Attribute ν → List (Attribute ν) →
    Flow VectorState

/-- `joined` attributes at the head were taken by the look-ahead; the loop clears and passes
them. -/
def emitLoop (w : Writer ν) (eof : Nat) (c : Cursor) :
    (joined : Nat) → List (Attribute ν) → Except Stores Cursor × List (Attribute ν)
  | _, [] => (.ok c, [])
  | joined, a :: rest =>
    if eof ≤ c.msgPtr + w.vectorSize + 2 then (.ok c, clearTxs joined (a :: rest))
    else match joined with
      | joined + 1 =>
        let (r, rest) := emitLoop w eof c joined rest
        (r, a.clearTx :: rest)
      | 0 =>
        if !(w.selects a.value && a.applicant.tx) then
          let (r, rest) := emitLoop w eof c 0 rest
          (r, a :: rest)
        else if a.applicant.encode = .optional then
          let (r, rest) := emitLoop w eof c 0 rest
          (r, a.clearTx :: rest)
        else match w.write c.lva c.stores c.vectorptr a rest with
          | .oops stores joined => (.error stores, a.clearTx :: clearTxs joined rest)
          | .ok v =>
            let c : Cursor :=
              { stores := v.stores, msgPtr := v.vectidx, vectorptr := v.vectidx, found := true
                lva := c.lva && w.keepsLva }
            let (r, rest) := emitLoop w eof c (v.numvalues - 1) rest
            (r, a.clearTx :: rest)

/-- What an emitter leaves: stores, the list with flags cleared, and `bytes_used`, `none` for -1. -/
structure Emission (ν : Type) where
  stores : Stores
  attribs : List (Attribute ν)
  bytesUsed : Option Nat

def Emitter.writer (E : Emitter ν) (eof : Nat) : Writer ν where
  selects := E.selects
  vectorSize := E.vectorSize
  keepsLva := false
  write := emitVector E eof

def emitEmptyLeaveAll (E : Emitter ν) (emptyLeaveAll : Bool) (c : Cursor) : Cursor :=
  if !c.found && emptyLeaveAll then
    { c with stores := put c.stores c.vectorptr (be16 (vectorHeader true 0))
             msgPtr := c.vectorptr + 2 + E.attributeLength
             vectorptr := c.vectorptr + 2 + E.attributeLength }
  else c

def closeMessage (E : Emitter ν) (msgbuf : Nat) (c : Cursor) : Stores × Nat :=
  let data := msgbuf + E.dataOffset
  if c.vectorptr = data then (c.stores, 0)
  else
    let stores := put c.stores c.msgPtr [0, 0]
    let ptr := c.msgPtr + 2
    (if E.listLength then put stores (msgbuf + 2) (be16 (ptr - data)) else stores, ptr - msgbuf)

/-- An emitter from its first line to its last, with `w` writing its vectors. -/
def emitWith (E : Emitter ν) (w : Writer ν) (eof : Nat) (emptyLeaveAll lva : Bool)
    (stores : Stores) (msgbuf : Nat) (attribs : List (Attribute ν)) : Emission ν :=
  if eof < msgbuf + E.vectorSize then ⟨stores, attribs, none⟩
  else
    let start : Cursor :=
      { stores := put stores msgbuf [E.attributeType, UInt8.ofNat E.attributeLength]
        msgPtr := msgbuf, vectorptr := msgbuf + E.dataOffset, found := false, lva := lva }
    match emitLoop w eof start 0 attribs with
    | (.error stores, attribs) => ⟨stores, attribs, none⟩
    | (.ok c, attribs) =>
      let (stores, used) := closeMessage E msgbuf (emitEmptyLeaveAll E emptyLeaveAll c)
      ⟨stores, attribs, some used⟩

def emitVectors (E : Emitter ν) (eof : Nat) (emptyLeaveAll lva : Bool) (stores : Stores)
    (msgbuf : Nat) (attribs : List (Attribute ν)) : Emission ν :=
  emitWith E (E.writer eof) eof emptyLeaveAll lva stores msgbuf attribs

/-- What a `_txpdu` function leaves: stores, the list with flags cleared, and the frame for
`mrpd_send`, if any. -/
structure Transmission (ν : Type) where
  stores : Stores
  attribs : List (Attribute ν)
  frame : Option (List UInt8)

def messageList : Nat := 15

def openPdu (dest : List UInt8) (station : Octets 6) (etype : Nat) (version : UInt8) : Stores :=
  put [] 0 (ethHeader dest station.val etype version)

/-- The end of a `_txpdu` function: nothing to send, or the end mark of the PDU if there
is room for it. -/
def closePdu (stores : Stores) (ptr : Nat) : Stores × Option (List UInt8) :=
  if ptr = messageList then (stores, none)
  else if ptr + 2 < maxFrameSize then
    (put stores ptr [0, 0], some (read (look (put stores ptr [0, 0])) 0 (ptr + 2)))
  else (stores, none)

/-! ## What the emitters compute -/

open AttributeEvent List

variable {ν : Type}

def Sequence.run (q : Sequence ν) (c : ν) : List (Attribute ν) → Nat
  | [] => 0
  | a :: rest =>
    if q.selects a.value && a.applicant.tx && q.continues (q.next c) a.value
    then q.run (q.next c) rest + 1 else 0

structure Group (ν : Type) where
  head : Attribute ν
  joined : List (Attribute ν)
  deriving DecidableEq

def Group.members (g : Group ν) : List (Attribute ν) := g.head :: g.joined

/-- The attribute starts a vector: it asks for transmission, and not only optionally. -/
def Sequence.starts (q : Sequence ν) (a : Attribute ν) : Bool :=
  q.selects a.value && a.applicant.tx && a.applicant.encode = .yes

def Sequence.groups (q : Sequence ν) : (joined : Nat) → List (Attribute ν) → List (Group ν)
  | _, [] => []
  | joined + 1, _ :: rest => q.groups joined rest
  | 0, a :: rest =>
    if q.starts a then
      ⟨a, rest.take (q.run a.value rest)⟩ :: q.groups (q.run a.value rest) rest
    else q.groups 0 rest

def Sequence.IsRun (q : Sequence ν) (g : Group ν) : Prop :=
  q.run g.head.value g.joined = g.joined.length

section

variable (q : Sequence ν)
include q

theorem Sequence.run_le : q.run c rest ≤ rest.length := by
  induction rest generalizing c with
  | nil => simp [run]
  | cons a rest ih =>
    simp only [run, length_cons]
    split
    · exact Nat.succ_le_succ ih
    · omega

theorem Sequence.run_take : q.run c (rest.take (q.run c rest)) = q.run c rest := by
  induction rest generalizing c with
  | nil => simp
  | cons a rest ih =>
    simp only [run]
    split
    case isTrue h => simp [take_succ_cons, run, h, ih]
    case isFalse h => simp [run]

theorem Sequence.isRun_take (a : Attribute ν) (rest : List (Attribute ν)) :
    q.IsRun ⟨a, rest.take (q.run a.value rest)⟩ := by
  simp only [IsRun, q.run_take, length_take]
  have : q.run a.value rest ≤ rest.length := q.run_le
  omega

theorem Sequence.mem_groups (h : g ∈ q.groups k l) : q.IsRun g ∧ q.starts g.head = true := by
  induction l generalizing k with
  | nil => simp [groups] at h
  | cons a rest ih =>
    cases k with
    | succ k => exact ih (k := k) h
    | zero =>
      simp only [groups] at h
      split at h
      case isTrue hs =>
        rcases mem_cons.mp h with rfl | h
        · exact ⟨q.isRun_take a rest, hs⟩
        · exact ih h
      case isFalse => exact ih h

theorem Sequence.groups_sublist : ((q.groups k l).flatMap Group.members).Sublist (l.drop k) := by
  induction l generalizing k with
  | nil => simp [groups]
  | cons a rest ih =>
    cases k with
    | succ k => exact ih
    | zero =>
      simp only [groups, drop_zero]
      split
      · have h := (List.Sublist.refl (rest.take (q.run a.value rest))).append
          (ih (k := q.run a.value rest))
        rw [take_append_drop] at h
        exact h.cons_cons a
      · exact (ih (k := 0)).cons a

theorem Sequence.members_sublist (h : g ∈ q.groups 0 l) : g.members.Sublist l := by
  have hall : ((q.groups 0 l).flatMap Group.members).Sublist l := by
    simpa using q.groups_sublist (k := 0) (l := l)
  rw [flatMap_def] at hall
  exact (sublist_flatten_of_mem (mem_map_of_mem h)).trans hall

theorem Sequence.run_cons_eq (h : q.run c (a :: rest) = (a :: rest).length) :
    (q.selects a.value = true ∧ a.applicant.tx = true ∧ q.continues (q.next c) a.value = true) ∧
      q.run (q.next c) rest = rest.length := by
  simp only [run, length_cons] at h
  split at h
  case isTrue hc =>
    simp only [Bool.and_eq_true] at hc
    exact ⟨⟨hc.1.1, hc.1.2, hc.2⟩, by omega⟩
  case isFalse => omega

end

/-- The attributes carried, `last` ending the vector under construction: those asking for
transmission that continue it or must be sent. -/
def Sequence.carried (q : Sequence ν) : (last : Option ν) → List (Attribute ν) → List (Attribute ν)
  | _, [] => []
  | last, a :: rest =>
    if q.selects a.value && a.applicant.tx then
      if last.any fun c => q.continues (q.next c) a.value then
        a :: q.carried (last.map q.next) rest
      else if a.applicant.encode = .yes then a :: q.carried (some a.value) rest
      else q.carried none rest
    else q.carried none rest

theorem Sequence.carried_eq (q : Sequence ν) (l : List (Attribute ν)) :
    q.carried none l = (q.groups 0 l).flatMap Group.members ∧
    ∀ c, q.carried (some c) l =
      l.take (q.run c l) ++ (q.groups (q.run c l) l).flatMap Group.members := by
  induction l with
  | nil => simp [carried, groups, run]
  | cons a rest ih =>
    obtain ⟨hnone, hsome⟩ := ih
    have hstart : (q.groups 0 (a :: rest)).flatMap Group.members =
        if q.starts a then a :: q.carried (some a.value) rest else q.carried none rest := by
      by_cases hs : q.starts a = true
      · simp [groups, hs, hsome, Group.members]
      · simp [groups, hs, hnone]
    constructor
    · rw [hstart]
      by_cases ht : (q.selects a.value && a.applicant.tx) = true
      · simp [carried, starts, ht]
      · simp [carried, starts, ht]
    · intro c
      by_cases ht : (q.selects a.value && a.applicant.tx) = true
      · by_cases hc : q.continues (q.next c) a.value = true
        · simp [carried, run, groups, ht, hc, hsome]
        · simp [carried, run, ht, hc, Option.any_some, Bool.and_false, Bool.false_eq_true,
          take_zero, nil_append, hstart, starts, Bool.true_and, decide_eq_true_eq]
      · simp [carried, run, ht, Bool.false_and, Bool.false_eq_true, take_zero, nil_append, hstart,
        starts]

theorem Sequence.carried_sublist (q : Sequence ν) : (q.carried none l).Sublist l := by
  rw [(q.carried_eq l).1]
  simpa using q.groups_sublist (k := 0) (l := l)

theorem Sequence.mem_carried (q : Sequence ν) (ha : a ∈ l) (hs : q.starts a = true) :
    a ∈ q.carried last l := by
  induction l generalizing last with
  | nil => cases ha
  | cons b rest ih =>
    simp only [carried]
    rcases mem_cons.mp ha with rfl | ha
    · simp only [starts, Bool.and_eq_true, decide_eq_true_eq] at hs
      simp only [hs.1.1, hs.1.2, Bool.and_self, if_true, hs.2]
      split <;> exact mem_cons_self
    · split
      · split
        · exact mem_cons_of_mem _ (ih ha)
        · split
          · exact mem_cons_of_mem _ (ih ha)
          · exact ih ha
      · exact ih ha

theorem Sequence.groups_ne_nil (q : Sequence ν) (ha : a ∈ l) (hs : q.starts a = true) :
    q.groups 0 l ≠ [] := by
  have hmem : a ∈ q.carried none l := q.mem_carried ha hs
  rw [(q.carried_eq l).1] at hmem
  rintro h
  rw [h] at hmem
  cases hmem

/-- A vector given the events `es`, its event octets from `base` on: whole ones stored, the rest
pending. -/
def VectorState.after (stores : Stores) (base : Nat) (es : List AttributeEvent)
    (declared : List Nat) : VectorState where
  stores := put stores base (pack3 ((es.take (es.length / 3 * 3)).map code))
  vectidx := base + es.length / 3
  vectevt := es.drop (es.length / 3 * 3)
  listenDeclare := declared
  numvalues := es.length

theorem flush_after : (VectorState.after s b es ds).flush =
    { stores := put s b (pack3 (es.map code))
      vectidx := b + (es.length + 2) / 3
      vectevt := []
      listenDeclare := ds
      numvalues := es.length } := by
  have hlen : (pack3 ((es.take (es.length / 3 * 3)).map code)).length
      = es.length / 3 := by
    simp only [length_pack3, length_map, length_take]
    omega
  have hsplit : pack3 (es.map code) =
      pack3 ((es.take (es.length / 3 * 3)).map code) ++
        pack3 ((es.drop (es.length / 3 * 3)).map code) := by
    rw [← pack3_append, ← map_append, take_append_drop]
    simp only [length_map, length_take]
    omega
  simp only [VectorState.flush, VectorState.after, VectorState.mk.injEq, and_true]
  refine ⟨?_, ?_⟩
  · rw [hsplit, put_append, hlen]
  · simp only [length_pack3, length_map, length_drop]
    omega

theorem after_whole (h : es.length / 3 * 3 = es.length) : VectorState.after s b es ds =
    { stores := put s b (pack3 (es.map code))
      vectidx := b + es.length / 3
      vectevt := []
      listenDeclare := ds
      numvalues := es.length } := by
  simp [VectorState.after, h]

theorem first_eq_after : (⟨s, b, [e], ds, 1⟩ : VectorState) = .after s b [e] ds := by
  simp [VectorState.after, pack3, put]

theorem push_after : (VectorState.after s b es ds).push e d =
    VectorState.after s b (es ++ [e]) (ds ++ d) := by
  have hlen : (es ++ [e]).length = es.length + 1 := by simp
  by_cases h : es.length % 3 = 2
  · -- the third pending event completes an octet
    have hwhole : (pack3 ((es.take (es.length / 3 * 3)).map code)).length
        = es.length / 3 := by
      simp only [length_pack3, length_map, length_take]
      omega
    have hsplit : pack3 ((es ++ [e]).map code) =
        pack3 ((es.take (es.length / 3 * 3)).map code) ++
          pack3 ((es.drop (es.length / 3 * 3) ++ [e]).map code) := by
      rw [← pack3_append, ← map_append, ← append_assoc, take_append_drop]
      simp only [length_map, length_take]
      omega
    rw [show VectorState.after s b (es ++ [e]) (ds ++ d) = _ from after_whole (by omega),
      hlen, hsplit, put_append, hwhole]
    simp only [VectorState.push, VectorState.after, length_append, length_drop, length_singleton]
    rw [if_pos (by omega)]
    simp only [VectorState.flush, VectorState.mk.injEq, true_and, and_true]
    simp only [length_pack3, length_map, length_append, length_drop, length_singleton]
    omega
  · have hn : (es ++ [e]).length / 3 = es.length / 3 := by omega
    simp only [VectorState.push, VectorState.after, length_append, length_drop, length_singleton]
    rw [if_neg (by omega)]
    rw [hlen] at hn
    simp only [hn, VectorState.mk.injEq, and_true, true_and]
    rw [take_append_of_le_length (by omega), drop_append_of_le_length (by omega)]
    exact ⟨rfl, rfl⟩

theorem lookAhead_take {q : Sequence ν} :
    lookAhead q eof margin event declares v c rest =
      lookAhead q eof margin event declares v c (rest.take (q.run c rest)) := by
  induction rest generalizing v c with
  | nil => simp
  | cons a rest ih =>
    by_cases hs : (q.selects a.value && a.applicant.tx) = true
    · by_cases hc : q.continues (q.next c) a.value = true
      · have hrun : q.run c (a :: rest) = q.run (q.next c) rest + 1 := by
          simp [Sequence.run, hs, hc, Bool.and_self]
        rw [hrun, take_succ_cons]
        simp only [lookAhead, hs, hc, Bool.not_true, Bool.false_eq_true, if_false]
        cases event a with
        | none => rfl
        | some e =>
          dsimp only
          split
          · rfl
          · exact ih
      · have hrun : q.run c (a :: rest) = 0 := by simp [Sequence.run, hc]
        simp [hrun, lookAhead, hc]
    · have hrun : q.run c (a :: rest) = 0 := by simp [Sequence.run, hs]
      simp [hrun, lookAhead, hs]

theorem lookAhead_after_cons {q : Sequence ν} (hs : q.selects a.value = true)
    (ht : a.applicant.tx = true) (hc : q.continues (q.next c) a.value = true) :
    lookAhead q eof margin event declares (.after s b es ds) c (a :: rest) =
      match event a with
      | none => .oops (VectorState.after s b es ds).stores es.length
      | some e =>
        if eof < b + (es.length + 1) / 3 + margin then
          .oops (VectorState.after s b (es ++ [e]) ds).stores es.length
        else lookAhead q eof margin event declares
          (.after s b (es ++ [e]) (ds ++ declares a.value)) (q.next c) rest := by
  simp only [lookAhead, hs, ht, hc, Bool.and_self, Bool.not_true, Bool.false_eq_true, if_false]
  cases event a with
  | none => rfl
  | some e =>
    simp only [push_after]
    have hidx : (VectorState.after s b (es ++ [e]) (ds ++ declares a.value)).vectidx =
        b + (es.length + 1) / 3 := by simp [VectorState.after]
    have hnum : (VectorState.after s b (es ++ [e]) (ds ++ declares a.value)).numvalues - 1 =
        es.length := by simp [VectorState.after]
    rw [hidx, hnum]
    rfl

theorem lookAhead_after_ok {q : Sequence ν} (hrun : q.run c rest = rest.length) :
    lookAhead q eof margin event declares (.after s b es ds) c rest = .ok v ↔
      (∀ a ∈ rest, (event a).isSome) ∧
      (rest = [] ∨ b + (es.length + rest.length) / 3 + margin ≤ eof) ∧
      v = .after s b (es ++ rest.filterMap event)
        (ds ++ rest.flatMap fun a => declares a.value) := by
  induction rest generalizing c es ds with
  | nil => simpa [lookAhead] using eq_comm
  | cons a rest ih =>
    obtain ⟨⟨hs, ht, hc⟩, hr⟩ := q.run_cons_eq hrun
    rw [lookAhead_after_cons hs ht hc]
    cases he : event a with
    | none => simp [he]
    | some e =>
      by_cases hroom : eof < b + (es.length + 1) / 3 + margin
      · -- a failed check fails at every later attribute too
        simp only [if_pos hroom, reduceCtorEq, length_cons, cons_ne_nil, false_or,
          false_iff, not_and]
        intro _ hlate
        omega
      · simp only [if_neg hroom, ih hr, mem_cons, forall_eq_or_imp, he, Option.isSome_some,
          true_and, length_append, length_cons, length_nil, cons_ne_nil,
          false_or, filterMap_cons_some he, append_assoc, flatMap_cons, singleton_append]
        refine and_congr_right fun _ => and_congr_left fun _ => ?_
        constructor
        · rintro (rfl | h)
          · simpa using hroom
          · omega
        · intro h
          exact .inr (by omega)

theorem emitSubstates_ok : emitSubstates eof s i ds = .ok r ↔
    (4 ≤ ds.length → i + ds.length / 4 + 3 ≤ eof) ∧
      r = (put s i (pack4 ds), i + (ds.length + 3) / 4) := by
  induction ds using pack4.induct generalizing s i with
  | case1 | case2 | case3 | case4 => simp [emitSubstates, pack4, eq_comm]
  | case5 w x y z rest ih =>
    simp only [emitSubstates, length_cons]
    by_cases h2 : eof < i + 2
    · simp only [if_pos h2, reduceCtorEq, false_iff, not_and]
      intro h
      omega
    · by_cases h3 : eof < i + 1 + 3
      · simp only [if_neg h2, if_pos h3, reduceCtorEq, false_iff, not_and]
        intro h
        omega
      · simp only [if_neg h2, if_neg h3, ih, pack4, put]
        rw [show i + 1 + (rest.length + 3) / 4 = i + (rest.length + 1 + 1 + 1 + 1 + 3) / 4 by omega]
        refine and_congr_left fun _ => ?_
        constructor <;> intro h <;> omega

def Group.events (g : Group ν) : List AttributeEvent := g.members.filterMap Attribute.event

def Group.Valid (g : Group ν) : Prop := ∀ a ∈ g.members, a.event.isSome

instance (g : Group ν) : Decidable g.Valid := inferInstanceAs (Decidable (∀ _ ∈ _, _))

theorem length_filterMap {l : List α} {f : α → Option β} (h : ∀ a ∈ l, (f a).isSome) :
    (l.filterMap f).length = l.length := by
  induction l with
  | nil => rfl
  | cons a l ih =>
    simp only [mem_cons, forall_eq_or_imp] at h
    obtain ⟨b, hb⟩ := Option.isSome_iff_exists.mp h.1
    simp [filterMap_cons_some hb, ih h.2]

theorem Group.Valid.length_events {g : Group ν} (h : g.Valid) :
    g.events.length = g.members.length :=
  length_filterMap h

def Emitter.vector (E : Emitter ν) (lva : Bool) (g : Group ν) : VectorAttribute where
  leaveAll := lva
  firstValue := E.firstValue g.head.value
  events := g.events
  substates := g.members.flatMap fun a => E.declares a.value

def Emitter.span (E : Emitter ν) (n : Nat) : Nat :=
  2 + E.attributeLength + (n + 2) / 3 + if E.fourPacked then (n + 3) / 4 else 0

def Emitter.Room (E : Emitter ν) (eof vectorptr n : Nat) : Prop :=
  vectorptr + E.span n + 2 ≤ eof ∧
    (E.fourPacked = true → 4 ∣ n → vectorptr + E.span n + 3 ≤ eof)

instance (E : Emitter ν) : Decidable (E.Room eof p n) := inferInstanceAs (Decidable (_ ∧ _))

def Emitter.written (E : Emitter ν) (lva : Bool) (stores : Stores) (vectorptr : Nat)
    (g : Group ν) : VectorState where
  stores := put (put stores (vectorptr + 2)
      (E.firstValue g.head.value ++ pack3 (g.events.map code) ++
        pack4 (g.members.flatMap fun a => E.declares a.value)))
    vectorptr (be16 (vectorHeader lva g.members.length))
  vectidx := vectorptr + E.span g.members.length
  vectevt := []
  listenDeclare := g.members.flatMap fun a => E.declares a.value
  numvalues := g.members.length

theorem Emitter.length_declares (E : Emitter ν) (l : List (Attribute ν)) :
    (l.flatMap fun a => E.declares a.value).length = if E.fourPacked then l.length else 0 := by
  cases h : E.fourPacked <;> simp [Emitter.declares, h]

theorem Emitter.span_eq (E : Emitter ν) :
    p + 2 + E.attributeLength + (n + 2) / 3 + ((if E.fourPacked then n else 0) + 3) / 4 =
      p + E.span n := by
  simp only [Emitter.span]
  split <;> omega

theorem Emitter.room_iff (E : Emitter ν) (hn : 0 < n) : ((4 ≤ (if E.fourPacked then n else 0) →
        p + 2 + E.attributeLength + (n + 2) / 3 + (if E.fourPacked then n else 0) / 4 + 3 ≤ eof) ∧
      p + E.span n + 2 ≤ eof) ↔ E.Room eof p n := by
  simp only [Emitter.Room, Emitter.span]
  cases E.fourPacked with
  | false => simp
  | true =>
    simp only [if_true, true_imp_iff]
    omega

theorem finishVector_ok : finishVector eof lva vp (.after s b es ds) = .ok v ↔
    (4 ≤ ds.length → b + (es.length + 2) / 3 + ds.length / 4 + 3 ≤ eof) ∧
      b + (es.length + 2) / 3 + (ds.length + 3) / 4 + 2 ≤ eof ∧
      v = { stores := put (put (put s b (pack3 (es.map code)))
              (b + (es.length + 2) / 3) (pack4 ds)) vp (be16 (vectorHeader lva es.length))
            vectidx := b + (es.length + 2) / 3 + (ds.length + 3) / 4
            vectevt := [], listenDeclare := ds, numvalues := es.length } := by
  simp only [finishVector, flush_after]
  cases hs : emitSubstates eof (put s b (pack3 (es.map code)))
      (b + (es.length + 2) / 3) ds with
  | error stores =>
    simp only [reduceCtorEq, false_iff, not_and]
    intro h
    cases hs.symm.trans (emitSubstates_ok.mpr ⟨h, rfl⟩)
  | ok r =>
    obtain ⟨h, rfl⟩ := emitSubstates_ok.mp hs
    by_cases hroom : eof < b + (es.length + 2) / 3 + (ds.length + 3) / 4 + 2
    · simp only [if_pos hroom, reduceCtorEq, false_iff, not_and]
      intro _ hle
      omega
    · simp only [if_neg hroom, Flow.ok.injEq]
      constructor
      · rintro rfl
        exact ⟨h, by omega, rfl⟩
      · rintro ⟨-, -, rfl⟩
        rfl

theorem emitVector_ok (E : Emitter ν) (hrun : E.IsRun g) :
    emitVector E eof lva s vp g.head g.joined = .ok v ↔
      g.Valid ∧ E.Room eof vp g.members.length ∧ v = E.written lva s vp g := by
  cases he : g.head.event with
  | none =>
    have hv : ¬ g.Valid := fun h => by simpa [he] using h g.head mem_cons_self
    simp [emitVector, he, hv]
  | some e =>
    have hev : g.events = [e] ++ g.joined.filterMap Attribute.event := by
      simp [Group.events, Group.members, filterMap_cons_some he]
    have hdecl : (g.members.flatMap fun a => E.declares a.value) =
        E.declares g.head.value ++ g.joined.flatMap fun a => E.declares a.value := rfl
    have hvalid : g.Valid ↔ ∀ a ∈ g.joined, a.event.isSome := by
      simp [Group.Valid, Group.members, he]
    have hk : g.members.length = g.joined.length + 1 := rfl
    generalize hf : put s (vp + 2) (E.firstValue g.head.value) = f
    have hlook : ∀ v, lookAhead E.toSequence eof 2 Attribute.event E.declares
        (.after f (vp + 2 + E.attributeLength) [e] (E.declares g.head.value))
        g.head.value g.joined = .ok v ↔ _ := fun _ => lookAhead_after_ok hrun
    simp only [emitVector, he, hf, first_eq_after]
    cases hl : lookAhead E.toSequence eof 2 Attribute.event E.declares
        (.after f (vp + 2 + E.attributeLength) [e] (E.declares g.head.value))
        g.head.value g.joined with
    | oops stores joined =>
      -- with room for the whole vector no check of the look-ahead can have failed
      simp only [reduceCtorEq, false_iff, not_and]
      intro hv hroom
      have hfit := hroom.1
      simp only [Emitter.span] at hfit
      cases hl.symm.trans ((hlook _).mpr ⟨hvalid.mp hv, .inr (by simp; omega), rfl⟩)
    | ok v' =>
      obtain ⟨hj, hroom, rfl⟩ := (hlook v').mp hl
      have hv := hvalid.mpr hj
      have hlen := hv.length_events
      have hds := E.length_declares g.members
      rw [← hev, ← hdecl]
      have hput : put f (vp + 2 + E.attributeLength) (pack3 (g.events.map code)) =
          put s (vp + 2)
            (E.firstValue g.head.value ++ pack3 (g.events.map code)) := by
        rw [put_append, E.length_firstValue, hf]
      have hput' : put (put f (vp + 2 + E.attributeLength) (pack3 (g.events.map code)))
            (vp + 2 + E.attributeLength + (g.members.length + 2) / 3)
            (pack4 (g.members.flatMap fun a => E.declares a.value)) =
          put s (vp + 2) (E.firstValue g.head.value ++ pack3 (g.events.map code) ++
            pack4 (g.members.flatMap fun a => E.declares a.value)) := by
        symm
        rw [put_append, hput, length_append, E.length_firstValue, length_pack3,
          length_map, hlen, add_assoc (vp + 2)]
      rw [finishVector_ok, hlen, hds, hput', E.span_eq, ← and_assoc, E.room_iff (by omega)]
      simp only [hv, true_and, Emitter.written]

structure Writer.Follows (w : Writer ν) (q : Sequence ν) : Prop where
  selects : w.selects = q.selects
  take : ∀ lva s vp a rest,
    w.write lva s vp a rest = w.write lva s vp a (rest.take (q.run a.value rest))
  numvalues : ∀ lva s vp a rest v,
    w.write lva s vp a rest = .ok v → v.numvalues = q.run a.value rest + 1

theorem emitVector_take (E : Emitter ν) : emitVector E eof lva s vp a rest =
    emitVector E eof lva s vp a (rest.take (E.run a.value rest)) := by
  simp only [emitVector]
  cases a.event with
  | none => rfl
  | some e => simp only [← lookAhead_take]

theorem Emitter.writer_follows (E : Emitter ν) : (E.writer eof).Follows E.toSequence where
  selects := rfl
  take _ _ _ _ _ := emitVector_take E
  numvalues lva s vp a rest v h := by
    have h' : emitVector E eof lva s vp a (rest.take (E.run a.value rest)) = .ok v := by
      rw [← emitVector_take]; exact h
    obtain ⟨-, -, rfl⟩ := (emitVector_ok E (E.isRun_take a rest)).mp h'
    have : E.run a.value rest ≤ rest.length := E.run_le
    simp only [Emitter.written, Group.members, length_cons, length_take]
    omega

def Cursor.behind (c : Cursor) (w : Writer ν) (v : VectorState) : Cursor where
  stores := v.stores
  msgPtr := v.vectidx
  vectorptr := v.vectidx
  found := true
  lva := c.lva && w.keepsLva

def emitGroups (w : Writer ν) (eof : Nat) : Cursor → List (Group ν) → Except Stores Cursor
  | c, [] => .ok c
  | c, g :: gs =>
    if eof ≤ c.msgPtr + w.vectorSize + 2 then .ok c
    else match w.write c.lva c.stores c.vectorptr g.head g.joined with
      | .oops stores _ => .error stores
      | .ok v => emitGroups w eof (c.behind w v) gs

theorem emitGroups_full (h : eof ≤ c.msgPtr + w.vectorSize + 2) :
    emitGroups w eof c gs = .ok c := by
  cases gs with
  | nil => rfl
  | cons g gs => simp [emitGroups, h]

theorem emitGroups_oops (hroom : ¬ eof ≤ c.msgPtr + w.vectorSize + 2)
    (hv : w.write c.lva c.stores c.vectorptr g.head g.joined = .oops stores joined) :
    emitGroups w eof c (g :: gs) = .error stores := by
  rw [emitGroups, if_neg hroom, hv]

theorem emitGroups_ok (hroom : ¬ eof ≤ c.msgPtr + w.vectorSize + 2)
    (hv : w.write c.lva c.stores c.vectorptr g.head g.joined = .ok v) :
    emitGroups w eof c (g :: gs) = emitGroups w eof (c.behind w v) gs := by
  rw [emitGroups, if_neg hroom, hv]

theorem emitLoop_fst {w : Writer ν} {q : Sequence ν} (hw : w.Follows q) :
    (emitLoop w eof c k l).1 = emitGroups w eof c (q.groups k l) := by
  induction l generalizing c k with
  | nil => simp [emitLoop, Sequence.groups, emitGroups]
  | cons a rest ih =>
    by_cases hfull : eof ≤ c.msgPtr + w.vectorSize + 2
    · rw [emitGroups_full hfull]
      simp [emitLoop, hfull]
    · cases k with
      | succ k =>
        simp only [emitLoop, if_neg hfull, Sequence.groups]
        exact ih
      | zero =>
        simp only [emitLoop, if_neg hfull, Sequence.groups, Sequence.starts, hw.selects]
        by_cases hs : (q.selects a.value && a.applicant.tx) = true
        · by_cases he : a.applicant.encode = .optional
          · simp only [hs, he, Bool.not_true, Bool.false_eq_true, if_false, if_true, reduceCtorEq,
              decide_false, Bool.and_false]
            exact ih
          · have hy : a.applicant.encode = .yes := by
              cases h : a.applicant.encode <;> simp_all
            simp only [hs, hy, Bool.not_true, Bool.false_eq_true, if_false, if_true, reduceCtorEq,
              decide_true, Bool.and_self, emitGroups, if_neg hfull]
            rw [← hw.take]
            cases hv : w.write c.lva c.stores c.vectorptr a rest with
            | oops stores joined => rfl
            | ok v =>
              have hn := hw.numvalues _ _ _ _ _ _ hv
              simp only [hn, Nat.add_sub_cancel]
              exact ih
        · simp only [hs, Bool.not_false, if_true, Bool.false_and, Bool.false_eq_true, if_false]
          exact ih

/-- The groups the loop writes, by arithmetic alone; `none` if it ends in `oops`. -/
def Emitter.layout (E : Emitter ν) (eof : Nat) :
    (msgPtr vectorptr : Nat) → List (Group ν) → Option (List (Group ν))
  | _, _, [] => some []
  | m, p, g :: gs =>
    if eof ≤ m + E.vectorSize + 2 then some []
    else if g.Valid ∧ E.Room eof p g.members.length then
      (E.layout eof (p + E.span g.members.length) (p + E.span g.members.length) gs).map (g :: ·)
    else none

def Emitter.wrote (E : Emitter ν) : Cursor → List (Group ν) → Cursor
  | c, [] => c
  | c, g :: gs =>
    let v := E.written c.lva c.stores c.vectorptr g
    E.wrote { stores := v.stores, msgPtr := v.vectidx, vectorptr := v.vectidx, found := true
              lva := false } gs

theorem emitGroups_eq (E : Emitter ν) (hrun : ∀ g ∈ gs, E.IsRun g) :
    (E.layout eof c.msgPtr c.vectorptr gs = none ∧
      ∃ stores, emitGroups (E.writer eof) eof c gs = .error stores) ∨
    (∃ ws, E.layout eof c.msgPtr c.vectorptr gs = some ws ∧
      emitGroups (E.writer eof) eof c gs = .ok (E.wrote c ws)) := by
  induction gs generalizing c with
  | nil => exact .inr ⟨[], rfl, rfl⟩
  | cons g gs ih =>
    simp only [mem_cons, forall_eq_or_imp] at hrun
    by_cases hfull : eof ≤ c.msgPtr + E.vectorSize + 2
    · refine .inr ⟨[], by simp [Emitter.layout, hfull], ?_⟩
      rw [emitGroups_full hfull]
      rfl
    · have hfull' : ¬ eof ≤ c.msgPtr + (E.writer eof).vectorSize + 2 := hfull
      simp only [Emitter.layout, emitGroups, if_neg hfull, if_neg hfull']
      cases hv : (E.writer eof).write c.lva c.stores c.vectorptr g.head g.joined with
      | oops stores joined =>
        have hno : ¬ (g.Valid ∧ E.Room eof c.vectorptr g.members.length) := by
          rintro ⟨hg, hroom⟩
          cases hv.symm.trans ((emitVector_ok E hrun.1).mpr ⟨hg, hroom, rfl⟩)
        exact .inl ⟨by simp [hno], stores, rfl⟩
      | ok v =>
        obtain ⟨hg, hroom, rfl⟩ := (emitVector_ok E hrun.1).mp hv
        simp only [hg, hroom, and_self, if_true]
        -- the cursor behind the vector is where the layout goes on
        have hc : c.behind (E.writer eof) (E.written c.lva c.stores c.vectorptr g) =
            { stores := (E.written c.lva c.stores c.vectorptr g).stores
              msgPtr := c.vectorptr + E.span g.members.length
              vectorptr := c.vectorptr + E.span g.members.length
              found := true, lva := false } := by
          simp [Cursor.behind, Emitter.writer, Emitter.written]
        rw [hc]
        rcases @ih { stores := (E.written c.lva c.stores c.vectorptr g).stores
                     msgPtr := c.vectorptr + E.span g.members.length
                     vectorptr := c.vectorptr + E.span g.members.length
                     found := true, lva := false } hrun.2 with ⟨hn, stores, he⟩ | ⟨ws, hw, he⟩
        · exact .inl ⟨by simp [hn], stores, he⟩
        · exact .inr ⟨g :: ws, by simp [hw], he⟩

/-- The writer turns the group into its vector wherever `slack` octets are left behind it. -/
def Writer.Writes (w : Writer ν) (E : Emitter ν) (eof slack : Nat) (g : Group ν) : Prop :=
  ∀ lva s vp, vp + E.span g.members.length + slack ≤ eof →
    w.write lva s vp g.head g.joined = .ok (E.written lva s vp g)

/-- A loop with room for all groups writes them, the flag right if the writer resets it, or if there
is one vector or no flag. -/
theorem emitGroups_fits {w : Writer ν} (E : Emitter ν) (hw : ∀ g ∈ gs, w.Writes E eof slack g)
    (hlva : w.keepsLva = false ∨ c.lva = false ∨ gs.length ≤ 1) (hm : c.msgPtr ≤ c.vectorptr)
    (hslack : w.vectorSize + 2 < E.span 1 + slack)
    (hfit : c.vectorptr + (gs.map fun g => E.span g.members.length).sum + slack ≤ eof) :
    ∃ l, emitGroups w eof c gs = .ok { E.wrote c gs with lva := l } := by
  induction gs generalizing c with
  | nil => exact ⟨c.lva, rfl⟩
  | cons g gs ih =>
    simp only [mem_cons, forall_eq_or_imp] at hw
    simp only [map_cons, sum_cons] at hfit
    have hspan : E.span 1 ≤ E.span g.members.length := by
      simp only [Emitter.span, Group.members, length_cons]
      split <;> omega
    have hfull : ¬ eof ≤ c.msgPtr + w.vectorSize + 2 := by omega
    have hwrite := hw.1 c.lva c.stores c.vectorptr (by omega)
    simp only [emitGroups, if_neg hfull, hwrite]
    have hbehind : (c.behind w (E.written c.lva c.stores c.vectorptr g)).vectorptr =
        c.vectorptr + E.span g.members.length := rfl
    obtain ⟨l, hl⟩ := ih (c := c.behind w (E.written c.lva c.stores c.vectorptr g)) hw.2
      (by
        rcases hlva with h | h | h
        · exact .inl h
        · exact .inr (.inl (by simp [Cursor.behind, h]))
        · exact .inr (.inr (by simp only [length_cons] at h; omega)))
      (le_refl _) (by rw [hbehind]; omega)
    refine ⟨l, hl.trans ?_⟩
    cases gs with
    | nil => rfl
    | cons g' gs =>
      have hflag : (c.lva && w.keepsLva) = false := by
        rcases hlva with h | h | h
        · simp [h]
        · simp [h]
        · simp only [length_cons] at h
          omega
      simp only [Emitter.wrote, Cursor.behind, hflag]

def Emitter.vectors (E : Emitter ν) : Bool → List (Group ν) → List VectorAttribute
  | _, [] => []
  | lva, g :: gs => E.vector lva g :: E.vectors false gs

section

variable (E : Emitter ν)
include E

theorem Emitter.length_vector (hg : g.Valid) :
    (E.vector lva g).octets.length = E.span g.members.length := by
  simp only [length_vector_octets, Emitter.vector, E.length_firstValue, hg.length_events,
    E.length_declares, Emitter.span]
  split <;> omega

theorem Emitter.length_vectors (hgs : ∀ g ∈ gs, g.Valid) :
    (vectorOctets (E.vectors lva gs)).length = (gs.map fun g => E.span g.members.length).sum := by
  induction gs generalizing lva with
  | nil => rfl
  | cons g gs ih =>
    simp only [mem_cons, forall_eq_or_imp] at hgs
    simp only [vectors, vectorOctets_cons, length_append, E.length_vector hgs.1, ih hgs.2,
      map_cons, sum_cons]

theorem Emitter.stands_written (hg : g.Valid) :
    Stands (look (E.written lva s p g).stores) p (E.vector lva g).octets := by
  simp only [Emitter.written, VectorAttribute.octets, Emitter.vector, hg.length_events,
    append_assoc]
  rw [stands_append]
  refine ⟨stands_put, Stands.put stands_put ?_⟩
  exact .inl (by simp)

theorem Emitter.look_written (hg : g.Valid) (hi : i < p ∨ p + E.span g.members.length ≤ i) :
    look (E.written lva s p g).stores i = look s i := by
  have hlen : (E.vector lva g).octets.length = _ := E.length_vector hg
  simp only [VectorAttribute.octets, Emitter.vector, append_assoc] at hlen
  rw [length_append, length_be16] at hlen
  simp only [Emitter.written, append_assoc]
  rcases hi with hi | hi
  · rw [look_put_of_lt hi, look_put_of_lt (by omega)]
  · rw [look_put_of_le (by simp only [length_be16]; omega), look_put_of_le (by omega)]

theorem Emitter.wrote_stands (hws : ∀ g ∈ ws, g.Valid) :
    (E.wrote c ws).vectorptr = c.vectorptr + (vectorOctets (E.vectors c.lva ws)).length ∧
    Stands (look (E.wrote c ws).stores) c.vectorptr (vectorOctets (E.vectors c.lva ws)) ∧
    ∀ i, i < c.vectorptr ∨ (E.wrote c ws).vectorptr ≤ i →
      look (E.wrote c ws).stores i = look c.stores i := by
  induction ws generalizing c with
  | nil => simp [Emitter.wrote, Emitter.vectors]
  | cons g gs ih =>
    simp only [mem_cons, forall_eq_or_imp] at hws
    simp only [Emitter.wrote, Emitter.vectors, vectorOctets_cons, length_append,
      E.length_vector hws.1, stands_append]
    obtain ⟨hp, hst, hfr⟩ := @ih { stores := (E.written c.lva c.stores c.vectorptr g).stores
                                   msgPtr := (E.written c.lva c.stores c.vectorptr g).vectidx
                                   vectorptr := (E.written c.lva c.stores c.vectorptr g).vectidx
                                   found := true, lva := false } hws.2
    have hidx : (E.written c.lva c.stores c.vectorptr g).vectidx =
        c.vectorptr + E.span g.members.length := rfl
    simp only [hidx] at hp hst hfr ⊢
    refine ⟨by omega, ⟨?_, hst⟩, ?_⟩
    · refine (E.stands_written hws.1).congr fun i hi hn => hfr i (.inl ?_)
      rw [E.length_vector hws.1] at hn
      exact hn
    · intro i hi
      rw [hfr i (by omega), E.look_written hws.1 (by omega)]

end

/-! ## What transmission does to the attribute list -/

open List

variable {ν : Type}

def TxCleared (a b : Attribute ν) : Prop := b = a ∨ b = a.clearTx

def Attribute.setTx (tx : Bool) (a : Attribute ν) : Attribute ν :=
  { a with applicant := { a.applicant with tx := tx } }

def TxChanged (a b : Attribute ν) : Prop := ∃ tx, b = a.setTx tx

theorem TxCleared.changed (h : TxCleared a b) : TxChanged a b := by
  rcases h with rfl | rfl
  · exact ⟨b.applicant.tx, rfl⟩
  · exact ⟨false, rfl⟩

theorem TxChanged.trans (h : TxChanged a b) (h' : TxChanged b c) : TxChanged a c := by
  obtain ⟨_, rfl⟩ := h
  obtain ⟨tx, rfl⟩ := h'
  exact ⟨tx, rfl⟩

theorem TxCleared.refl (a : Attribute ν) : TxCleared a a := .inl rfl

theorem forall₂_txCleared_refl (l : List (Attribute ν)) : List.Forall₂ TxCleared l l :=
  forall₂_same.mpr fun a _ => .refl a

theorem clearTxs_txCleared (n : Nat) (l : List (Attribute ν)) :
    List.Forall₂ TxCleared l (clearTxs n l) := by
  induction l generalizing n with
  | nil => cases n <;> exact .nil
  | cons a l ih =>
    cases n with
    | zero => exact forall₂_txCleared_refl _
    | succ n => exact .cons (.inr rfl) (ih n)

theorem emitLoop_txCleared {w : Writer ν} : List.Forall₂ TxCleared l (emitLoop w eof c k l).2 := by
  fun_induction emitLoop w eof c k l
  case case1 => exact .nil
  case case2 => exact clearTxs_txCleared _ _
  case case4 hrest ih =>
    rw [hrest] at ih
    exact .cons (.refl _) ih
  case case6 => exact .cons (.inr rfl) (clearTxs_txCleared _ _)
  case case3 hrest ih | case5 hrest ih | case7 hrest ih =>
    rw [hrest] at ih
    exact .cons (.inr rfl) ih

theorem starts_txCleared (q : Sequence ν) (h : List.Forall₂ TxCleared l l')
    (hl : ∀ a ∈ l, q.starts a = false) : ∀ a ∈ l', q.starts a = false := by
  induction h with
  | nil => simp
  | cons hab _ ih =>
    simp only [mem_cons, forall_eq_or_imp] at hl ⊢
    refine ⟨?_, ih hl.2⟩
    rcases hab with rfl | rfl
    · exact hl.1
    · simp [Sequence.starts, Attribute.clearTx]

theorem emitWith_attribs (E : Emitter ν) (w : Writer ν) :
    (emitWith E w eof emptyLeaveAll lva s p l).attribs = if eof < p + E.vectorSize then l
      else (emitLoop w eof
        { stores := put s p [E.attributeType, UInt8.ofNat E.attributeLength], msgPtr := p
          vectorptr := p + E.dataOffset, found := false, lva := lva } 0 l).2 := by
  simp only [emitWith]
  split
  · rfl
  · split
    case h_1 h => rw [h]
    case h_2 h => rw [h]

theorem emitWith_txCleared (E : Emitter ν) (w : Writer ν) :
    List.Forall₂ TxCleared l (emitWith E w eof emptyLeaveAll lva s p l).attribs := by
  rw [emitWith_attribs]
  split
  · exact forall₂_txCleared_refl l
  · exact emitLoop_txCleared

variable {selects : ν → Bool} {l : List (Attribute ν)}

/-- The attribute is changed only if it is selected, and never in its value. -/
def Touched (selects : ν → Bool) (a b : Attribute ν) : Prop :=
  b.value = a.value ∧ (selects a.value = false → b = a)

theorem Touched.refl (selects : ν → Bool) (a : Attribute ν) : Touched selects a a :=
  ⟨rfl, fun _ => rfl⟩

theorem Touched.clearTx (h : selects a.value = true) : Touched selects a a.clearTx :=
  ⟨rfl, fun hn => by rw [h] at hn; cases hn⟩

theorem forall₂_touched_refl (selects : ν → Bool) (l : List (Attribute ν)) :
    List.Forall₂ (Touched selects) l l :=
  forall₂_same.mpr fun a _ => .refl selects a

theorem clearTxs_touched (h : ∀ a ∈ l.take n, selects a.value = true) :
    List.Forall₂ (Touched selects) l (clearTxs n l) := by
  induction l generalizing n with
  | nil => cases n <;> exact .nil
  | cons a l ih =>
    cases n with
    | zero => exact forall₂_touched_refl selects _
    | succ n =>
      simp only [take_succ_cons, mem_cons, forall_eq_or_imp] at h
      exact .cons (.clearTx h.1) (ih h.2)

theorem Sequence.run_selects (q : Sequence ν) : ∀ a ∈ l.take (q.run c l), q.selects a.value = true := by
  induction l generalizing c with
  | nil => simp
  | cons a l ih =>
    simp only [run]
    split
    case isTrue h =>
      simp only [Bool.and_eq_true] at h
      simp only [take_succ_cons, mem_cons, forall_eq_or_imp]
      exact ⟨h.1.1, ih⟩
    case isFalse => simp

theorem emitLoop_touched {w : Writer ν} {q : Sequence ν} (hw : w.Follows q)
    (hk : ∀ a ∈ l.take k, q.selects a.value = true) (h : (emitLoop w eof c k l).1 = .ok c') :
    List.Forall₂ (Touched q.selects) l (emitLoop w eof c k l).2 := by
  induction l generalizing c k with
  | nil => exact .nil
  | cons a l ih =>
    by_cases hfull : eof ≤ c.msgPtr + w.vectorSize + 2
    · simp only [emitLoop, if_pos hfull]
      exact clearTxs_touched hk
    · cases k with
      | succ k =>
        simp only [take_succ_cons, mem_cons, forall_eq_or_imp] at hk
        simp only [emitLoop, if_neg hfull] at h ⊢
        exact .cons (.clearTx hk.1) (ih hk.2 h)
      | zero =>
        simp only [emitLoop, if_neg hfull, hw.selects] at h ⊢
        by_cases hs : (q.selects a.value && a.applicant.tx) = true
        · have hsel : q.selects a.value = true := (Bool.and_eq_true_iff.mp hs).1
          simp only [hs, Bool.not_true, Bool.false_eq_true, if_false] at h ⊢
          split at h
          · rename_i he
            rw [if_pos he]
            exact .cons (.clearTx hsel) (ih (by simp) h)
          · rename_i he
            rw [if_neg he]
            cases hv : w.write c.lva c.stores c.vectorptr a l with
            | oops stores joined => rw [hv] at h; cases h
            | ok v =>
              rw [hv] at h
              have hn := hw.numvalues _ _ _ _ _ _ hv
              simp only [hn, Nat.add_sub_cancel] at h ⊢
              exact .cons (.clearTx hsel) (ih q.run_selects h)
        · simp only [hs, Bool.not_false, if_true] at h ⊢
          exact .cons (.refl _ a) (ih (by simp) h)

theorem emitVectors_touched (E : Emitter ν)
    (h : (emitVectors E eof emptyLeaveAll lva s p l).bytesUsed = some n) :
    List.Forall₂ (Touched E.selects) l (emitVectors E eof emptyLeaveAll lva s p l).attribs := by
  simp only [emitVectors] at h ⊢
  rw [emitWith_attribs]
  simp only [emitWith] at h
  split at h
  · cases h
  · rename_i hroom
    rw [if_neg hroom]
    split at h
    · cases h
    · rename_i hloop
      exact emitLoop_touched E.writer_follows (by simp) (congrArg Prod.fst hloop)

theorem Sequence.run_touched (q : Sequence ν) (h : List.Forall₂ (Touched selects) l l')
    (hd : ∀ v, q.selects v = true → selects v = false) :
    q.run c l' = q.run c l ∧ l'.take (q.run c l') = l.take (q.run c l) := by
  induction h generalizing c with
  | nil => exact ⟨rfl, rfl⟩
  | @cons a b l l' hab _ ih =>
    by_cases hs : q.selects a.value = true
    · obtain rfl := hab.2 (hd _ hs)
      obtain ⟨hrun, htake⟩ := ih (c := q.next c)
      simp only [run]
      split
      · rw [take_succ_cons, take_succ_cons, htake, hrun]
        exact ⟨rfl, rfl⟩
      · exact ⟨rfl, rfl⟩
    · simp [run, hab.1, hs]

theorem Sequence.groups_touched (q : Sequence ν) (h : List.Forall₂ (Touched selects) l l')
    (hd : ∀ v, q.selects v = true → selects v = false) : q.groups k l' = q.groups k l := by
  induction h generalizing k with
  | nil => rfl
  | @cons a b l l' hab hrest ih =>
    cases k with
    | succ k => exact ih
    | zero =>
      obtain ⟨hrun, htake⟩ := q.run_touched (c := a.value) hrest hd
      by_cases hs : q.selects a.value = true
      · obtain rfl := hab.2 (hd _ hs)
        simp only [groups]
        split
        · rw [htake, hrun, ih]
        · exact ih
      · simp only [groups, starts, hab.1, hs, Bool.false_and, Bool.false_eq_true, if_false]
        exact ih

end OpenAvb.Mrpd
