import OpenAvb.Mrpd.MsrpCodec

/-!
# Where the emitters store

An emitter compares its position with the end of the frame before a vector and behind
each octet of events, but counts from the start of the message, and not for the empty
LeaveAll vector, so that a message may run over the end of the frame.
-/

namespace OpenAvb.Mrpd

open List

variable {ν : Type}

/-- What has been stored of a vector is inside the frame, and so are the next `slack + 1`
octets. Only with slack there may be listener declarations to come. -/
structure VectorState.Inside (eof slack : Nat) (v : VectorState) : Prop where
  stores : Below eof v.stores
  room : v.vectidx + slack < eof
  pending : v.vectevt.length < 3
  declared : v.listenDeclare = [] ∨ slack = 1

def Flow.Inside (eof slack : Nat) : Flow VectorState → Prop
  | .ok v => v.Inside eof slack
  | .oops stores _ => Below eof stores

def Flow.stores : Flow VectorState → Stores
  | .ok v => v.stores
  | .oops stores _ => stores

variable {v : VectorState}

theorem VectorState.Inside.push (h : v.Inside eof slack) (e : AttributeEvent)
    (hd : ds = [] ∨ slack = 1) : Below eof (v.push e ds).stores ∧ (v.push e ds).vectevt.length < 3 ∧
      ((v.push e ds).listenDeclare = [] ∨ slack = 1) := by
  obtain ⟨hs, hroom, hpending, hdeclared⟩ := h
  have hdeclared' : v.listenDeclare ++ ds = [] ∨ slack = 1 := by
    obtain h | h := hdeclared
    · obtain rfl | h' := hd
      · exact .inl (by rw [h]; rfl)
      · exact .inr h'
    · exact .inr h
  unfold VectorState.push
  dsimp only
  split
  case isTrue hthree =>
    refine ⟨below_put.mpr ⟨fun _ => ?_, hs⟩, by simp [VectorState.flush], hdeclared'⟩
    simp only [length_pack3, length_map, length_append, length_singleton]
    omega
  case isFalse hfew => exact ⟨hs, Nat.lt_succ_of_le (Nat.not_lt.mp hfew), hdeclared'⟩

theorem lookAhead_inside {q : Sequence ν} (h : v.Inside eof slack)
    (hslack : slack ≤ 1) (hd : ∀ x, declares x = [] ∨ slack = 1) :
    (lookAhead q eof 2 event declares v c rest).Inside eof slack := by
  induction rest generalizing v c with
  | nil => exact h
  | cons a rest ih =>
    unfold lookAhead
    split
    · exact h
    split
    · exact h
    cases event a with
    | none => exact h.stores
    | some e =>
      obtain ⟨hs, hpending, hdeclared⟩ := h.push e (hd a.value)
      dsimp only
      split
      case isTrue => exact hs
      case isFalse hroom => exact ih ⟨hs, by omega, hpending, hdeclared⟩

def substatesStored : Except Stores (Stores × Nat) → Stores
  | .ok (stores, _) => stores
  | .error stores => stores

theorem emitSubstates_below (hs : Below eof s) (hi : ds ≠ [] → i < eof) :
    Below eof (substatesStored (emitSubstates eof s i ds)) := by
  induction ds using pack4.induct generalizing s i with
  | case1 => exact hs
  | case2 | case3 | case4 =>
    refine below_put.mpr ⟨fun _ => ?_, hs⟩
    have hlast := hi (cons_ne_nil _ _)
    simp only [length_pack4, length_cons, length_nil]
    omega
  | case5 w x y z rest ih =>
    unfold emitSubstates
    split
    · exact hs
    case isFalse hroom =>
      have hput : Below eof (put s i [fourPack w x y z]) :=
        below_put.mpr ⟨fun _ => by simp only [length_singleton]; omega, hs⟩
      split
      · exact hput
      case isFalse hnext => exact ih hput fun _ => by omega

theorem VectorState.Inside.finish (h : v.Inside eof slack) (hslack : slack ≤ 1)
    (hvp : vp + 2 ≤ eof) : Below eof (finishVector eof lva vp v).stores := by
  obtain ⟨hs, hroom, hpending, hdeclared⟩ := h
  have hlen : (pack3 (v.vectevt.map AttributeEvent.code)).length ≤ 1 := by
    simp only [length_pack3, length_map]
    omega
  have hflush : Below eof v.flush.stores := below_put.mpr ⟨fun _ => by omega, hs⟩
  have hidx : v.flush.listenDeclare ≠ [] → v.flush.vectidx < eof := by
    rintro hne
    obtain hnone | rfl := hdeclared
    · exact absurd hnone hne
    · show v.vectidx + _ < eof
      omega
  have hsub : Below eof (substatesStored
      (emitSubstates eof v.flush.stores v.flush.vectidx v.flush.listenDeclare)) :=
    emitSubstates_below hflush hidx
  unfold finishVector
  dsimp only
  cases hr : emitSubstates eof v.flush.stores v.flush.vectidx v.flush.listenDeclare with
  | error stores =>
    rw [hr] at hsub
    exact hsub
  | ok r =>
    rw [hr] at hsub
    dsimp only
    split
    · exact hsub
    · exact below_put.mpr ⟨fun _ => hvp, hsub⟩

section

variable (E : Emitter ν)

theorem emitVector_below (slack : Nat) (hs : Below eof s)
    (hroom : vp + 2 + E.attributeLength + slack < eof) (hslack : slack ≤ 1)
    (hfour : E.fourPacked = true → slack = 1) :
    Below eof (emitVector E eof lva s vp a rest).stores := by
  have hd : ∀ x, E.declares x = [] ∨ slack = 1 := by
    rintro x
    unfold Emitter.declares
    split
    case isTrue h => exact .inr (hfour h)
    case isFalse => exact .inl rfl
  have hfirst : Below eof (put s (vp + 2) (E.firstValue a.value)) :=
    below_put.mpr ⟨fun _ => by rw [E.length_firstValue]; omega, hs⟩
  unfold emitVector
  cases a.event with
  | none => exact hfirst
  | some e =>
    dsimp only
    generalize hv : (⟨_, _, [e], _, 1⟩ : VectorState) = v
    have hinside : v.Inside eof slack := by
      subst hv
      exact ⟨hfirst, hroom, (by decide : 1 < 3), hd a.value⟩
    have hlook : (lookAhead E.toSequence eof 2 Attribute.event E.declares v a.value rest).Inside
        eof slack := lookAhead_inside hinside hslack hd
    cases hr : lookAhead E.toSequence eof 2 Attribute.event E.declares v a.value rest with
    | oops stores joined =>
      rw [hr] at hlook
      exact hlook
    | ok v' =>
      rw [hr] at hlook
      exact VectorState.Inside.finish hlook hslack (by omega)

-- Stores are only added, so that what is stored too far stays.

theorem flush_mono (h : Below eof v.flush.stores) : Below eof v.stores :=
  (below_put.mp h).2

theorem push_mono (h : Below eof (v.push e ds).stores) : Below eof v.stores := by
  unfold VectorState.push at h
  dsimp only at h
  split at h
  · exact (below_put.mp h).2
  · exact h

theorem lookAhead_mono {q : Sequence ν}
    (h : Below eof (lookAhead q eof margin event declares v c rest).stores) : Below eof v.stores := by
  induction rest generalizing v c with
  | nil => exact h
  | cons a rest ih =>
    unfold lookAhead at h
    split at h
    · exact h
    split at h
    · exact h
    cases he : event a with
    | none =>
      rw [he] at h
      exact h
    | some e =>
      rw [he] at h
      dsimp only at h
      split at h
      · exact push_mono h
      · exact push_mono (ih h)

theorem emitSubstates_mono (h : Below eof (substatesStored (emitSubstates eof s i ds))) :
    Below eof s := by
  induction ds using pack4.induct generalizing s i with
  | case1 => exact h
  | case2 | case3 | case4 => exact (below_put.mp h).2
  | case5 w x y z rest ih =>
    unfold emitSubstates at h
    split at h
    · exact h
    split at h
    · exact (below_put.mp h).2
    · exact (below_put.mp (ih h)).2

theorem finishVector_mono (h : Below eof (finishVector eof lva vp v).stores) :
    Below eof v.flush.stores := by
  unfold finishVector at h
  dsimp only at h
  have hsub : Below eof (substatesStored
      (emitSubstates eof v.flush.stores v.flush.vectidx v.flush.listenDeclare)) := by
    cases hr : emitSubstates eof v.flush.stores v.flush.vectidx v.flush.listenDeclare with
    | error stores =>
      rw [hr] at h
      exact h
    | ok r =>
      rw [hr] at h
      dsimp only at h
      split at h
      · exact h
      · exact (below_put.mp h).2
  exact emitSubstates_mono hsub

theorem emitVector_mono (h : Below eof (emitVector E eof lva s vp a rest).stores) :
    Below eof (put s (vp + 2) (E.firstValue a.value)) := by
  unfold emitVector at h
  cases he : a.event with
  | none =>
    rw [he] at h
    exact h
  | some e =>
    rw [he] at h
    dsimp only at h
    generalize hv : (⟨_, _, [e], _, 1⟩ : VectorState) = v at h
    have hlook : Below eof
        (lookAhead E.toSequence eof 2 Attribute.event E.declares v a.value rest).stores := by
      cases hr : lookAhead E.toSequence eof 2 Attribute.event E.declares v a.value rest with
      | oops stores joined =>
        rw [hr] at h
        exact h
      | ok v' =>
        rw [hr] at h
        exact flush_mono (finishVector_mono h)
    subst hv
    exact lookAhead_mono hlook

/-- A FirstValue up to the end of the frame: the event octet behind it, stored if no attribute
joins, is too far. -/
theorem emitVector_edge (hs : Below eof s) (hlen : 0 < E.attributeLength)
    (hend : eof ≤ vp + 2 + E.attributeLength) :
    Below eof (emitVector E eof lva s vp a rest).stores ↔
      vp + 2 + E.attributeLength ≤ eof ∧ ¬ (a.event.isSome ∧ E.run a.value rest = 0) := by
  have hfirst : Below eof (put s (vp + 2) (E.firstValue a.value)) ↔
      vp + 2 + E.attributeLength ≤ eof := by
    rw [below_put, E.length_firstValue, and_iff_left hs]
    refine ⟨fun h => h ?_, fun h _ => h⟩
    rw [← length_pos_iff, E.length_firstValue]
    exact hlen
  unfold emitVector
  cases a.event with
  | none => simpa [Flow.stores] using hfirst
  | some e =>
    dsimp only
    generalize hv : (⟨_, _, [e], _, 1⟩ : VectorState) = v
    have hstores : Below eof v.stores ↔ vp + 2 + E.attributeLength ≤ eof := by
      subst hv
      exact hfirst
    cases hrun : E.run a.value rest with
    | zero =>
      rw [lookAhead_take, hrun]
      refine iff_of_false (fun h => ?_) (by simp)
      have hflush : Below eof v.flush.stores := finishVector_mono h
      subst hv
      have hfar : vp + 2 + E.attributeLength + 1 ≤ eof := (below_put.mp hflush).1 (by simp [pack3])
      omega
    | succ n =>
      obtain ⟨a', rest', rfl⟩ : ∃ a' rest', rest = a' :: rest' := by
        cases rest with
        | nil => cases hrun
        | cons a' rest' => exact ⟨a', rest', rfl⟩
      have hjoins : (E.selects a'.value && a'.applicant.tx &&
          E.continues (E.next a.value) a'.value) = true := by
        by_contra hno
        rw [Sequence.run, if_neg hno] at hrun
        cases hrun
      rw [Bool.and_eq_true] at hjoins
      -- the check behind the second event fails before an octet of events is complete
      have hlook : (lookAhead E.toSequence eof 2 Attribute.event E.declares v a.value
          (a' :: rest')) = .oops v.stores 1 := by
        subst hv
        unfold lookAhead
        simp only [hjoins.1, hjoins.2, Bool.not_true, Bool.false_eq_true, if_false]
        cases a'.event with
        | none => rfl
        | some e' =>
          simp only [VectorState.push, length_append, length_singleton]
          simp
          omega
      rw [hlook]
      simpa [Flow.stores] using hstores

structure Cursor.Behind (eof : Nat) (c : Cursor) : Prop where
  stores : Below eof c.stores
  ptr : c.msgPtr = c.vectorptr
  room : c.msgPtr + 2 ≤ eof
  found : c.found = true

def loopInside (eof : Nat) : Except Stores Cursor → Prop
  | .ok c => c.Behind eof
  | .error stores => Below eof stores

theorem Emitter.behind_write (hrun : E.IsRun g)
    (hv : emitVector E eof lva s vp g.head g.joined = .ok v) (hs : Below eof v.stores) :
    (Cursor.behind c (E.writer eof) v).Behind eof := by
  obtain ⟨-, hroom, rfl⟩ := (emitVector_ok E hrun).mp hv
  exact ⟨hs, rfl, hroom.1, rfl⟩

theorem emitGroups_behind (hlen : E.attributeLength < E.vectorSize)
    (hrun : ∀ g ∈ gs, E.IsRun g) (h : c.Behind eof) :
    loopInside eof (emitGroups (E.writer eof) eof c gs) := by
  induction gs generalizing c with
  | nil => exact h
  | cons g gs ih =>
    simp only [mem_cons, forall_eq_or_imp] at hrun
    by_cases hroom : eof ≤ c.msgPtr + (E.writer eof).vectorSize + 2
    · rw [emitGroups_full hroom]
      exact h
    · have hptr : ¬ eof ≤ c.vectorptr + E.vectorSize + 2 := h.ptr ▸ hroom
      have hbelow : Below eof (emitVector E eof c.lva c.stores c.vectorptr g.head g.joined).stores :=
        emitVector_below E 1 h.stores (by omega) (le_refl 1) fun _ => rfl
      cases hv : emitVector E eof c.lva c.stores c.vectorptr g.head g.joined with
      | oops stores joined =>
        rw [hv] at hbelow
        rw [emitGroups_oops hroom hv]
        exact hbelow
      | ok v =>
        rw [hv] at hbelow
        rw [emitGroups_ok hroom hv]
        exact ih hrun.2 (E.behind_write hrun.1 hv hbelow)

structure Emitter.Sized : Prop where
  pos : 0 < E.attributeLength
  later : E.attributeLength < E.vectorSize
  header : E.dataOffset ≤ E.vectorSize
  four : E.fourPacked = true → E.dataOffset + E.attributeLength < E.vectorSize

def Emitter.firstEnd (p : Nat) : Nat := p + E.dataOffset + 2 + E.attributeLength

/-- An emitter stays inside the frame: the FirstValue of its first vector does, or the event octet
behind that if the vector has one value; or the empty LeaveAll vector and the end mark. -/
def Emitter.Inside (eof p : Nat) (emptyLeaveAll : Bool) (gs : List (Group ν)) : Prop :=
  p + E.vectorSize ≤ eof →
    match gs with
    | g :: _ =>
      if p + E.vectorSize + 2 < eof then
        E.firstEnd p ≤ eof ∧ (g.head.event.isSome → g.joined = [] → E.firstEnd p < eof)
      else emptyLeaveAll = true → E.firstEnd p + 2 ≤ eof
    | [] => emptyLeaveAll = true → E.firstEnd p + 2 ≤ eof

def Emitter.closed (emptyLeaveAll : Bool) (p : Nat) : Except Stores Cursor → Stores
  | .ok c => (closeMessage E p (emitEmptyLeaveAll E emptyLeaveAll c)).1
  | .error stores => stores

theorem emitVectors_stores (hroom : p + E.vectorSize ≤ eof) :
    (emitVectors E eof emptyLeaveAll lva s p l).stores =
      E.closed emptyLeaveAll p (emitGroups (E.writer eof) eof (E.start lva s p) (E.groups 0 l)) := by
  have hloop : (emitLoop (E.writer eof) eof (E.start lva s p) 0 l).1 = _ :=
    emitLoop_fst E.writer_follows
  rw [← hloop, emitVectors]
  rcases hr : emitLoop (E.writer eof) eof (E.start lva s p) 0 l with ⟨stores | c, l'⟩
  · rw [emitWith_of_error E hroom hr]
    rfl
  · rw [emitWith_of_ok E hroom hr]
    rfl

end

section
variable (E : Emitter ν) (hE : E.Sized) (hs : Below eof s) (hroom : p + E.vectorSize ≤ eof)

include hE hs hroom

theorem Emitter.start_below : Below eof (E.start lva s p).stores := by
  have hlater := hE.later
  have hpos := hE.pos
  exact below_put.mpr ⟨fun _ => by simp only [length_cons, length_nil]; omega, hs⟩

omit hE hs hroom in
theorem Emitter.closeMessage_below (hdata : p + E.dataOffset ≤ eof) :
    Below eof (closeMessage E p c).1 ↔
      (c.vectorptr ≠ p + E.dataOffset → c.msgPtr + 2 ≤ eof) ∧ Below eof c.stores := by
  unfold closeMessage
  dsimp only
  split
  case isTrue h => simp [h]
  case isFalse h =>
    have hmark : Below eof (put c.stores c.msgPtr [0, 0]) ↔
        c.msgPtr + 2 ≤ eof ∧ Below eof c.stores := by
      rw [below_put]
      exact and_congr_left fun _ => ⟨fun h => h (cons_ne_nil _ _), fun h _ => h⟩
    rw [forall_prop_of_true h, ← hmark]
    split
    case isFalse => exact .rfl
    case isTrue hlist =>
      rw [Emitter.dataOffset, if_pos hlist] at hdata
      rw [below_put, length_be16]
      exact and_iff_right fun _ => by omega

theorem Emitter.closed_start : Below eof (E.closed emptyLeaveAll p (.ok (E.start lva s p))) ↔
      (emptyLeaveAll = true → E.firstEnd p + 2 ≤ eof) := by
  have hstart : Below eof (E.start lva s p).stores := E.start_below hE hs hroom
  have hheader := hE.header
  unfold Emitter.closed
  rw [E.closeMessage_below (by omega)]
  unfold emitEmptyLeaveAll
  cases emptyLeaveAll with
  | false => simpa [Emitter.start] using hstart
  | true =>
    simp only [Emitter.start] at hstart ⊢
    simp only [Bool.not_false, Bool.and_self, if_true, below_put, length_be16, hstart, and_true,
      forall_const, Emitter.firstEnd]
    constructor
    · rintro ⟨h, -⟩
      exact h (by omega)
    · rintro h
      exact ⟨fun _ => h, fun _ => by omega⟩

omit hs in
theorem Emitter.closed_behind (h : c.Behind eof) :
    Below eof (E.closed emptyLeaveAll p (.ok c)) := by
  have hheader := hE.header
  have hkept : emitEmptyLeaveAll E emptyLeaveAll c = c := by
    unfold emitEmptyLeaveAll
    rw [h.found]
    rfl
  unfold Emitter.closed
  rw [E.closeMessage_below (by omega), hkept]
  exact ⟨fun _ => h.room, h.stores⟩

theorem Emitter.closed_first (hrun : ∀ g' ∈ g :: gs, E.IsRun g')
    (hfree : p + E.vectorSize + 2 < eof) : Below eof (E.closed emptyLeaveAll p
        (emitGroups (E.writer eof) eof (E.start lva s p) (g :: gs))) ↔
      E.firstEnd p ≤ eof ∧ (g.head.event.isSome → g.joined = [] → E.firstEnd p < eof) := by
  have hstart : Below eof (E.start lva s p).stores := E.start_below hE hs hroom
  have hfull : ¬ eof ≤ (E.start lva s p).msgPtr + (E.writer eof).vectorSize + 2 :=
    Nat.not_le.mpr hfree
  simp only [mem_cons, forall_eq_or_imp] at hrun
  by_cases hend : E.firstEnd p < eof
  · rw [iff_true_right ⟨le_of_lt hend, fun _ _ => hend⟩]
    have hbelow : Below eof
        (emitVector E eof lva (E.start lva s p).stores (p + E.dataOffset) g.head g.joined).stores := by
      cases hfour : E.fourPacked with
      | false => exact emitVector_below E 0 hstart hend (by decide) (by simp [hfour])
      | true =>
        have hlater := hE.four hfour
        exact emitVector_below E 1 hstart (by omega) (by decide) fun _ => rfl
    cases hv : emitVector E eof lva (E.start lva s p).stores (p + E.dataOffset) g.head g.joined with
    | oops stores joined =>
      rw [hv] at hbelow
      rw [emitGroups_oops hfull hv]
      exact hbelow
    | ok v =>
      rw [hv] at hbelow
      rw [emitGroups_ok hfull hv]
      have hloop := emitGroups_behind E hE.later hrun.2
        (E.behind_write (c := E.start lva s p) hrun.1 hv hbelow)
      cases hr : emitGroups (E.writer eof) eof ((E.start lva s p).behind (E.writer eof) v) gs with
      | error stores =>
        rw [hr] at hloop
        exact hloop
      | ok c =>
        rw [hr] at hloop
        exact E.closed_behind hE hroom hloop
  · -- too late for a vector to be completed, so that the emitter gives up
    have hedge : Below eof
        (emitVector E eof lva (E.start lva s p).stores (p + E.dataOffset) g.head g.joined).stores ↔ _ :=
      emitVector_edge E hstart hE.pos (Nat.not_lt.mp hend)
    cases hv : emitVector E eof lva (E.start lva s p).stores (p + E.dataOffset) g.head g.joined with
    | ok v =>
      obtain ⟨-, hspan, -⟩ := (emitVector_ok E hrun.1).mp hv
      have hspan := hspan.1
      unfold Emitter.span at hspan
      unfold Emitter.firstEnd at hend
      omega
    | oops stores joined =>
      rw [hv] at hedge
      rw [emitGroups_oops hfull hv]
      refine hedge.trans (and_congr_right fun _ => ?_)
      rw [hrun.1]
      simp only [length_eq_zero_iff, not_and, hend]

end

section

variable (E : Emitter ν)
include E

theorem closeMessage_mono (h : Below eof (closeMessage E p c).1) : Below eof c.stores := by
  unfold closeMessage at h
  dsimp only at h
  split at h
  · exact h
  split at h
  · exact (below_put.mp (below_put.mp h).2).2
  · exact (below_put.mp h).2

theorem Emitter.closed_ok_mono (h : Below eof (E.closed emptyLeaveAll p (.ok c))) :
    Below eof c.stores := by
  have hempty : Below eof (emitEmptyLeaveAll E emptyLeaveAll c).stores := closeMessage_mono E h
  unfold emitEmptyLeaveAll at hempty
  split at hempty
  · exact (below_put.mp hempty).2
  · exact hempty

theorem Emitter.closed_mono
    (h : Below eof (E.closed emptyLeaveAll p (emitGroups (E.writer eof) eof c gs))) :
    Below eof c.stores := by
  induction gs generalizing c with
  | nil => exact E.closed_ok_mono h
  | cons g gs ih =>
    by_cases hfull : eof ≤ c.msgPtr + (E.writer eof).vectorSize + 2
    · rw [emitGroups_full hfull] at h
      exact E.closed_ok_mono h
    · unfold emitGroups at h
      rw [if_neg hfull] at h
      have hvector : Below eof
          (emitVector E eof c.lva c.stores c.vectorptr g.head g.joined).stores := by
        cases hv : emitVector E eof c.lva c.stores c.vectorptr g.head g.joined with
        | oops stores joined =>
          rw [show (E.writer eof).write = emitVector E eof from rfl, hv] at h
          exact h
        | ok v =>
          rw [show (E.writer eof).write = emitVector E eof from rfl, hv] at h
          exact ih h
      exact (below_put.mp (emitVector_mono E hvector)).2

theorem emitVectors_mono
    (h : Below eof (emitVectors E eof emptyLeaveAll lva s p l).stores) : Below eof s := by
  by_cases hroom : p + E.vectorSize ≤ eof
  · rw [emitVectors_stores E hroom] at h
    exact (below_put.mp (E.closed_mono h)).2
  · unfold emitVectors emitWith at h
    rw [if_pos (Nat.not_le.mp hroom)] at h
    exact h

theorem emitVectors_below_iff (hE : E.Sized) (hs : Below eof s) :
    Below eof (emitVectors E eof emptyLeaveAll lva s p l).stores ↔
      E.Inside eof p emptyLeaveAll (E.groups 0 l) := by
  unfold Emitter.Inside
  by_cases hroom : p + E.vectorSize ≤ eof
  · rw [forall_prop_of_true hroom, emitVectors_stores E hroom]
    cases hgs : E.groups 0 l with
    | nil => exact E.closed_start hE hs hroom
    | cons g gs =>
      dsimp only
      split
      case isTrue hfree =>
        refine E.closed_first hE hs hroom (fun g' hg' => ?_) hfree
        rw [← hgs] at hg'
        exact (E.mem_groups hg').1
      case isFalse hfull =>
        rw [emitGroups_full (Nat.not_lt.mp hfull)]
        exact E.closed_start hE hs hroom
  · rw [iff_true_right fun h => absurd h hroom]
    unfold emitVectors emitWith
    rw [if_pos (Nat.not_le.mp hroom)]
    exact hs

end

def draftStores : Except (Draft ν) (Draft ν) → Stores
  | .ok d | .error d => d.stores

theorem emit_stores (emitter : Stores → Nat → List (Attribute ν) → Emission ν) (d : Draft ν) :
    draftStores (d.emit emitter) = (emitter d.stores d.ptr d.attribs).stores := by
  unfold Draft.emit
  dsimp only
  split <;> rfl

theorem below_bind {r : Except (Draft ν) (Draft ν)} {f : Draft ν → Except (Draft ν) (Draft ν)}
    (hmono : ∀ d, Below eof (draftStores (f d)) → Below eof d.stores) :
    Below eof (draftStores (r.bind f)) ↔
      Below eof (draftStores r) ∧ ∀ d, r = .ok d → Below eof (draftStores (f d)) := by
  cases r with
  | error d => exact (and_iff_left nofun).symm
  | ok d =>
    constructor
    · rintro h
      refine ⟨hmono d h, ?_⟩
      rintro d' hd
      obtain rfl := Except.ok.inj hd
      exact h
    · rintro ⟨-, h⟩
      exact h d rfl

theorem talkerEmitter_sized (failed : Bool) : (talkerEmitter failed).Sized := by
  cases failed <;> exact ⟨by decide, by decide, by decide, nofun⟩

theorem listenerEmitter_sized : listenerEmitter.Sized :=
  ⟨by decide, by decide, by decide, fun _ => by decide⟩

theorem domainEmitter_sized : domainEmitter.Sized := ⟨by decide, by decide, by decide, nofun⟩

theorem msrpEmitListenvectors_below_iff (hs : Below maxFrameSize s) :
    Below maxFrameSize (msrpEmitListenvectors emptyLeaveAll lva s p l).stores ↔
      listenerEmitter.Inside maxFrameSize p emptyLeaveAll
        (listenerEmitter.groups 0 (markListeners l)) := by
  unfold msrpEmitListenvectors
  split
  case isTrue hfull => exact iff_of_true hs fun hroom => absurd hroom (Nat.not_le.mpr hfull)
  case isFalse => exact emitVectors_below_iff _ listenerEmitter_sized hs

theorem msrpEmitListenvectors_mono
    (h : Below maxFrameSize (msrpEmitListenvectors emptyLeaveAll lva s p l).stores) :
    Below maxFrameSize s := by
  unfold msrpEmitListenvectors at h
  split at h
  · exact h
  · exact emitVectors_mono _ h

/-- Every emitter that is reached stays inside the frame, starting behind the ones before it. -/
def MsrpInside (emptyLeaveAll lva : Bool) (gs : MsrpPlan) : Prop :=
  ∀ advertised, (talkerEmitter false).plan messageList gs.advertised = some advertised →
    let failedAt := (talkerEmitter false).behind emptyLeaveAll lva messageList advertised
    (talkerEmitter true).Inside maxFrameSize failedAt emptyLeaveAll gs.failed ∧
    ∀ failed, (talkerEmitter true).plan failedAt gs.failed = some failed →
      let listenersAt := (talkerEmitter true).behind emptyLeaveAll lva failedAt failed
      listenersAt + 2 < maxFrameSize →
        listenerEmitter.Inside maxFrameSize listenersAt emptyLeaveAll gs.listeners ∧
        ∀ listeners, listenerEmitter.plan listenersAt gs.listeners = some listeners →
          domainEmitter.Inside maxFrameSize
            (listenerEmitter.behind emptyLeaveAll lva listenersAt listeners) emptyLeaveAll gs.domains

theorem advertised_inside (gs : List (Group MsrpValue)) :
    (talkerEmitter false).Inside maxFrameSize messageList emptyLeaveAll gs := by
  have hend : (talkerEmitter false).firstEnd messageList + 2 ≤ maxFrameSize := by decide
  rintro -
  cases gs with
  | nil => exact fun _ => hend
  | cons g gs =>
    split
    · exact ⟨by omega, fun _ _ => by omega⟩
    · exact fun _ => hend

theorem closePdu_below (s : Stores) (ptr : Nat) :
    Below maxFrameSize (closePdu s ptr).1 ↔ Below maxFrameSize s := by
  unfold closePdu
  split
  · exact .rfl
  split
  case isTrue hroom =>
    rw [below_put]
    exact and_iff_right fun _ => by simp only [length_cons, length_nil]; omega
  case isFalse => exact .rfl

theorem msrpTxpdu_stores (station : Octets 6) (db : Database MsrpValue) :
    Below maxFrameSize (msrpTxpdu station db).stores ↔
      Below maxFrameSize (draftStores (msrpDraft station db)) := by
  unfold msrpTxpdu
  cases msrpDraft station db with
  | error d => exact .rfl
  | ok d => exact closePdu_below d.stores d.ptr

theorem emit_below_iff (E : Emitter ν) (hE : E.Sized) (emptyLeaveAll lva : Bool) {d : Draft ν}
    (hd : Below maxFrameSize d.stores) :
    Below maxFrameSize (draftStores (d.emit (emitVectors E maxFrameSize emptyLeaveAll lva))) ↔
      E.Inside maxFrameSize d.ptr emptyLeaveAll (E.groups 0 d.attribs) := by
  rw [emit_stores]
  exact emitVectors_below_iff E hE hd

theorem emit_mono (E : Emitter ν) (emptyLeaveAll lva : Bool) (d : Draft ν)
    (h : Below maxFrameSize (draftStores (d.emit (emitVectors E maxFrameSize emptyLeaveAll lva)))) :
    Below maxFrameSize d.stores := by
  rw [emit_stores] at h
  exact emitVectors_mono E h

theorem listeners_below_iff (emptyLeaveAll lva : Bool) {d : Draft MsrpValue}
    (hd : Below maxFrameSize d.stores) :
    Below maxFrameSize (draftStores (d.emit (msrpEmitListenvectors emptyLeaveAll lva))) ↔
      listenerEmitter.Inside maxFrameSize d.ptr emptyLeaveAll
        (listenerEmitter.groups 0 (markListeners d.attribs)) := by
  rw [emit_stores]
  exact msrpEmitListenvectors_below_iff hd

theorem listeners_mono (emptyLeaveAll lva : Bool) (d : Draft MsrpValue)
    (h : Below maxFrameSize (draftStores (d.emit (msrpEmitListenvectors emptyLeaveAll lva)))) :
    Below maxFrameSize d.stores := by
  rw [emit_stores] at h
  exact msrpEmitListenvectors_mono h

def listenersDraft (emptyLeaveAll lva : Bool) (d : Draft MsrpValue) :
    Except (Draft MsrpValue) (Draft MsrpValue) :=
  if maxFrameSize ≤ d.ptr + 2 then .error d
  else (d.emit (msrpEmitListenvectors emptyLeaveAll lva)).bind fun d =>
    d.emit (emitVectors domainEmitter maxFrameSize emptyLeaveAll lva)

theorem listenersDraft_mono (emptyLeaveAll lva : Bool) (d : Draft MsrpValue)
    (h : Below maxFrameSize (draftStores (listenersDraft emptyLeaveAll lva d))) :
    Below maxFrameSize d.stores := by
  unfold listenersDraft at h
  split at h
  · exact h
  · exact listeners_mono _ _ _ ((below_bind (emit_mono _ _ _)).mp h).1

theorem listenersDraft_below_iff {d : Draft MsrpValue} (hd : Below maxFrameSize d.stores)
    (hb : Building true header d.stores d.ptr ms) :
    Below maxFrameSize (draftStores (listenersDraft emptyLeaveAll lva d)) ↔
      (d.ptr + 2 < maxFrameSize → listenerEmitter.Inside maxFrameSize d.ptr emptyLeaveAll
          (listenerEmitter.groups 0 (markListeners d.attribs)) ∧
        ∀ listeners, listenerEmitter.plan d.ptr
            (listenerEmitter.groups 0 (markListeners d.attribs)) = some listeners →
          domainEmitter.Inside maxFrameSize
            (listenerEmitter.behind emptyLeaveAll lva d.ptr listeners) emptyLeaveAll
            (domainEmitter.groups 0 d.attribs)) := by
  unfold listenersDraft
  split
  case isTrue hfull => exact iff_of_true hd fun hroom => absurd hroom (Nat.not_lt.mpr hfull)
  case isFalse hroom =>
    rw [forall_prop_of_true (Nat.lt_of_not_le hroom), below_bind (emit_mono _ _ _),
      listeners_below_iff _ _ hd]
    refine and_congr_right fun hinside => ?_
    have hbelow := (listeners_below_iff emptyLeaveAll lva hd).mpr hinside
    rcases Draft.listeners_spec hb emptyLeaveAll lva with
      ⟨d', hd', hplan⟩ | ⟨ws, d', hd', hplan, hptr, hb', ht⟩
    · rw [hd', hplan]
      exact iff_of_true nofun nofun
    · have hgroups : domainEmitter.groups 0 d'.attribs = domainEmitter.groups 0 d.attribs :=
        Sequence.groups_touched _ ht (types_apart (by decide))
      rw [hd'] at hbelow ⊢
      simp only [Except.ok.injEq, forall_eq', hplan, Option.some.injEq]
      rw [emit_below_iff _ domainEmitter_sized _ _ hbelow, hptr, hgroups]

def failedDraft (emptyLeaveAll lva : Bool) (d : Draft MsrpValue) :
    Except (Draft MsrpValue) (Draft MsrpValue) :=
  (d.emit (emitVectors (talkerEmitter true) maxFrameSize emptyLeaveAll lva)).bind
    (listenersDraft emptyLeaveAll lva)

theorem failedDraft_mono (emptyLeaveAll lva : Bool) (d : Draft MsrpValue)
    (h : Below maxFrameSize (draftStores (failedDraft emptyLeaveAll lva d))) :
    Below maxFrameSize d.stores :=
  emit_mono _ _ _ d ((below_bind (listenersDraft_mono emptyLeaveAll lva)).mp h).1

theorem failedDraft_below_iff {d : Draft MsrpValue} (hd : Below maxFrameSize d.stores)
    (hb : Building true header d.stores d.ptr ms) :
    Below maxFrameSize (draftStores (failedDraft emptyLeaveAll lva d)) ↔
      (talkerEmitter true).Inside maxFrameSize d.ptr emptyLeaveAll
        ((talkerEmitter true).groups 0 d.attribs) ∧
      ∀ failed, (talkerEmitter true).plan d.ptr ((talkerEmitter true).groups 0 d.attribs) =
          some failed →
        let listenersAt := (talkerEmitter true).behind emptyLeaveAll lva d.ptr failed
        listenersAt + 2 < maxFrameSize →
          listenerEmitter.Inside maxFrameSize listenersAt emptyLeaveAll
            (listenerEmitter.groups 0 (markListeners d.attribs)) ∧
          ∀ listeners, listenerEmitter.plan listenersAt
              (listenerEmitter.groups 0 (markListeners d.attribs)) = some listeners →
            domainEmitter.Inside maxFrameSize
              (listenerEmitter.behind emptyLeaveAll lva listenersAt listeners) emptyLeaveAll
              (domainEmitter.groups 0 d.attribs) := by
  have hin := emit_below_iff (talkerEmitter true) (talkerEmitter_sized true) emptyLeaveAll lva hd
  unfold failedDraft
  rw [below_bind (listenersDraft_mono emptyLeaveAll lva), hin]
  refine and_congr_right fun hinside => ?_
  have hbelow := hin.mpr hinside
  rcases Draft.emit_spec (talkerEmitter true) rfl hb emptyLeaveAll lva with
    ⟨d', hd', hplan⟩ | ⟨ws, d', hd', hplan, hptr, hb', ht⟩
  · rw [hd', hplan]
    exact iff_of_true nofun nofun
  · have hlisteners : listenerEmitter.groups 0 (markListeners d'.attribs) =
        listenerEmitter.groups 0 (markListeners d.attribs) :=
      Sequence.groups_touched _ (markListeners_touched ht) (types_apart (by decide))
    have hdomains : domainEmitter.groups 0 d'.attribs = domainEmitter.groups 0 d.attribs :=
      Sequence.groups_touched _ ht (types_apart (by decide))
    rw [hd'] at hbelow ⊢
    simp only [Except.ok.injEq, forall_eq', hplan, Option.some.injEq]
    rw [listenersDraft_below_iff hbelow hb', hptr, hlisteners, hdomains]

theorem below_msrpOpened (station : Octets 6) (l : List (Attribute MsrpValue)) :
    Below maxFrameSize (msrpOpened station l).stores := by
  have hlength : (msrpHeader station).length = messageList :=
    length_ethHeader (show msrpAddr.length = 6 from rfl) station
  refine below_put.mpr ⟨fun _ => ?_, nofun⟩
  rw [show ethHeader msrpAddr station.val msrpEtype msrpProtVer = msrpHeader station from rfl,
    hlength]
  decide

theorem msrpTxpdu_below_iff (station : Octets 6) (db : Database MsrpValue) :
    Below maxFrameSize (msrpTxpdu station db).stores ↔
      MsrpInside db.sendEmptyLeaveAll db.mrpDb.lva.tx (msrpGroups db.attribList) := by
  have hb := building_msrpOpened station db.attribList
  have hs := below_msrpOpened station db.attribList
  rw [msrpTxpdu_stores, msrpDraft_eq]
  generalize db.sendEmptyLeaveAll = flag, db.mrpDb.lva.tx = lva
  have hbelow := (emit_below_iff (talkerEmitter false) (talkerEmitter_sized false) flag lva hs).mpr
    (advertised_inside _)
  refine (below_bind (failedDraft_mono flag lva)).trans ((and_iff_right hbelow).trans ?_)
  have hplan : (talkerEmitter false).plan messageList (msrpGroups db.attribList).advertised =
      (talkerEmitter false).plan (msrpOpened station db.attribList).ptr
        ((talkerEmitter false).groups 0 (msrpOpened station db.attribList).attribs) := rfl
  unfold MsrpInside
  rw [hplan]
  rcases Draft.emit_spec (talkerEmitter false) rfl hb flag lva with
    ⟨d', hd', hplan⟩ | ⟨ws, d', hd', hplan, hptr, hb', ht⟩
  · rw [hd', hplan]
    exact iff_of_true nofun nofun
  · have hfailed : (talkerEmitter true).groups 0 d'.attribs =
        (msrpGroups db.attribList).failed :=
      Sequence.groups_touched _ ht (types_apart (by decide))
    have hlisteners : listenerEmitter.groups 0 (markListeners d'.attribs) =
        (msrpGroups db.attribList).listeners :=
      Sequence.groups_touched _ (markListeners_touched ht) (types_apart (by decide))
    have hdomains : domainEmitter.groups 0 d'.attribs = (msrpGroups db.attribList).domains :=
      Sequence.groups_touched _ ht (types_apart (by decide))
    rw [hd'] at hbelow ⊢
    rw [hplan]
    simp only [Except.ok.injEq, forall_eq', Option.some.injEq]
    rw [failedDraft_below_iff hbelow hb', hptr, hfailed, hlisteners, hdomains]
    rfl

theorem length_frame (station : Octets 6) (plan : MsrpPlan) :
    (plan.frame station emptyLeaveAll lva).length = plan.endsAt emptyLeaveAll lva + 2 := by
  have hheader : (msrpHeader station).length = messageList :=
    length_ethHeader (show msrpAddr.length = 6 from rfl) station
  unfold MsrpPlan.frame
  simp only [length_append, plan.endsAt_eq, hheader, length_cons, length_nil]
  omega

/-- `msrp_txpdu` stores inside the frame iff the emitters it reaches do; what it hands to the
socket is as long as what it has built. -/
theorem msrpTxpdu_inside_iff (station : Octets 6) (db : Database MsrpValue) :
    let flag := db.sendEmptyLeaveAll
    let lva := db.mrpDb.lva.tx
    ((∀ i ∈ touched (msrpTxpdu station db).stores, i < maxFrameSize) ∧
      ∀ frame, (msrpTxpdu station db).frame = some frame →
        ∃ plan : MsrpPlan, plan.Writes flag lva (msrpGroups db.attribList) ∧
          frame = plan.frame station flag lva ∧ frame.length = plan.endsAt flag lva + 2 ∧
          frame.length < maxFrameSize) ↔
    MsrpInside flag lva (msrpGroups db.attribList) := by
  intro flag lva
  rw [← msrpTxpdu_below_iff station db]
  refine and_iff_left fun frame hframe => ?_
  obtain ⟨plan, hw, -, hroom, rfl⟩ := (msrpTxpdu_frame station db).mp hframe
  have hlength : (plan.frame station flag lva).length = plan.endsAt flag lva + 2 :=
    length_frame station plan
  exact ⟨plan, hw, rfl, hlength, hlength ▸ hroom⟩

def talkersFrom (first step n : Nat) : List (Attribute MsrpValue) :=
  (List.range n).map fun i =>
    inStates .vn .mtState (.talker false (sampleTalk (UInt8.ofNat (first + step * i))))

/-- The octet behind the frame is stored for an empty LeaveAll vector of failed talkers, and
for the event octet of a domain. -/
theorem msrpTxpdu_stores_behind :
    let leaveAll := afterTx .txla true (talkersFrom 0 2 68 ++ talkersFrom 200 1 19)
    let listeners := (List.range 15 ++ [100]).map fun i =>
      inStates .vn .mtState (.listener (sampleStream (UInt8.ofNat i)) 2)
    let full := afterTx .tx false
      (talkersFrom 0 2 69 ++ listeners ++ [inStates .vn .mtState (.domain sampleDomain)])
    maxFrameSize ∈ touched (msrpTxpdu sampleStation leaveAll).stores ∧
      maxFrameSize ∈ touched (msrpTxpdu sampleStation full).stores := by
  decide +kernel

end OpenAvb.Mrpd
