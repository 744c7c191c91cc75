import OpenAvb.Mrpd.Database

/-!
# The message an emitter leaves in the frame

An emitter either fails, or it leaves at its start the octets of at most one
message: the vectors of the groups it found room for, or the empty LeaveAll
vector when it found none and a LeaveAll is due.
-/

namespace OpenAvb.Mrpd

section

open List

variable {ν : Type}

def emptyVector (length : Nat) : VectorAttribute where
  leaveAll := true
  firstValue := List.replicate length 0
  events := []
  substates := []

section

variable (E : Emitter ν)

def Emitter.sentVectors (emptyLeaveAll lva : Bool) :
    List (Group ν) → List VectorAttribute
  | [] => if emptyLeaveAll then [emptyVector E.attributeLength] else []
  | g :: gs => E.vectors lva (g :: gs)

def Emitter.messageOf : List VectorAttribute → List Message
  | [] => []
  | v :: vs => [⟨E.attributeType, E.attributeLength, v :: vs⟩]

def Emitter.sent (emptyLeaveAll lva : Bool) (ws : List (Group ν)) : List Message :=
  E.messageOf (E.sentVectors emptyLeaveAll lva ws)

theorem Emitter.sent_eq_nil :
    E.sent emptyLeaveAll lva ws = [] ↔ ws = [] ∧ emptyLeaveAll = false := by
  cases ws with
  | nil => cases emptyLeaveAll <;> simp [sent, sentVectors, messageOf]
  | cons g gs => simp [sent, sentVectors, vectors, messageOf]

theorem Emitter.layout_mem (h : E.layout eof m p gs = some ws) : ∀ g ∈ ws, g ∈ gs ∧ g.Valid := by
  induction gs generalizing m p ws with
  | nil =>
    simp only [layout, Option.some.injEq] at h
    simp [← h]
  | cons g gs ih =>
    simp only [layout] at h
    split at h
    · simp only [Option.some.injEq] at h
      simp [← h]
    · split at h
      case isTrue hg =>
        obtain ⟨ws', hw, rfl⟩ := Option.map_eq_some_iff.mp h
        intro g' hg'
        rcases mem_cons.mp hg' with rfl | hg'
        · exact ⟨mem_cons_self, hg.1⟩
        · exact ⟨mem_cons_of_mem _ (ih hw g' hg').1, (ih hw g' hg').2⟩
      case isFalse => cases h

theorem Emitter.wrote_cons : (E.wrote c (g :: gs)).found = true ∧
      (E.wrote c (g :: gs)).msgPtr = (E.wrote c (g :: gs)).vectorptr := by
  induction gs generalizing c g with
  | nil => exact ⟨rfl, rfl⟩
  | cons g' gs ih => exact ih

structure Emitter.Left (before after : Stores) (p : Nat) (ms : List Message) : Prop where
  stands : Stands (look after) p (messageOctets E.listLength ms)
  below : ∀ i, i < p → look after i = look before i
  clear : ∀ i, p + (messageOctets E.listLength ms).length + 2 ≤ i → look after i = 0

/-- An emitter has written its vectors: the octets `v` stand behind the message header, both
pointers behind them. -/
structure Cursor.Holds (c start : Cursor) (v : List UInt8) : Prop where
  vectorptr : c.vectorptr = start.vectorptr + v.length
  msgPtr : v ≠ [] → c.msgPtr = c.vectorptr
  stands : Stands (look c.stores) start.vectorptr v
  frame : ∀ i, i < start.vectorptr ∨ c.vectorptr ≤ i → look c.stores i = look start.stores i

theorem Emitter.holds_vectors (hf : start.found = false)
    (hclean : ∀ i, start.vectorptr ≤ i → look start.stores i = 0) (hws : ∀ g ∈ ws, g.Valid) :
    (emitEmptyLeaveAll E emptyLeaveAll (E.wrote start ws)).Holds start
      (vectorOctets (E.sentVectors emptyLeaveAll start.lva ws)) := by
  cases ws with
  | cons g gs =>
    have hc : (E.wrote start (g :: gs)).found = true ∧ _ := E.wrote_cons
    obtain ⟨hp, hst, hfr⟩ := E.wrote_stands (c := start) hws
    simp only [emitEmptyLeaveAll, hc.1, Bool.not_true, Bool.false_and, Bool.false_eq_true, if_false]
    exact ⟨hp, fun _ => hc.2, hst, hfr⟩
  | nil =>
    cases emptyLeaveAll with
    | false =>
      simp only [emitEmptyLeaveAll, Bool.and_false, Bool.false_eq_true, if_false, sentVectors,
        wrote, vectorOctets_nil]
      exact ⟨rfl, fun h => absurd rfl h, stands_nil, fun i _ => rfl⟩
    | true =>
      simp only [emitEmptyLeaveAll, wrote, hf, Bool.not_false, Bool.and_self, if_true, sentVectors,
        vectorOctets_cons, vectorOctets_nil, append_nil]
      have hlen : (emptyVector E.attributeLength).octets.length = 2 + E.attributeLength := by
        simp [emptyVector]
      refine ⟨by rw [hlen]; simp only; omega, fun _ => rfl, ?_, ?_⟩
      · have hz : Stands (look (put start.stores start.vectorptr (be16 (vectorHeader true 0))))
            (start.vectorptr + 2) (List.replicate E.attributeLength 0) := by
          refine stands_replicate fun i hi _ => ?_
          rw [look_put_of_le (by simpa using hi), hclean i (by omega)]
        simpa [VectorAttribute.octets, emptyVector, pack3, pack4] using ⟨stands_put, hz⟩
      · intro i hi
        rcases hi with hi | hi
        · exact look_put_of_lt hi
        · exact look_put_of_le (by simp only [length_be16] at hi ⊢; omega)

theorem Emitter.dataOffset_eq :
    E.dataOffset = 2 + (if E.listLength then be16 n else []).length := by
  simp only [dataOffset]
  split <;> rfl

theorem Emitter.closeMessage_left (hclean : ∀ i, p + 2 ≤ i → look s i = 0)
    (hs : start.stores = put s p [E.attributeType, UInt8.ofNat E.attributeLength])
    (hv : start.vectorptr = p + E.dataOffset) (hc : c.Holds start (vectorOctets vs)) :
    (closeMessage E p c).2 = (messageOctets E.listLength (E.messageOf vs)).length ∧
      E.Left s (closeMessage E p c).1 p (E.messageOf vs) := by
  have hdata : 2 ≤ E.dataOffset := by simp only [dataOffset]; omega
  have hlow : ∀ i, i < p → look c.stores i = look s i := by
    intro i hi
    rw [hc.frame i (.inl (by omega)), hs, look_put_of_lt hi]
  have hhigh : ∀ i, p + 2 ≤ i → c.vectorptr ≤ i → look c.stores i = 0 := by
    intro i hi hi'
    rw [hc.frame i (.inr hi'), hs, look_put_of_le (by simpa using hi), hclean i hi]
  cases vs with
  | nil =>
    have hptr : c.vectorptr = p + E.dataOffset := by simpa [hv] using hc.vectorptr
    simp only [closeMessage, hptr, if_true, messageOf, messageOctets_nil, length_nil, true_and]
    refine ⟨stands_nil, hlow, fun i hi => ?_⟩
    rw [messageOctets_nil, length_nil] at hi
    by_cases hi' : c.vectorptr ≤ i
    · exact hhigh i (by omega) hi'
    · rw [hc.frame i (.inl (by omega)), hs, look_put_of_le (by simpa using hi), hclean i (by omega)]
  | cons v vs =>
    have hne : vectorOctets (v :: vs) ≠ [] := by
      intro h
      have := congrArg List.length h
      simp at this
    have hptr := hc.vectorptr
    rw [hv] at hptr
    have hpos : 0 < (vectorOctets (v :: vs)).length := length_pos_iff.mpr hne
    have hhead : Stands (look c.stores) p [E.attributeType, UInt8.ofNat E.attributeLength] := by
      have h : Stands (look start.stores) p [E.attributeType, UInt8.ofNat E.attributeLength] :=
        hs ▸ stands_put
      refine h.congr fun i hi hn => hc.frame i (.inl ?_)
      simp only [length_cons, length_nil] at hn
      omega
    have hbody : Stands (look c.stores) (p + E.dataOffset) (vectorOctets (v :: vs)) :=
      hv ▸ hc.stands
    simp only [closeMessage, hc.msgPtr hne, messageOf]
    rw [if_neg (by omega)]
    generalize hV : vectorOctets (v :: vs) = V at *
    -- the optional list length as a store of two or of no octets
    generalize hL : (if E.listLength then be16 (V.length + 2) else []) = len
    have hd : E.dataOffset = 2 + len.length := by rw [← hL]; exact E.dataOffset_eq
    have hoct : messageOctets E.listLength [⟨E.attributeType, E.attributeLength, v :: vs⟩] =
        [E.attributeType, UInt8.ofNat E.attributeLength] ++ (len ++ (V ++ [0, 0])) := by
      simp [Message.octets, hV, hL]
    have hstore : (if E.listLength then put (put c.stores c.vectorptr [0, 0]) (p + 2)
          (be16 (c.vectorptr + 2 - (p + E.dataOffset))) else put c.stores c.vectorptr [0, 0]) =
        put (put c.stores c.vectorptr [0, 0]) (p + 2) len := by
      rw [show c.vectorptr + 2 - (p + E.dataOffset) = V.length + 2 by omega, ← hL]
      split <;> rfl
    rw [hstore]
    have hlen : ([E.attributeType, UInt8.ofNat E.attributeLength] ++
        (len ++ (V ++ [0, 0]))).length = 2 + len.length + V.length + 2 := by
      simp; omega
    refine ⟨?_, ?_, ?_, ?_⟩
    · rw [hoct, hlen]
      omega
    · rw [hoct, stands_append, stands_append, stands_append]
      simp only [length_cons, length_nil]
      rw [show p + (0 + 1 + 1) + len.length = p + E.dataOffset by omega]
      have hend : Stands (look (put c.stores c.vectorptr [0, 0]))
          (p + E.dataOffset + V.length) [0, 0] := hptr ▸ stands_put
      refine ⟨(hhead.put (.inr ?_)).put (.inr ?_), stands_put,
        (hbody.put (.inr ?_)).put (.inl ?_), hend.put (.inl ?_)⟩
      all_goals first | omega | (simp only [length_cons, length_nil]; omega)
    · intro i hi
      rw [look_put_of_lt (by omega), look_put_of_lt (by omega), hlow i hi]
    · intro i hi
      rw [hoct, hlen] at hi
      rw [look_put_of_le (by omega), look_put_of_le (by simp; omega), hhigh i (by omega) (by omega)]

def Emitter.start (lva : Bool) (stores : Stores) (msgbuf : Nat) : Cursor :=
  { stores := put stores msgbuf [E.attributeType, UInt8.ofNat E.attributeLength]
    msgPtr := msgbuf, vectorptr := msgbuf + E.dataOffset, found := false, lva := lva }

theorem Emitter.closeMessage_wrote (ws : List (Group ν)) (emptyLeaveAll lva l : Bool)
    (hclean : ∀ i, p + 2 ≤ i → look s i = 0) (hws : ∀ g ∈ ws, g.Valid) :
    let close := closeMessage E p
      (emitEmptyLeaveAll E emptyLeaveAll { E.wrote (E.start lva s p) ws with lva := l })
    close.2 = (messageOctets E.listLength (E.sent emptyLeaveAll lva ws)).length ∧
      E.Left s close.1 p (E.sent emptyLeaveAll lva ws) := by
  have hzero : ∀ i, (E.start lva s p).vectorptr ≤ i → look (E.start lva s p).stores i = 0 := by
    intro i hi
    simp only [Emitter.start, Emitter.dataOffset] at hi ⊢
    rw [look_put_of_le (by simp; omega), hclean i (by omega)]
  have hholds : (emitEmptyLeaveAll E emptyLeaveAll
      { E.wrote (E.start lva s p) ws with lva := l }).Holds (E.start lva s p)
      (vectorOctets (E.sentVectors emptyLeaveAll lva ws)) := by
    have h : (emitEmptyLeaveAll E emptyLeaveAll (E.wrote (E.start lva s p) ws)).Holds
        (E.start lva s p) _ := E.holds_vectors rfl hzero hws
    simp only [emitEmptyLeaveAll] at h ⊢
    split at h
    · rename_i hf
      rw [if_pos hf]
      exact ⟨h.vectorptr, h.msgPtr, h.stands, h.frame⟩
    · rename_i hf
      rw [if_neg hf]
      exact ⟨h.vectorptr, h.msgPtr, h.stands, h.frame⟩
  exact E.closeMessage_left hclean rfl rfl hholds

end

section

variable (E : Emitter ν) {w : Writer ν} (hroom : p + E.vectorSize ≤ eof)

include hroom

theorem emitWith_of_error (h : emitLoop w eof (E.start lva s p) 0 l = (.error stores, l')) :
    emitWith E w eof emptyLeaveAll lva s p l = ⟨stores, l', none⟩ := by
  unfold emitWith
  unfold Emitter.start at h
  rw [if_neg (Nat.not_lt.mpr hroom)]
  simp only [h]

theorem emitWith_of_ok (h : emitLoop w eof (E.start lva s p) 0 l = (.ok c, l')) :
    let close := closeMessage E p (emitEmptyLeaveAll E emptyLeaveAll c)
    emitWith E w eof emptyLeaveAll lva s p l = ⟨close.1, l', some close.2⟩ := by
  unfold emitWith
  unfold Emitter.start at h
  rw [if_neg (Nat.not_lt.mpr hroom)]
  simp only [h]

end

theorem emitWith_wrote (E : Emitter ν) {w : Writer ν} (emptyLeaveAll : Bool)
    (hclean : ∀ i, p + 2 ≤ i → look s i = 0) (hroom : p + E.vectorSize ≤ eof)
    (hws : ∀ g ∈ ws, g.Valid) (hloop : (emitLoop w eof (E.start lva s p) 0 attribs).1 =
      .ok { E.wrote (E.start lva s p) ws with lva := l }) :
    (emitWith E w eof emptyLeaveAll lva s p attribs).bytesUsed =
        some (messageOctets E.listLength (E.sent emptyLeaveAll lva ws)).length ∧
      E.Left s (emitWith E w eof emptyLeaveAll lva s p attribs).stores p
        (E.sent emptyLeaveAll lva ws) := by
  have hclose := E.closeMessage_wrote ws emptyLeaveAll lva l hclean hws
  rcases hr : emitLoop w eof (E.start lva s p) 0 attribs with ⟨r, l'⟩
  rw [hr] at hloop
  subst hloop
  rw [emitWith_of_ok E hroom hr]
  exact ⟨congrArg some hclose.1, hclose.2⟩

/-- The main lemma about an emitter: it fails for lack of room for its header or as the layout says,
or leaves the message of the groups laid out. -/
theorem emitVectors_spec (E : Emitter ν) (eof : Nat) (emptyLeaveAll lva : Bool)
    (attribs : List (Attribute ν)) (hclean : ∀ i, p + 2 ≤ i → look s i = 0) :
    let em := emitVectors E eof emptyLeaveAll lva s p attribs
    let gs := E.layout eof p (p + E.dataOffset) (E.groups 0 attribs)
    (em.bytesUsed = none ∧ (eof < p + E.vectorSize ∨ gs = none)) ∨
    ∃ ws, p + E.vectorSize ≤ eof ∧ gs = some ws ∧
      em.bytesUsed = some (messageOctets E.listLength (E.sent emptyLeaveAll lva ws)).length ∧
      E.Left s em.stores p (E.sent emptyLeaveAll lva ws) := by
  intro em gs
  by_cases hroom : eof < p + E.vectorSize
  · exact .inl ⟨by simp [em, emitVectors, emitWith, hroom], .inl hroom⟩
  · have hloop : (emitLoop (E.writer eof) eof (E.start lva s p) 0 attribs).1 = _ :=
      emitLoop_fst E.writer_follows
    rcases emitGroups_eq (c := E.start lva s p) E (fun g hg => (E.mem_groups hg).1) with
      ⟨hnone, stores, herr⟩ | ⟨ws, hws, hok⟩
    · refine .inl ⟨?_, .inr hnone⟩
      have h1 := hloop.trans herr
      simp only [em, emitVectors, emitWith, if_neg hroom]
      rcases hr : emitLoop (E.writer eof) eof (E.start lva s p) 0 attribs with ⟨r, l⟩
      rw [hr] at h1
      subst h1
      simp only [Emitter.start] at hr
      rw [hr]
    · refine .inr ⟨ws, Nat.not_lt.mp hroom, hws, ?_⟩
      exact emitWith_wrote E emptyLeaveAll hclean (Nat.not_lt.mp hroom)
        (fun g hg => (E.layout_mem hws g hg).2) (l := (E.wrote (E.start lva s p) ws).lva)
        (hloop.trans hok)

theorem Emitter.span_mono (E : Emitter ν) (h : n ≤ k) : E.span n ≤ E.span k := by
  simp only [span]
  split <;> omega

theorem Emitter.layout_fits (E : Emitter ν) (lva : Bool) (hsize : E.vectorSize ≤ E.span 1 + 1)
    (hgs : ∀ g ∈ gs, g.Valid) (hm : m ≤ p)
    (hfit : p + (vectorOctets (E.vectors lva gs)).length + 4 ≤ eof) :
    E.layout eof m p gs = some gs := by
  induction gs generalizing m p lva with
  | nil => rfl
  | cons g gs ih =>
    simp only [mem_cons, forall_eq_or_imp] at hgs
    simp only [vectors, vectorOctets_cons, length_append, E.length_vector hgs.1] at hfit
    have hspan : E.span 1 ≤ E.span g.members.length := E.span_mono (by simp [Group.members])
    have hroom : E.Room eof p g.members.length := ⟨by omega, fun _ _ => by omega⟩
    have hrest : p + E.span g.members.length + (vectorOctets (E.vectors false gs)).length + 4 ≤
        eof := by omega
    rw [layout, if_neg (by omega), if_pos ⟨hgs.1, hroom⟩, ih false hgs.2 (le_refl _) hrest]
    rfl

/-- A frame under construction: header and messages `ms`, `ptr` behind them, the rest clear. -/
structure Building (listLength : Bool) (header : List UInt8) (stores : Stores) (ptr : Nat)
    (ms : List Message) : Prop where
  stands : Stands (look stores) 0 (header ++ messageOctets listLength ms)
  ptr_eq : ptr = header.length + (messageOctets listLength ms).length
  clear : ∀ i, ptr + 2 ≤ i → look stores i = 0

theorem length_ethHeader (hd : dest.length = 6) (station : Octets 6) :
    (ethHeader dest station.val etype version).length = 15 := by
  simp [ethHeader, hd, station.property]

theorem building_open (listLength : Bool) (hd : dest.length = 6) (station : Octets 6)
    (etype : Nat) (version : UInt8) : Building listLength (ethHeader dest station.val etype version)
      (openPdu dest station etype version) messageList [] where
  stands := by simpa [openPdu] using stands_put
  ptr_eq := by rw [length_ethHeader hd]; rfl
  clear := by
    intro i hi
    rw [openPdu, look_put_of_le]
    · rfl
    · rw [length_ethHeader hd]
      simp only [messageList] at hi
      omega

variable {E : Emitter ν}

theorem Building.extend (h : Building E.listLength header s p ms) (hleft : E.Left s s' p ms') :
    Building E.listLength header s' (p + (messageOctets E.listLength ms').length) (ms ++ ms') where
  stands := by
    rw [messageOctets_append, ← append_assoc, stands_append]
    refine ⟨h.stands.congr fun i _ hi => hleft.below i ?_, ?_⟩
    · simpa [h.ptr_eq] using hi
    · simpa [h.ptr_eq] using hleft.stands
  ptr_eq := by rw [messageOctets_append, length_append, ← add_assoc, ← h.ptr_eq]
  clear := hleft.clear

theorem Building.emit (h : Building E.listLength header s p ms)
    (hused : (emitVectors E eof emptyLeaveAll lva s p attribs).bytesUsed = some n) :
    ∃ ws, p + E.vectorSize ≤ eof ∧
      E.layout eof p (p + E.dataOffset) (E.groups 0 attribs) = some ws ∧
      n = (messageOctets E.listLength (E.sent emptyLeaveAll lva ws)).length ∧
      Building E.listLength header (emitVectors E eof emptyLeaveAll lva s p attribs).stores
        (p + n) (ms ++ E.sent emptyLeaveAll lva ws) := by
  rcases emitVectors_spec E eof emptyLeaveAll lva attribs h.clear with
    ⟨hnone, -⟩ | ⟨ws, hroom, hlay, hused', hleft⟩
  · rw [hused] at hnone
    cases hnone
  · rw [hused, Option.some.injEq] at hused'
    exact ⟨ws, hroom, hlay, hused', hused' ▸ h.extend hleft⟩

theorem Emitter.length_sent (E : Emitter ν) :
    (messageOctets E.listLength (E.sent emptyLeaveAll lva (g :: gs))).length =
      E.dataOffset + (vectorOctets (E.vectors lva (g :: gs))).length + 2 := by
  simp only [sent, sentVectors, vectors, messageOf, messageOctets_cons, messageOctets_nil,
    append_nil, length_message_octets, dataOffset]
  omega

theorem Emitter.span_le_vectors (E : Emitter ν) (hgs : ∀ g ∈ gs, g.Valid) (hg : g ∈ gs) :
    E.span g.members.length ≤ (vectorOctets (E.vectors lva gs)).length := by
  induction gs generalizing lva with
  | nil => cases hg
  | cons g' gs ih =>
    simp only [mem_cons, forall_eq_or_imp] at hgs
    rw [vectors, vectorOctets_cons, length_append, E.length_vector hgs.1]
    rcases mem_cons.mp hg with rfl | hg
    · exact Nat.le_add_right _ _
    · exact Nat.le_add_left_of_le (ih hgs.2 hg)

theorem Emitter.members_lt (E : Emitter ν) (hgs : ∀ g ∈ gs, g.Valid) (hg : g ∈ gs)
    (hfit : (messageOctets E.listLength (E.sent emptyLeaveAll lva gs)).length ≤ maxFrameSize) :
    g.members.length < 8192 := by
  have hspan : E.span g.members.length ≤ (vectorOctets (E.vectors lva gs)).length :=
    E.span_le_vectors hgs hg
  obtain ⟨g', gs', rfl⟩ := exists_cons_of_ne_nil (ne_nil_of_mem hg)
  have hmax : maxFrameSize = 2000 := rfl
  rw [E.length_sent] at hfit
  simp only [span] at hspan
  omega

theorem Building.emit_fits (h : Building E.listLength header s p ms)
    (emptyLeaveAll lva : Bool) (hsize : E.vectorSize ≤ E.span 1 + 1)
    (hvalid : ∀ g ∈ E.groups 0 attribs, g.Valid)
    (hroom : p + E.vectorSize ≤ eof)
    (hfit : p + (messageOctets E.listLength
      (E.sent emptyLeaveAll lva (E.groups 0 attribs))).length + 2 ≤ eof) :
    let sent := E.sent emptyLeaveAll lva (E.groups 0 attribs)
    let n := (messageOctets E.listLength sent).length
    (emitVectors E eof emptyLeaveAll lva s p attribs).bytesUsed = some n ∧
      Building E.listLength header (emitVectors E eof emptyLeaveAll lva s p attribs).stores
        (p + n) (ms ++ sent) := by
  have hlay : E.layout eof p (p + E.dataOffset) (E.groups 0 attribs) =
      some (E.groups 0 attribs) := by
    generalize E.groups 0 attribs = gs at hvalid hfit
    cases gs with
    | nil => rfl
    | cons g gs =>
      rw [E.length_sent] at hfit
      exact E.layout_fits lva hsize hvalid (by omega) (by omega)
  rcases emitVectors_spec E eof emptyLeaveAll lva attribs h.clear with
    ⟨-, hfull | hnone⟩ | ⟨ws, -, hws, hused, -⟩
  · omega
  · rw [hlay] at hnone
    cases hnone
  · obtain rfl : E.groups 0 attribs = ws := Option.some.inj (hlay.symm.trans hws)
    obtain ⟨ws, -, hws', hlen, hb⟩ := h.emit hused
    obtain rfl : E.groups 0 attribs = ws := Option.some.inj (hlay.symm.trans hws')
    exact ⟨hused, hb⟩

theorem Building.close (h : Building listLength header s p ms) (hh : header.length = 15) :
    (closePdu s p).2 = if ms = [] ∨ maxFrameSize ≤ p + 2 then none
      else some (header ++ (messageOctets listLength ms ++ [0, 0])) := by
  have hptr : p = messageList ↔ ms = [] := by
    rw [h.ptr_eq, hh, messageList]
    cases ms with
    | nil => simp
    | cons msg ms => simp [length_message_octets]
  have hread : read (look (put s p [0, 0])) 0 (p + 2) =
      header ++ (messageOctets listLength ms ++ [0, 0]) := by
    rw [← append_assoc]
    refine Stands.read_eq ?_ ?_
    · rw [stands_append]
      refine ⟨h.stands.put (.inr ?_), ?_⟩
      · rw [length_append, h.ptr_eq]
        omega
      · rw [length_append, zero_add, ← h.ptr_eq]
        exact stands_put
    · rw [length_append, length_append, ← h.ptr_eq]
      rfl
  simp only [closePdu, hptr]
  by_cases hms : ms = []
  · simp [hms]
  · by_cases hroom : p + 2 < maxFrameSize
    · rw [if_neg hms, if_pos hroom, if_neg (not_or.mpr ⟨hms, by omega⟩), hread]
    · rw [if_neg hms, if_neg hroom, if_pos (.inr (by omega))]

end

/-! ## From an emitter to a receiver -/

open List

variable {τ κ ν : Type}

/-- The emitter's messages are what the receiver knows as type `t`. -/
structure Emitter.Agrees (E : Emitter ν) (R : Reception τ κ ν) (t : τ) : Prop where
  type : R.typeOf E.attributeType = some t
  length : R.attributeLength t = E.attributeLength
  length_pos : 0 < E.attributeLength
  length_lt : E.attributeLength < 256
  listLength : R.listLength = E.listLength
  fourPacked : R.fourPacked t = E.fourPacked

variable {E : Emitter ν} {R : Reception τ κ ν}

/-- The receiver does with the unpacked substates of a group what it would do with the
substates. -/
def Emitter.Declarable (E : Emitter ν) (R : Reception τ κ ν) (t : τ) (g : Group ν) : Prop :=
  let first := E.firstValue g.head.value
  let substates := g.members.flatMap fun a => E.declares a.value
  R.firstval t first (unpack4 substates.length (pack4 substates)) = R.firstval t first substates

theorem Emitter.declarable_of_lt
    (h : E.fourPacked = true → ∀ a ∈ g.members, E.substate a.value < 4) : E.Declarable R t g := by
  refine congrArg (R.firstval t _) (unpack4_pack4 fun d hd => ?_)
  simp only [mem_flatMap, Emitter.declares] at hd
  obtain ⟨a, ha, hd⟩ := hd
  split at hd
  case isTrue hf =>
    rw [mem_singleton] at hd
    exact hd ▸ h hf a ha
  case isFalse => cases hd

theorem Emitter.events_ne_nil (hg : g.Valid) : (E.vector lva g).events ≠ [] := by
  intro he
  have : g.events.length = 0 := by simpa [Emitter.vector] using he
  rw [hg.length_events] at this
  simp [Group.members] at this

theorem Emitter.Agrees.wellFormed (h : E.Agrees R t) (hg : g.Valid) (hlen : g.members.length < 8192)
    (hsub : E.Declarable R t g) : R.WellFormed t (E.vector lva g) where
  firstValue := by simp only [Emitter.vector, E.length_firstValue, h.length]
  numvalues := by simpa only [Emitter.vector, hg.length_events] using hlen
  substates := by simp only [Emitter.vector, E.length_declares, hg.length_events, h.fourPacked]
  firstval := hsub
  header := .inl (Emitter.events_ne_nil hg)

theorem Emitter.Agrees.wellFormed_empty (h : E.Agrees R t) :
    R.WellFormed t (emptyVector E.attributeLength) where
  firstValue := by simp [emptyVector, h.length]
  numvalues := by simp [emptyVector]
  substates := by simp [emptyVector]
  firstval := rfl
  header := .inr rfl

theorem Emitter.mem_vectors (h : v ∈ E.vectors lva ws) : ∃ l, ∃ g ∈ ws, v = E.vector l g := by
  induction ws generalizing lva with
  | nil => simp [Emitter.vectors] at h
  | cons g ws ih =>
    rcases mem_cons.mp h with rfl | h
    · exact ⟨lva, g, mem_cons_self, rfl⟩
    · obtain ⟨l, g', hg', rfl⟩ := ih h
      exact ⟨l, g', mem_cons_of_mem _ hg', rfl⟩

theorem Emitter.Agrees.accepts (h : E.Agrees R t) (hws : ∀ g ∈ ws, g.Valid)
    (hlen : ∀ g ∈ ws, g.members.length < 8192) (hsub : ∀ g ∈ ws, E.Declarable R t g)
    (hnull : R.skipsNull = true ∨ ws ≠ []) :
    ∀ msg ∈ E.sent emptyLeaveAll lva ws, R.Accepts t msg := by
  intro msg hmsg
  have haccept : ∀ vs : List VectorAttribute, msg ∈ E.messageOf vs →
      (∀ v ∈ vs, R.WellFormed t v ∧ (R.skipsNull = true ∨ v.events ≠ [])) → R.Accepts t msg := by
    intro vs hm hvs
    cases vs with
    | nil => cases hm
    | cons v vs =>
      rw [Emitter.messageOf, mem_singleton] at hm
      subst hm
      exact ⟨h.type, h.length.symm, h.length ▸ h.length_pos, h.length ▸ h.length_lt, by simp, hvs⟩
  refine haccept _ hmsg ?_
  cases ws with
  | nil =>
    have hs : R.skipsNull = true := hnull.resolve_right (by simp)
    intro v hv
    simp only [Emitter.sentVectors] at hv
    split at hv
    · rw [mem_singleton] at hv
      exact ⟨hv ▸ h.wellFormed_empty, .inl hs⟩
    · cases hv
  | cons g gs =>
    intro v hv
    obtain ⟨l, g', hg', rfl⟩ := Emitter.mem_vectors hv
    exact ⟨h.wellFormed (hws g' hg') (hlen g' hg') (hsub g' hg'),
      .inr (Emitter.events_ne_nil (hws g' hg'))⟩

def eventRaises (src : List UInt8) (events : List (Numbered ν)) : List (Raised τ ν) :=
  events.map fun e => .attribute e.event.received (received src e.value)

theorem raises_append (src : List UInt8) (xs ys : List (Parsed τ ν)) :
    raises src (xs ++ ys) = raises src xs ++ raises src ys := by
  simp [raises]

theorem eventsOf_vector (lva : Bool) (g : Group ν) :
    eventsOf R t (E.vector lva g) = eventsOf R t (E.vector false g) := rfl

/-- From the locals `c` on, the receiver counts through `ms`; `view` is a value as it takes it. -/
def Reception.Counts (R : Reception τ κ ν) (view : ν → Option ν) : κ → List (Attribute ν) → Prop
  | _, [] => True
  | c, a :: rest => (R.take c).1 = view a.value ∧ R.Counts view (R.take c).2 rest

def Attribute.raised (view : ν → Option ν) (src : List UInt8) (a : Attribute ν) :
    Option (Raised τ ν) :=
  (view a.value).bind fun v => a.event.map fun e =>
    .attribute e.received (OpenAvb.Mrpd.received src v)

variable {view : ν → Option ν}

theorem eventRaises_decode (hc : R.Counts view c ms) (hvalid : ∀ a ∈ ms, a.event.isSome) :
    eventRaises src (decodeDigits R c k ((ms.filterMap Attribute.event).map
        AttributeEvent.code)).1 =
      (ms.filterMap (Attribute.raised view src) : List (Raised τ ν)) := by
  induction ms generalizing c k with
  | nil => rfl
  | cons a ms ih =>
    simp only [mem_cons, forall_eq_or_imp] at hvalid
    obtain ⟨e, he⟩ := Option.isSome_iff_exists.mp hvalid.1
    have hrest := ih hc.2 hvalid.2 (k := k + 1)
    simp only [filterMap_cons_some he, map_cons, decodeDigits, hc.1, AttributeEvent.ofCode_code]
    cases hv : view a.value with
    | none =>
      rw [filterMap_cons_none (by simp [Attribute.raised, hv])]
      exact hrest
    | some v =>
      rw [filterMap_cons_some (by simp [Attribute.raised, hv, he]; rfl), ← hrest]
      rfl

variable [DecidableEq τ]

theorem Reception.fresh_of_not_mem (h : t ∉ saw) : R.fresh t saw l = l := by
  simp [Reception.fresh, h]

theorem raises_vectors_false (saw : List τ) (p : Nat) (ws : List (Group ν)) :
    raises src (parseVectors R t saw p (E.vectors false ws)).1 =
      (ws.flatMap fun g => eventRaises src (eventsOf R t (E.vector false g))) ∧
    (parseVectors R t saw p (E.vectors false ws)).2 = saw := by
  induction ws generalizing p with
  | nil => simp [Emitter.vectors, parseVectors, raises]
  | cons g gs ih =>
    obtain ⟨h1, h2⟩ := ih (p + (E.vector false g).octets.length)
    have hf : R.fresh t saw (E.vector false g).leaveAll = false := by
      simp [Reception.fresh, Emitter.vector]
    have hs : R.sawAfter t saw (E.vector false g).leaveAll = saw := by simp [Reception.sawAfter, hf]
    simp only [Emitter.vectors, parseVectors, hs, h2, and_true]
    rw [raises, flatMap_cons, ← raises, h1, flatMap_cons]
    simp [Parsed.raises, hf, eventRaises]

theorem raises_sentVectors (hfresh : t ∉ saw) (hlva : ws = [] → emptyLeaveAll = lva) :
    raises src (parseVectors R t saw p (E.sentVectors emptyLeaveAll lva ws)).1 =
      (if lva then [.leaveAll t] else []) ++
        ws.flatMap fun g => eventRaises src (eventsOf R t (E.vector false g)) := by
  cases ws with
  | nil =>
    obtain rfl := hlva rfl
    cases emptyLeaveAll with
    | false => simp [Emitter.sentVectors, parseVectors, raises]
    | true =>
      simp [Emitter.sentVectors, parseVectors, raises, Parsed.raises,
        Reception.fresh_of_not_mem hfresh, emptyVector, eventsOf, decodeDigits]
  | cons g gs =>
    have hf : R.fresh t saw (E.vector lva g).leaveAll = lva := Reception.fresh_of_not_mem hfresh
    simp only [Emitter.sentVectors, Emitter.vectors, parseVectors, hf, eventsOf_vector]
    rw [raises, flatMap_cons, ← raises, (raises_vectors_false _ _ gs).1]
    simp only [Parsed.raises, append_assoc, flatMap_cons, eventRaises]

theorem parseVectors_saw (h : u ∈ (parseVectors R t saw p vs).2) : u = t ∨ u ∈ saw := by
  induction vs generalizing saw p with
  | nil => exact .inr h
  | cons v vs ih =>
    rcases ih h with rfl | h
    · exact .inl rfl
    · simp only [Reception.sawAfter] at h
      split at h
      · exact mem_cons.mp h
      · exact .inr h

def Emitter.Counted (E : Emitter ν) (R : Reception τ κ ν) (t : τ) (view : ν → Option ν)
    (g : Group ν) : Prop :=
  R.Counts view (R.firstval t (E.firstValue g.head.value)
    (g.members.flatMap fun a => E.declares a.value)) g.members

theorem raises_sent (ha : E.Agrees R t) (hfresh : t ∉ saw) (hlva : ws = [] → emptyLeaveAll = lva)
    (hws : ∀ g ∈ ws, g.Valid) (hc : ∀ g ∈ ws, E.Counted R t view g) (p : Nat) (ms : List Message) :
    ∃ saw' p', (∀ u ∈ saw', u = t ∨ u ∈ saw) ∧
      raises src (parseMessages R saw p (E.sent emptyLeaveAll lva ws ++ ms)).1 =
        (if lva then [.leaveAll t] else []) ++
          (ws.flatMap Group.members).filterMap (Attribute.raised view src) ++
          raises src (parseMessages R saw' p' ms).1 := by
  have hevents : (ws.flatMap fun g => eventRaises src (eventsOf R t (E.vector false g))) =
      ((ws.flatMap Group.members).filterMap (Attribute.raised view src) : List (Raised τ ν)) := by
    rw [filterMap_flatMap]
    exact flatMap_congr fun g hg => eventRaises_decode (hc g hg) (hws g hg)
  have hraises : raises src
      (parseVectors R t saw (p + R.dataOffset) (E.sentVectors emptyLeaveAll lva ws)).1 = _ :=
    raises_sentVectors hfresh hlva
  rw [hevents] at hraises
  simp only [Emitter.sent]
  generalize E.sentVectors emptyLeaveAll lva ws = vs at hraises
  cases vs with
  | nil =>
    refine ⟨saw, p, fun u hu => .inr hu, ?_⟩
    rw [← hraises]
    rfl
  | cons v vs =>
    refine ⟨(parseVectors R t saw (p + R.dataOffset) (v :: vs)).2,
      p + ((Message.mk E.attributeType E.attributeLength (v :: vs)).octets R.listLength).length,
      fun u hu => parseVectors_saw hu, ?_⟩
    simp only [Emitter.messageOf, cons_append, nil_append, parseMessages, ha.type]
    rw [raises_append, hraises]

structure Emitter.Readable (E : Emitter ν) (R : Reception τ κ ν) (t : τ) (view : ν → Option ν)
    (g : Group ν) : Prop where
  valid : g.Valid
  declarable : E.Declarable R t g
  counted : E.Counted R t view g

def typeRaises (view : ν → Option ν) (src : List UInt8) (lva : Bool) (t : τ)
    (as : List (Attribute ν)) : List (Raised τ ν) :=
  (if lva then [.leaveAll t] else []) ++ as.filterMap (Attribute.raised view src)

theorem raises_sents {E : τ → Emitter ν} {ws : τ → List (Group ν)}
    (ha : ∀ t, (E t).Agrees R t) (hws : ∀ t, ∀ g ∈ ws t, (E t).Readable R t view g)
    (hlva : ∀ t, ws t = [] → emptyLeaveAll = lva) {ts : List τ} (hts : ts.Nodup)
    (hfresh : ∀ t ∈ ts, t ∉ saw) (p : Nat) : raises src (parseMessages R saw p
        (ts.flatMap fun t => (E t).sent emptyLeaveAll lva (ws t))).1 =
      ts.flatMap fun t => typeRaises view src lva t ((ws t).flatMap Group.members) := by
  induction ts generalizing saw p with
  | nil => rfl
  | cons t ts ih =>
    obtain ⟨hnew, hts⟩ := nodup_cons.mp hts
    simp only [mem_cons, forall_eq_or_imp] at hfresh
    obtain ⟨saw', p', hsaw, hraises⟩ := raises_sent (ha t) hfresh.1 (hlva t)
      (fun g hg => (hws t g hg).valid) (fun g hg => (hws t g hg).counted) p
      (ts.flatMap fun t => (E t).sent emptyLeaveAll lva (ws t))
    rw [flatMap_cons, hraises, ih hts, flatMap_cons]
    · rfl
    · intro u hu hmem
      rcases hsaw u hmem with rfl | hmem
      · exact hnew hu
      · exact hfresh.2 u hu hmem

omit [DecidableEq τ] in
theorem Emitter.octets_emptyLeaveAll (E : Emitter ν) : messageOctets false (E.sent true lva []) =
      E.attributeType :: UInt8.ofNat E.attributeLength :: 0x20 :: 0 ::
        (List.replicate E.attributeLength 0 ++ [0, 0]) := by
  have hheader : be16 (vectorHeader true 0) = [0x20, 0] := rfl
  simp [Emitter.sent, Emitter.sentVectors, Emitter.messageOf, emptyVector, messageOctets,
    Message.octets, vectorOctets, VectorAttribute.octets, hheader, pack3, pack4]

/-- An empty LeaveAll counts, but its vector ends the walk of a receiver that does not skip it. -/
theorem recvMsg_emptyLeaveAll (ha : E.Agrees R t) (hnull : R.skipsNull = false)
    (hlist : R.listLength = false) (hms : ∀ msg ∈ ms, ∃ t, R.Accepts t msg)
    (hfresh : t ∉ (parseMessages R [] 15 ms).2) (hd : dest.length = 6) (station : Octets 6)
    (lva : Bool) (he : etype < 65536) (hframe : frame = ethHeader dest station.val etype version ++
      (messageOctets false (ms ++ E.sent true lva []) ++ [0, 0]))
    (hsize : frame.length ≤ maxFrameSize) :
    recvMsg R etype dest (recvBuffer frame rest) frame.length = ((parseMessages R [] 15 ms).1 ++
        [⟨t, 15 + (messageOctets false ms).length + 2, 0, true, []⟩], .failed) := by
  have hmax : maxFrameSize = 2000 := rfl
  rw [messageOctets_append, E.octets_emptyLeaveAll] at hframe
  obtain ⟨hwalk, hst, hlen⟩ : recvMsg R etype dest (recvBuffer frame rest) frame.length = _ ∧ _ :=
    recvMsg_header hd station he hframe (by simp only [length_append, length_cons]; omega)
  rw [hwalk]
  generalize recvBuffer frame rest = m at hst
  simp only [length_append, length_cons, length_replicate, length_nil] at hlen
  rw [append_assoc, stands_append] at hst
  obtain ⟨hfirst, hlast⟩ := hst
  obtain ⟨n, e, he, hsteps⟩ : ∃ n e, e ≤ 1 ∧ Steps (recvStep R m frame.length) n
      ⟨15, .messages 0, []⟩ _ ⟨_, .messages e, _⟩ :=
    recvMessages_steps hms (by rw [hlist]; exact hfirst) (by omega) (by rw [hlist]; omega)
      (by omega)
  rw [hlist] at hsteps
  generalize (parseMessages R [] 15 ms).2 = saw at hfresh hsteps
  generalize hp : 15 + (messageOctets false ms).length = p at hlast hsteps ⊢
  simp only [cons_append, stands_cons] at hlast
  obtain ⟨htype, hlength, hflag, hzero, -⟩ := hlast
  have hpos := ha.length_pos
  have hlt := ha.length_lt
  have hlengthNat : (m (p + 1)).toNat = E.attributeLength := by
    rw [hlength, UInt8.toNat_ofNat']
    exact Nat.mod_eq_of_lt hlt
  have henter : recvStep R m frame.length ⟨p, .messages e, saw⟩ =
      ([], .inl ⟨p + 2, .vectors t, saw⟩) := by
    have hmark : ¬ (m p = 0 ∧ m (p + 1) = 0) := by
      rintro ⟨-, hz⟩
      rw [hz] at hlengthNat
      exact absurd hlengthNat.symm (Nat.ne_of_gt hpos)
    simp only [recvStep, recvMessage]
    rw [if_neg (by omega), if_neg hmark, htype, ha.type]
    simp [hlengthNat, ha.length, hlist]
  have hhalt : recvStep R m frame.length ⟨p + 2, .vectors t, saw⟩ =
      ([⟨t, p + 2, 0, true, []⟩], .inr .failed) := by
    have hword : word m (p + 2) = 8192 := by simp [word, hflag, hzero]
    simp [recvStep, recvVector, hflag, numvaluesAt, lvaAt, hword, hfresh, hnull]
  have hn := (hsteps.trans (.one henter)).measure_le RecvState.measure
    fun _ _ _ h => recvStep_measure h
  simp only [RecvState.measure] at hn
  rw [recvStart, (hsteps.trans (.one henter)).walk_halt hhalt (by simp only [recvFuel]; omega),
    append_nil]

def inStates (applicant : ApplicantState) (registrar : RegistrarState) (value : ν) :
    Attribute ν :=
  { alloc value with
    applicant := { (alloc value).applicant with mrpState := applicant }
    registrar := { (alloc value).registrar with mrpState := registrar } }

def Applicant.JustStepped (event : MrpEvent) (a : Applicant) : Prop :=
  ∃ p2pmac before registrarIsIn, mrpApplicantFsm p2pmac before event registrarIsIn = some a

theorem Applicant.JustStepped.stepApplicant (a : Attribute ν) (p2pmac : Bool)
    (he : event = .tx ∨ event = .txla) : (a.stepApplicant p2pmac event).applicant.JustStepped event := by
  refine ⟨p2pmac, a.applicant, mrpRegistrarIn a.registrar, ?_⟩
  rcases he with rfl | rfl <;> rfl

theorem Applicant.JustStepped.sends {a : Applicant} (h : a.JustStepped event)
    (he : event = .tx ∨ event = .txla) : a.tx = true ∧ ∀ isIn, (eventOf a.sndmsg isIn).isSome := by
  obtain ⟨p2pmac, ⟨s, tx, msg, enc, prev⟩, registrarIsIn, h⟩ := h
  rcases he with rfl | rfl
  all_goals
    simp only [mrpApplicantFsm, applicantTransition, Option.map_some, Option.some.injEq] at h
    rw [← h]
    cases s <;> exact ⟨rfl, fun _ => rfl⟩

theorem Applicant.JustStepped.event_isSome {a : Attribute ν}
    (h : a.applicant.JustStepped event) (he : event = .tx ∨ event = .txla) : a.event.isSome :=
  (h.sends he).2 _

theorem Applicant.JustStepped.tx {a : Applicant} (h : a.JustStepped event)
    (he : event = .tx ∨ event = .txla) : a.tx = true := (h.sends he).1

/-- A database whose applicants have just taken TX or TXLA, `lva` being the LeaveAll flag. -/
def afterTx (event : MrpEvent) (lva : Bool) (l : List (Attribute ν)) : Database ν where
  mrpDb := { (emptyDatabase : Database ν).mrpDb with lva := ⟨false, lva, .sndNone⟩ }
  attribList := l.map (Attribute.stepApplicant true event)
  sendEmptyLeaveAll := lva

def sampleStation : Octets 6 := ⟨[0x02, 0, 0, 0, 0, 0x01], rfl⟩

theorem Sequence.groups_valid (q : Sequence ν) (h : ∀ a ∈ l, a.event.isSome) :
    ∀ g ∈ q.groups 0 l, g.Valid := by
  intro g hg a ha
  exact h a ((q.members_sublist hg).subset ha)

end OpenAvb.Mrpd
