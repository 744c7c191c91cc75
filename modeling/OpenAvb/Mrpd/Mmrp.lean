import OpenAvb.Mrpd.RoundTrip

/-!
# MMRP

Registration of MAC addresses and of service requirements. The emitter for MAC
addresses repeats the LeaveAll flag on every vector, takes the registrar of a joined
attribute from the head of its vector and keeps a whole vector free; the one for
service requirements leaves an octet out between FirstValue and events.
-/

namespace OpenAvb.Mrpd

def mmrpEtype : Nat := 0x88F6
def mmrpAddr : List UInt8 := [0x01, 0x80, 0xC2, 0x00, 0x00, 0x20]
def mmrpProtVer : UInt8 := 0
def mmrpSvcreqType : UInt8 := 1
def mmrpMacvecType : UInt8 := 2

inductive MmrpType where
  | svcreq | macvec
  deriving DecidableEq

inductive MmrpValue where
  | svcreq (svcreq : UInt8)
  | macvec (macaddr : Octets 6)
  deriving DecidableEq

def MmrpValue.type : MmrpValue → MmrpType
  | .svcreq _ => .svcreq
  | .macvec _ => .macvec

def mmrpLookup (rattrib attrib : MmrpValue) : Bool := attrib = rattrib

def mmrpBelow : MmrpValue → MmrpValue → Bool
  | .svcreq a, .svcreq b => a < b
  | .macvec a, .macvec b => a.val < b.val
  | _, _ => false

def mmrpAdd : Attribute MmrpValue → List (Attribute MmrpValue) → List (Attribute MmrpValue) :=
  addGrouped (fun r a => r.type = a.type) mmrpBelow

def mmrpMerge (rattrib attrib : Attribute MmrpValue) : Attribute MmrpValue :=
  { attrib with registrar := { attrib.registrar with macaddr := rattrib.registrar.macaddr } }

def mmrpIncrementMacaddr (macaddr : Octets 6) : Octets 6 := macaddr.bumpTail

def macEmitter : Emitter MmrpValue where
  selects v := v.type = .macvec
  next
    | .macvec a => .macvec (mmrpIncrementMacaddr a)
    | v => v
  continues expected v := v = expected
  attributeType := mmrpMacvecType
  attributeLength := 6
  listLength := false
  vectorSize := 11
  firstValue
    | .macvec a => a.val
    | .svcreq _ => List.replicate 6 0
  length_firstValue := fun v => by
    cases v with
    | svcreq => rfl
    | macvec a => exact a.property
  fourPacked := false
  substate _ := 0

/-- The event of an attribute that joins the vector of `head`, by the head's registrar. -/
def macJoinedEvent (head a : Attribute MmrpValue) : Option AttributeEvent :=
  match a.applicant.sndmsg with
  | .sndJoin => eventOf .sndJoin (mrpRegistrarIn head.registrar)
  | msg => eventOf msg (mrpRegistrarIn a.registrar)

def macEmitVector (eof : Nat) (lva : Bool) (stores : Stores) (vectorptr : Nat)
    (a : Attribute MmrpValue) (rest : List (Attribute MmrpValue)) : Flow VectorState :=
  let stores := put stores (vectorptr + 2) (macEmitter.firstValue a.value)
  match a.event with
  | none => .oops stores 0
  | some e =>
    let v : VectorState :=
      { stores := stores, vectidx := vectorptr + 2 + 6, vectevt := [e]
        listenDeclare := [], numvalues := 1 }
    match lookAhead macEmitter.toSequence eof 11 (macJoinedEvent a) macEmitter.declares v
        a.value rest with
    | .oops stores joined => .oops stores joined
    | .ok v => finishVector eof lva vectorptr v

def macWriter (eof : Nat) : Writer MmrpValue where
  selects := macEmitter.selects
  vectorSize := 11
  keepsLva := true
  write := macEmitVector eof

def mmrpEmitMacvectors (lva : Bool) (stores : Stores) (msgbuf : Nat)
    (attribs : List (Attribute MmrpValue)) : Emission MmrpValue :=
  emitWith macEmitter (macWriter maxFrameSize) maxFrameSize false lva stores msgbuf attribs

/-- The array `vectevt`, which is not initialised. -/
abbrev Slots := Nat × Nat × Nat

def Slots.set (x : Slots) (i v : Nat) : Slots :=
  match i with
  | 0 => (v, x.2.1, x.2.2)
  | 1 => (x.1, v, x.2.2)
  | _ => (x.1, x.2.1, v)

def Slots.pack (x : Slots) : UInt8 := threePack x.1 x.2.1 x.2.2

/-- The locals of `mmrp_emit_svcvectors` while it builds a vector. -/
structure SvcVector where
  stores : Stores
  vectidx : Nat
  vectevt : Slots
  (vectevtIdx numvalues : Nat)

def SvcVector.push (v : SvcVector) (e : AttributeEvent) : SvcVector :=
  let vectevt := v.vectevt.set v.vectevtIdx e.code
  if 2 < v.vectevtIdx + 1 then
    { stores := put v.stores v.vectidx [vectevt.pack], vectidx := v.vectidx + 1
      vectevt := (0, 0, 0), vectevtIdx := 0, numvalues := v.numvalues + 1 }
  else
    { v with vectevt := vectevt, vectevtIdx := v.vectevtIdx + 1, numvalues := v.numvalues + 1 }

def svcEmitter : Emitter MmrpValue where
  selects v := v.type = .svcreq
  next
    | .svcreq s => .svcreq (s + 1)
    | v => v
  continues expected v := v = expected
  attributeType := mmrpSvcreqType
  attributeLength := 1
  listLength := false
  vectorSize := 6
  firstValue
    | .svcreq s => [s]
    | .macvec _ => [0]
  length_firstValue := fun v => by cases v <;> rfl
  fourPacked := false
  substate _ := 0

def svcLookAhead (eof : Nat) (v : SvcVector) (firstval : MmrpValue) :
    List (Attribute MmrpValue) → Flow SvcVector
  | [] => .ok v
  | a :: rest =>
    if !(svcEmitter.selects a.value && a.applicant.tx) then .ok v
    else if !svcEmitter.continues (svcEmitter.next firstval) a.value then .ok v
    else match a.event with
      | none => .oops v.stores v.numvalues
      | some e =>
        let v := v.push e
        if eof < v.vectidx + 2 then .oops v.stores (v.numvalues - 1)
        else svcLookAhead eof v (svcEmitter.next firstval) rest

def svcEmitVector (eof : Nat) (lva : Bool) (stores : Stores) (vectorptr : Nat) (vectevt : Slots)
    (a : Attribute MmrpValue) (rest : List (Attribute MmrpValue)) : Flow SvcVector :=
  let stores := put stores (vectorptr + 2) (svcEmitter.firstValue a.value)
  match a.event with
  | none => .oops stores 0
  | some e =>
    -- the events start at index 2, one octet behind where FirstValue ends
    let v : SvcVector :=
      { stores := stores, vectidx := vectorptr + 2 + 2, vectevt := vectevt.set 0 e.code
        vectevtIdx := 1, numvalues := 1 }
    match svcLookAhead eof v a.value rest with
    | .oops stores joined => .oops stores joined
    | .ok v =>
      let v :=
        if 0 < v.vectevtIdx then
          { v with stores := put v.stores v.vectidx [v.vectevt.pack], vectidx := v.vectidx + 1 }
        else v
      if eof < v.vectidx + 2 then .oops v.stores (v.numvalues - 1)
      else .ok { v with stores := put v.stores vectorptr (be16 (vectorHeader lva v.numvalues)) }

/-- The loop of `mmrp_emit_svcvectors`; `vectevt` lives from vector to vector. -/
def svcLoop (eof : Nat) (c : Cursor) (vectevt : Slots) :
    (joined : Nat) → List (Attribute MmrpValue) → Except Stores Cursor × List (Attribute MmrpValue)
  | _, [] => (.ok c, [])
  | joined, a :: rest =>
    if eof ≤ c.msgPtr + 6 + 2 then (.ok c, clearTxs joined (a :: rest))
    else match joined with
      | joined + 1 =>
        let (r, rest) := svcLoop eof c vectevt joined rest
        (r, a.clearTx :: rest)
      | 0 =>
        if !(svcEmitter.selects a.value && a.applicant.tx) then
          let (r, rest) := svcLoop eof c vectevt 0 rest
          (r, a :: rest)
        else if a.applicant.encode = .optional then
          let (r, rest) := svcLoop eof c vectevt 0 rest
          (r, a.clearTx :: rest)
        else match svcEmitVector eof c.lva c.stores c.vectorptr vectevt a rest with
          | .oops stores joined => (.error stores, a.clearTx :: clearTxs joined rest)
          | .ok v =>
            let c : Cursor :=
              { stores := v.stores, msgPtr := v.vectidx, vectorptr := v.vectidx, found := true
                lva := false }
            let (r, rest) := svcLoop eof c v.vectevt (v.numvalues - 1) rest
            (r, a.clearTx :: rest)

def mmrpEmitSvcvectors (vectevt : Slots) (sendEmptyLeaveAll lva : Bool) (stores : Stores)
    (msgbuf : Nat) (attribs : List (Attribute MmrpValue)) : Emission MmrpValue :=
  if maxFrameSize < msgbuf + 6 then ⟨stores, attribs, none⟩
  else
    let start : Cursor :=
      { stores := put stores msgbuf [mmrpSvcreqType, 1]
        msgPtr := msgbuf, vectorptr := msgbuf + 2, found := false, lva := lva }
    match svcLoop maxFrameSize start vectevt 0 attribs with
    | (.error stores, attribs) => ⟨stores, attribs, none⟩
    | (.ok c, attribs) =>
      let (stores, used) :=
        closeMessage svcEmitter msgbuf (emitEmptyLeaveAll svcEmitter sendEmptyLeaveAll c)
      ⟨stores, attribs, some used⟩

/-- `mmrp_txpdu`; `vectevt` is what the array of the second emitter holds at first. -/
def mmrpTxpdu (station : Octets 6) (vectevt : Slots) (db : Database MmrpValue) :
    Transmission MmrpValue :=
  let stores := openPdu mmrpAddr station mmrpEtype mmrpProtVer
  let lva := db.mrpDb.lva.tx
  let mac := mmrpEmitMacvectors lva stores messageList db.attribList
  match mac.bytesUsed with
  | none => ⟨mac.stores, mac.attribs, none⟩
  | some bytes =>
    let ptr := messageList + bytes
    if maxFrameSize ≤ ptr + 2 then ⟨mac.stores, mac.attribs, none⟩
    else
      let svc := mmrpEmitSvcvectors vectevt db.sendEmptyLeaveAll lva mac.stores ptr mac.attribs
      match svc.bytesUsed with
      | none => ⟨svc.stores, svc.attribs, none⟩
      | some bytes =>
        let (stores, frame) := closePdu svc.stores (ptr + bytes)
        ⟨stores, svc.attribs, frame⟩

/-- The locals of the receiver: the next value. Service requirements above 1 are junk. -/
def mmrpTake : MmrpValue → Option MmrpValue × MmrpValue
  | .svcreq s => if 1 < s then (none, .svcreq s) else (some (.svcreq s), .svcreq (s + 1))
  | .macvec a => (some (.macvec a), .macvec (mmrpIncrementMacaddr a))

def mmrpReception : Reception MmrpType MmrpValue MmrpValue where
  typeOf b :=
    if b = mmrpSvcreqType then some .svcreq
    else if b = mmrpMacvecType then some .macvec else none
  attributeLength
    | .svcreq => 1
    | .macvec => 6
  listLength := false
  fourPacked _ := false
  skipsNull := false
  skipsUnknown _ := false
  lvaOnce t := t = .svcreq
  discards := false
  firstval
    | .svcreq, first, _ => .svcreq (first.headD 0)
    | .macvec, first, _ => .macvec (Octets.ofList 6 first)
  take := mmrpTake

def mmrpRecvMsg (data : List UInt8) (rest : Mem) : List (Parsed MmrpType MmrpValue) × Rc :=
  recvMsg mmrpReception mmrpEtype mmrpAddr (recvBuffer data rest) data.length

def mmrpApplication (station : Octets 6) (vectevt : Slots) : Application MmrpType MmrpValue where
  typeOf := MmrpValue.type
  lookup := mmrpLookup
  add := mmrpAdd
  merge _ := mmrpMerge
  reclaims := false
  periodic := true
  interested _ _ := true
  txpdu db :=
    let tx := mmrpTxpdu station vectevt db
    ({ db with
        attribList := tx.attribs
        mrpDb := { db.mrpDb with lva := { db.mrpDb.lva with tx := false } } }, tx.frame)

def mmrpEvent (station : Octets 6) (vectevt : Slots) (p2pmac : Bool)
    (call : Call MmrpType MmrpValue) (db : Database MmrpValue) : Outcome MmrpValue :=
  mrpEvent (mmrpApplication station vectevt) p2pmac call db

/-! ## MMRP PDUs, sent and received -/

open List

theorem macEmitVector_take : macEmitVector eof lva s vp a rest =
    macEmitVector eof lva s vp a (rest.take (macEmitter.run a.value rest)) := by
  simp only [macEmitVector]
  cases a.event with
  | none => rfl
  | some e => simp only [← lookAhead_take]

theorem macWriter_follows : (macWriter eof).Follows macEmitter.toSequence where
  selects := rfl
  take _ _ _ _ _ := macEmitVector_take
  numvalues lva s vp a rest v h := by
    have hrun := macEmitter.isRun_take a rest
    have hle : macEmitter.run a.value rest ≤ rest.length := macEmitter.run_le
    replace h : macEmitVector eof lva s vp a (rest.take (macEmitter.run a.value rest)) = .ok v :=
      macEmitVector_take.symm.trans h
    generalize hjoined : rest.take (macEmitter.run a.value rest) = joined at h hrun
    have hlen : joined.length = macEmitter.run a.value rest := by simp [← hjoined, hle]
    rw [← hlen]
    cases he : a.event with
    | none => simp [macEmitVector, he] at h
    | some e =>
      simp only [macEmitVector, he, first_eq_after] at h
      split at h
      · cases h
      · rename_i v' hv'
        obtain ⟨hsome, -, rfl⟩ := (lookAhead_after_ok hrun).mp hv'
        obtain ⟨-, -, rfl⟩ := finishVector_ok.mp h
        simp [length_filterMap hsome, add_comm]

/-- The members of a group that are sent as joining agree on whether they are registered. -/
def JoinsAgree (g : Group MmrpValue) : Prop :=
  ∀ a ∈ g.joined, a.applicant.sndmsg = .sndJoin →
    mrpRegistrarIn a.registrar = mrpRegistrarIn g.head.registrar

instance (g : Group MmrpValue) : Decidable (JoinsAgree g) :=
  inferInstanceAs (Decidable (∀ _ ∈ _, _ → _))

theorem JoinsAgree.event (h : JoinsAgree g) : ∀ a ∈ g.joined, macJoinedEvent g.head a = a.event := by
  intro a ha
  simp only [macJoinedEvent, Attribute.event]
  cases hm : a.applicant.sndmsg with
  | sndJoin => rw [h a ha hm]
  | _ => rfl

theorem macWriter_writes (hrun : macEmitter.IsRun g) (hvalid : g.Valid) (hj : JoinsAgree g) :
    (macWriter eof).Writes macEmitter eof 11 g := by
  intro lva s vp hroom
  obtain ⟨e, he⟩ := Option.isSome_iff_exists.mp (hvalid g.head mem_cons_self)
  have hevent : g.joined.filterMap (macJoinedEvent g.head) = g.joined.filterMap Attribute.event :=
    filterMap_congr hj.event
  have hjoined : ∀ a ∈ g.joined, a.event.isSome := fun a ha =>
    hvalid a (mem_cons_of_mem _ ha)
  simp only [Emitter.span, Group.members, length_cons] at hroom
  have hok : emitVector macEmitter eof lva s vp g.head g.joined =
      .ok (macEmitter.written lva s vp g) :=
    (emitVector_ok macEmitter hrun).mpr
      ⟨hvalid, ⟨by simp only [Emitter.span, Group.members, length_cons]; omega,
        by simp [macEmitter]⟩, rfl⟩
  rw [← hok]
  show macEmitVector eof lva s vp g.head g.joined = _
  simp only [macEmitVector, emitVector, he, first_eq_after]
  have hlook : ∀ margin event v, lookAhead macEmitter.toSequence eof margin event
      macEmitter.declares (.after (put s (vp + 2) (macEmitter.firstValue g.head.value))
        (vp + 2 + 6) [e] []) g.head.value g.joined = .ok v ↔ _ :=
    fun _ _ _ => lookAhead_after_ok hrun
  have hlen : 6 + (1 + g.joined.length) / 3 ≤
      macEmitter.attributeLength + (g.joined.length + 1 + 2) / 3 := by
    simp only [macEmitter]
    omega
  have hmac := (hlook 11 (macJoinedEvent g.head) _).mpr
    ⟨fun a ha => by rw [hj.event a ha]; exact hjoined a ha, .inr (by simp; omega), rfl⟩
  have hgen := (hlook 2 Attribute.event _).mpr
    ⟨hjoined, .inr (by simp; omega), rfl⟩
  rw [hevent] at hmac
  have hds : macEmitter.declares g.head.value = [] := rfl
  have hL : macEmitter.attributeLength = 6 := rfl
  simp only [hds, hL, hmac, hgen]

theorem svcLoop_idle (h : ∀ a ∈ l, svcEmitter.starts a = false) :
    (svcLoop eof c vectevt 0 l).1 = .ok c := by
  induction l with
  | nil => rfl
  | cons a rest ih =>
    simp only [mem_cons, forall_eq_or_imp] at h
    simp only [svcLoop]
    split
    · rfl
    · by_cases hs : (svcEmitter.selects a.value && a.applicant.tx) = true
      · have he : a.applicant.encode = .optional := by
          cases he : a.applicant.encode with
          | optional => rfl
          | yes =>
            have := h.1
            simp only [Sequence.starts, hs, he, decide_true, Bool.and_true,
              Bool.true_eq_false] at this
        simp only [hs, he, Bool.not_true, Bool.false_eq_true, if_false, if_true]
        exact ih h.2
      · simp only [hs, Bool.not_false, if_true]
        exact ih h.2

theorem mmrpEmitSvcvectors_of_ok (hroom : p + 6 ≤ maxFrameSize)
    (h : svcLoop maxFrameSize (svcEmitter.start lva s p) vectevt 0 l = (.ok c, l')) :
    let close := closeMessage svcEmitter p (emitEmptyLeaveAll svcEmitter empty c)
    mmrpEmitSvcvectors vectevt empty lva s p l = ⟨close.1, l', some close.2⟩ := by
  have hstart : svcLoop maxFrameSize
      { stores := put s p [mmrpSvcreqType, 1], msgPtr := p, vectorptr := p + 2
        found := false, lva := lva } vectevt 0 l = (.ok c, l') := h
  unfold mmrpEmitSvcvectors
  rw [if_neg (Nat.not_lt.mpr hroom)]
  simp only [hstart]

theorem mmrpEmitSvcvectors_idle (vectevt : Slots) (empty lva : Bool)
    (hclean : ∀ i, p + 2 ≤ i → look s i = 0) (hroom : p + 6 ≤ maxFrameSize)
    (h : ∀ a ∈ l, svcEmitter.starts a = false) :
    (mmrpEmitSvcvectors vectevt empty lva s p l).bytesUsed =
        some (messageOctets false (svcEmitter.sent empty lva [])).length ∧
      svcEmitter.Left s (mmrpEmitSvcvectors vectevt empty lva s p l).stores p
        (svcEmitter.sent empty lva []) := by
  have hclose := svcEmitter.closeMessage_wrote [] empty lva lva hclean (by simp)
  have hloop : (svcLoop maxFrameSize (svcEmitter.start lva s p) vectevt 0 l).1 = _ := svcLoop_idle h
  rcases hr : svcLoop maxFrameSize (svcEmitter.start lva s p) vectevt 0 l with ⟨r, l'⟩
  rw [hr] at hloop
  subst hloop
  rw [mmrpEmitSvcvectors_of_ok hroom hr]
  exact ⟨congrArg some hclose.1, hclose.2⟩

def mmrpMessages (db : Database MmrpValue) : List Message :=
  macEmitter.sent false db.mrpDb.lva.tx (macEmitter.groups 0 db.attribList) ++
    svcEmitter.sent db.sendEmptyLeaveAll db.mrpDb.lva.tx []

/-- The encoding fits a frame, with the room the emitter of MAC vectors keeps. -/
def MmrpFits (db : Database MmrpValue) : Prop :=
  messageList + (messageOctets false (mmrpMessages db)).length + 9 ≤ maxFrameSize

instance (db : Database MmrpValue) : Decidable (MmrpFits db) := inferInstanceAs (Decidable (_ ≤ _))

structure MacRegular (db : Database MmrpValue) : Prop where
  lva : db.mrpDb.lva.tx = false ∨ (macEmitter.groups 0 db.attribList).length ≤ 1
  joins : ∀ g ∈ macEmitter.groups 0 db.attribList, JoinsAgree g
  idle : ∀ a ∈ db.attribList, svcEmitter.starts a = false

theorem mmrpEmitMacvectors_fits (h : Building false header s messageList ms) (hreg : MacRegular db)
    (hevents : ∀ a ∈ db.attribList, a.event.isSome)
    (hfit : messageList + (messageOctets false (macEmitter.sent false db.mrpDb.lva.tx
      (macEmitter.groups 0 db.attribList))).length + 9 ≤ maxFrameSize) :
    let em := mmrpEmitMacvectors db.mrpDb.lva.tx s messageList db.attribList
    let sent := macEmitter.sent false db.mrpDb.lva.tx (macEmitter.groups 0 db.attribList)
    em.bytesUsed = some (messageOctets false sent).length ∧
      Building false header em.stores (messageList + (messageOctets false sent).length)
        (ms ++ sent) := by
  intro em sent
  have hvalid := macEmitter.groups_valid hevents
  have hmax : maxFrameSize = 2000 := rfl
  have hloop : (emitLoop (macWriter maxFrameSize) maxFrameSize
      (macEmitter.start db.mrpDb.lva.tx s messageList) 0 db.attribList).1 = _ :=
    emitLoop_fst macWriter_follows
  obtain ⟨l, hl⟩ : ∃ l, emitGroups (macWriter maxFrameSize) maxFrameSize
      (macEmitter.start db.mrpDb.lva.tx s messageList) (macEmitter.groups 0 db.attribList) =
        .ok { macEmitter.wrote (macEmitter.start db.mrpDb.lva.tx s messageList)
          (macEmitter.groups 0 db.attribList) with lva := l } := by
    refine emitGroups_fits macEmitter
      (fun g hg => macWriter_writes (macEmitter.mem_groups hg).1 (hvalid g hg) (hreg.joins g hg))
      (.inr hreg.lva) (Nat.le_add_right _ _) (by decide) ?_
    have hlen : (vectorOctets (macEmitter.vectors db.mrpDb.lva.tx
        (macEmitter.groups 0 db.attribList))).length = _ := macEmitter.length_vectors hvalid
    rw [← hlen]
    generalize macEmitter.groups 0 db.attribList = gs at hfit
    cases gs with
    | nil => simp [Emitter.vectors, Emitter.start, messageList, Emitter.dataOffset, hmax, macEmitter]
    | cons g gs =>
      have hsent : (messageOctets false (macEmitter.sent false db.mrpDb.lva.tx (g :: gs))).length =
        _ := macEmitter.length_sent
      rw [hsent] at hfit
      simp only [Emitter.start]
      omega
  obtain ⟨hused, hleft⟩ := emitWith_wrote macEmitter false h.clear
    (by decide) hvalid (hloop.trans hl)
  exact ⟨hused, h.extend hleft⟩

theorem mmrpTxpdu_frame (station : Octets 6) (vectevt : Slots) (hreg : MacRegular db)
    (hfits : MmrpFits db) (hevents : ∀ a ∈ db.attribList, a.event.isSome) :
    (mmrpTxpdu station vectevt db).frame = if mmrpMessages db = [] then none
      else some (ethHeader mmrpAddr station.val mmrpEtype mmrpProtVer ++
        (messageOctets false (mmrpMessages db) ++ [0, 0])) := by
  have hdest : mmrpAddr.length = 6 := rfl
  have hlen := hfits
  simp only [MmrpFits, mmrpMessages, messageOctets_append, length_append] at hlen
  obtain ⟨hused, hbuild⟩ := mmrpEmitMacvectors_fits
    (building_open false hdest station mmrpEtype mmrpProtVer) hreg hevents (by omega)
  -- the second emitter sees the list with some flags cleared
  have hcleared : List.Forall₂ TxCleared db.attribList (mmrpEmitMacvectors db.mrpDb.lva.tx
      (openPdu mmrpAddr station mmrpEtype mmrpProtVer) messageList db.attribList).attribs :=
    emitWith_txCleared macEmitter _
  obtain ⟨hused', hleft⟩ := mmrpEmitSvcvectors_idle vectevt db.sendEmptyLeaveAll db.mrpDb.lva.tx
    hbuild.clear (by omega) (starts_txCleared svcEmitter.toSequence hcleared hreg.idle)
  have hclose := (hbuild.extend hleft).close (length_ethHeader hdest station)
  simp only [mmrpTxpdu, hused, hused']
  rw [if_neg (by omega)]
  refine hclose.trans (if_congr (or_iff_left ?_) rfl rfl)
  show ¬ maxFrameSize ≤ messageList + _ + (messageOctets false _).length + 2
  omega

theorem mac_agrees : macEmitter.Agrees mmrpReception .macvec where
  type := rfl
  length := rfl
  length_pos := by decide
  length_lt := by decide
  listLength := rfl
  fourPacked := rfl

theorem mac_counts (hrun : macEmitter.run (.macvec x) rest = rest.length) :
    mmrpReception.Counts some (.macvec (mmrpIncrementMacaddr x)) rest := by
  induction rest generalizing x with
  | nil => trivial
  | cons b rest ih =>
    obtain ⟨⟨-, -, hb⟩, hr⟩ := macEmitter.run_cons_eq hrun
    have hbv : b.value = .macvec (mmrpIncrementMacaddr x) := by simpa [macEmitter] using hb
    rw [Reception.Counts, hbv]
    exact ⟨rfl, ih hr⟩

theorem mac_counted (hg : g ∈ macEmitter.groups 0 l) :
    macEmitter.Counted mmrpReception .macvec some g := by
  obtain ⟨hrun, hstarts⟩ := macEmitter.mem_groups hg
  have hsel : g.head.value.type = .macvec := by
    simp only [Sequence.starts, Bool.and_eq_true] at hstarts
    simpa [macEmitter] using hstarts.1.1
  obtain ⟨x, hx⟩ : ∃ x, g.head.value = .macvec x := by
    cases hv : g.head.value with
    | svcreq => simp [hv, MmrpValue.type] at hsel
    | macvec x => exact ⟨x, rfl⟩
  rw [Sequence.IsRun, hx] at hrun
  simp only [Emitter.Counted, Group.members, Reception.Counts, hx]
  refine ⟨?_, ?_⟩
  · simp [mmrpReception, macEmitter, mmrpTake]
  · simpa [mmrpReception, macEmitter, mmrpTake] using mac_counts hrun

def MmrpBuilt (l : List (Attribute MmrpValue)) : Prop :=
  ∃ as : List (Attribute MmrpValue), (as.map Attribute.value).Nodup ∧
    l = as.foldl (fun l a => mmrpAdd a l) []

theorem MmrpBuilt.nodup (h : MmrpBuilt l) : (l.map Attribute.value).Nodup := by
  obtain ⟨as, hn, rfl⟩ := h
  refine ((foldl_addGrouped_perm _ _ as []).map Attribute.value).nodup_iff.mpr ?_
  rwa [append_nil]

/-- MMRP PDUs without a LeaveAll and without service requirements are read back as they were meant,
if the members of a vector that are sent as joining agree on whether they are registered. -/
theorem mmrpRecvMsg_mmrpTxpdu (station : Octets 6) (vectevt : Slots) (rest : Mem)
    (db : Database MmrpValue) (event : MrpEvent) (he : event = .tx ∨ event = .txla)
    (hbuilt : MmrpBuilt db.attribList) (hstep : ∀ a ∈ db.attribList, a.applicant.JustStepped event)
    (hlva : db.mrpDb.lva.tx = false ∧ db.sendEmptyLeaveAll = false)
    (hsvc : ∀ a ∈ db.attribList, svcEmitter.starts a = false)
    (hjoins : ∀ g ∈ macEmitter.groups 0 db.attribList, JoinsAgree g)
    (hmust : ∃ a ∈ db.attribList, macEmitter.starts a = true) (hfits : MmrpFits db) :
    let carried := macEmitter.carried none db.attribList
    (carried.map Attribute.value).Nodup ∧ (∀ a ∈ carried, a.event.isSome) ∧
    ∃ frame, (mmrpTxpdu station vectevt db).frame = some frame ∧
      (mmrpRecvMsg frame rest).2 = .ok ∧
      raises (sourceAddr frame) (mmrpRecvMsg frame rest).1 =
        carried.filterMap (Attribute.raised some station.val) := by
  have hevents : ∀ a ∈ db.attribList, a.event.isSome := fun a ha => (hstep a ha).event_isSome he
  have hcarried : (macEmitter.carried none db.attribList).Sublist _ := macEmitter.carried_sublist
  have hvalid := macEmitter.groups_valid hevents
  obtain ⟨a, ha, hs⟩ := hmust
  have hgroups : macEmitter.groups 0 db.attribList ≠ [] := macEmitter.groups_ne_nil ha hs
  have hmsgs : mmrpMessages db =
      macEmitter.sent false false (macEmitter.groups 0 db.attribList) := by
    simp [mmrpMessages, hlva, Emitter.sent, Emitter.sentVectors, Emitter.messageOf]
  have hne : mmrpMessages db ≠ [] := fun h =>
    hgroups (macEmitter.sent_eq_nil.mp (hmsgs.symm.trans h)).1
  have hframe := mmrpTxpdu_frame station vectevt ⟨.inl hlva.1, hjoins, hsvc⟩ hfits hevents
  rw [if_neg hne] at hframe
  refine ⟨hbuilt.nodup.sublist (hcarried.map _), fun a ha => hevents a (hcarried.subset ha), _,
    hframe, ?_⟩
  rw [sourceAddr_ethHeader rfl]
  generalize hf : ethHeader mmrpAddr station.val mmrpEtype mmrpProtVer ++
    (messageOctets false (mmrpMessages db) ++ [0, 0]) = frame
  have hlen : frame.length = 15 + ((messageOctets false (mmrpMessages db)).length + 2) := by
    rw [← hf, length_append, length_ethHeader rfl station, length_append]
    rfl
  simp only [MmrpFits, messageList] at hfits
  have hsize : (messageOctets macEmitter.listLength (macEmitter.sent false false
      (macEmitter.groups 0 db.attribList))).length ≤ maxFrameSize := by
    rw [← hmsgs]
    simp only [macEmitter]
    omega
  have hacc : ∀ msg ∈ mmrpMessages db, ∃ t, mmrpReception.Accepts t msg := by
    intro msg hmsg
    rw [hmsgs] at hmsg
    exact ⟨.macvec, mac_agrees.accepts hvalid (fun g hg => macEmitter.members_lt hvalid hg hsize)
      (fun g _ => Emitter.declarable_of_lt (fun h => by cases h)) (.inr hgroups) msg hmsg⟩
  have hrecv : mmrpRecvMsg frame rest = _ :=
    recvMsg_frame hacc rfl station (by decide) hf.symm (by omega)
  obtain ⟨saw, p, -, hraises⟩ := raises_sent mac_agrees (not_mem_nil)
    (fun h => absurd h hgroups) hvalid (fun g hg => mac_counted hg) 15 []
  rw [hrecv, hmsgs]
  rw [append_nil] at hraises
  refine ⟨rfl, hraises.trans ?_⟩
  simp [parseMessages, raises, (macEmitter.carried_eq _).1]

def sampleMac (x : UInt8) : MmrpValue := .macvec ⟨[0x91, 0xE0, 0xF0, 0, 0, x], rfl⟩

/-- Three MAC addresses after TXLA: the second one, which is only offered, is carried. -/
theorem mmrpRecvMsg_mmrpTxpdu_three :
    let db := afterTx .txla false [inStates .aa .mtState (sampleMac 1),
      inStates .vo .inState (sampleMac 2), inStates .an .inState (sampleMac 7)]
    ∃ frame, (mmrpTxpdu sampleStation (0, 0, 0) db).frame = some frame ∧
      (mmrpRecvMsg frame cleared).2 = .ok ∧
      raises (sourceAddr frame) (mmrpRecvMsg frame cleared).1 =
        [.attribute .rjoinmt (received sampleStation.val (sampleMac 1)),
          .attribute .rin (received sampleStation.val (sampleMac 2)),
          .attribute .rnew (received sampleStation.val (sampleMac 7))] := by
  intro db
  refine (mmrpRecvMsg_mmrpTxpdu sampleStation (0, 0, 0) cleared db .txla (.inr rfl)
    ⟨db.attribList.reverse, by decide, by decide⟩ ?_ ⟨rfl, rfl⟩ (by decide) (by decide)
    (by decide) (by decide +kernel)).2.2
  intro a ha
  obtain ⟨b, -, rfl⟩ := mem_map.mp ha
  exact .stepApplicant b true (.inr rfl)

def mmrpEcho (db : Database MmrpValue) : Option (List (Raised MmrpType MmrpValue) × Rc) :=
  (mmrpTxpdu sampleStation (0, 0, 0) db).frame.map fun frame =>
    (raises (sourceAddr frame) (mmrpRecvMsg frame cleared).1, (mmrpRecvMsg frame cleared).2)

/-- A MAC address that is only offered is not sent; a joined address is sent as JoinMt although its
registrar is IN, a service requirement comes back as New and a LeaveAll, and a LeaveAll is raised
for every MAC vector. -/
theorem mmrpTxpdu_offers :
    let offered := afterTx .tx false
      [inStates .aa .mtState (sampleMac 1), inStates .qa .mtState (sampleMac 5)]
    let joined := afterTx .tx false
      [inStates .aa .mtState (sampleMac 1), inStates .aa .inState (sampleMac 2)]
    let required := afterTx .tx false [inStates .aa .inState (MmrpValue.svcreq 0)]
    let flagged := afterTx .txla true
      [inStates .aa .mtState (sampleMac 1), inStates .aa .mtState (sampleMac 5)]
    ((∀ a ∈ offered.attribList, a.applicant.tx = true ∧ a.applicant.JustStepped .tx) ∧
      MmrpBuilt offered.attribList ∧ MmrpFits offered ∧ mmrpEcho offered =
        some ([.attribute .rjoinmt (received sampleStation.val (sampleMac 1))], .ok)) ∧
    mmrpEcho joined =
      some ([.attribute .rjoinmt (received sampleStation.val (sampleMac 1)),
        .attribute .rjoinmt (received sampleStation.val (sampleMac 2))], .ok) ∧
    mmrpEcho required =
      some ([.attribute .rnew (received sampleStation.val (.svcreq 0)), .leaveAll .svcreq],
        .failed) ∧
    mmrpEcho flagged =
      some ([.leaveAll .macvec, .attribute .rjoinmt (received sampleStation.val (sampleMac 1)),
        .leaveAll .macvec, .attribute .rjoinmt (received sampleStation.val (sampleMac 5)),
        .leaveAll .svcreq], .failed) := by
  intro offered joined required flagged
  refine ⟨⟨fun a ha => ⟨?_, ?_⟩, ⟨offered.attribList.reverse, by decide, by decide⟩,
    by decide +kernel, by decide +kernel⟩, by decide +kernel, by decide +kernel, by decide +kernel⟩
  · revert a
    decide
  · obtain ⟨b, -, rfl⟩ := mem_map.mp ha
    exact .stepApplicant b true (.inl rfl)

end OpenAvb.Mrpd
