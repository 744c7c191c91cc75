import OpenAvb.Mrpd.RoundTrip

/-!
# MVRP

VLAN registration: one attribute type, whose value is a VID.
-/

namespace OpenAvb.Mrpd

def mvrpEtype : Nat := 0x88F5
def mvrpCustomerBridgeAddr : List UInt8 := [0x01, 0x80, 0xC2, 0x00, 0x00, 0x21]
def mvrpProtVer : UInt8 := 0
def mvrpVidType : UInt8 := 1

def mvrpLookup (rattrib attrib : UInt16) : Bool := attrib = rattrib

def mvrpAdd : Attribute UInt16 → List (Attribute UInt16) → List (Attribute UInt16) :=
  addGrouped (fun _ _ => true) (fun attrib rattrib => attrib < rattrib)

def mvrpMerge (rattrib attrib : Attribute UInt16) : Attribute UInt16 :=
  { attrib with registrar := { attrib.registrar with macaddr := rattrib.registrar.macaddr } }

def vidEmitter : Emitter UInt16 where
  selects _ := true
  next v := v + 1
  continues expected v := v = expected
  attributeType := mvrpVidType
  attributeLength := 2
  listLength := false
  vectorSize := 6
  firstValue v := be16 v.toNat
  length_firstValue _ := rfl
  fourPacked := false
  substate _ := 0

def mvrpEmitVidvectors (sendEmptyLeaveAll lva : Bool) (stores : Stores) (msgbuf : Nat)
    (attribs : List (Attribute UInt16)) : Emission UInt16 :=
  emitVectors vidEmitter maxFrameSize sendEmptyLeaveAll lva stores msgbuf attribs

def mvrpTxpdu (station : Octets 6) (db : Database UInt16) : Transmission UInt16 :=
  let stores := openPdu mvrpCustomerBridgeAddr station mvrpEtype mvrpProtVer
  let em := mvrpEmitVidvectors db.sendEmptyLeaveAll db.mrpDb.lva.tx stores messageList
    db.attribList
  match em.bytesUsed with
  | none => ⟨em.stores, em.attribs, none⟩
  | some bytes =>
    let (stores, frame) := closePdu em.stores (messageList + bytes)
    ⟨stores, em.attribs, frame⟩

def mvrpReception : Reception Unit UInt16 UInt16 where
  typeOf b := if b = mvrpVidType then some () else none
  attributeLength _ := 2
  listLength := false
  fourPacked _ := false
  skipsNull := false
  skipsUnknown version := version != mvrpProtVer
  lvaOnce _ := true
  discards := false
  firstval _ first _ := UInt16.ofNat (number first)
  take vid := if 0xFFF < vid then (none, vid) else (some vid, vid + 1)

def mvrpRecvMsg (data : List UInt8) (rest : Mem) : List (Parsed Unit UInt16) × Rc :=
  recvMsg mvrpReception mvrpEtype mvrpCustomerBridgeAddr (recvBuffer data rest) data.length

def mvrpApplication (station : Octets 6) : Application Unit UInt16 where
  typeOf _ := ()
  lookup := mvrpLookup
  add := mvrpAdd
  merge _ := mvrpMerge
  reclaims := true
  periodic := true
  interested _ _ := true
  txpdu db :=
    let tx := mvrpTxpdu station db
    ({ db with
        attribList := tx.attribs
        mrpDb := { db.mrpDb with lva := { db.mrpDb.lva with tx := false } } }, tx.frame)

def mvrpEvent (station : Octets 6) (p2pmac : Bool) (call : Call Unit UInt16)
    (db : Database UInt16) : Outcome UInt16 :=
  mrpEvent (mvrpApplication station) p2pmac call db

/-! ## MVRP PDUs, sent and received -/

open List

def VidSorted (l : List (Attribute UInt16)) : Prop := l.Pairwise fun a b => a.value < b.value

instance : Decidable (VidSorted l) := inferInstanceAs (Decidable (l.Pairwise _))

theorem mvrpAdd_cons (r a : Attribute UInt16) (rest : List (Attribute UInt16)) :
    mvrpAdd r (a :: rest) = if a.value < r.value then a :: mvrpAdd r rest else r :: a :: rest := by
  simp only [mvrpAdd, addGrouped, if_true]
  by_cases h : a.value < r.value
  · cases rest <;> simp [h, addGrouped]
  · simp [h]

theorem mem_mvrpAdd : x ∈ mvrpAdd r l ↔ x = r ∨ x ∈ l := by
  induction l with
  | nil => simp [mvrpAdd, addGrouped]
  | cons a rest ih =>
    rw [mvrpAdd_cons]
    split
    · simp only [mem_cons, ih]
      exact or_left_comm
    · simp

theorem mvrpAdd_sorted (h : VidSorted l) (hr : ∀ a ∈ l, a.value ≠ r.value) :
    VidSorted (mvrpAdd r l) := by
  induction l with
  | nil => simp [mvrpAdd, addGrouped, VidSorted]
  | cons a rest ih =>
    simp only [VidSorted, pairwise_cons] at h
    simp only [mem_cons, forall_eq_or_imp] at hr
    rw [mvrpAdd_cons]
    split
    case isTrue hlt =>
      refine pairwise_cons.mpr ⟨fun b hb => ?_, ih h.2 hr.2⟩
      rcases mem_mvrpAdd.mp hb with rfl | hb
      · exact hlt
      · exact h.1 b hb
    case isFalse hlt =>
      have hra : r.value < a.value := by
        rcases UInt16.lt_or_lt_of_ne hr.1 with h' | h'
        · exact absurd h' hlt
        · exact h'
      refine pairwise_cons.mpr ⟨fun b hb => ?_, pairwise_cons.mpr h⟩
      rcases mem_cons.mp hb with rfl | hb
      · exact hra
      · exact UInt16.lt_trans hra (h.1 b hb)

def MvrpBuilt (l : List (Attribute UInt16)) : Prop :=
  ∃ as : List (Attribute UInt16), (as.map Attribute.value).Nodup ∧
    l = as.foldl (fun l a => mvrpAdd a l) []

theorem MvrpBuilt.sorted (h : MvrpBuilt l) : VidSorted l := by
  obtain ⟨as, hn, rfl⟩ := h
  have build : ∀ (as l : List (Attribute UInt16)), VidSorted l → (as.map Attribute.value).Nodup →
      (∀ a ∈ as, ∀ b ∈ l, b.value ≠ a.value) →
      VidSorted (as.foldl (fun l a => mvrpAdd a l) l) := by
    intro as
    induction as with
    | nil => intro l hl _ _; exact hl
    | cons a as ih =>
      intro l hl hn hnew
      simp only [map_cons, nodup_cons, mem_map, not_exists, not_and] at hn
      simp only [mem_cons, forall_eq_or_imp] at hnew
      refine ih _ (mvrpAdd_sorted hl hnew.1) hn.2 fun b hb c hc => ?_
      rcases mem_mvrpAdd.mp hc with rfl | hc
      · exact fun he => hn.1 b hb he.symm
      · exact hnew.2 b hb c hc
  exact build as [] List.Pairwise.nil hn (by simp)

theorem VidSorted.built (h : VidSorted l) : MvrpBuilt l := by
  refine ⟨l.reverse, ?_, ?_⟩
  · rw [map_reverse, List.Nodup, pairwise_reverse]
    exact (pairwise_map.mpr h).imp fun hlt => (UInt16.ne_of_lt hlt).symm
  · rw [foldl_reverse]
    induction l with
    | nil => rfl
    | cons a rest ih =>
      have h' := pairwise_cons.mp h
      rw [foldr_cons, ← ih h'.2]
      cases rest with
      | nil => rfl
      | cons b rest => rw [mvrpAdd_cons, if_neg (UInt16.lt_asymm (h'.1 b mem_cons_self))]

theorem vid_agrees : vidEmitter.Agrees mvrpReception () where
  type := rfl
  length := rfl
  length_pos := by decide
  length_lt := by decide
  listLength := rfl
  fourPacked := rfl

def vidView (v : UInt16) : Option UInt16 := if v ≤ 0xFFF then some v else none

theorem mvrp_counts_junk (hc : 0xFFF < c) (hms : ∀ a ∈ ms, 0xFFF < a.value) :
    mvrpReception.Counts vidView c ms := by
  induction ms with
  | nil => trivial
  | cons a ms ih =>
    simp only [mem_cons, forall_eq_or_imp] at hms
    have htake : mvrpReception.take c = (none, c) := by simp [mvrpReception, hc]
    have hview : vidView a.value = none := by simp [vidView, UInt16.not_le.mpr hms.1]
    simp only [Reception.Counts, htake, hview, true_and]
    exact ih hms.2

theorem mvrp_counts (hsort : VidSorted (a :: rest))
    (hrun : vidEmitter.run a.value rest = rest.length) :
    mvrpReception.Counts vidView a.value (a :: rest) := by
  induction rest generalizing a with
  | nil =>
    refine ⟨?_, trivial⟩
    by_cases hj : 0xFFF < a.value
    · simp [mvrpReception, vidView, hj, UInt16.not_le.mpr hj]
    · simp [mvrpReception, vidView, hj, UInt16.not_lt.mp hj]
  | cons b rest ih =>
    obtain ⟨⟨-, -, hb⟩, hr⟩ := vidEmitter.run_cons_eq hrun
    have hbv : b.value = a.value + 1 := by simpa [vidEmitter] using hb
    rw [show vidEmitter.next a.value = b.value from hbv.symm] at hr
    have hsort' := pairwise_cons.mp hsort
    by_cases hj : 0xFFF < a.value
    · refine mvrp_counts_junk hj fun x hx => ?_
      rcases mem_cons.mp hx with rfl | hx
      · exact hj
      · exact UInt16.lt_trans hj (hsort'.1 x hx)
    · have htake : mvrpReception.take a.value = (some a.value, b.value) := by
        simp [mvrpReception, hj, hbv]
      have hview : vidView a.value = some a.value := by simp [vidView, UInt16.not_lt.mp hj]
      rw [Reception.Counts, htake, hview]
      exact ⟨rfl, ih hsort'.2 hr⟩

theorem vid_counted (hsort : VidSorted l) (hg : g ∈ vidEmitter.groups 0 l) :
    vidEmitter.Counted mvrpReception () vidView g := by
  have hfirst : mvrpReception.firstval () (vidEmitter.firstValue g.head.value)
      (g.members.flatMap fun a => vidEmitter.declares a.value) = g.head.value := by
    have hlt := g.head.value.toNat_lt
    refine UInt16.toNat_inj.mp ?_
    simp [mvrpReception, vidEmitter, be16, number]
    omega
  rw [Emitter.Counted, hfirst]
  exact mvrp_counts (hsort.sublist (vidEmitter.members_sublist hg)) (vidEmitter.mem_groups hg).1

def mvrpMessages (db : Database UInt16) : List Message :=
  vidEmitter.sent db.sendEmptyLeaveAll db.mrpDb.lva.tx (vidEmitter.groups 0 db.attribList)

def MvrpFits (db : Database UInt16) : Prop :=
  messageList + (messageOctets false (mvrpMessages db)).length + 2 < maxFrameSize

instance (db : Database UInt16) : Decidable (MvrpFits db) := inferInstanceAs (Decidable (_ < _))

theorem mvrpTxpdu_frame (station : Octets 6) (hfits : MvrpFits db)
    (hevents : ∀ a ∈ db.attribList, a.event.isSome) : (mvrpTxpdu station db).frame =
      if mvrpMessages db = [] then none
      else some (ethHeader mvrpCustomerBridgeAddr station.val mvrpEtype mvrpProtVer ++
        (messageOctets false (mvrpMessages db) ++ [0, 0])) := by
  have hdest : mvrpCustomerBridgeAddr.length = 6 := rfl
  have hopen := building_open vidEmitter.listLength hdest station mvrpEtype mvrpProtVer
  obtain ⟨hused, hbuild⟩ := hopen.emit_fits db.sendEmptyLeaveAll db.mrpDb.lva.tx (by decide)
    (vidEmitter.groups_valid hevents) (by decide) (le_of_lt hfits)
  simp only [mvrpTxpdu, mvrpEmitVidvectors, hused]
  refine (hbuild.close (length_ethHeader hdest station)).trans ?_
  exact if_congr (or_iff_left (Nat.not_le.mpr hfits)) rfl rfl

theorem mvrpRecvMsg_empty (station : Octets 6)
    (hframe : frame = ethHeader mvrpCustomerBridgeAddr station.val mvrpEtype mvrpProtVer ++
      (messageOctets false (vidEmitter.sent true lva []) ++ [0, 0])) :
    mvrpRecvMsg frame rest = ([⟨(), 17, 0, true, []⟩], .failed) := by
  have hsize : frame.length ≤ maxFrameSize := by
    rw [hframe, length_append, length_ethHeader rfl station, vidEmitter.octets_emptyLeaveAll]
    decide
  have hrecv : mvrpRecvMsg frame rest =
      ((parseMessages mvrpReception [] 15 []).1 ++
        [⟨(), 15 + (messageOctets false []).length + 2, 0, true, []⟩], .failed) :=
    recvMsg_emptyLeaveAll vid_agrees rfl rfl nofun not_mem_nil rfl station lva (by decide)
      hframe hsize
  exact hrecv

theorem mvrpRecvMsg_frame (station : Octets 6) (hfits : MvrpFits db)
    (hsort : VidSorted db.attribList) (hevents : ∀ a ∈ db.attribList, a.event.isSome)
    (hlva : db.sendEmptyLeaveAll = db.mrpDb.lva.tx)
    (hframe : (mvrpTxpdu station db).frame = some frame) (src : List UInt8) (rest : Mem) :
    raises src (mvrpRecvMsg frame rest).1 = (if db.mrpDb.lva.tx then [.leaveAll ()] else []) ++
          (vidEmitter.carried none db.attribList).filterMap (Attribute.raised vidView src) ∧
      ((mvrpRecvMsg frame rest).2 = .ok ↔ vidEmitter.groups 0 db.attribList ≠ []) := by
  have hvalid := vidEmitter.groups_valid hevents
  rw [mvrpTxpdu_frame station hfits hevents] at hframe
  rw [(vidEmitter.carried_eq _).1]
  split at hframe
  case isTrue => cases hframe
  case isFalse hne =>
    have hframe := (Option.some.inj hframe).symm
    simp only [MvrpFits] at hfits
    by_cases hg : vidEmitter.groups 0 db.attribList = []
    · have hflag : db.mrpDb.lva.tx = true := by
        by_contra hf
        exact hne (vidEmitter.sent_eq_nil.mpr ⟨hg, by simpa [hlva] using hf⟩)
      simp only [mvrpMessages, hg, hlva, hflag] at hframe
      simp [mvrpRecvMsg_empty station hframe, raises, Parsed.raises, hflag, hg]
    · have hsize : (messageOctets vidEmitter.listLength (mvrpMessages db)).length ≤
          maxFrameSize := by
        simp only [vidEmitter]
        omega
      have hacc : ∀ msg ∈ mvrpMessages db, mvrpReception.Accepts () msg :=
        vid_agrees.accepts hvalid (fun g hg => vidEmitter.members_lt hvalid hg hsize)
          (fun g _ => Emitter.declarable_of_lt (fun h => by cases h)) (.inr hg)
      have hlen : frame.length = 15 + ((messageOctets false (mvrpMessages db)).length + 2) := by
        rw [hframe, length_append, length_ethHeader rfl station, length_append]
        rfl
      have hrecv : mvrpRecvMsg frame rest = _ :=
        recvMsg_frame (fun msg hm => ⟨(), hacc msg hm⟩) rfl station (by decide) hframe
          (by rw [hlen, ← add_assoc]; exact le_of_lt hfits)
      obtain ⟨saw, p, -, hraises⟩ := raises_sent vid_agrees (not_mem_nil) (fun _ => hlva) hvalid
        (fun g hg => vid_counted hsort hg) 15 []
      rw [append_nil] at hraises
      simp only [hrecv, hg, not_false_eq_true, ne_eq, and_true]
      refine hraises.trans ?_
      simp [parseMessages, raises]

theorem vidView_carried (hvid : ∀ a ∈ l, a.value ≤ 0xFFF) :
    (vidEmitter.carried none l).filterMap (Attribute.raised vidView src) =
      ((vidEmitter.carried none l).filterMap (Attribute.raised some src) :
        List (Raised Unit UInt16)) := by
  refine filterMap_congr fun a ha => ?_
  simp [Attribute.raised, vidView, hvid a (vidEmitter.carried_sublist.subset ha)]

/-- MVRP PDUs are read back as they were meant: a LeaveAll if one was flagged, then, by increasing
VID, the own event of every VID that must be sent or that continues a vector. -/
theorem mvrpRecvMsg_mvrpTxpdu (station : Octets 6) (rest : Mem) (db : Database UInt16)
    (event : MrpEvent) (he : event = .tx ∨ event = .txla) (hbuilt : MvrpBuilt db.attribList)
    (hvid : ∀ a ∈ db.attribList, a.value ≤ 0xFFF)
    (hstep : ∀ a ∈ db.attribList, a.applicant.JustStepped event)
    (hlva : db.sendEmptyLeaveAll = db.mrpDb.lva.tx)
    (hmust : ∃ a ∈ db.attribList, a.applicant.tx = true ∧ a.applicant.encode = .yes)
    (hfits : MvrpFits db) :
    let carried := vidEmitter.carried none db.attribList
    VidSorted carried ∧ (∀ a ∈ carried, a.event.isSome) ∧
    ∃ frame, (mvrpTxpdu station db).frame = some frame ∧ (mvrpRecvMsg frame rest).2 = .ok ∧
      raises (sourceAddr frame) (mvrpRecvMsg frame rest).1 =
        (if db.mrpDb.lva.tx then [.leaveAll ()] else []) ++
          carried.filterMap (Attribute.raised some station.val) := by
  have hevents : ∀ a ∈ db.attribList, a.event.isSome := fun a ha => (hstep a ha).event_isSome he
  have hcarried : (vidEmitter.carried none db.attribList).Sublist _ := vidEmitter.carried_sublist
  have hgroups : vidEmitter.groups 0 db.attribList ≠ [] := by
    obtain ⟨a, ha, htx, hyes⟩ := hmust
    exact vidEmitter.groups_ne_nil ha (by simp [Sequence.starts, vidEmitter, htx, hyes])
  have hmsgs : mvrpMessages db ≠ [] := fun h => hgroups (vidEmitter.sent_eq_nil.mp h).1
  have hframe := mvrpTxpdu_frame station hfits hevents
  rw [if_neg hmsgs] at hframe
  refine ⟨hbuilt.sorted.sublist hcarried, fun a ha => hevents a (hcarried.subset ha), _, hframe, ?_⟩
  rw [sourceAddr_ethHeader rfl]
  obtain ⟨hraises, hrc⟩ :=
    mvrpRecvMsg_frame station hfits hbuilt.sorted hevents hlva hframe station.val rest
  exact ⟨hrc.mpr hgroups, hraises.trans (by rw [vidView_carried hvid])⟩

/-- Three VIDs in a row after TXLA: the middle one, which is only offered, is carried. -/
theorem mvrpRecvMsg_mvrpTxpdu_three :
    let db := afterTx .txla true
      [inStates .aa .mtState 5, inStates .vo .inState 6, inStates .an .inState 7]
    ∃ frame, (mvrpTxpdu sampleStation db).frame = some frame ∧
      (mvrpRecvMsg frame cleared).2 = .ok ∧
      raises (sourceAddr frame) (mvrpRecvMsg frame cleared).1 =
        [.leaveAll (), .attribute .rjoinmt (received sampleStation.val 5),
          .attribute .rin (received sampleStation.val 6),
          .attribute .rnew (received sampleStation.val 7)] := by
  refine (mvrpRecvMsg_mvrpTxpdu sampleStation cleared _ .txla (.inr rfl) ?_ ?_ ?_ rfl ?_ ?_).2.2
  · exact VidSorted.built (by decide)
  · decide
  · intro a ha
    obtain ⟨b, -, rfl⟩ := mem_map.mp ha
    exact .stepApplicant b true (.inr rfl)
  · decide
  · decide +kernel

/-- A VID that is only offered is not sent; and the LeaveAll of an empty database is sent, but not
accepted. -/
theorem mvrpTxpdu_offers :
    let db := afterTx .tx false [inStates .aa .mtState 1, inStates .qa .mtState 5]
    (MvrpBuilt db.attribList ∧ MvrpFits db ∧
      (∀ a ∈ db.attribList, a.applicant.JustStepped .tx ∧ a.applicant.tx = true) ∧
      (mvrpTxpdu sampleStation db).frame.map
          (fun frame => raises (sourceAddr frame) (mvrpRecvMsg frame cleared).1) =
        some [.attribute .rjoinmt (received sampleStation.val 1)]) ∧
    (mvrpTxpdu sampleStation (afterTx .txla true [])).frame.map
        (fun frame => (mvrpRecvMsg frame cleared).2) = some .failed := by
  refine ⟨⟨VidSorted.built (by decide), by decide +kernel, ?_, by decide +kernel⟩, by decide +kernel⟩
  intro a ha
  refine ⟨?_, by revert a; decide⟩
  obtain ⟨b, -, rfl⟩ := mem_map.mp ha
  exact .stepApplicant b true (.inl rfl)

end OpenAvb.Mrpd
