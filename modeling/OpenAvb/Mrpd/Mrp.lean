import OpenAvb.Layout

/-!
# The MRP state machines

The per-attribute applicant and registrar machines and the LeaveAll timer
machine that the MSRP, MVRP and MMRP applications share. An event a machine
does not expect gives `none` and leaves its record as it was.
-/

namespace OpenAvb.Mrpd

inductive ApplicantState where
  | vo | vp | vn | an | aa | qa | la | ao | qo | ap | qp | lo
  deriving DecidableEq

inductive RegistrarState where
  | inState | lvState | mtState
  deriving DecidableEq

inductive MrpEvent where
  | begin | new | join | lv | tx | txla | txlaf
  | rnew | rjoinin | rin | rjoinmt | rmt | rlv | rla
  | flush | redeclare | periodic | periodicEnable | periodicDisable
  | lvtimer | lvatimer
  deriving DecidableEq

inductive SndMsg where
  | sndNew | sndJoin | sndIn | sndLv | sndLva | sndNull | sndNone
  deriving DecidableEq

inductive Notify where
  | none | new | join | lv
  deriving DecidableEq

inductive Encode where
  | yes | optional
  deriving DecidableEq

/-- `mrp_applicant_attribute_t`; the previous state is `none` until the first step. -/
structure Applicant where
  mrpState : ApplicantState
  tx : Bool
  sndmsg : SndMsg
  encode : Encode
  mrpPreviousState : Option ApplicantState
  deriving DecidableEq

/-- `mrp_registrar_attribute_t`: state, pending notification, address last registered from. -/
structure Registrar where
  mrpState : RegistrarState
  notify : Notify
  macaddr : List UInt8
  deriving DecidableEq

structure LvaTimer where
  (active tx : Bool)
  sndmsg : SndMsg

/-- `struct mrp_database` without its clients. Starting a timer is taken to succeed. -/
structure MrpDatabase where
  lva : LvaTimer
  (joinTimerRunning lvTimerRunning lvaTimerRunning : Bool)

/-- The locals of `mrp_applicant_fsm` that its switch assigns. -/
structure Transition where
  mrpState : ApplicantState
  tx : Bool := false
  optional : Bool := false
  sndmsg : SndMsg := .sndNull

def Transition.send (msg : SndMsg) (next : ApplicantState) : Transition :=
  { mrpState := next, tx := true, sndmsg := msg }

def Transition.offer (msg : SndMsg) (next : ApplicantState) : Transition :=
  { mrpState := next, tx := true, optional := true, sndmsg := msg }

def Transition.quiet (next : ApplicantState) : Transition := { mrpState := next }

def txTransition (registrarIsIn : Bool) : ApplicantState → Transition
  | .vo => .offer .sndIn .vo
  | .vp => .send .sndJoin .aa
  | .vn => .send .sndNew .an
  -- Note 8 for tx! in Table 10-3 of IEEE 802.1Q-2011
  | .an => .send .sndNew (if registrarIsIn then .qa else .aa)
  | .ap | .aa => .send .sndJoin .qa
  | .qa => .offer .sndJoin .qa
  | .la => .send .sndLv .vo
  | .ao => .offer .sndIn .ao
  | .qo => .offer .sndIn .qo
  | .qp => .offer .sndIn .qp
  | .lo => .send .sndIn .vo

def txlaTransition : ApplicantState → Transition
  | .vo => .offer .sndIn .lo
  | .vp => .send .sndIn .aa
  | .vn => .send .sndNew .an
  | .an => .send .sndNew .qa
  | .qp | .ap | .aa | .qa => .send .sndJoin .qa
  | .la | .ao | .qo => .offer .sndIn .lo
  | .lo => .offer .sndIn .vo

def txlafState : ApplicantState → ApplicantState
  | .vo => .lo
  | .an => .vn
  | .qp | .ap | .aa | .qa => .vp
  | .qo | .ao | .la => .lo
  | s => s

def newState : ApplicantState → ApplicantState
  | .vn => .vn
  | .an => .an
  | _ => .vn

def joinState : ApplicantState → ApplicantState
  | .lo | .vo => .vp
  | .la => .aa
  | .ao => .ap
  | .qo => .qp
  | s => s

def lvState : ApplicantState → ApplicantState
  | .vn | .an | .aa | .qa => .la
  | .vp => .vo
  | .ap => .ao
  | .qp => .qo
  | s => s

def rjoininState (p2pmac : Bool) : ApplicantState → ApplicantState
  | .vo => if p2pmac then .vo else .ao
  | .vp => if p2pmac then .vp else .ap
  | .aa => .qa
  | .ao => .qo
  | .ap => .qp
  | s => s

def rinState (p2pmac : Bool) : ApplicantState → ApplicantState
  | .aa => if p2pmac then .qa else .aa
  | s => s

def rmtState : ApplicantState → ApplicantState
  | .qa => .aa
  | .qo => .ao
  | .qp => .ap
  | .lo => .vo
  | s => s

def rlaState : ApplicantState → ApplicantState
  | .vo => .lo
  | .an => .vn
  | .qa | .aa => .vp
  | .ao | .qo => .lo
  | .ap | .qp => .vp
  | s => s

def periodicState : ApplicantState → ApplicantState
  | .qa => .aa
  | .qp => .ap
  | s => s

def applicantTransition (p2pmac : Bool) (event : MrpEvent) (registrarIsIn : Bool)
    (s : ApplicantState) : Option Transition :=
  match event with
  | .begin => some (.quiet .vo)
  | .new => some (.quiet (newState s))
  | .join => some (.quiet (joinState s))
  | .lv => some (.quiet (lvState s))
  | .txla => some (txlaTransition s)
  | .txlaf => some (.quiet (txlafState s))
  | .tx => some (txTransition registrarIsIn s)
  | .rnew => some (.quiet s)
  | .rjoinin => some (.quiet (rjoininState p2pmac s))
  | .rin => some (.quiet (rinState p2pmac s))
  | .rjoinmt | .rmt => some (.quiet (rmtState s))
  | .rlv | .rla | .redeclare => some (.quiet (rlaState s))
  | .periodic => some (.quiet (periodicState s))
  | .flush | .periodicEnable | .periodicDisable | .lvtimer | .lvatimer => none

def mrpApplicantFsm (p2pmac : Bool) (attrib : Applicant) (event : MrpEvent)
    (registrarIsIn : Bool) : Option Applicant :=
  (applicantTransition p2pmac event registrarIsIn attrib.mrpState).map fun t =>
    { mrpState := t.mrpState
      tx := t.tx
      sndmsg := t.sndmsg
      encode := if t.optional then .optional else .yes
      mrpPreviousState := some attrib.mrpState }

def mrpApplicantStateTransitionImpliesTx (attrib : Applicant) : Bool :=
  if attrib.mrpPreviousState = some attrib.mrpState then false
  else match attrib.mrpState with
    | .vp | .vn | .an | .aa | .la => true
    | .vo | .qa | .ao | .qo | .ap | .qp | .lo => false

def mrpRegistrarIn (attrib : Registrar) : Bool := attrib.mrpState = .inState

/-- New state and notification of a registrar, and whether it starts the leave timer. -/
def registrarTransition (event : MrpEvent) (s : RegistrarState) :
    Option (RegistrarState × Notify × Bool) :=
  match event with
  | .begin => some (.mtState, .none, false)
  | .rlv => some (if s = .inState then .lvState else s, .lv, s = .inState)
  | .txla | .rla | .redeclare => some (if s = .inState then .lvState else s, .none, s = .inState)
  | .rnew => some (.inState, .new, false)
  | .rjoinin | .rjoinmt => some (.inState, if s = .inState then .none else .join, false)
  | .lvtimer =>
    if s = .lvState then some (.mtState, .lv, false) else some (s, .none, false)
  | .flush => some (.mtState, .lv, false)
  | .rmt | .rin => some (s, .none, false)
  | .new | .join | .lv | .tx | .txlaf | .periodic | .periodicEnable | .periodicDisable
  | .lvatimer => none

variable (db : MrpDatabase)

def mrpLvtimerStart : MrpDatabase := { db with lvTimerRunning := true }
def mrpLvtimerStop : MrpDatabase := { db with lvTimerRunning := false }
def mrpJointimerStart : MrpDatabase := { db with joinTimerRunning := true }
def mrpJointimerStop : MrpDatabase := { db with joinTimerRunning := false }
def mrpLvatimerStart : MrpDatabase := { db with lvaTimerRunning := true }
def mrpLvatimerStop : MrpDatabase := { db with lvaTimerRunning := false }

def mrpRegistrarFsm (attrib : Registrar) (event : MrpEvent) : Option (Registrar × Bool) :=
  (registrarTransition event attrib.mrpState).map fun (s, notify, start) =>
    ({ attrib with mrpState := s, notify := notify }, start)

def mrpLvatimerFsm (event : MrpEvent) : Option MrpDatabase :=
  match event with
  | .begin =>
    some { mrpLvatimerStart db with lva := { active := false, tx := false, sndmsg := .sndNone } }
  | .tx =>
    some { db with lva :=
      { active := false, tx := db.lva.active
        sndmsg := if db.lva.active then .sndLva else .sndNone } }
  | .rla =>
    some { mrpLvatimerStart (mrpLvatimerStop db) with
      lva := { active := false, tx := false, sndmsg := .sndNone } }
  | .lvatimer =>
    some { mrpLvatimerStart (mrpLvatimerStop db) with
      lva := { active := true, tx := false, sndmsg := .sndNone } }
  | _ => none

/-! ## MRP protocol data units -/

def maxFrameSize : Nat := 2000

inductive AttributeEvent where
  | new | joinIn | isIn | joinMt | mt | lv
  deriving DecidableEq

def AttributeEvent.code : AttributeEvent → Nat
  | .new => 0
  | .joinIn => 1
  | .isIn => 2
  | .joinMt => 3
  | .mt => 4
  | .lv => 5

def AttributeEvent.ofCode : Nat → Option AttributeEvent
  | 0 => some .new
  | 1 => some .joinIn
  | 2 => some .isIn
  | 3 => some .joinMt
  | 4 => some .mt
  | 5 => some .lv
  | _ => none

def AttributeEvent.received : AttributeEvent → MrpEvent
  | .new => .rnew
  | .joinIn => .rjoinin
  | .isIn => .rin
  | .joinMt => .rjoinmt
  | .mt => .rmt
  | .lv => .rlv

theorem AttributeEvent.code_lt (e : AttributeEvent) : e.code < 6 := by
  cases e <;> decide

@[simp] theorem AttributeEvent.ofCode_code (e : AttributeEvent) : ofCode e.code = some e := by
  cases e <;> rfl

structure Attribute (ν : Type) where
  value : ν
  applicant : Applicant
  registrar : Registrar
  deriving DecidableEq

def alloc (value : ν) : Attribute ν where
  value := value
  applicant :=
    { mrpState := .vo, tx := false, sndmsg := .sndNull, encode := .optional
      mrpPreviousState := none }
  registrar := { mrpState := .mtState, notify := .none, macaddr := [0, 0, 0, 0, 0, 0] }

/-- A vector: FirstValue, one event per value, and for listeners one substate per value. -/
structure VectorAttribute where
  leaveAll : Bool
  firstValue : List UInt8
  events : List AttributeEvent
  substates : List Nat

def vectorHeader (leaveAll : Bool) (numvalues : Nat) : Nat :=
  numvalues % 8192 + if leaveAll then 8192 else 0

def VectorAttribute.octets (v : VectorAttribute) : List UInt8 :=
  be16 (vectorHeader v.leaveAll v.events.length) ++ v.firstValue ++
    pack3 (v.events.map AttributeEvent.code) ++ pack4 v.substates

def vectorOctets (vs : List VectorAttribute) : List UInt8 := vs.flatMap VectorAttribute.octets

structure Message where
  attributeType : UInt8
  attributeLength : Nat
  vectors : List VectorAttribute

def Message.octets (listLength : Bool) (m : Message) : List UInt8 :=
  [m.attributeType, UInt8.ofNat m.attributeLength] ++
    (if listLength then be16 ((vectorOctets m.vectors).length + 2) else []) ++
    vectorOctets m.vectors ++ [0, 0]

def messageOctets (listLength : Bool) (ms : List Message) : List UInt8 :=
  ms.flatMap (Message.octets listLength)

def ethHeader (dest src : List UInt8) (etype : Nat) (version : UInt8) : List UInt8 :=
  dest ++ src ++ be16 etype ++ [version]

@[simp] theorem length_vector_octets (v : VectorAttribute) :
    v.octets.length = 2 + v.firstValue.length + (v.events.length + 2) / 3 +
      (v.substates.length + 3) / 4 := by
  simp [VectorAttribute.octets]
  omega

@[simp] theorem vectorOctets_nil : vectorOctets [] = [] := rfl

@[simp] theorem vectorOctets_cons : vectorOctets (v :: vs) = v.octets ++ vectorOctets vs := rfl

@[simp] theorem messageOctets_nil : messageOctets b [] = [] := rfl

@[simp] theorem messageOctets_cons :
    messageOctets b (m :: ms) = m.octets b ++ messageOctets b ms := rfl

@[simp] theorem messageOctets_append :
    messageOctets b (ms ++ ns) = messageOctets b ms ++ messageOctets b ns := by
  simp [messageOctets]

@[simp] theorem length_message_octets (m : Message) :
    (m.octets b).length = 4 + (if b then 2 else 0) + (vectorOctets m.vectors).length := by
  cases b <;> simp [Message.octets] <;> omega

theorem vectorHeader_lt : vectorHeader l n < 65536 := by
  simp only [vectorHeader]
  split <;> omega

end OpenAvb.Mrpd
