import OpenAvb.Text
import OpenAvb.Keyed

/-!
# The MRP client of the endpoint

The endpoint picks the notifications of the MRP daemon apart by position: it goes
to a letter and reads a number behind it. A number that is not there leaves the
variable as it is, which starts with whatever is on the stack.
-/

namespace OpenAvb.Endpoint

/-- The local variables of `process_mrp_msg` that `sscanf` writes to. -/
structure Locals where
  (id priority vid maxFrameSize maxIntervalFrames priorityAndRank latency substate : UInt32)

inductive Effect where
  | error
  | okay
  -- `mrp_attach_cb`
  | attach (streamid : List UInt8) (subtype : UInt32)
  -- `mrp_register_cb`
  | register (streamid : List UInt8) (join : Bool) (destaddr : List UInt8)
      (maxFrameSize maxIntervalFrames : UInt32) (vid : UInt16) (latency : UInt32)
  -- The domain of class A if the id is 6, of class B otherwise.
  | domain (id priority : UInt32) (vid : UInt16)
  -- The stream that is monitored has a listener, or has none any more.
  | listeners (present : Bool)

def assign (old : UInt32) : Option Int → UInt32
  | some v => UInt32.ofInt v
  | none => old

def hexOctet : List Directive := [.number 16 (some 2)]

def decimal : List Directive := [.number 10 none]

/-- The loop over the octets of an address; every octet is read into `id` first. -/
def scanOctets : Nat → List Char → UInt32 → List UInt8 × UInt32
  | 0, _, id => ([], id)
  | n + 1, s, id =>
    let id := assign id (sscanf hexOctet s)[0]?
    let rest := scanOctets n (s.drop 2) id
    (id.toUInt8 :: rest.1, rest.2)

/-- `while (buf[i] != c) i++`; without the letter it does not stop in the buffer. -/
def seekLetter (c : Char) : List Char → Option (List Char)
  | [] => none
  | d :: s => if d = c then some (d :: s) else seekLetter c s

/-- A listener attribute: substate and StreamID, and where the reading stops. -/
def scanListener (v : Locals) (s : List Char) : Option (List UInt8 × Locals × List Char) := do
  let s := (← seekLetter 'D' s).drop 2
  let v := { v with substate := assign v.substate (sscanf decimal s)[0]? }
  let s := (← seekLetter 'S' s).drop 2
  let streamid := scanOctets 8 s v.id
  some (streamid.1, { v with id := streamid.2 }, s)

/-- `V=%d,Z=%d,I=%d,P=%d,L=%d` -/
def talkerFormat : List Directive :=
  [.char 'V', .char '=', .number 10 none, .char ',', .char 'Z', .char '=', .number 10 none,
    .char ',', .char 'I', .char '=', .number 10 none, .char ',', .char 'P', .char '=',
    .number 10 none, .char ',', .char 'L', .char '=', .number 10 none]

/-- A talker attribute: StreamID and destination address; the rest is left in the variables. -/
def scanTalker (v : Locals) (s : List Char) :
    Option (List UInt8 × List UInt8 × Locals × List Char) := do
  let s := (← seekLetter 'S' s).drop 2
  let streamid := scanOctets 8 s v.id
  let s := (← seekLetter 'A' s).drop 2
  let destAddr := scanOctets 6 s streamid.2
  let s := s.drop 13
  let values := sscanf talkerFormat s
  some (streamid.1, destAddr.1, { v with
      id := destAddr.2
      vid := assign v.vid values[0]?
      maxFrameSize := assign v.maxFrameSize values[1]?
      maxIntervalFrames := assign v.maxIntervalFrames values[2]?
      priorityAndRank := assign v.priorityAndRank values[3]?
      latency := assign v.latency values[4]? }, s)

def scanDomain (v : Locals) (s : List Char) : Option (Locals × List Char) := do
  let v := { v with id := assign v.id (sscanf decimal s)[0]? }
  let s := (← seekLetter 'P' s).drop 2
  let v := { v with priority := assign v.priority (sscanf decimal s)[0]? }
  let s := (← seekLetter 'V' s).drop 2
  let v := { v with vid := assign v.vid (sscanf [.number 16 none] s)[0]? }
  some (v, s)

section

variable (streamid : List UInt8)

def registered (join : Bool) (destAddr : List UInt8) (v : Locals) : Effect :=
  .register streamid join destAddr v.maxFrameSize v.maxIntervalFrames v.vid.toUInt16 v.latency

def msrpListenerAskfailed : UInt32 := 1

def present (monitor streamid : List UInt8) (substate : UInt32) : List Effect :=
  if msrpListenerAskfailed < substate ∧ streamid = monitor then [.listeners true] else []

def processEvent (monitor : List UInt8) (v : Locals) (s : List Char) : Option (List Effect) :=
  match s[4]? with
  | some 'L' => do
    let (streamid, v, _) ← scanListener v (s.drop 5)
    match s[1]? with
    | some 'L' =>
      some (.attach streamid v.substate :: if streamid = monitor then [.listeners false] else [])
    | some 'J' | some 'N' =>
      some (.attach streamid v.substate :: present monitor streamid v.substate)
    | _ => some []
  | some 'T' => do
    let (streamid, destAddr, v, _) ← scanTalker v (s.drop 5)
    some [registered streamid (s[1]? = some 'J') destAddr v]
  | _ => some []

/-- `process_mrp_msg` with the most lines it can read: the attributes listed follow each other. -/
def processLines (monitor : List UInt8) :
    Nat → Locals → List Char → Option (List Effect)
  | 0, _, _ => some []
  | _ + 1, _, [] => some []
  | lines + 1, v, c :: s =>
    let nextLine (v : Locals) (s : List Char) : Option (List Effect) :=
      match s.dropWhile (· ≠ '\n') with
      | [] => some []
      | _ :: s => processLines monitor lines v s
    match c with
    | 'E' => some [.error]
    | 'O' => some [.okay]
    | 'L' => do
      let (streamid, v, s) ← scanListener v (c :: s)
      let rest ← nextLine v s
      some (.attach streamid v.substate :: present monitor streamid v.substate ++ rest)
    | 'D' => do
      let (v, s) ← scanDomain v ((c :: s).drop 4)
      let rest ← nextLine v s
      some (.domain v.id v.priority v.vid.toUInt16 :: rest)
    | 'T' => do
      let (streamid, destAddr, v, s) ← scanTalker v (c :: s)
      let rest ← nextLine v s
      some (registered streamid false destAddr v :: rest)
    | 'S' => processEvent monitor v (c :: s)
    | _ => some []

def processMrpMsg (monitor : List UInt8) (v : Locals) (s : List Char) : Option (List Effect) :=
  processLines monitor (s.length + 1) v s

def msgbuf (text : List Char) : List Char :=
  text.take 1499 ++ List.replicate (1500 - (text.take 1499).length) (Char.ofNat 0)

def mrpRegisterDomain (classId priority : Int) (vid : UInt16) : List Char :=
  msgbuf ("S+D:C=".toList ++ (intText classId ++ (",P=".toList ++ (intText priority ++
    (",V=".toList ++ hexText false 4 vid.toNat)))))

def streamText (streamid destaddr : List UInt8) (vlan : UInt16)
    (pktsz interval priority latency : Int) : List Char :=
  "S=".toList ++ (octetsText true streamid ++ (",A=".toList ++ (octetsText true destaddr ++
    (",V=".toList ++ (hexText true 4 vlan.toNat ++ (",Z=".toList ++ (intText pktsz ++
      (",I=".toList ++ (intText interval ++ (",P=".toList ++ (intText (priority * 2 ^ 5) ++
        (",L=".toList ++ intText latency))))))))))))

def mrpAdvertiseStream (streamid destaddr : List UInt8) (vlan : UInt16)
    (pktsz interval priority latency : Int) : List Char :=
  msgbuf ("S++:".toList ++ streamText streamid destaddr vlan pktsz interval priority latency)

def mrpUnadvertiseStream (streamid destaddr : List UInt8) (vlan : UInt16)
    (pktsz interval priority latency : Int) : List Char :=
  msgbuf ("S--:".toList ++ streamText streamid destaddr vlan pktsz interval priority latency)

def mrpJoinListener : List Char :=
  msgbuf ("S+L:S=".toList ++ (octetsText true streamid ++ ",D=2".toList))

def mrpSendReady : List Char :=
  msgbuf ("S+L:L=".toList ++ (octetsText false streamid ++ ", D=2".toList))

def mrpSendLeave : List Char :=
  msgbuf ("S-L:L=".toList ++ (octetsText false streamid ++ ", D=3".toList))

/-! ## The SRP proxy of the endpoint -/

structure StrElem where
  avtpHandle : Nat
  talker : Bool
  (streamId destAddr : List UInt8)
  vlanId : UInt16
  (maxFrameSize maxIntervalFrames priority latency : Nat)
  subtype : UInt32

inductive TalkerDecl where
  | none | talkerAdvertise
  deriving DecidableEq

structure Registration where
  tlkrDecl : TalkerDecl
  destAddr : List UInt8
  (maxFrameSize maxIntervalFrames : UInt16)
  accumLatency : UInt32
  deriving DecidableEq

/-- The loops of the callbacks: the first element that matches may be changed and told. -/
def callFirst {β : Type} (p : StrElem → Bool) (f : StrElem → StrElem × Option β) :
    List StrElem → List StrElem × Option β
  | [] => ([], none)
  | elem :: elems =>
    if p elem then ((f elem).1 :: elems, (f elem).2)
    else (elem :: (callFirst p f elems).1, (callFirst p f elems).2)

def StrElem.talks (elem : StrElem) : Bool :=
  elem.talker && elem.streamId = streamid

def StrElem.listens (elem : StrElem) : Bool :=
  !elem.talker && elem.streamId = streamid

/-- A state that the endpoint does not have yet is remembered and told with the handle. -/
def StrElem.tell {β : Type} (subtype : UInt32) (x : β) (elem : StrElem) :
    StrElem × Option (Nat × β) :=
  if elem.subtype ≠ subtype then
    ({ elem with subtype := subtype }, some (elem.avtpHandle, x))
  else (elem, none)

/-- `mrp_attach_cb`: the elements, and the call of `strmAttachCb`, if there is one. -/
def mrpAttachCb (subtype : UInt32) : List StrElem → List StrElem × Option (Nat × UInt32) :=
  callFirst (StrElem.talks streamid) (StrElem.tell subtype subtype)

/-- `mrp_register_cb`: the elements, and the call of `strmRegCb`, if there is one. -/
def mrpRegisterCb (join : Bool) (destaddr : List UInt8)
    (maxFrameSize maxIntervalFrames latency : UInt32) :
    List StrElem → List StrElem × Option (Nat × Registration) :=
  callFirst (StrElem.listens streamid) (StrElem.tell (if join then 1 else 0)
    { tlkrDecl := if join then .talkerAdvertise else .none
      destAddr := destaddr
      maxFrameSize := maxFrameSize.toUInt16
      maxIntervalFrames := maxIntervalFrames.toUInt16
      accumLatency := latency })

end

structure SrDomain where
  vid : UInt16
  priority : Nat

def srClassA : UInt8 := 0

def srClassB : UInt8 := 1

/-- Whether the stream is registered. An element that was added stays even if the class is unknown
or the daemon cannot be told. -/
def openavbSrpRegisterStream (classA classB : SrDomain) (listNew advertise : Bool)
    (avtpHandle : Nat) (streamId destAddr : List UInt8) (maxFrameSize maxIntervalFrames : UInt16)
    (srClass : UInt8) (latency : UInt32) (elems : List StrElem) : Bool × List StrElem :=
  let elem : StrElem :=
    { avtpHandle, talker := true, streamId, destAddr, vlanId := 0
      maxFrameSize := maxFrameSize.toNat, maxIntervalFrames := maxIntervalFrames.toNat
      priority := 0, latency := latency.toNat, subtype := 0 }
  if !listNew then (false, elems)
  else if srClass = srClassA then
    (advertise, elems ++ [{ elem with vlanId := classA.vid, priority := classA.priority }])
  else if srClass = srClassB then
    (advertise, elems ++ [{ elem with vlanId := classB.vid, priority := classB.priority }])
  else (false, elems ++ [elem])

/-- `openavbSrpDeregisterStream` and `openavbSrpDetachStream`: the first element with the StreamID
goes, whatever it is. -/
def openavbSrpDeregisterStream (streamId : List UInt8) (elems : List StrElem) : List StrElem :=
  removeFirst (fun elem => elem.streamId = streamId) elems

/-- `openavbSrpAttachStream`: there is no second element for a StreamID, whatever the first one
is. -/
def openavbSrpAttachStream (listNew : Bool) (avtpHandle : Nat) (streamId : List UInt8)
    (type : UInt32) (elems : List StrElem) : Bool × List StrElem :=
  if elems.any fun elem => elem.streamId = streamId then (true, elems)
  else if listNew then
    (true, elems ++
      [{ avtpHandle, talker := false, streamId, destAddr := List.replicate 6 0, vlanId := 0
         maxFrameSize := 0, maxIntervalFrames := 0, priority := 0, latency := 0
         subtype := type }])
  else (false, elems)

/-- `openavbSrpGetClassParams`: the observation intervals per second. -/
def openavbSrpGetClassParams (srClass : UInt8) : Option Nat :=
  if srClass = srClassA then some 8000 else if srClass = srClassB then some 4000 else none

variable {streamid : List UInt8}

theorem openavbSrpRegisterStream_cases (classA classB : SrDomain) (listNew advertise : Bool)
    (avtpHandle : Nat) (streamId destAddr : List UInt8) (maxFrameSize maxIntervalFrames : UInt16)
    (srClass : UInt8) (latency : UInt32) (elems : List StrElem) :
    listNew = false ∧ openavbSrpRegisterStream classA classB listNew advertise avtpHandle streamId
        destAddr maxFrameSize maxIntervalFrames srClass latency elems = (false, elems) ∨
      ∃ e : StrElem, listNew = true ∧ e.avtpHandle = avtpHandle ∧ e.talker = true ∧
        e.streamId = streamId ∧
        openavbSrpRegisterStream classA classB listNew advertise avtpHandle streamId destAddr
            maxFrameSize maxIntervalFrames srClass latency elems =
          (decide (srClass = srClassA ∨ srClass = srClassB) && advertise, elems ++ [e]) := by
  unfold openavbSrpRegisterStream
  cases listNew with
  | false => exact .inl ⟨rfl, rfl⟩
  | true =>
    by_cases hA : srClass = srClassA
    · exact .inr ⟨_, rfl, rfl, rfl, rfl, by simp [hA]; rfl⟩
    · by_cases hB : srClass = srClassB
      · exact .inr ⟨_, rfl, rfl, rfl, rfl, by simp [hB]; rfl⟩
      · exact .inr ⟨_, rfl, rfl, rfl, rfl, by simp [hA, hB]; rfl⟩

theorem callFirst_cases {β : Type} (p : StrElem → Bool) (f : StrElem → StrElem × Option β)
    (elems : List StrElem) : (∀ e ∈ elems, p e = false) ∧ callFirst p f elems = (elems, none) ∨
      ∃ l₁ e l₂, elems = l₁ ++ e :: l₂ ∧ (∀ e' ∈ l₁, p e' = false) ∧ p e = true ∧
        callFirst p f elems = (l₁ ++ (f e).1 :: l₂, (f e).2) := by
  induction elems with
  | nil => exact .inl ⟨List.forall_mem_nil _, rfl⟩
  | cons e elems ih =>
    cases he : p e with
    | true => exact .inr ⟨[], e, elems, rfl, List.forall_mem_nil _, he, by simp [callFirst, he]⟩
    | false =>
      obtain ⟨hnone, hcall⟩ | ⟨l₁, e', l₂, rfl, hl₁, he', hcall⟩ := ih
      · exact .inl ⟨List.forall_mem_cons.mpr ⟨he, hnone⟩, by simp [callFirst, he, hcall]⟩
      · exact .inr ⟨e :: l₁, e', l₂, rfl, List.forall_mem_cons.mpr ⟨he, hl₁⟩, he',
          by simp [callFirst, he, hcall]⟩

theorem StrElem.tell_eq {β : Type} (subtype : UInt32) (x : β) (e : StrElem) :
    e.tell subtype x = ({ e with subtype := subtype },
      if e.subtype = subtype then none else some (e.avtpHandle, x)) := by
  by_cases h : e.subtype = subtype
  · subst h
    simp [tell]
  · simp [tell, h]

theorem map_callFirst_tell {β γ : Type} {f : StrElem → γ}
    (hf : ∀ (e : StrElem) (subtype : UInt32), f { e with subtype := subtype } = f e)
    (p : StrElem → Bool) (subtype : UInt32) (x : β) (elems : List StrElem) :
    (callFirst p (StrElem.tell subtype x) elems).1.map f = elems.map f := by
  obtain ⟨-, hcall⟩ | ⟨l₁, e, l₂, rfl, -, -, hcall⟩ :=
    callFirst_cases p (StrElem.tell subtype x) elems
  · rw [hcall]
  · rw [hcall, StrElem.tell_eq]
    simp [hf]

variable {p : StrElem → Bool}

theorem callFirst_tell_called {β : Type} {subtype : UInt32} {x y : β} {elems : List StrElem}
    {handle : Nat} (h : (callFirst p (StrElem.tell subtype x) elems).2 = some (handle, y)) :
    ∃ e, elems.find? p = some e ∧ e.subtype ≠ subtype ∧ e.avtpHandle = handle := by
  obtain ⟨-, hcall⟩ | ⟨l₁, e, l₂, rfl, hl₁, he, hcall⟩ :=
    callFirst_cases p (StrElem.tell subtype x) elems
  · simp [hcall] at h
  · rw [hcall, StrElem.tell_eq] at h
    refine ⟨e, ?_, ?_⟩
    · rw [List.find?_append, List.find?_eq_none.mpr (by simpa using hl₁)]
      simp [he]
    · by_cases hsame : e.subtype = subtype
      · simp [hsame] at h
      · simp only [hsame, if_false, Option.some.injEq, Prod.mk.injEq] at h
        exact ⟨hsame, h.1⟩

theorem StrElem.talks_iff {e : StrElem} :
    e.talks streamid = true ↔ e.talker = true ∧ e.streamId = streamid := by
  simp [StrElem.talks]

theorem StrElem.listens_iff {e : StrElem} :
    e.listens streamid = true ↔ e.talker = false ∧ e.streamId = streamid := by
  simp [StrElem.listens]

theorem callFirst_tell_cases {β : Type}
    (hp : ∀ e e', p e = true → e'.talker = e.talker → e'.streamId = e.streamId → p e' = true)
    (subtype : UInt32) (x : β) (elems : List StrElem) :
    (∀ e ∈ elems, p e = false) ∧ callFirst p (StrElem.tell subtype x) elems = (elems, none) ∨
      ∃ l₁ e l₂, elems = l₁ ++ e :: l₂ ∧ p e = true ∧
        (∀ e' ∈ l₁, e'.talker = e.talker → e'.streamId ≠ e.streamId) ∧
        callFirst p (StrElem.tell subtype x) elems =
          (l₁ ++ { e with subtype := subtype } :: l₂,
            if e.subtype = subtype then none else some (e.avtpHandle, x)) := by
  obtain hnone | ⟨l₁, e, l₂, hsplit, hl₁, he, hcall⟩ :=
    callFirst_cases p (StrElem.tell subtype x) elems
  · exact .inl hnone
  · refine .inr ⟨l₁, e, l₂, hsplit, he, ?_, by rw [hcall, StrElem.tell_eq]⟩
    rintro e' he' htalker hid
    have hmatch := hp e e' he htalker hid
    rw [hl₁ e' he'] at hmatch
    cases hmatch

theorem StrElem.talks_same {e e' : StrElem} (h : e.talks streamid = true)
    (htalker : e'.talker = e.talker) (hid : e'.streamId = e.streamId) :
    e'.talks streamid = true := by
  rw [talks_iff, htalker, hid]
  exact talks_iff.mp h

theorem StrElem.listens_same {e e' : StrElem} (h : e.listens streamid = true)
    (htalker : e'.talker = e.talker) (hid : e'.streamId = e.streamId) :
    e'.listens streamid = true := by
  rw [listens_iff, htalker, hid]
  exact listens_iff.mp h

end OpenAvb.Endpoint
