import OpenAvb.Endpoint.Resources
import OpenAvb.Endpoint.MrpClient

/-!
# The endpoint server

Clients register talkers or attach listeners; the server keeps a record of every
stream, with a mark of the queue manager and an address where it has one. A message
that cannot be written closes the connection, in the middle of whatever is going on.
-/

namespace OpenAvb.Endpoint

open Function

structure AVBStreamID where
  addr : Octets 6
  uniqueID : UInt16
  deriving DecidableEq

def AVBStreamID.octets (id : AVBStreamID) : List UInt8 :=
  id.addr.val ++ [(id.uniqueID >>> 8).toUInt8, id.uniqueID.toUInt8]

inductive ClientRole where
  | none | talker | listener
  deriving DecidableEq

/-- `clientStream_t`; `ptr` is where the record is. -/
structure ClientStream where
  (ptr clientHandle : Nat)
  streamID : AVBStreamID
  role : ClientRole
  (maxFrameSize maxIntervalFrames : UInt16)
  srClass : UInt8
  latency : UInt32
  classRate : Nat
  hndMaap : Option Nat
  destAddr : Octets 6
  fwmark : Nat

/-- What is fixed at the start: configuration and domains. -/
structure EndpointConfig where
  noSrp : Bool
  ifmac : Octets 6
  (classA classB : SrDomain)

/-- The endpoint: its records, the proxy's elements, the pools, and which entries of `fds` have a
socket. -/
structure Server where
  streamList : List ClientStream
  strElemList : List StrElem
  qmgr : QmgrStreams
  maap : MaapAllocList
  connected : Nat → Bool

def serverInit : Server where
  streamList := []
  strElemList := []
  qmgr := fun _ => 0
  maap := fun _ => false
  connected := fun _ => false

/-- What goes well: memory for a record, the write that tells an address and any other, memory for
the proxy, the command to the daemon, the hardware queue. The memory is any that is not in use. -/
structure Luck where
  (calloc infoWrite write listNew advertise hwQueue : Bool)
  place : List Nat → Nat
  place_free : ∀ ptrs, place ptrs ∉ ptrs

def emptyMAC : Octets 6 := .ofList 6 [0, 0, 0, 0, 0, 0]

def pollFdCount : Nat := maxAvbStreams + 1

def Server.record (s : Server) (ptr : Nat) : Option ClientStream :=
  s.streamList.find? fun ps => ps.ptr = ptr

def Server.store (s : Server) (ps : ClientStream) : Server :=
  { s with streamList := updateFirst (fun ps' => ps'.ptr = ps.ptr) (fun _ => ps) s.streamList }

def Server.delStream (s : Server) (ptr : Nat) : Server :=
  { s with streamList := removeFirst (fun ps => ps.ptr = ptr) s.streamList }

def Server.findStream (s : Server) (streamID : AVBStreamID) : Option ClientStream :=
  s.streamList.find? fun ps => ps.streamID = streamID

namespace EndpointConfig

variable (cfg : EndpointConfig)

def fillIn (streamID : AVBStreamID) : AVBStreamID :=
  if streamID.addr = emptyMAC then { streamID with addr := cfg.ifmac } else streamID

def srpDeregister (streamID : AVBStreamID) (s : Server) : Server :=
  if cfg.noSrp then s
  else { s with strElemList := openavbSrpDeregisterStream streamID.octets s.strElemList }

def maapRelease (ps : ClientStream) (s : Server) : Server :=
  match ps.hndMaap with
  | some i => { s with maap := update s.maap i false }
  | none => s

def xTalkerDeregister (ps : ClientStream) (s : Server) : Server :=
  let s := cfg.srpDeregister ps.streamID s
  let s :=
    if ps.fwmark ≠ invalidFwmark then
      { s with qmgr := openavbQmgrRemoveStream ps.fwmark s.qmgr }
    else s
  (maapRelease ps s).delStream ps.ptr

def xListenerDetach (ps : ClientStream) (s : Server) : Server :=
  (cfg.srpDeregister ps.streamID s).delStream ps.ptr

/-- The record goes the way of its role; `StopStream` fails if it has none. -/
def stop (ps : ClientStream) (s : Server) : Server :=
  match ps.role with
  | .talker => cfg.xTalkerDeregister ps s
  | .listener => cfg.xListenerDetach ps s
  | .none => s

def openavbEptSrvrCloseClientConnection (h : Nat) (s : Server) : Server :=
  match s.streamList.find? fun ps => ps.clientHandle = h with
  | some ps => cfg.stop ps s
  | none => s

def socketClose (h : Nat) (s : Server) : Server :=
  if pollFdCount ≤ h then s
  else
    let s := cfg.openavbEptSrvrCloseClientConnection h s
    { s with connected := update s.connected h false }

def openavbEptSrvrSendToClient (write : Bool) (h : Nat) (s : Server) : Server :=
  if pollFdCount ≤ h ∨ s.connected h = false then s
  else if write then s
  else cfg.socketClose h s

def ldStReady : UInt32 := 2

def ldStReadyFailed : UInt32 := 3

def ldStStreamInfo : UInt32 := 0xFE

def ldStInterest : UInt32 := 0xFF

/-- The record and the queue manager behind a declaration of listeners, and whether the client is
told. -/
def attachQueues (hwQueue : Bool) (lsnrDecl : UInt32) (ps : ClientStream) (q : QmgrStreams) :
    Bool × ClientStream × QmgrStreams :=
  if lsnrDecl = ldStReady ∨ lsnrDecl = ldStReadyFailed then
    if ps.fwmark ≠ invalidFwmark then (true, ps, q)
    else
      match openavbSrpGetClassParams ps.srClass with
      | none => (false, ps, q)
      | some classRate =>
        let (fwmark, q) := openavbQmgrAddStream hwQueue ps.srClass.toNat classRate
          ps.maxIntervalFrames.toNat ps.maxFrameSize.toNat q
        (fwmark ≠ invalidFwmark, { ps with classRate, fwmark }, q)
  else if ps.fwmark ≠ invalidFwmark then
    (true, { ps with fwmark := invalidFwmark }, openavbQmgrRemoveStream ps.fwmark q)
  else (true, ps, q)

/-- `strmAttachCb` with the place of a record. A place without one is not looked at here. -/
def strmAttachCb (hwQueue write : Bool) (ptr : Nat) (lsnrDecl : UInt32) (s : Server) :
    Server :=
  match s.record ptr with
  | none => s
  | some ps =>
    let (ok, ps, q) := attachQueues hwQueue lsnrDecl ps s.qmgr
    let s := { s.store ps with qmgr := q }
    if ok then cfg.openavbEptSrvrSendToClient write ps.clientHandle s else s

def strmRegCb (write : Bool) (ptr : Nat) (s : Server) : Server :=
  match s.record ptr with
  | none => s
  | some ps => cfg.openavbEptSrvrSendToClient write ps.clientHandle s

structure TalkerRegister where
  streamID : AVBStreamID
  destAddr : Octets 6
  (maxFrameSize maxIntervalFrames : UInt16)
  srClass : UInt8
  latency : UInt32

variable (luck : Luck)

def newStream (h : Nat) (streamID : AVBStreamID) (role : ClientRole) (s : Server) :
    ClientStream where
  ptr := luck.place (s.streamList.map (·.ptr))
  clientHandle := h
  streamID := streamID
  role := role
  maxFrameSize := 0
  maxIntervalFrames := 0
  srClass := 0
  latency := 0
  classRate := 0
  hndMaap := none
  destAddr := emptyMAC
  fwmark := invalidFwmark

def addStream (ps : ClientStream) (s : Server) : Server :=
  { s with streamList := s.streamList ++ [ps] }

/-- The second half of `openavbEptSrvrRegisterStream`, for the record with its address. -/
def registerSrp (ps : ClientStream) (s : Server) : Bool × Server :=
  if cfg.noSrp then (true, cfg.strmAttachCb luck.hwQueue luck.write ps.ptr ldStReady s)
  else
    let (ok, elems) := openavbSrpRegisterStream cfg.classA cfg.classB luck.listNew luck.advertise
      ps.ptr ps.streamID.octets ps.destAddr.val ps.maxFrameSize ps.maxIntervalFrames ps.srClass
      ps.latency s.strElemList
    let s := { s with strElemList := elems }
    if ok then (true, s) else (false, (maapRelease ps s).delStream ps.ptr)

def newTalker (h : Nat) (msg : TalkerRegister) (s : Server) : ClientStream :=
  { newStream luck h (cfg.fillIn msg.streamID) .talker s with
    maxFrameSize := msg.maxFrameSize, maxIntervalFrames := msg.maxIntervalFrames
    srClass := msg.srClass, latency := msg.latency }

def registerNew (h : Nat) (msg : TalkerRegister) (s : Server) : Bool × Server :=
  let ps := cfg.newTalker luck h msg s
  if luck.calloc = false then (false, s)
  else if msg.destAddr = emptyMAC then
    match openavbMaapAllocate s.maap with
    | none => (false, (addStream ps s).delStream ps.ptr)
    | some i =>
      let ps := { ps with hndMaap := some i, destAddr := maapDestAddr i }
      let s := { addStream ps s with maap := update s.maap i true }
      -- the client is told its address, and may be gone behind it
      cfg.registerSrp luck ps
        (cfg.strmAttachCb luck.hwQueue luck.infoWrite ps.ptr ldStStreamInfo s)
  else
    let ps := { ps with destAddr := msg.destAddr }
    cfg.registerSrp luck ps (addStream ps s)

def openavbEptSrvrRegisterStream (h : Nat) (msg : TalkerRegister) (s : Server) : Bool × Server :=
  match s.findStream (cfg.fillIn msg.streamID) with
  | some ps => if ps.clientHandle ≠ h then (false, s) else cfg.registerNew luck h msg s
  | none => cfg.registerNew luck h msg s

/-- The second half of `openavbEptSrvrAttachStream`, for a record that is there. -/
def attachSrp (ps : ClientStream) (lsnrDecl : UInt32) (s : Server) : Bool × Server :=
  if cfg.noSrp then
    (true, if lsnrDecl = ldStInterest then cfg.strmRegCb luck.write ps.ptr s else s)
  else
    let (ok, elems) := openavbSrpAttachStream luck.listNew ps.ptr ps.streamID.octets lsnrDecl
      s.strElemList
    let s := { s with strElemList := elems }
    (ok, if ok then s else s.delStream ps.ptr)

def openavbEptSrvrAttachStream (h : Nat) (streamID : AVBStreamID)
    (lsnrDecl : UInt32) (s : Server) : Bool × Server :=
  match s.findStream (cfg.fillIn streamID) with
  | some ps => if ps.clientHandle ≠ h then (false, s) else cfg.attachSrp luck ps lsnrDecl s
  | none =>
    if luck.calloc = false then (false, s)
    else
      let ps := newStream luck h (cfg.fillIn streamID) .listener s
      cfg.attachSrp luck ps lsnrDecl (addStream ps s)

def openavbEptSrvrStopStream (h : Nat) (streamID : AVBStreamID) (s : Server) :
    Bool × Server :=
  match s.findStream (cfg.fillIn streamID) with
  | some ps => if ps.clientHandle ≠ h then (false, s) else (ps.role ≠ .none, cfg.stop ps s)
  | none => (false, s)

inductive ClientMsg where
  | talkerRegister (msg : TalkerRegister)
  | listenerAttach (streamID : AVBStreamID) (lsnrDecl : UInt32)
  | clientStop (streamID : AVBStreamID)
  | versionRequest
  /-- a type that a client has no business to send -/
  | other

def openavbEptSrvrReceiveFromClient (h : Nat) (msg : ClientMsg) (s : Server) : Bool × Server :=
  match msg with
  | .talkerRegister msg => cfg.openavbEptSrvrRegisterStream luck h msg s
  | .listenerAttach streamID lsnrDecl => cfg.openavbEptSrvrAttachStream luck h streamID lsnrDecl s
  | .clientStop streamID => cfg.openavbEptSrvrStopStream h streamID s
  | .versionRequest => (true, cfg.openavbEptSrvrSendToClient luck.write h s)
  | .other => (false, s)

inductive Op where
  | connect
  | disconnect (h : Nat)
  | message (h : Nat) (msg : ClientMsg)
  | attachCb (streamid : List UInt8) (subtype : UInt32)
  | registerCb (streamid : List UInt8) (join : Bool) (destaddr : List UInt8)
      (maxFrameSize maxIntervalFrames latency : UInt32)

/-- `openavbEptSrvrService` for one event, and the callbacks of the MRP client. -/
def step (s : Server) (input : Op × Luck) : Server :=
  match input.1 with
  | .connect =>
    -- entry 0 has the listening socket
    match (List.range pollFdCount).find? fun j => j ≠ 0 ∧ s.connected j = false with
    | some j => { s with connected := update s.connected j true }
    | none => s
  | .disconnect h => if h = 0 then s else cfg.socketClose h s
  | .message h msg =>
    if 0 < h ∧ h < pollFdCount ∧ s.connected h then
      let (ok, s) := cfg.openavbEptSrvrReceiveFromClient input.2 h msg s
      if ok then s else cfg.socketClose h s
    else s
  | .attachCb streamid subtype =>
    let (elems, call) := mrpAttachCb streamid subtype s.strElemList
    let s := { s with strElemList := elems }
    match call with
    | some (ptr, lsnrDecl) => cfg.strmAttachCb input.2.hwQueue input.2.write ptr lsnrDecl s
    | none => s
  | .registerCb streamid join destaddr maxFrameSize maxIntervalFrames latency =>
    let (elems, call) :=
      mrpRegisterCb streamid join destaddr maxFrameSize maxIntervalFrames latency s.strElemList
    let s := { s with strElemList := elems }
    match call with
    | some (ptr, _) => cfg.strmRegCb input.2.write ptr s
    | none => s

end EndpointConfig

/-- Memory that is never given out twice while in use: the place behind all that are. -/
def nextPlace (ptrs : List Nat) : Nat := ptrs.foldr max 0 + 1

theorem nextPlace_free (ptrs : List Nat) : nextPlace ptrs ∉ ptrs := by
  have hle : ∀ p ∈ ptrs, p ≤ ptrs.foldr max 0 := by
    induction ptrs with
    | nil => simp
    | cons p ptrs ih =>
      intro p' hp'
      obtain rfl | hp' := List.mem_cons.mp hp'
      · exact Nat.le_max_left _ _
      · exact (ih p' hp').trans (Nat.le_max_right _ _)
  exact fun hmem => Nat.not_succ_le_self _ (hle _ hmem)

def sampleEndpoint : EndpointConfig where
  noSrp := false
  ifmac := ⟨[0, 1, 2, 3, 4, 5], rfl⟩
  classA := { vid := 2, priority := 3 }
  classB := { vid := 2, priority := 2 }

def Luck.good : Luck := ⟨true, true, true, true, true, true, nextPlace, nextPlace_free⟩

def sampleTalker (uniqueID : UInt16) : EndpointConfig.TalkerRegister where
  streamID := { addr := emptyMAC, uniqueID }
  destAddr := emptyMAC
  maxFrameSize := 100
  maxIntervalFrames := 1
  srClass := srClassA
  latency := 0

/-! ## What the endpoint server can do -/

open Function List

variable {s : Server} {ps : ClientStream}

theorem AVBStreamID.octets_inj {id id' : AVBStreamID} (h : id.octets = id'.octets) : id = id' := by
  obtain ⟨haddr, htail⟩ := append_inj h (id.addr.2.trans id'.addr.2.symm)
  simp only [List.cons.injEq, and_true] at htail
  have hhigh := congrArg UInt8.toNat htail.1
  have hlow := congrArg UInt8.toNat htail.2
  simp at hhigh hlow
  have huid : id.uniqueID = id'.uniqueID := by
    apply UInt16.toNat_inj.mp
    have := id.uniqueID.toNat_lt
    have := id'.uniqueID.toNat_lt
    omega
  cases id
  cases id'
  simp_all [Subtype.ext_iff]

theorem record_cases (s : Server) (ptr : Nat) :
    (∀ ps ∈ s.streamList, ps.ptr ≠ ptr) ∧ s.record ptr = none ∨
      ∃ l₁ ps l₂, s.streamList = l₁ ++ ps :: l₂ ∧ (∀ ps' ∈ l₁, ps'.ptr ≠ ps.ptr) ∧
        ps.ptr = ptr ∧ s.record ptr = some ps := by
  obtain ⟨hnone, hfind⟩ | ⟨l₁, ps, l₂, hsplit, hfirst, hptr, hfind⟩ :=
    find?_cases (fun ps : ClientStream => ps.ptr = ptr) s.streamList
  · exact .inl ⟨by simpa using hnone, hfind⟩
  · have hptr : ps.ptr = ptr := by simpa using hptr
    subst hptr
    exact .inr ⟨l₁, ps, l₂, hsplit, by simpa using hfirst, rfl, hfind⟩

theorem findStream_cases (s : Server) (streamID : AVBStreamID) :
    (∀ ps ∈ s.streamList, ps.streamID ≠ streamID) ∧ s.findStream streamID = none ∨
      ∃ l₁ ps l₂, s.streamList = l₁ ++ ps :: l₂ ∧ (∀ ps' ∈ l₁, ps'.streamID ≠ ps.streamID) ∧
        ps.streamID = streamID ∧ s.findStream streamID = some ps := by
  obtain ⟨hnone, hfind⟩ | ⟨l₁, ps, l₂, hsplit, hfirst, hid, hfind⟩ :=
    find?_cases (fun ps : ClientStream => ps.streamID = streamID) s.streamList
  · exact .inl ⟨by simpa using hnone, hfind⟩
  · have hid : ps.streamID = streamID := by simpa using hid
    subst hid
    exact .inr ⟨l₁, ps, l₂, hsplit, by simpa using hfirst, rfl, hfind⟩

theorem delStream_eq (hsplit : s.streamList = l₁ ++ ps :: l₂)
    (hplaces : (s.streamList.map (·.ptr)).Nodup) : (s.delStream ps.ptr).streamList = l₁ ++ l₂ := by
  rw [Server.delStream, hsplit]
  refine removeFirst_append ?_ (by simp)
  rintro ps' hps'
  rw [hsplit, map_append, map_cons] at hplaces
  have hne := disjoint_of_nodup_append hplaces (mem_map_of_mem hps')
  simpa using fun heq : ps'.ptr = ps.ptr => hne (heq ▸ mem_cons_self)

theorem delStream_new (hnew : ∀ ps' ∈ s.streamList, ps'.ptr ≠ ps.ptr) :
    removeFirst (fun ps' => ps'.ptr = ps.ptr) (s.streamList ++ [ps]) = s.streamList := by
  rw [removeFirst_append (by simpa using hnew) (by simp), append_nil]

namespace EndpointConfig

variable (cfg : EndpointConfig)

def withdrawn (streamID : AVBStreamID) (elems : List StrElem) : List StrElem :=
  if cfg.noSrp then elems else openavbSrpDeregisterStream streamID.octets elems

def releasedBy (ps : ClientStream) (taken : MaapAllocList) : MaapAllocList :=
  match ps.hndMaap with
  | some i => update taken i false
  | none => taken

theorem maapRelease_eq (ps : ClientStream) (s : Server) :
    maapRelease ps s = { s with maap := releasedBy ps s.maap } := by
  cases h : ps.hndMaap <;> simp [maapRelease, releasedBy, h]

theorem srpDeregister_eq (streamID : AVBStreamID) (s : Server) :
    cfg.srpDeregister streamID s =
      { s with strElemList := cfg.withdrawn streamID s.strElemList } := by
  unfold srpDeregister withdrawn
  split <;> rfl

theorem stop_talker (h : ps.role = .talker) :
    cfg.stop ps s =
      { s with
        streamList := (s.delStream ps.ptr).streamList
        strElemList := cfg.withdrawn ps.streamID s.strElemList
        qmgr := openavbQmgrRemoveStream ps.fwmark s.qmgr
        maap := releasedBy ps s.maap } := by
  simp only [stop, h, xTalkerDeregister, srpDeregister_eq, maapRelease_eq, Server.delStream]
  by_cases hmark : ps.fwmark = invalidFwmark
  · simp [hmark, openavbQmgrRemoveStream]
  · simp [hmark]

theorem stop_listener (h : ps.role = .listener) :
    cfg.stop ps s =
      { s with
        streamList := (s.delStream ps.ptr).streamList
        strElemList := cfg.withdrawn ps.streamID s.strElemList } := by
  simp only [stop, h, xListenerDetach, srpDeregister_eq, Server.delStream]

theorem stop_lists (hrole : ps.role ≠ .none) :
    (cfg.stop ps s).streamList = (s.delStream ps.ptr).streamList ∧
      (cfg.stop ps s).strElemList = cfg.withdrawn ps.streamID s.strElemList := by
  cases h : ps.role with
  | none => exact absurd h hrole
  | talker => simp [stop_talker cfg h]
  | listener => simp [stop_listener cfg h]

theorem openavbEptSrvrCloseClientConnection_cases (h : Nat) (s : Server) :
    (∀ ps ∈ s.streamList, ps.clientHandle ≠ h) ∧ cfg.openavbEptSrvrCloseClientConnection h s = s ∨
      ∃ l₁ ps l₂, s.streamList = l₁ ++ ps :: l₂ ∧ (∀ ps' ∈ l₁, ps'.clientHandle ≠ h) ∧
        ps.clientHandle = h ∧ cfg.openavbEptSrvrCloseClientConnection h s = cfg.stop ps s := by
  unfold openavbEptSrvrCloseClientConnection
  obtain ⟨hnone, hfind⟩ | ⟨l₁, ps, l₂, hsplit, hfirst, hhandle, hfind⟩ :=
    find?_cases (fun ps : ClientStream => ps.clientHandle = h) s.streamList
  · exact .inl ⟨by simpa using hnone, by rw [hfind]⟩
  · exact .inr ⟨l₁, ps, l₂, hsplit, by simpa using hfirst, by simpa using hhandle, by rw [hfind]⟩

theorem sendToClient_rule {P : Server → Prop} (hs : P s)
    (hclose : write = false → P (cfg.socketClose h s)) :
    P (cfg.openavbEptSrvrSendToClient write h s) := by
  unfold openavbEptSrvrSendToClient
  split
  · exact hs
  · cases write with
    | true => exact hs
    | false => exact hclose rfl

/-- A record after its queues were set up or torn down is the record with another mark. -/
structure SameStream (ps ps' : ClientStream) : Prop where
  ptr : ps'.ptr = ps.ptr
  clientHandle : ps'.clientHandle = ps.clientHandle
  streamID : ps'.streamID = ps.streamID
  role : ps'.role = ps.role
  hndMaap : ps'.hndMaap = ps.hndMaap

theorem SameStream.refl (ps : ClientStream) : SameStream ps ps := ⟨rfl, rfl, rfl, rfl, rfl⟩

theorem SameStream.of_mem {ps' x : ClientStream} (h : SameStream ps ps')
    (hx : x ∈ l₁ ++ ps' :: l₂) : ∃ y ∈ l₁ ++ ps :: l₂, SameStream y x := by
  rw [mem_append, mem_cons] at hx
  obtain hx | rfl | hx := hx
  · exact ⟨x, mem_append_left _ hx, .refl x⟩
  · exact ⟨ps, mem_append_right _ mem_cons_self, h⟩
  · exact ⟨x, mem_append_right _ (mem_cons_of_mem ps hx), .refl x⟩

structure Requeued (ps : ClientStream) (q : QmgrStreams) (ps' : ClientStream) (q' : QmgrStreams) :
    Prop extends SameStream ps ps' where
  marks : ps'.fwmark = ps.fwmark ∧ q' = q ∨
    ps.fwmark = invalidFwmark ∧ ps'.fwmark ≠ invalidFwmark ∧ ¬ MarkInUse q ps'.fwmark ∧
      (∀ m, MarkInUse q' m ↔ MarkInUse q m ∨ m = ps'.fwmark) ∨
    ps.fwmark ≠ invalidFwmark ∧ ps'.fwmark = invalidFwmark ∧
      q' = openavbQmgrRemoveStream ps.fwmark q

theorem attachQueues_cases (hwQueue : Bool) (lsnrDecl : UInt32) (ps : ClientStream)
    (q : QmgrStreams) :
    ∃ ok ps' q', attachQueues hwQueue lsnrDecl ps q = (ok, ps', q') ∧ Requeued ps q ps' q' := by
  unfold attachQueues
  split
  · split
    · exact ⟨_, _, _, rfl, .refl ps, .inl ⟨rfl, rfl⟩⟩
    · rename_i hmark
      have hmark := not_not.mp hmark
      cases openavbSrpGetClassParams ps.srClass with
      | none => exact ⟨_, _, _, rfl, .refl ps, .inl ⟨rfl, rfl⟩⟩
      | some classRate =>
        dsimp only
        obtain hadd | ⟨m, q', hadd, hvalid, hfree, huse⟩ :=
          openavbQmgrAddStream_spec hwQueue ps.srClass.toNat classRate
            ps.maxIntervalFrames.toNat ps.maxFrameSize.toNat q
        · rw [hadd]
          exact ⟨_, _, _, rfl, .mk rfl rfl rfl rfl rfl, .inl ⟨hmark.symm, rfl⟩⟩
        · rw [hadd]
          exact ⟨_, _, _, rfl, .mk rfl rfl rfl rfl rfl, .inr (.inl ⟨hmark, hvalid, hfree, huse⟩)⟩
  · split
    · rename_i hmark
      exact ⟨_, _, _, rfl, .mk rfl rfl rfl rfl rfl, .inr (.inr ⟨hmark, rfl, rfl⟩)⟩
    · exact ⟨_, _, _, rfl, .refl ps, .inl ⟨rfl, rfl⟩⟩

theorem attachQueues_info (hwQueue : Bool) (q : QmgrStreams) (h : ps.fwmark = invalidFwmark) :
    attachQueues hwQueue ldStStreamInfo ps q = (true, ps, q) := by
  simp [attachQueues, ldStStreamInfo, ldStReady, ldStReadyFailed, h]

theorem strmAttachCb_cases (hwQueue write : Bool) (ptr : Nat) (lsnrDecl : UInt32) (s : Server) :
    (∀ ps ∈ s.streamList, ps.ptr ≠ ptr) ∧ cfg.strmAttachCb hwQueue write ptr lsnrDecl s = s ∨
      ∃ l₁ ps l₂, ∃ ok : Bool, ∃ ps' q', s.streamList = l₁ ++ ps :: l₂ ∧ ps.ptr = ptr ∧
        Requeued ps s.qmgr ps' q' ∧
        cfg.strmAttachCb hwQueue write ptr lsnrDecl s =
          if ok then
            cfg.openavbEptSrvrSendToClient write ps.clientHandle
              { s with streamList := l₁ ++ ps' :: l₂, qmgr := q' }
          else { s with streamList := l₁ ++ ps' :: l₂, qmgr := q' } := by
  unfold strmAttachCb
  obtain ⟨hnone, hrecord⟩ | ⟨l₁, ps, l₂, hsplit, hfirst, hptr, hrecord⟩ := record_cases s ptr
  · exact .inl ⟨hnone, by rw [hrecord]⟩
  · obtain ⟨ok, ps', q', hqueues, hsame⟩ := attachQueues_cases hwQueue lsnrDecl ps s.qmgr
    refine .inr ⟨l₁, ps, l₂, ok, ps', q', hsplit, hptr, hsame, ?_⟩
    have hstore : (s.store ps').streamList = l₁ ++ ps' :: l₂ := by
      rw [Server.store, hsplit, hsame.ptr]
      exact updateFirst_append (by simpa using hfirst) (by simp)
    simp only [hrecord, hqueues, hstore, hsame.clientHandle]
    rfl

theorem strmRegCb_rule {P : Server → Prop} (hs : P s) (hclose : ∀ ps ∈ s.streamList,
      ps.ptr = place → write = false → P (cfg.socketClose ps.clientHandle s)) :
    P (cfg.strmRegCb write place s) := by
  unfold strmRegCb
  obtain ⟨-, hrecord⟩ | ⟨l₁, ps, l₂, hsplit, -, hptr, hrecord⟩ := record_cases s place
  · rwa [hrecord]
  · rw [hrecord]
    exact cfg.sendToClient_rule hs (hclose ps (by simp [hsplit]) hptr)

theorem newStream_ptr (luck : Luck) (h : Nat) (streamID : AVBStreamID) (role : ClientRole)
    (s : Server) : ∀ ps ∈ s.streamList, ps.ptr ≠ (newStream luck h streamID role s).ptr := by
  rintro ps hps heq
  exact luck.place_free (s.streamList.map (·.ptr)) (mem_map.mpr ⟨ps, hps, heq⟩)

structure NewTalker (h : Nat) (msg : TalkerRegister) (s : Server) (ps : ClientStream)
    (taken : MaapAllocList) : Prop where
  ptr : ∀ ps' ∈ s.streamList, ps'.ptr ≠ ps.ptr
  clientHandle : ps.clientHandle = h
  streamID : ps.streamID = cfg.fillIn msg.streamID
  role : ps.role = .talker
  srClass : ps.srClass = msg.srClass
  fwmark : ps.fwmark = invalidFwmark
  hndMaap : ps.hndMaap = none ∧ taken = s.maap ∨
    ∃ i, openavbMaapAllocate s.maap = some i ∧ ps.hndMaap = some i ∧ taken = update s.maap i true

theorem strmAttachCb_info (hwQueue write : Bool) (ps : ClientStream) (s : Server)
    (hh : ps.clientHandle < pollFdCount) (hopen : s.connected ps.clientHandle = true)
    (hmark : ps.fwmark = invalidFwmark) (hnew : ∀ ps' ∈ s.streamList, ps'.ptr ≠ ps.ptr) :
    cfg.strmAttachCb hwQueue write ps.ptr ldStStreamInfo
        { s with streamList := s.streamList ++ [ps] } =
      if write then { s with streamList := s.streamList ++ [ps] }
      else cfg.socketClose ps.clientHandle { s with streamList := s.streamList ++ [ps] } := by
  have hrecord : Server.record { s with streamList := s.streamList ++ [ps] } ps.ptr = some ps := by
    rw [Server.record, find?_append, find?_eq_none.mpr (by simpa using hnew)]
    simp
  have hstore : updateFirst (fun ps' => ps'.ptr = ps.ptr) (fun _ => ps) (s.streamList ++ [ps]) =
      s.streamList ++ [ps] :=
    updateFirst_append (by simpa using hnew) (by simp)
  simp [strmAttachCb, hrecord, attachQueues_info hwQueue s.qmgr hmark, Server.store, hstore,
    openavbEptSrvrSendToClient, Nat.not_le.mpr hh, hopen]

theorem registerNew_cases (luck : Luck) (h : Nat) (msg : TalkerRegister) (s : Server)
    (hh : h < pollFdCount) (hopen : s.connected h = true) :
    (luck.calloc = false ∨ msg.destAddr = emptyMAC ∧ openavbMaapAllocate s.maap = none) ∧
        cfg.registerNew luck h msg s = (false, s) ∨
      (luck.calloc = true ∧ (msg.destAddr = emptyMAC → openavbMaapAllocate s.maap ≠ none)) ∧
        ∃ ps taken, cfg.NewTalker h msg s ps taken ∧
          cfg.registerNew luck h msg s = cfg.registerSrp luck ps
            (if msg.destAddr = emptyMAC ∧ luck.infoWrite = false then
              cfg.socketClose h { s with streamList := s.streamList ++ [ps], maap := taken }
            else { s with streamList := s.streamList ++ [ps], maap := taken }) := by
  have hptr : ∀ ps ∈ s.streamList, ps.ptr ≠ (cfg.newTalker luck h msg s).ptr :=
    newStream_ptr luck h (cfg.fillIn msg.streamID) .talker s
  unfold registerNew
  cases hcalloc : luck.calloc with
  | false => exact .inl ⟨.inl rfl, rfl⟩
  | true =>
    by_cases hdest : msg.destAddr = emptyMAC
    · cases hmaap : openavbMaapAllocate s.maap with
      | none =>
        refine .inl ⟨.inr ⟨hdest, rfl⟩, ?_⟩
        simp [hdest, addStream, Server.delStream, delStream_new hptr]
      | some i =>
        refine .inr ⟨⟨rfl, fun _ => nofun⟩,
          { cfg.newTalker luck h msg s with hndMaap := some i, destAddr := maapDestAddr i },
          update s.maap i true, ⟨hptr, rfl, rfl, rfl, rfl, rfl, .inr ⟨i, hmaap, rfl, rfl⟩⟩, ?_⟩
        have hinfo := cfg.strmAttachCb_info luck.hwQueue luck.infoWrite
          { cfg.newTalker luck h msg s with hndMaap := some i, destAddr := maapDestAddr i }
          { s with maap := update s.maap i true } hh hopen rfl hptr
        simp only [hdest, if_true, addStream]
        rw [if_neg (by simp), hinfo]
        cases luck.infoWrite <;> simp
        rfl
    · refine .inr ⟨⟨rfl, fun h => absurd h hdest⟩,
        { cfg.newTalker luck h msg s with destAddr := msg.destAddr }, s.maap,
        ⟨hptr, rfl, rfl, rfl, rfl, rfl, .inl ⟨rfl, rfl⟩⟩, ?_⟩
      simp [hdest, addStream]

theorem registerSrp_cases (luck : Luck) (ps : ClientStream) (s : Server)
    (hsrp : cfg.noSrp = false) :
    luck.listNew = false ∧ cfg.registerSrp luck ps s =
        (false, { s with
          streamList := (s.delStream ps.ptr).streamList, maap := releasedBy ps s.maap }) ∨
      luck.listNew = true ∧ ∃ e : StrElem, e.avtpHandle = ps.ptr ∧ e.talker = true ∧
        e.streamId = ps.streamID.octets ∧
        cfg.registerSrp luck ps s =
          if (ps.srClass = srClassA ∨ ps.srClass = srClassB) ∧ luck.advertise = true then
            (true, { s with strElemList := s.strElemList ++ [e] })
          else
            (false, { s with
              streamList := (s.delStream ps.ptr).streamList
              strElemList := s.strElemList ++ [e]
              maap := releasedBy ps s.maap }) := by
  obtain ⟨hnew, hsrpReg⟩ | ⟨e, hnew, hptr, htalker, hid, hsrpReg⟩ :=
    openavbSrpRegisterStream_cases cfg.classA cfg.classB luck.listNew luck.advertise ps.ptr
      ps.streamID.octets ps.destAddr.val ps.maxFrameSize ps.maxIntervalFrames ps.srClass
      ps.latency s.strElemList
  · exact .inl ⟨hnew, by simp [registerSrp, hsrp, hsrpReg, maapRelease_eq, Server.delStream]⟩
  · refine .inr ⟨hnew, e, hptr, htalker, hid, ?_⟩
    simp [registerSrp, hsrp, hsrpReg, maapRelease_eq, Server.delStream]

theorem attachSrp_cases (luck : Luck) (ps : ClientStream) (lsnrDecl : UInt32) (s : Server) :
    cfg.noSrp = true ∧ (cfg.attachSrp luck ps lsnrDecl s = (true, s) ∨
        cfg.attachSrp luck ps lsnrDecl s = (true, cfg.strmRegCb luck.write ps.ptr s)) ∨
      cfg.noSrp = false ∧ (∃ e ∈ s.strElemList, e.streamId = ps.streamID.octets) ∧
        cfg.attachSrp luck ps lsnrDecl s = (true, s) ∨
      cfg.noSrp = false ∧ (∀ e ∈ s.strElemList, e.streamId ≠ ps.streamID.octets) ∧
        ((∃ e : StrElem, e.avtpHandle = ps.ptr ∧ e.talker = false ∧
            e.streamId = ps.streamID.octets ∧ cfg.attachSrp luck ps lsnrDecl s =
              (true, { s with strElemList := s.strElemList ++ [e] })) ∨
          cfg.attachSrp luck ps lsnrDecl s = (false, s.delStream ps.ptr)) := by
  unfold attachSrp
  cases hsrp : cfg.noSrp with
  | true =>
    refine .inl ⟨rfl, ?_⟩
    by_cases hdecl : lsnrDecl = ldStInterest
    · exact .inr (by simp [hdecl])
    · exact .inl (by simp [hdecl])
  | false =>
    refine .inr ?_
    by_cases hany : ∃ e ∈ s.strElemList, e.streamId = ps.streamID.octets
    · refine .inl ⟨rfl, hany, ?_⟩
      simp [openavbSrpAttachStream, hany]
    · refine .inr ⟨rfl, by simpa using hany, ?_⟩
      cases hnew : luck.listNew with
      | true => exact .inl ⟨_, rfl, rfl, rfl, by simp [openavbSrpAttachStream, hany]; rfl⟩
      | false => exact .inr (by simp [openavbSrpAttachStream, hany, Server.delStream])

end EndpointConfig

end OpenAvb.Endpoint
