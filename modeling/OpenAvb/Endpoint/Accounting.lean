import OpenAvb.Ledger
import OpenAvb.Endpoint.Server

/-!
# The books of the endpoint

Every mark of the queue manager and every address of the pool that is in use is
held by one listed stream, no StreamID is listed twice, and no stream is listed
for a client that is gone, as long as a client has one stream at a time.
-/

namespace OpenAvb.Endpoint

section

open ClientStream List

variable {s : Server} {ps : ClientStream} {l₁ l₂ : List ClientStream}

def ClientStream.mark (ps : ClientStream) : Option Nat :=
  if ps.fwmark = invalidFwmark then none else some ps.fwmark

structure InOrder (s : Server) : Prop where
  ids : (s.streamList.map (·.streamID)).Nodup
  marks : Accounted (MarkInUse s.qmgr) mark s.streamList
  addresses : Accounted (MaapTaken s.maap) (·.hndMaap) s.streamList
  clients : ∀ ps ∈ s.streamList, s.connected ps.clientHandle = true

/-- The client has at most one stream. -/
def Server.Single (s : Server) (handle : Nat) : Prop :=
  s.streamList.countP (·.clientHandle = handle) ≤ 1

theorem eq_of_new {ps' : ClientStream} (hnew : ∀ ps' ∈ s.streamList, ps'.ptr ≠ ps.ptr)
    (hmem : ps' ∈ s.streamList ++ [ps]) (hptr : ps'.ptr = ps.ptr) : ps' = ps := by
  obtain hmem | hsame := mem_append.mp hmem
  · exact absurd hptr (hnew ps' hmem)
  · exact mem_singleton.mp hsame

theorem single_new {s' : Server} (hlist : s'.streamList = s.streamList ++ [ps])
    (hclient : ∀ ps' ∈ s.streamList, ps'.clientHandle ≠ ps.clientHandle) :
    s'.Single ps.clientHandle := by
  have hnone : s.streamList.countP (·.clientHandle = ps.clientHandle) = 0 := by
    simpa [countP_eq_zero] using hclient
  simp [Server.Single, hlist, hnone]

/-- Places differ, a listener holds nothing, and with SRP every stream has an element. -/
structure EndpointConfig.Books (cfg : EndpointConfig) (s : Server) : Prop extends InOrder s where
  places : (s.streamList.map (·.ptr)).Nodup
  roles : ∀ ps ∈ s.streamList, ps.role ≠ .none
  listeners : ∀ ps ∈ s.streamList, ps.role = .listener → ps.mark = none ∧ ps.hndMaap = none
  proxied : cfg.noSrp = false → ∀ ps ∈ s.streamList, ∃ e ∈ s.strElemList,
    e.streamId = ps.streamID.octets

theorem accounted_removeStream (h : Accounted (MarkInUse q) mark (ps :: l)) :
    Accounted (MarkInUse (openavbQmgrRemoveStream ps.fwmark q)) mark l := by
  by_cases hmark : ps.fwmark = invalidFwmark
  · have hsame : openavbQmgrRemoveStream ps.fwmark q = q := by simp [openavbQmgrRemoveStream, hmark]
    rw [hsame]
    exact (accounted_cons_none (by simp [mark, hmark])).mp h
  · have hheld : ps.mark = some ps.fwmark := by simp [mark, hmark]
    have huse : MarkInUse q ps.fwmark := (h.held ps.fwmark).mpr (by simp [hheld])
    exact h.release hheld fun m => openavbQmgrRemoveStream_spec huse m

variable {taken : MaapAllocList} {streamID : AVBStreamID}

theorem accounted_releasedBy (h : Accounted (MaapTaken taken) (·.hndMaap) (ps :: l)) :
    Accounted (MaapTaken (EndpointConfig.releasedBy ps taken)) (·.hndMaap) l := by
  unfold EndpointConfig.releasedBy
  cases haddr : ps.hndMaap with
  | none => exact (accounted_cons_none haddr).mp h
  | some i => exact h.release haddr fun j => maapTaken_release j

namespace EndpointConfig

variable {cfg : EndpointConfig}

section

variable (h : cfg.Books s) (hsplit : s.streamList = l₁ ++ ps :: l₂)
include h hsplit

theorem Books.remove {s' : Server}
    (hlist : s'.streamList = l₁ ++ l₂) (hconnected : s'.connected = s.connected)
    (hmarks : Accounted (MarkInUse s'.qmgr) mark (l₁ ++ l₂))
    (haddresses : Accounted (MaapTaken s'.maap) (·.hndMaap) (l₁ ++ l₂))
    (hproxied : cfg.noSrp = false → ∀ ps' ∈ l₁ ++ l₂, ∃ e ∈ s'.strElemList,
      e.streamId = ps'.streamID.octets) : cfg.Books s' := by
  have hsub : (l₁ ++ l₂).Sublist s.streamList := by
    rw [hsplit]
    exact List.Sublist.append_left (sublist_cons_self ps l₂) l₁
  constructor
  · constructor
    · rw [hlist]
      exact h.ids.sublist (hsub.map _)
    · rwa [hlist]
    · rwa [hlist]
    · rw [hlist, hconnected]
      exact fun ps' hps' => h.clients ps' (hsub.subset hps')
  · rw [hlist]
    exact h.places.sublist (hsub.map _)
  · rw [hlist]
    exact fun ps' hps' => h.roles ps' (hsub.subset hps')
  · rw [hlist]
    exact fun ps' hps' => h.listeners ps' (hsub.subset hps')
  · rw [hlist]
    exact hproxied

theorem Books.withdrawn
    (hsrp : cfg.noSrp = false) : ∀ ps' ∈ l₁ ++ l₂, ∃ e ∈ cfg.withdrawn ps.streamID s.strElemList,
      e.streamId = ps'.streamID.octets := by
  intro ps' hps'
  have hmem : ps' ∈ s.streamList := by
    rw [hsplit]
    exact (List.Sublist.append_left (sublist_cons_self ps l₂) l₁).subset hps'
  obtain ⟨e, he, hid⟩ := h.proxied hsrp ps' hmem
  have hne : ps'.streamID ≠ ps.streamID := by
    have hids := h.ids
    rw [hsplit, (perm_middle.map _).nodup_iff, map_cons, nodup_cons] at hids
    exact fun heq => hids.1 (heq ▸ mem_map_of_mem hps')
  refine ⟨e, ?_, hid⟩
  rw [EndpointConfig.withdrawn, if_neg (by simp [hsrp])]
  refine mem_removeFirst (decide_eq_false fun heq => ?_) he
  exact hne (AVBStreamID.octets_inj (hid.symm.trans heq))

theorem Books.stop : cfg.Books (cfg.stop ps s) ∧ (cfg.stop ps s).streamList = l₁ ++ l₂ := by
  have hps : ps ∈ s.streamList := by simp [hsplit]
  have hdel := delStream_eq hsplit h.places
  have hmarks := h.marks.perm (hsplit ▸ perm_middle)
  have haddresses := h.addresses.perm (hsplit ▸ perm_middle)
  cases hrole : ps.role with
  | none => exact absurd hrole (h.roles ps hps)
  | talker =>
    rw [stop_talker cfg hrole]
    exact ⟨h.remove hsplit hdel rfl (accounted_removeStream hmarks)
      (accounted_releasedBy haddresses) (h.withdrawn hsplit), hdel⟩
  | listener =>
    obtain ⟨hmark, haddr⟩ := h.listeners ps hps hrole
    rw [stop_listener cfg hrole]
    exact ⟨h.remove hsplit hdel rfl ((accounted_cons_none hmark).mp hmarks)
      ((accounted_cons_none haddr).mp haddresses) (h.withdrawn hsplit), hdel⟩

end

section

variable (h : cfg.Books s)
include h

theorem Books.close (hsingle : s.Single handle) :
    cfg.Books (cfg.openavbEptSrvrCloseClientConnection handle s) ∧
      ∀ ps ∈ (cfg.openavbEptSrvrCloseClientConnection handle s).streamList,
        ps.clientHandle ≠ handle := by
  obtain ⟨hnone, hsame⟩ | ⟨l₁, ps, l₂, hsplit, -, hhandle, hstop⟩ :=
    cfg.openavbEptSrvrCloseClientConnection_cases handle s
  · rw [hsame]
    exact ⟨h, hnone⟩
  · obtain ⟨hbooks, hlist⟩ := h.stop hsplit
    rw [hstop, hlist]
    refine ⟨hbooks, fun ps' hps' heq => ?_⟩
    rw [Server.Single, hsplit, perm_middle.countP_eq, countP_cons_of_pos (by simpa using hhandle)]
      at hsingle
    have hrest := countP_eq_zero.mp (Nat.le_zero.mp (Nat.le_of_succ_le_succ hsingle))
    simpa [heq] using hrest ps' hps'

theorem Books.socketClose (hsingle : s.Single handle) : cfg.Books (cfg.socketClose handle s) := by
  unfold EndpointConfig.socketClose
  split
  · exact h
  · obtain ⟨hbooks, hnone⟩ := h.close hsingle
    refine { hbooks with clients := fun ps hps => ?_ }
    have hne : ps.clientHandle ≠ handle := hnone ps hps
    simpa [Function.update_of_ne hne] using hbooks.clients ps hps

theorem Books.send (hsingle : write = false → s.Single handle) :
    cfg.Books (cfg.openavbEptSrvrSendToClient write handle s) :=
  cfg.sendToClient_rule h fun hwrite => h.socketClose (hsingle hwrite)

variable {ps' : ClientStream}

theorem Books.requeue (hsplit : s.streamList = l₁ ++ ps :: l₂) {q' : QmgrStreams}
    (hqueues : Requeued ps s.qmgr ps' q') (hrole : ps.role = .talker) :
    cfg.Books { s with streamList := l₁ ++ ps' :: l₂, qmgr := q' } := by
  have hmem : ∀ x ∈ l₁ ++ ps' :: l₂, ∃ y ∈ s.streamList, SameStream y x :=
    fun x hx => hsplit ▸ hqueues.toSameStream.of_mem hx
  have hmarks := h.marks.perm (hsplit ▸ perm_middle)
  have haddresses := h.addresses.perm (hsplit ▸ perm_middle)
  have hmarks' : Accounted (MarkInUse q') mark (ps' :: (l₁ ++ l₂)) := by
    obtain ⟨hmark, rfl⟩ | ⟨hnone, hvalid, hfree, huse⟩ | ⟨-, hnone, rfl⟩ := hqueues.marks
    · exact hmarks.replace (by simp [mark, hmark])
    · refine Accounted.acquire ?_ (by simp [mark, hvalid]) hfree huse
      exact (accounted_cons_none (by simp [mark, hnone])).mp hmarks
    · refine (accounted_cons_none (by simp [mark, hnone])).mpr ?_
      exact accounted_removeStream hmarks
  constructor
  · constructor
    · simpa [hsplit, hqueues.streamID] using h.ids
    · exact hmarks'.perm perm_middle.symm
    · exact (haddresses.replace hqueues.hndMaap).perm perm_middle.symm
    · intro x hx
      obtain ⟨y, hy, hxy⟩ := hmem x hx
      simpa [hxy.clientHandle] using h.clients y hy
  · simpa [hsplit, hqueues.ptr] using h.places
  · intro x hx
    obtain ⟨y, hy, hxy⟩ := hmem x hx
    simpa [hxy.role] using h.roles y hy
  · intro x hx hlistener
    obtain hx | rfl | hx : x ∈ l₁ ∨ x = ps' ∨ x ∈ l₂ := by simpa using hx
    · exact h.listeners x (by simp [hsplit, hx]) hlistener
    · simp [hqueues.role, hrole] at hlistener
    · exact h.listeners x (by simp [hsplit, hx]) hlistener
  · intro hsrp x hx
    obtain ⟨y, hy, hxy⟩ := hmem x hx
    simpa [hxy.streamID] using h.proxied hsrp y hy

theorem Books.strmAttachCb (hwQueue write : Bool) (ptr : Nat) (lsnrDecl : UInt32)
    (hcalled : ∀ ps ∈ s.streamList, ps.ptr = ptr →
      ps.role = .talker ∧ (write = false → s.Single ps.clientHandle)) :
    cfg.Books (cfg.strmAttachCb hwQueue write ptr lsnrDecl s) := by
  obtain ⟨-, hcb⟩ | ⟨l₁, ps, l₂, ok, ps', q', hsplit, hptr, hqueues, hcb⟩ :=
    cfg.strmAttachCb_cases hwQueue write ptr lsnrDecl s
  · rwa [hcb]
  · obtain ⟨hrole, hsingle⟩ := hcalled ps (by simp [hsplit]) hptr
    have hbooks := h.requeue hsplit hqueues hrole
    rw [hcb]
    split
    · refine hbooks.send fun hwrite => ?_
      simpa [Server.Single, hsplit, hqueues.clientHandle, countP_cons] using hsingle hwrite
    · exact hbooks

theorem Books.strmRegCb (write : Bool) (ptr : Nat) (hcalled : ∀ ps ∈ s.streamList, ps.ptr = ptr →
    write = false → s.Single ps.clientHandle) : cfg.Books (cfg.strmRegCb write ptr s) :=
  cfg.strmRegCb_rule h fun ps hps hptr hwrite => h.socketClose (hcalled ps hps hptr hwrite)

theorem Books.add (ps : ClientStream)
    (elems : List StrElem)
    (hptr : ∀ ps' ∈ s.streamList, ps'.ptr ≠ ps.ptr)
    (hopen : s.connected ps.clientHandle = true)
    (hid : ∀ ps' ∈ s.streamList, ps'.streamID ≠ ps.streamID)
    (hrole : ps.role ≠ .none) (hmark : ps.fwmark = invalidFwmark)
    (haddress : ps.hndMaap = none ∧ taken = s.maap ∨
      ps.role = .talker ∧ ∃ i, openavbMaapAllocate s.maap = some i ∧ ps.hndMaap = some i ∧
        taken = Function.update s.maap i true)
    (helem : cfg.noSrp = false → ∃ e ∈ s.strElemList ++ elems, e.streamId = ps.streamID.octets) :
    cfg.Books { s with
      streamList := s.streamList ++ [ps], maap := taken
      strElemList := s.strElemList ++ elems } := by
  have hnone : ps.mark = none := by simp [mark, hmark]
  have hperm : (ps :: s.streamList).Perm (s.streamList ++ [ps]) :=
    (perm_append_singleton ps s.streamList).symm
  constructor
  · constructor
    · simpa [nodup_append, h.ids] using hid
    · exact ((accounted_cons_none hnone).mpr h.marks).perm hperm
    · refine Accounted.perm ?_ hperm
      obtain ⟨haddr, rfl⟩ | ⟨-, i, hfree, haddr, rfl⟩ := haddress
      · exact (accounted_cons_none haddr).mpr h.addresses
      · obtain ⟨hlt, hfree⟩ := openavbMaapAllocate_free hfree
        exact h.addresses.acquire haddr hfree fun j => maapTaken_take hlt j
    · simpa [or_imp, forall_and, hopen] using h.clients
  · simpa [nodup_append, h.places] using hptr
  · simpa [or_imp, forall_and, hrole] using h.roles
  · intro x hx hlistener
    obtain hx | rfl : x ∈ s.streamList ∨ x = ps := by simpa using hx
    · exact h.listeners x hx hlistener
    · obtain ⟨haddr, -⟩ | ⟨htalker, -⟩ := haddress
      · exact ⟨hnone, haddr⟩
      · simp [htalker] at hlistener
  · intro hsrp x hx
    obtain hx | rfl : x ∈ s.streamList ∨ x = ps := by simpa using hx
    · obtain ⟨e, he, hsame⟩ := h.proxied hsrp x hx
      exact ⟨e, mem_append_left _ he, hsame⟩
    · exact helem hsrp

theorem Books.elements (elems : List StrElem)
    (helems : ∀ e ∈ s.strElemList, ∃ e' ∈ elems, e'.streamId = e.streamId) :
    cfg.Books { s with strElemList := elems } := by
  refine { h with proxied := fun hsrp ps hps => ?_ }
  obtain ⟨e, he, hid⟩ := h.proxied hsrp ps hps
  obtain ⟨e', he', hid'⟩ := helems e he
  exact ⟨e', he', hid'.trans hid⟩

end

variable {luck : Luck} {handle : Nat} {msg : TalkerRegister}

theorem Books.registerNew (h : cfg.Books s) (hh : handle < pollFdCount)
    (hopen : s.connected handle = true)
    (hclient : luck.write = false → ∀ ps ∈ s.streamList, ps.clientHandle ≠ handle)
    (hid : ∀ ps ∈ s.streamList, ps.streamID ≠ cfg.fillIn msg.streamID)
    (hinfo : msg.destAddr = emptyMAC → luck.infoWrite = true) :
    cfg.Books (cfg.registerNew luck handle msg s).2 := by
  obtain ⟨-, hreg⟩ | ⟨-, ps, taken, hnew, hreg⟩ := cfg.registerNew_cases luck handle msg s hh hopen
  · rwa [hreg]
  rw [if_neg (by simp_all)] at hreg
  have hadd := fun elems => h.add ps elems hnew.ptr (by rwa [hnew.clientHandle])
    (by rwa [hnew.streamID]) (by simp [hnew.role]) hnew.fwmark (hnew.hndMaap.imp id (⟨hnew.role, ·⟩))
  have hback : releasedBy ps taken = s.maap := by
    obtain ⟨haddr, rfl⟩ | ⟨i, hfree, haddr, rfl⟩ := hnew.hndMaap
    · simp [releasedBy, haddr]
    · have hfree : s.maap i = false := by
        have := find?_some hfree
        simpa using this
      simp [releasedBy, haddr, ← hfree]
  have hdel : removeFirst (fun ps' => ps'.ptr = ps.ptr) (s.streamList ++ [ps]) = s.streamList :=
    delStream_new hnew.ptr
  rw [hreg]
  cases hsrp : cfg.noSrp with
  | true =>
    have hbooks := hadd [] (by simp [hsrp])
    rw [append_nil] at hbooks
    simp only [EndpointConfig.registerSrp, hsrp, if_true]
    refine hbooks.strmAttachCb _ _ _ _ fun ps' hps' hptr => ?_
    obtain rfl := eq_of_new hnew.ptr hps' hptr
    exact ⟨hnew.role, fun hwrite => single_new rfl (hnew.clientHandle ▸ hclient hwrite)⟩
  | false =>
    obtain ⟨-, hsrpReg⟩ | ⟨-, e, -, -, heid, hsrpReg⟩ := cfg.registerSrp_cases luck ps
      { s with streamList := s.streamList ++ [ps], maap := taken } hsrp
    · rw [hsrpReg]
      simpa [Server.delStream, hdel, hback] using h
    · rw [hsrpReg]
      split
      · exact hadd [e] fun _ => ⟨e, by simp, heid⟩
      · have hbooks := h.elements (s.strElemList ++ [e])
          fun e' he' => ⟨e', mem_append_left _ he', rfl⟩
        simpa [Server.delStream, hdel, hback] using hbooks

theorem Books.attachNew (h : cfg.Books s) (lsnrDecl : UInt32) (hopen : s.connected handle = true)
    (hclient : luck.write = false → ∀ ps ∈ s.streamList, ps.clientHandle ≠ handle)
    (hid : ∀ ps ∈ s.streamList, ps.streamID ≠ streamID) :
    cfg.Books (cfg.attachSrp luck (newStream luck handle streamID .listener s) lsnrDecl
      (addStream (newStream luck handle streamID .listener s) s)).2 := by
  have hptr := newStream_ptr luck handle streamID .listener s
  have hadd := fun elems => h.add (newStream luck handle streamID .listener s) elems hptr
    hopen hid (by simp [newStream]) rfl (.inl ⟨rfl, rfl⟩)
  obtain ⟨ps, hps, hhandle⟩ : ∃ ps, newStream luck handle streamID .listener s = ps ∧
      ps.clientHandle = handle := ⟨_, rfl, rfl⟩
  rw [hps] at hptr hadd ⊢
  have hplain := hadd []
  rw [append_nil] at hplain
  obtain ⟨hsrp, hattach⟩ | ⟨-, helem, hattach⟩ | ⟨hsrp, -, hattach⟩ :=
    cfg.attachSrp_cases luck ps lsnrDecl (addStream ps s)
  · have hbooks : cfg.Books (addStream ps s) := hplain (by simp [hsrp])
    obtain hattach | hattach := hattach
    · exact hattach ▸ hbooks
    · rw [hattach]
      refine hbooks.strmRegCb _ _ fun ps' hps' hptr' hwrite => ?_
      obtain rfl := eq_of_new hptr hps' hptr'
      exact single_new rfl (hhandle ▸ hclient hwrite)
  · exact hattach ▸ hplain fun _ => helem
  · obtain ⟨e, -, -, heid, hattach⟩ | hattach := hattach
    · rw [hattach]
      exact hadd [e] fun _ => ⟨e, by simp, heid⟩
    · rw [hattach]
      simpa [addStream, Server.delStream, delStream_new hptr] using h

theorem Books.attachOwn (h : cfg.Books s) (hps : ps ∈ s.streamList) (lsnrDecl : UInt32)
    (hsingle : luck.write = false → s.Single ps.clientHandle) :
    cfg.Books (cfg.attachSrp luck ps lsnrDecl s).2 := by
  obtain ⟨hsrp, hattach⟩ | ⟨-, -, hattach⟩ | ⟨hsrp, hnone, -⟩ :=
    cfg.attachSrp_cases luck ps lsnrDecl s
  · obtain hattach | hattach := hattach
    · exact hattach ▸ h
    · rw [hattach]
      refine h.strmRegCb _ _ fun ps' hps' hptr => ?_
      obtain rfl := inj_on_of_nodup_map h.places hps' hps hptr
      exact hsingle
  · exact hattach ▸ h
  · obtain ⟨e, he, hid⟩ := h.proxied hsrp ps hps
    exact absurd hid (hnone e he)

/-- The StreamID is one of another client, and a registration or an attachment is refused. -/
def Foreign (cfg : EndpointConfig) (handle : Nat) (streamID : AVBStreamID) (s : Server) : Prop :=
  ∃ ps ∈ s.streamList, ps.streamID = cfg.fillIn streamID ∧ ps.clientHandle ≠ handle

/-- A client does not register a stream twice, and is told its address. It has no other stream if it
cannot be written to. -/
def OrderlyMsg (cfg : EndpointConfig) (luck : Luck) (h : Nat) (s : Server) : ClientMsg → Prop
  | .talkerRegister msg =>
    cfg.Foreign h msg.streamID s ∨
      (∀ ps ∈ s.streamList, ps.streamID ≠ cfg.fillIn msg.streamID) ∧
        (msg.destAddr = emptyMAC → luck.infoWrite = true) ∧
          (luck.write = false → ∀ ps ∈ s.streamList, ps.clientHandle ≠ h)
  | .listenerAttach streamID _ =>
    luck.write = false → cfg.Foreign h streamID s ∨
      ∀ ps ∈ s.streamList, ps.clientHandle = h → ps.streamID = cfg.fillIn streamID
  | .versionRequest => luck.write = false → s.Single h
  | .clientStop _ | .other => True

/-- A client that goes, or is closed behind a request that is refused, has at most one stream left.
The first element that a callback finds is there for a listed stream. -/
def Orderly (cfg : EndpointConfig) (s : Server) (input : Op × Luck) : Prop :=
  match input.1 with
  | .connect => True
  | .disconnect h => s.Single h
  | .message h msg =>
    cfg.OrderlyMsg input.2 h s msg ∧
      let o := cfg.openavbEptSrvrReceiveFromClient input.2 h msg s
      (o.1 = false → o.2.Single h)
  | .attachCb streamid subtype =>
    ∀ e ∈ s.strElemList.find? (StrElem.talks streamid), e.subtype ≠ subtype →
      ∃ ps ∈ s.streamList, ps.ptr = e.avtpHandle ∧ ps.role = .talker ∧
        (input.2.write = false → s.Single ps.clientHandle)
  | .registerCb streamid join _ _ _ _ =>
    ∀ e ∈ s.strElemList.find? (StrElem.listens streamid),
      e.subtype ≠ (if join then 1 else 0) → ∃ ps ∈ s.streamList, ps.ptr = e.avtpHandle ∧
        (input.2.write = false → s.Single ps.clientHandle)

instance (handle : Nat) (streamID : AVBStreamID) (s : Server) :
    Decidable (cfg.Foreign handle streamID s) :=
  inferInstanceAs (Decidable (∃ ps ∈ s.streamList, _))

instance (s : Server) (handle : Nat) : Decidable (s.Single handle) :=
  inferInstanceAs (Decidable (_ ≤ _))

instance (luck : Luck) (h : Nat) (s : Server) :
    (msg : ClientMsg) → Decidable (cfg.OrderlyMsg luck h s msg)
  | .talkerRegister _ => inferInstanceAs (Decidable (_ ∨ (∀ _ ∈ _, _) ∧ (_ → _) ∧ (_ → _)))
  | .listenerAttach _ _ => inferInstanceAs (Decidable (_ → _ ∨ ∀ _ ∈ _, _))
  | .versionRequest => inferInstanceAs (Decidable (_ → _))
  | .clientStop _ | .other => isTrue trivial

instance (s : Server) : (input : Op × Luck) → Decidable (cfg.Orderly s input)
  | (.connect, _) => isTrue trivial
  | (.disconnect h, _) => inferInstanceAs (Decidable (s.Single h))
  | (.message _ _, _) => inferInstanceAs (Decidable (_ ∧ (_ → _)))
  | (.attachCb _ _, _) | (.registerCb _ _ _ _ _ _, _) => inferInstanceAs (Decidable (∀ _ ∈ _, _))

section

variable (h : cfg.Books s)
include h

theorem Books.foreign (hforeign : cfg.Foreign handle streamID s) :
    ∃ ps, s.findStream (cfg.fillIn streamID) = some ps ∧ ps.clientHandle ≠ handle := by
  obtain ⟨ps, hps, hid, hother⟩ := hforeign
  obtain ⟨hnone, -⟩ | ⟨l₁, ps', l₂, hsplit, -, hid', hfind⟩ :=
    findStream_cases s (cfg.fillIn streamID)
  · exact absurd hid (hnone ps hps)
  · have hsame : ps' = ps := inj_on_of_nodup_map h.ids (by simp [hsplit]) hps (hid'.trans hid.symm)
    exact ⟨ps, hsame ▸ hfind, hother⟩

theorem Books.register (hh : handle < pollFdCount) (hopen : s.connected handle = true)
    (horderly : cfg.OrderlyMsg luck handle s (.talkerRegister msg)) :
    cfg.Books (cfg.openavbEptSrvrRegisterStream luck handle msg s).2 := by
  unfold openavbEptSrvrRegisterStream
  obtain hforeign | ⟨hnew, hinfo, hclient⟩ := horderly
  · obtain ⟨ps, hfind, hother⟩ := h.foreign hforeign
    simpa [hfind, hother] using h
  · obtain ⟨-, hfind⟩ | ⟨l₁, ps, l₂, hsplit, -, hid, -⟩ :=
      findStream_cases s (cfg.fillIn msg.streamID)
    · simp only [hfind]
      exact h.registerNew hh hopen hclient hnew hinfo
    · exact absurd hid (hnew ps (by simp [hsplit]))

/-- StreamIDs differ, so streams with the same one are one. -/
theorem Books.single (hid : ∀ ps ∈ s.streamList, ps.clientHandle = handle → ps.streamID = streamID) :
    s.Single handle := by
  have hone := nodup_iff_count_le_one.mp h.ids streamID
  rw [count, countP_map] at hone
  refine le_trans (countP_mono_left fun ps hps hhandle => ?_) hone
  simpa using hid ps hps (by simpa using hhandle)

theorem Books.attach (lsnrDecl : UInt32) (hopen : s.connected handle = true)
    (horderly : cfg.OrderlyMsg luck handle s (.listenerAttach streamID lsnrDecl)) :
    cfg.Books (cfg.openavbEptSrvrAttachStream luck handle streamID lsnrDecl s).2 := by
  unfold openavbEptSrvrAttachStream
  obtain ⟨hnone, hfind⟩ | ⟨l₁, ps, l₂, hsplit, -, hid, hfind⟩ :=
    findStream_cases s (cfg.fillIn streamID)
  · simp only [hfind]
    split
    · exact h
    · refine h.attachNew lsnrDecl hopen (fun hwrite ps hps hown => ?_) hnone
      obtain ⟨ps', hps', hid', -⟩ | hclient := horderly hwrite
      · exact hnone ps' hps' hid'
      · exact hnone ps hps (hclient ps hps hown)
  · simp only [hfind]
    split
    · exact h
    · rename_i hown
      have hps : ps ∈ s.streamList := by simp [hsplit]
      obtain rfl := not_not.mp hown
      refine h.attachOwn hps lsnrDecl fun hwrite => ?_
      obtain ⟨ps', hps', hid', hother⟩ | hclient := horderly hwrite
      · cases inj_on_of_nodup_map h.ids hps' hps (hid'.trans hid.symm)
        exact absurd rfl hother
      · exact h.single hclient

theorem Books.stopStream (handle : Nat) (streamID : AVBStreamID) :
    cfg.Books (cfg.openavbEptSrvrStopStream handle streamID s).2 := by
  unfold openavbEptSrvrStopStream
  obtain ⟨-, hfind⟩ | ⟨l₁, ps, l₂, hsplit, -, -, hfind⟩ := findStream_cases s (cfg.fillIn streamID)
  · simpa only [hfind] using h
  · simp only [hfind]
    split
    · exact h
    · exact (h.stop hsplit).1

theorem Books.retold {β : Type} (p : StrElem → Bool) (subtype : UInt32) (x : β) :
    cfg.Books { s with strElemList := (callFirst p (StrElem.tell subtype x) s.strElemList).1 } := by
  refine h.elements _ fun e he => ?_
  have hids := map_callFirst_tell (f := (·.streamId)) (fun _ _ => rfl) p subtype x s.strElemList
  exact mem_map.mp (hids ▸ mem_map_of_mem (f := (·.streamId)) he)

theorem Books.called {β : Type} {p : StrElem → Bool} {x y : β} {Q : ClientStream → Prop}
    (horderly : ∀ e ∈ s.strElemList.find? p, e.subtype ≠ subtype →
      ∃ ps ∈ s.streamList, ps.ptr = e.avtpHandle ∧ Q ps)
    (hcall : (callFirst p (StrElem.tell subtype x) s.strElemList).2 = some (place, y)) :
    ∀ ps ∈ s.streamList, ps.ptr = place → Q ps := by
  intro ps hps hptr
  obtain ⟨e, hfind, hnews, hhandle⟩ := callFirst_tell_called hcall
  obtain ⟨ps', hps', hptr', hcalled⟩ := horderly e hfind hnews
  have hsame := inj_on_of_nodup_map h.places hps hps' (hptr.trans (hptr'.trans hhandle).symm)
  exact hsame ▸ hcalled

theorem Books.step (input : Op × Luck) (horderly : cfg.Orderly s input) :
    cfg.Books (cfg.step s input) := by
  obtain ⟨op, luck⟩ := input
  unfold EndpointConfig.step
  cases op with
  | connect =>
    dsimp only
    split
    case h_1 j _ =>
      refine { h with clients := fun ps hps => ?_ }
      by_cases hj : ps.clientHandle = j
      · simp [hj]
      · simpa [Function.update_of_ne hj] using h.clients ps hps
    case h_2 => exact h
  | disconnect handle =>
    dsimp only
    split
    · exact h
    · exact h.socketClose horderly
  | message handle msg =>
    obtain ⟨hmsg, hrefused⟩ := horderly
    dsimp only
    split
    case isFalse => exact h
    case isTrue hh =>
      have hbooks : cfg.Books (cfg.openavbEptSrvrReceiveFromClient luck handle msg s).2 := by
        cases msg with
        | talkerRegister msg => exact h.register hh.2.1 hh.2.2 hmsg
        | listenerAttach streamID lsnrDecl => exact h.attach lsnrDecl hh.2.2 hmsg
        | clientStop streamID => exact h.stopStream handle streamID
        | versionRequest => exact h.send hmsg
        | other => exact h
      split
      · exact hbooks
      · rename_i hok
        exact hbooks.socketClose (hrefused (by simpa using hok))
  | attachCb streamid subtype =>
    have htold := h.retold (StrElem.talks streamid) subtype subtype
    dsimp only
    split
    case h_1 hcall => exact htold.strmAttachCb _ _ _ _ (h.called horderly hcall)
    case h_2 => exact htold
  | registerCb streamid join destaddr maxFrameSize maxIntervalFrames latency =>
    have htold := h.retold (StrElem.listens streamid) (if join then 1 else 0)
      { tlkrDecl := if join then .talkerAdvertise else .none
        destAddr := destaddr
        maxFrameSize := maxFrameSize.toUInt16
        maxIntervalFrames := maxIntervalFrames.toUInt16
        accumLatency := latency : Registration }
    dsimp only
    split
    case h_1 hcall => exact htold.strmRegCb _ _ (h.called horderly hcall)
    case h_2 => exact htold

end

end EndpointConfig

end

/-! ## The proxy's list and the records of the endpoint -/

open List

variable {s : Server} {ps : ClientStream}

def StrElem.role (e : StrElem) : ClientRole := if e.talker then .talker else .listener

/-- Every element has the handle of a listed record with its StreamID and role, and no two have
the same. -/
structure ProxyLive (s : Server) : Prop where
  refers : ∀ e ∈ s.strElemList, ∃ ps ∈ s.streamList,
    ps.ptr = e.avtpHandle ∧ ps.streamID.octets = e.streamId ∧ ps.role = e.role
  once : (s.strElemList.map (·.avtpHandle)).Nodup

instance : DecidablePred ProxyLive := fun _ =>
  decidable_of_iff _ ⟨fun h => ⟨h.1, h.2⟩, fun h => And.intro h.1 h.2⟩

abbrev Link := Nat × List UInt8 × ClientRole

def StrElem.link (e : StrElem) : Link := (e.avtpHandle, e.streamId, e.role)

def ClientStream.link (ps : ClientStream) : Link := (ps.ptr, ps.streamID.octets, ps.role)

/-- The elements are those of the records, in order, then some of records gone; none without SRP. -/
structure InStep (noSrp : Bool) (extra : List Link) (elems : List StrElem)
    (streams : List ClientStream) : Prop where
  links : elems.map StrElem.link =
    (if noSrp then [] else streams.map ClientStream.link) ++ extra
  gone : ∀ k ∈ extra, ∀ ps ∈ streams, ps.ptr ≠ k.1
  places : (streams.map (·.ptr)).Nodup
  roles : ∀ ps ∈ streams, ps.role ≠ .none
  owner : ∀ ps ∈ streams, ∀ ps' ∈ streams,
    ps'.streamID = ps.streamID → ps'.clientHandle = ps.clientHandle

variable {noSrp : Bool} {extra : List Link} {elems : List StrElem}
  {streams l₁ l₂ : List ClientStream}

theorem InStep.mono (h : InStep noSrp extra elems streams) (hsub : l₁.Sublist streams)
    (hlinks : elems'.map StrElem.link = (if noSrp then [] else l₁.map ClientStream.link) ++ extra) :
    InStep noSrp extra elems' l₁ where
  links := hlinks
  gone := fun k hk ps hps => h.gone k hk ps (hsub.subset hps)
  places := h.places.sublist (hsub.map _)
  roles := fun ps hps => h.roles ps (hsub.subset hps)
  owner := fun ps hps ps' hps' => h.owner ps (hsub.subset hps) ps' (hsub.subset hps')

theorem InStep.withdraw (cfg : EndpointConfig) (h : InStep cfg.noSrp extra elems (l₁ ++ ps :: l₂))
    (hfirst : ∀ ps' ∈ l₁, ps'.streamID ≠ ps.streamID) :
    InStep cfg.noSrp extra (cfg.withdrawn ps.streamID elems) (l₁ ++ l₂) := by
  refine h.mono (List.Sublist.append_left (sublist_cons_self ps l₂) l₁) ?_
  have hlinks := h.links
  unfold EndpointConfig.withdrawn
  cases hsrp : cfg.noSrp with
  | true => simpa [hsrp] using hlinks
  | false =>
    let p : Link → Bool := fun k => k.2.1 = ps.streamID.octets
    have hremove : (openavbSrpDeregisterStream ps.streamID.octets elems).map StrElem.link =
        removeFirst p (elems.map StrElem.link) :=
      map_removeFirst fun _ => rfl
    have hfirst : ∀ k ∈ l₁.map ClientStream.link, p k = false := by
      intro k hk
      obtain ⟨ps', hps', rfl⟩ := mem_map.mp hk
      simpa [p, ClientStream.link] using fun heq => hfirst ps' hps' (AVBStreamID.octets_inj heq)
    simp only [hsrp, Bool.false_eq_true, if_false, map_append, map_cons,
      append_assoc, cons_append] at hlinks ⊢
    rw [hremove, hlinks, removeFirst_append hfirst (by simp [p, ClientStream.link])]

theorem InStep.store (h : InStep noSrp extra elems (l₁ ++ ps :: l₂))
    (hsame : EndpointConfig.SameStream ps ps') : InStep noSrp extra elems (l₁ ++ ps' :: l₂) where
  links := by
    have hlink : ps'.link = ps.link := by
      simp only [ClientStream.link, hsame.ptr, hsame.streamID, hsame.role]
    simpa [hlink] using h.links
  gone := by
    intro k hk x hx
    obtain ⟨y, hy, hxy⟩ := hsame.of_mem hx
    exact hxy.ptr ▸ h.gone k hk y hy
  places := by simpa [hsame.ptr] using h.places
  roles := by
    intro x hx
    obtain ⟨y, hy, hxy⟩ := hsame.of_mem hx
    exact hxy.role ▸ h.roles y hy
  owner := by
    intro x hx x' hx' hid
    obtain ⟨y, hy, hxy⟩ := hsame.of_mem hx
    obtain ⟨y', hy', hxy'⟩ := hsame.of_mem hx'
    rw [hxy.clientHandle, hxy'.clientHandle]
    rw [hxy.streamID, hxy'.streamID] at hid
    exact h.owner y hy y' hy' hid

theorem InStep.add (h : InStep noSrp [] elems streams) {e : List StrElem}
    (he : e.map StrElem.link = if noSrp then [] else [ps.link])
    (hptr : ∀ ps' ∈ streams, ps'.ptr ≠ ps.ptr) (hrole : ps.role ≠ .none)
    (howner : ∀ ps' ∈ streams, ps'.streamID = ps.streamID → ps'.clientHandle = ps.clientHandle) :
    InStep noSrp [] (elems ++ e) (streams ++ [ps]) where
  links := by
    rw [map_append, h.links, he]
    cases noSrp <;> simp
  gone := by simp
  places := by simpa [nodup_append, h.places] using hptr
  roles := by simpa [or_imp, forall_and, hrole] using h.roles
  owner := by
    intro x hx y hy hid
    rw [mem_append, mem_singleton] at hx hy
    obtain hx | rfl := hx <;> obtain hy | rfl := hy
    · exact h.owner x hx y hy hid
    · exact (howner x hx hid.symm).symm
    · exact howner y hy hid
    · rfl

theorem InStep.stray (h : InStep false [] elems streams) {e : StrElem}
    (he : ∀ ps ∈ streams, ps.ptr ≠ e.avtpHandle) :
    InStep false [e.link] (elems ++ [e]) streams where
  links := by simp [h.links]
  gone := by simpa [StrElem.link] using he
  places := h.places
  roles := h.roles
  owner := h.owner

theorem InStep.retold (h : InStep noSrp extra elems streams)
    (hlinks : elems'.map StrElem.link = elems.map StrElem.link) :
    InStep noSrp extra elems' streams :=
  h.mono (List.Sublist.refl streams) (hlinks.trans h.links)

theorem InStep.element_iff (h : InStep false [] elems streams) (streamID : AVBStreamID) :
    (∃ e ∈ elems, e.streamId = streamID.octets) ↔ ∃ ps ∈ streams, ps.streamID = streamID := by
  have hids : elems.map (·.streamId) = streams.map (·.streamID.octets) := by
    simpa [Function.comp_def, StrElem.link, ClientStream.link] using
      congrArg (List.map fun k : Link => k.2.1) h.links
  constructor
  · rintro ⟨e, he, hid⟩
    have hmem : streamID.octets ∈ streams.map (·.streamID.octets) := hids ▸ mem_map.mpr ⟨e, he, hid⟩
    obtain ⟨ps, hps, hps'⟩ := mem_map.mp hmem
    exact ⟨ps, hps, AVBStreamID.octets_inj hps'⟩
  · rintro ⟨ps, hps, rfl⟩
    have hmem : ps.streamID.octets ∈ elems.map (·.streamId) :=
      hids ▸ mem_map_of_mem (f := fun ps => ps.streamID.octets) hps
    exact mem_map.mp hmem

theorem InStep.withdraw_absent (cfg : EndpointConfig) (h : InStep cfg.noSrp [] elems streams)
    {streamID : AVBStreamID} (hnone : ∀ ps ∈ streams, ps.streamID ≠ streamID) :
    cfg.withdrawn streamID elems = elems := by
  unfold EndpointConfig.withdrawn
  cases hsrp : cfg.noSrp with
  | true => rfl
  | false =>
    rw [hsrp] at h
    refine removeFirst_of_none fun e he => decide_eq_false fun hid => ?_
    obtain ⟨ps, hps, hps'⟩ := (h.element_iff streamID).mp ⟨e, he, hid⟩
    exact hnone ps hps hps'

theorem InStep.live (h : InStep noSrp [] s.strElemList s.streamList) : ProxyLive s := by
  have hlinks := h.links
  rw [append_nil] at hlinks
  cases noSrp with
  | true =>
    have hnil : s.strElemList = [] := map_eq_nil_iff.mp hlinks
    exact ⟨by simp [hnil], by simp [hnil]⟩
  | false =>
    rw [if_neg Bool.false_ne_true] at hlinks
    refine ⟨fun e he => ?_, ?_⟩
    · have hmem : e.link ∈ s.streamList.map ClientStream.link := hlinks ▸ mem_map_of_mem he
      obtain ⟨ps, hps, hlink⟩ := mem_map.mp hmem
      simp only [ClientStream.link, StrElem.link, Prod.mk.injEq] at hlink
      exact ⟨ps, hps, hlink⟩
    · have hhandles := congrArg (List.map Prod.fst) hlinks
      simp only [map_map] at hhandles
      exact hhandles.symm ▸ h.places

theorem InStep.not_live (h : InStep noSrp [k] s.strElemList s.streamList) : ¬ ProxyLive s := by
  rintro ⟨hrefers, -⟩
  have hmem : k ∈ s.strElemList.map StrElem.link := by simp [h.links]
  obtain ⟨e, he, rfl⟩ := mem_map.mp hmem
  obtain ⟨ps, hps, hptr, -⟩ := hrefers e he
  exact h.gone e.link mem_cons_self ps hps hptr

namespace EndpointConfig

variable (cfg : EndpointConfig)

def Paired (extra : List Link) (s : Server) : Prop :=
  InStep cfg.noSrp extra s.strElemList s.streamList

variable {cfg} {extra : List Link}

section

variable (h : cfg.Paired extra s)
include h

theorem Paired.stop (hsplit : s.streamList = l₁ ++ ps :: l₂)
    (hfirst : ∀ ps' ∈ l₁, ps'.streamID ≠ ps.streamID) : cfg.Paired extra (cfg.stop ps s) := by
  have hps : ps ∈ s.streamList := by simp [hsplit]
  obtain ⟨hstreams, helems⟩ := cfg.stop_lists (s := s) (h.roles ps hps)
  rw [Paired, hstreams, helems, delStream_eq hsplit h.places]
  rw [Paired, hsplit] at h
  exact h.withdraw cfg hfirst

theorem Paired.close (handle : Nat) :
    cfg.Paired extra (cfg.openavbEptSrvrCloseClientConnection handle s) := by
  obtain ⟨-, hsame⟩ | ⟨l₁, ps, l₂, hsplit, hfirst, hhandle, hstop⟩ :=
    cfg.openavbEptSrvrCloseClientConnection_cases handle s
  · rwa [hsame]
  · rw [hstop]
    -- records with one StreamID have one client, so the first of the client is the first of its
    refine h.stop hsplit fun ps' hps' hid => hfirst ps' hps' ?_
    rw [← hhandle]
    exact h.owner ps (by simp [hsplit]) ps' (by simp [hsplit, hps']) hid

theorem Paired.socketClose (handle : Nat) : cfg.Paired extra (cfg.socketClose handle s) := by
  unfold EndpointConfig.socketClose
  split
  · exact h
  · exact h.close handle

theorem Paired.send (write : Bool) (handle : Nat) :
    cfg.Paired extra (cfg.openavbEptSrvrSendToClient write handle s) :=
  cfg.sendToClient_rule h fun _ => h.socketClose handle

theorem Paired.strmAttachCb (hwQueue write : Bool) (ptr : Nat)
    (lsnrDecl : UInt32) : cfg.Paired extra (cfg.strmAttachCb hwQueue write ptr lsnrDecl s) := by
  obtain ⟨-, hcb⟩ | ⟨l₁, ps, l₂, ok, ps', q', hsplit, -, hqueues, hcb⟩ :=
    cfg.strmAttachCb_cases hwQueue write ptr lsnrDecl s
  · rwa [hcb]
  · have hstored : cfg.Paired extra { s with streamList := l₁ ++ ps' :: l₂, qmgr := q' } := by
      rw [Paired, hsplit] at h
      exact h.store hqueues.toSameStream
    rw [hcb]
    split
    · exact hstored.send write ps.clientHandle
    · exact hstored

theorem Paired.strmRegCb (write : Bool) (ptr : Nat) :
    cfg.Paired extra (cfg.strmRegCb write ptr s) :=
  cfg.strmRegCb_rule h fun ps _ _ _ => h.socketClose ps.clientHandle

end

structure ReachesProxy (cfg : EndpointConfig) (luck : Luck) (h : Nat) (msg : TalkerRegister)
    (s : Server) : Prop where
  srp : cfg.noSrp = false
  client : 0 < h ∧ h < pollFdCount ∧ s.connected h = true
  own : ∀ ps ∈ s.streamList, ps.streamID = cfg.fillIn msg.streamID → ps.clientHandle = h
  record : luck.calloc = true
  address : msg.destAddr = emptyMAC → openavbMaapAllocate s.maap ≠ none
  element : luck.listNew = true

/-- The class is known and the daemon can be told; a client that cannot be told has another stream,
which is closed instead. -/
structure Succeeds (luck : Luck) (h : Nat) (msg : TalkerRegister) (s : Server) : Prop where
  srClass : msg.srClass = srClassA ∨ msg.srClass = srClassB
  advertise : luck.advertise = true
  stays : msg.destAddr = emptyMAC → luck.infoWrite = false →
    ∃ ps ∈ s.streamList, ps.clientHandle = h

/-- A registration on its way: the new record, last if it is still there, has no element yet. -/
def Placed (cfg : EndpointConfig) (s : Server) (ps : ClientStream) (kept : Prop) (s' : Server) :
    Prop :=
  ∃ streams, streams.Sublist s.streamList ∧ InStep cfg.noSrp [] s'.strElemList streams ∧
    (kept ∧ s'.streamList = streams ++ [ps] ∨ ¬ kept ∧ s'.streamList = streams)

variable {taken : MaapAllocList} {msg : TalkerRegister} {h : Nat} {luck : Luck} {s' : Server}
  {kept : Prop}

theorem Paired.close_placed (hs : cfg.Paired [] s) (hnew : cfg.NewTalker h msg s ps taken)
    (hh : h < pollFdCount)
    (hown : ∀ ps ∈ s.streamList, ps.streamID = cfg.fillIn msg.streamID → ps.clientHandle = h) :
    cfg.Placed s ps (∃ ps ∈ s.streamList, ps.clientHandle = h)
      (cfg.socketClose h { s with streamList := s.streamList ++ [ps], maap := taken }) := by
  have hplaces : ((s.streamList ++ [ps]).map (·.ptr)).Nodup := by
    simpa [nodup_append, hs.places] using hnew.ptr
  obtain ⟨hnone, -⟩ | ⟨l₁, r, l₂, hsplit, hfirst, hhandle, hstop⟩ :=
    cfg.openavbEptSrvrCloseClientConnection_cases h
      { s with streamList := s.streamList ++ [ps], maap := taken }
  · exact absurd hnew.clientHandle (hnone ps (by simp))
  have hrole : r.role ≠ .none := by
    have hr : r ∈ s.streamList ++ [ps] := by
      rw [show s.streamList ++ [ps] = l₁ ++ r :: l₂ from hsplit]
      simp
    obtain hr | rfl : r ∈ s.streamList ∨ r = ps := by simpa using hr
    · exact hs.roles r hr
    · simp [hnew.role]
  obtain ⟨hstreams, helems⟩ := cfg.stop_lists
    (s := { s with streamList := s.streamList ++ [ps], maap := taken }) hrole
  rw [delStream_eq hsplit hplaces] at hstreams
  unfold Placed EndpointConfig.socketClose
  rw [if_neg (Nat.not_le.mpr hh)]
  rw [hstop, hstreams, helems]
  -- the record that goes is the new one, or one before it
  obtain rfl | ⟨l₂, x, rfl⟩ := eq_nil_or_concat' l₂
  · obtain ⟨rfl, hps⟩ := append_inj' hsplit rfl
    obtain rfl : ps = r := by simpa using hps
    have hnone : ∀ ps' ∈ s.streamList, ps'.streamID ≠ ps.streamID :=
      fun ps' hps' hid => hfirst ps' hps' (hown ps' hps' (hid.trans hnew.streamID))
    rw [hs.withdraw_absent cfg hnone]
    exact ⟨s.streamList, .refl _, hs, .inr ⟨by simpa using hfirst, append_nil _⟩⟩
  · rw [← cons_append, ← append_assoc] at hsplit
    obtain ⟨hbefore, hx⟩ := append_inj' hsplit rfl
    obtain rfl : ps = x := by simpa using hx
    refine ⟨l₁ ++ l₂, ?_, ?_, .inl ⟨⟨r, by simp [hbefore], hhandle⟩,
      (append_assoc _ _ _).symm⟩⟩
    · rw [hbefore]
      exact List.Sublist.append_left (sublist_cons_self r l₂) l₁
    · have howner := hs.owner r (by simp [hbefore])
      rw [Paired, hbefore] at hs
      refine hs.withdraw cfg fun ps' hps' hid => hfirst ps' hps' ?_
      rw [← hhandle]
      exact howner ps' (by simp [hbefore, hps']) hid

section

variable (hp : cfg.Placed s ps kept s')
include hp

theorem Placed.add (hkept : kept) (hnew : cfg.NewTalker h msg s ps taken)
    (hown : ∀ ps ∈ s.streamList, ps.streamID = cfg.fillIn msg.streamID → ps.clientHandle = h)
    {e : List StrElem} (he : e.map StrElem.link = if cfg.noSrp then [] else [ps.link]) :
    InStep cfg.noSrp [] (s'.strElemList ++ e) s'.streamList := by
  obtain ⟨streams, hsub, hstep, ⟨-, hlist⟩ | ⟨hgone, -⟩⟩ := hp
  · rw [hlist]
    refine hstep.add he (fun ps' hps' => hnew.ptr ps' (hsub.subset hps')) (by simp [hnew.role]) ?_
    intro ps' hps' hid
    rw [hnew.clientHandle]
    exact hown ps' (hsub.subset hps') (hid.trans hnew.streamID)
  · exact absurd hkept hgone

theorem Placed.gone (hgone : ¬ kept) (hnew : cfg.NewTalker h msg s ps taken) :
    cfg.Paired [] s' ∧ ∀ ps' ∈ s'.streamList, ps'.ptr ≠ ps.ptr := by
  obtain ⟨streams, hsub, hstep, ⟨hkept, -⟩ | ⟨-, rfl⟩⟩ := hp
  · exact absurd hkept hgone
  · exact ⟨hstep, fun ps' hps' => hnew.ptr ps' (hsub.subset hps')⟩

theorem Placed.del (hnew : cfg.NewTalker h msg s ps taken) :
    InStep cfg.noSrp [] s'.strElemList (s'.delStream ps.ptr).streamList ∧
      ∀ ps' ∈ (s'.delStream ps.ptr).streamList, ps'.ptr ≠ ps.ptr := by
  obtain ⟨streams, hsub, hstep, hlist⟩ := hp
  have hptr : ∀ ps' ∈ streams, ps'.ptr ≠ ps.ptr := fun ps' hps' => hnew.ptr ps' (hsub.subset hps')
  have hdel : (s'.delStream ps.ptr).streamList = streams := by
    unfold Server.delStream
    obtain ⟨-, hlist⟩ | ⟨-, hlist⟩ := hlist
    · rw [hlist, removeFirst_append (by simpa using hptr) (by simp), append_nil]
    · rw [hlist, removeFirst_of_none (by simpa using hptr)]
  rw [hdel]
  exact ⟨hstep, hptr⟩

theorem Placed.registerSrp (hnew : cfg.NewTalker h msg s ps taken)
    (hown : ∀ ps ∈ s.streamList, ps.streamID = cfg.fillIn msg.streamID → ps.clientHandle = h)
    (hkept : kept ↔ (msg.destAddr = emptyMAC → luck.infoWrite = false →
      ∃ ps ∈ s.streamList, ps.clientHandle = h)) :
    ((cfg.noSrp = false → luck.listNew = true → Succeeds luck h msg s) →
        cfg.Paired [] (cfg.registerSrp luck ps s').2) ∧
      (cfg.noSrp = false → luck.listNew = true → ¬ Succeeds luck h msg s →
        ∃ k, cfg.Paired [k] (cfg.registerSrp luck ps s').2) := by
  cases hsrp : cfg.noSrp with
  | true =>
    refine ⟨fun _ => ?_, nofun⟩
    have hpaired : cfg.Paired [] s' := by
      by_cases hk : kept
      · simpa [Paired] using hp.add hk hnew hown (e := []) (by simp [hsrp])
      · exact (hp.gone hk hnew).1
    simpa [EndpointConfig.registerSrp, hsrp] using hpaired.strmAttachCb _ _ _ _
  | false =>
    obtain ⟨hdel, hptr⟩ := hp.del hnew
    obtain ⟨hnomem, hreg⟩ | ⟨hmem, e, hhandle, htalker, hid, hreg⟩ :=
      cfg.registerSrp_cases luck ps s' hsrp
    · rw [hreg]
      exact ⟨fun _ => hdel, fun _ hmem => by simp [hnomem] at hmem⟩
    · have hlink : e.link = ps.link := by
        simp [StrElem.link, ClientStream.link, StrElem.role, hhandle, htalker, hid, hnew.role]
      rw [hreg, hnew.srClass]
      constructor
      · intro hgood
        obtain ⟨hclass, hadvertise, hstays⟩ := hgood rfl hmem
        rw [if_pos ⟨hclass, hadvertise⟩]
        exact hp.add (hkept.mpr hstays) hnew hown (by simp [hsrp, hlink])
      · intro _ _ hbad
        refine ⟨e.link, ?_⟩
        by_cases hgood : (msg.srClass = srClassA ∨ msg.srClass = srClassB) ∧ luck.advertise = true
        · -- the proxy has the stream, and the record is gone
          have hgone : ¬ kept := fun hk => hbad ⟨hgood.1, hgood.2, hkept.mp hk⟩
          obtain ⟨hpaired, hptr⟩ := hp.gone hgone hnew
          rw [if_pos hgood, Paired, hsrp]
          rw [Paired, hsrp] at hpaired
          exact hpaired.stray (by simpa [hhandle] using hptr)
        · rw [if_neg hgood, Paired, hsrp]
          rw [hsrp] at hdel
          exact hdel.stray (by simpa [hhandle] using hptr)

end

section

variable (hs : cfg.Paired [] s)
include hs

theorem Paired.registerNew (hh : 0 < h ∧ h < pollFdCount ∧ s.connected h)
    (hown : ∀ ps ∈ s.streamList, ps.streamID = cfg.fillIn msg.streamID → ps.clientHandle = h) :
    ((cfg.ReachesProxy luck h msg s → Succeeds luck h msg s) →
        cfg.Paired [] (cfg.registerNew luck h msg s).2) ∧
      (cfg.ReachesProxy luck h msg s → ¬ Succeeds luck h msg s →
        ∃ k, cfg.Paired [k] (cfg.registerNew luck h msg s).2) := by
  obtain ⟨hfail, hreg⟩ | ⟨⟨hcalloc, hmaap⟩, ps, taken, hnew, hreg⟩ :=
    cfg.registerNew_cases luck h msg s hh.2.1 hh.2.2
  · rw [hreg]
    refine ⟨fun _ => hs, fun hreach _ => ?_⟩
    obtain hfail | ⟨hdest, hfail⟩ := hfail
    · simp [hreach.record] at hfail
    · exact absurd hfail (hreach.address hdest)
  · have hplaced : cfg.Placed s ps (msg.destAddr = emptyMAC → luck.infoWrite = false →
          ∃ ps ∈ s.streamList, ps.clientHandle = h)
        (if msg.destAddr = emptyMAC ∧ luck.infoWrite = false then
          cfg.socketClose h { s with streamList := s.streamList ++ [ps], maap := taken }
        else { s with streamList := s.streamList ++ [ps], maap := taken }) := by
      split
      case isTrue hcond => simpa [hcond] using hs.close_placed hnew hh.2.1 hown
      case isFalse hcond =>
        refine ⟨s.streamList, .refl _, hs, .inl ⟨?_, rfl⟩⟩
        exact fun hdest hinfo => absurd ⟨hdest, hinfo⟩ hcond
    rw [hreg]
    obtain ⟨hgood, hbad⟩ := hplaced.registerSrp hnew hown Iff.rfl
    refine ⟨fun hreach => hgood fun hsrp hmem => ?_, fun hreach => hbad hreach.srp hreach.element⟩
    exact hreach ⟨hsrp, hh, hown, hcalloc, hmaap, hmem⟩

theorem Paired.attachNew (luck : Luck) (h : Nat) (streamID : AVBStreamID)
    (lsnrDecl : UInt32) (hnone : ∀ ps ∈ s.streamList, ps.streamID ≠ streamID) :
    cfg.Paired [] (cfg.attachSrp luck (newStream luck h streamID .listener s) lsnrDecl
      (addStream (newStream luck h streamID .listener s) s)).2 := by
  have hptr := newStream_ptr luck h streamID .listener s
  have hid : (newStream luck h streamID .listener s).streamID = streamID := rfl
  have hrole : (newStream luck h streamID .listener s).role = .listener := rfl
  generalize newStream luck h streamID .listener s = ps at hptr hid hrole ⊢
  have hadd : ∀ {e : List StrElem},
      (e.map StrElem.link = if cfg.noSrp then [] else [ps.link]) →
      InStep cfg.noSrp [] (s.strElemList ++ e) (s.streamList ++ [ps]) := fun he =>
    hs.add he hptr (by simp [hrole]) fun ps' hps' hsame =>
      absurd (hsame.trans hid) (hnone ps' hps')
  obtain ⟨hsrp, hattach⟩ | ⟨hsrp, helem, -⟩ | ⟨hsrp, -, hattach⟩ :=
    cfg.attachSrp_cases luck ps lsnrDecl (addStream ps s)
  · have hpaired : cfg.Paired [] (addStream ps s) := by
      simpa [addStream, Paired] using hadd (e := []) (by simp [hsrp])
    obtain hattach | hattach := hattach
    · exact hattach ▸ hpaired
    · exact hattach ▸ hpaired.strmRegCb _ _
  · rw [Paired, hsrp] at hs
    obtain ⟨ps', hps', hsame⟩ := (hs.element_iff ps.streamID).mp helem
    exact absurd (hsame.trans hid) (hnone ps' hps')
  · obtain ⟨e, hhandle, htalker, hid, hattach⟩ | hattach := hattach
    · rw [hattach]
      refine hadd ?_
      simp [hsrp, StrElem.link, ClientStream.link, StrElem.role, hhandle, htalker, hid, hrole]
    · rw [hattach]
      simpa [Paired, addStream, Server.delStream, delStream_new hptr] using hs

theorem Paired.attach (luck : Luck) (h : Nat) (streamID : AVBStreamID) (lsnrDecl : UInt32) :
    cfg.Paired [] (cfg.openavbEptSrvrAttachStream luck h streamID lsnrDecl s).2 := by
  unfold openavbEptSrvrAttachStream
  obtain ⟨hnone, hfind⟩ | ⟨l₁, ps, l₂, hsplit, -, hid, hfind⟩ :=
    findStream_cases s (cfg.fillIn streamID)
  · simp only [hfind]
    split
    · exact hs
    · exact hs.attachNew luck h _ lsnrDecl hnone
  · simp only [hfind]
    split
    · exact hs
    · -- a stream of the client, which the proxy has an element for
      obtain ⟨hsrp, hattach⟩ | ⟨-, -, hattach⟩ | ⟨hsrp, hnone, -⟩ :=
        cfg.attachSrp_cases luck ps lsnrDecl s
      · obtain hattach | hattach := hattach
        · exact hattach ▸ hs
        · exact hattach ▸ hs.strmRegCb _ _
      · exact hattach ▸ hs
      · rw [Paired, hsrp] at hs
        obtain ⟨e, he, hsame⟩ := (hs.element_iff ps.streamID).mpr ⟨ps, by simp [hsplit], rfl⟩
        exact absurd hsame (hnone e he)

theorem Paired.stopStream (h : Nat) (streamID : AVBStreamID) :
    cfg.Paired [] (cfg.openavbEptSrvrStopStream h streamID s).2 := by
  unfold openavbEptSrvrStopStream
  obtain ⟨-, hfind⟩ | ⟨l₁, ps, l₂, hsplit, hfirst, -, hfind⟩ :=
    findStream_cases s (cfg.fillIn streamID)
  · simpa only [hfind] using hs
  · simp only [hfind]
    split
    · exact hs
    · exact hs.stop hsplit hfirst

theorem Paired.register (hh : 0 < h ∧ h < pollFdCount ∧ s.connected h) :
    ((cfg.ReachesProxy luck h msg s → Succeeds luck h msg s) →
        cfg.Paired [] (cfg.openavbEptSrvrRegisterStream luck h msg s).2) ∧
      (cfg.ReachesProxy luck h msg s → ¬ Succeeds luck h msg s →
        ∃ k, cfg.Paired [k] (cfg.openavbEptSrvrRegisterStream luck h msg s).2) := by
  unfold openavbEptSrvrRegisterStream
  obtain ⟨hnone, hfind⟩ | ⟨l₁, ps, l₂, hsplit, -, hid, hfind⟩ :=
    findStream_cases s (cfg.fillIn msg.streamID)
  · simp only [hfind]
    exact hs.registerNew hh fun ps hps hid => absurd hid (hnone ps hps)
  · have hps : ps ∈ s.streamList := by simp [hsplit]
    simp only [hfind]
    split
    case isTrue hother => exact ⟨fun _ => hs, fun hreach => absurd (hreach.own ps hps hid) hother⟩
    case isFalse hmine =>
      refine hs.registerNew hh fun ps' hps' hid' => ?_
      rw [← not_not.mp hmine]
      exact hs.owner ps hps ps' hps' (hid'.trans hid.symm)

end

/-- The condition of an operation: a registration that reaches the proxy succeeds. -/
def RegistersWell (cfg : EndpointConfig) (s : Server) (input : Op × Luck) : Prop :=
  match input.1 with
  | .message h (.talkerRegister msg) => cfg.ReachesProxy input.2 h msg s → Succeeds input.2 h msg s
  | _ => True

theorem Paired.handled {r : Bool × Server} (h : cfg.Paired extra r.2) (handle : Nat) :
    cfg.Paired extra (if r.1 then r.2 else cfg.socketClose handle r.2) := by
  split
  · exact h
  · exact h.socketClose handle

theorem Paired.step (hs : cfg.Paired [] s) (input : Op × Luck)
    (hwell : cfg.RegistersWell s input) : cfg.Paired [] (cfg.step s input) := by
  obtain ⟨op, luck⟩ := input
  cases op with
  | connect =>
    unfold EndpointConfig.step
    dsimp only
    split <;> exact hs
  | disconnect h =>
    unfold EndpointConfig.step
    dsimp only
    split
    · exact hs
    · exact hs.socketClose h
  | message h msg =>
    unfold EndpointConfig.step
    dsimp only
    split
    case isFalse => exact hs
    case isTrue hh =>
      refine Paired.handled ?_ h
      cases msg with
      | talkerRegister msg => exact (hs.register hh).1 hwell
      | listenerAttach streamID lsnrDecl => exact hs.attach luck h streamID lsnrDecl
      | clientStop streamID => exact hs.stopStream h streamID
      | versionRequest => exact hs.send luck.write h
      | other => exact hs
  | attachCb streamid subtype =>
    have htold : cfg.Paired [] { s with
        strElemList := (mrpAttachCb streamid subtype s.strElemList).1 } :=
      hs.retold (map_callFirst_tell (fun _ _ => rfl) _ _ _ _)
    unfold EndpointConfig.step
    dsimp only
    split
    · exact htold.strmAttachCb _ _ _ _
    · exact htold
  | registerCb streamid join destaddr maxFrameSize maxIntervalFrames latency =>
    have htold : cfg.Paired [] { s with
        strElemList := (mrpRegisterCb streamid join destaddr maxFrameSize maxIntervalFrames
          latency s.strElemList).1 } :=
      hs.retold (map_callFirst_tell (fun _ _ => rfl) _ _ _ _)
    unfold EndpointConfig.step
    dsimp only
    split
    · exact htold.strmRegCb _ _
    · exact htold

theorem Paired.step_stray (hs : cfg.Paired [] s) (input : Op × Luck)
    (hbad : ¬ cfg.RegistersWell s input) : ∃ k, cfg.Paired [k] (cfg.step s input) := by
  obtain ⟨op, luck⟩ := input
  unfold RegistersWell at hbad
  split at hbad
  case h_1 h msg hop =>
    obtain rfl : op = _ := hop
    obtain ⟨hreach, hbad⟩ := Classical.not_imp.mp hbad
    obtain ⟨k, hstray⟩ := (hs.register hreach.client).2 hreach hbad
    refine ⟨k, ?_⟩
    unfold EndpointConfig.step
    dsimp only
    rw [if_pos hreach.client]
    exact hstray.handled h
  case h_2 => exact absurd trivial hbad

theorem paired_init : cfg.Paired [] serverInit where
  links := by cases cfg.noSrp <;> rfl
  gone := by simp
  places := .nil
  roles := by simp [serverInit]
  owner := by simp [serverInit]

/-- The proxy refers to listed streams in every state of exactly the runs in which every
registration that reaches the proxy succeeds. -/
theorem proxy_live_iff (cfg : EndpointConfig) (is : List (Op × Luck)) :
    Always cfg.step ProxyLive serverInit is ↔ Each cfg.step cfg.RegistersWell serverInit is :=
  always_iff_each_of_break (I := cfg.Paired [])
    (fun _ input hs hwell => hs.step input hwell)
    (fun _ input hs hbad => by
      obtain ⟨k, hstray⟩ := hs.step_stray input hbad
      exact hstray.not_live)
    (fun _ hs => hs.live) paired_init

/-- A talker of an unknown class is refused, and its element stays. -/
theorem proxy_keeps_refused : ¬ Always sampleEndpoint.step ProxyLive serverInit [(.connect, .good),
        (.message 1 (.talkerRegister { sampleTalker 1 with srClass := 2 }), .good)] := by
  decide +kernel

end EndpointConfig

end OpenAvb.Endpoint
