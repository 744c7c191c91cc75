import OpenAvb.Counting
import OpenAvb.Common.Parse
import OpenAvb.Mrpd.Daemon

/-!
# The texts between the MSRP daemon and its clients

The daemon writes notifications of attributes as lines of text and reads the
commands of its clients from texts of labelled fields.
-/

namespace OpenAvb.Mrpd

open Common (ParseTypes ParseParam nul)

section

def RegistrarState.text : RegistrarState → List Char
  | inState => ['I', 'N']
  | lvState => ['L', 'V']
  | mtState => ['M', 'T']

def ApplicantState.text : ApplicantState → List Char
  | vo => ['V', 'O']
  | vp => ['V', 'P']
  | vn => ['V', 'N']
  | an => ['A', 'N']
  | aa => ['A', 'A']
  | qa => ['Q', 'A']
  | la => ['L', 'A']
  | ao => ['A', 'O']
  | qo => ['Q', 'O']
  | ap => ['A', 'P']
  | qp => ['Q', 'P']
  | lo => ['L', 'O']

def mrpDecodeState (rattrib : Registrar) (aattrib : Applicant) : List Char :=
  aattrib.mrpState.text ++ '/' :: rattrib.mrpState.text

def asInt (x : UInt32) : Int := x.toInt32.toInt

def variantText : MsrpValue → List Char
  | .listener streamID substate =>
    "L:D=".toList ++ (decimalText substate ++ (",S=".toList ++ octetsText false streamID.val))
  | .domain d =>
    "D:C=".toList ++ (decimalText d.srClassID.toNat ++ (",P=".toList ++
      (decimalText d.srClassPriority.toNat ++ (",V=".toList ++
        (hexText false 4 d.srClassVID.toNat ++ (",N=".toList ++
          decimalText d.neighborSRclassPriority.toNat))))))
  | .talker failed t =>
    "T:S=".toList ++ (octetsText false t.streamID.val ++ (",A=".toList ++
      (octetsText false t.destAddr.val ++ (",V=".toList ++
        (hexText false 4 t.vlanID.toNat ++ (",Z=".toList ++
          (decimalText t.maxFrameSize.toNat ++ (",I=".toList ++
            (decimalText t.maxIntervalFrames.toNat ++ (",P=".toList ++
              (decimalText t.priorityAndRank.toNat ++ (",L=".toList ++
                (intText (asInt t.accumulatedLatency) ++ if failed then
                    ",B=".toList ++ (octetsText false t.bridgeID.val ++ (",C=".toList ++
                      decimalText t.failureCode.toNat)) else [])))))))))))))

def Notify.text : Notify → Option (List Char)
  | none => Option.none
  | new => some ['S', 'N', 'E', ' ']
  | join => some ['S', 'J', 'O', ' ']
  | lv => some ['S', 'L', 'E', ' ']

/-- The line that `msrp_send_notifications` sends, if there is one for the notification. -/
def msrpSendNotifications (attrib : Attribute MsrpValue) (notify : Notify) :
    Option (List Char) :=
  notify.text.map fun event =>
    event ++ (variantText attrib.value ++ (" R=".toList ++
      (octetsText false attrib.registrar.macaddr ++ (' ' ::
        (mrpDecodeState attrib.registrar attrib.applicant ++ ['\n'])))))

def cString (buf : List Char) : List Char := buf.takeWhile (· ≠ nul)

/-- What a field adds to the values, if it passes: `parse_null` converts nothing and passes behind
a field that did. -/
def fieldValues (type : ParseTypes) (converted : Bool) (text : List Char) : Option (List Nat) :=
  if type = .null then if converted then some [] else none
  else (sscanf type.format text)[0]?.map fun v => [type.store v]

/-- The loop of `parse`: a label is looked for behind the field before, or where that was looked for
if it was the last. -/
def parseParams : (converted : Bool) → List ParseParam → List Char → Option (List Nat)
  | _, [], _ => some []
  | converted, spec :: specs, s => do
    let data := (← strstr spec.name s).drop spec.name.length
    let values ← fieldValues spec.type converted (data.takeWhile (· ≠ ','))
    let rest ← parseParams true specs (if ',' ∈ data then (data.dropWhile (· ≠ ',')).drop 1 else s)
    some (values ++ rest)

/-- `parse`: the values of the fields, if all are there. The buffer has to end the text. -/
def parse (s : List Char) (specs : List ParseParam) : Option (List Nat) :=
  if nul ∈ s then parseParams false specs (cString s) else none

section
variable {spec : ParseParam} {text : List Char} (count : Nat) (result : Int)

theorem convert_of_fieldValues
    (h : fieldValues spec.type (decide (result = 1)) text = some values) :
    Common.Sscanf.library.convert count spec.type result text = 1 ∧
      Common.Sscanf.library.values count spec.type text = values := by
  by_cases hnull : spec.type = .null
  · obtain ⟨hresult, rfl⟩ : result = 1 ∧ [] = values := by
      simpa [fieldValues, hnull] using h
    simp [Common.Sscanf.convert, Common.Sscanf.values, hnull, hresult]
  · rw [fieldValues, if_neg hnull] at h
    obtain ⟨v, hv, rfl⟩ := Option.map_eq_some_iff.mp h
    simp [Common.Sscanf.convert, Common.Sscanf.values, Common.Sscanf.library, hnull, hv]

theorem convert_of_fieldValues_none (h : fieldValues spec.type (decide (result = 1)) text = none) :
    Common.Sscanf.library.convert count spec.type result text ≠ 1 := by
  by_cases hnull : spec.type = .null
  · have hresult : result ≠ 1 := by simpa [fieldValues, hnull] using h
    simp [Common.Sscanf.convert, hnull, hresult]
  · rw [fieldValues, if_neg hnull, Option.map_eq_none_iff] at h
    simp [Common.Sscanf.convert, Common.Sscanf.library, hnull, h]

theorem parseParams_cons (hfound : strstr spec.name text = some found) :
    parseParams converted (spec :: specs) text =
      (fieldValues spec.type converted (Common.fieldValue spec found)).bind fun values =>
        (parseParams true specs (Common.textLeft spec found text)).bind fun rest =>
          some (values ++ rest) := by
  rw [parseParams, hfound]
  rfl

end

theorem parseText_eq_parseParams (specs : List ParseParam) (text : List Char) (count : Nat)
    (result : Int) (values : List Nat) : match parseParams (decide (result = 1)) specs text with
    | some vs =>
      Common.parseText .library specs text count result values = (0, some 0, values ++ vs)
    | none => (Common.parseText .library specs text count result values).1 = -1 := by
  induction specs generalizing text count result values with
  | nil => simp [parseParams, Common.parseText]
  | cons spec specs ih =>
    cases hfound : strstr spec.name text with
    | none =>
      rw [parseParams, hfound]
      exact congrArg Prod.fst (Common.parseText_missing .library hfound)
    | some found =>
      rw [parseParams_cons hfound]
      cases hv : fieldValues spec.type (decide (result = 1)) (Common.fieldValue spec found) with
      | none =>
        exact Common.parseText_failed .library hfound (convert_of_fieldValues_none count result hv)
      | some vs =>
        obtain ⟨hresult, hvalues⟩ := convert_of_fieldValues count result hv
        have hrest := ih (Common.textLeft spec found text) (count + 1) 1 (values ++ vs)
        rw [decide_eq_true rfl] at hrest
        rw [Common.parseText_parsed .library hfound hresult, hvalues, Option.bind_some]
        cases hparams : parseParams true specs (Common.textLeft spec found text) with
        | none =>
          rw [hparams] at hrest
          exact hrest
        | some ws =>
          rw [hparams] at hrest
          simpa using hrest

theorem parse_inBuffer (s : List Char) (specs : List ParseParam) :
    match parse s specs with
    | some vs => (Common.parse .library s specs).outcome = (0, some 0, vs)
    | none => (Common.parse .library s specs).ret = -1 := by
  obtain ⟨hmissing, hthere⟩ := Common.parse_spec .library s specs
  by_cases hnul : nul ∈ s
  · have htext := parseText_eq_parseParams specs (cString s) 0 0 []
    rw [decide_eq_false (by decide)] at htext
    have houtcome := (hthere hnul).2
    rw [parse, if_pos hnul]
    cases hparams : parseParams false specs (cString s) with
    | none =>
      rw [hparams] at htext
      exact (congrArg Prod.fst houtcome).trans htext
    | some vs =>
      rw [hparams] at htext
      exact houtcome.trans htext
  · rw [parse, if_neg hnul]
    exact congrArg Prod.fst (hmissing hnul).2

/-- The functions that parse a command: a least length of the buffer, and the fields behind
`S++:`. -/
def msrpCmdParse (least : Nat) (specs : List ParseParam) (buf : List Char) : Option (List Nat) :=
  if buf.length < least then none else parse (buf.drop 4) specs

def octets (n x : Nat) : Octets n := ⟨numeral n x, length_numeral⟩

variable (buf : List Char)

def msrpCmdParseStreamId : Option (Octets 8) := do
  match ← msrpCmdParse 20 [⟨"S=".toList, .c64⟩] buf with
  | [streamID] => some (octets 8 streamID)
  | _ => none

def talkerParams : List ParseParam :=
  [⟨"S=".toList, .c64⟩, ⟨"A=".toList, .mac⟩, ⟨"V=".toList, .u16x04⟩, ⟨"Z=".toList, .u16⟩,
    ⟨"I=".toList, .u16⟩, ⟨"P=".toList, .u8⟩, ⟨"L=".toList, .u32⟩]

def msrpCmdParseJoinOrNewStream : Option TalkListen := do
  match ← msrpCmdParse 22 talkerParams buf with
  | [streamID, destAddr, vlanID, maxFrameSize, maxIntervalFrames, priorityAndRank, latency] =>
    some
      { streamID := octets 8 streamID
        destAddr := octets 6 destAddr
        vlanID := UInt16.ofNat vlanID
        maxFrameSize := UInt16.ofNat maxFrameSize
        maxIntervalFrames := UInt16.ofNat maxIntervalFrames
        priorityAndRank := UInt8.ofNat priorityAndRank
        accumulatedLatency := UInt32.ofNat latency
        bridgeID := Octets.ofList 8 []
        failureCode := 0 }
  | _ => none

def msrpCmdParseJoinOrNewStreamFailure : Option TalkListen := do
  match ← msrpCmdParse 47 (talkerParams ++ [⟨"B=".toList, .c64⟩, ⟨"C=".toList, .u8⟩]) buf with
  | [streamID, destAddr, vlanID, maxFrameSize, maxIntervalFrames, priorityAndRank, latency,
      bridgeID, failureCode] =>
    some
      { streamID := octets 8 streamID
        destAddr := octets 6 destAddr
        vlanID := UInt16.ofNat vlanID
        maxFrameSize := UInt16.ofNat maxFrameSize
        maxIntervalFrames := UInt16.ofNat maxIntervalFrames
        priorityAndRank := UInt8.ofNat priorityAndRank
        accumulatedLatency := UInt32.ofNat latency
        bridgeID := octets 8 bridgeID
        failureCode := UInt8.ofNat failureCode }
  | _ => none

def msrpCmdParseLeaveStream : Option (Octets 8) := do
  match ← msrpCmdParse 22 [⟨"S=".toList, .c64⟩] buf with
  | [streamID] => some (octets 8 streamID)
  | _ => none

def msrpCmdParseReportListenerStatus : Option (Octets 8 × Nat) := do
  match ← msrpCmdParse 26 [⟨"L=".toList, .c64⟩, ⟨"D=".toList, .u32⟩] buf with
  | [streamID, substate] => some (octets 8 streamID, substate)
  | _ => none

def msrpCmdParseWithdrawListenerStatus : Option (Octets 8) := do
  match ← msrpCmdParse 22 [⟨"L=".toList, .c64⟩] buf with
  | [streamID] => some (octets 8 streamID)
  | _ => none

def msrpCmdParseDomainStatus : Option (UInt8 × UInt8 × UInt16) := do
  match ← msrpCmdParse 18
    [⟨"C=".toList, .u8⟩, ⟨"P=".toList, .u8⟩, ⟨"V=".toList, .u16x04⟩] buf with
  | [srClassID, srClassPriority, srClassVID] =>
    some (UInt8.ofNat srClassID, UInt8.ofNat srClassPriority, UInt16.ofNat srClassVID)
  | _ => none

def answer (code : List Char) (buf : List Char) : List Char := (code ++ cString buf).take 62

def orErp (c : Option MsrpCommand) : Except (Option (List Char)) MsrpCommand :=
  match c with
  | some c => .ok c
  | none => .error (some (answer "ERP ".toList buf))

/-- `S+?` and `S++`: a talker with failure information has a BridgeID. -/
def parseJoinOrNewStream (new : Bool) (buf : List Char) : Option MsrpCommand :=
  if (strstr "B=".toList (cString buf)).isSome then
    (msrpCmdParseJoinOrNewStreamFailure buf).map (.joinOrNewStream new true)
  else (msrpCmdParseJoinOrNewStream buf).map (.joinOrNewStream new false)

/-- The command in a buffer, or the answer to what is none, if there is one. -/
def MsrpConfig.readCmd (cfg : MsrpConfig) (buf : List Char) :
    Except (Option (List Char)) MsrpCommand :=
  match buf with
  | 'S' :: '?' :: '?' :: _ => .ok .dumptable
  | 'S' :: '-' :: 'L' :: _ =>
    orErp buf ((msrpCmdParseWithdrawListenerStatus buf).map .withdrawListenerStatus)
  | 'S' :: '-' :: 'D' :: _ =>
    orErp buf ((msrpCmdParseDomainStatus buf).map fun d =>
      .reportDomainStatus false d.1 d.2.1 d.2.2)
  | 'S' :: '-' :: '-' :: _ => orErp buf ((msrpCmdParseLeaveStream buf).map .leaveStream)
  | 'S' :: '+' :: 'L' :: _ =>
    orErp buf ((msrpCmdParseReportListenerStatus buf).map fun l =>
      .reportListenerStatus l.1 l.2)
  | 'S' :: '+' :: 'D' :: _ =>
    orErp buf ((msrpCmdParseDomainStatus buf).map fun d =>
      .reportDomainStatus true d.1 d.2.1 d.2.2)
  | 'S' :: '+' :: '?' :: _ => orErp buf (parseJoinOrNewStream false buf)
  | 'S' :: '+' :: '+' :: _ => orErp buf (parseJoinOrNewStream true buf)
  | 'I' :: '+' :: 'S' :: _ =>
    orErp buf (if cfg.enablePruning then (msrpCmdParseStreamId buf).map .addStreamId else none)
  | 'I' :: '-' :: 'S' :: _ =>
    orErp buf (if cfg.enablePruning then (msrpCmdParseStreamId buf).map .removeStreamId else none)
  | 'I' :: '-' :: 'A' :: _ => .ok .removeAllStreamIds
  | 'S' :: _ :: _ :: _ | 'I' :: _ :: _ :: _ => .error (some (answer "ERC MSRP ".toList buf))
  | _ => .error none

def MsrpCommand.raised (s : MsrpDaemon) : MsrpCommand → Option (Call MsrpType MsrpValue)
  | .withdrawListenerStatus streamID =>
    some (.attribute .lv (alloc (.listener streamID (s.listenerSubstate streamID))))
  | .reportDomainStatus report srClassID srClassPriority srClassVID =>
    some (.attribute (if report then .join else .lv)
      (alloc (.domain ⟨srClassID, srClassPriority, srClassPriority, srClassVID⟩)))
  | .leaveStream streamID => some (.attribute .lv (alloc (.talker false (.ofStreamID streamID))))
  | .reportListenerStatus streamID substate =>
    some (.attribute .new (alloc (.listener streamID substate)))
  | .joinOrNewStream new failed talk =>
    some (.attribute (if new then .new else .join) (alloc (.talker failed (talk.seen failed))))
  | .dumptable | .addStreamId _ | .removeStreamId _ | .removeAllStreamIds => none

/-- A StreamID that is there already or has no room, or is not there, is an internal error. -/
def MsrpConfig.refuses (cfg : MsrpConfig) (s : MsrpDaemon) : MsrpCommand → Bool
  | .addStreamId streamID =>
    eui64setFind s.interestingStreamIds streamID ||
      (eui64setInsertAndSort cfg.maxEntries s.interestingStreamIds streamID).isNone
  | .removeStreamId streamID => (eui64setRemoveAndSort s.interestingStreamIds streamID).isNone
  | _ => false

/-- What the daemon makes of a message: its clients, error reply, events, and itself behind them. -/
structure Answer where
  clients : List Nat
  reply : Option (List Char)
  raised : List (Call MsrpType MsrpValue)
  served : Served

def mrpClientAdd (clients : List Nat) (client : Nat) : List Nat :=
  if client ∈ clients then clients else clients ++ [client]

/-- `msrp_recv_cmd` on a message of a client. -/
def MsrpConfig.recvText (cfg : MsrpConfig) (clients : List Nat) (client : Nat) (buf : List Char)
    (s : MsrpDaemon) : Answer :=
  let known := mrpClientAdd clients client
  if cfg.enablePruning ∧ 1 < known.length then
    { clients := known.erase client
      reply := some "ERR pruning enabled too many clients\n".toList
      raised := [], served := { daemon := s } }
  else
    match cfg.readCmd buf with
    | .error reply => { clients := known, reply, raised := [], served := { daemon := s } }
    | .ok c =>
      { clients := known
        reply := if cfg.refuses s c then some (answer "ERI ".toList buf) else none
        raised := (c.raised s).toList
        served := cfg.recvCmd c s }

theorem recvCmd_eq_event {cfg : MsrpConfig} {s : MsrpDaemon} {c : MsrpCommand}
    {call : Call MsrpType MsrpValue} (hpruning : cfg.enablePruning = false)
    (h : c.raised s = some call) : cfg.recvCmd c s = cfg.event call s := by
  cases c with
  | withdrawListenerStatus streamID =>
    cases h
    simp [MsrpConfig.recvCmd, MsrpConfig.withdrawListenerStatus, hpruning]
  | dumptable => cases h
  | addStreamId streamID => cases h
  | removeStreamId streamID => cases h
  | removeAllStreamIds => cases h
  | _ =>
    cases h
    rfl

end

/-! ## The tables that clients ask for -/

open List

def maxMrpdCmdsz : Nat := 1500

def bufsize : Nat := 128

/-- The text that `snprintf` leaves in a buffer of `size` octets. -/
def snprintf (size : Nat) (text : List Char) : List Char := text.take (size - 1)

def registrarText (r : Registrar) : List Char :=
  snprintf bufsize ("R=".toList ++ octetsText false (Octets.ofList 6 r.macaddr).val)

def regsrcText (a : Attribute ν) : List Char :=
  snprintf bufsize ("R=".toList ++ (octetsText false (Octets.ofList 6 a.registrar.macaddr).val ++
    ' ' :: mrpDecodeState a.registrar a.applicant))

def stageText (variant regsrc : List Char) : List Char :=
  snprintf bufsize (snprintf bufsize variant ++ ' ' :: (regsrc ++ ['\n']))

def msrpVariant : MsrpValue → List Char
  | .listener streamID substate =>
    "L:D=".toList ++ (intText (asInt (UInt32.ofNat substate)) ++
      (",S=".toList ++ octetsText false streamID.val))
  | .domain d => variantText (.domain d)
  | .talker _ t => variantText (.talker true t)

def msrpLine (a : Attribute MsrpValue) : List Char := stageText (msrpVariant a.value) (regsrcText a)

def mvrpLine (a : Attribute UInt16) : List Char :=
  stageText ("V:I=".toList ++ hexText false 4 a.value.toNat) (regsrcText a)

def mmrpVariant : MmrpValue → List Char
  | .svcreq request => "S=".toList ++ decimalText request.toNat
  | .macvec macaddr => "M=".toList ++ octetsText false macaddr.val

def mmrpLine (a : Attribute MmrpValue) : List Char :=
  snprintf bufsize ('M' :: (a.registrar.mrpState.text ++ ' ' ::
    (snprintf bufsize (mmrpVariant a.value) ++ ' ' :: (registrarText a.registrar ++ ['\n']))))

/-- What tells one `_dumptable` from another. -/
structure Dump (ν : Type) where
  empty : List Char
  (emptySize lineSize : Nat)
  line : Attribute ν → List Char

def putText (msgbuf : Stores) (wrptr size : Nat) (text : List Char) : Stores :=
  put msgbuf wrptr ((snprintf size text).map (fun c => UInt8.ofNat c.toNat) ++ [0])

section

variable {ν : Type} (D : Dump ν)

def Dump.loop (msgbuf : Stores) (wrptr : Nat) : List (Attribute ν) → Stores
  | [] => msgbuf
  | a :: rest =>
    Dump.loop (putText msgbuf wrptr D.lineSize (D.line a)) (wrptr + (D.line a).length) rest

def Dump.table (db : Database ν) : Stores :=
  D.loop (if db.attribList.isEmpty then putText [] 0 D.emptySize D.empty else []) 0 db.attribList

end

def msrpDump : Dump MsrpValue where
  empty := "MSRP:Empty\n".toList
  emptySize := maxMrpdCmdsz
  lineSize := maxMrpdCmdsz
  line := msrpLine

def mvrpDump : Dump UInt16 where
  empty := "MVRP:Empty\n".toList
  emptySize := maxMrpdCmdsz
  lineSize := maxMrpdCmdsz
  line := mvrpLine

def mmrpDump : Dump MmrpValue where
  empty := "MMRP:Empty\n".toList
  emptySize := bufsize
  lineSize := bufsize
  line := mmrpLine

def msrpDumptable (db : Database MsrpValue) : Stores := msrpDump.table db

def mvrpDumptable (db : Database UInt16) : Stores := mvrpDump.table db

def mmrpDumptable (db : Database MmrpValue) : Stores := mmrpDump.table db

theorem below_putText : Below eof (putText msgbuf wrptr size text) ↔
    wrptr + (snprintf size text).length < eof ∧ Below eof msgbuf := by
  rw [putText, below_put]
  refine and_congr_left fun _ => ?_
  simp only [length_append, length_map, length_singleton]
  exact ⟨fun h => h (by simp), fun h _ => h⟩

theorem snprintf_eq (h : text.length < size) : snprintf size text = text :=
  take_of_length_le (by omega)

section

variable {ν : Type} {D : Dump ν} {l : List (Attribute ν)}

theorem below_loop (hline : ∀ a, (D.line a).length < D.lineSize) :
    Below eof (D.loop msgbuf wrptr l) ↔
      (l ≠ [] → wrptr + (l.map fun a => (D.line a).length).sum < eof) ∧ Below eof msgbuf := by
  induction l generalizing msgbuf wrptr with
  | nil => simp [Dump.loop]
  | cons a rest ih =>
    rw [Dump.loop, ih, below_putText, snprintf_eq (hline a)]
    simp only [map_cons, sum_cons, ne_eq, reduceCtorEq, not_false_eq_true, forall_const,
      ← and_assoc]
    refine and_congr_left fun _ => ?_
    rcases rest with _ | ⟨b, rest⟩
    · simp
    · simp only [reduceCtorEq, not_false_eq_true, forall_const]
      constructor
      · rintro ⟨h, -⟩
        omega
      · intro h
        constructor <;> omega

theorem below_table (hline : ∀ a, (D.line a).length < D.lineSize) (hempty : D.empty.length < eof)
    (db : Database ν) : Below eof (D.table db) ↔
      (db.attribList.map fun a => (D.line a).length).sum < eof := by
  rw [Dump.table, below_loop hline]
  cases hl : db.attribList with
  | nil =>
    have htext : (snprintf D.emptySize D.empty).length ≤ D.empty.length := by
      simp only [snprintf, length_take]
      exact min_le_right _ _
    have hstart : Below eof ([] : Stores) := nofun
    simp only [isEmpty_nil, if_true, below_putText, hstart, and_true, ne_eq, not_true_eq_false,
      false_imp_iff, true_and, map_nil, sum_nil]
    omega
  | cons a rest =>
    have hstart : Below eof ([] : Stores) := nofun
    simp [hstart]

end

theorem length_mrpDecodeState (r : Registrar) (a : Applicant) :
    (mrpDecodeState r a).length = 5 := by
  have hr : r.mrpState.text.length = 2 := by cases r.mrpState <;> rfl
  have ha : a.mrpState.text.length = 2 := by cases a.mrpState <;> rfl
  simp [mrpDecodeState, hr, ha]

theorem length_snprintf (h : text.length = n) (hn : n < size) :
    (snprintf size text).length = n := by
  rw [snprintf_eq (h.trans_lt hn), h]

theorem length_registrarText (r : Registrar) : (registrarText r).length = 14 := by
  refine length_snprintf ?_ (by decide)
  simp [String.reduceToList, length_cons, length_octetsText, (Octets.ofList 6 r.macaddr).property]

theorem length_regsrcText (a : Attribute ν) : (regsrcText a).length = 20 := by
  refine length_snprintf ?_ (by decide)
  simp [length_append, String.reduceToList, length_cons, length_octetsText,
    (Octets.ofList 6 a.registrar.macaddr).property, length_mrpDecodeState]

theorem length_stageText (hv : variant.length ≤ 105) (a : Attribute ν) :
    (stageText variant (regsrcText a)).length = variant.length + 22 := by
  have hvariant : snprintf bufsize variant = variant := snprintf_eq (by rw [bufsize]; omega)
  rw [stageText, hvariant]
  refine length_snprintf ?_ (by rw [bufsize]; omega)
  simp only [length_append, length_cons, length_nil, length_regsrcText]

theorem length_decimalText_octet (x : UInt8) : (decimalText x.toNat).length ≤ 3 :=
  length_decimalText_le (by decide) (x.toNat_lt.trans (by decide))

theorem length_decimalText_word (x : UInt16) : (decimalText x.toNat).length ≤ 5 :=
  length_decimalText_le (by decide) (x.toNat_lt.trans (by decide))

theorem length_intText_asInt (x : UInt32) : (intText (asInt x)).length ≤ 11 := by
  have hlow : -2 ^ 31 ≤ asInt x := Int32.le_toInt _
  have hhigh : asInt x < 2 ^ 31 := Int32.toInt_lt _
  cases h : asInt x with
  | ofNat n =>
    have hn : n < 10 ^ 10 := by
      have hn : (n : Int) < 2 ^ 31 := h.symm.trans_lt hhigh
      omega
    exact (length_decimalText_le (by decide) hn).trans (by decide)
  | negSucc n =>
    have hn : n + 1 < 10 ^ 10 := by
      rw [h] at hlow
      omega
    exact Nat.succ_le_succ (length_decimalText_le (by decide) hn)

/-- The octets of a line: those of every line of its kind and its decimal fields. -/
def MsrpValue.lineWidth : MsrpValue → Nat
  | .listener _ substate => 45 + (intText (asInt (UInt32.ofNat substate))).length
  | .domain d =>
    39 + (decimalText d.srClassID.toNat).length + (decimalText d.srClassPriority.toNat).length +
      (decimalText d.neighborSRclassPriority.toNat).length
  | .talker _ t =>
    98 + (decimalText t.maxFrameSize.toNat).length +
      (decimalText t.maxIntervalFrames.toNat).length +
      (decimalText t.priorityAndRank.toNat).length +
      (intText (asInt t.accumulatedLatency)).length + (decimalText t.failureCode.toNat).length

def MmrpValue.lineWidth : MmrpValue → Nat
  | .svcreq request => 22 + (decimalText request.toNat).length
  | .macvec _ => 34

theorem length_msrpVariant (v : MsrpValue) :
    (msrpVariant v).length + 22 = v.lineWidth ∧ v.lineWidth ≤ 125 := by
  -- `delta`, because the equations of a function of texts are slow to make
  cases v with
  | listener streamID substate =>
    have hsubstate := length_intText_asInt (UInt32.ofNat substate)
    delta msrpVariant
    simp only [length_append, length_octetsText, streamID.property,
      String.reduceToList, length_cons, length_nil, MsrpValue.lineWidth]
    omega
  | domain d =>
    have hclass := length_decimalText_octet d.srClassID
    have hpriority := length_decimalText_octet d.srClassPriority
    have hneighbor := length_decimalText_octet d.neighborSRclassPriority
    delta msrpVariant variantText
    simp only [length_append, length_hexText, String.reduceToList, length_cons,
      length_nil, MsrpValue.lineWidth]
    omega
  | talker failed t =>
    have hsize := length_decimalText_word t.maxFrameSize
    have hframes := length_decimalText_word t.maxIntervalFrames
    have hpriority := length_decimalText_octet t.priorityAndRank
    have hlatency := length_intText_asInt t.accumulatedLatency
    have hcode := length_decimalText_octet t.failureCode
    delta msrpVariant variantText
    simp only [length_append, length_octetsText, length_hexText, t.streamID.property,
      t.destAddr.property, t.bridgeID.property, if_true, String.reduceToList, length_cons,
      length_nil, MsrpValue.lineWidth]
    omega

theorem length_msrpLine (a : Attribute MsrpValue) : (msrpLine a).length = a.value.lineWidth := by
  obtain ⟨hvariant, hwidth⟩ := length_msrpVariant a.value
  rw [msrpLine, length_stageText (by omega), hvariant]

theorem length_mvrpLine (a : Attribute UInt16) : (mvrpLine a).length = 30 := by
  have hvariant : ("V:I=".toList ++ hexText false 4 a.value.toNat).length = 8 := by
    simp [length_hexText]
  rw [mvrpLine, length_stageText (by omega), hvariant]

theorem length_mmrpVariant (v : MmrpValue) :
    (mmrpVariant v).length + 20 = v.lineWidth ∧ v.lineWidth ≤ 34 := by
  cases v with
  | svcreq request =>
    have hrequest := length_decimalText_octet request
    simp only [mmrpVariant, length_append, String.reduceToList, length_cons,
      length_nil, MmrpValue.lineWidth]
    omega
  | macvec macaddr => simp [mmrpVariant, length_octetsText, macaddr.property, MmrpValue.lineWidth]

theorem length_mmrpLine (a : Attribute MmrpValue) : (mmrpLine a).length = a.value.lineWidth := by
  have hstate : a.registrar.mrpState.text.length = 2 := by cases a.registrar.mrpState <;> rfl
  obtain ⟨hvariant, hwidth⟩ := length_mmrpVariant a.value
  have hwhole : snprintf bufsize (mmrpVariant a.value) = mmrpVariant a.value :=
    snprintf_eq (by rw [bufsize]; omega)
  rw [mmrpLine, hwhole]
  refine length_snprintf ?_ (by rw [bufsize]; omega)
  simp only [length_cons, length_append, length_nil, hstate, length_registrarText]
  omega

theorem below_msrpDumptable (db : Database MsrpValue) : Below maxMrpdCmdsz (msrpDumptable db) ↔
      (db.attribList.map fun a => a.value.lineWidth).sum < maxMrpdCmdsz := by
  have hline : ∀ a, (msrpDump.line a).length < msrpDump.lineSize := by
    intro a
    have hwidth := (length_msrpVariant a.value).2
    show (msrpLine a).length < 1500
    rw [length_msrpLine]
    omega
  have hempty : msrpDump.empty.length < maxMrpdCmdsz := by
    show "MSRP:Empty\n".toList.length < 1500
    simp
  have hsum : (db.attribList.map fun a => (msrpDump.line a).length) =
      db.attribList.map fun a => a.value.lineWidth :=
    map_congr_left fun a _ => length_msrpLine a
  rw [msrpDumptable, below_table hline hempty, hsum]

theorem below_mvrpDumptable (db : Database UInt16) :
    Below maxMrpdCmdsz (mvrpDumptable db) ↔ db.attribList.length ≤ 49 := by
  have hline : ∀ a, (mvrpDump.line a).length < mvrpDump.lineSize := by
    intro a
    show (mvrpLine a).length < 1500
    rw [length_mvrpLine]
    decide
  have hempty : mvrpDump.empty.length < maxMrpdCmdsz := by
    show "MVRP:Empty\n".toList.length < 1500
    simp
  have hsum : (db.attribList.map fun a => (mvrpDump.line a).length) =
      List.replicate db.attribList.length 30 :=
    (map_congr_left fun a _ => length_mvrpLine a).trans map_const'
  rw [mvrpDumptable, below_table hline hempty, hsum, sum_replicate_nat, maxMrpdCmdsz]
  omega

theorem below_mmrpDumptable (db : Database MmrpValue) : Below maxMrpdCmdsz (mmrpDumptable db) ↔
      (db.attribList.map fun a => a.value.lineWidth).sum < maxMrpdCmdsz := by
  have hline : ∀ a, (mmrpDump.line a).length < mmrpDump.lineSize := by
    intro a
    have hwidth := (length_mmrpVariant a.value).2
    show (mmrpLine a).length < 128
    rw [length_mmrpLine]
    omega
  have hempty : mmrpDump.empty.length < maxMrpdCmdsz := by
    show "MMRP:Empty\n".toList.length < 1500
    simp
  have hsum : (db.attribList.map fun a => (mmrpDump.line a).length) =
      db.attribList.map fun a => a.value.lineWidth :=
    map_congr_left fun a _ => length_mmrpLine a
  rw [mmrpDumptable, below_table hline hempty, hsum]

/-- A table stays in the buffer if and only if its lines leave room for the terminating zero; a
table of VLANs has at most 49 of them then. -/
theorem dump_in_buffer_iff (msrp : Database MsrpValue) (mvrp : Database UInt16)
    (mmrp : Database MmrpValue) : (Below maxMrpdCmdsz (msrpDumptable msrp) ↔
      (msrp.attribList.map fun a => a.value.lineWidth).sum < maxMrpdCmdsz) ∧
    (Below maxMrpdCmdsz (mvrpDumptable mvrp) ↔ mvrp.attribList.length ≤ 49) ∧
    (Below maxMrpdCmdsz (mmrpDumptable mmrp) ↔
      (mmrp.attribList.map fun a => a.value.lineWidth).sum < maxMrpdCmdsz) :=
  ⟨below_msrpDumptable msrp, below_mvrpDumptable mvrp, below_mmrpDumptable mmrp⟩

def tableOf (vs : List ν) : Database ν :=
  { (emptyDatabase : Database ν) with attribList := vs.map alloc }

/-- 15 talkers, 50 VLANs or 45 addresses are too many. -/
theorem dump_runs_over :
    let octet (i : Nat) := UInt8.ofNat i
    let talkers := (List.range 15).map fun i => MsrpValue.talker false (sampleTalk (octet i))
    let vids := (List.range 50).map UInt16.ofNat
    let macs := (List.range 45).map fun i => MmrpValue.macvec ⟨[0x02, 0, 0, 0, 0, octet i], rfl⟩
    ¬ Below maxMrpdCmdsz (msrpDumptable (tableOf talkers)) ∧
    ¬ Below maxMrpdCmdsz (mvrpDumptable (tableOf vids)) ∧
    ¬ Below maxMrpdCmdsz (mmrpDumptable (tableOf macs)) := by
  intro octet talkers vids macs
  rw [below_msrpDumptable, below_mvrpDumptable, below_mmrpDumptable]
  decide +kernel

end OpenAvb.Mrpd
