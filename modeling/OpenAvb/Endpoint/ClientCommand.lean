import OpenAvb.Mrpd.MsrpText
import OpenAvb.Endpoint.MrpClient

/-!
# The endpoint's commands as the daemon reads them

Every command but one raises the event it is meant to raise, with the values it
was given. The command that joins a listener labels its StreamID in another way
than the daemon expects, and is refused.
-/

namespace OpenAvb.Endpoint

open List

open Mrpd

open Common (ParseTypes ParseParam nul)

structure Field where
  label : Char
  type : ParseTypes
  text : List Char
  value : Nat
  short : text.length ≤ 16
  digits : ∀ c ∈ text, ¬ Plain c
  scan : ∃ n, sscanf type.format text = [n] ∧ type.store n = value

def Field.param (f : Field) : ParseParam := ⟨[f.label, '='], f.type⟩

def fieldsText : List Field → List Char
  | [] => []
  | [f] => f.label :: '=' :: f.text
  | f :: fs => f.label :: '=' :: (f.text ++ ',' :: fieldsText fs)

theorem sscanf_hex_all (upper : Bool) {w n : Nat} (hn : n < 16 ^ (w + 2)) :
    sscanf [.number 16 (some (w + 2))] (hexText upper (w + 2) n) = [(n : Int)] := by
  rw [← append_nil (hexText upper (w + 2) n), sscanf_hex upper hn, sscanf_nil]

theorem sscanf_spells_all {base n : Nat} {t : List Char} (ht : Spells base t n)
    (hradix : base = 16 → 2 ≤ t.length) : sscanf [.number base none] t = [(n : Int)] := by
  rw [← append_nil t, sscanf_number ht hradix (stops_nil base), sscanf_nil]

theorem ofInt_lt {n : Nat} (hn : n < 2 ^ 32) : (UInt32.ofInt (n : Int)).toNat = n := by
  rw [UInt32.ofInt, UInt32.toNat_ofNat']
  omega

theorem ofInt64_lt {n : Nat} (hn : n < 2 ^ 64) : (UInt64.ofInt (n : Int)).toNat = n := by
  rw [UInt64.ofInt, UInt64.toNat_ofNat']
  omega

theorem number_octets_lt {n : Nat} (o : Octets n) : number o.val < 256 ^ n := by
  have hlt : number o.val < 256 ^ o.val.length := number_lt
  rwa [o.property] at hlt

theorem octets_ne_nil {n : Nat} (o : Octets (n + 1)) : o.val ≠ [] := by
  rintro h
  have hlen := o.property
  rw [h] at hlen
  cases hlen

theorem octets_number {n : Nat} (o : Octets n) : octets n (number o.val) = o := by
  apply Subtype.ext
  refine number_inj (length_numeral.trans o.property.symm) ?_
  rw [octets, number_numeral, Nat.mod_eq_of_lt (number_octets_lt o)]

def Field.streamID (label : Char) (upper : Bool) (o : Octets 8) : Field where
  label := label
  type := .c64
  text := octetsText upper o.val
  value := number o.val
  short := by simp [length_octetsText, o.property]
  digits := (spells_octetsText upper (octets_ne_nil o)).digits
  scan := by
    have hlen : 2 ≤ (octetsText upper o.val).length := by simp [length_octetsText, o.property]
    exact ⟨_, sscanf_spells_all (spells_octetsText upper (octets_ne_nil o)) fun _ => hlen,
      ofInt64_lt (number_octets_lt o)⟩

def Field.address (label : Char) (upper : Bool) (o : Octets 6) : Field where
  label := label
  type := .mac
  text := octetsText upper o.val
  value := number o.val
  short := by simp [length_octetsText, o.property]
  digits := (spells_octetsText upper (octets_ne_nil o)).digits
  scan := by
    have hlt : number o.val < 2 ^ 48 := number_octets_lt o
    have hlen : 2 ≤ (octetsText upper o.val).length := by simp [length_octetsText, o.property]
    refine ⟨_, sscanf_spells_all (spells_octetsText upper (octets_ne_nil o)) fun _ => hlen, ?_⟩
    rw [ParseTypes.store, ofInt64_lt (Nat.lt_trans hlt (by decide)), Nat.mod_eq_of_lt hlt]

def Field.vlan (label : Char) (upper : Bool) (x : UInt16) : Field where
  label := label
  type := .u16x04
  text := hexText upper 4 x.toNat
  value := x.toNat
  short := by simp [length_hexText]
  digits := (spells_hexText upper (Nat.lt_of_lt_of_le x.toNat_lt (by decide))).digits
  scan := by
    have hlt := x.toNat_lt
    refine ⟨_, sscanf_hex_all upper (Nat.lt_of_lt_of_le hlt (by decide)), ?_⟩
    rw [ParseTypes.store, UInt32.toNat_toUInt16, ofInt_lt (by omega)]
    omega

def Field.u16 (label : Char) (x : UInt16) : Field where
  label := label
  type := .u16
  text := decimalText x.toNat
  value := x.toNat
  short := length_decimalText_le (by decide) (Nat.lt_trans x.toNat_lt (by decide))
  digits := (spells_decimalText x.toNat).digits
  scan := by
    have hlt := x.toNat_lt
    refine ⟨_, sscanf_spells_all (spells_decimalText x.toNat) (by simp), ?_⟩
    rw [ParseTypes.store, UInt32.toNat_toUInt16, ofInt_lt (by omega)]
    omega

def Field.u8 (label : Char) (x : UInt8) : Field where
  label := label
  type := .u8
  text := decimalText x.toNat
  value := x.toNat
  short := length_decimalText_le (by decide) (Nat.lt_trans x.toNat_lt (by decide))
  digits := (spells_decimalText x.toNat).digits
  scan := by
    have hlt := x.toNat_lt
    refine ⟨_, sscanf_spells_all (spells_decimalText x.toNat) (by simp), ?_⟩
    rw [ParseTypes.store, UInt32.toNat_toUInt8, ofInt_lt (by omega)]
    omega

def Field.u32 (label : Char) (x : UInt32) : Field where
  label := label
  type := .u32
  text := decimalText x.toNat
  value := x.toNat
  short := length_decimalText_le (by decide) (Nat.lt_trans x.toNat_lt (by decide))
  digits := (spells_decimalText x.toNat).digits
  scan := ⟨_, sscanf_spells_all (spells_decimalText x.toNat) (by simp), ofInt_lt x.toNat_lt⟩

variable {c : Char} {f : Field} {fs : List Field} {rest text : List Char}
variable {specs : List ParseParam} {converted : Bool}

theorem Field.not_mem (f : Field) (hc : Plain c) : c ∉ f.text := fun h => f.digits c h hc

theorem fieldValues_sscanf {type : ParseTypes} {n : Int} (hscan : sscanf type.format text = [n]) :
    fieldValues type converted text = some [type.store n] := by
  have hnull : type ≠ .null := by
    rintro rfl
    rw [ParseTypes.format, sscanf_nil] at hscan
    cases hscan
  simp [fieldValues, hnull, hscan]

theorem parseParams_found (spec : ParseParam) (specs : List ParseParam) {s data : List Char}
    {n : Int} (hfind : strstr spec.name s = some (spec.name ++ data))
    (hscan : sscanf spec.type.format (data.takeWhile (· ≠ ',')) = [n]) :
    parseParams converted (spec :: specs) s =
      (parseParams true specs (if ',' ∈ data then (data.dropWhile (· ≠ ',')).drop 1 else s)).map
        (spec.type.store n :: ·) := by
  rw [parseParams, hfind]
  simp only [Option.bind_eq_bind, Option.bind_some, drop_left, fieldValues_sscanf hscan]
  cases parseParams true specs (if ',' ∈ data then (data.dropWhile (· ≠ ',')).drop 1 else s) <;> rfl

theorem parseParams_field (f : Field) (specs : List ParseParam) (rest : List Char) :
    parseParams converted (f.param :: specs) (f.label :: '=' :: (f.text ++ ',' :: rest)) =
      (parseParams true specs rest).map (f.value :: ·) := by
  obtain ⟨n, hscan, hvalue⟩ := f.scan
  have hcomma : ',' ∉ f.text := f.not_mem (by decide)
  have hmem : ',' ∈ f.text ++ ',' :: rest := by simp
  have hfind := strstr_front [f.label, '='] (f.text ++ ',' :: rest)
  have hfound : parseParams converted _ _ = _ := parseParams_found f.param specs hfind
    (by rw [takeWhile_ne_append hcomma]; exact hscan)
  rw [if_pos hmem, dropWhile_ne_append hcomma] at hfound
  rw [← hvalue]
  exact hfound

theorem parseParams_last (f : Field) :
    parseParams converted [f.param] (f.label :: '=' :: f.text) = some [f.value] := by
  obtain ⟨n, hscan, hvalue⟩ := f.scan
  have hfind := strstr_front [f.label, '='] f.text
  rw [← hvalue]
  exact parseParams_found f.param [] hfind
    (by rw [takeWhile_ne (f.not_mem (by decide))]; exact hscan)

theorem parseParams_fields (fs : List Field) :
    parseParams converted (fs.map Field.param) (fieldsText fs) = some (fs.map Field.value) := by
  induction fs generalizing converted with
  | nil => rfl
  | cons f fs ih =>
    cases fs with
    | nil => exact parseParams_last f
    | cons g fs =>
      rw [map_cons, fieldsText, parseParams_field, ih]
      · rfl
      · simp

theorem isUpper_ne (hc : c.isUpper = true) : c ≠ '=' ∧ c ≠ nul := by
  constructor
  · rintro rfl
    cases hc
  · rintro rfl
    cases hc

theorem strstr_fieldsText {a : Char} (ha : a ≠ '=') (hlabels : ∀ f ∈ fs, f.label.isUpper = true)
    (h : ∀ f ∈ fs, a ≠ f.label) : strstr [a, '='] (fieldsText fs) = none := by
  induction fs with
  | nil => rfl
  | cons f fs ih =>
    have hequals : '=' ∉ f.text := f.not_mem (by decide)
    have hother := h f mem_cons_self
    cases fs with
    | nil =>
      rw [fieldsText, strstr_other hother ha]
      exact strstr_none hequals
    | cons g fs =>
      have hhead : (fieldsText (g :: fs)).head? ≠ some '=' := by
        have hg := (isUpper_ne (hlabels g (by simp))).1
        cases fs <;> simpa [fieldsText] using hg
      have hskip : '=' ∉ f.text ++ [','] := by simp [hequals]
      rw [fieldsText, strstr_other hother ha, append_cons, strstr_skip hskip hhead]
      · exact ih (fun f hf => hlabels f (mem_cons_of_mem _ hf))
          fun f hf => h f (mem_cons_of_mem _ hf)
      · simp

theorem nul_not_mem_fieldsText (hlabels : ∀ f ∈ fs, f.label.isUpper = true) :
    nul ∉ fieldsText fs := by
  induction fs with
  | nil => simp [fieldsText]
  | cons f fs ih =>
    have htext : nul ∉ f.text := f.not_mem (by decide)
    have hlabel := (isUpper_ne (hlabels f mem_cons_self)).2.symm
    have hfs := ih fun f hf => hlabels f (mem_cons_of_mem _ hf)
    have hequals : nul ≠ '=' := by decide
    have hcomma : nul ≠ ',' := by decide
    cases fs with
    | nil => simp [fieldsText, htext, hlabel, hequals]
    | cons g fs => simp [fieldsText, htext, hlabel, hequals, hcomma, hfs]

theorem length_fieldsText_le (fs : List Field) : (fieldsText fs).length ≤ 19 * fs.length := by
  induction fs with
  | nil => simp [fieldsText]
  | cons f fs ih =>
    have hshort := f.short
    cases fs with
    | nil =>
      simp only [fieldsText, length_cons, length_nil]
      omega
    | cons g fs =>
      simp only [fieldsText, length_cons, length_append] at ih ⊢
      omega

theorem msgbuf_eq (hlen : text.length < 1500) :
    msgbuf text = text ++ List.replicate (1500 - text.length) nul := by
  rw [msgbuf, take_of_length_le (by omega)]
  rfl

theorem cString_msgbuf (hlen : text.length < 1500) (hnul : nul ∉ text) :
    cString (msgbuf text) = text := by
  obtain ⟨k, hk⟩ : ∃ k, 1500 - text.length = k + 1 := ⟨1499 - text.length, by omega⟩
  rw [msgbuf_eq hlen, hk, replicate_succ]
  exact takeWhile_ne_append hnul

theorem msrpCmdParse_msgbuf {least : Nat} (specs : List ParseParam) (hleast : least ≤ 1500)
    (hhead : 4 ≤ text.length) (hlen : text.length < 1500) (hnul : nul ∉ text) :
    msrpCmdParse least specs (msgbuf text) = parseParams false specs (text.drop 4) := by
  obtain ⟨k, hk⟩ : ∃ k, 1500 - text.length = k + 1 := ⟨1499 - text.length, by omega⟩
  have hlong : ¬ (msgbuf text).length < least := by
    rw [msgbuf_eq hlen, length_append, length_replicate]
    omega
  have hdrop : (msgbuf text).drop 4 = text.drop 4 ++ nul :: List.replicate k nul := by
    rw [msgbuf_eq hlen, drop_append_of_le_length hhead, hk, replicate_succ]
  have hnul' : nul ∉ text.drop 4 := fun h => hnul (mem_of_mem_drop h)
  rw [msrpCmdParse, if_neg hlong, hdrop, parse, if_pos (by simp), cString,
    takeWhile_ne_append hnul']

structure StreamArgs where
  streamid : Octets 8
  destaddr : Octets 6
  (vlan pktsz interval : UInt16)
  priority : Fin 8
  latency : Fin (2 ^ 31)

inductive ClientCommand where
  | registerDomain (classId : UInt8) (priority : Fin 8) (vid : UInt16)
  | advertiseStream (stream : StreamArgs)
  | unadvertiseStream (stream : StreamArgs)
  | joinListener (streamid : Octets 8)
  | sendReady (streamid : Octets 8)
  | sendLeave (streamid : Octets 8)

open ClientCommand

def ClientCommand.message : ClientCommand → List Char
  | registerDomain classId priority vid => mrpRegisterDomain classId.toNat priority.val vid
  | advertiseStream a =>
    mrpAdvertiseStream a.streamid.val a.destaddr.val a.vlan a.pktsz.toNat a.interval.toNat
      a.priority.val a.latency.val
  | unadvertiseStream a =>
    mrpUnadvertiseStream a.streamid.val a.destaddr.val a.vlan a.pktsz.toNat a.interval.toNat
      a.priority.val a.latency.val
  | joinListener streamid => mrpJoinListener streamid.val
  | sendReady streamid => mrpSendReady streamid.val
  | sendLeave streamid => mrpSendLeave streamid.val

def StreamArgs.talker (a : StreamArgs) : TalkListen where
  streamID := a.streamid
  destAddr := a.destaddr
  vlanID := a.vlan
  maxFrameSize := a.pktsz
  maxIntervalFrames := a.interval
  priorityAndRank := UInt8.ofNat (a.priority.val <<< 5)
  accumulatedLatency := UInt32.ofNat a.latency.val
  bridgeID := Octets.ofList 8 []
  failureCode := 0

def msrpListenerReady : Nat := 2

/-- The event that the command is for; a listener that leaves keeps its substate. -/
def ClientCommand.intended (s : MsrpDaemon) : ClientCommand → Call MsrpType MsrpValue
  | registerDomain classId priority vid =>
    .attribute .join (alloc (.domain
      { srClassID := classId, srClassPriority := UInt8.ofNat priority.val
        neighborSRclassPriority := UInt8.ofNat priority.val, srClassVID := vid }))
  | advertiseStream a => .attribute .new (alloc (.talker false a.talker))
  | unadvertiseStream a => .attribute .lv (alloc (.talker false (.ofStreamID a.streamid)))
  | joinListener streamid | sendReady streamid =>
    .attribute .new (alloc (.listener streamid msrpListenerReady))
  | sendLeave streamid => .attribute .lv (alloc (.listener streamid (s.listenerSubstate streamid)))

structure Accepted (cfg : MsrpConfig) (s : MsrpDaemon) (call : Call MsrpType MsrpValue)
    (answer : Answer) : Prop where
  reply : answer.reply = none
  raised : answer.raised = [call]
  served : answer.served = cfg.event call s

variable {cfg : MsrpConfig} {s : MsrpDaemon} {clients : List Nat} {client : Nat}

theorem accepted_of_readCmd {cmd : MsrpCommand} {call : Call MsrpType MsrpValue} {buf : List Char}
    (hpruning : cfg.enablePruning = false) (hread : cfg.readCmd buf = .ok cmd)
    (hraised : cmd.raised s = some call) :
    Accepted cfg s call (cfg.recvText clients client buf s) := by
  have hrefuses : cfg.refuses s cmd = false := by
    cases cmd <;> first | rfl | cases hraised
  have hrecv : cfg.recvText clients client buf s =
      { clients := mrpClientAdd clients client, reply := none, raised := [call]
        served := cfg.event call s } := by
    simp [MsrpConfig.recvText, hpruning, hread, hrefuses, hraised,
      recvCmd_eq_event hpruning hraised]
  rw [hrecv]
  exact ⟨rfl, rfl, rfl⟩

def StreamArgs.fields (a : StreamArgs) : List Field :=
  [.streamID 'S' true a.streamid, .address 'A' true a.destaddr, .vlan 'V' true a.vlan,
    .u16 'Z' a.pktsz, .u16 'I' a.interval, .u8 'P' (UInt8.ofNat (a.priority.val <<< 5)),
    .u32 'L' (UInt32.ofNat a.latency.val)]

theorem StreamArgs.streamText_eq (a : StreamArgs) :
    streamText a.streamid.val a.destaddr.val a.vlan a.pktsz.toNat a.interval.toNat
      a.priority.val a.latency.val = fieldsText a.fields := by
  have hnat : ∀ n : Nat, intText (n : Int) = decimalText n := fun n => rfl
  have hpriority : intText ((a.priority.val : Int) * 2 ^ 5) =
      decimalText (UInt8.ofNat (a.priority.val <<< 5)).toNat := by
    have hlt := a.priority.isLt
    have hshift : (a.priority.val : Int) * 2 ^ 5 = ((a.priority.val * 2 ^ 5 : Nat) : Int) := by rfl
    rw [hshift, hnat, UInt8.toNat_ofNat', Nat.shiftLeft_eq, Nat.mod_eq_of_lt (by omega)]
  have hlatency : intText (a.latency.val : Int) =
      decimalText (UInt32.ofNat a.latency.val).toNat := by
    rw [hnat, UInt32.toNat_ofNat', Nat.mod_eq_of_lt (by omega)]
  rw [streamText, hpriority, hlatency]
  simp [fieldsText, fields, hnat, Field.streamID, Field.address, Field.vlan, Field.u16, Field.u8,
    Field.u32]

structure Fits (text : List Char) : Prop where
  head : 4 ≤ text.length
  short : text.length < 1500
  plain : nul ∉ text

theorem fits_fields (fs : List Field) {a b c d : Char} (hhead : nul ∉ [a, b, c, d])
    (hfew : fs.length ≤ 7) (hlabels : ∀ f ∈ fs, f.label.isUpper = true) :
    Fits (a :: b :: c :: d :: fieldsText fs) where
  head := by simp
  short := by
    have hlen := length_fieldsText_le fs
    simp only [length_cons]
    omega
  plain := by
    have hfields := nul_not_mem_fieldsText hlabels
    simp only [mem_cons, not_mem_nil, or_false, not_or] at hhead ⊢
    exact ⟨hhead.1, hhead.2.1, hhead.2.2.1, hhead.2.2.2, hfields⟩

section

variable (a : StreamArgs)
include a

theorem StreamArgs.labels : ∀ f ∈ a.fields, f.label.isUpper = true := by
  simp [fields, Field.streamID, Field.address, Field.vlan, Field.u16, Field.u8, Field.u32]

theorem StreamArgs.values : a.fields.map Field.value =
      [number a.streamid.val, number a.destaddr.val, a.vlan.toNat, a.pktsz.toNat,
        a.interval.toNat, (UInt8.ofNat (a.priority.val <<< 5)).toNat,
        (UInt32.ofNat a.latency.val).toNat] := rfl

theorem StreamArgs.fits (b : Char) (hb : nul ≠ b) :
    Fits ('S' :: b :: b :: ':' :: fieldsText a.fields) := by
  refine fits_fields a.fields ?_ (by simp [fields]) a.labels
  simp [hb]
  decide

theorem msrpCmdParseJoinOrNewStream_eq :
    msrpCmdParseJoinOrNewStream (msgbuf ('S' :: '+' :: '+' :: ':' :: fieldsText a.fields)) =
      some a.talker := by
  obtain ⟨hhead, hshort, hplain⟩ := a.fits '+' (by decide)
  have hvalues : msrpCmdParse 22 talkerParams
      (msgbuf ('S' :: '+' :: '+' :: ':' :: fieldsText a.fields)) =
        some (a.fields.map Field.value) := by
    rw [msrpCmdParse_msgbuf talkerParams (by decide) hhead hshort hplain]
    exact parseParams_fields a.fields
  rw [msrpCmdParseJoinOrNewStream, hvalues, a.values]
  simp only [Option.bind_eq_bind, Option.bind_some, octets_number, UInt8.ofNat_toNat,
    UInt16.ofNat_toNat, UInt32.ofNat_toNat]
  rfl

theorem strstr_bridgeID :
    strstr "B=".toList (cString (msgbuf ('S' :: '+' :: '+' :: ':' :: fieldsText a.fields))) =
      none := by
  obtain ⟨-, hshort, hplain⟩ := a.fits '+' (by decide)
  have hskip : strstr ['B', '='] (['S', '+', '+', ':'] ++ fieldsText a.fields) =
      strstr ['B', '='] (fieldsText a.fields) :=
    strstr_skip (by decide) (show some 'S' ≠ some '=' by decide)
  rw [cString_msgbuf hshort hplain]
  refine Eq.trans hskip (strstr_fieldsText (by decide) a.labels ?_)
  simp [StreamArgs.fields, Field.streamID, Field.address, Field.vlan, Field.u16, Field.u8,
    Field.u32]

theorem readCmd_advertise : cfg.readCmd (advertiseStream a).message =
      .ok (.joinOrNewStream true false a.talker) := by
  have hmessage : (advertiseStream a).message =
      msgbuf ('S' :: '+' :: '+' :: ':' :: fieldsText a.fields) := by
    rw [← a.streamText_eq]
    rfl
  have hread : cfg.readCmd (advertiseStream a).message =
      orErp _ (parseJoinOrNewStream true (advertiseStream a).message) := rfl
  rw [hread, parseJoinOrNewStream, hmessage, strstr_bridgeID, msrpCmdParseJoinOrNewStream_eq]
  rfl

theorem readCmd_unadvertise :
    cfg.readCmd (unadvertiseStream a).message = .ok (.leaveStream a.streamid) := by
  have hmessage : (unadvertiseStream a).message =
      msgbuf ('S' :: '-' :: '-' :: ':' :: fieldsText a.fields) := by
    rw [← a.streamText_eq]
    rfl
  obtain ⟨hhead, hshort, hplain⟩ := a.fits '-' (by decide)
  have hvalues : msrpCmdParse 22 [⟨"S=".toList, .c64⟩]
      (msgbuf ('S' :: '-' :: '-' :: ':' :: fieldsText a.fields)) =
        some [number a.streamid.val] := by
    rw [msrpCmdParse_msgbuf _ (by decide) hhead hshort hplain]
    exact parseParams_field (.streamID 'S' true a.streamid) [] _
  have hread : cfg.readCmd (unadvertiseStream a).message =
      orErp _ ((msrpCmdParseLeaveStream (unadvertiseStream a).message).map .leaveStream) := rfl
  rw [hread, msrpCmdParseLeaveStream, hmessage, hvalues]
  simp [octets_number, orErp]

end

theorem readCmd_registerDomain (classId : UInt8) (priority : Fin 8) (vid : UInt16) :
    cfg.readCmd (registerDomain classId priority vid).message =
      .ok (.reportDomainStatus true classId (UInt8.ofNat priority.val) vid) := by
  have hpriority : (UInt8.ofNat priority.val).toNat = priority.val := by
    rw [UInt8.toNat_ofNat', Nat.mod_eq_of_lt (by omega)]
  have hmessage : (registerDomain classId priority vid).message =
      msgbuf ('S' :: '+' :: 'D' :: ':' :: fieldsText
        [.u8 'C' classId, .u8 'P' (UInt8.ofNat priority.val), .vlan 'V' false vid]) := by
    simp [message, mrpRegisterDomain, fieldsText, Field.u8, Field.vlan, intText, hpriority]
  have hvalues : msrpCmdParse 18
      [⟨"C=".toList, .u8⟩, ⟨"P=".toList, .u8⟩, ⟨"V=".toList, .u16x04⟩]
      (msgbuf ('S' :: '+' :: 'D' :: ':' :: fieldsText
        [.u8 'C' classId, .u8 'P' (UInt8.ofNat priority.val), .vlan 'V' false vid])) =
        some [classId.toNat, (UInt8.ofNat priority.val).toNat, vid.toNat] := by
    obtain ⟨hhead, hshort, hplain⟩ := fits_fields
      [.u8 'C' classId, .u8 'P' (UInt8.ofNat priority.val), .vlan 'V' false vid]
      (a := 'S') (b := '+') (c := 'D') (d := ':') (by decide) (by simp)
      (by simp [Field.u8, Field.vlan])
    rw [msrpCmdParse_msgbuf _ (by decide) hhead hshort hplain]
    exact parseParams_fields
      [.u8 'C' classId, .u8 'P' (UInt8.ofNat priority.val), .vlan 'V' false vid]
  have hread : cfg.readCmd (registerDomain classId priority vid).message =
      orErp _ ((msrpCmdParseDomainStatus
        (registerDomain classId priority vid).message).map fun d =>
          .reportDomainStatus true d.1 d.2.1 d.2.2) := rfl
  rw [hread, msrpCmdParseDomainStatus, hmessage, hvalues]
  simp only [Option.bind_eq_bind, Option.bind_some, UInt8.ofNat_toNat, UInt16.ofNat_toNat]
  rfl

theorem fits_listener (b : Char) (hb : nul ≠ b) (streamid : Octets 8) (substate : Char)
    (hsubstate : nul ≠ substate) : Fits ('S' :: b :: 'L' :: ':' :: 'L' :: '=' ::
      (octetsText false streamid.val ++ [',', ' ', 'D', '=', substate])) where
  head := by simp
  short := by simp [length_octetsText, streamid.property]
  plain := by
    have hid := plain_not_mem_octetsText false streamid.val (c := nul) (by decide)
    simp [hb, hsubstate, hid]
    decide

theorem readCmd_sendReady (streamid : Octets 8) : cfg.readCmd (sendReady streamid).message =
      .ok (.reportListenerStatus streamid msrpListenerReady) := by
  obtain ⟨hhead, hshort, hplain⟩ := fits_listener '+' (by decide) streamid '2' (by decide)
  have hvalues : msrpCmdParse 26 [⟨"L=".toList, .c64⟩, ⟨"D=".toList, .u32⟩]
      (sendReady streamid).message = some [number streamid.val, msrpListenerReady] := by
    refine Eq.trans (msrpCmdParse_msgbuf _ (by decide) hhead hshort hplain) ?_
    have hready : parseParams true [⟨['D', '='], .u32⟩] [' ', 'D', '=', '2'] = some [2] := by decide
    refine Eq.trans (parseParams_field (.streamID 'L' false streamid) [⟨['D', '='], .u32⟩]
      [' ', 'D', '=', '2']) ?_
    rw [hready]
    rfl
  have hread : cfg.readCmd (sendReady streamid).message =
      orErp _ ((msrpCmdParseReportListenerStatus
        (sendReady streamid).message).map fun l =>
          .reportListenerStatus l.1 l.2) := rfl
  rw [hread, msrpCmdParseReportListenerStatus, hvalues]
  simp [octets_number, orErp]

theorem readCmd_sendLeave (streamid : Octets 8) : cfg.readCmd (sendLeave streamid).message =
      .ok (.withdrawListenerStatus streamid) := by
  obtain ⟨hhead, hshort, hplain⟩ := fits_listener '-' (by decide) streamid '3' (by decide)
  have hvalues : msrpCmdParse 22 [⟨"L=".toList, .c64⟩]
      (sendLeave streamid).message = some [number streamid.val] :=
    Eq.trans (msrpCmdParse_msgbuf _ (by decide) hhead hshort hplain)
      (parseParams_field (.streamID 'L' false streamid) [] [' ', 'D', '=', '3'])
  have hread : cfg.readCmd (sendLeave streamid).message =
      orErp _ ((msrpCmdParseWithdrawListenerStatus
        (sendLeave streamid).message).map .withdrawListenerStatus) := rfl
  rw [hread, msrpCmdParseWithdrawListenerStatus, hvalues]
  simp [octets_number, orErp]

theorem readCmd_joinListener (streamid : Octets 8) : cfg.readCmd (joinListener streamid).message =
      .error (some (answer "ERP ".toList (joinListener streamid).message)) := by
  have hmessage : (joinListener streamid).message =
      msgbuf ('S' :: '+' :: 'L' :: ':' :: fieldsText
        [.streamID 'S' true streamid, .u32 'D' 2]) := rfl
  have hlabels : ∀ f ∈ [Field.streamID 'S' true streamid, .u32 'D' 2], f.label.isUpper = true := by
    simp [Field.streamID, Field.u32]
  have hvalues : msrpCmdParse 26 [⟨"L=".toList, .c64⟩, ⟨"D=".toList, .u32⟩]
      (joinListener streamid).message = none := by
    have hnone : strstr ['L', '='] (fieldsText [.streamID 'S' true streamid, .u32 'D' 2]) =
        none := strstr_fieldsText (by decide) hlabels (by simp [Field.streamID, Field.u32])
    obtain ⟨hhead, hshort, hplain⟩ := fits_fields [.streamID 'S' true streamid, .u32 'D' 2]
      (a := 'S') (b := '+') (c := 'L') (d := ':') (by decide) (by simp) hlabels
    rw [hmessage, msrpCmdParse_msgbuf _ (by decide) hhead hshort hplain]
    simp [parseParams, hnone]
  have hread : cfg.readCmd (joinListener streamid).message =
      orErp _ ((msrpCmdParseReportListenerStatus
        (joinListener streamid).message).map fun l =>
          .reportListenerStatus l.1 l.2) := rfl
  rw [hread, msrpCmdParseReportListenerStatus, hvalues]
  rfl

theorem StreamArgs.seen_talker (a : StreamArgs) : a.talker.seen false = a.talker := by
  simp [TalkListen.seen, talker, Octets.ofList]

theorem not_accepted_joinListener (hpruning : cfg.enablePruning = false) (streamid : Octets 8)
    (call : Call MsrpType MsrpValue) : ¬ Accepted cfg s call
      (cfg.recvText clients client (joinListener streamid).message s) := by
  rintro ⟨hreply, -, -⟩
  simp [MsrpConfig.recvText, hpruning, readCmd_joinListener] at hreply

/-- The daemon does what a command is for, unless it is the one that joins a listener. -/
theorem client_command_accepted_iff (cfg : MsrpConfig) (hpruning : cfg.enablePruning = false)
    (clients : List Nat) (client : Nat) (s : MsrpDaemon) (command : ClientCommand) :
    Accepted cfg s (command.intended s) (cfg.recvText clients client command.message s) ↔
      ∀ streamid, command ≠ .joinListener streamid := by
  cases command with
  | joinListener streamid =>
    refine iff_of_false (not_accepted_joinListener hpruning streamid _) ?_
    rintro h
    exact h streamid rfl
  | registerDomain classId priority vid =>
    exact iff_of_true (accepted_of_readCmd hpruning (readCmd_registerDomain classId priority vid)
      rfl) nofun
  | advertiseStream a =>
    refine iff_of_true (accepted_of_readCmd hpruning (readCmd_advertise a) ?_) nofun
    simp [MsrpCommand.raised, intended, a.seen_talker]
  | unadvertiseStream a =>
    exact iff_of_true (accepted_of_readCmd hpruning (readCmd_unadvertise a) rfl) nofun
  | sendReady streamid =>
    exact iff_of_true (accepted_of_readCmd hpruning (readCmd_sendReady streamid) rfl) nofun
  | sendLeave streamid =>
    exact iff_of_true (accepted_of_readCmd hpruning (readCmd_sendLeave streamid) rfl) nofun

def plainDaemon : MsrpConfig where
  station := ⟨[0, 0, 0, 0, 0, 1], rfl⟩
  p2pmac := true
  enablePruning := false
  maxInterestingStreamIds := 8

theorem client_command_accepted_ready : Accepted plainDaemon msrpInit
      (.attribute .new (alloc (.listener ⟨[0, 0, 0, 0, 0, 0, 0, 1], rfl⟩ 2)))
      (plainDaemon.recvText [] 0
        (sendReady ⟨[0, 0, 0, 0, 0, 0, 0, 1], rfl⟩).message msrpInit) :=
  (client_command_accepted_iff plainDaemon rfl [] 0 msrpInit
    (.sendReady ⟨[0, 0, 0, 0, 0, 0, 0, 1], rfl⟩)).mpr nofun

/-- Joining a listener is answered with an error, and nothing is raised. -/
theorem client_command_refused_join : (plainDaemon.recvText [] 0
        (joinListener ⟨[0, 0, 0, 0, 0, 0, 0, 1], rfl⟩).message msrpInit).reply =
      some "ERP S+L:S=0000000000000001,D=2".toList := by
  decide +kernel

end OpenAvb.Endpoint
