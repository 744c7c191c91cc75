import OpenAvb.Mrpd.MsrpText
import OpenAvb.Endpoint.MrpClient

/-!
# The daemon's notifications as the endpoint reads them

What the MRP client makes of a line of the MSRP daemon. Everything comes back as it
was written, but for the VLAN id, which is written in hexadecimal digits and read
in decimal ones: at a letter the reading stops.
-/

namespace OpenAvb.Endpoint

open List

open Mrpd

variable {s tail : List Char} {v : Locals} {id : UInt32} {c a : Char}

theorem seekLetter_skip {x : List Char} (hx : c ∉ x) : seekLetter c (x ++ s) = seekLetter c s := by
  induction x with
  | nil => rfl
  | cons d x ih =>
    have hne : d ≠ c := fun h => hx (h ▸ mem_cons_self)
    have htail : c ∉ x := fun h => hx (mem_cons_of_mem d h)
    simp [seekLetter, hne, ih htail]

theorem upper_not_mem_octetsText (l : List UInt8) (hc : c.isUpper = true) :
    c ∉ octetsText false l := by
  rintro h
  obtain ⟨b, -, hb⟩ := mem_flatMap.mp h
  obtain ⟨d, hd, rfl⟩ := mem_hexText hb
  have hlower : ∀ d, d < 16 → (hexDigit false d).isUpper = false := by decide
  rw [hlower d hd] at hc
  cases hc

theorem ofInt_natCast (n : Nat) : UInt32.ofInt (n : Int) = UInt32.ofNat n := by
  rw [UInt32.ofInt, ← UInt32.toNat_inj]
  simp only [UInt32.toNat_ofNat']
  omega

theorem ofInt_asInt (x : UInt32) : UInt32.ofInt (asInt x) = x := by
  have hint : asInt x = x.toBitVec.toInt := rfl
  have hnat : x.toBitVec.toNat = x.toNat := rfl
  rw [UInt32.ofInt, ← UInt32.toNat_inj, UInt32.toNat_ofNat', hint, BitVec.toInt_eq_toNat_cond, hnat]
  split <;> omega

theorem scanOctets_text (upper : Bool) (l : List UInt8) (s : List Char) (id : UInt32) :
    ∃ id', scanOctets l.length (octetsText upper l ++ s) id = (l, id') := by
  induction l generalizing id with
  | nil => exact ⟨id, rfl⟩
  | cons b l ih =>
    have hhex : b.toNat < 16 ^ (0 + 2) := b.toNat_lt
    have hscan : sscanf hexOctet (hexText upper 2 b.toNat ++ (octetsText upper l ++ s)) =
        [(b.toNat : Int)] := sscanf_hex upper hhex
    obtain ⟨id', hrest⟩ := ih (assign id (some (b.toNat : Int)))
    have hoctet : (UInt32.ofInt (b.toNat : Int)).toUInt8 = b := by simp [ofInt_natCast]
    have htext : octetsText upper (b :: l) ++ s =
        hexText upper 2 b.toNat ++ (octetsText upper l ++ s) := by
      simp [octetsText]
    refine ⟨id', ?_⟩
    rw [htext, length_cons, scanOctets, hscan, drop_left' (length_hexText upper 2 b.toNat)]
    simp only [getElem?_cons_zero, hrest]
    simp [assign, hoctet]

variable {s₁ s₂ : List Char} {e f : Char} {v' : Locals} {s' : List Char}

theorem scanListener_eq {streamid : List UInt8} {id : UInt32} {n : Int}
    (hd : seekLetter 'D' s = some s₁) (hn : sscanf decimal (s₁.drop 2) = [n])
    (hs : seekLetter 'S' (s₁.drop 2) = some s₂)
    (hid : scanOctets 8 (s₂.drop 2) v.id = (streamid, id)) :
    scanListener v s =
      some (streamid, { v with substate := UInt32.ofInt n, id := id }, s₂.drop 2) := by
  simp [scanListener, hd, hn, hs, hid, assign]

theorem scanListener_text (v : Locals) (streamID : Octets 8) (substate : Nat) (tail : List Char) :
    ∃ v' s', scanListener v (":D=".toList ++ (decimalText substate ++ (",S=".toList ++
        (octetsText false streamID.val ++ tail)))) = some (streamID.val, v', s') ∧
      v'.substate = UInt32.ofNat substate := by
  obtain ⟨id', hid⟩ := scanOctets_text false streamID.val tail v.id
  rw [streamID.property] at hid
  have hs : seekLetter 'S' (decimalText substate ++ (",S=".toList ++
      (octetsText false streamID.val ++ tail))) =
        some ("S=".toList ++ (octetsText false streamID.val ++ tail)) := by
    rw [seekLetter_skip (plain_not_mem_decimalText substate (by decide))]
    rfl
  have hstops : Stops 10 (",S=".toList ++ (octetsText false streamID.val ++ tail)) :=
    Plain.stops (c := ',') (by decide) 10 _
  have hn : sscanf decimal (decimalText substate ++ (",S=".toList ++
      (octetsText false streamID.val ++ tail))) = [(substate : Int)] :=
    sscanf_decimal substate hstops
  exact ⟨_, _, scanListener_eq rfl hn hs hid, ofInt_natCast substate⟩

def Legible (vlanID : UInt16) : Prop := ∀ c ∈ hexText false 4 vlanID.toNat, c.isDigit = true

instance (vlanID : UInt16) : Decidable (Legible vlanID) :=
  inferInstanceAs (Decidable (∀ c ∈ hexText false 4 vlanID.toNat, c.isDigit = true))

theorem digitValue_isDigit (h : c.isDigit = true) : ∃ d, digitValue 10 c = some d := by
  have hrange : '0'.toNat ≤ c.toNat ∧ c.toNat ≤ '9'.toNat := by
    simp only [Char.isDigit, Bool.and_eq_true, decide_eq_true_eq] at h
    exact ⟨h.1, h.2⟩
  refine ⟨c.toNat - '0'.toNat, ?_⟩
  have hlt : c.toNat - '0'.toNat < 10 := by
    have h9 : '9'.toNat = 57 := rfl
    have h0 : '0'.toNat = 48 := rfl
    omega
  simp only [digitValue, h, if_true, hlt]

theorem digitValue_letter (h : c.isDigit = false) : digitValue 10 c = none := by
  have hge : ¬ (if 'a' ≤ c ∧ c ≤ 'f' then c.toNat - 'a'.toNat + 10
      else if 'A' ≤ c ∧ c ≤ 'F' then c.toNat - 'A'.toNat + 10 else 10) < 10 := by
    split
    · omega
    · split <;> omega
  simp only [digitValue, h, Bool.false_eq_true, if_false, hge]

theorem exists_spells {t : List Char} (hne : t ≠ []) (h : ∀ c ∈ t, c.isDigit = true) :
    ∃ n, Spells 10 t n := by
  have hdigits : ∃ ds : List Nat, t.map (digitValue 10) = ds.map some := by
    clear hne
    induction t with
    | nil => exact ⟨[], rfl⟩
    | cons c t ih =>
      obtain ⟨d, hd⟩ := digitValue_isDigit (h c mem_cons_self)
      obtain ⟨ds, hds⟩ := ih fun c hc => h c (mem_cons_of_mem _ hc)
      exact ⟨d :: ds, by simp [hd, hds]⟩
  obtain ⟨ds, hds⟩ := hdigits
  exact ⟨_, ds, hds, hne, rfl⟩

theorem first_letter {t : List Char} (h : ¬ ∀ c ∈ t, c.isDigit = true) :
    ∃ x d y, t = x ++ d :: y ∧ (∀ c ∈ x, c.isDigit = true) ∧ d.isDigit = false := by
  induction t with
  | nil => exact absurd (forall_mem_nil _) h
  | cons c t ih =>
    cases hc : c.isDigit with
    | false => exact ⟨[], c, t, rfl, forall_mem_nil _, hc⟩
    | true =>
      obtain ⟨x, d, y, rfl, hx, hd⟩ := ih fun ht => h (forall_mem_cons.mpr ⟨hc, ht⟩)
      exact ⟨c :: x, d, y, rfl, forall_mem_cons.mpr ⟨hc, hx⟩, hd⟩

theorem scanNumber_letter (width : Nat) (hc : ¬ Plain c) (h : c.isDigit = false) :
    scanNumber 10 width (c :: s) = none := by
  have hdigits : scanDigits 10 width (c :: s) = ([], c :: s) := by
    cases width with
    | zero => rfl
    | succ width => simp [scanDigits, digitValue_letter h]
  have hradix : scanRadix 10 width (c :: s) = (width, c :: s) := rfl
  simp [scanNumber, dropWhile_digit hc, scanSign_digit hc, hradix, hdigits]

variable {format : List Directive}

theorem sscanf_illegible {t : List Char} (hdigits : ∀ c ∈ t, ¬ Plain c)
    (h : ¬ ∀ c ∈ t, c.isDigit = true) (s : List Char) :
    (sscanf (.number 10 none :: .char ',' :: format) (t ++ s)).length ≤ 1 := by
  obtain ⟨x, d, y, rfl, hx, hd⟩ := first_letter h
  have hplain : ¬ Plain d := hdigits d (by simp)
  cases x with
  | nil =>
    have hfail := scanNumber_letter (s := y ++ s) ((d :: (y ++ s)).length) hplain hd
    rw [nil_append, cons_append, sscanf, Option.getD_none, hfail]
    exact Nat.zero_le _
  | cons c x =>
    obtain ⟨n, hn⟩ := exists_spells (cons_ne_nil c x) hx
    have hstops : Stops 10 (d :: (y ++ s)) := by
      rintro e he
      cases he
      exact digitValue_letter hd
    have hcomma : ',' ≠ d := by
      rintro rfl
      exact hplain (by decide)
    rw [append_assoc]
    show (sscanf _ ((c :: x) ++ (d :: (y ++ s)))).length ≤ 1
    rw [sscanf_spells hn hstops]
    simp [sscanf, hcomma]

def tSpecText (t : TalkListen) (tail : List Char) : List Char :=
  "V=".toList ++ (hexText false 4 t.vlanID.toNat ++ (",Z=".toList ++
    (decimalText t.maxFrameSize.toNat ++ (",I=".toList ++
      (decimalText t.maxIntervalFrames.toNat ++ (",P=".toList ++
        (decimalText t.priorityAndRank.toNat ++ (",L=".toList ++
          (intText (asInt t.accumulatedLatency) ++ tail)))))))))

theorem vlan_spells (vlanID : UInt16) : Spells 16 (hexText false 4 vlanID.toNat) vlanID.toNat :=
  spells_hexText false (lt_of_lt_of_le vlanID.toNat_lt (by decide))

theorem sscanf_tSpec (t : TalkListen) (h : Legible t.vlanID) (hstops : Stops 10 tail) :
    ∃ n, sscanf talkerFormat (tSpecText t tail) =
      [n, (t.maxFrameSize.toNat : Int), (t.maxIntervalFrames.toNat : Int),
        (t.priorityAndRank.toNat : Int), asInt t.accumulatedLatency] := by
  obtain ⟨-, -, hne, -⟩ := vlan_spells t.vlanID
  obtain ⟨n, hn⟩ := exists_spells hne h
  have hcomma : ∀ rest, Stops 10 (',' :: rest) := Plain.stops (c := ',') (by decide) 10
  refine ⟨n, ?_⟩
  simp [talkerFormat, tSpecText, sscanf_spells hn (hcomma _), sscanf_decimal _ (hcomma _),
    sscanf_int _ hstops]

theorem sscanf_tSpec_illegible (t : TalkListen) (h : ¬ Legible t.vlanID) (tail : List Char) :
    (sscanf talkerFormat (tSpecText t tail)).length ≤ 1 := by
  exact sscanf_illegible (vlan_spells t.vlanID).digits h _

/-- What the variables hold behind a talker's line: its values, if the VLAN id can be read. -/
def Locals.afterTalker (v : Locals) (t : TalkListen) : UInt32 × UInt32 × UInt32 :=
  if Legible t.vlanID then
    (t.maxFrameSize.toUInt32, t.maxIntervalFrames.toUInt32, t.accumulatedLatency)
  else (v.maxFrameSize, v.maxIntervalFrames, v.latency)

theorem scanTalker_eq {streamid destAddr : List UInt8} {id₁ id₂ : UInt32}
    (hs : seekLetter 'S' s = some s₁) (hid : scanOctets 8 (s₁.drop 2) v.id = (streamid, id₁))
    (ha : seekLetter 'A' (s₁.drop 2) = some s₂)
    (haddr : scanOctets 6 (s₂.drop 2) id₁ = (destAddr, id₂)) :
    scanTalker v s =
      let values := sscanf talkerFormat ((s₂.drop 2).drop 13)
      some (streamid, destAddr, { v with
          id := id₂
          vid := assign v.vid values[0]?
          maxFrameSize := assign v.maxFrameSize values[1]?
          maxIntervalFrames := assign v.maxIntervalFrames values[2]?
          priorityAndRank := assign v.priorityAndRank values[3]?
          latency := assign v.latency values[4]? },
        (s₂.drop 2).drop 13) := by
  simp [scanTalker, hs, hid, ha, haddr]

theorem scanTalker_text (v : Locals) (t : TalkListen) (hstops : Stops 10 tail) :
    ∃ v' s', scanTalker v (":S=".toList ++ (octetsText false t.streamID.val ++ (",A=".toList ++
        (octetsText false t.destAddr.val ++ (',' :: tSpecText t tail))))) =
          some (t.streamID.val, t.destAddr.val, v', s') ∧
      (v'.maxFrameSize, v'.maxIntervalFrames, v'.latency) = v.afterTalker t := by
  obtain ⟨id₁, hid⟩ := scanOctets_text false t.streamID.val
    (",A=".toList ++ (octetsText false t.destAddr.val ++ (',' :: tSpecText t tail))) v.id
  obtain ⟨id₂, haddr⟩ := scanOctets_text false t.destAddr.val (',' :: tSpecText t tail) id₁
  rw [t.streamID.property] at hid
  rw [t.destAddr.property] at haddr
  have ha : seekLetter 'A' (octetsText false t.streamID.val ++ (",A=".toList ++
      (octetsText false t.destAddr.val ++ (',' :: tSpecText t tail)))) =
        some ("A=".toList ++ (octetsText false t.destAddr.val ++ (',' :: tSpecText t tail))) := by
    rw [seekLetter_skip (upper_not_mem_octetsText t.streamID.val (by decide))]
    rfl
  have hrest : (octetsText false t.destAddr.val ++ (',' :: tSpecText t tail)).drop 13 =
      tSpecText t tail := by
    have hlen : (octetsText false t.destAddr.val ++ [',']).length = 13 := by
      simp [length_octetsText, t.destAddr.property]
    rw [append_cons]
    exact drop_left' hlen
  refine ⟨_, _, scanTalker_eq rfl hid ha haddr, ?_⟩
  have hvalues : (("A=".toList ++ (octetsText false t.destAddr.val ++
      (',' :: tSpecText t tail))).drop 2).drop 13 = tSpecText t tail := hrest
  simp only [hvalues]
  by_cases hlegible : Legible t.vlanID
  · obtain ⟨n, hn⟩ := sscanf_tSpec t hlegible hstops
    simp [hn, Locals.afterTalker, hlegible, assign, ofInt_natCast, ofInt_asInt]
  · have hshort := sscanf_tSpec_illegible t hlegible tail
    have hnone : ∀ k, 1 ≤ k → (sscanf talkerFormat (tSpecText t tail))[k]? = none :=
      fun k hk => getElem?_eq_none (le_trans hshort hk)
    simp [hnone, Locals.afterTalker, hlegible, assign]

variable {attrib : Attribute MsrpValue} {notify : Notify} {text : List Char}

theorem msrpSendNotifications_eq (hsent : msrpSendNotifications attrib notify = some text) :
    ∃ e f rest, text = 'S' :: e :: f :: ' ' :: rest ∧ (e = 'J' ↔ notify = .join) ∧
      (e = 'J' ∨ e = 'N' ∨ e = 'L') ∧ (e = 'L' ↔ notify = .lv) ∧
      ∃ tail, rest = variantText attrib.value ++ ' ' :: tail := by
  cases notify with
  | none => cases hsent
  | _ =>
    cases hsent
    exact ⟨_, _, _, rfl, by decide, by decide, by decide, _, rfl⟩

section

variable (monitor : List UInt8)
include monitor

theorem processMrpMsg_event (v : Locals) (s : List Char) :
    processMrpMsg monitor v ('S' :: s) = processEvent monitor v ('S' :: s) := rfl

theorem processEvent_listener {streamid : List UInt8} (he : e = 'J' ∨ e = 'N' ∨ e = 'L')
    (hscan : scanListener v s = some (streamid, v', s')) :
    ∃ rest, processEvent monitor v ('S' :: e :: f :: ' ' :: 'L' :: s) =
        some (.attach streamid v'.substate :: rest) ∧
      ∀ e ∈ rest, ∃ there, e = .listeners there := by
  have hpresent : ∀ e ∈ present monitor streamid v'.substate, ∃ there, e = .listeners there := by
    unfold present
    split <;> simp
  obtain rfl | rfl | rfl := he
  · exact ⟨_, by simp [processEvent, hscan], hpresent⟩
  · exact ⟨_, by simp [processEvent, hscan], hpresent⟩
  · refine ⟨_, by simp [processEvent, hscan]; rfl, ?_⟩
    split <;> simp

theorem processEvent_talker {streamid destAddr : List UInt8}
    (hscan : scanTalker v s = some (streamid, destAddr, v', s')) :
    processEvent monitor v ('S' :: e :: f :: ' ' :: 'T' :: s) =
      some [registered streamid (e = 'J') destAddr v'] := by
  simp [processEvent, hscan]

theorem processMrpMsg_listener (v : Locals) {streamID : Octets 8}
    {substate : Nat} (hvalue : attrib.value = .listener streamID substate)
    (hsent : msrpSendNotifications attrib notify = some text) :
    ∃ rest, processMrpMsg monitor v text =
        some (.attach streamID.val (UInt32.ofNat substate) :: rest) ∧
      ∀ e ∈ rest, ∃ there, e = .listeners there := by
  obtain ⟨e, f, rest, rfl, -, he, -, tail, rfl⟩ := msrpSendNotifications_eq hsent
  obtain ⟨v', s', hscan, hsub⟩ := scanListener_text v streamID substate (' ' :: tail)
  have htext : variantText attrib.value ++ ' ' :: tail =
      'L' :: (":D=".toList ++ (decimalText substate ++ (",S=".toList ++
        (octetsText false streamID.val ++ ' ' :: tail)))) := by
    simp [hvalue, variantText]
  rw [processMrpMsg_event, htext, ← hsub]
  exact processEvent_listener monitor he hscan

theorem processMrpMsg_talker (v : Locals) {t : TalkListen} (hvalue : attrib.value = .talker false t)
    (hsent : msrpSendNotifications attrib notify = some text) :
    ∃ vid, processMrpMsg monitor v text =
      some [.register t.streamID.val (notify = .join) t.destAddr.val (v.afterTalker t).1
        (v.afterTalker t).2.1 vid (v.afterTalker t).2.2] := by
  obtain ⟨e, f, rest, rfl, hjoin, -, -, tail, rfl⟩ := msrpSendNotifications_eq hsent
  have hstops : Stops 10 (' ' :: tail) := Plain.stops (c := ' ') (by decide) 10 tail
  obtain ⟨v', s', hscan, hvalues⟩ := scanTalker_text v t hstops
  have htext : variantText attrib.value ++ ' ' :: tail =
      'T' :: (":S=".toList ++ (octetsText false t.streamID.val ++ (",A=".toList ++
        (octetsText false t.destAddr.val ++ ',' :: tSpecText t (' ' :: tail))))) := by
    simp [hvalue, variantText, tSpecText]
  refine ⟨v'.vid.toUInt16, ?_⟩
  rw [processMrpMsg_event, htext, ← hvalues, processEvent_talker monitor hscan]
  simp [registered, hjoin]

end

/-! ## How the endpoint follows the daemon's notifications -/

open Mrpd

def Reported : MsrpValue → Prop
  | .listener _ substate => 1 ≤ substate ∧ substate ≤ 3
  | .talker failed _ => failed = false
  | .domain _ => False

structure Line where
  attrib : Attribute MsrpValue
  notify : Notify
  text : List Char
  sent : msrpSendNotifications attrib notify = some text
  reported : Reported attrib.value

/-- The streams when the lines start: none was told anything, and no two share a record. -/
structure Streams where
  elems : List StrElem
  distinct : (elems.map (·.avtpHandle)).Nodup
  untold : ∀ e ∈ elems, e.talker = true → e.subtype = 0

/-- The proxy, the last calls of `strmAttachCb` and `strmRegCb` by handle, and the lines, latest
first. -/
structure Watch where
  elems : List StrElem
  attached : Nat → Option UInt32
  registered : Nat → Option Registration
  heard : List Line

def Watch.start (streams : Streams) : Watch where
  elems := streams.elems
  attached := fun _ => none
  registered := fun _ => none
  heard := []

variable {β : Type}

def recordCall (last : Nat → Option β) : Option (Nat × β) → Nat → Option β
  | none => last
  | some (handle, x) => Function.update last handle (some x)

def Watch.perform (w : Watch) : Effect → Watch
  | .attach streamid subtype =>
    let (elems, call) := mrpAttachCb streamid subtype w.elems
    { w with elems := elems, attached := recordCall w.attached call }
  | .register streamid join destaddr maxFrameSize maxIntervalFrames _ latency =>
    let (elems, call) :=
      mrpRegisterCb streamid join destaddr maxFrameSize maxIntervalFrames latency w.elems
    { w with elems := elems, registered := recordCall w.registered call }
  | _ => w

/-- A line is handed to `process_mrp_msg`, whose variables hold what is on the stack. -/
def Watch.hear (monitor : List UInt8) (w : Watch) (input : Line × Locals) : Watch :=
  let told := ((processMrpMsg monitor input.2 input.1.text).getD []).foldl Watch.perform w
  { told with heard := input.1 :: told.heard }

def Line.listener (streamid : List UInt8) (line : Line) : Option (Notify × Nat) :=
  match line.attrib.value with
  | .listener streamID substate =>
    if streamID.val = streamid then some (line.notify, substate) else none
  | _ => none

def Line.talker (streamid : List UInt8) (line : Line) : Option (Notify × TalkListen) :=
  match line.attrib.value with
  | .talker _ t => if t.streamID.val = streamid then some (line.notify, t) else none
  | _ => none

def Watch.lastListener (w : Watch) (streamid : List UInt8) : Option (Notify × Nat) :=
  w.heard.findSome? (Line.listener streamid)

def Watch.lastTalker (w : Watch) (streamid : List UInt8) : Option (Notify × TalkListen) :=
  w.heard.findSome? (Line.talker streamid)

def listenersOf : Option (Notify × Nat) → UInt32
  | none => 0
  | some (.lv, _) => 0
  | some (_, substate) => UInt32.ofNat substate

def advertised (t : TalkListen) : Registration where
  tlkrDecl := .talkerAdvertise
  destAddr := t.destAddr.val
  maxFrameSize := t.maxFrameSize
  maxIntervalFrames := t.maxIntervalFrames
  accumLatency := t.accumulatedLatency

def Told : Option (Notify × TalkListen) → Option Registration → Prop
  | none, _ => True
  | some (.lv, _), r => r.map (·.tlkrDecl) = some .none
  | some (_, t), r => r = some (advertised t)

instance : (last : Option (Notify × TalkListen)) → (r : Option Registration) →
    Decidable (Told last r)
  | none, _ => isTrue trivial
  | some (.lv, _), r => inferInstanceAs (Decidable (r.map (·.tlkrDecl) = some .none))
  | some (.none, t), r | some (.new, t), r | some (.join, t), r =>
    inferInstanceAs (Decidable (r = some (advertised t)))

/-- What the stream of an element was told last is what the last line about it says. -/
def Watch.FollowsAt (w : Watch) (e : StrElem) : Prop :=
  if e.talker then
    (w.attached e.avtpHandle).getD 0 = listenersOf (w.lastListener e.streamId)
  else Told (w.lastTalker e.streamId) (w.registered e.avtpHandle)

instance (w : Watch) (e : StrElem) : Decidable (w.FollowsAt e) :=
  inferInstanceAs (Decidable (ite _ _ _))

def Watch.Follows (w : Watch) : Prop := ∀ e ∈ w.elems, w.FollowsAt e

instance : DecidablePred Watch.Follows :=
  fun w => inferInstanceAs (Decidable (∀ e ∈ w.elems, w.FollowsAt e))

def Readable (v : Locals) (t : TalkListen) : Prop :=
  Legible t.vlanID ∨ v.maxFrameSize.toUInt16 = t.maxFrameSize ∧
    v.maxIntervalFrames.toUInt16 = t.maxIntervalFrames ∧ v.latency = t.accumulatedLatency

def Passed (v : Locals) (e : StrElem) (notify : Notify) (t : TalkListen) :
    Option (Notify × TalkListen) → Prop
  | none =>
    match notify with
    | .lv => e.subtype ≠ 0
    -- The state starts with the kind of the attachment, 1 is AskingFailed.
    | .join => e.subtype ≠ 1 ∧ Readable v t
    | _ => False
  | some (.lv, _) => notify = .lv ∨ notify = .join ∧ Readable v t
  -- A second join is not passed on, whatever it says.
  | some (_, t') => notify = .lv ∨ notify = .join ∧ advertised t' = advertised t

def Watch.Only (w : Watch) (p : StrElem → Bool) (e : StrElem) : Prop :=
  ∀ e' ∈ w.elems, p e' = true → e' = e

def Watch.Heeded (w : Watch) (input : Line × Locals) : Prop :=
  match input.1.attrib.value with
  | .listener streamID _ =>
    ∀ e ∈ w.elems, e.talks streamID.val = true →
      w.Only (·.talks streamID.val) e ∧ input.1.notify ≠ .lv
  | .talker _ t =>
    ∀ e ∈ w.elems, e.listens t.streamID.val = true →
      w.Only (·.listens t.streamID.val) e ∧
        Passed input.2 e input.1.notify t (w.lastTalker t.streamID.val)
  | .domain _ => True

variable {monitor : List UInt8} {w w' : Watch} {line : Line} {v : Locals} {t t' : TalkListen}
variable {streamID : Octets 8} {substate : Nat}

theorem perform_listeners {effects : List Effect}
    (h : ∀ e ∈ effects, ∃ there, e = .listeners there) : effects.foldl Watch.perform w = w := by
  induction effects with
  | nil => rfl
  | cons e effects ih =>
    obtain ⟨there, rfl⟩ := h e mem_cons_self
    exact ih fun e he => h e (mem_cons_of_mem _ he)

theorem hear_listener (w : Watch) (v : Locals)
    (hvalue : line.attrib.value = .listener streamID substate) : w.hear monitor (line, v) =
      { w.perform (.attach streamID.val (UInt32.ofNat substate)) with
        heard := line :: w.heard } := by
  obtain ⟨rest, hprocess, hrest⟩ := processMrpMsg_listener monitor v hvalue line.sent
  simp [Watch.hear, hprocess, perform_listeners hrest, Watch.perform]

def heardTalker (v : Locals) (notify : Notify) (t : TalkListen) : Registration where
  tlkrDecl := if notify = .join then .talkerAdvertise else .none
  destAddr := t.destAddr.val
  maxFrameSize := (v.afterTalker t).1.toUInt16
  maxIntervalFrames := (v.afterTalker t).2.1.toUInt16
  accumLatency := (v.afterTalker t).2.2

theorem heardTalker_eq_advertised : heardTalker v .join t = advertised t ↔ Readable v t := by
  by_cases h : Legible t.vlanID <;>
    simp [heardTalker, advertised, Readable, Locals.afterTalker, h]

def joinState (notify : Notify) : UInt32 := if notify = .join then 1 else 0

def tellTalker (v : Locals) (notify : Notify) (t : TalkListen) :
    List StrElem → List StrElem × Option (Nat × Registration) :=
  callFirst (StrElem.listens t.streamID.val)
    (StrElem.tell (joinState notify) (heardTalker v notify t))

theorem mrpRegisterCb_eq (v : Locals) (notify : Notify) (t : TalkListen) :
    mrpRegisterCb t.streamID.val (notify = .join) t.destAddr.val (v.afterTalker t).1
      (v.afterTalker t).2.1 (v.afterTalker t).2.2 = tellTalker v notify t := by
  by_cases hjoin : notify = .join <;>
    simp [mrpRegisterCb, tellTalker, joinState, heardTalker, hjoin]

theorem hear_talker (w : Watch) (v : Locals) (hvalue : line.attrib.value = .talker false t) :
    w.hear monitor (line, v) =
      { w with
        elems := (tellTalker v line.notify t w.elems).1
        registered := recordCall w.registered (tellTalker v line.notify t w.elems).2
        heard := line :: w.heard } := by
  obtain ⟨vid, hprocess⟩ := processMrpMsg_talker monitor v hvalue line.sent
  simp [Watch.hear, hprocess, Watch.perform, mrpRegisterCb_eq]

/-- Behind a callback for `e`, the first of its kind: its state has changed, nobody else was
told. -/
structure Touches (w w' : Watch) (line : Line) (e : StrElem) (l₁ l₂ : List StrElem)
    (subtype : UInt32) : Prop where
  before : w.elems = l₁ ++ e :: l₂
  after : w'.elems = l₁ ++ { e with subtype := subtype } :: l₂
  first : ∀ e' ∈ l₁, e'.talker = e.talker → e'.streamId ≠ e.streamId
  attached : ∀ h, h ≠ e.avtpHandle → w'.attached h = w.attached h
  registered : ∀ h, h ≠ e.avtpHandle → w'.registered h = w.registered h
  heard : w'.heard = line :: w.heard

theorem recordCall_change (last : Nat → Option β) (x : β) (e : StrElem) (subtype : UInt32) :
    (∀ h, h ≠ e.avtpHandle →
      recordCall last (if e.subtype = subtype then none else some (e.avtpHandle, x)) h = last h) ∧
    recordCall last (if e.subtype = subtype then none else some (e.avtpHandle, x)) e.avtpHandle =
      if e.subtype = subtype then last e.avtpHandle else some x := by
  by_cases hsame : e.subtype = subtype
  · simp [hsame, recordCall]
  · simp +contextual [hsame, recordCall]

theorem hear_listener_cases (monitor : List UInt8) (w : Watch) (v : Locals)
    (hvalue : line.attrib.value = .listener streamID substate) :
    (∀ e ∈ w.elems, e.talks streamID.val = false) ∧
        w.hear monitor (line, v) = { w with heard := line :: w.heard } ∨
      ∃ e l₁ l₂, e.talks streamID.val = true ∧
        Touches w (w.hear monitor (line, v)) line e l₁ l₂ (UInt32.ofNat substate) ∧
        (w.hear monitor (line, v)).attached e.avtpHandle =
          if e.subtype = UInt32.ofNat substate then w.attached e.avtpHandle
          else some (UInt32.ofNat substate) := by
  obtain ⟨hnone, hcall⟩ | ⟨l₁, e, l₂, hsplit, he, hfirst, hcall⟩ :=
    callFirst_tell_cases (p := StrElem.talks streamID.val) (fun _ _ => StrElem.talks_same)
      (UInt32.ofNat substate) (UInt32.ofNat substate) w.elems
  · exact .inl ⟨hnone, by
      simp [hear_listener w v hvalue, Watch.perform, mrpAttachCb, hcall, recordCall]⟩
  · obtain ⟨hother, hself⟩ :=
      recordCall_change w.attached (UInt32.ofNat substate) e (UInt32.ofNat substate)
    simp only [hear_listener w v hvalue, Watch.perform, mrpAttachCb, hcall]
    exact .inr ⟨e, l₁, l₂, he, ⟨hsplit, rfl, hfirst, hother, fun _ _ => rfl, rfl⟩, hself⟩

theorem hear_talker_cases (monitor : List UInt8) (w : Watch) (v : Locals)
    (hvalue : line.attrib.value = .talker false t) :
    (∀ e ∈ w.elems, e.listens t.streamID.val = false) ∧
        w.hear monitor (line, v) = { w with heard := line :: w.heard } ∨
      ∃ e l₁ l₂, e.listens t.streamID.val = true ∧
        Touches w (w.hear monitor (line, v)) line e l₁ l₂ (joinState line.notify) ∧
        (w.hear monitor (line, v)).registered e.avtpHandle =
          if e.subtype = joinState line.notify then w.registered e.avtpHandle
          else some (heardTalker v line.notify t) := by
  obtain ⟨hnone, hcall⟩ | ⟨l₁, e, l₂, hsplit, he, hfirst, hcall⟩ :=
    callFirst_tell_cases (p := StrElem.listens t.streamID.val) (fun _ _ => StrElem.listens_same)
      (joinState line.notify) (heardTalker v line.notify t) w.elems
  · exact .inl ⟨hnone, by simp [hear_talker w v hvalue, tellTalker, hcall, recordCall]⟩
  · obtain ⟨hother, hself⟩ := recordCall_change w.registered
      (heardTalker v line.notify t) e (joinState line.notify)
    simp only [hear_talker w v hvalue, tellTalker, hcall]
    exact .inr ⟨e, l₁, l₂, he, ⟨hsplit, rfl, hfirst, fun _ _ => rfl, hother, rfl⟩, hself⟩

/-- The state of an element is what its stream was told, of a talker not before a line about it. -/
def Watch.Holds (w : Watch) (e : StrElem) : Prop :=
  if e.talker then (w.attached e.avtpHandle).getD 0 = e.subtype
  else
    (∀ r ∈ w.registered e.avtpHandle, e.subtype = if r.tlkrDecl = .talkerAdvertise then 1 else 0) ∧
    (w.lastTalker e.streamId = none → w.registered e.avtpHandle = none)

def Watch.Untold (w : Watch) (e : StrElem) : Prop :=
  w.attached e.avtpHandle = none ∧ w.registered e.avtpHandle = none

structure Watch.Remembers (w : Watch) : Prop where
  distinct : (w.elems.map (·.avtpHandle)).Nodup
  holds : ∀ e ∈ w.elems, w.Holds e
  -- A stream behind another one of its kind was never told anything.
  behind : w.elems.Pairwise fun e' e =>
    e'.talker = e.talker → e'.streamId = e.streamId → w.Untold e

theorem remembers_start (streams : Streams) : (Watch.start streams).Remembers where
  distinct := streams.distinct
  holds := by
    rintro e he
    unfold Watch.Holds
    split
    case isTrue htalker => exact (streams.untold e he htalker).symm
    case isFalse => exact ⟨fun r hr => absurd hr (by simp [Watch.start]), fun _ => rfl⟩
  behind := pairwise_of_forall fun _ _ _ _ => ⟨rfl, rfl⟩

theorem lastListener_heard (hheard : w'.heard = line :: w.heard) (streamid : List UInt8) :
    w'.lastListener streamid = (line.listener streamid).or (w.lastListener streamid) := by
  rw [Watch.lastListener, hheard, findSome?_cons]
  cases line.listener streamid <;> rfl

theorem lastTalker_heard (hheard : w'.heard = line :: w.heard) (streamid : List UInt8) :
    w'.lastTalker streamid = (line.talker streamid).or (w.lastTalker streamid) := by
  rw [Watch.lastTalker, hheard, findSome?_cons]
  cases line.talker streamid <;> rfl

theorem Watch.Holds.keep {e : StrElem} (h : w.Holds e)
    (hattached : w'.attached e.avtpHandle = w.attached e.avtpHandle)
    (hregistered : w'.registered e.avtpHandle = w.registered e.avtpHandle)
    (hheard : w'.heard = line :: w.heard) : w'.Holds e := by
  unfold Watch.Holds at h ⊢
  rw [hattached, hregistered]
  split at h
  case isTrue htalker => simpa [htalker] using h
  case isFalse htalker =>
    rw [if_neg htalker]
    rw [lastTalker_heard hheard, Option.or_eq_none_iff]
    exact ⟨h.1, fun hnone => h.2 hnone.2⟩

variable {e : StrElem} {l₁ l₂ : List StrElem} {subtype : UInt32}

section

variable (h : Touches w w' line e l₁ l₂ subtype)
include h

variable {e' : StrElem}

theorem Touches.others (hdistinct : (w.elems.map (·.avtpHandle)).Nodup) (he' : e' ∈ l₁ ++ l₂) :
    e'.avtpHandle ≠ e.avtpHandle := by
  rw [h.before, map_append, map_cons, nodup_middle, nodup_cons, ← map_append] at hdistinct
  exact fun heq => hdistinct.1 (heq ▸ mem_map_of_mem he')

theorem Touches.mem :
    e' ∈ w'.elems ↔ e' = { e with subtype := subtype } ∨ e' ∈ l₁ ++ l₂ := by
  rw [h.after]
  simp [or_left_comm]

theorem Touches.mem_before : e' ∈ w.elems ↔ e' = e ∨ e' ∈ l₁ ++ l₂ := by
  rw [h.before]
  simp [or_left_comm]

end

theorem Watch.Remembers.touch (hw : w.Remembers) (h : Touches w w' line e l₁ l₂ subtype)
    (he : w'.Holds { e with subtype := subtype }) : w'.Remembers where
  distinct := by
    have hhandles : w'.elems.map (·.avtpHandle) = w.elems.map (·.avtpHandle) := by
      simp [h.before, h.after]
    rw [hhandles]
    exact hw.distinct
  holds := by
    rintro e' he'
    obtain rfl | he' := h.mem.mp he'
    · exact he
    · have hne := h.others hw.distinct he'
      exact (hw.holds e' (h.mem_before.mpr (.inr he'))).keep (h.attached _ hne)
        (h.registered _ hne) h.heard
  behind := by
    have huntold : ∀ e' ∈ l₁ ++ l₂, w.Untold e' → w'.Untold e' := fun e' he' hold =>
      ⟨(h.attached _ (h.others hw.distinct he')).trans hold.1,
        (h.registered _ (h.others hw.distinct he')).trans hold.2⟩
    have hbehind := hw.behind
    rw [h.before, pairwise_append, pairwise_cons] at hbehind
    obtain ⟨hl₁, ⟨hel₂, hl₂⟩, hcross⟩ := hbehind
    rw [h.after, pairwise_append, pairwise_cons]
    refine ⟨hl₁.imp_of_mem ?_, ⟨?_, hl₂.imp_of_mem ?_⟩, ?_⟩
    · rintro a b - hb hab htalker hid
      exact huntold b (mem_append_left _ hb) (hab htalker hid)
    · rintro b hb htalker hid
      exact huntold b (mem_append_right _ hb) (hel₂ b hb htalker hid)
    · rintro a b - hb hab htalker hid
      exact huntold b (mem_append_right _ hb) (hab htalker hid)
    · rintro a ha b hb htalker hid
      cases mem_cons.mp hb with
      | inl hb =>
        subst hb
        exact absurd hid (h.first a ha htalker)
      | inr hb =>
        exact huntold b (mem_append_right _ hb)
          (hcross a ha b (mem_cons_of_mem _ hb) htalker hid)

theorem Watch.Remembers.skip (hw : w.Remembers) (line : Line) :
    Watch.Remembers { w with heard := line :: w.heard } where
  distinct := hw.distinct
  holds := fun e he => (hw.holds e he).keep rfl rfl rfl
  behind := hw.behind

theorem attached_state (hw : w.Remembers) (he : e ∈ w.elems) (htalker : e.talker = true) :
    (w.attached e.avtpHandle).getD 0 = e.subtype := by
  simpa [Watch.Holds, htalker] using hw.holds e he

theorem remembers_hear (monitor : List UInt8) (w : Watch) (input : Line × Locals)
    (hw : w.Remembers) : (w.hear monitor input).Remembers := by
  obtain ⟨line, v⟩ := input
  cases hvalue : line.attrib.value with
  | listener streamID substate =>
    obtain ⟨-, hhear⟩ | ⟨e, l₁, l₂, htalks, htouch, hcall⟩ := hear_listener_cases monitor w v hvalue
    · rw [hhear]
      exact hw.skip line
    · obtain ⟨htalker, -⟩ := StrElem.talks_iff.mp htalks
      have hstate := attached_state hw (htouch.mem_before.mpr (.inl rfl)) htalker
      refine hw.touch htouch ?_
      simp only [Watch.Holds, htalker, if_true, hcall]
      split
      case isTrue hsame => rw [hstate, hsame]
      case isFalse => rfl
  | talker failed t =>
    obtain rfl : failed = false := by simpa [hvalue, Reported] using line.reported
    obtain ⟨-, hhear⟩ | ⟨e, l₁, l₂, hlistens, htouch, hcall⟩ := hear_talker_cases monitor w v hvalue
    · rw [hhear]
      exact hw.skip line
    · obtain ⟨htalker, hid⟩ := StrElem.listens_iff.mp hlistens
      have hlast : (w.hear monitor (line, v)).lastTalker e.streamId = some (line.notify, t) := by
        simp [lastTalker_heard htouch.heard, Line.talker, hvalue, hid]
      have hheld := hw.holds e (htouch.mem_before.mpr (.inl rfl))
      simp only [Watch.Holds, htalker, Bool.false_eq_true, if_false] at hheld
      refine hw.touch htouch ?_
      simp only [Watch.Holds, htalker, Bool.false_eq_true, if_false, hlast, hcall]
      refine ⟨?_, by simp⟩
      split
      case isTrue hsame => exact hsame ▸ hheld.1
      case isFalse =>
        rintro r ⟨rfl⟩
        by_cases hjoin : line.notify = .join <;> simp [joinState, heardTalker, hjoin]
  | domain d => exact absurd line.reported (by simp [hvalue, Reported])

theorem follows_start (streams : Streams) : (Watch.start streams).Follows := by
  rintro e -
  unfold Watch.FollowsAt
  split
  case isTrue => rfl
  case isFalse => trivial

theorem Watch.FollowsAt.keep (h : w.FollowsAt e) (hheard : w'.heard = line :: w.heard)
    (hattached : w'.attached e.avtpHandle = w.attached e.avtpHandle)
    (hregistered : w'.registered e.avtpHandle = w.registered e.avtpHandle)
    (hlistener : e.talker = true → line.listener e.streamId = none)
    (htalker : e.talker = false → line.talker e.streamId = none) : w'.FollowsAt e := by
  unfold Watch.FollowsAt at h ⊢
  rw [hattached, hregistered, lastListener_heard hheard, lastTalker_heard hheard]
  cases hrole : e.talker with
  | true => simpa [hrole, hlistener hrole] using h
  | false => simpa [hrole, htalker hrole] using h

variable {p : StrElem → Bool} {C : StrElem → Prop}

theorem only_first (he : e ∈ w.elems) (hp : p e = true) :
    (∀ e' ∈ w.elems, p e' = true → w.Only p e' ∧ C e') ↔ w.Only p e ∧ C e := by
  constructor
  · rintro h
    exact h e he hp
  · rintro ⟨honly, hC⟩ e' he' hp'
    obtain rfl := honly e' he' hp'
    exact ⟨honly, hC⟩

theorem follows_touch (hw : w.Remembers) (hw' : w'.Remembers) (hfollows : w.Follows)
    (h : Touches w w' line e l₁ l₂ subtype)
    (hp : ∀ e', p e' = true ↔ e'.talker = e.talker ∧ e'.streamId = e.streamId)
    (hkeep : ∀ e' ∈ l₁ ++ l₂, p e' = false → w.FollowsAt e' → w'.FollowsAt e')
    (huntold : w'.FollowsAt { e with subtype := subtype } →
      ∀ e', p e' = true → w'.Untold e' → ¬ w'.FollowsAt e') :
    w'.Follows ↔ w.Only p e ∧ w'.FollowsAt { e with subtype := subtype } := by
  constructor
  · rintro hnext
    have hat := hnext _ (h.mem.mpr (.inl rfl))
    refine ⟨?_, hat⟩
    rintro e' he' hp'
    obtain rfl | he' := h.mem_before.mp he'
    · rfl
    · have hsame := (hp e').mp hp'
      cases mem_append.mp he' with
      | inl he' => exact absurd hsame.2 (h.first e' he' hsame.1)
      | inr hl₂ =>
        have hbehind := hw'.behind
        rw [h.after, pairwise_append, pairwise_cons] at hbehind
        have hunheard := hbehind.2.1.1 e' hl₂ hsame.1.symm hsame.2.symm
        exact absurd (hnext e' (h.mem.mpr (.inr he'))) (huntold hat e' hp' hunheard)
  · rintro ⟨honly, hat⟩ e' he'
    obtain rfl | he' := h.mem.mp he'
    · exact hat
    · have hbefore : e' ∈ w.elems := h.mem_before.mpr (.inr he')
      refine hkeep e' he' ?_ (hfollows e' hbefore)
      rw [Bool.eq_false_iff]
      rintro hp'
      exact h.others hw.distinct he' (by rw [honly e' hbefore hp'])

theorem Reported.substate_ne (h : Reported (.listener streamID substate)) :
    UInt32.ofNat substate ≠ 0 := by
  obtain ⟨hpos, hle⟩ := h
  interval_cases substate <;> decide

theorem listenersOf_iff (h : Reported (.listener streamID substate)) (notify : Notify) :
    UInt32.ofNat substate = listenersOf (some (notify, substate)) ↔ notify ≠ .lv := by
  cases notify <;> simp [listenersOf, h.substate_ne]

theorem heardTalker_new_ne : heardTalker v .new t ≠ advertised t' := by
  rintro h
  have hdecl := congrArg Registration.tlkrDecl h
  cases hdecl

/-- What the one listener of a stream was told before decides whether a talker's line calls it. -/
theorem told_iff {last : Option (Notify × TalkListen)} {notify : Notify}
    {registered : Option Registration}
    (hstate : ∀ r ∈ registered, e.subtype = if r.tlkrDecl = .talkerAdvertise then 1 else 0)
    (hnone : last = none → registered = none) (htold : Told last registered)
    (hsent : notify ≠ .none) : Told (some (notify, t))
        (if e.subtype = joinState notify then registered else some (heardTalker v notify t)) ↔
      Passed v e notify t last := by
  match last with
  | none =>
    obtain rfl := hnone rfl
    cases notify with
    | none => exact absurd rfl hsent
    | new => by_cases hzero : e.subtype = 0 <;>
        simp [Told, Passed, joinState, hzero, heardTalker_new_ne]
    | join => by_cases hone : e.subtype = 1 <;>
        simp [Told, Passed, joinState, hone, heardTalker_eq_advertised]
    | lv => by_cases hzero : e.subtype = 0 <;>
        simp [Told, Passed, joinState, hzero, heardTalker]
  | some (.lv, t') =>
    obtain ⟨r, rfl, hdecl⟩ := Option.map_eq_some_iff.mp htold
    have hzero : e.subtype = 0 := by simp [hstate r rfl, hdecl]
    have hne : r ≠ advertised t := by
      rintro rfl
      cases hdecl
    cases notify with
    | none => exact absurd rfl hsent
    | new => simp [Told, Passed, joinState, hzero, hne]
    | join => simp [Told, Passed, joinState, hzero, heardTalker_eq_advertised]
    | lv => simp [Told, Passed, joinState, hzero, hdecl]
  | some (.none, t') | some (.new, t') | some (.join, t') =>
    obtain rfl : registered = some (advertised t') := htold
    have hone : e.subtype = 1 := hstate _ rfl
    cases notify with
    | none => exact absurd rfl hsent
    | new => simp [Told, Passed, joinState, hone, heardTalker_new_ne]
    | join => simp [Told, Passed, joinState, hone]
    | lv => simp [Told, Passed, joinState, hone, heardTalker]

theorem Line.notify_ne (line : Line) : line.notify ≠ .none := by
  rintro hnone
  have hsent := line.sent
  rw [hnone] at hsent
  cases hsent

theorem follows_skip (hfollows : w.Follows)
    (hlistener : ∀ e ∈ w.elems, e.talker = true → line.listener e.streamId = none)
    (htalker : ∀ e ∈ w.elems, e.talker = false → line.talker e.streamId = none) :
    Watch.Follows { w with heard := line :: w.heard } := by
  rintro e he
  exact (hfollows e he).keep rfl rfl rfl (hlistener e he) (htalker e he)

theorem Line.of_listener (hvalue : line.attrib.value = .listener streamID substate)
    (streamid : List UInt8) : line.talker streamid = none ∧ line.listener streamid =
        if streamID.val = streamid then some (line.notify, substate) else none := by
  simp [Line.listener, Line.talker, hvalue]

theorem Line.of_talker (hvalue : line.attrib.value = .talker false t)
    (streamid : List UInt8) : line.listener streamid = none ∧ line.talker streamid =
        if t.streamID.val = streamid then some (line.notify, t) else none := by
  simp [Line.listener, Line.talker, hvalue]

theorem follows_listener (hw : w.Remembers) (hfollows : w.Follows)
    (hvalue : line.attrib.value = .listener streamID substate) :
    (w.hear monitor (line, v)).Follows ↔ ∀ e ∈ w.elems, e.talks streamID.val = true →
        w.Only (·.talks streamID.val) e ∧ line.notify ≠ .lv := by
  have hw' := remembers_hear monitor w (line, v) hw
  have hreported : Reported (.listener streamID substate) := hvalue ▸ line.reported
  have hline := Line.of_listener hvalue
  have hother : ∀ e : StrElem, e.talks streamID.val = false → e.talker = true →
      line.listener e.streamId = none := by
    rintro e htalks htalker
    have hne : streamID.val ≠ e.streamId := by
      rintro hid
      rw [StrElem.talks_iff.mpr ⟨htalker, hid.symm⟩] at htalks
      cases htalks
    simp [hline, hne]
  obtain ⟨hnobody, hhear⟩ | ⟨e, l₁, l₂, htalks, htouch, hcall⟩ :=
    hear_listener_cases monitor w v hvalue
  · rw [hhear]
    refine iff_of_true (follows_skip hfollows (fun e he => hother e (hnobody e he))
      fun e _ _ => (hline _).1) ?_
    rintro e he htalks
    rw [hnobody e he] at htalks
    cases htalks
  · obtain ⟨htalker, hid⟩ := StrElem.talks_iff.mp htalks
    have hat : (w.hear monitor (line, v)).FollowsAt
        { e with subtype := UInt32.ofNat substate } ↔ line.notify ≠ .lv := by
      have hstate := attached_state hw' (htouch.mem.mpr (.inl rfl)) htalker
      rw [← listenersOf_iff hreported]
      simp only [Watch.FollowsAt, htalker, if_true, lastListener_heard htouch.heard, hline, hid,
        Option.some_or] at hstate ⊢
      rw [hstate]
    rw [only_first (htouch.mem_before.mpr (.inl rfl)) htalks, ← hat]
    refine follows_touch hw hw' hfollows htouch ?_ ?_ ?_
    · rintro e'
      rw [StrElem.talks_iff, htalker, hid]
    · rintro e' he' htalks' hfollows'
      have hne := htouch.others hw.distinct he'
      exact hfollows'.keep htouch.heard (htouch.attached _ hne) (htouch.registered _ hne)
        (hother e' htalks') fun _ => (hline _).1
    · rintro hnotify e' htalks' ⟨hunattached, -⟩ hfollows'
      obtain ⟨htalker', hid'⟩ := StrElem.talks_iff.mp htalks'
      simp only [Watch.FollowsAt, htalker', if_true, lastListener_heard htouch.heard, hline, hid',
        Option.some_or, hunattached, Option.getD_none] at hfollows'
      rw [← (listenersOf_iff hreported _).mpr (hat.mp hnotify)] at hfollows'
      exact hreported.substate_ne hfollows'.symm

theorem follows_talker (hw : w.Remembers) (hfollows : w.Follows)
    (hvalue : line.attrib.value = .talker false t) : (w.hear monitor (line, v)).Follows ↔
      ∀ e ∈ w.elems, e.listens t.streamID.val = true → w.Only (·.listens t.streamID.val) e ∧
          Passed v e line.notify t (w.lastTalker t.streamID.val) := by
  have hw' := remembers_hear monitor w (line, v) hw
  have hline := Line.of_talker hvalue
  have hother : ∀ e : StrElem, e.listens t.streamID.val = false → e.talker = false →
      line.talker e.streamId = none := by
    rintro e hlistens htalker
    have hne : t.streamID.val ≠ e.streamId := by
      rintro hid
      rw [StrElem.listens_iff.mpr ⟨htalker, hid.symm⟩] at hlistens
      cases hlistens
    simp [hline, hne]
  obtain ⟨hnobody, hhear⟩ | ⟨e, l₁, l₂, hlistens, htouch, hcall⟩ :=
    hear_talker_cases monitor w v hvalue
  · rw [hhear]
    refine iff_of_true (follows_skip hfollows (fun e _ _ => (hline _).1)
      fun e he => hother e (hnobody e he)) ?_
    rintro e he hlistens
    rw [hnobody e he] at hlistens
    cases hlistens
  · obtain ⟨htalker, hid⟩ := StrElem.listens_iff.mp hlistens
    have hmem : e ∈ w.elems := htouch.mem_before.mpr (.inl rfl)
    have hheld := hw.holds e hmem
    have htold := hfollows e hmem
    simp only [Watch.Holds, Watch.FollowsAt, htalker, Bool.false_eq_true, if_false, hid]
      at hheld htold
    have hat : (w.hear monitor (line, v)).FollowsAt
        { e with subtype := joinState line.notify } ↔
          Passed v e line.notify t (w.lastTalker t.streamID.val) := by
      rw [← told_iff hheld.1 hheld.2 htold line.notify_ne]
      simp [Watch.FollowsAt, htalker, Bool.false_eq_true, lastTalker_heard htouch.heard, hline, hid,
        Option.some_or, hcall]
    rw [only_first hmem hlistens, ← hat]
    refine follows_touch hw hw' hfollows htouch ?_ ?_ ?_
    · rintro e'
      rw [StrElem.listens_iff, htalker, hid]
    · rintro e' he' hlistens' hfollows'
      have hne := htouch.others hw.distinct he'
      exact hfollows'.keep htouch.heard (htouch.attached _ hne) (htouch.registered _ hne)
        (fun _ => (hline _).1) (hother e' hlistens')
    · rintro - e' hlistens' ⟨-, hunregistered⟩ hfollows'
      obtain ⟨htalker', hid'⟩ := StrElem.listens_iff.mp hlistens'
      simp only [Watch.FollowsAt, htalker', Bool.false_eq_true, if_false,
        lastTalker_heard htouch.heard, hline, hid', if_true, Option.some_or, hunregistered]
        at hfollows'
      cases hnotify : line.notify <;> simp [Told, hnotify] at hfollows'

theorem follows_hear (monitor : List UInt8) (w : Watch) (input : Line × Locals) (hw : w.Remembers)
    (hfollows : w.Follows) : (w.hear monitor input).Follows ↔ w.Heeded input := by
  obtain ⟨line, v⟩ := input
  cases hvalue : line.attrib.value with
  | listener streamID substate =>
    rw [follows_listener hw hfollows hvalue]
    simp [Watch.Heeded, hvalue]
  | talker failed t =>
    obtain rfl : failed = false := by simpa [hvalue, Reported] using line.reported
    rw [follows_talker hw hfollows hvalue]
    simp [Watch.Heeded, hvalue]
  | domain d => exact absurd line.reported (by simp [hvalue, Reported])

/-- The streams are told what the daemon says after every line of a run if and only if every
line is passed on. -/
theorem endpoint_follows_iff (monitor : List UInt8) (streams : Streams)
    (lines : List (Line × Locals)) :
    Always (Watch.hear monitor) Watch.Follows (Watch.start streams) lines ↔
      Each (Watch.hear monitor) Watch.Heeded (Watch.start streams) lines :=
  always_iff_each (remembers_hear monitor) (follows_hear monitor) (remembers_start streams)
    (follows_start streams)

def readyLine (notify : Notify) (h : notify ≠ .none) : Line where
  attrib := alloc (.listener ⟨[0, 0, 0, 0, 0, 0, 0, 1], rfl⟩ 2)
  notify := notify
  text :=
    (msrpSendNotifications (alloc (.listener ⟨[0, 0, 0, 0, 0, 0, 0, 1], rfl⟩ 2)) notify).getD []
  sent := by
    cases notify with
    | none => exact absurd rfl h
    | _ => rfl
  reported := by
    show 1 ≤ 2 ∧ 2 ≤ 3
    decide

def oneTalker : Streams where
  elems :=
    [{ avtpHandle := 0, talker := true, streamId := [0, 0, 0, 0, 0, 0, 0, 1]
       destAddr := [0x91, 0xe0, 0xf0, 0, 0, 1], vlanId := 2, maxFrameSize := 84
       maxIntervalFrames := 1, priority := 3, latency := 0, subtype := 0 }]
  distinct := by decide
  untold := by decide

/-- A listener that leaves is still taken for one that is ready. -/
theorem endpoint_keeps_left_listener :
    ¬ Always (Watch.hear []) Watch.Follows (Watch.start oneTalker)
      [(readyLine .join (by decide), ⟨0, 0, 0, 0, 0, 0, 0, 0⟩),
        (readyLine .lv (by decide), ⟨0, 0, 0, 0, 0, 0, 0, 0⟩)] := by
  decide +kernel

end OpenAvb.Endpoint
