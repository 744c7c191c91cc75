import OpenAvb.Counting
import OpenAvb.Gptp.Clock

/-!
# The restore file

On a signal the daemon writes the state of its clock and its port to a mapped file,
and when it starts it reads them back. Both ends find their place from the length of
the file and a count, which is that of the record or that of the file.
-/

namespace OpenAvb.Gptp

open List

structure Image (α : Type) where
  size : Nat
  bytes : α → Octets size
  value : Octets size → α
  value_bytes : ∀ x, value (bytes x) = x

def Image.decode (I : Image α) (l : List UInt8) : α := I.value (Octets.ofList I.size l)

/-- `FrequencyRatio`, `bool` and `PortState` have a size and an image of the compiler's choice. -/
structure Images (ρ : Type) where
  ratio : Image ρ
  flag : Image Bool
  state : Image PortState
  delay : Image Int64

structure ClockState (ρ : Type) where
  (masterLocalFreqOffset localSystemFreqOffset : ρ)
  lastEBestIdentity : ClockIdentity
  deriving DecidableEq

structure PortRecord (ρ : Type) where
  asCapable : Bool
  portState : PortState
  oneWayDelay : Int64
  peerRateOffset : ρ

def identityImage : Image ClockIdentity where
  size := 8
  bytes := id
  value := id
  value_bytes _ := rfl

/-- The locals of `serializeState` and `restoreSerializedState`, `buf` as an offset. -/
structure Transfer where
  buf : Nat
  count : Int
  ret : Bool

def Transfer.room (t : Transfer) (size : Nat) : Bool := t.ret && (size : Int) ≤ t.count

/-- The locals behind a member of that size. Once there is no room, `count` adds up what is missing. -/
def Transfer.next (t : Transfer) (size : Nat) : Transfer :=
  if t.room size then { t with buf := t.buf + size, count := t.count - size }
  else if t.ret = false then { t with count := t.count + size }
  else { t with count := size - t.count, ret := false }

def overwrite (f : List UInt8) (p : Nat) (xs : List UInt8) : List UInt8 :=
  f.take p ++ xs ++ f.drop (p + xs.length)

def putMember (I : Image α) (x : α) (s : List UInt8 × Transfer) : List UInt8 × Transfer :=
  (if s.2.room I.size then overwrite s.1 s.2.buf (I.bytes x).val else s.1, s.2.next I.size)

def getMember (I : Image α) (f : List UInt8) (x : α) (t : Transfer) : α × Transfer :=
  (if t.room I.size then I.decode (f.drop t.buf) else x, t.next I.size)

variable {ρ : Type} (I : Images ρ)

def ClockState.size : Nat := I.ratio.size + I.ratio.size + identityImage.size

def PortRecord.size : Nat := I.state.size + I.ratio.size + I.flag.size + I.delay.size

variable (c : ClockState ρ)

def ClockState.serializeState (f : List UInt8) (buf : Nat) (count : Int) : List UInt8 × Transfer :=
  putMember identityImage c.lastEBestIdentity
    (putMember I.ratio c.localSystemFreqOffset
      (putMember I.ratio c.masterLocalFreqOffset (f, ⟨buf, count, true⟩)))

def ClockState.restoreSerializedState (f : List UInt8) (buf : Nat)
    (count : Int) : ClockState ρ × Transfer :=
  let (masterLocal, t) := getMember I.ratio f c.masterLocalFreqOffset ⟨buf, count, true⟩
  let (localSystem, t) := getMember I.ratio f c.localSystemFreqOffset t
  let (lastEBest, t) := getMember identityImage f c.lastEBestIdentity t
  (⟨masterLocal, localSystem, lastEBest⟩, t)

def PortRecord.serializeState (p : PortRecord ρ) (f : List UInt8) (buf : Nat) (count : Int) :
    List UInt8 × Transfer :=
  if p.portState ≠ .master ∧ p.portState ≠ .slave then (f, ⟨buf, 0, false⟩)
  else
    putMember I.ratio p.peerRateOffset
      (putMember I.delay p.oneWayDelay (putMember I.state p.portState
          (putMember I.flag p.asCapable (f, ⟨buf, count, true⟩))))

def PortRecord.restoreSerializedState (p : PortRecord ρ) (f : List UInt8) (buf : Nat)
    (count : Int) : PortRecord ρ × Transfer :=
  let (asCapable, t) := getMember I.flag f p.asCapable ⟨buf, count, true⟩
  let (portState, t) := getMember I.state f p.portState t
  let (oneWayDelay, t) := getMember I.delay f p.oneWayDelay t
  let (peerRateOffset, t) := getMember I.ratio f p.peerRateOffset t
  (⟨asCapable, portState, oneWayDelay, peerRateOffset⟩, t)

def grow (f : List UInt8) (length : Nat) : List UInt8 := f ++ List.replicate (length - f.length) 0

def saveState (clock : ClockState ρ) (port : PortRecord ρ) (file : List UInt8) : List UInt8 :=
  if port.portState = .master ∨ port.portState = .slave then
    let restoredatacount := ClockState.size I + PortRecord.size I
    let file := if file.length < restoredatacount then grow file restoredatacount else file
    let restoredatalength := file.length
    let (file, t) := clock.serializeState I file 0 restoredatacount
    (port.serializeState I file (restoredatalength - t.count).toNat t.count).1
  else file

/-- What the daemon makes of the file when it starts: whether the restore succeeds, and the
states then. -/
def restoreState (clock : ClockState ρ) (port : PortRecord ρ) (file : List UInt8) :
    Bool × ClockState ρ × PortRecord ρ :=
  if file = [] then (true, clock, port)
  else
    let restoredatalength := file.length
    let (clock, t) := clock.restoreSerializedState I file 0 restoredatalength
    if t.ret then
      let (port, t) :=
        port.restoreSerializedState I file (restoredatalength - t.count).toNat t.count
      (t.ret, clock, port)
    else (false, clock, port)

theorem overwrite_nil (f : List UInt8) (p : Nat) : overwrite f p [] = f := by simp [overwrite]

theorem length_overwrite (h : p + xs.length ≤ f.length) : (overwrite f p xs).length = f.length := by
  simp only [overwrite, length_append, length_take, length_drop]
  omega

theorem overwrite_overwrite (h : p ≤ f.length) :
    overwrite (overwrite f p xs) (p + xs.length) ys = overwrite f p (xs ++ ys) := by
  have hlen : (f.take p ++ xs).length = p + xs.length := by
    rw [length_append, length_take, min_eq_left h]
  have hdrop : (f.take p ++ xs ++ f.drop (p + xs.length)).drop (p + xs.length + ys.length) =
      f.drop (p + xs.length + ys.length) := by
    rw [← drop_drop, drop_left' hlen, drop_drop]
  unfold overwrite
  rw [take_left' hlen, hdrop, length_append, ← add_assoc, append_assoc (f.take p)]

theorem Image.decode_bytes (J : Image α) (x : α) (l : List UInt8) :
    J.decode ((J.bytes x).val ++ l) = x := by
  rw [decode, Octets.ofList_append, J.value_bytes]

theorem Image.drop_bytes (J : Image α) (x : α) (l : List UInt8) :
    ((J.bytes x).val ++ l).drop J.size = l :=
  drop_left' (J.bytes x).property

def written (f : List UInt8) (b : Nat) (n : Int) (xs : List UInt8) : List UInt8 × Transfer :=
  (overwrite f b xs, ⟨b + xs.length, n - xs.length, true⟩)

theorem written_nil : written f b n [] = (f, ⟨b, n, true⟩) := by simp [written, overwrite_nil]

theorem putMember_written (J : Image α) (x : α) (hn : (xs.length : Int) + J.size ≤ n)
    (hb : b ≤ f.length) :
    putMember J x (written f b n xs) = written f b n (xs ++ (J.bytes x).val) := by
  have hroom : Transfer.room ⟨b + xs.length, n - xs.length, true⟩ J.size = true := by
    simp only [Transfer.room, Bool.true_and, decide_eq_true_eq]
    omega
  rw [putMember, written, if_pos hroom, Transfer.next, if_pos hroom, overwrite_overwrite hb, written,
    length_append, (J.bytes x).property, add_assoc, Int.sub_sub, Int.natCast_add]

def taken (b : Nat) (n : Int) (k : Nat) : Transfer := ⟨b + k, n - k, true⟩

theorem taken_zero : taken b n 0 = ⟨b, n, true⟩ := by simp [taken]

theorem getMember_taken (J : Image α) (f : List UInt8) (x : α) {k : Nat}
    (hn : (k : Int) + J.size ≤ n) : getMember J f x (taken b n k) =
      (J.decode ((f.drop b).drop k), taken b n (k + J.size)) := by
  have hroom : Transfer.room (taken b n k) J.size = true := by
    have hcount : (J.size : Int) ≤ n - k := by omega
    exact decide_eq_true hcount
  rw [getMember, if_pos hroom, Transfer.next, if_pos hroom, taken, drop_drop, taken,
    add_assoc, Int.sub_sub, Int.natCast_add]

def ClockState.bytes : List UInt8 :=
  (I.ratio.bytes c.masterLocalFreqOffset).val ++ (I.ratio.bytes c.localSystemFreqOffset).val ++
    (identityImage.bytes c.lastEBestIdentity).val

variable (p : PortRecord ρ)

def PortRecord.bytes : List UInt8 :=
  (I.flag.bytes p.asCapable).val ++ (I.state.bytes p.portState).val ++
    (I.delay.bytes p.oneWayDelay).val ++ (I.ratio.bytes p.peerRateOffset).val

theorem ClockState.length_bytes : (c.bytes I).length = ClockState.size I := by
  have hmaster := (I.ratio.bytes c.masterLocalFreqOffset).property
  have hlocal := (I.ratio.bytes c.localSystemFreqOffset).property
  have hidentity := (identityImage.bytes c.lastEBestIdentity).property
  rw [bytes, size, length_append, length_append, hmaster, hlocal, hidentity]

theorem PortRecord.length_bytes : (p.bytes I).length = PortRecord.size I := by
  have hflag := (I.flag.bytes p.asCapable).property
  have hstate := (I.state.bytes p.portState).property
  have hdelay := (I.delay.bytes p.oneWayDelay).property
  have hratio := (I.ratio.bytes p.peerRateOffset).property
  simp only [bytes, size, length_append]
  omega

variable (l : List UInt8)

def ClockState.decode : ClockState ρ where
  masterLocalFreqOffset := I.ratio.decode l
  localSystemFreqOffset := I.ratio.decode (l.drop I.ratio.size)
  lastEBestIdentity := identityImage.decode (l.drop (I.ratio.size + I.ratio.size))

def PortRecord.decode : PortRecord ρ where
  asCapable := I.flag.decode l
  portState := I.state.decode (l.drop I.flag.size)
  oneWayDelay := I.delay.decode (l.drop (I.flag.size + I.state.size))
  peerRateOffset := I.ratio.decode (l.drop (I.flag.size + I.state.size + I.delay.size))

theorem ClockState.decode_bytes : ClockState.decode I (c.bytes I ++ l) = c := by
  simp only [decode, bytes, append_assoc, ← drop_drop, Image.drop_bytes, Image.decode_bytes]

theorem PortRecord.decode_bytes : PortRecord.decode I (p.bytes I ++ l) = p := by
  simp only [decode, bytes, append_assoc, ← drop_drop, Image.drop_bytes, Image.decode_bytes]

theorem ClockState.serializeState_eq (hn : (ClockState.size I : Int) ≤ n)
    (hb : b ≤ f.length) : c.serializeState I f b n = written f b n (c.bytes I) := by
  have hmaster := (I.ratio.bytes c.masterLocalFreqOffset).property
  have hlocal := (I.ratio.bytes c.localSystemFreqOffset).property
  unfold ClockState.size at hn
  rw [serializeState, ← written_nil, putMember_written, putMember_written, putMember_written]
  · rfl
  all_goals first | exact hb | skip
  all_goals simp only [length_append, length_nil, hmaster, hlocal]; omega

theorem PortRecord.serializeState_eq
    (hp : p.portState = .master ∨ p.portState = .slave) (hn : (PortRecord.size I : Int) ≤ n)
    (hb : b ≤ f.length) : p.serializeState I f b n = written f b n (p.bytes I) := by
  have hflag := (I.flag.bytes p.asCapable).property
  have hstate := (I.state.bytes p.portState).property
  have hdelay := (I.delay.bytes p.oneWayDelay).property
  have hactive : ¬ (p.portState ≠ .master ∧ p.portState ≠ .slave) := by
    rintro ⟨hm, hs⟩
    cases hp with
    | inl h => exact hm h
    | inr h => exact hs h
  unfold PortRecord.size at hn
  rw [serializeState, if_neg hactive, ← written_nil, putMember_written, putMember_written,
    putMember_written, putMember_written]
  · rfl
  all_goals first | exact hb | skip
  all_goals simp only [length_append, length_nil, hflag, hstate, hdelay]; omega

theorem ClockState.restoreSerializedState_eq
    (hn : (ClockState.size I : Int) ≤ n) : c.restoreSerializedState I f b n =
      (ClockState.decode I (f.drop b), taken b n (ClockState.size I)) := by
  unfold ClockState.size at hn
  simp (disch := omega) only [restoreSerializedState, ← taken_zero, getMember_taken]
  rw [drop_zero, zero_add]
  rfl

theorem PortRecord.restoreSerializedState_eq
    (hn : (PortRecord.size I : Int) ≤ n) : p.restoreSerializedState I f b n =
      (PortRecord.decode I (f.drop b), taken b n (PortRecord.size I)) := by
  have hsize : PortRecord.size I = I.flag.size + I.state.size + I.delay.size + I.ratio.size := by
    unfold PortRecord.size
    omega
  rw [hsize] at hn ⊢
  simp (disch := omega) only [restoreSerializedState, ← taken_zero, getMember_taken]
  rw [drop_zero, zero_add]
  rfl

def recordSize : Nat := ClockState.size I + PortRecord.size I

def extended (file : List UInt8) : List UInt8 :=
  if file.length < recordSize I then grow file (recordSize I) else file

theorem recordSize_le_length : recordSize I ≤ (extended I file).length := by
  unfold extended
  split
  · simp only [grow, length_append, length_replicate]
    omega
  · omega

def leftover (file : List UInt8) : List UInt8 :=
  (file.drop (ClockState.size I)).take (file.length - recordSize I)

theorem leftover_extended (file : List UInt8) : leftover I (extended I file) = leftover I file := by
  unfold extended
  split
  case isTrue h =>
    have hgrown : (grow file (recordSize I)).length = recordSize I := by
      simp only [grow, length_append, length_replicate]
      omega
    have hnone : file.length - recordSize I = 0 := by omega
    rw [leftover, leftover, hgrown, hnone, Nat.sub_self, take_zero, take_zero]
  case isFalse h => rfl

theorem saveState_eq (clock : ClockState ρ) (port : PortRecord ρ) (file : List UInt8)
    (hp : port.portState = .master ∨ port.portState = .slave) :
    saveState I clock port file = clock.bytes I ++ (leftover I file ++ port.bytes I) := by
  have hclock := clock.length_bytes I
  have hport := port.length_bytes I
  have hlen : recordSize I ≤ (extended I file).length := recordSize_le_length I
  have hsum : recordSize I = ClockState.size I + PortRecord.size I := rfl
  have hput : overwrite (extended I file) 0 (clock.bytes I) =
      clock.bytes I ++ (extended I file).drop (ClockState.size I) := by
    rw [overwrite, take_zero, nil_append, zero_add, hclock]
  have hlenput : (overwrite (extended I file) 0 (clock.bytes I)).length =
      (extended I file).length := length_overwrite (by omega)
  have hoff : (((extended I file).length : Int) -
      ((recordSize I : Int) - (ClockState.size I : Int))).toNat =
      (extended I file).length - PortRecord.size I := by omega
  have hcut : (clock.bytes I ++ (extended I file).drop (ClockState.size I)).take
      ((extended I file).length - PortRecord.size I) =
        clock.bytes I ++ leftover I (extended I file) := by
    rw [take_append, take_of_length_le (by omega), hclock, Nat.sub_sub,
      add_comm (PortRecord.size I)]
    rfl
  have hend : (overwrite (extended I file) 0 (clock.bytes I)).drop
      ((extended I file).length - PortRecord.size I + (port.bytes I).length) = [] :=
    drop_eq_nil_of_le (by omega)
  have hsave : saveState I clock port file =
      (port.serializeState I (clock.serializeState I (extended I file) 0 (recordSize I)).1
        (((extended I file).length : Int) -
          (clock.serializeState I (extended I file) 0 (recordSize I)).2.count).toNat
        (clock.serializeState I (extended I file) 0 (recordSize I)).2.count).1 := by
    rw [saveState, if_pos hp]
    rfl
  rw [hsave]
  rw [ClockState.serializeState_eq I clock (by omega) (Nat.zero_le _), written]
  dsimp only
  rw [hclock, hoff, PortRecord.serializeState_eq I port hp (by omega) (by omega), written]
  rw [overwrite, hend, hput, hcut, leftover_extended, append_nil, append_assoc]

theorem restoreState_eq (clock : ClockState ρ) (port : PortRecord ρ) (hf : file ≠ [])
    (hlen : recordSize I ≤ file.length) : restoreState I clock port file =
      (true, ClockState.decode I file, PortRecord.decode I (file.drop (ClockState.size I))) := by
  have hsum : recordSize I = ClockState.size I + PortRecord.size I := rfl
  rw [restoreState, if_neg hf]
  dsimp only
  rw [ClockState.restoreSerializedState_eq I clock (by omega)]
  have hret : (taken 0 file.length (ClockState.size I)).ret = true := rfl
  have hcount : (taken 0 file.length (ClockState.size I)).count =
      file.length - ClockState.size I := rfl
  have hoff : ((file.length : Int) - (file.length - ClockState.size I)).toNat =
      ClockState.size I := by omega
  rw [if_pos hret, hcount, PortRecord.restoreSerializedState_eq I port (by omega), hoff]
  rfl

theorem restoreState_saveState (clock clock0 : ClockState ρ) (port port0 : PortRecord ρ)
    (old : List UInt8) (hp : port.portState = .master ∨ port.portState = .slave) :
    restoreState I clock0 port0 (saveState I clock port old) =
      (true, clock, PortRecord.decode I (leftover I old ++ port.bytes I)) := by
  have hclock := clock.length_bytes I
  have hport := port.length_bytes I
  have hidentity : 8 ≤ ClockState.size I := Nat.le_add_left _ _
  have hsum : recordSize I = ClockState.size I + PortRecord.size I := rfl
  rw [saveState_eq I clock port old hp, restoreState_eq, ClockState.decode_bytes, drop_left' hclock]
  · intro h
    have hnil := congrArg List.length h
    simp only [length_append, length_nil] at hnil
    omega
  · simp only [length_append]
    omega

theorem leftover_of_le (h : old.length ≤ recordSize I) : leftover I old = [] := by
  rw [leftover, Nat.sub_eq_zero_of_le h, take_zero]

/-- A master's or a slave's state comes back iff the file was no longer than the two records, or
the octets it held behind the clock's happen to say the same of the port as its record. -/
theorem restoreState_saveState_iff (clock clock0 : ClockState ρ) (port port0 : PortRecord ρ)
    (old : List UInt8) (hp : port.portState = .master ∨ port.portState = .slave) :
    restoreState I clock0 port0 (saveState I clock port old) = (true, clock, port) ↔
      old.length ≤ recordSize I ∨ PortRecord.decode I (leftover I old ++ port.bytes I) = port := by
  rw [restoreState_saveState I clock clock0 port port0 old hp]
  constructor
  · intro h
    exact Or.inr (congrArg (fun r => r.2.2) h)
  · rintro (hle | hsame)
    · have hnone : leftover I old = [] := leftover_of_le I hle
      have hport : PortRecord.decode I (port.bytes I) = port := by
        simpa using port.decode_bytes I []
      rw [hnone, nil_append, hport]
    · rw [hsame]

def codedImage (size : Nat) (code : α → Nat) (ofCode : Nat → α)
    (h : ∀ x, ofCode (code x % 256 ^ size) = x) : Image α where
  size := size
  bytes x := ⟨numeral size (code x), length_numeral⟩
  value o := ofCode (number o.val)
  value_bytes x := by rw [number_numeral, h]

def PortState.code : PortState → Nat
  | .master => 7
  | .preMaster => 8
  | .slave => 9
  | .uncalibrated => 10
  | .disabled => 11
  | .faulty => 12
  | .initializing => 13
  | .listening => 14

def PortState.ofCode : Nat → PortState
  | 7 => .master
  | 8 => .preMaster
  | 9 => .slave
  | 10 => .uncalibrated
  | 11 => .disabled
  | 12 => .faulty
  | 13 => .initializing
  | _ => .listening

theorem ofNat_toNat_octets (x : UInt64) : UInt64.ofNat (x.toNat % 256 ^ 8) = x := by
  have hpow : 256 ^ 8 = 2 ^ 64 := rfl
  rw [hpow, Nat.mod_eq_of_lt x.toNat_lt, UInt64.ofNat_toNat]

def octetImages : Images UInt64 where
  ratio := codedImage 8 UInt64.toNat UInt64.ofNat ofNat_toNat_octets
  flag := codedImage 1 Bool.toNat (· != 0) (by decide)
  state := codedImage 4 PortState.code PortState.ofCode (by rintro ⟨⟩ <;> decide)
  delay := codedImage 8 (fun x => x.toUInt64.toNat) (fun n => (UInt64.ofNat n).toInt64) (by
    intro x
    rw [ofNat_toNat_octets, Int64.toInt64_toUInt64])

def savedClock : ClockState UInt64 := ⟨1, 2, ⟨[0, 27, 33, 255, 254, 1, 2, 3], rfl⟩⟩

def savedPort : PortRecord UInt64 := ⟨true, .slave, 500, 3⟩

theorem restoreState_saveState_empty :
    restoreState octetImages savedClock savedPort (saveState octetImages savedClock savedPort []) =
      (true, savedClock, savedPort) :=
  (restoreState_saveState_iff octetImages savedClock savedClock savedPort savedPort []
    (Or.inr rfl)).mpr (Or.inl (Nat.zero_le _))

/-- One octet more than the 45 of the two records, and the slave comes back as not capable. -/
theorem restoreState_saveState_longer : (restoreState octetImages savedClock savedPort
      (saveState octetImages savedClock savedPort (List.replicate 46 0))).2.2.asCapable = false ∧
      savedPort.asCapable = true := by
  decide

theorem getMember_short (J : Image α) (f : List UInt8) (x : α) {k : Nat}
    (hn : n < (k : Int) + J.size) :
    getMember J f x (taken b n k) = (x, ⟨b + k, k + J.size - n, false⟩) := by
  have hroom : Transfer.room ⟨b + k, n - k, true⟩ J.size = false := by
    have hcount : ¬ (J.size : Int) ≤ n - k := by omega
    exact decide_eq_false hcount
  have hmissing : (J.size : Int) - (n - k) = k + J.size - n := by omega
  simp [getMember, taken, Transfer.next, hroom, hmissing]

theorem getMember_missing (J : Image α) (f : List UInt8) (x : α) :
    getMember J f x ⟨b, n, false⟩ = (x, ⟨b, n + J.size, false⟩) := by
  simp [getMember, Transfer.room, Transfer.next]

/-- A restore of `n` octets fails; the count says how many more the record has. -/
def Transfer.Lacks (t : Transfer) (size : Nat) (n : Int) : Prop :=
  t.ret = false ∧ t.count = size - n

def ClockState.partly (n : Int) : ClockState ρ where
  masterLocalFreqOffset :=
    if (I.ratio.size : Int) ≤ n then (decode I l).masterLocalFreqOffset
    else c.masterLocalFreqOffset
  localSystemFreqOffset :=
    if (I.ratio.size + I.ratio.size : Int) ≤ n then (decode I l).localSystemFreqOffset
    else c.localSystemFreqOffset
  lastEBestIdentity := c.lastEBestIdentity

def PortRecord.partly (n : Int) : PortRecord ρ where
  asCapable := if (I.flag.size : Int) ≤ n then (decode I l).asCapable else p.asCapable
  portState :=
    if (I.flag.size + I.state.size : Int) ≤ n then (decode I l).portState else p.portState
  oneWayDelay :=
    if (I.flag.size + I.state.size + I.delay.size : Int) ≤ n then (decode I l).oneWayDelay
    else p.oneWayDelay
  peerRateOffset := p.peerRateOffset

theorem ClockState.restore_short (f : List UInt8) (b : Nat)
    (hn : n < ClockState.size I) : (c.restoreSerializedState I f b n).1 = c.partly I (f.drop b) n ∧
      (c.restoreSerializedState I f b n).2.Lacks (ClockState.size I) n := by
  unfold ClockState.size at hn ⊢
  by_cases h₁ : (I.ratio.size : Int) ≤ n
  · by_cases h₂ : (I.ratio.size + I.ratio.size : Int) ≤ n
    · simp (disch := omega) only [restoreSerializedState, ← taken_zero, getMember_taken,
        getMember_short]
      simp [h₁, h₂, ClockState.decode, partly, Transfer.Lacks]
    · simp (disch := omega) only [restoreSerializedState, ← taken_zero, getMember_taken,
        getMember_short, getMember_missing]
      simp [h₁, h₂, ClockState.decode, partly, Transfer.Lacks]
      omega
  · have h₂ : ¬ (I.ratio.size + I.ratio.size : Int) ≤ n := by omega
    simp (disch := omega) only [restoreSerializedState, ← taken_zero, getMember_short,
      getMember_missing]
    simp [h₁, h₂, partly, Transfer.Lacks]
    omega

theorem PortRecord.restore_short (f : List UInt8) (b : Nat)
    (hn : n < PortRecord.size I) : (p.restoreSerializedState I f b n).1 = p.partly I (f.drop b) n ∧
      (p.restoreSerializedState I f b n).2.Lacks (PortRecord.size I) n := by
  unfold PortRecord.size at hn ⊢
  by_cases h₁ : (I.flag.size : Int) ≤ n
  · by_cases h₂ : (I.flag.size + I.state.size : Int) ≤ n
    · by_cases h₃ : (I.flag.size + I.state.size + I.delay.size : Int) ≤ n
      · simp (disch := omega) only [restoreSerializedState, ← taken_zero, getMember_taken,
          getMember_short]
        simp [h₁, h₂, h₃, PortRecord.decode, partly, Transfer.Lacks]
        omega
      · simp (disch := omega) only [restoreSerializedState, ← taken_zero, getMember_taken,
          getMember_short, getMember_missing]
        simp [h₁, h₂, h₃, PortRecord.decode, partly, Transfer.Lacks]
        omega
    · have h₃ : ¬ (I.flag.size + I.state.size + I.delay.size : Int) ≤ n := by omega
      simp (disch := omega) only [restoreSerializedState, ← taken_zero, getMember_taken,
        getMember_short, getMember_missing]
      simp [h₁, h₂, h₃, PortRecord.decode, partly, Transfer.Lacks]
      omega
  · have h₂ : ¬ (I.flag.size + I.state.size : Int) ≤ n := by omega
    have h₃ : ¬ (I.flag.size + I.state.size + I.delay.size : Int) ≤ n := by omega
    simp (disch := omega) only [restoreSerializedState, ← taken_zero, getMember_short,
      getMember_missing]
    simp [h₁, h₂, h₃, partly, Transfer.Lacks]
    omega

/-- A restore from too few octets returns false with the number of missing ones, and has taken over
the fields whose octets are all there. -/
theorem restore_short_partly (clock : ClockState ρ) (port : PortRecord ρ) (f : List UInt8) (b : Nat)
    (hn : n < ClockState.size I) (hm : m < PortRecord.size I) :
    ((clock.restoreSerializedState I f b n).1 = clock.partly I (f.drop b) n ∧
      (clock.restoreSerializedState I f b n).2.Lacks (ClockState.size I) n) ∧
    ((port.restoreSerializedState I f b m).1 = port.partly I (f.drop b) m ∧
      (port.restoreSerializedState I f b m).2.Lacks (PortRecord.size I) m) :=
  ⟨clock.restore_short I f b hn, port.restore_short I f b hm⟩

theorem restore_short_partly_saved :
    let octets := savedClock.bytes octetImages
    let octets' := savedPort.bytes octetImages
    (savedClock.restoreSerializedState octetImages octets 0 23).2.Lacks 24 23 ∧
      (savedPort.restoreSerializedState octetImages octets' 0 20).2.Lacks 21 20 := by
  have h := fun octets => restore_short_partly octetImages savedClock savedPort octets 0
    (n := 23) (m := 20) (by decide) (by decide)
  exact ⟨(h _).1.2, (h _).2.2⟩

/-- Twenty of the 24 octets of the clock's record: the restore fails with four missing, and both
ratios have changed. -/
theorem failed_restore_changes :
    let old : ClockState UInt64 := ⟨5, 6, savedClock.lastEBestIdentity⟩
    let r := old.restoreSerializedState octetImages (savedClock.bytes octetImages) 0 20
    r.2.ret = false ∧ r.2.count = 4 ∧ r.1 = savedClock ∧ r.1 ≠ old := by
  decide

end OpenAvb.Gptp
