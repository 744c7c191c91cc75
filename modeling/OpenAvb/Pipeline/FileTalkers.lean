import OpenAvb.Ledger
import OpenAvb.Pipeline.MediaQOwner
import OpenAvb.Pipeline.AafMap
import OpenAvb.Pipeline.AvtpTime

/-!
# Callbacks and the locks of the media queue

A callback locks the item at an end of the media queue, and must unlock it, push it
or pull it before it returns. A visit is the queue as a callback leaves it, with
the calls it has made.
-/

namespace OpenAvb.Pipeline

open MediaQ

inductive QueueEnd where
  | head
  | tail
  deriving DecidableEq

inductive QueueCall where
  | headLock (locked : Bool)
  | headUnlock
  | headPush
  | tailLock (locked : Bool)
  | tailUnlock
  | tailPull
  | tailItemTake
  deriving DecidableEq

def QueueCall.use : QueueCall → Use QueueEnd
  | .headLock locked => .acquire .head locked
  | .headUnlock | .headPush => .release .head
  | .tailLock locked => .acquire .tail locked
  | .tailUnlock | .tailPull | .tailItemTake => .release .tail

/-- What an item of the queue points to: octets, and what the mapping of Motion JPEG adds. -/
structure PubData where
  pPubData : Mem
  lastFragment : Bool

structure Visit where
  q : MediaQ PubData
  calls : List QueueCall
  hung : Bool

namespace Visit

def enter (q : MediaQ PubData) : Visit := ⟨q, [], false⟩

def modify (v : Visit) (x : Nat) (f : Item PubData → Item PubData) : Visit :=
  { v with q := v.q.modify x f }

def headLock (v : Visit) : Option Nat × Visit :=
  let o := v.q.headLock
  (o.ret, { v with q := o.q, calls := v.calls ++ [.headLock o.ret.isSome] })

def headPush (v : Visit) : Visit :=
  let v : Visit := { v with calls := v.calls ++ [.headPush] }
  match v.q.headPush with
  | some o => { v with q := o.q }
  | none => { v with hung := true }

def tailLock (v : Visit) : Option Nat × Visit :=
  let o := v.q.tailLockPurged true none
  (o.ret, { v with q := o.q, calls := v.calls ++ [.tailLock o.ret.isSome] })

def tailUnlock (v : Visit) : Visit :=
  { v with q := v.q.tailUnlock.q, calls := v.calls ++ [.tailUnlock] }

def tailPull (v : Visit) : Visit :=
  let v : Visit := { v with calls := v.calls ++ [.tailPull] }
  match v.q.tailPull with
  | some o => { v with q := o.q }
  | none => { v with hung := true }

/-- What a callback has done so far follows the protocol, and if it has returned nothing is
locked. -/
def Follows (v : Visit) (returned : Bool) : Prop :=
  InOrder (returned && !v.hung) (v.calls.map QueueCall.use)

section

variable (v : Visit)
include v

@[simp] theorem calls_modify (x : Nat) (f : Item PubData → Item PubData) :
    (v.modify x f).calls = v.calls := rfl

@[simp] theorem hung_modify (x : Nat) (f : Item PubData → Item PubData) :
    (v.modify x f).hung = v.hung := rfl

@[simp] theorem calls_headPush : v.headPush.calls = v.calls ++ [.headPush] := by
  unfold headPush
  dsimp only
  split <;> rfl

@[simp] theorem calls_tailPull : v.tailPull.calls = v.calls ++ [.tailPull] := by
  unfold tailPull
  dsimp only
  split <;> rfl

@[simp] theorem calls_tailUnlock : v.tailUnlock.calls = v.calls ++ [.tailUnlock] := rfl

@[simp] theorem hung_tailUnlock : v.tailUnlock.hung = v.hung := rfl

theorem headLock_eq : v.headLock =
    (v.q.active v.q.head, { v with
        q := v.q.headLock.q
        calls := v.calls ++ [.headLock (v.q.active v.q.head).isSome] }) := by
  rw [headLock, headLock_ret]

theorem tailLock_eq : v.tailLock =
    (v.q.active v.q.tail, { v with
        q := (v.q.tailLockPurged true none).q
        calls := v.calls ++ [.tailLock (v.q.active v.q.tail).isSome] }) := by
  rw [tailLock, tailLockPurged_ret]

end

variable {v : Visit} {before : List QueueCall}

theorem follows_of_released (calls : List QueueCall) (hcalls : v.calls = calls)
    (h : heldAfter [] (calls.map QueueCall.use) = some []) (returned : Bool) :
    v.Follows returned := by
  rw [Follows, hcalls]
  exact inOrder_of_released h _

theorem not_follows_of_held (calls : List QueueCall) (hcalls : v.calls = calls)
    (h : heldAfter [] (calls.map QueueCall.use) = some (e :: held)) (hhung : v.hung = false) :
    ¬ v.Follows true := by
  rw [Follows, hcalls, hhung]
  exact not_inOrder_of_held h

theorem follows_append (behind : List QueueCall) (hcalls : v.calls = before ++ behind)
    (h : heldAfter [] (before.map QueueCall.use) = some []) (returned : Bool) :
    v.Follows returned ↔ InOrder (returned && !v.hung) (behind.map QueueCall.use) := by
  rw [Follows, hcalls, List.map_append, InOrder, heldAfter_append, h, Option.bind_some, InOrder]

theorem not_follows_append (behind : List QueueCall) (hcalls : v.calls = before ++ behind)
    (h : heldAfter [] (before.map QueueCall.use) = none) (returned : Bool) :
    ¬ v.Follows returned := by
  refine not_inOrder_of_none ?_ _
  rw [hcalls, List.map_append, heldAfter_append, h, Option.bind_none]

end Visit

end OpenAvb.Pipeline

/-! ## The talker of the AVTP Audio Format -/

namespace OpenAvb.Pipeline.Aaf

/-- What the callback reads of its private data; `x_calculateSizes` has set the size. -/
structure TxConfig where
  (payloadSize maxTransitUsec : UInt32)

def txTime (cfg : TxConfig) (time : AvtpTime) : AvtpTime :=
  if time.bTimestampValid then
    { time.addUSec cfg.maxTransitUsec with bTimestampValid := false }
  else time

structure TxOutcome where
  packetReady : Bool
  dataLen : UInt32
  visit : Visit

/-- `openavbMapAVTPAudioTxCB` with a packet buffer of a length, but for what it writes there: that
is the frame of `txCB`. -/
def txVisit (pPvtData : Option TxConfig) (dataLen : UInt32) (v : Visit) : TxOutcome :=
  let (pMediaQItem, v) := v.tailLock
  match pMediaQItem with
  | none => ⟨false, dataLen, v⟩
  | some x =>
    let item := v.q.pItems x
    if 0 < item.dataLen then
      match pPvtData with
      | none => ⟨false, dataLen, v⟩
      | some cfg =>
        let v := v.modify x fun item => { item with pAvtpTime := txTime cfg item.pAvtpTime }
        if dataLen - totalHeaderSize < cfg.payloadSize then ⟨false, dataLen, v⟩
        else if item.dataLen - item.readIdx < cfg.payloadSize then
          -- what is left is tossed away
          ⟨false, dataLen, v.tailPull⟩
        else
          let readIdx := item.readIdx + cfg.payloadSize
          let v := v.modify x fun item => { item with readIdx := readIdx }
          let v := if readIdx ≥ item.dataLen then v.tailPull else v.tailUnlock
          ⟨true, cfg.payloadSize + totalHeaderSize, v⟩
    else ⟨false, dataLen, v.tailPull⟩

def LocksTail (pPvtData : Option TxConfig) (dataLen : UInt32) (q : MediaQ PubData) : Prop :=
  ∃ x, q.active q.tail = some x ∧ 0 < (q.pItems x).dataLen ∧
    ∀ cfg ∈ pPvtData, dataLen - totalHeaderSize < cfg.payloadSize

theorem txVisit_follows_iff (pPvtData : Option TxConfig) (dataLen : UInt32)
    (q : MediaQ PubData) : (txVisit pPvtData dataLen (.enter q)).visit.Follows true ↔
      ¬ LocksTail pPvtData dataLen q := by
  have hitems := (tailLockPurged_same q true none).pItems
  simp only [txVisit, Visit.tailLock_eq, Visit.enter, List.nil_append]
  cases htail : q.active q.tail with
  | none =>
    refine iff_of_true (Visit.follows_of_released [.tailLock false] rfl (by decide) _) ?_
    rintro ⟨x, hx, -⟩
    rw [htail] at hx
    cases hx
  | some x =>
    have hlocks : LocksTail pPvtData dataLen q ↔ 0 < (q.pItems x).dataLen ∧
        ∀ cfg ∈ pPvtData, dataLen - totalHeaderSize < cfg.payloadSize := by
      simp only [LocksTail, htail, Option.some.injEq, exists_eq_left']
    simp only [hitems, hlocks]
    split
    case isFalse hempty =>
      exact iff_of_true (Visit.follows_of_released [.tailLock true, .tailPull]
        (Visit.calls_tailPull _) (by decide) _) fun h => hempty h.1
    case isTrue hdata =>
      cases pPvtData with
      | none =>
        refine iff_of_false (Visit.not_follows_of_held [.tailLock true] rfl rfl rfl)
          fun h => h ⟨hdata, fun cfg hcfg => by cases hcfg⟩
      | some cfg =>
        simp only [Option.mem_def, Option.some.injEq, forall_eq']
        split
        case isTrue hroom =>
          exact iff_of_false (Visit.not_follows_of_held [.tailLock true] rfl rfl rfl)
            fun h => h ⟨hdata, hroom⟩
        case isFalse hroom =>
          refine iff_of_true ?_ fun h => hroom h.2
          split
          · exact Visit.follows_of_released [.tailLock true, .tailPull] (Visit.calls_tailPull _)
              (by decide) _
          · dsimp only
            split
            · exact Visit.follows_of_released [.tailLock true, .tailPull] (Visit.calls_tailPull _)
                (by decide) _
            · exact Visit.follows_of_released [.tailLock true, .tailUnlock] rfl (by decide) _

def Config.tx (cfg : Config) : TxConfig := ⟨UInt32.ofNat cfg.payloadSize, cfg.maxTransitUsec⟩

theorem payloadSize_tx (cfg : Config) : cfg.tx.payloadSize.toNat = cfg.payloadSize := by
  have hitem : cfg.payloadSize ≤ cfg.itemSize := Nat.le_mul_of_pos_right _ cfg.packing_pos
  exact UInt32.toNat_ofNat_of_lt' (by
    have hlt := hitem.trans_lt cfg.itemSize_lt
    exact hlt.trans (by decide))

/-- An item of the queue and one of the talker: the same octets left to read, and the same time. -/
structure StandsFor (slot : Item PubData) (item : AudioItem) : Prop where
  dataLen : slot.dataLen.toNat = item.data.length
  readIdx : slot.readIdx.toNat = item.readIdx
  readIdx_le : item.readIdx ≤ item.data.length
  pAvtpTime : slot.pAvtpTime = item.pAvtpTime

theorem txTime_eq_stamped (cfg : Config) (item : AudioItem) :
    txTime cfg.tx item.pAvtpTime = (stamped cfg item).pAvtpTime := by
  obtain ⟨⟨time, latency, valid, uncertain⟩, data, readIdx⟩ := item
  cases valid <;> rfl

/-- The callback has a packet ready when the talker has a frame; and it pulls the item when the
talker drops it, and else leaves behind what the talker does. -/
theorem txVisit_txCB (cfg : Config) (buffer : Buffer) (dataLen : UInt32) {q : MediaQ PubData}
    (hx : q.active q.tail = some x) {talker : Talker} (hqueue : talker.queue = item :: queue)
    (hitem : StandsFor (q.pItems x) item) :
    let o := txVisit (some cfg.tx) dataLen (.enter q)
    let (frame, after) := txCB cfg buffer dataLen talker
    o.packetReady = frame.isSome ∧
      (o.visit.calls = [.tailLock true, .tailPull] ∧ after.queue = queue ∨
        .tailPull ∉ o.visit.calls ∧
          ∃ item', after.queue = item' :: queue ∧ StandsFor (o.visit.q.pItems x) item') := by
  have hpayload := payloadSize_tx cfg
  have hlocked := (tailLockPurged_same q true none).pItems
  have hlen := hitem.dataLen
  have hread := hitem.readIdx
  have hle := hitem.readIdx_le
  simp only [txVisit, Visit.tailLock_eq, Visit.enter, List.nil_append, hx, hlocked, txCB, hqueue]
  by_cases hempty : item.data.length = 0
  · have hzero : ¬ 0 < (q.pItems x).dataLen := by
      rw [UInt32.lt_iff_toNat_lt, hlen, hempty]
      decide
    rw [if_neg hzero, if_pos hempty]
    exact ⟨rfl, .inl ⟨Visit.calls_tailPull _, rfl⟩⟩
  have hdata : 0 < (q.pItems x).dataLen := by
    rw [UInt32.lt_iff_toNat_lt, hlen]
    exact Nat.pos_of_ne_zero hempty
  rw [if_pos hdata, if_neg hempty]
  have hidx : (q.pItems x).readIdx ≤ (q.pItems x).dataLen := by
    rw [UInt32.le_iff_toNat_le, hlen, hread]
    exact hle
  have hroom : dataLen - totalHeaderSize < cfg.tx.payloadSize ↔
      (dataLen - totalHeaderSize).toNat < cfg.payloadSize := by
    rw [UInt32.lt_iff_toNat_lt, hpayload]
  have hleft : (q.pItems x).dataLen - (q.pItems x).readIdx < cfg.tx.payloadSize ↔
      item.data.length - item.readIdx < cfg.payloadSize := by
    rw [UInt32.lt_iff_toNat_lt, hpayload, UInt32.toNat_sub_of_le _ _ hidx, hlen, hread]
  have htime : txTime cfg.tx (q.pItems x).pAvtpTime = (stamped cfg item).pAvtpTime := by
    rw [hitem.pAvtpTime, txTime_eq_stamped]
  simp only [hroom, hleft]
  split
  · refine ⟨rfl, .inr ⟨by simp, stamped cfg item, rfl, ?_⟩⟩
    simp only [Visit.modify, MediaQ.modify, hlocked, if_true]
    exact ⟨hlen, hread, hle, htime⟩
  split
  · exact ⟨rfl, .inl ⟨Visit.calls_tailPull _, rfl⟩⟩
  rename_i hfits
  have hnext : ((q.pItems x).readIdx + cfg.tx.payloadSize).toNat =
      item.readIdx + cfg.payloadSize := by
    have hlt := (q.pItems x).dataLen.toNat_lt
    rw [UInt32.toNat_add, hread, hpayload]
    omega
  have hend : (q.pItems x).readIdx + cfg.tx.payloadSize ≥ (q.pItems x).dataLen ↔
      item.data.length ≤ item.readIdx + cfg.payloadSize := by
    rw [ge_iff_le, UInt32.le_iff_toNat_le, hnext, hlen]
  simp only [hend]
  refine ⟨rfl, ?_⟩
  by_cases hdone : item.data.length ≤ item.readIdx + cfg.payloadSize
  · rw [if_pos hdone]
    exact .inl ⟨Visit.calls_tailPull _, if_pos hdone⟩
  · rw [if_neg hdone]
    refine .inr ⟨by simp [Visit.tailUnlock, Visit.modify], _, if_neg hdone, ?_⟩
    simp only [Visit.tailUnlock, (tailUnlock_same _).pItems, Visit.modify, MediaQ.modify, hlocked,
      if_true]
    exact ⟨hlen, hnext, Nat.le_of_not_le hdone, htime⟩

end OpenAvb.Pipeline.Aaf

/-! ## Talkers that read files -/

namespace OpenAvb.Pipeline

structure OpenFile where
  contents : List UInt8
  position : Nat
  eof : Bool

namespace OpenFile

def fread (file : OpenFile) (n : Nat) : List UInt8 × OpenFile :=
  let octets := (file.contents.drop file.position).take n
  (octets, { file with
    position := file.position + octets.length
    eof := file.eof || decide (octets.length < n) })

theorem fread_short (file : OpenFile) (n : Nat) :
    (file.fread n).1.length < n ↔ file.contents.length - file.position < n := by
  rw [fread, List.length_take, List.length_drop]
  omega

def rewind (file : OpenFile) : OpenFile := { file with position := 44, eof := false }

end OpenFile

structure WavFile where
  (sparseMode packingFactor itemSize itemSampleSizeBytes : UInt32)
  (bigEndian repeatData : Bool)
  intervalCounter : UInt32
  pFile : Option OpenFile

def padded (octets : List UInt8) (itemSize : Nat) (m : Mem) : Mem :=
  fun i => if i < itemSize then octets.getD i 0 else m i

def swapWords (size cnt : Nat) (m : Mem) : Mem :=
  fun i => if i < size * cnt then m (i / size * size + (size - 1 - i % size)) else m i

def convertEndianness (dataLen sampleSize : UInt32) (m : Mem) : Mem :=
  if sampleSize = 2 then swapWords 2 (dataLen.toNat / 2) m
  else if sampleSize = 4 then swapWords 4 (dataLen.toNat / 2) m
  else m

namespace WavFile

def stampTail (w : WavFile) (now : Option UInt64) (v : Visit) : Visit :=
  let (pMediaQItem, v) := v.tailLock
  match pMediaQItem with
  | some x =>
    if w.intervalCounter % w.sparseMode = 0 then
      (v.modify x fun item =>
        { item with pAvtpTime := item.pAvtpTime.setToWallTime now }).tailUnlock
    else v.tailUnlock
  | none => v.tailUnlock

def fillItem (w : WavFile) (octets : List UInt8) (now : Option UInt64) (item : Item PubData) :
    Item PubData :=
  let m := padded octets w.itemSize.toNat item.data.pPubData
  { item with
    data.pPubData := if w.bigEndian then convertEndianness w.itemSize w.itemSampleSizeBytes m else m
    dataLen := w.itemSize
    pAvtpTime := item.pAvtpTime.setToWallTime now }

def readItem (w : WavFile) (file : OpenFile) (now : Option UInt64) (v : Visit) :
    Bool × WavFile × Visit :=
  let (pMediaQItem, v) := v.headLock
  match pMediaQItem with
  -- media queue full
  | none => (false, w, v)
  | some x =>
    let (octets, file) := file.fread w.itemSize.toNat
    if octets.length < w.itemSize.toNat then
      if w.repeatData then
        (true, { w with pFile := some file.rewind }, (v.modify x (w.fillItem octets now)).headPush)
      else
        (false, { w with pFile := some file }, v.modify x fun item =>
          { item with data.pPubData := padded octets w.itemSize.toNat item.data.pPubData })
    else (true, { w with pFile := some file }, (v.modify x (w.fillItem octets now)).headPush)

def readTurn (w : WavFile) (now : Option UInt64) (v : Visit) : Option Bool × WavFile × Visit :=
  match w.pFile with
  | none => (some false, w, v)
  | some file =>
    if file.eof ∧ ¬ w.repeatData then (some false, { w with pFile := none }, v)
    else if w.packingFactor = 0 then (none, w, v)
    else
      let turn := w.intervalCounter % w.packingFactor
      let w := { w with intervalCounter := w.intervalCounter + 1 }
      if turn ≠ 0 then (some true, w, v)
      else
        let (ret, w, v) := w.readItem file now v
        (some ret, w, v)

/-- `openavbIntfWavFileTxCB` -/
def txVisit (pPvtData : Option WavFile) (tailNow headNow : Option UInt64) (v : Visit) :
    Option Bool × Option WavFile × Visit :=
  match pPvtData with
  | none => (some false, none, v)
  | some w =>
    let v := if w.sparseMode ≠ 0 then w.stampTail tailNow v else v
    let (ret, w, v) := w.readTurn headNow v
    (ret, some w, v)

def UnlocksTail (w : WavFile) (q : MediaQ PubData) : Prop :=
  w.sparseMode ≠ 0 ∧ q.active q.tail = none

def LocksHead (w : WavFile) (q : MediaQ PubData) : Prop :=
  q.active q.head ≠ none ∧ w.repeatData = false ∧ w.packingFactor ≠ 0 ∧
    w.intervalCounter % w.packingFactor = 0 ∧
    ∃ file, w.pFile = some file ∧ file.eof = false ∧
      file.contents.length - file.position < w.itemSize.toNat

variable {v : Visit}

theorem readItem_calls (w : WavFile) (file : OpenFile) (now : Option UInt64)
    (hhead : v.q.active v.q.head = some x) : (w.readItem file now v).2.2.calls =
        v.calls ++ (if w.repeatData = false ∧
            file.contents.length - file.position < w.itemSize.toNat then [.headLock true]
          else [.headLock true, .headPush]) ∧
      (w.repeatData = false → file.contents.length - file.position < w.itemSize.toNat →
        (w.readItem file now v).2.2.hung = v.hung) := by
  simp only [readItem, Visit.headLock_eq, hhead, Option.isSome_some]
  by_cases hshort : file.contents.length - file.position < w.itemSize.toNat
  · rw [if_pos ((file.fread_short _).mpr hshort)]
    cases hrepeat : w.repeatData with
    | true => simp
    | false => simp [hshort]
  · rw [if_neg fun h => hshort ((file.fread_short _).mp h)]
    simp [hshort]

def Behind (w : WavFile) (v : Visit) (left : Option Bool × WavFile × Visit) : Prop :=
  ∃ calls, left.2.2.calls = v.calls ++ calls ∧
    (w.LocksHead v.q ∧ calls = [.headLock true] ∧ left.1.isSome = true ∧ left.2.2.hung = v.hung ∨
      ¬ w.LocksHead v.q ∧ heldAfter [] (calls.map QueueCall.use) = some [])

theorem Behind.nothing {w : WavFile} {left : Option Bool × WavFile × Visit}
    (hlocks : ¬ w.LocksHead v.q) (h : left.2.2 = v) : w.Behind v left :=
  ⟨[], by rw [h, List.append_nil], .inr ⟨hlocks, rfl⟩⟩

section

variable (w : WavFile) (now : Option UInt64)
include w now

theorem readTurn_calls (v : Visit) : w.Behind v (w.readTurn now v) := by
  cases hfile : w.pFile with
  | none =>
    refine .nothing ?_ (by rw [readTurn, hfile])
    rintro ⟨-, -, -, -, file, hsome, -⟩
    rw [hfile] at hsome
    cases hsome
  | some file =>
    by_cases hend : file.eof = true ∧ ¬ w.repeatData = true
    case pos =>
      refine .nothing ?_ (by simp only [readTurn, hfile, if_pos hend])
      rintro ⟨-, -, -, -, file', hsome, heof, -⟩
      rw [hfile] at hsome
      cases hsome
      rw [hend.1] at heof
      cases heof
    case neg =>
      by_cases hzero : w.packingFactor = 0
      case pos =>
        refine .nothing ?_ (by simp only [readTurn, hfile, if_neg hend, if_pos hzero])
        rintro ⟨-, -, hpos, -⟩
        exact hpos hzero
      case neg =>
        by_cases hturn : w.intervalCounter % w.packingFactor = 0
        case neg =>
          refine .nothing ?_
            (by simp only [readTurn, hfile, if_neg hend, if_neg hzero, ne_eq, hturn,
              not_false_eq_true, if_true])
          rintro ⟨-, -, -, hcounter, -⟩
          exact hturn hcounter
        case pos =>
          have hrest : w.readTurn now v =
              (some ({ w with intervalCounter := w.intervalCounter + 1 }.readItem file now v).1,
                ({ w with intervalCounter := w.intervalCounter + 1 }.readItem file now v).2) := by
            simp only [readTurn, hfile, if_neg hend, if_neg hzero, hturn, ne_eq, not_true_eq_false,
              if_false]
          rw [hrest]
          cases hhead : v.q.active v.q.head with
          | none =>
            refine ⟨[.headLock false], ?_, .inr ⟨fun h => h.1 hhead, by decide⟩⟩
            simp only [readItem, Visit.headLock_eq, hhead, Option.isSome_none]
          | some x =>
            obtain ⟨hcalls, hhung⟩ :=
              readItem_calls { w with intervalCounter := w.intervalCounter + 1 } file now hhead
            by_cases hshort : w.repeatData = false ∧
                file.contents.length - file.position < w.itemSize.toNat
            case pos =>
              refine ⟨[.headLock true], hcalls.trans (by rw [if_pos hshort]), .inl ⟨?_, rfl, rfl,
                hhung hshort.1 hshort.2⟩⟩
              have heof : file.eof = false := by
                cases heof : file.eof with
                | false => rfl
                | true => exact absurd ⟨heof, by simp [hshort.1]⟩ hend
              exact ⟨by simp [hhead], hshort.1, hzero, hturn, file, hfile, heof, hshort.2⟩
            case neg =>
              refine ⟨[.headLock true, .headPush], hcalls.trans (by rw [if_neg hshort]),
                .inr ⟨?_, by decide⟩⟩
              rintro ⟨-, hrepeat, -, -, file', hsome, -, hleft⟩
              rw [hfile] at hsome
              cases hsome
              exact hshort ⟨hrepeat, hleft⟩

theorem stampTail_calls (v : Visit) : (w.stampTail now v).calls =
        v.calls ++ [.tailLock (v.q.active v.q.tail).isSome, .tailUnlock] ∧
      (w.stampTail now v).hung = v.hung ∧
      (w.stampTail now v).q.active (w.stampTail now v).q.head = v.q.active v.q.head := by
  have hlocked := (tailLockPurged_same v.q true none).active_head
  have hunlocked : ∀ v' : Visit, v'.tailUnlock.q.active v'.tailUnlock.q.head =
      v'.q.active v'.q.head := fun v' => (tailUnlock_same v'.q).active_head
  simp only [stampTail, Visit.tailLock_eq]
  cases htail : v.q.active v.q.tail with
  | none =>
    refine ⟨by simp, rfl, ?_⟩
    rw [hunlocked]
    exact hlocked
  | some x =>
    simp only
    split
    all_goals
      refine ⟨by simp, rfl, ?_⟩
      rw [hunlocked]
      exact hlocked

theorem readTurn_follows_iff
    (hbefore : heldAfter [] (v.calls.map QueueCall.use) = some []) (hhung : v.hung = false) :
    (w.readTurn now v).2.2.Follows (w.readTurn now v).1.isSome ↔ ¬ w.LocksHead v.q := by
  obtain ⟨calls, hcalls, hcases⟩ := w.readTurn_calls now v
  rw [Visit.follows_append calls hcalls hbefore]
  rcases hcases with ⟨hlocks, rfl, hsome, hnever⟩ | ⟨hlocks, hreleased⟩
  · rw [hsome, hnever, hhung]
    exact iff_of_false (not_inOrder_of_held rfl) fun h => h hlocks
  · exact iff_of_true (inOrder_of_released hreleased _) hlocks

end

theorem txVisit_follows_iff (w : WavFile) (tailNow headNow : Option UInt64) (q : MediaQ PubData) :
    (txVisit (some w) tailNow headNow (.enter q)).2.2.Follows
        (txVisit (some w) tailNow headNow (.enter q)).1.isSome ↔
      ¬ w.UnlocksTail q ∧ ¬ w.LocksHead q := by
  by_cases hsparse : w.sparseMode = 0
  case pos =>
    simp only [txVisit, hsparse, ne_eq, not_true_eq_false, if_false]
    rw [readTurn_follows_iff w headNow rfl rfl]
    exact ⟨fun h => ⟨fun hunlocks => hunlocks.1 hsparse, h⟩, fun h => h.2⟩
  case neg =>
    simp only [txVisit, ne_eq, hsparse, not_false_eq_true, if_true]
    obtain ⟨hcalls, hhung, hactive⟩ := w.stampTail_calls tailNow (.enter q)
    have hhead : w.LocksHead (w.stampTail tailNow (.enter q)).q ↔ w.LocksHead q := by
      rw [LocksHead, hactive]
      exact Iff.rfl
    cases htail : q.active q.tail with
    | none =>
      obtain ⟨calls, hturn, -⟩ := w.readTurn_calls headNow (w.stampTail tailNow (.enter q))
      rw [hcalls] at hturn
      refine iff_of_false (Visit.not_follows_append calls hturn ?_ _) fun h => h.1 ⟨hsparse, htail⟩
      rw [show (Visit.enter q).q.active (Visit.enter q).q.tail = none from htail]
      rfl
    | some x =>
      rw [readTurn_follows_iff w headNow ?_ hhung, hhead]
      · refine ⟨fun h => ⟨fun hunlocks => ?_, h⟩, fun h => h.2⟩
        rw [UnlocksTail, htail] at hunlocks
        cases hunlocks.2
      · rw [hcalls, show (Visit.enter q).q.active (Visit.enter q).q.tail = some x from htail]
        rfl

end WavFile

structure MjpegFile where
  /-- The file, and what stands behind it in memory. -/
  fp : Mem
  stSize : Nat
  (readSize loc : UInt32)
  findSoi : Bool
  frameTime : UInt64
  (sendFrameDataOnly getAvtpTimestamp : Bool)
  -- static variables of the callback
  nextTxTime : UInt64
  cnt : UInt32
  wait : Bool

namespace MjpegFile

/-- Where the search looks next: at the start of the file, if it has come to its last octet. -/
def turn (f : MjpegFile) (loc : UInt32) : UInt32 := if (loc + 1).toNat = f.stSize then 0 else loc

def isSoi (f : MjpegFile) (loc : UInt32) : Bool :=
  f.fp loc.toNat == 0xFF && f.fp (loc + 1).toNat == 0xD8

/-- The search for a Start of Image marker; it goes round the file until it finds one. -/
def searchSoi (f : MjpegFile) : Nat → UInt32 → Option UInt32
  | 0, _ => none
  | fuel + 1, loc =>
    if f.isSoi (f.turn loc) then some (f.turn loc) else f.searchSoi fuel (f.turn loc + 1)

/-- The search for an End of Image marker in the next `n` octets. -/
def searchEoi (buf : Mem) : Nat → UInt32 → UInt32 × Bool
  | 0, i => (i, false)
  | n + 1, i =>
    if buf i.toNat = 0xFF ∧ buf (i + 1).toNat = 0xD9 then (i + 1, true)
    else searchEoi buf n (i + 1)

def copySize (f : MjpegFile) (loc : UInt32) : UInt32 :=
  if f.stSize < (loc + f.readSize).toNat then UInt32.ofNat f.stSize - loc else f.readSize

/-- From the copying of the file's octets on, with the item at the head locked. -/
def sendItem (f : MjpegFile) (x : Nat) (now : Option UInt64) (v : Visit) :
    Bool × MjpegFile × Visit :=
  let readSize := f.copySize f.loc
  if readSize = 0 then (false, f, v)
  else
    let copy := fun item : Item PubData => fun i =>
      if i < readSize.toNat then f.fp (f.loc.toNat + i) else item.data.pPubData i
    let (i, eoi) := searchEoi (copy (v.q.pItems x)) (readSize.toNat - 1) 0
    let f := { f with loc := f.loc + (i + 1) }
    if eoi then
      (true, { f with
          getAvtpTimestamp := true
          findSoi := true
          wait := f.wait || f.frameTime != 0 },
        (v.modify x fun item =>
          { item with data := ⟨copy item, true⟩, dataLen := i + 1 }).headPush)
    else
      (true, { f with getAvtpTimestamp := false },
        (v.modify x fun item =>
          { item with
            data := ⟨copy item, false⟩
            dataLen := i + 1
            pAvtpTime :=
              if f.getAvtpTimestamp then item.pAvtpTime.setToWallTime now
              else item.pAvtpTime }).headPush)

/-- `openavbIntfMjpegFileTxCB` with its times by the clock; no result while it searches. -/
def txVisit (fuel : Nat) (pPvtData : Option MjpegFile) (paceNow soiNow : UInt64)
    (itemNow : Option UInt64) (v : Visit) : Option Bool × Option MjpegFile × Visit :=
  match pPvtData with
  | none => (some false, none, v)
  | some f =>
    let (pMediaQItem, v) := v.headLock
    match pMediaQItem with
    -- media queue full
    | none => (some false, some f, v)
    | some x =>
      if f.sendFrameDataOnly ∧ f.wait ∧ paceNow < f.nextTxTime then
        (some true, some { f with cnt := f.cnt + 1 }, v)
      else
        let f := { f with
          wait := f.wait && !f.sendFrameDataOnly
          cnt := if f.sendFrameDataOnly ∧ f.wait then 0 else f.cnt }
        if f.sendFrameDataOnly ∧ f.findSoi then
          match f.searchSoi fuel f.loc with
          | none => (none, some f, v)
          | some loc =>
            let f := { f with
              loc := loc
              findSoi := false
              nextTxTime := if f.frameTime ≠ 0 then soiNow + f.frameTime else f.nextTxTime }
            let (ret, f, v) := f.sendItem x itemNow v
            (some ret, some f, v)
        else
          let (ret, f, v) := f.sendItem x itemNow v
          (some ret, some f, v)

inductive NextSoi (f : MjpegFile) : UInt32 → UInt32 → Prop
  | here (loc : UInt32) (hsoi : f.isSoi (f.turn loc) = true) : NextSoi f loc (f.turn loc)
  | later (loc found : UInt32) (hsoi : f.isSoi (f.turn loc) = false)
      (h : NextSoi f (f.turn loc + 1) found) : NextSoi f loc found

variable (f : MjpegFile)

def Starts (loc : UInt32) : Prop :=
  if f.sendFrameDataOnly ∧ f.findSoi then f.NextSoi f.loc loc else loc = f.loc

/-- Nothing is left to copy there: no octets are to be read at a time, or the file is at its end. -/
def NothingAt (loc : UInt32) : Prop :=
  f.readSize = 0 ∧ loc.toNat ≤ f.stSize ∨
    loc.toNat = f.stSize ∧ loc.toNat + f.readSize.toNat < 2 ^ 32

/-- The callback returns with the head locked: too early for the next frame, or nothing to copy. -/
def LocksHead (paceNow : UInt64) (q : MediaQ PubData) : Prop :=
  q.active q.head ≠ none ∧
    if f.sendFrameDataOnly ∧ f.wait ∧ paceNow < f.nextTxTime then True
    else ∃ loc, f.Starts loc ∧ f.NothingAt loc

theorem copySize_eq_zero_iff (loc : UInt32) : f.copySize loc = 0 ↔ f.NothingAt loc := by
  have hloc := loc.toNat_lt
  have hread := f.readSize.toNat_lt
  have hsum := UInt32.toNat_add loc f.readSize
  have hzero : f.readSize = 0 ↔ f.readSize.toNat = 0 := by
    rw [← UInt32.toNat_inj, UInt32.toNat_zero]
  rw [copySize, NothingAt, hsum]
  split
  case isTrue hmore =>
    have hsize : f.stSize < 2 ^ 32 := by omega
    rw [← UInt32.toNat_inj, UInt32.toNat_sub, UInt32.toNat_ofNat', Nat.mod_eq_of_lt hsize,
      UInt32.toNat_zero, hzero]
    omega
  case isFalse hrest =>
    rw [hzero]
    omega

theorem nextSoi_iff (loc found : UInt32) :
    f.NextSoi loc found ↔ ∃ fuel, f.searchSoi fuel loc = some found := by
  constructor
  · intro h
    induction h with
    | here loc hsoi => exact ⟨1, by rw [searchSoi, if_pos hsoi]⟩
    | later loc found hsoi h ih =>
      obtain ⟨fuel, hfound⟩ := ih
      exact ⟨fuel + 1, by rw [searchSoi, hsoi, if_neg Bool.false_ne_true, hfound]⟩
  · rintro ⟨fuel, hfound⟩
    induction fuel generalizing loc with
    | zero => cases hfound
    | succ fuel ih =>
      rw [searchSoi] at hfound
      split at hfound
      case isTrue hsoi =>
        cases hfound
        exact .here loc hsoi
      case isFalse hsoi => exact .later loc found (by simpa using hsoi) (ih _ hfound)

theorem searchSoi_counted (wait : Bool) (cnt : UInt32) (fuel : Nat) (loc : UInt32) :
    ({ f with wait := wait, cnt := cnt } : MjpegFile).searchSoi fuel loc =
      f.searchSoi fuel loc := by
  induction fuel generalizing loc with
  | zero => rfl
  | succ fuel ih =>
    simp only [searchSoi, ih]
    rfl

theorem sendItem_nothing {f : MjpegFile} (h : f.copySize f.loc = 0) (x : Nat) (now : Option UInt64)
    (v : Visit) : f.sendItem x now v = (false, f, v) := by
  rw [sendItem]
  simp [h]

theorem calls_sendItem {f : MjpegFile} (h : f.copySize f.loc ≠ 0) (x : Nat) (now : Option UInt64)
    (v : Visit) : (f.sendItem x now v).2.2.calls = v.calls ++ [.headPush] := by
  rw [sendItem]
  simp only [h, if_false]
  split <;> simp

theorem sendItem_follows_iff (x : Nat) (now : Option UInt64)
    (hcalls : v.calls = [.headLock true]) (hhung : v.hung = false) :
    (f.sendItem x now v).2.2.Follows true ↔ ¬ f.NothingAt f.loc := by
  by_cases hnothing : f.copySize f.loc = 0
  · rw [sendItem_nothing hnothing]
    refine iff_of_false (Visit.not_follows_of_held _ hcalls rfl hhung) fun h => h ?_
    exact (f.copySize_eq_zero_iff _).mp hnothing
  · refine iff_of_true (Visit.follows_of_released [.headLock true, .headPush] ?_ (by decide) _)
      fun h => hnothing ((f.copySize_eq_zero_iff _).mpr h)
    rw [calls_sendItem hnothing, hcalls]
    rfl

theorem txVisit_follows_iff (paceNow soiNow : UInt64) (itemNow : Option UInt64)
    (q : MediaQ PubData) :
    (∀ fuel, (txVisit fuel (some f) paceNow soiNow itemNow (.enter q)).2.2.Follows
        (txVisit fuel (some f) paceNow soiNow itemNow (.enter q)).1.isSome) ↔
      ¬ f.LocksHead paceNow q := by
  simp only [txVisit, Visit.headLock_eq, Visit.enter, List.nil_append]
  cases hhead : q.active q.head with
  | none =>
    refine iff_of_true (fun _ => Visit.follows_of_released [.headLock false] rfl (by decide) _) ?_
    exact fun h => h.1 hhead
  | some x =>
    by_cases hpace : f.sendFrameDataOnly = true ∧ f.wait = true ∧ paceNow < f.nextTxTime
    case pos =>
      simp only [hpace, and_self, if_true]
      refine iff_of_false (fun h => Visit.not_follows_of_held [.headLock true] rfl rfl rfl (h 0))
        fun h => h ?_
      exact ⟨by simp [hhead], by rw [if_pos hpace]; trivial⟩
    case neg =>
      have hlocks : f.LocksHead paceNow q ↔ ∃ loc, f.Starts loc ∧ f.NothingAt loc := by
        rw [LocksHead, if_neg hpace, hhead]
        simp
      rw [hlocks]
      simp only [if_neg hpace]
      by_cases hsearch : f.sendFrameDataOnly = true ∧ f.findSoi = true
      case neg =>
        simp only [if_neg hsearch, Starts, exists_eq_left, Option.isSome_some, forall_const]
        exact sendItem_follows_iff _ x itemNow rfl rfl
      case pos =>
        simp only [if_pos hsearch, Starts, nextSoi_iff, searchSoi_counted]
        constructor
        · rintro h ⟨loc, ⟨fuel, hfound⟩, hnothing⟩
          have hsent := h fuel
          simp only [hfound, Option.isSome_some] at hsent
          exact (sendItem_follows_iff _ x itemNow rfl rfl).mp hsent hnothing
        · intro h fuel
          cases hfound : f.searchSoi fuel f.loc with
          | none => exact inOrder_running rfl
          | some loc =>
            refine (sendItem_follows_iff _ x itemNow rfl rfl).mpr fun hnothing => ?_
            exact h ⟨loc, ⟨fuel, hfound⟩, hnothing⟩

end MjpegFile

/-- A call of a talker's callback; private data or the packet buffer may be missing. -/
inductive TalkerVisit where
  | aaf (pPvtData : Option Aaf.TxConfig) (packet : Option UInt32)
  | wavFile (pPvtData : Option WavFile) (tailNow headNow : Option UInt64)
  | mjpegFile (pPvtData : Option MjpegFile) (paceNow soiNow : UInt64) (itemNow : Option UInt64)

namespace TalkerVisit

def visit (fuel : Nat) (q : MediaQ PubData) : TalkerVisit → Visit × Bool
  | .aaf _ none => (.enter q, true)
  | .aaf pPvtData (some dataLen) => ((Aaf.txVisit pPvtData dataLen (.enter q)).visit, true)
  | .wavFile pPvtData tailNow headNow =>
    let (ret, _, v) := WavFile.txVisit pPvtData tailNow headNow (.enter q)
    (v, ret.isSome)
  | .mjpegFile pPvtData paceNow soiNow itemNow =>
    let (ret, _, v) := MjpegFile.txVisit fuel pPvtData paceNow soiNow itemNow (.enter q)
    (v, ret.isSome)

/-- None of the paths on which a lock is kept or one is released that was not obtained. -/
def Clear (q : MediaQ PubData) : TalkerVisit → Prop
  | .aaf pPvtData packet => ∀ dataLen ∈ packet, ¬ Aaf.LocksTail pPvtData dataLen q
  | .wavFile pPvtData _ _ => ∀ w ∈ pPvtData, ¬ w.UnlocksTail q ∧ ¬ w.LocksHead q
  | .mjpegFile pPvtData paceNow _ _ => ∀ f ∈ pPvtData, ¬ f.LocksHead paceNow q

end TalkerVisit

/-- For every state of the queue, configuration, packet buffer and file; a callback without a media
queue makes no call at all. -/
theorem talkers_follow_protocol_iff (q : MediaQ PubData) (c : TalkerVisit) :
    (∀ fuel, (c.visit fuel q).1.Follows (c.visit fuel q).2) ↔ c.Clear q := by
  have hidle : ∀ returned, (Visit.enter q).Follows returned :=
    fun returned => Visit.follows_of_released [] rfl rfl returned
  cases c with
  | aaf pPvtData packet =>
    cases packet with
    | none => exact iff_of_true (fun _ => hidle true) fun _ h => by cases h
    | some dataLen =>
      simp only [TalkerVisit.visit, TalkerVisit.Clear, forall_const, Option.mem_def,
        Option.some.injEq, forall_eq']
      exact Aaf.txVisit_follows_iff pPvtData dataLen q
  | wavFile pPvtData tailNow headNow =>
    cases pPvtData with
    | none => exact iff_of_true (fun _ => hidle true) fun w hw => by cases hw
    | some w =>
      simp only [TalkerVisit.visit, TalkerVisit.Clear, forall_const, Option.mem_def,
        Option.some.injEq, forall_eq']
      exact w.txVisit_follows_iff tailNow headNow q
  | mjpegFile pPvtData paceNow soiNow itemNow =>
    cases pPvtData with
    | none => exact iff_of_true (fun _ => hidle true) fun f hf => by cases hf
    | some f =>
      simp only [TalkerVisit.visit, TalkerVisit.Clear, Option.mem_def, Option.some.injEq,
        forall_eq']
      exact f.txVisit_follows_iff paceNow soiNow itemNow q

/-- Three calls that each keep a lock: the end of a WAV file, which is not repeated; a Motion JPEG
frame ahead of its time; and samples for a packet that is too short. -/
theorem talkers_keep_locks : let blank : PubData := ⟨fun _ => 0, false⟩
    let q : MediaQ PubData := opened 0 0 true 1 192 blank
    let full : MediaQ PubData := (q.modify 0 fun item => { item with dataLen := 192 })
    let wav : WavFile := ⟨1, 1, 192, 2, false, false, 0, some ⟨List.replicate 100 0, 44, false⟩⟩
    let mjpeg : MjpegFile := ⟨fun _ => 0, 5000, 1412, 0, true, 33333333, true, true, 10, 0, true⟩
    let aaf : Aaf.TxConfig := ⟨48, 2000⟩
    let visits : List (Visit × Bool) :=
      [(TalkerVisit.wavFile (some wav) none none).visit 0 q,
        (TalkerVisit.mjpegFile (some mjpeg) 9 9 none).visit 0 q,
        (TalkerVisit.aaf (some aaf) (some 60)).visit 0 { full with head := none, tail := some 0 }]
    visits.map (fun v => v.1.calls) =
        [[.tailLock false, .tailUnlock, .headLock true], [.headLock true], [.tailLock true]] ∧
      visits.map (fun v => (v.2, v.1.q.headLocked, v.1.q.tailLocked)) =
        [(true, true, false), (true, true, false), (true, false, true)] := by
  decide +kernel

end OpenAvb.Pipeline
