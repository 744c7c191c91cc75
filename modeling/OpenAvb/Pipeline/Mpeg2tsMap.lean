import OpenAvb.Pipeline.AudioMap

/-!
# The mapping of MPEG2 transport streams

A talker cuts the octets of its media queue into packets of 188 octets, or of 192
with a timestamp in front, and saves what is left of an item for the next one. A
listener writes the packets of a frame into one item. The frames of an interval are
as few as carry the bit rate of the source.
-/

namespace OpenAvb.Pipeline.Mpeg2ts

def mpeg2TsPktSize : Nat := 188

def mpeg2TsSyncByte : UInt8 := 0x47

def srcPktSize : Nat := 192

def cipHeaderSize : Nat := 8

def blocksPerSrcPkt : Nat := 8

structure Settings where
  (tsPacketSize numSourcePackets : Nat)
  maxTransitUsec : UInt32

structure Config extends Settings where
  tsPacketSize_eq : tsPacketSize = mpeg2TsPktSize ∨ tsPacketSize = srcPktSize
  numSourcePackets_pos : 0 < numSourcePackets

instance : Coe Config Settings := ⟨Config.toSettings⟩

structure Item where
  pAvtpTime : AvtpTime
  data : List UInt8
  readIdx : Nat
  deriving DecidableEq

def Item.unread (item : Item) : List UInt8 := item.data.drop item.readIdx

/-- The header fields that the callbacks set to more than a constant, and the source packets. -/
structure Frame where
  (timestampValid timestampUncertain : Bool)
  avtpTimestamp : UInt32
  streamDataLen : UInt16
  dbc : UInt8
  payload : List UInt8
  deriving DecidableEq

def blankFrame : Frame := ⟨false, false, 0, 0, 0, []⟩

structure Talker where
  queue : List Item
  savedBytes : List UInt8
  unsynched : Bool
  dbc : UInt8
  deriving DecidableEq

def initTalker : Talker := ⟨[], [], false, 0⟩

inductive Fault where
  -- A failed `assert`.
  | assertion
  -- The loop has not come to its end yet.
  | unfinished
  deriving DecidableEq

def syncScan (item : Item) (startIdx : Nat) : Option Nat :=
  ((item.data.drop startIdx).findIdx? (· == mpeg2TsSyncByte)).map (startIdx + ·)

def Item.emptied (item : Item) : Item := { item with data := [], readIdx := 0 }

/-- To the next sync byte; an item without one is given up, and the stream stays out of sync. -/
def resync (talker : Talker) (item : Item) (startIdx : Nat) : Talker × Item :=
  match syncScan item startIdx with
  | some offset => (talker, { item with readIdx := offset })
  | none => ({ talker with unsynched := true }, item.emptied)

section

variable (cfg : Settings)

def Item.stamp (item : Item) : Item :=
  if item.readIdx = 0 then { item with pAvtpTime := item.pAvtpTime.addUSec cfg.maxTransitUsec }
  else item

/-- The timestamps are those of the last packet's item, but for the value, that of the first. -/
def Frame.stamp (frame : Frame) (time : AvtpTime) (sourcePacketsAdded : Nat) : Frame :=
  { frame with
    timestampValid := time.bTimestampValid
    timestampUncertain := time.bTimestampUncertain
    avtpTimestamp :=
      if sourcePacketsAdded = 0 then time.timeNsec.toUInt32 else frame.avtpTimestamp }

def sourcePacket (saved : List UInt8) (item : Item) : List UInt8 :=
  let header :=
    if cfg.tsPacketSize = mpeg2TsPktSize then numeral 4 item.pAvtpTime.timeNsec.toUInt32.toNat
    else []
  header ++ saved ++ item.unread.take (cfg.tsPacketSize - saved.length)

structure Filling where
  talker : Talker
  item : Item
  frame : Frame
  sourcePacketsAdded : Nat

def Filling.addPacket (f : Filling) : Filling :=
  let item := f.item.stamp cfg
  let frame := f.frame.stamp item.pAvtpTime f.sourcePacketsAdded
  let packet := sourcePacket cfg f.talker.savedBytes item
  let talker := { f.talker with savedBytes := [] }
  if packet[4]? = some mpeg2TsSyncByte then
    { talker := talker
      item := { item with
        readIdx := item.readIdx + (cfg.tsPacketSize - f.talker.savedBytes.length) }
      frame := { frame with payload := frame.payload ++ packet }
      sourcePacketsAdded := f.sourcePacketsAdded + 1 }
  else
    let (talker, item) :=
      resync talker item (item.readIdx + (cfg.tsPacketSize - mpeg2TsPktSize) + 1)
    { f with talker := talker, item := item, frame := frame }

def Filling.savePart (f : Filling) : Except Fault Filling :=
  if f.talker.savedBytes.length + f.item.unread.length ≤ mpeg2TsPktSize then
    .ok { f with
      talker := { f.talker with savedBytes := f.talker.savedBytes ++ f.item.unread }
      item := f.item.emptied }
  else .error .assertion

def Filling.work (f : Filling) : Except Fault Filling :=
  let f :=
    if f.talker.unsynched then
      let (talker, item) := resync f.talker f.item 0
      { f with talker := talker, item := item }
    else f
  if f.item.data.length - f.item.readIdx = 0 then .ok f
  else if cfg.tsPacketSize ≤ f.talker.savedBytes.length + f.item.unread.length then
    .ok (f.addPacket cfg)
  else f.savePart

def Filling.release (f : Filling) (queue : List Item) : Talker :=
  if f.item.data.length - f.item.readIdx = 0 then { f.talker with queue := queue }
  else { f.talker with queue := f.item :: queue }

/-- The loop of `openavbMapMpeg2tsTxCB`, with how often it is gone through at most. -/
def fillFrame (cfg : Settings) :
    Nat → Talker → Frame → Nat → Except Fault (Talker × Frame × Nat)
  | 0, _, _, _ => .error .unfinished
  | fuel + 1, talker, frame, sourcePacketsAdded =>
    match talker.queue with
    | [] => .ok (talker, frame, sourcePacketsAdded)
    | item :: queue => do
      let f ← Filling.work cfg ⟨talker, item, frame, sourcePacketsAdded⟩
      let talker := f.release queue
      if cfg.numSourcePackets ≤ f.sourcePacketsAdded then
        .ok (talker, f.frame, f.sourcePacketsAdded)
      else fillFrame cfg fuel talker f.frame f.sourcePacketsAdded

/-- `openavbMapMpeg2tsTxCB`; no frame if no packet is ready. -/
def txCB (fuel : Nat) (talker : Talker) :
    Except Fault (Option Frame × Talker) := do
  let (talker, frame, sourcePacketsAdded) ← fillFrame cfg fuel talker blankFrame 0
  if 0 < sourcePacketsAdded then
    .ok (some { frame with
          dbc := talker.dbc
          streamDataLen := UInt16.ofNat (sourcePacketsAdded * srcPktSize + cipHeaderSize) },
      { talker with dbc := talker.dbc + UInt8.ofNat (sourcePacketsAdded * blocksPerSrcPkt) })
  else .ok (none, talker)

inductive Event where
  -- The interface module queues an item.
  | push (time : AvtpTime) (data : List UInt8)
  -- The callback is called.
  | call
  deriving DecidableEq

def Talker.push (talker : Talker) (time : AvtpTime) (data : List UInt8) : Talker :=
  { talker with queue := talker.queue ++ [⟨time, data, 0⟩] }

def transmit (cfg : Settings) (fuel : Nat) :
    Talker → List Event → Except Fault (List Frame × Talker)
  | talker, [] => .ok ([], talker)
  | talker, .push time data :: events => transmit cfg fuel (talker.push time data) events
  | talker, .call :: events => do
    let (frame, talker) ← txCB cfg fuel talker
    let (frames, talker) ← transmit cfg fuel talker events
    .ok (frame.toList ++ frames, talker)

structure RxItem where
  pAvtpTime : AvtpTime
  data : List UInt8

structure Listener where
  pushed : List RxItem
  head : RxItem

def blankRxItem : RxItem := ⟨⟨0, 0, false, false⟩, []⟩

def initListener : Listener := ⟨[], blankRxItem⟩

/-- The number of source packets by the length field, in a `U8`. -/
def sourcePacketCount (frame : Frame) : UInt8 :=
  UInt8.ofNat ((frame.streamDataLen.toNat - cipHeaderSize) / srcPktSize)

/-- The loop of `openavbMapMpeg2tsRxCB`; an item too small for the `n` packets is left empty. -/
def copyPackets (cfg : Settings) (itemSize : Nat) : Nat → List UInt8 → List UInt8 → List UInt8
  | 0, _, data => data
  | n + 1, payload, data =>
    if cfg.tsPacketSize ≤ itemSize - data.length then
      copyPackets cfg itemSize n (payload.drop srcPktSize)
        (data ++ (payload.drop (srcPktSize - cfg.tsPacketSize)).take cfg.tsPacketSize)
    else []

/-- `openavbMapMpeg2tsRxCB` -/
def rxCB (itemSize : Nat) (listener : Listener) (frame : Frame)
    (now : Option Util.Timespec) : Listener :=
  if 0 < frame.dbc.toNat % 8 then listener
  else if 0 < sourcePacketCount frame then
    let time :=
      if listener.head.data = [] then
        { openavbAvtpTimeSetToTimestamp listener.head.pAvtpTime frame.avtpTimestamp now with
          bTimestampValid := frame.timestampValid
          bTimestampUncertain := frame.timestampUncertain }
      else listener.head.pAvtpTime
    let data := copyPackets cfg itemSize (sourcePacketCount frame).toNat frame.payload
      listener.head.data
    { pushed := listener.pushed ++ [⟨time, data⟩], head := blankRxItem }
  else listener

end

/-- The frames in order; `clock n` is what the clock says when frame `n` comes. -/
def listen (cfg : Settings) (itemSize : Nat) (clock : Nat → Option Util.Timespec) :
    Nat → Listener → List Frame → Listener
  | _, listener, [] => listener
  | n, listener, frame :: frames =>
    listen cfg itemSize clock (n + 1) (rxCB cfg itemSize listener frame (clock n)) frames

def Listener.received (listener : Listener) : List UInt8 := listener.pushed.flatMap RxItem.data

inductive SRClassIdx where
  | srClassA
  | srClassB
  | maxAvbSrClasses
  deriving DecidableEq

def SRClassIdx.classRate : SRClassIdx → Nat
  | srClassA => 8000
  | srClassB => 4000
  | maxAvbSrClasses => 0

def calculateBitrate (intervalsPerSecond num_source_packets number_of_frames : Nat) : Nat :=
  intervalsPerSecond * num_source_packets * number_of_frames * srcPktSize * 8 % 2 ^ 32

/-- `openavbMapMpeg2tsGetMaxIntervalFramesCB` from a turn of its loop on: `numSourcePackets` as it
is left, and the interval frames. -/
def intervalLoop (classRate srcBitrate : Nat) :
    (fuel numSourcePackets interval_frames : Nat) → Option (Nat × Nat)
  | 0, _, _ => none
  | fuel + 1, numSourcePackets, interval_frames =>
    if calculateBitrate classRate numSourcePackets interval_frames < srcBitrate then
      if numSourcePackets + 1 > 7 then
        intervalLoop classRate srcBitrate fuel 1 (interval_frames + 1)
      else intervalLoop classRate srcBitrate fuel (numSourcePackets + 1) interval_frames
    else some (numSourcePackets, interval_frames)

def openavbMapMpeg2tsGetMaxIntervalFramesCB (srcBitrate : Nat) (sr_class : SRClassIdx)
    (fuel : Nat) : Option (Nat × Nat) :=
  intervalLoop sr_class.classRate srcBitrate fuel 1 1

/-- The bit rate in turn `k` of the loop. -/
def rateAt (classRate k : Nat) : Nat := calculateBitrate classRate (k % 7 + 1) (k / 7 + 1)

variable {classRate srcBitrate k n packets frames : Nat} {sr_class : SRClassIdx}

theorem intervalLoop_eq (hk : k ≤ n) (hless : ∀ k < n, rateAt classRate k < srcBitrate)
    (hlast : srcBitrate ≤ rateAt classRate n) {fuel : Nat} (hfuel : n - k < fuel) :
    intervalLoop classRate srcBitrate fuel (k % 7 + 1) (k / 7 + 1) =
      some (n % 7 + 1, n / 7 + 1) := by
  induction fuel generalizing k with
  | zero => omega
  | succ fuel ih =>
    rcases Nat.eq_or_lt_of_le hk with rfl | hlt
    · exact if_neg (Nat.not_lt.mpr hlast)
    · have hnext := ih (k := k + 1) hlt (by omega)
      have hless : calculateBitrate classRate (k % 7 + 1) (k / 7 + 1) < srcBitrate := hless k hlt
      rw [intervalLoop, if_pos hless]
      by_cases h6 : k % 7 + 1 + 1 > 7
      · rw [show (k + 1) % 7 = 0 by omega, show (k + 1) / 7 = k / 7 + 1 by omega] at hnext
        rw [if_pos h6, hnext]
      · rw [show (k + 1) % 7 = k % 7 + 1 by omega, show (k + 1) / 7 = k / 7 by omega] at hnext
        rw [if_neg h6, hnext]

/-- In so many frames both classes carry the same. -/
def SRClassIdx.lastFrames : SRClassIdx → Nat
  | srClassB => 48
  | _ => 24

/-- An `int` does not overflow. -/
theorem bitrate_lt (hpackets : packets ≤ 7) (hframes : frames ≤ sr_class.lastFrames) :
    sr_class.classRate * packets * frames * srcPktSize * 8 < 2 ^ 31 := by
  have hmost : sr_class.classRate * 7 * sr_class.lastFrames * srcPktSize * 8 < 2 ^ 31 := by
    cases sr_class <;> decide
  refine lt_of_le_of_lt ?_ hmost
  gcongr

/-- Bit rates up to 10^9 stay below the bound when a source packet header is added to every
packet. -/
theorem maxIntervalFrames_least (sr_class : SRClassIdx) (srcBitrate : Nat)
    (hclass : sr_class ≠ .maxAvbSrClasses) (hrate : srcBitrate ≤ 2 * 10 ^ 9) :
    ∃ packets frames n, (∀ fuel > n, openavbMapMpeg2tsGetMaxIntervalFramesCB srcBitrate sr_class
        fuel = some (packets, frames)) ∧
      1 ≤ packets ∧ packets ≤ 7 ∧
      srcBitrate ≤ calculateBitrate sr_class.classRate packets frames ∧
      (∀ packets' ≤ 7, ∀ frames' ≤ frames,
        sr_class.classRate * packets' * frames' * srcPktSize * 8 < 2 ^ 31) ∧
      ∀ packets' frames', packets' ≤ 7 → 0 < srcBitrate ∨ 0 < packets' ∧ 0 < frames' →
        frames' < frames ∨ frames' = frames ∧ packets' < packets →
        calculateBitrate sr_class.classRate packets' frames' < srcBitrate := by
  have hbest : srcBitrate ≤ rateAt sr_class.classRate (7 * sr_class.lastFrames - 1) := by
    refine hrate.trans ?_
    cases sr_class with
    | srClassA => decide
    | srClassB => decide
    | maxAvbSrClasses => exact absurd rfl hclass
  have hex : ∃ k, srcBitrate ≤ rateAt sr_class.classRate k := ⟨_, hbest⟩
  obtain ⟨n, hn, hleast⟩ : ∃ n, srcBitrate ≤ rateAt sr_class.classRate n ∧
      ∀ k < n, rateAt sr_class.classRate k < srcBitrate :=
    ⟨Nat.find hex, Nat.find_spec hex, fun k hk => Nat.lt_of_not_le (Nat.find_min hex hk)⟩
  have hlast : n ≤ 7 * sr_class.lastFrames - 1 :=
    Nat.le_of_not_lt fun h => Nat.not_lt.mpr hbest (hleast _ h)
  refine ⟨n % 7 + 1, n / 7 + 1, n, fun fuel hfuel =>
    intervalLoop_eq (k := 0) (Nat.zero_le n) hleast hn hfuel, by omega, by omega, hn,
    fun packets' hseven frames' hframes => bitrate_lt hseven ?_, ?_⟩
  · have hpos : 0 < sr_class.lastFrames := by cases sr_class <;> decide
    omega
  intro packets' frames' hseven hcounts hbefore
  by_cases hzero : packets' = 0 ∨ frames' = 0
  · have hnone : calculateBitrate sr_class.classRate packets' frames' = 0 := by
      rcases hzero with rfl | rfl <;> simp [calculateBitrate]
    omega
  · -- a smaller pair is that of an earlier turn
    have hearlier := hleast (7 * (frames' - 1) + (packets' - 1)) (by omega)
    rwa [rateAt, show (7 * (frames' - 1) + (packets' - 1)) % 7 + 1 = packets' by omega,
      show (7 * (frames' - 1) + (packets' - 1)) / 7 + 1 = frames' by omega] at hearlier

theorem maxIntervalFrames_least_twenty :
    ∃ packets frames n, (∀ fuel > n, openavbMapMpeg2tsGetMaxIntervalFramesCB 20000000 .srClassA
        fuel = some (packets, frames)) ∧ 1 ≤ packets ∧ packets ≤ 7 := by
  obtain ⟨packets, frames, n, hends, hpos, hle, -⟩ :=
    maxIntervalFrames_least .srClassA 20000000 (by decide) (by decide)
  exact ⟨packets, frames, n, hends, hpos, hle⟩

end OpenAvb.Pipeline.Mpeg2ts
