import OpenAvb.Pipeline.AudioMap

/-!
# The mapping of the AVTP Audio Format

A talker puts a fixed number of audio frames into each packet, all from one item;
a listener checks the format and writes the samples into an item, from the first
packet with a timestamp on. What it has received is what the talker has read.
-/

namespace OpenAvb.Pipeline

def flagAt (m : Mem) (i : Nat) (mask : UInt8) : Bool := m i &&& mask != 0

def timestampAt (m : Mem) : UInt32 := UInt32.ofNat (number (read m 12 4))

def AudioListener.place (itemSize : Nat) (listener : AudioListener) (item : AudioRxItem) :
    AudioListener :=
  if item.data.length < itemSize then { listener with head := item }
  else { pushed := listener.pushed ++ [item], head := blankRxItem }

theorem received_place (itemSize : Nat) (listener : AudioListener) (item : AudioRxItem) :
    (listener.place itemSize item).received =
      listener.pushed.flatMap AudioRxItem.data ++ item.data := by
  unfold AudioListener.place
  split
  · rfl
  · simp [AudioListener.received, blankRxItem]

namespace Aaf

inductive SampleFormat where
  | unspec | float32 | int32 | int24 | int16
  deriving DecidableEq

def SampleFormat.code : SampleFormat → Nat
  | unspec => 0
  | float32 => 1
  | int32 => 2
  | int24 => 3
  | int16 => 4

def SampleFormat.sampleSizeBytes : SampleFormat → Nat
  | unspec => 0
  | float32 => 4
  | int32 => 4
  | int24 => 3
  | int16 => 2

def SampleFormat.bitDepth : SampleFormat → Nat
  | unspec => 0
  | float32 => 32
  | int32 => 32
  | int24 => 24
  | int16 => 16

def rateCode : AudioRate → Nat
  | .khz8 => 1
  | .khz16 => 2
  | .khz32 => 3
  | .khz44_1 => 4
  | .khz48 => 5
  | .khz88_2 => 6
  | .khz96 => 7
  | .khz176_4 => 8
  | .khz192 => 9
  | .khz11_025 | .khz22_05 | .khz64 => 0

structure Settings where
  audioRate : AudioRate
  format : SampleFormat
  bigEndian : Bool
  (audioChannels txInterval packingFactor : Nat)
  sparseMode : Bool
  maxTransitUsec : UInt32
  presentationLatencyUSec : UInt64

namespace Settings

variable (cfg : Settings)

def framesPerPacket : Nat :=
  cfg.audioRate.hz / cfg.txInterval + if cfg.audioRate.hz % cfg.txInterval = 0 then 0 else 1

def samplesPerPacket : Nat := cfg.framesPerPacket * cfg.audioChannels

def payloadSize : Nat := cfg.samplesPerPacket * cfg.format.sampleSizeBytes

def itemSize : Nat := cfg.payloadSize * cfg.packingFactor

def formatInfo : Nat :=
  cfg.format.code * 2 ^ 24 + rateCode cfg.audioRate * 2 ^ 20 + cfg.audioChannels * 2 ^ 8 +
    cfg.format.bitDepth

end Settings

/-- Settings a media queue can be set up for: the size of an item is an `int`. -/
structure Config extends Settings where
  txInterval_pos : 0 < txInterval
  packing_pos : 0 < packingFactor
  itemSize_lt : toSettings.itemSize < 2 ^ 31

instance : Coe Config Settings := ⟨Config.toSettings⟩

def totalHeaderSize : UInt32 := 24

section

variable (cfg : Settings)

/-- The octets of each sample in the other order, if those of the items are little-endian. -/
def swapSamples (data : List UInt8) : List UInt8 :=
  if cfg.bigEndian then data.take cfg.payloadSize
  else mapBlocks cfg.format.sampleSizeBytes List.reverse cfg.samplesPerPacket data

structure Talker where
  queue : List AudioItem
  avtpSequenceNum : UInt8

/-- What the mapping does not decide: the octets of the AVTP layer and of the timestamp before. -/
structure Buffer where
  subtype : UInt8
  streamID : Octets 8
  timestamp : UInt32

def headers (buffer : Buffer) (sequenceNum : UInt8) (time : AvtpTime) : List UInt8 :=
  [buffer.subtype &&& 0x7F,
    if time.bTimestampValid then 0x81 else 0x80,
    sequenceNum,
    if time.bTimestampValid ∧ time.bTimestampUncertain then 0x01 else 0x00] ++
  buffer.streamID.val ++
  be32 (if time.bTimestampValid then time.timeNsec.toUInt32 else buffer.timestamp).toNat ++
  be32 cfg.formatInfo ++
  be16 cfg.payloadSize ++ [if cfg.sparseMode then 0x10 else 0x00, 0x00]

def stampOf (item : AudioItem) : AvtpTime :=
  if item.pAvtpTime.bTimestampValid then item.pAvtpTime.addUSec cfg.maxTransitUsec
  else item.pAvtpTime

def stamped (item : AudioItem) : AudioItem :=
  { item with pAvtpTime := { stampOf cfg item with bTimestampValid := false } }

/-- `openavbMapAVTPAudioTxCB` in a frame of `dataLen` numbered octets; none if it is not ready. -/
def txCB (buffer : Buffer) (dataLen : UInt32) (talker : Talker) : Option (List UInt8) × Talker :=
  match talker.queue with
  | [] => (none, talker)
  | item :: queue =>
    if item.data.length = 0 then (none, { talker with queue := queue })
    else if (dataLen - totalHeaderSize).toNat < cfg.payloadSize then
      (none, { talker with queue := stamped cfg item :: queue })
    else if item.data.length - item.readIdx < cfg.payloadSize then
      -- What is left is not enough for a packet, and is tossed away.
      (none, { talker with queue := queue })
    else
      let frame := headers cfg buffer talker.avtpSequenceNum (stampOf cfg item) ++
        swapSamples cfg (item.data.drop item.readIdx)
      let item := { stamped cfg item with readIdx := item.readIdx + cfg.payloadSize }
      (some frame,
        { queue := if item.data.length ≤ item.readIdx then queue else item :: queue
          avtpSequenceNum := talker.avtpSequenceNum + 1 })

def transmit (cfg : Settings) (dataLen : UInt32) :
    Talker → List Buffer → List (List UInt8) × Talker
  | talker, [] => ([], talker)
  | talker, buffer :: buffers =>
    let (frame, talker) := txCB cfg buffer dataLen talker
    let (frames, talker) := transmit cfg dataLen talker buffers
    (frame.toList ++ frames, talker)

structure Listener extends AudioListener where
  mediaQItemSyncTS : Bool

def Accepted (dataLen : UInt32) (m : Mem) : Prop :=
  word m 20 ≤ (dataLen - totalHeaderSize).toNat ∧
    word m 20 = cfg.payloadSize ∧
    number (read m 16 4) / 2 ^ 24 % 256 = cfg.format.code ∧
    number (read m 16 4) / 2 ^ 20 % 16 = rateCode cfg.audioRate ∧
    number (read m 16 4) / 2 ^ 8 % 1024 = cfg.audioChannels ∧
    number (read m 16 4) % 256 = cfg.format.bitDepth ∧
    flagAt m 22 0x10 = cfg.sparseMode

instance (cfg : Settings) (dataLen : UInt32) (m : Mem) : Decidable (Accepted cfg dataLen m) :=
  inferInstanceAs (Decidable (_ ∧ _ ∧ _ ∧ _ ∧ _ ∧ _ ∧ _))

/-- `openavbAvtpTimeSubUSec` -/
def subUSec (t : AvtpTime) (uSec : UInt64) : AvtpTime :=
  { t with timeNsec := t.timeNsec - uSec * 1000 }

def itemTime (time : AvtpTime) (now : Option Util.Timespec) (m : Mem) : AvtpTime :=
  if flagAt m 1 0x01 then
    { subUSec (openavbAvtpTimeSetToTimestamp time (timestampAt m) now) cfg.presentationLatencyUSec with
      bTimestampUncertain := flagAt m 3 0x01 }
  else { time with bTimestampValid := false }

/-- `openavbMapAVTPAudioRxCB` -/
def rxCB (full : Bool) (l : Listener) (dataLen : UInt32) (now : Option Util.Timespec)
    (m : Mem) : Listener :=
  if ¬ Accepted cfg dataLen m ∨ full then l
  else if l.head.data = [] then
    let time := itemTime cfg l.head.pAvtpTime now m
    if flagAt m 1 0x01 ∨ l.mediaQItemSyncTS then
      { l.toAudioListener.place cfg.itemSize
          ⟨time, swapSamples cfg (read m 24 cfg.payloadSize)⟩ with
        mediaQItemSyncTS := true }
    -- An item does not start without a timestamp before the first one has.
    else { l.toAudioListener.place cfg.itemSize ⟨time, []⟩ with
        mediaQItemSyncTS := false }
  else
    { l.toAudioListener.place cfg.itemSize
        ⟨l.head.pAvtpTime, l.head.data ++ swapSamples cfg (read m 24 cfg.payloadSize)⟩ with
      mediaQItemSyncTS := l.mediaQItemSyncTS }

end

def initListener : Listener := ⟨⟨[], blankRxItem⟩, false⟩

/-- The frames in order; `clock n` and what stands `behind n` in memory when frame `n` comes. -/
def listen (cfg : Settings) (clock : Nat → Option Util.Timespec) (behind : Nat → Mem) :
    Nat → Listener → List (List UInt8) → Listener
  | _, l, [] => l
  | n, l, frame :: frames =>
    listen cfg clock behind (n + 1)
      (rxCB cfg false l (UInt32.ofNat frame.length) (clock n) (recvBuffer frame (behind n))) frames

open List

theorem swapSamples_read (cfg : Settings) (m : Mem) : swapSamples cfg (read m 24 cfg.payloadSize) =
      if cfg.bigEndian then read m 24 cfg.payloadSize
      else gather (fun q => (read m q cfg.format.sampleSizeBytes).reverse)
        cfg.format.sampleSizeBytes 24 cfg.samplesPerPacket := by
  unfold swapSamples
  split
  · exact take_of_length_le (by rw [length_read])
  · exact mapBlocks_read (le_refl _)

theorem length_swapSamples_read (cfg : Settings) (m : Mem) :
    (swapSamples cfg (read m 24 cfg.payloadSize)).length = cfg.payloadSize := by
  rw [swapSamples_read]
  split
  · exact length_read
  · exact length_gather fun _ => by rw [length_reverse, length_read]

theorem swapSamples_swapSamples (cfg : Settings) {data : List UInt8}
    (h : cfg.payloadSize ≤ data.length) :
    swapSamples cfg (swapSamples cfg data) = data.take cfg.payloadSize := by
  unfold swapSamples
  split
  · rw [take_take, Nat.min_self]
  · have hback := @mapBlocks_mapBlocks UInt8 UInt8 cfg.format.sampleSizeBytes
      cfg.format.sampleSizeBytes cfg.samplesPerPacket List.reverse List.reverse data []
      (fun l hl => by rw [length_reverse, hl]) (fun l _ => reverse_reverse l) h
    rwa [append_nil] at hback

theorem length_swapSamples (cfg : Settings) {data : List UInt8}
    (h : cfg.payloadSize ≤ data.length) : (swapSamples cfg data).length = cfg.payloadSize := by
  unfold swapSamples
  split
  · exact length_take_of_le h
  · exact length_mapBlocks_of_le (fun l hl => by rw [length_reverse, hl]) h

structure Stream extends Config where
  format_known : format ≠ .unspec
  channels_pos : 0 < audioChannels
  channels_le : audioChannels ≤ 1023
  payloadSize_le : toSettings.payloadSize ≤ 65535

instance : Coe Stream Config := ⟨Stream.toConfig⟩

variable {cfg : Stream} {l : Listener} {talker : Talker} {m : Mem}

theorem Stream.payloadSize_pos (cfg : Stream) : 0 < cfg.payloadSize := by
  have hsample : 0 < cfg.format.sampleSizeBytes := by
    cases hf : cfg.format with
    | unspec => exact absurd hf cfg.format_known
    | float32 | int32 | int24 | int16 => decide
  have hframes : 0 < cfg.framesPerPacket := by
    have hrate : 0 < cfg.audioRate.hz := by cases cfg.audioRate <;> decide
    have hdiv := Nat.div_add_mod cfg.audioRate.hz cfg.txInterval
    unfold Settings.framesPerPacket
    split
    case isTrue hzero =>
      rw [hzero, Nat.add_zero] at hdiv
      refine Nat.pos_of_ne_zero fun hnone => ?_
      have hno : cfg.audioRate.hz / cfg.txInterval = 0 := hnone
      rw [hno, Nat.mul_zero] at hdiv
      omega
    case isFalse => exact Nat.succ_pos _
  exact Nat.mul_pos (Nat.mul_pos hframes cfg.channels_pos) hsample

theorem number_be32 {n : Nat} (h : n < 2 ^ 32) : number (be32 n) = n := by
  simp [be32, be16, number]
  omega

theorem formatInfo_fields (cfg : Stream) :
    cfg.formatInfo < 2 ^ 32 ∧ cfg.formatInfo / 2 ^ 24 % 256 = cfg.format.code ∧
      cfg.formatInfo / 2 ^ 20 % 16 = rateCode cfg.audioRate ∧
      cfg.formatInfo / 2 ^ 8 % 1024 = cfg.audioChannels ∧
      cfg.formatInfo % 256 = cfg.format.bitDepth := by
  have hcode : cfg.format.code < 5 := by cases cfg.format <;> decide
  have hrate : rateCode cfg.audioRate < 10 := by cases cfg.audioRate <;> decide
  have hdepth : cfg.format.bitDepth < 33 := by cases cfg.format <;> decide
  have hchannels := cfg.channels_le
  unfold Settings.formatInfo
  omega

def IsFrame (cfg : Settings) (data : List UInt8) (valid : Bool) (frame : List UInt8) : Prop :=
  ∃ buffer sequenceNum time, time.bTimestampValid = valid ∧
    frame = headers cfg buffer sequenceNum time ++ swapSamples cfg data

theorem accepted_frame {data frame : List UInt8} {valid : Bool}
    (hdata : cfg.payloadSize ≤ data.length) (h : IsFrame cfg data valid frame) (rest : Mem) :
    Accepted cfg (UInt32.ofNat frame.length) (recvBuffer frame rest) ∧
      flagAt (recvBuffer frame rest) 1 0x01 = valid ∧
      swapSamples cfg (read (recvBuffer frame rest) 24 cfg.payloadSize) =
        data.take cfg.payloadSize := by
  obtain ⟨buffer, sequenceNum, time, hvalid, hframe⟩ := h
  have hlen := length_swapSamples cfg hdata
  have hpayload := cfg.payloadSize_le
  have hst : Stands (recvBuffer frame rest) 0 frame := stands_recvBuffer
  generalize recvBuffer frame rest = m at hst ⊢
  rw [hframe] at hst
  simp only [headers, append_assoc, cons_append, nil_append, stands_cons,
    stands_append, buffer.streamID.property, length_be32, length_be16, zero_add,
    Nat.reduceAdd] at hst
  obtain ⟨-, htv, -, -, -, -, hinfo, hsize, hsparse, -, hsamples⟩ := hst
  obtain ⟨hinfo_lt, hcode, hrate, hchannels, hdepth⟩ := formatInfo_fields cfg
  have hword : word m 20 = cfg.payloadSize := word_of_stands hsize (by omega)
  have hnumber : number (read m 16 4) = cfg.formatInfo := by
    have hread : read m 16 4 = be32 cfg.formatInfo := hinfo.read_eq length_be32.symm
    rw [hread, number_be32 hinfo_lt]
  have htotal : frame.length = 24 + cfg.payloadSize := by
    rw [hframe, length_append, hlen]
    simp [headers, buffer.streamID.property]
  refine ⟨⟨?_, hword, ?_, ?_, ?_, ?_, ?_⟩, ?_, ?_⟩
  · rw [hword, htotal, UInt32.toNat_sub, UInt32.toNat_ofNat']
    show _ ≤ (2 ^ 32 - 24 + _) % 2 ^ 32
    omega
  · rw [hnumber, hcode]
  · rw [hnumber, hrate]
  · rw [hnumber, hchannels]
  · rw [hnumber, hdepth]
  · rw [flagAt, hsparse]
    cases cfg.sparseMode <;> decide
  · rw [flagAt, htv, hvalid]
    cases valid <;> decide
  · rw [hsamples.read_eq hlen.symm, swapSamples_swapSamples cfg hdata]

def HasPayloads (cfg : Settings) (item : AudioItem) : Prop :=
  ∃ j, 0 < j ∧ (item.data.drop item.readIdx).length = j * cfg.payloadSize

def HasRoom (cfg : Settings) (dataLen : UInt32) : Prop :=
  cfg.payloadSize ≤ (dataLen - totalHeaderSize).toNat

variable {dataLen : UInt32}

theorem txCB_ready {item : AudioItem} {queue : List AudioItem}
    (hroom : HasRoom cfg dataLen) (hq : talker.queue = item :: queue)
    (hwhole : ∀ item ∈ talker.queue, HasPayloads cfg item) (buffer : Buffer) :
    ∃ frame talker', txCB cfg buffer dataLen talker = (some frame, talker') ∧
      IsFrame cfg (item.data.drop item.readIdx) item.pAvtpTime.bTimestampValid frame ∧
      unreadData talker'.queue = (unreadData talker.queue).drop cfg.payloadSize ∧
      ∀ item ∈ talker'.queue, HasPayloads cfg item := by
  have hpos := cfg.payloadSize_pos
  rw [hq] at hwhole
  obtain ⟨j, hj, hlen⟩ := hwhole item mem_cons_self
  have hone : cfg.payloadSize ≤ j * cfg.payloadSize := Nat.le_mul_of_pos_left _ hj
  have hunread : item.data.length - item.readIdx = j * cfg.payloadSize := by
    rw [← hlen, length_drop]
  have hstamp : (stampOf cfg item).bTimestampValid = item.pAvtpTime.bTimestampValid := by
    unfold stampOf
    split <;> rfl
  have hrest : item.data.drop (item.readIdx + cfg.payloadSize) =
      (item.data.drop item.readIdx).drop cfg.payloadSize := drop_drop.symm
  let item' : AudioItem :=
    { stamped cfg item with readIdx := item.readIdx + cfg.payloadSize }
  let talker' : Talker :=
    { queue := if item.data.length ≤ item.readIdx + cfg.payloadSize then queue else item' :: queue
      avtpSequenceNum := talker.avtpSequenceNum + 1 }
  refine ⟨_, talker', ?_, ⟨buffer, talker.avtpSequenceNum, _, hstamp, rfl⟩, ?_, ?_⟩
  · rw [txCB, hq]
    simp only
    rw [if_neg (by omega), if_neg (Nat.not_lt.mpr hroom), if_neg (by omega)]
    rfl
  · rw [hq, unreadData_cons, drop_append_of_le_length (by omega), ← hrest]
    by_cases hdone : item.data.length ≤ item.readIdx + cfg.payloadSize
    · simp only [talker', if_pos hdone, drop_of_length_le hdone, nil_append]
    · simp only [talker', if_neg hdone, unreadData_cons]
      rfl
  · by_cases hdone : item.data.length ≤ item.readIdx + cfg.payloadSize
    · simp only [talker', if_pos hdone]
      exact fun other hother => hwhole other (mem_cons_of_mem _ hother)
    · simp only [talker', if_neg hdone]
      intro other hother
      rcases mem_cons.mp hother with rfl | hother
      · obtain ⟨i, rfl⟩ := Nat.exists_eq_add_of_lt hj
        rw [zero_add, Nat.succ_mul] at hunread
        refine ⟨i, Nat.pos_of_ne_zero fun hzero => ?_, ?_⟩
        · rw [hzero, zero_mul] at hunread
          omega
        · show (item.data.drop (item.readIdx + cfg.payloadSize)).length = _
          rw [length_drop]
          omega
      · exact hwhole other (mem_cons_of_mem _ hother)

theorem txCB_empty (hq : talker.queue = []) : txCB cfg buffer dataLen talker = (none, talker) := by
  rw [txCB, hq]

theorem transmit_no_room (hroom : ¬ HasRoom cfg dataLen)
    (hwhole : ∀ item ∈ talker.queue, HasPayloads cfg item) (buffers : List Buffer) :
    (transmit cfg dataLen talker buffers).1 = [] ∧
      unreadData (transmit cfg dataLen talker buffers).2.queue = unreadData talker.queue := by
  induction buffers generalizing talker with
  | nil => exact ⟨rfl, rfl⟩
  | cons buffer buffers ih =>
    rw [transmit]
    cases hq : talker.queue with
    | nil =>
      rw [txCB_empty hq]
      have hsame := ih hwhole
      rw [hq] at hsame
      exact hsame
    | cons item queue =>
      rw [hq] at hwhole
      obtain ⟨j, hj, hlen⟩ := hwhole item mem_cons_self
      have hone : cfg.payloadSize ≤ j * cfg.payloadSize := Nat.le_mul_of_pos_left _ hj
      have hpos := cfg.payloadSize_pos
      rw [length_drop] at hlen
      have hnone : txCB cfg buffer dataLen talker =
          (none, { talker with queue := stamped cfg item :: queue }) := by
        rw [txCB, hq]
        simp only
        rw [if_neg (by omega), if_pos (Nat.lt_of_not_le hroom)]
      rw [hnone]
      have hsame := @ih { talker with queue := stamped cfg item :: queue } (by
        intro other hother
        rcases mem_cons.mp hother with rfl | hother
        · exact hwhole item mem_cons_self
        · exact hwhole other (mem_cons_of_mem _ hother))
      exact ⟨hsame.1, hsame.2⟩

theorem rxCB_written {now : Option Util.Timespec} (haccepted : Accepted cfg dataLen m)
    (hsync : l.mediaQItemSyncTS ∨ l.head.data = [] ∧ flagAt m 1 0x01) :
    (rxCB cfg false l dataLen now m).received =
        l.received ++ swapSamples cfg (read m 24 cfg.payloadSize) ∧
      (rxCB cfg false l dataLen now m).mediaQItemSyncTS = true := by
  have hgo : ¬ (¬ Accepted cfg dataLen m ∨ false = true) := by simp [haccepted]
  unfold rxCB
  rw [if_neg hgo]
  by_cases hempty : l.head.data = []
  case pos =>
    have hstart : flagAt m 1 0x01 ∨ l.mediaQItemSyncTS := hsync.symm.imp_left And.right
    rw [if_pos hempty, if_pos hstart]
    refine ⟨?_, rfl⟩
    rw [received_place, AudioListener.received, hempty, append_nil]
  case neg =>
    rw [if_neg hempty]
    refine ⟨?_, hsync.resolve_right fun h => hempty h.1⟩
    rw [received_place, AudioListener.received, append_assoc]

theorem listen_transmit (hroom : HasRoom cfg dataLen)
    (clock : Nat → Option Util.Timespec) (behind : Nat → Mem) (buffers : List Buffer) (n : Nat)
    (hwhole : ∀ item ∈ talker.queue, HasPayloads cfg item) (hsync : l.mediaQItemSyncTS ∨
      l.head.data = [] ∧ ∀ item ∈ talker.queue.head?, item.pAvtpTime.bTimestampValid) :
    (listen cfg clock behind n l (transmit cfg dataLen talker buffers).1).received ++
        unreadData (transmit cfg dataLen talker buffers).2.queue =
      l.received ++ unreadData talker.queue ∧
    (unreadData (transmit cfg dataLen talker buffers).2.queue).length =
      (unreadData talker.queue).length - buffers.length * cfg.payloadSize := by
  induction buffers generalizing talker l n with
  | nil => exact ⟨rfl, by simp [transmit]⟩
  | cons buffer buffers ih =>
    rw [transmit]
    cases hq : talker.queue with
    | nil =>
      rw [txCB_empty hq]
      obtain ⟨hreceived, hlen⟩ := ih n hwhole hsync
      rw [hq] at hreceived hlen
      refine ⟨hreceived, hlen.trans ?_⟩
      simp [unreadData]
    | cons item queue =>
      obtain ⟨frame, talker', htx, hframe, hunread, hwhole'⟩ := txCB_ready hroom hq hwhole buffer
      rw [htx]
      obtain ⟨j, hj, hlen⟩ := hwhole item (by rw [hq]; exact mem_cons_self)
      have hone : cfg.payloadSize ≤ (item.data.drop item.readIdx).length :=
        hlen ▸ Nat.le_mul_of_pos_left _ hj
      obtain ⟨haccepted, hvalid, hpayload⟩ := accepted_frame hone hframe (behind n)
      have hwritten := @rxCB_written cfg l _ _ (clock n) haccepted (by
        refine hsync.imp_right fun h => ⟨h.1, ?_⟩
        rw [hvalid]
        exact h.2 item (by rw [hq]; rfl))
      obtain ⟨hreceived, hrest⟩ := ih (n + 1) hwhole' (.inl hwritten.2)
      have hsplit : unreadData (item :: queue) =
          (item.data.drop item.readIdx).take cfg.payloadSize ++ unreadData talker'.queue := by
        rw [hunread, hq, unreadData_cons, drop_append_of_le_length hone, ← append_assoc,
          take_append_drop]
      constructor
      · refine hreceived.trans ?_
        rw [hwritten.1, hpayload, hsplit, append_assoc]
      · refine hrest.trans ?_
        rw [hunread, hq, length_drop, length_cons, Nat.succ_mul]
        omega

structure Fresh (cfg : Settings) (item : AudioItem) : Prop where
  readIdx_eq : item.readIdx = 0
  valid : item.pAvtpTime.bTimestampValid
  payloads : ∃ j, 0 < j ∧ item.data.length = j * cfg.payloadSize

/-- The octets that have arrived are those that the talker has read; everything, when there was a
call for each payload and room for it. -/
theorem aaf_received (cfg : Stream) (items : List AudioItem)
    (h : ∀ item ∈ items, Fresh cfg.toSettings item) (sequenceNum : UInt8) (dataLen : UInt32)
    (buffers : List Buffer) (clock : Nat → Option Util.Timespec) (behind : Nat → Mem) :
    let sent := transmit cfg.toSettings dataLen ⟨items, sequenceNum⟩ buffers
    let received := (listen cfg.toSettings clock behind 0 initListener sent.1).received
    received ++ unreadData sent.2.queue = items.flatMap AudioItem.data ∧
      (HasRoom cfg.toSettings dataLen →
        (items.flatMap AudioItem.data).length ≤ buffers.length * cfg.payloadSize →
        received = items.flatMap AudioItem.data) := by
  intro sent received
  have hwhole : ∀ item ∈ items, HasPayloads cfg item := by
    intro item hitem
    have hfresh := h item hitem
    rw [HasPayloads, hfresh.readIdx_eq]
    exact hfresh.payloads
  have hall : unreadData items = items.flatMap AudioItem.data := by
    refine flatMap_congr fun item hitem => ?_
    rw [(h item hitem).readIdx_eq, drop_zero]
  by_cases hroom : HasRoom cfg dataLen
  case pos =>
    obtain ⟨heq, hlen⟩ := @listen_transmit cfg initListener ⟨items, sequenceNum⟩ dataLen hroom
      clock behind buffers 0 hwhole
      (.inr ⟨rfl, fun item hitem => (h item (mem_of_mem_head? hitem)).valid⟩)
    have heq : received ++ unreadData sent.2.queue = items.flatMap AudioItem.data := heq.trans hall
    refine ⟨heq, fun _ hcalls => ?_⟩
    have hnone : unreadData sent.2.queue = [] := by
      refine length_eq_zero_iff.mp (hlen.trans ?_)
      rw [hall]
      exact Nat.sub_eq_zero_of_le hcalls
    rwa [hnone, append_nil] at heq
  case neg =>
    obtain ⟨hnone, hunread⟩ := @transmit_no_room cfg ⟨items, sequenceNum⟩ dataLen hroom hwhole
      buffers
    refine ⟨?_, fun h => absurd h hroom⟩
    have hreceived : received = [] := by
      show (listen cfg clock behind 0 initListener sent.1).received = []
      rw [hnone]
      rfl
    rw [hreceived, nil_append]
    exact hunread.trans hall

def monoStream : Stream where
  audioRate := .khz8
  format := .int16
  bigEndian := false
  audioChannels := 1
  txInterval := 8000
  packingFactor := 1
  sparseMode := false
  maxTransitUsec := 2000
  presentationLatencyUSec := 0
  txInterval_pos := Nat.succ_pos 7999
  packing_pos := Nat.one_pos
  itemSize_lt := by decide
  format_known := by decide
  channels_pos := Nat.one_pos
  channels_le := by decide
  payloadSize_le := by decide

def monoItem : AudioItem := ⟨⟨0, 0, true, false⟩, [1, 2, 3, 4], 0⟩

def blankBuffer : Buffer := ⟨2, .ofList 8 [], 0⟩

theorem aaf_received_mono : Fresh monoStream.toSettings monoItem ∧
      (listen monoStream.toSettings (fun _ => none) (fun _ _ => 0) 0 initListener
        (transmit monoStream.toSettings 26 ⟨[monoItem], 0⟩
          (List.replicate 2 blankBuffer)).1).received = [1, 2, 3, 4] := by
  have hfresh : Fresh monoStream monoItem := ⟨rfl, rfl, 2, by decide, rfl⟩
  refine ⟨hfresh, ?_⟩
  refine (aaf_received monoStream [monoItem] ?_ 0 26 (List.replicate 2 blankBuffer) (fun _ => none)
    fun _ _ => 0).2 (by unfold HasRoom; decide) (by decide)
  simpa using hfresh

end Aaf

end OpenAvb.Pipeline
