import OpenAvb.Counting
import OpenAvb.Pipeline.AvtpTime

/-!
# The mapping of uncompressed audio

A talker puts a fixed number of frames of samples into each packet; a listener writes
the frames it receives into items of its own. The talker's queue is the list of the
items, and the listener's has room for every item it fills.
-/

namespace OpenAvb.Pipeline

open Util (Timespec)

inductive AudioRate where
  | khz8 | khz11_025 | khz16 | khz22_05 | khz32 | khz44_1 | khz48 | khz64 | khz88_2 | khz96
  | khz176_4 | khz192

def AudioRate.hz : AudioRate → Nat
  | khz8 => 8000
  | khz11_025 => 11025
  | khz16 => 16000
  | khz22_05 => 22050
  | khz32 => 32000
  | khz44_1 => 44100
  | khz48 => 48000
  | khz64 => 64000
  | khz88_2 => 88200
  | khz96 => 96000
  | khz176_4 => 176400
  | khz192 => 192000

/-- 20 bits are downgraded to 16. A depth that is none of these is reported, but not refused. -/
inductive BitDepth where
  | bit16 | bit24 | other
  deriving DecidableEq

structure AudioSettings where
  audioRate : AudioRate
  audioBitDepth : BitDepth
  (audioChannels txInterval packingFactor : Nat)
  maxTransitUsec : UInt32

namespace AudioSettings

variable (cfg : AudioSettings)

/-- The SYT interval and the code of the rate; rates without a code are taken for 48 kHz. -/
def sytInterval : Nat :=
  match cfg.audioRate with
  | .khz88_2 | .khz96 => 16
  | .khz176_4 | .khz192 => 32
  | _ => 8

def cipSfc : UInt8 :=
  match cfg.audioRate with
  | .khz32 => 0
  | .khz44_1 => 1
  | .khz88_2 => 3
  | .khz96 => 4
  | .khz176_4 => 5
  | .khz192 => 6
  | _ => 2

def framesPerPacket : Nat :=
  max 1 (cfg.audioRate.hz / cfg.txInterval) + if cfg.audioRate.hz % cfg.txInterval = 0 then 0 else 1

def framesPerItem : Nat :=
  if 1 < cfg.packingFactor then cfg.framesPerPacket * cfg.packingFactor else cfg.sytInterval

def packetSampleSizeBytes : Nat := 4

def itemSampleSizeBytes : Nat :=
  match cfg.audioBitDepth with
  | .bit16 => 2
  | .bit24 => 3
  | .other => 1

/-- How far a callback moves on in an item for a sample: it only tells 16 bits from the rest. -/
def sampleStep : Nat := if cfg.itemSampleSizeBytes = 2 then 2 else 3

def packetFrameSizeBytes : Nat := packetSampleSizeBytes * cfg.audioChannels

def packetAudioDataSizeBytes : Nat := cfg.framesPerPacket * cfg.packetFrameSizeBytes

def itemFrameSizeBytes : Nat := cfg.itemSampleSizeBytes * cfg.audioChannels

def itemSize : Nat := cfg.itemFrameSizeBytes * cfg.framesPerItem

/-- How many places for a frame a written frame takes. -/
def framePlaces : Nat := cfg.sampleStep / cfg.itemSampleSizeBytes

theorem sizes_cases :
    cfg.itemSampleSizeBytes = 2 ∧ cfg.sampleStep = 2 ∧ cfg.framePlaces = 1 ∨
    cfg.itemSampleSizeBytes = 3 ∧ cfg.sampleStep = 3 ∧ cfg.framePlaces = 1 ∨
    cfg.itemSampleSizeBytes = 1 ∧ cfg.sampleStep = 3 ∧ cfg.framePlaces = 3 := by
  unfold framePlaces sampleStep itemSampleSizeBytes
  cases cfg.audioBitDepth <;> decide

def am824Label : Nat :=
  match cfg.audioBitDepth with
  | .bit16 => 0x42000000
  | _ => 0x40000000

def sampleUnit : Nat := if cfg.itemSampleSizeBytes = 2 then 256 else 1

end AudioSettings

/-- Settings a media queue can be set up for: the size of an item is an `int`. -/
structure AudioSetup extends AudioSettings where
  channels_pos : 0 < audioChannels
  channels_le : audioChannels ≤ 8
  txInterval_pos : 0 < txInterval
  packing_pos : 0 < packingFactor
  itemSize_lt : toAudioSettings.itemSize < 2 ^ 31

instance : Coe AudioSetup AudioSettings := ⟨AudioSetup.toAudioSettings⟩

structure AudioConfig extends AudioSetup where
  depth : audioBitDepth ≠ .other

instance : Coe AudioConfig AudioSettings := ⟨fun cfg => cfg.toAudioSettings⟩

section

variable (cfg : AudioSettings)

def encodeSample (sample : List UInt8) : List UInt8 :=
  numeral 4 (cfg.am824Label + number sample.reverse * cfg.sampleUnit)

def decodeSample (quadlet : List UInt8) : List UInt8 :=
  (numeral cfg.sampleStep (number quadlet % 2 ^ 24 / cfg.sampleUnit)).reverse

def encodeSamples (n : Nat) (samples : List UInt8) : List UInt8 :=
  mapBlocks cfg.sampleStep (encodeSample cfg) n samples

def decodeSamples (n : Nat) (quadlets : List UInt8) : List UInt8 :=
  mapBlocks AudioSettings.packetSampleSizeBytes (decodeSample cfg) n quadlets

structure AudioItem where
  pAvtpTime : AvtpTime
  data : List UInt8
  readIdx : Nat

/-- A packet: the fields of its headers that the callbacks set or read, and its payload. -/
structure AudioPacket where
  (timestampValid timestampUncertain : Bool)
  avtpTimestamp : UInt32
  streamDataLen : UInt16
  (dbs dbc sfc : UInt8)
  payload : List UInt8

structure AudioTalker where
  queue : List AudioItem
  dbc : UInt8

/-- `openavbAvtpTimeAddUSec` -/
def AvtpTime.addUSec (t : AvtpTime) (uSec : UInt32) : AvtpTime :=
  { t with timeNsec := t.timeNsec + uSec.toUInt64 * 1000 }

def stamp (packet : AudioPacket) (item : AudioItem) : AudioPacket × AudioItem :=
  if item.readIdx = 0 then
    let time := item.pAvtpTime.addUSec cfg.maxTransitUsec
    ({ packet with
        timestampValid := time.bTimestampValid
        timestampUncertain := time.bTimestampUncertain
        avtpTimestamp := time.timeNsec.toUInt32 }, { item with pAvtpTime := time })
  else (packet, item)

/-- The inner loop of `openavbMapUncmpAudioTxCB`: up to `n` frames of one item, from `pItemData` on,
and how many are still wanted. -/
def takeFrames (cfg : AudioSettings) :
    Nat → (pItemData : List UInt8) → AudioItem → List UInt8 × Nat × AudioItem
  | 0, _, item => ([], 0, item)
  | n + 1, pItemData, item =>
    if item.readIdx < item.data.length then
      let unit := encodeSamples cfg cfg.audioChannels pItemData
      let rest := takeFrames cfg n (pItemData.drop (cfg.audioChannels * cfg.sampleStep))
        { item with readIdx := item.readIdx + cfg.itemFrameSizeBytes }
      (unit ++ rest.1, rest.2)
    else ([], n + 1, item)

/-- The outer loop: `n` frames of the queue, with the headers. A queue that runs out keeps it
waiting. -/
def fillPacket (cfg : AudioSettings) :
    List AudioItem → Nat → AudioPacket → Option (AudioPacket × List AudioItem)
  | queue, 0, packet => some (packet, queue)
  | [], _ + 1, _ => none
  | item :: queue, n + 1, packet =>
    if item.data.length = 0 then fillPacket cfg queue (n + 1) packet
    else
      let (packet, item) := stamp cfg packet item
      let (units, left, item) := takeFrames cfg (n + 1) (item.data.drop item.readIdx) item
      let packet := { packet with payload := packet.payload ++ units }
      if item.data.length ≤ item.readIdx then fillPacket cfg queue left packet
      -- More to read next interval: nothing is left to be processed in this one.
      else some (packet, item :: queue)

def unreadOctets (queue : List AudioItem) : Nat :=
  (queue.map fun item => item.data.length - item.readIdx).sum

def totalHeaderSize : UInt32 := 32

/-- `openavbMapUncmpAudioTxCB` with what the buffer held before; no packet if it is not ready. The
flags of the timestamp are left alone if no item starts in the packet, but it is invalid then. -/
def txCB (talker : AudioTalker) (buffer : AudioPacket) (dataLen : UInt32) :
    Option (AudioPacket × AudioTalker) :=
  if (dataLen - totalHeaderSize).toNat < cfg.packetAudioDataSizeBytes then none
  else if cfg.itemFrameSizeBytes * cfg.framesPerPacket ≤ unreadOctets talker.queue then
    let packet := { buffer with
      timestampValid := false
      dbs := UInt8.ofNat cfg.audioChannels
      sfc := cfg.cipSfc
      payload := [] }
    (fillPacket cfg talker.queue cfg.framesPerPacket packet).map fun (packet, queue) =>
      ({ packet with
          dbc := talker.dbc
          streamDataLen := UInt16.ofNat (cfg.packetAudioDataSizeBytes + 8) },
        { queue := queue, dbc := talker.dbc + UInt8.ofNat cfg.framesPerPacket })
  else none

def transmit (cfg : AudioSettings) (dataLen : UInt32) :
    AudioTalker → List AudioPacket → List AudioPacket
  | _, [] => []
  | talker, buffer :: buffers =>
    match txCB cfg talker buffer dataLen with
    | some (packet, talker) => packet :: transmit cfg dataLen talker buffers
    | none => transmit cfg dataLen talker buffers

structure AudioRxItem where
  pAvtpTime : AvtpTime
  data : List UInt8

structure AudioListener where
  pushed : List AudioRxItem
  head : AudioRxItem

def blankRxItem : AudioRxItem := ⟨⟨0, 0, false, false⟩, []⟩

/-- The inner loop of `openavbMapUncmpAudioRxCB`: `n` frames, as far as the item has room. -/
def copyFrames (cfg : AudioSettings) : Nat → List UInt8 → List UInt8 → List UInt8
  | 0, _, data => data
  | n + 1, payload, data =>
    if data.length + cfg.itemFrameSizeBytes ≤ cfg.itemSize then
      copyFrames cfg n (payload.drop cfg.packetFrameSizeBytes)
        (data ++ decodeSamples cfg cfg.audioChannels payload)
    else data

/-- The frames of a packet by its length field, which counts the 8 octets of the CIP header. -/
def packetFrames (packet : AudioPacket) : Nat :=
  (packet.streamDataLen.toNat - 8) / cfg.packetFrameSizeBytes

/-- `openavbMapUncmpAudioRxCB`: one item is written, whatever is left of the packet then. A packet
whose data block counter is no multiple of the SYT interval does not start an item. -/
def rxCB (listener : AudioListener) (packet : AudioPacket)
    (now : Option Timespec) : AudioListener :=
  if packetFrames cfg packet = 0 then listener
  else if listener.head.data = [] ∧ 0 < packet.dbc.toNat % cfg.sytInterval then listener
  else
    let time :=
      if listener.head.data = [] then
        { openavbAvtpTimeSetToTimestamp listener.head.pAvtpTime packet.avtpTimestamp now with
          bTimestampValid := packet.timestampValid
          bTimestampUncertain := packet.timestampUncertain }
      else listener.head.pAvtpTime
    let data := copyFrames cfg (packetFrames cfg packet) packet.payload listener.head.data
    if data.length < cfg.itemSize then { listener with head := ⟨time, data⟩ }
    else { pushed := listener.pushed ++ [⟨time, data⟩], head := blankRxItem }

end

/-- The packets in order; `clock n` is what the clock says when packet `n` comes. -/
def listen (cfg : AudioSettings) (clock : Nat → Option Timespec) :
    Nat → AudioListener → List AudioPacket → AudioListener
  | _, listener, [] => listener
  | n, listener, packet :: packets =>
    listen cfg clock (n + 1) (rxCB cfg listener packet (clock n)) packets

def AudioListener.received (listener : AudioListener) : List UInt8 :=
  listener.pushed.flatMap AudioRxItem.data ++ listener.head.data

/-! ## What arrives of uncompressed audio -/

open AudioSettings List

variable {cfg : AudioSettings} {S : List UInt8} {n u k : Nat}

theorem length_encodeSample (sample : List UInt8) : (encodeSample cfg sample).length = 4 :=
  length_numeral

theorem length_decodeSample (quadlet : List UInt8) :
    (decodeSample cfg quadlet).length = cfg.sampleStep := by
  rw [decodeSample, length_reverse, length_numeral]

theorem decodeSample_encodeSample {sample : List UInt8} (h : sample.length = cfg.sampleStep) :
    decodeSample cfg (encodeSample cfg sample) = sample := by
  have hlt : number sample.reverse < 256 ^ cfg.sampleStep := by
    rw [← h, ← length_reverse]
    exact number_lt
  have hvalue : (cfg.am824Label + number sample.reverse * cfg.sampleUnit) % 256 ^ 4 % 2 ^ 24 /
      cfg.sampleUnit = number sample.reverse := by
    revert hlt
    unfold sampleStep sampleUnit itemSampleSizeBytes am824Label
    cases cfg.audioBitDepth <;> intro hlt <;> simp only [Nat.reduceEqDiff, reduceIte] at hlt ⊢ <;>
      omega
  have hback : numeral cfg.sampleStep (number sample.reverse) = sample.reverse := by
    refine number_inj (by rw [length_numeral, length_reverse, h]) ?_
    rw [number_numeral, Nat.mod_eq_of_lt hlt]
  rw [decodeSample, encodeSample, number_numeral, hvalue, hback, reverse_reverse]

theorem samples_mul (hstep : cfg.sampleStep = cfg.itemSampleSizeBytes) (i : Nat) :
    i * cfg.audioChannels * cfg.sampleStep = i * cfg.itemFrameSizeBytes := by
  rw [hstep, itemFrameSizeBytes, mul_assoc, mul_comm cfg.audioChannels]

theorem packet_succ (cfg : AudioSettings) (k : Nat) :
    (k + 1) * cfg.framesPerPacket * cfg.itemFrameSizeBytes =
    k * cfg.framesPerPacket * cfg.itemFrameSizeBytes +
      cfg.framesPerPacket * cfg.itemFrameSizeBytes := by
  rw [Nat.succ_mul, add_mul]

theorem decodeSamples_encodeSamples (hstep : cfg.sampleStep = cfg.itemSampleSizeBytes) {j : Nat}
    (hj : j ≤ n) (hS : n * cfg.itemFrameSizeBytes ≤ S.length) :
    decodeSamples cfg (j * cfg.audioChannels) (encodeSamples cfg (n * cfg.audioChannels) S) =
      S.take (j * cfg.itemFrameSizeBytes) := by
  have hsplit : n * cfg.audioChannels = j * cfg.audioChannels + (n - j) * cfg.audioChannels := by
    rw [← add_mul, Nat.add_sub_cancel' hj]
  have hle : j * cfg.itemFrameSizeBytes ≤ n * cfg.itemFrameSizeBytes := Nat.mul_le_mul_right _ hj
  rw [hsplit, encodeSamples, mapBlocks_add, decodeSamples]
  rw [← samples_mul hstep] at hle
  rw [← samples_mul hstep j]
  exact mapBlocks_mapBlocks (fun l _ => length_encodeSample l)
    (fun l hl => decodeSample_encodeSample hl) (le_trans hle hS)

def Unread (cfg : AudioSettings) (u : Nat) (item : AudioItem) : Prop :=
  item.readIdx + u * cfg.itemFrameSizeBytes = item.data.length

theorem takeFrames_eq {item : AudioItem} (hstep : cfg.sampleStep = cfg.itemSampleSizeBytes)
    (hfs : 0 < cfg.itemFrameSizeBytes) (hu : Unread cfg u item) :
    takeFrames cfg n (item.data.drop item.readIdx) item =
      (encodeSamples cfg (min n u * cfg.audioChannels) (item.data.drop item.readIdx), n - u,
        { item with readIdx := item.readIdx + min n u * cfg.itemFrameSizeBytes }) := by
  induction n generalizing item u with
  | zero =>
    rw [takeFrames, Nat.zero_min, zero_mul, zero_mul, Nat.zero_sub]
    rfl
  | succ n ih =>
    cases u with
    | zero =>
      have hdone : ¬ item.readIdx < item.data.length := by
        have : item.readIdx + 0 * cfg.itemFrameSizeBytes = item.data.length := hu
        omega
      rw [takeFrames, if_neg hdone, Nat.min_zero, zero_mul, zero_mul]
      rfl
    | succ u =>
      have hlen : item.readIdx + (u + 1) * cfg.itemFrameSizeBytes = item.data.length := hu
      rw [Nat.succ_mul] at hlen
      have hrest : Unread cfg u { item with readIdx := item.readIdx + cfg.itemFrameSizeBytes } := by
        show item.readIdx + cfg.itemFrameSizeBytes + u * cfg.itemFrameSizeBytes = item.data.length
        omega
      have hframe : cfg.audioChannels * cfg.sampleStep = cfg.itemFrameSizeBytes := by
        rw [hstep, mul_comm]
        rfl
      have hunits : encodeSamples cfg ((min n u + 1) * cfg.audioChannels)
          (item.data.drop item.readIdx) =
          encodeSamples cfg cfg.audioChannels (item.data.drop item.readIdx) ++
            encodeSamples cfg (min n u * cfg.audioChannels)
              (item.data.drop (item.readIdx + cfg.itemFrameSizeBytes)) := by
        rw [Nat.succ_mul, add_comm, encodeSamples, mapBlocks_add, drop_drop, hframe]
        rfl
      have hindex : item.readIdx + cfg.itemFrameSizeBytes + min n u * cfg.itemFrameSizeBytes =
          item.readIdx + (min n u + 1) * cfg.itemFrameSizeBytes := by
        rw [Nat.succ_mul]
        omega
      have ih := ih hrest
      dsimp only at ih
      rw [takeFrames, if_pos (by omega), drop_drop, hframe, ih, Nat.succ_min_succ, hunits,
        Nat.add_sub_add_right, ← hindex]

def Whole (cfg : AudioSettings) (item : AudioItem) : Prop := ∃ u, 0 < u ∧ Unread cfg u item

def unreadData (queue : List AudioItem) : List UInt8 :=
  queue.flatMap fun item => item.data.drop item.readIdx

theorem unreadOctets_eq (queue : List AudioItem) :
    unreadOctets queue = (unreadData queue).length := by
  rw [unreadOctets, unreadData, length_flatMap]
  exact congrArg List.sum (map_congr_left fun item _ => length_drop.symm)

theorem unreadData_cons (item : AudioItem) (queue : List AudioItem) :
    unreadData (item :: queue) = item.data.drop item.readIdx ++ unreadData queue :=
  flatMap_cons

theorem stamp_item (cfg : AudioSettings) (packet : AudioPacket) (item : AudioItem) :
    (stamp cfg packet item).2.data = item.data ∧ (stamp cfg packet item).2.readIdx = item.readIdx ∧
      (stamp cfg packet item).1.payload = packet.payload := by
  unfold stamp
  split <;> exact ⟨rfl, rfl, rfl⟩

theorem fillPacket_spec (hstep : cfg.sampleStep = cfg.itemSampleSizeBytes)
    (hfs : 0 < cfg.itemFrameSizeBytes) {queue : List AudioItem}
    (hwhole : ∀ item ∈ queue, Whole cfg item)
    (hn : n * cfg.itemFrameSizeBytes ≤ (unreadData queue).length) (packet : AudioPacket) :
    ∃ packet' queue', fillPacket cfg queue n packet = some (packet', queue') ∧ packet'.payload =
        packet.payload ++ encodeSamples cfg (n * cfg.audioChannels) (unreadData queue) ∧
      unreadData queue' = (unreadData queue).drop (n * cfg.itemFrameSizeBytes) ∧
      ∀ item ∈ queue', Whole cfg item := by
  induction queue generalizing n packet with
  | nil =>
    have hzero : n = 0 := by
      have hnone : (unreadData []).length = 0 := rfl
      rw [hnone] at hn
      cases Nat.mul_eq_zero.mp (Nat.le_zero.mp hn) with
      | inl h => exact h
      | inr h => omega
    subst hzero
    refine ⟨packet, [], rfl, ?_, ?_, hwhole⟩
    · rw [Nat.zero_mul]
      exact (append_nil _).symm
    · rw [Nat.zero_mul]
      rfl
  | cons item queue ih =>
    cases n with
    | zero =>
      refine ⟨packet, item :: queue, rfl, ?_, ?_, hwhole⟩
      · rw [Nat.zero_mul]
        exact (append_nil _).symm
      · rw [Nat.zero_mul, drop_zero]
    | succ n =>
      obtain ⟨u, hu, hunread⟩ := hwhole item mem_cons_self
      obtain ⟨hdata, hread, hpayload⟩ := stamp_item cfg packet item
      have hlen : item.readIdx + u * cfg.itemFrameSizeBytes = item.data.length := hunread
      have hpos : 0 < u * cfg.itemFrameSizeBytes := Nat.mul_pos hu hfs
      have hunread' : Unread cfg u (stamp cfg packet item).2 := by
        unfold Unread
        rw [hdata, hread]
        exact hlen
      have hfirst : (item.data.drop item.readIdx).length = u * cfg.itemFrameSizeBytes := by
        rw [length_drop]
        omega
      rw [unreadData_cons, length_append, hfirst] at hn
      rw [fillPacket, if_neg (by omega)]
      dsimp only
      rw [takeFrames_eq hstep hfs hunread']
      dsimp only
      rw [hdata, hread, hpayload, unreadData_cons]
      by_cases hless : n + 1 < u
      case pos =>
        -- The packet is full before the item is read.
        have hmin : min (n + 1) u = n + 1 := Nat.min_eq_left (by omega)
        have hmul : (n + 1) * cfg.itemFrameSizeBytes < u * cfg.itemFrameSizeBytes :=
          Nat.mul_lt_mul_of_pos_right hless hfs
        rw [hmin, if_neg (by omega)]
        refine ⟨_, _, rfl, ?_, ?_, ?_⟩
        · refine congrArg (packet.payload ++ ·) ?_
          rw [encodeSamples, encodeSamples, mapBlocks_append]
          rw [samples_mul hstep, hfirst]
          omega
        · rw [unreadData_cons, drop_append_of_le_length (by omega), drop_drop]
        · intro item' hitem'
          cases mem_cons.mp hitem' with
          | inl hhere =>
            rw [hhere]
            refine ⟨u - (n + 1), by omega, ?_⟩
            unfold Unread
            dsimp only
            rw [Nat.sub_mul]
            omega
          | inr hrest => exact hwhole item' (mem_cons_of_mem _ hrest)
      case neg =>
        have hmin : min (n + 1) u = u := Nat.min_eq_right (by omega)
        have hleft : (n + 1 - u) * cfg.itemFrameSizeBytes ≤ (unreadData queue).length := by
          rw [Nat.sub_mul]
          omega
        have hsum : (n + 1) * cfg.itemFrameSizeBytes =
            u * cfg.itemFrameSizeBytes + (n + 1 - u) * cfg.itemFrameSizeBytes := by
          rw [← Nat.add_mul, Nat.add_sub_cancel' (by omega)]
        have hch : (n + 1) * cfg.audioChannels =
            u * cfg.audioChannels + (n + 1 - u) * cfg.audioChannels := by
          rw [← Nat.add_mul, Nat.add_sub_cancel' (by omega)]
        rw [hmin, if_pos (by omega)]
        obtain ⟨packet', queue', hfill, hpay, hrest, hwhole'⟩ :=
          ih (fun i hi => hwhole i (mem_cons_of_mem _ hi)) hleft
            { (stamp cfg packet item).1 with
              payload := packet.payload ++
                encodeSamples cfg (u * cfg.audioChannels) (item.data.drop item.readIdx) }
        refine ⟨packet', queue', hfill, ?_, ?_, hwhole'⟩
        · rw [hpay, append_assoc, hch]
          refine congrArg (packet.payload ++ ·) ?_
          rw [encodeSamples, encodeSamples, encodeSamples, mapBlocks_add, samples_mul hstep,
            mapBlocks_append (by rw [samples_mul hstep, hfirst]), drop_left' hfirst]
        · rw [hrest, hsum, ← drop_drop, drop_left' hfirst]

structure Carries (cfg : AudioSettings) (S : List UInt8) (k : Nat) (packet : AudioPacket) : Prop where
  payload : packet.payload = encodeSamples cfg (cfg.framesPerPacket * cfg.audioChannels)
    (S.drop (k * cfg.framesPerPacket * cfg.itemFrameSizeBytes))
  enough : (k + 1) * cfg.framesPerPacket * cfg.itemFrameSizeBytes ≤ S.length
  dbc : packet.dbc = UInt8.ofNat (k * cfg.framesPerPacket)
  streamDataLen : packet.streamDataLen = UInt16.ofNat (cfg.packetAudioDataSizeBytes + 8)

structure Sent (cfg : AudioSettings) (S : List UInt8) (k : Nat) (talker : AudioTalker) : Prop where
  whole : ∀ item ∈ talker.queue, Whole cfg item
  unread : unreadData talker.queue = S.drop (k * cfg.framesPerPacket * cfg.itemFrameSizeBytes)
  dbc : talker.dbc = UInt8.ofNat (k * cfg.framesPerPacket)

def HasRoom (cfg : AudioSettings) (dataLen : UInt32) : Prop :=
  cfg.packetAudioDataSizeBytes ≤ (dataLen - totalHeaderSize).toNat

instance : Decidable (HasRoom cfg dataLen) := inferInstanceAs (Decidable (_ ≤ _))

variable {talker : AudioTalker} {listener : AudioListener} {packet : AudioPacket}
  {xs ys : List AudioPacket}

theorem txCB_ready (hstep : cfg.sampleStep = cfg.itemSampleSizeBytes)
    (hfs : 0 < cfg.itemFrameSizeBytes) (h : Sent cfg S k talker) (hroom : HasRoom cfg dataLen)
    (hleft : (k + 1) * cfg.framesPerPacket * cfg.itemFrameSizeBytes ≤ S.length)
    (buffer : AudioPacket) :
    ∃ packet talker', txCB cfg talker buffer dataLen = some (packet, talker') ∧
      Carries cfg S k packet ∧ Sent cfg S (k + 1) talker' := by
  have hnext := packet_succ cfg k
  have havail : cfg.framesPerPacket * cfg.itemFrameSizeBytes ≤ (unreadData talker.queue).length := by
    rw [h.unread, length_drop]
    omega
  have hready : cfg.itemFrameSizeBytes * cfg.framesPerPacket ≤ unreadOctets talker.queue := by
    rw [unreadOctets_eq, mul_comm]
    exact havail
  have hroom : ¬ (dataLen - totalHeaderSize).toNat < cfg.packetAudioDataSizeBytes :=
    Nat.not_lt.mpr hroom
  obtain ⟨packet, queue, hfill, hpay, hrest, hwhole⟩ := fillPacket_spec hstep hfs h.whole havail
    { buffer with
      timestampValid := false
      dbs := UInt8.ofNat cfg.audioChannels
      sfc := cfg.cipSfc
      payload := [] }
  rw [txCB, if_neg hroom, if_pos hready]
  dsimp only
  rw [hfill]
  refine ⟨_, _, rfl, ⟨?_, hleft, h.dbc, rfl⟩, ⟨hwhole, ?_, ?_⟩⟩
  · dsimp only
    rw [hpay, nil_append, h.unread]
  · dsimp only
    rw [hrest, h.unread, drop_drop, hnext]
  · dsimp only
    rw [h.dbc, Nat.succ_mul, UInt8.ofNat_add]

theorem txCB_not_ready (h : Sent cfg S k talker) (buffer : AudioPacket)
    (hnot : ¬ (HasRoom cfg dataLen ∧
      (k + 1) * cfg.framesPerPacket * cfg.itemFrameSizeBytes ≤ S.length))
    (hk : k * cfg.framesPerPacket * cfg.itemFrameSizeBytes ≤ S.length) :
    txCB cfg talker buffer dataLen = none := by
  have hnext := packet_succ cfg k
  rw [txCB]
  split
  case isTrue => rfl
  case isFalse hroom =>
    refine if_neg fun hready => hnot ⟨Nat.not_lt.mp hroom, ?_⟩
    rw [unreadOctets_eq, h.unread, length_drop, mul_comm] at hready
    omega

inductive Run (cfg : AudioSettings) (S : List UInt8) : Nat → List AudioPacket → Prop
  | nil {k : Nat} : Run cfg S k []
  | cons {k : Nat} {packet : AudioPacket} {packets : List AudioPacket}
      (hcarries : Carries cfg S k packet) (hrest : Run cfg S (k + 1) packets) :
      Run cfg S k (packet :: packets)

def packetCount (cfg : AudioSettings) (frames : Nat) (dataLen : UInt32) (calls : Nat) : Nat :=
  if HasRoom cfg dataLen then min calls (frames / cfg.framesPerPacket) else 0

theorem framesPerPacket_pos : 0 < cfg.framesPerPacket := by
  unfold framesPerPacket
  omega

theorem transmit_spec (dataLen : UInt32) (buffers : List AudioPacket)
    (hstep : cfg.sampleStep = cfg.itemSampleSizeBytes) (hfs : 0 < cfg.itemFrameSizeBytes)
    (hS : S.length = frames * cfg.itemFrameSizeBytes) (h : Sent cfg S k talker)
    (hk : k * cfg.framesPerPacket ≤ frames) : Run cfg S k (transmit cfg dataLen talker buffers) ∧
      (transmit cfg dataLen talker buffers).length =
        packetCount cfg (frames - k * cfg.framesPerPacket) dataLen buffers.length := by
  have hF : 0 < cfg.framesPerPacket := framesPerPacket_pos
  have hbytes : ∀ i, i * cfg.itemFrameSizeBytes ≤ S.length ↔ i ≤ frames := by
    intro i
    rw [hS]
    exact Nat.mul_le_mul_right_iff hfs
  induction buffers generalizing k talker with
  | nil =>
    refine ⟨.nil, ?_⟩
    unfold packetCount
    split
    · exact (Nat.zero_min _).symm
    · rfl
  | cons buffer buffers ih =>
    by_cases hready : HasRoom cfg dataLen ∧ (k + 1) * cfg.framesPerPacket ≤ frames
    case pos =>
      obtain ⟨hroom, hnext⟩ := hready
      obtain ⟨packet, talker', htx, hcarries, hsent⟩ :=
        txCB_ready hstep hfs h hroom ((hbytes _).mpr hnext) buffer
      obtain ⟨hrun, hlen⟩ := ih hsent hnext
      rw [transmit, htx]
      refine ⟨.cons hcarries hrun, ?_⟩
      rw [Nat.succ_mul] at hnext hlen
      have hdiv : (frames - k * cfg.framesPerPacket) / cfg.framesPerPacket =
          (frames - (k * cfg.framesPerPacket + cfg.framesPerPacket)) / cfg.framesPerPacket + 1 := by
        rw [← Nat.sub_sub, Nat.div_eq_sub_div hF (by omega)]
      rw [length_cons, hlen, packetCount, packetCount, if_pos hroom, if_pos hroom,
        length_cons, hdiv, Nat.succ_min_succ]
    case neg =>
      have hnone := txCB_not_ready h buffer (fun hr => hready ⟨hr.1, (hbytes _).mp hr.2⟩)
        ((hbytes _).mpr hk)
      obtain ⟨hrun, hlen⟩ := ih h hk
      rw [transmit, hnone]
      refine ⟨hrun, ?_⟩
      rw [hlen, packetCount, packetCount]
      split
      case isTrue hroom =>
        have hnone : (frames - k * cfg.framesPerPacket) / cfg.framesPerPacket = 0 := by
          refine Nat.div_eq_of_lt ?_
          have : ¬ (k + 1) * cfg.framesPerPacket ≤ frames := fun h => hready ⟨hroom, h⟩
          rw [Nat.succ_mul] at this
          omega
        rw [hnone, Nat.min_zero, Nat.min_zero]
      case isFalse => rfl

/-- How many frames are written to an item with `a` of its places for frames taken: as many as start
inside it. -/
def roomFrames (cfg : AudioSettings) (a : Nat) : Nat :=
  (cfg.framesPerItem - a + (cfg.framePlaces - 1)) / cfg.framePlaces

theorem roomFrames_known (hstep : cfg.sampleStep = cfg.itemSampleSizeBytes) :
    roomFrames cfg a = cfg.framesPerItem - a := by
  have hone : cfg.framePlaces = 1 := by
    have := cfg.sizes_cases
    omega
  rw [roomFrames, hone, Nat.sub_self, Nat.add_zero, Nat.div_one]

theorem roomFrames_succ (h : a + 1 ≤ cfg.framesPerItem) :
    roomFrames cfg a = roomFrames cfg (a + cfg.framePlaces) + 1 := by
  unfold roomFrames
  rcases cfg.sizes_cases with ⟨-, -, hplaces⟩ | ⟨-, -, hplaces⟩ | ⟨-, -, hplaces⟩ <;>
    rw [hplaces] <;> omega

/-- The length of the samples of `i` frames, by the places they take. -/
theorem length_frames (i : Nat) :
    i * cfg.audioChannels * cfg.sampleStep = i * cfg.framePlaces * cfg.itemFrameSizeBytes := by
  have hstep : cfg.sampleStep = cfg.framePlaces * cfg.itemSampleSizeBytes := by
    rcases cfg.sizes_cases with ⟨hs, hstep, hp⟩ | ⟨hs, hstep, hp⟩ | ⟨hs, hstep, hp⟩ <;>
      rw [hs, hstep, hp]
  rw [hstep, itemFrameSizeBytes, mul_comm cfg.itemSampleSizeBytes, mul_assoc, mul_assoc,
    mul_left_comm cfg.audioChannels]

theorem copyFrames_eq {data payload : List UInt8} (hfs : 0 < cfg.itemFrameSizeBytes)
    (hdata : data.length = a * cfg.itemFrameSizeBytes) : copyFrames cfg n payload data =
      data ++ decodeSamples cfg (min n (roomFrames cfg a) * cfg.audioChannels) payload := by
  induction n generalizing a data payload with
  | zero =>
    rw [copyFrames, Nat.zero_min, zero_mul]
    exact (append_nil _).symm
  | succ n ih =>
    have hroom : data.length + cfg.itemFrameSizeBytes ≤ cfg.itemSize ↔ a + 1 ≤ cfg.framesPerItem := by
      rw [hdata, itemSize, mul_comm cfg.itemFrameSizeBytes, ← Nat.succ_mul]
      exact Nat.mul_le_mul_right_iff hfs
    rw [copyFrames]
    by_cases hfits : a + 1 ≤ cfg.framesPerItem
    case pos =>
      have hgrown : (data ++ decodeSamples cfg cfg.audioChannels payload).length =
          (a + cfg.framePlaces) * cfg.itemFrameSizeBytes := by
        have hframe := @length_frames cfg 1
        rw [one_mul, one_mul] at hframe
        rw [length_append, decodeSamples, length_mapBlocks length_decodeSample, hdata, hframe,
          add_mul]
      have hquadlets : cfg.packetFrameSizeBytes =
          cfg.audioChannels * packetSampleSizeBytes := mul_comm _ _
      rw [if_pos (hroom.mpr hfits), ih hgrown, roomFrames_succ hfits, Nat.succ_min_succ,
        Nat.succ_mul, add_comm _ cfg.audioChannels, append_assoc, hquadlets, decodeSamples,
        decodeSamples, decodeSamples, mapBlocks_add]
    case neg =>
      have hfull : roomFrames cfg a = 0 := by
        have hnone : cfg.framesPerItem - a = 0 := by omega
        rw [roomFrames, hnone]
        exact Nat.div_eq_of_lt (by have := cfg.sizes_cases; omega)
      rw [if_neg (fun h => hfits (hroom.mp h)), hfull, Nat.min_zero, zero_mul]
      exact (append_nil _).symm

theorem sytInterval_dvd : cfg.sytInterval ∣ 256 := by
  unfold sytInterval
  split <;> decide

theorem dbc_mod (i : Nat) : (UInt8.ofNat i).toNat % cfg.sytInterval = i % cfg.sytInterval := by
  rw [UInt8.toNat_ofNat']
  exact Nat.mod_mod_of_dvd i sytInterval_dvd

def announcedFrames (cfg : AudioSettings) : Nat :=
  ((cfg.packetAudioDataSizeBytes + 8) % 65536 - 8) / cfg.packetFrameSizeBytes

/-- How many frames of packet `k` are written to an item that holds `a` of them. -/
def writtenFrames (cfg : AudioSettings) (k a : Nat) : Nat :=
  if a = 0 ∧ 0 < k * cfg.framesPerPacket % cfg.sytInterval then 0
  else min (announcedFrames cfg) (cfg.framesPerItem - a)

theorem announcedFrames_le (hch : 0 < cfg.audioChannels) :
    announcedFrames cfg ≤ cfg.framesPerPacket := by
  have hpos : 0 < cfg.packetFrameSizeBytes := Nat.mul_pos (by decide) hch
  have hle : (cfg.packetAudioDataSizeBytes + 8) % 65536 - 8 ≤
      cfg.framesPerPacket * cfg.packetFrameSizeBytes := by
    have : cfg.packetAudioDataSizeBytes = cfg.framesPerPacket * cfg.packetFrameSizeBytes := rfl
    omega
  exact Nat.div_le_of_le_mul (Nat.mul_comm _ _ ▸ hle)

theorem writtenFrames_le (hch : 0 < cfg.audioChannels) (k a : Nat) :
    writtenFrames cfg k a ≤ cfg.framesPerPacket := by
  unfold writtenFrames
  split
  · exact Nat.zero_le _
  · exact le_trans (min_le_left _ _) (announcedFrames_le hch)

def Holds (cfg : AudioSettings) (a : Nat) (listener : AudioListener) : Prop :=
  listener.head.data.length = a * cfg.itemFrameSizeBytes ∧ a < cfg.framesPerItem

theorem rxCB_spec (hstep : cfg.sampleStep = cfg.itemSampleSizeBytes) (hch : 0 < cfg.audioChannels)
    (hfs : 0 < cfg.itemFrameSizeBytes) (h : Holds cfg a listener)
    (hcarries : Carries cfg S k packet) (now : Option Timespec) :
    (rxCB cfg listener packet now).received = listener.received ++
      (S.drop (k * cfg.framesPerPacket * cfg.itemFrameSizeBytes)).take
        (writtenFrames cfg k a * cfg.itemFrameSizeBytes) ∧
    Holds cfg ((a + writtenFrames cfg k a) % cfg.framesPerItem) (rxCB cfg listener packet now) := by
  obtain ⟨hlen, ha⟩ := h
  have hframes : packetFrames cfg packet = announcedFrames cfg := by
    rw [packetFrames, hcarries.streamDataLen, announcedFrames]
    rfl
  have hempty : listener.head.data = [] ↔ a = 0 := by
    rw [← length_eq_zero_iff, hlen, Nat.mul_eq_zero]
    omega
  have hnone : writtenFrames cfg k a = 0 → listener.received = listener.received ++
      (S.drop (k * cfg.framesPerPacket * cfg.itemFrameSizeBytes)).take
        (writtenFrames cfg k a * cfg.itemFrameSizeBytes) ∧
      Holds cfg ((a + writtenFrames cfg k a) % cfg.framesPerItem) listener := by
    intro hw
    rw [hw, zero_mul, take_zero, append_nil, add_zero, Nat.mod_eq_of_lt ha]
    exact ⟨rfl, hlen, ha⟩
  rw [rxCB, hframes, hcarries.dbc, dbc_mod]
  by_cases hann : announcedFrames cfg = 0
  case pos =>
    rw [if_pos hann]
    refine hnone ?_
    rw [writtenFrames, hann, Nat.zero_min, ite_self]
  case neg =>
    rw [if_neg hann]
    by_cases htoss : a = 0 ∧ 0 < k * cfg.framesPerPacket % cfg.sytInterval
    case pos =>
      rw [if_pos ⟨hempty.mpr htoss.1, htoss.2⟩]
      exact hnone (if_pos htoss)
    case neg =>
      have hw : writtenFrames cfg k a = min (announcedFrames cfg) (cfg.framesPerItem - a) :=
        if_neg htoss
      have hwF := writtenFrames_le hch k a
      have henough : cfg.framesPerPacket * cfg.itemFrameSizeBytes ≤
          (S.drop (k * cfg.framesPerPacket * cfg.itemFrameSizeBytes)).length := by
        have := hcarries.enough
        rw [packet_succ] at this
        rw [length_drop]
        omega
      have hcopy : copyFrames cfg (announcedFrames cfg) packet.payload listener.head.data =
          listener.head.data ++ (S.drop (k * cfg.framesPerPacket * cfg.itemFrameSizeBytes)).take
            (writtenFrames cfg k a * cfg.itemFrameSizeBytes) := by
        rw [copyFrames_eq hfs hlen, roomFrames_known hstep, ← hw, hcarries.payload,
          decodeSamples_encodeSamples hstep hwF henough]
      have hcopied : (copyFrames cfg (announcedFrames cfg) packet.payload
          listener.head.data).length = (a + writtenFrames cfg k a) * cfg.itemFrameSizeBytes := by
        have hmul : writtenFrames cfg k a * cfg.itemFrameSizeBytes ≤
            cfg.framesPerPacket * cfg.itemFrameSizeBytes := Nat.mul_le_mul_right _ hwF
        rw [hcopy, length_append, hlen, length_take, min_eq_left (by omega), add_mul]
      have hless : (copyFrames cfg (announcedFrames cfg) packet.payload
          listener.head.data).length < cfg.itemSize ↔
          a + writtenFrames cfg k a < cfg.framesPerItem := by
        rw [hcopied, itemSize, mul_comm cfg.itemFrameSizeBytes]
        exact Nat.mul_lt_mul_right hfs
      rw [if_neg (fun hc => htoss ⟨hempty.mp hc.1, hc.2⟩)]
      by_cases hmore : a + writtenFrames cfg k a < cfg.framesPerItem
      case pos =>
        rw [if_pos (hless.mpr hmore), Nat.mod_eq_of_lt hmore]
        refine ⟨?_, hcopied, hmore⟩
        rw [AudioListener.received, AudioListener.received, hcopy, append_assoc]
      case neg =>
        have hfull : a + writtenFrames cfg k a = cfg.framesPerItem := by omega
        rw [if_neg (fun hc => hmore (hless.mp hc)), hfull, Nat.mod_self]
        refine ⟨?_, ?_, by omega⟩
        · rw [AudioListener.received, AudioListener.received, flatMap_append,
            flatMap_singleton, hcopy]
          show _ ++ _ ++ [] = _
          rw [append_nil, append_assoc]
        · rw [zero_mul]
          rfl

section

variable {packets : List AudioPacket} {listener : AudioListener} (clock : Nat → Option Timespec)
  (hstep : cfg.sampleStep = cfg.itemSampleSizeBytes) (hch : 0 < cfg.audioChannels)
  (hfs : 0 < cfg.itemFrameSizeBytes)

include hstep hch hfs

theorem listen_whole (hrun : Run cfg S k packets) (hwritten : ∀ i, k ≤ i → i < k + packets.length →
      writtenFrames cfg i (i * cfg.framesPerPacket % cfg.framesPerItem) = cfg.framesPerPacket)
    (h : Holds cfg (k * cfg.framesPerPacket % cfg.framesPerItem) listener)
    (hreceived : listener.received = S.take (k * cfg.framesPerPacket * cfg.itemFrameSizeBytes)) :
    (listen cfg clock n listener packets).received =
        S.take ((k + packets.length) * cfg.framesPerPacket * cfg.itemFrameSizeBytes) ∧
      Holds cfg ((k + packets.length) * cfg.framesPerPacket % cfg.framesPerItem)
        (listen cfg clock n listener packets) := by
  induction hrun generalizing listener n with
  | nil => exact ⟨hreceived, h⟩
  | @cons k packet packets hcarries hrest ih =>
    obtain ⟨hnew, hholds⟩ := rxCB_spec hstep hch hfs h hcarries (clock n)
    have hwhole := hwritten k (le_refl k) (by rw [length_cons]; omega)
    rw [hwhole, Nat.mod_add_mod, ← Nat.succ_mul] at hholds
    rw [hwhole, hreceived, ← take_add, ← packet_succ] at hnew
    have hcount : k + (packet :: packets).length = k + 1 + packets.length := by
      rw [length_cons]
      omega
    rw [hcount, listen]
    exact ih (fun i hi hik => hwritten i (by omega) (by omega)) hholds hnew

theorem listen_length_le (hrun : Run cfg S k packets) (h : Holds cfg a listener) :
    (listen cfg clock n listener packets).received.length ≤ listener.received.length +
        packets.length * cfg.framesPerPacket * cfg.itemFrameSizeBytes := by
  induction hrun generalizing listener n a with
  | nil => exact Nat.le_add_right _ _
  | @cons k packet packets hcarries hrest ih =>
    obtain ⟨hnew, hholds⟩ := rxCB_spec hstep hch hfs h hcarries (clock n)
    have hle : writtenFrames cfg k a * cfg.itemFrameSizeBytes ≤
        cfg.framesPerPacket * cfg.itemFrameSizeBytes :=
      Nat.mul_le_mul_right _ (writtenFrames_le hch k a)
    have hlen : (rxCB cfg listener packet (clock n)).received.length ≤
        listener.received.length + cfg.framesPerPacket * cfg.itemFrameSizeBytes := by
      rw [hnew, length_append, length_take]
      omega
    have hrest := ih (n := n + 1) hholds
    rw [listen, length_cons, packet_succ]
    omega

theorem listen_short (hF : writtenFrames cfg k a < cfg.framesPerPacket)
    (hrun : Run cfg S k (packet :: packets)) (h : Holds cfg a listener) :
    (listen cfg clock n listener (packet :: packets)).received.length < listener.received.length +
        (packet :: packets).length * cfg.framesPerPacket * cfg.itemFrameSizeBytes := by
  cases hrun with
  | cons hcarries hrest =>
    obtain ⟨hnew, hholds⟩ := rxCB_spec hstep hch hfs h hcarries (clock n)
    have hlt : writtenFrames cfg k a * cfg.itemFrameSizeBytes <
        cfg.framesPerPacket * cfg.itemFrameSizeBytes := Nat.mul_lt_mul_of_pos_right hF hfs
    have hlen : (rxCB cfg listener packet (clock n)).received.length <
        listener.received.length + cfg.framesPerPacket * cfg.itemFrameSizeBytes := by
      rw [hnew, length_append, length_take]
      omega
    have hle := listen_length_le clock (n := n + 1) hstep hch hfs hrest hholds
    rw [listen, length_cons, packet_succ]
    omega

end

theorem listen_append {clock : Nat → Option Timespec} : listen cfg clock n listener (xs ++ ys) =
      listen cfg clock (n + xs.length) (listen cfg clock n listener xs) ys := by
  induction xs generalizing n listener with
  | nil => rfl
  | cons x xs ih =>
    rw [cons_append, listen, listen, ih, length_cons, add_right_comm, add_assoc]

theorem Run.append (h : Run cfg S k (xs ++ ys)) :
    Run cfg S k xs ∧ Run cfg S (k + xs.length) ys := by
  induction xs generalizing k with
  | nil => exact ⟨.nil, h⟩
  | cons x xs ih =>
    cases h with
    | cons hcarries hrest =>
      obtain ⟨hxs, hys⟩ := ih hrest
      refine ⟨.cons hcarries hxs, ?_⟩
      rw [length_cons, add_comm xs.length, ← add_assoc]
      exact hys

theorem announcedFrames_eq (hch : 0 < cfg.audioChannels)
    (h : cfg.packetAudioDataSizeBytes + 8 < 65536) : announcedFrames cfg = cfg.framesPerPacket := by
  have hpos : 0 < cfg.packetFrameSizeBytes := Nat.mul_pos (by decide) hch
  rw [announcedFrames, Nat.mod_eq_of_lt h, Nat.add_sub_cancel,
    packetAudioDataSizeBytes, Nat.mul_div_cancel _ hpos]

theorem announcedFrames_lt (hch : 0 < cfg.audioChannels)
    (h : ¬ cfg.packetAudioDataSizeBytes + 8 < 65536) :
    announcedFrames cfg < cfg.framesPerPacket := by
  have hpos : 0 < cfg.packetFrameSizeBytes := Nat.mul_pos (by decide) hch
  rw [announcedFrames, Nat.div_lt_iff_lt_mul hpos]
  show _ < cfg.packetAudioDataSizeBytes
  omega

theorem writtenFrames_even (hann : announcedFrames cfg = cfg.framesPerPacket)
    (hitem : 0 < cfg.framesPerItem) (heven : cfg.framesPerPacket ∣ cfg.framesPerItem)
    (hsyt : cfg.sytInterval ∣ cfg.framesPerItem) (i : Nat) :
    writtenFrames cfg i (i * cfg.framesPerPacket % cfg.framesPerItem) = cfg.framesPerPacket := by
  have htoss : ¬ (i * cfg.framesPerPacket % cfg.framesPerItem = 0 ∧
      0 < i * cfg.framesPerPacket % cfg.sytInterval) := by
    rintro ⟨hzero, hpos⟩
    have hdvd := Nat.dvd_trans hsyt (Nat.dvd_of_mod_eq_zero hzero)
    rw [Nat.mod_eq_zero_of_dvd hdvd] at hpos
    omega
  obtain ⟨p, hp⟩ := heven
  have hpos : 0 < p := by
    refine Nat.pos_of_ne_zero ?_
    rintro rfl
    omega
  have hmod : i * cfg.framesPerPacket % cfg.framesPerItem = cfg.framesPerPacket * (i % p) := by
    rw [hp, mul_comm i, Nat.mul_mod_mul_left]
  have hroom : cfg.framesPerPacket * (i % p) + cfg.framesPerPacket ≤ cfg.framesPerItem := by
    rw [hp, ← Nat.mul_succ]
    exact Nat.mul_le_mul_left _ (Nat.mod_lt i hpos)
  rw [writtenFrames, if_neg htoss, hann, hmod]
  exact min_eq_left (by omega)

theorem writtenFrames_first (hann : announcedFrames cfg = cfg.framesPerPacket)
    (hfirst : (i + 1) * cfg.framesPerPacket ≤ cfg.framesPerItem) :
    writtenFrames cfg i (i * cfg.framesPerPacket % cfg.framesPerItem) = cfg.framesPerPacket := by
  have hF : 0 < cfg.framesPerPacket := framesPerPacket_pos
  rw [Nat.succ_mul] at hfirst
  have htoss : ¬ (i * cfg.framesPerPacket = 0 ∧ 0 < i * cfg.framesPerPacket % cfg.sytInterval) := by
    rintro ⟨hzero, hpos⟩
    rw [hzero, Nat.zero_mod] at hpos
    omega
  rw [Nat.mod_eq_of_lt (by omega), writtenFrames, if_neg htoss, hann]
  exact min_eq_left (by omega)

theorem writtenFrames_next
    (huneven : ¬ (cfg.framesPerPacket ∣ cfg.framesPerItem ∧ cfg.sytInterval ∣ cfg.framesPerItem)) :
    writtenFrames cfg (cfg.framesPerItem / cfg.framesPerPacket)
      (cfg.framesPerItem / cfg.framesPerPacket * cfg.framesPerPacket % cfg.framesPerItem) <
        cfg.framesPerPacket := by
  have hF : 0 < cfg.framesPerPacket := framesPerPacket_pos
  have hdiv := Nat.div_add_mod' cfg.framesPerItem cfg.framesPerPacket
  have hmod := Nat.mod_lt cfg.framesPerItem hF
  by_cases hdvd : cfg.framesPerPacket ∣ cfg.framesPerItem
  case pos =>
    have hsyt : ¬ cfg.sytInterval ∣ cfg.framesPerItem := fun h => huneven ⟨hdvd, h⟩
    have hpos : 0 < cfg.framesPerItem % cfg.sytInterval :=
      Nat.pos_of_ne_zero fun h => hsyt (Nat.dvd_of_mod_eq_zero h)
    rw [Nat.div_mul_cancel hdvd, Nat.mod_self, writtenFrames, Nat.div_mul_cancel hdvd,
      if_pos ⟨rfl, hpos⟩]
    exact hF
  case neg =>
    rw [Nat.mod_eq_of_lt (by omega), writtenFrames]
    split
    · exact hF
    · exact lt_of_le_of_lt (min_le_right _ _) (by omega)

theorem listen_eq_iff (hstep : cfg.sampleStep = cfg.itemSampleSizeBytes) (hch : 0 < cfg.audioChannels)
    (hfs : 0 < cfg.itemFrameSizeBytes) (hitem : 0 < cfg.framesPerItem)
    {packets : List AudioPacket} (hrun : Run cfg S 0 packets)
    (hS : packets.length * cfg.framesPerPacket * cfg.itemFrameSizeBytes ≤ S.length)
    (clock : Nat → Option Timespec) : (listen cfg clock 0 ⟨[], blankRxItem⟩ packets).received =
        S.take (packets.length * cfg.framesPerPacket * cfg.itemFrameSizeBytes) ↔
      packets.length = 0 ∨ cfg.packetAudioDataSizeBytes + 8 < 65536 ∧
        (packets.length * cfg.framesPerPacket ≤ cfg.framesPerItem ∨
          cfg.framesPerPacket ∣ cfg.framesPerItem ∧ cfg.sytInterval ∣ cfg.framesPerItem) := by
  have hF : 0 < cfg.framesPerPacket := framesPerPacket_pos
  have hblank : Holds cfg (0 * cfg.framesPerPacket % cfg.framesPerItem) ⟨[], blankRxItem⟩ := by
    rw [zero_mul, Nat.zero_mod]
    exact ⟨(zero_mul _).symm, hitem⟩
  have hnothing : AudioListener.received ⟨[], blankRxItem⟩ =
      S.take (0 * cfg.framesPerPacket * cfg.itemFrameSizeBytes) := by
    rw [zero_mul, zero_mul, take_zero]
    rfl
  constructor
  · intro heq
    have hlen := congrArg List.length heq
    rw [length_take, min_eq_left hS] at hlen
    by_contra hcond
    obtain ⟨hsome, hcond⟩ := not_or.mp hcond
    by_cases hfits : cfg.packetAudioDataSizeBytes + 8 < 65536
    case neg =>
      -- Not even the first packet is written as a whole.
      cases packets with
      | nil => exact hsome rfl
      | cons packet packets =>
        have hshort : writtenFrames cfg 0 (0 * cfg.framesPerPacket % cfg.framesPerItem) <
            cfg.framesPerPacket := by
          unfold writtenFrames
          split
          · exact hF
          · exact lt_of_le_of_lt (min_le_left _ _) (announcedFrames_lt hch hfits)
        have hlt := listen_short clock (n := 0) hstep hch hfs hshort hrun hblank
        rw [hlen] at hlt
        exact lt_irrefl _ (Nat.lt_of_lt_of_eq hlt (zero_add _))
    case pos =>
      obtain ⟨hmany, huneven⟩ := not_or.mp fun h => hcond ⟨hfits, h⟩
      have hann := announcedFrames_eq hch hfits
      have hq : cfg.framesPerItem / cfg.framesPerPacket < packets.length := by
        rw [Nat.div_lt_iff_lt_mul hF]
        omega
      -- The packets of the first item arrive; the next one does not, as a whole.
      obtain ⟨xs, ys, hsplit, hxs⟩ : ∃ xs ys, packets = xs ++ ys ∧
          xs.length = cfg.framesPerItem / cfg.framesPerPacket :=
        ⟨_, _, (take_append_drop (cfg.framesPerItem / cfg.framesPerPacket) packets).symm,
          length_take_of_le (le_of_lt hq)⟩
      rw [hsplit] at hrun
      obtain ⟨hrunx, hruny⟩ := hrun.append
      rw [zero_add, hxs] at hruny
      have hfirst := listen_whole clock (n := 0) hstep hch hfs hrunx
        (fun i _ hi => writtenFrames_first hann (by
          rw [zero_add, hxs] at hi
          exact le_trans (Nat.mul_le_mul_right _ hi) (Nat.div_mul_le_self _ _)))
        hblank hnothing
      rw [zero_add, hxs] at hfirst
      obtain ⟨hreceived, hholds⟩ := hfirst
      cases ys with
      | nil =>
        rw [hsplit, append_nil, hxs] at hq
        exact lt_irrefl _ hq
      | cons packet ys =>
        have hlt := listen_short clock (n := 0 + xs.length) hstep hch hfs
          (writtenFrames_next huneven) hruny hholds
        rw [← listen_append, ← hsplit, hlen, hreceived, length_take, hsplit,
          length_append, hxs, add_mul, add_mul] at hlt
        omega
  · rintro (hnone | ⟨hfits, hcond⟩)
    · have hnil : packets = [] := length_eq_zero_iff.mp hnone
      subst hnil
      exact hnothing
    · have hann := announcedFrames_eq hch hfits
      have hwhole := listen_whole clock (n := 0) hstep hch hfs hrun ?_ hblank hnothing
      · rw [zero_add] at hwhole
        exact hwhole.1
      · intro i _ hi
        rw [zero_add] at hi
        cases hcond with
        | inl hfirst =>
          exact writtenFrames_first hann
            (le_trans (Nat.mul_le_mul_right _ hi) hfirst)
        | inr heven => exact writtenFrames_even hann hitem heven.1 heven.2 i

theorem AudioSetup.framesPerItem_pos (cfg : AudioSetup) : 0 < cfg.framesPerItem := by
  unfold framesPerItem
  split
  · exact Nat.mul_pos framesPerPacket_pos cfg.packing_pos
  · unfold sytInterval
    split <;> decide

theorem AudioSetup.itemFrameSizeBytes_pos (cfg : AudioSetup) : 0 < cfg.itemFrameSizeBytes := by
  refine Nat.mul_pos ?_ cfg.channels_pos
  unfold itemSampleSizeBytes
  split <;> decide

theorem AudioConfig.sampleStep_eq (cfg : AudioConfig) :
    cfg.sampleStep = cfg.itemSampleSizeBytes := by
  have hdepth := cfg.depth
  unfold sampleStep itemSampleSizeBytes
  cases h : cfg.audioBitDepth with
  | bit16 => rfl
  | bit24 => rfl
  | other => exact absurd h hdepth

def AudioItem.Full (cfg : AudioSettings) (item : AudioItem) : Prop :=
  item.readIdx = 0 ∧ item.data.length = cfg.itemSize

/-- Of the frames the talker sends out of full items, exactly those arrive iff nothing is sent, or
the length of a packet fits its field and either all of it goes into one item or a packet divides
an item and the SYT interval does so too. -/
theorem audio_received_iff (cfg : AudioConfig) (items : List AudioItem)
    (hfull : ∀ item ∈ items, item.Full cfg.toAudioSettings) (buffers : List AudioPacket)
    (dataLen : UInt32) (clock : Nat → Option Timespec) :
    let m := packetCount cfg.toAudioSettings (items.length * cfg.framesPerItem) dataLen
      buffers.length
    (listen cfg.toAudioSettings clock 0 ⟨[], blankRxItem⟩
        (transmit cfg.toAudioSettings dataLen ⟨items, 0⟩ buffers)).received =
      (items.flatMap AudioItem.data).take (m * cfg.framesPerPacket * cfg.itemFrameSizeBytes) ↔
    m = 0 ∨ cfg.packetAudioDataSizeBytes + 8 < 65536 ∧
      (m * cfg.framesPerPacket ≤ cfg.framesPerItem ∨
        cfg.framesPerPacket ∣ cfg.framesPerItem ∧ cfg.sytInterval ∣ cfg.framesPerItem) := by
  have hfs := cfg.itemFrameSizeBytes_pos
  have hitem := cfg.framesPerItem_pos
  have hunread : unreadData items = items.flatMap AudioItem.data := by
    rw [unreadData, flatMap_def, flatMap_def]
    refine congrArg List.flatten (map_congr_left fun item hmem => ?_)
    rw [(hfull item hmem).1, drop_zero]
  have hlen : (items.flatMap AudioItem.data).length =
      items.length * cfg.framesPerItem * cfg.itemFrameSizeBytes := by
    have hsum : items.map (fun item => item.data.length) = items.map fun _ => cfg.itemSize :=
      map_congr_left fun item hmem => (hfull item hmem).2
    rw [length_flatMap, hsum, map_const', sum_replicate_nat,
      itemSize, mul_comm cfg.itemFrameSizeBytes, mul_assoc]
  have hsent : Sent cfg (items.flatMap AudioItem.data) 0 ⟨items, 0⟩ := by
    refine ⟨fun item hmem => ⟨cfg.framesPerItem, hitem, ?_⟩, ?_, ?_⟩
    · show item.readIdx + cfg.framesPerItem * cfg.itemFrameSizeBytes = item.data.length
      rw [(hfull item hmem).1, (hfull item hmem).2, zero_add, itemSize, mul_comm]
    · rw [zero_mul, zero_mul, drop_zero]
      exact hunread
    · rw [zero_mul]
      rfl
  obtain ⟨hrun, hcount⟩ := transmit_spec dataLen buffers cfg.sampleStep_eq hfs hlen hsent
    (by rw [zero_mul]; exact Nat.zero_le _)
  rw [zero_mul, Nat.sub_zero] at hcount
  have henough : packetCount cfg (items.length * cfg.framesPerItem) dataLen
      buffers.length * cfg.framesPerPacket * cfg.itemFrameSizeBytes ≤
      (items.flatMap AudioItem.data).length := by
    rw [hlen]
    refine Nat.mul_le_mul_right _ ?_
    unfold packetCount
    split
    · exact le_trans (Nat.mul_le_mul_right _ (min_le_right _ _)) (Nat.div_mul_le_self _ _)
    · rw [zero_mul]
      exact Nat.zero_le _
  have hiff := listen_eq_iff cfg.sampleStep_eq cfg.channels_pos hfs hitem hrun
    (by rw [hcount]; exact henough) clock
  rw [hcount] at hiff
  exact hiff

def monoConfig (audioRate : AudioRate) : AudioConfig where
  audioRate := audioRate
  audioBitDepth := .bit16
  audioChannels := 1
  txInterval := 8000
  packingFactor := 1
  maxTransitUsec := 2000
  channels_pos := by decide
  channels_le := by decide
  txInterval_pos := by decide
  packing_pos := by decide
  itemSize_lt := by cases audioRate <;> decide
  depth := by decide

def rampItem : AudioItem := ⟨⟨0, 0, false, false⟩, (List.range 16).map UInt8.ofNat, 0⟩

def blankPacket : AudioPacket := ⟨false, false, 0, 0, 0, 0, 0, []⟩

/-- At 32 kHz a packet has four frames and an item eight. -/
theorem audio_received_32khz :
    (listen (monoConfig .khz32).toAudioSettings (fun _ => none) 0 ⟨[], blankRxItem⟩
      (transmit (monoConfig .khz32).toAudioSettings 1500 ⟨[rampItem, rampItem], 0⟩
        (List.replicate 4 blankPacket))).received =
      ([rampItem, rampItem].flatMap AudioItem.data).take 32 := by
  have hfull : ∀ item ∈ [rampItem, rampItem], item.Full (monoConfig .khz32).toAudioSettings := by
    intro item hitem
    cases mem_replicate.mp (show item ∈ List.replicate 2 rampItem from hitem) with
    | intro _ h => rw [h]; exact ⟨rfl, rfl⟩
  have hcount : packetCount (monoConfig .khz32).toAudioSettings
      ([rampItem, rampItem].length * (monoConfig .khz32).framesPerItem) 1500
      (List.replicate 4 blankPacket).length * (monoConfig .khz32).framesPerPacket *
      (monoConfig .khz32).itemFrameSizeBytes = 32 := by decide
  have h := (audio_received_iff (monoConfig .khz32) [rampItem, rampItem] hfull
    (List.replicate 4 blankPacket) 1500 (fun _ => none)).mpr (by decide)
  rwa [hcount] at h

/-- At 48 kHz a packet has six frames: four of the second packet do not fit into the item, and no
later packet starts another. -/
theorem audio_lost_48khz : (transmit (monoConfig .khz48).toAudioSettings 1500
      ⟨[rampItem, rampItem, rampItem], 0⟩ (List.replicate 4 blankPacket)).length = 4 ∧
    (listen (monoConfig .khz48).toAudioSettings (fun _ => none) 0 ⟨[], blankRxItem⟩
      (transmit (monoConfig .khz48).toAudioSettings 1500
        ⟨[rampItem, rampItem, rampItem], 0⟩ (List.replicate 4 blankPacket))).received =
      rampItem.data := by
  decide

end OpenAvb.Pipeline
