import OpenAvb.Pipeline.Received

/-!
# What a receive callback stores in an item

The stores that a call makes to the memory of the item at the head. They stay inside
the item for the audio format and the transport streams; a sample of 61883-6 that has
not 16 bits is stored as 32, and Motion JPEG stores as much as the frame says.
-/

namespace OpenAvb.Pipeline

open List

structure RxCall where
  full : Bool
  frame : Mem
  dataLen : UInt32
  now : Option Util.Timespec

/-- Every store is inside the item, and no item is said to hold more than its size. -/
def FitItems (itemSize : Nat) (stores : Stores) (dataLens : List Nat) : Prop :=
  Below itemSize stores ∧ ∀ n ∈ dataLens, n ≤ itemSize

theorem below_nil : Below eof [] := by simp [Below, touched]

def AudioListener.dataLens (listener : AudioListener) : List Nat :=
  (listener.pushed ++ [listener.head]).map fun item => item.data.length

theorem dataLens_place {itemSize : Nat} {listener : AudioListener} {item : AudioRxItem}
    (h : ∀ n ∈ listener.dataLens, n ≤ itemSize) (hitem : item.data.length ≤ itemSize) :
    ∀ n ∈ (listener.place itemSize item).dataLens, n ≤ itemSize := by
  have hpushed : ∀ old ∈ listener.pushed, old.data.length ≤ itemSize := fun old hold =>
    h _ (mem_map_of_mem (mem_append_left _ hold))
  intro n hn
  unfold AudioListener.place at hn
  simp only [AudioListener.dataLens, mem_map, mem_append, mem_singleton] at hn
  obtain ⟨old, hold, rfl⟩ := hn
  split at hold
  · rcases hold with hold | rfl
    · exact hpushed old hold
    · exact hitem
  · simp only [mem_append, mem_singleton] at hold
    rcases hold with (hold | rfl) | rfl
    · exact hpushed old hold
    · exact hitem
    · exact Nat.zero_le _

section Audio

def storedSample (cfg : AudioSettings) (quadlet : List UInt8) : List UInt8 :=
  if cfg.itemSampleSizeBytes = 2 then (numeral 2 (number quadlet % 2 ^ 24 / 256)).reverse
  else (numeral 4 (number quadlet % 2 ^ 24)).reverse

/-- A frame is written if it would start inside the item as the sizes have it. -/
def audioStores (cfg : AudioSettings) (listener : AudioListener) (call : RxCall) : Stores :=
  if call.full ∨ framesAt cfg call.frame = 0 ∨
      listener.head.data = [] ∧ 0 < (call.frame 27).toNat % cfg.sytInterval then []
  else
    let room := roomFrames cfg (listener.head.data.length / cfg.itemFrameSizeBytes)
    putEvery (fun i => storedSample cfg (read call.frame (32 + i * 4) 4)) cfg.sampleStep
      listener.head.data.length (min (framesAt cfg call.frame) room * cfg.audioChannels)

def audioStep (cfg : AudioSettings) (listener : AudioListener) (call : RxCall) : AudioListener :=
  audioRx cfg call.full listener call.now call.frame

variable {cfg : AudioSetup} {listener : AudioListener} {a : Nat}

theorem storedSample_quadlet (cfg : AudioSettings) (a b c d : UInt8) :
    storedSample cfg [a, b, c, d] =
      match cfg.audioBitDepth with
      | .bit16 => [c, b]
      | _ => [d, c, b, 0] := by
  have hdecoded := decodeSample_quadlet cfg a b c d
  have hlt := @number_lt [b, c, d]
  have hrest : number [a, b, c, d] % 2 ^ 24 = number [b, c, d] := by
    have hb := b.toNat_lt
    have hc := c.toNat_lt
    have hd := d.toNat_lt
    simp only [number, length_cons, length_nil]
    omega
  have hthree : ∀ n, n < 256 ^ 3 → (numeral 4 n).reverse = (numeral 3 n).reverse ++ [0] := by
    intro n hn
    rw [numeral, reverse_cons, Nat.div_eq_of_lt hn]
    rfl
  unfold decodeSample AudioSettings.sampleStep AudioSettings.sampleUnit at hdecoded
  unfold storedSample
  unfold AudioSettings.itemSampleSizeBytes at hdecoded ⊢
  cases hdepth : cfg.audioBitDepth with
  | bit16 => simpa [hdepth] using hdecoded
  | _ =>
    simp only [hdepth, Nat.reduceEqDiff, reduceIte, Nat.div_one] at hdecoded ⊢
    rw [hthree _ (by rw [hrest]; simpa using hlt), hdecoded]
    rfl

theorem storedSample_read (cfg : AudioSettings) (m : Mem) (p : Nat) :
    (storedSample cfg (read m p 4)).take cfg.sampleStep = decodeSample cfg (read m p 4) ∧
      (storedSample cfg (read m p 4)).length = 2 * cfg.sampleStep - 2 := by
  rw [read_quadlet, storedSample_quadlet, decodeSample_quadlet, AudioSettings.sampleStep,
    AudioSettings.itemSampleSizeBytes]
  cases cfg.audioBitDepth <;> exact ⟨rfl, rfl⟩

variable {call : RxCall}

/-- What the stores of a call leave behind in the item is the data that it gains. -/
theorem audioStores_stand (h : Holds cfg a listener)
    (hbusy : ¬ (call.full ∨ framesAt cfg call.frame = 0 ∨
      listener.head.data = [] ∧ 0 < (call.frame 27).toNat % cfg.sytInterval)) :
    audioStores cfg listener call =
        putEvery (fun i => storedSample cfg (read call.frame (32 + i * 4) 4)) cfg.sampleStep
          listener.head.data.length (takenAt cfg a call.frame) ∧
      Stands (look (audioStores cfg listener call)) listener.head.data.length
        (samplesAt cfg call.frame (takenAt cfg a call.frame)) ∧
      audioStep cfg listener call = listener.place cfg.itemSize
        ⟨audioTimeAt listener.head call.now call.frame,
          listener.head.data ++ samplesAt cfg call.frame (takenAt cfg a call.frame)⟩ := by
  obtain ⟨full, m, dataLen, now⟩ := call
  obtain ⟨hfull, hidle⟩ := not_or.mp hbusy
  obtain rfl : full = false := by simpa using hfull
  have hstores : audioStores cfg listener ⟨false, m, dataLen, now⟩ =
      putEvery (fun i => storedSample cfg (read m (32 + i * 4) 4)) cfg.sampleStep
        listener.head.data.length (takenAt cfg a m) := by
    rw [audioStores, if_neg hbusy, h.1, Nat.mul_div_cancel _ cfg.itemFrameSizeBytes_pos]
    rfl
  refine ⟨hstores, ?_, audioRx_fill h hidle⟩
  have hsize := cfg.sizes_cases
  have hstands := @stands_putEvery (takenAt cfg a m) cfg.sampleStep
    (fun i => storedSample cfg (read m (32 + i * 4) 4)) listener.head.data.length (fun i _ => by
      rw [(storedSample_read _ m _).2]
      omega)
  simp only [(storedSample_read _ m _).1] at hstands
  rw [hstores]
  exact hstands

/-- At every call: the samples have 16 bits, there is no item, the packet is tossed, or the frames
that are announced do not fill the item. -/
def AudioSafe (cfg : AudioSettings) (listener : AudioListener) (call : RxCall) : Prop :=
  cfg.audioBitDepth = .bit16 ∨ call.full ∨
    listener.head.data = [] ∧ 0 < (call.frame 27).toNat % cfg.sytInterval ∨
    listener.head.data.length + framesAt cfg call.frame * cfg.audioChannels * cfg.sampleStep <
      cfg.itemSize

theorem sampleStep_eq_two_iff (cfg : AudioSettings) :
    cfg.sampleStep = 2 ↔ cfg.audioBitDepth = .bit16 := by
  rw [AudioSettings.sampleStep, AudioSettings.itemSampleSizeBytes]
  cases cfg.audioBitDepth <;> decide

/-- The item at the head holds whole frames, and no item holds more than its size. -/
def AudioWhole (cfg : AudioSettings) (listener : AudioListener) : Prop :=
  (∃ a, Holds cfg a listener) ∧ ∀ n ∈ listener.dataLens, n ≤ cfg.itemSize

theorem length_filled (h : Holds cfg a listener) (m : Mem) :
    (listener.head.data ++ samplesAt cfg m (takenAt cfg a m)).length =
      (a + min (framesAt cfg m) (roomFrames cfg a) * cfg.framePlaces) * cfg.itemFrameSizeBytes := by
  rw [length_append, samplesAt, length_gather fun _ => length_decodeSample _, h.1, takenAt,
    length_frames, add_mul]

theorem audioStep_idle (h : call.full ∨ framesAt cfg call.frame = 0 ∨
      listener.head.data = [] ∧ 0 < (call.frame 27).toNat % cfg.sytInterval) :
    audioStep cfg listener call = listener := by
  rcases h with hfull | hidle
  · simp [audioStep, audioRx, hfull]
  · exact audioRx_idle hidle

theorem audioStep_holds (h : Holds cfg a listener) (call : RxCall) :
    ∃ a', Holds cfg a' (audioStep cfg listener call) := by
  by_cases hidle : call.full ∨ framesAt cfg call.frame = 0 ∨
      listener.head.data = [] ∧ 0 < (call.frame 27).toNat % cfg.sytInterval
  · rw [audioStep_idle hidle]
    exact ⟨a, h⟩
  · obtain ⟨-, -, hfill⟩ := audioStores_stand h hidle
    rw [hfill]
    unfold AudioListener.place
    split
    case isTrue hroom =>
      refine ⟨_, length_filled h call.frame, ?_⟩
      simp only [length_filled h, AudioSettings.itemSize, mul_comm cfg.itemFrameSizeBytes] at hroom
      exact Nat.lt_of_mul_lt_mul_right hroom
    case isFalse => exact ⟨0, by simp [blankRxItem], cfg.framesPerItem_pos⟩

theorem audio_fits_iff (h : AudioWhole cfg listener) (call : RxCall) :
    FitItems cfg.itemSize (audioStores cfg listener call) (audioStep cfg listener call).dataLens ↔
      AudioSafe cfg listener call := by
  obtain ⟨⟨a, hholds⟩, hlens⟩ := h
  have hsizes := cfg.sizes_cases
  have hsize : cfg.itemSize = cfg.framesPerItem * cfg.itemFrameSizeBytes := Nat.mul_comm _ _
  have hlt := hholds.2
  have hfill : listener.head.data.length +
      framesAt cfg call.frame * cfg.audioChannels * cfg.sampleStep < cfg.itemSize ↔
      a + framesAt cfg call.frame * cfg.framePlaces < cfg.framesPerItem := by
    rw [hholds.1, length_frames, ← Nat.add_mul, hsize]
    exact Nat.mul_lt_mul_right cfg.itemFrameSizeBytes_pos
  unfold AudioSafe
  rw [hfill]
  by_cases hidle : call.full ∨ framesAt cfg call.frame = 0 ∨
      listener.head.data = [] ∧ 0 < (call.frame 27).toNat % cfg.sytInterval
  case pos =>
    rw [audioStep_idle hidle, audioStores, if_pos hidle]
    refine iff_of_true ⟨below_nil, hlens⟩ ?_
    rcases hidle with hfull | hnone | htoss
    · exact .inr (.inl hfull)
    · exact .inr (.inr (.inr (by rw [hnone]; omega)))
    · exact .inr (.inr (.inl htoss))
  case neg =>
    obtain ⟨hstores, -, hstep⟩ := audioStores_stand hholds hidle
    obtain ⟨hfull, hbusy⟩ := not_or.mp hidle
    obtain ⟨hframes, htoss⟩ := not_or.mp hbusy
    have hend := length_filled hholds call.frame
    have hdata : (samplesAt cfg call.frame (takenAt cfg a call.frame)).length =
        takenAt cfg a call.frame * cfg.sampleStep := length_gather fun _ => length_decodeSample _
    have hwritten := hend
    obtain ⟨N, hN⟩ := Nat.exists_eq_add_of_lt (takenAt_pos hholds hframes)
    rw [length_append, hdata, hN, zero_add, Nat.succ_mul] at hwritten
    -- the last sample is stored furthest, and the data does not go beyond it
    have hbelow : Below cfg.itemSize (audioStores cfg listener call) ↔
        listener.head.data.length + N * cfg.sampleStep + (2 * cfg.sampleStep - 2) ≤ cfg.itemSize := by
      rw [hstores, below_putEvery, hN]
      simp only [(storedSample_read _ call.frame _).2]
      have hstored : ∀ i, storedSample cfg (read call.frame (32 + i * 4) 4) ≠ [] := by
        intro i hnil
        have hlen := (storedSample_read cfg call.frame (32 + i * 4)).2
        rw [hnil, length_nil] at hlen
        omega
      refine ⟨fun hall => hall N (by omega) (hstored N), fun hlast i hi _ => ?_⟩
      have hle : i * cfg.sampleStep ≤ N * cfg.sampleStep := Nat.mul_le_mul_right _ (by omega)
      omega
    have hfits : FitItems cfg.itemSize (audioStores cfg listener call)
        (audioStep cfg listener call).dataLens ↔ (a + min (framesAt cfg call.frame)
          (roomFrames cfg a) * cfg.framePlaces) * cfg.itemFrameSizeBytes + (cfg.sampleStep - 2) ≤
            cfg.framesPerItem * cfg.itemFrameSizeBytes := by
      rw [FitItems, hbelow, ← hwritten, ← hsize, hstep]
      refine ⟨fun hfit => by omega, fun hle => ⟨by omega, dataLens_place hlens ?_⟩⟩
      show (listener.head.data ++ samplesAt cfg call.frame (takenAt cfg a call.frame)).length ≤ _
      rw [hend, ← hwritten]
      omega
    rw [hfits, or_iff_right hfull, or_iff_right htoss, ← sampleStep_eq_two_iff]
    have hroom : a + min (framesAt cfg call.frame) (roomFrames cfg a) * cfg.framePlaces <
          cfg.framesPerItem ↔ a + framesAt cfg call.frame * cfg.framePlaces < cfg.framesPerItem := by
      unfold roomFrames
      rcases hsizes with ⟨-, -, hplaces⟩ | ⟨-, -, hplaces⟩ | ⟨-, -, hplaces⟩ <;>
        rw [hplaces] <;> omega
    by_cases htwo : cfg.sampleStep = 2
    · refine iff_of_true ?_ (.inl htwo)
      have hplaces : cfg.framePlaces = 1 := by omega
      rw [htwo, Nat.sub_self, Nat.add_zero]
      refine Nat.mul_le_mul_right _ ?_
      rw [roomFrames, hplaces]
      omega
    · have hthree : cfg.sampleStep - 2 = 1 := by omega
      rw [or_iff_right htwo, ← hroom, hthree]
      exact Nat.mul_lt_mul_right cfg.itemFrameSizeBytes_pos

end Audio

namespace Mpeg2ts

/-- The stores of `openavbMapMpeg2tsRxCB`: as many packets as there is room for. -/
def stores (cfg : Settings) (itemSize : Nat) (listener : Listener) (call : RxCall) : Stores :=
  if call.full ∨ 0 < (call.frame 27).toNat % 8 ∨ countAt call.frame = 0 then []
  else
    let room := (itemSize - listener.head.data.length) / cfg.tsPacketSize
    putEvery (fun i => read call.frame (32 + i * srcPktSize + (srcPktSize - cfg.tsPacketSize))
      cfg.tsPacketSize) cfg.tsPacketSize listener.head.data.length
      (min (countAt call.frame) room)

def step (cfg : Settings) (itemSize : Nat) (listener : Listener) (call : RxCall) : Listener :=
  rx cfg itemSize call.full listener call.now call.frame

def Listener.dataLens (listener : Listener) : List Nat :=
  (listener.pushed ++ [listener.head]).map fun item => item.data.length

variable {cfg : Config} {itemSize : Nat} {listener : Listener}

theorem stores_stand
    (hbusy : ¬ (call.full ∨ 0 < (call.frame 27).toNat % 8 ∨ countAt call.frame = 0))
    (hfits : listener.head.data.length + countAt call.frame * cfg.tsPacketSize ≤ itemSize) :
    Stands (look (stores cfg itemSize listener call)) listener.head.data.length
        (packetsAt cfg call.frame (countAt call.frame)) ∧
      (step cfg itemSize listener call).pushed.map (·.data) = listener.pushed.map (·.data) ++
          [listener.head.data ++ packetsAt cfg call.frame (countAt call.frame)] := by
  obtain ⟨full, m, dataLen, now⟩ := call
  obtain ⟨hfull, hidle⟩ := not_or.mp hbusy
  obtain ⟨hblocks, hzero⟩ := not_or.mp hidle
  obtain rfl : full = false := by simpa using hfull
  have hroom : countAt m ≤ (itemSize - listener.head.data.length) / cfg.tsPacketSize :=
    (Nat.le_div_iff_mul_le (tsPacketSize_bounds cfg).1).mpr (Nat.le_sub_of_add_le' hfits)
  constructor
  · rw [stores, if_neg hbusy]
    simp only [min_eq_left hroom]
    have hstands := @stands_putEvery (countAt m) cfg.tsPacketSize
      (fun i => read m (32 + i * srcPktSize + (srcPktSize - cfg.tsPacketSize)) cfg.tsPacketSize)
      listener.head.data.length (fun i _ => by rw [length_read])
    have hwhole : ∀ p, (read m p cfg.tsPacketSize).take cfg.tsPacketSize =
        read m p cfg.tsPacketSize := fun p => take_of_length_le (by rw [length_read])
    simp only [hwhole] at hstands
    exact hstands
  · have hdata : dataAt cfg itemSize listener m =
        listener.head.data ++ packetsAt cfg m (countAt m) := if_pos hfits
    rw [step, rx_push hblocks (Nat.pos_of_ne_zero hzero), hdata]
    simp

theorem fits (h : ∀ n ∈ listener.dataLens, n ≤ itemSize) (call : RxCall) :
    FitItems itemSize (stores cfg itemSize listener call)
      (step cfg itemSize listener call).dataLens := by
  obtain ⟨full, m, dataLen, now⟩ := call
  have hhead : listener.head.data.length ≤ itemSize :=
    h _ (mem_map_of_mem (mem_append_right _ (mem_singleton_self _)))
  constructor
  · unfold stores
    split
    · exact below_nil
    · refine below_putEvery.mpr fun i hi _ => ?_
      have hroom : i + 1 ≤ (itemSize - listener.head.data.length) / cfg.tsPacketSize := by omega
      have hmul := (Nat.le_div_iff_mul_le (tsPacketSize_bounds cfg).1).mp hroom
      rw [Nat.succ_mul] at hmul
      rw [length_read]
      omega
  · unfold step
    by_cases hidle : 0 < (m 27).toNat % 8 ∨ countAt m = 0
    · rw [rx_idle hidle]
      exact h
    obtain ⟨hblocks, hzero⟩ := not_or.mp hidle
    cases full with
    | true =>
      exact h
    | false =>
      have hdata : (dataAt cfg itemSize listener m).length ≤ itemSize := by
        unfold dataAt
        split
        case isTrue hfits => rwa [length_append, packetsAt, length_gather fun _ => length_read]
        case isFalse => exact Nat.zero_le _
      rw [rx_push hblocks (Nat.pos_of_ne_zero hzero)]
      intro n hn
      simp only [Listener.dataLens, append_assoc, map_append, mem_append,
        map_cons, map_nil, mem_cons, singleton_append, not_mem_nil, or_false] at hn
      rcases hn with hn | rfl | rfl
      · exact h n (by rw [Listener.dataLens, map_append]; exact mem_append_left _ hn)
      · exact hdata
      · exact Nat.zero_le _

end Mpeg2ts

namespace Aaf

def stores (cfg : Settings) (l : Listener) (call : RxCall) : Stores :=
  if (¬ Accepted cfg call.dataLen call.frame ∨ call.full) ∨
      l.head.data = [] ∧ ¬ (flagAt call.frame 1 0x01 ∨ l.mediaQItemSyncTS) then []
  else if cfg.bigEndian then put [] l.head.data.length (read call.frame 24 cfg.payloadSize)
  else
    putEvery (fun i => (read call.frame (24 + i * cfg.format.sampleSizeBytes)
      cfg.format.sampleSizeBytes).reverse) cfg.format.sampleSizeBytes l.head.data.length
      cfg.samplesPerPacket

def step (cfg : Settings) (l : Listener) (call : RxCall) : Listener :=
  rxCB cfg call.full l call.dataLen call.now call.frame

variable {cfg : Config} {l : Listener} {m : Mem}

theorem step_cases (cfg : Settings) (l : Listener) (call : RxCall) (eof : Nat) :
    (stores cfg l call = [] ∧ ((step cfg l call).toAudioListener = l.toAudioListener ∨
        ∃ time, l.head.data = [] ∧ (step cfg l call).toAudioListener =
          l.toAudioListener.place cfg.itemSize ⟨time, []⟩)) ∨
    (Stands (look (stores cfg l call)) l.head.data.length
        (swapSamples cfg (read call.frame 24 cfg.payloadSize)) ∧
      (l.head.data.length + cfg.payloadSize ≤ eof → Below eof (stores cfg l call)) ∧
      ∃ time, (step cfg l call).toAudioListener = l.toAudioListener.place cfg.itemSize
        ⟨time, l.head.data ++ swapSamples cfg (read call.frame 24 cfg.payloadSize)⟩) := by
  obtain ⟨full, m, dataLen, now⟩ := call
  by_cases hno : ¬ Accepted cfg dataLen m ∨ full
  · refine .inl ⟨if_pos (.inl hno), .inl ?_⟩
    rw [step, rxCB, if_pos hno]
  by_cases hwait : l.head.data = [] ∧ ¬ (flagAt m 1 0x01 ∨ l.mediaQItemSyncTS)
  · refine .inl ⟨if_pos (.inr hwait), .inr ⟨itemTime cfg l.head.pAvtpTime now m, hwait.1, ?_⟩⟩
    rw [step, rxCB, if_neg hno, if_pos hwait.1, if_neg hwait.2]
  have hbusy : ¬ ((¬ Accepted cfg dataLen m ∨ full) ∨
      l.head.data = [] ∧ ¬ (flagAt m 1 0x01 ∨ l.mediaQItemSyncTS)) := not_or.mpr ⟨hno, hwait⟩
  refine .inr ⟨?_, fun hend => ?_, ?_⟩
  · rw [stores, if_neg hbusy, swapSamples_read]
    split
    · exact stands_put
    · have hstands := @stands_putEvery cfg.samplesPerPacket cfg.format.sampleSizeBytes
        (fun i => (read m (24 + i * cfg.format.sampleSizeBytes) cfg.format.sampleSizeBytes).reverse)
        l.head.data.length (fun i _ => by rw [length_reverse, length_read])
      have hwhole : ∀ p, (read m p cfg.format.sampleSizeBytes).reverse.take
          cfg.format.sampleSizeBytes = (read m p cfg.format.sampleSizeBytes).reverse := fun p =>
        take_of_length_le (by rw [length_reverse, length_read])
      simp only [hwhole] at hstands
      exact hstands
  · rw [stores, if_neg hbusy]
    split
    · refine below_put.mpr ⟨fun _ => ?_, below_nil⟩
      rwa [length_read]
    · refine below_putEvery.mpr fun i hi _ => ?_
      have hmul : (i + 1) * cfg.format.sampleSizeBytes ≤ cfg.payloadSize :=
        Nat.mul_le_mul_right _ hi
      rw [Nat.succ_mul] at hmul
      rw [length_reverse, length_read]
      omega
  · by_cases hempty : l.head.data = []
    case pos =>
      have hstart : flagAt m 1 0x01 ∨ l.mediaQItemSyncTS :=
        Classical.not_not.mp fun h => hwait ⟨hempty, h⟩
      refine ⟨itemTime cfg l.head.pAvtpTime now m, ?_⟩
      rw [step, rxCB, if_neg hno, if_pos hempty, if_pos hstart, hempty, nil_append]
    case neg =>
      refine ⟨l.head.pAvtpTime, ?_⟩
      rw [step, rxCB, if_neg hno, if_neg hempty]

/-- The head holds whole payloads and has room for another; no item exceeds its size. -/
def Whole (cfg : Settings) (l : Listener) : Prop :=
  (∃ k < cfg.packingFactor, l.head.data.length = k * cfg.payloadSize) ∧
    ∀ n ∈ l.dataLens, n ≤ cfg.itemSize

theorem whole_place (cfg : Config) {listener : AudioListener} {item : AudioRxItem} {k : Nat}
    (h : ∀ n ∈ listener.dataLens, n ≤ cfg.itemSize) (hk : k ≤ cfg.packingFactor)
    (hlen : item.data.length = k * cfg.payloadSize) : (∃ k < cfg.packingFactor,
        (listener.place cfg.itemSize item).head.data.length = k * cfg.payloadSize) ∧
      ∀ n ∈ (listener.place cfg.itemSize item).dataLens, n ≤ cfg.itemSize := by
  have hsize : cfg.itemSize = cfg.packingFactor * cfg.payloadSize := mul_comm _ _
  refine ⟨?_, dataLens_place h ?_⟩
  · unfold AudioListener.place
    split
    case isTrue hroom =>
      rw [hlen, hsize] at hroom
      exact ⟨k, Nat.lt_of_mul_lt_mul_right hroom, hlen⟩
    case isFalse => exact ⟨0, cfg.packing_pos, by simp [blankRxItem]⟩
  · rw [hlen, hsize]
    exact Nat.mul_le_mul_right _ hk

theorem step_fits (h : Whole cfg l) (call : RxCall) : Whole cfg (step cfg l call) ∧
      FitItems cfg.itemSize (stores cfg l call) (step cfg l call).dataLens := by
  obtain ⟨⟨k, hk, hlen⟩, hlens⟩ := h
  have hsize : cfg.itemSize = cfg.packingFactor * cfg.payloadSize := mul_comm _ _
  have hend : l.head.data.length + cfg.payloadSize ≤ cfg.itemSize := by
    rw [hlen, hsize, ← Nat.succ_mul]
    exact Nat.mul_le_mul_right _ hk
  unfold Whole
  rcases step_cases cfg l call cfg.itemSize with
    ⟨hnone, hstep⟩ | ⟨-, hbelow, time, hstep⟩
  · rw [hnone]
    have hsame : (∃ k < cfg.packingFactor,
        (step cfg l call).head.data.length = k * cfg.payloadSize) ∧
        ∀ n ∈ (step cfg l call).dataLens, n ≤ cfg.itemSize := by
      rcases hstep with hstep | ⟨time, -, hstep⟩
      · rw [hstep]
        exact ⟨⟨k, hk, hlen⟩, hlens⟩
      · rw [hstep]
        exact whole_place cfg hlens (Nat.zero_le _) (by simp)
    exact ⟨hsame, below_nil, hsame.2⟩
  · have hdata : (l.head.data ++ swapSamples cfg
        (read call.frame 24 cfg.payloadSize)).length = (k + 1) * cfg.payloadSize := by
      rw [length_append, length_swapSamples_read, hlen, Nat.succ_mul]
    have hgrown := @whole_place cfg _ ⟨time, _⟩ (k + 1) hlens hk hdata
    rw [hstep]
    exact ⟨hgrown, hbelow hend, hgrown.2⟩

end Aaf

namespace Mjpeg

def stores (call : RxCall) : Stores :=
  if call.full ∨ itemSize < call.dataLen - totalHeaderSize then []
  else put [] 0 (read call.frame 24 (payloadLen call.frame))

def step (listener : Listener) (call : RxCall) : Listener :=
  rxCB call.full listener call.frame call.dataLen call.now

def Listener.dataLens (listener : Listener) : List Nat :=
  (listener.pushed ++ [listener.head]).map fun item => item.data.length

def Safe (call : RxCall) : Prop :=
  call.full ∨ itemSize < call.dataLen - totalHeaderSize ∨ payloadLen call.frame ≤ itemSize.toNat

theorem stores_stand (call : RxCall) (h : call.full = false) :
    Stands (look (stores call)) 0 (copied call.frame call.dataLen) := by
  unfold stores copied
  by_cases hlarge : itemSize < call.dataLen - totalHeaderSize
  · rw [if_pos (.inr hlarge), if_neg (UInt32.not_le.mpr hlarge)]
    exact stands_nil
  · rw [if_neg (by simp [h, hlarge]), if_pos (UInt32.not_lt.mp hlarge)]
    exact stands_put

theorem fits_iff {listener : Listener} (h : ∀ n ∈ listener.dataLens, n ≤ itemSize.toNat)
    (call : RxCall) :
    FitItems itemSize.toNat (stores call) (step listener call).dataLens ↔ Safe call := by
  obtain ⟨full, m, dataLen, now⟩ := call
  have hpushed : ∀ item ∈ listener.pushed, item.data.length ≤ itemSize.toNat := fun item hitem =>
    h _ (mem_map_of_mem (mem_append_left _ hitem))
  unfold FitItems stores step Safe
  cases full with
  | true =>
    refine iff_of_true ⟨?_, ?_⟩ (.inl rfl)
    · rw [if_pos (.inl rfl)]
      exact below_nil
    · simp only [rxCB, if_true]
      exact h
  | false =>
    obtain ⟨item, hitems, -, hdata⟩ := pushed_rxCB listener m dataLen now
    have hlens : (∀ n ∈ (rxCB false listener m dataLen now).dataLens, n ≤ itemSize.toNat) ↔
        (copied m dataLen).length ≤ itemSize.toNat := by
      have hhead : (rxCB false listener m dataLen now).head = blankRxItem := rfl
      simp only [Listener.dataLens, hitems, hhead, mem_map, mem_append,
        mem_singleton, forall_exists_index, and_imp, forall_apply_eq_imp_iff₂]
      constructor
      · intro hall
        have := hall item (.inl (.inr rfl))
        rwa [hdata] at this
      · rintro hle old ((hold | rfl) | rfl)
        · exact hpushed old hold
        · rwa [hdata]
        · exact Nat.zero_le _
    rw [hlens, copied]
    by_cases hlarge : itemSize < dataLen - totalHeaderSize
    case pos =>
      refine iff_of_true ⟨?_, ?_⟩ (.inr (.inl hlarge))
      · rw [if_pos (.inr hlarge)]
        exact below_nil
      · rw [if_neg (UInt32.not_le.mpr hlarge)]
        exact Nat.zero_le _
    case neg =>
      rw [if_neg (by simp [hlarge]), if_pos (UInt32.not_lt.mp hlarge), length_read,
        or_iff_right (by simp), or_iff_right hlarge]
      refine ⟨And.right, fun hle => ⟨below_put.mpr ⟨fun _ => ?_, below_nil⟩, hle⟩⟩
      rwa [length_read, zero_add]

end Mjpeg

/-- The items are filled within their size: always by the audio format and the transport streams,
and by the other two iff no sample but of 16 bits comes to the end of an item and no length field
is larger than one. -/
theorem items_filled_within_size (calls : List RxCall) : (∀ cfg : AudioSetup,
      Each (audioStep cfg.toAudioSettings) (fun listener call => FitItems cfg.itemSize
            (audioStores cfg.toAudioSettings listener call)
            (audioStep cfg.toAudioSettings listener call).dataLens) ⟨[], blankRxItem⟩ calls ↔
        Each (audioStep cfg.toAudioSettings) (AudioSafe cfg.toAudioSettings)
          ⟨[], blankRxItem⟩ calls) ∧ (∀ (cfg : Mpeg2ts.Config) (itemSize : Nat),
      Each (Mpeg2ts.step cfg.toSettings itemSize) (fun listener call => FitItems itemSize
          (Mpeg2ts.stores cfg.toSettings itemSize listener call)
          (Mpeg2ts.step cfg.toSettings itemSize listener call).dataLens)
        Mpeg2ts.initListener calls) ∧ (∀ cfg : Aaf.Config, Each (Aaf.step cfg.toSettings)
        (fun l call => FitItems cfg.itemSize (Aaf.stores cfg.toSettings l call)
          (Aaf.step cfg.toSettings l call).dataLens) Aaf.initListener calls) ∧ (Each Mjpeg.step
        (fun listener call => FitItems Mjpeg.itemSize.toNat (Mjpeg.stores call)
          (Mjpeg.step listener call).dataLens) ⟨[], Mjpeg.blankRxItem⟩ calls ↔
      ∀ call ∈ calls, Mjpeg.Safe call) := by
  refine ⟨fun cfg => ?_, fun cfg itemSize => ?_, fun cfg => ?_, ?_⟩
  · refine each_iff_of_inv (fun _ call h => audio_fits_iff h call)
      (fun _ call h hfit => ⟨h.1.elim fun _ hholds => audioStep_holds hholds call, hfit.2⟩)
      ⟨⟨0, ?_, cfg.framesPerItem_pos⟩, ?_⟩
    · simp [blankRxItem]
    · simp [AudioListener.dataLens, blankRxItem]
  · have hall := always_of_step (P := fun listener : Mpeg2ts.Listener =>
      ∀ n ∈ listener.dataLens, n ≤ itemSize)
      (fun _ call h => (@Mpeg2ts.fits cfg itemSize _ h call).2)
      (s := Mpeg2ts.initListener)
      (by simp [Mpeg2ts.Listener.dataLens, Mpeg2ts.initListener, Mpeg2ts.blankRxItem]) calls
    exact (each_true _ calls).imp_of_always hall fun _ call h _ => Mpeg2ts.fits h call
  · have hall := always_of_step (P := Aaf.Whole cfg)
      (fun _ call h => (Aaf.step_fits h call).1) (s := Aaf.initListener)
      ⟨⟨0, cfg.packing_pos, by simp [Aaf.initListener, blankRxItem]⟩, by
        simp [AudioListener.dataLens, Aaf.initListener, blankRxItem]⟩ calls
    exact (each_true _ calls).imp_of_always hall fun _ call h _ => (Aaf.step_fits h call).2
  · have hforall : Each Mjpeg.step (fun _ call => Mjpeg.Safe call) ⟨[], Mjpeg.blankRxItem⟩ calls ↔
        ∀ call ∈ calls, Mjpeg.Safe call := each_iff_forall
    rw [← hforall]
    refine each_iff_of_inv (I := fun listener : Mjpeg.Listener =>
      ∀ n ∈ listener.dataLens, n ≤ Mjpeg.itemSize.toNat)
      (fun _ call h => Mjpeg.fits_iff h call) (fun _ call _ hfit => hfit.2) ?_
    simp [Mjpeg.Listener.dataLens, Mjpeg.blankRxItem]

/-- A frame of eight 24-bit samples fills an item of 24 octets and is stored in 25; one of seven
samples of another depth fills an item of 8 octets with 9 and is stored in 10; and a frame of Motion
JPEG that announces 1413 octets is stored in an item of 1412. -/
theorem items_overrun :
    let deep : AudioSettings := { (monoConfig .khz48).toAudioSettings with audioBitDepth := .bit24 }
    let other : AudioSettings := { deep with audioBitDepth := .other }
    let sound : RxCall := ⟨false, recvBuffer (headers 32 20 [0, 40]) fun _ => 7, 64, none⟩
    let short : RxCall := ⟨false, recvBuffer (headers 32 20 [0, 36]) fun _ => 7, 60, none⟩
    let picture : RxCall := ⟨false, recvBuffer (headers 24 20 [0x85, 0x05]) fun _ => 7, 1436, none⟩
    deep.itemSize = 24 ∧ 24 ∈ touched (audioStores deep ⟨[], blankRxItem⟩ sound) ∧
      other.itemSize = 8 ∧ 9 ∈ touched (audioStores other ⟨[], blankRxItem⟩ short) ∧
      (audioStep other ⟨[], blankRxItem⟩ short).dataLens = [9, 0] ∧
      1412 ∈ touched (Mjpeg.stores picture) ∧
      (Mjpeg.step ⟨[], Mjpeg.blankRxItem⟩ picture).dataLens = [1413, 0] := by
  decide +kernel

end OpenAvb.Pipeline
