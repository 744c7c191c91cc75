import OpenAvb.Pipeline.AafMap
import OpenAvb.Pipeline.ClkRef
import OpenAvb.Pipeline.Mpeg2tsMapLaws
import OpenAvb.Layout

/-!
# The listeners on the octets of a receive buffer

A receive callback finds header fields at fixed offsets and the end of the payload
from a length field: what it takes for the packet is a function of the memory at the
frame's address. `full`: the media queue has no item to fill.
-/

namespace OpenAvb.Pipeline

variable {m m' : Mem} {i : Nat}

def audioPacketAt (m : Mem) : AudioPacket where
  timestampValid := flagAt m 1 0x01
  timestampUncertain := flagAt m 3 0x01
  avtpTimestamp := timestampAt m
  streamDataLen := UInt16.ofNat (word m 20)
  dbs := m 25
  dbc := m 27
  sfc := m 29 &&& 0x07
  payload := read m 32 (word m 20 - 8)

section

variable (cfg : AudioSettings)

/-- `openavbMapUncmpAudioRxCB` -/
def audioRx (full : Bool) (listener : AudioListener) (now : Option Util.Timespec)
    (m : Mem) : AudioListener :=
  if full then listener else rxCB cfg listener (audioPacketAt m) now

def framesAt (m : Mem) : Nat := (word m 20 - 8) / cfg.packetFrameSizeBytes

theorem packetFrames_at (m : Mem) : packetFrames cfg (audioPacketAt m) = framesAt cfg m := by
  have hlen : (UInt16.ofNat (word m 20)).toNat = word m 20 := by
    rw [UInt16.toNat_ofNat']
    exact Nat.mod_eq_of_lt word_lt
  rw [packetFrames, audioPacketAt, hlen, framesAt]

theorem decodeSample_quadlet (a b c d : UInt8) :
    decodeSample cfg [a, b, c, d] =
      match cfg.audioBitDepth with
      | .bit16 => [c, b]
      | _ => [d, c, b] := by
  have hb := b.toNat_lt
  have hc := c.toNat_lt
  have hd := d.toNat_lt
  have hback : ∀ xs : List UInt8, numeral xs.length (number xs) = xs := fun xs =>
    number_inj length_numeral (by rw [number_numeral, Nat.mod_eq_of_lt number_lt])
  have hrest : number [a, b, c, d] % 2 ^ 24 = number [b, c, d] := by
    simp only [number, List.length_cons, List.length_nil]
    omega
  have hupper : number [b, c, d] / 256 = number [b, c] := by
    simp only [number, List.length_cons, List.length_nil]
    omega
  unfold decodeSample AudioSettings.sampleStep AudioSettings.sampleUnit
    AudioSettings.itemSampleSizeBytes
  rw [hrest]
  cases cfg.audioBitDepth with
  | bit16 => exact (congrArg (List.reverse ∘ numeral 2) hupper).trans (congrArg _ (hback [b, c]))
  | _ =>
    exact (congrArg (List.reverse ∘ numeral 3) (Nat.div_one _)).trans
      (congrArg _ (hback [b, c, d]))

def samplesAt (m : Mem) (n : Nat) : List UInt8 :=
  gather (fun q => decodeSample cfg (read m q 4)) 4 32 n

end

namespace Mpeg2ts

def frameAt (m : Mem) : Frame where
  timestampValid := flagAt m 1 0x01
  timestampUncertain := flagAt m 3 0x01
  avtpTimestamp := timestampAt m
  streamDataLen := UInt16.ofNat (word m 20)
  dbc := m 27
  payload := read m 32 (word m 20 - cipHeaderSize)

/-- `openavbMapMpeg2tsRxCB` -/
def rx (cfg : Settings) (itemSize : Nat) (full : Bool) (listener : Listener)
    (now : Option Util.Timespec) (m : Mem) : Listener :=
  if full then listener else rxCB cfg itemSize listener (frameAt m) now

def countAt (m : Mem) : Nat := (word m 20 - cipHeaderSize) / srcPktSize % 256

theorem sourcePacketCount_at (m : Mem) : (sourcePacketCount (frameAt m)).toNat = countAt m := by
  have hlen : (UInt16.ofNat (word m 20)).toNat = word m 20 := by
    rw [UInt16.toNat_ofNat']
    exact Nat.mod_eq_of_lt word_lt
  rw [sourcePacketCount, frameAt, UInt8.toNat_ofNat', hlen, countAt]

theorem countAt_mul_le (m : Mem) : countAt m * srcPktSize ≤ word m 20 - cipHeaderSize :=
  le_trans (Nat.mul_le_mul_right _ (Nat.mod_le _ _)) (Nat.div_mul_le_self _ _)

def packetsAt (cfg : Settings) (m : Mem) (n : Nat) : List UInt8 :=
  gather (fun q => read m (q + (srcPktSize - cfg.tsPacketSize)) cfg.tsPacketSize) srcPktSize 32 n

end Mpeg2ts

namespace ClkRef

def stampAt (m : Mem) (i : Nat) : UInt64 :=
  UInt64.ofNat (number (read m (totalHeaderSize + i * crfTimestampSize) crfTimestampSize))

def countAt (m : Mem) : Nat := word m 16 / crfTimestampSize

def packetAt (m : Mem) : Packet where
  clockRestartFlag := flagAt m 1 0x08
  tsUncertain := flagAt m 1 0x01
  sequenceNumber := m 2
  dataLen := UInt16.ofNat (word m 16)
  timestampInterval := UInt16.ofNat (word m 18)
  timestamps := (List.range (countAt m)).map (stampAt m)

/-- `openavbMapClkRefRxCB` -/
def rx (cfg : Settings) (l : Listener) (m : Mem) : Listener := rxCB cfg l (packetAt m)

theorem received_at (m : Mem) :
    (packetAt m).received = (List.range (countAt m)).map (stampAt m) := by
  have hlen : (UInt16.ofNat (word m 16)).toNat = word m 16 := by
    rw [UInt16.toNat_ofNat']
    exact Nat.mod_eq_of_lt word_lt
  rw [Packet.received, packetAt, hlen]
  exact List.take_of_length_le (by simp [countAt])

theorem stampAt_inj (h : stampAt m i = stampAt m' i) :
    read m (totalHeaderSize + i * crfTimestampSize) crfTimestampSize =
      read m' (totalHeaderSize + i * crfTimestampSize) crfTimestampSize := by
  have hlt : ∀ m : Mem, number (read m (totalHeaderSize + i * crfTimestampSize) crfTimestampSize) <
      2 ^ 64 := fun m => by
    have := @number_lt (read m (totalHeaderSize + i * crfTimestampSize) crfTimestampSize)
    rwa [length_read] at this
  refine number_inj (by simp) ?_
  have hnat := congrArg UInt64.toNat h
  rwa [stampAt, stampAt, UInt64.toNat_ofNat', UInt64.toNat_ofNat', Nat.mod_eq_of_lt (hlt m),
    Nat.mod_eq_of_lt (hlt m')] at hnat

end ClkRef

/-! ## What a receive callback reads -/

open Function List

variable {m m' : Mem} {n i : Nat}

theorem flagAt_agree (h : ∀ i < n, m' i = m i) (hi : i < n) (mask : UInt8) :
    flagAt m' i mask = flagAt m i mask := by
  rw [flagAt, flagAt, h i hi]

theorem timestampAt_agree (h : ∀ i < n, m' i = m i) (hn : 16 ≤ n) :
    timestampAt m' = timestampAt m := by
  rw [timestampAt, timestampAt, read_agree h hn]

/-! ## Motion JPEG

A frame fills one item of the media queue. The length of the payload is taken from its
header, in the byte order of the machine; the size of an item is compared with the
length of the frame. -/

namespace Mjpeg

def totalHeaderSize : UInt32 := 24

def itemSize : UInt32 := 1412

structure RxItem where
  pAvtpTime : AvtpTime
  lastFragment : Bool
  data : List UInt8

structure Listener where
  pushed : List RxItem
  head : RxItem

def blankRxItem : RxItem := ⟨⟨0, 0, false, false⟩, false, []⟩

def payloadLen (m : Mem) : Nat := (m 20).toNat + 256 * (m 21).toNat

/-- The octets copied to the item; a frame that is too large leaves it empty. -/
def copied (m : Mem) (dataLen : UInt32) : List UInt8 :=
  if dataLen - totalHeaderSize ≤ itemSize then read m 24 (payloadLen m) else []

/-- `openavbMapMjpegRxCB`; nothing is done if the media queue is full. -/
def rxCB (full : Bool) (listener : Listener) (m : Mem) (dataLen : UInt32)
    (now : Option Util.Timespec) : Listener :=
  if full then listener
  else
    let item : RxItem :=
      { pAvtpTime := { openavbAvtpTimeSetToTimestamp listener.head.pAvtpTime (timestampAt m) now with
          bTimestampValid := flagAt m 1 0x01
          bTimestampUncertain := flagAt m 3 0x01 }
        lastFragment := flagAt m 22 0x10
        data := copied m dataLen }
    { pushed := listener.pushed ++ [item], head := blankRxItem }

variable {full : Bool} {listener : Listener} {dataLen : UInt32} {now : Option Util.Timespec}

/-- The frame is known to be dropped or to be too large, or its payload was received. -/
def Inside (full : Bool) (dataLen : UInt32) (m : Mem) : Prop :=
  full ∨ 23 ≤ dataLen.toNat ∧
    (itemSize < dataLen - totalHeaderSize ∨ payloadLen m = 0 ∨ 24 + payloadLen m ≤ dataLen.toNat)

theorem payloadLen_agree (h : ∀ i < n, m' i = m i) (hn : 22 ≤ n) :
    payloadLen m' = payloadLen m := by
  rw [payloadLen, payloadLen, h 20 (by omega), h 21 (by omega)]

theorem copied_agree (h : ∀ i < dataLen.toNat, m' i = m i) (hn : 23 ≤ dataLen.toNat)
    (hin : itemSize < dataLen - totalHeaderSize ∨ payloadLen m = 0 ∨
      24 + payloadLen m ≤ dataLen.toNat) : copied m' dataLen = copied m dataLen := by
  unfold copied
  split
  case isFalse => rfl
  case isTrue hsize =>
    rw [payloadLen_agree h (by omega)]
    rcases hin with hlarge | hzero | hfits
    · exact absurd hsize (UInt32.not_le.mpr hlarge)
    · rw [hzero]
      rfl
    · exact read_agree h hfits

theorem settled_of_inside (h : Inside full dataLen m) :
    Settled dataLen.toNat (rxCB full listener · dataLen now) m := by
  intro m' hm
  rcases h with rfl | ⟨hn, hin⟩
  · simp [rxCB]
  · simp [rxCB, timestampAt_agree hm (by omega), flagAt_agree hm (show 1 < _ by omega),
    flagAt_agree hm (show 3 < _ by omega), flagAt_agree hm (show 22 < _ by omega),
    copied_agree hm hn hin]

theorem pushed_rxCB (listener : Listener) (m : Mem) (dataLen : UInt32) (now : Option Util.Timespec) :
    ∃ item : RxItem, (rxCB false listener m dataLen now).pushed = listener.pushed ++ [item] ∧
      item.lastFragment = flagAt m 22 0x10 ∧ item.data = copied m dataLen :=
  ⟨_, rfl, rfl, rfl⟩

theorem same_item (h : rxCB false listener m' dataLen now = rxCB false listener m dataLen now) :
    flagAt m' 22 0x10 = flagAt m 22 0x10 ∧ copied m' dataLen = copied m dataLen := by
  obtain ⟨item, hpushed, hlast, hdata⟩ := pushed_rxCB listener m dataLen now
  obtain ⟨item', hpushed', hlast', hdata'⟩ := pushed_rxCB listener m' dataLen now
  rw [h, hpushed] at hpushed'
  obtain rfl : item = item' := by simpa using hpushed'
  exact ⟨hlast'.symm.trans hlast, hdata'.symm.trans hdata⟩

theorem inside_of_settled (h : Settled dataLen.toNat (rxCB full listener · dataLen now) m) :
    Inside full dataLen m := by
  cases full with
  | true => exact .inl rfl
  | false =>
    have hn : 23 ≤ dataLen.toNat := by
      refine Nat.le_of_not_lt fun hlt => ?_
      -- the octet with the marker bit was not received
      have hset : ∀ x, flagAt (update m 22 x) 22 0x10 = flagAt m 22 0x10 := fun x =>
        (same_item (h.update (by omega) x)).1
      have hdiffer := (hset 0x10).trans (hset 0).symm
      simp [flagAt] at hdiffer
    refine .inr ⟨hn, ?_⟩
    by_cases hlarge : itemSize < dataLen - totalHeaderSize
    · exact .inl hlarge
    by_cases hzero : payloadLen m = 0
    · exact .inr (.inl hzero)
    refine .inr (.inr (Nat.le_of_not_lt fun hout => ?_))
    have hi : dataLen.toNat ≤ 24 + payloadLen m - 1 := by omega
    have hsame := (same_item (h.update hi (m (24 + payloadLen m - 1) + 1))).2
    have hlen : payloadLen (update m (24 + payloadLen m - 1)
        (m (24 + payloadLen m - 1) + 1)) = payloadLen m := by
      rw [payloadLen, payloadLen, update_of_ne (by omega), update_of_ne (by omega)]
    have hsize : dataLen - totalHeaderSize ≤ itemSize := UInt32.not_lt.mp hlarge
    rw [copied, copied, if_pos hsize, if_pos hsize, hlen] at hsame
    exact read_update_ne (by omega) (by omega) (add_one_ne _) hsame

end Mjpeg

namespace Mpeg2ts

variable {cfg : Config} {itemSize : Nat} {full : Bool} {listener : Listener}
  {now : Option Util.Timespec}

theorem tsPacketSize_bounds (cfg : Config) :
    0 < cfg.tsPacketSize ∧ cfg.tsPacketSize ≤ srcPktSize := by
  rcases cfg.tsPacketSize_eq with h | h
  · rw [h]
    decide
  · rw [h]
    decide

theorem copyPackets_read {L p : Nat} {data : List UInt8} (h : n * srcPktSize ≤ L) :
    copyPackets cfg itemSize n (read m p L) data =
      if n = 0 ∨ data.length + n * cfg.tsPacketSize ≤ itemSize then
        data ++ gather
          (fun q => read m (q + (srcPktSize - cfg.tsPacketSize)) cfg.tsPacketSize) srcPktSize p n
      else [] := by
  have hts := tsPacketSize_bounds cfg
  induction n generalizing p L data with
  | zero => simp [copyPackets]
  | succ n ih =>
    rw [Nat.succ_mul] at h
    have hrest : (read m p L).drop srcPktSize = read m (p + srcPktSize) (L - srcPktSize) :=
      drop_read (by omega)
    have hpacket : ((read m p L).drop (srcPktSize - cfg.tsPacketSize)).take cfg.tsPacketSize =
        read m (p + (srcPktSize - cfg.tsPacketSize)) cfg.tsPacketSize := by
      obtain ⟨r, hr⟩ := Nat.exists_eq_add_of_le
        (show cfg.tsPacketSize ≤ L - (srcPktSize - cfg.tsPacketSize) by omega)
      rw [drop_read (by omega), hr, read_add, take_left' length_read]
    have hsum : (n + 1) * cfg.tsPacketSize = n * cfg.tsPacketSize + cfg.tsPacketSize :=
      Nat.succ_mul _ _
    rw [copyPackets, hrest, hpacket]
    by_cases hroom : cfg.tsPacketSize ≤ itemSize - data.length
    case pos =>
      have hiff : (n = 0 ∨ (data ++ read m (p + (srcPktSize - cfg.tsPacketSize))
          cfg.tsPacketSize).length + n * cfg.tsPacketSize ≤ itemSize) ↔
          (n + 1 = 0 ∨ data.length + (n + 1) * cfg.tsPacketSize ≤ itemSize) := by
        rw [length_append, length_read, hsum]
        constructor
        · rintro (rfl | hle)
          · exact .inr (by omega)
          · exact .inr (by omega)
        · rintro (hzero | hle)
          · cases hzero
          · exact .inr (by omega)
      rw [if_pos hroom, ih (by omega), gather_succ, append_assoc]
      exact if_congr hiff rfl rfl
    case neg =>
      rw [if_neg hroom, if_neg]
      rintro (hzero | hle)
      · cases hzero
      · omega

/-- Nothing is written, or the packets are known to be too many, or they were received. -/
def Inside (cfg : Settings) (itemSize : Nat) (full : Bool) (listener : Listener) (n : Nat)
    (m : Mem) : Prop :=
  full ∨ 22 ≤ n ∧ countAt m = 0 ∨
    28 ≤ n ∧ (0 < (m 27).toNat % 8 ∨
      itemSize < listener.head.data.length + countAt m * cfg.tsPacketSize ∨
      32 + countAt m * srcPktSize ≤ n)

theorem countAt_agree (h : ∀ i < n, m' i = m i) (hn : 22 ≤ n) : countAt m' = countAt m := by
  rw [countAt, countAt, word_agree h hn]

theorem count_pos_iff (m : Mem) : 0 < sourcePacketCount (frameAt m) ↔ 0 < countAt m := by
  rw [← sourcePacketCount_at]
  exact UInt8.lt_iff_toNat_lt

theorem rx_idle (h : 0 < (m 27).toNat % 8 ∨ countAt m = 0) :
    rx cfg itemSize full listener now m = listener := by
  unfold rx rxCB
  split
  · rfl
  · split
    · rfl
    case isFalse hblocks =>
      rw [if_neg]
      intro hcount
      rcases h with h | h
      · exact hblocks h
      · exact absurd ((count_pos_iff m).mp hcount) (by omega)

def dataAt (cfg : Settings) (itemSize : Nat) (listener : Listener) (m : Mem) : List UInt8 :=
  if listener.head.data.length + countAt m * cfg.tsPacketSize ≤ itemSize then
    listener.head.data ++ packetsAt cfg m (countAt m)
  else []

theorem copyPackets_at (hcount : 0 < countAt m) :
    copyPackets cfg itemSize (sourcePacketCount (frameAt m)).toNat (frameAt m).payload
      listener.head.data = dataAt cfg itemSize listener m := by
  rw [sourcePacketCount_at, frameAt, copyPackets_read (countAt_mul_le m)]
  exact if_congr (or_iff_right (by omega)) rfl rfl

def timeAt (item : RxItem) (now : Option Util.Timespec) (m : Mem) : AvtpTime :=
  if item.data = [] then
    { openavbAvtpTimeSetToTimestamp item.pAvtpTime (timestampAt m) now with
      bTimestampValid := flagAt m 1 0x01
      bTimestampUncertain := flagAt m 3 0x01 }
  else item.pAvtpTime

theorem rx_push (hblocks : ¬ 0 < (m 27).toNat % 8) (hcount : 0 < countAt m) :
    rx cfg itemSize false listener now m =
      { pushed := listener.pushed ++ [⟨timeAt listener.head now m, dataAt cfg itemSize listener m⟩]
        head := blankRxItem } := by
  have hno : ¬ 0 < (frameAt m).dbc.toNat % 8 := hblocks
  rw [rx, if_neg (by decide), rxCB, if_neg hno, if_pos ((count_pos_iff m).mpr hcount)]
  simp only [copyPackets_at hcount]
  rfl

theorem rx_push_ne (hblocks : ¬ 0 < (m 27).toNat % 8) (hcount : 0 < countAt m) :
    rx cfg itemSize false listener now m ≠ listener := by
  intro h
  rw [rx_push hblocks hcount] at h
  have hlen := congrArg (·.pushed.length) h
  simp at hlen

theorem timeAt_agree (h : ∀ i < n, m' i = m i) (hn : 28 ≤ n) (item : RxItem) :
    timeAt item now m' = timeAt item now m := by
  rw [timeAt, timeAt, timestampAt_agree h (by omega), flagAt_agree h (by omega),
    flagAt_agree h (by omega)]

theorem dataAt_agree (h : ∀ i < n, m' i = m i) (hn : 28 ≤ n)
    (hin : itemSize < listener.head.data.length + countAt m * cfg.tsPacketSize ∨
      32 + countAt m * srcPktSize ≤ n) :
    dataAt cfg itemSize listener m' = dataAt cfg itemSize listener m := by
  have hts := tsPacketSize_bounds cfg
  unfold dataAt
  rw [countAt_agree h (by omega)]
  split
  case isFalse => rfl
  case isTrue hfits =>
    refine congrArg (listener.head.data ++ ·) (gather_congr fun i hi => read_agree h ?_)
    have hmul : (i + 1) * srcPktSize ≤ countAt m * srcPktSize := Nat.mul_le_mul_right _ hi
    rw [Nat.succ_mul] at hmul
    omega

theorem settled_of_inside (h : Inside cfg itemSize full listener n m) :
    Settled n (rx cfg itemSize full listener now) m := by
  intro m' hm
  rcases h with rfl | ⟨hn, hcount⟩ | ⟨hn, hin⟩
  · simp [rx]
  · rw [rx_idle (.inr hcount), rx_idle (.inr ((countAt_agree hm hn).trans hcount))]
  · have hdbc := hm 27 (by omega)
    have hlen := countAt_agree hm (by omega)
    by_cases hidle : 0 < (m 27).toNat % 8 ∨ countAt m = 0
    case pos =>
      rw [rx_idle hidle, rx_idle]
      rwa [hdbc, hlen]
    case neg =>
      obtain ⟨hblocks, hzero⟩ := not_or.mp hidle
      have hcount : 0 < countAt m := Nat.pos_of_ne_zero hzero
      cases full with
      | true => simp [rx]
      | false =>
        rw [rx_push hblocks hcount, rx_push (by rwa [hdbc]) (by rwa [hlen]), timeAt_agree hm hn,
          dataAt_agree hm hn (hin.resolve_left hblocks)]

theorem exists_count (hn : n < 22) (m : Mem) :
    ∃ m' : Mem, (∀ i < n, m' i = m i) ∧ ¬ 0 < (m' 27).toNat % 8 ∧ 0 < countAt m' := by
  by_cases hzero : m 20 = 0
  case pos =>
    refine ⟨update (update m 21 255) 27 0, fun i hi => ?_, by simp, ?_⟩
    · rw [update_of_ne (by omega), update_of_ne (by omega)]
    · simp [countAt, word, hzero, cipHeaderSize, srcPktSize]
  case neg =>
    refine ⟨update (update m 21 0) 27 0, fun i hi => ?_, by simp, ?_⟩
    · rw [update_of_ne (by omega), update_of_ne (by omega)]
    · have hpos : (m 20).toNat ≠ 0 := fun h => hzero (UInt8.toNat_inj.mp h)
      simp [countAt, word, cipHeaderSize, srcPktSize]
      omega

theorem end_le_of_settled (h : Settled n (rx cfg itemSize false listener now) m)
    (hblocks : ¬ 0 < (m 27).toNat % 8) (hcount : 0 < countAt m)
    (hfits : listener.head.data.length + countAt m * cfg.tsPacketSize ≤ itemSize) :
    32 + countAt m * srcPktSize ≤ n := by
  have hts := tsPacketSize_bounds cfg
  refine Nat.le_of_not_lt fun hout => ?_
  obtain ⟨c, hc⟩ := Nat.exists_eq_add_of_lt hcount
  rw [zero_add] at hc
  have hmul : countAt m * srcPktSize = c * srcPktSize + srcPktSize := by rw [hc, Nat.succ_mul]
  let i := 32 + countAt m * srcPktSize - 1
  have hlen : countAt (update m i (m i + 1)) = countAt m := by
    rw [countAt, countAt, word_update (by omega)]
  have hdbc : update m i (m i + 1) 27 = m 27 := update_of_ne (by omega) _ _
  have hsame := h.update (show n ≤ i by omega) (m i + 1)
  rw [rx_push hblocks hcount, rx_push (by rwa [hdbc]) (by rwa [hlen])] at hsame
  have hdata : dataAt cfg itemSize listener (update m i (m i + 1)) =
      dataAt cfg itemSize listener m := by
    have hitems := (Listener.mk.injEq .. ▸ hsame).1
    have hitem := append_cancel_left hitems
    simp only [List.cons.injEq, RxItem.mk.injEq, and_true] at hitem
    exact hitem.2
  rw [dataAt, dataAt, hlen, if_pos hfits, if_pos hfits] at hdata
  have hpackets := append_cancel_left hdata
  rw [packetsAt, packetsAt, hc] at hpackets
  refine gather_ne_of_last (fun _ => length_read) (fun _ => length_read) ?_ hpackets
  exact read_update_ne (by omega) (by omega) (add_one_ne _)

theorem inside_of_settled (h : Settled n (rx cfg itemSize full listener now) m) :
    Inside cfg itemSize full listener n m := by
  cases full with
  | true => exact .inl rfl
  | false =>
    by_cases hzero : countAt m = 0
    · refine .inr (.inl ⟨Nat.le_of_not_lt fun hn => ?_, hzero⟩)
      obtain ⟨m', hagree, hwhole, hcount⟩ := exists_count hn m
      exact rx_push_ne hwhole hcount ((h m' hagree).trans (rx_idle (.inr hzero)))
    have hcount : 0 < countAt m := Nat.pos_of_ne_zero hzero
    have hn : 28 ≤ n := by
      refine Nat.le_of_not_lt fun hn => ?_
      have hlen : ∀ x, countAt (update m 27 x) = countAt m := fun x => by
        rw [countAt, countAt, word_update (by omega)]
      have hsame := (h.update (show n ≤ 27 by omega) 0).trans
        (h.update (show n ≤ 27 by omega) 1).symm
      refine rx_push_ne (by simp) (by rwa [hlen]) (hsame.trans (rx_idle (.inl ?_)))
      simp
    refine .inr (.inr ⟨hn, ?_⟩)
    by_cases hblocks : 0 < (m 27).toNat % 8
    · exact .inl hblocks
    by_cases hfits : listener.head.data.length + countAt m * cfg.tsPacketSize ≤ itemSize
    · exact .inr (.inr (end_le_of_settled h hblocks hcount hfits))
    · exact .inr (.inl (Nat.lt_of_not_le hfits))

end Mpeg2ts

/-- The listener's media queue: it is full, or frames are held in the item at the head. -/
structure AudioQueue (cfg : AudioSettings) where
  listener : AudioListener
  full : Bool
  held : Nat
  holds : Holds cfg held listener

section Audio

variable {cfg : AudioSetup} {listener : AudioListener} {now : Option Util.Timespec} {a : Nat}

def takenAt (cfg : AudioSettings) (a : Nat) (m : Mem) : Nat :=
  min (framesAt cfg m) (roomFrames cfg a) * cfg.audioChannels

def lastUsed : BitDepth → Nat
  | .bit16 => 2
  | _ => 3

def AudioInside (cfg : AudioSettings) (q : AudioQueue cfg) (n : Nat) (m : Mem) : Prop :=
  q.full ∨ 22 ≤ n ∧ framesAt cfg m = 0 ∨
    28 ≤ n ∧ q.listener.head.data = [] ∧ 0 < (m 27).toNat % cfg.sytInterval ∨
    32 + 4 * (takenAt cfg q.held m - 1) + lastUsed cfg.audioBitDepth < n

theorem packetFrameSizeBytes_pos (cfg : AudioSetup) : 0 < cfg.packetFrameSizeBytes :=
  Nat.mul_pos (by decide) cfg.channels_pos

theorem packetFrameSizeBytes_le (cfg : AudioSetup) : cfg.packetFrameSizeBytes ≤ 32 :=
  Nat.mul_le_mul_left 4 cfg.channels_le

theorem framesAt_agree (h : ∀ i < n, m' i = m i) (hn : 22 ≤ n) :
    framesAt cfg m' = framesAt cfg m := by
  rw [framesAt, framesAt, word_agree h hn]

theorem audioRx_idle {full : Bool}
    (h : framesAt cfg m = 0 ∨ listener.head.data = [] ∧ 0 < (m 27).toNat % cfg.sytInterval) :
    audioRx cfg full listener now m = listener := by
  unfold audioRx rxCB
  rw [packetFrames_at]
  split
  · rfl
  · rcases h with h | h
    · exact if_pos h
    · split
      · rfl
      · exact if_pos h

def audioTimeAt (item : AudioRxItem) (now : Option Util.Timespec) (m : Mem) : AvtpTime :=
  if item.data = [] then
    { openavbAvtpTimeSetToTimestamp item.pAvtpTime (timestampAt m) now with
      bTimestampValid := flagAt m 1 0x01
      bTimestampUncertain := flagAt m 3 0x01 }
  else item.pAvtpTime

theorem takenAt_le (cfg : AudioSetup) (a : Nat) (m : Mem) :
    takenAt cfg a m * 4 ≤ word m 20 - 8 := by
  calc
    takenAt cfg a m * 4
      ≤ framesAt cfg m * cfg.audioChannels * 4 :=
        Nat.mul_le_mul_right 4 (Nat.mul_le_mul_right _ (min_le_left _ _))
    _ = framesAt cfg m * cfg.packetFrameSizeBytes := by
        rw [mul_assoc, mul_comm cfg.audioChannels]
        rfl
    _ ≤ word m 20 - 8 := Nat.div_mul_le_self _ _

theorem copyFrames_at (h : Holds cfg a listener) :
    copyFrames cfg (framesAt cfg m) (read m 32 (word m 20 - 8))
      listener.head.data =
      listener.head.data ++ samplesAt cfg m (takenAt cfg a m) := by
  rw [copyFrames_eq cfg.itemFrameSizeBytes_pos h.1]
  exact congrArg (listener.head.data ++ ·) (mapBlocks_read (takenAt_le cfg a m))

theorem audioRx_fill (h : Holds cfg a listener)
    (hbusy : ¬ (framesAt cfg m = 0 ∨
      listener.head.data = [] ∧ 0 < (m 27).toNat % cfg.sytInterval)) :
    audioRx cfg false listener now m =
      listener.place cfg.itemSize ⟨audioTimeAt listener.head now m,
        listener.head.data ++ samplesAt cfg m (takenAt cfg a m)⟩ := by
  obtain ⟨hframes, htoss⟩ := not_or.mp hbusy
  have hcopy := @copyFrames_at m cfg listener a h
  unfold audioRx rxCB
  rw [if_neg (by decide), packetFrames_at, if_neg hframes]
  refine (if_neg htoss).trans ?_
  rw [← hcopy]
  rfl

theorem audioTimeAt_agree (h : ∀ i < n, m' i = m i) (hn : 16 ≤ n) (item : AudioRxItem) :
    audioTimeAt item now m' = audioTimeAt item now m := by
  rw [audioTimeAt, audioTimeAt, timestampAt_agree h hn, flagAt_agree h (by omega),
    flagAt_agree h (by omega)]

theorem read_quadlet (m : Mem) (p : Nat) : read m p 4 = [m p, m (p + 1), m (p + 2), m (p + 3)] :=
  rfl

theorem sample_agree (h : ∀ i < n, m' i = m i) {p : Nat} (hp : p + lastUsed cfg.audioBitDepth < n) :
    decodeSample cfg (read m' p 4) = decodeSample cfg (read m p 4) := by
  rw [read_quadlet, read_quadlet, decodeSample_quadlet, decodeSample_quadlet]
  cases hdepth : cfg.audioBitDepth with
  | bit16 =>
    simp only [hdepth, lastUsed] at hp
    simp only [h (p + 1) (by omega), h (p + 2) (by omega)]
  | _ =>
    simp only [hdepth, lastUsed] at hp
    simp only [h (p + 1) (by omega), h (p + 2) (by omega), h (p + 3) (by omega)]

theorem samplesAt_agree (h : ∀ i < n, m' i = m i) {N : Nat}
    (hN : 32 + 4 * (N - 1) + lastUsed cfg.audioBitDepth < n) :
    samplesAt cfg m' N = samplesAt cfg m N :=
  gather_congr fun _ _ => sample_agree h (by omega)

theorem sample_update_ne (p : Nat) {x : UInt8} (hx : x ≠ m (p + lastUsed cfg.audioBitDepth)) :
    decodeSample cfg
        (read (update m (p + lastUsed cfg.audioBitDepth) x) p 4) ≠
      decodeSample cfg (read m p 4) := by
  rw [read_quadlet, read_quadlet, decodeSample_quadlet, decodeSample_quadlet]
  cases hdepth : cfg.audioBitDepth
  all_goals
    simp only [hdepth, lastUsed] at hx
    simp [lastUsed, hx]

theorem takenAt_pos (h : Holds cfg a listener)
    (hframes : framesAt cfg m ≠ 0) : 0 < takenAt cfg a m := by
  refine Nat.mul_pos ?_ cfg.channels_pos
  have := roomFrames_succ h.2
  omega

theorem audioRx_fill_ne (h : Holds cfg a listener)
    (hbusy : ¬ (framesAt cfg m = 0 ∨
      listener.head.data = [] ∧ 0 < (m 27).toNat % cfg.sytInterval)) :
    audioRx cfg false listener now m ≠ listener := by
  intro heq
  have hpos := takenAt_pos h (not_or.mp hbusy).1
  have hsize : 0 < cfg.sampleStep := by
    have := cfg.sizes_cases
    omega
  rw [audioRx_fill h hbusy] at heq
  have hlen := congrArg List.length ((received_place _ _ _).symm.trans (congrArg _ heq))
  have hsamples : (samplesAt cfg m (takenAt cfg a m)).length = takenAt cfg a m * cfg.sampleStep :=
    length_gather fun _ => length_decodeSample _
  have hgrown := Nat.mul_pos hpos hsize
  simp only [AudioListener.received, length_append, hsamples] at hlen
  omega

theorem audio_settled_of_inside (q : AudioQueue cfg) (h : AudioInside cfg q n m) :
    Settled n (audioRx cfg q.full q.listener now) m := by
  intro m' hm
  rcases h with hfull | ⟨hn, hframes⟩ | ⟨hn, hempty, htoss⟩ | hlast
  · simp [audioRx, hfull]
  · rw [audioRx_idle (.inl hframes), audioRx_idle (.inl ((framesAt_agree hm hn).trans hframes))]
  · rw [audioRx_idle (.inr ⟨hempty, htoss⟩), audioRx_idle (.inr ⟨hempty, ?_⟩)]
    rwa [hm 27 (by omega)]
  · have hdbc := hm 27 (by omega)
    have hframes := @framesAt_agree m m' n cfg hm (by omega)
    have htaken : takenAt cfg q.held m' = takenAt cfg q.held m := by rw [takenAt, takenAt, hframes]
    by_cases hidle : framesAt cfg m = 0 ∨
        q.listener.head.data = [] ∧ 0 < (m 27).toNat % cfg.sytInterval
    case pos =>
      rw [audioRx_idle hidle, audioRx_idle]
      rwa [hframes, hdbc]
    case neg =>
      cases hfull : q.full with
      | true => simp [audioRx]
      | false =>
        rw [audioRx_fill q.holds hidle, audioRx_fill q.holds (by rwa [hframes, hdbc]),
          audioTimeAt_agree hm (by omega), htaken, samplesAt_agree hm hlast]

theorem exists_frames (hn : n < 22) (cfg : AudioSetup) (m : Mem) :
    ∃ m' : Mem, (∀ i < n, m' i = m i) ∧ m' 27 = 0 ∧ framesAt cfg m' ≠ 0 := by
  refine ⟨update (update m 21 255) 27 0, fun i hi => ?_, by simp, ?_⟩
  · rw [update_of_ne (by omega), update_of_ne (by omega)]
  · have hle := packetFrameSizeBytes_le cfg
    have hpos : 0 < framesAt cfg
        (update (update m 21 255) 27 0) := by
      refine Nat.div_pos ?_ (packetFrameSizeBytes_pos cfg)
      simp [word]
      omega
    omega

theorem audio_inside_of_settled (q : AudioQueue cfg)
    (h : Settled n (audioRx cfg q.full q.listener now) m) : AudioInside cfg q n m := by
  cases hfull : q.full with
  | true => exact .inl hfull
  | false =>
    rw [hfull] at h
    by_cases hframes : framesAt cfg m = 0
    case pos =>
      refine .inr (.inl ⟨Nat.le_of_not_lt fun hn => ?_, hframes⟩)
      obtain ⟨m', hagree, hdbc, hsome⟩ := exists_frames hn cfg m
      refine audioRx_fill_ne q.holds ?_ ((h m' hagree).trans (audioRx_idle (.inl hframes)))
      simp [hsome, hdbc]
    case neg =>
      have hlen : ∀ i x, 22 ≤ i → framesAt cfg (update m i x) = framesAt cfg m := fun i x hi => by
        rw [framesAt, framesAt, word_update (by omega)]
      by_cases htoss : q.listener.head.data = [] ∧ 0 < (m 27).toNat % cfg.sytInterval
      case pos =>
        refine .inr (.inr (.inl ⟨Nat.le_of_not_lt fun hn => ?_, htoss⟩))
        have hsame := h.update (show n ≤ 27 by omega) 0
        refine audioRx_fill_ne q.holds ?_ (hsame.trans (audioRx_idle (.inr htoss)))
        simp [hlen 27 0 (by omega), hframes]
      case neg =>
        refine .inr (.inr (.inr (Nat.lt_of_not_le fun hn => ?_)))
        obtain ⟨N, hN⟩ := Nat.exists_eq_add_of_lt (takenAt_pos q.holds hframes)
        rw [zero_add] at hN
        let i := 32 + N * 4 + lastUsed cfg.audioBitDepth
        have hused : n ≤ i := by
          rw [hN] at hn
          omega
        have htaken :
            takenAt cfg q.held (update m i (m i + 1)) = N + 1 := by
          rw [takenAt, hlen i _ (by omega)]
          exact hN
        have hdbc : update m i (m i + 1) 27 = m 27 := update_of_ne (by omega) _ _
        have hsame := h.update hused (m i + 1)
        have hkept := not_or.mpr ⟨hframes, htoss⟩
        rw [audioRx_fill q.holds hkept,
          audioRx_fill q.holds (by rw [hlen i _ (by omega), hdbc]; exact hkept),
          hN, htaken] at hsame
        have hreceived := (received_place _ _ _).symm.trans
          ((congrArg AudioListener.received hsame).trans (received_place _ _ _))
        have hsamples := append_cancel_left (append_cancel_left hreceived)
        refine gather_ne_of_last (fun _ => length_decodeSample _)
          (fun _ => length_decodeSample _) ?_ hsamples
        exact sample_update_ne _ (add_one_ne _)

end Audio

namespace ClkRef

structure OpenListener (cfg : Settings) extends Listener where
  head_room : queue.Open cfg

variable {cfg : Settings} {l : OpenListener cfg}

def roomAt (cfg : Settings) (l : Listener) (m : Mem) : Nat := l.roomFor cfg (packetAt m)

def takenAt (cfg : Settings) (l : Listener) (m : Mem) : Nat := min (countAt m) (roomAt cfg l m)

def Inside (cfg : Settings) (l : Listener) (n : Nat) (m : Mem) : Prop :=
  l.queue.free = 0 ∨ 17 ≤ n ∧ m 16 ≠ 0 ∧ roomAt cfg l m = 0 ∨
    18 ≤ n ∧ (takenAt cfg l m = 0 ∨ totalHeaderSize + takenAt cfg l m * crfTimestampSize ≤ n)

theorem countAt_agree (h : ∀ i < n, m' i = m i) (hn : 18 ≤ n) : countAt m' = countAt m := by
  rw [countAt, countAt, word_agree h hn]

theorem countAt_pos (h : m 16 ≠ 0) : countAt m ≠ 0 := by
  have hpos : (m 16).toNat ≠ 0 := fun hzero => h (UInt8.toNat_inj.mp hzero)
  simp only [countAt, word, crfTimestampSize]
  omega

theorem restarts_agree (h : ∀ i < n, m' i = m i) (hn : 3 ≤ n) (l : Listener) :
    l.restarts (packetAt m') = l.restarts (packetAt m) := by
  simp only [Listener.restarts, packetAt, flagAt_agree h (show 1 < n by omega), h 2 (by omega)]

theorem roomAt_eq (l : Listener) (m : Mem) :
    roomAt cfg l m = (l.queue.prepare (l.restarts (packetAt m))).room cfg :=
  roomFor_eq l

theorem received_eq_nil : (packetAt m).received = [] ↔ countAt m = 0 := by simp [received_at]

theorem rx_none (h : countAt m = 0) : rx cfg l.toListener m = l.toListener := by
  rw [rx, rxCB, if_pos (received_eq_nil.mpr h)]

theorem rx_full (h : l.queue.free = 0) : (rx cfg l.toListener m).queue = l.queue := by
  unfold rx rxCB
  split
  · rfl
  · simp only [prepare_full h, if_pos h]

section

variable (hcount : countAt m ≠ 0)
include hcount

theorem rx_no_room (hroom : roomAt cfg l.toListener m = 0) :
    (rx cfg l.toListener m).queue = l.queue.prepare (l.restarts (packetAt m)) := by
  rw [roomAt_eq] at hroom
  have hfull : (l.queue.prepare (l.restarts (packetAt m))).free = 0 :=
    Nat.eq_zero_of_not_pos fun hfree =>
      Nat.ne_of_gt (room_pos (open_prepare l.head_room) hfree) hroom
  rw [rx, rxCB, if_neg fun h => hcount (received_eq_nil.mp h)]
  simp only [if_pos hfull]

theorem rx_some (hroom : roomAt cfg l.toListener m ≠ 0) : (rx cfg l.toListener m).queue =
      (l.queue.prepare (l.restarts (packetAt m))).storeAll cfg (packetAt m)
        (l.restarts (packetAt m))
        ((List.range (takenAt cfg l.toListener m)).map (stampAt m)) := by
  have hfree : ¬ (l.queue.prepare (l.restarts (packetAt m))).free = 0 := fun hfull =>
    hroom ((roomAt_eq l.toListener m).trans (room_full hfull))
  have htake : (List.range (takenAt cfg l.toListener m)).map (stampAt m) =
      (packetAt m).received.take
        ((l.queue.prepare (l.restarts (packetAt m))).room cfg) := by
    rw [received_at, ← roomAt_eq, ← map_take, take_range, takenAt, Nat.min_comm]
  rw [rx, rxCB, if_neg fun h => hcount (received_eq_nil.mp h)]
  simp only [if_neg hfree]
  rw [htake, storeAll_take (open_prepare l.head_room)]

theorem stored_rx (hroom : roomAt cfg l.toListener m ≠ 0) : (rx cfg l.toListener m).queue.stored =
      l.queue.stored ++ (List.range (takenAt cfg l.toListener m)).map (stampAt m) := by
  rw [rx_some hcount hroom, stored_storeAll (open_prepare l.head_room), stored_prepare,
    ← roomAt_eq, take_of_length_le]
  simp [takenAt]

theorem rx_ne (hfree : 0 < l.queue.free) : (rx cfg l.toListener m).queue ≠ l.queue := by
  intro heq
  by_cases hroom : roomAt cfg l.toListener m = 0
  case pos =>
    -- there is room but for the restart, which pushes the item at the head
    rw [rx_no_room hcount hroom] at heq
    unfold MediaQueue.prepare at heq
    split at heq
    case isTrue =>
      have hlen := congrArg (·.pushed.length) heq
      simp [MediaQueue.push] at hlen
    case isFalse hsame =>
      have hpos := room_pos l.head_room hfree
      have hold : ¬ (l.restarts (packetAt m) ∧ l.queue.head.timestamps ≠ []) := fun h =>
        hsame ⟨h.1, hfree, h.2⟩
      rw [roomAt, Listener.roomFor, if_neg hold] at hroom
      omega
  case neg =>
    have hlen := congrArg (·.stored.length) heq
    have hpos : 0 < takenAt cfg l.toListener m := by
      unfold takenAt
      omega
    simp only [stored_rx hcount hroom, length_append, length_map, length_range]
      at hlen
    omega

end

theorem settled_of_inside (h : Inside cfg l.toListener n m) :
    Settled n (fun m => (rx cfg l.toListener m).queue) m := by
  intro m' hm
  show (rx cfg l.toListener m').queue = (rx cfg l.toListener m).queue
  have hroom_agree : 3 ≤ n → roomAt cfg l.toListener m' = roomAt cfg l.toListener m := fun hn => by
    rw [roomAt, roomAt, Listener.roomFor, Listener.roomFor, restarts_agree hm hn]
  rcases h with hfree | ⟨hn, hsome, hroom⟩ | ⟨hn, hin⟩
  · rw [rx_full hfree, rx_full hfree]
  · have hsome' : m' 16 ≠ 0 := by rwa [hm 16 (by omega)]
    rw [rx_no_room (countAt_pos hsome) hroom,
      rx_no_room (countAt_pos hsome') ((hroom_agree (by omega)).trans hroom),
      restarts_agree hm (by omega)]
  · have hcount := countAt_agree hm hn
    have hroom' := hroom_agree (by omega)
    by_cases hnone : countAt m = 0
    · rw [rx_none hnone, rx_none (hcount.trans hnone)]
    by_cases hroom : roomAt cfg l.toListener m = 0
    · rw [rx_no_room hnone hroom, rx_no_room (by rwa [hcount]) (hroom'.trans hroom),
        restarts_agree hm (by omega)]
    have hpos : 0 < takenAt cfg l.toListener m := by
      unfold takenAt
      omega
    have hlong : 28 ≤ n := by
      unfold totalHeaderSize crfTimestampSize at *
      omega
    have hstamps : (List.range (takenAt cfg l.toListener m)).map (stampAt m') =
        (List.range (takenAt cfg l.toListener m)).map (stampAt m) := by
      refine map_congr_left fun i hi => ?_
      have hmul : (i + 1) * crfTimestampSize ≤ takenAt cfg l.toListener m * crfTimestampSize :=
        Nat.mul_le_mul_right _ (mem_range.mp hi)
      rw [Nat.succ_mul] at hmul
      rw [stampAt, stampAt, read_agree hm (by omega)]
    rw [rx_some hnone hroom, rx_some (by rwa [hcount]) (by rwa [hroom']),
      restarts_agree hm (by omega), takenAt, hcount, hroom', ← takenAt, hstamps]
    exact storeAll_congr (flagAt_agree hm (by omega) _)
      (congrArg UInt16.ofNat (word_agree hm (by omega)))

theorem inside_of_settled (h : Settled n (fun m => (rx cfg l.toListener m).queue) m) :
    Inside cfg l.toListener n m := by
  by_cases hfree : l.queue.free = 0
  · exact .inl hfree
  have hopen : 0 < l.queue.free := Nat.pos_of_ne_zero hfree
  by_cases htaken : takenAt cfg l.toListener m = 0
  case neg =>
    -- the last timestamp that is written has a say
    have hcount : countAt m ≠ 0 := by
      unfold takenAt at htaken
      omega
    have hroom : roomAt cfg l.toListener m ≠ 0 := by
      unfold takenAt at htaken
      omega
    obtain ⟨k, hk⟩ := Nat.exists_eq_succ_of_ne_zero htaken
    have hend : totalHeaderSize + takenAt cfg l.toListener m * crfTimestampSize ≤ n := by
      refine Nat.le_of_not_lt fun hout => ?_
      rw [hk, Nat.succ_mul] at hout
      unfold totalHeaderSize at hout
      let i := 20 + k * crfTimestampSize + (crfTimestampSize - 1)
      have hsize : crfTimestampSize = 8 := rfl
      have hcount' : countAt (update m i (m i + 1)) = countAt m := by
        rw [countAt, countAt, word_update (by omega)]
      have hrestart : l.restarts (packetAt (update m i (m i + 1))) = l.restarts (packetAt m) :=
        restarts_agree (n := 3) (fun j hj => update_of_ne (by omega) _ _)
          (le_refl 3) _
      have hroom' : roomAt cfg l.toListener (update m i (m i + 1)) = roomAt cfg l.toListener m := by
        rw [roomAt, roomAt, Listener.roomFor, Listener.roomFor, hrestart]
      have hsame := congrArg MediaQueue.stored (h.update (show n ≤ i by omega) (m i + 1))
      simp only [stored_rx hcount hroom] at hsame
      rw [stored_rx (by rwa [hcount']) (by rwa [hroom']), takenAt, hcount', hroom', ← takenAt, hk,
        range_succ, map_append, map_append] at hsame
      have hlast := append_inj_right (append_cancel_left hsame) (by simp)
      have hstamp : stampAt (update m i (m i + 1)) k = stampAt m k := by simpa using hlast
      exact read_update_ne (by unfold totalHeaderSize; omega) (by unfold totalHeaderSize; omega)
        (add_one_ne _) (stampAt_inj hstamp)
    exact .inr (.inr ⟨by unfold totalHeaderSize crfTimestampSize at *; omega, .inr hend⟩)
  case pos =>
    by_cases hn : 18 ≤ n
    · exact .inr (.inr ⟨hn, .inl htaken⟩)
    -- the length field was not received: it could announce no timestamp or one
    by_cases hsome : 17 ≤ n ∧ m 16 ≠ 0
    case pos =>
      have hcount := countAt_pos hsome.2
      refine .inr (.inl ⟨hsome.1, hsome.2, ?_⟩)
      unfold takenAt at htaken
      omega
    case neg =>
      have hzero : ∀ x, (∀ i < n, update (update m 16 0) 17 x i = m i) := by
        intro x i hi
        rw [update_of_ne (by omega)]
        by_cases h16 : i = 16
        · subst h16
          have hm16 : m 16 = 0 := by
            refine Classical.byContradiction fun hne => hsome ⟨by omega, hne⟩
          rw [hm16, update_self]
        · exact update_of_ne h16 _ _
      have hsame := (h _ (hzero 8)).trans (h _ (hzero 0)).symm
      have hnone : countAt (update (update m 16 0) 17 0) = 0 := by
        simp [countAt, word]
      have hone : countAt (update (update m 16 0) 17 8) ≠ 0 := by
        simp [countAt, word, crfTimestampSize]
      refine absurd (hsame.trans ?_) (rx_ne hone hopen)
      simp only [rx_none hnone]

end ClkRef

/-- The items are a function of the octets received iff what is written of the payload, by the
length field, was received. -/
theorem items_settled_iff (dataLen : UInt32) (m : Mem) (now : Option Util.Timespec) :
    (∀ (cfg : AudioSetup) (q : AudioQueue cfg.toAudioSettings),
      Settled dataLen.toNat (audioRx cfg.toAudioSettings q.full q.listener now) m ↔
        AudioInside cfg.toAudioSettings q dataLen.toNat m) ∧
    (∀ (cfg : Mpeg2ts.Config) (itemSize : Nat) (full : Bool) (listener : Mpeg2ts.Listener),
      Settled dataLen.toNat (Mpeg2ts.rx cfg.toSettings itemSize full listener now) m ↔
        Mpeg2ts.Inside cfg.toSettings itemSize full listener dataLen.toNat m) ∧
    (∀ (full : Bool) (listener : Mjpeg.Listener),
      Settled dataLen.toNat (Mjpeg.rxCB full listener · dataLen now) m ↔
        Mjpeg.Inside full dataLen m) ∧
    ∀ (cfg : ClkRef.Settings) (l : ClkRef.OpenListener cfg),
      Settled dataLen.toNat (fun m => (ClkRef.rx cfg l.toListener m).queue) m ↔
        ClkRef.Inside cfg l.toListener dataLen.toNat m := by
  refine ⟨fun cfg q => ?_, fun cfg itemSize full listener => ?_, fun full listener => ?_,
    fun cfg l => ?_⟩
  · exact ⟨audio_inside_of_settled q, audio_settled_of_inside q⟩
  · exact ⟨Mpeg2ts.inside_of_settled, Mpeg2ts.settled_of_inside⟩
  · exact ⟨Mjpeg.inside_of_settled, Mjpeg.settled_of_inside⟩
  · exact ⟨ClkRef.inside_of_settled, ClkRef.settled_of_inside⟩

def headers (size place : Nat) (len : List UInt8) : List UInt8 :=
  List.replicate place 0 ++ len ++ List.replicate (size - place - len.length) 0

/-- Frames of which only the headers were received: what stands behind them in memory is written
to the items. -/
theorem items_leak : let behind (data : List UInt8) (x : UInt8) : Mem := recvBuffer data fun _ => x
    let audio := audioRx (monoConfig .khz48).toAudioSettings false ⟨[], blankRxItem⟩ none
    let stream := Mpeg2ts.rx ⟨188, 1, 0⟩ 188 false Mpeg2ts.initListener none
    let picture (m : Mem) := Mjpeg.rxCB false ⟨[], Mjpeg.blankRxItem⟩ m 24 none
    let clock := ClkRef.rx ⟨1, 1, 0⟩ ⟨⟨[], ClkRef.blankItem, 1⟩, false, 0⟩
    (audio (behind (headers 32 20 [0, 12]) 7)).head.data = [7, 7] ∧
      (audio (behind (headers 32 20 [0, 12]) 9)).head.data = [9, 9] ∧
      (stream (behind (headers 32 20 [0, 200]) 7)).received = List.replicate 188 7 ∧
      (stream (behind (headers 32 20 [0, 200]) 9)).received = List.replicate 188 9 ∧
      (picture (behind (headers 24 20 [2, 0]) 7)).pushed.map (·.data) = [[7, 7]] ∧
      (picture (behind (headers 24 20 [2, 0]) 9)).pushed.map (·.data) = [[9, 9]] ∧
      (clock (behind (headers 20 16 [0, 8]) 7)).queue.stored = [0x0707070707070707] ∧
      (clock (behind (headers 20 16 [0, 8]) 9)).queue.stored = [0x0909090909090909] := by
  decide +kernel

end OpenAvb.Pipeline
