import OpenAvb.Pipeline.AudioMap
import OpenAvb.Run

/-!
# The mapping of clock references

A talker puts a fixed number of timestamps into each packet; a listener writes them
into items, as far as there is room. It tells from the sequence numbers and the restart
flag whether the clock goes on: if not, the next timestamp starts an item that says so.
-/

namespace OpenAvb.Pipeline.ClkRef

def crfTimestampSize : Nat := 8

def totalHeaderSize : Nat := 20

structure Settings where
  (timestampsPerPacket packingFactor : Nat)
  timestampInterval : UInt16

structure Config extends Settings where
  timestampsPerPacket_pos : 0 < timestampsPerPacket
  packingFactor_pos : 0 < packingFactor

def Settings.itemTimestamps (cfg : Settings) : Nat := cfg.packingFactor * cfg.timestampsPerPacket

theorem Config.itemTimestamps_pos (cfg : Config) : 0 < cfg.itemTimestamps :=
  Nat.mul_pos cfg.packingFactor_pos cfg.timestampsPerPacket_pos

/-- A packet: the fields of its headers that the callbacks set or read, and its timestamps. -/
structure Packet where
  (clockRestartFlag tsUncertain : Bool)
  sequenceNumber : UInt8
  (dataLen timestampInterval : UInt16)
  timestamps : List UInt64

structure TxItem where
  timestamps : List UInt64
  readIdx : Nat

def TxItem.unread (item : TxItem) : List UInt64 := item.timestamps.drop item.readIdx

/-- `writeTimestamps`: the next `n` timestamps of the queue, and what is left of it; none if it
runs out. -/
def writeTimestamps : List TxItem → Nat → Option (List UInt64 × List TxItem)
  | queue, 0 => some ([], queue)
  | [], _ + 1 => none
  | item :: queue, n + 1 =>
    let taken := item.unread.take (n + 1)
    let item := { item with readIdx := item.readIdx + taken.length }
    if item.timestamps.length ≤ item.readIdx then
      (writeTimestamps queue (n + 1 - taken.length)).map fun (later, queue) =>
        (taken ++ later, queue)
    -- More to read next interval: the packet has all its timestamps.
    else some (taken, item :: queue)

def unreadTimestamps (queue : List TxItem) : List UInt64 := queue.flatMap TxItem.unread

structure Talker where
  queue : List TxItem
  avtpSequenceNum : UInt8

/-- `openavbMapClkRefTxCB` in a frame that the AVTP layer has numbered; no packet if it is not
ready. -/
def txCB (cfg : Settings) (talker : Talker) (dataLen : UInt32) : Option (Packet × Talker) :=
  if dataLen.toNat < cfg.timestampsPerPacket * crfTimestampSize + totalHeaderSize then none
  else if cfg.timestampsPerPacket ≤ (unreadTimestamps talker.queue).length then
    (writeTimestamps talker.queue cfg.timestampsPerPacket).map fun (timestamps, queue) =>
      ({ clockRestartFlag := false
         tsUncertain := false
         sequenceNumber := talker.avtpSequenceNum
         dataLen := UInt16.ofNat (cfg.timestampsPerPacket * crfTimestampSize)
         timestampInterval := cfg.timestampInterval
         timestamps := timestamps },
        { queue := queue, avtpSequenceNum := talker.avtpSequenceNum + 1 })
  else none

inductive TalkerEvent where
  -- The interface module queues an item.
  | push (timestamps : List UInt64)
  -- The callback is called, with room for so many octets.
  | call (dataLen : UInt32)

def transmit (cfg : Settings) : Talker → List TalkerEvent → List Packet
  | _, [] => []
  | talker, .push timestamps :: events =>
    transmit cfg { talker with queue := talker.queue ++ [⟨timestamps, 0⟩] } events
  | talker, .call dataLen :: events =>
    match txCB cfg talker dataLen with
    | some (packet, talker) => packet :: transmit cfg talker events
    | none => transmit cfg talker events

structure Item where
  pAvtpTime : AvtpTime
  timestampInterval : UInt16
  restartClock : Bool
  timestamps : List UInt64

def blankItem : Item := ⟨⟨0, 0, false, false⟩, 0, false, []⟩

/-- The listener's media queue: the items pushed, the head, and how many there are to fill. -/
structure MediaQueue where
  pushed : List Item
  head : Item
  free : Nat

structure Listener where
  queue : MediaQueue
  lastClockRestartFlag : Bool
  lastSequenceNumber : UInt8

def MediaQueue.push (q : MediaQueue) : MediaQueue :=
  { pushed := q.pushed ++ [q.head], head := blankItem, free := q.free - 1 }

def MediaQueue.stored (q : MediaQueue) : List UInt64 :=
  q.pushed.flatMap Item.timestamps ++ q.head.timestamps

def Listener.restarts (l : Listener) (packet : Packet) : Bool :=
  l.lastClockRestartFlag != packet.clockRestartFlag ||
    l.lastSequenceNumber + 1 != packet.sequenceNumber

/-- A restart needs an item of its own: what is written to the one at the head is pushed. -/
def MediaQueue.prepare (q : MediaQueue) (restart : Bool) : MediaQueue :=
  if restart ∧ 0 < q.free ∧ q.head.timestamps ≠ [] then q.push else q

def Item.started (item : Item) (packet : Packet) (restart : Bool) (timestamp : UInt64) : Item :=
  if item.timestamps = [] then
    { item with
      pAvtpTime := { item.pAvtpTime with
        timeNsec := timestamp
        bTimestampValid := true
        bTimestampUncertain := packet.tsUncertain }
      timestampInterval := packet.timestampInterval
      restartClock := restart }
  else item

/-- One timestamp is written to the item at the head, if there is one; a full item is pushed. -/
def MediaQueue.store (cfg : Settings) (packet : Packet) (restart : Bool) (q : MediaQueue)
    (timestamp : UInt64) : MediaQueue :=
  if q.free = 0 then q
  else
    let item := q.head.started packet restart timestamp
    let item := { item with timestamps := item.timestamps ++ [timestamp] }
    if item.timestamps.length < cfg.itemTimestamps then { q with head := item }
    else { q with head := item }.push

def Packet.received (packet : Packet) : List UInt64 :=
  packet.timestamps.take (packet.dataLen.toNat / crfTimestampSize)

/-- The two loops of `openavbMapClkRefRxCB`, one timestamp at a time, up to a full queue. -/
def MediaQueue.storeAll (cfg : Settings) (packet : Packet) :
    Bool → MediaQueue → List UInt64 → MediaQueue
  | _, q, [] => q
  | restart, q, timestamp :: timestamps =>
    storeAll cfg packet false (q.store cfg packet restart timestamp) timestamps

/-- `openavbMapClkRefRxCB`; the packet is the last stored if its first timestamp has an item. -/
def rxCB (cfg : Settings) (l : Listener) (packet : Packet) : Listener :=
  if packet.received = [] then l
  else
    let restart := l.restarts packet
    let queue := l.queue.prepare restart
    if queue.free = 0 then { l with queue := queue }
    else
      { queue := queue.storeAll cfg packet restart packet.received
        lastClockRestartFlag := packet.clockRestartFlag
        lastSequenceNumber := packet.sequenceNumber }

open List

variable {cfg : Settings} {packet : Packet} {q : MediaQueue} {restart : Bool} {t : UInt64}
  {ts : List UInt64}

def MediaQueue.Open (cfg : Settings) (q : MediaQueue) : Prop :=
  q.head.timestamps.length < cfg.itemTimestamps

def MediaQueue.room (cfg : Settings) (q : MediaQueue) : Nat :=
  q.free * cfg.itemTimestamps - q.head.timestamps.length

theorem stored_push : q.push.stored = q.stored := by
  simp [MediaQueue.stored, MediaQueue.push, blankItem]

theorem open_push (h : q.Open cfg) : q.push.Open cfg := by
  simp only [MediaQueue.Open, MediaQueue.push, blankItem, length_nil] at h ⊢
  omega

theorem room_pos (h : q.Open cfg) (hfree : 0 < q.free) : 0 < q.room cfg := by
  have hone : cfg.itemTimestamps ≤ q.free * cfg.itemTimestamps := Nat.le_mul_of_pos_left _ hfree
  unfold MediaQueue.Open at h
  unfold MediaQueue.room
  omega

theorem timestamps_started (item : Item) :
    (item.started packet restart t).timestamps = item.timestamps := by
  unfold Item.started
  split <;> rfl

theorem store_full (h : q.free = 0) : q.store cfg packet restart t = q := by
  rw [MediaQueue.store, if_pos h]

theorem stored_store (h : 0 < q.free) :
    (q.store cfg packet restart t).stored = q.stored ++ [t] := by
  unfold MediaQueue.store
  rw [if_neg (Nat.ne_of_gt h)]
  dsimp only
  split
  · simp [MediaQueue.stored, timestamps_started]
  · rw [stored_push]
    simp [MediaQueue.stored, timestamps_started]

theorem open_store (h : q.Open cfg) : (q.store cfg packet restart t).Open cfg := by
  unfold MediaQueue.store
  split
  · exact h
  · dsimp only
    split
    case isTrue hroom => exact hroom
    case isFalse =>
      simp only [MediaQueue.Open, MediaQueue.push, blankItem, length_nil] at h ⊢
      omega

theorem room_store (h : q.Open cfg) (hfree : 0 < q.free) :
    (q.store cfg packet restart t).room cfg + 1 = q.room cfg := by
  have hpos := room_pos h hfree
  unfold MediaQueue.Open at h
  unfold MediaQueue.room at hpos
  unfold MediaQueue.store
  rw [if_neg (Nat.ne_of_gt hfree)]
  dsimp only
  rw [length_append, timestamps_started, length_singleton]
  split
  case isTrue hroom =>
    simp only [MediaQueue.room, length_append, length_singleton]
    omega
  case isFalse hroom =>
    have hmul : (q.free - 1) * cfg.itemTimestamps + cfg.itemTimestamps =
        q.free * cfg.itemTimestamps := by
      rw [← Nat.succ_mul, Nat.succ_eq_add_one, Nat.sub_add_cancel hfree]
    simp only [MediaQueue.room, MediaQueue.push, blankItem, length_nil]
    omega

theorem storeAll_full (h : q.free = 0) : q.storeAll cfg packet restart ts = q := by
  induction ts generalizing restart with
  | nil => rfl
  | cons t ts ih => rw [MediaQueue.storeAll, store_full h, ih]

theorem room_full (h : q.free = 0) : q.room cfg = 0 := by simp [MediaQueue.room, h]

theorem stored_storeAll (h : q.Open cfg) :
    (q.storeAll cfg packet restart ts).stored = q.stored ++ ts.take (q.room cfg) := by
  induction ts generalizing q restart with
  | nil => simp [MediaQueue.storeAll]
  | cons t ts ih =>
    rcases Nat.eq_zero_or_pos q.free with hfree | hfree
    · simp [storeAll_full hfree, room_full hfree]
    · rw [MediaQueue.storeAll, ih (open_store h), stored_store hfree, ← room_store h hfree,
        take_succ_cons, append_assoc, singleton_append]

theorem storeAll_take (h : q.Open cfg) : q.storeAll cfg packet restart (ts.take (q.room cfg)) =
      q.storeAll cfg packet restart ts := by
  induction ts generalizing q restart with
  | nil => simp
  | cons t ts ih =>
    rcases Nat.eq_zero_or_pos q.free with hfree | hfree
    · rw [storeAll_full hfree, storeAll_full hfree]
    · rw [← @room_store cfg packet q restart t h hfree, take_succ_cons, MediaQueue.storeAll,
        MediaQueue.storeAll, ih (open_store h)]

theorem storeAll_congr {packet' : Packet} (hu : packet'.tsUncertain = packet.tsUncertain)
    (hi : packet'.timestampInterval = packet.timestampInterval) :
    q.storeAll cfg packet' restart ts = q.storeAll cfg packet restart ts := by
  induction ts generalizing q restart with
  | nil => rfl
  | cons t ts ih =>
    have hstore : q.store cfg packet' restart t = q.store cfg packet restart t := by
      simp only [MediaQueue.store, Item.started, hu, hi]
    rw [MediaQueue.storeAll, MediaQueue.storeAll, hstore, ih]

theorem open_storeAll (h : q.Open cfg) : (q.storeAll cfg packet restart ts).Open cfg := by
  induction ts generalizing q restart with
  | nil => exact h
  | cons t ts ih => exact ih (open_store h)

theorem stored_prepare : (q.prepare restart).stored = q.stored := by
  unfold MediaQueue.prepare
  split
  · exact stored_push
  · rfl

theorem open_prepare (h : q.Open cfg) : (q.prepare restart).Open cfg := by
  unfold MediaQueue.prepare
  split
  · exact open_push h
  · exact h

theorem prepare_full (h : q.free = 0) : q.prepare restart = q := by simp [MediaQueue.prepare, h]

theorem room_prepare : (q.prepare restart).room cfg =
    if restart ∧ q.head.timestamps ≠ [] then (q.free - 1) * cfg.itemTimestamps else q.room cfg := by
  rcases Nat.eq_zero_or_pos q.free with hfree | hfree
  · simp [prepare_full hfree, MediaQueue.room, hfree]
  · unfold MediaQueue.prepare
    by_cases hnew : restart ∧ q.head.timestamps ≠ []
    case pos =>
      rw [if_pos ⟨hnew.1, hfree, hnew.2⟩, if_pos hnew]
      simp [MediaQueue.room, MediaQueue.push, blankItem]
    case neg =>
      rw [if_neg fun h => hnew ⟨h.1, h.2.2⟩, if_neg hnew]

/-- The room for the timestamps of a packet: a restart leaves what is left of an item unused. -/
def Listener.roomFor (cfg : Settings) (l : Listener) (packet : Packet) : Nat :=
  if l.restarts packet ∧ l.queue.head.timestamps ≠ [] then
    (l.queue.free - 1) * cfg.itemTimestamps
  else l.queue.room cfg

theorem roomFor_eq (l : Listener) :
    l.roomFor cfg packet = (l.queue.prepare (l.restarts packet)).room cfg :=
  room_prepare.symm

/-! ## The continuity of clock references -/

variable {cfg : Settings}

theorem unreadTimestamps_cons (item : TxItem) (queue : List TxItem) :
    unreadTimestamps (item :: queue) = item.unread ++ unreadTimestamps queue :=
  flatMap_cons

theorem writeTimestamps_eq {queue : List TxItem} {n : Nat}
    (h : n ≤ (unreadTimestamps queue).length) :
    ∃ queue', writeTimestamps queue n = some ((unreadTimestamps queue).take n, queue') ∧
      unreadTimestamps queue' = (unreadTimestamps queue).drop n := by
  induction queue generalizing n with
  | nil =>
    obtain rfl : n = 0 := by simpa [unreadTimestamps] using h
    exact ⟨[], by simp [writeTimestamps], by simp⟩
  | cons item queue ih =>
    cases n with
    | zero => exact ⟨item :: queue, by simp [writeTimestamps], by simp⟩
    | succ n =>
      rw [unreadTimestamps_cons, length_append] at h
      have hunread : item.unread.length = item.timestamps.length - item.readIdx := by
        simp [TxItem.unread]
      rw [writeTimestamps]
      simp only [length_take, unreadTimestamps_cons]
      by_cases hdone : item.timestamps.length ≤ item.readIdx + min (n + 1) item.unread.length
      case pos =>
        -- all of the item is read: the rest comes from the items behind it
        have hall : item.unread.length ≤ n + 1 := by omega
        obtain ⟨queue', hrest, hleft⟩ := ih (n := n + 1 - item.unread.length) (by omega)
        rw [if_pos hdone, min_eq_right hall, hrest]
        refine ⟨queue', ?_, ?_⟩
        · rw [take_of_length_le hall, take_append, take_of_length_le hall]
          rfl
        · rw [hleft, drop_append, drop_of_length_le hall, nil_append]
      case neg =>
        have hmore : n + 1 ≤ item.unread.length := by omega
        rw [if_neg hdone, min_eq_left hmore]
        refine ⟨{ item with readIdx := item.readIdx + (n + 1) } :: queue, ?_, ?_⟩
        · rw [take_append_of_le_length hmore]
        · rw [unreadTimestamps_cons, drop_append_of_le_length hmore]
          simp [TxItem.unread, drop_drop]

def Carry (cfg : Settings) (S : List UInt64) (sequenceNum : UInt8) (packets : List Packet) : Prop :=
  ∀ k packet, packets[k]? = some packet →
    packet.timestamps = (S.drop (k * cfg.timestampsPerPacket)).take cfg.timestampsPerPacket ∧
    packet.timestamps.length = cfg.timestampsPerPacket ∧
    packet.sequenceNumber = sequenceNum + UInt8.ofNat k ∧ packet.clockRestartFlag = false

def pushes : List TalkerEvent → List UInt64
  | [] => []
  | .push timestamps :: events => timestamps ++ pushes events
  | .call _ :: events => pushes events

variable {talker : Talker} {S : List UInt64}

theorem txCB_spec {dataLen : UInt32} {packet : Packet} {talker' : Talker}
    (h : txCB cfg talker dataLen = some (packet, talker')) :
    packet.timestamps = (unreadTimestamps talker.queue).take cfg.timestampsPerPacket ∧
      packet.timestamps.length = cfg.timestampsPerPacket ∧
      packet.sequenceNumber = talker.avtpSequenceNum ∧ packet.clockRestartFlag = false ∧
      unreadTimestamps talker'.queue =
        (unreadTimestamps talker.queue).drop cfg.timestampsPerPacket ∧
      talker'.avtpSequenceNum = talker.avtpSequenceNum + 1 := by
  unfold txCB at h
  split at h
  · cases h
  split at h
  case isFalse => cases h
  case isTrue henough =>
    obtain ⟨queue', hwrite, hleft⟩ := writeTimestamps_eq henough
    rw [hwrite] at h
    obtain ⟨rfl, rfl⟩ : _ ∧ _ := by simpa using h
    refine ⟨rfl, ?_, rfl, rfl, hleft, rfl⟩
    exact length_take_of_le henough

theorem carry_transmit (events : List TalkerEvent) :
    Carry cfg (unreadTimestamps talker.queue ++ pushes events) talker.avtpSequenceNum
      (transmit cfg talker events) := by
  induction events generalizing talker with
  | nil =>
    intro k packet h
    cases h
  | cons event events ih =>
    cases event with
    | push timestamps =>
      have hqueue : unreadTimestamps (talker.queue ++ [⟨timestamps, 0⟩]) =
          unreadTimestamps talker.queue ++ timestamps := by
        simp [unreadTimestamps, TxItem.unread]
      have hcarry := @ih { talker with queue := talker.queue ++ [⟨timestamps, 0⟩] }
      rw [hqueue, append_assoc] at hcarry
      exact hcarry
    | call dataLen =>
      rw [transmit]
      cases htx : txCB cfg talker dataLen with
      | none => exact ih
      | some sent =>
        obtain ⟨packet, talker'⟩ := sent
        obtain ⟨hstamps, hlen, hseq, hflag, hleft, hnext⟩ := txCB_spec htx
        have henough : cfg.timestampsPerPacket ≤ (unreadTimestamps talker.queue).length := by
          rw [hstamps, length_take] at hlen
          omega
        intro k other hother
        cases k with
        | zero =>
          obtain rfl : packet = other := by simpa using hother
          refine ⟨?_, hlen, by simpa using hseq, hflag⟩
          rw [hstamps, zero_mul, drop_zero, pushes, take_append_of_le_length henough]
        | succ k =>
          obtain ⟨hstamps', hlen', hseq', hflag'⟩ := @ih talker' k other (by simpa using hother)
          refine ⟨?_, hlen', ?_, hflag'⟩
          · rw [hstamps', hleft, pushes, Nat.succ_mul, add_comm, ← drop_drop,
              drop_append_of_le_length henough]
          · rw [hseq', hnext, UInt8.add_assoc]
            congr 1
            rw [add_comm k 1, UInt8.ofNat_add]
            rfl

/-- Timestamp `j` of the items is the first of one that restarts the clock. -/
def restartAt : List Item → Nat → Bool
  | [], _ => false
  | item :: items, j =>
    if j < item.timestamps.length then j == 0 && item.restartClock
    else restartAt items (j - item.timestamps.length)

def MediaQueue.items (q : MediaQueue) : List Item := q.pushed ++ [q.head]

theorem restartAt_append (xs ys : List Item) (j : Nat) : restartAt (xs ++ ys) j =
      if j < (xs.flatMap Item.timestamps).length then restartAt xs j
      else restartAt ys (j - (xs.flatMap Item.timestamps).length) := by
  induction xs generalizing j with
  | nil => simp
  | cons item xs ih =>
    simp only [cons_append, restartAt, flatMap_cons, length_append]
    by_cases hitem : j < item.timestamps.length
    · rw [if_pos hitem, if_pos hitem, if_pos (by omega)]
    · rw [if_neg hitem, if_neg hitem, ih]
      by_cases hxs : j - item.timestamps.length < (xs.flatMap Item.timestamps).length
      · rw [if_pos hxs, if_pos (by omega)]
      · rw [if_neg hxs, if_neg (by omega), Nat.sub_sub]

variable {packet : Packet} {q : MediaQueue} {restart : Bool} {t : UInt64} {ts : List UInt64}
  {j : Nat}

theorem restartAt_push (h : j < q.stored.length) :
    restartAt q.push.items j = restartAt q.items j := by
  have hitems : q.push.items = q.items ++ [blankItem] := rfl
  have hstored : (q.items.flatMap Item.timestamps).length = q.stored.length := by
    simp [MediaQueue.items, MediaQueue.stored]
  rw [hitems, restartAt_append, if_pos (by rwa [hstored])]

theorem restartAt_prepare (h : j < q.stored.length) :
    restartAt (q.prepare restart).items j = restartAt q.items j := by
  unfold MediaQueue.prepare
  split
  · exact restartAt_push h
  · rfl

theorem restartClock_started (item : Item) : (item.started packet restart t).restartClock =
    if item.timestamps = [] then restart else item.restartClock := by
  unfold Item.started
  split <;> rfl

theorem restartAt_store (hfree : 0 < q.free) (hj : j ≤ q.stored.length) :
    restartAt (q.store cfg packet restart t).items j =
      if j < q.stored.length then restartAt q.items j
      else q.head.timestamps.isEmpty && restart := by
  let item := q.head.started packet restart t
  let item' : Item := { item with timestamps := item.timestamps ++ [t] }
  have htimes : item'.timestamps = q.head.timestamps ++ [t] :=
    congrArg (· ++ [t]) (timestamps_started _)
  have hgrown : restartAt (MediaQueue.items { q with head := item' }) j =
      if j < q.stored.length then restartAt q.items j
      else q.head.timestamps.isEmpty && restart := by
    have hstored : q.stored.length =
        (q.pushed.flatMap Item.timestamps).length + q.head.timestamps.length :=
      length_append
    simp only [MediaQueue.items, restartAt_append, restartAt, htimes, length_append,
      length_singleton]
    have hflag : item'.restartClock =
        if q.head.timestamps = [] then restart else q.head.restartClock := restartClock_started _
    rw [hflag]
    by_cases hold : j < (q.pushed.flatMap Item.timestamps).length
    · rw [if_pos hold, if_pos (by omega), if_pos hold]
    rw [if_neg hold, if_neg hold, if_pos (by omega)]
    cases hhead : q.head.timestamps with
    | nil =>
      rw [hhead, length_nil, add_zero] at hstored
      rw [if_pos (rfl : ([] : List UInt64) = []), if_neg (show ¬ j < q.stored.length by omega),
        show j - (q.pushed.flatMap Item.timestamps).length = 0 by omega]
      rfl
    | cons t' ts' =>
      rw [hhead] at hstored
      rw [if_neg (by simp)]
      by_cases hlast : j < q.stored.length
      · rw [if_pos hlast, if_pos (by omega)]
      · rw [if_neg hlast]
        simp only [length_cons] at hstored
        have hpos : (j - (q.pushed.flatMap Item.timestamps).length == 0) = false := by
          rw [beq_eq_false_iff_ne]
          omega
        rw [hpos]
        rfl
  unfold MediaQueue.store
  rw [if_neg (Nat.ne_of_gt hfree)]
  dsimp only
  split
  · exact hgrown
  · rw [restartAt_push]
    · exact hgrown
    · have : (MediaQueue.stored { q with head := item' }).length = q.stored.length + 1 := by
        simp [MediaQueue.stored, htimes, add_assoc]
      exact lt_of_le_of_lt hj (this ▸ Nat.lt_succ_self _)

theorem restartAt_storeAll (hts : ts ≠ []) (hfree : 0 < q.free) (hj : j ≤ q.stored.length) :
    restartAt (q.storeAll cfg packet restart ts).items j =
      if j < q.stored.length then restartAt q.items j
      else q.head.timestamps.isEmpty && restart := by
  cases ts with
  | nil => exact absurd rfl hts
  | cons t ts =>
    rw [MediaQueue.storeAll, ← @restartAt_store cfg packet q restart t j hfree hj]
    have hlater : ∀ (ts : List UInt64) (q : MediaQueue), j < q.stored.length →
        restartAt (q.storeAll cfg packet false ts).items j = restartAt q.items j := by
      intro ts
      induction ts with
      | nil => intro q _; rfl
      | cons t ts ih =>
        intro q hq
        rcases Nat.eq_zero_or_pos q.free with hfull | hfree
        · rw [storeAll_full hfull]
        · have hgrown : j < (q.store cfg packet false t).stored.length := by
            rw [stored_store hfree, length_append]
            omega
          rw [MediaQueue.storeAll, ih _ hgrown, restartAt_store hfree (by omega), if_pos hq]
    refine hlater ts _ ?_
    rw [stored_store hfree, length_append, length_singleton]
    omega

def Listener.taken (cfg : Settings) (l : Listener) (packet : Packet) : Nat :=
  min packet.received.length (l.roomFor cfg packet)

structure Stored (cfg : Settings) (packet : Packet) (l l' : Listener) : Prop where
  isOpen : l'.queue.Open cfg
  stored : l'.queue.stored = l.queue.stored ++ packet.received.take (l.taken cfg packet)
  before : ∀ j < l.queue.stored.length, restartAt l'.queue.items j = restartAt l.queue.items j
  first : l.taken cfg packet ≠ 0 →
    restartAt l'.queue.items l.queue.stored.length = l.restarts packet ∧
      l'.lastSequenceNumber = packet.sequenceNumber ∧
      l'.lastClockRestartFlag = packet.clockRestartFlag
  none : l.taken cfg packet = 0 →
    l'.lastSequenceNumber = l.lastSequenceNumber ∧ l'.lastClockRestartFlag = l.lastClockRestartFlag

theorem rxCB_stored {l : Listener} (h : l.queue.Open cfg) :
    Stored cfg packet l (rxCB cfg l packet) := by
  unfold rxCB
  by_cases hnone : packet.received = []
  case pos =>
    have htaken : l.taken cfg packet = 0 := by simp [Listener.taken, hnone]
    rw [if_pos hnone]
    exact ⟨h, by simp [htaken], fun _ _ => rfl, fun hsome => absurd htaken hsome,
      fun _ => ⟨rfl, rfl⟩⟩
  rw [if_neg hnone]
  have hopen := @open_prepare cfg l.queue (l.restarts packet) h
  have hroom := @roomFor_eq cfg packet l
  have hlen : 0 < packet.received.length := length_pos_iff.mpr hnone
  by_cases hfree : (l.queue.prepare (l.restarts packet)).free = 0
  case pos =>
    have htaken : l.taken cfg packet = 0 := by
      rw [Listener.taken, hroom, room_full hfree, Nat.min_zero]
    simp only [if_pos hfree]
    exact ⟨hopen, by simp [htaken, stored_prepare], fun _ hj => restartAt_prepare hj,
      fun hsome => absurd htaken hsome, fun _ => ⟨rfl, rfl⟩⟩
  case neg =>
    have hpos := Nat.pos_of_ne_zero hfree
    have hsome : l.taken cfg packet ≠ 0 := by
      have := room_pos hopen hpos
      rw [Listener.taken, hroom]
      omega
    have hflag : ((l.queue.prepare (l.restarts packet)).head.timestamps.isEmpty &&
        l.restarts packet) = l.restarts packet := by
      cases hrestart : l.restarts packet with
      | false => exact Bool.and_false _
      | true =>
        rw [hrestart] at hpos
        unfold MediaQueue.prepare at hpos ⊢
        split
        case isTrue => rfl
        case isFalse hsame =>
          rw [if_neg hsame] at hpos
          have hempty : l.queue.head.timestamps = [] :=
            Classical.byContradiction fun hne => hsame ⟨rfl, hpos, hne⟩
          rw [hempty]
          rfl
    have hstored := @stored_prepare l.queue (l.restarts packet)
    simp only [if_neg hfree]
    refine ⟨open_storeAll hopen, ?_, fun j hj => ?_, fun _ => ⟨?_, rfl, rfl⟩,
      fun hzero => absurd hzero hsome⟩
    · rw [stored_storeAll hopen, hstored, Listener.taken, hroom, take_eq_take_min, Nat.min_comm]
    · rw [restartAt_storeAll hnone hpos (by rw [hstored]; omega), hstored, if_pos hj,
        restartAt_prepare hj]
    · rw [← hstored, restartAt_storeAll hnone hpos (le_refl _), if_neg (lt_irrefl _), hflag]

/-- The listener, how many packets have passed, and where at the talker the stored timestamps
stood. -/
structure Reception where
  listener : Listener
  next : Nat
  positions : List Nat

inductive Event where
  -- So many packets are lost, and the next one is delivered.
  | deliver (lost : Nat)
  -- The consumer is done with an item.
  | pull

def step (cfg : Settings) (packets : List Packet) (s : Reception) : Event → Reception
  | .pull =>
    { s with listener.queue.free := s.listener.queue.free + 1 }
  | .deliver lost =>
    match packets[s.next + lost]? with
    | none => s
    | some packet =>
      { listener := rxCB cfg s.listener packet
        next := s.next + lost + 1
        positions := s.positions ++ (List.range (s.listener.taken cfg packet)).map
          ((s.next + lost) * cfg.timestampsPerPacket + ·) }

def start (itemCount : Nat) : Reception := ⟨⟨⟨[], blankItem, itemCount⟩, false, 0⟩, 0, []⟩

/-- Some of the talker's timestamps, in order; two that were not neighbours are told apart. -/
structure Continuous (S : List UInt64) (s : Reception) : Prop where
  stored : s.listener.queue.stored.map some = s.positions.map (S[·]?)
  sorted : s.positions.Pairwise (· < ·)
  told : ∀ j a b, s.positions[j]? = some a → s.positions[j + 1]? = some b →
    b = a + 1 ∨ restartAt s.listener.queue.items (j + 1)

/-- A packet that is stored goes on from the last one stored, or its number says that it does
not. -/
def Detected (cfg : Settings) (packets : List Packet) (s : Reception) : Event → Prop
  | .pull => True
  | .deliver lost =>
    ∀ packet ∈ packets[s.next + lost]?, s.listener.taken cfg packet ≠ 0 →
      ∀ p ∈ s.positions.getLast?,
        (s.next + lost) * cfg.timestampsPerPacket = p + 1 ∨
          (s.next + lost - p / cfg.timestampsPerPacket) % 256 ≠ 1

structure Tracks (cfg : Settings) (S : List UInt64) (sequenceNum : UInt8) (s : Reception) :
    Prop where
  isOpen : s.listener.queue.Open cfg
  stored : s.listener.queue.stored.map some = s.positions.map (S[·]?)
  sorted : s.positions.Pairwise (· < ·)
  passed : ∀ p ∈ s.positions, p < s.next * cfg.timestampsPerPacket
  last : ∀ p ∈ s.positions.getLast?,
    s.listener.lastSequenceNumber = sequenceNum + UInt8.ofNat (p / cfg.timestampsPerPacket) ∧
      s.listener.lastClockRestartFlag = false

/-- Behind neighbours next to each other or told apart, only the first of a stretch matters. -/
theorem told_append {ps : List Nat} (told : Nat → Bool) {c n : Nat}
    (hps : ∀ j a b, ps[j]? = some a → ps[j + 1]? = some b → b = a + 1 ∨ told (j + 1)) :
    (∀ j a b, (ps ++ (List.range n).map (c + ·))[j]? = some a →
        (ps ++ (List.range n).map (c + ·))[j + 1]? = some b → b = a + 1 ∨ told (j + 1)) ↔
      (n ≠ 0 → ∀ p ∈ ps.getLast?, c = p + 1 ∨ told ps.length) := by
  constructor
  · intro h hn p hp
    have hlast : ps[ps.length - 1]? = some p := by rwa [← getLast?_eq_getElem?]
    obtain ⟨hlt, -⟩ := List.getElem?_eq_some_iff.mp hlast
    have hnext := h (ps.length - 1) p c
      (by rwa [getElem?_append_left hlt])
      (by
        rw [Nat.sub_add_cancel (by omega), getElem?_append_right (le_refl _), Nat.sub_self]
        simp [Nat.pos_of_ne_zero hn])
    rwa [Nat.sub_add_cancel (by omega)] at hnext
  · intro h j a b ha hb
    by_cases hold : j + 1 < ps.length
    · rw [getElem?_append_left (by omega)] at ha
      rw [getElem?_append_left hold] at hb
      exact hps j a b ha hb
    by_cases hfirst : j + 1 = ps.length
    case pos =>
      rw [getElem?_append_left (by omega)] at ha
      rw [getElem?_append_right (by omega), hfirst, Nat.sub_self] at hb
      obtain ⟨hn, rfl⟩ : 0 < n ∧ c = b := by
        cases n with
        | zero => simp at hb
        | succ n => exact ⟨Nat.succ_pos n, by simpa using hb⟩
      have hlast : a ∈ ps.getLast? := by
        rw [getLast?_eq_getElem?, ← hfirst, Nat.add_sub_cancel]
        exact ha
      rw [hfirst]
      exact h (Nat.ne_of_gt hn) a hlast
    case neg =>
      rw [getElem?_append_right (by omega)] at ha hb
      rw [show j + 1 - ps.length = j - ps.length + 1 by omega] at hb
      obtain ⟨i, hi, rfl⟩ : ∃ i, (List.range n)[j - ps.length]? = some i ∧ c + i = a := by
        simpa using ha
      obtain ⟨i', hi', rfl⟩ : ∃ i, (List.range n)[j - ps.length + 1]? = some i ∧ c + i = b := by
        simpa using hb
      obtain ⟨-, rfl⟩ := List.getElem?_eq_some_iff.mp hi
      obtain ⟨-, rfl⟩ := List.getElem?_eq_some_iff.mp hi'
      exact .inl (by simp [add_assoc])

theorem map_some_take_drop {c n : Nat} (h : n ≤ ((S.drop c).length)) :
    ((S.drop c).take n).map some = (List.range n).map (S[c + ·]?) := by
  refine ext_getElem? fun i => ?_
  by_cases hi : i < n
  · have hlen : c + i < S.length := by
      rw [length_drop] at h
      omega
    simp [hi, hlen]
  · simp [hi]

section Run

variable {S : List UInt64} {sequenceNum : UInt8} {packets : List Packet} {s : Reception}
  {lost : Nat}

theorem received_take (hcarry : Carry cfg S sequenceNum packets) {k : Nat}
    (hk : packets[k]? = some packet) (l : Listener) : l.taken cfg packet ≤ cfg.timestampsPerPacket ∧
      (packet.received.take (l.taken cfg packet)).map some =
        (List.range (l.taken cfg packet)).map (S[k * cfg.timestampsPerPacket + ·]?) := by
  obtain ⟨hstamps, hlen, -, -⟩ := hcarry k packet hk
  have hreceived : packet.received.length ≤ cfg.timestampsPerPacket := by
    rw [Packet.received, length_take, hlen]
    exact min_le_right _ _
  have htaken : l.taken cfg packet ≤ packet.received.length := min_le_left _ _
  refine ⟨by omega, ?_⟩
  have hfield : l.taken cfg packet ≤ packet.dataLen.toNat / crfTimestampSize := by
    rw [Packet.received, length_take] at htaken
    omega
  have henough : cfg.timestampsPerPacket ≤ (S.drop (k * cfg.timestampsPerPacket)).length := by
    rw [hstamps, length_take] at hlen
    omega
  rw [Packet.received, take_take, min_eq_left hfield, hstamps, take_take, min_eq_left (by omega)]
  exact map_some_take_drop (by omega)

theorem length_positions (h : Tracks cfg S sequenceNum s) :
    s.listener.queue.stored.length = s.positions.length := by
  simpa using congrArg List.length h.stored

section

variable (hpos : 0 < cfg.timestampsPerPacket) (hcarry : Carry cfg S sequenceNum packets)
  (h : Tracks cfg S sequenceNum s)
include hpos hcarry h

theorem step_tracks (e : Event) : Tracks cfg S sequenceNum (step cfg packets s e) := by
  cases e with
  | pull => exact ⟨h.isOpen, h.stored, h.sorted, h.passed, h.last⟩
  | deliver lost =>
    cases hk : packets[s.next + lost]? with
    | none =>
      have hsame : step cfg packets s (.deliver lost) = s := by simp only [step, hk]
      rwa [hsame]
    | some packet =>
      have hstored := @rxCB_stored cfg packet s.listener h.isOpen
      obtain ⟨htpp, htake⟩ := received_take hcarry hk s.listener
      obtain ⟨-, -, hseq, hflag⟩ := hcarry _ _ hk
      have hold : s.next * cfg.timestampsPerPacket ≤
          (s.next + lost) * cfg.timestampsPerPacket :=
        Nat.mul_le_mul_right _ (Nat.le_add_right _ _)
      have hnew : (s.next + lost + 1) * cfg.timestampsPerPacket =
          (s.next + lost) * cfg.timestampsPerPacket + cfg.timestampsPerPacket :=
        Nat.succ_mul _ _
      simp only [step, hk]
      refine ⟨hstored.isOpen, ?_, ?_, ?_, ?_⟩
      · rw [hstored.stored, map_append, h.stored, htake, map_append, map_map]
        rfl
      · rw [pairwise_append]
        refine ⟨h.sorted, ?_, ?_⟩
        · refine pairwise_map.mpr (pairwise_lt_range.imp fun hlt => ?_)
          omega
        · intro p hp y hy
          obtain ⟨i, -, rfl⟩ := mem_map.mp hy
          have := h.passed p hp
          omega
      · intro p hp
        rw [mem_append, mem_map] at hp
        rcases hp with hp | ⟨i, hi, rfl⟩
        · have := h.passed p hp
          simp only [hnew]
          omega
        · have := mem_range.mp hi
          simp only [hnew]
          omega
      · intro p hp
        by_cases hnone : s.listener.taken cfg packet = 0
        case pos =>
          rw [hnone, range_zero, map_nil, append_nil] at hp
          obtain ⟨hseq', hflag'⟩ := hstored.none hnone
          simp only [hseq', hflag']
          exact h.last p hp
        case neg =>
          obtain ⟨n, hn⟩ := Nat.exists_eq_succ_of_ne_zero hnone
          rw [hn, Nat.succ_eq_add_one, range_succ, map_append, ← append_assoc,
            map_singleton, getLast?_concat] at hp
          obtain rfl : (s.next + lost) * cfg.timestampsPerPacket + n = p := by simpa using hp
          have hdiv : ((s.next + lost) * cfg.timestampsPerPacket + n) / cfg.timestampsPerPacket =
              s.next + lost := by
            rw [mul_comm, Nat.mul_add_div hpos, Nat.div_eq_of_lt (by omega), add_zero]
          obtain ⟨-, hseq', hflag'⟩ := hstored.first hnone
          rw [hdiv]
          exact ⟨hseq'.trans hseq, hflag'.trans hflag⟩

theorem restarts_iff
    (hk : packets[s.next + lost]? = some packet) {p : Nat} (hp : p ∈ s.positions.getLast?) :
    s.listener.restarts packet ↔ (s.next + lost - p / cfg.timestampsPerPacket) % 256 ≠ 1 := by
  obtain ⟨-, -, hseq, hflag⟩ := hcarry _ _ hk
  obtain ⟨hlast, hlastFlag⟩ := h.last p hp
  have hpassed : p / cfg.timestampsPerPacket < s.next :=
    (Nat.div_lt_iff_lt_mul hpos).mpr (h.passed p (mem_of_getLast? hp))
  have hsame : s.listener.lastSequenceNumber + 1 = packet.sequenceNumber ↔
      (s.next + lost - p / cfg.timestampsPerPacket) % 256 = 1 := by
    rw [hlast, hseq, UInt8.add_assoc, UInt8.add_right_inj, ← UInt8.toNat_inj]
    simp only [UInt8.toNat_add, UInt8.toNat_ofNat', UInt8.toNat_one]
    generalize p / cfg.timestampsPerPacket = last at hpassed ⊢
    omega
  rw [Listener.restarts, hlastFlag, hflag]
  simp [hsame]

theorem continuous_step_iff (hs : Continuous S s) (e : Event) :
    Continuous S (step cfg packets s e) ↔ Detected cfg packets s e := by
  have htracks := step_tracks hpos hcarry h e
  -- the first two parts of continuity hold of every step
  have htold : Continuous S (step cfg packets s e) ↔
      ∀ j a b, (step cfg packets s e).positions[j]? = some a →
        (step cfg packets s e).positions[j + 1]? = some b →
        b = a + 1 ∨ restartAt (step cfg packets s e).listener.queue.items (j + 1) :=
    ⟨Continuous.told, fun htold => ⟨htracks.stored, htracks.sorted, htold⟩⟩
  rw [htold]
  cases e with
  | pull => exact iff_of_true hs.told trivial
  | deliver lost =>
    cases hk : packets[s.next + lost]? with
    | none =>
      have hsame : step cfg packets s (.deliver lost) = s := by simp only [step, hk]
      rw [hsame]
      exact iff_of_true hs.told (by simp [Detected, hk])
    | some packet =>
      have hstored := @rxCB_stored cfg packet s.listener h.isOpen
      have hlen := length_positions h
      have hbefore : ∀ j a b, s.positions[j]? = some a → s.positions[j + 1]? = some b →
          b = a + 1 ∨ restartAt (rxCB cfg s.listener packet).queue.items (j + 1) := by
        intro j a b ha hb
        obtain ⟨hlt, -⟩ := List.getElem?_eq_some_iff.mp hb
        rw [hstored.before (j + 1) (by omega)]
        exact hs.told j a b ha hb
      simp only [step, hk, Detected, Option.mem_some_iff, forall_eq']
      rw [told_append (restartAt (rxCB cfg s.listener packet).queue.items) hbefore]
      refine forall_congr' fun hsome => forall₂_congr fun p hp => ?_
      rw [← hlen, (hstored.first hsome).1, restarts_iff hpos hcarry h hk hp]

end

theorem tracks_start (itemCount : Nat) (hpos : 0 < cfg.itemTimestamps) :
    Tracks cfg S sequenceNum (start itemCount) := by
  refine ⟨hpos, rfl, .nil, ?_, ?_⟩
  · rintro p ⟨⟩
  · rintro p ⟨⟩

end Run

/-- In every run of the listener the clock goes on from timestamp to timestamp or is restarted, iff
at each packet that is stored the number of packets left out since the last one is none or shows in
the sequence number. -/
theorem clock_continuous_iff (cfg : Config) (itemCount : Nat) (sequenceNum : UInt8)
    (talkerEvents : List TalkerEvent) (events : List Event) :
    let packets := transmit cfg.toSettings ⟨[], sequenceNum⟩ talkerEvents
    Always (step cfg.toSettings packets) (Continuous (pushes talkerEvents)) (start itemCount)
        events ↔
      Each (step cfg.toSettings packets) (Detected cfg.toSettings packets) (start itemCount)
        events := by
  intro packets
  have hcarry : Carry cfg.toSettings (pushes talkerEvents) sequenceNum packets :=
    carry_transmit talkerEvents
  have hpos := cfg.timestampsPerPacket_pos
  refine always_iff_each (I := Tracks cfg.toSettings (pushes talkerEvents) sequenceNum)
    (fun s e h => step_tracks hpos hcarry h e)
    (fun s e h hs => continuous_step_iff hpos hcarry h hs e)
    (tracks_start itemCount cfg.itemTimestamps_pos) ?_
  exact ⟨rfl, .nil, by simp [start]⟩

theorem not_continuous {s : Reception} {a b : Nat} (hgap : b ≠ a + 1)
    (h : s.positions = [a, b] ∧ restartAt s.listener.queue.items 1 = false) : ¬ Continuous S s := by
  obtain ⟨hpositions, hrestart⟩ := h
  intro hs
  have htold := hs.told 0 a b (by rw [hpositions]; rfl) (by rw [hpositions]; rfl)
  simp [hgap, hrestart] at htold

/-- 256 packets find the only item full: the next one has the number that follows the one that was
stored, and does not restart the clock. -/
theorem clock_goes_on_after_gap : let cfg : Settings := ⟨1, 1, 160⟩
    let talkerEvents := .push ((List.range 258).map UInt64.ofNat) :: List.replicate 258 (.call 28)
    let events := List.replicate 257 (Event.deliver 0) ++ [.pull, .deliver 0]
    ¬ Continuous (pushes talkerEvents)
      (run (step cfg (transmit cfg ⟨[], 0⟩ talkerEvents)) (start 1) events) :=
  not_continuous (a := 0) (b := 257) (by decide) (by decide +kernel)

end OpenAvb.Pipeline.ClkRef
