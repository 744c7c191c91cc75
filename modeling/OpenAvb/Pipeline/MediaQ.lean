import OpenAvb.Ring

/-!
# The media queue

A ring of items between an interface module and a mapping module. `head` is the
next item to be filled and `tail` the next to be pulled; an index of -1, here
`none`, says that there is no such item. A function that does not return is
`none`.
-/

namespace OpenAvb.Pipeline

variable {α β : Type}

structure AvtpTime where
  (timeNsec maxLatencyNsec : UInt64)
  (bTimestampValid bTimestampUncertain : Bool)
  deriving DecidableEq

def AvtpTime.trusted (t : AvtpTime) : Bool := t.bTimestampValid && !t.bTimestampUncertain

/-- `openavbAvtpTimeIsPastTime` -/
def AvtpTime.isPastTime (t : AvtpTime) (nSecTime : UInt64) : Bool :=
  !t.trusted || t.timeNsec ≤ nSecTime || nSecTime + t.maxLatencyNsec < t.timeNsec

/-- `openavbAvtpTimeIsPast`, with what `CLOCK_GETTIME` gives, if it succeeds. -/
def AvtpTime.isPast (t : AvtpTime) : Option UInt64 → Bool
  | some nsNow => t.isPastTime nsNow
  | none => true

/-- `openavbAvtpTimeUsecDelta` -/
def AvtpTime.usecDelta (t : AvtpTime) : Option UInt64 → Int32
  | some nsNow => if t.trusted then ((t.timeNsec - nsNow).toInt64 / 1000).toInt32 else 0
  | none => 0

/-- A `media_q_item_t`; `data` is what the modules keep in its public and private areas. -/
structure Item (α : Type) where
  pAvtpTime : AvtpTime
  data : α
  (readIdx dataLen : UInt32)
  taken : Bool

structure MediaQ (α : Type) where
  (itemCount itemSize : Nat)
  pItems : Nat → Item α
  head : Option Nat
  headLocked : Bool
  tail : Option Nat
  tailLocked : Bool
  maxLatencyUsec : UInt32
  threadSafeOn : Bool
  maxStaleTailUsec : UInt32

inductive MutexCall where
  | lock
  | unlock

/-- What a function returns, the queue then, and what it did with the mutex. -/
structure Outcome (α β : Type) where
  ret : β
  q : MediaQ α
  calls : List MutexCall

def blankItem (maxLatencyUsec : UInt32) (blank : α) : Item α where
  pAvtpTime := ⟨0, maxLatencyUsec.toUInt64 * 1000, false, false⟩
  data := blank
  readIdx := 0
  dataLen := 0
  taken := false

namespace MediaQ

/-- `openavbMediaQCreate` -/
def create (blank : α) : MediaQ α where
  itemCount := 0
  itemSize := 0
  pItems := fun _ => blankItem 0 blank
  head := some 0
  headLocked := false
  tail := none
  tailLocked := false
  maxLatencyUsec := 0
  threadSafeOn := false
  maxStaleTailUsec := 1000000

variable (q : MediaQ α)

/-- `openavbMediaQSetSize`; the data of the new items is zeroed. -/
def setSize (itemCount itemSize : Nat) (blank : α) : Bool × MediaQ α :=
  if itemCount < 1 ∨ itemSize < 1 then (false, q)
  else if q.itemCount = 0 then
    (true, { q with
      itemCount := itemCount
      itemSize := itemSize
      pItems := fun _ => blankItem q.maxLatencyUsec blank })
  else (itemCount == q.itemCount && itemSize == q.itemSize, q)

def taken (x : Nat) : Bool := (q.pItems x).taken

def modify (x : Nat) (f : Item α → Item α) : MediaQ α :=
  { q with pItems := fun y => if y = x then f (q.pItems y) else q.pItems y }

def mutex (calls : List MutexCall) : List MutexCall :=
  if q.threadSafeOn then calls else []

def active (index : Option Nat) : Option Nat := if 0 < q.itemCount then index else none

/-- The loop of `x_openavbMediaQIncrementHead` and `x_openavbMediaQIncrementTail`: from `pos` to the
next item that is not taken, or to -1 at the other index. The turn is over when it comes back to
`start` counting up; it does not do so across the end of the array. -/
def seek (itemCount : Nat) (taken : Nat → Bool) (other : Option Nat) (start : Nat) :
    Nat → Nat → Option (Option Nat)
  | 0, _ => none
  | fuel + 1, pos =>
    if pos + 1 = start then some none
    else
      let pos := if pos + 1 ≥ itemCount then 0 else pos + 1
      if other = some pos then some none
      else if taken pos = false then some (some pos)
      else seek itemCount taken other start fuel pos

def incrementHead (head : Nat) : Option (MediaQ α) :=
  (seek q.itemCount q.taken q.tail head q.itemCount head).map fun head => { q with head := head }

def incrementTail (tail : Nat) : Option (MediaQ α) :=
  (seek q.itemCount q.taken q.head tail q.itemCount tail).map fun tail => { q with tail := tail }

def headLock : Outcome α (Option Nat) :=
  match q.active q.head with
  | some head => ⟨some head, { q with headLocked := true }, q.mutex [.lock]⟩
  | none => ⟨none, q, q.mutex [.lock, .unlock]⟩

def headUnlock : Outcome α Unit :=
  match q.active q.head with
  | some _ => ⟨(), { q with headLocked := false }, q.mutex [.unlock]⟩
  | none => ⟨(), q, []⟩

def headPush : Option (Outcome α Bool) :=
  match q.active q.head with
  | some head =>
    -- If tail not set, set it now
    let q := { q with tail := q.tail.or (some head) }
    let q := q.modify head fun item => { item with readIdx := 0 }
    (q.incrementHead head).map fun q =>
      ⟨true, { q with headLocked := false }, q.mutex [.unlock]⟩
  | none => some ⟨false, q, []⟩

def tailPull : Option (Outcome α Bool) :=
  match q.active q.tail with
  | some tail =>
    -- If head not set, set it now
    let q := { q with head := q.head.or (some tail) }
    let q := q.modify tail fun item => { item with readIdx := 0, dataLen := 0 }
    (q.incrementTail tail).map fun q =>
      ⟨true, { q with tailLocked := false }, q.mutex [.unlock]⟩
  | none => some ⟨false, q, []⟩

def maxStale : Int32 := (0 - q.maxStaleTailUsec).toInt32

/-- The loop of `x_openavbMediaQPurgeStaleTail`: the first item if it is stale, then every one past
its presentation time; `readings n` is the clock in round `n`. -/
def purge (readings : Nat → Option UInt64) :
    Nat → Nat → MediaQ α → Option (MediaQ α × List MutexCall)
  | 0, _, _ => none
  | fuel + 1, n, q =>
    match q.active q.tail with
    | some tail =>
      let time := (q.pItems tail).pAvtpTime
      let bPurge :=
        if n = 0 then decide (time.usecDelta (readings n) < q.maxStale)
        else time.isPast (readings n)
      if bPurge then
        ({ q with tailLocked := true } : MediaQ α).tailPull.bind fun pulled =>
          (purge readings fuel (n + 1) pulled.q).map fun rest =>
            (rest.1, pulled.calls ++ rest.2)
      else some ({ q with tailLocked := false }, [])
    | none => some (q, [])

def purgeStaleTail (readings : Nat → Option UInt64) : Option (MediaQ α × List MutexCall) :=
  if 0 < q.maxStaleTailUsec then purge readings (q.itemCount + 1) 0 q else some (q, [])

variable (ignoreTimestamp : Bool)

/-- `openavbMediaQTailLock` behind the purge. -/
def tailLockPurged (now : Option UInt64) : Outcome α (Option Nat) :=
  match q.active q.tail with
  | some tail =>
    if !ignoreTimestamp && !(q.pItems tail).pAvtpTime.isPast now then
      ⟨none, q, q.mutex [.lock, .unlock]⟩
    else ⟨some tail, { q with tailLocked := true }, q.mutex [.lock]⟩
  | none => ⟨none, q, q.mutex [.lock, .unlock]⟩

def tailLock (readings : Nat → Option UInt64)
    (now : Option UInt64) : Option (Outcome α (Option Nat)) :=
  if ignoreTimestamp then some (q.tailLockPurged true now)
  else
    (q.purgeStaleTail readings).map fun purged =>
      let locked := purged.1.tailLockPurged false now
      { locked with calls := purged.2 ++ locked.calls }

def tailUnlock : Outcome α Unit :=
  match q.active q.tail with
  | some _ => ⟨(), { q with tailLocked := false }, q.mutex [.unlock]⟩
  | none => ⟨(), q, []⟩

def tailItemTake (pItem : Nat) : Option (Outcome α Bool) :=
  match q.active q.tail with
  | some tail =>
    (q.incrementTail tail).map fun q =>
      let q := q.modify pItem fun item => { item with taken := true }
      ⟨true, { q with tailLocked := false }, q.mutex [.unlock]⟩
  | none => some ⟨false, q, []⟩

/-- `openavbMediaQTailItemGive` in front of the mutex. -/
def giveItem (pItem : Nat) : MediaQ α :=
  q.modify pItem fun item => { item with taken := false, readIdx := 0, dataLen := 0 }

/-- A queue without a head gets the first item that is not taken as its head. -/
def giveHead : MediaQ α :=
  if 0 < q.itemCount ∧ q.head = none then
    { q with head := (List.range q.itemCount).find? fun i => !q.taken i }
  else q

def tailItemGive (pItem : Nat) : Outcome α Bool :=
  ⟨true, (q.giveItem pItem).giveHead, q.mutex [.lock, .unlock]⟩

def next (tailIdx : Nat) : Nat := if tailIdx + 1 ≥ q.itemCount then 0 else tailIdx + 1

/-- The loop of `openavbMediaQIsAvailableBytes`; it ends at the first item that is not ready. -/
def availableFrom (q : MediaQ α) (bytes : UInt32) (ready : Item α → Bool) (endIdx : Nat) :
    Nat → Nat → UInt32 → Option Bool
  | 0, _, _ => none
  | fuel + 1, tailIdx, byteCnt =>
    let pTail := q.pItems tailIdx
    if !pTail.taken && !ready pTail then some false
    else
      let byteCnt := if pTail.taken then byteCnt else byteCnt + (pTail.dataLen - pTail.readIdx)
      if !pTail.taken && decide (bytes ≤ byteCnt) then some true
      else if q.next tailIdx = endIdx then some false
      else availableFrom q bytes ready endIdx fuel (q.next tailIdx) byteCnt

def ready (nSecTime : UInt64) (item : Item α) : Bool :=
  ignoreTimestamp || item.pAvtpTime.isPastTime nSecTime

/-- `openavbMediaQIsAvailableBytes` behind the purge. -/
def isAvailableBytes (bytes : UInt32) (ignoreTimestamp : Bool) (nSecTime : UInt64) : Option Bool :=
  match q.active q.tail with
  | some tail =>
    q.availableFrom bytes (ready ignoreTimestamp nSecTime) (q.head.getD tail) q.itemCount tail 0
  | none => some false

def countFrom (q : MediaQ α) (ready : Item α → Bool) : Nat → Nat → Nat → Option Nat
  | 0, _, _ => none
  | fuel + 1, tailIdx, itemCnt =>
    let pTail := q.pItems tailIdx
    if !pTail.taken && !ready pTail then some itemCnt
    else
      let itemCnt := if pTail.taken then itemCnt else itemCnt + 1
      if some (q.next tailIdx) = q.head then some itemCnt
      else if q.itemCount ≤ itemCnt then some itemCnt
      else countFrom q ready fuel (q.next tailIdx) itemCnt

/-- `openavbMediaQCountItems` behind the purge. Every turn counts at least one item, or none at
all. -/
def countItems (nSecTime : UInt64) : Option Nat :=
  match q.active q.tail with
  | some tail => q.countFrom (ready ignoreTimestamp nSecTime) (q.itemCount * q.itemCount) tail 0
  | none => some 0

end MediaQ

/-! ## Head and tail of the media queue -/

open List

open MediaQ

inductive Rings (N : Nat) (taken : Nat → Bool) : Option Nat → Option Nat → List Nat → Prop
  | idle {h : Nat} (hh : h < N) (hfree : taken h = false) : Rings N taken (some h) none []
  | busy {t d : Nat} (ht : t < N) (hd : 0 < d) (hdN : d < N) (htail : taken t = false)
      (hhead : taken (slot N t d) = false) :
      Rings N taken (some (slot N t d)) (some t) ((arc N t d).filter fun x => !taken x)
  | full {t : Nat} (ht : t < N) (htail : taken t = false) :
      Rings N taken none (some t) ((arc N t N).filter fun x => !taken x)
  | gone (hall : ∀ x, x < N → taken x = true) : Rings N taken none none []

variable {N t d h k n x fuel : Nat} {taken taken' : Nat → Bool} {head tail other : Option Nat}
  {queue : List Nat}

section

variable (ht : t < N)
include ht

theorem seek_step : seek N taken other t (fuel + 1) (slot N t n) =
      if slot N t (n + 1) = t ∧ t ≠ 0 then some none
      else if other = some (slot N t (n + 1)) then some none
      else if taken (slot N t (n + 1)) = false then some (some (slot N t (n + 1)))
      else seek N taken other t fuel (slot N t (n + 1)) := by
  have hN : 0 < N := by omega
  have hback : slot N t n + 1 = t ↔ slot N t (n + 1) = t ∧ t ≠ 0 := by
    rw [slot_succ hN]
    split <;> omega
  rw [seek, slot_succ hN]
  rw [slot_succ hN] at hback
  exact if_congr hback rfl rfl

theorem seek_skip
    (hskip : ∀ i, 0 < i → i ≤ n → i < N ∧ other ≠ some (slot N t i) ∧ taken (slot N t i) = true) :
    seek N taken other t (n + fuel) t = seek N taken other t fuel (slot N t n) := by
  induction n generalizing fuel with
  | zero => rw [slot_zero ht, zero_add]
  | succ n ih =>
    obtain ⟨hlt, hother, htaken⟩ := hskip (n + 1) (Nat.succ_pos n) (le_refl _)
    have hback : slot N t (n + 1) ≠ t := slot_ne ht (Nat.succ_pos n) hlt
    have hrun : seek N taken other t (n + (fuel + 1)) t =
        seek N taken other t (fuel + 1) (slot N t n) :=
      ih fun i hi hin => hskip i hi (by omega)
    rw [add_right_comm, add_assoc, hrun, seek_step ht, if_neg (fun h => hback h.1),
      if_neg hother, if_neg (by rw [htaken]; exact Bool.noConfusion)]

theorem seek_at (hk : 0 < k) (hkN : k ≤ N)
    (hskip : ∀ i, 0 < i → i < k → other ≠ some (slot N t i) ∧ taken (slot N t i) = true) :
    seek N taken other t N t = if slot N t k = t ∧ t ≠ 0 then some none
      else if other = some (slot N t k) then some none
      else if taken (slot N t k) = false then some (some (slot N t k))
      else seek N taken other t (N - k) (slot N t k) := by
  obtain ⟨n, rfl⟩ : ∃ n, k = n + 1 := ⟨k - 1, by omega⟩
  have hfuel : N = n + (N - (n + 1) + 1) := by omega
  have hrun : seek N taken other t (n + (N - (n + 1) + 1)) t =
      seek N taken other t (N - (n + 1) + 1) (slot N t n) :=
    seek_skip ht fun i hi hin => ⟨by omega, hskip i hi (by omega)⟩
  rw [← hfuel] at hrun
  rw [hrun, seek_step ht]

theorem seek_found (hk : 0 < k) (hkN : k < N)
    (hskip : ∀ i, 0 < i → i < k → other ≠ some (slot N t i) ∧ taken (slot N t i) = true)
    (hother : other ≠ some (slot N t k)) (hfree : taken (slot N t k) = false) :
    seek N taken other t N t = some (some (slot N t k)) := by
  rw [seek_at ht hk (by omega) hskip, if_neg (fun h => slot_ne ht hk hkN h.1), if_neg hother,
    if_pos hfree]

theorem seek_meets (hk : 0 < k) (hkN : k ≤ N)
    (hskip : ∀ i, 0 < i → i < k → other ≠ some (slot N t i) ∧ taken (slot N t i) = true)
    (hother : other = some (slot N t k)) : seek N taken other t N t = some none := by
  rw [seek_at ht hk hkN hskip, if_pos hother, ite_self]

theorem seek_turn (h0 : t ≠ 0)
    (hskip : ∀ i, 0 < i → i < N → other ≠ some (slot N t i) ∧ taken (slot N t i) = true) :
    seek N taken other t N t = some none := by
  rw [seek_at ht (by omega) (le_refl N) hskip, if_pos ⟨slot_ring ht, h0⟩]

theorem rings_push (hd : d < N) (htail : taken t = false) (hhead : taken (slot N t d) = false) :
    ∃ head, seek N taken (some t) (slot N t d) N (slot N t d) = some head ∧
      Rings N taken head (some t) (((arc N t d).filter fun x => !taken x) ++ [slot N t d]) := by
  have hN : 0 < N := by omega
  have hh : slot N t d < N := slot_lt hN
  have hapart : ∀ i, 0 < i → d + i < N → some t ≠ some (slot N (slot N t d) i) := by
    intro i hi hiN h
    have h0 := slot_inj (i := 0) (j := d + i) (by omega) hiN
      ((slot_zero ht).trans ((Option.some.inj h).trans slot_slot))
    omega
  cases first_or_none (fun i => taken (slot N t i) = false) d N with
  | inl h =>
    obtain ⟨k, hdk, hkN, hfree, hskip⟩ := h
    have hplace : slot N (slot N t d) (k - d) = slot N t k := by
      rw [slot_slot]
      exact congrArg (slot N t) (by omega)
    refine ⟨some (slot N t k), ?_, ?_⟩
    · rw [seek_found hh (k := k - d) (by omega) (by omega) ?_ (hapart _ (by omega) (by omega))
        (hplace ▸ hfree), hplace]
      · intro i hi hik
        refine ⟨hapart i hi (by omega), ?_⟩
        rw [slot_slot]
        simpa using hskip (d + i) (by omega) (by omega)
    · have hgrow := filter_arc_grow (p := fun x => !taken x) (N := N) (t := t) hdk
        (by simpa using hhead) (fun i hi hik => by simpa using hskip i hi hik)
      rw [← hgrow]
      exact .busy ht (by omega) hkN htail hfree
  | inr hskip =>
    have hplace : slot N (slot N t d) (N - d) = t := slot_back ht (by omega)
    refine ⟨none, ?_, ?_⟩
    · refine seek_meets hh (k := N - d) (by omega) (by omega) ?_ (by rw [hplace])
      intro i hi hik
      refine ⟨hapart i hi (by omega), ?_⟩
      rw [slot_slot]
      simpa using hskip (d + i) (by omega) (by omega)
    · have hgrow := filter_arc_grow (p := fun x => !taken x) (N := N) (t := t) hd
        (by simpa using hhead) (fun i hi hik => by simpa using hskip i hi hik)
      rw [← hgrow]
      exact .full ht htail

end

theorem rings_headPush (hr : Rings N taken (some h) tail queue) :
    ∃ head, seek N taken (tail.or (some h)) h N h = some head ∧
      Rings N taken head (tail.or (some h)) (queue ++ [h]) := by
  cases hr with
  | idle hh hfree =>
    have hpush := rings_push (d := 0) hh (by omega) hfree (by rwa [slot_zero hh])
    rwa [slot_zero hh, arc_zero] at hpush
  | busy ht hd hdN htail hhead => exact rings_push ht hdN htail hhead

theorem rings_advance (ht : t < N) (hd : 0 < d) (hdN : d ≤ N) (htail : taken t = false)
    (hhead : taken (slot N t d) = false) :
    ∃ tail rest, (arc N t d).filter (fun x => !taken x) = t :: rest ∧
      seek N taken (some (slot N t d)) t N t = some tail ∧
      Rings N taken (some (slot N t d)) tail rest := by
  have hN : 0 < N := by omega
  have hapart : ∀ i, 0 < i → i < d → some (slot N t d) ≠ some (slot N t i) := by
    intro i hi hid h
    have heq := Option.some.inj h
    cases Nat.lt_or_eq_of_le hdN with
    | inl hlt =>
      have := slot_inj hlt (by omega) heq
      omega
    | inr hring =>
      rw [hring, slot_ring ht] at heq
      have := slot_inj (i := 0) hN (by omega) ((slot_zero ht).trans heq)
      omega
  cases first_or_none (fun i => taken (slot N t i) = false) 0 d with
  | inl h =>
    obtain ⟨k, hk, hkd, hfree, hskip⟩ := h
    have hplace : slot N (slot N t k) (d - k) = slot N t d := by
      rw [slot_slot]
      exact congrArg (slot N t) (by omega)
    refine ⟨some (slot N t k), _, filter_arc_advance ht hk (by omega) (by simpa using htail)
        (fun i hi hik => by simpa using hskip i hi hik), ?_, ?_⟩
    · refine seek_found ht hk (by omega) ?_ (hapart k hk hkd) hfree
      intro i hi hik
      exact ⟨hapart i hi (by omega), by simpa using hskip i hi hik⟩
    · rw [← hplace]
      exact .busy (slot_lt hN) (by omega) (by omega) hfree (hplace ▸ hhead)
  | inr hskip =>
    have hnone : (arc N (slot N t d) (d - d)).filter (fun x => !taken x) = [] := by
      rw [Nat.sub_self, arc_zero, filter_nil]
    refine ⟨none, [], ?_, ?_, .idle (slot_lt hN) hhead⟩
    · rw [filter_arc_advance ht hd (le_refl d) (by simpa using htail)
        (fun i hi hid => by simpa using hskip i hi hid), hnone]
    · refine seek_meets ht hd hdN ?_ rfl
      intro i hi hid
      exact ⟨hapart i hi hid, by simpa using hskip i hi hid⟩

theorem rings_pull (hr : Rings N taken head (some t) queue) :
    ∃ tail rest, queue = t :: rest ∧ seek N taken (head.or (some t)) t N t = some tail ∧
      Rings N taken (head.or (some t)) tail rest := by
  cases hr with
  | busy ht hd hdN htail hhead => exact rings_advance ht hd (by omega) htail hhead
  | full ht htail =>
    have h := rings_advance (d := N) ht (by omega) (le_refl N) htail
      (by rwa [slot_ring ht])
    rwa [slot_ring ht] at h

section

variable (hr : Rings N taken head tail queue)
include hr

theorem Rings.nodup : queue.Nodup := by
  cases hr with
  | idle hh hfree => exact nodup_nil
  | busy ht hd hdN htail hhead => exact (nodup_arc (by omega)).filter _
  | full ht htail => exact (nodup_arc (le_refl N)).filter _
  | gone hall => exact nodup_nil

theorem Rings.length_le : queue.length ≤ N := by
  cases hr with
  | idle hh hfree => exact Nat.zero_le N
  | busy ht hd hdN htail hhead =>
    refine (length_filter_le _ _).trans ?_
    rw [length_arc]
    omega
  | full ht htail =>
    refine (length_filter_le _ _).trans ?_
    rw [length_arc]
  | gone hall => exact Nat.zero_le N

theorem Rings.tail_eq : queue.head? = tail := by
  cases hr with
  | idle hh hfree => rfl
  | busy ht hd hdN htail hhead =>
    obtain ⟨tail, rest, hqueue, -⟩ := rings_advance ht hd (by omega) htail hhead
    rw [hqueue]
    rfl
  | full ht htail =>
    obtain ⟨tail, rest, hqueue, -⟩ := rings_pull (.full ht htail)
    rw [hqueue]
    rfl
  | gone hall => rfl

end

theorem Rings.head_free (hr : Rings N taken (some h) tail queue) :
    h < N ∧ taken h = false ∧ h ∉ queue := by
  cases hr with
  | idle hh hfree => exact ⟨hh, hfree, not_mem_nil⟩
  | busy ht hd hdN htail hhead =>
    refine ⟨slot_lt (by omega), hhead, fun hmem => ?_⟩
    exact slot_not_mem_arc hdN (le_refl _) (mem_filter.mp hmem).1

theorem Rings.queued (hr : Rings N taken head tail queue) (hx : x ∈ queue) :
    x < N ∧ taken x = false := by
  cases hr with
  | idle | gone => cases hx
  | busy | full =>
    obtain ⟨hmem, hfree⟩ := mem_filter.mp hx
    obtain ⟨i, hi, rfl⟩ := mem_arc.mp hmem
    exact ⟨slot_lt (by omega), by simpa using hfree⟩

theorem Rings.no_head (hr : Rings N taken none tail queue) (hx : x < N)
    (hfree : taken x = false) : x ∈ queue := by
  cases hr with
  | full ht htail => exact mem_filter.mpr ⟨mem_arc_ring ht hx, by simpa using hfree⟩
  | gone hall =>
    rw [hall x hx] at hfree
    cases hfree

theorem Rings.mark (hr : Rings N taken head tail queue) (hx : x ∉ queue) (hh : head ≠ some x)
    (hmark : taken' x = true) (hsame : ∀ y, y ≠ x → taken' y = taken y) :
    Rings N taken' head tail queue := by
  have hfilter : ∀ (l : List Nat), x ∉ l.filter (fun x => !taken x) →
      l.filter (fun x => !taken x) = l.filter (fun x => !taken' x) := by
    intro l hl
    refine filter_congr fun y hy => ?_
    by_cases hyx : y = x
    case pos =>
      have htaken : taken y = true := by
        by_contra hfree
        exact hl (mem_filter.mpr ⟨hyx ▸ hy, by simpa [hyx] using hfree⟩)
      rw [htaken, hyx, hmark]
    case neg => rw [hsame y hyx]
  have hother : ∀ y, y ≠ x → taken y = false → taken' y = false := by
    intro y hy hfree
    rw [hsame y hy, hfree]
  have htail : ∀ t, tail = some t → t ≠ x := by
    rintro t rfl rfl
    exact hx (mem_of_mem_head? hr.tail_eq)
  cases hr with
  | idle hlt hfree => exact .idle hlt (hother _ (fun h => hh (congrArg some h)) hfree)
  | busy ht hd hdN hfree hhead =>
    rw [hfilter _ hx]
    exact .busy ht hd hdN (hother _ (htail _ rfl) hfree)
      (hother _ (fun h => hh (congrArg some h)) hhead)
  | full ht hfree =>
    rw [hfilter _ hx]
    exact .full ht (hother _ (htail _ rfl) hfree)
  | gone hall =>
    refine .gone fun y hy => ?_
    by_cases hyx : y = x
    case pos => rw [hyx, hmark]
    case neg => rw [hsame y hyx, hall y hy]

/-- The flag of the item is set behind the search, so that the search may find the item itself;
it does if it starts in slot 0 and there is nothing else to stop it. -/
theorem rings_take (hr : Rings N taken head (some t) queue)
    (hfits : ¬ (head = none ∧ t = 0 ∧ ∀ y, 0 < y → y < N → taken y = true))
    (hmark : taken' t = true) (hsame : ∀ y, y ≠ t → taken' y = taken y) :
    ∃ tail rest, queue = t :: rest ∧ seek N taken head t N t = some tail ∧
      Rings N taken' head tail rest := by
  have hnodup : queue.Nodup := hr.nodup
  cases hr with
  | @busy _ d ht hd hdN htail hhead =>
    obtain ⟨tail, rest, hqueue, hseek, hr⟩ := rings_advance ht hd (by omega) htail hhead
    refine ⟨tail, rest, hqueue, hseek, hr.mark ?_ ?_ hmark hsame⟩
    · rw [hqueue] at hnodup
      exact (nodup_cons.mp hnodup).1
    · exact fun h => slot_ne ht hd hdN (Option.some.inj h)
  | full ht htail =>
    have hN : 0 < N := by omega
    cases first_or_none (fun i => taken (slot N t i) = false) 0 N with
    | inl h =>
      obtain ⟨k, hk, hkN, hfree, hskip⟩ := h
      have hback : slot N (slot N t k) (N - k) = t := slot_back ht (by omega)
      -- The taken item and those it was followed by are the end of the turn from the new tail.
      have hend : (arc N t k).filter (fun x => !taken' x) = [] := by
        refine filter_arc_eq_nil fun i hi => ?_
        cases Nat.eq_zero_or_pos i with
        | inl h0 => rw [h0, slot_zero ht, hmark]; rfl
        | inr hpos =>
          have htaken : taken (slot N t i) = true := by simpa using hskip i hpos hi
          rw [hsame _ (slot_ne ht hpos (by omega)), htaken]
          rfl
      have hnew : (arc N (slot N t k) N).filter (fun x => !taken' x) =
          (arc N (slot N t k) (N - k)).filter (fun x => !taken x) := by
        have hsplit : arc N (slot N t k) N = arc N (slot N t k) (N - k) ++ arc N t k := by
          have h := arc_add (N := N) (t := slot N t k) (d := N - k) (e := k)
          rwa [Nat.sub_add_cancel (by omega), hback] at h
        rw [hsplit, filter_append, hend, append_nil]
        refine filter_congr fun y hy => ?_
        have hne : y ≠ t := by
          rintro rfl
          have hout := slot_not_mem_arc (N := N) (t := slot N y k) (k := N - k) (by omega)
            (le_refl _)
          rw [hback] at hout
          exact hout hy
        rw [hsame y hne]
      refine ⟨some (slot N t k), _, filter_arc_advance ht hk (by omega) (by simpa using htail)
          (fun i hi hik => by simpa using hskip i hi hik), ?_, ?_⟩
      · refine seek_found ht hk hkN (fun i hi hik => ⟨(Option.some_ne_none _).symm, ?_⟩)
          (Option.some_ne_none _).symm hfree
        simpa using hskip i hi hik
      · rw [← hnew]
        refine .full (slot_lt hN) ?_
        rw [hsame _ (slot_ne ht hk hkN), hfree]
    | inr hskip =>
      have hall : ∀ y, y < N → y ≠ t → taken y = true := by
        intro y hy hne
        rw [← slot_places ht hy]
        simpa using hskip _ (places_pos ht hy hne) (places_lt hN)
      have h0 : t ≠ 0 := by
        rintro rfl
        exact hfits ⟨rfl, rfl, fun y hy hyN => hall y hyN (by omega)⟩
      refine ⟨none, [], ?_, ?_, ?_⟩
      · rw [filter_arc_advance ht hN (le_refl N) (by simpa using htail)
          (fun i hi hiN => by simpa using hskip i hi hiN), Nat.sub_self, arc_zero, filter_nil]
      · exact seek_turn ht h0 fun i hi hiN =>
          ⟨(Option.some_ne_none _).symm, by simpa using hskip i hi hiN⟩
      · refine .gone fun y hy => ?_
        by_cases hyt : y = t
        case pos => rw [hyt, hmark]
        case neg => rw [hsame y hyt, hall y hy hyt]

/-- An item that is given back must not lie on the arc of the queued items. A queue without a head
takes the first slot that is not taken, which must be the item's, and so it must lie behind all
that is queued. -/
def GiveFits (N : Nat) (taken : Nat → Bool) (head tail : Option Nat) (x : Nat) : Prop :=
  match head, tail with
  | some h, some t => x ∉ arc N t (places N t h)
  | none, some t => (∀ y, y < x → taken y = true) ∧ ∀ y ∈ arc N x (places N x t), taken y = true
  | _, none => True

instance : Decidable (GiveFits N taken head tail x) :=
  match head, tail with
  | some h, some t => inferInstanceAs (Decidable (x ∉ arc N t (places N t h)))
  | none, some t =>
    inferInstanceAs (Decidable
      ((∀ y, y < x → taken y = true) ∧ ∀ y ∈ arc N x (places N x t), taken y = true))
  | some _, none => inferInstanceAs (Decidable True)
  | none, none => inferInstanceAs (Decidable True)

def firstFree (N : Nat) (taken : Nat → Bool) : Option Nat :=
  (List.range N).find? fun i => !taken i

theorem firstFree_eq (hx : x < N) (hfree : taken x = false)
    (hbelow : ∀ y, y < x → taken y = true) : firstFree N taken = some x := by
  rw [firstFree, find?_range_eq_some]
  refine ⟨by simpa using hfree, mem_range.mpr hx, fun y hy => ?_⟩
  simpa using hbelow y hy

theorem rings_give (hr : Rings N taken head tail queue) (hx : x < N) (htaken : taken x = true)
    (hfits : GiveFits N taken head tail x) (hfree : taken' x = false)
    (hsame : ∀ y, y ≠ x → taken' y = taken y) :
    Rings N taken' (head.or (firstFree N taken')) tail queue := by
  have hN : 0 < N := by omega
  have hother : ∀ y, taken y = false → taken' y = false := by
    intro y hy
    by_cases hyx : y = x
    case pos => rw [hyx, hfree]
    case neg => rw [hsame y hyx, hy]
  have hfilter : ∀ (l : List Nat), x ∉ l →
      l.filter (fun x => !taken x) = l.filter (fun x => !taken' x) := by
    intro l hl
    refine filter_congr fun y hy => ?_
    have hne : y ≠ x := by
      rintro rfl
      exact hl hy
    rw [hsame y hne]
  cases hr with
  | idle hh hidle => exact .idle hh (hother _ hidle)
  | busy ht hd hdN htail hhead =>
    have harc : x ∉ arc N _ _ := hfits
    rw [places_slot ht hdN] at harc
    rw [hfilter _ harc]
    exact .busy ht hd hdN (hother _ htail) (hother _ hhead)
  | @full t ht htail =>
    obtain ⟨hbelow, hbehind⟩ := hfits
    have hne : x ≠ t := by
      rintro rfl
      rw [htaken] at htail
      cases htail
    have hfirst : firstFree N taken' = some x :=
      firstFree_eq hx hfree fun y hy => by rw [hsame y (by omega), hbelow y hy]
    have hplace : slot N t (places N t x) = x := slot_places ht hx
    have hpos : 0 < places N t x := places_pos ht hx hne
    have hlt : places N t x < N := places_lt hN
    have hback : places N x t = N - places N t x := places_back ht hx hne
    have hsplit : (arc N t N).filter (fun x => !taken x) =
        (arc N t (places N t x)).filter (fun x => !taken x) := by
      have h := arc_add (N := N) (t := t) (d := places N t x) (e := N - places N t x)
      rw [Nat.add_sub_cancel' (by omega), hplace, ← hback] at h
      have hnone : (arc N x (places N x t)).filter (fun x => !taken x) = [] := by
        rw [filter_eq_nil_iff]
        intro y hy
        simpa using hbehind y hy
      rw [h, filter_append, hnone, append_nil]
    have harc : x ∉ arc N t (places N t x) := by
      have h := slot_not_mem_arc (t := t) hlt (le_refl _)
      rwa [hplace] at h
    have hbusy := Rings.busy ht hpos hlt (hother _ htail)
      (show taken' (slot N t (places N t x)) = false from hplace.symm ▸ hfree)
    rw [hplace, ← hfilter _ harc, ← hsplit] at hbusy
    rw [hfirst]
    exact hbusy
  | gone hall =>
    have hfirst : firstFree N taken' = some x :=
      firstFree_eq hx hfree fun y hy => by rw [hsame y (by omega), hall y (by omega)]
    rw [hfirst]
    exact .idle hx hfree

end OpenAvb.Pipeline
