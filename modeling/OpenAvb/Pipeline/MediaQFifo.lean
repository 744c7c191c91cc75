import OpenAvb.Pipeline.MediaQOwner

/-!
# The media queue as a bounded queue

If no item is ever taken out of the ring, the arc from the tail to the head is
the queue itself, and the two counting functions walk along it. The number of
octets is added up in 32 bits.
-/

namespace OpenAvb.Pipeline

open List

open MediaQ

variable {α : Type} {N t d fuel j : Nat}

variable {q : MediaQ α}

theorem next_slot (hq : q.itemCount = N) (hN : 0 < N) : q.next (slot N t j) = slot N t (j + 1) := by
  rw [MediaQ.next, hq, slot_succ hN]

def EndsAt (N t d : Nat) (head : Option Nat) : Prop :=
  d < N ∧ head = some (slot N t d) ∨ d = N ∧ head = none

theorem countFrom_arc (now : UInt64) (hq : q.itemCount = N) (hN : 0 < N)
    (hfree : ∀ x, x < N → q.taken x = false) (hend : EndsAt N t d q.head) (hj : j < d)
    (hfuel : d - j ≤ fuel) : q.countFrom (ready true now) fuel (slot N t j) j = some d := by
  have hdN : d ≤ N := by
    cases hend with
    | inl h => omega
    | inr h => omega
  induction fuel generalizing j with
  | zero => omega
  | succ fuel ih =>
    have htaken : (q.pItems (slot N t j)).taken = false := hfree _ (slot_lt hN)
    have hready : ready true now (q.pItems (slot N t j)) = true := rfl
    have hone : (if false = true then j else j + 1) = j + 1 := if_neg Bool.false_ne_true
    rw [countFrom]
    rw [htaken, hready, if_neg (by decide), hone, next_slot hq hN, hq]
    by_cases hlast : j + 1 = d
    case pos =>
      cases hend with
      | inl h => rw [h.2, hlast, if_pos rfl]
      | inr h => rw [h.2, if_neg (Option.some_ne_none _), if_pos (by omega), hlast]
    case neg =>
      have hne : some (slot N t (j + 1)) ≠ q.head := by
        cases hend with
        | inl h =>
          rw [h.2]
          intro heq
          have := slot_inj (by omega) h.1 (Option.some.inj heq)
          omega
        | inr h =>
          rw [h.2]
          exact Option.some_ne_none _
      rw [if_neg hne, if_neg (by omega)]
      exact ih (by omega) (by omega)

def scan (bytes : UInt32) : UInt32 → List (Item α) → Bool
  | _, [] => false
  | byteCnt, item :: items =>
    decide (bytes ≤ byteCnt + (item.dataLen - item.readIdx)) ||
      scan bytes (byteCnt + (item.dataLen - item.readIdx)) items

theorem availableFrom_arc (now : UInt64) (bytes byteCnt : UInt32)
    (hq : q.itemCount = N) (ht : t < N) (hfree : ∀ x, x < N → q.taken x = false) (hdN : d ≤ N)
    (hj : j < d) (hfuel : d - j ≤ fuel) :
    q.availableFrom bytes (ready true now) (slot N t d) fuel (slot N t j) byteCnt =
      some (scan bytes byteCnt ((arc N (slot N t j) (d - j)).map q.pItems)) := by
  have hN : 0 < N := by omega
  induction fuel generalizing j byteCnt with
  | zero => omega
  | succ fuel ih =>
    have htaken : (q.pItems (slot N t j)).taken = false := hfree _ (slot_lt hN)
    have hready : ready true now (q.pItems (slot N t j)) = true := rfl
    obtain ⟨n, hn⟩ : ∃ n, d - j = n + 1 := ⟨d - j - 1, by omega⟩
    rw [availableFrom, hn, arc_succ (slot_lt hN), map_cons, scan, slot_slot]
    dsimp only
    rw [htaken, hready, if_neg (by decide), if_neg Bool.false_ne_true, next_slot hq hN,
      Bool.not_false, Bool.true_and]
    by_cases hmet : bytes ≤ byteCnt + ((q.pItems (slot N t j)).dataLen -
        (q.pItems (slot N t j)).readIdx)
    case pos => rw [if_pos (decide_eq_true hmet), decide_eq_true hmet, Bool.true_or]
    case neg =>
      rw [decide_eq_false hmet, if_neg Bool.false_ne_true, Bool.false_or]
      by_cases hlast : j + 1 = d
      case pos =>
        have hn0 : n = 0 := by omega
        rw [hlast, if_pos rfl, hn0]
        rfl
      case neg =>
        have hne : slot N t (j + 1) ≠ slot N t d := by
          intro heq
          cases Nat.lt_or_eq_of_le hdN with
          | inl hlt =>
            have := slot_inj (by omega) hlt heq
            omega
          | inr hring =>
            rw [hring, slot_ring ht] at heq
            exact slot_ne ht (Nat.succ_pos j) (by omega) heq
        have hrest : n = d - (j + 1) := by omega
        rw [if_neg hne, ih _ (by omega) (by omega), hrest]

def unread (items : List (Item α)) : Nat :=
  (items.map fun item => item.dataLen.toNat - item.readIdx.toNat).sum

/-- The unread octets are fewer than `2 ^ 32` up to the item with which they come to `bytes`. -/
def CountsTo (bytes : Nat) : Nat → List (Item α) → Prop
  | _, [] => True
  | byteCnt, item :: items =>
    let byteCnt := byteCnt + (item.dataLen.toNat - item.readIdx.toNat)
    byteCnt < 2 ^ 32 ∧ (byteCnt < bytes → CountsTo bytes byteCnt items)

theorem scan_eq {items : List (Item α)} (bytes byteCnt : UInt32)
    (hread : ∀ item ∈ items, item.readIdx ≤ item.dataLen)
    (hcounts : CountsTo bytes.toNat byteCnt.toNat items) (hless : byteCnt < bytes) :
    scan bytes byteCnt items = decide (bytes.toNat ≤ byteCnt.toNat + unread items) := by
  induction items generalizing byteCnt with
  | nil =>
    have hlt : byteCnt.toNat < bytes.toNat := hless
    rw [scan, eq_comm, decide_eq_false_iff_not]
    show ¬ bytes.toNat ≤ byteCnt.toNat + 0
    omega
  | cons item items ih =>
    obtain ⟨hroom, hrest⟩ := hcounts
    have hitem : item.readIdx.toNat ≤ item.dataLen.toNat := hread item mem_cons_self
    have hcons : unread (item :: items) =
        item.dataLen.toNat - item.readIdx.toNat + unread items := rfl
    have hnew : (byteCnt + (item.dataLen - item.readIdx)).toNat =
        byteCnt.toNat + (item.dataLen.toNat - item.readIdx.toNat) := by
      rw [UInt32.toNat_add, UInt32.toNat_sub_of_le _ _ hitem]
      exact Nat.mod_eq_of_lt hroom
    rw [scan, hcons]
    by_cases hmet : bytes ≤ byteCnt + (item.dataLen - item.readIdx)
    case pos =>
      have hle : bytes.toNat ≤ (byteCnt + (item.dataLen - item.readIdx)).toNat := hmet
      rw [decide_eq_true hmet, Bool.true_or, eq_comm, decide_eq_true_eq]
      omega
    case neg =>
      have hlt : byteCnt + (item.dataLen - item.readIdx) < bytes := UInt32.not_le.mp hmet
      rw [← hnew] at hrest
      rw [decide_eq_false hmet, Bool.false_or,
        ih _ (fun i hi => hread i (mem_cons_of_mem _ hi)) (hrest hlt) hlt, hnew, add_assoc]

theorem Rings.plain {taken : Nat → Bool} {i j : Option Nat} {queue : List Nat}
    (hr : Rings N taken i j queue) (hfree : ∀ x, x < N → taken x = false) (hN : 0 < N) :
    j = none ∧ queue = [] ∧ i ≠ none ∨
      ∃ t d, j = some t ∧ t < N ∧ 0 < d ∧ EndsAt N t d i ∧ queue = arc N t d := by
  have hall : ∀ t d, (arc N t d).filter (fun x => !taken x) = arc N t d := by
    intro t d
    refine filter_eq_self.mpr fun x hx => ?_
    obtain ⟨k, -, rfl⟩ := mem_arc.mp hx
    rw [hfree _ (slot_lt hN)]
    rfl
  cases hr with
  | idle hh hidle => exact Or.inl ⟨rfl, rfl, Option.some_ne_none _⟩
  | busy ht hd hdN htail hhead =>
    rw [hall]
    exact Or.inr ⟨_, _, rfl, ht, hd, Or.inl ⟨hdN, rfl⟩, rfl⟩
  | full ht htail =>
    rw [hall]
    exact Or.inr ⟨_, _, rfl, ht, hN, Or.inr ⟨rfl, rfl⟩, rfl⟩
  | gone hgone =>
    have htaken := hgone 0 hN
    rw [hfree 0 hN] at htaken
    cases htaken

/-- The items of these slots are queued, oldest first, none taken; without a size there are none. -/
structure MediaQ.Queues (q : MediaQ α) (slots : List Nat) : Prop where
  free : ∀ x, x < q.itemCount → q.taken x = false
  rings : 0 < q.itemCount → Rings q.itemCount q.taken q.head q.tail slots
  empty : q.itemCount = 0 → slots = []

namespace MediaQ.Queues

variable {q : MediaQ α} {slots rest : List Nat} {x y : Nat}

theorem active_tail (h : q.Queues slots) : q.active q.tail = slots.head? := by
  unfold active
  split
  case isTrue hpos => exact (h.rings hpos).tail_eq.symm
  case isFalse hzero =>
    rw [h.empty (by omega)]
    rfl

theorem pos (h : q.Queues (x :: rest)) : 0 < q.itemCount := by
  refine Nat.pos_of_ne_zero fun hzero => ?_
  cases h.empty hzero

theorem nodup (h : q.Queues slots) : slots.Nodup := by
  cases Nat.eq_zero_or_pos q.itemCount with
  | inl hzero =>
    rw [h.empty hzero]
    exact nodup_nil
  | inr hpos => exact (h.rings hpos).nodup

theorem length_le (h : q.Queues slots) : slots.length ≤ q.itemCount := by
  cases Nat.eq_zero_or_pos q.itemCount with
  | inl hzero =>
    rw [h.empty hzero]
    exact Nat.zero_le _
  | inr hpos => exact (h.rings hpos).length_le

theorem congr {q' : MediaQ α} (h : q.Queues slots) (hcount : q'.itemCount = q.itemCount)
    (htaken : q'.taken = q.taken) (hhead : q'.head = q.head) (htail : q'.tail = q.tail) :
    q'.Queues slots := by
  refine ⟨?_, ?_, ?_⟩ <;> rw [hcount]
  · rw [htaken]
    exact h.free
  · rw [htaken, hhead, htail]
    exact h.rings
  · exact h.empty

theorem tailPull (h : q.Queues (x :: rest)) :
    ∃ o, q.tailPull = some o ∧ o.q.Queues rest ∧
      Turned q (q.head.or (some x)) rest.head?
        (q.modify x fun item => { item with readIdx := 0, dataLen := 0 }).pItems o := by
  have hr := h.rings h.pos
  have htail : q.tail = some x := hr.tail_eq.symm
  rw [htail] at hr
  obtain ⟨j, rest', hqueue, hseek, hr⟩ := rings_pull hr
  cases hqueue
  obtain ⟨o, ho, hturn⟩ := tailPull_turned q h.active_tail hseek
  have htaken : o.q.taken = q.taken :=
    (taken_congr hturn.pItems).trans (taken_modify q x fun item => rfl)
  have hqueues : o.q.Queues rest := by
    refine ⟨?_, ?_, ?_⟩
    · rw [hturn.itemCount, htaken]
      exact h.free
    · rw [hturn.itemCount, htaken, hturn.head, hturn.tail]
      exact fun _ => hr
    · intro hzero
      have := h.pos
      rw [hturn.itemCount] at hzero
      omega
  rw [hr.tail_eq]
  exact ⟨o, ho, hqueues, hturn⟩

theorem isAvailableBytes (h : q.Queues slots) (bytes : UInt32) (now : UInt64) :
    q.isAvailableBytes bytes true now = some (scan bytes 0 (slots.map q.pItems)) := by
  rw [MediaQ.isAvailableBytes, h.active_tail]
  cases Nat.eq_zero_or_pos q.itemCount with
  | inl hzero =>
    rw [h.empty hzero]
    rfl
  | inr hpos =>
    have hr := h.rings hpos
    cases hr.plain h.free hpos with
    | inl hidle =>
      rw [hidle.2.1]
      rfl
    | inr harc =>
      obtain ⟨t, d, htail, ht, hd, hend, hqueue⟩ := harc
      have hdN : d ≤ q.itemCount := by
        cases hend with
        | inl hbusy => omega
        | inr hfull => omega
      have hidx : q.head.getD t = slot q.itemCount t d := by
        cases hend with
        | inl hbusy => rw [hbusy.2]; rfl
        | inr hfull => rw [hfull.2, hfull.1, slot_ring ht]; rfl
      have hwalk := availableFrom_arc now bytes 0 rfl ht h.free hdN hd
        (le_trans (Nat.sub_le d 0) hdN)
      rw [slot_zero ht] at hwalk
      rw [hr.tail_eq, htail]
      dsimp only
      rw [hidx, hwalk, Nat.sub_zero, ← hqueue]

end MediaQ.Queues

structure MediaQ.Leaves (q q' : MediaQ α) (slots : List Nat) : Prop where
  queues : q'.Queues slots
  items : ∀ x ∈ slots, q'.pItems x = q.pItems x

namespace MediaQ.Leaves

variable {q q' : MediaQ α} {slots rest : List Nat} {x : Nat}

theorem trans {q'' : MediaQ α} {fewer : List Nat} (h : q.Leaves q' slots)
    (h' : q'.Leaves q'' fewer) (hsub : ∀ x ∈ fewer, x ∈ slots) : q.Leaves q'' fewer :=
  ⟨h'.queues, fun x hx => (h'.items x hx).trans (h.items x (hsub x hx))⟩

theorem tailPull (h : q.Queues (x :: rest)) (hq' : q'.Queues (x :: rest))
    (hitems : ∀ y, y ≠ x → q'.pItems y = q.pItems y) :
    ∃ o, q'.tailPull = some o ∧ q.Leaves o.q rest := by
  obtain ⟨o, ho, hqueues, hturn⟩ := hq'.tailPull
  refine ⟨o, ho, hqueues, fun y hy => ?_⟩
  have hne : y ≠ x := by
    rintro rfl
    exact (nodup_cons.mp h.nodup).1 hy
  rw [hturn.pItems, pItems_modify_of_ne _ _ hne, hitems y hne]

end MediaQ.Leaves

def Call.Plain : Call α → Prop
  | .tailItemTake | .tailItemGive _ => False
  | _ => True

namespace Session

variable {s : Session α}

structure Plain (N : Nat) (s : Session α) : Prop where
  kept : s.Kept N
  held : s.held = []
  read : ∀ p ∈ s.queued, p.2.readIdx ≤ p.2.dataLen

theorem Plain.free (h : s.Plain N) (hx : x < N) : s.q.taken x = false := by
  cases ht : s.q.taken x with
  | false => rfl
  | true =>
    have hmem := (h.kept.held x).mpr ⟨hx, ht⟩
    rw [h.held] at hmem
    cases hmem

theorem Plain.queues (h : s.Plain N) : s.q.Queues s.slots := by
  have hcount := h.kept.count
  have hpos := h.kept.pos
  refine ⟨?_, ?_, fun hzero => by omega⟩
  · rw [hcount]
    exact fun x => h.free
  · rw [hcount]
    exact fun _ => h.kept.rings

theorem held_step (c : Call α) (hc : c.Plain) : (s.step c).held = s.held := by
  cases c with
  | tailItemTake | tailItemGive => cases hc
  | headLock | headUnlock | tailLock | tailUnlock => rfl
  | fill | headPush | consume | tailPull => unfold step; dsimp only; split <;> rfl

theorem Plain.read_step (h : s.Plain N) (c : Call α) (hc : c.Plain) (hf : s.Follows c) :
    ∀ p ∈ (s.step c).queued, p.2.readIdx ≤ p.2.dataLen := by
  cases c with
  | tailItemTake | tailItemGive => cases hc
  | headLock | headUnlock | tailLock | tailUnlock => exact h.read
  | fill pAvtpTime data dataLen => unfold step; dsimp only; split <;> exact h.read
  | headPush =>
    unfold step
    dsimp only
    split
    case h_1 x o hitem hpush =>
      intro p hp
      cases mem_append.mp hp with
      | inl hold => exact h.read p hold
      | inr hlast =>
        rw [mem_singleton.mp hlast]
        exact UInt32.zero_le
    case h_2 => exact h.read
    case h_3 => exact h.read
  | consume readIdx =>
    obtain ⟨x, hitem, hle⟩ := hf
    have hfirst : s.slots.head? = some x := h.kept.rings.tail_eq.trans (h.kept.tail_locked x hitem)
    unfold step
    dsimp only
    split
    case h_1 y z item rest hy hqueued =>
      rw [slots, hqueued] at hfirst
      cases hfirst
      have hcontents : s.q.pItems z = item := h.kept.contents (z, item) (hqueued ▸ mem_cons_self)
      intro p hp
      cases mem_cons.mp hp with
      | inl hhere =>
        rw [hhere]
        show readIdx ≤ item.dataLen
        rw [← hcontents]
        exact hle
      | inr hrest => exact h.read p (hqueued ▸ mem_cons_of_mem _ hrest)
    case h_2 => exact h.read
  | tailPull =>
    unfold step
    dsimp only
    split
    case h_1 => exact fun p hp => h.read p (mem_of_mem_tail hp)
    case h_2 => exact h.read

theorem Plain.step (h : s.Plain N) (c : Call α) (hc : c.Plain) (hf : s.Follows c) :
    (s.step c).Plain N where
  kept := by
    refine h.kept.step c hf ?_
    cases c with
    | tailItemTake => cases hc
    | tailItemGive x => cases hc
    | _ => exact trivial
  held := (held_step c hc).trans h.held
  read := h.read_step c hc hf

/-- A first-in-first-out queue of `N` items: what the functions return, by what is queued. -/
structure Fifo (N : Nat) (s : Session α) : Prop where
  headLock : s.q.headLock.ret = none ↔ s.queued.length = N
  tailLock : ∀ readings now,
    (s.q.tailLock true readings now).map (fun o => o.ret.map fun x => (x, o.q.pItems x)) =
      some s.queued.head?
  countItems : ∀ now, s.q.countItems true now = some s.queued.length
  isAvailableBytes : ∀ bytes now, 0 < bytes → CountsTo bytes.toNat 0 (s.queued.map Prod.snd) →
    s.q.isAvailableBytes bytes true now =
      some (decide (bytes.toNat ≤ unread (s.queued.map Prod.snd)))
  returns : s.hung = false

theorem Plain.fifo (h : s.Plain N) : s.Fifo N where
  headLock := by
    have hlen : s.queued.length = s.slots.length := (length_map _).symm
    rw [headLock_ret, h.kept.active, hlen]
    cases h.kept.rings.plain (fun x => h.free) h.kept.pos with
    | inl hidle =>
      obtain ⟨-, hqueue, hhead⟩ := hidle
      have := h.kept.pos
      rw [hqueue]
      exact ⟨fun hnone => absurd hnone hhead, fun hzero => absurd hzero (by simp; omega)⟩
    | inr harc =>
      obtain ⟨t, d, -, -, -, hend, hqueue⟩ := harc
      have hlen : s.slots.length = d := by rw [hqueue, length_arc]
      rw [hlen]
      cases hend with
      | inl hbusy =>
        rw [hbusy.2]
        exact ⟨fun hnone => absurd hnone (Option.some_ne_none _), fun heq => absurd heq (by omega)⟩
      | inr hfull => exact ⟨fun _ => hfull.1, fun _ => hfull.2⟩
  tailLock := by
    intro readings now
    have hitems := (tailLockPurged_same s.q true now).pItems
    have hfirst := h.kept.rings.tail_eq
    show some ((s.q.tailLockPurged true now).ret.map _) = _
    rw [tailLockPurged_ret, h.kept.active, hitems, ← hfirst]
    cases hqueued : s.queued with
    | nil =>
      rw [slots, hqueued]
      rfl
    | cons p rest =>
      have hcontents := h.kept.contents p (hqueued ▸ mem_cons_self)
      rw [slots, hqueued]
      show some (some (p.1, s.q.pItems p.1)) = some (some p)
      rw [hcontents]
  countItems := by
    intro now
    have hlen : s.queued.length = s.slots.length := (length_map _).symm
    rw [MediaQ.countItems, h.kept.active, hlen]
    cases h.kept.rings.plain (fun x => h.free) h.kept.pos with
    | inl hidle =>
      rw [hidle.1, hidle.2.1]
      rfl
    | inr harc =>
      obtain ⟨t, d, htail, ht, hd, hend, hqueue⟩ := harc
      have hlen : s.slots.length = d := by rw [hqueue, length_arc]
      have hdN : d ≤ N := by
        cases hend with
        | inl hbusy => omega
        | inr hfull => omega
      have hfuel : d - 0 ≤ N * N := le_trans (by omega) (Nat.le_mul_of_pos_left N h.kept.pos)
      have hcount := countFrom_arc now h.kept.count h.kept.pos (fun x => h.free) hend hd hfuel
      rw [slot_zero ht] at hcount
      rw [htail, hlen, h.kept.count]
      exact hcount
  isAvailableBytes := by
    intro bytes now hbytes hcounts
    have hitems : s.queued.map Prod.snd = s.slots.map s.q.pItems := by
      rw [slots, map_map]
      exact map_congr_left fun p hp => (h.kept.contents p hp).symm
    have hread : ∀ item ∈ s.queued.map Prod.snd, item.readIdx ≤ item.dataLen := by
      intro item hitem
      obtain ⟨p, hp, rfl⟩ := mem_map.mp hitem
      exact h.read p hp
    have hscan := scan_eq bytes 0 hread hcounts hbytes
    rw [h.queues.isAvailableBytes, ← hitems, hscan]
    simp [UInt32.toNat_zero]
  returns := h.kept.returns

end Session

/-- A queue no item is ever taken from is a first-in-first-out queue; the count of unread octets
must not overflow before it comes to what is asked for. -/
theorem mediaQ_fifo (maxLatencyUsec maxStaleTailUsec : UInt32) (threadSafeOn : Bool) (blank : α)
    (itemCount itemSize : Nat) (hcount : 1 ≤ itemCount) (hsize : 1 ≤ itemSize)
    (calls : List (Call α)) (hcalls : Each Session.step (fun s c => c.Plain ∧ s.Follows c)
      (.start (opened maxLatencyUsec maxStaleTailUsec threadSafeOn itemCount itemSize blank)) calls) :
    Always Session.step (Session.Fifo itemCount)
      (.start (opened maxLatencyUsec maxStaleTailUsec threadSafeOn itemCount itemSize blank))
      calls := by
  have hstart : (Session.start
      (opened maxLatencyUsec maxStaleTailUsec threadSafeOn itemCount itemSize blank)).Plain
      itemCount :=
    ⟨Session.opened_kept maxLatencyUsec maxStaleTailUsec threadSafeOn blank hcount hsize, rfl,
      fun p hp => by cases hp⟩
  have hplain : Always Session.step (Session.Plain itemCount) _ calls :=
    hcalls.always (fun s c hs hc => hs.step c hc.1 hc.2) hstart
  exact hplain.imp fun s hs => hs.fifo

instance : (c : Call α) → Decidable c.Plain
  | .tailItemTake | .tailItemGive _ => inferInstanceAs (Decidable False)
  | .fill _ _ _ | .headPush | .consume _ | .tailPull | .headLock | .headUnlock | .tailLock
  | .tailUnlock => inferInstanceAs (Decidable True)

def pushAndPull : List (Call Nat) :=
  [.headLock, .fill ⟨0, 0, false, false⟩ 7 4, .headPush, .tailLock, .consume 1, .headLock,
    .tailPull]

theorem mediaQ_fifo_pushAndPull :
    Always Session.step (Session.Fifo 1) (.start (opened 0 0 false 1 4 0)) pushAndPull :=
  mediaQ_fifo 0 0 false 0 1 4 (by decide) (by decide) pushAndPull (by decide)

def pushLarge : List (Call Unit) := [.headLock, .fill ⟨0, 0, false, false⟩ () 2147483647, .headPush]

/-- Three items of two gigabytes. -/
theorem mediaQ_bytes_wrap :
    let calls := pushLarge ++ pushLarge ++ pushLarge
    let s := run Session.step (.start (opened 0 0 false 3 2147483647 ())) calls
    Each Session.step (fun s c => c.Plain ∧ s.Follows c)
      (.start (opened 0 0 false 3 2147483647 ())) calls ∧
      unread (s.queued.map Prod.snd) = 6442450941 ∧
      s.q.isAvailableBytes 4294967295 true 0 = some false := by
  decide

/-! ## Stale items -/

open MediaQ

variable {α : Type} {slots rest : List Nat} {q : MediaQ α} {x : Nat}

def AvtpTime.ageUsec (t : AvtpTime) (now : UInt64) : Nat := (now.toNat - t.timeNsec.toNat) / 1000

def AvtpTime.Near (t : AvtpTime) (now : UInt64) : Prop :=
  now.toNat ≤ t.timeNsec.toNat + 2 ^ 31 * 1000 ∧ t.timeNsec.toNat < now.toNat + 2 ^ 31 * 1000

instance (t : AvtpTime) (now : UInt64) : Decidable (t.Near now) :=
  inferInstanceAs (Decidable (_ ∧ _))

theorem toInt_toInt64 (a : UInt64) : a.toInt64.toInt = (a.toNat : Int).bmod (2 ^ 64) :=
  BitVec.toInt_eq_toNat_bmod a.toBitVec

theorem toInt_toInt32 (a : UInt32) : a.toInt32.toInt = (a.toNat : Int).bmod (2 ^ 32) :=
  BitVec.toInt_eq_toNat_bmod a.toBitVec

theorem toInt_elapsed {a b : UInt64} (hlow : (-2 ^ 63 : Int) ≤ (a.toNat : Int) - b.toNat)
    (hhigh : (a.toNat : Int) - b.toNat < 2 ^ 63) :
    (a - b).toInt64.toInt = (a.toNat : Int) - b.toNat := by
  have hb := b.toNat_lt
  rw [toInt_toInt64, UInt64.toNat_sub, Int.bmod_def]
  split <;> omega

variable {max : UInt32} {now : UInt64}

theorem toInt_maxStale (hmax : max.toNat < 2 ^ 31) :
    (0 - max).toInt32.toInt = -(max.toNat : Int) := by
  have hzero : (0 : UInt32).toNat = 0 := rfl
  rw [toInt_toInt32, UInt32.toNat_sub, Int.bmod_def]
  split <;> omega

theorem tdiv_thousand (e : Int) : e.tdiv 1000 = if 0 ≤ e then e / 1000 else -(-e / 1000) := by
  split
  case isTrue hpos => exact Int.tdiv_eq_ediv_of_nonneg hpos
  case isFalse hneg =>
    rw [← Int.tdiv_eq_ediv_of_nonneg (by omega), Int.neg_tdiv, neg_neg]

theorem usecDelta_lt_iff {t : AvtpTime} (htrusted : t.trusted = true)
    (hnear : t.Near now) (hmax : max.toNat < 2 ^ 31) :
    t.usecDelta (some now) < (0 - max).toInt32 ↔ max.toNat < t.ageUsec now := by
  obtain ⟨hpast, hfuture⟩ := hnear
  have helapsed : (t.timeNsec - now).toInt64.toInt = (t.timeNsec.toNat : Int) - now.toNat :=
    toInt_elapsed (by omega) (by omega)
  have hdelta : (t.usecDelta (some now)).toInt =
      ((t.timeNsec.toNat : Int) - now.toNat).tdiv 1000 := by
    have hthousand : (1000 : Int64).toInt = 1000 := rfl
    rw [AvtpTime.usecDelta, if_pos htrusted, Int64.toInt_toInt32, Int64.toInt_div, helapsed,
      hthousand, tdiv_thousand]
    rw [Int.bmod_eq_of_le (m := 2 ^ 64), Int.bmod_eq_of_le] <;> split <;> omega
  rw [Int32.lt_iff_toInt_lt, hdelta, toInt_maxStale hmax, AvtpTime.ageUsec, tdiv_thousand]
  split <;> omega

def MediaQ.past (q : MediaQ α) (now : UInt64) (x : Nat) : Bool :=
  (q.pItems x).pAvtpTime.isPast (some now)

def MediaQ.staleItem (q : MediaQ α) (now : UInt64) (x : Nat) : Bool :=
  decide (0 < q.maxStaleTailUsec) && (q.pItems x).pAvtpTime.trusted &&
    decide (q.maxStaleTailUsec.toNat < (q.pItems x).pAvtpTime.ageUsec now)

def MediaQ.withoutStale (q : MediaQ α) (now : UInt64) : List Nat → List Nat
  | [] => []
  | x :: rest => if q.staleItem now x then rest.dropWhile (q.past now) else x :: rest

theorem purge_none (readings : Nat → Option UInt64) (fuel n : Nat) (h : q.Queues []) :
    purge readings (fuel + 1) n q = some (q, []) := by
  rw [purge, h.active_tail]
  rfl

theorem purge_keep {readings : Nat → Option UInt64} {fuel n : Nat} (h : q.Queues (x :: rest))
    (hkeep : (if n = 0 then decide ((q.pItems x).pAvtpTime.usecDelta (readings n) < q.maxStale)
      else (q.pItems x).pAvtpTime.isPast (readings n)) = false) :
    purge readings (fuel + 1) n q = some ({ q with tailLocked := false }, []) := by
  rw [purge, h.active_tail]
  dsimp only [head?_cons]
  rw [hkeep, if_neg Bool.false_ne_true]

theorem purge_drop (readings : Nat → Option UInt64) (fuel : Nat) {n : Nat} (h : q.Queues (x :: rest))
    (hdrop : (if n = 0 then decide ((q.pItems x).pAvtpTime.usecDelta (readings n) < q.maxStale)
      else (q.pItems x).pAvtpTime.isPast (readings n)) = true) : ∃ q' calls, q.Leaves q' rest ∧
      purge readings (fuel + 1) n q =
        (purge readings fuel (n + 1) q').map fun r => (r.1, calls ++ r.2) := by
  have hlocked : ({ q with tailLocked := true } : MediaQ α).Queues (x :: rest) :=
    h.congr rfl rfl rfl rfl
  obtain ⟨o, ho, hleaves⟩ := Leaves.tailPull h hlocked fun _ _ => rfl
  refine ⟨o.q, o.calls, hleaves, ?_⟩
  rw [purge, h.active_tail]
  dsimp only [head?_cons]
  rw [hdrop, if_pos rfl, ho]
  rfl

theorem MediaQ.Leaves.past {q' : MediaQ α} (h : q.Leaves q' slots) (now : UInt64)
    (hx : x ∈ slots) : q'.past now x = q.past now x := by
  rw [MediaQ.past, h.items x hx]
  rfl

theorem purge_past (now : UInt64) (past : Nat → Bool) {fuel n : Nat} (hn : n ≠ 0)
    (h : q.Queues slots) (hpast : ∀ x ∈ slots, q.past now x = past x)
    (hfuel : slots.length < fuel) :
    ∃ q' calls, purge (fun _ => some now) fuel n q = some (q', calls) ∧
      q.Leaves q' (slots.dropWhile past) := by
  induction slots generalizing q fuel n with
  | nil =>
    obtain ⟨fuel, rfl⟩ : ∃ k, fuel = k + 1 := ⟨fuel - 1, by omega⟩
    exact ⟨q, [], purge_none _ _ _ h, h, fun x hx => by cases hx⟩
  | cons x rest ih =>
    obtain ⟨fuel, rfl⟩ : ∃ k, fuel = k + 1 := ⟨fuel - 1, by omega⟩
    have hx : q.past now x = past x := hpast x mem_cons_self
    rw [dropWhile_cons]
    cases hp : past x with
    | false =>
      rw [if_neg Bool.false_ne_true]
      refine ⟨_, _, purge_keep h (by rw [if_neg hn]; exact hx.trans hp), ?_, ?_⟩
      · exact h.congr rfl rfl rfl rfl
      · exact fun y _ => rfl
    | true =>
      obtain ⟨q', calls, hleaves, hround⟩ :=
        purge_drop (fun _ => some now) fuel h (by rw [if_neg hn]; exact hx.trans hp)
      obtain ⟨q'', calls', hpurge, hleft⟩ :=
        ih (Nat.succ_ne_zero n) hleaves.queues
          (fun y hy => (hleaves.past now hy).trans (hpast y (mem_cons_of_mem _ hy)))
          (by simpa using hfuel)
      rw [hround, hpurge, if_pos rfl]
      refine ⟨q'', calls ++ calls', rfl, hleaves.trans hleft ?_⟩
      exact fun y hy => (dropWhile_sublist past).subset hy

theorem purge_of_stale (now : UInt64) (h : q.Queues (x :: rest))
    (hstale : (q.pItems x).pAvtpTime.usecDelta (some now) < q.maxStale) :
    ∃ q' calls, purge (fun _ => some now) (q.itemCount + 1) 0 q = some (q', calls) ∧
      q.Leaves q' (rest.dropWhile (q.past now)) := by
  have hlen := h.length_le
  obtain ⟨q', calls, hleaves, hround⟩ :=
    purge_drop (fun _ => some now) q.itemCount (n := 0) h
      (by rw [if_pos rfl]; exact decide_eq_true hstale)
  obtain ⟨q'', calls', hpurge, hleft⟩ :=
    purge_past now (q.past now) Nat.one_ne_zero hleaves.queues
      (fun y hy => hleaves.past now hy) hlen
  rw [hround, hpurge]
  refine ⟨q'', calls ++ calls', rfl, hleaves.trans hleft ?_⟩
  exact fun y hy => (dropWhile_sublist _).subset hy

theorem staleItem_eq (hpos : 0 < q.maxStaleTailUsec)
    (hmax : q.maxStaleTailUsec.toNat < 2 ^ 31) (hnear : (q.pItems x).pAvtpTime.Near now) :
    q.staleItem now x = decide ((q.pItems x).pAvtpTime.usecDelta (some now) < q.maxStale) := by
  unfold MediaQ.staleItem
  rw [decide_eq_true hpos, Bool.true_and]
  cases htrusted : (q.pItems x).pAvtpTime.trusted with
  | false =>
    -- the difference is 0 then, which is never below the limit
    rw [Bool.false_and, eq_comm, decide_eq_false_iff_not, AvtpTime.usecDelta, htrusted,
      if_neg Bool.false_ne_true, Int32.lt_iff_toInt_lt, MediaQ.maxStale, toInt_maxStale hmax,
      Int32.toInt_zero]
    omega
  | true =>
    rw [Bool.true_and, decide_eq_decide]
    exact (usecDelta_lt_iff htrusted hnear hmax).symm

theorem withoutStale_off (hoff : ¬ 0 < q.maxStaleTailUsec) : q.withoutStale now slots = slots := by
  cases slots with
  | nil => rfl
  | cons x rest =>
    rw [withoutStale, staleItem, decide_eq_false hoff, Bool.false_and, Bool.false_and,
      if_neg Bool.false_ne_true]

/-- The first item is dropped if it is stale, and then all the following ones that are past; what is
left keeps its order and contents. -/
theorem purgeStaleTail_leaves (q : MediaQ α) (slots : List Nat) (now : UInt64)
    (h : q.Queues slots) (hmax : q.maxStaleTailUsec.toNat < 2 ^ 31)
    (hnear : ∀ x ∈ slots, (q.pItems x).pAvtpTime.Near now) :
    ∃ q' calls, q.purgeStaleTail (fun _ => some now) = some (q', calls) ∧
      q.Leaves q' (q.withoutStale now slots) := by
  rw [purgeStaleTail]
  by_cases hpos : 0 < q.maxStaleTailUsec
  case neg =>
    rw [if_neg hpos, withoutStale_off hpos]
    exact ⟨q, [], rfl, h, fun x _ => rfl⟩
  case pos =>
    rw [if_pos hpos]
    cases slots with
    | nil => exact ⟨q, [], purge_none _ _ _ h, h, fun x hx => by cases hx⟩
    | cons x rest =>
      rw [withoutStale, staleItem_eq hpos hmax (hnear x mem_cons_self)]
      by_cases hless : (q.pItems x).pAvtpTime.usecDelta (some now) < q.maxStale
      case pos =>
        rw [if_pos (decide_eq_true hless)]
        exact purge_of_stale now h hless
      case neg =>
        rw [decide_eq_false hless, if_neg Bool.false_ne_true]
        refine ⟨_, _, purge_keep h (by rw [if_pos rfl]; exact decide_eq_false hless), ?_, ?_⟩
        · exact h.congr rfl rfl rfl rfl
        · exact fun y _ => rfl

def lateItems (maxStaleTailUsec : UInt32) : MediaQ Unit :=
  { create () with
    itemCount := 4
    itemSize := 4
    pItems := fun x =>
      ⟨⟨if x = 0 then 1000000000 else if x = 1 then 2000000000 else 4000000000 + UInt64.ofNat x,
        5000000000, true, false⟩, (), 0, 4, false⟩
    head := some 3
    tail := some 0
    maxStaleTailUsec }

theorem lateItems_queues (maxStaleTailUsec : UInt32) :
    (lateItems maxStaleTailUsec).Queues [0, 1, 2] where
  free := fun _ _ => rfl
  rings := fun _ =>
    Rings.busy (N := 4) (t := 0) (d := 3) (by decide) (by decide) (by decide) rfl rfl
  empty := fun hzero => absurd (show 4 = 0 from hzero) (by decide)

/-- At 3 seconds the first item is stale and the second one past. -/
theorem purgeStaleTail_leaves_late : (lateItems 1000000).withoutStale 3000000000 [0, 1, 2] = [2] ∧
      ∃ q' calls, (lateItems 1000000).purgeStaleTail (fun _ => some 3000000000) = some (q', calls) ∧
        (lateItems 1000000).Leaves q' ((lateItems 1000000).withoutStale 3000000000 [0, 1, 2]) :=
  ⟨by decide, purgeStaleTail_leaves (lateItems 1000000) [0, 1, 2] 3000000000
    (lateItems_queues _) (by decide) (by decide)⟩

/-- With a maximum of 0 the first item stays, though it is two seconds old. -/
theorem purgeStaleTail_off : (lateItems 0).Queues [0, 1, 2] ∧
      (∀ x ∈ [0, 1, 2], ((lateItems 0).pItems x).pAvtpTime.Near 3000000000) ∧
      ((lateItems 0).pItems 0).pAvtpTime.trusted = true ∧
      ((lateItems 0).pItems 0).pAvtpTime.ageUsec 3000000000 = 2000000 ∧
      (lateItems 0).purgeStaleTail (fun _ => some 3000000000) = some (lateItems 0, []) :=
  ⟨lateItems_queues 0, by decide, by decide, by decide, rfl⟩

end OpenAvb.Pipeline
