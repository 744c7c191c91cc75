import OpenAvb.Pipeline.MediaQ
import OpenAvb.Run

/-!
# Who owns the items of a media queue

A client of the queue and the queue itself, one call after the other. The functions
of the queue agree with a record of what is queued and what is taken as long as no
call meets one of the two weak spots of the search.
-/

namespace OpenAvb.Pipeline

open List

open MediaQ

variable {α : Type}

inductive Call (α : Type) where
  | headLock
  | headUnlock
  | fill (pAvtpTime : AvtpTime) (data : α) (dataLen : UInt32)
  | headPush
  | tailLock
  | tailUnlock
  | consume (readIdx : UInt32)
  | tailPull
  | tailItemTake
  | tailItemGive (pItem : Nat)

structure Session (α : Type) where
  q : MediaQ α
  (headItem tailItem : Option Nat)
  /-- The items pushed and neither pulled nor taken since, the oldest first, with their contents. -/
  queued : List (Nat × Item α)
  /-- The items taken and not given back. -/
  held : List Nat
  /-- A call did not return. -/
  hung : Bool

def opened (maxLatencyUsec maxStaleTailUsec : UInt32) (threadSafeOn : Bool)
    (itemCount itemSize : Nat) (blank : α) : MediaQ α :=
  ({ create blank with maxLatencyUsec, maxStaleTailUsec, threadSafeOn }.setSize
    itemCount itemSize blank).2

def Session.start (q : MediaQ α) : Session α := ⟨q, none, none, [], [], false⟩

def Item.fill (item : Item α) (pAvtpTime : AvtpTime) (data : α) (dataLen : UInt32) : Item α :=
  { item with pAvtpTime, data, dataLen }

def Item.readTo (item : Item α) (readIdx : UInt32) : Item α := { item with readIdx }

def Session.step (s : Session α) : Call α → Session α
  | .headLock => { s with q := s.q.headLock.q, headItem := s.q.headLock.ret }
  | .headUnlock => { s with q := s.q.headUnlock.q, headItem := none }
  | .fill pAvtpTime data dataLen =>
    match s.headItem with
    | some x => { s with q := s.q.modify x fun item => item.fill pAvtpTime data dataLen }
    | none => s
  | .headPush =>
    match s.headItem, s.q.headPush with
    | some x, some o =>
      { s with
        q := o.q
        headItem := none
        queued := s.queued ++ [(x, { s.q.pItems x with readIdx := 0 })] }
    | none, some _ => s
    | _, none => { s with hung := true }
  | .tailLock =>
    let o := s.q.tailLockPurged true none
    { s with q := o.q, tailItem := o.ret }
  | .tailUnlock => { s with q := s.q.tailUnlock.q, tailItem := none }
  | .consume readIdx =>
    match s.tailItem, s.queued with
    | some x, (y, item) :: rest =>
      { s with
        q := s.q.modify x fun item => item.readTo readIdx
        queued := (y, item.readTo readIdx) :: rest }
    | _, _ => s
  | .tailPull =>
    match s.q.tailPull with
    | some o => { s with q := o.q, tailItem := none, queued := s.queued.tail }
    | none => { s with hung := true }
  | .tailItemTake =>
    match s.tailItem with
    | some x =>
      match s.q.tailItemTake x with
      | some o =>
        { s with q := o.q, tailItem := none, queued := s.queued.tail, held := x :: s.held }
      | none => { s with hung := true }
    | none => s
  | .tailItemGive x => { s with q := (s.q.tailItemGive x).q, held := s.held.erase x }

def Session.Follows (s : Session α) : Call α → Prop
  | .fill _ _ _ | .headPush => s.headItem ≠ none
  | .consume readIdx => ∃ x ∈ s.tailItem, readIdx ≤ (s.q.pItems x).dataLen
  | .tailPull | .tailItemTake => s.tailItem ≠ none
  | .tailItemGive x => x ∈ s.held
  | _ => True

/-- The calls the queue handles as meant: an item is not taken in slot 0 while there is no head and
all the others are taken, and an item given back fits in between head and tail. -/
def Session.Fits (s : Session α) : Call α → Prop
  | .tailItemTake =>
    ¬ (s.q.head = none ∧ s.q.tail = some 0 ∧ ∀ y, y < s.q.itemCount → 0 < y → s.q.taken y = true)
  | .tailItemGive x => GiveFits s.q.itemCount s.q.taken s.q.head s.q.tail x
  | _ => True

instance (s : Session α) : (c : Call α) → Decidable (s.Follows c)
  | .fill _ _ _ | .headPush => inferInstanceAs (Decidable (s.headItem ≠ none))
  | .consume readIdx =>
    inferInstanceAs (Decidable (∃ x ∈ s.tailItem, readIdx ≤ (s.q.pItems x).dataLen))
  | .tailPull | .tailItemTake => inferInstanceAs (Decidable (s.tailItem ≠ none))
  | .tailItemGive x => inferInstanceAs (Decidable (x ∈ s.held))
  | .headLock | .headUnlock | .tailLock | .tailUnlock => inferInstanceAs (Decidable True)

instance (s : Session α) : (c : Call α) → Decidable (s.Fits c)
  | .tailItemTake =>
    inferInstanceAs (Decidable (¬ (s.q.head = none ∧ s.q.tail = some 0 ∧
      ∀ y, y < s.q.itemCount → 0 < y → s.q.taken y = true)))
  | .tailItemGive x =>
    inferInstanceAs (Decidable (GiveFits s.q.itemCount s.q.taken s.q.head s.q.tail x))
  | .fill _ _ _ | .headPush | .consume _ | .tailPull | .headLock | .headUnlock | .tailLock
  | .tailUnlock => inferInstanceAs (Decidable True)

def Session.slots (s : Session α) : List Nat := s.queued.map Prod.fst

structure Session.Kept (N : Nat) (s : Session α) : Prop where
  pos : 0 < N
  count : s.q.itemCount = N
  rings : Rings N s.q.taken s.q.head s.q.tail s.slots
  contents : ∀ p ∈ s.queued, s.q.pItems p.1 = p.2
  held : ∀ x, x ∈ s.held ↔ x < N ∧ s.q.taken x = true
  nodup : s.held.Nodup
  head_locked : ∀ x, s.headItem = some x → s.q.head = some x
  tail_locked : ∀ x, s.tailItem = some x → s.q.tail = some x
  returns : s.hung = false

theorem taken_modify (q : MediaQ α) (x : Nat) {f : Item α → Item α}
    (hf : ∀ item, (f item).taken = item.taken) : (q.modify x f).taken = q.taken := by
  funext y
  unfold MediaQ.taken MediaQ.modify
  dsimp only
  split
  · rw [hf]
  · rfl

theorem pItems_modify_of_ne (q : MediaQ α) (f : Item α → Item α) (h : y ≠ x) :
    (q.modify x f).pItems y = q.pItems y := by
  unfold MediaQ.modify
  dsimp only
  rw [if_neg h]

theorem pItems_modify_self (q : MediaQ α) (f : Item α → Item α) (x : Nat) :
    (q.modify x f).pItems x = f (q.pItems x) := by
  unfold MediaQ.modify
  dsimp only
  rw [if_pos rfl]

structure SameItems (q q' : MediaQ α) : Prop where
  itemCount : q'.itemCount = q.itemCount
  pItems : q'.pItems = q.pItems
  head : q'.head = q.head
  tail : q'.tail = q.tail

theorem SameItems.active_head {q q' : MediaQ α} (h : SameItems q q') :
    q'.active q'.head = q.active q.head := by
  rw [active, active, h.itemCount, h.head]

section

variable (q : MediaQ α)
include q

theorem headLock_same : SameItems q q.headLock.q := by
  unfold headLock
  split <;> exact ⟨rfl, rfl, rfl, rfl⟩

theorem headLock_ret : q.headLock.ret = q.active q.head := by
  unfold headLock
  split
  case h_1 x h => exact h.symm
  case h_2 h => exact h.symm

theorem headUnlock_same : SameItems q q.headUnlock.q := by
  unfold headUnlock
  split <;> exact ⟨rfl, rfl, rfl, rfl⟩

theorem tailLockPurged_same (ignoreTimestamp : Bool) (now : Option UInt64) :
    SameItems q (q.tailLockPurged ignoreTimestamp now).q := by
  unfold tailLockPurged
  split
  · split <;> exact ⟨rfl, rfl, rfl, rfl⟩
  · exact ⟨rfl, rfl, rfl, rfl⟩

theorem tailLockPurged_ret (now : Option UInt64) :
    (q.tailLockPurged true now).ret = q.active q.tail := by
  unfold tailLockPurged
  split
  case h_1 x h => exact h.symm
  case h_2 h => exact h.symm

theorem tailUnlock_same : SameItems q q.tailUnlock.q := by
  unfold tailUnlock
  split <;> exact ⟨rfl, rfl, rfl, rfl⟩

end

structure Turned (q : MediaQ α) (i j : Option Nat) (items : Nat → Item α)
    (o : Outcome α Bool) : Prop where
  itemCount : o.q.itemCount = q.itemCount
  head : o.q.head = i
  tail : o.q.tail = j
  pItems : o.q.pItems = items

theorem headPush_turned (q : MediaQ α) (hhead : q.active q.head = some x)
    (hseek : seek q.itemCount q.taken (q.tail.or (some x)) x q.itemCount x = some i) :
    ∃ o, q.headPush = some o ∧ Turned q i (q.tail.or (some x))
      (q.modify x fun item => { item with readIdx := 0 }).pItems o := by
  have htaken : ({ q with tail := q.tail.or (some x) }.modify x
      fun item => { item with readIdx := 0 }).taken = q.taken := taken_modify _ x fun item => rfl
  unfold headPush
  rw [hhead]
  dsimp only
  unfold incrementHead
  rw [htaken]
  refine ⟨_, congrArg (Option.map _) (congrArg (Option.map _) hseek), ?_⟩
  exact ⟨rfl, rfl, rfl, rfl⟩

theorem tailPull_turned (q : MediaQ α) (htail : q.active q.tail = some x)
    (hseek : seek q.itemCount q.taken (q.head.or (some x)) x q.itemCount x = some j) :
    ∃ o, q.tailPull = some o ∧ Turned q (q.head.or (some x)) j
      (q.modify x fun item => { item with readIdx := 0, dataLen := 0 }).pItems o := by
  have htaken : ({ q with head := q.head.or (some x) }.modify x
      fun item => { item with readIdx := 0, dataLen := 0 }).taken = q.taken :=
    taken_modify _ x fun item => rfl
  unfold tailPull
  rw [htail]
  dsimp only
  unfold incrementTail
  rw [htaken]
  refine ⟨_, congrArg (Option.map _) (congrArg (Option.map _) hseek), ?_⟩
  exact ⟨rfl, rfl, rfl, rfl⟩

theorem tailItemTake_turned (q : MediaQ α) (htail : q.active q.tail = some x)
    (hseek : seek q.itemCount q.taken q.head x q.itemCount x = some j) :
    ∃ o, q.tailItemTake x = some o ∧ Turned q q.head j
      (q.modify x fun item => { item with taken := true }).pItems o := by
  unfold tailItemTake
  rw [htail]
  refine ⟨_, congrArg (Option.map _) (congrArg (Option.map _) hseek), ?_⟩
  exact ⟨rfl, rfl, rfl, rfl⟩

theorem giveHead_turned (q : MediaQ α) (h : 0 < q.itemCount) : q.giveHead.itemCount = q.itemCount ∧
      q.giveHead.head = q.head.or (firstFree q.itemCount q.taken) ∧
      q.giveHead.tail = q.tail ∧ q.giveHead.pItems = q.pItems := by
  unfold giveHead
  split
  case isTrue hnone =>
    refine ⟨rfl, ?_, rfl, rfl⟩
    rw [hnone.2]
    rfl
  case isFalse hsome =>
    refine ⟨rfl, ?_, rfl, rfl⟩
    cases hhead : q.head with
    | none => exact absurd ⟨h, hhead⟩ hsome
    | some y => rfl

theorem taken_congr {q q' : MediaQ α} (h : q'.pItems = q.pItems) : q'.taken = q.taken := by
  funext x
  unfold taken
  rw [h]

namespace Session

variable {N : Nat} {s : Session α}

section

variable (h : s.Kept N)
include h

theorem Kept.active (i : Option Nat) : s.q.active i = i := by
  unfold MediaQ.active
  rw [if_pos (by rw [h.count]; exact h.pos)]

theorem Kept.relock {q : MediaQ α} (hq : SameItems s.q q)
    (hhead : ∀ x, i = some x → s.q.head = some x) (htail : ∀ x, j = some x → s.q.tail = some x) :
    Kept N { s with q := q, headItem := i, tailItem := j } := by
  have htaken : q.taken = s.q.taken := taken_congr hq.pItems
  refine ⟨h.pos, hq.itemCount.trans h.count, ?_, ?_, ?_, h.nodup, ?_, ?_, h.returns⟩
  · dsimp only
    rw [htaken, hq.head, hq.tail]
    exact h.rings
  · dsimp only
    rw [hq.pItems]
    exact h.contents
  · dsimp only
    rw [htaken]
    exact h.held
  · dsimp only
    rw [hq.head]
    exact hhead
  · dsimp only
    rw [hq.tail]
    exact htail

theorem Kept.headLock : (s.step .headLock).Kept N := by
  refine h.relock (headLock_same s.q) (fun x hx => ?_) h.tail_locked
  rwa [headLock_ret, h.active] at hx

theorem Kept.headUnlock : (s.step .headUnlock).Kept N :=
  h.relock (headUnlock_same s.q) (fun x hx => by cases hx) h.tail_locked

theorem Kept.tailLock : (s.step .tailLock).Kept N := by
  refine h.relock (tailLockPurged_same s.q true none) h.head_locked (fun x hx => ?_)
  rwa [tailLockPurged_ret, h.active] at hx

theorem Kept.tailUnlock : (s.step .tailUnlock).Kept N :=
  h.relock (tailUnlock_same s.q) h.head_locked (fun x hx => by cases hx)

theorem Kept.fill : (s.step (.fill pAvtpTime data dataLen)).Kept N := by
  unfold step
  dsimp only
  cases hitem : s.headItem with
  | none => exact h
  | some x =>
    have hfree := (h.head_locked x hitem ▸ h.rings).head_free
    have htaken : (s.q.modify x fun item => item.fill pAvtpTime data dataLen).taken = s.q.taken :=
      taken_modify s.q x fun item => rfl
    refine ⟨h.pos, h.count, ?_, ?_, ?_, h.nodup, fun y hy => h.head_locked y (hitem.trans hy),
      h.tail_locked, h.returns⟩
    · dsimp only
      rw [htaken]
      exact h.rings
    · intro p hp
      have hne : p.1 ≠ x := by
        rintro rfl
        exact hfree.2.2 (mem_map_of_mem hp)
      dsimp only
      rw [pItems_modify_of_ne _ _ hne]
      exact h.contents p hp
    · dsimp only
      rw [htaken]
      exact h.held

theorem Kept.headPush (hf : s.Follows .headPush) : (s.step .headPush).Kept N := by
  obtain ⟨x, hitem⟩ := Option.ne_none_iff_exists'.mp hf
  have hhead := h.head_locked x hitem
  have hr := h.rings
  rw [hhead] at hr
  obtain ⟨hx, hfree, hnew⟩ := hr.head_free
  obtain ⟨i, hseek, hr⟩ := rings_headPush hr
  rw [← h.count] at hseek
  obtain ⟨o, ho, hturn⟩ := headPush_turned s.q ((h.active _).trans hhead) hseek
  have htaken : o.q.taken = s.q.taken :=
    (taken_congr hturn.pItems).trans (taken_modify s.q x fun item => rfl)
  unfold step
  dsimp only
  rw [hitem, ho]
  refine ⟨h.pos, hturn.itemCount.trans h.count, ?_, ?_, ?_, h.nodup, (fun y hy => by cases hy), ?_,
    h.returns⟩
  · show Rings N o.q.taken o.q.head o.q.tail (List.map Prod.fst (s.queued ++ [_]))
    rw [htaken, hturn.head, hturn.tail, map_append]
    exact hr
  · intro p hp
    dsimp only
    rw [hturn.pItems]
    cases mem_append.mp hp with
    | inl hold =>
      have hne : p.1 ≠ x := by
        rintro rfl
        exact hnew (mem_map_of_mem hold)
      rw [pItems_modify_of_ne _ _ hne]
      exact h.contents p hold
    | inr hlast =>
      rw [mem_singleton.mp hlast]
      exact pItems_modify_self _ _ _
  · dsimp only
    rw [htaken]
    exact h.held
  · intro y hy
    dsimp only
    rw [hturn.tail, h.tail_locked y hy]
    rfl

end

theorem tail_slots (hqueue : s.slots = x :: rest) : s.queued.tail.map Prod.fst = rest := by
  rw [map_tail]
  exact congrArg List.tail hqueue

section

variable (h : s.Kept N)
include h

theorem Kept.contents_tail (hqueue : s.slots = x :: rest) (f : Item α → Item α)
    (hp : p ∈ s.queued.tail) : (s.q.modify x f).pItems p.1 = p.2 := by
  have hnodup := h.rings.nodup
  have hne : p.1 ≠ x := by
    rintro rfl
    rw [hqueue] at hnodup
    refine (nodup_cons.mp hnodup).1 ?_
    rw [← tail_slots hqueue]
    exact mem_map_of_mem hp
  rw [pItems_modify_of_ne _ _ hne]
  exact h.contents p (mem_of_mem_tail hp)

theorem Kept.tailPull (hf : s.Follows .tailPull) : (s.step .tailPull).Kept N := by
  obtain ⟨x, hitem⟩ := Option.ne_none_iff_exists'.mp hf
  have htail := h.tail_locked x hitem
  have hr := h.rings
  rw [htail] at hr
  obtain ⟨j, rest, hqueue, hseek, hr⟩ := rings_pull hr
  rw [← h.count] at hseek
  obtain ⟨o, ho, hturn⟩ := tailPull_turned s.q ((h.active _).trans htail) hseek
  have htaken : o.q.taken = s.q.taken :=
    (taken_congr hturn.pItems).trans (taken_modify s.q x fun item => rfl)
  unfold step
  dsimp only
  rw [ho]
  refine ⟨h.pos, hturn.itemCount.trans h.count, ?_, ?_, ?_, h.nodup, ?_, (fun y hy => by cases hy),
    h.returns⟩
  · show Rings N o.q.taken o.q.head o.q.tail (s.queued.tail.map Prod.fst)
    rw [htaken, hturn.head, hturn.tail, tail_slots hqueue]
    exact hr
  · intro p hp
    dsimp only
    rw [hturn.pItems]
    exact h.contents_tail hqueue _ hp
  · dsimp only
    rw [htaken]
    exact h.held
  · intro y hy
    dsimp only
    rw [hturn.head, h.head_locked y hy]
    rfl

theorem Kept.consume (hf : s.Follows (.consume readIdx)) : (s.step (.consume readIdx)).Kept N := by
  obtain ⟨x, hitem, -⟩ := hf
  have htail := h.tail_locked x hitem
  have hnodup := h.rings.nodup
  have hfirst : s.slots.head? = some x := h.rings.tail_eq.trans htail
  have htaken : (s.q.modify x fun item => item.readTo readIdx).taken = s.q.taken :=
    taken_modify s.q x fun item => rfl
  unfold step
  dsimp only
  rw [hitem]
  cases hqueued : s.queued with
  | nil =>
    rw [slots, hqueued] at hfirst
    cases hfirst
  | cons p rest =>
    obtain ⟨y, item⟩ := p
    have hslots : s.slots = y :: rest.map Prod.fst := by rw [slots, hqueued, map_cons]
    rw [hslots] at hfirst hnodup
    cases hfirst
    have hcontents : ∀ p ∈ (x, item) :: rest, s.q.pItems p.1 = p.2 := hqueued ▸ h.contents
    refine ⟨h.pos, h.count, ?_, ?_, ?_, h.nodup, h.head_locked,
      (fun z hz => h.tail_locked z (hitem.trans hz)), h.returns⟩
    · show Rings N (s.q.modify x fun item => item.readTo readIdx).taken s.q.head s.q.tail
        (x :: rest.map Prod.fst)
      rw [htaken, ← hslots]
      exact h.rings
    · intro p hp
      show (s.q.modify x fun item => item.readTo readIdx).pItems p.1 = p.2
      cases mem_cons.mp hp with
      | inl hhere =>
        have hold : s.q.pItems x = item := hcontents (x, item) mem_cons_self
        rw [hhere, pItems_modify_self, hold]
      | inr hrest =>
        have hne : p.1 ≠ x := by
          rintro rfl
          exact (nodup_cons.mp hnodup).1 (mem_map_of_mem hrest)
        rw [pItems_modify_of_ne _ _ hne]
        exact hcontents p (mem_cons_of_mem _ hrest)
    · intro z
      show z ∈ s.held ↔ z < N ∧ (s.q.modify x fun item => item.readTo readIdx).taken z = true
      rw [htaken]
      exact h.held z

theorem Kept.tailItemTake (hf : s.Follows .tailItemTake)
    (hfits : s.Fits .tailItemTake) : (s.step .tailItemTake).Kept N := by
  obtain ⟨x, hitem⟩ := Option.ne_none_iff_exists'.mp hf
  have htail := h.tail_locked x hitem
  have hr := h.rings
  rw [htail] at hr
  have hmark : (s.q.modify x fun item => { item with taken := true }).taken x = true := by
    unfold MediaQ.taken
    rw [pItems_modify_self]
  have hsame : ∀ y, y ≠ x →
      (s.q.modify x fun item => { item with taken := true }).taken y = s.q.taken y := by
    intro y hy
    unfold MediaQ.taken
    rw [pItems_modify_of_ne _ _ hy]
  have hfits : ¬ (s.q.head = none ∧ x = 0 ∧ ∀ y, 0 < y → y < N → s.q.taken y = true) := by
    rintro ⟨hhead, rfl, hall⟩
    exact hfits ⟨hhead, htail, fun y hy hpos => hall y hpos (h.count ▸ hy)⟩
  obtain ⟨j, rest, hqueue, hseek, hr⟩ := rings_take hr hfits hmark hsame
  obtain ⟨hx, hfree⟩ := h.rings.queued (x := x) (hqueue ▸ mem_cons_self)
  rw [← h.count] at hseek
  obtain ⟨o, ho, hturn⟩ := tailItemTake_turned s.q ((h.active _).trans htail) hseek
  have htaken := taken_congr hturn.pItems
  unfold step
  dsimp only
  rw [hitem]
  dsimp only
  rw [ho]
  refine ⟨h.pos, hturn.itemCount.trans h.count, ?_, ?_, ?_, ?_, ?_, (fun y hy => by cases hy),
    h.returns⟩
  · show Rings N o.q.taken o.q.head o.q.tail (s.queued.tail.map Prod.fst)
    rw [htaken, hturn.head, hturn.tail, tail_slots hqueue]
    exact hr
  · intro p hp
    dsimp only
    rw [hturn.pItems]
    exact h.contents_tail hqueue _ hp
  · intro y
    dsimp only
    rw [htaken, mem_cons, h.held y]
    by_cases hyx : y = x
    case pos => simp only [hyx, hmark, hx, true_or, and_self]
    case neg => simp only [hyx, hsame y hyx, false_or]
  · refine nodup_cons.mpr ⟨fun hmem => ?_, h.nodup⟩
    rw [((h.held x).mp hmem).2] at hfree
    cases hfree
  · dsimp only
    rw [hturn.head]
    exact h.head_locked

theorem Kept.tailItemGive (hf : s.Follows (.tailItemGive x))
    (hfits : s.Fits (.tailItemGive x)) : (s.step (.tailItemGive x)).Kept N := by
  obtain ⟨hx, htaken⟩ := (h.held x).mp hf
  have hfree : (s.q.giveItem x).taken x = false := by
    unfold MediaQ.taken giveItem
    rw [pItems_modify_self]
  have hsame : ∀ y, y ≠ x → (s.q.giveItem x).taken y = s.q.taken y := by
    intro y hy
    unfold MediaQ.taken giveItem
    rw [pItems_modify_of_ne _ _ hy]
  have hfits : GiveFits N s.q.taken s.q.head s.q.tail x := h.count ▸ hfits
  have hr := rings_give h.rings hx htaken hfits hfree hsame
  obtain ⟨hcount, hhead, htail, hitems⟩ := giveHead_turned (s.q.giveItem x) (h.count ▸ h.pos)
  have hnew : (s.q.giveItem x).giveHead.taken = (s.q.giveItem x).taken := taken_congr hitems
  have hheadN : (s.q.giveItem x).giveHead.head =
      s.q.head.or (firstFree N (s.q.giveItem x).taken) := h.count ▸ hhead
  refine ⟨h.pos, hcount.trans h.count, ?_, ?_, ?_, h.nodup.erase x, ?_, ?_, h.returns⟩
  · show Rings N (s.q.giveItem x).giveHead.taken (s.q.giveItem x).giveHead.head
      (s.q.giveItem x).giveHead.tail s.slots
    rw [hnew, hheadN, htail]
    exact hr
  · intro p hp
    show (s.q.giveItem x).giveHead.pItems p.1 = p.2
    have hne : p.1 ≠ x := by
      rintro rfl
      have hqueued := (h.rings.queued (mem_map_of_mem hp)).2
      rw [htaken] at hqueued
      cases hqueued
    rw [hitems, giveItem, pItems_modify_of_ne _ _ hne]
    exact h.contents p hp
  · intro y
    show y ∈ s.held.erase x ↔ y < N ∧ (s.q.giveItem x).giveHead.taken y = true
    rw [hnew, h.nodup.mem_erase_iff, h.held y]
    by_cases hyx : y = x
    case pos =>
      simp only [hyx, hfree, ne_eq, not_true_eq_false, false_and, Bool.false_eq_true, and_false]
    case neg => simp only [hyx, hsame y hyx, ne_eq, not_false_eq_true, true_and]
  · intro y hy
    show (s.q.giveItem x).giveHead.head = some y
    rw [hheadN, h.head_locked y hy]
    rfl
  · intro y hy
    show (s.q.giveItem x).giveHead.tail = some y
    rw [htail]
    exact h.tail_locked y hy

theorem Kept.step (c : Call α) (hf : s.Follows c) (hfits : s.Fits c) : (s.step c).Kept N := by
  cases c with
  | headLock => exact h.headLock
  | headUnlock => exact h.headUnlock
  | fill pAvtpTime data dataLen => exact h.fill
  | headPush => exact h.headPush hf
  | tailLock => exact h.tailLock
  | tailUnlock => exact h.tailUnlock
  | consume readIdx => exact h.consume hf
  | tailPull => exact h.tailPull hf
  | tailItemTake => exact h.tailItemTake hf hfits
  | tailItemGive x => exact h.tailItemGive hf hfits

end

def Free (N : Nat) (s : Session α) (x : Nat) : Prop := x < N ∧ x ∉ s.slots ∧ x ∉ s.held

/-- The queue agrees with the record of the session: an item is free, queued or taken, and only
one of them; what the two lock functions return is free, and the oldest that is queued. -/
structure Owned (N : Nat) (s : Session α) : Prop where
  apart : (s.slots ++ s.held).Nodup
  inside : ∀ x ∈ s.slots ++ s.held, x < N
  flagged : ∀ x, x < N → (s.q.taken x = true ↔ x ∈ s.held)
  headLock_free : ∀ x, s.q.headLock.ret = some x → Free N s x
  headLock_ne_none : ∀ x, Free N s x → s.q.headLock.ret ≠ none
  tailLock_oldest : ∀ readings now,
    (s.q.tailLock true readings now).map Outcome.ret = some s.slots.head?
  contents : ∀ p ∈ s.queued, s.q.pItems p.1 = p.2
  returns : s.hung = false

theorem Kept.owned (h : s.Kept N) : s.Owned N where
  apart := by
    refine nodup_append'.mpr ⟨h.rings.nodup, h.nodup, fun x hqueued hheld => ?_⟩
    have hfree := (h.rings.queued hqueued).2
    rw [((h.held x).mp hheld).2] at hfree
    cases hfree
  inside := by
    intro x hx
    cases mem_append.mp hx with
    | inl hqueued => exact (h.rings.queued hqueued).1
    | inr hheld => exact ((h.held x).mp hheld).1
  flagged := by
    intro x hx
    rw [h.held x]
    exact ⟨fun ht => ⟨hx, ht⟩, fun ht => ht.2⟩
  headLock_free := by
    intro x hx
    rw [headLock_ret, h.active] at hx
    have hr := h.rings
    rw [hx] at hr
    obtain ⟨hlt, hfree, hnew⟩ := hr.head_free
    refine ⟨hlt, hnew, fun hheld => ?_⟩
    rw [((h.held x).mp hheld).2] at hfree
    cases hfree
  headLock_ne_none := by
    rintro x ⟨hlt, hqueued, hheld⟩ hnone
    rw [headLock_ret, h.active] at hnone
    have hr := h.rings
    rw [hnone] at hr
    refine hqueued (hr.no_head hlt ?_)
    cases ht : s.q.taken x with
    | false => rfl
    | true => exact absurd ((h.held x).mpr ⟨hlt, ht⟩) hheld
  tailLock_oldest := by
    intro readings now
    show some (s.q.tailLockPurged true now).ret = _
    rw [tailLockPurged_ret, h.active, h.rings.tail_eq]
  contents := h.contents
  returns := h.returns

theorem opened_kept (maxLatencyUsec maxStaleTailUsec : UInt32) (threadSafeOn : Bool) (blank : α)
    {itemSize : Nat} (hcount : 1 ≤ N) (hsize : 1 ≤ itemSize) :
    (start (opened maxLatencyUsec maxStaleTailUsec threadSafeOn N itemSize blank)).Kept N := by
  have hopen : ∀ q : MediaQ α, q.itemCount = 0 → (q.setSize N itemSize blank).2 =
      { q with
        itemCount := N
        itemSize := itemSize
        pItems := fun _ => blankItem q.maxLatencyUsec blank } := by
    intro q hq
    unfold MediaQ.setSize
    rw [if_neg (by omega), if_pos hq]
  unfold start opened
  rw [hopen _ rfl]
  refine ⟨hcount, rfl, .idle hcount rfl, (fun p hp => by cases hp), fun x => ?_, nodup_nil,
    (fun x hx => by cases hx), (fun x hx => by cases hx), rfl⟩
  constructor
  · intro hx
    cases hx
  · rintro ⟨-, ht⟩
    cases ht

end Session

/-- As long as every call fits, the items of the queue are owned as its functions are meant. -/
theorem mediaQ_owned (maxLatencyUsec maxStaleTailUsec : UInt32) (threadSafeOn : Bool) (blank : α)
    (itemCount itemSize : Nat) (hcount : 1 ≤ itemCount) (hsize : 1 ≤ itemSize)
    (calls : List (Call α)) (hcalls : Each Session.step (fun s c => s.Follows c ∧ s.Fits c)
      (.start (opened maxLatencyUsec maxStaleTailUsec threadSafeOn itemCount itemSize blank)) calls) :
    Always Session.step (Session.Owned itemCount)
      (.start (opened maxLatencyUsec maxStaleTailUsec threadSafeOn itemCount itemSize blank))
      calls := by
  have hkept : Always Session.step (Session.Kept itemCount) _ calls :=
    hcalls.always (fun s c hs hc => hs.step c hc.1 hc.2)
      (Session.opened_kept maxLatencyUsec maxStaleTailUsec threadSafeOn blank hcount hsize)
  exact hkept.imp fun s hs => hs.owned

def takeAndGive : List (Call Unit) :=
  [.headLock, .headPush, .tailLock, .tailItemTake, .headLock, .headPush, .tailItemGive 0, .headLock]

theorem mediaQ_owned_takeAndGive :
    Always Session.step (Session.Owned 2) (.start (opened 0 0 false 2 1 ())) takeAndGive :=
  mediaQ_owned 0 0 false () 2 1 (by decide) (by decide) takeAndGive (by decide)

def giveAbove : List (Call Unit) :=
  [.headLock, .headPush, .headLock, .headPush, .tailLock, .tailPull, .headLock, .headPush,
    .tailLock, .tailItemTake, .tailItemGive 1]

def takeOnly : List (Call Unit) := [.headLock, .headPush, .tailLock, .tailItemTake]

theorem mediaQ_disowned :
    (Each Session.step Session.Follows (.start (opened 0 0 false 2 1 ())) giveAbove ∧
      let s := run Session.step (.start (opened 0 0 false 2 1 ())) giveAbove
      s.q.headLock.ret = some 0 ∧ s.slots = [0]) ∧
    Each Session.step Session.Follows (.start (opened 0 0 false 1 1 ())) takeOnly ∧
      let s := run Session.step (.start (opened 0 0 false 1 1 ())) takeOnly
      (s.q.tailLockPurged true none).ret = some 0 ∧ s.held = [0] := by
  decide

/-! ## The mutex of the media queue -/

open MediaQ

variable {α β : Type}

inductive Phase where
  | idle
  | head
  | tail (pItem : Nat)
  deriving DecidableEq

structure Threads (α : Type) where
  q : MediaQ α
  owner : Option Nat
  phase : Nat → Phase
  /-- Callers that released the mutex without holding it. -/
  unheld : List Nat
  completed : List (Option Nat)

/-- What may happen to the queue. `openavbMediaQTailLock` is the purge, unless timestamps are
ignored, and then the rest of it; `openavbMediaQTailItemGive` changes the item before it asks for
the mutex. -/
inductive Act (α : Type) where
  | headLock (c : Nat)
  | headUnlock (c : Nat)
  | headPush (c : Nat)
  | purgeStaleTail (c : Nat) (readings : Nat → Option UInt64)
  | tailLock (c : Nat) (ignoreTimestamp : Bool) (now : Option UInt64)
  | tailUnlock (c : Nat)
  | tailPull (c : Nat)
  | tailItemTake (c : Nat)
  | giveItem (pItem : Nat)
  | giveHead (c : Nat)
  /-- A client changes the contents of an item, its timestamp included. -/
  | touch (pItem : Nat) (f : Item α → Item α)

/-- The calls of the mutex, one after the other; none while the caller has to wait. -/
def Threads.mutexCalls (c : Nat) : List MutexCall → Threads α → Option (Threads α)
  | [], s => some s
  | .lock :: calls, s =>
    if s.owner = none then mutexCalls c calls { s with owner := some c } else none
  | .unlock :: calls, s =>
    mutexCalls c calls
      { s with owner := none, unheld := if s.owner = some c then s.unheld else c :: s.unheld }

section

variable (s : Threads α)

def Threads.perform (c : Nat) (o : Outcome α β) (phase : Phase) (pair : Bool) : Threads α :=
  match s.mutexCalls c o.calls with
  | none => s
  | some s' =>
    { s' with
      q := o.q
      phase := fun c' => if c' = c then phase else s.phase c'
      completed := if pair then s'.owner :: s.completed else s.completed }

def Threads.step : Act α → Threads α
  | .headLock c =>
    let o := s.q.headLock
    s.perform c o (if o.ret = none then s.phase c else .head) false
  | .headUnlock c => s.perform c s.q.headUnlock .idle true
  | .headPush c =>
    match s.q.headPush with
    | some o => s.perform c o .idle true
    | none => s
  | .purgeStaleTail c readings =>
    match s.q.purgeStaleTail readings with
    | some (q, calls) => s.perform c (⟨(), q, calls⟩ : Outcome α Unit) (s.phase c) false
    | none => s
  | .tailLock c ignoreTimestamp now =>
    let o := s.q.tailLockPurged ignoreTimestamp now
    s.perform c o (match o.ret with | none => s.phase c | some x => .tail x) false
  | .tailUnlock c => s.perform c s.q.tailUnlock .idle true
  | .tailPull c =>
    match s.q.tailPull with
    | some o => s.perform c o .idle true
    | none => s
  | .tailItemTake c =>
    match s.phase c with
    | .tail x =>
      match s.q.tailItemTake x with
      | some o => s.perform c o .idle true
      | none => s
    | _ => s
  | .giveItem x => { s with q := s.q.giveItem x }
  | .giveHead c =>
    s.perform c (⟨true, s.q.giveHead, s.q.mutex [.lock, .unlock]⟩ : Outcome α Bool) (s.phase c) false
  | .touch x f => { s with q := s.q.modify x f }

def Threads.Follows : Act α → Prop
  | .headUnlock c | .headPush c => s.phase c = .head
  | .tailUnlock c | .tailPull c | .tailItemTake c => ∃ x, s.phase c = .tail x
  | _ => True

def StaleTail (q : MediaQ α) (now : Option UInt64) : Prop :=
  0 < q.maxStaleTailUsec ∧ ∃ t ∈ q.active q.tail, (q.pItems t).pAvtpTime.usecDelta now < q.maxStale

def Threads.Fits : Act α → Prop
  | .purgeStaleTail _ readings => ¬ StaleTail s.q (readings 0)
  | _ => True

def Threads.start (q : MediaQ α) : Threads α := ⟨q, none, fun _ => .idle, [], []⟩

/-- The mutex is released by the caller that holds it, and free behind every pair. -/
structure Threads.Disciplined : Prop where
  unheld : s.unheld = []
  completed : ∀ owner ∈ s.completed, owner = none

structure Threads.Good : Prop where
  safe : s.q.threadSafeOn = true
  owner : ∀ c, s.owner = some c ↔ s.phase c ≠ .idle
  head : ∀ c, s.phase c = .head → s.q.active s.q.head ≠ none
  tail : ∀ c x, s.phase c = .tail x → s.q.active s.q.tail ≠ none
  disciplined : s.Disciplined

end

namespace Threads

variable {s : Threads α} {o : Outcome α β} {c : Nat} {p : Phase}

theorem Good.idle (h : s.Good) (hown : s.owner = none) (c : Nat) : s.phase c = .idle := by
  by_contra hne
  rw [(h.owner c).mpr hne] at hown
  cases hown

theorem Good.mutex (h : s.Good) (calls : List MutexCall) : s.q.mutex calls = calls := by
  unfold MediaQ.mutex
  rw [if_pos h.safe]

theorem Good.acquire (h : s.Good) (hcalls : o.calls = [.lock]) (hsafe : o.q.threadSafeOn = true)
    (hp : p ≠ .idle) (hhead : p = .head → o.q.active o.q.head ≠ none)
    (htail : ∀ x, p = .tail x → o.q.active o.q.tail ≠ none) : (s.perform c o p false).Good := by
  unfold perform
  rw [hcalls, mutexCalls]
  by_cases hown : s.owner = none
  case neg =>
    rw [if_neg hown]
    exact h
  case pos =>
    rw [if_pos hown, mutexCalls]
    have hidle := h.idle hown
    have hphase : ∀ {c' p'}, (if c' = c then p else s.phase c') = p' → p' ≠ .idle → p = p' := by
      intro c' p' hp' hne
      split at hp'
      · exact hp'
      · exact absurd (hp'.symm.trans (hidle c')) hne
    refine ⟨hsafe, fun c' => ?_, fun c' hc' => ?_, fun c' x hc' => ?_,
      ⟨h.disciplined.unheld, h.disciplined.completed⟩⟩
    · dsimp only
      by_cases hc : c' = c
      case pos => simp [hc, hp, ne_eq, not_false_eq_true]
      case neg =>
        rw [if_neg hc, hidle c']
        simp only [Option.some.injEq, ne_eq, not_true_eq_false, iff_false]
        exact fun heq => hc heq.symm
    · exact hhead (hphase hc' Phase.noConfusion)
    · exact htail x (hphase hc' Phase.noConfusion)

theorem Good.probe (h : s.Good) (hcalls : o.calls = [.lock, .unlock])
    (hsafe : o.q.threadSafeOn = true) : (s.perform c o (s.phase c) false).Good := by
  unfold perform
  rw [hcalls, mutexCalls]
  by_cases hown : s.owner = none
  case neg =>
    rw [if_neg hown]
    exact h
  case pos =>
    have hidle := h.idle hown
    have hphase : (fun c' => if c' = c then s.phase c else s.phase c') = fun _ => Phase.idle := by
      funext c'
      rw [hidle c, hidle c', ite_self]
    rw [if_pos hown, mutexCalls, mutexCalls, hphase]
    refine ⟨hsafe, fun c' => ?_, (fun c' hc' => by cases hc'), (fun c' x hc' => by cases hc'), ?_⟩
    · simp only [reduceCtorEq, ne_eq, not_true_eq_false]
    · refine ⟨?_, h.disciplined.completed⟩
      rw [if_pos rfl]
      exact h.disciplined.unheld

theorem Good.release (h : s.Good) (hcalls : o.calls = [.unlock]) (hsafe : o.q.threadSafeOn = true)
    (hc : s.phase c ≠ .idle) : (s.perform c o .idle true).Good := by
  have hown : s.owner = some c := (h.owner c).mpr hc
  have hphase : (fun c' => if c' = c then Phase.idle else s.phase c') = fun _ => Phase.idle := by
    funext c'
    by_cases heq : c' = c
    case pos => rw [if_pos heq]
    case neg =>
      rw [if_neg heq]
      by_contra hne
      have hother := (h.owner c').mpr hne
      rw [hown] at hother
      exact heq (Option.some.inj hother).symm
  unfold perform
  rw [hcalls, mutexCalls, mutexCalls, hphase]
  refine ⟨hsafe, fun c' => ?_, (fun c' hc' => by cases hc'), (fun c' x hc' => by cases hc'), ?_⟩
  · simp only [reduceCtorEq, ne_eq, not_true_eq_false]
  · refine ⟨?_, fun owner howner => ?_⟩
    · dsimp only
      rw [if_pos hown]
      exact h.disciplined.unheld
    · dsimp only at howner
      rw [if_pos rfl] at howner
      cases List.mem_cons.mp howner with
      | inl hhere => exact hhere
      | inr hrest => exact h.disciplined.completed owner hrest

variable {q : MediaQ α}

theorem Good.touched (h : s.Good) (hsafe : q.threadSafeOn = s.q.threadSafeOn)
    (hcount : q.itemCount = s.q.itemCount) (hhead : q.head = s.q.head) (htail : q.tail = s.q.tail) :
    Good { s with q := q } := by
  have hactive : q.active = s.q.active := by
    funext i
    unfold active
    rw [hcount]
  refine ⟨hsafe.trans h.safe, h.owner, ?_, ?_, ⟨h.disciplined.unheld, h.disciplined.completed⟩⟩
  · dsimp only
    rw [hactive, hhead]
    exact h.head
  · dsimp only
    rw [hactive, htail]
    exact h.tail

theorem Good.headLock (h : s.Good) : (s.step (.headLock c)).Good := by
  unfold step
  dsimp only
  fun_cases MediaQ.headLock s.q
  case case1 x hhead =>
    rw [if_neg (Option.some_ne_none _)]
    refine h.acquire (h.mutex _) h.safe Phase.noConfusion (fun _ => ?_) (fun x hx => by cases hx)
    show s.q.active s.q.head ≠ none
    rw [hhead]
    exact Option.some_ne_none _
  case case2 =>
    rw [if_pos rfl]
    exact h.probe (h.mutex _) h.safe

theorem Good.tailLock (h : s.Good) : (s.step (.tailLock c ignoreTimestamp now)).Good := by
  unfold step
  dsimp only
  fun_cases MediaQ.tailLockPurged s.q ignoreTimestamp now
  case case1 => exact h.probe (h.mutex _) h.safe
  case case2 x htail _ =>
    refine h.acquire (h.mutex _) h.safe Phase.noConfusion (fun hx => by cases hx) (fun y _ => ?_)
    show s.q.active s.q.tail ≠ none
    rw [htail]
    exact Option.some_ne_none _
  case case3 => exact h.probe (h.mutex _) h.safe

def Releases (q : MediaQ α) (o : Outcome α β) : Prop :=
  o.calls = q.mutex [.unlock] ∧ o.q.threadSafeOn = q.threadSafeOn

theorem Good.releases (h : s.Good) (ho : Releases s.q o) (hc : s.phase c ≠ .idle) :
    (s.perform c o .idle true).Good :=
  h.release (ho.1.trans (h.mutex _)) (ho.2.trans h.safe) hc

theorem headUnlock_releases (hhead : q.active q.head ≠ none) : Releases q q.headUnlock := by
  unfold headUnlock
  split
  case h_1 => exact ⟨rfl, rfl⟩
  case h_2 hnone => exact absurd hnone hhead

theorem tailUnlock_releases (htail : q.active q.tail ≠ none) : Releases q q.tailUnlock := by
  unfold tailUnlock
  split
  case h_1 => exact ⟨rfl, rfl⟩
  case h_2 hnone => exact absurd hnone htail

variable {o : Outcome α Bool}

theorem headPush_releases (hhead : q.active q.head ≠ none)
    (ho : q.headPush = some o) : Releases q o := by
  unfold headPush at ho
  split at ho
  case h_1 =>
    obtain ⟨q', hq', rfl⟩ := Option.map_eq_some_iff.mp ho
    obtain ⟨i, -, rfl⟩ := Option.map_eq_some_iff.mp hq'
    exact ⟨rfl, rfl⟩
  case h_2 hnone => exact absurd hnone hhead

theorem tailPull_releases (htail : q.active q.tail ≠ none)
    (ho : q.tailPull = some o) : Releases q o := by
  unfold tailPull at ho
  split at ho
  case h_1 =>
    obtain ⟨q', hq', rfl⟩ := Option.map_eq_some_iff.mp ho
    obtain ⟨i, -, rfl⟩ := Option.map_eq_some_iff.mp hq'
    exact ⟨rfl, rfl⟩
  case h_2 hnone => exact absurd hnone htail

theorem tailItemTake_releases (htail : q.active q.tail ≠ none)
    (ho : q.tailItemTake x = some o) : Releases q o := by
  unfold tailItemTake at ho
  split at ho
  case h_1 =>
    obtain ⟨q', hq', rfl⟩ := Option.map_eq_some_iff.mp ho
    obtain ⟨i, -, rfl⟩ := Option.map_eq_some_iff.mp hq'
    exact ⟨rfl, rfl⟩
  case h_2 hnone => exact absurd hnone htail

theorem purgeStaleTail_fresh {readings : Nat → Option UInt64}
    (hfresh : ¬ StaleTail q (readings 0)) :
    ∃ q', q.purgeStaleTail readings = some (q', []) ∧ q'.threadSafeOn = q.threadSafeOn ∧
      SameItems q q' := by
  unfold purgeStaleTail
  split
  case isTrue hmax =>
    unfold purge
    split
    case h_1 x htail =>
      have hkeep : ¬ (q.pItems x).pAvtpTime.usecDelta (readings 0) < q.maxStale :=
        fun hstale => hfresh ⟨hmax, x, htail, hstale⟩
      dsimp only
      rw [if_pos rfl, decide_eq_false hkeep, if_neg Bool.false_ne_true]
      exact ⟨_, rfl, rfl, ⟨rfl, rfl, rfl, rfl⟩⟩
    case h_2 => exact ⟨q, rfl, rfl, ⟨rfl, rfl, rfl, rfl⟩⟩
  case isFalse => exact ⟨q, rfl, rfl, ⟨rfl, rfl, rfl, rfl⟩⟩

theorem giveHead_threadSafeOn (q : MediaQ α) : q.giveHead.threadSafeOn = q.threadSafeOn := by
  unfold giveHead
  split <;> rfl

theorem Good.step (h : s.Good) (a : Act α) (hf : s.Follows a) (hfits : s.Fits a) :
    (s.step a).Good := by
  cases a with
  | headLock c => exact h.headLock
  | headUnlock c =>
    have hc : s.phase c = .head := hf
    exact h.releases (headUnlock_releases (h.head c hc)) (by rw [hc]; exact Phase.noConfusion)
  | headPush c =>
    have hc : s.phase c = .head := hf
    unfold Threads.step
    dsimp only
    split
    case h_1 o ho =>
      exact h.releases (headPush_releases (h.head c hc) ho) (by rw [hc]; exact Phase.noConfusion)
    case h_2 => exact h
  | purgeStaleTail c readings =>
    obtain ⟨q, hq, hsafe, hsame⟩ := purgeStaleTail_fresh hfits
    have hphase : (fun c' => if c' = c then s.phase c else s.phase c') = s.phase := by
      funext c'
      by_cases hc : c' = c
      case pos => rw [if_pos hc, hc]
      case neg => rw [if_neg hc]
    unfold Threads.step
    dsimp only
    rw [hq]
    unfold perform
    dsimp only
    rw [mutexCalls, hphase]
    exact h.touched hsafe hsame.itemCount hsame.head hsame.tail
  | tailLock c ignoreTimestamp now => exact h.tailLock
  | tailUnlock c =>
    obtain ⟨x, hc⟩ := hf
    exact h.releases (tailUnlock_releases (h.tail c x hc)) (by rw [hc]; exact Phase.noConfusion)
  | tailPull c =>
    obtain ⟨x, hc⟩ := hf
    unfold Threads.step
    dsimp only
    split
    case h_1 o ho =>
      exact h.releases (tailPull_releases (h.tail c x hc) ho) (by rw [hc]; exact Phase.noConfusion)
    case h_2 => exact h
  | tailItemTake c =>
    obtain ⟨x, hc⟩ := hf
    unfold Threads.step
    dsimp only
    rw [hc]
    dsimp only
    split
    case h_1 o ho =>
      exact h.releases (tailItemTake_releases (h.tail c x hc) ho)
        (by rw [hc]; exact Phase.noConfusion)
    case h_2 => exact h
  | giveItem x => exact h.touched rfl rfl rfl rfl
  | giveHead c => exact h.probe (h.mutex _) ((giveHead_threadSafeOn s.q).trans h.safe)
  | touch x f => exact h.touched rfl rfl rfl rfl

theorem start_good (hq : q.threadSafeOn = true) : (start q).Good where
  safe := hq
  owner := fun c => ⟨(fun h => by cases h), fun h => absurd rfl h⟩
  head := fun c h => by cases h
  tail := fun c x h => by cases h
  disciplined := ⟨rfl, fun owner h => by cases h⟩

end Threads

/-- As long as no purge finds a stale item, the mutex is released only by the caller that holds it
and is free behind every pair of calls. -/
theorem mediaQ_disciplined (q : MediaQ α) (hq : q.threadSafeOn = true) (acts : List (Act α))
    (hacts : Each Threads.step (fun s a => s.Follows a ∧ s.Fits a) (.start q) acts) :
    Always Threads.step Threads.Disciplined (.start q) acts := by
  have hgood : Always Threads.step Threads.Good (.start q) acts :=
    hacts.always (fun s a hs ha => hs.step a ha.1 ha.2) (Threads.start_good hq)
  exact hgood.imp fun s hs => hs.disciplined

/-- Caller 1 pushes an item due after one second, caller 2 locks the next, and two seconds later
caller 1 looks for stale items. -/
def pushStale : List (Act Unit) :=
  [.headLock 1, .touch 0 fun item => item.fill ⟨1000000000, 0, true, false⟩ () 0, .headPush 1,
    .headLock 2, .purgeStaleTail 1 fun _ => some 3000000000]

theorem mediaQ_disciplined_push :
    Always Threads.step Threads.Disciplined (.start (opened 0 1000000 true 2 1 ()))
      (pushStale.take 4) :=
  mediaQ_disciplined _ rfl _
    ⟨⟨trivial, trivial⟩, ⟨trivial, trivial⟩, ⟨rfl, trivial⟩, ⟨trivial, trivial⟩, trivial⟩

/-- The purge releases the mutex caller 2 holds. -/
theorem mediaQ_undisciplined :
    let s := Threads.start (opened 0 1000000 true 2 1 ())
    Each Threads.step Threads.Follows s pushStale ∧
      (run Threads.step s (pushStale.take 4)).owner = some 2 ∧
      (run Threads.step s pushStale).owner = none ∧
      (run Threads.step s pushStale).unheld = [1] :=
  ⟨⟨trivial, trivial, rfl, trivial, trivial, trivial⟩, by decide⟩

end OpenAvb.Pipeline
