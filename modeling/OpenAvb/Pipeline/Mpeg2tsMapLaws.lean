import Mathlib.Data.List.Forall2
import OpenAvb.Pipeline.Mpeg2tsMap

/-!
# What arrives of a transport stream

The talker's saved octets and its queue together are what no frame carries yet.
Every turn of its loop takes a packet off the front of it or leaves it as it is,
until an item ends where the assertion on the saved octets fails.
-/

namespace OpenAvb.Pipeline.Mpeg2ts

open List

variable {cfg : Config} {s t : List UInt8} {item : Item} {queue : List Item} {talker : Talker}
  {frame : Frame} {frames : List Frame} {n k pos : Nat} {lens ends : List Nat}

theorem Config.tsPacketSize_cases (cfg : Config) :
    cfg.tsPacketSize = 188 ∨ cfg.tsPacketSize = 192 :=
  cfg.tsPacketSize_eq

structure IsPacket (cfg : Settings) (packet : List UInt8) : Prop where
  length_eq : packet.length = cfg.tsPacketSize
  sync : packet[cfg.tsPacketSize - mpeg2TsPktSize]? = some mpeg2TsSyncByte

def Aligned (cfg : Settings) (s : List UInt8) : Prop :=
  ∀ i, i * cfg.tsPacketSize + (cfg.tsPacketSize - mpeg2TsPktSize) < s.length →
    s[i * cfg.tsPacketSize + (cfg.tsPacketSize - mpeg2TsPktSize)]? = some mpeg2TsSyncByte

theorem Aligned.drop (h : Aligned cfg s) : Aligned cfg (s.drop cfg.tsPacketSize) := by
  intro i hi
  rw [length_drop] at hi
  have hnext := h (i + 1) (by rw [Nat.succ_mul]; omega)
  rw [Nat.succ_mul, add_right_comm, add_comm] at hnext
  rw [getElem?_drop]
  exact hnext

theorem aligned_flatten {packets : List (List UInt8)}
    (h : ∀ p ∈ packets, IsPacket cfg p) : Aligned cfg packets.flatten := by
  induction packets with
  | nil => intro i hi; exact absurd hi (by simp)
  | cons p packets ih =>
    have hp := h p mem_cons_self
    have hsize := cfg.tsPacketSize_cases
    intro i hi
    rw [flatten_cons] at hi ⊢
    cases i with
    | zero =>
      rw [zero_mul, zero_add]
      rw [getElem?_append_left (by rw [hp.length_eq, mpeg2TsPktSize]; omega)]
      exact hp.sync
    | succ i =>
      rw [length_append, hp.length_eq, Nat.succ_mul] at hi
      rw [getElem?_append_right (by rw [hp.length_eq, Nat.succ_mul]; omega), hp.length_eq,
        Nat.succ_mul, add_right_comm, Nat.add_sub_cancel]
      exact ih (fun q hq => h q (mem_cons_of_mem p hq)) i (by omega)

/-- Items of these lengths, the first of which starts at `pos`, end where the octets of a packet
that is not complete can be saved. -/
def Fits (cfg : Settings) : Nat → List Nat → Prop
  | _, [] => True
  | pos, n :: lens => (pos + n) % cfg.tsPacketSize ≤ mpeg2TsPktSize ∧ Fits cfg (pos + n) lens

theorem fits_add_packet (cfg : Config) (pos : Nat) (lens : List Nat) :
    Fits cfg (pos + cfg.tsPacketSize) lens ↔ Fits cfg pos lens := by
  induction lens generalizing pos with
  | nil => exact Iff.rfl
  | cons n lens ih =>
    rw [Fits, Fits, add_right_comm, Nat.add_mod_right, ih]

theorem fits_sub_packet (h : cfg.tsPacketSize ≤ pos) :
    Fits cfg pos lens ↔ Fits cfg (pos - cfg.tsPacketSize) lens := by
  have hback := fits_add_packet cfg (pos - cfg.tsPacketSize) lens
  rw [Nat.sub_add_cancel h] at hback
  exact hback

theorem fits_zero_cons (hpos : pos < cfg.tsPacketSize) (hle : pos ≤ mpeg2TsPktSize) :
    Fits cfg pos (0 :: lens) ↔ Fits cfg pos lens := by
  rw [Fits, add_zero, Nat.mod_eq_of_lt hpos]
  exact ⟨fun h => h.2, fun h => ⟨hle, h⟩⟩

theorem fits_iff_take (cfg : Config) (pos : Nat) (lens : List Nat) :
    Fits cfg pos lens ∧ pos % cfg.tsPacketSize ≤ mpeg2TsPktSize ↔
      ∀ k, (pos + (lens.take k).sum) % cfg.tsPacketSize ≤ mpeg2TsPktSize := by
  induction lens generalizing pos with
  | nil => simp [Fits]
  | cons n lens ih =>
    constructor
    · rintro ⟨⟨hn, hrest⟩, hpos⟩ k
      cases k with
      | zero => exact hpos
      | succ k =>
        rw [take_succ_cons, sum_cons, ← add_assoc]
        exact (ih (pos + n)).mp ⟨hrest, hn⟩ k
    · rintro h
      have hrest := (ih (pos + n)).mpr fun k => by
        have hk := h (k + 1)
        rw [take_succ_cons, sum_cons, ← add_assoc] at hk
        exact hk
      exact ⟨⟨hrest.2, hrest.1⟩, h 0⟩

def queued (queue : List Item) : List UInt8 := queue.flatMap Item.unread

def Talker.pending (talker : Talker) : List UInt8 := talker.savedBytes ++ queued talker.queue

structure Talker.InStep (cfg : Settings) (talker : Talker) (rest : List UInt8) : Prop where
  synched : talker.unsynched = false
  saved_lt : talker.savedBytes.length < cfg.tsPacketSize
  saved_le : talker.savedBytes.length ≤ mpeg2TsPktSize
  read_le : ∀ item ∈ talker.queue, item.readIdx ≤ item.data.length
  aligned : Aligned cfg (talker.pending ++ rest)
  blocks : talker.dbc.toNat % 8 = 0

def Talker.lengths (talker : Talker) : List Nat := talker.queue.map fun item => item.unread.length

/-- How often the loop can be gone through at most before the queue is empty. -/
def Talker.load (talker : Talker) : Nat := (queued talker.queue).length + talker.queue.length

theorem Item.length_unread (item : Item) : item.unread.length = item.data.length - item.readIdx :=
  length_drop

theorem pending_of_queue_nil (h : talker.queue = []) : talker.pending = talker.savedBytes := by
  rw [Talker.pending, h, queued, flatMap_nil, append_nil]

theorem queued_cons : queued (item :: queue) = item.unread ++ queued queue := rfl

def carried (cfg : Settings) (unit : List UInt8) : List UInt8 :=
  unit.drop (srcPktSize - cfg.tsPacketSize)

theorem length_carried (cfg : Config) {unit : List UInt8} (h : unit.length = srcPktSize) :
    (carried cfg unit).length = cfg.tsPacketSize := by
  have hsize := cfg.tsPacketSize_cases
  rw [carried, length_drop, h, srcPktSize]
  omega

theorem Item.unread_stamp (cfg : Settings) (item : Item) :
    (item.stamp cfg).unread = item.unread := by
  unfold Item.stamp
  split
  · rfl
  · rfl

theorem sourcePacket_spec {saved : List UInt8} (hsaved : saved.length ≤ cfg.tsPacketSize)
    (h : cfg.tsPacketSize ≤ saved.length + item.unread.length) :
    (sourcePacket cfg saved item).length = srcPktSize ∧ carried cfg (sourcePacket cfg saved item) =
        (saved ++ item.unread).take cfg.tsPacketSize ∧ (sourcePacket cfg saved item)[4]? =
        (saved ++ item.unread)[cfg.tsPacketSize - mpeg2TsPktSize]? := by
  have hbody : saved ++ item.unread.take (cfg.tsPacketSize - saved.length) =
      (saved ++ item.unread).take cfg.tsPacketSize := by
    rw [take_append, take_of_length_le hsaved]
  have hlen : ((saved ++ item.unread).take cfg.tsPacketSize).length = cfg.tsPacketSize := by
    rw [length_take, length_append]
    omega
  unfold sourcePacket carried
  rw [append_assoc, hbody, length_append, hlen]
  obtain h188 | h192 := cfg.tsPacketSize_cases
  · rw [if_pos (by rw [h188, mpeg2TsPktSize]), length_numeral, h188]
    refine ⟨rfl, drop_left' length_numeral, ?_⟩
    rw [getElem?_append_right (by rw [length_numeral]), length_numeral,
      getElem?_take_of_lt (by decide)]
    rfl
  · rw [if_neg (by rw [h192, mpeg2TsPktSize]; decide), h192]
    refine ⟨rfl, rfl, ?_⟩
    rw [nil_append, getElem?_take_of_lt (by decide)]
    rfl

/-- What the loop's body can do while the talker is in step with the stream. -/
inductive Worked (cfg : Settings) (f : Filling) : Except Fault Filling → Prop
  | ignored (h : f.item.unread = []) : Worked cfg f (.ok f)
  | added (f' : Filling) (unit : List UInt8)
      (full : cfg.tsPacketSize ≤ f.talker.savedBytes.length + f.item.unread.length)
      (talker : f'.talker = { f.talker with savedBytes := [] })
      (unread : f'.item.unread = f.item.unread.drop (cfg.tsPacketSize - f.talker.savedBytes.length))
      (read_le : f'.item.readIdx ≤ f'.item.data.length)
      (length_eq : unit.length = srcPktSize)
      (carries : carried cfg unit = (f.talker.savedBytes ++ f.item.unread).take cfg.tsPacketSize)
      (payload : f'.frame.payload = f.frame.payload ++ unit)
      (counted : f'.sourcePacketsAdded = f.sourcePacketsAdded + 1) : Worked cfg f (.ok f')
  | saved (nonempty : f.item.unread ≠ [])
      (part : f.talker.savedBytes.length + f.item.unread.length < cfg.tsPacketSize)
      (le : f.talker.savedBytes.length + f.item.unread.length ≤ mpeg2TsPktSize) :
      Worked cfg f (.ok { f with
        talker := { f.talker with savedBytes := f.talker.savedBytes ++ f.item.unread }
        item := f.item.emptied })
  | failed (part : f.talker.savedBytes.length + f.item.unread.length < cfg.tsPacketSize)
      (gt : mpeg2TsPktSize < f.talker.savedBytes.length + f.item.unread.length) :
      Worked cfg f (.error .assertion)

theorem addPacket_worked {f : Filling} (hsaved : f.talker.savedBytes.length < cfg.tsPacketSize)
    (hread : f.item.readIdx ≤ f.item.data.length)
    (hsync : (f.talker.savedBytes ++ f.item.unread)[cfg.tsPacketSize - mpeg2TsPktSize]? =
      some mpeg2TsSyncByte)
    (hfull : cfg.tsPacketSize ≤ f.talker.savedBytes.length + f.item.unread.length) :
    Worked cfg f (.ok (f.addPacket cfg)) := by
  have hunread := f.item.unread_stamp cfg
  rw [← hunread] at hfull
  obtain ⟨hlen, hcarried, hfour⟩ := sourcePacket_spec (le_of_lt hsaved) hfull
  rw [hunread] at hfull
  rw [hunread] at hcarried hfour
  have hstamp : (f.item.stamp cfg).data = f.item.data ∧
      (f.item.stamp cfg).readIdx = f.item.readIdx := by
    unfold Item.stamp
    split
    · exact ⟨rfl, rfl⟩
    · exact ⟨rfl, rfl⟩
  have hrest : f.item.unread.length = f.item.data.length - f.item.readIdx := f.item.length_unread
  unfold Filling.addPacket
  dsimp only
  rw [hfour, if_pos hsync]
  refine .added _ _ hfull rfl ?_ ?_ hlen hcarried rfl rfl
  · rw [Item.unread, hstamp.1, hstamp.2, Item.unread, drop_drop]
  · show (f.item.stamp cfg).readIdx + _ ≤ (f.item.stamp cfg).data.length
    rw [hstamp.1, hstamp.2]
    omega

theorem work_worked {f : Filling} {rest : List UInt8} (hq : f.talker.queue = f.item :: queue)
    (h : f.talker.InStep cfg rest) : Worked cfg f (f.work cfg) := by
  have hread := h.read_le f.item (by rw [hq]; exact mem_cons_self)
  have hlen := f.item.length_unread
  unfold Filling.work
  simp only [h.synched, Bool.false_eq_true, ↓reduceIte]
  split
  case isTrue hempty =>
    rw [hempty] at hlen
    exact .ignored (eq_nil_of_length_eq_zero hlen)
  case isFalse hempty =>
    split
    case isTrue hfull =>
      refine addPacket_worked h.saved_lt hread ?_ hfull
      -- The first packet of what is pending starts with the octets saved.
      have hfirst := h.aligned 0
      rw [Talker.pending, hq, queued_cons, ← append_assoc, append_assoc, zero_mul,
        zero_add] at hfirst
      have hlt : cfg.tsPacketSize - mpeg2TsPktSize <
          (f.talker.savedBytes ++ f.item.unread).length := by
        rw [length_append, mpeg2TsPktSize]
        omega
      rw [← getElem?_append_left hlt]
      exact hfirst (by rw [length_append]; omega)
    case isFalse hpart =>
      unfold Filling.savePart
      split
      case isTrue hle =>
        refine .saved (fun hnil => hempty ?_) (by omega) hle
        rw [← hlen, hnil]
        rfl
      case isFalse hgt => exact .failed (by omega) (by omega)

section Release

variable (f : Filling) (queue : List Item)

theorem release_pending :
    (f.release queue).pending = f.talker.savedBytes ++ (f.item.unread ++ queued queue) := by
  unfold Filling.release
  split
  case isTrue hempty =>
    have hnil : f.item.unread = [] := eq_nil_of_length_eq_zero (by rw [Item.length_unread, hempty])
    rw [hnil]
    rfl
  case isFalse => rfl

theorem release_saved : (f.release queue).savedBytes = f.talker.savedBytes := by
  unfold Filling.release
  split
  · rfl
  · rfl

theorem release_fits (hlt : f.talker.savedBytes.length < cfg.tsPacketSize)
    (hle : f.talker.savedBytes.length ≤ mpeg2TsPktSize) :
    Fits cfg f.talker.savedBytes.length ((f.release queue).lengths ++ ends) ↔
      Fits cfg f.talker.savedBytes.length
        (f.item.unread.length :: (queue.map (fun item => item.unread.length) ++ ends)) := by
  unfold Filling.release
  split
  case isTrue hempty =>
    rw [Item.length_unread, hempty]
    exact (fits_zero_cons hlt hle).symm
  case isFalse => exact Iff.rfl

theorem release_load (h : f.item.unread.length = 0 ∨ f.item.unread.length < n) :
    (f.release queue).load < n + (queued queue).length + queue.length + 1 := by
  unfold Filling.release Talker.load
  split
  case isTrue => dsimp only; omega
  case isFalse hmore =>
    rw [queued_cons, length_append, length_cons]
    rw [← Item.length_unread] at hmore
    omega

end Release

/-- From `talker` to `talker'`, `units` are taken off what is pending. -/
structure Moved (cfg : Settings) (rest : List UInt8) (talker talker' : Talker)
    (units : List (List UInt8)) : Prop where
  pending : talker.pending = units.flatMap (carried cfg) ++ talker'.pending
  length_eq : ∀ unit ∈ units, unit.length = srcPktSize
  fits : ∀ ends, Fits cfg talker.savedBytes.length (talker.lengths ++ ends) ↔
    Fits cfg talker'.savedBytes.length (talker'.lengths ++ ends)
  load_le : talker'.load ≤ talker.load
  inStep : talker'.InStep cfg rest

/-- Between two points of the loop `units` are added to the frame. -/
structure Progress (cfg : Settings) (rest : List UInt8) (talker : Talker) (frame : Frame)
    (talker' : Talker) (frame' : Frame) (units : List (List UInt8)) : Prop
    extends Moved cfg rest talker talker' units where
  payload : frame'.payload = frame.payload ++ units.flatten

variable {rest : List UInt8} {talker' talker'' : Talker} {frame' frame'' : Frame}
  {units units' : List (List UInt8)}

theorem Progress.refl (h : talker.InStep cfg rest) :
    Progress cfg rest talker frame talker frame [] where
  pending := rfl
  payload := (append_nil _).symm
  length_eq := forall_mem_nil _
  fits := fun _ => Iff.rfl
  load_le := le_refl _
  inStep := h

theorem Progress.trans (h : Progress cfg rest talker frame talker' frame' units)
    (h' : Progress cfg rest talker' frame' talker'' frame'' units') :
    Progress cfg rest talker frame talker'' frame'' (units ++ units') where
  pending := by rw [h.pending, h'.pending, flatMap_append, append_assoc]
  payload := by rw [h'.payload, h.payload, flatten_append, append_assoc]
  length_eq := forall_mem_append.mpr ⟨h.length_eq, h'.length_eq⟩
  fits := fun ends => (h.fits ends).trans (h'.fits ends)
  load_le := le_trans h'.load_le h.load_le
  inStep := h'.inStep

theorem aligned_of_units (hlen : ∀ unit ∈ units, unit.length = srcPktSize)
    (h : Aligned cfg (units.flatMap (carried cfg) ++ s)) : Aligned cfg s := by
  induction units with
  | nil => exact h
  | cons unit units ih =>
    refine ih (fun u hu => hlen u (mem_cons_of_mem unit hu)) ?_
    have hdrop := h.drop
    rw [flatMap_cons, append_assoc,
      drop_left' (length_carried cfg (hlen unit mem_cons_self))] at hdrop
    exact hdrop

theorem lengths_of_queue (hq : talker.queue = item :: queue) : talker.lengths ++ ends =
      item.unread.length :: (queue.map (fun item => item.unread.length) ++ ends) := by
  rw [Talker.lengths, hq]
  rfl

theorem load_of_queue (hq : talker.queue = item :: queue) :
    talker.load = item.unread.length + (queued queue).length + queue.length + 1 := by
  rw [Talker.load, hq, queued_cons, length_append, length_cons, ← add_assoc]

theorem release_progress {f g : Filling} (h : f.talker.InStep cfg rest)
    (hq : f.talker.queue = f.item :: queue) (hunits : ∀ unit ∈ units, unit.length = srcPktSize)
    (hpending : f.talker.savedBytes ++ f.item.unread =
      units.flatMap (carried cfg) ++ (g.talker.savedBytes ++ g.item.unread))
    (htalker : g.talker = { f.talker with savedBytes := g.talker.savedBytes })
    (hlt : g.talker.savedBytes.length < cfg.tsPacketSize)
    (hle : g.talker.savedBytes.length ≤ mpeg2TsPktSize)
    (hread : g.item.readIdx ≤ g.item.data.length)
    (hless : g.item.unread.length = 0 ∨ g.item.unread.length < f.item.unread.length)
    (hfits : ∀ lens, Fits cfg g.talker.savedBytes.length (g.item.unread.length :: lens) ↔
      Fits cfg f.talker.savedBytes.length (f.item.unread.length :: lens))
    (hpayload : g.frame.payload = f.frame.payload ++ units.flatten) :
    Progress cfg rest f.talker f.frame (g.release queue) g.frame units ∧
      (g.release queue).load < f.talker.load := by
  have hload := release_load g queue hless
  rw [← load_of_queue hq] at hload
  have hpending' : f.talker.pending = units.flatMap (carried cfg) ++ (g.release queue).pending := by
    rw [release_pending, Talker.pending, hq, queued_cons, ← append_assoc, hpending, append_assoc,
      append_assoc]
  have haligned := h.aligned
  rw [hpending', append_assoc] at haligned
  have hkept : (g.release queue).unsynched = f.talker.unsynched ∧
      (g.release queue).dbc = f.talker.dbc := by
    unfold Filling.release
    rw [htalker]
    split <;> exact ⟨rfl, rfl⟩
  have htail : ∀ item ∈ queue, item.readIdx ≤ item.data.length := fun item hitem =>
    h.read_le item (by rw [hq]; exact mem_cons_of_mem _ hitem)
  have hstep : (g.release queue).InStep cfg rest :=
    { synched := hkept.1.trans h.synched
      saved_lt := by rw [release_saved]; exact hlt
      saved_le := by rw [release_saved]; exact hle
      read_le := by
        unfold Filling.release
        split
        · exact htail
        · exact forall_mem_cons.mpr ⟨hread, htail⟩
      aligned := aligned_of_units hunits haligned
      blocks := by rw [hkept.2]; exact h.blocks }
  refine ⟨⟨⟨hpending', hunits, fun ends => ?_, le_of_lt hload, hstep⟩, hpayload⟩, hload⟩
  rw [release_saved, release_fits g queue hlt hle, lengths_of_queue hq, hfits]

theorem Worked.progress {f : Filling} {r : Except Fault Filling} (hw : Worked cfg f r)
    (h : f.talker.InStep cfg rest) (hq : f.talker.queue = f.item :: queue) :
    (r = .error .assertion ∧
        ∀ ends, ¬ Fits cfg f.talker.savedBytes.length (f.talker.lengths ++ ends)) ∨
      ∃ f' units, r = .ok f' ∧
        Progress cfg rest f.talker f.frame (f'.release queue) f'.frame units ∧
        f'.sourcePacketsAdded = f.sourcePacketsAdded + units.length ∧ units.length ≤ 1 ∧
        (f'.release queue).load < f.talker.load := by
  have hlt := h.saved_lt
  have hle := h.saved_le
  have hread := h.read_le f.item (by rw [hq]; exact mem_cons_self)
  cases hw with
  | ignored hnil =>
    obtain ⟨hprog, hload⟩ := release_progress (g := f) h hq (forall_mem_nil _) rfl rfl hlt hle
      hread (.inl (by rw [hnil]; rfl)) (fun _ => Iff.rfl) (append_nil _).symm
    exact .inr ⟨f, [], rfl, hprog, rfl, Nat.zero_le _, hload⟩
  | added f' unit hfull htalker hunread hread' hlen hcarries hpayload hcounted =>
    have hsaved : f'.talker.savedBytes = [] := by rw [htalker]
    have hnext : f'.item.unread.length =
        f.talker.savedBytes.length + f.item.unread.length - cfg.tsPacketSize := by
      rw [hunread, length_drop]
      omega
    have hpending : f.talker.savedBytes ++ f.item.unread =
        [unit].flatMap (carried cfg) ++ (f'.talker.savedBytes ++ f'.item.unread) := by
      have hdrop : (f.talker.savedBytes ++ f.item.unread).drop cfg.tsPacketSize =
          f'.item.unread := by
        rw [drop_append, drop_eq_nil_of_le (by omega), hunread, nil_append]
      rw [hsaved, flatMap_singleton, hcarries, ← hdrop, nil_append, take_append_drop]
    obtain ⟨hprog, hload⟩ := release_progress h hq (forall_mem_singleton.mpr hlen) hpending
      (by rw [hsaved, htalker]) (by rw [hsaved]; exact Nat.zero_lt_of_lt hlt)
      (by rw [hsaved]; exact Nat.zero_le _) hread' (.inr (by omega)) (fun lens => by
        rw [hsaved, hnext]
        show Fits cfg 0 _ ↔ _
        rw [Fits, Fits, zero_add, ← fits_sub_packet hfull, ← Nat.mod_eq_sub_mod hfull])
      (by rw [hpayload, flatten_singleton])
    exact .inr ⟨f', [unit], rfl, hprog, hcounted, le_refl _, hload⟩
  | saved hne hpart hfits =>
    have hlen : (f.talker.savedBytes ++ f.item.unread).length =
        f.talker.savedBytes.length + f.item.unread.length := length_append
    obtain ⟨hprog, hload⟩ := release_progress
      (g := { f with
        talker := { f.talker with savedBytes := f.talker.savedBytes ++ f.item.unread }
        item := f.item.emptied })
      h hq (forall_mem_nil _) (append_nil _).symm rfl (by rw [hlen]; exact hpart)
      (by rw [hlen]; exact hfits) (le_refl _) (.inl rfl) (fun lens => by
        show Fits cfg (f.talker.savedBytes ++ f.item.unread).length (0 :: lens) ↔ _
        rw [fits_zero_cons (by rw [hlen]; exact hpart) (by rw [hlen]; exact hfits), Fits,
          Nat.mod_eq_of_lt hpart, hlen]
        exact (and_iff_right hfits).symm) (append_nil _).symm
    exact .inr ⟨_, [], rfl, hprog, rfl, Nat.zero_le _, hload⟩
  | failed hpart hgt =>
    refine .inl ⟨rfl, fun ends hfit => ?_⟩
    rw [lengths_of_queue hq, Fits, Nat.mod_eq_of_lt hpart] at hfit
    exact absurd hfit.1 (Nat.not_le_of_lt hgt)

theorem fillFrame_cons {fuel added : Nat} (hq : talker.queue = item :: queue)
    (hok : Filling.work cfg ⟨talker, item, frame, added⟩ = .ok f') :
    fillFrame cfg (fuel + 1) talker frame added =
      if cfg.numSourcePackets ≤ f'.sourcePacketsAdded then
        .ok (f'.release queue, f'.frame, f'.sourcePacketsAdded)
      else
        fillFrame cfg fuel (f'.release queue) f'.frame f'.sourcePacketsAdded := by
  rw [fillFrame, hq]
  dsimp only
  rw [hok]
  rfl

/-- With time enough the loop fails the assertion, or ends with the frame full or the queue
empty. -/
theorem fillFrame_spec (frame : Frame) {fuel added : Nat} (h : talker.InStep cfg rest)
    (hadded : added < cfg.numSourcePackets) (hfuel : talker.load < fuel) :
    (fillFrame cfg fuel talker frame added = .error .assertion ∧
        ∀ ends, ¬ Fits cfg talker.savedBytes.length (talker.lengths ++ ends)) ∨
      ∃ talker' frame' units, fillFrame cfg fuel talker frame added =
          .ok (talker', frame', added + units.length) ∧
        Progress cfg rest talker frame talker' frame' units ∧
        added + units.length ≤ cfg.numSourcePackets ∧
        (added + units.length = cfg.numSourcePackets ∨ talker'.queue = []) := by
  induction fuel generalizing talker frame added with
  | zero => exact absurd hfuel (Nat.not_lt_zero _)
  | succ fuel ih =>
    cases hq : talker.queue with
    | nil =>
      refine .inr ⟨talker, frame, [], ?_, Progress.refl h, le_of_lt hadded, .inr hq⟩
      rw [fillFrame, hq]
      rfl
    | cons item queue =>
      have hwork := work_worked (f := ⟨talker, item, frame, added⟩) hq h
      obtain ⟨herror, hnot⟩ | ⟨f', units, hok, hprog, hcount, hone, hload⟩ := hwork.progress h hq
      · refine .inl ⟨?_, hnot⟩
        rw [fillFrame, hq]
        dsimp only
        rw [herror]
        rfl
      · rw [fillFrame_cons hq hok]
        dsimp only at hprog hcount hload
        split
        case isTrue hfull =>
          rw [hcount] at hfull ⊢
          exact .inr ⟨_, _, units, rfl, hprog, by omega, .inl (by omega)⟩
        case isFalse hmore =>
          obtain ⟨herror, hnot⟩ | ⟨talker'', frame'', units', hok', hprog', hle, hend⟩ :=
            ih f'.frame hprog.inStep (Nat.lt_of_not_le hmore)
              (lt_of_lt_of_le hload (Nat.le_of_lt_succ hfuel))
          · exact .inl ⟨herror, fun ends hfit => hnot ends ((hprog.fits ends).mp hfit)⟩
          · have hsum : added + (units ++ units').length =
                f'.sourcePacketsAdded + units'.length := by
              rw [length_append, hcount, add_assoc]
            refine .inr ⟨talker'', frame'', units ++ units', ?_, hprog.trans hprog', ?_, ?_⟩
            · rw [hok', hsum]
            · rw [hsum]
              exact hle
            · rw [hsum]
              exact hend

structure Carries (cfg : Settings) (frame : Frame) (units : List (List UInt8)) : Prop where
  payload : frame.payload = units.flatten
  length_eq : ∀ unit ∈ units, unit.length = srcPktSize
  length_le : units.length ≤ cfg.numSourcePackets
  dataLen : frame.streamDataLen = UInt16.ofNat (units.length * srcPktSize + cipHeaderSize)
  blocks : frame.dbc.toNat % 8 = 0

theorem blocks_add (b : UInt8) (h : b.toNat % 8 = 0) (k : Nat) :
    (b + UInt8.ofNat (k * blocksPerSrcPkt)).toNat % 8 = 0 := by
  rw [UInt8.toNat_add, UInt8.toNat_ofNat', blocksPerSrcPkt]
  omega

theorem txCB_spec {fuel : Nat} (h : talker.InStep cfg rest) (hfuel : talker.load < fuel) :
    (txCB cfg fuel talker = .error .assertion ∧
        ∀ ends, ¬ Fits cfg talker.savedBytes.length (talker.lengths ++ ends)) ∨
      ∃ frame talker' parts, txCB cfg fuel talker = .ok (frame, talker') ∧
        List.Forall₂ (Carries cfg) frame.toList parts ∧
        Moved cfg rest talker talker' parts.flatten ∧
        (parts.flatten.length = cfg.numSourcePackets ∨ talker'.queue = []) := by
  obtain ⟨herror, hnot⟩ | ⟨talker', frame', units, hok, hprog, hle, hend⟩ :=
    fillFrame_spec blankFrame h cfg.numSourcePackets_pos hfuel
  · refine .inl ⟨?_, hnot⟩
    rw [txCB, herror]
    rfl
  · rw [zero_add] at hok hle hend
    cases units with
    | nil =>
      refine .inr ⟨none, talker', [], ?_, .nil, hprog.toMoved, hend⟩
      rw [txCB, hok]
      rfl
    | cons unit units =>
      have hblocks := blocks_add talker'.dbc hprog.inStep.blocks (unit :: units).length
      have hmoved : Moved cfg rest talker
          { talker' with
            dbc := talker'.dbc + UInt8.ofNat ((unit :: units).length * blocksPerSrcPkt) }
          (unit :: units) :=
        { hprog.toMoved with inStep := { hprog.inStep with blocks := hblocks } }
      have hcarries : Carries cfg
          { frame' with
            dbc := talker'.dbc
            streamDataLen := UInt16.ofNat ((unit :: units).length * srcPktSize + cipHeaderSize) }
          (unit :: units) :=
        ⟨hprog.payload, hprog.length_eq, hle, rfl, hprog.inStep.blocks⟩
      rw [← flatten_singleton (l := unit :: units)] at hmoved hend
      refine .inr ⟨some _, _, [unit :: units], ?_, .cons hcarries .nil, hmoved, hend⟩
      rw [txCB, hok, flatten_singleton]
      rfl

def pushes : List Event → List (AvtpTime × List UInt8)
  | [] => []
  | .push time data :: events => (time, data) :: pushes events
  | .call :: events => pushes events

def stream (items : List (AvtpTime × List UInt8)) : List UInt8 := items.flatMap Prod.snd

def itemLengths (items : List (AvtpTime × List UInt8)) : List Nat :=
  items.map fun item => item.2.length

variable {time : AvtpTime} {data : List UInt8} {items : List (AvtpTime × List UInt8)}
  {events : List Event} {fuel itemSize : Nat} {parts : List (List (List UInt8))}
  {clock : Nat → Option Util.Timespec}

theorem push_pending : (talker.push time data).pending = talker.pending ++ data := by
  rw [Talker.pending, Talker.pending, Talker.push, queued, queued, flatMap_append,
    append_assoc, flatMap_singleton]
  rfl

theorem push_lengths : (talker.push time data).lengths = talker.lengths ++ [data.length] := by
  rw [Talker.lengths, Talker.lengths, Talker.push, map_append]
  rfl

theorem push_load : (talker.push time data).load = talker.load + data.length + 1 := by
  have hqueued : queued (talker.queue ++ [⟨time, data, 0⟩]) = queued talker.queue ++ data := by
    rw [queued, queued, flatMap_append, flatMap_singleton]
    rfl
  unfold Talker.load Talker.push
  rw [hqueued, length_append, length_append, length_singleton]
  omega

theorem push_inStep (h : talker.InStep cfg (data ++ rest)) :
    (talker.push time data).InStep cfg rest where
  synched := h.synched
  saved_lt := h.saved_lt
  saved_le := h.saved_le
  read_le := forall_mem_append.mpr ⟨h.read_le, forall_mem_singleton.mpr (Nat.zero_le _)⟩
  aligned := by
    rw [push_pending, append_assoc]
    exact h.aligned
  blocks := h.blocks

/-- What the calls among the events send of what was pending and of the items they queue. -/
structure Sent (cfg : Settings) (rest : List UInt8) (talker talker' : Talker)
    (items : List (AvtpTime × List UInt8)) (units : List (List UInt8)) : Prop where
  pending : talker.pending ++ stream items = units.flatMap (carried cfg) ++ talker'.pending
  length_eq : ∀ unit ∈ units, unit.length = srcPktSize
  fits : ∀ ends, Fits cfg talker.savedBytes.length (talker.lengths ++ (itemLengths items ++ ends)) ↔
    Fits cfg talker'.savedBytes.length (talker'.lengths ++ ends)
  load_le : talker'.load ≤ talker.load + (stream items).length + items.length
  inStep : talker'.InStep cfg rest

theorem Sent.cons_push (h : Sent cfg rest (talker.push time data) talker' items units) :
    Sent cfg rest talker talker' ((time, data) :: items) units where
  pending := by
    rw [← h.pending, push_pending, append_assoc]
    rfl
  length_eq := h.length_eq
  fits := fun ends => by
    rw [← h.fits ends, push_lengths, append_assoc]
    rfl
  load_le := by
    have hload := h.load_le
    rw [push_load] at hload
    rw [stream, flatMap_cons, length_append, length_cons, ← stream]
    dsimp only
    omega
  inStep := h.inStep

theorem Moved.sent (h : Moved cfg (stream items ++ rest) talker talker' units)
    (h' : Sent cfg rest talker' talker'' items units') :
    Sent cfg rest talker talker'' items (units ++ units') where
  pending := by rw [h.pending, append_assoc, h'.pending, flatMap_append, append_assoc]
  length_eq := forall_mem_append.mpr ⟨h.length_eq, h'.length_eq⟩
  fits := fun ends => (h.fits _).trans (h'.fits ends)
  load_le := by
    have hload := h.load_le
    have hload' := h'.load_le
    omega
  inStep := h'.inStep

theorem transmit_spec (h : talker.InStep cfg (stream (pushes events) ++ rest))
    (hfuel : talker.load + (stream (pushes events)).length + (pushes events).length < fuel) :
    (transmit cfg fuel talker events = .error .assertion ∧
        ∀ ends, ¬ Fits cfg talker.savedBytes.length
          (talker.lengths ++ (itemLengths (pushes events) ++ ends))) ∨
      ∃ frames talker' parts, transmit cfg fuel talker events = .ok (frames, talker') ∧
        List.Forall₂ (Carries cfg) frames parts ∧
        Sent cfg rest talker talker' (pushes events) parts.flatten := by
  induction events generalizing talker with
  | nil =>
    refine .inr ⟨[], talker, [], rfl, .nil, ?_⟩
    exact ⟨append_nil _, forall_mem_nil _, fun _ => Iff.rfl, le_refl _, h⟩
  | cons event events ih =>
    cases event with
    | push time data =>
      rw [pushes, stream, flatMap_cons, append_assoc, ← stream] at h
      have hload : (talker.push time data).load + (stream (pushes events)).length +
          (pushes events).length < fuel := by
        rw [pushes, stream, flatMap_cons, length_append, length_cons, ← stream]
          at hfuel
        rw [push_load]
        dsimp only at hfuel
        omega
      obtain ⟨herror, hnot⟩ | ⟨frames, talker', parts, hok, hcarry, hsent⟩ :=
        ih (push_inStep h) hload
      · refine .inl ⟨herror, fun ends hfit => hnot ends ?_⟩
        rw [push_lengths, append_assoc]
        exact hfit
      · exact .inr ⟨frames, talker', parts, hok, hcarry, hsent.cons_push⟩
    | call =>
      rw [pushes] at h hfuel ⊢
      obtain ⟨herror, hnot⟩ | ⟨frame, next, part, hok, hcarry, hmoved, -⟩ :=
        txCB_spec h (lt_of_le_of_lt (by omega) hfuel)
      · refine .inl ⟨?_, fun ends => hnot _⟩
        rw [transmit, herror]
        rfl
      · have hload := hmoved.load_le
        obtain ⟨herror, hnot⟩ | ⟨frames, talker', parts, hok', hcarry', hsent⟩ :=
          ih hmoved.inStep (by omega)
        · refine .inl ⟨?_, fun ends hfit => hnot ends ((hmoved.fits _).mp hfit)⟩
          rw [transmit, hok]
          dsimp only [bind, Except.bind]
          rw [herror]
        · refine .inr ⟨frame.toList ++ frames, talker', part ++ parts, ?_, ?_, ?_⟩
          · rw [transmit, hok]
            dsimp only [bind, Except.bind]
            rw [hok']
          · exact rel_append hcarry hcarry'
          · rw [flatten_append]
            exact hmoved.sent hsent

theorem transmit_call_ok (h : transmit cfg fuel talker (.call :: events) = .ok (frames, talker')) :
    ∃ frame mid after, txCB cfg fuel talker = .ok (frame, mid) ∧
      transmit cfg fuel mid events = .ok (after, talker') ∧ frames = frame.toList ++ after := by
  rw [transmit] at h
  cases hcall : txCB cfg fuel talker with
  | error fault =>
    rw [hcall] at h
    cases h
  | ok r =>
    rw [hcall] at h
    dsimp only [bind, Except.bind] at h
    cases hrest : transmit cfg fuel r.2 events with
    | error fault =>
      rw [hrest] at h
      cases h
    | ok r' =>
      rw [hrest] at h
      cases h
      exact ⟨r.1, r.2, r'.1, rfl, hrest, rfl⟩

theorem transmit_append_ok {events' : List Event}
    (h : transmit cfg fuel talker (events ++ events') = .ok (frames, talker')) :
    ∃ before mid after, transmit cfg fuel talker events = .ok (before, mid) ∧
      transmit cfg fuel mid events' = .ok (after, talker') ∧ frames = before ++ after := by
  induction events generalizing talker frames with
  | nil => exact ⟨[], talker, frames, rfl, h, rfl⟩
  | cons event events ih =>
    cases event with
    | push time data => exact ih h
    | call =>
      obtain ⟨frame, next, after, hcall, hrest, rfl⟩ := transmit_call_ok h
      obtain ⟨before, mid, after, hbefore, hafter, rfl⟩ := ih hrest
      refine ⟨frame.toList ++ before, mid, after, ?_, hafter, (append_assoc _ _ _).symm⟩
      rw [transmit, hcall]
      dsimp only [bind, Except.bind]
      rw [hbefore]

theorem length_flatMap_carried (h : ∀ unit ∈ units, unit.length = srcPktSize) :
    (units.flatMap (carried cfg)).length = units.length * cfg.tsPacketSize := by
  induction units with
  | nil => rw [length_nil, zero_mul]; rfl
  | cons unit units ih =>
    rw [flatMap_cons, length_append, length_carried cfg (h unit mem_cons_self),
      ih fun u hu => h u (mem_cons_of_mem unit hu), length_cons, Nat.succ_mul, add_comm]

theorem queue_drained (h : talker.InStep cfg rest) (hfuel : talker.load < fuel)
    (hn : talker.queue = [] ∨ talker.pending.length < n * cfg.tsPacketSize)
    (hok : transmit cfg fuel talker (List.replicate n .call) = .ok (frames, talker')) :
    talker'.queue = [] := by
  induction n generalizing talker frames with
  | zero =>
    cases hok
    rw [zero_mul] at hn
    exact hn.resolve_right (Nat.not_lt_zero _)
  | succ n ih =>
    rw [replicate_succ] at hok
    obtain ⟨_, _, after, hcalled, hrest, -⟩ := transmit_call_ok hok
    obtain ⟨herror, -⟩ | ⟨frame, next, part, hcall, -, hmoved, hend⟩ := txCB_spec h hfuel
    · rw [herror] at hcalled
      cases hcalled
    · rw [hcall] at hcalled
      cases hcalled
      have hload := hmoved.load_le
      refine ih hmoved.inStep (by omega) ?_ hrest
      cases hend with
      | inr hempty => exact .inl hempty
      | inl hfull =>
        have hlen := congrArg List.length hmoved.pending
        rw [length_append, length_flatMap_carried hmoved.length_eq, hfull] at hlen
        have hpos : cfg.tsPacketSize ≤ cfg.numSourcePackets * cfg.tsPacketSize :=
          Nat.le_mul_of_pos_left _ cfg.numSourcePackets_pos
        cases hn with
        | inl hempty =>
          -- A packet cannot have come out of the octets saved.
          have hlt := h.saved_lt
          rw [pending_of_queue_nil hempty] at hlen
          omega
        | inr hn =>
          rw [Nat.succ_mul] at hn
          exact .inr (by omega)

/-- The number of packets that the listener takes for `k`. -/
def heardCount (k : Nat) : Nat :=
  ((k * srcPktSize + cipHeaderSize) % 2 ^ 16 - cipHeaderSize) / srcPktSize % 2 ^ 8

theorem heardCount_le (k : Nat) : heardCount k ≤ k := by
  have hlen := Nat.mod_le (k * srcPktSize + cipHeaderSize) (2 ^ 16)
  refine le_trans (Nat.mod_le _ _) (Nat.div_le_of_le_mul ?_)
  rw [mul_comm srcPktSize]
  omega

theorem heardCount_le_max (k : Nat) : heardCount k ≤ 255 :=
  Nat.le_of_lt_succ (Nat.mod_lt _ (by decide))

theorem heardCount_eq (h : k ≤ 255) : heardCount k = k := by
  have hlen : k * srcPktSize + cipHeaderSize < 2 ^ 16 := by
    unfold srcPktSize cipHeaderSize
    omega
  rw [heardCount, Nat.mod_eq_of_lt hlen, Nat.add_sub_cancel, Nat.mul_div_cancel _ (by decide),
    Nat.mod_eq_of_lt (lt_of_le_of_lt h (by decide))]

def heard (units : List (List UInt8)) : List (List UInt8) := units.take (heardCount units.length)

theorem copyPackets_eq (hlen : ∀ unit ∈ units, unit.length = srcPktSize)
    (hn : n ≤ units.length) (hroom : data.length + n * cfg.tsPacketSize ≤ itemSize) :
    copyPackets cfg itemSize n units.flatten data =
      data ++ (units.take n).flatMap (carried cfg) := by
  induction n generalizing units data with
  | zero => rw [copyPackets, take_zero, flatMap_nil, append_nil]
  | succ n ih =>
    cases units with
    | nil => exact absurd hn (Nat.not_succ_le_zero _)
    | cons unit units =>
      have hunit := hlen unit mem_cons_self
      have hcarried := length_carried cfg hunit
      rw [Nat.succ_mul] at hroom
      have hfirst : ((unit ++ units.flatten).drop (srcPktSize - cfg.tsPacketSize)).take
          cfg.tsPacketSize = carried cfg unit := by
        rw [drop_append_of_le_length (by rw [hunit]; exact Nat.sub_le _ _)]
        exact take_left' hcarried
      rw [copyPackets, if_pos (by omega), flatten_cons, hfirst, drop_left' hunit,
        ih (fun u hu => hlen u (mem_cons_of_mem unit hu)) (Nat.le_of_succ_le_succ hn)
          (by rw [length_append, hcarried]; omega),
        take_succ_cons, flatMap_cons, append_assoc]

theorem sourcePacketCount_eq (h : Carries cfg frame units) :
    (sourcePacketCount frame).toNat = heardCount units.length := by
  rw [sourcePacketCount, h.dataLen, UInt8.toNat_ofNat', UInt16.toNat_ofNat', heardCount]

theorem rxCB_received {listener : Listener} (now : Option Util.Timespec)
    (hroom : cfg.numSourcePackets * cfg.tsPacketSize ≤ itemSize) (hhead : listener.head.data = [])
    (h : Carries cfg frame units) : (rxCB cfg itemSize listener frame now).head.data = [] ∧
      (rxCB cfg itemSize listener frame now).received =
        listener.received ++ (heard units).flatMap (carried cfg) := by
  have hcount := sourcePacketCount_eq h
  have hle := heardCount_le units.length
  unfold rxCB
  rw [if_neg (by rw [h.blocks]; exact lt_irrefl _)]
  split
  case isTrue =>
    refine ⟨rfl, ?_⟩
    have hmul : heardCount units.length * cfg.tsPacketSize ≤
        cfg.numSourcePackets * cfg.tsPacketSize :=
      Nat.mul_le_mul_right _ (le_trans hle h.length_le)
    rw [Listener.received, Listener.received, flatMap_append, flatMap_singleton]
    rw [hhead, hcount, h.payload, copyPackets_eq h.length_eq hle (by rw [length_nil]; omega)]
    rfl
  case isFalse hzero =>
    refine ⟨hhead, ?_⟩
    have hnone : heardCount units.length = 0 := by
      rw [← hcount]
      exact Nat.eq_zero_of_not_pos fun hpos => hzero (UInt8.lt_iff_toNat_lt.mpr hpos)
    rw [heard, hnone, take_zero, flatMap_nil, append_nil]

theorem listen_received {itemSize m : Nat} (clock : Nat → Option Util.Timespec) (listener : Listener)
    {frames : List Frame} {parts : List (List (List UInt8))}
    (hroom : cfg.numSourcePackets * cfg.tsPacketSize ≤ itemSize) (hhead : listener.head.data = [])
    (h : List.Forall₂ (Carries cfg) frames parts) :
    (listen cfg itemSize clock m listener frames).received =
      listener.received ++ (parts.flatMap heard).flatMap (carried cfg) := by
  induction h generalizing listener m with
  | nil =>
    rw [listen, flatMap_nil, flatMap_nil, append_nil]
  | cons hcarry _ ih =>
    obtain ⟨hnext, hreceived⟩ := rxCB_received (clock m) hroom hhead hcarry
    rw [listen, ih _ hnext, hreceived, flatMap_cons, flatMap_append, append_assoc]

theorem heard_all (h : ∀ part ∈ parts, part.length ≤ 255) :
    parts.flatMap heard = parts.flatten := by
  induction parts with
  | nil => rfl
  | cons part parts ih =>
    rw [flatMap_cons, flatten_cons, ih fun p hp => h p (mem_cons_of_mem part hp),
      heard, heardCount_eq (h part mem_cons_self), take_length]

theorem length_heard_le (parts : List (List (List UInt8))) :
    (parts.flatMap heard).length ≤ parts.flatten.length := by
  induction parts with
  | nil => exact le_refl _
  | cons part parts ih =>
    rw [flatMap_cons, flatten_cons, length_append, length_append, heard, length_take]
    omega

/-- However the items are queued between calls, no assertion fails, and the listener's items hold
a prefix of the stream, which after enough calls misses less than a packet. -/
def Arrives (cfg : Settings) (itemSize : Nat) (clock : Nat → Option Util.Timespec)
    (items : List (AvtpTime × List UInt8)) : Prop :=
  ∀ events n fuel, pushes events = items → (stream items).length + items.length < fuel →
    ∃ frames talker,
      transmit cfg fuel initTalker (events ++ List.replicate n .call) = .ok (frames, talker) ∧
      let received := (listen cfg itemSize clock 0 initListener frames).received
      received <+: stream items ∧
        ((stream items).length / cfg.tsPacketSize < n →
          (stream items).length < received.length + cfg.tsPacketSize)

theorem initTalker_inStep (h : Aligned cfg rest) : initTalker.InStep cfg rest where
  synched := rfl
  saved_lt := by
    have hsize := cfg.tsPacketSize_cases
    show 0 < cfg.tsPacketSize
    omega
  saved_le := Nat.zero_le _
  read_le := forall_mem_nil _
  aligned := h
  blocks := rfl

theorem pushes_append_calls : pushes (events ++ List.replicate n .call) = pushes events := by
  induction events with
  | nil =>
    induction n with
    | zero => rfl
    | succ n ih => exact ih
  | cons event events ih =>
    cases event with
    | push time data => exact congrArg ((time, data) :: ·) ih
    | call => exact ih

theorem pushes_map_push (items : List (AvtpTime × List UInt8)) :
    pushes (items.map fun item => Event.push item.1 item.2) = items := by
  induction items with
  | nil => rfl
  | cons item items ih => exact congrArg _ ih

theorem itemLengths_sum : (itemLengths items).sum = (stream items).length := by
  rw [itemLengths, stream, length_flatMap]

theorem fits_iff_stream : Fits cfg 0 (itemLengths items) ↔
      ∀ k, (stream (items.take k)).length % cfg.tsPacketSize ≤ mpeg2TsPktSize := by
  have hiff := fits_iff_take cfg 0 (itemLengths items)
  have hzero : 0 % cfg.tsPacketSize ≤ mpeg2TsPktSize := by
    rw [Nat.zero_mod]
    exact Nat.zero_le _
  constructor
  · rintro h k
    rw [← itemLengths_sum, itemLengths, map_take, ← itemLengths, ← zero_add (List.sum _)]
    exact hiff.mp ⟨h, hzero⟩ k
  · rintro h
    refine (hiff.mpr fun k => ?_).1
    rw [zero_add, itemLengths, ← map_take, ← itemLengths, itemLengths_sum]
    exact h k

section

variable (h : Aligned cfg (stream items)) (hpush : pushes events = items)
  (hfuel : (stream items).length + items.length < fuel)
include h hpush hfuel

theorem transmit_init : (transmit cfg fuel initTalker events = .error .assertion ∧
        ¬ Fits cfg 0 (itemLengths items)) ∨ ∃ frames talker parts,
        transmit cfg fuel initTalker events = .ok (frames, talker) ∧
        List.Forall₂ (Carries cfg) frames parts ∧
        Sent cfg [] initTalker talker items parts.flatten := by
  subst hpush
  have hstep : initTalker.InStep cfg (stream (pushes events) ++ []) := by
    rw [append_nil]
    exact initTalker_inStep h
  have hload : initTalker.load + (stream (pushes events)).length + (pushes events).length <
      fuel := by
    show 0 + _ + _ < _
    omega
  obtain ⟨herror, hnot⟩ | hok := transmit_spec hstep hload
  · refine .inl ⟨herror, fun hfit => hnot [] ?_⟩
    rw [append_nil]
    exact hfit
  · exact .inr hok

theorem transmit_init_ok (hok : transmit cfg fuel initTalker events = .ok (frames, talker)) :
    ∃ parts, List.Forall₂ (Carries cfg) frames parts ∧
      Sent cfg [] initTalker talker items parts.flatten := by
  obtain ⟨herror, -⟩ | ⟨_, _, parts, hok', hcarry, hsent⟩ := transmit_init h hpush hfuel
  · rw [hok] at herror
    cases herror
  · rw [hok] at hok'
    cases hok'
    exact ⟨parts, hcarry, hsent⟩

end

section

variable (h : Sent cfg rest initTalker talker items units)
include h

theorem Sent.stream_eq : stream items = units.flatMap (carried cfg) ++ talker.pending := h.pending

theorem Sent.length_eq_add :
    (stream items).length = units.length * cfg.tsPacketSize + talker.pending.length := by
  rw [h.stream_eq, length_append, length_flatMap_carried h.length_eq]

theorem Sent.load_lt
    (hfuel : (stream items).length + items.length < fuel) : talker.load < fuel := by
  have hload := h.load_le
  have hzero : initTalker.load = 0 := rfl
  omega

end

theorem transmit_all (h : Aligned cfg (stream items)) (hpush : pushes events = items)
    (hfuel : (stream items).length + items.length < fuel) :
    (transmit cfg fuel initTalker (events ++ List.replicate n .call) =
          .error .assertion ∧ ¬ Fits cfg 0 (itemLengths items)) ∨ ∃ frames talker parts,
        transmit cfg fuel initTalker (events ++ List.replicate n .call) = .ok (frames, talker) ∧
        List.Forall₂ (Carries cfg) frames parts ∧
        Sent cfg [] initTalker talker items parts.flatten ∧
        ((stream items).length / cfg.tsPacketSize < n → talker.queue = []) := by
  have hall : pushes (events ++ List.replicate n .call) = items := by
    rw [pushes_append_calls, hpush]
  obtain herror | ⟨frames, talker, parts, hok, hcarry, hsent⟩ := transmit_init h hall hfuel
  · exact .inl herror
  · refine .inr ⟨frames, talker, parts, hok, hcarry, hsent, fun hn => ?_⟩
    -- The calls at the end start from what the events leave.
    obtain ⟨_, mid, after, hbefore, hcalls, -⟩ := transmit_append_ok hok
    obtain ⟨_, -, hmid⟩ := transmit_init_ok h hpush hfuel hbefore
    refine queue_drained hmid.inStep (hmid.load_lt hfuel) (.inr ?_) hcalls
    have hlen := hmid.length_eq_add
    have hsize := cfg.tsPacketSize_cases
    have hlt := (Nat.div_lt_iff_lt_mul (by omega)).mp hn
    omega

theorem length_part_le (h : List.Forall₂ (Carries cfg) frames parts) :
    ∀ part ∈ parts, part.length ≤ cfg.numSourcePackets := by
  induction h with
  | nil => exact forall_mem_nil _
  | cons hcarry _ ih => exact forall_mem_cons.mpr ⟨hcarry.length_le, ih⟩

theorem arrives_of_fits (h : Aligned cfg (stream items))
    (hroom : cfg.numSourcePackets * cfg.tsPacketSize ≤ itemSize)
    (hfits : Fits cfg 0 (itemLengths items))
    (hcount : cfg.numSourcePackets ≤ 255 ∨ (stream items).length / cfg.tsPacketSize ≤ 255) :
    Arrives cfg itemSize clock items := by
  intro events n fuel hpush hfuel
  obtain ⟨-, hnot⟩ | ⟨frames, talker, parts, hok, hcarry, hsent, hdrained⟩ :=
    transmit_all (n := n) h hpush hfuel
  · exact absurd hfits hnot
  · have hlen := hsent.length_eq_add
    have hparts : ∀ part ∈ parts, part.length ≤ 255 := by
      rintro part hpart
      have hnum := length_part_le hcarry part hpart
      have hpacket : part.length ≤ parts.flatten.length :=
        (sublist_flatten_of_mem hpart).length_le
      have hsize := cfg.tsPacketSize_cases
      have htotal : parts.flatten.length ≤ (stream items).length / cfg.tsPacketSize := by
        rw [Nat.le_div_iff_mul_le (by omega)]
        omega
      omega
    have hreceived := listen_received (m := 0) clock initListener hroom rfl hcarry
    rw [heard_all hparts] at hreceived
    refine ⟨frames, talker, hok, ?_⟩
    rw [hreceived]
    rw [show initListener.received = [] from rfl, nil_append]
    refine ⟨⟨talker.pending, hsent.stream_eq.symm⟩, fun hn => ?_⟩
    have hsaved := hsent.inStep.saved_lt
    rw [pending_of_queue_nil (hdrained hn)] at hlen
    rw [length_flatMap_carried hsent.length_eq]
    omega

theorem length_heard_lt {part : List (List UInt8)} (hmem : part ∈ parts) (h : 255 < part.length) :
    (parts.flatMap heard).length < parts.flatten.length := by
  obtain ⟨before, after, rfl⟩ := append_of_mem hmem
  have hbefore := length_heard_le before
  have hafter := length_heard_le after
  have hpart := heardCount_le_max part.length
  simp only [flatMap_append, flatMap_cons, flatten_append, flatten_cons,
    length_append, heard, length_take] at hbefore hafter ⊢
  omega

theorem transmit_pushes
    (h : transmit cfg fuel talker (items.map fun item => Event.push item.1 item.2) =
      .ok (frames, talker')) : frames = [] := by
  induction items generalizing talker with
  | nil => cases h; rfl
  | cons item items ih => exact ih h

theorem Carries.length_payload (h : Carries cfg frame units) :
    frame.payload.length = units.length * srcPktSize := by
  rw [h.payload, length_flatten, map_congr_left h.length_eq, map_const', sum_replicate_nat]

theorem exists_part_of_mem (h : List.Forall₂ (Carries cfg) frames parts) (hframe : frame ∈ frames) :
    ∃ part ∈ parts, Carries cfg frame part := by
  induction h with
  | nil => cases hframe
  | cons hcarry _ ih =>
    cases hframe with
    | head => exact ⟨_, mem_cons_self, hcarry⟩
    | tail _ hframe =>
      obtain ⟨part, hpart, hcarry⟩ := ih hframe
      exact ⟨part, mem_cons_of_mem _ hpart, hcarry⟩

section

variable (h : Aligned cfg (stream items))
include h

theorem first_call_full
    (hfuel : (stream items).length + items.length < fuel) (hnum : k < cfg.numSourcePackets)
    (htotal : k < (stream items).length / cfg.tsPacketSize) (hok : transmit cfg fuel initTalker
      (items.map (fun item => Event.push item.1 item.2) ++ List.replicate (n + 1) .call) =
        .ok (frames, talker)) : ∃ frame ∈ frames, k * srcPktSize < frame.payload.length := by
  obtain ⟨before, full, _, hqueue, hcalls, rfl⟩ := transmit_append_ok hok
  obtain ⟨frame, next, after, hcall, -, rfl⟩ := transmit_call_ok hcalls
  obtain rfl := transmit_pushes hqueue
  obtain ⟨_, hnone, hfull⟩ := transmit_init_ok h (pushes_map_push items) hfuel hqueue
  cases hnone
  obtain ⟨herror, -⟩ | ⟨_, _, parts, hcall', hcarry, hmoved, hend⟩ :=
    txCB_spec hfull.inStep (hfull.load_lt hfuel)
  · rw [herror] at hcall
    cases hcall
  rw [hcall] at hcall'
  cases hcall'
  have hlarge : k < parts.flatten.length := by
    cases hend with
    | inl hend => rw [hend]; exact hnum
    | inr hempty =>
      -- All packets of the stream are in the frame.
      have hlen := hfull.length_eq_add
      rw [hmoved.pending, pending_of_queue_nil hempty, length_append,
        length_flatMap_carried hmoved.length_eq] at hlen
      have hsaved := hmoved.inStep.saved_lt
      have hdiv : (stream items).length / cfg.tsPacketSize = parts.flatten.length := by
        refine Nat.div_eq_of_lt_le ?_ ?_
        · rw [hlen, flatten_nil, length_nil]
          omega
        · rw [hlen, flatten_nil, length_nil, Nat.succ_mul]
          omega
      rw [← hdiv]
      exact htotal
  cases frame with
  | none =>
    cases hcarry
    exact absurd hlarge (Nat.not_lt_zero _)
  | some frame =>
    cases hcarry with
    | cons hcarry hnil =>
      cases hnil
      refine ⟨frame, mem_cons_self, ?_⟩
      rw [flatten_singleton] at hlarge
      rw [hcarry.length_payload]
      exact Nat.mul_lt_mul_of_pos_right hlarge (by decide)

theorem fits_of_arrives (harrives : Arrives cfg itemSize clock items) :
    Fits cfg 0 (itemLengths items) := by
  have hpush := pushes_map_push items
  have hsize := cfg.tsPacketSize_cases
  obtain ⟨frames, talker, hok, -⟩ :=
    harrives _ ((stream items).length / cfg.tsPacketSize + 1) _ hpush (Nat.lt_succ_self _)
  obtain ⟨herror, -⟩ | ⟨_, talker', parts, hok', -, hsent, hdrained⟩ :=
    transmit_all h hpush (Nat.lt_succ_self _)
  · rw [herror] at hok
    cases hok
  · have hempty := hdrained (Nat.lt_succ_self _)
    have hfits := hsent.fits []
    rw [append_nil, append_nil, Talker.lengths, Talker.lengths, hempty] at hfits
    exact hfits.mpr trivial

theorem count_of_arrives (hroom : cfg.numSourcePackets * cfg.tsPacketSize ≤ itemSize)
    (harrives : Arrives cfg itemSize clock items) :
    cfg.numSourcePackets ≤ 255 ∨ (stream items).length / cfg.tsPacketSize ≤ 255 := by
  by_contra hmany
  obtain ⟨frames, talker, hok, -, hcomplete⟩ :=
    harrives _ ((stream items).length / cfg.tsPacketSize + 1) _ (pushes_map_push items)
      (Nat.lt_succ_self _)
  obtain ⟨frame, hframe, hlarge⟩ :=
    first_call_full (k := 255) h (Nat.lt_succ_self _) (by omega) (by omega) hok
  obtain ⟨parts, hcarry, hsent⟩ := transmit_init_ok h (by
    rw [pushes_append_calls, pushes_map_push]) (Nat.lt_succ_self _) hok
  obtain ⟨part, hpart, hcarries⟩ := exists_part_of_mem hcarry hframe
  rw [hcarries.length_payload] at hlarge
  have hlt := length_heard_lt hpart (Nat.lt_of_mul_lt_mul_right hlarge)
  have hheard : ∀ unit ∈ parts.flatMap heard, unit.length = srcPktSize := by
    rintro unit hunit
    obtain ⟨p, hp, hu⟩ := mem_flatMap.mp hunit
    exact hsent.length_eq unit (mem_flatten.mpr ⟨p, hp, mem_of_mem_take hu⟩)
  have hlen := hsent.length_eq_add
  have hreceived := hcomplete (Nat.lt_succ_self _)
  rw [listen_received clock initListener hroom rfl hcarry, length_append,
    length_flatMap_carried hheard] at hreceived
  have hzero : initListener.received.length = 0 := rfl
  have hmul := Nat.mul_le_mul_right cfg.tsPacketSize hlt
  rw [Nat.succ_mul] at hmul
  omega

end

/-- What the listener receives is complete iff no item ends three octets or less before the end of
a packet of 192 octets and no frame has more packets than a `U8` can count. -/
theorem mpeg2ts_received_iff (cfg : Config) (clock : Nat → Option Util.Timespec) {itemSize : Nat}
    {items : List (AvtpTime × List UInt8)} (packets : List (List UInt8))
    (hpackets : ∀ p ∈ packets, IsPacket cfg.toSettings p) (hstream : stream items = packets.flatten)
    (hroom : cfg.numSourcePackets * cfg.tsPacketSize ≤ itemSize) :
    Arrives cfg.toSettings itemSize clock items ↔
      (∀ k, (stream (items.take k)).length % cfg.tsPacketSize ≤ mpeg2TsPktSize) ∧
        (cfg.numSourcePackets ≤ 255 ∨ (stream items).length / cfg.tsPacketSize ≤ 255) := by
  have haligned : Aligned cfg (stream items) := by
    rw [hstream]
    exact aligned_flatten hpackets
  rw [← fits_iff_stream]
  constructor
  · rintro harrives
    exact ⟨fits_of_arrives haligned harrives, count_of_arrives haligned hroom harrives⟩
  · rintro ⟨hfits, hcount⟩
    exact arrives_of_fits haligned hroom hfits hcount

def defaultConfig : Config := ⟨⟨188, 7, 0⟩, .inl rfl, by decide⟩

def cutItems : List (AvtpTime × List UInt8) :=
  [(⟨0, 0, true, false⟩, 0x47 :: List.replicate 99 0), (⟨0, 0, true, false⟩, List.replicate 88 0)]

theorem mpeg2ts_received_cut : Arrives defaultConfig.toSettings 9024 (fun _ => none) cutItems := by
  refine (mpeg2ts_received_iff defaultConfig _ [0x47 :: List.replicate 187 0] ?_
    (by decide +kernel) (by decide)).mpr ⟨fun k => ?_, .inl (by decide)⟩
  · rintro p hp
    rw [mem_singleton.mp hp]
    exact ⟨by decide +kernel, by decide⟩
  · exact le_of_lt (Nat.mod_lt _ (by decide))

/-- A packet with its timestamp, the first 190 octets of which are in one item: saving them fails
an assertion. -/
theorem mpeg2ts_asserts : IsPacket ⟨192, 1, 0⟩ ([0, 0, 0, 0, 0x47] ++ List.replicate 187 0) ∧
      transmit ⟨192, 1, 0⟩ 200 initTalker
        [.push ⟨0, 0, true, false⟩ ([0, 0, 0, 0, 0x47] ++ List.replicate 185 0),
          .push ⟨0, 0, true, false⟩ [0, 0], .call] = .error .assertion :=
  ⟨⟨by decide +kernel, by decide⟩, by decide +kernel⟩

end OpenAvb.Pipeline.Mpeg2ts
