import OpenAvb.Run
import OpenAvb.Pipeline.Mpeg2tsMapLaws

/-!
# Transport streams that lose their synchronisation

The talker skips what does not look like a packet and goes on from the next sync byte
of the item. An item without one sets a flag that nothing resets, and each turn of the
loop then starts anew at the first sync byte of its item.
-/

namespace OpenAvb.Pipeline.Mpeg2ts

open List

variable {cfg : Config} {item : Item} {queue : List Item} {talker talker' talker'' : Talker}
  {frame frame' frame'' : Frame} {units units' : List (List UInt8)}

structure Talker.Sound (cfg : Settings) (talker : Talker) : Prop where
  synched : talker.unsynched = false
  saved_lt : talker.savedBytes.length < cfg.tsPacketSize
  read_le : ∀ item ∈ talker.queue, item.readIdx ≤ item.data.length

/-- A packet that is there has its sync byte, or there is another one further on in the item; a
part of a packet fits where it is saved. -/
def CanTurn (cfg : Settings) (talker : Talker) (item : Item) : Prop :=
  item.unread = [] ∨
  cfg.tsPacketSize ≤ talker.savedBytes.length + item.unread.length ∧
    ((talker.savedBytes ++ item.unread)[cfg.tsPacketSize - mpeg2TsPktSize]? = some mpeg2TsSyncByte ∨
      mpeg2TsSyncByte ∈ item.data.drop (item.readIdx + (cfg.tsPacketSize - mpeg2TsPktSize) + 1)) ∨
  talker.savedBytes.length + item.unread.length < cfg.tsPacketSize ∧
    talker.savedBytes.length + item.unread.length ≤ mpeg2TsPktSize

instance (cfg : Settings) (talker : Talker) (item : Item) : Decidable (CanTurn cfg talker item) :=
  inferInstanceAs (Decidable (_ ∨ _ ∧ (_ ∨ _) ∨ _ ∧ _))

/-- `units` with stretches of what was pending go to the frame, and what was in front is gone. -/
structure Selected (cfg : Settings) (talker : Talker) (frame : Frame) (talker' : Talker)
    (frame' : Frame) (units : List (List UInt8)) : Prop where
  pending : ∃ gone, talker.pending = gone ++ talker'.pending ∧
    Stretches (units.map (carried cfg)) gone
  length_eq : ∀ unit ∈ units, unit.length = srcPktSize
  payload : frame'.payload = frame.payload ++ units.flatten
  sound : talker'.Sound cfg

theorem Selected.refl (h : talker.Sound cfg) : Selected cfg talker frame talker frame [] :=
  ⟨⟨[], rfl, .nil []⟩, nofun, by simp, h⟩

theorem Selected.trans (h : Selected cfg talker frame talker' frame' units)
    (h' : Selected cfg talker' frame' talker'' frame'' units') :
    Selected cfg talker frame talker'' frame'' (units ++ units') := by
  obtain ⟨gone, hpending, hpicks⟩ := h.pending
  obtain ⟨gone', hpending', hpicks'⟩ := h'.pending
  refine ⟨⟨gone ++ gone', ?_, ?_⟩, ?_, ?_, h'.sound⟩
  · rw [hpending, hpending', append_assoc]
  · rw [map_append]
    exact hpicks.append hpicks'
  · exact forall_mem_append.mpr ⟨h.length_eq, h'.length_eq⟩
  · rw [h'.payload, h.payload, append_assoc, flatten_append]

/-- The body of the loop goes on in step, or skips `n` octets of the item with those saved. -/
inductive Turned (cfg : Settings) (f f' : Filling) : Prop
  | worked (h : Worked cfg f (.ok f'))
  | skipped (n : Nat) (pos : 0 < n) (lt : n < f.item.unread.length)
      (talker : f'.talker = { f.talker with savedBytes := [] })
      (unread : f'.item.unread = f.item.unread.drop n)
      (read_le : f'.item.readIdx ≤ f'.item.data.length)
      (payload : f'.frame.payload = f.frame.payload)
      (counted : f'.sourcePacketsAdded = f.sourcePacketsAdded)

theorem syncScan_spec (h : mpeg2TsSyncByte ∈ item.data.drop start) :
    ∃ offset, syncScan item start = some offset ∧ start ≤ offset ∧ offset < item.data.length := by
  cases hfind : (item.data.drop start).findIdx? (· == mpeg2TsSyncByte) with
  | none =>
    have hnone := findIdx?_eq_none_iff.mp hfind _ h
    simp at hnone
  | some i =>
    obtain ⟨hi, -⟩ := findIdx?_eq_some_iff_getElem.mp hfind
    rw [length_drop] at hi
    exact ⟨start + i, by simp [syncScan, hfind], Nat.le_add_right _ _, by omega⟩

theorem Item.stamp_frame (cfg : Settings) (item : Item) :
    (item.stamp cfg).data = item.data ∧ (item.stamp cfg).readIdx = item.readIdx := by
  unfold Item.stamp
  split <;> exact ⟨rfl, rfl⟩

theorem addPacket_skips {f : Filling} (hsaved : f.talker.savedBytes.length < cfg.tsPacketSize)
    (hfull : cfg.tsPacketSize ≤ f.talker.savedBytes.length + f.item.unread.length)
    (hsync : (f.talker.savedBytes ++ f.item.unread)[cfg.tsPacketSize - mpeg2TsPktSize]? ≠
      some mpeg2TsSyncByte) (hnext : mpeg2TsSyncByte ∈
      f.item.data.drop (f.item.readIdx + (cfg.tsPacketSize - mpeg2TsPktSize) + 1)) :
    Turned cfg f (f.addPacket cfg) := by
  obtain ⟨hdata, hidx⟩ := f.item.stamp_frame cfg
  have hunread := f.item.unread_stamp cfg
  rw [← hunread] at hfull
  obtain ⟨-, -, hfour⟩ := sourcePacket_spec (le_of_lt hsaved) hfull
  rw [hunread] at hfour
  rw [← hdata, ← hidx] at hnext
  obtain ⟨offset, hscan, hle, hlt⟩ := syncScan_spec hnext
  rw [hdata] at hlt
  rw [hidx] at hle
  have hlen := f.item.length_unread
  have hoffset : f.item.unread.drop (offset - f.item.readIdx) = f.item.data.drop offset := by
    rw [Item.unread, drop_drop]
    congr 1
    omega
  unfold Filling.addPacket resync
  simp only [hfour, if_neg hsync, hscan]
  refine .skipped (offset - f.item.readIdx) (by omega) (by omega) rfl ?_ ?_ rfl rfl
  · simp [Item.unread, hdata, ← hoffset]
  · simp only [hdata]
    omega

theorem work_turned {f : Filling} (hq : f.talker.queue = f.item :: queue) (h : f.talker.Sound cfg)
    (hturn : CanTurn cfg f.talker f.item) : ∃ f', f.work cfg = .ok f' ∧ Turned cfg f f' := by
  have hread := h.read_le f.item (by simp [hq])
  have hlen := f.item.length_unread
  simp only [Filling.work, h.synched, Bool.false_eq_true, if_false]
  by_cases hempty : f.item.data.length - f.item.readIdx = 0
  · rw [if_pos hempty]
    rw [hempty] at hlen
    exact ⟨f, rfl, .worked (.ignored (eq_nil_of_length_eq_zero hlen))⟩
  · have hne : f.item.unread ≠ [] := by
      rintro hnil
      rw [hnil] at hlen
      exact hempty hlen.symm
    rw [if_neg hempty]
    rcases hturn with hnil | ⟨hfull, hsync⟩ | ⟨hpart, hle⟩
    · exact absurd hnil hne
    · rw [if_pos hfull]
      refine ⟨_, rfl, ?_⟩
      by_cases hin : (f.talker.savedBytes ++ f.item.unread)[cfg.tsPacketSize - mpeg2TsPktSize]? =
          some mpeg2TsSyncByte
      · exact .worked (addPacket_worked h.saved_lt hread hin hfull)
      · exact addPacket_skips h.saved_lt hfull hin (hsync.resolve_left hin)
    · rw [if_neg (by omega), Filling.savePart, if_pos hle]
      exact ⟨_, rfl, .worked (.saved hne hpart hle)⟩

theorem release_sound {f : Filling} (hsynched : f.talker.unsynched = false)
    (hsaved : f.talker.savedBytes.length < cfg.tsPacketSize)
    (hread : f.item.readIdx ≤ f.item.data.length)
    (hqueue : ∀ item ∈ queue, item.readIdx ≤ item.data.length) : (f.release queue).Sound cfg := by
  unfold Filling.release
  split
  · exact ⟨hsynched, hsaved, hqueue⟩
  · exact ⟨hsynched, hsaved, forall_mem_cons.mpr ⟨hread, hqueue⟩⟩

theorem Turned.selected {f f' : Filling} (ht : Turned cfg f f')
    (hq : f.talker.queue = f.item :: queue) (h : f.talker.Sound cfg) :
    ∃ units, Selected cfg f.talker f.frame (f'.release queue) f'.frame units ∧
      f'.sourcePacketsAdded = f.sourcePacketsAdded + units.length ∧
      (f'.release queue).load < f.talker.load := by
  obtain ⟨hread, hqueue⟩ := forall_mem_cons.mp (hq ▸ h.read_le)
  have hpending : f.talker.pending = f.talker.savedBytes ++ (f.item.unread ++ queued queue) := by
    rw [Talker.pending, hq, queued_cons]
  have hload : ∀ f' : Filling, f'.item.unread.length = 0 ∨
      f'.item.unread.length < f.item.unread.length →
      (f'.release queue).load < f.talker.load := by
    intro f' hless
    rw [load_of_queue hq]
    exact release_load f' queue hless
  have hpos : 0 < cfg.tsPacketSize := by
    have hsize := cfg.tsPacketSize_cases
    omega
  have hclean {f' : Filling} (htalker : f'.talker = { f.talker with savedBytes := [] })
      (hread' : f'.item.readIdx ≤ f'.item.data.length) : (f'.release queue).Sound cfg := by
    refine release_sound ?_ ?_ hread' hqueue
    all_goals rw [htalker]
    · exact h.synched
    · exact hpos
  cases ht with
  | worked hw =>
    cases hw with
    | ignored hnil =>
      refine ⟨[], ⟨⟨[], ?_, .nil []⟩, by simp, by simp, ?_⟩, rfl, hload _ (.inl (by simp [hnil]))⟩
      · rw [release_pending, hpending]
        rfl
      · exact release_sound h.synched h.saved_lt hread hqueue
    | added f' unit full htalker hunread hread' hlen hcarries hpayload hcounted =>
      have hsaved := h.saved_lt
      refine ⟨[unit], ⟨⟨_, ?_, .single _⟩, by simpa using hlen, by simp [hpayload], ?_⟩, hcounted,
        hload _ (.inr ?_)⟩
      · rw [release_pending, hpending, htalker, hunread, hcarries, nil_append,
          ← append_assoc, ← append_assoc]
        congr 1
        conv_lhs => rw [← take_append_drop cfg.tsPacketSize (f.talker.savedBytes ++ _)]
        rw [drop_append, drop_of_length_le (le_of_lt hsaved), nil_append]
      · exact hclean htalker hread'
      · rw [hunread, length_drop]
        omega
    | saved hne hpart hle =>
      refine ⟨[], ⟨⟨[], ?_, .nil []⟩, by simp, by simp, ?_⟩, rfl, hload _ (.inl rfl)⟩
      · rw [release_pending, hpending]
        simp [Item.emptied, Item.unread]
      · refine release_sound h.synched ?_ (le_refl 0) hqueue
        simpa using hpart
  | skipped n hn hlt htalker hunread hread' hpayload hcounted =>
    refine ⟨[], ⟨⟨f.talker.savedBytes ++ f.item.unread.take n, ?_, .nil _⟩, by simp,
      by simp [hpayload], ?_⟩, hcounted, hload _ (.inr ?_)⟩
    · rw [release_pending, hpending, htalker, hunread, nil_append, ← append_assoc,
        ← append_assoc, append_assoc _ (f.item.unread.take n), take_append_drop]
    · exact hclean htalker hread'
    · rw [hunread, length_drop]
      omega

/-- `Q` holds of the talker and its first item at the start of every turn of the loop. -/
def EachTurn (cfg : Settings) (Q : Talker → Item → Prop) : Nat → Talker → Frame → Nat → Prop
  | 0, _, _, _ => True
  | fuel + 1, talker, frame, sourcePacketsAdded =>
    match talker.queue with
    | [] => True
    | item :: queue =>
      Q talker item ∧
        match Filling.work cfg ⟨talker, item, frame, sourcePacketsAdded⟩ with
        | .error _ => True
        | .ok f =>
          cfg.numSourcePackets ≤ f.sourcePacketsAdded ∨
            EachTurn cfg Q fuel (f.release queue) f.frame f.sourcePacketsAdded

instance decidableEachTurn (cfg : Settings) {Q : Talker → Item → Prop}
    [∀ talker item, Decidable (Q talker item)] : (fuel : Nat) → (talker : Talker) →
    (frame : Frame) → (n : Nat) → Decidable (EachTurn cfg Q fuel talker frame n)
  | 0, _, _, _ => isTrue trivial
  | fuel + 1, talker, frame, n =>
    match hq : talker.queue with
    | [] => isTrue (by simp [EachTurn, hq])
    | item :: queue =>
      match hf : Filling.work cfg ⟨talker, item, frame, n⟩ with
      | .error _ => decidable_of_iff (Q talker item) (by simp [EachTurn, hq, hf])
      | .ok f =>
        have := decidableEachTurn cfg (Q := Q) fuel (f.release queue) f.frame f.sourcePacketsAdded
        decidable_of_iff (Q talker item ∧ (cfg.numSourcePackets ≤ f.sourcePacketsAdded ∨
          EachTurn cfg Q fuel (f.release queue) f.frame f.sourcePacketsAdded))
          (by simp [EachTurn, hq, hf])

theorem fillFrame_selected (frame : Frame) {fuel added : Nat} (h : talker.Sound cfg)
    (hturns : EachTurn cfg (CanTurn cfg) fuel talker frame added) (hfuel : talker.load < fuel) :
    ∃ talker' frame' units, fillFrame cfg fuel talker frame added =
        .ok (talker', frame', added + units.length) ∧
      Selected cfg talker frame talker' frame' units ∧
      talker'.load ≤ talker.load ∧ (talker.queue ≠ [] → talker'.load < talker.load) := by
  induction fuel generalizing talker frame added with
  | zero => exact absurd hfuel (Nat.not_lt_zero _)
  | succ fuel ih =>
    cases hq : talker.queue with
    | nil =>
      refine ⟨talker, frame, [], ?_, .refl h, le_refl _, fun hne => absurd rfl hne⟩
      simp [fillFrame, hq]
    | cons item queue =>
      simp only [EachTurn, hq] at hturns
      obtain ⟨hturn, hrest⟩ := hturns
      obtain ⟨f', hok, hturned⟩ := work_turned (f := ⟨talker, item, frame, added⟩) hq h hturn
      obtain ⟨units, hselected, hcount, hload⟩ := hturned.selected hq h
      simp only [hok] at hrest
      dsimp only at hselected hcount hload
      rw [fillFrame_cons hq hok]
      split
      case isTrue hfull =>
        exact ⟨_, _, units, by rw [hcount], hselected, le_of_lt hload, fun _ => hload⟩
      case isFalse hmore =>
        obtain ⟨talker'', frame'', units', hok', hselected', hle, -⟩ :=
          ih f'.frame hselected.sound (hrest.resolve_left hmore) (by omega)
        refine ⟨talker'', frame'', units ++ units', ?_, hselected.trans hselected', by omega,
          fun _ => by omega⟩
        rw [hok', hcount, length_append, add_assoc]

def framePackets (cfg : Settings) (frame : Frame) : List (List UInt8) :=
  (blocks srcPktSize frame.payload).map (carried cfg)

theorem txCB_selected {fuel : Nat} (h : talker.Sound cfg)
    (hturns : EachTurn cfg (CanTurn cfg) fuel talker blankFrame 0) (hfuel : talker.load < fuel) :
    ∃ frame talker', txCB cfg fuel talker = .ok (frame, talker') ∧
      (∃ gone, talker.pending = gone ++ talker'.pending ∧
        Stretches (frame.toList.flatMap (framePackets cfg)) gone) ∧
      talker'.Sound cfg ∧ (talker.queue ≠ [] → talker'.load < talker.load) := by
  obtain ⟨talker', frame', units, hok, hselected, -, hload⟩ :=
    fillFrame_selected blankFrame h hturns hfuel
  obtain ⟨gone, hpending, hpicks⟩ := hselected.pending
  cases units with
  | nil =>
    refine ⟨none, talker', ?_, ⟨gone, hpending, .nil gone⟩, hselected.sound, hload⟩
    rw [txCB, hok]
    rfl
  | cons unit units =>
    let n := (unit :: units).length
    have hblocks : blocks srcPktSize frame'.payload = unit :: units := by
      rw [hselected.payload]
      exact blocks_flatten (by decide) hselected.length_eq
    refine ⟨some { frame' with
        dbc := talker'.dbc, streamDataLen := UInt16.ofNat (n * srcPktSize + cipHeaderSize) },
      { talker' with dbc := talker'.dbc + UInt8.ofNat (n * blocksPerSrcPkt) }, ?_,
      ⟨gone, hpending, ?_⟩, ⟨hselected.sound.synched, hselected.sound.saved_lt,
        hselected.sound.read_le⟩, hload⟩
    · rw [txCB, hok, zero_add]
      rfl
    · simpa [framePackets, hblocks] using hpicks

/-- A talker with all it has been given and has sent so far, and what has stopped it. -/
structure Sending where
  talker : Talker
  input : List UInt8
  frames : List Frame
  fault : Option Fault
  deriving DecidableEq

def initSending : Sending := ⟨initTalker, [], [], none⟩

/-- Each call may go through its loop as often as `fuel` says. -/
def Sending.step (cfg : Settings) (fuel : Talker → Nat) (s : Sending) (event : Event) : Sending :=
  match event with
  | .push time data =>
    { s with talker := s.talker.push time data, input := s.input ++ data }
  | .call =>
    match txCB cfg (fuel s.talker) s.talker with
    | .ok (frame, talker) => { s with talker := talker, frames := s.frames ++ frame.toList }
    | .error fault => { s with fault := some fault }

/-- Every turn of the loop of a call finds a packet or part of one that it can deal with. -/
def StaysInSync (cfg : Settings) (fuel : Talker → Nat) (s : Sending) (event : Event) : Prop :=
  event = .call → EachTurn cfg (CanTurn cfg) (fuel s.talker) s.talker blankFrame 0

instance (cfg : Settings) (fuel : Talker → Nat) (s : Sending) (event : Event) :
    Decidable (StaysInSync cfg fuel s event) :=
  inferInstanceAs (Decidable (event = .call →
    EachTurn cfg (CanTurn cfg) (fuel s.talker) s.talker blankFrame 0))

def SendsOnce (cfg : Settings) (s : Sending) : Prop :=
  s.fault = none ∧ Stretches (s.frames.flatMap (framePackets cfg)) s.input

def MakesProgress (cfg : Settings) (fuel : Talker → Nat) (s : Sending) (event : Event) : Prop :=
  event = .call → s.talker.queue ≠ [] → (s.step cfg fuel event).talker.load < s.talker.load

/-- What is sent is picked from what is gone of the input; the rest is pending. -/
structure Sending.Sound (cfg : Settings) (s : Sending) : Prop where
  talker : s.talker.Sound cfg
  fault : s.fault = none
  input : ∃ gone, s.input = gone ++ s.talker.pending ∧
    Stretches (s.frames.flatMap (framePackets cfg)) gone

theorem Sending.Sound.sendsOnce {s : Sending} (h : s.Sound cfg) : SendsOnce cfg s := by
  obtain ⟨gone, hinput, hpicks⟩ := h.input
  exact ⟨h.fault, hinput ▸ hpicks.append_right _⟩

theorem Sending.Sound.step {s : Sending} (h : s.Sound cfg) {fuel : Talker → Nat}
    (hfuel : ∀ talker, talker.load < fuel talker) (event : Event)
    (hevent : StaysInSync cfg fuel s event) : (s.step cfg fuel event).Sound cfg ∧
      MakesProgress cfg fuel s event := by
  obtain ⟨gone, hinput, hpicks⟩ := h.input
  cases event with
  | push time data =>
    refine ⟨⟨⟨h.talker.synched, h.talker.saved_lt, ?_⟩, h.fault, gone, ?_, hpicks⟩, nofun⟩
    · refine forall_mem_append.mpr ⟨h.talker.read_le, ?_⟩
      simp
    · show s.input ++ data = gone ++ (s.talker.push time data).pending
      rw [push_pending, hinput, append_assoc]
  | call =>
    obtain ⟨frame, talker', hok, ⟨gone', hpending, hpicks'⟩, hsound, hload⟩ :=
      txCB_selected h.talker (hevent rfl) (hfuel s.talker)
    have hstep : s.step cfg fuel .call =
        { s with talker := talker', frames := s.frames ++ frame.toList } := by
      simp [Sending.step, hok]
    rw [MakesProgress, hstep]
    refine ⟨⟨hsound, h.fault, gone ++ gone', ?_, ?_⟩, fun _ => hload⟩
    · simp only [hinput, hpending, append_assoc]
    · simp only [flatMap_append]
      exact hpicks.append hpicks'

/-- In a run whose calls stay in sync, no call fails or loops, the packets sent are stretches of the
input, in order and disjoint, and every call that finds an item makes progress. -/
theorem mpeg2ts_sends_once (cfg : Config) (fuel : Talker → Nat)
    (hfuel : ∀ talker, talker.load < fuel talker) (events : List Event)
    (h : Each (Sending.step cfg.toSettings fuel) (StaysInSync cfg.toSettings fuel) initSending
      events) :
    Always (Sending.step cfg.toSettings fuel) (SendsOnce cfg.toSettings) initSending events ∧
      Each (Sending.step cfg.toSettings fuel) (MakesProgress cfg.toSettings fuel) initSending
        events := by
  have hpos : 0 < cfg.tsPacketSize := by
    have hsize := cfg.tsPacketSize_cases
    omega
  have hinit : initSending.Sound cfg := ⟨⟨rfl, hpos, nofun⟩, rfl, [], rfl, .nil []⟩
  have hrun : Always (Sending.step cfg fuel) (Sending.Sound cfg) initSending
      events :=
    h.always (fun s event hs hevent => (hs.step hfuel event hevent).1) hinit
  refine ⟨hrun.imp fun s hs => hs.sendsOnce, ?_⟩
  exact h.imp_of_always hrun fun s event hs hevent => (hs.step hfuel event hevent).2

def singleConfig : Config := ⟨⟨188, 1, 0⟩, .inl rfl, by decide⟩

def markedPacket (mark : UInt8) : List UInt8 := mpeg2TsSyncByte :: mark :: List.replicate 186 0

def skewedEvents : List Event :=
  [.push ⟨0, 0, false, false⟩ (0 :: markedPacket 1 ++ markedPacket 2), .call, .call]

theorem mpeg2ts_sends_once_skewed :
    Each (Sending.step singleConfig.toSettings fun talker => talker.load + 1)
        (StaysInSync singleConfig.toSettings fun talker => talker.load + 1) initSending
        skewedEvents ∧ Always (Sending.step singleConfig.toSettings fun talker => talker.load + 1)
        (SendsOnce singleConfig.toSettings) initSending skewedEvents := by
  have h : Each (Sending.step singleConfig fun talker => talker.load + 1)
      (StaysInSync singleConfig fun talker => talker.load + 1) initSending
      skewedEvents := by
    decide +kernel
  exact ⟨h, (mpeg2ts_sends_once singleConfig _ (fun _ => Nat.lt_succ_self _) skewedEvents h).1⟩

/-- An item without a sync byte in front of two packets: both calls send the first of them. -/
theorem mpeg2ts_sends_twice : ¬ SendsOnce singleConfig.toSettings
      (run (Sending.step singleConfig.toSettings fun talker => talker.load + 1) initSending
        [.push ⟨0, 0, false, false⟩ (List.replicate 188 0),
          .push ⟨0, 0, false, false⟩ (markedPacket 1 ++ markedPacket 2), .call, .call]) := by
  rintro ⟨-, hpicks⟩
  exact absurd (hpicks.sublist.count_le 1) (by decide +kernel)

end OpenAvb.Pipeline.Mpeg2ts
