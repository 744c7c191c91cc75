import Mathlib.Data.List.Nodup
import Mathlib.Data.Nat.ModEq
import Mathlib.Logic.Function.Basic
import OpenAvb.Pipeline.Avtp

/-!
# The buffers of a ring that sends

A buffer goes from the ring to the client and back, and the ring counts those that
are out and those that are ready. The place of the next buffer moves on whatever
the client gives back, so it comes to a buffer again after as many calls as there are
places; and `errno` is looked at even if `send` did not fail.
-/

namespace OpenAvb.Pipeline

open Function List

inductive TpStatus where
  -- also `TP_STATUS_KERNEL`
  | available
  | sendRequest
  | sending
  | wrongFormat
  deriving DecidableEq

abbrev RingPlace := Nat × Nat

/-- A buffer that was obtained: by which call, counted from 0, and its place. -/
abbrev TxBuffer := Nat × RingPlace

/-- The ring, how many buffers were obtained, those that the client holds, and how many were made
ready since `send` last succeeded. -/
structure TxRing where
  (frameCount blockCount blockIndex bufferIndex : Nat)
  (buffersOut buffersReady : Int)
  status : RingPlace → TpStatus
  obtained : Nat
  held : List TxBuffer
  unsent : Nat

/-- `eintr`: `errno` is `EINTR` behind the call of `send`, which does not fail. -/
inductive RingCall where
  | getTxFrame
  | txFrameReady (buffer : TxBuffer) (eintr : Bool)
  | relTxFrame (buffer : TxBuffer)
  | send (eintr : Bool)
  | kernel (place : RingPlace) (status : TpStatus)

namespace TxRing

def openRing (frameCount blockCount : Nat) : TxRing :=
  ⟨frameCount, blockCount, 0, 0, 0, 0, fun _ => .available, 0, [], 0⟩

section

variable (s : TxRing)

def place : RingPlace := (s.blockIndex, s.bufferIndex)

/-- There is a buffer for the client; a busy one is waited for, or `NULL` is returned. -/
def Gets : Prop :=
  s.buffersOut < s.frameCount ∧ s.status s.place ≠ .sendRequest ∧ s.status s.place ≠ .sending

instance (s : TxRing) : Decidable s.Gets := inferInstanceAs (Decidable (_ ∧ _ ∧ _))

def advance : TxRing :=
  if s.bufferIndex + 1 < s.frameCount / s.blockCount then
    { s with bufferIndex := s.bufferIndex + 1 }
  else if s.blockIndex + 1 < s.blockCount then
    { s with bufferIndex := 0, blockIndex := s.blockIndex + 1 }
  else { s with bufferIndex := 0, blockIndex := 0 }

def ringRawsockGetTxFrame : TxRing :=
  { s.advance with
    buffersOut := s.buffersOut + 1
    status := update s.status s.place .available
    obtained := s.obtained + 1
    held := (s.obtained, s.place) :: s.held }

def ringRawsockSend (eintr : Bool) : TxRing :=
  if eintr then { s with unsent := 0 }
  else { s with buffersOut := s.buffersOut - s.buffersReady, buffersReady := 0, unsent := 0 }

def markReady (buffer : TxBuffer) : TxRing :=
  { s with
    buffersReady := s.buffersReady + 1
    status := update s.status buffer.2 .sendRequest
    held := s.held.erase buffer
    unsent := s.unsent + 1 }

def ringRawsockTxFrameReady (buffer : TxBuffer) (eintr : Bool) : TxRing :=
  if s.frameCount ≤ (s.markReady buffer).buffersReady then
    (s.markReady buffer).ringRawsockSend eintr
  else s.markReady buffer

def ringRawsockRelTxFrame (buffer : TxBuffer) : TxRing :=
  { s with
    buffersOut := s.buffersOut - 1
    status := update s.status buffer.2 .available
    held := s.held.erase buffer }

def step : RingCall → TxRing
  | .getTxFrame => if s.Gets then s.ringRawsockGetTxFrame else s
  | .txFrameReady buffer eintr =>
    if buffer ∈ s.held then s.ringRawsockTxFrameReady buffer eintr else s
  | .relTxFrame buffer => if buffer ∈ s.held then s.ringRawsockRelTxFrame buffer else s
  | .send eintr => s.ringRawsockSend eintr
  -- The kernel has a buffer from the request to send it on.
  | .kernel place status =>
    if s.status place = .available then s
    else { s with status := update s.status place status }

/-- The counters are right, and no buffer is held twice. -/
structure Accounts : Prop where
  out : s.buffersOut = s.held.length + s.unsent
  ready : s.buffersReady = s.unsent
  once : (s.held.map Prod.snd).Nodup

def buffersPerBlock : Nat := max 1 (s.frameCount / s.blockCount)

def blocks : Nat := max 1 s.blockCount

/-- The buffer obtained as many calls ago as the ring has places was given back, and `errno` is not
`EINTR` when there are buffers to send. -/
def InTurn : RingCall → Prop
  | .getTxFrame =>
    s.Gets → ∀ buffer ∈ s.held, buffer.1 + s.buffersPerBlock * s.blocks ≠ s.obtained
  | .txFrameReady buffer eintr => buffer ∈ s.held → s.frameCount ≤ s.unsent + 1 → eintr = false
  | .relTxFrame _ => True
  | .send eintr => s.unsent = 0 ∨ eintr = false
  | .kernel _ _ => True

end

variable {s : TxRing} {buffer : TxBuffer}

/-! ### The way round the ring -/

/-- Where the `n`th buffer is found. -/
def placeOf (s : TxRing) (n : Nat) : RingPlace :=
  (n / s.buffersPerBlock % s.blocks, n % s.buffersPerBlock)

/-- The buffers come in turn, and those that are held were obtained on the last way round. -/
structure Ordered (s : TxRing) : Prop where
  place : s.place = s.placeOf s.obtained
  held : ∀ buffer ∈ s.held, buffer.2 = s.placeOf buffer.1 ∧ buffer.1 < s.obtained ∧
    s.obtained ≤ buffer.1 + s.buffersPerBlock * s.blocks

theorem placeOf_add_ring (s : TxRing) (n : Nat) :
    s.placeOf (n + s.buffersPerBlock * s.blocks) = s.placeOf n := by
  have hpos : 0 < s.buffersPerBlock := Nat.le_max_left 1 _
  simp only [placeOf, Nat.add_mul_div_left _ _ hpos, Nat.add_mul_mod_self_left, Nat.add_mod_right]

/-- A place comes up again only after a whole way round. -/
theorem ring_le_of_placeOf_eq (h : s.placeOf n = s.placeOf k) (hlt : n < k) :
    n + s.buffersPerBlock * s.blocks ≤ k := by
  obtain ⟨hblock, hbuffer⟩ := Prod.mk.inj h
  have hmod : n ≡ k [MOD s.buffersPerBlock * s.blocks] := by
    rw [Nat.ModEq, Nat.mod_mul, Nat.mod_mul, hblock, hbuffer]
  have hle := Nat.le_of_dvd (Nat.sub_pos_of_lt hlt) ((Nat.modEq_iff_dvd' hlt.le).mp hmod)
  omega

theorem advance_eq (s : TxRing) :
    ∃ b i, s.advance = { s with blockIndex := b, bufferIndex := i } := by
  unfold advance
  split
  · exact ⟨_, _, rfl⟩
  · split <;> exact ⟨_, _, rfl⟩

theorem advance_place (h : s.place = s.placeOf n) : s.advance.place = s.placeOf (n + 1) := by
  have hpos : 0 < s.buffersPerBlock := Nat.le_max_left 1 _
  have hsplit :
      n + 1 = s.buffersPerBlock * (n / s.buffersPerBlock) + (n % s.buffersPerBlock + 1) := by
    rw [← add_assoc, Nat.div_add_mod]
  have hlt := Nat.mod_lt n hpos
  have hblock := Nat.mod_lt (n / s.buffersPerBlock) (show 0 < s.blocks from Nat.le_max_left 1 _)
  obtain ⟨hb, hi⟩ := Prod.mk.inj h
  rw [placeOf, hsplit, Nat.mul_add_mod, Nat.mul_add_div hpos]
  unfold advance
  rw [hb, hi]
  generalize n % s.buffersPerBlock = i at *
  generalize n / s.buffersPerBlock = b at *
  by_cases hinside : i + 1 < s.buffersPerBlock
  · have hthere : i + 1 < s.frameCount / s.blockCount := by
      unfold buffersPerBlock at hinside
      omega
    rw [if_pos hthere, Nat.mod_eq_of_lt hinside, Nat.div_eq_of_lt hinside]
    rfl
  · have hfull : i + 1 = s.buffersPerBlock := by omega
    have hnot : ¬ i + 1 < s.frameCount / s.blockCount := by
      unfold buffersPerBlock at hinside
      omega
    rw [if_neg hnot, hfull, Nat.mod_self, Nat.div_self hpos, ← Nat.mod_add_mod]
    by_cases hnext : b % s.blocks + 1 < s.blocks
    · have hmore : b % s.blocks + 1 < s.blockCount := by
        unfold blocks at hnext ⊢
        omega
      rw [if_pos hmore, Nat.mod_eq_of_lt hnext]
      rfl
    · have hend : ¬ b % s.blocks + 1 < s.blockCount := fun hlt =>
        hnext (hlt.trans_le (Nat.le_max_right 1 _))
      have hring : b % s.blocks + 1 = s.blocks := by omega
      rw [if_neg hend, hring, Nat.mod_self]
      rfl

/-- The place that comes up is held exactly if the buffer of the last time round is. -/
theorem Ordered.place_held_iff (h : s.Ordered) : s.place ∈ s.held.map Prod.snd ↔
    ∃ buffer ∈ s.held, buffer.1 + s.buffersPerBlock * s.blocks = s.obtained := by
  rw [List.mem_map]
  constructor
  · rintro ⟨buffer, hheld, hplace⟩
    obtain ⟨hat, hlt, hle⟩ := h.held buffer hheld
    rw [hat, h.place] at hplace
    exact ⟨buffer, hheld, (ring_le_of_placeOf_eq hplace hlt).antisymm hle⟩
  · rintro ⟨buffer, hheld, hring⟩
    refine ⟨buffer, hheld, ?_⟩
    rw [(h.held buffer hheld).1, h.place, ← hring, placeOf_add_ring]

theorem Ordered.markReady (h : s.Ordered) (buffer : TxBuffer) : (s.markReady buffer).Ordered :=
  ⟨h.place, fun _ hheld => h.held _ (mem_of_mem_erase hheld)⟩

theorem Ordered.send (h : s.Ordered) (eintr : Bool) : (s.ringRawsockSend eintr).Ordered := by
  cases eintr <;> exact ⟨h.place, h.held⟩

theorem Ordered.step (h : s.Ordered) (call : RingCall) (hturn : s.InTurn call) :
    (s.step call).Ordered := by
  cases call with
  | getTxFrame =>
    by_cases hgets : s.Gets
    · simp only [TxRing.step, hgets, if_true, ringRawsockGetTxFrame]
      have hplace := advance_place h.place
      obtain ⟨b, i, hadvance⟩ := s.advance_eq
      rw [hadvance] at hplace ⊢
      refine ⟨hplace, fun buffer hheld => ?_⟩
      rcases mem_cons.mp hheld with rfl | hheld
      · have hring : 0 < s.buffersPerBlock * s.blocks :=
          Nat.mul_pos (Nat.le_max_left 1 _) (Nat.le_max_left 1 _)
        exact ⟨h.place, Nat.lt_succ_self _, Nat.add_le_add_left hring _⟩
      · obtain ⟨hat, hlt, hle⟩ := h.held buffer hheld
        exact ⟨hat, Nat.lt_succ_of_lt hlt, hle.lt_of_ne (hturn hgets buffer hheld).symm⟩
    · simpa [TxRing.step, hgets] using h
  | txFrameReady buffer eintr =>
    simp only [TxRing.step, ringRawsockTxFrameReady]
    split
    · split
      · exact (h.markReady buffer).send eintr
      · exact h.markReady buffer
    · exact h
  | relTxFrame buffer =>
    simp only [TxRing.step, ringRawsockRelTxFrame]
    split
    · exact ⟨h.place, fun _ hheld => h.held _ (mem_of_mem_erase hheld)⟩
    · exact h
  | send eintr => exact h.send eintr
  | kernel place status =>
    simp only [TxRing.step]
    split <;> exact ⟨h.place, h.held⟩

/-! ### The counters -/

section

variable (h : s.Accounts)
include h

theorem send_accounts_iff (eintr : Bool) :
    (s.ringRawsockSend eintr).Accounts ↔ s.unsent = 0 ∨ eintr = false := by
  have hout := h.out
  have hready := h.ready
  cases eintr with
  | true =>
    refine ⟨fun hnext => .inl ?_, fun hzero => ?_⟩
    · have hstale : s.buffersReady = ((0 : Nat) : Int) := hnext.ready
      omega
    · obtain hzero | hfalse := hzero
      · exact ⟨by simpa [ringRawsockSend, hzero] using hout,
          by simpa [ringRawsockSend, hzero] using hready, h.once⟩
      · cases hfalse
  | false =>
    refine iff_of_true ⟨?_, rfl, h.once⟩ (.inr rfl)
    simp only [ringRawsockSend, Bool.false_eq_true, if_false]
    omega

theorem Accounts.markReady (hheld : buffer ∈ s.held) : (s.markReady buffer).Accounts := by
  have hout := h.out
  have hready := h.ready
  have hlen := length_erase_add_one hheld
  refine ⟨?_, ?_, h.once.sublist (erase_sublist.map _)⟩
  · simp only [TxRing.markReady]
    omega
  · simp only [TxRing.markReady]
    omega

theorem Accounts.relTxFrame (hheld : buffer ∈ s.held) :
    (s.ringRawsockRelTxFrame buffer).Accounts := by
  have hout := h.out
  have hlen := length_erase_add_one hheld
  refine ⟨?_, h.ready, h.once.sublist (erase_sublist.map _)⟩
  simp only [ringRawsockRelTxFrame]
  omega

theorem get_accounts_iff (hordered : s.Ordered) : s.ringRawsockGetTxFrame.Accounts ↔
    ∀ buffer ∈ s.held, buffer.1 + s.buffersPerBlock * s.blocks ≠ s.obtained := by
  have hout := h.out
  have hturn := not_congr hordered.place_held_iff
  push Not at hturn
  rw [← hturn]
  obtain ⟨b, i, hadvance⟩ := s.advance_eq
  simp only [ringRawsockGetTxFrame, hadvance]
  refine ⟨fun hnext => (nodup_cons.mp hnext.once).1, fun hnew => ⟨?_, h.ready, ?_⟩⟩
  · simp only [length_cons]
    omega
  · exact nodup_cons.mpr ⟨hnew, h.once⟩

theorem accounts_step_iff (hordered : s.Ordered) (call : RingCall) :
    (s.step call).Accounts ↔ s.InTurn call := by
  cases call with
  | getTxFrame =>
    by_cases hgets : s.Gets
    · simpa [step, InTurn, hgets] using get_accounts_iff h hordered
    · simpa [step, InTurn, hgets] using h
  | txFrameReady buffer eintr =>
    by_cases hheld : buffer ∈ s.held
    · have hmark := h.markReady hheld
      have hready : (s.markReady buffer).buffersReady = s.unsent + 1 := hmark.ready
      simp only [step, hheld, if_true, ringRawsockTxFrameReady, InTurn, true_imp_iff, hready]
      by_cases hfull : s.frameCount ≤ s.unsent + 1
      · rw [if_pos (by omega), send_accounts_iff hmark, imp_iff_right hfull]
        exact or_iff_right (Nat.succ_ne_zero _)
      · rw [if_neg (by omega)]
        exact iff_of_true hmark fun hle => absurd hle hfull
    · simpa [step, InTurn, hheld] using h
  | relTxFrame buffer =>
    refine iff_of_true ?_ trivial
    by_cases hheld : buffer ∈ s.held
    · simpa [step, hheld] using h.relTxFrame hheld
    · simpa [step, hheld] using h
  | send eintr => exact send_accounts_iff h eintr
  | kernel place status =>
    refine iff_of_true ?_ trivial
    simp only [step]
    split
    · exact h
    · exact ⟨h.out, h.ready, h.once⟩

end

/-- The accounting is right in every state of exactly the runs in which each buffer is given back
before the ring has come round to it and no `errno` is stale. -/
theorem ring_accounts_iff (frameCount blockCount : Nat) (calls : List RingCall) :
    Always step Accounts (openRing frameCount blockCount) calls ↔
      Each step InTurn (openRing frameCount blockCount) calls := by
  refine always_iff_each_of_break (I := fun s => s.Accounts ∧ s.Ordered) ?_ ?_ (fun _ h => h.1) ?_
  · rintro s call ⟨h, hordered⟩ hturn
    exact ⟨(accounts_step_iff h hordered call).mpr hturn, hordered.step call hturn⟩
  · rintro s call ⟨h, hordered⟩ hturn
    exact mt (accounts_step_iff h hordered call).mp hturn
  · exact ⟨⟨rfl, rfl, nodup_nil⟩, by simp [openRing, place, placeOf], nofun⟩

/-- With `EINTR` left behind, a frame that was sent still counts; and of two buffers the first is
handed out again when only the second came back. -/
theorem ring_miscounts :
    (run step (openRing 2 1)
        [.getTxFrame, .txFrameReady (0, 0, 0) true, .send true]).buffersReady = 1 ∧
      (run step (openRing 2 1)
        [.getTxFrame, .getTxFrame, .relTxFrame (1, 0, 1), .getTxFrame]).held =
          [(2, 0, 0), (0, 0, 0)] := by
  decide

/-! ### The ring of the AVTP talker -/

/-- The ring as an AVTP talker sees it, where nothing is busy and `errno` is never `EINTR`. -/
structure Models (ring : RingRawsock) (s : TxRing) : Prop where
  frameCount : (ring.frameCount : Nat) = s.frameCount
  out : (ring.buffersOut : Int) = s.buffersOut
  ready : (ring.buffersReady : Int) = s.buffersReady

variable {ring : RingRawsock}

theorem Models.getTxFrame (h : Models ring s)
    (hfree : s.status s.place ≠ .sendRequest ∧ s.status s.place ≠ .sending) :
    (ring.getTxFrame.1 = true ↔ s.Gets) ∧ Models ring.getTxFrame.2 (s.step .getTxFrame) := by
  have hgets : s.Gets ↔ ¬ (ring.frameCount : Nat) ≤ ring.buffersOut := by
    rw [Gets, and_iff_left hfree, ← h.out, ← h.frameCount]
    omega
  simp only [step, hgets, RingRawsock.getTxFrame]
  by_cases hfull : (ring.frameCount : Nat) ≤ ring.buffersOut
  · simpa [hfull] using h
  · simp only [hfull, if_false, not_false_eq_true, if_true, true_and]
    obtain ⟨b, i, hadvance⟩ := s.advance_eq
    simp only [ringRawsockGetTxFrame, hadvance]
    exact ⟨h.frameCount, by simp [h.out], h.ready⟩

theorem Models.send (h : Models ring s) (haccounts : s.Accounts) :
    Models ring.send (s.ringRawsockSend false) := by
  have hle : s.buffersReady ≤ s.buffersOut := by
    rw [haccounts.ready, haccounts.out]
    omega
  have hout := h.out
  have hready := h.ready
  refine ⟨h.frameCount, ?_, rfl⟩
  simp only [RingRawsock.send, ringRawsockSend, Bool.false_eq_true, if_false]
  omega

theorem Models.txFrameReady (h : Models ring s) (haccounts : s.Accounts) (hheld : buffer ∈ s.held)
    (frame : List UInt8) :
    Models (ring.txFrameReady frame) (s.step (.txFrameReady buffer false)) := by
  have hmark : Models { ring with
      waiting := ring.waiting ++ [frame], buffersReady := ring.buffersReady + 1 }
      (s.markReady buffer) := ⟨h.frameCount, h.out, by simp [TxRing.markReady, h.ready]⟩
  have hfull : (ring.frameCount : Nat) ≤ ring.buffersReady + 1 ↔
      s.frameCount ≤ (s.markReady buffer).buffersReady := by
    rw [← hmark.ready, ← h.frameCount]
    exact Int.ofNat_le.symm
  simp only [RingRawsock.txFrameReady, step, if_pos hheld, ringRawsockTxFrameReady, ← hfull]
  split
  · exact hmark.send (haccounts.markReady hheld)
  · exact hmark

end TxRing

end OpenAvb.Pipeline
