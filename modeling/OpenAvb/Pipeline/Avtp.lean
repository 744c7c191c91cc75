import OpenAvb.Octets
import Mathlib.Data.PNat.Basic
import OpenAvb.Run
import Mathlib.Algebra.Ring.Int.Defs

/-!
# AVTP streams

A talker asks its mapping module for one frame at a time, numbers it and marks it as
ready in the ring of its raw socket. A listener compares the numbers with those it
expects and counts the frames it has not seen.
-/

namespace OpenAvb.Pipeline

/-- A ring that sends: `waiting` frames the kernel was not told of yet, `handed` those it was. A
busy buffer is waited for. -/
structure RingRawsock where
  frameCount : ℕ+
  (buffersOut buffersReady : Nat)
  (waiting handed : List (List UInt8))

/-- `false` if the client holds all the buffers. -/
def RingRawsock.getTxFrame (ring : RingRawsock) : Bool × RingRawsock :=
  if (ring.frameCount : Nat) ≤ ring.buffersOut then (false, ring)
  else (true, { ring with buffersOut := ring.buffersOut + 1 })

/-- `ringRawsockSend`, when `send` succeeds. -/
def RingRawsock.send (ring : RingRawsock) : RingRawsock :=
  { ring with
    waiting := []
    handed := ring.handed ++ ring.waiting
    buffersOut := ring.buffersOut - ring.buffersReady
    buffersReady := 0 }

def RingRawsock.txFrameReady (frame : List UInt8) (ring : RingRawsock) : RingRawsock :=
  let ring :=
    { ring with waiting := ring.waiting ++ [frame], buffersReady := ring.buffersReady + 1 }
  if (ring.frameCount : Nat) ≤ ring.buffersReady then ring.send else ring

/-- The frame of a mapping module: its flags in octet 1, octet 3, and what is behind the header. -/
structure Mapped where
  (flags octet3 : UInt8)
  body : List UInt8

structure AvtpTalker where
  subtype : UInt8
  streamIDnet : Octets 8
  avtpSequenceNum : UInt8
  /-- `pBuf`: a buffer is kept for the next frame -/
  hasBuf : Bool
  rawsock : RingRawsock

/-- The header that `fillAvtpHdr` writes, with the flags of the mapping module. -/
def AvtpTalker.frame (talker : AvtpTalker) (mapped : Mapped) : List UInt8 :=
  [talker.subtype &&& 0x7F, 0x80 ||| (mapped.flags &&& 0x0F), talker.avtpSequenceNum,
    mapped.octet3] ++ talker.streamIDnet.val ++ mapped.body

def AvtpTalker.takeBuf (talker : AvtpTalker) : AvtpTalker :=
  if talker.hasBuf then talker
  else
    { talker with
      hasBuf := talker.rawsock.getTxFrame.1, rawsock := talker.rawsock.getTxFrame.2 }

def AvtpTalker.frameReady (bSend : Bool) (mapped : Mapped) (talker : AvtpTalker) : AvtpTalker :=
  let rawsock := talker.rawsock.txFrameReady (talker.frame mapped)
  { talker with
    avtpSequenceNum := talker.avtpSequenceNum + 1
    hasBuf := false
    rawsock := if bSend then rawsock.send else rawsock }

/-- `openavbAvtpTx`, for what the mapping module has to send: whether there was a frame. -/
def openavbAvtpTx (bSend : Bool) (result : Option Mapped) (talker : AvtpTalker) :
    Bool × AvtpTalker :=
  if talker.takeBuf.hasBuf then
    match result with
    | none => (false, talker.takeBuf)
    | some mapped => (true, talker.takeBuf.frameReady bSend mapped)
  else (false, talker.takeBuf)

/-- The loop of `talkerDoStream`: `i` frames are left, the mapping module's `k`-th result is
next. -/
def sendFrames (results : Nat → Option Mapped) : Nat → Nat → AvtpTalker → AvtpTalker
  | 0, _, talker => talker
  | i + 1, k, talker =>
    let (success, talker) := openavbAvtpTx (i + 1 = 1) (results k) talker
    if success then sendFrames results i (k + 1) talker else talker

def avtpTxInit (subtype : UInt8) (streamIDnet : Octets 8) (frameCount : ℕ+) : AvtpTalker where
  subtype := subtype
  streamIDnet := streamIDnet
  avtpSequenceNum := 0
  hasBuf := false
  rawsock := ⟨frameCount, 0, 0, [], []⟩

def AvtpTalker.readied (talker : AvtpTalker) : List (List UInt8) :=
  talker.rawsock.handed ++ talker.rawsock.waiting

/-- `nLost` is -1 until a frame is received. -/
structure AvtpListener where
  nLost : Int32
  avtpSequenceNum : UInt8
  deriving DecidableEq

def avtpRxInit : AvtpListener := ⟨-1, 0⟩

/-- The frames between the one expected and the one received, in a `U8`. -/
def missed (expected rxSeq : UInt8) : UInt8 := rxSeq - expected

def xAvtpRxFrame (listener : AvtpListener) (pFrame : List UInt8) : AvtpListener :=
  let octet (i : Nat) : UInt8 := pFrame.getD i 0
  if octet 0 &&& 0x80 = 0 then
    if (octet 1 >>> 4) &&& 0x07 = 0 then
      let rxSeq := octet 2
      { nLost :=
          if listener.nLost = -1 then 0
          else if listener.avtpSequenceNum ≠ rxSeq then
            listener.nLost + Int32.ofNat (missed listener.avtpSequenceNum rxSeq).toNat
          else listener.nLost
        avtpSequenceNum := rxSeq + 1 }
    else listener
  else listener

def openavbAvtpLost (listener : AvtpListener) : Int × AvtpListener :=
  (listener.nLost.toInt, { listener with nLost := 0 })

/-! ## The frames of an interval -/

/-- The client holds the frames that are ready and at most one more buffer, and the ring is not
full. -/
structure Tidy (talker : AvtpTalker) : Prop where
  ready : talker.rawsock.buffersReady = talker.rawsock.waiting.length
  out : talker.rawsock.buffersOut = talker.rawsock.buffersReady + talker.hasBuf.toNat
  room : talker.rawsock.waiting.length < talker.rawsock.frameCount

theorem Tidy.takeBuf (h : Tidy talker) : Tidy talker.takeBuf ∧ talker.takeBuf.hasBuf = true ∧
      talker.takeBuf.rawsock.waiting = talker.rawsock.waiting ∧
      talker.takeBuf.rawsock.frameCount = talker.rawsock.frameCount := by
  cases hbuf : talker.hasBuf with
  | true => simp [AvtpTalker.takeBuf, hbuf, h]
  | false =>
    have hout : talker.rawsock.buffersOut = talker.rawsock.waiting.length := by
      simp [h.out, h.ready, hbuf]
    have hroom : ¬ (talker.rawsock.frameCount : Nat) ≤ talker.rawsock.buffersOut := by
      rw [hout]
      exact Nat.not_le.mpr h.room
    simp only [AvtpTalker.takeBuf, hbuf, RingRawsock.getTxFrame, if_neg hroom]
    exact ⟨⟨h.ready, by simp [hout, h.ready], h.room⟩, rfl, rfl, rfl⟩

section
variable {ring : RingRawsock} (frame : List UInt8)

theorem RingRawsock.txFrameReady_full (h : (ring.frameCount : Nat) ≤ ring.buffersReady + 1) :
    (ring.txFrameReady frame).waiting = [] ∧ (ring.txFrameReady frame).buffersReady = 0 ∧
      (ring.txFrameReady frame).buffersOut = ring.buffersOut - (ring.buffersReady + 1) := by
  simp [RingRawsock.txFrameReady, if_pos h, RingRawsock.send]

theorem RingRawsock.txFrameReady_room (h : ¬ (ring.frameCount : Nat) ≤ ring.buffersReady + 1) :
    ring.txFrameReady frame =
      { ring with waiting := ring.waiting ++ [frame], buffersReady := ring.buffersReady + 1 } := by
  simp [RingRawsock.txFrameReady, if_neg h]

theorem RingRawsock.txFrameReady_frameCount :
    (ring.txFrameReady frame).frameCount = ring.frameCount := by
  simp only [RingRawsock.txFrameReady]
  split <;> rfl

end

theorem Tidy.frameReady_false (h : Tidy talker) (hbuf : talker.hasBuf = true) (mapped : Mapped) :
    Tidy (talker.frameReady false mapped) ∧
      (talker.frameReady false mapped).rawsock.waiting.length =
        (talker.rawsock.waiting.length + 1) % talker.rawsock.frameCount := by
  have hready := h.ready
  have hout := h.out
  have hroom := h.room
  simp only [hbuf, Bool.toNat_true] at hout
  by_cases hfull : (talker.rawsock.frameCount : Nat) ≤ talker.rawsock.buffersReady + 1
  · obtain ⟨hwaiting, hzero, hleft⟩ := RingRawsock.txFrameReady_full (talker.frame mapped) hfull
    have hlast : talker.rawsock.waiting.length + 1 = talker.rawsock.frameCount := by omega
    rw [hlast, Nat.mod_self]
    refine ⟨⟨?_, ?_, ?_⟩, ?_⟩ <;>
      simp [AvtpTalker.frameReady, hwaiting, hzero, hleft, hout]
  · have heq := RingRawsock.txFrameReady_room (talker.frame mapped) hfull
    have hlt : talker.rawsock.waiting.length + 1 < talker.rawsock.frameCount := by omega
    rw [Nat.mod_eq_of_lt hlt]
    refine ⟨⟨?_, ?_, ?_⟩, ?_⟩ <;>
      simp [AvtpTalker.frameReady, heq, hready, hout, hlt]

theorem Tidy.frameReady_true (h : Tidy talker) (hbuf : talker.hasBuf = true) (mapped : Mapped) :
    Tidy (talker.frameReady true mapped) ∧
      (talker.frameReady true mapped).rawsock.waiting = [] := by
  obtain ⟨-, hout, -⟩ := (h.frameReady_false hbuf mapped).1
  have hleft : (talker.frameReady true mapped).rawsock.buffersOut = 0 := by
    simp_all [AvtpTalker.frameReady, RingRawsock.send]
  exact ⟨⟨rfl, hleft, PNat.pos _⟩, rfl⟩

theorem AvtpTalker.frameReady_frameCount (bSend : Bool) (mapped : Mapped) (talker : AvtpTalker) :
    (talker.frameReady bSend mapped).rawsock.frameCount = talker.rawsock.frameCount := by
  cases bSend <;>
    simp [frameReady, RingRawsock.send, RingRawsock.txFrameReady_frameCount (talker.frame mapped)]

/-- How many of the next `i` results are ready before the first that is not. -/
def readyRun (results : Nat → Option Mapped) : Nat → Nat → Nat
  | 0, _ => 0
  | i + 1, k => if (results k).isSome then readyRun results i (k + 1) + 1 else 0

theorem Tidy.openavbAvtpTx_some (h : Tidy talker) (bSend : Bool) (mapped : Mapped) :
    openavbAvtpTx bSend (some mapped) talker = (true, talker.takeBuf.frameReady bSend mapped) := by
  simp [openavbAvtpTx, h.takeBuf.2.1]

theorem Tidy.openavbAvtpTx_none (h : Tidy talker) (bSend : Bool) :
    openavbAvtpTx bSend none talker = (false, talker.takeBuf) := by
  simp [openavbAvtpTx, h.takeBuf.2.1]

theorem Tidy.sendFrames (h : Tidy talker) (results : Nat → Option Mapped) (i k : Nat) :
    Tidy (sendFrames results i k talker) ∧
      (sendFrames results i k talker).rawsock.frameCount = talker.rawsock.frameCount ∧
      (sendFrames results i k talker).rawsock.waiting.length =
        if readyRun results i k = i ∧ 0 < i then 0
        else (talker.rawsock.waiting.length + readyRun results i k) %
          talker.rawsock.frameCount := by
  -- the loop's own recursion: `i` frames are left
  induction i generalizing k talker with
  | zero =>
    have hroom := Nat.mod_eq_of_lt h.room
    simp [Pipeline.sendFrames, readyRun, h, hroom]
  | succ i ih =>
    obtain ⟨htaken, hbuf, hwaiting, hcount⟩ := h.takeBuf
    cases hresult : results k with
    | none =>
      have hroom := Nat.mod_eq_of_lt h.room
      simp [Pipeline.sendFrames, readyRun, hresult, h.openavbAvtpTx_none, htaken, hwaiting, hcount,
        hroom]
    | some mapped =>
      simp only [Pipeline.sendFrames, readyRun, hresult, h.openavbAvtpTx_some, Option.isSome_some,
        if_true]
      cases i with
      | zero =>
        obtain ⟨htidy, hsent⟩ := htaken.frameReady_true hbuf mapped
        simp [Pipeline.sendFrames, readyRun, htidy, hsent, hcount, AvtpTalker.frameReady_frameCount]
      | succ i =>
        obtain ⟨htidy, hlength⟩ := htaken.frameReady_false hbuf mapped
        obtain ⟨hend, hsame, hleft⟩ := ih htidy (k + 1)
        rw [AvtpTalker.frameReady_frameCount, hcount] at hsame hleft
        rw [hlength, hwaiting, hcount, Nat.mod_add_mod] at hleft
        simp only [Nat.add_eq_right, Nat.add_eq_zero_iff, Nat.one_ne_zero, and_false, decide_false]
        refine ⟨hend, hsame, ?_⟩
        rw [hleft, add_assoc, add_comm 1]
        simp

open List

structure CarriesSeq (p : Nat) (frame : List UInt8) : Prop where
  data : frame.getD 0 0 &&& 0x80 = 0
  version : (frame.getD 1 0 >>> 4) &&& 0x07 = 0
  seq : frame.getD 2 0 = UInt8.ofNat p

structure Numbered (talker : AvtpTalker) : Prop where
  next : talker.avtpSequenceNum = UInt8.ofNat talker.readied.length
  frames : ∀ p (h : p < talker.readied.length), CarriesSeq p (talker.readied.get ⟨p, h⟩)

theorem data_bit (subtype : UInt8) : (subtype &&& 0x7F) &&& 0x80 = 0 := by
  rw [UInt8.and_assoc]
  exact UInt8.and_zero

theorem version_bits (flags : UInt8) : ((0x80 ||| (flags &&& 0x0F)) >>> 4) &&& 0x07 = 0 := by
  apply UInt8.toBitVec_inj.mp
  ext i hi
  have hcases : i = 0 ∨ i = 1 ∨ i = 2 ∨ i = 3 ∨ i = 4 ∨ i = 5 ∨ i = 6 ∨ i = 7 := by omega
  rcases hcases with rfl | rfl | rfl | rfl | rfl | rfl | rfl | rfl <;> simp

theorem carriesSeq_frame (talker : AvtpTalker) (mapped : Mapped)
    (h : talker.avtpSequenceNum = UInt8.ofNat p) : CarriesSeq p (talker.frame mapped) where
  data := data_bit talker.subtype
  version := version_bits mapped.flags
  seq := h

theorem RingRawsock.txFrameReady_readied (frame : List UInt8) (ring : RingRawsock) :
    (ring.txFrameReady frame).handed ++ (ring.txFrameReady frame).waiting =
      ring.handed ++ ring.waiting ++ [frame] := by
  simp only [RingRawsock.txFrameReady]
  split <;> simp [RingRawsock.send]

theorem AvtpTalker.frameReady_readied (bSend : Bool) (mapped : Mapped) (talker : AvtpTalker) :
    (talker.frameReady bSend mapped).readied = talker.readied ++ [talker.frame mapped] := by
  have hready := RingRawsock.txFrameReady_readied (talker.frame mapped) talker.rawsock
  cases bSend with
  | false => exact hready
  | true => simpa [frameReady, readied, RingRawsock.send] using hready

theorem AvtpTalker.takeBuf_frame (talker : AvtpTalker) : talker.takeBuf.readied = talker.readied ∧
      talker.takeBuf.avtpSequenceNum = talker.avtpSequenceNum := by
  unfold takeBuf RingRawsock.getTxFrame
  split
  · exact ⟨rfl, rfl⟩
  · split <;> exact ⟨rfl, rfl⟩

theorem Numbered.frameReady (h : Numbered talker) (bSend : Bool) (mapped : Mapped) :
    Numbered (talker.frameReady bSend mapped) := by
  have hready := AvtpTalker.frameReady_readied bSend mapped talker
  have hseq : (talker.frameReady bSend mapped).avtpSequenceNum = talker.avtpSequenceNum + 1 := rfl
  refine ⟨by simp [hseq, hready, h.next], ?_⟩
  rw [hready]
  intro p hp
  by_cases hlast : p < talker.readied.length
  · simpa [getElem_append_left hlast] using h.frames p hlast
  · have heq : p = talker.readied.length := by simp at hp; omega
    subst heq
    simpa using carriesSeq_frame talker mapped h.next

theorem Numbered.takeBuf (h : Numbered talker) : Numbered talker.takeBuf := by
  obtain ⟨hready, hseq⟩ := talker.takeBuf_frame
  exact ⟨by rw [hseq, hready, h.next], by rw [hready]; exact h.frames⟩

theorem Numbered.openavbAvtpTx (h : Numbered talker) (bSend : Bool) (result : Option Mapped) :
    Numbered (openavbAvtpTx bSend result talker).2 := by
  unfold Pipeline.openavbAvtpTx
  split
  · cases result with
    | none => exact h.takeBuf
    | some mapped => exact h.takeBuf.frameReady bSend mapped
  · exact h.takeBuf

def transmitted (talker : AvtpTalker) (calls : List (Bool × Option Mapped)) : AvtpTalker :=
  run (fun talker call => (openavbAvtpTx call.1 call.2 talker).2) talker calls

theorem Numbered.transmitted (h : Numbered talker) (calls : List (Bool × Option Mapped)) :
    Numbered (transmitted talker calls) := by
  induction calls generalizing talker with
  | nil => exact h
  | cons call calls ih => exact ih (h.openavbAvtpTx call.1 call.2)

theorem numbered_avtpTxInit (subtype : UInt8) (streamIDnet : Octets 8) (frameCount : ℕ+) :
    Numbered (avtpTxInit subtype streamIDnet frameCount) :=
  ⟨rfl, fun _ h => absurd h (Nat.not_lt_zero _)⟩

inductive RxOp where
  | frame (p : Nat)
  | lost

def positions : List RxOp → List Nat
  | [] => []
  | .frame p :: ops => p :: positions ops
  | .lost :: ops => positions ops

/-- The frames that arrive, in order, less than 256 missing in between, and the calls for the
lost. -/
structure Delivery (sent : Nat) where
  ops : List RxOp
  sent_all : ∀ p ∈ positions ops, p < sent
  gaps : (positions ops).IsChain fun p q => p < q ∧ q ≤ p + 256

def missing : List Nat → Nat
  | p :: q :: ps => (q - p - 1) + missing (q :: ps)
  | _ => 0

def lostReturned (frames : List (List UInt8)) : AvtpListener → List RxOp → List Int
  | listener, [] => [(openavbAvtpLost listener).1]
  | listener, .frame p :: ops => lostReturned frames (xAvtpRxFrame listener (frames.getD p [])) ops
  | listener, .lost :: ops =>
    (openavbAvtpLost listener).1 :: lostReturned frames (openavbAvtpLost listener).2 ops

/-- `nLost` for `acc` frames: that number, or about `2 ^ 32` less once the `int` has overflowed. -/
def Counted (acc : Nat) (nLost : Int) : Prop :=
  (nLost = acc ∧ acc < 2 ^ 31) ∨
  (0 ≤ nLost ∧ nLost < 2 ^ 31 ∧ nLost + (2 ^ 32 - 1) ≤ acc) ∨
  (-2 ^ 31 ≤ nLost ∧ nLost < 0 ∧ nLost + 2 ^ 32 ≤ acc)

theorem xAvtpRxFrame_eq (h : CarriesSeq p frame) (listener : AvtpListener) :
    xAvtpRxFrame listener frame = ⟨if listener.nLost = -1 then 0
        else listener.nLost + Int32.ofNat (missed listener.avtpSequenceNum (UInt8.ofNat p)).toNat,
        UInt8.ofNat (p + 1)⟩ := by
  simp only [xAvtpRxFrame, h.data, h.version, h.seq]
  by_cases hseq : listener.avtpSequenceNum = UInt8.ofNat p <;> simp [hseq, missed]

theorem missed_eq (hlt : p < q) (hgap : q ≤ p + 256) :
    (missed (UInt8.ofNat (p + 1)) (UInt8.ofNat q)).toNat = q - p - 1 := by
  simp only [missed, UInt8.toNat_sub, UInt8.toNat_ofNat']
  omega

theorem toInt_add_ofNat (n : Int32) (hd : d ≤ 255) : (n + Int32.ofNat d).toInt = n.toInt + d ∨
      (2 ^ 31 ≤ n.toInt + d ∧ (n + Int32.ofNat d).toInt = n.toInt + d - 2 ^ 32) := by
  have hlow := n.le_toInt
  have hhigh := n.toInt_lt
  have hd' : (Int32.ofNat d).toInt = d := Int32.toInt_ofNat_of_lt (by omega)
  rw [Int32.toInt_add, hd', Int.bmod_def]
  split <;> omega

theorem Counted.frame (h : Counted acc n.toInt) (hd : d ≤ 255) :
    Counted (acc + d) (if n = -1 then (0 : Int32) else n + Int32.ofNat d).toInt := by
  by_cases hn : n = -1
  · -- the counter has run over onto the mark, and starts anew
    subst hn
    have hmark : (-1 : Int32).toInt = -1 := rfl
    rw [hmark] at h
    have hzero : (0 : Int32).toInt = 0 := rfl
    rw [if_pos rfl, hzero]
    unfold Counted at h ⊢
    omega
  · rw [if_neg hn]
    have hhigh := (n + Int32.ofNat d).toInt_lt
    have hsum := toInt_add_ofNat n hd
    unfold Counted at h ⊢
    omega

/-- The frames counted between calls of `openavbAvtpLost`, `last` being the last one and `acc` the
count so far. -/
def stretches : Nat → Nat → List RxOp → List Nat
  | _, acc, [] => [acc]
  | last, acc, .frame q :: ops => stretches q (acc + (q - last - 1)) ops
  | last, acc, .lost :: ops => acc :: stretches last 0 ops

theorem sum_stretches (last acc : Nat) (ops : List RxOp) :
    (stretches last acc ops).sum = acc + missing (last :: positions ops) := by
  induction ops generalizing last acc with
  | nil => simp [stretches, positions, missing]
  | cons op ops ih =>
    cases op with
    | frame q => simp [stretches, positions, missing, ih, add_assoc]
    | lost => simp [stretches, positions, ih]

/-- The calls return what was counted, less `k` for the overflows of the counter. -/
structure Returned (returned : List Int) (counts : List Nat) (k : Nat) : Prop where
  sum : returned.sum + k = counts.sum
  exact_or : k = 0 ∨ 2 ^ 32 - 1 ≤ k
  exact_iff : k = 0 ↔ ∀ c ∈ counts, c < 2 ^ 31

theorem Counted.returned (h : Counted acc n) : ∃ k, Returned [n] [acc] k := by
  refine ⟨(acc - n).toNat, ?_, ?_, ?_⟩ <;> unfold Counted at h <;> simp <;> omega

theorem Returned.cons (h : Counted acc n) (hrest : Returned returned counts k) :
    ∃ k', Returned (n :: returned) (acc :: counts) k' := by
  obtain ⟨j, hj⟩ := h.returned
  have hsum := hj.sum
  have hexact := hj.exact_iff
  simp only [sum_cons, sum_nil, add_zero] at hsum
  simp only [mem_singleton, forall_eq] at hexact
  refine ⟨j + k, ?_, ?_, ?_⟩
  · have := hrest.sum
    simp only [sum_cons]
    omega
  · have := hj.exact_or
    have := hrest.exact_or
    omega
  · simp only [forall_mem_cons, ← hexact, ← hrest.exact_iff]
    omega

theorem returned_lostReturned (listener : AvtpListener)
    (hframes : ∀ p ∈ positions ops, CarriesSeq p (frames.getD p []))
    (hgaps : (last :: positions ops).IsChain fun p q => p < q ∧ q ≤ p + 256)
    (hcount : Counted acc listener.nLost.toInt)
    (hseq : listener.avtpSequenceNum = UInt8.ofNat (last + 1)) :
    ∃ k, Returned (lostReturned frames listener ops) (stretches last acc ops) k := by
  induction ops generalizing last acc listener with
  | nil => exact hcount.returned
  | cons op ops ih =>
    cases op with
    | frame q =>
      simp only [positions, forall_mem_cons] at hframes
      obtain ⟨⟨hlt, hgap⟩, hrest⟩ := isChain_cons_cons.mp hgaps
      simp only [lostReturned, stretches, xAvtpRxFrame_eq hframes.1, hseq, missed_eq hlt hgap]
      exact ih _ hframes.2 hrest (hcount.frame (by omega)) rfl
    | lost =>
      have hzero : Counted 0 (0 : Int32).toInt := Or.inl ⟨rfl, by decide⟩
      obtain ⟨k, hk⟩ := ih ⟨0, listener.avtpSequenceNum⟩ hframes hgaps hzero hseq
      exact hk.cons hcount

/-- After a call took the mark away the first frame is counted too: as far as its number is from 0,
which makes up for the -1 that the call returned if that is 1. -/
def CountsAfterCall : List RxOp → Prop
  | [] => False
  | .frame p :: ops => p % 256 = 1 ∧ ∀ c ∈ stretches p 1 ops, c < 2 ^ 31
  | .lost :: ops => CountsAfterCall ops

/-- A frame is received, none of the calls comes before it, and the counter does not overflow. -/
def Counts : List RxOp → Prop
  | [] => False
  | .frame p :: ops => ∀ c ∈ stretches p 0 ops, c < 2 ^ 31
  | .lost :: ops => CountsAfterCall ops

theorem sum_afterCall_iff (hframes : ∀ p ∈ positions ops, CarriesSeq p (frames.getD p []))
    (hgaps : (positions ops).IsChain fun p q => p < q ∧ q ≤ p + 256) :
    -1 + (lostReturned frames ⟨0, 0⟩ ops).sum = missing (positions ops) ↔ CountsAfterCall ops := by
  induction ops with
  | nil => simp [lostReturned, openavbAvtpLost, positions, missing, CountsAfterCall]
  | cons op ops ih =>
    cases op with
    | frame p =>
      simp only [positions, forall_mem_cons] at hframes hgaps
      have hp : (missed 0 (UInt8.ofNat p)).toNat = p % 256 := by simp [missed]
      have hne : (0 : Int32) ≠ -1 := by decide
      have hcount : Counted (p % 256) ((0 : Int32) + Int32.ofNat (p % 256)).toInt := by
        have hzero : Counted 0 (0 : Int32).toInt := Or.inl ⟨rfl, by decide⟩
        have hd : p % 256 ≤ 255 := by omega
        have hfirst := hzero.frame hd
        rwa [if_neg hne, zero_add] at hfirst
      obtain ⟨k, hk⟩ := returned_lostReturned ⟨0 + Int32.ofNat (p % 256), UInt8.ofNat (p + 1)⟩
        hframes.2 hgaps hcount rfl
      have hsum := hk.sum
      rw [sum_stretches] at hsum
      simp only [lostReturned, xAvtpRxFrame_eq hframes.1, if_neg hne, hp, positions,
        CountsAfterCall]
      have hk' := hk.exact_or
      constructor
      · intro h
        have hone : p % 256 = 1 := by omega
        have hexact : k = 0 := by omega
        rw [← hone]
        exact ⟨rfl, hk.exact_iff.mp hexact⟩
      · rintro ⟨hone, hsmall⟩
        rw [← hone] at hsmall
        have hexact := hk.exact_iff.mpr hsmall
        omega
    | lost =>
      simpa [lostReturned, openavbAvtpLost, positions, CountsAfterCall] using ih hframes hgaps

theorem sum_lostReturned_iff (hframes : ∀ p ∈ positions ops, CarriesSeq p (frames.getD p []))
    (hgaps : (positions ops).IsChain fun p q => p < q ∧ q ≤ p + 256) :
    (lostReturned frames avtpRxInit ops).sum = missing (positions ops) ↔ Counts ops := by
  cases ops with
  | nil => simp [lostReturned, openavbAvtpLost, avtpRxInit, positions, missing, Counts]
  | cons op ops =>
    cases op with
    | frame p =>
      simp only [positions, forall_mem_cons] at hframes hgaps
      have hzero : Counted 0 (0 : Int32).toInt := Or.inl ⟨rfl, by decide⟩
      obtain ⟨k, hk⟩ := returned_lostReturned ⟨0, UInt8.ofNat (p + 1)⟩ hframes.2 hgaps hzero rfl
      have hsum := hk.sum
      rw [sum_stretches] at hsum
      simp only [lostReturned, xAvtpRxFrame_eq hframes.1, avtpRxInit, if_pos, positions, Counts,
        ← hk.exact_iff]
      omega
    | lost => exact sum_afterCall_iff hframes hgaps

/-- The calls of `openavbAvtpLost` return in sum the number of frames missing if and only if they
can count. -/
theorem lost_sum_iff (subtype : UInt8) (streamIDnet : Octets 8) (frameCount : ℕ+)
    (calls : List (Bool × Option Mapped)) (delivery : Delivery
      (transmitted (avtpTxInit subtype streamIDnet frameCount) calls).readied.length) :
    (lostReturned (transmitted (avtpTxInit subtype streamIDnet frameCount) calls).readied
      avtpRxInit delivery.ops).sum = missing (positions delivery.ops) ↔ Counts delivery.ops := by
  have hnumbered := (numbered_avtpTxInit subtype streamIDnet frameCount).transmitted calls
  refine sum_lostReturned_iff ?_ delivery.gaps
  intro p hp
  have hsent := delivery.sent_all p hp
  simpa [hsent] using hnumbered.frames p hsent

/-- The statistics are read once before the first frame; no frame is lost. -/
theorem lost_sum_early_call :
    ∃ delivery : Delivery (transmitted (avtpTxInit 0 ⟨List.replicate 8 0, rfl⟩ 1)
        [(true, some ⟨1, 0, []⟩)]).readied.length,
      (lostReturned (transmitted (avtpTxInit 0 ⟨List.replicate 8 0, rfl⟩ 1)
        [(true, some ⟨1, 0, []⟩)]).readied avtpRxInit delivery.ops).sum ≠
          missing (positions delivery.ops) :=
  ⟨⟨[.lost, .frame 0], by decide, by decide⟩, by decide⟩

/-! ## The octets a talker has sent -/

inductive TxCbRet where
  | packetNotReady
  | packetReady
  | morePackets
  deriving DecidableEq

/-- One call of `openavbAvtpTx`: whether there is a buffer if one is asked for, the version that the
mapping module names, and what its callback returns and leaves of the length. -/
structure TxCall where
  (txBlockingInIntf hasTxFrame : Bool)
  avtpVersion : UInt8
  txCBResult : TxCbRet
  avtpFrameLen : UInt32

inductive BytesCall where
  | avtpTx (call : TxCall)
  | avtpBytes

/-- The stream, the lengths marked ready and what was read of its count, newest first. -/
structure BytesStream where
  pBuf : Bool := false
  bytes : UInt64 := 0
  frameReady : List UInt32 := []
  reported : List UInt64 := []

namespace BytesStream

variable (s : BytesStream)

def openavbAvtpTx (call : TxCall) : BytesStream :=
  let s := { s with pBuf := s.pBuf || call.hasTxFrame }
  if s.pBuf ∧ call.avtpVersion = 0 then
    let bytes :=
      if !call.txBlockingInIntf then s.bytes + call.avtpFrameLen.toUInt64
      else if call.txCBResult = .packetNotReady then s.bytes
      else s.bytes + call.avtpFrameLen.toUInt64
    if call.txCBResult ≠ .packetNotReady then
      { s with bytes := bytes, frameReady := call.avtpFrameLen :: s.frameReady, pBuf := false }
    else { s with bytes := bytes }
  else s

def openavbAvtpBytes : BytesStream :=
  { s with bytes := 0, reported := s.bytes :: s.reported }

def step : BytesCall → BytesStream
  | .avtpTx call => s.openavbAvtpTx call
  | .avtpBytes => s.openavbAvtpBytes

/-- If `openavbAvtpBytes` is called now, all its results add up to the lengths sent. -/
def Accounts : Prop :=
  (s.openavbAvtpBytes.reported.map UInt64.toNat).sum = (s.frameReady.map UInt32.toNat).sum

/-- The call counts a frame that is ready, and the count does not overflow, or it counts nothing. -/
def Counts : BytesCall → Prop
  | .avtpBytes => True
  | .avtpTx call =>
    (s.pBuf || call.hasTxFrame) ∧ call.avtpVersion = 0 →
      if call.txCBResult = .packetNotReady then call.txBlockingInIntf ∨ call.avtpFrameLen = 0
      else s.bytes.toNat + call.avtpFrameLen.toNat < 2 ^ 64

theorem accounts_iff : s.Accounts ↔
    s.bytes.toNat + (s.reported.map UInt64.toNat).sum = (s.frameReady.map UInt32.toNat).sum := by
  simp [Accounts, openavbAvtpBytes]

theorem accounts_avtpTx_iff {s : BytesStream} (h : s.Accounts) (call : TxCall) :
    (s.openavbAvtpTx call).Accounts ↔ s.Counts (.avtpTx call) := by
  rw [accounts_iff] at h ⊢
  have hadd : (s.bytes + call.avtpFrameLen.toUInt64).toNat =
      (s.bytes.toNat + call.avtpFrameLen.toNat) % 2 ^ 64 := by simp
  have hbytes := s.bytes.toNat_lt
  have hlen := call.avtpFrameLen.toNat_lt
  have hzero : call.avtpFrameLen = 0 ↔ call.avtpFrameLen.toNat = 0 := by
    rw [← UInt32.toNat_inj, UInt32.toNat_zero]
  simp only [openavbAvtpTx, Counts]
  by_cases hon : (s.pBuf || call.hasTxFrame) = true ∧ call.avtpVersion = 0
  · by_cases hready : call.txCBResult = .packetNotReady
    · cases hmode : call.txBlockingInIntf
      · simp only [hon, hready, hzero, and_self, ne_eq, not_true_eq_false, if_true, if_false,
          Bool.not_false, hadd]
        simp
        omega
      · simp [hon, hready, h]
    · simp only [hon, hready, and_self, ne_eq, not_false_eq_true, if_true, if_false, ite_self, hadd,
        List.map_cons, List.sum_cons, forall_const]
      omega
  · simp only [hon, if_false, h, false_imp_iff]

/-- The results always add up to the lengths sent in exactly the runs whose calls all count what
they send and nothing else. -/
theorem avtpBytes_accounts_iff (calls : List BytesCall) :
    Always step Accounts {} calls ↔ Each step Counts {} calls := by
  refine always_iff_each (I := fun _ => True) (fun _ _ _ => trivial) ?_ trivial rfl
  rintro s (call | _) - h
  · exact accounts_avtpTx_iff h call
  · rw [accounts_iff] at h
    simp only [step, Counts, iff_true, accounts_iff]
    simpa [openavbAvtpBytes] using h

/-- Nothing was sent: the mapping module had no packet and left the length it was offered. -/
theorem avtpBytes_counts_nothing :
    let s := run step {} [.avtpTx ⟨false, true, 0, .packetNotReady, 1482⟩, .avtpBytes]
    s.reported = [1482] ∧ s.frameReady = [] ∧ ¬ s.Accounts := by
  refine ⟨by decide, by decide, fun h => ?_⟩
  cases h

/-- The stream keeps a buffer if the talker does, and has marked the same frames ready. -/
structure Matches (talker : AvtpTalker) : Prop where
  pBuf : s.pBuf = talker.hasBuf
  frameReady : s.frameReady = (talker.readied.map fun frame => UInt32.ofNat frame.length).reverse

/-- The call of a talker that does not block; `left` is what a mapping module without a packet
leaves of the length. -/
def callOf (talker : AvtpTalker) (left : UInt32) (result : Option Mapped) : TxCall where
  txBlockingInIntf := false
  hasTxFrame := talker.rawsock.getTxFrame.1
  avtpVersion := 0
  txCBResult := result.elim .packetNotReady fun _ => .packetReady
  avtpFrameLen := result.elim left fun mapped => UInt32.ofNat (talker.frame mapped).length

theorem Matches.openavbAvtpTx {s : BytesStream} {talker : AvtpTalker} (h : s.Matches talker)
    (bSend : Bool) (left : UInt32) (result : Option Mapped) :
    (s.openavbAvtpTx (callOf talker left result)).Matches
      (Pipeline.openavbAvtpTx bSend result talker).2 := by
  have hbuf : (s.pBuf || talker.rawsock.getTxFrame.1) = talker.takeBuf.hasBuf := by
    rw [h.pBuf, AvtpTalker.takeBuf]
    cases hkept : talker.hasBuf <;> simp [hkept]
  have hframe : ∀ mapped, (talker.takeBuf.frame mapped).length = (talker.frame mapped).length := by
    simp [AvtpTalker.frame, talker.streamIDnet.property, talker.takeBuf.streamIDnet.property]
  have hready := h.frameReady
  rw [← talker.takeBuf_frame.1] at hready
  simp only [BytesStream.openavbAvtpTx, callOf, hbuf, and_true, Pipeline.openavbAvtpTx]
  cases htaken : talker.takeBuf.hasBuf with
  | true =>
    simp only [if_true]
    cases result with
    | none => exact ⟨htaken.symm, hready⟩
    | some mapped =>
      refine ⟨rfl, ?_⟩
      rw [AvtpTalker.frameReady_readied]
      simp [hready, hframe]
  | false => exact ⟨htaken.symm, hready⟩

end BytesStream

end OpenAvb.Pipeline
