import Mathlib.Logic.Function.Basic
import OpenAvb.Octets
import Mathlib.Algebra.BigOperators.Group.Finset.Piecewise
import OpenAvb.Run

/-!
# The queue manager and the address pool of the endpoint

The queue manager has a fixed number of streams for each class, and hands out
marks that say which of them a stream got; one with no bytes per second is
free. The stand-in for MAAP has a fixed number of multicast addresses.
-/

namespace OpenAvb.Endpoint

open Function

def maxAvbSrClasses : Nat := 2

def maxAvbStreamsPerClass : Nat := 16

def maxAvbStreams : Nat := maxAvbSrClasses * maxAvbStreamsPerClass

def invalidFwmark : Nat := 2 ^ 16 - 1

def tcAvbClassShift : Nat := 8

def tcAvbStreamMask : Nat := 2 ^ tcAvbClassShift - 1

def tcAvbMark (c s : Nat) : Nat := ((c + 1) <<< tcAvbClassShift) ||| (tcAvbStreamMask &&& s)

def tcAvbMarkClass (m : Nat) : Int := ((m >>> tcAvbClassShift : Nat) : Int) - 1

def tcAvbMarkStream (m : Nat) : Nat := m &&& tcAvbStreamMask

def openavbAvtpEtherFrameOverhead : Nat := 24 + 18

/-- `streamBytesPerSec` of every stream of the queue manager -/
abbrev QmgrStreams := Nat → Nat

/-- The mark of the stream, or `INVALID_FWMARK`. The hardware queue is asked if shaping is on. -/
def openavbQmgrAddStream (hwQueue : Bool) (nClass classRate maxIntervalFrames maxFrameSize : Nat)
    (q : QmgrStreams) : Nat × QmgrStreams :=
  -- `unsigned` arithmetic
  let streamBytesPerSec :=
    (maxFrameSize + openavbAvtpEtherFrameOverhead) * maxIntervalFrames * classRate % 2 ^ 32
  if maxAvbSrClasses ≤ nClass ∨ streamBytesPerSec = 0 then (invalidFwmark, q)
  else
    match (List.range maxAvbStreamsPerClass).find? fun nStream =>
        q (nClass * maxAvbStreamsPerClass + nStream) = 0 with
    | none => (invalidFwmark, q)
    | some nStream =>
      if hwQueue then
        (tcAvbMark nClass nStream,
          update q (nClass * maxAvbStreamsPerClass + nStream) streamBytesPerSec)
      else (invalidFwmark, q)

def openavbQmgrRemoveStream (fwmark : Nat) (q : QmgrStreams) : QmgrStreams :=
  if fwmark = invalidFwmark then q
  else
    let nClass := tcAvbMarkClass fwmark
    let nStream := tcAvbMarkStream fwmark
    let idx := nClass * maxAvbStreamsPerClass + nStream
    if maxAvbStreams ≤ nStream ∨ nClass < 0 ∨ maxAvbSrClasses ≤ nClass ∨
        maxAvbStreams ≤ idx ∨ q idx.toNat = 0 then q
    else update q idx.toNat 0

def MarkInUse (q : QmgrStreams) (m : Nat) : Prop :=
  ∃ c n, c < maxAvbSrClasses ∧ n < maxAvbStreamsPerClass ∧ m = tcAvbMark c n ∧
    q (c * maxAvbStreamsPerClass + n) ≠ 0

variable {q : QmgrStreams} {m c n c' n' : Nat}

theorem tcAvbMark_decode : ∀ c < maxAvbSrClasses, ∀ n < maxAvbStreamsPerClass,
    tcAvbMarkClass (tcAvbMark c n) = c ∧ tcAvbMarkStream (tcAvbMark c n) = n ∧
      tcAvbMark c n ≠ invalidFwmark := by
  decide

theorem tcAvbMark_inj (hc : c < maxAvbSrClasses) (hn : n < maxAvbStreamsPerClass)
    (hc' : c' < maxAvbSrClasses) (hn' : n' < maxAvbStreamsPerClass)
    (h : tcAvbMark c n = tcAvbMark c' n') : c = c' ∧ n = n' := by
  obtain ⟨hclass, hstream, -⟩ := tcAvbMark_decode c hc n hn
  obtain ⟨hclass', hstream', -⟩ := tcAvbMark_decode c' hc' n' hn'
  rw [h] at hclass hstream
  exact ⟨Int.ofNat_inj.mp (hclass.symm.trans hclass'), hstream.symm.trans hstream'⟩

theorem idx_inj (hn : n < maxAvbStreamsPerClass) (hn' : n' < maxAvbStreamsPerClass)
    (h : c * maxAvbStreamsPerClass + n = c' * maxAvbStreamsPerClass + n') : c = c' ∧ n = n' := by
  simp only [maxAvbStreamsPerClass] at hn hn' h
  omega

theorem markInUse_iff (hc : c < maxAvbSrClasses) (hn : n < maxAvbStreamsPerClass) :
    MarkInUse q (tcAvbMark c n) ↔ q (c * maxAvbStreamsPerClass + n) ≠ 0 := by
  constructor
  · rintro ⟨c', n', hc', hn', hmark, huse⟩
    obtain ⟨rfl, rfl⟩ := tcAvbMark_inj hc hn hc' hn' hmark
    exact huse
  · rintro huse
    exact ⟨c, n, hc, hn, rfl, huse⟩

theorem MarkInUse.ne_invalid (h : MarkInUse q m) : m ≠ invalidFwmark := by
  obtain ⟨c, n, hc, hn, rfl, -⟩ := h
  exact (tcAvbMark_decode c hc n hn).2.2

theorem markInUse_update (hc : c < maxAvbSrClasses) (hn : n < maxAvbStreamsPerClass) (bytes : Nat)
    (m : Nat) : MarkInUse (update q (c * maxAvbStreamsPerClass + n) bytes) m ↔
      if m = tcAvbMark c n then bytes ≠ 0 else MarkInUse q m := by
  split
  case isTrue hm =>
    subst hm
    rw [markInUse_iff hc hn, update_self]
  case isFalse hm =>
    have hsame : ∀ c' n', c' < maxAvbSrClasses → n' < maxAvbStreamsPerClass →
        m = tcAvbMark c' n' →
        update q (c * maxAvbStreamsPerClass + n) bytes
          (c' * maxAvbStreamsPerClass + n') = q (c' * maxAvbStreamsPerClass + n') := by
      rintro c' n' hc' hn' rfl
      refine update_of_ne ?_ _ _
      rintro hidx
      obtain ⟨rfl, rfl⟩ := idx_inj hn' hn hidx
      exact hm rfl
    constructor
    · rintro ⟨c', n', hc', hn', hmark, huse⟩
      rw [hsame c' n' hc' hn' hmark] at huse
      exact ⟨c', n', hc', hn', hmark, huse⟩
    · rintro ⟨c', n', hc', hn', hmark, huse⟩
      rw [← hsame c' n' hc' hn' hmark] at huse
      exact ⟨c', n', hc', hn', hmark, huse⟩

theorem openavbQmgrAddStream_cases (hwQueue : Bool)
    (nClass classRate maxIntervalFrames maxFrameSize : Nat) (q : QmgrStreams) :
    openavbQmgrAddStream hwQueue nClass classRate maxIntervalFrames maxFrameSize q =
        (invalidFwmark, q) ∨
      ∃ n bytes, nClass < maxAvbSrClasses ∧ n < maxAvbStreamsPerClass ∧ bytes ≠ 0 ∧
        q (nClass * maxAvbStreamsPerClass + n) = 0 ∧
        bytes = (maxFrameSize + openavbAvtpEtherFrameOverhead) * maxIntervalFrames *
          classRate % 2 ^ 32 ∧
        openavbQmgrAddStream hwQueue nClass classRate maxIntervalFrames maxFrameSize q =
          (tcAvbMark nClass n, update q (nClass * maxAvbStreamsPerClass + n) bytes) := by
  unfold openavbQmgrAddStream
  dsimp only
  split
  case isTrue => exact .inl rfl
  case isFalse hvalid =>
    obtain ⟨hclass, hbytes⟩ := not_or.mp hvalid
    split
    case h_1 => exact .inl rfl
    case h_2 nStream hfind =>
      split
      case isFalse => exact .inl rfl
      case isTrue =>
        exact .inr ⟨nStream, _, Nat.lt_of_not_le hclass,
          List.mem_range.mp (List.mem_of_find?_eq_some hfind), hbytes,
          by simpa using List.find?_some hfind, rfl, rfl⟩

theorem openavbQmgrAddStream_spec (hwQueue : Bool)
    (nClass classRate maxIntervalFrames maxFrameSize : Nat) (q : QmgrStreams) :
    openavbQmgrAddStream hwQueue nClass classRate maxIntervalFrames maxFrameSize q =
        (invalidFwmark, q) ∨
      ∃ m q', openavbQmgrAddStream hwQueue nClass classRate maxIntervalFrames maxFrameSize q =
          (m, q') ∧ m ≠ invalidFwmark ∧ ¬ MarkInUse q m ∧
        ∀ m', MarkInUse q' m' ↔ MarkInUse q m' ∨ m' = m := by
  obtain hnone | ⟨n, bytes, hc, hn, hbytes, hfree, -, hadd⟩ :=
    openavbQmgrAddStream_cases hwQueue nClass classRate maxIntervalFrames maxFrameSize q
  · exact .inl hnone
  · refine .inr ⟨_, _, hadd, (tcAvbMark_decode nClass hc n hn).2.2, ?_, fun m' => ?_⟩
    · rw [markInUse_iff hc hn]
      exact not_not_intro hfree
    · rw [markInUse_update hc hn]
      by_cases hm : m' = tcAvbMark nClass n <;> simp [hm, hbytes]

theorem openavbQmgrRemoveStream_spec (h : MarkInUse q m) (m' : Nat) :
    MarkInUse (openavbQmgrRemoveStream m q) m' ↔ MarkInUse q m' ∧ m' ≠ m := by
  have hvalid := h.ne_invalid
  obtain ⟨c, n, hc, hn, rfl, huse⟩ := h
  obtain ⟨hclass, hstream, -⟩ := tcAvbMark_decode c hc n hn
  have hidx : ((c : Int) * maxAvbStreamsPerClass + (n : Int)).toNat =
      c * maxAvbStreamsPerClass + n := by
    omega
  have hremove : openavbQmgrRemoveStream (tcAvbMark c n) q =
      update q (c * maxAvbStreamsPerClass + n) 0 := by
    have hgood : ¬ (maxAvbStreams ≤ n ∨ (c : Int) < 0 ∨ (maxAvbSrClasses : Int) ≤ c ∨
        (maxAvbStreams : Int) ≤ (c : Int) * maxAvbStreamsPerClass + n ∨
        q (c * maxAvbStreamsPerClass + n) = 0) := by
      simp only [maxAvbStreams, maxAvbStreamsPerClass, maxAvbSrClasses] at *
      omega
    simp only [openavbQmgrRemoveStream, hvalid, if_false, hclass, hstream, hidx, if_neg hgood]
  rw [hremove, markInUse_update hc hn]
  split
  case isTrue hm => simp [hm]
  case isFalse hm => simp [hm]

/-- `taken` of the entries of `maapAllocList` -/
abbrev MaapAllocList := Nat → Bool

/-- `destAddr` of an entry -/
def maapDestAddr (i : Nat) : Octets 6 := ⟨[0x91, 0xe0, 0xf0, 0x00, 0x0e, 0x80 + UInt8.ofNat i], rfl⟩

def openavbMaapAllocate (taken : MaapAllocList) : Option Nat :=
  (List.range maxAvbStreams).find? fun i => !taken i

def MaapTaken (taken : MaapAllocList) (i : Nat) : Prop := i < maxAvbStreams ∧ taken i = true

variable {taken : MaapAllocList} {i : Nat}

theorem openavbMaapAllocate_free (h : openavbMaapAllocate taken = some i) :
    i < maxAvbStreams ∧ ¬ MaapTaken taken i := by
  have hlt : i < maxAvbStreams := List.mem_range.mp (List.mem_of_find?_eq_some h)
  have hfree := List.find?_some h
  refine ⟨hlt, ?_⟩
  rintro ⟨-, htaken⟩
  simp [htaken] at hfree

theorem maapTaken_take (hi : i < maxAvbStreams) (j : Nat) :
    MaapTaken (update taken i true) j ↔ MaapTaken taken j ∨ j = i := by
  by_cases hj : j = i
  · subst hj
    simp [MaapTaken, hi]
  · simp [MaapTaken, hj]

theorem maapTaken_release (j : Nat) :
    MaapTaken (update taken i false) j ↔ MaapTaken taken j ∧ j ≠ i := by
  by_cases hj : j = i
  · subst hj
    simp [MaapTaken]
  · simp [MaapTaken, hj]

/-! ## The bandwidth of the classes -/

open Function

structure Qmgr where
  streams : QmgrStreams
  classBytesPerSec : Nat → UInt32

inductive QmgrCall where
  | add (hwQueue : Bool) (nClass classRate maxIntervalFrames maxFrameSize : Nat)
  | remove (fwmark : Nat)

abbrev streamBytesPerSec (classRate maxIntervalFrames maxFrameSize : Nat) : Nat :=
  (maxFrameSize + openavbAvtpEtherFrameOverhead) * maxIntervalFrames * classRate % 2 ^ 32

/-- The place of stream `n` of a class. -/
abbrev streamIdx (c n : Nat) : Nat := c * maxAvbStreamsPerClass + n

namespace Qmgr

def init : Qmgr := ⟨fun _ => 0, fun _ => 0⟩

def addStream (g : Qmgr) (hwQueue : Bool)
    (nClass classRate maxIntervalFrames maxFrameSize : Nat) : Nat × Qmgr :=
  let r := openavbQmgrAddStream hwQueue nClass classRate maxIntervalFrames maxFrameSize g.streams
  (r.1, ⟨r.2, if r.1 = invalidFwmark then g.classBytesPerSec
    else update g.classBytesPerSec nClass (g.classBytesPerSec nClass +
      UInt32.ofNat (streamBytesPerSec classRate maxIntervalFrames maxFrameSize))⟩)

/-- The mark is not valid, or there is no stream at its place. -/
def Rejects (g : Qmgr) (fwmark : Nat) : Prop :=
  let nClass := tcAvbMarkClass fwmark
  let nStream := tcAvbMarkStream fwmark
  let idx := nClass * maxAvbStreamsPerClass + nStream
  fwmark = invalidFwmark ∨ maxAvbStreams ≤ nStream ∨ nClass < 0 ∨
    maxAvbSrClasses ≤ nClass ∨ maxAvbStreams ≤ idx ∨ g.streams idx.toNat = 0

instance (g : Qmgr) (fwmark : Nat) : Decidable (g.Rejects fwmark) :=
  inferInstanceAs (Decidable (_ ∨ _ ∨ _ ∨ _ ∨ _ ∨ _))

def removeStream (g : Qmgr) (fwmark : Nat) : Qmgr :=
  let nClass := tcAvbMarkClass fwmark
  let idx := nClass * maxAvbStreamsPerClass + tcAvbMarkStream fwmark
  if g.Rejects fwmark then g
  else
    ⟨openavbQmgrRemoveStream fwmark g.streams, update g.classBytesPerSec nClass.toNat
      (g.classBytesPerSec nClass.toNat - UInt32.ofNat (g.streams idx.toNat))⟩

def step (g : Qmgr) : QmgrCall → Qmgr
  | .add hwQueue nClass classRate maxIntervalFrames maxFrameSize =>
    (g.addStream hwQueue nClass classRate maxIntervalFrames maxFrameSize).2
  | .remove fwmark => g.removeStream fwmark

/-- The byte rates of the streams of a class. -/
def total (q : QmgrStreams) (c : Nat) : Nat :=
  ∑ n ∈ Finset.range maxAvbStreamsPerClass, q (streamIdx c n)

/-- Class totals are those of the streams, in 32 bits; every stream has its own mark, and removing
what was just added restores what was there. -/
structure Right (g : Qmgr) : Prop where
  sums : ∀ c < maxAvbSrClasses, g.classBytesPerSec c = UInt32.ofNat (total g.streams c)
  decode : ∀ c < maxAvbSrClasses, ∀ n < maxAvbStreamsPerClass,
    tcAvbMarkClass (tcAvbMark c n) = c ∧ tcAvbMarkStream (tcAvbMark c n) = n ∧
      tcAvbMark c n ≠ invalidFwmark
  restores : ∀ hwQueue nClass classRate maxIntervalFrames maxFrameSize m g',
    g.addStream hwQueue nClass classRate maxIntervalFrames maxFrameSize = (m, g') →
      m ≠ invalidFwmark → ¬ MarkInUse g.streams m ∧ MarkInUse g'.streams m ∧ g'.removeStream m = g

/-- The number of the stream that a call removes is one of its class, or the call is rejected. -/
def Owns (g : Qmgr) : QmgrCall → Prop
  | .add .. => True
  | .remove m => tcAvbMarkStream m < maxAvbStreamsPerClass ∨ g.Rejects m

variable {q : QmgrStreams} {g : Qmgr} {c c' n b : Nat}

theorem total_update (hn : n < maxAvbStreamsPerClass) (b c' : Nat) :
    total (update q (streamIdx c n) b) c' +
        (if c' = c then q (streamIdx c n) else 0) = total q c' + if c' = c then b else 0 := by
  split
  case isTrue h =>
    subst h
    have hstreams : (fun k => update q (streamIdx c' n) b (streamIdx c' k)) =
        update (fun k => q (streamIdx c' k)) n b := by
      funext k
      simp [update_apply]
    have hrest := Finset.sum_update_of_mem (Finset.mem_range.mpr hn) fun k => q (streamIdx c' k)
    have hself := hrest (q (streamIdx c' n))
    rw [update_eq_self] at hself
    rw [total, hstreams, hrest b, total, hself]
    omega
  case isFalse h =>
    refine congrArg (· + 0) (Finset.sum_congr rfl fun k hk => update_of_ne ?_ _ _)
    exact fun hidx => h (idx_inj (Finset.mem_range.mp hk) hn hidx).1

theorem addStream_cases (g : Qmgr) (hw : Bool) (c rate frames size : Nat) :
    g.addStream hw c rate frames size = (invalidFwmark, g) ∨
      ∃ n, c < maxAvbSrClasses ∧ n < maxAvbStreamsPerClass ∧
        streamBytesPerSec rate frames size ≠ 0 ∧ g.streams (streamIdx c n) = 0 ∧
        g.addStream hw c rate frames size = (tcAvbMark c n,
          ⟨update g.streams (streamIdx c n) (streamBytesPerSec rate frames size),
            update g.classBytesPerSec c (g.classBytesPerSec c +
              UInt32.ofNat (streamBytesPerSec rate frames size))⟩) := by
  obtain hnone | ⟨n, bytes, hc, hn, hbytes, hfree, rfl, hadd⟩ :=
    openavbQmgrAddStream_cases hw c rate frames size g.streams
  · exact .inl (by simp [addStream, hnone])
  · refine .inr ⟨n, hc, hn, hbytes, hfree, ?_⟩
    simp only [addStream, hadd, if_neg (tcAvbMark_decode c hc n hn).2.2]

theorem removeStream_streams (g : Qmgr) (m : Nat) :
    (g.removeStream m).streams = openavbQmgrRemoveStream m g.streams := by
  unfold removeStream openavbQmgrRemoveStream
  grind [Rejects]

theorem removeStream_cases (g : Qmgr) (m : Nat) : g.Rejects m ∧ g.removeStream m = g ∨
      ¬ g.Rejects m ∧ ∃ c : Nat, c < maxAvbSrClasses ∧ tcAvbMarkClass m = c ∧
        streamIdx c (tcAvbMarkStream m) < maxAvbStreams ∧
        g.streams (streamIdx c (tcAvbMarkStream m)) ≠ 0 ∧
        g.removeStream m = ⟨update g.streams (streamIdx c (tcAvbMarkStream m)) 0,
          update g.classBytesPerSec c (g.classBytesPerSec c -
            UInt32.ofNat (g.streams (streamIdx c (tcAvbMarkStream m))))⟩ := by
  by_cases hrejects : g.Rejects m
  · exact .inl ⟨hrejects, if_pos hrejects⟩
  · refine .inr ⟨hrejects, ?_⟩
    simp only [removeStream, if_neg hrejects, openavbQmgrRemoveStream]
    simp only [Rejects] at hrejects
    generalize tcAvbMarkClass m = nClass at hrejects ⊢
    simp only [not_or, Int.not_lt, Int.not_le] at hrejects
    obtain ⟨hvalid, hstream, hneg, hlt, hidx, huse⟩ := hrejects
    obtain ⟨c, rfl⟩ := Int.eq_ofNat_of_zero_le hneg
    have hnat : ((c : Int) * maxAvbStreamsPerClass + tcAvbMarkStream m).toNat =
        streamIdx c (tcAvbMarkStream m) := by unfold streamIdx; omega
    rw [hnat] at huse ⊢
    refine ⟨c, by omega, rfl, by unfold streamIdx; omega, huse, ?_⟩
    rw [if_neg hvalid, if_neg (by grind)]
    rfl

theorem restores (g : Qmgr) (hw : Bool) (c rate frames size m : Nat) (g' : Qmgr)
    (h : g.addStream hw c rate frames size = (m, g')) (hm : m ≠ invalidFwmark) :
    ¬ MarkInUse g.streams m ∧ MarkInUse g'.streams m ∧ g'.removeStream m = g := by
  obtain hnone | ⟨n, hc, hn, hbytes, hfree, hadd⟩ := g.addStream_cases hw c rate frames size
  · exact absurd (congrArg Prod.fst (h.symm.trans hnone)) hm
  obtain ⟨rfl, hg'⟩ := Prod.mk.inj (hadd.symm.trans h)
  obtain ⟨hclass, hstream, -⟩ := tcAvbMark_decode c hc n hn
  have huse : MarkInUse g'.streams (tcAvbMark c n) := by
    rw [← hg', markInUse_update hc hn, if_pos rfl]
    exact hbytes
  refine ⟨fun h => (markInUse_iff hc hn).mp h hfree, huse, ?_⟩
  obtain ⟨-, hsame⟩ | ⟨-, c', -, hmark, -, -, hremove⟩ := g'.removeStream_cases (tcAvbMark c n)
  · have hstreams := g'.removeStream_streams (tcAvbMark c n)
    rw [hsame] at hstreams
    exact absurd rfl ((openavbQmgrRemoveStream_spec huse _).mp (hstreams ▸ huse)).2
  · obtain rfl : c = c' := Int.ofNat_inj.mp (hclass.symm.trans hmark)
    rw [hremove, hstream, ← hg']
    simp [← hfree]

theorem right_iff : g.Right ↔ ∀ c < maxAvbSrClasses,
    g.classBytesPerSec c = UInt32.ofNat (total g.streams c) :=
  ⟨Right.sums, fun h => ⟨h, tcAvbMark_decode, g.restores⟩⟩

theorem Right.update (h : g.Right) (hn : n < maxAvbStreamsPerClass) (b : Nat) :
    Right ⟨update g.streams (streamIdx c n) b, update g.classBytesPerSec c
      (g.classBytesPerSec c - UInt32.ofNat (g.streams (streamIdx c n)) + UInt32.ofNat b)⟩ := by
  refine right_iff.mpr fun c' hc' => ?_
  have hsum := congrArg UInt32.ofNat (total_update (q := g.streams) (c := c) hn b c')
  by_cases hclass : c' = c
  · subst hclass
    simp only [if_true, UInt32.ofNat_add, ← h.sums c' hc'] at hsum
    grind
  · simpa [hclass, h.sums c' hc', eq_comm] using hsum

theorem right_removeStream_iff (h : g.Right) (hlt : ∀ i, g.streams i < 2 ^ 32) (m : Nat) :
    (g.removeStream m).Right ↔ g.Owns (.remove m) := by
  obtain ⟨hrejects, hnone⟩ | ⟨hremoves, c, hc, -, hidx, huse, hremove⟩ := g.removeStream_cases m
  · simp [hrejects, hnone, h, Owns]
  rw [hremove]
  by_cases hn : tcAvbMarkStream m < maxAvbStreamsPerClass
  · exact iff_of_true (by simpa using h.update hn 0) (.inl hn)
  · -- a mark of class A that is too high for it, and a stream of class B
    have hper : maxAvbStreamsPerClass = 16 := rfl
    have hmax : maxAvbStreams = 32 := rfl
    obtain rfl : c = 0 := by
      rw [streamIdx, hper] at hidx
      omega
    obtain ⟨n, hstream⟩ := Nat.exists_eq_add_of_le (Nat.not_lt.mp hn)
    simp only [streamIdx, zero_mul, zero_add, hstream] at huse hidx ⊢
    have htotal := total_update (q := g.streams) (c := 1) (n := n) (by omega) 0 0
    simp only [streamIdx, one_mul, Nat.zero_ne_one, if_false, add_zero] at htotal
    refine iff_of_false (fun hright => huse ?_) (not_or_intro hn hremoves)
    have hsum := hright.sums 0 hc
    simp only [update_self, htotal, ← h.sums 0 hc] at hsum
    have hzero : UInt32.ofNat (g.streams (maxAvbStreamsPerClass + n)) = 0 := by grind
    have hnat := congrArg UInt32.toNat hzero
    rwa [UInt32.toNat_ofNat', Nat.mod_eq_of_lt (hlt _)] at hnat

theorem Right.addStream (h : g.Right) (hw : Bool) (c rate frames size : Nat) :
    (g.addStream hw c rate frames size).2.Right := by
  obtain hnone | ⟨n, hc, hn, -, hfree, hadd⟩ := g.addStream_cases hw c rate frames size
  · rwa [hnone]
  · simpa [hadd, hfree] using h.update (c := c) hn (streamBytesPerSec rate frames size)

theorem step_lt (call : QmgrCall) (h : ∀ i, g.streams i < 2 ^ 32) (i : Nat) :
    (g.step call).streams i < 2 ^ 32 := by
  have hset : ∀ {b : Nat} j, b < 2 ^ 32 → update g.streams j b i < 2 ^ 32 := by
    intro b j hb
    rw [update_apply]
    split
    · exact hb
    · exact h i
  cases call with
  | add hw c rate frames size =>
    obtain hnone | ⟨n, -, -, -, -, hadd⟩ := g.addStream_cases hw c rate frames size
    · simpa [step, hnone] using h i
    · simp only [step, hadd]
      exact hset _ (Nat.mod_lt _ (by decide))
  | remove m =>
    obtain ⟨-, hnone⟩ | ⟨-, c, -, -, -, -, hremove⟩ := g.removeStream_cases m
    · simpa [step, hnone] using h i
    · simpa [step, hremove] using hset _ (by decide)

/-- The accounting is right in every state of exactly the runs in which no mark of one class is
used to remove a stream of the other. -/
theorem accounting_right_iff (calls : List QmgrCall) :
    Always step Right init calls ↔ Each step Owns init calls := by
  refine always_iff_each (I := fun g => ∀ i, g.streams i < 2 ^ 32) (fun _ call h => step_lt call h)
    (fun g call hlt h => ?_) (fun _ => Nat.two_pow_pos 32)
    (right_iff.mpr fun c _ => by simp [init, total])
  cases call with
  | add => exact iff_of_true (h.addStream ..) trivial
  | remove m => exact right_removeStream_iff h hlt m

/-- A stream of class B is removed by a mark of class A: class B keeps its total, and that of class
A is what is missing to `2 ^ 32`. -/
theorem removes_of_other_class :
    let g := run step init [.add true 1 4000 1 58, .remove 0x0110]
    total g.streams 1 = 0 ∧ g.classBytesPerSec 1 = 400000 ∧
      g.classBytesPerSec 0 = UInt32.ofNat (2 ^ 32 - 400000) := by
  decide

end Qmgr

end OpenAvb.Endpoint
