import OpenAvb.Octets
import OpenAvb.Broadcast
import Mathlib.Data.Fintype.Basic
import OpenAvb.Run

/-!
# The acquisition of multicast addresses

A station probes an address until three polls in a row find no packet; then it
announces the address from time to time and defends it. A packet for the address
makes it start again. A call of `state_transit` is cut where it waits.
-/

namespace OpenAvb.Maap

abbrev MacAdd := Octets 6

inductive State where
  | initial
  | probe
  | defend
  deriving DecidableEq

inductive MsgType where
  | maapProbe
  | maapDefend
  | maapAnnounce

def MsgType.code : MsgType → BitVec 4
  | .maapProbe => 1
  | .maapDefend => 2
  | .maapAnnounce => 3

structure EthPkt where
  (hDest hSource : MacAdd)
  messageType : BitVec 4
  requestedStartAddress : MacAdd
  requestedCount : UInt16
  conflictStartAddress : MacAdd
  conflictCount : UInt16

def zeroMac : MacAdd := ⟨[0, 0, 0, 0, 0, 0], rfl⟩

def zeroPkt : EthPkt := ⟨zeroMac, zeroMac, 0, zeroMac, 0, zeroMac, 0⟩

structure MaapInfo where
  (ethpkt ethpktRx : EthPkt)
  state : State
  (srcMac requestedMacAdd : MacAdd)
  requestedMacCount : UInt16
  acquiredMacAdd : MacAdd
  acquiredMacCount : UInt16
  conflictMacAdd : MacAdd
  conflictMacCount : UInt16

def multicastMacAdr : MacAdd := ⟨[0x91, 0xE0, 0xF0, 0x00, 0xFF, 0x00], rfl⟩

/-- `Init` of what `calloc` gave. The count is 1 in network order. -/
def init (srcMac : MacAdd) : MaapInfo where
  ethpkt := { zeroPkt with hDest := multicastMacAdr, hSource := srcMac }
  ethpktRx := zeroPkt
  state := .initial
  srcMac := srcMac
  requestedMacAdd := zeroMac
  requestedMacCount := 0x0100
  acquiredMacAdd := zeroMac
  acquiredMacCount := 0
  conflictMacAdd := zeroMac
  conflictMacCount := 0

def generateAddress (info : MaapInfo) (val : Fin 0xFE00) : MaapInfo :=
  { info with
    requestedMacAdd :=
      ⟨[0x91, 0xE0, 0xF0, 0x00, UInt8.ofNat (val / 256), UInt8.ofNat (val % 256)], rfl⟩ }

def prepareEthpkt (info : MaapInfo) : MsgType → MaapInfo
  | .maapProbe =>
    { info with
      ethpkt :=
        { hDest := multicastMacAdr
          hSource := info.srcMac
          messageType := MsgType.maapProbe.code
          requestedStartAddress := info.requestedMacAdd
          requestedCount := info.requestedMacCount
          conflictStartAddress := zeroMac
          conflictCount := 0 } }
  | .maapDefend =>
    { info with
      ethpkt :=
        { hDest := info.ethpktRx.hSource
          hSource := info.srcMac
          messageType := MsgType.maapDefend.code
          requestedStartAddress := info.requestedMacAdd
          requestedCount := info.requestedMacCount
          conflictStartAddress := info.conflictMacAdd
          conflictCount := info.conflictMacCount } }
  | .maapAnnounce =>
    { info with
      ethpkt :=
        { hDest := multicastMacAdr
          hSource := info.srcMac
          messageType := MsgType.maapAnnounce.code
          requestedStartAddress := info.acquiredMacAdd
          requestedCount := info.acquiredMacCount
          conflictStartAddress := zeroMac
          conflictCount := 0 } }

/-- The loop of `compare_mac`: the flag is that of the last octets compared. -/
def compareFrom : Bool → List UInt8 → List UInt8 → Bool
  | _, x :: xs, y :: ys => if x = y then compareFrom true xs ys else false
  | flag, _, _ => flag

def compareMac (rcvAdd reqAddr : MacAdd) : Bool := compareFrom false rcvAdd.val reqAddr.val

def maapProbeRetransmits : Nat := 3

inductive Wait where
  -- `state_transit` has not been called yet
  | start
  -- for its probe timer, with so many empty polls to go
  | delay (maapProbeCount : Nat)
  -- in `recv_packet` with `NON_BLOCK`, which returns at once
  | poll (maapProbeCount : Nat)
  -- in `recv_packet` with `BLOCK`
  | recv

structure Station where
  info : MaapInfo
  wait : Wait
  -- the thread of `send_announce` runs
  announcing : Bool

/-- The loop over probes from its test on: another probe is sent, or the address is acquired. -/
def Station.probeLoop (s : Station) : Nat → Station × List EthPkt
  | 0 =>
    let info := { s.info with
      acquiredMacCount := s.info.requestedMacCount
      acquiredMacAdd := s.info.requestedMacAdd }
    let info := prepareEthpkt info .maapAnnounce
    -- The next call waits for a packet.
    ({ info := { info with state := .defend, ethpktRx := zeroPkt }
       wait := .recv
       announcing := true }, [info.ethpkt])
  | count + 1 => ({ s with wait := .delay (count + 1) }, [s.info.ethpkt])

def Station.transitProbe (s : Station) : Station × List EthPkt :=
  { s with info := prepareEthpkt s.info .maapProbe }.probeLoop maapProbeRetransmits

/-- The call in the initial state returns without waiting, and the next one probes. -/
def Station.transitInitial (s : Station) (val : Fin 0xFE00) : Station × List EthPkt :=
  { s with info := { generateAddress s.info val with state := .probe } }.transitProbe

/-- What the poll makes of a packet. A packet for another address costs no try. -/
def Station.polled (s : Station) (count : Nat) (val : Fin 0xFE00) : Station × List EthPkt :=
  let msgType := s.info.ethpktRx.messageType
  if (msgType = MsgType.maapDefend.code ∨ msgType = MsgType.maapAnnounce.code ∨
        msgType = MsgType.maapProbe.code) ∧
      compareMac s.info.ethpktRx.requestedStartAddress s.info.ethpkt.requestedStartAddress then
    { s with info.state := .initial }.transitInitial val
  else s.probeLoop count

def Station.transitDefend (s : Station) : Station :=
  { s with info.ethpktRx := zeroPkt, wait := .recv }

def Station.received (s : Station) (val : Fin 0xFE00) : Station × List EthPkt :=
  let pkt := s.info.ethpktRx
  if compareMac pkt.requestedStartAddress s.info.acquiredMacAdd then
    if pkt.messageType = MsgType.maapProbe.code then
      let info := { s.info with
        conflictMacAdd := pkt.requestedStartAddress
        conflictMacCount := pkt.requestedCount }
      let info := prepareEthpkt info .maapDefend
      ({ s with info := info }.transitDefend, [info.ethpkt])
    else if pkt.messageType = MsgType.maapAnnounce.code ∨
        pkt.messageType = MsgType.maapDefend.code then
      { s with info.state := .initial, announcing := false }.transitInitial val
    else (s.transitDefend, [])
  else (s.transitDefend, [])

/-- The station runs from one wait to the next; a blocking one lasts while there is no packet. -/
def resume (node : Node Station EthPkt) (val : Fin 0xFE00) : Node Station EthPkt × List EthPkt :=
  let s := node.state
  match s.wait, node.queue with
  | .start, queue => (⟨(s.transitInitial val).1, queue⟩, (s.transitInitial val).2)
  | .delay count, queue =>
    (⟨{ s with info.ethpktRx := zeroPkt, wait := .poll count }, queue⟩, [])
  | .poll count, [] => (⟨(s.probeLoop (count - 1)).1, []⟩, (s.probeLoop (count - 1)).2)
  | .poll count, pkt :: queue =>
    let s := { s with info.ethpktRx := pkt }
    (⟨(s.polled count val).1, queue⟩, (s.polled count val).2)
  | .recv, [] => (node, [])
  | .recv, pkt :: queue =>
    let s := { s with info.ethpktRx := pkt }
    (⟨(s.received val).1, queue⟩, (s.received val).2)

/-- The timer of `send_announce` expires, if its thread runs. -/
def sendAnnounce (node : Node Station EthPkt) : Node Station EthPkt × List EthPkt :=
  if node.state.announcing then
    let info := prepareEthpkt node.state.info .maapAnnounce
    ({ node with state.info := info }, [info.ethpkt])
  else (node, [])

abbrev Network (ι : Type) := ι → Node Station EthPkt

inductive Event (ι : Type) where
  | resume (i : ι) (val : Fin 0xFE00)
  | announce (i : ι)

def start (srcMac : ι → MacAdd) : Network ι := fun i => ⟨⟨init (srcMac i), .start, false⟩, []⟩

def step [DecidableEq ι] (net : Network ι) : Event ι → Network ι
  | .resume i val => broadcast net i (resume (net i) val).1 (resume (net i) val).2
  | .announce i => broadcast net i (sendAnnounce (net i)).1 (sendAnnounce (net i)).2

/-! ## No two stations defend the same address -/

theorem compareFrom_iff {xs ys : List UInt8} (h : xs.length = ys.length) :
    compareFrom true xs ys ↔ xs = ys := by
  induction xs generalizing ys with
  | nil =>
    cases ys with
    | nil => simp [compareFrom]
    | cons y ys => simp at h
  | cons x xs ih =>
    cases ys with
    | nil => simp at h
    | cons y ys =>
      by_cases hxy : x = y
      · simp [compareFrom, hxy, ih (by simpa using h)]
      · simp [compareFrom, hxy]

theorem compareMac_iff {a b : MacAdd} : compareMac a b ↔ a = b := by
  obtain ⟨as, ha⟩ := a
  obtain ⟨bs, hb⟩ := b
  have hsame : compareFrom false as bs = compareFrom true as bs := by
    cases as with
    | nil => simp at ha
    | cons x xs =>
      cases bs with
      | nil => simp at hb
      | cons y ys => rfl
  rw [compareMac, hsame, compareFrom_iff (ha.trans hb.symm), Subtype.mk.injEq]

def EthPkt.Says (pkt : EthPkt) (msgType : MsgType) (x : MacAdd) : Prop :=
  pkt.messageType = msgType.code ∧ pkt.requestedStartAddress = x

def Claimed (x : MacAdd) (pkts : List EthPkt) : Prop := ∃ pkt ∈ pkts, ∃ msgType, pkt.Says msgType x

def Probed (x : MacAdd) (pkts : List EthPkt) : Prop := ∃ pkt ∈ pkts, pkt.Says .maapProbe x

variable {node : Node Station EthPkt} {sent : List EthPkt} {x : MacAdd}

@[simp] theorem claimed_hear :
    Claimed x (node.hear sent).queue ↔ Claimed x node.queue ∨ Claimed x sent :=
  Node.exists_hear

@[simp] theorem probed_hear :
    Probed x (node.hear sent).queue ↔ Probed x node.queue ∨ Probed x sent :=
  Node.exists_hear

variable {pkt : EthPkt} {s : Station}

theorem claimed_singleton (msgType : MsgType) (h : pkt.Says msgType x) :
    Claimed x [pkt] :=
  ⟨pkt, List.mem_singleton_self pkt, msgType, h⟩

theorem probed_singleton (h : pkt.Says .maapProbe x) : Probed x [pkt] :=
  ⟨pkt, List.mem_singleton_self pkt, h⟩

theorem not_claimed_nil : ¬ Claimed x [] := by
  rintro ⟨pkt, hmem, -⟩
  cases hmem

theorem not_probed_nil : ¬ Probed x [] := by
  rintro ⟨pkt, hmem, -⟩
  cases hmem

theorem Probed.tail {queue : List EthPkt} (h : Probed x (pkt :: queue)) :
    pkt.Says .maapProbe x ∨ Probed x queue := by
  obtain ⟨pkt', hmem, hsays⟩ := h
  rcases List.mem_cons.mp hmem with rfl | hmem
  · exact .inl hsays
  · exact .inr ⟨pkt', hmem, hsays⟩

def Station.Probes (s : Station) (x : MacAdd) : Prop :=
  s.info.state = .probe ∧ s.info.requestedMacAdd = x

def Station.Defends (s : Station) (x : MacAdd) : Prop :=
  s.info.state = .defend ∧ s.info.acquiredMacAdd = x

def Station.polls (s : Station) : Bool :=
  match s.wait with
  | .poll _ => true
  | _ => false

/-- The station waits where its state says, sends probes while it probes, and asks for the address
it has while it defends. -/
def Station.Ok (s : Station) : Prop :=
  match s.info.state with
  | .initial => s.wait = .start ∧ s.announcing = false
  | .probe =>
    (∃ count, s.wait = .delay (count + 1) ∨ s.wait = .poll (count + 1)) ∧
      s.announcing = false ∧ s.info.ethpkt.Says .maapProbe s.info.requestedMacAdd
  | .defend => s.wait = .recv ∧ s.info.requestedMacAdd = s.info.acquiredMacAdd

theorem Station.Ok.of_defend (hdefend : s.info.state = .defend)
    (hwait : s.wait = .recv) (hsame : s.info.requestedMacAdd = s.info.acquiredMacAdd) : s.Ok := by
  unfold Station.Ok
  rw [hdefend]
  exact ⟨hwait, hsame⟩

theorem Station.Ok.of_probe {count : Nat} (hprobe : s.info.state = .probe)
    (hwait : s.wait = .delay (count + 1) ∨ s.wait = .poll (count + 1))
    (hthread : s.announcing = false)
    (hpkt : s.info.ethpkt.Says .maapProbe s.info.requestedMacAdd) : s.Ok := by
  unfold Station.Ok
  rw [hprobe]
  exact ⟨⟨count, hwait⟩, hthread, hpkt⟩

/-- The steps of a station, which are polls or not, by what they mean to the others. -/
inductive Moves (polled : Prop) (node : Node Station EthPkt) :
    Node Station EthPkt → List EthPkt → Prop where
  -- It has sent a probe for the address it probes now.
  | probes {node' : Node Station EthPkt} {sent : List EthPkt} (x : MacAdd)
    (hnow : node'.state.Probes x) (hsent : Probed x sent) : Moves polled node node' sent
  -- It goes on waiting for its next poll.
  | waits {node' : Node Station EthPkt} (x : MacAdd) (hwas : node.state.Probes x)
    (hnow : node'.state.Probes x) (hqueue : node'.queue = node.queue) : Moves polled node node' []
  -- A poll found no packet, and it has the address.
  | acquires {node' : Node Station EthPkt} {sent : List EthPkt} (x : MacAdd)
    (hwas : node.state.Probes x) (hpolled : polled) (hqueue : node.queue = [])
    (hnow : node'.state.Defends x) (hsent : Claimed x sent) : Moves polled node node' sent
  -- It answers any probe for its address that is no longer in its queue.
  | defends {node' : Node Station EthPkt} {sent : List EthPkt} (x : MacAdd)
    (hwas : node.state.Defends x) (hnow : node'.state.Defends x)
    (hanswer : Probed x node.queue → Probed x node'.queue ∨ Claimed x sent) :
    Moves polled node node' sent
  | rests : Moves polled node node []

variable {s : Station} {val : Fin 0xFE00}

theorem transitInitial_spec (hthread : s.announcing = false) (val : Fin 0xFE00) :
    ∃ x, (s.transitInitial val).1.Ok ∧ (s.transitInitial val).1.Probes x ∧
      Probed x (s.transitInitial val).2 :=
  ⟨(generateAddress s.info val).requestedMacAdd,
    ⟨⟨_, .inl rfl⟩, hthread, rfl, rfl⟩, ⟨rfl, rfl⟩, probed_singleton ⟨rfl, rfl⟩⟩

section Probing

variable (hprobe : s.info.state = .probe) (hthread : s.announcing = false)
  (hpkt : s.info.ethpkt.Says .maapProbe s.info.requestedMacAdd)
include hprobe hthread hpkt

theorem probeLoop_succ (count : Nat) :
    (s.probeLoop (count + 1)).1.Ok ∧ (s.probeLoop (count + 1)).1.Probes s.info.requestedMacAdd ∧
      Probed s.info.requestedMacAdd (s.probeLoop (count + 1)).2 := by
  exact ⟨.of_probe hprobe (.inl rfl) hthread hpkt, ⟨hprobe, rfl⟩, probed_singleton hpkt⟩

theorem polled_spec (count : Nat) (val : Fin 0xFE00) :
    ∃ x, (s.polled (count + 1) val).1.Ok ∧ (s.polled (count + 1) val).1.Probes x ∧
      Probed x (s.polled (count + 1) val).2 := by
  unfold Station.polled
  dsimp only
  split
  · exact transitInitial_spec hthread val
  · exact ⟨_, probeLoop_succ hprobe hthread hpkt count⟩

end Probing

theorem received_spec (hdefend : s.info.state = .defend)
    (hsame : s.info.requestedMacAdd = s.info.acquiredMacAdd) (val : Fin 0xFE00) :
    (s.received val).1.Ok ∧ ((∃ x, (s.received val).1.Probes x ∧ Probed x (s.received val).2) ∨
        (s.received val).1.Defends s.info.acquiredMacAdd ∧
          (s.info.ethpktRx.Says .maapProbe s.info.acquiredMacAdd →
            Claimed s.info.acquiredMacAdd (s.received val).2)) := by
  have hok : s.transitDefend.Ok := .of_defend hdefend rfl hsame
  unfold Station.received
  dsimp only
  split
  case isFalse hother =>
    refine ⟨hok, .inr ⟨⟨hdefend, rfl⟩, fun hprobe => ?_⟩⟩
    exact absurd (compareMac_iff.mpr hprobe.2) hother
  case isTrue =>
    split
    case isTrue =>
      refine ⟨.of_defend hdefend rfl hsame, .inr ⟨⟨hdefend, rfl⟩, fun _ => ?_⟩⟩
      exact claimed_singleton .maapDefend ⟨rfl, hsame⟩
    case isFalse hkind =>
      split
      · obtain ⟨x, hok, hprobes, hsent⟩ := transitInitial_spec
          (s := { s with info.state := .initial, announcing := false }) rfl val
        exact ⟨hok, .inl ⟨x, hprobes, hsent⟩⟩
      · exact ⟨hok, .inr ⟨⟨hdefend, rfl⟩, fun hprobe => absurd hprobe.1 hkind⟩⟩

theorem resume_moves (hok : node.state.Ok) (val : Fin 0xFE00) : (resume node val).1.state.Ok ∧
      Moves node.state.polls node (resume node val).1 (resume node val).2 := by
  obtain ⟨s, queue⟩ := node
  cases hstate : s.info.state with
  | initial =>
    obtain ⟨hwait, hthread⟩ : s.wait = .start ∧ s.announcing = false := by
      simpa only [Station.Ok, hstate] using hok
    obtain ⟨x, hok, hprobes, hsent⟩ := transitInitial_spec hthread val
    simp only [resume, hwait]
    exact ⟨hok, .probes x hprobes hsent⟩
  | probe =>
    obtain ⟨⟨count, hwait⟩, hthread, hpkt⟩ : (∃ count, s.wait = .delay (count + 1) ∨
        s.wait = .poll (count + 1)) ∧ s.announcing = false ∧
        s.info.ethpkt.Says .maapProbe s.info.requestedMacAdd := by
      simpa only [Station.Ok, hstate] using hok
    rcases hwait with hwait | hwait
    · simp only [resume, hwait]
      exact ⟨.of_probe hstate (.inr rfl) hthread hpkt, .waits _ ⟨hstate, rfl⟩ ⟨hstate, rfl⟩ rfl⟩
    cases queue with
    | cons pkt queue =>
      obtain ⟨x, hok, hprobes, hsent⟩ := polled_spec
        (s := { s with info.ethpktRx := pkt }) hstate hthread hpkt count val
      simp only [resume, hwait]
      exact ⟨hok, .probes x hprobes hsent⟩
    | nil =>
      simp only [resume, hwait, Nat.add_sub_cancel]
      cases count with
      | zero =>
        refine ⟨.of_defend rfl rfl rfl, ?_⟩
        exact .acquires s.info.requestedMacAdd ⟨hstate, rfl⟩ (by simp [Station.polls, hwait]) rfl
          ⟨rfl, rfl⟩ (claimed_singleton .maapAnnounce ⟨rfl, rfl⟩)
      | succ count =>
        obtain ⟨hok, hprobes, hsent⟩ := probeLoop_succ hstate hthread hpkt count
        exact ⟨hok, .probes _ hprobes hsent⟩
  | defend =>
    obtain ⟨hwait, hsame⟩ : s.wait = .recv ∧ s.info.requestedMacAdd = s.info.acquiredMacAdd := by
      simpa only [Station.Ok, hstate] using hok
    cases queue with
    | nil =>
      simp only [resume, hwait]
      exact ⟨hok, .rests⟩
    | cons pkt queue =>
      obtain ⟨hok, hnext⟩ := received_spec
        (s := { s with info.ethpktRx := pkt }) hstate hsame val
      simp only [resume, hwait]
      refine ⟨hok, ?_⟩
      rcases hnext with ⟨x, hprobes, hsent⟩ | ⟨hdefends, hanswer⟩
      · exact .probes x hprobes hsent
      · refine .defends s.info.acquiredMacAdd ⟨hstate, rfl⟩ hdefends fun hprobed => ?_
        rcases hprobed.tail with hfirst | hlater
        · exact .inr (hanswer hfirst)
        · exact .inl hlater

theorem Station.Ok.defends (h : s.Ok) (hthread : s.announcing = true) :
    s.info.state = .defend ∧ s.wait = .recv ∧ s.info.requestedMacAdd = s.info.acquiredMacAdd := by
  cases hstate : s.info.state <;> simp_all [Station.Ok]

theorem sendAnnounce_moves (hok : node.state.Ok) : (sendAnnounce node).1.state.Ok ∧
      Moves False node (sendAnnounce node).1 (sendAnnounce node).2 := by
  unfold sendAnnounce
  split
  case isFalse => exact ⟨hok, .rests⟩
  case isTrue hthread =>
    obtain ⟨hstate, hwait, hsame⟩ := hok.defends hthread
    exact ⟨.of_defend hstate hwait hsame, .defends _ ⟨hstate, rfl⟩ ⟨hstate, rfl⟩ .inl⟩

/-- The one defends what the other probes only as long as one of them is going to know. -/
def Warned (a b : Node Station EthPkt) : Prop :=
  ∀ x, a.state.Defends x → b.state.Probes x → Claimed x b.queue ∨ Probed x a.queue

def Apart (a b : Node Station EthPkt) : Prop := ∀ x, a.state.Defends x → ¬ b.state.Defends x

def Unique (net : Network ι) : Prop := Pairwise fun i j => Apart (net i) (net j)

/-- Stations that defend have handled all packets in their queues before a poll. -/
def Prompt (net : Network ι) : Event ι → Prop
  | .resume i _ => (net i).state.polls →
    ∀ j, (net j).state.info.state = .defend → (net j).queue = []
  | .announce _ => True

instance [Fintype ι] (net : Network ι) : (e : Event ι) → Decidable (Prompt net e)
  | .resume i _ => inferInstanceAs (Decidable ((net i).state.polls →
    ∀ j, (net j).state.info.state = .defend → (net j).queue = []))
  | .announce _ => inferInstanceAs (Decidable True)

structure Inv (net : Network ι) : Prop where
  ok : ∀ i, (net i).state.Ok
  warned : Pairwise fun i j => Warned (net i) (net j)
  apart : Unique net

variable {a a' b : Node Station EthPkt}

theorem Station.Probes.not_defends (h : s.Probes x) : ¬ s.Defends y := by
  intro hdefends
  cases h.1.symm.trans hdefends.1

theorem Apart.symm (h : Apart a b) : Apart b a := fun x hb ha => h x ha hb

theorem Warned.hear (h : Warned a b) (sent : List EthPkt) : Warned (a.hear sent) (b.hear sent) := by
  intro x ha hb
  rcases h x ha hb with hclaimed | hprobed
  · exact .inl (claimed_hear.mpr (.inl hclaimed))
  · exact .inr (probed_hear.mpr (.inl hprobed))

theorem Moves.warned_out (hmoves : Moves polled a a' sent) (h : Warned a b) :
    Warned a' (b.hear sent) := by
  intro y ha hb
  cases hmoves with
  | probes x hnow | waits x _ hnow => exact absurd ha hnow.not_defends
  | acquires x _ _ _ hnow hsent =>
    obtain rfl : x = y := hnow.2.symm.trans ha.2
    exact .inl (claimed_hear.mpr (.inr hsent))
  | defends x hwas hnow hanswer =>
    obtain rfl : x = y := hnow.2.symm.trans ha.2
    rcases h x hwas hb with hclaimed | hprobed
    · exact .inl (claimed_hear.mpr (.inl hclaimed))
    · rcases hanswer hprobed with hstill | hsent
      · exact .inr hstill
      · exact .inl (claimed_hear.mpr (.inr hsent))
  | rests =>
    rcases h y ha hb with hclaimed | hprobed
    · exact .inl (claimed_hear.mpr (.inl hclaimed))
    · exact .inr hprobed

theorem Moves.warned_in (hmoves : Moves polled a a' sent) (h : Warned b a) :
    Warned (b.hear sent) a' := by
  intro y hb ha
  cases hmoves with
  | probes x hnow hsent =>
    obtain rfl : x = y := hnow.2.symm.trans ha.2
    exact .inr (probed_hear.mpr (.inr hsent))
  | waits x hwas hnow hqueue =>
    obtain rfl : x = y := hnow.2.symm.trans ha.2
    rw [hqueue]
    rcases h x hb hwas with hclaimed | hprobed
    · exact .inl hclaimed
    · exact .inr (probed_hear.mpr (.inl hprobed))
  | acquires x _ _ _ hnow | defends x _ hnow => exact absurd hnow ha.not_defends
  | rests =>
    rcases h y hb ha with hclaimed | hprobed
    · exact .inl hclaimed
    · exact .inr (probed_hear.mpr (.inl hprobed))

theorem Moves.apart (hmoves : Moves polled a a' sent) (h : Apart a b) (hwarned : Warned b a)
    (hprompt : polled → b.state.info.state = .defend → b.queue = []) : Apart a' (b.hear sent) := by
  intro y ha hb
  cases hmoves with
  | probes x hnow | waits x _ hnow => exact hnow.not_defends ha
  | acquires x hwas hpolled hqueue hnow =>
    obtain rfl : x = y := hnow.2.symm.trans ha.2
    rcases hwarned x hb hwas with hclaimed | hprobed
    · rw [hqueue] at hclaimed
      exact not_claimed_nil hclaimed
    · rw [hprompt hpolled hb.1] at hprobed
      exact not_probed_nil hprobed
  | defends x hwas hnow =>
    obtain rfl : x = y := hnow.2.symm.trans ha.2
    exact h x hwas hb
  | rests => exact h y ha hb

section Step

variable [DecidableEq ι] {net : Network ι} {i : ι} {node' : Node Station EthPkt}

theorem Inv.broadcast (h : Inv net) (hok : node'.state.Ok)
    (hmoves : Moves polled (net i) node' sent)
    (hprompt : polled → ∀ j, (net j).state.info.state = .defend → (net j).queue = []) :
    Inv (broadcast net i node' sent) := by
  have hapart : ∀ j, j ≠ i → Apart node' ((net j).hear sent) := fun j hj =>
    hmoves.apart (h.apart hj.symm) (h.warned hj) fun hpolled => hprompt hpolled j
  refine ⟨forall_broadcast h.ok hok, ?_, ?_⟩
  · exact pairwise_broadcast h.warned (fun a b hab => hab.hear sent)
      (fun j hj => hmoves.warned_out (h.warned hj.symm))
      (fun j hj => hmoves.warned_in (h.warned hj))
  · exact pairwise_broadcast h.apart (fun _ _ hab => hab) hapart fun j hj => (hapart j hj).symm

theorem Inv.step (h : Inv net) (e : Event ι) (hprompt : Prompt net e) : Inv (step net e) := by
  cases e with
  | resume i val =>
    obtain ⟨hok, hmoves⟩ := resume_moves (h.ok i) val
    exact h.broadcast hok hmoves hprompt
  | announce i =>
    obtain ⟨hok, hmoves⟩ := sendAnnounce_moves (h.ok i)
    exact h.broadcast hok hmoves False.elim

end Step

theorem inv_start (srcMac : ι → MacAdd) : Inv (start srcMac) := by
  refine ⟨fun i => ⟨rfl, rfl⟩, ?_, ?_⟩
  · rintro i j - x ⟨hstate, -⟩
    cases hstate
  · rintro i j - x ⟨hstate, -⟩
    cases hstate

/-- As long as the stations that defend an address handle their packets before any other one polls,
no two of them ever defend the same. -/
theorem addresses_unique [DecidableEq ι] (srcMac : ι → MacAdd) (events : List (Event ι))
    (h : Each step Prompt (start srcMac) events) : Always step Unique (start srcMac) events :=
  (h.always (fun _ e hinv hprompt => hinv.step e hprompt) (inv_start srcMac)).imp
    fun _ hinv => hinv.apart

def twoStations : List (Event Bool) :=
  List.replicate 7 (.resume false 1) ++ [.resume true 2] ++
    (List.replicate 7 [.resume false 0, .resume true 0, .resume true 0]).flatten

theorem addresses_unique_two :
    let srcMac : Bool → MacAdd := fun i => ⟨[0x02, 0, 0, 0, 0, i.toUInt8], rfl⟩
    let last := run step (start srcMac) twoStations
    Each step Prompt (start srcMac) twoStations ∧
      (∀ i, (last i).state.info.state = .defend ∧
        (last i).state.info.acquiredMacAdd.val = [0x91, 0xE0, 0xF0, 0x00, 0, i.toUInt8 + 1]) ∧
      Always step Unique (start srcMac) twoStations := by
  intro srcMac last
  have hprompt : Each step Prompt (start srcMac) twoStations := by decide +kernel
  exact ⟨hprompt, by decide +kernel, addresses_unique srcMac twoStations hprompt⟩

/-- From 91:E0:F0:00:00:00 to 91:E0:F0:00:FD:FF. -/
def InPool (x : MacAdd) : Prop := ∃ hi lo : UInt8, hi ≤ 0xFD ∧ x.1 = [0x91, 0xE0, 0xF0, 0, hi, lo]

def Station.Asks (s : Station) : Prop := s.wait = .start ∨ InPool s.info.requestedMacAdd

structure Station.Pooled (s : Station) : Prop where
  ok : s.Ok
  asks : s.Asks

variable {node : Node Station EthPkt}

/-- A station asks for another address only when it starts again. -/
theorem Station.Asks.resume (h : node.state.Asks)
    (val : Fin 0xFE00) : (resume node val).1.state.Asks := by
  have hinitial : ∀ s : Station, (s.transitInitial val).1.Asks := by
    refine fun s => .inr ⟨_, _, UInt8.le_iff_toNat_le.mpr ?_, rfl⟩
    simp
    omega
  have hloop : ∀ (s : Station) n, InPool s.info.requestedMacAdd → (s.probeLoop n).1.Asks :=
    fun s n hs => .inr (by cases n <;> exact hs)
  obtain ⟨s, queue⟩ := node
  obtain hwait | hs : s.Asks := h
  · simp only [Maap.resume, hwait]
    exact hinitial s
  unfold Maap.resume Station.polled Station.received
  dsimp only
  repeat' split
  all_goals first | exact hinitial _ | exact .inr hs | (apply hloop; exact hs)

theorem pooled_step [DecidableEq ι] (net : Network ι) (e : Event ι)
    (h : ∀ i, (net i).state.Pooled) : ∀ i, (step net e i).state.Pooled := by
  cases e with
  | resume i val =>
    exact forall_broadcast h ⟨(resume_moves (h i).ok val).1, (h i).asks.resume val⟩
  | announce i =>
    refine forall_broadcast h ⟨(sendAnnounce_moves (h i).ok).1, ?_⟩
    unfold sendAnnounce
    split <;> exact (h i).asks

theorem always_pooled [DecidableEq ι] (srcMac : ι → MacAdd) (events : List (Event ι)) :
    Always step (fun net => ∀ i, (net i).state.Pooled) (start srcMac) events := by
  have hstart : ∀ i, (start srcMac i).state.Pooled := fun i => ⟨⟨rfl, rfl⟩, .inl rfl⟩
  exact always_of_step pooled_step hstart events

/-- Whatever the interleaving, stations probe and defend only addresses of the pool. -/
theorem addresses_in_pool [DecidableEq ι] (srcMac : ι → MacAdd) (events : List (Event ι)) :
    Always step (fun net => ∀ i x, (net i).state.Probes x ∨ (net i).state.Defends x → InPool x)
      (start srcMac) events := by
  refine (always_pooled srcMac events).imp fun net h i x hx => ?_
  obtain ⟨hok, hasks⟩ := h i
  unfold Station.Ok at hok
  rcases hx with ⟨hstate, rfl⟩ | ⟨hstate, rfl⟩
  · rw [hstate] at hok
    obtain ⟨⟨count, hwait | hwait⟩, -⟩ := hok <;> exact hasks.resolve_left (by simp [hwait])
  · rw [hstate] at hok
    exact hok.2 ▸ hasks.resolve_left (by simp [hok.1])

def Wait.left : Wait → Nat
  | .start => 7
  | .delay n => 2 * (n - 1) + 2
  | .poll n => 2 * (n - 1) + 1
  | .recv => 0

/-- How often a station runs, at most, until it waits for packets and has none. -/
def workLeft (node : Node Station EthPkt) : Nat := 8 * node.queue.length + node.state.wait.left

theorem workLeft_resume (node : Node Station EthPkt) (val : Fin 0xFE00) :
    workLeft (resume node val).1 ≤ workLeft node - 1 := by
  have hloop : ∀ (s : Station) n, (s.probeLoop n).1.wait.left = 2 * n := by
    rintro s (_ | n) <;> rfl
  have hinitial : ∀ s : Station, (s.transitInitial val).1.wait.left = 6 := fun s => hloop _ 3
  have hkept : ∀ s : Station, s.transitDefend.wait.left = 0 := fun _ => rfl
  obtain ⟨s, queue⟩ := node
  unfold workLeft resume Station.polled Station.received
  dsimp only
  repeat' split
  all_goals simp_all only [Wait.left, List.length_cons, List.length_nil]
  all_goals omega

theorem workLeft_resumes [DecidableEq ι] (net : Network ι) (i : ι) (vals : List (Fin 0xFE00)) :
    workLeft (run step net (vals.map (.resume i)) i) ≤ workLeft (net i) - vals.length := by
  induction vals generalizing net with
  | nil => exact le_rfl
  | cons val vals ih =>
    have hnext : step net (.resume i val) i = (resume (net i) val).1 := broadcast_self
    have hless := workLeft_resume (net i) val
    have hrest := ih (step net (.resume i val))
    rw [hnext] at hrest
    simp only [List.map_cons, List.length_cons]
    exact hrest.trans (by omega)

theorem Station.Pooled.defends (h : node.state.Pooled)
    (hnone : workLeft node = 0) : ∃ x, InPool x ∧ node.state.Defends x := by
  obtain ⟨s, queue⟩ := node
  obtain ⟨hok, hasks⟩ := h
  unfold Station.Ok at hok
  cases hstate : s.info.state with
  | initial =>
    simp only [hstate] at hok
    simp [workLeft, Wait.left, hok.1] at hnone
  | probe =>
    simp only [hstate] at hok
    obtain ⟨⟨count, hwait | hwait⟩, -⟩ := hok <;> simp [workLeft, Wait.left, hwait] at hnone
  | defend =>
    simp only [hstate] at hok
    exact ⟨_, hasks.resolve_left (by simp [hok.1]), hstate, hok.2.symm⟩

/-- In every state of every run, a station that nobody disturbs comes to defend an address. -/
theorem undisturbed_defends [DecidableEq ι] (srcMac : ι → MacAdd) (events : List (Event ι))
    (i : ι) : Always step (fun net => ∃ n, ∀ vals : List (Fin 0xFE00), n ≤ vals.length →
      ∃ x, InPool x ∧ (run step net (vals.map (.resume i)) i).state.Defends x)
      (start srcMac) events := by
  refine (always_pooled srcMac events).imp fun net h => ⟨workLeft (net i), fun vals hlong => ?_⟩
  have hpooled := (always_of_step pooled_step h (vals.map (.resume i))).last
  refine (hpooled i).defends (Nat.le_zero.mp ((workLeft_resumes net i vals).trans ?_))
  omega

/-! ## The lock of a station -/

inductive AnnouncePoint where
  | delay
  | lock
  -- in `send_packet`, with the mutex
  | sendto
  | printf
  deriving DecidableEq

structure AnnounceThread where
  point : AnnouncePoint
  (cancelRequested ended : Bool)
  deriving DecidableEq

inductive MainPoint where
  -- in the states INITIAL and PROBE
  | probing
  -- in `recv_packet`, in the state DEFEND
  | recv
  | lock
  | sendto
  deriving DecidableEq

inductive Holder where
  | main
  | announce (i : Nat)
  deriving DecidableEq

structure Threads where
  mutex : Option Holder
  main : MainPoint
  announce : List AnnounceThread
  deriving DecidableEq

inductive Turn where
  -- with a packet about the address of the station
  | main (packet : Option MsgType)
  | announce (i : Nat)
  -- a cancellation takes effect
  | cancel (i : Nat)

namespace Threads

def start : Threads := ⟨none, .probing, []⟩

section

variable (s : Threads)

/-- `state_transit` up to the next point where another thread matters. -/
def transit : Option MsgType → Threads
  | packet =>
    match s.main, packet with
    | .probing, none =>
      { s with main := .recv, announce := s.announce ++ [⟨.delay, false, false⟩] }
    | .probing, some _ => s
    | .recv, none => s
    | .recv, some .maapProbe => { s with main := .lock }
    | .recv, some _ =>
      { s with
        main := .probing
        announce := s.announce.modify (s.announce.length - 1) fun t =>
          { t with cancelRequested := true } }
    | .lock, _ => if s.mutex = none then { s with mutex := some .main, main := .sendto } else s
    | .sendto, _ => { s with mutex := none, main := .recv }

def goTo (i : Nat) (point : AnnouncePoint) : Threads :=
  { s with announce := s.announce.modify i fun t => { t with point := point } }

def sendAnnounce (i : Nat) (t : AnnounceThread) : Threads :=
  if t.ended then s
  else
    match t.point with
    | .delay => s.goTo i .lock
    | .lock => if s.mutex = none then { s.goTo i .sendto with mutex := some (.announce i) } else s
    | .sendto => { s.goTo i .printf with mutex := none }
    | .printf => s.goTo i .delay

def cancelled (i : Nat) (t : AnnounceThread) : Threads :=
  if t.cancelRequested ∧ t.point ≠ .lock then
    { s with announce := s.announce.modify i fun t => { t with ended := true } }
  else s

def step : Turn → Threads
  | .main packet => s.transit packet
  | .announce i => s.announce[i]?.elim s (s.sendAnnounce i)
  | .cancel i => s.announce[i]?.elim s (s.cancelled i)

/-- The mutex is not locked by a thread that has ended, and the main thread gets it. -/
structure Answers : Prop where
  live : ∀ i t, s.mutex = some (.announce i) → s.announce[i]? = some t → t.ended = false
  gets : s.main = .lock → ∃ turns, (run step s turns).main = .sendto

def CancelsOutside : Turn → Prop
  | .cancel i => ∀ t ∈ s.announce[i]?, t.cancelRequested → t.point ≠ .sendto
  | _ => True

structure Held : Prop where
  main : s.mutex = some .main ↔ s.main = .sendto
  announce : ∀ i, s.mutex = some (.announce i) ↔ ∃ t, s.announce[i]? = some t ∧ t.point = .sendto

end

variable {s : Threads}

section

variable (h : s.Held)
include h

theorem Held.transit (packet : Option MsgType) : (s.transit packet).Held := by
  have hmain := h.main
  refine ⟨?_, fun j => ?_⟩
  · unfold Threads.transit
    split <;> grind
  · have hj := h.announce j
    unfold Threads.transit
    split <;> grind

theorem Held.sendAnnounce (ht : s.announce[i]? = some t) : (s.sendAnnounce i t).Held := by
  have hmain := h.main
  have hi := h.announce i
  refine ⟨?_, fun j => ?_⟩
  · unfold Threads.sendAnnounce goTo
    split <;> grind
  · have hj := h.announce j
    unfold Threads.sendAnnounce goTo
    split <;> grind

theorem Held.cancelled (i : Nat) (t : AnnounceThread) : (s.cancelled i t).Held := by
  unfold Threads.cancelled
  split
  · exact ⟨h.main, fun j => by rw [h.announce j]; grind⟩
  · exact h

theorem Held.answers_iff : s.Answers ↔
    ∀ i t, s.mutex = some (.announce i) → s.announce[i]? = some t → t.ended = false := by
  refine ⟨Answers.live, fun hlive => ⟨hlive, fun hmain => ?_⟩⟩
  cases hmutex : s.mutex with
  | none => exact ⟨[.main none], by simp [run, step, Threads.transit, hmain, hmutex]⟩
  | some holder =>
    cases holder with
    | main => simp [h.main.mp hmutex] at hmain
    | announce i =>
      -- the thread that sends releases the mutex
      obtain ⟨t, ht, hpoint⟩ := (h.announce i).mp hmutex
      have hended := hlive i t hmutex ht
      refine ⟨[.announce i, .main none], ?_⟩
      simp [run, step, ht, Threads.sendAnnounce, hended, hpoint, goTo, Threads.transit, hmain]

theorem Held.step (turn : Turn) : (s.step turn).Held := by
  cases turn with
  | main packet => exact h.transit packet
  | announce i =>
    cases ht : s.announce[i]? with
    | none => simpa [Threads.step, ht] using h
    | some t => simpa [Threads.step, ht] using h.sendAnnounce ht
  | cancel i =>
    cases ht : s.announce[i]? with
    | none => simpa [Threads.step, ht] using h
    | some t => simpa [Threads.step, ht] using h.cancelled i t

theorem answers_step_iff (hs : s.Answers) (turn : Turn) :
    (s.step turn).Answers ↔ s.CancelsOutside turn := by
  rw [(h.step turn).answers_iff]
  have hlive := hs.live
  have hannounce := h.announce
  cases turn with
  | main packet =>
    refine iff_of_true ?_ trivial
    simp only [step, Threads.transit]
    split <;> grind
  | announce i =>
    refine iff_of_true ?_ trivial
    cases ht : s.announce[i]? with
    | none => simpa [step, ht] using hlive
    | some t =>
      simp only [step, ht, Option.elim_some, Threads.sendAnnounce, goTo]
      split
      · exact hlive
      · split <;> grind
  | cancel i =>
    cases ht : s.announce[i]? with
    | none => simpa [step, ht, CancelsOutside] using hlive
    | some t =>
      have hpoint := hannounce i
      simp only [step, ht, Option.elim_some, Threads.cancelled, CancelsOutside]
      split <;> grind

end

/-- No mutex is orphaned, and a probe is answered, in every state of exactly the runs in which no
cancellation takes effect while the thread sends. -/
theorem lock_answers_iff (turns : List Turn) :
    Always step Answers start turns ↔ Each step CancelsOutside start turns := by
  have hheld : start.Held := ⟨by decide, by simp [start]⟩
  exact always_iff_each (I := Held) (fun s turn h => h.step turn)
    (fun s turn h hs => answers_step_iff h hs turn) hheld (hheld.answers_iff.mpr (by simp [start]))

/-- A conflict arrives while the address is announced, and the next probe is not answered. -/
theorem lock_orphaned :
    let s := run step start [.main none, .announce 0, .announce 0, .main (some .maapAnnounce),
      .cancel 0, .main none, .main (some .maapProbe)]
    s.mutex = some (.announce 0) ∧ s.announce[0]?.map AnnounceThread.ended = some true ∧
      s.main = .lock ∧ s.step (.main none) = s := by
  decide

end Threads

end OpenAvb.Maap
