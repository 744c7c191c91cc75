import OpenAvb.Keyed
import OpenAvb.Run

/-!
# Observers of the reference clock

The observers stand in an array, and a tick calls those in front of the count. Those
behind one that unregisters move one place to the front, but nothing counts down:
the last observer stands in two places, or the one that left is still called.
-/

namespace OpenAvb.Pipeline

open List

def maxObservers : Nat := 10

structure RefClkObserver (κ γ : Type) where
  callback : κ
  context : γ
  deriving DecidableEq

structure Tick where
  timestamp : UInt64
  ticks : UInt16
  interval : UInt32
  restartClock : Bool
  deriving DecidableEq

structure RefClk (κ γ : Type) where
  observers : Nat → RefClkObserver κ γ
  observerCount : Nat

namespace RefClk

variable {κ γ : Type}

def store (clk : RefClk κ γ) (index : Nat) (observer : RefClkObserver κ γ) : RefClk κ γ :=
  { clk with observers := fun i => if i = index then observer else clk.observers i }

def registerObserver (clk : RefClk κ γ) (callback : κ) (context : γ) : Bool × RefClk κ γ :=
  if clk.observerCount ≥ maxObservers then (false, clk)
  else
    let clk := clk.store clk.observerCount ⟨callback, context⟩
    (true, { clk with observerCount := clk.observerCount + 1 })

/-- The index of the first of the next `n` observers with the context, or the one behind them. -/
def indexOf [DecidableEq γ] (clk : RefClk κ γ) (context : γ) : Nat → Nat → Nat
  | 0, index => index
  | n + 1, index =>
    if (clk.observers index).context = context then index
    else clk.indexOf context n (index + 1)

/-- Each of the next `n` observers moves one place to the front. -/
def moveForward (clk : RefClk κ γ) : Nat → Nat → RefClk κ γ
  | 0, _ => clk
  | n + 1, index => (clk.store (index - 1) (clk.observers index)).moveForward n (index + 1)

def unregisterObserver [DecidableEq γ] (clk : RefClk κ γ) (context : γ) : Bool × RefClk κ γ :=
  let index := clk.indexOf context clk.observerCount 0
  if index = clk.observerCount then (false, clk)
  else (true, clk.moveForward (clk.observerCount - (index + 1)) (index + 1))

def signalTick (clk : RefClk κ γ) (tick : Tick) : List (RefClkObserver κ γ × Tick) :=
  (List.range clk.observerCount).map fun index => (clk.observers index, tick)

structure Holds (clk : RefClk κ γ) (observers : List (RefClkObserver κ γ)) : Prop where
  count : clk.observerCount = observers.length
  le : clk.observerCount ≤ maxObservers
  at_index : ∀ i (hi : i < observers.length), clk.observers i = observers[i]

variable {clk : RefClk κ γ} {observers : List (RefClkObserver κ γ)}

theorem Holds.signalTick (h : clk.Holds observers) (tick : Tick) :
    clk.signalTick tick = observers.map fun observer => (observer, tick) := by
  rw [RefClk.signalTick, h.count]
  refine ext_getElem (by simp) fun i hi _ => ?_
  have hi : i < observers.length := by simpa using hi
  simp [h.at_index i hi]

theorem Holds.register (h : clk.Holds observers) (callback : κ) (context : γ) :
    (clk.registerObserver callback context).1 = true ↔ observers.length < maxObservers := by
  rw [registerObserver, h.count]
  split
  case isTrue hfull => simp only [Bool.false_eq_true, false_iff]; omega
  case isFalse hfree => simp only [true_iff]; omega

variable {context : γ}

theorem Holds.registered (h : clk.Holds observers) {callback : κ}
    (hok : (clk.registerObserver callback context).1 = true) :
    (clk.registerObserver callback context).2.Holds (observers ++ [⟨callback, context⟩]) := by
  have hfree := (h.register callback context).mp hok
  have hcount := h.count
  rw [registerObserver, if_neg (by omega)]
  constructor
  case count => simp [store, hcount]
  case le => simp only [store]; omega
  case at_index =>
    intro i hi
    rw [length_append, length_singleton] at hi
    by_cases hlast : i = observers.length
    · subst hlast
      simp [store, hcount]
    · have hi : i < observers.length := by omega
      simp [store, hcount, hlast, h.at_index i hi, getElem_append_left hi]

theorem registerObserver_failed {callback : κ}
    (hfail : (clk.registerObserver callback context).1 = false) :
    (clk.registerObserver callback context).2 = clk := by
  rw [registerObserver] at hfail ⊢
  split at hfail
  case isTrue hfull => rw [if_pos hfull]
  case isFalse => cases hfail

theorem observerCount_moveForward (clk : RefClk κ γ) (n index : Nat) :
    (clk.moveForward n index).observerCount = clk.observerCount := by
  induction n generalizing clk index with
  | zero => rfl
  | succ n ih => rw [moveForward, ih, store]

theorem observerCount_unregister [DecidableEq γ] (clk : RefClk κ γ) (context : γ) :
    (clk.unregisterObserver context).2.observerCount = clk.observerCount := by
  rw [unregisterObserver]
  split
  · rfl
  · exact observerCount_moveForward _ _ _

theorem moveForward_at (clk : RefClk κ γ) (n index i : Nat) :
    (clk.moveForward n (index + 1)).observers i =
      clk.observers (if index ≤ i ∧ i < index + n then i + 1 else i) := by
  induction n generalizing clk index with
  | zero => rw [moveForward, if_neg (by omega)]
  | succ n ih =>
    rw [moveForward, ih, Nat.add_sub_cancel]
    simp only [store]
    by_cases hfirst : i = index
    · subst hfirst
      have hnot : ¬ (i + 1 ≤ i ∧ i < i + 1 + n) := by omega
      rw [if_neg hnot, if_pos rfl, if_pos (by omega)]
    · by_cases hmoved : index + 1 ≤ i ∧ i < index + 1 + n
      · rw [if_pos hmoved, if_neg (by omega), if_pos (by omega)]
      · rw [if_neg hmoved, if_neg hfirst, if_neg (by omega)]

section

variable [DecidableEq γ]

theorem indexOf_eq (h : ∀ i (hi : i < observers.length), clk.observers (index + i) = observers[i])
    (context : γ) : clk.indexOf context observers.length index =
      index + observers.findIdx fun observer => observer.context == context := by
  induction observers generalizing index with
  | nil => rfl
  | cons observer rest ih =>
    have hhead : clk.observers index = observer := h 0 (by simp)
    rw [length_cons, indexOf, findIdx_cons, hhead]
    by_cases hfound : observer.context = context
    · simp [hfound]
    · have hrest : ∀ i (hi : i < rest.length), clk.observers (index + 1 + i) = rest[i] := by
        intro i hi
        have := h (i + 1) (by simpa using hi)
        rw [Nat.add_assoc, Nat.add_comm 1 i]
        simpa using this
      rw [if_neg hfound, ih hrest, beq_eq_false_iff_ne.mpr hfound]
      simp only [cond_false]
      omega

theorem Holds.indexOf (h : clk.Holds observers) (context : γ) :
    clk.indexOf context clk.observerCount 0 =
      observers.findIdx fun observer => observer.context == context := by
  have hat : ∀ i (hi : i < observers.length), clk.observers (0 + i) = observers[i] := by
    intro i hi
    rw [Nat.zero_add]
    exact h.at_index i hi
  rw [h.count, indexOf_eq hat, Nat.zero_add]

theorem Holds.unregister_unknown (h : clk.Holds observers)
    (hunknown : ∀ observer ∈ observers, observer.context ≠ context) :
    clk.unregisterObserver context = (false, clk) := by
  have hnone : (observers.findIdx fun observer => observer.context == context) =
      observers.length := by
    rw [findIdx_eq_length]
    intro observer hmem
    exact beq_eq_false_iff_ne.mpr (hunknown observer hmem)
  rw [unregisterObserver, h.indexOf, hnone, if_pos h.count.symm]

theorem Holds.unregister_moves (h : clk.Holds observers)
    (hknown : ∃ observer ∈ observers, observer.context = context) :
    { (clk.unregisterObserver context).2 with observerCount := clk.observerCount - 1 }.Holds
      (removeFirst (fun observer => observer.context == context) observers) := by
  have hcount := h.count
  have hle := h.le
  have hfound : (observers.findIdx fun observer => observer.context == context) <
      observers.length := by
    rw [findIdx_lt_length]
    obtain ⟨observer, hmem, hcontext⟩ := hknown
    exact ⟨observer, hmem, beq_iff_eq.mpr hcontext⟩
  rw [unregisterObserver, h.indexOf, if_neg (by omega), removeFirst_eq_eraseIdx]
  generalize (observers.findIdx fun observer => observer.context == context) = index at hfound ⊢
  constructor
  case count => simp [length_eraseIdx_of_lt hfound, hcount]
  case le => simp only; omega
  case at_index =>
    intro i hi
    rw [length_eraseIdx_of_lt hfound] at hi
    rw [moveForward_at, getElem_eraseIdx]
    by_cases hbefore : i < index
    · rw [if_neg (by omega), dif_pos hbefore]
      exact h.at_index i (by omega)
    · rw [if_pos (by omega), dif_neg hbefore]
      exact h.at_index (i + 1) (by omega)

end

end RefClk

inductive ClkInput (κ γ : Type) where
  | register (callback : κ) (context : γ)
  | unregister (context : γ)
  | tick (tick : Tick)

structure ClkRun (κ γ : Type) where
  clk : RefClk κ γ
  /-- Who has registered and not unregistered since, in this order. -/
  registered : List (RefClkObserver κ γ)

namespace ClkRun

variable {κ γ : Type} [DecidableEq γ]

def start (zero : RefClkObserver κ γ) : ClkRun κ γ := ⟨⟨fun _ => zero, 0⟩, []⟩

def step (s : ClkRun κ γ) : ClkInput κ γ → ClkRun κ γ
  | .register callback context =>
    let (ok, clk) := s.clk.registerObserver callback context
    ⟨clk, if ok then s.registered ++ [⟨callback, context⟩] else s.registered⟩
  | .unregister context =>
    ⟨(s.clk.unregisterObserver context).2,
      removeFirst (fun observer => observer.context == context) s.registered⟩
  | .tick _ => s

/-- A tick calls those who are registered, each once and in their order, and there is room for
another one as long as they are fewer than the array has places. -/
structure Faithful (s : ClkRun κ γ) : Prop where
  tick : ∀ tick, s.clk.signalTick tick = s.registered.map fun observer => (observer, tick)
  register : ∀ callback context,
    (s.clk.registerObserver callback context).1 = true ↔ s.registered.length < maxObservers

def Stays (s : ClkRun κ γ) : ClkInput κ γ → Prop
  | .unregister context => ∀ observer ∈ s.registered, observer.context ≠ context
  | _ => True

theorem holds_step {s : ClkRun κ γ} {input : ClkInput κ γ} (h : s.clk.Holds s.registered)
    (hstays : s.Stays input) : (s.step input).clk.Holds (s.step input).registered := by
  cases input with
  | register callback context =>
    cases hok : (s.clk.registerObserver callback context).1 with
    | true =>
      simp only [step, hok, if_true]
      exact h.registered hok
    | false =>
      simp only [step, hok, Bool.false_eq_true, if_false, RefClk.registerObserver_failed hok]
      exact h
  | unregister context =>
    have hnone : ∀ observer ∈ s.registered, (observer.context == context) = false :=
      fun observer hmem => beq_eq_false_iff_ne.mpr (hstays observer hmem)
    simp only [step, h.unregister_unknown hstays, removeFirst_of_none hnone]
    exact h
  | tick => exact h

theorem not_faithful_of_left {s : ClkRun κ γ} {input : ClkInput κ γ}
    (h : s.clk.Holds s.registered) (hleaves : ¬ s.Stays input) : ¬ (s.step input).Faithful := by
  cases input with
  | register => exact absurd trivial hleaves
  | tick => exact absurd trivial hleaves
  | unregister context =>
    have hknown : ∃ observer ∈ s.registered, observer.context = context := by
      simpa [Stays] using hleaves
    intro hfaithful
    have hcalls := congrArg List.length (hfaithful.tick ⟨0, 0, 0, false⟩)
    have hmoves := (h.unregister_moves hknown).count
    obtain ⟨observer, hmem, -⟩ := hknown
    have hpos := length_pos_of_mem hmem
    simp only [RefClk.signalTick, length_map, length_range, step,
      RefClk.observerCount_unregister] at hcalls
    have hcount := h.count
    simp only at hmoves
    omega

end ClkRun

/-- For callbacks and contexts of any kind, and whether or not the contexts are distinct. -/
theorem refClk_faithful_iff {κ γ : Type} [DecidableEq γ] (zero : RefClkObserver κ γ)
    (inputs : List (ClkInput κ γ)) : Always ClkRun.step ClkRun.Faithful (ClkRun.start zero) inputs ↔
      Each ClkRun.step ClkRun.Stays (ClkRun.start zero) inputs := by
  have hkeep : ∀ (s : ClkRun κ γ) input, s.clk.Holds s.registered → s.Stays input →
      (s.step input).clk.Holds (s.step input).registered :=
    fun s input h hstays => ClkRun.holds_step h hstays
  have hstart : (ClkRun.start zero).clk.Holds (ClkRun.start zero).registered :=
    ⟨rfl, Nat.zero_le _, fun i hi => by cases hi⟩
  refine always_iff_each_of_break hkeep (fun s input h hleaves => ?_) (fun s h => ?_) hstart
  · exact ClkRun.not_faithful_of_left h hleaves
  · exact ⟨h.signalTick, h.register⟩

/-- Observers 1 and 2 register and 1 leaves: the tick calls 2 twice. After ten have come and gone,
there is no room for another. -/
theorem refClk_stale_observer :
    let left := run ClkRun.step (ClkRun.start ⟨0, 0⟩)
      ([.register 10 1, .register 20 2, .unregister 1] : List (ClkInput Nat Nat))
    let empty := run ClkRun.step (ClkRun.start ⟨0, 0⟩)
      (((List.range 10).map fun i => .register i i) ++ (List.range 10).map .unregister :
        List (ClkInput Nat Nat))
    left.registered = [⟨20, 2⟩] ∧
      left.clk.signalTick ⟨5, 1, 1, false⟩ =
        [(⟨20, 2⟩, ⟨5, 1, 1, false⟩), (⟨20, 2⟩, ⟨5, 1, 1, false⟩)] ∧
      empty.registered = [] ∧ (empty.clk.registerObserver 1 1).1 = false := by
  decide +kernel

end OpenAvb.Pipeline
