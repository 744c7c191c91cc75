import Mathlib.Data.List.Nodup
import Mathlib.Data.Nat.Find
import Mathlib.Data.Nat.ModEq

/-!
# Positions in a ring

The slots of a ring of `N` places are numbered from 0. An arc is a walk along
some of them from a given one; as long as it is no longer than the ring it meets
no slot twice.
-/

namespace OpenAvb

open List

variable {N t d e i j k x : Nat} {p : Nat → Bool}

/-- The slot `k` places behind `t`. -/
def slot (N t k : Nat) : Nat := (t + k) % N

/-- How many places `x` is behind `t`. -/
def places (N t x : Nat) : Nat := (x + (N - t)) % N

def arc (N t d : Nat) : List Nat := (List.range d).map (slot N t)

theorem slot_lt (hN : 0 < N) : slot N t k < N := Nat.mod_lt _ hN

theorem slot_zero (ht : t < N) : slot N t 0 = t := Nat.mod_eq_of_lt ht

theorem slot_ring (ht : t < N) : slot N t N = t := by
  rw [slot, Nat.add_mod_right, Nat.mod_eq_of_lt ht]

theorem slot_slot : slot N (slot N t i) j = slot N t (i + j) := by
  rw [slot, slot, slot, Nat.mod_add_mod, add_assoc]

theorem slot_inj (hi : i < N) (hj : j < N) (h : slot N t i = slot N t j) : i = j :=
  Nat.ModEq.eq_of_lt_of_lt (Nat.ModEq.add_left_cancel' t h) hi hj

theorem slot_ne (ht : t < N) (hk : 0 < k) (hkN : k < N) : slot N t k ≠ t := by
  intro h
  have := slot_inj (j := 0) hkN (by omega) (h.trans (slot_zero ht).symm)
  omega

theorem slot_back (ht : t < N) (hk : k ≤ N) : slot N (slot N t k) (N - k) = t := by
  rw [slot_slot, Nat.add_sub_cancel' hk, slot_ring ht]

theorem slot_succ (hN : 0 < N) :
    slot N t (k + 1) = if slot N t k + 1 ≥ N then 0 else slot N t k + 1 := by
  have hlt : slot N t k < N := slot_lt hN
  have hone : slot N t (k + 1) = slot N (slot N t k) 1 := slot_slot.symm
  rw [hone, slot]
  split
  · have hfull : slot N t k + 1 = N := by omega
    rw [hfull, Nat.mod_self]
  · exact Nat.mod_eq_of_lt (by omega)

theorem places_lt (hN : 0 < N) : places N t x < N := Nat.mod_lt _ hN

theorem slot_places (ht : t < N) (hx : x < N) : slot N t (places N t x) = x := by
  have hsum : t + (x + (N - t)) = x + N := by omega
  rw [slot, places, Nat.add_mod_mod, hsum, Nat.add_mod_right, Nat.mod_eq_of_lt hx]

theorem places_slot (ht : t < N) (hk : k < N) : places N t (slot N t k) = k :=
  slot_inj (places_lt (by omega)) hk (slot_places ht (slot_lt (by omega)))

theorem places_pos (ht : t < N) (hx : x < N) (hne : x ≠ t) : 0 < places N t x := by
  refine Nat.pos_of_ne_zero fun h0 => hne ?_
  have hplace := slot_places ht hx
  rw [h0, slot_zero ht] at hplace
  exact hplace.symm

theorem places_back (ht : t < N) (hx : x < N) (hne : x ≠ t) : places N x t = N - places N t x := by
  have hpos := places_pos ht hx hne
  have hback := slot_back (k := places N t x) ht (le_of_lt (places_lt (by omega)))
  rw [slot_places ht hx] at hback
  refine slot_inj (t := x) (places_lt (by omega)) (by omega) ?_
  rw [slot_places hx ht, hback]

theorem mem_arc : x ∈ arc N t d ↔ ∃ k, k < d ∧ slot N t k = x := by
  simp only [arc, mem_map, mem_range]

@[simp] theorem length_arc : (arc N t d).length = d := by simp [arc]

@[simp] theorem arc_zero : arc N t 0 = [] := rfl

theorem arc_add : arc N t (d + e) = arc N t d ++ arc N (slot N t d) e := by
  rw [arc, range_add, map_append, map_map]
  refine congrArg (arc N t d ++ ·) (map_congr_left fun k _ => ?_)
  exact slot_slot.symm

theorem arc_succ (ht : t < N) : arc N t (d + 1) = t :: arc N (slot N t 1) d := by
  rw [add_comm, arc_add]
  show [slot N t 0] ++ _ = _
  rw [slot_zero ht]
  rfl

theorem nodup_arc (hd : d ≤ N) : (arc N t d).Nodup := by
  refine List.Nodup.map_on ?_ nodup_range
  intro i hi j hj h
  have hi := mem_range.mp hi
  have hj := mem_range.mp hj
  exact slot_inj (by omega) (by omega) h

theorem slot_not_mem_arc (hk : k < N) (hd : d ≤ k) : slot N t k ∉ arc N t d := by
  intro h
  obtain ⟨i, hi, heq⟩ := mem_arc.mp h
  have := slot_inj (by omega) hk heq
  omega

theorem mem_arc_ring (ht : t < N) (hx : x < N) : x ∈ arc N t N :=
  mem_arc.mpr ⟨places N t x, places_lt (by omega), slot_places ht hx⟩

theorem filter_arc_eq_nil (h : ∀ i, i < d → p (slot N t i) = false) :
    (arc N t d).filter p = [] := by
  rw [filter_eq_nil_iff]
  intro x hx
  obtain ⟨i, hi, rfl⟩ := mem_arc.mp hx
  rw [h i hi]
  exact Bool.false_ne_true

theorem filter_arc_grow (hde : d < e) (hp : p (slot N t d) = true)
    (hskip : ∀ i, d < i → i < e → p (slot N t i) = false) :
    (arc N t e).filter p = (arc N t d).filter p ++ [slot N t d] := by
  obtain ⟨n, rfl⟩ : ∃ n, e = d + (1 + n) := ⟨e - d - 1, by omega⟩
  have hrest : (arc N (slot N t (d + 1)) n).filter p = [] := by
    refine filter_arc_eq_nil fun i hi => ?_
    rw [slot_slot]
    exact hskip _ (by omega) (by omega)
  have hone : arc N (slot N t d) 1 = [slot N t d] := by
    show [slot N (slot N t d) 0] = _
    rw [slot_slot, add_zero]
  rw [arc_add, arc_add, hone, filter_append, filter_append, slot_slot, hrest,
    append_nil, filter_cons_of_pos hp, filter_nil]

theorem filter_arc_advance (ht : t < N) (hk : 0 < k) (hkd : k ≤ d) (hp : p t = true)
    (hskip : ∀ i, 0 < i → i < k → p (slot N t i) = false) :
    (arc N t d).filter p = t :: (arc N (slot N t k) (d - k)).filter p := by
  have hhead : (arc N t k).filter p = [t] := by
    have h := filter_arc_grow (t := t) (N := N) hk (by rw [slot_zero ht]; exact hp) hskip
    rwa [arc_zero, filter_nil, slot_zero ht] at h
  obtain ⟨n, rfl⟩ : ∃ n, d = k + n := ⟨d - k, by omega⟩
  rw [arc_add, filter_append, hhead, Nat.add_sub_cancel_left]
  rfl

theorem first_or_none (P : Nat → Prop) [DecidablePred P] (d N : Nat) :
    (∃ k, d < k ∧ k < N ∧ P k ∧ ∀ i, d < i → i < k → ¬ P i) ∨ ∀ i, d < i → i < N → ¬ P i := by
  by_cases h : ∃ k, d < k ∧ k < N ∧ P k
  case pos =>
    refine Or.inl ⟨Nat.find h, (Nat.find_spec h).1, (Nat.find_spec h).2.1,
      (Nat.find_spec h).2.2, fun i hd hi hP => ?_⟩
    exact Nat.find_min h hi ⟨hd, lt_trans hi (Nat.find_spec h).2.1, hP⟩
  case neg => exact Or.inr fun i hd hN hP => h ⟨i, hd, hN, hP⟩

end OpenAvb
