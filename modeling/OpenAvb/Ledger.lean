import Mathlib.Data.List.Basic
import Mathlib.Data.List.Nodup

/-!
# Resources that are taken and given back

A log of attempts to acquire resources and of releases. It is in order if nothing
is acquired while it is held and nothing released while it is not, and if nothing
is held at its end, unless whoever keeps the log has not come to an end.
-/

namespace OpenAvb

section

variable {ε : Type} [DecidableEq ε]

inductive Use (ε : Type) where
  | acquire (e : ε) (got : Bool)
  | release (e : ε)

def heldAfter : List ε → List (Use ε) → Option (List ε)
  | held, [] => some held
  | held, .acquire e got :: uses =>
    if e ∈ held then none else heldAfter (if got then e :: held else held) uses
  | held, .release e :: uses => if e ∈ held then heldAfter (held.erase e) uses else none

def InOrder (ended : Bool) (uses : List (Use ε)) : Prop :=
  ∃ held, heldAfter [] uses = some held ∧ (ended = true → held = [])

theorem heldAfter_append (held : List ε) (uses uses' : List (Use ε)) :
    heldAfter held (uses ++ uses') =
      (heldAfter held uses).bind fun held => heldAfter held uses' := by
  induction uses generalizing held with
  | nil => rfl
  | cons use uses ih =>
    cases use with
    | acquire | release =>
      rw [List.cons_append, heldAfter, heldAfter, ih]
      split <;> rfl

variable {uses : List (Use ε)}

theorem inOrder_of_released (h : heldAfter [] uses = some []) (ended : Bool) :
    InOrder ended uses :=
  ⟨[], h, fun _ => rfl⟩

theorem inOrder_running (h : heldAfter [] uses = some held) :
    InOrder false uses :=
  ⟨held, h, fun hended => by cases hended⟩

theorem not_inOrder_of_held (h : heldAfter [] uses = some (e :: held)) : ¬ InOrder true uses := by
  rintro ⟨held', hafter, hnone⟩
  rw [h] at hafter
  cases hafter
  cases hnone rfl

theorem not_inOrder_of_none (h : heldAfter [] uses = none) (ended : Bool) :
    ¬ InOrder ended uses := by
  rintro ⟨held, hafter, -⟩
  rw [h] at hafter
  cases hafter

end

/-! ## Entries in use and their holders -/

variable {α : Type} {used : Nat → Prop} {holds : α → Option Nat} {l l' : List α} {x y : α}

structure Accounted (used : Nat → Prop) (holds : α → Option Nat) (l : List α) : Prop where
  once : (l.filterMap holds).Nodup
  held : ∀ i, used i ↔ i ∈ l.filterMap holds

theorem Accounted.perm (h : Accounted used holds l) (hl : l.Perm l') : Accounted used holds l' where
  once := (hl.filterMap holds).nodup_iff.mp h.once
  held := fun i => (h.held i).trans (hl.filterMap holds).mem_iff

theorem accounted_cons_none (hx : holds x = none) :
    Accounted used holds (x :: l) ↔ Accounted used holds l := by
  have hlist : (x :: l).filterMap holds = l.filterMap holds := by simp [hx]
  constructor
  · rintro ⟨honce, hheld⟩
    rw [hlist] at honce hheld
    exact ⟨honce, hheld⟩
  · rintro ⟨honce, hheld⟩
    rw [← hlist] at honce hheld
    exact ⟨honce, hheld⟩

theorem Accounted.replace (h : Accounted used holds (x :: l)) (hxy : holds y = holds x) :
    Accounted used holds (y :: l) := by
  have hlist : (y :: l).filterMap holds = (x :: l).filterMap holds := by
    simp only [List.filterMap_cons, hxy]
  exact ⟨hlist ▸ h.once, hlist ▸ h.held⟩

variable {used' : Nat → Prop}

theorem Accounted.release {i : Nat} (h : Accounted used holds (x :: l)) (hx : holds x = some i)
    (hused : ∀ j, used' j ↔ used j ∧ j ≠ i) : Accounted used' holds l := by
  obtain ⟨honce, hheld⟩ := h
  simp only [List.filterMap_cons, hx, List.nodup_cons, List.mem_cons] at honce hheld
  refine ⟨honce.2, fun j => ?_⟩
  rw [hused, hheld]
  constructor
  · rintro ⟨rfl | hj, hne⟩
    · exact absurd rfl hne
    · exact hj
  · rintro hj
    refine ⟨.inr hj, ?_⟩
    rintro rfl
    exact honce.1 hj

theorem Accounted.acquire {i : Nat} (h : Accounted used holds l) (hx : holds x = some i)
    (hfree : ¬ used i) (hused : ∀ j, used' j ↔ used j ∨ j = i) :
    Accounted used' holds (x :: l) where
  once := by
    simp only [List.filterMap_cons, hx, List.nodup_cons]
    exact ⟨fun hi => hfree ((h.held i).mpr hi), h.once⟩
  held := fun j => by
    rw [hused, h.held]
    simp [hx, or_comm]

end OpenAvb
