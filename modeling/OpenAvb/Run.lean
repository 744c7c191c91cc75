import Mathlib.Data.List.Basic

/-!
# Runs of a deterministic system

A system takes one input after the other. What holds in every state of a run
follows from what every step of the run preserves; where a step that breaks a
condition also breaks the property, the two say the same.
-/

namespace OpenAvb

section

variable {σ ι : Type}

def run (step : σ → ι → σ) (s : σ) (is : List ι) : σ := is.foldl step s

/-- `P` holds in every state of the run. -/
def Always (step : σ → ι → σ) (P : σ → Prop) : σ → List ι → Prop
  | s, [] => P s
  | s, i :: is => P s ∧ Always step P (step s i) is

/-- Every input of the run meets `Q` in the state that takes it. -/
def Each (step : σ → ι → σ) (Q : σ → ι → Prop) : σ → List ι → Prop
  | _, [] => True
  | s, i :: is => Q s i ∧ Each step Q (step s i) is

variable {step : σ → ι → σ} {P I : σ → Prop} {Q : σ → ι → Prop}

instance decidableAlways [DecidablePred P] :
    (s : σ) → (is : List ι) → Decidable (Always step P s is)
  | s, [] => inferInstanceAs (Decidable (P s))
  | s, i :: is =>
    have := decidableAlways (step s i) is
    inferInstanceAs (Decidable (P s ∧ Always step P (step s i) is))

instance decidableEach [∀ s i, Decidable (Q s i)] :
    (s : σ) → (is : List ι) → Decidable (Each step Q s is)
  | _, [] => inferInstanceAs (Decidable True)
  | s, i :: is =>
    have := decidableEach (step s i) is
    inferInstanceAs (Decidable (Q s i ∧ Each step Q (step s i) is))

theorem Always.now (h : Always step P s is) : P s := by
  cases is with
  | nil => exact h
  | cons i is => exact h.1

theorem Always.last (h : Always step P s is) : P (run step s is) := by
  induction is generalizing s with
  | nil => exact h
  | cons i is ih => exact ih h.2

theorem Always.imp {P' : σ → Prop} (himp : ∀ s, P s → P' s) (h : Always step P s is) :
    Always step P' s is := by
  induction is generalizing s with
  | nil => exact himp s h
  | cons i is ih => exact ⟨himp s h.1, ih h.2⟩

theorem Each.always (hstep : ∀ s i, P s → Q s i → P (step s i)) (h0 : P s)
    (h : Each step Q s is) : Always step P s is := by
  induction is generalizing s with
  | nil => exact h0
  | cons i is ih => exact ⟨h0, ih (hstep s i h0 h.1) h.2⟩

variable {Q' : σ → ι → Prop}

theorem Each.imp_of_always (h : Each step Q s is) (hP : Always step P s is)
    (himp : ∀ s i, P s → Q s i → Q' s i) : Each step Q' s is := by
  induction is generalizing s with
  | nil => trivial
  | cons i is ih => exact ⟨himp s i hP.1 h.1, ih h.2 hP.2⟩

theorem each_iff_of_inv (hiff : ∀ s i, I s → (Q s i ↔ Q' s i))
    (hkeep : ∀ s i, I s → Q s i → I (step s i)) (h0 : I s) :
    Each step Q s is ↔ Each step Q' s is := by
  induction is generalizing s with
  | nil => exact Iff.rfl
  | cons i is ih =>
    constructor
    · rintro ⟨hq, hrest⟩
      exact ⟨(hiff s i h0).mp hq, (ih (hkeep s i h0 hq)).mp hrest⟩
    · rintro ⟨hq, hrest⟩
      have hq := (hiff s i h0).mpr hq
      exact ⟨hq, (ih (hkeep s i h0 hq)).mpr hrest⟩

theorem each_true (s : σ) (is : List ι) : Each step (fun _ _ => True) s is := by
  induction is generalizing s with
  | nil => trivial
  | cons i is ih => exact ⟨trivial, ih _⟩

theorem each_iff_forall {Q : ι → Prop} : Each step (fun _ i => Q i) s is ↔ ∀ i ∈ is, Q i := by
  induction is generalizing s with
  | nil => simp [Each]
  | cons i is ih => simp [Each, ih]

/-- Systems that stay related at every step stay related over a run. -/
theorem run_related {step' : σ' → ι → σ'} {R : σ → σ' → Prop}
    (hstep : ∀ s t i, R s t → R (step s i) (step' t i)) (h : R s t) (is : List ι) :
    R (run step s is) (run step' t is) := by
  induction is generalizing s t with
  | nil => exact h
  | cons i is ih => exact ih (hstep s t i h)

theorem always_of_step (hstep : ∀ s i, P s → P (step s i)) (h0 : P s) (is : List ι) :
    Always step P s is :=
  Each.always (fun s i h _ => hstep s i h) h0 (each_true s is)

/-- If the steps that keep an invariant are those that meet `Q`, and any other breaks `P`, then `P`
holds in every state of exactly the runs all of whose steps meet `Q`. -/
theorem always_iff_each_of_break (hkeep : ∀ s i, I s → Q s i → I (step s i))
    (hbreak : ∀ s i, I s → ¬ Q s i → ¬ P (step s i)) (hIP : ∀ s, I s → P s) (h0 : I s) :
    Always step P s is ↔ Each step Q s is := by
  constructor
  · rintro h
    induction is generalizing s with
    | nil => trivial
    | cons i is ih =>
      have hq : Q s i := Classical.not_not.mp fun hq => hbreak s i h0 hq h.2.now
      exact ⟨hq, ih (hkeep s i h0 hq) h.2⟩
  · rintro h
    exact (h.always hkeep h0).imp hIP

/-- If the steps that preserve `P` are those that meet `Q`, then `P` holds in every state of
exactly the runs all of whose steps meet `Q`. -/
theorem always_iff_each (hI : ∀ s i, I s → I (step s i))
    (hstep : ∀ s i, I s → P s → (P (step s i) ↔ Q s i)) (h0 : I s) (hP : P s) :
    Always step P s is ↔ Each step Q s is := by
  have hkeep : ∀ s i, I s ∧ P s → Q s i → I (step s i) ∧ P (step s i) := by
    rintro s i ⟨hIs, hPs⟩ hq
    exact ⟨hI s i hIs, (hstep s i hIs hPs).mpr hq⟩
  have hbreak : ∀ s i, I s ∧ P s → ¬ Q s i → ¬ P (step s i) := by
    rintro s i ⟨hIs, hPs⟩ hq hnext
    exact hq ((hstep s i hIs hPs).mp hnext)
  exact always_iff_each_of_break hkeep hbreak (fun _ h => h.2) ⟨h0, hP⟩

end

/-! ## Walks -/

variable {σ ω ρ υ : Type}

/-- Run for at most `fuel` steps; `stuck` is the result of a run that does not halt. -/
def walk (step : σ → List ω × (σ ⊕ ρ)) (stuck : ρ) : (fuel : Nat) → σ → List ω × ρ
  | 0, _ => ([], stuck)
  | fuel + 1, s =>
    match step s with
    | (out, .inr r) => (out, r)
    | (out, .inl s) => (out ++ (walk step stuck fuel s).1, (walk step stuck fuel s).2)

/-- `n` steps lead from one state to another and emit `out`. -/
inductive Steps (step : σ → List ω × (σ ⊕ ρ)) : Nat → σ → List ω → σ → Prop
  | refl (s) : Steps step 0 s [] s
  | cons (h : step s = (out, .inl s')) (hs : Steps step n s' outs s'') :
      Steps step (n + 1) s (out ++ outs) s''

theorem Steps.one {step : σ → List ω × (σ ⊕ ρ)} (h : step s = (out, .inl s')) :
    Steps step 1 s out s' := by
  simpa using Steps.cons h (.refl s')

theorem Steps.trans {step : σ → List ω × (σ ⊕ ρ)} (h : Steps step n s out s')
    (h' : Steps step n' s' out' s'') : Steps step (n + n') s (out ++ out') s'' := by
  induction h with
  | refl => simpa using h'
  | cons hs _ ih =>
    rw [List.append_assoc, Nat.add_right_comm]
    exact .cons hs (ih h')

theorem Steps.next {step : σ → List ω × (σ ⊕ ρ)} (h : Steps step n s out s'')
    (hs : (step s).2 = .inl t) : s'' = s ∨ ∃ n out, Steps step n t out s'' := by
  cases h with
  | refl => exact .inl rfl
  | cons hstep hsteps =>
    rw [hstep] at hs
    cases hs
    exact .inr ⟨_, _, hsteps⟩

theorem Steps.halted {step : σ → List ω × (σ ⊕ ρ)} (h : Steps step n s out s'')
    (hs : (step s).2 = .inr r) : s'' = s := by
  cases h with
  | refl => rfl
  | cons hstep =>
    rw [hstep] at hs
    cases hs

theorem Steps.walk_eq {step : σ → List ω × (σ ⊕ ρ)} (h : Steps step n s out s') :
    walk step stuck (n + fuel) s =
      (out ++ (walk step stuck fuel s').1, (walk step stuck fuel s').2) := by
  induction h with
  | refl => simp
  | cons hs _ ih =>
    rw [Nat.add_right_comm, walk, hs]
    simp only [ih, List.append_assoc]

theorem walk_halt {step : σ → List ω × (σ ⊕ ρ)} (h : step s = (out, .inr r)) :
    walk step stuck (fuel + 1) s = (out, r) := by
  rw [walk, h]

theorem Steps.walk_halt {step : σ → List ω × (σ ⊕ ρ)} (h : Steps step n s out s')
    (hh : step s' = (out', .inr r)) (hn : n < fuel) :
    walk step stuck fuel s = (out ++ out', r) := by
  obtain ⟨k, rfl⟩ : ∃ k, fuel = n + (k + 1) := ⟨fuel - n - 1, by omega⟩
  rw [h.walk_eq, OpenAvb.walk_halt hh]

theorem Steps.walk_out {step : σ → List ω × (σ ⊕ ρ)} (h : Steps step n s out s')
    (hn : n < fuel) : ∃ outs, (walk step stuck fuel s).1 = out ++ ((step s').1 ++ outs) := by
  obtain ⟨k, rfl⟩ : ∃ k, fuel = n + (k + 1) := ⟨fuel - n - 1, by omega⟩
  rw [h.walk_eq, walk]
  rcases step s' with ⟨out', next⟩
  cases next with
  | inl s'' => exact ⟨_, rfl⟩
  | inr => exact ⟨[], by simp⟩

theorem forall_walk {step : σ → List ω × (σ ⊕ ρ)} {Q : ω → Prop}
    (h : ∀ n out s', Steps step n s out s' → ∀ w ∈ (step s').1, Q w) :
    ∀ w ∈ (walk step stuck fuel s).1, Q w := by
  induction fuel generalizing s with
  | zero => simp [walk]
  | succ fuel ih =>
    intro w hw
    have hfirst := h 0 [] s (.refl s)
    rw [walk] at hw
    rcases hs : step s with ⟨out, next⟩
    rw [hs] at hw hfirst
    cases next with
    | inr => exact hfirst w hw
    | inl s' =>
      rcases List.mem_append.mp hw with hw | hw
      · exact hfirst w hw
      · exact ih (fun n out s'' hsteps => h (n + 1) _ s'' (.cons hs hsteps)) w hw

theorem Steps.other {step : σ → List ω × (σ ⊕ ρ)} (h : Steps step n s out s')
    (step' : σ → List υ × (σ ⊕ ρ)) (hstep : ∀ s, (step' s).2 = (step s).2) :
    ∃ out', Steps step' n s out' s' := by
  induction h with
  | refl s => exact ⟨[], .refl s⟩
  | @cons s _ s' _ _ _ hs _ ih =>
    obtain ⟨out', ih⟩ := ih
    have h2 := hstep s
    rw [hs] at h2
    exact ⟨_, .cons (Prod.ext rfl h2) ih⟩

/-- Two machines agree on their results up to `P`, a relation that may be put behind equal
output, if they step alike from every state the first one reaches, or from there on agree. -/
theorem walk_rel {step step' : σ → List ω × (σ ⊕ ρ)} {P : List ω × ρ → List ω × ρ → Prop}
    (hrefl : ∀ x, P x x) (hput : ∀ out x y, P x y → P (out ++ x.1, x.2) (out ++ y.1, y.2))
    (h : ∀ n out s', Steps step n s out s' → step s' = step' s' ∨
      ∀ fuel, P (walk step stuck fuel s') (walk step' stuck fuel s')) :
    P (walk step stuck fuel s) (walk step' stuck fuel s) := by
  induction fuel generalizing s with
  | zero => exact hrefl _
  | succ fuel ih =>
    rcases h 0 [] s (.refl s) with heq | hagree
    · rw [walk, walk, ← heq]
      rcases hs : step s with ⟨out, next⟩
      cases next with
      | inr => exact hrefl _
      | inl s' => exact hput _ _ _ (ih fun n out s'' hsteps => h (n + 1) _ s'' (.cons hs hsteps))
    · exact hagree _

theorem Steps.measure_le {step : σ → List ω × (σ ⊕ ρ)} (measure : σ → Nat)
    (hm : ∀ s out s', step s = (out, .inl s') → measure s < measure s')
    (h : Steps step n s out s') : measure s + n ≤ measure s' := by
  induction h with
  | refl => omega
  | cons hs _ ih =>
    have := hm _ _ _ hs
    omega

end OpenAvb
