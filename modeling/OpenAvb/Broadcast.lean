import Mathlib.Logic.Pairwise
import Mathlib.Data.List.Basic

/-!
# Nodes that broadcast

Each node has a state and a queue of received messages, and what it sends is put
behind the queues of all others. What holds between any two nodes is kept by the
step of one, if it is kept by messages to both.
-/

namespace OpenAvb

variable {ι σ μ : Type}

structure Node (σ μ : Type) where
  state : σ
  queue : List μ

def Node.hear (node : Node σ μ) (sent : List μ) : Node σ μ :=
  { node with queue := node.queue ++ sent }

theorem Node.exists_hear {node : Node σ μ} {sent : List μ} {p : μ → Prop} :
    (∃ m ∈ (node.hear sent).queue, p m) ↔ (∃ m ∈ node.queue, p m) ∨ ∃ m ∈ sent, p m := by
  simp only [Node.hear, List.mem_append, or_and_right, exists_or]

variable [DecidableEq ι]

def broadcast (net : ι → Node σ μ) (i : ι) (node : Node σ μ) (sent : List μ) : ι → Node σ μ :=
  fun j => if j = i then node else (net j).hear sent

variable {net : ι → Node σ μ} {i j : ι} {node : Node σ μ} {sent : List μ}

@[simp] theorem broadcast_self : broadcast net i node sent i = node := if_pos rfl

theorem broadcast_ne (h : j ≠ i) : broadcast net i node sent j = (net j).hear sent := if_neg h

theorem forall_broadcast {P : σ → Prop} (h : ∀ j, P (net j).state) (hnode : P node.state) (j : ι) :
    P (broadcast net i node sent j).state := by
  by_cases hj : j = i
  · rw [hj, broadcast_self]
    exact hnode
  · rw [broadcast_ne hj]
    exact h j

theorem pairwise_broadcast {R : Node σ μ → Node σ μ → Prop}
    (h : Pairwise fun j k => R (net j) (net k))
    (hhear : ∀ a b, R a b → R (a.hear sent) (b.hear sent))
    (hout : ∀ j, j ≠ i → R node ((net j).hear sent))
    (hin : ∀ j, j ≠ i → R ((net j).hear sent) node) :
    Pairwise fun j k => R (broadcast net i node sent j) (broadcast net i node sent k) := by
  intro j k hjk
  by_cases hj : j = i
  · subst hj
    rw [broadcast_self, broadcast_ne hjk.symm]
    exact hout k hjk.symm
  by_cases hk : k = i
  · subst hk
    rw [broadcast_self, broadcast_ne hj]
    exact hin j hj
  · rw [broadcast_ne hj, broadcast_ne hk]
    exact hhear _ _ (h hjk)

end OpenAvb
