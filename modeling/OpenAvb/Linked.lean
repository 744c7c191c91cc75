import Mathlib.Data.List.Induction
import Mathlib.Logic.Function.Basic
import OpenAvb.Keyed

/-!
# Doubly linked lists

Cells in memory that point to the next and to the one before, as C programs keep
them. A heap holds a list if the cells of its members point to each other in
order; what a program does to the pointers is then what it does to the list.
-/

namespace OpenAvb.Linked

section

open Function List

variable {α : Type}

structure Cell (α : Type) where
  val : α
  (next prev : Option Nat)

/-- Cells by their addresses, the number of those in use, and the pointer to the first. -/
structure Heap (α : Type) where
  head : Option Nat
  cell : Nat → Option (Cell α)
  live : Nat

namespace Heap

def empty : Heap α := ⟨none, fun _ => none, 0⟩

def next (h : Heap α) (p : Nat) : Option Nat := (h.cell p).bind Cell.next

def prev (h : Heap α) (p : Nat) : Option Nat := (h.cell p).bind Cell.prev

def val? (h : Heap α) (p : Nat) : Option α := (h.cell p).map Cell.val

def modify (p : Nat) (f : Cell α → Cell α) (h : Heap α) : Heap α :=
  { h with cell := update h.cell p ((h.cell p).map f) }

def setNext (p : Nat) (q : Option Nat) : Heap α → Heap α := modify p fun c => { c with next := q }

def setPrev (p : Nat) (q : Option Nat) : Heap α → Heap α := modify p fun c => { c with prev := q }

def mapVal (p : Nat) (f : α → α) : Heap α → Heap α := modify p fun c => { c with val := f c.val }

/-- `if (p) p->next = q; else head = q;` -/
def link (p q : Option Nat) (h : Heap α) : Heap α :=
  match p with
  | some p => h.setNext p q
  | none => { h with head := q }

def backLink (p q : Option Nat) (h : Heap α) : Heap α :=
  match p with
  | some p => h.setPrev p q
  | none => h

def malloc (p : Nat) (v : α) (h : Heap α) : Heap α :=
  { h with cell := update h.cell p (some ⟨v, none, none⟩), live := h.live + 1 }

def free (p : Nat) (h : Heap α) : Heap α :=
  { h with cell := update h.cell p none, live := h.live - 1 }

def unlink (p : Nat) (h : Heap α) : Heap α :=
  let h := h.link (h.prev p) (h.next p)
  h.backLink (h.next p) (h.prev p)

def insertAfter (p r : Nat) (h : Heap α) : Heap α :=
  let h := h.setNext r (h.next p)
  let h := h.setPrev r (some p)
  let h := h.setNext p (some r)
  h.backLink (h.next r) (some r)

def insertBefore (p r : Nat) (h : Heap α) : Heap α :=
  let h := h.setNext r (some p)
  let h := h.setPrev r (h.prev p)
  let h := h.setPrev p (some r)
  h.link (h.prev r) (some r)

def append (tail : Option Nat) (r : Nat) (h : Heap α) : Heap α :=
  let h := h.setNext r none
  let h := h.setPrev r tail
  h.link tail (some r)

end Heap

def first : List (Nat × α) → Option Nat → Option Nat
  | [], q => q
  | m :: _, _ => some m.1

def last : List (Nat × α) → Option Nat → Option Nat
  | [], p => p
  | m :: l, _ => last l (some m.1)

/-- The cells of the members point to each other, from `p` on and up to `q`. -/
def Seg (cell : Nat → Option (Cell α)) : Option Nat → List (Nat × α) → Option Nat → Prop
  | _, [], _ => True
  | p, m :: l, q => cell m.1 = some ⟨m.2, first l q, p⟩ ∧ Seg cell (some m.1) l q

def addresses (l : List (Nat × α)) : List Nat := l.map Prod.fst

def values (l : List (Nat × α)) : List α := l.map Prod.snd

@[simp] theorem addresses_append (xs ys : List (Nat × α)) :
    addresses (xs ++ ys) = addresses xs ++ addresses ys := map_append

@[simp] theorem addresses_cons (m : Nat × α) (l : List (Nat × α)) :
    addresses (m :: l) = m.1 :: addresses l := rfl

@[simp] theorem addresses_nil : addresses ([] : List (Nat × α)) = [] := rfl

@[simp] theorem values_append (xs ys : List (Nat × α)) :
    values (xs ++ ys) = values xs ++ values ys := map_append

@[simp] theorem values_cons (m : Nat × α) (l : List (Nat × α)) :
    values (m :: l) = m.2 :: values l := rfl

@[simp] theorem values_nil : values ([] : List (Nat × α)) = [] := rfl

@[simp] theorem first_cons (m : Nat × α) (l : List (Nat × α)) (q : Option Nat) :
    first (m :: l) q = some m.1 := rfl

@[simp] theorem last_cons (m : Nat × α) (l : List (Nat × α)) (p : Option Nat) :
    last (m :: l) p = last l (some m.1) := rfl

@[simp] theorem first_nil (q : Option Nat) : first ([] : List (Nat × α)) q = q := rfl

@[simp] theorem last_nil (p : Option Nat) : last ([] : List (Nat × α)) p = p := rfl

@[simp] theorem first_append (xs ys : List (Nat × α)) (q : Option Nat) :
    first (xs ++ ys) q = first xs (first ys q) := by
  cases xs <;> rfl

@[simp] theorem last_append (xs ys : List (Nat × α)) (p : Option Nat) :
    last (xs ++ ys) p = last ys (last xs p) := by
  induction xs generalizing p with
  | nil => rfl
  | cons m xs ih => exact ih (some m.1)

theorem last_eq_getLast? (l : List (Nat × α)) : last l none = (addresses l).getLast? := by
  rcases eq_nil_or_concat' l with rfl | ⟨l, m, rfl⟩
  · rfl
  · simp

variable {cell cell' : Nat → Option (Cell α)} {h h' : Heap α} {l xs ys : List (Nat × α)}

theorem seg_append {p q : Option Nat} :
    Seg cell p (xs ++ ys) q ↔ Seg cell p xs (first ys q) ∧ Seg cell (last xs p) ys q := by
  induction xs generalizing p with
  | nil => simp [Seg]
  | cons m xs ih => simp [Seg, ih, and_assoc]

theorem Seg.congr (hcell : ∀ a ∈ addresses l, cell' a = cell a) (hseg : Seg cell p l q) :
    Seg cell' p l q := by
  induction l generalizing p with
  | nil => trivial
  | cons m l ih =>
    simp only [addresses_cons, forall_mem_cons] at hcell
    exact ⟨hcell.1.trans hseg.1, ih hcell.2 hseg.2⟩

theorem first_mem (hfirst : first l none = some a) : a ∈ addresses l := by
  cases l with
  | nil => cases hfirst
  | cons m l => simp_all

theorem last_mem (hlast : last l none = some a) : a ∈ addresses l := by
  rcases eq_nil_or_concat' l with rfl | ⟨l, m, rfl⟩
  · cases hlast
  · simp_all

structure Holds (h : Heap α) (l : List (Nat × α)) : Prop where
  head : h.head = first l none
  seg : Seg h.cell none l none
  nodup : (addresses l).Nodup
  live : h.live = l.length

theorem holds_empty : Holds (Heap.empty : Heap α) [] := ⟨rfl, trivial, nodup_nil, rfl⟩

structure Front (h : Heap α) (xs : List (Nat × α)) (q : Option Nat) : Prop where
  head : h.head = first xs q
  seg : Seg h.cell none xs q

theorem Holds.split (hh : Holds h (xs ++ ys)) :
    Front h xs (first ys none) ∧ Seg h.cell (last xs none) ys none := by
  obtain ⟨hfront, hback⟩ := seg_append.mp hh.seg
  exact ⟨⟨by simpa using hh.head, hfront⟩, hback⟩

theorem Front.join (hfront : Front h xs (first ys none)) (hback : Seg h.cell (last xs none) ys none)
    (hnodup : (addresses (xs ++ ys)).Nodup) (hlive : h.live = (xs ++ ys).length) :
    Holds h (xs ++ ys) :=
  ⟨by simpa using hfront.head, seg_append.mpr ⟨hfront.seg, hback⟩, hnodup, hlive⟩

theorem Front.congr (hhead : h'.head = h.head) (hcell : ∀ a ∈ addresses xs, h'.cell a = h.cell a)
    (hfront : Front h xs q) : Front h' xs q :=
  ⟨hhead.trans hfront.head, hfront.seg.congr hcell⟩

theorem Heap.link_cell (hp : p ≠ some a) : (h.link p q).cell a = h.cell a := by
  cases p with
  | none => rfl
  | some p => exact update_of_ne (by simpa [eq_comm] using hp) ..

theorem Heap.backLink_cell (hp : p ≠ some a) : (h.backLink p q).cell a = h.cell a := by
  cases p with
  | none => rfl
  | some p => exact update_of_ne (by simpa [eq_comm] using hp) ..

@[simp] theorem Heap.backLink_head : (h.backLink p q).head = h.head := by cases p <;> rfl

@[simp] theorem Heap.link_live : (h.link p q).live = h.live := by cases p <;> rfl

@[simp] theorem Heap.backLink_live : (h.backLink p q).live = h.live := by cases p <;> rfl

theorem Front.link (hfront : Front h xs q) (hnodup : (addresses xs).Nodup) (q' : Option Nat) :
    Front (h.link (last xs none) q') xs q' := by
  rcases eq_nil_or_concat' xs with rfl | ⟨xs, m, rfl⟩
  · exact ⟨rfl, trivial⟩
  · obtain ⟨hseg, hcell, -⟩ := seg_append.mp hfront.seg
    have hm : last (xs ++ [m]) none = some m.1 := by simp
    have hne : ∀ a ∈ addresses xs, (some m.1 : Option Nat) ≠ some a := by
      rintro a ha ⟨⟩
      simp [nodup_append] at hnodup
      exact hnodup.2 _ ha rfl
    rw [hm]
    refine ⟨?_, seg_append.mpr ⟨?_, ?_, trivial⟩⟩
    · have hhead := hfront.head
      rw [first_append] at hhead ⊢
      exact hhead
    · exact hseg.congr fun a ha => Heap.link_cell (hne a ha)
    · simp [Heap.link, Heap.setNext, Heap.modify, hcell]

theorem Seg.backLink (hback : Seg h.cell p ys none) (hnodup : (addresses ys).Nodup)
    (p' : Option Nat) : Seg (h.backLink (first ys none) p').cell p' ys none := by
  cases ys with
  | nil => trivial
  | cons m ys =>
    obtain ⟨hcell, hseg⟩ := hback
    have hne : ∀ a ∈ addresses ys, (some m.1 : Option Nat) ≠ some a := by
      rintro a ha ⟨⟩
      exact (nodup_cons.mp hnodup).1 ha
    refine ⟨by simp [Heap.backLink, Heap.setPrev, Heap.modify, hcell], ?_⟩
    exact hseg.congr fun a ha => Heap.backLink_cell (hne a ha)

theorem ne_of_notMem (ha : a ∉ addresses l) : first l none ≠ some a ∧ last l none ≠ some a :=
  ⟨fun hf => ha (first_mem hf), fun hl => ha (last_mem hl)⟩

section
variable (hdisjoint : ∀ a ∈ addresses xs, a ∉ addresses ys)
include hdisjoint

theorem Front.backLink (hfront : Front h xs q) (p' : Option Nat) :
    Front (h.backLink (first ys none) p') xs q :=
  hfront.congr Heap.backLink_head fun a ha =>
    Heap.backLink_cell (ne_of_notMem (hdisjoint a ha)).1

theorem Seg.link (hback : Seg h.cell p ys none) (q' : Option Nat) :
    Seg (h.link (last xs none) q').cell p ys none :=
  hback.congr fun a ha => Heap.link_cell (ne_of_notMem fun hx => hdisjoint a hx ha).2

end

/-- A cell that points to its neighbours stands between them once both point to it. -/
theorem Holds.insert (hh : Holds h (xs ++ ys)) (hm : m.1 ∉ addresses (xs ++ ys))
    (hcell : h'.cell m.1 = some ⟨m.2, first ys none, last xs none⟩)
    (hsame : ∀ a ∈ addresses (xs ++ ys), h'.cell a = h.cell a) (hhead : h'.head = h.head)
    (hlive : h'.live = h.live + 1) :
    Holds ((h'.link (last xs none) (some m.1)).backLink (first ys none) (some m.1))
        (xs ++ m :: ys) ∧
      Holds ((h'.backLink (first ys none) (some m.1)).link (last xs none) (some m.1))
        (xs ++ m :: ys) := by
  simp only [addresses_append, mem_append, not_or] at hm hsame
  have hnodup := hh.nodup
  rw [addresses_append, nodup_append] at hnodup
  obtain ⟨hx, hy, hxy⟩ := hnodup
  have hdisjoint : ∀ a ∈ addresses xs, a ∉ addresses ys := fun a ha hb => hxy a ha a hb rfl
  obtain ⟨hfront, hback⟩ := hh.split
  replace hfront : Front h' xs (first ys none) := hfront.congr hhead fun a ha => hsame a (.inl ha)
  replace hback : Seg h'.cell (last xs none) ys none := hback.congr fun a ha => hsame a (.inr ha)
  have hnodup' : (addresses (xs ++ m :: ys)).Nodup := by
    simp only [addresses_append, addresses_cons]
    rw [nodup_middle, nodup_cons, mem_append, not_or]
    exact ⟨hm, nodup_append.mpr ⟨hx, hy, hxy⟩⟩
  have hlength : h'.live = (xs ++ m :: ys).length := by
    rw [hlive, hh.live]
    simp [Nat.add_assoc]
  have hlast := (ne_of_notMem hm.1).2
  have hfirst := (ne_of_notMem hm.2).1
  constructor
  · refine Front.join ((hfront.link hx _).backLink hdisjoint _) ⟨?_, ?_⟩ hnodup'
      (by rw [Heap.backLink_live, Heap.link_live, hlength])
    · rw [Heap.backLink_cell hfirst, Heap.link_cell hlast, hcell]
    · exact (hback.link hdisjoint _).backLink hy _
  · refine Front.join ((hfront.backLink hdisjoint _).link hx _) ⟨?_, ?_⟩ hnodup'
      (by rw [Heap.link_live, Heap.backLink_live, hlength])
    · rw [Heap.link_cell hlast, Heap.backLink_cell hfirst, hcell]
    · exact (hback.backLink hy _).link hdisjoint _

section

variable {m : Nat × α} (hh : Holds h (xs ++ m :: ys))
include hh

theorem Holds.cell_eq : h.cell m.1 = some ⟨m.2, first ys none, last xs none⟩ :=
  (seg_append.mp hh.seg).2.1

theorem Holds.next_eq : h.next m.1 = first ys none := by simp [Heap.next, hh.cell_eq]

theorem Holds.prev_eq : h.prev m.1 = last xs none := by simp [Heap.prev, hh.cell_eq]

theorem Holds.val_eq : h.val? m.1 = some m.2 := by simp [Heap.val?, hh.cell_eq]

theorem Holds.shift : Holds h ((xs ++ [m]) ++ ys) := by simpa using hh

theorem Holds.notMem : m.1 ∉ addresses (xs ++ ys) := by
  have hnodup := hh.nodup
  rw [addresses_append, addresses_cons, nodup_middle] at hnodup
  simpa using (nodup_cons.mp hnodup).1

theorem Holds.unlink_eq : h.unlink m.1 =
      (h.link (last xs none) (first ys none)).backLink (first ys none) (last xs none) := by
  have hm := hh.notMem
  simp only [addresses_append, mem_append, not_or] at hm
  have hcell : (h.link (last xs none) (first ys none)).cell m.1 = h.cell m.1 :=
    Heap.link_cell (ne_of_notMem hm.1).2
  simp [Heap.unlink, Heap.next, Heap.prev, hcell, hh.cell_eq]

theorem Holds.remove : Holds ((h.unlink m.1).free m.1) (xs ++ ys) := by
  have hm := hh.notMem
  simp only [addresses_append, mem_append, not_or] at hm
  have hnodup := hh.nodup
  simp only [addresses_append, addresses_cons] at hnodup
  rw [nodup_middle, nodup_cons, nodup_append] at hnodup
  obtain ⟨-, hx, hy, hxy⟩ := hnodup
  have hdisjoint : ∀ a ∈ addresses xs, a ∉ addresses ys := fun a ha hb => hxy a ha a hb rfl
  obtain ⟨hfront, -, hback⟩ := hh.split
  have hunlink := hh.unlink_eq
  have hfree : ∀ a, a ≠ m.1 → ((h.unlink m.1).free m.1).cell a = (h.unlink m.1).cell a :=
    fun a ha => update_of_ne ha ..
  replace hfront : Front (h.unlink m.1) xs (first ys none) := by
    rw [hunlink]
    exact (hfront.link hx _).backLink hdisjoint _
  replace hback : Seg (h.unlink m.1).cell (last xs none) ys none := by
    rw [hunlink]
    exact (hback.link hdisjoint _).backLink hy _
  refine Front.join ⟨hfront.head, hfront.seg.congr ?_⟩ (hback.congr ?_) ?_ ?_
  · rintro a ha
    exact hfree a fun heq => hm.1 (heq ▸ ha)
  · rintro a ha
    exact hfree a fun heq => hm.2 (heq ▸ ha)
  · simpa using nodup_append.mpr ⟨hx, hy, hxy⟩
  · have hlive := hh.live
    simp only [Heap.free, hunlink, Heap.backLink_live, Heap.link_live, hlive, length_append,
      length_cons]
    rfl

theorem Holds.mapVal (f : α → α) : Holds (h.mapVal m.1 f) (xs ++ (m.1, f m.2) :: ys) := by
  have hm := hh.notMem
  simp only [addresses_append, mem_append, not_or] at hm
  have hsame : ∀ a, a ≠ m.1 → (h.mapVal m.1 f).cell a = h.cell a := fun a ha => update_of_ne ha ..
  obtain ⟨hfront, -, hback⟩ := hh.split
  refine Front.join ⟨hfront.head, hfront.seg.congr ?_⟩ ⟨?_, hback.congr ?_⟩ ?_ ?_
  · rintro a ha
    exact hsame a fun heq => hm.1 (heq ▸ ha)
  · simp [Heap.mapVal, Heap.modify, hh.cell_eq]
  · rintro a ha
    exact hsame a fun heq => hm.2 (heq ▸ ha)
  · simpa using hh.nodup
  · exact hh.live.trans (by simp)

end

def Heap.placed (r : Nat) (v : α) (q p : Option Nat) (h : Heap α) : Heap α :=
  ((h.malloc r v).setNext r q).setPrev r p

theorem Heap.placed_cell (r : Nat) (v : α) (q p : Option Nat) (h : Heap α) :
    (h.placed r v q p).cell = update h.cell r (some ⟨v, q, p⟩) := by
  simp [placed, malloc, setNext, setPrev, modify]

section
variable (r : Nat) (v : α)

theorem Holds.placed (hh : Holds h (xs ++ ys)) (hr : r ∉ addresses (xs ++ ys)) :
    Holds (((h.placed r v (first ys none) (last xs none)).link (last xs none) (some r)).backLink
        (first ys none) (some r)) (xs ++ (r, v) :: ys) ∧
      Holds (((h.placed r v (first ys none) (last xs none)).backLink (first ys none)
        (some r)).link (last xs none) (some r)) (xs ++ (r, v) :: ys) := by
  refine hh.insert (m := (r, v)) hr ?_ ?_ rfl rfl
  · simp [Heap.placed_cell]
  · rintro a ha
    rw [Heap.placed_cell, update_of_ne]
    exact fun heq => hr (heq ▸ ha)

theorem Holds.insertAfter (hh : Holds h (xs ++ m :: ys)) (hr : r ∉ addresses (xs ++ m :: ys)) :
    Holds ((h.malloc r v).insertAfter m.1 r) (xs ++ m :: (r, v) :: ys) := by
  have hne : m.1 ≠ r := by
    rintro rfl
    simp at hr
  have hheld := (hh.shift.placed r v (by simpa using hr)).1
  have heq : (h.malloc r v).insertAfter m.1 r =
      (((h.placed r v (first ys none) (some m.1)).link (some m.1) (some r)).backLink
        (first ys none) (some r)) := by
    simp [Heap.insertAfter, Heap.placed, Heap.malloc, Heap.setNext, Heap.setPrev, Heap.modify,
      Heap.next, Heap.link, hh.cell_eq, hne, hne.symm]
  rw [heq]
  simpa using hheld

theorem Holds.insertBefore (hh : Holds h (xs ++ m :: ys)) (hr : r ∉ addresses (xs ++ m :: ys)) :
    Holds ((h.malloc r v).insertBefore m.1 r) (xs ++ (r, v) :: m :: ys) := by
  have hne : m.1 ≠ r := by
    rintro rfl
    simp at hr
  have hheld := (hh.placed r v hr).2
  have heq : (h.malloc r v).insertBefore m.1 r =
      (((h.placed r v (some m.1) (last xs none)).backLink (some m.1) (some r)).link
        (last xs none) (some r)) := by
    simp [Heap.insertBefore, Heap.placed, Heap.malloc, Heap.setNext, Heap.setPrev, Heap.modify,
      Heap.prev, Heap.backLink, hh.cell_eq, hne, hne.symm]
  rw [heq]
  exact hheld

theorem Holds.append (hh : Holds h l) (hr : r ∉ addresses l) :
    Holds ((h.malloc r v).append (last l none) r) (l ++ [(r, v)]) := by
  have hh' : Holds h (l ++ []) := by simpa using hh
  exact (hh'.placed r v (by simpa using hr)).1

end

def trail (step : Nat → Option Nat) : Nat → Option Nat → List Nat
  | 0, _ => []
  | _, none => []
  | n + 1, some p => p :: trail step n (step p)

namespace Heap

def valuesFrom (h : Heap α) : Nat → Option Nat → List α
  | 0, _ => []
  | _, none => []
  | n + 1, some p => (h.val? p).toList ++ h.valuesFrom n (h.next p)

def toList (h : Heap α) : List α := h.valuesFrom h.live h.head

def search (found : α → Bool) (h : Heap α) : Nat → Option Nat → Option Nat
  | 0, _ => none
  | _, none => none
  | n + 1, some p => if (h.val? p).any found then some p else h.search found n (h.next p)

def store : List α → Option Nat → Heap α → Heap α
  | v :: vs, some p, h => store vs (h.next p) (h.mapVal p fun _ => v)
  | _, _, h => h

/-- Update each cell from `p` on, and unlink and free it if `cond` then holds of its value. -/
def sweep (f : α → α) (cond : α → Bool) : Nat → Option Nat → Heap α → Heap α
  | n + 1, some p, h =>
    let h := h.mapVal p f
    if (h.val? p).any cond then sweep f cond n (h.next p) ((h.unlink p).free p)
    else sweep f cond n (h.next p) h
  | _, _, h => h

end Heap

theorem Holds.trail_next (hh : Holds h (xs ++ ys)) (hn : ys.length ≤ n) :
    trail h.next n (first ys none) = addresses ys := by
  induction ys generalizing xs n with
  | nil => cases n <;> rfl
  | cons m ys ih =>
    obtain ⟨n, rfl⟩ : ∃ k, n = k + 1 := ⟨n - 1, by simp at hn; omega⟩
    simp [trail, hh.next_eq, ih hh.shift (Nat.le_of_succ_le_succ hn)]

theorem Holds.trail_prev (hh : Holds h (xs ++ ys)) (hn : xs.length ≤ n) :
    trail h.prev n (last xs none) = (addresses xs).reverse := by
  induction xs using List.reverseRecOn generalizing ys n with
  | nil => cases n <;> rfl
  | append_singleton xs m ih =>
    obtain ⟨n, rfl⟩ : ∃ k, n = k + 1 := ⟨n - 1, by simp at hn; omega⟩
    rw [append_assoc] at hh
    simp only [last_append, last_cons, last_nil, trail, addresses_append, addresses_cons,
      addresses_nil, reverse_append, reverse_cons, reverse_nil, nil_append,
      singleton_append, List.cons.injEq, true_and]
    rw [hh.prev_eq]
    exact ih hh (by simpa using hn)

theorem Holds.valuesFrom (hh : Holds h (xs ++ ys)) (hn : ys.length ≤ n) :
    h.valuesFrom n (first ys none) = values ys := by
  induction ys generalizing xs n with
  | nil => cases n <;> rfl
  | cons m ys ih =>
    obtain ⟨n, rfl⟩ : ∃ k, n = k + 1 := ⟨n - 1, by simp at hn; omega⟩
    simp [Heap.valuesFrom, hh.val_eq, hh.next_eq, ih hh.shift (Nat.le_of_succ_le_succ hn)]

theorem Holds.toList (hh : Holds h l) : h.toList = values l := by
  have hh' : Holds h ([] ++ l) := hh
  rw [Heap.toList, hh.head]
  exact hh'.valuesFrom (Nat.le_of_eq hh.live.symm)

theorem Holds.search (hh : Holds h (xs ++ ys)) (hn : ys.length ≤ n) (found : α → Bool) :
    (∀ m ∈ ys, found m.2 = false) ∧ h.search found n (first ys none) = none ∨
      ∃ ys₁ m ys₂, ys = ys₁ ++ m :: ys₂ ∧ (∀ m ∈ ys₁, found m.2 = false) ∧ found m.2 = true ∧
        h.search found n (first ys none) = some m.1 := by
  induction ys generalizing xs n with
  | nil => exact .inl ⟨nofun, by cases n <;> rfl⟩
  | cons m ys ih =>
    obtain ⟨n, rfl⟩ : ∃ k, n = k + 1 := ⟨n - 1, by simp at hn; omega⟩
    cases hm : found m.2 with
    | true => exact .inr ⟨[], m, ys, rfl, nofun, hm, by simp [Heap.search, hh.val_eq, hm]⟩
    | false =>
      have hrest := ih hh.shift (Nat.le_of_succ_le_succ hn)
      have hstep : h.search found (n + 1) (first (m :: ys) none) =
          h.search found n (first ys none) := by
        simp [Heap.search, hh.val_eq, hm, hh.next_eq]
      rw [hstep]
      rcases hrest with ⟨hnone, hsearch⟩ | ⟨ys₁, m', ys₂, rfl, hys, hm', hsearch⟩
      · exact .inl ⟨forall_mem_cons.mpr ⟨hm, hnone⟩, hsearch⟩
      · exact .inr 
          ⟨m :: ys₁, m', ys₂, rfl, forall_mem_cons.mpr ⟨hm, hys⟩, hm', hsearch⟩

theorem Holds.store (hh : Holds h (xs ++ ys)) (hlength : vs.length = ys.length) :
    ∃ ys', Holds (h.store vs (first ys none)) (xs ++ ys') ∧ values ys' = vs := by
  induction ys generalizing xs vs h with
  | nil =>
    obtain rfl := length_eq_zero_iff.mp hlength
    exact ⟨[], hh, rfl⟩
  | cons m ys ih =>
    obtain ⟨v, vs, rfl⟩ := exists_cons_of_length_eq_add_one hlength
    obtain ⟨ys', hheld, hvalues⟩ := ih (hh.mapVal fun _ => v).shift (Nat.succ.inj hlength)
    refine ⟨(m.1, v) :: ys', ?_, by simp [hvalues]⟩
    simpa [Heap.store, hh.next_eq] using hheld

theorem Holds.sweep (hh : Holds h (xs ++ ys)) (hn : ys.length ≤ n) (f : α → α) (cond : α → Bool) :
    ∃ ys', Holds (h.sweep f cond n (first ys none)) (xs ++ ys') ∧
      values ys' = ((values ys).map f).filter fun v => !cond v := by
  induction ys generalizing xs n h with
  | nil => exact ⟨[], by cases n <;> exact hh, rfl⟩
  | cons m ys ih =>
    obtain ⟨n, rfl⟩ : ∃ k, n = k + 1 := ⟨n - 1, by simp at hn; omega⟩
    replace hn : ys.length ≤ n := Nat.le_of_succ_le_succ hn
    have hset := hh.mapVal f
    simp only [first_cons, Heap.sweep, hset.val_eq, hset.next_eq, Option.any_some]
    cases hcond : cond (f m.2) with
    | true =>
      obtain ⟨ys', hheld, hvalues⟩ := ih hset.remove hn
      exact ⟨ys', hheld, by simp [hvalues, hcond]⟩
    | false =>
      obtain ⟨ys', hheld, hvalues⟩ := ih hset.shift hn
      exact ⟨(m.1, f m.2) :: ys', by simpa using hheld, by simp [hvalues, hcond]⟩

end

/-! ## Ordered doubly linked lists -/

variable {α : Type}

def Keeps (h : Heap α) (vs : List α) : Prop := ∃ l, Holds h l ∧ values l = vs

def Heap.pass (f : α → α) (cond : α → Bool) (h : Heap α) : Heap α := h.sweep f cond h.live h.head

/-- `next` from the head and `prev` from the last cell visit the same cells, each of them once, and
these hold `vs` in order. -/
def LinksUp (h : Heap α) (vs : List α) : Prop :=
  ∃ forward : List Nat,
    (∀ n, forward.length ≤ n →
      trail h.next n h.head = forward ∧ trail h.prev n forward.getLast? = forward.reverse) ∧
    forward.Nodup ∧ forward.map h.val? = vs.map some

section
variable {h : Heap α} {vs : List α}

theorem keeps_empty : Keeps (Heap.empty : Heap α) [] := ⟨[], holds_empty, rfl⟩

section

variable (hh : Keeps h vs)
include hh

theorem Keeps.toList : h.toList = vs := by
  obtain ⟨l, hh, rfl⟩ := hh
  exact hh.toList

theorem Keeps.linksUp : LinksUp h vs := by
  obtain ⟨l, hh, rfl⟩ := hh
  have hval : ∀ m ∈ l, h.val? m.1 = some m.2 := by
    rintro m hm
    obtain ⟨xs, ys, rfl⟩ := List.append_of_mem hm
    exact hh.val_eq
  have hh₀ : Holds h ([] ++ l) := hh
  have hh₁ : Holds h (l ++ []) := by simpa using hh
  refine ⟨addresses l, fun n hn => ⟨?_, ?_⟩, hh.nodup, ?_⟩
  · rw [hh.head]
    exact hh₀.trail_next (by simpa [addresses] using hn)
  · rw [← last_eq_getLast?]
    exact hh₁.trail_prev (by simpa [addresses] using hn)
  · simpa [addresses, values] using hval

theorem Keeps.pass (f : α → α) (cond : α → Bool) :
    Keeps (h.pass f cond) ((vs.map f).filter fun a => !cond a) := by
  obtain ⟨l, hh, rfl⟩ := hh
  have hh' : Holds h ([] ++ l) := hh
  obtain ⟨l', hheld, hvalues⟩ := hh'.sweep (Nat.le_of_eq hh.live.symm) f cond
  rw [← hh.head] at hheld
  exact ⟨l', hheld, hvalues⟩

theorem Keeps.passOver (f : α → α) : Keeps (h.pass f fun _ => false) (vs.map f) := by
  have hpass := hh.pass f fun _ => false
  simp only [Bool.not_false, List.filter_true] at hpass
  exact hpass

theorem Keeps.store (hlength : vs'.length = vs.length) : Keeps (h.store vs' h.head) vs' := by
  obtain ⟨l, hh, rfl⟩ := hh
  have hh' : Holds h ([] ++ l) := hh
  obtain ⟨l', hheld, hvalues⟩ := hh'.store (by simpa [values] using hlength)
  rw [← hh.head] at hheld
  exact ⟨l', hheld, hvalues⟩

end

end

/-- Insertion in front of those of its group that are not below it; the first of its group is
appended. -/
def addOrdered (same below : α → α → Bool) (v : α) : List α → List α
  | [] => [v]
  | a :: l =>
    if same v a then
      if below a v then
        if l.head?.any (same v) then a :: addOrdered same below v l else a :: v :: l
      else v :: a :: l
    else a :: addOrdered same below v l

/-- The search for the place of the new cell `r` with the value `v`, from `p` on; `tail` is where
the list ends. -/
def Heap.addLoop (same below : α → α → Bool) (r : Nat) (v : α) :
    Nat → Option Nat → Option Nat → Heap α → Heap α
  | n + 1, some p, tail, h =>
    match h.val? p with
    | none => h
    | some a =>
      if same v a then
        if below a v then
          match h.next p with
          | some q =>
            if (h.val? q).any (same v) then addLoop same below r v n (some q) tail h
            else h.insertAfter p r
          | none => h.insertAfter p r
        else h.insertBefore p r
      else addLoop same below r v n (h.next p) (some p) h
  | _, _, tail, h => h.append tail r

theorem Heap.malloc_apart {h : Heap α} (hne : p ≠ r) :
    (h.malloc r v).val? p = h.val? p ∧ (h.malloc r v).next p = h.next p := by
  simp [Heap.malloc, Heap.val?, Heap.next, hne]

section
variable {same below : α → α → Bool} {h : Heap α} {v : α}

theorem Holds.addLoop (hh : Holds h (xs ++ ys)) (hr : r ∉ addresses (xs ++ ys))
    (hn : ys.length ≤ n) (htail : ys = [] → tail = last xs none) : ∃ zs ws, ys = zs ++ ws ∧
      Holds ((h.malloc r v).addLoop same below r v n (first ys none) tail)
        (xs ++ zs ++ (r, v) :: ws) ∧
      values (zs ++ (r, v) :: ws) = addOrdered same below v (values ys) := by
  induction ys generalizing xs n tail with
  | nil =>
    obtain rfl := htail rfl
    refine ⟨[], [], rfl, ?_, rfl⟩
    cases n <;> simpa [Heap.addLoop] using hh.append r v hr
  | cons m ys ih =>
    obtain ⟨n, rfl⟩ : ∃ k, n = k + 1 := ⟨n - 1, by simp at hn; omega⟩
    replace hn : ys.length ≤ n := Nat.le_of_succ_le_succ hn
    have hne : m.1 ≠ r := by
      rintro rfl
      simp at hr
    obtain ⟨hval, hnext⟩ := Heap.malloc_apart (h := h) (v := v) hne
    rw [hh.val_eq] at hval
    rw [hh.next_eq] at hnext
    have hr' : r ∉ addresses ((xs ++ [m]) ++ ys) := by simpa using hr
    -- the loop goes on behind `m`
    have hgo : ∀ tail', (ys = [] → tail' = last (xs ++ [m]) none) → ∃ zs ws, m :: ys = zs ++ ws ∧
        Holds ((h.malloc r v).addLoop same below r v n (first ys none) tail')
          (xs ++ zs ++ (r, v) :: ws) ∧
        values (zs ++ (r, v) :: ws) = m.2 :: addOrdered same below v (values ys) := by
      intro tail' hkept
      obtain ⟨zs, ws, rfl, hheld, hvalues⟩ := ih hh.shift hr' hn hkept
      exact ⟨m :: zs, ws, rfl, by simpa using hheld, by simpa using hvalues⟩
    simp only [first_cons, Heap.addLoop, hval, hnext, values_cons, addOrdered]
    cases hsame : same v m.2 with
    | false =>
      obtain ⟨zs, ws, heq, hheld, hvalues⟩ := hgo (some m.1) (by simp)
      exact ⟨zs, ws, heq, by simpa using hheld, by simpa using hvalues⟩
    | true =>
      cases hbelow : below m.2 v with
      | false => exact ⟨[], m :: ys, rfl, by simpa using hh.insertBefore r v hr, by simp⟩
      | true =>
        have hafter := hh.insertAfter r v hr
        cases ys with
        | nil => exact ⟨[m], [], rfl, by simpa using hafter, by simp⟩
        | cons b ys =>
          have hb : b.1 ≠ r := by
            rintro rfl
            simp at hr
          obtain ⟨hval', -⟩ := Heap.malloc_apart (h := h) (v := v) hb
          rw [hh.shift.val_eq] at hval'
          cases hgroup : same v b.2 with
          | true =>
            obtain ⟨zs, ws, heq, hheld, hvalues⟩ := hgo tail nofun
            refine ⟨zs, ws, heq, ?_, ?_⟩
            · simpa [hval', hgroup] using hheld
            · simpa [hgroup] using hvalues
          | false =>
            refine ⟨[m], b :: ys, rfl, ?_, ?_⟩
            · simpa [hval', hgroup] using hafter
            · simp [hgroup]

/-- The first cell found, with its value merged, or a new cell at `r`. -/
def Heap.searchOrAdd (same below : α → α → Bool) (found : α → Bool) (merge : α → α) (r : Nat)
    (v : α) (h : Heap α) : Nat × Heap α :=
  match h.search found h.live h.head with
  | some p => (p, h.mapVal p merge)
  | none => (r, (h.malloc r v).addLoop same below r v h.live h.head h.head)

/-- The cell found or added is updated, and freed if `cond` then holds of its value. -/
def Heap.revise (same below : α → α → Bool) (found : α → Bool) (merge step : α → α)
    (cond : α → Bool) (r : Nat) (v : α) (h : Heap α) : Heap α :=
  let (p, h) := h.searchOrAdd same below found merge r v
  let h := h.mapVal p step
  if (h.val? p).any cond then (h.unlink p).free p else h

/-- The list with `v` added, or merged into the first member found. -/
def mergeOrAdd (same below : α → α → Bool) (found : α → Bool) (merge : α → α) (v : α)
    (l : List α) : List α :=
  if l.any found then updateFirst found merge l else addOrdered same below v l

variable {found : α → Bool}

theorem Keeps.searchOrAdd (hh : Keeps h vs) (same below : α → α → Bool)
    {merge : α → α} (hr : r ∉ trail h.next h.live h.head) (hv : found v = true)
    (hmerge : ∀ a, found a = true → found (merge a) = true) :
    ∃ l₁ a l₂, Holds (h.searchOrAdd same below found merge r v).2
        (l₁ ++ ((h.searchOrAdd same below found merge r v).1, a) :: l₂) ∧
      values l₁ ++ a :: values l₂ = mergeOrAdd same below found merge v vs ∧
      (∀ b ∈ values l₁, found b = false) ∧ found a = true := by
  obtain ⟨l, hh, rfl⟩ := hh
  have hh' : Holds h ([] ++ l) := hh
  have hlive := Nat.le_of_eq hh.live.symm
  have hmem : ∀ {l : List (Nat × α)}, (∀ m ∈ l, found m.2 = false) →
      ∀ b ∈ values l, found b = false := by
    intro l hl b hb
    obtain ⟨m, hm, rfl⟩ := List.mem_map.mp hb
    exact hl m hm
  have hsearch := hh'.search hlive found
  rw [← hh.head] at hsearch
  rcases hsearch with ⟨hnone, hsearch⟩ | ⟨l₁, m, l₂, rfl, hl₁, hm, hsearch⟩
  · have hplace : r ∉ addresses ([] ++ l) := by
      rw [hh.head, hh'.trail_next hlive] at hr
      exact hr
    have htail : l = [] → h.head = none := by
      rintro rfl
      exact hh.head
    obtain ⟨l₁, l₂, rfl, hheld, hvalues⟩ := hh'.addLoop (v := v) hplace hlive htail
    rw [← hh.head] at hheld
    have hothers := hmem hnone
    refine ⟨l₁, v, l₂, by simpa [Heap.searchOrAdd, hsearch] using hheld, ?_, ?_, hv⟩
    · have hany : (values (l₁ ++ l₂)).any found = false :=
        List.any_eq_false.mpr fun b hb => Bool.eq_false_iff.mp (hothers b hb)
      rw [mergeOrAdd, hany]
      simpa using hvalues
    · exact fun b hb => hothers b (by simp [hb])
  · refine ⟨l₁, merge m.2, l₂, by simpa [Heap.searchOrAdd, hsearch] using hh.mapVal merge, ?_,
      hmem hl₁, hmerge _ hm⟩
    have hany : (values (l₁ ++ m :: l₂)).any found = true := List.any_eq_true.mpr ⟨m.2, by simp, hm⟩
    rw [mergeOrAdd, if_pos hany, values_append, values_cons, updateFirst_append (hmem hl₁) hm]

theorem Keeps.revise (hh : Keeps h vs) (same below : α → α → Bool) (cond : α → Bool)
    {merge step : α → α} (hr : r ∉ trail h.next h.live h.head) (hv : found v = true)
    (hmerge : ∀ a, found a = true → found (merge a) = true)
    (hstep : ∀ a, found a = true → found (step a) = true) :
    Keeps (h.revise same below found merge step cond r v)
      (let l := updateFirst found step (mergeOrAdd same below found merge v vs)
       if (l.find? found).any cond then removeFirst found l else l) := by
  obtain ⟨l₁, a, l₂, hheld, hlist, hothers, hfound⟩ := hh.searchOrAdd same below hr hv hmerge
  have hstepped := hheld.mapVal step
  have hfind : (values l₁ ++ step a :: values l₂).find? found = some (step a) := by
    refine List.find?_eq_some_iff_append.mpr ⟨hstep a hfound, _, _, rfl, fun b hb => ?_⟩
    simp [hothers b hb]
  simp only [Heap.revise, ← hlist, updateFirst_append hothers hfound, hfind,
    removeFirst_append hothers (hstep a hfound), hstepped.val_eq, Option.any_some]
  split
  · exact ⟨_, hstepped.remove, by simp⟩
  · exact ⟨_, hstepped, by simp⟩

end

end OpenAvb.Linked
