import Mathlib.Data.List.Nodup
import Mathlib.Data.List.Basic
import Mathlib.Order.Lattice

/-!
# Lists whose members are found by a key

A linked list that is searched by key from its head, updated and cut at the
first match. As long as no key occurs twice, the member with a key is a
function of the key that every operation acts on pointwise.
-/

namespace OpenAvb

section

open List

variable {α κ : Type}

def updateFirst (p : α → Bool) (f : α → α) : List α → List α
  | [] => []
  | a :: rest => if p a then f a :: rest else a :: updateFirst p f rest

def removeFirst (p : α → Bool) : List α → List α
  | [] => []
  | a :: rest => if p a then rest else a :: removeFirst p rest

variable {p : α → Bool}

theorem map_key_updateFirst {key : α → κ} {f : α → α} (hf : ∀ a, p a → key (f a) = key a) :
    (updateFirst p f l).map key = l.map key := by
  induction l with
  | nil => rfl
  | cons a l ih =>
    rw [updateFirst]
    split
    case isTrue h => rw [map_cons, map_cons, hf a h]
    case isFalse => rw [map_cons, map_cons, ih]

theorem removeFirst_sublist : (removeFirst p l).Sublist l := by
  induction l with
  | nil => exact .refl _
  | cons a l ih =>
    rw [removeFirst]
    split
    · exact sublist_cons_self a l
    · exact ih.cons_cons a

theorem mem_updateFirst {f : α → α} (h : b ∈ updateFirst p f l) :
    b ∈ l ∨ ∃ a, l.find? p = some a ∧ b = f a := by
  induction l with
  | nil => cases h
  | cons a l ih =>
    rw [updateFirst] at h
    rw [find?_cons]
    cases ha : p a with
    | true =>
      rw [ha, if_pos rfl] at h
      rcases mem_cons.mp h with rfl | h
      · exact .inr ⟨a, rfl, rfl⟩
      · exact .inl (mem_cons_of_mem a h)
    | false =>
      rw [ha, if_neg Bool.false_ne_true] at h
      rcases mem_cons.mp h with rfl | h
      · exact .inl mem_cons_self
      · exact (ih h).imp (mem_cons_of_mem a) id

theorem find?_cases (p : α → Bool) (l : List α) : (∀ a ∈ l, p a = false) ∧ l.find? p = none ∨
      ∃ l₁ a l₂, l = l₁ ++ a :: l₂ ∧ (∀ b ∈ l₁, p b = false) ∧ p a = true ∧ l.find? p = some a := by
  cases h : l.find? p with
  | none => exact .inl ⟨by simpa using h, rfl⟩
  | some a =>
    obtain ⟨ha, l₁, l₂, rfl, hl₁⟩ := find?_eq_some_iff_append.mp h
    exact .inr ⟨l₁, a, l₂, rfl, by simpa using hl₁, ha, rfl⟩

theorem removeFirst_append (hl : ∀ b ∈ l₁, p b = false) (ha : p a = true) :
    removeFirst p (l₁ ++ a :: l₂) = l₁ ++ l₂ := by
  induction l₁ with
  | nil => simp [removeFirst, ha]
  | cons b l₁ ih =>
    obtain ⟨hb, hl⟩ := forall_mem_cons.mp hl
    simp [removeFirst, hb, ih hl]

theorem updateFirst_append {f : α → α} (hl : ∀ b ∈ l₁, p b = false)
    (ha : p a = true) : updateFirst p f (l₁ ++ a :: l₂) = l₁ ++ f a :: l₂ := by
  induction l₁ with
  | nil => simp [updateFirst, ha]
  | cons b l₁ ih =>
    obtain ⟨hb, hl⟩ := forall_mem_cons.mp hl
    simp [updateFirst, hb, ih hl]

theorem removeFirst_of_none (hl : ∀ a ∈ l, p a = false) : removeFirst p l = l := by
  induction l with
  | nil => rfl
  | cons a l ih =>
    obtain ⟨ha, hl⟩ := forall_mem_cons.mp hl
    simp [removeFirst, ha, ih hl]

theorem removeFirst_eq_eraseIdx (p : α → Bool) (l : List α) :
    removeFirst p l = l.eraseIdx (l.findIdx p) := by
  induction l with
  | nil => rfl
  | cons a l ih =>
    rw [removeFirst, findIdx_cons]
    cases p a with
    | true => rfl
    | false => simp [ih]

theorem mem_removeFirst (ha : p a = false) (h : a ∈ l) : a ∈ removeFirst p l := by
  induction h with
  | head l => simp [removeFirst, ha]
  | tail b _ ih =>
    rw [removeFirst]
    split
    · assumption
    · exact mem_cons_of_mem b ih

theorem map_removeFirst {f : α → κ} {q : κ → Bool} (hq : ∀ a, p a = q (f a)) :
    (removeFirst p l).map f = removeFirst q (l.map f) := by
  induction l with
  | nil => rfl
  | cons a l ih =>
    rw [map_cons, removeFirst, removeFirst, hq]
    split
    · rfl
    · rw [map_cons, ih]

variable [DecidableEq κ] {key : α → κ}

def entry (key : α → κ) (k : κ) (l : List α) : Option α := l.find? fun a => key a = k

def UniqueKeys (key : α → κ) (l : List α) : Prop := (l.map key).Nodup

theorem entry_cons : entry key k (a :: l) = if key a = k then some a else entry key k l := by
  by_cases h : key a = k <;> simp [entry, h]

theorem key_entry (h : entry key k l = some a) : key a = k := by simpa using find?_some h

theorem entry_eq_none : entry key k l = none ↔ ∀ a ∈ l, key a ≠ k := by simp [entry]

theorem entry_eq_some (hn : UniqueKeys key l) : entry key k l = some a ↔ a ∈ l ∧ key a = k := by
  constructor
  · intro h
    exact ⟨mem_of_find?_eq_some h, key_entry h⟩
  · rintro ⟨ha, rfl⟩
    cases h : entry key (key a) l with
    | none => exact absurd rfl (entry_eq_none.mp h a ha)
    | some b => rw [inj_on_of_nodup_map hn (mem_of_find?_eq_some h) ha (key_entry h)]

theorem entry_of_perm (hn : UniqueKeys key l) (hp : l.Perm l') :
    entry key k l = entry key k l' := by
  have hn' : UniqueKeys key l' := (hp.map key).nodup_iff.mp hn
  refine Option.ext fun a => ?_
  rw [entry_eq_some hn, entry_eq_some hn', hp.mem_iff]

theorem entry_map {f : α → α} (hf : ∀ a, key (f a) = key a) :
    entry key k (l.map f) = (entry key k l).map f := by
  induction l with
  | nil => rfl
  | cons a l ih =>
    rw [map_cons, entry_cons, entry_cons, hf]
    split
    · rfl
    · exact ih

theorem entry_filter (hn : UniqueKeys key l) (p : α → Bool) :
    entry key k (l.filter p) = (entry key k l).filter p := by
  have hn' : UniqueKeys key (l.filter p) := hn.sublist (filter_sublist.map key)
  refine Option.ext fun a => ?_
  rw [entry_eq_some hn', Option.filter_eq_some_iff, entry_eq_some hn, mem_filter]
  exact and_right_comm

theorem entry_updateFirst {f : α → α} (hf : ∀ a, key a = j → key (f a) = j) :
    entry key k (updateFirst (fun a => key a = j) f l) =
      if k = j then (entry key k l).map f else entry key k l := by
  induction l with
  | nil => simp [updateFirst, entry]
  | cons a l ih =>
    by_cases ha : key a = j
    · by_cases hk : k = j
      · subst hk
        simp [updateFirst, entry_cons, ha, hf a ha]
      · simp [updateFirst, entry_cons, ha, hf a ha, hk, Ne.symm hk]
    · by_cases hak : key a = k
      · have hkj : k ≠ j := hak ▸ ha
        simp [updateFirst, entry_cons, hak, hkj]
      · simp [updateFirst, entry_cons, ha, hak, ih]

theorem entry_removeFirst (hn : UniqueKeys key l) :
    entry key k (removeFirst (fun a => key a = j) l) = if k = j then none else entry key k l := by
  induction l with
  | nil => simp [removeFirst, entry]
  | cons a l ih =>
    obtain ⟨ha, hl⟩ := nodup_cons.mp hn
    by_cases haj : key a = j
    · simp only [removeFirst, haj, decide_true, if_true, entry_cons]
      by_cases hk : k = j
      · rw [if_pos hk, entry_eq_none]
        intro b hb hbk
        exact ha (mem_map.mpr ⟨b, hb, by rw [hbk, hk, haj]⟩)
      · rw [if_neg hk, if_neg (Ne.symm hk)]
    · simp only [removeFirst, haj, decide_false, Bool.false_eq_true, if_false, entry_cons, ih hl]
      by_cases hak : key a = k
      · simp [hak, show k ≠ j from hak ▸ haj]
      · simp [hak]

end

/-! ## Lists in groups -/

open List

variable {τ κ : Type}

def Contiguous (ts : List τ) : Prop := ∀ t u, [t, u, t].Sublist ts → u = t

theorem Contiguous.sublist (h : Contiguous ts) (hs : ts'.Sublist ts) : Contiguous ts' :=
  fun t u hsub => h t u (hsub.trans hs)

theorem contiguous_cons {t : τ} :
    Contiguous (t :: ts) ↔ (t ∈ ts → ts.head? = some t) ∧ Contiguous ts := by
  constructor
  · intro h
    refine ⟨fun ht => ?_, h.sublist (sublist_cons_self t ts)⟩
    cases ts with
    | nil => cases ht
    | cons u ts =>
      rcases mem_cons.mp ht with rfl | ht
      · rfl
      · have hsub : [t, u, t].Sublist (t :: u :: ts) :=
          ((singleton_sublist.mpr ht).cons_cons u).cons_cons t
        rw [h t u hsub, head?_cons]
  · rintro ⟨hhead, h⟩ t' u hsub
    rcases sublist_cons_iff.mp hsub with hsub | ⟨r, hr, hsub⟩
    · exact h t' u hsub
    · obtain ⟨rfl, rfl⟩ := List.cons.inj hr
      have ht : t' ∈ ts := hsub.subset (by simp)
      obtain ⟨ts, rfl⟩ : ∃ ts', ts = t' :: ts' := head?_eq_some_iff.mp (hhead ht)
      rcases sublist_cons_iff.mp hsub with hsub | ⟨r, hr, -⟩
      · exact h t' u (hsub.cons_cons t')
      · exact (List.cons.inj hr).1

theorem Contiguous.double {xs ys : List τ} (h : Contiguous (xs ++ t :: ys)) :
    Contiguous (xs ++ t :: t :: ys) := by
  induction xs with
  | nil => exact contiguous_cons.mpr ⟨fun _ => rfl, h⟩
  | cons x xs ih =>
    obtain ⟨hhead, h⟩ := contiguous_cons.mp h
    refine contiguous_cons.mpr ⟨fun hx => ?_, ih h⟩
    have hx' : x ∈ xs ++ t :: ys := by simpa using hx
    cases xs <;> simpa using hhead hx'

theorem Contiguous.insert {xs ys : List τ} (h : Contiguous (xs ++ ys)) (ht : t ∉ xs ++ ys)
    (hcut : ∀ u ∈ xs, u ∉ ys) : Contiguous (xs ++ t :: ys) := by
  induction xs with
  | nil => exact contiguous_cons.mpr ⟨fun hy => absurd hy ht, h⟩
  | cons x xs ih =>
    obtain ⟨hhead, h⟩ := contiguous_cons.mp h
    simp only [cons_append, mem_cons, not_or] at ht
    obtain ⟨hxy, hcut⟩ := forall_mem_cons.mp hcut
    refine contiguous_cons.mpr ⟨fun hx => ?_, ih h ht.2 hcut⟩
    have hx' : x ∈ xs ++ ys := by
      rcases mem_append.mp hx with hx | hx
      · exact mem_append_left ys hx
      · rcases mem_cons.mp hx with rfl | hx
        · exact absurd rfl ht.1
        · exact absurd hx hxy
    cases xs with
    | nil => exact absurd (by simpa using hx') hxy
    | cons y xs => exact hhead hx'

variable [LinearOrder κ] {l xs ys : List (τ × κ)} {x m : τ × κ}

structure Grouped (l : List (τ × κ)) : Prop where
  contiguous : Contiguous (l.map Prod.fst)
  increasing : l.Pairwise fun x y => x.1 = y.1 → x.2 < y.2

theorem grouped_nil : Grouped ([] : List (τ × κ)) := ⟨nofun, .nil⟩

theorem Grouped.sublist (h : Grouped l) (hs : l'.Sublist l) : Grouped l' :=
  ⟨h.contiguous.sublist (hs.map _), h.increasing.sublist hs⟩

theorem Grouped.cut (h : Grouped (xs ++ m :: ys)) : Grouped (xs ++ ys) :=
  h.sublist ((sublist_cons_self m ys).append_left xs)

theorem Grouped.eq_of_between (h : Grouped (xs ++ m :: ys)) (hx : t ∈ xs.map Prod.fst)
    (hy : t ∈ ys.map Prod.fst) : m.1 = t := by
  refine h.contiguous t m.1 ?_
  rw [map_append, map_cons]
  exact (singleton_sublist.mpr hx).append ((singleton_sublist.mpr hy).cons_cons m.1)

theorem Grouped.increasing_insert (h : Grouped (xs ++ ys)) (hx : ∀ x ∈ xs, x.1 = m.1 → x.2 < m.2)
    (hy : ∀ y ∈ ys, m.1 = y.1 → m.2 < y.2) :
    (xs ++ m :: ys).Pairwise fun x y => x.1 = y.1 → x.2 < y.2 := by
  obtain ⟨hxs, hys, hxy⟩ := pairwise_append.mp h.increasing
  refine pairwise_append.mpr ⟨hxs, pairwise_cons.mpr ⟨hy, hys⟩, fun x hx' y hy' => ?_⟩
  rcases mem_cons.mp hy' with rfl | hy'
  · exact hx x hx'
  · exact hxy x hx' y hy'

variable [DecidableEq τ]

def insertGroup (x : τ × κ) : List (τ × κ) → List (τ × κ)
  | [] => [x]
  | y :: l =>
    if x.1 = y.1 then
      if y.2 < x.2 then
        if l.head?.any fun z => x.1 = z.1 then y :: insertGroup x l else y :: x :: l
      else x :: y :: l
    else y :: insertGroup x l

theorem insertGroup_perm (x : τ × κ) (l : List (τ × κ)) : (insertGroup x l).Perm (x :: l) := by
  induction l with
  | nil => exact .refl _
  | cons y l ih =>
    have hgo : (y :: insertGroup x l).Perm (x :: y :: l) := (ih.cons y).trans (.swap x y l)
    simp only [insertGroup]
    repeat' split
    · exact hgo
    · exact .swap x y l
    · exact .refl _
    · exact hgo

theorem head_insertGroup (x y : τ × κ) (l : List (τ × κ)) :
    ((insertGroup x (y :: l)).map Prod.fst).head? = some y.1 := by
  simp only [insertGroup]
  repeat' split
  all_goals simp_all

theorem Grouped.insertGroup (h : Grouped l) (hx : x ∉ l) : Grouped (insertGroup x l) := by
  induction l with
  | nil => exact ⟨contiguous_cons.mpr ⟨nofun, grouped_nil.contiguous⟩, pairwise_singleton ..⟩
  | cons y l ih =>
    obtain ⟨hhead, hcont⟩ := contiguous_cons.mp h.contiguous
    obtain ⟨hy, hinc⟩ := pairwise_cons.mp h.increasing
    obtain ⟨hxy, hxl⟩ : x ≠ y ∧ x ∉ l := by simpa using hx
    -- the new member goes somewhere behind `y`
    have hgo (hsame : x.1 = y.1 → y.2 < x.2 ∧ (l.map Prod.fst).head? = some x.1) :
        Grouped (y :: OpenAvb.insertGroup x l) := by
      have hperm := insertGroup_perm x l
      obtain ⟨hcont', hinc'⟩ := ih ⟨hcont, hinc⟩ hxl
      refine ⟨contiguous_cons.mpr ⟨fun hmem => ?_, hcont'⟩, pairwise_cons.mpr ⟨?_, hinc'⟩⟩
      · have hkind : (l.map Prod.fst).head? = some y.1 := by
          rcases mem_cons.mp ((hperm.map Prod.fst).mem_iff.mp hmem) with heq | hmem
          · rw [heq]
            exact (hsame heq.symm).2
          · exact hhead hmem
        cases l with
        | nil => cases hkind
        | cons z l =>
          rw [head_insertGroup]
          exact hkind
      · intro z hz heq
        rcases mem_cons.mp (hperm.mem_iff.mp hz) with rfl | hz
        · exact (hsame heq.symm).1
        · exact hy z hz heq
    simp only [OpenAvb.insertGroup]
    by_cases hkind : x.1 = y.1
    · rw [if_pos hkind]
      by_cases hlt : y.2 < x.2
      · rw [if_pos hlt]
        by_cases hnext : (l.head?.any fun z => x.1 = z.1) = true
        · rw [if_pos hnext]
          refine hgo fun _ => ⟨hlt, ?_⟩
          cases l with
          | nil => cases hnext
          | cons z l => simpa [eq_comm] using hnext
        · -- the group of `y` ends here
          rw [if_neg hnext]
          have hend : x.1 ∉ l.map Prod.fst := by
            intro hmem
            have hz := hhead (hkind ▸ hmem)
            cases l with
            | nil => cases hmem
            | cons z l => simp_all
          refine ⟨?_, ?_⟩
          · refine contiguous_cons.mpr ⟨fun _ => by simp [hkind], ?_⟩
            exact contiguous_cons.mpr ⟨fun hmem => absurd hmem hend, hcont⟩
          · refine pairwise_cons.mpr ⟨?_, pairwise_cons.mpr ⟨?_, hinc⟩⟩
            · rintro z hz heq
              rcases mem_cons.mp hz with rfl | hz
              · exact hlt
              · exact hy z hz heq
            · rintro z hz heq
              exact absurd (heq ▸ mem_map_of_mem hz) hend
      · rw [if_neg hlt]
        have hlt' : x.2 < y.2 := by
          refine lt_of_le_of_ne (not_lt.mp hlt) fun heq => hxy ?_
          exact Prod.ext hkind heq
        refine ⟨contiguous_cons.mpr ⟨fun _ => by simp [hkind], h.contiguous⟩, ?_⟩
        refine pairwise_cons.mpr ⟨?_, h.increasing⟩
        rintro z hz heq
        rcases mem_cons.mp hz with rfl | hz
        · exact hlt'
        · exact hlt'.trans (hy z hz (hkind ▸ heq))
    · rw [if_neg hkind]
      exact hgo fun heq => absurd heq hkind

/-- The member `m` between `xs` and `ys` may be given the kind `t`: it has it, or it stands at an
end of its group and no other has it, or it stands in order next to the group of that kind. -/
def Borders (t : τ) (xs : List (τ × κ)) (m : τ × κ) (ys : List (τ × κ)) : Prop :=
  t = m.1 ∨
  ((∀ x ∈ xs ++ ys, x.1 ≠ t) ∧ ((∀ x ∈ xs, x.1 ≠ m.1) ∨ (∀ y ∈ ys, y.1 ≠ m.1))) ∨
  (xs.getLast?.any fun x => x.1 = t ∧ x.2 < m.2) = true ∨
  (ys.head?.any fun y => y.1 = t ∧ m.2 < y.2) = true

instance (t : τ) (xs : List (τ × κ)) (m : τ × κ) (ys : List (τ × κ)) :
    Decidable (Borders t xs m ys) := inferInstanceAs (Decidable (_ ∨ _ ∨ _ ∨ _))

theorem Grouped.change (h : Grouped (xs ++ m :: ys)) (hb : Borders t xs m ys) :
    Grouped (xs ++ (t, m.2) :: ys) := by
  by_cases htm : t = m.1
  · subst htm
    exact h
  have hcut := h.cut
  rcases hb with heq | ⟨hnone, hend⟩ | hlast | hfirst
  · exact absurd heq htm
  · refine ⟨?_, hcut.increasing_insert ?_ ?_⟩
    · rw [map_append, map_cons]
      refine Contiguous.insert (by simpa using hcut.contiguous) ?_ ?_
      · rw [← map_append]
        rintro hmem
        obtain ⟨x, hx, rfl⟩ := mem_map.mp hmem
        exact hnone x hx rfl
      · rintro u hux huy
        obtain rfl := h.eq_of_between hux huy
        obtain ⟨x, hx, hxm⟩ := mem_map.mp hux
        obtain ⟨y, hy, hym⟩ := mem_map.mp huy
        rcases hend with hend | hend
        · exact hend x hx hxm
        · exact hend y hy hym
    · rintro x hx heq
      exact absurd heq (hnone x (by simp [hx]))
    · rintro y hy heq
      exact absurd heq.symm (hnone y (by simp [hy]))
  · -- the group of the kind ends in front of the member
    rcases eq_nil_or_concat' xs with rfl | ⟨xs, x, rfl⟩
    · cases hlast
    · obtain ⟨rfl, hlt⟩ : x.1 = t ∧ x.2 < m.2 := by simpa using hlast
      refine ⟨?_, hcut.increasing_insert ?_ ?_⟩
      · have hcont := hcut.contiguous
        simp only [map_append, map_cons, append_assoc, singleton_append] at hcont ⊢
        exact hcont.double
      · rintro z hz heq
        rcases mem_append.mp hz with hz | hz
        · obtain ⟨-, -, hzx⟩ := pairwise_append.mp
            (pairwise_append.mp hcut.increasing).1
          exact (hzx z hz x (by simp) heq).trans hlt
        · obtain rfl := mem_singleton.mp hz
          exact hlt
      · rintro y hy heq
        exact absurd (h.eq_of_between (by simp) (heq ▸ mem_map_of_mem hy)).symm htm
  · -- it starts behind the member
    cases ys with
    | nil => cases hfirst
    | cons y ys =>
      obtain ⟨rfl, hlt⟩ : y.1 = t ∧ m.2 < y.2 := by simpa using hfirst
      refine ⟨?_, hcut.increasing_insert ?_ ?_⟩
      · have hcont := hcut.contiguous
        simp only [map_append, map_cons] at hcont ⊢
        exact hcont.double
      · rintro x hx heq
        exact absurd (h.eq_of_between (heq ▸ mem_map_of_mem hx) (by simp)).symm htm
      · rintro z hz heq
        rcases mem_cons.mp hz with rfl | hz
        · exact hlt
        · obtain ⟨-, hys, -⟩ := pairwise_append.mp hcut.increasing
          exact hlt.trans ((pairwise_cons.mp hys).1 z hz heq)

end OpenAvb
