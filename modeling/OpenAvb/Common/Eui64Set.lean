import Mathlib.Data.List.Perm.Basic
import Mathlib.Data.List.Sort
import OpenAvb.Keyed
import OpenAvb.Run

/-!
# The set of EUI-64 values

An array that is sorted after every change and searched by bisection. An entry is removed by
overwriting its key with the highest one, which the sort moves to the end. The sort and the search
of the C library give any sorted permutation and any match.
-/

namespace OpenAvb.Common

open List

structure Eui64SetEntry where
  eui64 : UInt64
  p : Nat
  deriving DecidableEq

def eui64setCompare (lhs rhs : Eui64SetEntry) : Int :=
  if lhs.eui64 < rhs.eui64 then -1
  else if lhs.eui64 > rhs.eui64 then 1
  else 0

def allOnes : UInt64 := ~~~0

def Ascending (l : List Eui64SetEntry) : Prop := l.Pairwise fun a b => eui64setCompare a b ≤ 0

structure Qsort where
  sort : List Eui64SetEntry → List Eui64SetEntry
  perm : ∀ l, (sort l).Perm l
  ascending : ∀ l, Ascending (sort l)

/-- The index of a matching element; nothing is said about arrays that are not sorted. -/
structure Bsearch where
  search : Eui64SetEntry → List Eui64SetEntry → Option Nat
  found : ∀ key l i, Ascending l → search key l = some i →
    ∃ e, l[i]? = some e ∧ eui64setCompare key e = 0
  missing : ∀ key l, Ascending l → search key l = none → ∀ e ∈ l, eui64setCompare key e ≠ 0

structure Lib where
  qsort : Qsort
  bsearch : Bsearch

structure Eui64Set where
  storage : List Eui64SetEntry
  numEntries : Nat
  maxEntries : Int

namespace Eui64Set

/-- `allocated` says whether `calloc` finds memory. -/
def init (maxEntries : Int) (allocated : Bool) : Int × Eui64Set :=
  if maxEntries > 0 then
    if allocated then (0, ⟨List.replicate maxEntries.toNat ⟨0, 0⟩, 0, maxEntries⟩)
    else (-1, ⟨[], 0, maxEntries⟩)
  else (0, ⟨[], 0, maxEntries⟩)

def clear (self : Eui64Set) : Eui64Set := { self with numEntries := 0 }

def entries (self : Eui64Set) : List Eui64SetEntry := self.storage.take self.numEntries

def insert (self : Eui64Set) (value : UInt64) (p : Nat) : Int × Eui64Set :=
  if (self.numEntries : Int) < self.maxEntries then
    (1, { self with
      storage := self.storage.set self.numEntries ⟨value, p⟩
      numEntries := self.numEntries + 1 })
  else (0, self)

def sort (qsort : Qsort) (self : Eui64Set) : Eui64Set :=
  { self with storage := qsort.sort self.entries ++ self.storage.drop self.numEntries }

def insertAndSort (lib : Lib) (self : Eui64Set) (value : UInt64) (p : Nat) : Int × Eui64Set :=
  let r := self.insert value p
  if r.1 = 1 then (1, r.2.sort lib.qsort) else r

def find (bsearch : Bsearch) (self : Eui64Set) (value : UInt64) : Option Eui64SetEntry :=
  (bsearch.search ⟨value, 0⟩ self.entries).bind fun i => self.entries[i]?

def removeAndSort (lib : Lib) (self : Eui64Set) (value : UInt64) : Int × Option Nat × Eui64Set :=
  match lib.bsearch.search ⟨value, 0⟩ self.entries with
  | none => (0, none, self)
  | some i =>
    let p := (self.entries[i]?.map (·.p)).getD 0
    let self := { self with storage := self.storage.set i ⟨allOnes, p⟩ }
    let self := self.sort lib.qsort
    (1, if p ≠ 0 then some p else none, { self with numEntries := self.numEntries - 1 })

end Eui64Set

inductive Eui64SetOp where
  | insertAndSort (value : UInt64) (p : Nat)
  | removeAndSort (value : UInt64)
  | clear

def Eui64Set.perform (lib : Lib) (self : Eui64Set) : Eui64SetOp → Eui64Set
  | .insertAndSort value p => (self.insertAndSort lib value p).2
  | .removeAndSort value => (self.removeAndSort lib value).2.2
  | .clear => self.clear

def expect (present : List Eui64SetEntry) : Eui64SetOp → List Eui64SetEntry
  | .insertAndSort value p => ⟨value, p⟩ :: present
  | .removeAndSort value => present.filter (·.eui64 ≠ value)
  | .clear => []

def Fits (maxEntries : Int) (present : List Eui64SetEntry) : Eui64SetOp → Prop
  | .insertAndSort value _ =>
    entry Eui64SetEntry.eui64 value present = none ∧ (present.length : Int) < maxEntries
  | .removeAndSort _ | .clear => True

/-- When an entry is removed, the highest key is not present with another pointer. -/
def Apart (present : List Eui64SetEntry) : Eui64SetOp → Prop
  | .removeAndSort value =>
    ∀ e ∈ entry Eui64SetEntry.eui64 value present,
      ∀ top ∈ entry Eui64SetEntry.eui64 allOnes present, e.p = top.p
  | .insertAndSort _ _ | .clear => True

instance : (op : Eui64SetOp) → Decidable (Fits maxEntries present op)
  | .insertAndSort _ _ => inferInstanceAs (Decidable (_ ∧ _))
  | .removeAndSort _ | .clear => inferInstanceAs (Decidable True)

instance : (op : Eui64SetOp) → Decidable (Apart present op)
  | .removeAndSort value => inferInstanceAs
    (Decidable (∀ e ∈ entry Eui64SetEntry.eui64 value present,
      ∀ top ∈ entry Eui64SetEntry.eui64 allOnes present, e.p = top.p))
  | .insertAndSort _ _ | .clear => inferInstanceAs (Decidable True)

def call (st : Eui64Set × List Eui64SetEntry) (c : Eui64SetOp × Lib) :
    Eui64Set × List Eui64SetEntry :=
  (st.1.perform c.2 c.1, expect st.2 c.1)

def Finds (st : Eui64Set × List Eui64SetEntry) : Prop :=
  ∀ (bsearch : Bsearch) value,
    (st.1.find bsearch value).map (·.p) = (entry Eui64SetEntry.eui64 value st.2).map (·.p)

theorem eui64setCompare_le_zero : eui64setCompare a b ≤ 0 ↔ a.eui64 ≤ b.eui64 := by
  unfold eui64setCompare
  split
  case isTrue h => simp [UInt64.le_of_lt h]
  case isFalse h =>
    split
    case isTrue h' => simpa using h'
    case isFalse h' => simpa using h'

theorem eui64setCompare_eq_zero : eui64setCompare a b = 0 ↔ a.eui64 = b.eui64 := by
  unfold eui64setCompare
  constructor
  · intro h
    split at h
    · cases h
    · split at h
      · cases h
      · next h₁ h₂ => exact UInt64.le_antisymm (UInt64.not_lt.mp h₂) (UInt64.not_lt.mp h₁)
  · intro h
    simp [h]

theorem le_allOnes (x : UInt64) : x ≤ allOnes := by
  have hx := x.toNat_lt
  rw [UInt64.le_iff_toNat_le]
  show x.toNat ≤ 2 ^ 64 - 1
  omega

theorem eq_allOnes_of_le (h : allOnes ≤ x) : x = allOnes := UInt64.le_antisymm (le_allOnes x) h

structure Represents (s : Eui64Set) (present : List Eui64SetEntry) : Prop where
  perm : s.entries.Perm present
  ascending : Ascending s.entries
  unique : UniqueKeys Eui64SetEntry.eui64 present
  within : s.numEntries ≤ s.storage.length
  room : s.storage.length = s.maxEntries.toNat

section
variable {s : Eui64Set} {present : List Eui64SetEntry}

theorem Represents.length (h : Represents s present) : s.numEntries = present.length := by
  rw [← h.perm.length_eq, Eui64Set.entries, length_take, min_eq_left h.within]

theorem Represents.search (h : Represents s present) (bsearch : Bsearch) (value : UInt64) :
    (∀ e ∈ present, e.eui64 ≠ value) ∧ bsearch.search ⟨value, 0⟩ s.entries = none ∨
      ∃ i e, bsearch.search ⟨value, 0⟩ s.entries = some i ∧ s.entries[i]? = some e ∧
        e ∈ present ∧ e.eui64 = value := by
  cases hs : bsearch.search ⟨value, 0⟩ s.entries with
  | none =>
    refine .inl ⟨fun e he hv => ?_, rfl⟩
    have hmiss := bsearch.missing _ _ h.ascending hs e (h.perm.mem_iff.mpr he)
    exact hmiss (eui64setCompare_eq_zero.mpr hv.symm)
  | some i =>
    obtain ⟨e, he, hv⟩ := bsearch.found _ _ _ h.ascending hs
    exact .inr ⟨i, e, rfl, he, h.perm.mem_iff.mp (mem_of_getElem? he),
      (eui64setCompare_eq_zero.mp hv).symm⟩

theorem Represents.finds (h : Represents s present) : Finds (s, present) := by
  intro bsearch value
  rcases h.search bsearch value with ⟨hnone, hs⟩ | ⟨i, e, hs, he, hmem, hv⟩
  · simp [Eui64Set.find, hs, entry_eq_none.mpr hnone]
  · have hentry := (entry_eq_some h.unique).mpr ⟨hmem, hv⟩
    simp [Eui64Set.find, hs, he, hentry]

theorem Eui64Set.entries_sort (qsort : Qsort) (h : s.numEntries ≤ s.storage.length) :
    (s.sort qsort).entries = qsort.sort s.entries := by
  have hlen : (qsort.sort s.entries).length = s.numEntries := by
    rw [(qsort.perm _).length_eq, Eui64Set.entries, length_take, min_eq_left h]
  show (qsort.sort s.entries ++ s.storage.drop s.numEntries).take s.numEntries = _
  rw [← hlen, take_left]

theorem Eui64Set.length_sort (qsort : Qsort) :
    (s.sort qsort).storage.length = s.storage.length := by
  simp only [Eui64Set.sort, length_append, (qsort.perm _).length_eq, Eui64Set.entries,
    length_take, length_drop]
  omega

section

variable (h : Represents s present)
include h

theorem Represents.insertAndSort (lib : Lib) (hnew : entry Eui64SetEntry.eui64 value present = none)
    (hroom : (present.length : Int) < s.maxEntries) :
    Represents (s.insertAndSort lib value p).2 (⟨value, p⟩ :: present) := by
  rw [← h.length] at hroom
  have hlt : s.numEntries < s.storage.length := by
    have := h.room
    omega
  set grown : Eui64Set := { s with
    storage := s.storage.set s.numEntries ⟨value, p⟩
    numEntries := s.numEntries + 1 } with hgrown
  have hinsert : (s.insertAndSort lib value p).2 = grown.sort lib.qsort := by
    simp [Eui64Set.insertAndSort, Eui64Set.insert, hroom, hgrown]
  have hin : grown.numEntries ≤ grown.storage.length := by
    simpa [hgrown] using Nat.succ_le_of_lt hlt
  have hentries : grown.entries = s.entries ++ [⟨value, p⟩] := by
    simp only [hgrown, Eui64Set.entries, take_add_one, getElem?_set_self hlt,
      take_set_of_le (le_refl _), Option.toList_some]
  rw [hinsert]
  exact
    { perm := by
        rw [Eui64Set.entries_sort _ hin, hentries]
        exact (lib.qsort.perm _).trans ((perm_append_singleton _ _).trans (h.perm.cons _))
      ascending := by
        rw [Eui64Set.entries_sort _ hin]
        exact lib.qsort.ascending _
      unique := by
        refine nodup_cons.mpr ⟨?_, h.unique⟩
        intro hmem
        obtain ⟨e, he, hv⟩ := mem_map.mp hmem
        exact entry_eq_none.mp hnew e he hv
      within := by
        rw [Eui64Set.length_sort]
        exact hin
      room := by
        rw [Eui64Set.length_sort]
        simpa [hgrown, Eui64Set.sort] using h.room }

theorem Represents.clear : Represents s.clear [] where
  perm := by simp [Eui64Set.clear, Eui64Set.entries]
  ascending := by simp [Eui64Set.clear, Eui64Set.entries, Ascending]
  unique := .nil
  within := Nat.zero_le _
  room := h.room

theorem Represents.remove_absent (lib : Lib)
    (hnone : entry Eui64SetEntry.eui64 value present = none) :
    (s.removeAndSort lib value).2.2 = s := by
  rcases h.search lib.bsearch value with ⟨-, hs⟩ | ⟨i, e, hs, he, hmem, hv⟩
  · simp [Eui64Set.removeAndSort, hs]
  · exact absurd hv (entry_eq_none.mp hnone e hmem)

theorem Represents.filter_perm (hi : s.entries[i]? = some e) :
    (s.entries.eraseIdx i).Perm (present.filter (·.eui64 ≠ e.eui64)) := by
  obtain ⟨hlt, hget⟩ := List.getElem?_eq_some_iff.mp hi
  have hsplit : (e :: s.entries.eraseIdx i).Perm present := by
    rw [← hget]
    exact (getElem_cons_eraseIdx_perm hlt).trans h.perm
  have hunique : ((e :: s.entries.eraseIdx i).map (·.eui64)).Nodup :=
    (hsplit.map _).nodup_iff.mpr h.unique
  have hrest : (s.entries.eraseIdx i).filter (·.eui64 ≠ e.eui64) = s.entries.eraseIdx i := by
    rw [filter_eq_self]
    intro x hx
    have hne : x.eui64 ≠ e.eui64 := fun hx' =>
      (nodup_cons.mp hunique).1 (mem_map.mpr ⟨x, hx, hx'⟩)
    simpa using hne
  have hfilter := hsplit.filter (·.eui64 ≠ e.eui64)
  rw [filter_cons_of_neg (by simp), hrest] at hfilter
  exact hfilter

/-- The entry that is removed is overwritten, and the last one after the sort is cut off. -/
theorem Represents.remove_present (lib : Lib)
    (he : entry Eui64SetEntry.eui64 value present = some e) : ∃ marked last,
      marked.Perm (⟨allOnes, e.p⟩ :: present.filter (·.eui64 ≠ value)) ∧
      (s.removeAndSort lib value).2.2.entries ++ [last] = lib.qsort.sort marked ∧
      (s.removeAndSort lib value).2.2.numEntries ≤ (s.removeAndSort lib value).2.2.storage.length ∧
      (s.removeAndSort lib value).2.2.storage.length =
        (s.removeAndSort lib value).2.2.maxEntries.toNat := by
  rcases h.search lib.bsearch value with ⟨hnone, -⟩ | ⟨i, e', hs, hi, hmem, hv⟩
  · rw [entry_eq_none.mpr hnone] at he
    cases he
  obtain rfl : e' = e := Option.some.inj (((entry_eq_some h.unique).mpr ⟨hmem, hv⟩).symm.trans he)
  set struck : Eui64Set := { s with storage := s.storage.set i ⟨allOnes, e'.p⟩ } with hstruck
  have hremove : (s.removeAndSort lib value).2.2 =
      { struck.sort lib.qsort with numEntries := s.numEntries - 1 } := by
    simp [Eui64Set.removeAndSort, hs, hi, hstruck, Eui64Set.sort]
  have hin : struck.numEntries ≤ struck.storage.length := by simpa [hstruck] using h.within
  have hmarked : struck.entries = s.entries.set i ⟨allOnes, e'.p⟩ := take_set
  have hsorted := Eui64Set.entries_sort lib.qsort hin
  have hlen : (struck.sort lib.qsort).entries.length = s.numEntries := by
    rw [hsorted, (lib.qsort.perm _).length_eq, hmarked, length_set, Eui64Set.entries,
      length_take, min_eq_left h.within]
  have hpos : 0 < s.numEntries := by
    rw [h.length]
    exact length_pos_of_mem hmem
  have hne : (struck.sort lib.qsort).entries ≠ [] := ne_nil_of_length_pos (by omega)
  have hcut : (s.removeAndSort lib value).2.2.entries =
      (struck.sort lib.qsort).entries.dropLast := by
    rw [hremove, dropLast_eq_take, hlen]
    show (struck.sort lib.qsort).storage.take (s.numEntries - 1) =
      ((struck.sort lib.qsort).storage.take s.numEntries).take (s.numEntries - 1)
    rw [take_take, min_eq_left (by omega)]
  refine ⟨struck.entries, (struck.sort lib.qsort).entries.getLast hne, ?_, ?_, ?_, ?_⟩
  · have hlt := (List.getElem?_eq_some_iff.mp hi).1
    rw [hmarked, set_eq_take_append_cons_drop, if_pos hlt, ← hv]
    refine perm_middle.trans (.cons _ ?_)
    rw [← eraseIdx_eq_take_drop_succ]
    exact h.filter_perm hi
  · rw [hcut, dropLast_append_getLast, hsorted]
  · rw [hremove]
    rw [Eui64Set.length_sort]
    simp only [hstruck, length_set]
    have := h.within
    omega
  · rw [hremove]
    show (struck.sort lib.qsort).storage.length = s.maxEntries.toNat
    rw [Eui64Set.length_sort]
    simpa [hstruck] using h.room

end

theorem last_eq_allOnes {l : List Eui64SetEntry} (h : Ascending (l ++ [last]))
    (hmem : e ∈ l ++ [last]) (he : e.eui64 = allOnes) : last.eui64 = allOnes := by
  rcases mem_append.mp hmem with hl | hl
  · have hle := (pairwise_append.mp h).2.2 e hl last (by simp)
    rw [eui64setCompare_le_zero, he] at hle
    exact eq_allOnes_of_le hle
  · obtain rfl : e = last := by simpa using hl
    exact he

theorem Represents.removeAndSort (h : Represents s present) (lib : Lib)
    (hapart : Apart present (.removeAndSort value)) :
    Represents (s.removeAndSort lib value).2.2 (present.filter (·.eui64 ≠ value)) := by
  have hunique : UniqueKeys Eui64SetEntry.eui64 (present.filter (·.eui64 ≠ value)) :=
    h.unique.sublist (filter_sublist.map _)
  cases he : entry Eui64SetEntry.eui64 value present with
  | none =>
    have hsame : present.filter (·.eui64 ≠ value) = present := by
      simpa [filter_eq_self] using entry_eq_none.mp he
    rw [h.remove_absent lib he, hsame]
    exact h
  | some e =>
    obtain ⟨marked, last, hmarked, hsort, hwithin, hroom⟩ := h.remove_present lib he
    have hascending := lib.qsort.ascending marked
    have hperm := (lib.qsort.perm marked).trans hmarked
    rw [← hsort] at hascending hperm
    have hkey : last.eui64 = allOnes :=
      last_eq_allOnes hascending (hperm.mem_iff.mpr (mem_cons_self ..)) rfl
    have hlast : last = ⟨allOnes, e.p⟩ := by
      rcases mem_cons.mp (hperm.mem_iff.mp (mem_append_right _ (.head _))) with hl | hl
      · exact hl
      · -- the other entry with the highest key has the same pointer
        have htop : entry Eui64SetEntry.eui64 allOnes present = some last :=
          (entry_eq_some h.unique).mpr ⟨(mem_filter.mp hl).1, hkey⟩
        rw [hapart e he last htop, ← hkey]
    rw [hlast] at hperm
    exact
      { perm := ((perm_append_singleton _ _).symm.trans hperm).cons_inv
        ascending := (pairwise_append.mp hascending).1
        unique := hunique
        within := hwithin
        room := hroom }

/-- Among entries with one key, those with the pointer `q` come last. -/
def Before (q : Nat) (x y : Eui64SetEntry) : Prop :=
  x.eui64 < y.eui64 ∨ x.eui64 = y.eui64 ∧ (x.p = q → y.p = q)

instance : DecidableRel (Before q) := fun _ _ => inferInstanceAs (Decidable (_ ∨ _))

theorem Before.total (q : Nat) (x y : Eui64SetEntry) : Before q x y ∨ Before q y x := by
  by_cases hlt : x.eui64 < y.eui64
  · exact .inl (.inl hlt)
  · rcases UInt64.lt_or_eq_of_le (UInt64.not_lt.mp hlt) with h | h
    · exact .inr (.inl h)
    · by_cases hy : y.p = q
      · exact .inl (.inr ⟨h.symm, fun _ => hy⟩)
      · exact .inr (.inr ⟨h, fun hy' => absurd hy' hy⟩)

theorem Before.trans (h : Before q x y) (h' : Before q y z) : Before q x z := by
  rcases h with h | ⟨h, hp⟩
  · rcases h' with h' | ⟨h', -⟩
    · exact .inl (UInt64.lt_trans h h')
    · exact .inl (h' ▸ h)
  · rcases h' with h' | ⟨h', hp'⟩
    · exact .inl (h ▸ h')
    · exact .inr ⟨h.trans h', fun hx => hp' (hp hx)⟩

theorem Before.compare (h : Before q x y) : eui64setCompare x y ≤ 0 := by
  rw [eui64setCompare_le_zero]
  rcases h with h | ⟨h, -⟩
  · exact UInt64.le_of_lt h
  · exact UInt64.le_of_eq h

theorem pairwise_before (q : Nat) (l : List Eui64SetEntry) :
    (l.insertionSort (Before q)).Pairwise (Before q) :=
  have : Std.Total (Before q) := ⟨Before.total q⟩
  have : IsTrans Eui64SetEntry (Before q) := ⟨fun _ _ _ => Before.trans⟩
  pairwise_insertionSort (Before q) l

def Qsort.preferring (q : Nat) : Qsort where
  sort := List.insertionSort (Before q)
  perm := perm_insertionSort (Before q)
  ascending := fun l => (pairwise_before q l).imp Before.compare

def Bsearch.first : Bsearch where
  search := fun key l => l.findIdx? fun e => eui64setCompare key e = 0
  found := by
    intro key l i _ h
    obtain ⟨hlt, hi, -⟩ := findIdx?_eq_some_iff_getElem.mp h
    exact ⟨l[i], getElem?_eq_getElem hlt, by simpa using hi⟩
  missing := by
    intro key l _ h
    simpa using findIdx?_eq_none_iff.mp h

theorem Eui64Set.find_some (hs : Ascending s.entries) (h : s.find bsearch value = some e) :
    e ∈ s.entries ∧ e.eui64 = value := by
  obtain ⟨i, hi, he⟩ := Option.bind_eq_some_iff.mp h
  obtain ⟨e', he', hv⟩ := bsearch.found _ _ _ hs hi
  obtain rfl : e' = e := Option.some.inj (he'.symm.trans he)
  exact ⟨mem_of_getElem? he, (eui64setCompare_eq_zero.mp hv).symm⟩

theorem Represents.not_finds_of_not_apart (h : Represents s present)
    (hapart : ¬ Apart present (.removeAndSort value)) :
    ∃ lib, ¬ Finds (call (s, present) (.removeAndSort value, lib)) := by
  simp only [Apart, Option.mem_def, not_forall] at hapart
  obtain ⟨e, he, top, htop, hne⟩ := hapart
  refine ⟨⟨.preferring top.p, .first⟩, fun hfinds => ?_⟩
  have hvalue : allOnes ≠ value := by
    rintro rfl
    exact hne (congrArg _ (Option.some.inj (he.symm.trans htop)))
  obtain ⟨hmem, hkey⟩ := (entry_eq_some h.unique).mp htop
  have hkept : top ∈ present.filter (·.eui64 ≠ value) := by simpa [hmem, hkey] using hvalue
  obtain ⟨marked, last, hmarked, hsort, -, -⟩ := h.remove_present ⟨.preferring top.p, .first⟩ he
  set left := (s.removeAndSort ⟨.preferring top.p, .first⟩ value).2.2 with hleft
  have hbefore : (left.entries ++ [last]).Pairwise (Before top.p) := by
    rw [hsort]
    exact pairwise_before top.p marked
  have hperm : (left.entries ++ [last]).Perm
      (⟨allOnes, e.p⟩ :: present.filter (·.eui64 ≠ value)) := by
    rw [hsort]
    exact (perm_insertionSort _ marked).trans hmarked
  have hlast : last = top := by
    rcases mem_append.mp (hperm.mem_iff.mpr (mem_cons_of_mem _ hkept)) with hl | hl
    · rcases (pairwise_append.mp hbefore).2.2 top hl last (by simp) with hlt | ⟨heq, hp⟩
      · rw [hkey] at hlt
        exact absurd (le_allOnes last.eui64) (UInt64.not_le.mpr hlt)
      · cases last
        cases top
        simp_all
    · simpa [eq_comm] using hl
  have hnodup : (⟨allOnes, e.p⟩ :: present.filter (·.eui64 ≠ value)).Nodup := by
    refine nodup_cons.mpr ⟨fun hin => hne ?_, (List.Nodup.of_map _ h.unique).filter _⟩
    have hother := (entry_eq_some h.unique).mpr ⟨(mem_filter.mp hin).1, rfl⟩
    rw [← Option.some.inj (hother.symm.trans htop)]
  have hgone : top ∉ left.entries := by
    have hnodup := hperm.nodup_iff.mpr hnodup
    rw [hlast] at hnodup
    intro hin
    exact (nodup_append.mp hnodup).2.2 top hin top (by simp) rfl
  have hexpected : entry Eui64SetEntry.eui64 allOnes (present.filter (·.eui64 ≠ value)) =
      some top :=
    (entry_eq_some (h.unique.sublist (filter_sublist.map _))).mpr ⟨hkept, hkey⟩
  have hfind := hfinds .first allOnes
  simp only [call, expect, Eui64Set.perform, ← hleft, hexpected, Option.map_some,
    Option.map_eq_some_iff] at hfind
  obtain ⟨x, hx, hp⟩ := hfind
  have hascending : Ascending left.entries :=
    (pairwise_append.mp hbefore).1.imp Before.compare
  obtain ⟨hin, hxkey⟩ := Eui64Set.find_some hascending hx
  have hxtop : x = top := by
    cases x
    cases top
    simp_all
  exact hgone (hxtop ▸ hin)

end

theorem represents_init (maxEntries : Int) : Represents (Eui64Set.init maxEntries true).2 [] := by
  unfold Eui64Set.init
  split
  case isTrue h => exact ⟨by simp [Eui64Set.entries], .nil, .nil, Nat.zero_le _, by simp⟩
  case isFalse h =>
    refine ⟨.refl _, .nil, .nil, le_refl _, ?_⟩
    simp only [length_nil]
    omega

theorem maxEntries_perform (s : Eui64Set) (lib : Lib) (op : Eui64SetOp) :
    (s.perform lib op).maxEntries = s.maxEntries := by
  cases op with
  | insertAndSort value p =>
    simp only [Eui64Set.perform, Eui64Set.insertAndSort, Eui64Set.insert]
    split <;> rfl
  | removeAndSort value =>
    simp only [Eui64Set.perform, Eui64Set.removeAndSort]
    split <;> rfl
  | clear => rfl

variable {s : Eui64Set} {present : List Eui64SetEntry}

theorem Represents.call (h : Represents s present)
    (lib : Lib) (hfits : Fits s.maxEntries present op) (hapart : Apart present op) :
    Represents (s.perform lib op) (expect present op) := by
  cases op with
  | insertAndSort value p => exact h.insertAndSort lib hfits.1 hfits.2
  | removeAndSort value => exact h.removeAndSort lib hapart
  | clear => exact h.clear

theorem finds_iff_of_represents (h : Represents s present) {ops : List Eui64SetOp}
    (hfits : Each expect (Fits s.maxEntries) present ops) :
    (∀ calls : List (Eui64SetOp × Lib), calls.map Prod.fst = ops →
      Always call Finds (s, present) calls) ↔ Each expect Apart present ops := by
  induction ops generalizing s present with
  | nil =>
    constructor
    · intro _
      trivial
    · intro _ calls hcalls
      rw [map_eq_nil_iff.mp hcalls]
      exact h.finds
  | cons op ops ih =>
    have htail : ∀ lib, Apart present op →
        ((∀ calls : List (Eui64SetOp × Lib), calls.map Prod.fst = ops →
          Always call Finds (OpenAvb.Common.call (s, present) (op, lib)) calls) ↔
            Each expect Apart (expect present op) ops) := by
      intro lib hapart
      refine ih (h.call lib hfits.1 hapart) ?_
      rw [maxEntries_perform]
      exact hfits.2
    constructor
    · intro hall
      have hapart : Apart present op := by
        cases op with
        | removeAndSort value =>
          by_contra hapart
          obtain ⟨lib, hlib⟩ := h.not_finds_of_not_apart hapart
          -- the run goes on with any library
          have hrun := hall ((.removeAndSort value, lib) :: ops.map fun op => (op, lib))
            (by simp [Function.comp_def])
          exact hlib hrun.2.now
        | insertAndSort value p => trivial
        | clear => trivial
      refine ⟨hapart, (htail ⟨.preferring 0, .first⟩ hapart).mp fun calls hcalls => ?_⟩
      exact (hall ((op, ⟨.preferring 0, .first⟩) :: calls) (by simp [hcalls])).2
    · rintro ⟨hapart, hrest⟩ calls hcalls
      cases calls with
      | nil => cases hcalls
      | cons c calls =>
        obtain ⟨hop, htails⟩ := cons_eq_cons.mp hcalls
        subst hop
        exact ⟨h.finds, (htail c.2 hapart).mpr hrest calls htails⟩

/-- Whatever the sort does with equal keys, the set is the map of what was inserted and not
removed, as long as no entry is removed while the highest key is present with another pointer. -/
theorem eui64set_map_iff (maxEntries : Int) {ops : List Eui64SetOp}
    (hfits : Each expect (Fits maxEntries) [] ops) :
    (∀ calls : List (Eui64SetOp × Lib), calls.map Prod.fst = ops →
      Always call Finds ((Eui64Set.init maxEntries true).2, []) calls) ↔
      Each expect Apart [] ops := by
  have hmax : (Eui64Set.init maxEntries true).2.maxEntries = maxEntries := by
    unfold Eui64Set.init
    split <;> rfl
  refine finds_iff_of_represents (represents_init maxEntries) ?_
  rw [hmax]
  exact hfits

/-- The highest key does no harm if its pointer is that of the entry that is removed. -/
theorem eui64set_map_iff_top :
    let ops : List Eui64SetOp := [.insertAndSort allOnes 7, .insertAndSort 3 7, .removeAndSort 3]
    Each expect (Fits 4) [] ops ∧
      ∀ calls : List (Eui64SetOp × Lib), calls.map Prod.fst = ops →
        Always call Finds ((Eui64Set.init 4 true).2, []) calls := by
  have hfits : Each expect (Fits 4) []
      [.insertAndSort allOnes 7, .insertAndSort 3 7, .removeAndSort 3] := by decide
  exact ⟨hfits, (eui64set_map_iff 4 hfits).mpr (by decide)⟩

/-- The key with all bits set is inserted, then another one and removed: the set finds the former
with the pointer of the latter. -/
theorem all_ones_key_lost : ∃ lib, let s := (Eui64Set.init 4 true).2
      let s := (s.insertAndSort lib allOnes 20).2
      let s := (s.insertAndSort lib 3 10).2
      (s.removeAndSort lib 3).2.1 = some 10 ∧
        (s.removeAndSort lib 3).2.2.find lib.bsearch allOnes = some ⟨allOnes, 10⟩ :=
  ⟨⟨.preferring 20, .first⟩, by decide⟩

end OpenAvb.Common
