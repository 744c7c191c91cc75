import Mathlib.Data.Int.ModEq
import Mathlib.Logic.Function.Iterate
import OpenAvb.Octets

/-!
# Counting in octets

Adding one to a string of octets, time and again, adds to the number the string
stands for; if the first octet is left out of the count, only as long as the
others do not overflow.
-/

namespace OpenAvb

theorem number_bump : number (bump xs).1 + (if (bump xs).2 then 256 ^ xs.length else 0) =
    number xs + 1 := by
  induction xs with
  | nil => rfl
  | cons x xs ih =>
    have hlen : (bump xs).1.length = xs.length := length_bump
    rw [bump]
    split
    case h_1 ys h =>
      rw [h] at ih hlen
      have ih : number ys = number xs + 1 := ih
      show number (x :: ys) = number (x :: xs) + 1
      rw [number, number, hlen, ih, add_assoc]
    case h_2 ys h =>
      rw [h] at ih hlen
      have ih : number ys + 256 ^ xs.length = number xs + 1 := ih
      have hlen : ys.length = xs.length := hlen
      split
      case isTrue hx =>
        have h255 : (255 : UInt8).toNat = 255 := rfl
        show number (0 :: ys) + 256 ^ (xs.length + 1) = number (x :: xs) + 1
        rw [hx, number, number, hlen, h255, pow_succ, UInt8.toNat_zero]
        omega
      case isFalse hx =>
        have hlt := x.toNat_lt
        have hne : x.toNat ≠ 255 := fun h => hx (UInt8.toNat_inj.mp h)
        have hsucc : (x + 1).toNat = x.toNat + 1 := by
          rw [UInt8.toNat_add]
          exact Nat.mod_eq_of_lt (by have : (1 : UInt8).toNat = 1 := rfl; omega)
        show number ((x + 1) :: ys) = number (x :: xs) + 1
        rw [number, number, hlen, hsucc, add_mul]
        omega

theorem number_bump_mod : number (bump xs).1 = (number xs + 1) % 256 ^ xs.length := by
  have hlen : (bump xs).1.length = xs.length := length_bump
  have hlt : number (bump xs).1 < 256 ^ xs.length := hlen ▸ number_lt
  rw [← number_bump]
  split
  · rw [Nat.add_mod_right, Nat.mod_eq_of_lt hlt]
  · exact (Nat.mod_eq_of_lt hlt).symm

theorem bumpTail_iterate (x : UInt8) (xs : List UInt8) (k : Nat) :
    ∃ ys, bumpTail^[k] (x :: xs) = x :: ys ∧ ys.length = xs.length ∧
      number ys = (number xs + k) % 256 ^ xs.length := by
  induction k with
  | zero => exact ⟨xs, rfl, rfl, (Nat.mod_eq_of_lt number_lt).symm⟩
  | succ k ih =>
    obtain ⟨ys, hiter, hlen, hnumber⟩ := ih
    refine ⟨(bump ys).1, ?_, length_bump.trans hlen, ?_⟩
    · rw [Function.iterate_succ_apply', hiter, bumpTail]
    · rw [number_bump_mod, hnumber, hlen, Nat.mod_add_mod, add_assoc]

def numeral : Nat → Nat → List UInt8
  | 0, _ => []
  | n + 1, x => UInt8.ofNat (x / 256 ^ n) :: numeral n x

@[simp] theorem length_numeral : (numeral n x).length = n := by
  induction n with
  | zero => rfl
  | succ n ih => rw [numeral, List.length_cons, ih]

theorem number_numeral : number (numeral n x) = x % 256 ^ n := by
  induction n with
  | zero => exact (Nat.mod_one x).symm
  | succ n ih =>
    have hbyte : (UInt8.ofNat (x / 256 ^ n)).toNat = x / 256 ^ n % 256 := UInt8.toNat_ofNat'
    rw [numeral, number, ih, length_numeral, hbyte, Nat.mod_pow_succ, mul_comm, add_comm]

def Octets.plus (o : Octets n) (k : Nat) : Octets n :=
  ⟨numeral n (number o.val + k), length_numeral⟩

theorem Octets.val_bumpTail_iterate (o : Octets n) (k : Nat) :
    (Octets.bumpTail^[k] o).val = OpenAvb.bumpTail^[k] o.val := by
  induction k with
  | zero => rfl
  | succ k ih => rw [Function.iterate_succ_apply', Function.iterate_succ_apply', ← ih]; rfl

variable {o : Octets (n + 1)}

theorem Octets.bumpTail_eq_plus (hj : j ≤ k) (hk : k < 256 ^ n) :
    Octets.bumpTail^[j] o = o.plus k ↔ j = k ∧ number o.val.tail + k < 256 ^ n := by
  obtain ⟨_ | ⟨x, xs⟩, hlen⟩ := o
  · cases hlen
  obtain ⟨ys, hiter, hys, hnumber⟩ := bumpTail_iterate x xs j
  have hxs : xs.length = n := Nat.succ.inj hlen
  have hlt := @number_lt xs
  rw [hxs] at hys hnumber hlt
  have hpos : 0 < 256 ^ n := Nat.pow_pos (by omega)
  have hx := x.toNat_lt
  have hsame : Octets.bumpTail^[j] (⟨x :: xs, hlen⟩ : Octets (n + 1)) =
      Octets.plus ⟨x :: xs, hlen⟩ k ↔
      x.toNat * 256 ^ n + (number xs + j) % 256 ^ n =
        (x.toNat * 256 ^ n + number xs + k) % 256 ^ (n + 1) := by
    rw [← Subtype.val_inj, Octets.val_bumpTail_iterate, hiter, plus]
    constructor
    · intro h
      have h := congrArg number h
      rwa [number_numeral, number, number, hys, hnumber, hxs] at h
    · intro h
      refine number_inj (by simp [hys]) ?_
      rwa [number_numeral, number, number, hys, hnumber, hxs]
  rw [hsame, List.tail_cons]
  constructor
  · intro h
    obtain rfl : j = k := by
      have hmod := congrArg (· % 256 ^ n) h
      rw [pow_succ, Nat.mod_mul_right_mod, add_assoc, Nat.mul_add_mod_self_right,
        Nat.mul_add_mod_self_right, Nat.mod_mod] at hmod
      have hcancel : j % 256 ^ n = k % 256 ^ n := Nat.ModEq.add_left_cancel' (number xs) hmod
      rwa [Nat.mod_eq_of_lt (by omega), Nat.mod_eq_of_lt hk] at hcancel
    refine ⟨rfl, Nat.lt_of_not_le fun hover => ?_⟩
    -- the carry out of the octets behind the first changes the first one of the sum
    obtain ⟨r, hr⟩ := Nat.exists_eq_add_of_le hover
    have hrem : (number xs + j) % 256 ^ n = r := by
      rw [hr, Nat.add_mod_left, Nat.mod_eq_of_lt (by omega)]
    have hsum : x.toNat * 256 ^ n + number xs + j = (x.toNat + 1) * 256 ^ n + r := by
      rw [add_assoc, hr, add_mul, one_mul, add_assoc]
    rw [hrem, hsum, pow_succ, mul_comm (256 ^ n)] at h
    have hdiv := congrArg (· / 256 ^ n) h
    have hquot : ∀ y, (y * 256 ^ n + r) / 256 ^ n = y := fun y => by
      rw [mul_comm, Nat.mul_add_div hpos, Nat.div_eq_of_lt (by omega), add_zero]
    rw [Nat.mod_mul_left_div_self, hquot, hquot] at hdiv
    omega
  · rintro ⟨rfl, hfit⟩
    have hbound : x.toNat * 256 ^ n + number xs + j < 256 ^ (n + 1) := by
      calc
        x.toNat * 256 ^ n + number xs + j < x.toNat * 256 ^ n + 256 ^ n := by omega
        _ = (x.toNat + 1) * 256 ^ n := by rw [add_mul, one_mul]
        _ ≤ 256 * 256 ^ n := Nat.mul_le_mul_right _ hx
        _ = 256 ^ (n + 1) := by rw [pow_succ, mul_comm]
    rw [Nat.mod_eq_of_lt hfit, Nat.mod_eq_of_lt hbound, add_assoc]

theorem Octets.number_bumpTail_iff (hn : 1 < 256 ^ n) :
    number o.bumpTail.val = (number o.val + 1) % 256 ^ (n + 1) ↔
      number o.val.tail + 1 < 256 ^ n := by
  have hplus : number (o.plus 1).val = (number o.val + 1) % 256 ^ (n + 1) := number_numeral
  have hlen : o.bumpTail.val.length = (o.plus 1).val.length :=
    o.bumpTail.property.trans (o.plus 1).property.symm
  have heq : number o.bumpTail.val = number (o.plus 1).val ↔ o.bumpTail = o.plus 1 :=
    ⟨fun h => Subtype.ext (number_inj hlen h), fun h => h ▸ rfl⟩
  simpa [← hplus, heq] using Octets.bumpTail_eq_plus (o := o) (le_refl 1) hn

/-! ## Blocks of a string -/

open List

variable {α β : Type} {k j n a b : Nat} {f : List α → List β} {g : List β → List α}
  {l : List α} {rest : List β}

def mapBlocks (k : Nat) (f : List α → List β) : Nat → List α → List β
  | 0, _ => []
  | n + 1, l => f (l.take k) ++ mapBlocks k f n (l.drop k)

theorem mapBlocks_add :
    mapBlocks k f (a + b) l = mapBlocks k f a l ++ mapBlocks k f b (l.drop (a * k)) := by
  induction a generalizing l with
  | zero => simp [mapBlocks]
  | succ a ih =>
    rw [Nat.add_right_comm, mapBlocks, mapBlocks, ih, drop_drop, append_assoc,
      Nat.succ_mul, Nat.add_comm k]

theorem length_mapBlocks (hf : ∀ l : List α, (f l).length = j) :
    (mapBlocks k f n l).length = n * j := by
  induction n generalizing l with
  | zero => rw [mapBlocks, zero_mul]; rfl
  | succ n ih => rw [mapBlocks, length_append, hf, ih, Nat.succ_mul, add_comm]

theorem length_mapBlocks_of_le (hf : ∀ l : List α, l.length = k → (f l).length = j)
    (hl : n * k ≤ l.length) : (mapBlocks k f n l).length = n * j := by
  induction n generalizing l with
  | zero => simp [mapBlocks]
  | succ n ih =>
    rw [Nat.succ_mul] at hl
    rw [mapBlocks, length_append, hf _ (length_take_of_le (by omega)),
      ih (by rw [length_drop]; omega), Nat.succ_mul, add_comm]

theorem mapBlocks_mapBlocks (hf : ∀ l : List α, l.length = k → (f l).length = j)
    (hg : ∀ l : List α, l.length = k → g (f l) = l) (hl : n * k ≤ l.length) :
    mapBlocks j g n (mapBlocks k f n l ++ rest) = l.take (n * k) := by
  induction n generalizing l with
  | zero => rw [mapBlocks, zero_mul, take_zero]
  | succ n ih =>
    rw [Nat.succ_mul] at hl
    have hblock : (l.take k).length = k := by
      rw [length_take]
      omega
    have hlen := hf _ hblock
    have hrest := ih (l := l.drop k) (by rw [length_drop]; omega)
    rw [mapBlocks, mapBlocks, append_assoc, take_left' hlen, drop_left' hlen,
      hg _ hblock, hrest, Nat.succ_mul, add_comm, take_add]

theorem mapBlocks_append (hl : n * k ≤ l.length) (r : List α) :
    mapBlocks k f n (l ++ r) = mapBlocks k f n l := by
  induction n generalizing l with
  | zero => rfl
  | succ n ih =>
    rw [Nat.succ_mul] at hl
    rw [mapBlocks, mapBlocks, take_append_of_le_length (by omega),
      drop_append_of_le_length (by omega), ih (by rw [length_drop]; omega)]

inductive Stretches : List (List α) → List α → Prop
  | nil (l : List α) : Stretches [] l
  | cons (gap p : List α) {ps : List (List α)} {l : List α} (rest : Stretches ps l) :
      Stretches (p :: ps) (gap ++ (p ++ l))

theorem Stretches.skip {ps : List (List α)} (h : Stretches ps l) (gap : List α) :
    Stretches ps (gap ++ l) := by
  cases h with
  | nil => exact .nil _
  | cons gap' p rest =>
    rw [← append_assoc]
    exact .cons _ p rest

theorem Stretches.append {ps qs : List (List α)} {l l' : List α} (h : Stretches ps l)
    (h' : Stretches qs l') : Stretches (ps ++ qs) (l ++ l') := by
  induction h with
  | nil l => exact h'.skip l
  | cons gap p rest ih =>
    rw [append_assoc, append_assoc]
    exact .cons gap p ih

theorem Stretches.append_right {ps : List (List α)} {l : List α} (h : Stretches ps l)
    (l' : List α) : Stretches ps (l ++ l') := by
  simpa using h.append (.nil l')

theorem Stretches.single (p : List α) : Stretches [p] p := by
  simpa using Stretches.cons [] p (.nil [])

theorem Stretches.sublist {ps : List (List α)} {l : List α} (h : Stretches ps l) :
    ps.flatten.Sublist l := by
  induction h with
  | nil l => exact nil_sublist l
  | cons gap p rest ih => exact (ih.append_left p).trans (sublist_append_right gap _)

def blocks (k : Nat) (l : List α) : List (List α) :=
  (List.range (l.length / k)).map fun i => (l.drop (i * k)).take k

theorem blocks_flatten {ps : List (List α)} (hk : 0 < k) (hlen : ∀ p ∈ ps, p.length = k) :
    blocks k ps.flatten = ps := by
  induction ps with
  | nil => simp [blocks]
  | cons p ps ih =>
    obtain ⟨hp, hlen⟩ := forall_mem_cons.mp hlen
    have hdiv : (p :: ps).flatten.length / k = ps.flatten.length / k + 1 := by
      rw [flatten_cons, length_append, hp, add_comm, Nat.add_div_right _ hk]
    have hrest : ∀ i, ((p :: ps).flatten.drop ((i + 1) * k)).take k =
        (ps.flatten.drop (i * k)).take k := by
      intro i
      rw [flatten_cons, Nat.succ_mul, add_comm, ← drop_drop, drop_left' hp]
    have htail : (List.range (ps.flatten.length / k)).map
        (fun i => ((p :: ps).flatten.drop ((i + 1) * k)).take k) = blocks k ps.flatten :=
      map_congr_left fun i _ => hrest i
    rw [blocks, hdiv, range_succ_eq_map, map_cons, map_map]
    refine congr (congrArg List.cons ?_) (htail.trans (ih hlen))
    simp [take_left' hp]

section gather

variable {p : Nat}

def gather (g : Nat → List α) (k p n : Nat) : List α :=
  (List.range n).flatMap fun i => g (p + i * k)

@[simp] theorem gather_zero {g : Nat → List α} : gather g k p 0 = [] := rfl

theorem gather_succ {g : Nat → List α} : gather g k p (n + 1) = g p ++ gather g k (p + k) n := by
  have hshift : ∀ i, p + (i + 1) * k = p + k + i * k := fun i => by
    rw [add_mul, one_mul, add_assoc, add_comm k]
  simp [gather, range_succ_eq_map, flatMap_map, hshift]

theorem gather_succ_last {g : Nat → List α} :
    gather g k p (n + 1) = gather g k p n ++ g (p + n * k) := by
  simp [gather, range_succ]

theorem gather_congr {g g' : Nat → List α} (h : ∀ i < n, g (p + i * k) = g' (p + i * k)) :
    gather g k p n = gather g' k p n := by
  induction n with
  | zero => rfl
  | succ n ih =>
    rw [gather_succ_last, gather_succ_last, ih fun i hi => h i (by omega), h n (by omega)]

theorem length_gather {g : Nat → List α} (hg : ∀ p, (g p).length = j) :
    (gather g k p n).length = n * j := by
  induction n with
  | zero => simp
  | succ n ih => rw [gather_succ_last, length_append, ih, hg, Nat.succ_mul]

theorem gather_ne_of_last {g g' : Nat → List α} (hg : ∀ p, (g p).length = j)
    (hg' : ∀ p, (g' p).length = j) (h : g (p + n * k) ≠ g' (p + n * k)) :
    gather g k p (n + 1) ≠ gather g' k p (n + 1) := by
  intro heq
  rw [gather_succ_last, gather_succ_last] at heq
  exact h (append_inj_right heq (by rw [length_gather hg, length_gather hg']))

theorem mapBlocks_read {m : Mem} {L : Nat} {f : List UInt8 → List β} (h : n * k ≤ L) :
    mapBlocks k f n (read m p L) = gather (fun q => f (read m q k)) k p n := by
  induction n generalizing p L with
  | zero => rfl
  | succ n ih =>
    rw [Nat.succ_mul] at h
    obtain ⟨r, rfl⟩ := Nat.exists_eq_add_of_le (show k ≤ L by omega)
    rw [mapBlocks, gather_succ, read_add, take_left' length_read, drop_left' length_read,
      ih (by omega)]

end gather

end OpenAvb
