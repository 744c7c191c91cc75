import Mathlib.Algebra.Ring.Nat
import Mathlib.Data.List.Basic

/-!
# Octet memory

A reader sees memory as a total function from offsets to octets. A writer
keeps the log of its stores, newest first, so that both the contents it
leaves behind and the set of offsets it touched can be read off.
-/

namespace OpenAvb

open List

abbrev Mem := Nat → UInt8

def read (m : Mem) (p : Nat) : Nat → List UInt8
  | 0 => []
  | n + 1 => m p :: read m (p + 1) n

/-- The receive buffer: the octets received, and whatever stands behind them. -/
def recvBuffer (data : List UInt8) (rest : Mem) : Mem := fun i => data.getD i (rest i)

def Stands (m : Mem) (p : Nat) (xs : List UInt8) : Prop := read m p xs.length = xs

@[simp] theorem length_read : (read m p n).length = n := by
  induction n generalizing p with
  | zero => rfl
  | succ n ih => simp [read, ih]

theorem read_add : read m p (a + b) = read m p a ++ read m (p + a) b := by
  induction a generalizing p with
  | zero => simp [read]
  | succ a ih =>
    rw [show a + 1 + b = (a + b) + 1 by omega]
    simp only [read, ih, cons_append, show p + 1 + a = p + (a + 1) by omega]

theorem read_congr (h : ∀ i, p ≤ i → i < p + n → m i = m' i) : read m p n = read m' p n := by
  induction n generalizing p with
  | zero => rfl
  | succ n ih =>
    simp only [read, h p (by omega) (by omega)]
    rw [ih fun i hi hn => h i (by omega) (by omega)]

theorem drop_read (h : i ≤ n) : (read m p n).drop i = read m (p + i) (n - i) := by
  obtain ⟨j, rfl⟩ := Nat.exists_eq_add_of_le h
  rw [read_add, drop_left' length_read, Nat.add_sub_cancel_left]

theorem getElem_read (h : i < n) : (read m p n)[i]? = some (m (p + i)) := by
  induction n generalizing p i with
  | zero => omega
  | succ n ih =>
    cases i with
    | zero => simp [read]
    | succ i =>
      simp only [read, getElem?_cons_succ]
      rw [ih (by omega), show p + 1 + i = p + (i + 1) by omega]

@[simp] theorem stands_nil : Stands m p [] := rfl

@[simp] theorem stands_cons : Stands m p (x :: xs) ↔ m p = x ∧ Stands m (p + 1) xs := by
  simp [Stands, read]

@[simp] theorem stands_append :
    Stands m p (xs ++ ys) ↔ Stands m p xs ∧ Stands m (p + xs.length) ys := by
  simp only [Stands, length_append, read_add]
  constructor
  · intro h
    exact append_inj h (by simp)
  · rintro ⟨hx, hy⟩
    rw [hx, hy]

theorem stands_recvBuffer : Stands (recvBuffer data rest) 0 data := by
  have h : ∀ (pre suf : List UInt8), data = pre ++ suf →
      Stands (recvBuffer data rest) pre.length suf := by
    intro pre suf
    induction suf generalizing pre with
    | nil => intro _; exact stands_nil
    | cons x suf ih =>
      intro hd
      rw [stands_cons]
      refine ⟨by simp [recvBuffer, hd], ?_⟩
      have := ih (pre ++ [x]) (by simpa using hd)
      simpa using this
  exact h [] data rfl

theorem Stands.read_eq (h : Stands m p xs) (hn : n = xs.length) : read m p n = xs := by
  rw [hn]; exact h

theorem Stands.congr (h : Stands m p xs)
    (hm : ∀ i, p ≤ i → i < p + xs.length → m' i = m i) : Stands m' p xs := by
  rw [Stands, read_congr hm]; exact h

theorem stands_replicate (h : ∀ i, p ≤ i → i < p + n → m i = x) :
    Stands m p (List.replicate n x) := by
  induction n generalizing p with
  | zero => rfl
  | succ n ih =>
    rw [replicate_succ, stands_cons]
    exact ⟨h p (by omega) (by omega), ih fun i hi hn => h i (by omega) (by omega)⟩

theorem Stands.of_replicate (h : Stands m p (List.replicate n x)) (hp : p ≤ i)
    (hi : i < p + n) : m i = x := by
  obtain ⟨k, rfl⟩ := Nat.exists_eq_add_of_le hp
  have hk : k < n := by omega
  have hget : (read m p n)[k]? = some (m (p + k)) := getElem_read hk
  rw [h.read_eq (by simp), getElem?_replicate_of_lt hk] at hget
  exact (Option.some.inj hget).symm

theorem drop_append_of_le {xs ys : List UInt8} (h : xs.length = n) (hi : n ≤ i) :
    (xs ++ ys).drop i = ys.drop (i - n) := by
  rw [drop_append, h, drop_of_length_le (by omega), nil_append]

abbrev Stores := List (Nat × UInt8)

def put (f : Stores) (p : Nat) : List UInt8 → Stores
  | [] => f
  | x :: xs => put ((p, x) :: f) (p + 1) xs

def look (f : Stores) : Mem := fun i => (f.lookup i).getD 0

def touched (f : Stores) : List Nat := f.map Prod.fst

theorem look_cons : look ((p, x) :: f) i = if i = p then x else look f i := by
  by_cases h : i = p
  · simp [look, h]
  · have h' : (i == p) = false := by simpa using h
    simp [look, h, lookup_cons, h']

theorem look_put : look (put f p xs) i =
    if p ≤ i ∧ i < p + xs.length then xs.getD (i - p) 0 else look f i := by
  induction xs generalizing f p with
  | nil => rw [put, if_neg (by simp only [length_nil]; omega)]
  | cons x xs ih =>
    rw [put, ih, look_cons, length_cons]
    rcases lt_trichotomy i p with h | h | h
    · rw [if_neg (by omega), if_neg (by omega), if_neg (by omega)]
    · subst h
      rw [if_neg (by omega), if_pos rfl, if_pos (by omega)]
      simp
    · by_cases hi : i < p + (xs.length + 1)
      · rw [if_pos (by omega), if_pos (by omega), show i - p = (i - (p + 1)) + 1 by omega]
        simp
      · rw [if_neg (by omega), if_neg (by omega), if_neg (by omega)]

theorem look_put_of_lt (h : i < p) : look (put f p xs) i = look f i := by
  rw [look_put, if_neg (by omega)]

theorem look_put_of_le (h : p + xs.length ≤ i) : look (put f p xs) i = look f i := by
  rw [look_put, if_neg (by omega)]

theorem stands_put : Stands (look (put f p xs)) p xs := by
  induction xs generalizing f p with
  | nil => rfl
  | cons x xs ih =>
    rw [put, stands_cons, look_put_of_lt (by omega)]
    exact ⟨by simp [look_cons], ih⟩

theorem Stands.put (h : Stands (look f) p xs)
    (hq : q + ys.length ≤ p ∨ p + xs.length ≤ q) : Stands (look (put f q ys)) p xs := by
  refine h.congr fun i hi hn => ?_
  rcases hq with hq | hq
  · exact look_put_of_le (by omega)
  · exact look_put_of_lt (by omega)

@[simp] theorem mem_touched_put :
    i ∈ touched (put f p xs) ↔ p ≤ i ∧ i < p + xs.length ∨ i ∈ touched f := by
  induction xs generalizing f p with
  | nil => rw [OpenAvb.put, or_iff_right (by simp only [length_nil]; omega)]
  | cons x xs ih =>
    rw [OpenAvb.put, ih]
    simp only [touched, map_cons, mem_cons, length_cons]
    constructor
    · rintro (h | rfl | h)
      · exact .inl (by omega)
      · exact .inl (by omega)
      · exact .inr h
    · rintro (h | h)
      · by_cases hp : i = p
        · exact .inr (.inl hp)
        · exact .inl (by omega)
      · exact .inr (.inr h)

def Below (eof : Nat) (f : Stores) : Prop := ∀ i ∈ touched f, i < eof

theorem below_put : Below eof (put f p xs) ↔ (xs ≠ [] → p + xs.length ≤ eof) ∧ Below eof f := by
  unfold Below
  simp only [mem_touched_put, or_imp, forall_and]
  refine and_congr_left fun _ => ?_
  constructor
  · rintro h hxs
    have hlen : 0 < xs.length := length_pos_iff.mpr hxs
    have hlast := h (p + xs.length - 1) (by omega)
    omega
  · rintro h i hi
    have hxs : xs ≠ [] := by
      rintro rfl
      simp only [length_nil] at hi
      omega
    have hend := h hxs
    omega

theorem put_append : put f p (xs ++ ys) = put (put f p xs) (p + xs.length) ys := by
  induction xs generalizing f p with
  | nil => simp [OpenAvb.put]
  | cons x xs ih =>
    simp only [cons_append, OpenAvb.put, ih, length_cons]
    rw [show p + 1 + xs.length = p + (xs.length + 1) by omega]

/-- Store `n` strings, each `step` behind the one before; a longer one runs into the next. -/
def putEvery (g : Nat → List UInt8) (step p : Nat) : Nat → Stores
  | 0 => []
  | n + 1 => put (putEvery g step p n) (p + n * step) (g n)

theorem below_putEvery : Below eof (putEvery g step p n) ↔
    ∀ i < n, g i ≠ [] → p + i * step + (g i).length ≤ eof := by
  induction n with
  | zero => simp [putEvery, Below, touched]
  | succ n ih =>
    rw [putEvery, below_put, ih]
    constructor
    · rintro ⟨hlast, hrest⟩ i hi
      rcases Nat.lt_succ_iff_lt_or_eq.mp hi with h | rfl
      · exact hrest i h
      · exact hlast
    · rintro h
      exact ⟨h n (Nat.lt_succ_self n), fun i hi => h i (Nat.lt_succ_of_lt hi)⟩

theorem stands_putEvery (hg : ∀ i < n, step ≤ (g i).length) : Stands (look (putEvery g step p n)) p
      ((List.range n).flatMap fun i => (g i).take step) := by
  induction n with
  | zero => exact stands_nil
  | succ n ih =>
    have hlen : ∀ k ≤ n, ((List.range k).flatMap fun i => (g i).take step).length = k * step := by
      intro k hk
      induction k with
      | zero => simp
      | succ k ihk =>
        have hblock := hg k (by omega)
        simp [range_succ, ihk (by omega), min_eq_left hblock, Nat.succ_mul]
    rw [putEvery, range_succ, flatMap_append, flatMap_singleton, stands_append, hlen n (le_refl n)]
    refine ⟨(ih fun i hi => hg i (by omega)).put
      (.inr (le_of_eq (by rw [hlen n (le_refl n)]))), ?_⟩
    have hstands := @stands_put (putEvery g step p n) (p + n * step) (g n)
    rw [← take_append_drop step (g n), stands_append] at hstands
    simpa using hstands.1

def word (m : Mem) (p : Nat) : Nat := (m p).toNat * 256 + (m (p + 1)).toNat

def be16 (n : Nat) : List UInt8 := [UInt8.ofNat (n / 256), UInt8.ofNat n]

@[simp] theorem length_be16 : (be16 n).length = 2 := rfl

def be32 (n : Nat) : List UInt8 := be16 (n / 65536) ++ be16 n

@[simp] theorem length_be32 : (be32 n).length = 4 := rfl

theorem word_of_stands (h : Stands m p (be16 n)) (hn : n < 65536) : word m p = n := by
  simp only [be16, stands_cons, stands_nil, and_true] at h
  simp only [word, h.1, h.2, UInt8.toNat_ofNat']
  omega

theorem word_eq_zero : word m p = 0 ↔ m p = 0 ∧ m (p + 1) = 0 := by
  simp only [word, ← UInt8.toNat_inj, UInt8.toNat_zero]
  omega

theorem word_lt : word m p < 65536 := by
  have h := (m p).toNat_lt
  have h' := (m (p + 1)).toNat_lt
  simp only [word]
  omega

theorem word_congr (h : m p = m' p) (h' : m (p + 1) = m' (p + 1)) : word m p = word m' p := by
  simp only [word, h, h']

def number : List UInt8 → Nat
  | [] => 0
  | x :: xs => x.toNat * 256 ^ xs.length + number xs

theorem number_lt : number xs < 256 ^ xs.length := by
  induction xs with
  | nil => simp [number]
  | cons x xs ih =>
    have hx := x.toNat_lt
    calc
      number (x :: xs) < x.toNat * 256 ^ xs.length + 256 ^ xs.length := Nat.add_lt_add_left ih _
      _ = (x.toNat + 1) * 256 ^ xs.length := by rw [add_mul, one_mul]
      _ ≤ 256 * 256 ^ xs.length := Nat.mul_le_mul_right _ hx
      _ = 256 ^ (x :: xs).length := by rw [length_cons, pow_succ, mul_comm]

theorem number_inj (hlen : xs.length = ys.length) (h : number xs = number ys) : xs = ys := by
  induction xs generalizing ys with
  | nil => exact (length_eq_zero_iff.mp hlen.symm).symm
  | cons x xs ih =>
    cases ys with
    | nil => cases hlen
    | cons y ys =>
      have hlen' : xs.length = ys.length := Nat.succ.inj hlen
      have hx := @number_lt xs
      have hy := @number_lt ys
      simp only [number, hlen'] at h hx
      have hpos : 0 < 256 ^ ys.length := Nat.pow_pos (by omega)
      have hhead : x.toNat = y.toNat := by
        have hdiv := congrArg (· / 256 ^ ys.length) h
        simpa [mul_comm, Nat.mul_add_div hpos, Nat.div_eq_of_lt hx, Nat.div_eq_of_lt hy]
          using hdiv
      rw [UInt8.toNat_inj.mp hhead, ih hlen' (by rw [hhead] at h; omega)]

theorem number_cons_lt (hlen : xs.length = ys.length) (h : x < y) :
    number (x :: xs) < number (y :: ys) := by
  have hx := @number_lt xs
  simp only [number, hlen] at hx ⊢
  calc
    x.toNat * 256 ^ ys.length + number xs
      < x.toNat * 256 ^ ys.length + 256 ^ ys.length := Nat.add_lt_add_left hx _
    _ = (x.toNat + 1) * 256 ^ ys.length := by rw [add_mul, one_mul]
    _ ≤ y.toNat * 256 ^ ys.length := Nat.mul_le_mul_right _ (UInt8.lt_iff_toNat_lt.mp h)
    _ ≤ y.toNat * 256 ^ ys.length + number ys := Nat.le_add_right _ _

theorem number_lt_iff (hlen : xs.length = ys.length) : number xs < number ys ↔ xs < ys := by
  induction xs generalizing ys with
  | nil =>
    obtain rfl := length_eq_zero_iff.mp hlen.symm
    simp
  | cons x xs ih =>
    cases ys with
    | nil => cases hlen
    | cons y ys =>
      have hlen' : xs.length = ys.length := Nat.succ.inj hlen
      rw [cons_lt_cons_iff, ← ih hlen']
      rcases lt_trichotomy x.toNat y.toNat with h | h | h
      · have hlt := UInt8.lt_iff_toNat_lt.mpr h
        simp [number_cons_lt hlen' hlt, hlt]
      · obtain rfl := UInt8.toNat_inj.mp h
        simp [number, hlen']
      · have hlt := UInt8.lt_iff_toNat_lt.mpr h
        have hne : x ≠ y := fun heq => lt_irrefl _ (heq ▸ h)
        simp [Nat.lt_asymm (number_cons_lt hlen'.symm hlt), UInt8.lt_asymm hlt, hne]

theorem ofNat_number_singleton (x : UInt8) : UInt8.ofNat (number [x]) = x := by simp [number]

theorem ofNat_number_be16 (n : UInt16) : UInt16.ofNat (number (be16 n.toNat)) = n := by
  have hlt := n.toNat_lt
  refine UInt16.toNat_inj.mp ?_
  simp [be16, number]
  omega

theorem ofNat_number_be32 (n : UInt32) : UInt32.ofNat (number (be32 n.toNat)) = n := by
  have hlt := n.toNat_lt
  refine UInt32.toNat_inj.mp ?_
  simp [be32, be16, number]
  omega

def bump : List UInt8 → List UInt8 × Bool
  | [] => ([], true)
  | x :: xs =>
    match bump xs with
    | (ys, false) => (x :: ys, false)
    | (ys, true) => if x = 255 then (0 :: ys, true) else ((x + 1) :: ys, false)

@[simp] theorem length_bump : (bump xs).1.length = xs.length := by
  induction xs with
  | nil => rfl
  | cons x xs ih =>
    rw [bump]
    split
    case h_1 h => simpa [h] using ih
    case h_2 h => split <;> simpa [h] using ih

def bumpTail : List UInt8 → List UInt8
  | [] => []
  | x :: xs => x :: (bump xs).1

@[simp] theorem length_bumpTail : (bumpTail xs).length = xs.length := by
  cases xs <;> simp [bumpTail]

abbrev Octets (n : Nat) := { l : List UInt8 // l.length = n }

/-- The first `n` octets of a string, filled up with zeros. -/
def Octets.ofList (n : Nat) (l : List UInt8) : Octets n :=
  ⟨(l ++ List.replicate n 0).take n, by simp⟩

@[simp] theorem Octets.ofList_val (o : Octets n) : Octets.ofList n o.val = o :=
  Subtype.ext (take_left' o.property)

theorem Octets.val_ofList_read (h : n ≤ k) : (Octets.ofList n (read m p k)).val = read m p n := by
  obtain ⟨j, rfl⟩ := Nat.exists_eq_add_of_le h
  show (read m p (n + j) ++ List.replicate n 0).take n = read m p n
  rw [read_add, append_assoc, take_left' length_read]

theorem Octets.ofList_append (o : Octets n) (ys : List UInt8) :
    Octets.ofList n (o.val ++ ys) = o := by
  refine Subtype.ext ?_
  show (o.val ++ ys ++ List.replicate n 0).take n = o.val
  rw [append_assoc]
  exact take_left' o.property

def Octets.bumpTail (o : Octets n) : Octets n :=
  ⟨OpenAvb.bumpTail o.val, length_bumpTail.trans o.property⟩

end OpenAvb
