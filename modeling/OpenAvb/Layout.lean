import OpenAvb.Octets
import Mathlib.Logic.Function.Basic

/-!
# Fields at fixed offsets

A message is laid out by storing its fields one after the other, each at its
own offset. Fields that do not overlap can be read back, and so can those
around a field that is wider than its place.
-/

namespace OpenAvb

section

abbrev Field := Nat × List UInt8

def Field.stop (w : Field) : Nat := w.1 + w.2.length

def store (f : Stores) (ws : List Field) : Stores := ws.foldl (fun f w => put f w.1 w.2) f

def AllStand (m : Mem) (ws : List Field) : Prop := ∀ w ∈ ws, Stands m w.1 w.2

def Ascending (ws : List Field) : Prop := ws.Pairwise fun w w' => w.stop ≤ w'.1

theorem store_append (ws ws' : List Field) : store f (ws ++ ws') = store (store f ws) ws' :=
  List.foldl_append

@[simp] theorem allStand_nil : AllStand m [] := nofun

@[simp] theorem allStand_cons : AllStand m (w :: ws) ↔ Stands m w.1 w.2 ∧ AllStand m ws :=
  List.forall_mem_cons

theorem allStand_append : AllStand m (ws ++ ws') ↔ AllStand m ws ∧ AllStand m ws' :=
  List.forall_mem_append

theorem AllStand.congr (h : AllStand m ws) (hstop : ∀ w ∈ ws, w.stop ≤ n)
    (hm : ∀ i, i < n → m' i = m i) : AllStand m' ws := by
  rintro w hw
  refine (h w hw).congr fun i _ hi => hm i ?_
  have := hstop w hw
  unfold Field.stop at this
  omega

theorem Stands.store (h : Stands (look f) p xs) (hws : ∀ w ∈ ws, w.stop ≤ p ∨ p + xs.length ≤ w.1) :
    Stands (look (OpenAvb.store f ws)) p xs := by
  induction ws generalizing f with
  | nil => exact h
  | cons w ws ih =>
    obtain ⟨hw, hws⟩ := List.forall_mem_cons.mp hws
    exact ih (h.put hw) hws

theorem allStand_store (h : Ascending ws) : AllStand (look (store f ws)) ws := by
  induction ws generalizing f with
  | nil => exact allStand_nil
  | cons w ws ih =>
    obtain ⟨hw, hws⟩ := List.pairwise_cons.mp h
    exact allStand_cons.mpr ⟨stands_put.store fun w' hw' => .inr (hw w' hw'), ih hws⟩

theorem allStand_store_insert (h : Ascending (pre ++ post)) (hp : ∀ w ∈ pre, w.stop ≤ p) :
    AllStand (look (store f (pre ++ (p, xs) :: post))) (pre ++ post) := by
  obtain ⟨hpre, hpost, hcross⟩ := List.pairwise_append.mp h
  rw [store_append]
  refine allStand_append.mpr ⟨fun w hw => ?_, allStand_store hpost⟩
  have hstands : Stands (look (store f pre)) w.1 w.2 := allStand_store hpre w hw
  exact (hstands.put (.inr (hp w hw))).store fun w' hw' => .inr (hcross w hw w' hw')

theorem stands_store_insert {post : List Field} (xs zs : List UInt8) (hw : ws = xs ++ ys ++ zs)
    (hq : p + xs.length = q) (hpost : ∀ w ∈ post, w.stop ≤ q ∨ q + ys.length ≤ w.1) :
    Stands (look (store f (pre ++ (p, ws) :: post))) q ys := by
  subst hw hq
  rw [store_append]
  have hstands : Stands (look (put (store f pre) p (xs ++ ys ++ zs))) p (xs ++ ys ++ zs) :=
    stands_put
  rw [stands_append, stands_append] at hstands
  exact hstands.1.2.store hpost

end

/-! ## What the first octets of memory settle -/

section

open Function

variable {α : Type} {f : Mem → α} {m m' : Mem} {n i p k : Nat} {x : UInt8}

/-- The first `n` octets of memory settle the result. -/
def Settled (n : Nat) (f : Mem → α) (m : Mem) : Prop :=
  ∀ m' : Mem, (∀ i < n, m' i = m i) → f m' = f m

theorem Settled.update (h : Settled n f m) (hi : n ≤ i) (x : UInt8) : f (update m i x) = f m :=
  h _ fun _ hj => update_of_ne (ne_of_lt (lt_of_lt_of_le hj hi)) _ _

theorem add_one_ne (x : UInt8) : x + 1 ≠ x := by simp

theorem read_agree (h : ∀ i < n, m' i = m i) (hp : p + k ≤ n) : read m' p k = read m p k :=
  read_congr fun i _ hi => h i (by omega)

theorem word_agree (h : ∀ i < n, m' i = m i) (hp : p + 2 ≤ n) : word m' p = word m p :=
  word_congr (h p (by omega)) (h (p + 1) (by omega))

theorem read_update_ne (hp : p ≤ i) (hi : i < p + k) (hx : x ≠ m i) :
    read (update m i x) p k ≠ read m p k := by
  intro h
  have hat := congrArg (·[i - p]?) h
  simp only [getElem_read (show i - p < k by omega), show p + (i - p) = i by omega,
    update_self, Option.some.injEq] at hat
  exact hx hat

theorem word_update (h : i < p ∨ p + 2 ≤ i) : word (update m i x) p = word m p :=
  word_congr (update_of_ne (by omega) _ _) (update_of_ne (by omega) _ _)

end

/-! ## Packed digits -/

open List

def threePack (x y z : Nat) : UInt8 := UInt8.ofNat ((x * 6 + y) * 6 + z)

def digits3 (b : UInt8) : List Nat := [b.toNat / 36, b.toNat % 36 / 6, b.toNat % 6]

def pack3 : List Nat → List UInt8
  | [] => []
  | [x] => [threePack x 0 0]
  | [x, y] => [threePack x y 0]
  | x :: y :: z :: rest => threePack x y z :: pack3 rest

theorem toNat_threePack (hx : x < 6) (hy : y < 6) (hz : z < 6) :
    (threePack x y z).toNat = (x * 6 + y) * 6 + z := by
  rw [threePack, UInt8.toNat_ofNat']
  omega

theorem digits3_threePack (hx : x < 6) (hy : y < 6) (hz : z < 6) :
    digits3 (threePack x y z) = [x, y, z] := by
  simp only [digits3, toNat_threePack hx hy hz, List.cons.injEq, and_true]
  omega

@[simp] theorem length_pack3 : (pack3 es).length = (es.length + 2) / 3 := by
  induction es using pack3.induct with
  | case1 | case2 | case3 => simp [pack3]
  | case4 x y z rest ih =>
    simp only [pack3, length_cons, ih]
    omega

theorem pack3_append (h : 3 ∣ xs.length) : pack3 (xs ++ ys) = pack3 xs ++ pack3 ys := by
  induction xs using pack3.induct with
  | case1 => rfl
  | case2 | case3 => simp at h
  | case4 x y z rest ih =>
    have hr : 3 ∣ rest.length := by
      simp only [length_cons] at h
      omega
    simp [pack3, ih hr]

/-- Digit number `i` of the octets from offset `p` on, three digits an octet. -/
def digitAt (m : Mem) (p i : Nat) : Nat := (digits3 (m (p + i / 3))).getD (i % 3) 0

theorem take_digits3_read (h : nv ≤ 3 * k) :
    ((read m p k).flatMap digits3).take nv = (List.range nv).map (digitAt m p) := by
  induction k generalizing p nv with
  | zero =>
    obtain rfl : nv = 0 := by omega
    simp
  | succ k ih =>
    have hshift : ∀ i, digitAt m p (i + 3) = digitAt m (p + 1) i := by
      intro i
      simp only [digitAt, show (i + 3) / 3 = i / 3 + 1 by omega,
        show (i + 3) % 3 = i % 3 by omega, show p + (i / 3 + 1) = p + 1 + i / 3 by omega]
    have hhead : digits3 (m p) = (List.range 3).map (digitAt m p) := by
      simp [digitAt, digits3, range_succ]
    rw [read, flatMap_cons, take_append, hhead]
    rcases le_total nv 3 with hn | hn
    · rw [length_map, length_range, Nat.sub_eq_zero_of_le hn, take_zero,
        append_nil, ← map_take, take_range, min_eq_left hn]
    · obtain ⟨j, rfl⟩ : ∃ j, nv = 3 + j := ⟨nv - 3, by omega⟩
      rw [length_map, length_range, Nat.add_sub_cancel_left, ih (by omega),
        take_of_length_le (by simp), range_add, map_append, map_map]
      congr 1
      refine map_congr_left fun i _ => ?_
      rw [Function.comp_apply, add_comm 3 i, hshift]

def fourPack (w x y z : Nat) : UInt8 := UInt8.ofNat (w * 64 + x * 16 + y * 4 + z)

def digits4 (b : UInt8) : List Nat := [b.toNat / 64, b.toNat / 16 % 4, b.toNat / 4 % 4, b.toNat % 4]

def pack4 : List Nat → List UInt8
  | [] => []
  | [w] => [fourPack w 0 0 0]
  | [w, x] => [fourPack w x 0 0]
  | [w, x, y] => [fourPack w x y 0]
  | w :: x :: y :: z :: rest => fourPack w x y z :: pack4 rest

theorem digits4_fourPack (hw : w < 4) (hx : x < 4) (hy : y < 4) (hz : z < 4) :
    digits4 (fourPack w x y z) = [w, x, y, z] := by
  have h : (fourPack w x y z).toNat = w * 64 + x * 16 + y * 4 + z := by
    rw [fourPack, UInt8.toNat_ofNat']
    omega
  simp only [digits4, h, List.cons.injEq, and_true]
  omega

@[simp] theorem length_pack4 : (pack4 es).length = (es.length + 3) / 4 := by
  induction es using pack4.induct with
  | case1 | case2 | case3 | case4 => simp [pack4]
  | case5 w x y z rest ih =>
    simp only [pack4, length_cons, ih]
    omega

/-- The digits of a packed list, octet by octet, `n` of them still to come. -/
def unpack4 : Nat → List UInt8 → List Nat
  | _, [] => []
  | n, b :: bs => (digits4 b).take (min 4 n) ++ unpack4 (n - min 4 n) bs

theorem unpack4_pack4 (h : ∀ e ∈ es, e < 4) : unpack4 es.length (pack4 es) = es := by
  induction es using pack4.induct with
  | case1 => rfl
  | case2 w =>
    simp only [mem_singleton, forall_eq] at h
    simp [pack4, unpack4, digits4_fourPack h]
  | case3 w x =>
    simp only [mem_cons, not_mem_nil, or_false, forall_eq_or_imp, forall_eq] at h
    simp [pack4, unpack4, digits4_fourPack h.1 h.2]
  | case4 w x y =>
    simp only [mem_cons, not_mem_nil, or_false, forall_eq_or_imp, forall_eq] at h
    simp [pack4, unpack4, digits4_fourPack h.1 h.2.1 h.2.2]
  | case5 w x y z rest ih =>
    simp only [mem_cons, forall_eq_or_imp] at h
    have hr := ih h.2.2.2.2
    simp [pack4, unpack4, digits4_fourPack h.1 h.2.1 h.2.2.1 h.2.2.2.1, hr]

theorem getElem_unpack4 (hi : i < n) (hb : bs[i / 4]? = some b) :
    (unpack4 n bs)[i]? = some ((digits4 b).getD (i % 4) 0) := by
  induction bs generalizing n i with
  | nil => cases hb
  | cons b' bs ih =>
    have hlen : ((digits4 b').take (min 4 n)).length = min 4 n := by
      rw [length_take]
      exact min_eq_left (min_le_left 4 n)
    rw [unpack4]
    rcases lt_or_ge i 4 with h4 | h4
    · rw [Nat.div_eq_of_lt h4, getElem?_cons_zero, Option.some_inj] at hb
      have hdigit : i < (digits4 b).length := h4
      rw [getElem?_append_left (by omega), getElem?_take_of_lt (by omega), hb,
        Nat.mod_eq_of_lt h4, getD_eq_getElem?_getD, getElem?_eq_getElem hdigit]
      rfl
    · obtain ⟨j, rfl⟩ := Nat.exists_eq_add_of_le' h4
      rw [Nat.add_div_right j (by omega), getElem?_cons_succ] at hb
      rw [getElem?_append_right (by omega), hlen, Nat.add_mod_right,
        show j + 4 - min 4 n = j by omega]
      exact ih (by omega) hb

/-- Digit number `i` of the octets from offset `p` on, four digits an octet. -/
def digit4At (m : Mem) (p i : Nat) : Nat := (digits4 (m (p + i / 4))).getD (i % 4) 0

theorem getElem_unpack4_read (hi : i < n) :
    (unpack4 n (read m p ((n + 3) / 4)))[i]? = some (digit4At m p i) :=
  getElem_unpack4 hi (getElem_read (by omega))

/-- What the places of a number to base four, the highest first, carry into the place above. -/
def carry4 : List Nat → Nat
  | [] => 0
  | d :: ds => (d + carry4 ds) / 4

/-- The values behind number `k` that are packed into the same octet. -/
def mates4 (es : List Nat) (k : Nat) : List Nat := (es.drop (k + 1)).take (3 - k % 4)

theorem digits4_fourPack_carry (w x y z : Nat) : digits4 (fourPack w x y z) =
    [(w + carry4 [x, y, z]) % 4, (x + carry4 [y, z]) % 4, (y + carry4 [z]) % 4,
      (z + carry4 []) % 4] := by
  have h : (fourPack w x y z).toNat = (w * 64 + x * 16 + y * 4 + z) % 256 := by
    rw [fourPack, UInt8.toNat_ofNat']
  simp only [digits4, h, carry4, List.cons.injEq, and_true]
  omega

theorem getElem_unpack4_pack4 (hk : es[k]? = some e) :
    (unpack4 es.length (pack4 es))[k]? = some ((e + carry4 (mates4 es k)) % 4) := by
  induction es using pack4.induct generalizing k with
  | case1 => cases hk
  | case2 w =>
    match k with
    | 0 =>
      cases hk
      simp [pack4, unpack4, digits4_fourPack_carry, mates4, carry4]
    | k + 1 => cases hk
  | case3 w x =>
    match k with
    | 0 | 1 =>
      cases hk
      simp [pack4, unpack4, digits4_fourPack_carry, mates4, carry4]
    | k + 2 => cases hk
  | case4 w x y =>
    match k with
    | 0 | 1 | 2 =>
      cases hk
      simp [pack4, unpack4, digits4_fourPack_carry, mates4, carry4]
    | k + 3 => cases hk
  | case5 w x y z rest ih =>
    match k with
    | 0 | 1 | 2 | 3 =>
      cases hk
      simp [pack4, unpack4, digits4_fourPack_carry, mates4]
    | k + 4 =>
      have hmates : mates4 (w :: x :: y :: z :: rest) (k + 4) = mates4 rest k := by simp [mates4]
      have hrest : rest[k]? = some e := hk
      rw [hmates, ← ih hrest]
      simp [pack4, unpack4, digits4_fourPack_carry]

theorem digit4At_pack4 (h : Stands m p (pack4 es)) (hk : es[k]? = some e) :
    digit4At m p k = (e + carry4 (mates4 es k)) % 4 := by
  have hlt : k < es.length := (List.getElem?_eq_some_iff.mp hk).1
  have hread : read m p ((es.length + 3) / 4) = pack4 es := h.read_eq length_pack4.symm
  have hdigit := getElem_unpack4_read (m := m) (p := p) hlt
  rw [hread, getElem_unpack4_pack4 hk] at hdigit
  exact (Option.some.inj hdigit).symm

theorem digit4At_eq_iff (h : Stands m p (pack4 es)) (hk : es[k]? = some e) (he : e < 4) :
    digit4At m p k = e ↔ 4 ∣ carry4 (mates4 es k) := by
  rw [digit4At_pack4 h hk]
  omega

theorem carry4_eq_zero (h : ∀ d ∈ ds, d < 4) : carry4 ds = 0 := by
  induction ds with
  | nil => rfl
  | cons d ds ih =>
    simp only [mem_cons, forall_eq_or_imp] at h
    simp [carry4, ih h.2, h.1]

theorem mem_of_mem_mates4 (h : d ∈ mates4 es k) : d ∈ es := mem_of_mem_drop (mem_of_mem_take h)

end OpenAvb
