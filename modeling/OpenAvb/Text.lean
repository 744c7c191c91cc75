import Mathlib.Data.List.Induction
import Mathlib.Data.List.TakeWhile
import Mathlib.Tactic.IntervalCases
import Mathlib.Tactic.Ring
import OpenAvb.Octets

/-!
# Numbers in texts

How numbers are written to a text and read back from it, with a format of
literal characters and conversions. A number that is followed by something that
cannot belong to it is read back as it was written.
-/

namespace OpenAvb

open List

variable {base width n : Nat} {t rest : List Char} {ds : List Nat}

def hexDigit (upper : Bool) (d : Nat) : Char := if upper then d.digitChar.toUpper else d.digitChar

def hexText (upper : Bool) : Nat → Nat → List Char
  | 0, _ => []
  | w + 1, n => hexText upper w (n / 16) ++ [hexDigit upper (n % 16)]

def octetsText (upper : Bool) (l : List UInt8) : List Char :=
  l.flatMap fun b => hexText upper 2 b.toNat

def decimalText (n : Nat) : List Char := Nat.toDigits 10 n

def intText : Int → List Char
  | .ofNat n => decimalText n
  | .negSucc n => '-' :: decimalText (n + 1)

def digitValue (base : Nat) (c : Char) : Option Nat :=
  let d :=
    if c.isDigit then c.toNat - '0'.toNat
    else if 'a' ≤ c ∧ c ≤ 'f' then c.toNat - 'a'.toNat + 10
    else if 'A' ≤ c ∧ c ≤ 'F' then c.toNat - 'A'.toNat + 10
    else base
  if d < base then some d else none

def scanDigits (base : Nat) : Nat → List Char → List Nat × List Char
  | 0, s => ([], s)
  | _ + 1, [] => ([], [])
  | width + 1, c :: s =>
    match digitValue base c with
    | some d => (d :: (scanDigits base width s).1, (scanDigits base width s).2)
    | none => ([], c :: s)

def valueOf (base : Nat) (ds : List Nat) : Nat := ds.foldl (fun v d => base * v + d) 0

def scanSign (width : Nat) : List Char → Bool × Nat × List Char
  | '-' :: s => (true, width - 1, s)
  | '+' :: s => (false, width - 1, s)
  | s => (false, width, s)

def scanRadix (base width : Nat) (s : List Char) : Nat × List Char :=
  if base = 16 then
    match s with
    | '0' :: 'x' :: s => (width - 2, s)
    | '0' :: 'X' :: s => (width - 2, s)
    | s => (width, s)
  else (width, s)

/-- An integer conversion of `sscanf`, and what follows the number. -/
def scanNumber (base : Nat) (width : Nat) (s : List Char) : Option (Int × List Char) :=
  let (negative, width, s) := scanSign width (s.dropWhile Char.isWhitespace)
  let (width, s) := scanRadix base width s
  match scanDigits base width s with
  | ([], _) => none
  | (ds, rest) =>
    some (if negative then -(valueOf base ds : Int) else (valueOf base ds : Int), rest)

/-- A literal character of a format, or a conversion with its base and its width, if it has one. -/
inductive Directive where
  | char (c : Char)
  | number (base : Nat) (width : Option Nat)

def sscanf : List Directive → List Char → List Int
  | [], _ => []
  | .char _ :: _, [] => []
  | .char c :: format, d :: s => if c = d then sscanf format s else []
  | .number base width :: format, s =>
    match scanNumber base (width.getD s.length) s with
    | some (v, s) => v :: sscanf format s
    | none => []

def strstr (pattern : List Char) : List Char → Option (List Char)
  | [] => if pattern = [] then some [] else none
  | c :: s => if pattern <+: c :: s then some (c :: s) else strstr pattern s

def Spells (base : Nat) (t : List Char) (n : Nat) : Prop :=
  ∃ ds, t.map (digitValue base) = ds.map some ∧ t ≠ [] ∧ valueOf base ds = n

theorem valueOf_snoc (d : Nat) : valueOf base (ds ++ [d]) = base * valueOf base ds + d := by
  simp [valueOf]

theorem valueOf_append (es : List Nat) :
    valueOf base (ds ++ es) = valueOf base ds * base ^ es.length + valueOf base es := by
  induction es using List.reverseRecOn with
  | nil => simp [valueOf]
  | append_singleton es e ih =>
    rw [← append_assoc, valueOf_snoc, ih, valueOf_snoc, length_append, length_singleton, pow_succ]
    ring

variable {d : Nat} {w : Nat}

theorem digitValue_hexDigit (upper : Bool) (h : d < 16) :
    digitValue 16 (hexDigit upper d) = some d := by
  cases upper <;> interval_cases d <;> decide

theorem digitValue_digitChar (h : d < 10) : digitValue 10 d.digitChar = some d := by
  interval_cases d <;> decide

theorem length_hexText (upper : Bool) (w n : Nat) : (hexText upper w n).length = w := by
  induction w generalizing n with
  | zero => rfl
  | succ w ih => simp [hexText, ih]

variable {c : Char} {s : List Char}

theorem mem_hexText {upper : Bool} (h : c ∈ hexText upper w n) :
    ∃ d, d < 16 ∧ c = hexDigit upper d := by
  induction w generalizing n with
  | zero => cases h
  | succ w ih =>
    cases mem_append.mp h with
    | inl h => exact ih h
    | inr h => exact ⟨n % 16, Nat.mod_lt n (by decide), mem_singleton.mp h⟩

theorem length_octetsText (upper : Bool) (l : List UInt8) :
    (octetsText upper l).length = 2 * l.length := by
  induction l with
  | nil => rfl
  | cons b l ih =>
    rw [octetsText, flatMap_cons, length_append, length_hexText, ← octetsText, ih, length_cons]
    omega

theorem spells_hexText (upper : Bool) (hn : n < 16 ^ (w + 1)) :
    Spells 16 (hexText upper (w + 1) n) n := by
  induction w generalizing n with
  | zero =>
    refine ⟨[n], ?_, by simp [hexText], by simp [valueOf]⟩
    simp [hexText, Nat.mod_eq_of_lt (show n < 16 from hn), digitValue_hexDigit upper hn]
  | succ w ih =>
    obtain ⟨ds, hds, -, hvalue⟩ := ih (n := n / 16) (by rw [pow_succ] at hn; omega)
    refine ⟨ds ++ [n % 16], ?_, by simp [hexText], ?_⟩
    · rw [hexText, map_append, hds, map_append]
      simp [digitValue_hexDigit upper (Nat.mod_lt n (by decide))]
    · rw [valueOf_snoc, hvalue, Nat.div_add_mod]

theorem spells_decimalText (n : Nat) : Spells 10 (decimalText n) n := by
  induction n using Nat.strongRecOn with
  | ind n ih =>
    rcases lt_or_ge n 10 with hn | hn
    · refine ⟨[n], ?_, ?_, by simp [valueOf]⟩
      · simp [decimalText, Nat.toDigits_of_lt_base hn, digitValue_digitChar hn]
      · simp [decimalText, Nat.toDigits_of_lt_base hn]
    · obtain ⟨ds, hds, -, hvalue⟩ := ih (n / 10) (by omega)
      have hsplit : decimalText n = decimalText (n / 10) ++ [(n % 10).digitChar] :=
        Nat.toDigits_of_base_le (by decide) hn
      refine ⟨ds ++ [n % 10], ?_, by simp [hsplit], ?_⟩
      · rw [hsplit, map_append, hds, map_append]
        simp [digitValue_digitChar (Nat.mod_lt n (by decide : 0 < 10))]
      · rw [valueOf_snoc, hvalue, Nat.div_add_mod]

def Stops (base : Nat) (rest : List Char) : Prop := ∀ c ∈ rest.head?, digitValue base c = none

theorem scanDigits_append (ht : t.map (digitValue base) = ds.map some)
    (hwidth : t.length = width ∨ t.length ≤ width ∧ Stops base rest) :
    scanDigits base width (t ++ rest) = (ds, rest) := by
  induction t generalizing ds width with
  | nil =>
    obtain rfl : ds = [] := map_eq_nil_iff.mp ht.symm
    cases width with
    | zero => rfl
    | succ width =>
      obtain ⟨-, hstops⟩ := hwidth.resolve_left (by simp)
      cases rest with
      | nil => rfl
      | cons c rest =>
        have hc : digitValue base c = none := hstops c rfl
        simp [scanDigits, hc]
  | cons c t ih =>
    cases ds with
    | nil => simp at ht
    | cons d ds =>
      simp only [map_cons, List.cons.injEq] at ht
      cases width with
      | zero => simp at hwidth
      | succ width =>
        have hrest : scanDigits base width (t ++ rest) = (ds, rest) :=
          ih ht.2 (by simpa using hwidth)
        simp [scanDigits, ht.1, hrest]

def Plain (c : Char) : Prop := c.isDigit = false ∧ ¬ ('a' ≤ c ∧ c ≤ 'f') ∧ ¬ ('A' ≤ c ∧ c ≤ 'F')

instance (c : Char) : Decidable (Plain c) := inferInstanceAs (Decidable (_ ∧ _ ∧ _))

theorem Plain.digitValue_eq (h : Plain c) (base : Nat) : digitValue base c = none := by
  obtain ⟨hdigit, hlower, hupper⟩ := h
  simp [digitValue, hdigit, hlower, hupper]

theorem Plain.stops (h : Plain c) (base : Nat) (rest : List Char) : Stops base (c :: rest) := by
  rintro d hd
  cases hd
  exact h.digitValue_eq base

theorem plain_of_isWhitespace (h : c.isWhitespace = true) : Plain c := by
  simp only [Char.isWhitespace, Bool.or_eq_true, decide_eq_true_eq] at h
  obtain ((rfl | rfl) | rfl) | rfl := h <;> decide

theorem not_plain_of_digit (h : digitValue base c = some d) : ¬ Plain c := by
  rintro hplain
  rw [hplain.digitValue_eq base] at h
  cases h

theorem scanSign_digit (hc : ¬ Plain c) : scanSign width (c :: s) = (false, width, c :: s) := by
  unfold scanSign
  split
  case h_1 heq =>
    obtain ⟨rfl, -⟩ := List.cons.inj heq
    exact absurd (by decide) hc
  case h_2 heq =>
    obtain ⟨rfl, -⟩ := List.cons.inj heq
    exact absurd (by decide) hc
  case h_3 => rfl

theorem scanRadix_digits (h : base = 16 → ∃ c d r, s = c :: d :: r ∧ ¬ Plain d) :
    scanRadix base width s = (width, s) := by
  unfold scanRadix
  split
  case isFalse => rfl
  case isTrue hbase =>
    obtain ⟨c, d, r, rfl, hd⟩ := h hbase
    split
    case h_1 heq =>
      obtain ⟨-, heq⟩ := List.cons.inj heq
      obtain ⟨rfl, -⟩ := List.cons.inj heq
      exact absurd (by decide) hd
    case h_2 heq =>
      obtain ⟨-, heq⟩ := List.cons.inj heq
      obtain ⟨rfl, -⟩ := List.cons.inj heq
      exact absurd (by decide) hd
    case h_3 => rfl

theorem stops_nil (base : Nat) : Stops base [] := by
  rintro c hc
  cases hc

theorem length_decimalText_le {k : Nat} (hk : 0 < k) (hn : n < 10 ^ k) :
    (decimalText n).length ≤ k :=
  (Nat.length_toDigits_le_iff (by decide) hk).mpr hn

theorem Spells.digits (h : Spells base t n) : ∀ c ∈ t, ¬ Plain c := by
  obtain ⟨ds, hds, -, -⟩ := h
  rintro c hc
  have hmem : digitValue base c ∈ ds.map some := hds ▸ mem_map_of_mem hc
  obtain ⟨d, -, hd⟩ := mem_map.mp hmem
  exact not_plain_of_digit hd.symm

theorem Spells.append {t' : List Char} {n' : Nat} (h : Spells base t n) (h' : Spells base t' n') :
    Spells base (t ++ t') (n * base ^ t'.length + n') := by
  obtain ⟨ds, hds, hne, rfl⟩ := h
  obtain ⟨es, hes, -, rfl⟩ := h'
  have hlen : t'.length = es.length := by simpa using congrArg List.length hes
  refine ⟨ds ++ es, by simp [hds, hes], by simp [hne], ?_⟩
  rw [valueOf_append, hlen]

theorem octet_spells (upper : Bool) (b : UInt8) : Spells 16 (hexText upper 2 b.toNat) b.toNat :=
  spells_hexText upper (lt_of_lt_of_le b.toNat_lt (by decide))

theorem spells_octetsText (upper : Bool) {l : List UInt8} (hl : l ≠ []) :
    Spells 16 (octetsText upper l) (number l) := by
  induction l with
  | nil => exact absurd rfl hl
  | cons b l ih =>
    cases l with
    | nil => simpa [octetsText, number] using octet_spells upper b
    | cons b' l =>
      have htail := (octet_spells upper b).append (ih (by simp))
      rw [length_octetsText, Nat.pow_mul] at htail
      exact htail

theorem plain_not_mem_decimalText (n : Nat) (hc : Plain c) : c ∉ decimalText n :=
  fun h => (spells_decimalText n).digits c h hc

theorem plain_not_mem_octetsText (upper : Bool) (l : List UInt8) (hc : Plain c) :
    c ∉ octetsText upper l := by
  rintro h
  obtain ⟨b, -, hb⟩ := mem_flatMap.mp h
  exact (octet_spells upper b).digits c hb hc

theorem dropWhile_digit (hc : ¬ Plain c) : (c :: s).dropWhile Char.isWhitespace = c :: s := by
  rw [dropWhile_cons_of_neg]
  exact fun hspace => hc (plain_of_isWhitespace hspace)

section

variable (ht : Spells base t n) (hradix : base = 16 → 2 ≤ t.length)
  (hwidth : t.length = width ∨ t.length ≤ width ∧ Stops base rest)
include ht hradix hwidth

theorem scan_spells : scanRadix base width (t ++ rest) = (width, t ++ rest) ∧
      ∃ d ds, scanDigits base width (t ++ rest) = (d :: ds, rest) ∧ valueOf base (d :: ds) = n := by
  have hdigits := ht.digits
  obtain ⟨ds, hds, hne, hvalue⟩ := ht
  refine ⟨scanRadix_digits fun hbase => ?_, ?_⟩
  · have hlong := hradix hbase
    match t, hlong with
    | c :: d :: t, _ => exact ⟨c, d, t ++ rest, rfl, hdigits d (by simp)⟩
  · cases ds with
    | nil => exact absurd (map_eq_nil_iff.mp hds) hne
    | cons d ds => exact ⟨d, ds, scanDigits_append hds hwidth, hvalue⟩

theorem scanNumber_spells : scanNumber base width (t ++ rest) = some ((n : Int), rest) := by
  obtain ⟨hskip, d, ds, hscan, hvalue⟩ := scan_spells ht hradix hwidth
  have hfirst : ∃ c s, t ++ rest = c :: s ∧ ¬ Plain c := by
    have hdigits := ht.digits
    obtain ⟨-, -, hne, -⟩ := ht
    match t, hne with
    | c :: t, _ => exact ⟨c, t ++ rest, rfl, hdigits c (by simp)⟩
  obtain ⟨c, s, htext, hc⟩ := hfirst
  rw [htext] at hskip hscan ⊢
  simp [scanNumber, dropWhile_digit hc, scanSign_digit hc, hskip, hscan, hvalue]

end

theorem scanNumber_negative (ht : Spells 10 t n) (hlen : t.length < width)
    (hstops : Stops 10 rest) :
    scanNumber 10 width ('-' :: (t ++ rest)) = some (-(n : Int), rest) := by
  have hlen' : t.length ≤ width - 1 := by omega
  obtain ⟨hskip, d, ds, hscan, hvalue⟩ := scan_spells ht (by simp) (.inr ⟨hlen', hstops⟩)
  have hspace : ('-' :: (t ++ rest)).dropWhile Char.isWhitespace = '-' :: (t ++ rest) := rfl
  simp [scanNumber, hspace, scanSign, hskip, hscan, hvalue]

variable {format : List Directive}

@[simp]
theorem sscanf_nil (s : List Char) : sscanf [] s = [] := by
  cases s <;> rfl

@[simp]
theorem sscanf_char (c : Char) (s : List Char) :
    sscanf (.char c :: format) (c :: s) = sscanf format s := by
  simp [sscanf]

theorem sscanf_number (ht : Spells base t n) (hradix : base = 16 → 2 ≤ t.length)
    (hstops : Stops base rest) :
    sscanf (.number base none :: format) (t ++ rest) = (n : Int) :: sscanf format rest := by
  have hscan : scanNumber base (t ++ rest).length (t ++ rest) = some ((n : Int), rest) :=
    scanNumber_spells ht hradix (.inr ⟨by simp, hstops⟩)
  rw [sscanf, Option.getD_none, hscan]

theorem sscanf_spells (ht : Spells 10 t n) (hstops : Stops 10 rest) :
    sscanf (.number 10 none :: format) (t ++ rest) = (n : Int) :: sscanf format rest :=
  sscanf_number ht (by simp) hstops

theorem sscanf_decimal (n : Nat) (hstops : Stops 10 rest) :
    sscanf (.number 10 none :: format) (decimalText n ++ rest) = (n : Int) :: sscanf format rest :=
  sscanf_spells (spells_decimalText n) hstops

theorem sscanf_int (i : Int) (hstops : Stops 10 rest) :
    sscanf (.number 10 none :: format) (intText i ++ rest) = i :: sscanf format rest := by
  cases i with
  | ofNat n => exact sscanf_decimal n hstops
  | negSucc n =>
    have hlen : (decimalText (n + 1)).length < ('-' :: (decimalText (n + 1) ++ rest)).length := by
      rw [length_cons, length_append]
      omega
    have hscan : scanNumber 10 ('-' :: (decimalText (n + 1) ++ rest)).length
        ('-' :: (decimalText (n + 1) ++ rest)) = some (Int.negSucc n, rest) :=
      scanNumber_negative (spells_decimalText (n + 1)) hlen hstops
    rw [intText, cons_append, sscanf, Option.getD_none, hscan]

theorem sscanf_hex (upper : Bool) (hn : n < 16 ^ (w + 2)) :
    sscanf (.number 16 (some (w + 2)) :: format) (hexText upper (w + 2) n ++ rest) =
      (n : Int) :: sscanf format rest := by
  have hlen := length_hexText upper (w + 2) n
  have hscan : scanNumber 16 (w + 2) (hexText upper (w + 2) n ++ rest) = some ((n : Int), rest) :=
    scanNumber_spells (spells_hexText upper hn) (by simp [hlen]) (.inl hlen)
  rw [sscanf, Option.getD_some, hscan]

theorem takeWhile_ne (ht : c ∉ t) : t.takeWhile (· ≠ c) = t :=
  takeWhile_eq_self_iff.mpr fun _ hd => decide_eq_true (ne_of_mem_of_not_mem hd ht)

theorem takeWhile_ne_append (ht : c ∉ t) : (t ++ c :: rest).takeWhile (· ≠ c) = t := by
  rw [takeWhile_append_of_pos fun _ hd => decide_eq_true (ne_of_mem_of_not_mem hd ht)]
  simp

theorem dropWhile_ne_append (ht : c ∉ t) : (t ++ c :: rest).dropWhile (· ≠ c) = c :: rest := by
  rw [dropWhile_append_of_pos fun _ hd => decide_eq_true (ne_of_mem_of_not_mem hd ht)]
  simp

theorem strstr_front (pattern s : List Char) :
    strstr pattern (pattern ++ s) = some (pattern ++ s) := by
  cases h : pattern ++ s with
  | nil => simp [strstr, (append_eq_nil_iff.mp h).1]
  | cons c s' => rw [strstr, if_pos ⟨s, h⟩]

variable {a b : Char} {x y : List Char}

theorem strstr_skip (hx : '=' ∉ x) (hy : y.head? ≠ some '=') :
    strstr [a, '='] (x ++ y) = strstr [a, '='] y := by
  induction x with
  | nil => rfl
  | cons c x ih =>
    have htail : '=' ∉ x := fun h => hx (mem_cons_of_mem c h)
    have hnext : (x ++ y).head? ≠ some '=' := by
      cases x with
      | nil => exact hy
      | cons d x =>
        rintro h
        cases h
        exact htail mem_cons_self
    rw [cons_append, strstr, if_neg, ih htail]
    rintro ⟨r, hr⟩
    obtain ⟨-, hr⟩ := List.cons.inj hr
    exact hnext (by rw [← hr]; rfl)

theorem strstr_other (hab : a ≠ b) (ha : a ≠ '=') :
    strstr [a, '='] (b :: '=' :: y) = strstr [a, '='] y := by
  rw [strstr, if_neg, strstr, if_neg]
  · rintro ⟨r, hr⟩
    exact ha (List.cons.inj hr).1
  · rintro ⟨r, hr⟩
    exact hab (List.cons.inj hr).1

theorem strstr_none (hx : '=' ∉ x) : strstr [a, '='] x = none := by
  have hskip := strstr_skip (a := a) (y := []) hx (by simp)
  rw [append_nil] at hskip
  rw [hskip]
  rfl

end OpenAvb
