import OpenAvb.Text

/-!
# The parser of labelled fields, in its buffer

`parse` looks for a label, ends the text for the time of a conversion at the next comma and goes
on behind it. The model keeps the bytes of the caller's buffer and the addresses that are read.
-/

namespace OpenAvb.Common

def nul : Char := Char.ofNat 0

structure Buffer where
  bytes : List Char
  reads : List Int

namespace Buffer

/-- The value of a byte outside of the buffer does not matter: its address is kept. -/
def read (b : Buffer) (a : Nat) : Char × Buffer :=
  (b.bytes.getD a nul, { b with reads := b.reads ++ [(a : Int)] })

def write (b : Buffer) (a : Nat) (c : Char) : Buffer := { b with bytes := b.bytes.set a c }

/-- What the C library reads of a string: its bytes and the zero behind them, or behind the
buffer. -/
def cString (b : Buffer) (a : Nat) : List Char × Buffer :=
  let text := (b.bytes.drop a).takeWhile (· ≠ nul)
  (text, { b with reads := b.reads ++ (List.range' a (text.length + 1)).map Int.ofNat })

/-- The search for a zero from the end, with `i + 1` as the counter; the byte is read first. -/
def findNul (b : Buffer) : Nat → Bool × Buffer
  | 0 => (false, { b with reads := b.reads ++ [-1] })
  | i + 1 =>
    let r := b.read i
    if r.1 ≠ nul then r.2.findNul i else (true, r.2)

def seekDelimiter (b : Buffer) : Nat → Nat → Nat × Buffer
  | 0, a => (a, (b.read a).2)
  | k + 1, a =>
    let r := b.read a
    if r.1 ≠ ',' then r.2.seekDelimiter k (a + 1) else (a, r.2)

end Buffer

inductive ParseTypes where
  | null | u8 | u16 | u16x04 | u32 | u64 | h64 | c64 | mac
  deriving DecidableEq

/-- `struct parse_param`, but for the place that the value is written to -/
structure ParseParam where
  name : List Char
  type : ParseTypes

/-- What is kept of a number. An array of octets gets its digits, the first one the highest. -/
def ParseTypes.store : ParseTypes → Int → Nat
  | null, _ => 0
  | u8, v => (UInt32.ofInt v).toUInt8.toNat
  | u16, v | u16x04, v => (UInt32.ofInt v).toUInt16.toNat
  | u32, v => (UInt32.ofInt v).toNat
  | u64, v | h64, v | c64, v => (UInt64.ofInt v).toNat
  | mac, v => (UInt64.ofInt v).toNat % 2 ^ 48

def ParseTypes.format : ParseTypes → List Directive
  | null => []
  | u8 | u16 | u32 | u64 => [.number 10 none]
  | u16x04 => [.number 16 (some 4)]
  | h64 | c64 | mac => [.number 16 none]

/-- What `sscanf` returns in the call with a number, for a type and a text, and the value it
converts. -/
abbrev Sscanf := Nat → ParseTypes → List Char → Int × Int

def Sscanf.library : Sscanf := fun _ type text =>
  match (sscanf type.format text)[0]? with
  | some v => (1, v)
  | none => (0, 0)

section

variable (sscanf : Sscanf)

/-- The result of a conversion; there is none for `parse_null`, which keeps the result before. -/
def Sscanf.convert (count : Nat) (type : ParseTypes) (result : Int) (text : List Char) : Int :=
  if type = .null then result else (sscanf count type text).1

def Sscanf.values (count : Nat) (type : ParseTypes) (text : List Char) : List Nat :=
  if type = .null then []
  else if (sscanf count type text).1 = 1 then [type.store (sscanf count type text).2]
  else []

/-- What `parse` returns and leaves behind; the error index is not set on every path. -/
structure ParseResult where
  ret : Int
  errIndex : Option Nat
  values : List Nat
  buffer : Buffer

def ParseResult.outcome (r : ParseResult) : Int × Option Nat × List Nat :=
  (r.ret, r.errIndex, r.values)

def convertField (count : Nat) (type : ParseTypes) (result : Int) (data : Nat)
    (b : Buffer) : Int × List Nat × Buffer :=
  if type = .null then (result, [], b)
  else
    let (text, b) := b.cString data
    let (result, v) := sscanf count type text
    (result, if result = 1 then [type.store v] else [], b)

inductive FieldOutcome where
  | missing (b : Buffer)
  | failed (values : List Nat) (b : Buffer)
  | parsed (values : List Nat) (s : Nat) (result : Int) (b : Buffer)

def parseData (guard count : Nat) (type : ParseTypes) (result : Int)
    (s data : Nat) (b : Buffer) : FieldOutcome :=
  let (delimiter, b) := b.seekDelimiter (guard - data) data
  if delimiter < guard then
    let (result, values, b) := convertField sscanf count type result data (b.write delimiter nul)
    if result ≠ 1 then .failed values b
    else .parsed values (delimiter + 1) result (b.write delimiter ',')
  else
    let (result, values, b) := convertField sscanf count type result data b
    if result ≠ 1 then .failed values b else .parsed values s result b

def parseField (guard : Nat) (spec : ParseParam) (s count : Nat) (result : Int)
    (b : Buffer) : FieldOutcome :=
  let (text, b) := b.cString s
  match strstr spec.name text with
  | none => .missing b
  | some found =>
    let param := s + (text.length - found.length)
    parseData sscanf guard count spec.type result s (param + spec.name.length) b

def parseLoop (sscanf : Sscanf) (guard : Nat) :
    List ParseParam → (s count : Nat) → (result : Int) → List Nat → Buffer → ParseResult
  | [], _, _, _, values, b => ⟨0, some 0, values, b⟩
  | spec :: specs, s, count, result, values, b =>
    match parseField sscanf guard spec s count result b with
    | .missing b => ⟨-1, some (count + 1), values, b⟩
    | .failed value b => ⟨-1, some (count + 1), values ++ value, b⟩
    | .parsed value s result b =>
      parseLoop sscanf guard specs s (count + 1) result (values ++ value) b

def parse (s : List Char) (specs : List ParseParam) : ParseResult :=
  let (found, b) := Buffer.findNul ⟨s, []⟩ s.length
  if !found then ⟨-1, none, [], b⟩
  else
    let (text, b) := b.cString 0
    parseLoop sscanf text.length specs 0 0 0 [] b

end

def fieldValue (spec : ParseParam) (found : List Char) : List Char :=
  (found.drop spec.name.length).takeWhile (· ≠ ',')

def textLeft (spec : ParseParam) (found text : List Char) : List Char :=
  if ',' ∈ found.drop spec.name.length then
    ((found.drop spec.name.length).dropWhile (· ≠ ',')).drop 1
  else text

def parseText (sscanf : Sscanf) :
    List ParseParam → (text : List Char) → (count : Nat) → (result : Int) → List Nat →
      Int × Option Nat × List Nat
  | [], _, _, _, values => (0, some 0, values)
  | spec :: specs, text, count, result, values =>
    match strstr spec.name text with
    | none => (-1, some (count + 1), values)
    | some found =>
      let result := sscanf.convert count spec.type result (fieldValue spec found)
      let values := values ++ sscanf.values count spec.type (fieldValue spec found)
      if result ≠ 1 then (-1, some (count + 1), values)
      else parseText sscanf specs (textLeft spec found text) (count + 1) result values

/-- Going through the fields of a text, a conversion fails at a value that a comma ends. -/
def FailsAtComma (sscanf : Sscanf) :
    List ParseParam → (text : List Char) → (count : Nat) → (result : Int) → Prop
  | [], _, _, _ => False
  | spec :: specs, text, count, result =>
    match strstr spec.name text with
    | none => False
    | some found =>
      let result := sscanf.convert count spec.type result (fieldValue spec found)
      if result ≠ 1 then ',' ∈ found.drop spec.name.length
      else FailsAtComma sscanf specs (textLeft spec found text) (count + 1) result

section
variable (sscanf : Sscanf) {spec : ParseParam}

theorem parseText_missing (h : strstr spec.name text = none) :
    parseText sscanf (spec :: specs) text count result values = (-1, some (count + 1), values) := by
  rw [parseText, h]

theorem parseText_failed (h : strstr spec.name text = some found)
    (hresult : sscanf.convert count spec.type result (fieldValue spec found) ≠ 1) :
    (parseText sscanf (spec :: specs) text count result values).1 = -1 := by
  simp [parseText, h, hresult]

theorem parseText_parsed (h : strstr spec.name text = some found)
    (hresult : sscanf.convert count spec.type result (fieldValue spec found) = 1) :
    parseText sscanf (spec :: specs) text count result values =
      parseText sscanf specs (textLeft spec found text) (count + 1) 1
        (values ++ sscanf.values count spec.type (fieldValue spec found)) := by
  simp [parseText, h, hresult]

end

def Buffer.Safe (b : Buffer) : Prop := ∀ a ∈ b.reads, 0 ≤ a ∧ a < b.bytes.length

namespace Buffer

variable {b : Buffer}

@[simp] theorem bytes_read (b : Buffer) (a : Nat) : (b.read a).2.bytes = b.bytes := rfl

@[simp] theorem bytes_cString (b : Buffer) (a : Nat) : (b.cString a).2.bytes = b.bytes := rfl

theorem Safe.read (h : b.Safe) (ha : a < b.bytes.length) : (b.read a).2.Safe := by
  intro x hx
  rcases List.mem_append.mp hx with hx | hx
  · exact h x hx
  · obtain rfl : x = (a : Int) := by simpa using hx
    simpa [Buffer.read] using ha

theorem Safe.write (h : b.Safe) : (b.write a c).Safe := by
  intro x hx
  simpa [Buffer.write] using h x hx

theorem cString_eq (hb : b.bytes = x ++ (text ++ nul :: y)) (htext : nul ∉ text) :
    (b.cString x.length).1 = text := by
  simp only [cString, hb, List.drop_left]
  exact takeWhile_ne_append htext

theorem Safe.cString (h : b.Safe) (hb : b.bytes = x ++ (text ++ nul :: y)) (htext : nul ∉ text) :
    (b.cString x.length).2.Safe := by
  intro i hi
  rcases List.mem_append.mp hi with hi | hi
  · exact h i hi
  · have htext' := cString_eq hb htext
    simp only [Buffer.cString] at htext' hi
    rw [htext'] at hi
    obtain ⟨j, hj, rfl⟩ := List.mem_map.mp hi
    rw [List.mem_range'_1] at hj
    simp only [bytes_cString, hb, List.length_append, List.length_cons]
    simp only [Int.ofNat_eq_natCast]
    omega

theorem findNul_spec (b : Buffer) (n : Nat) (hn : n ≤ b.bytes.length) (h : b.Safe) :
    (b.findNul n).2.bytes = b.bytes ∧ ((b.findNul n).1 = true ↔ nul ∈ b.bytes.take n) ∧
      ((b.findNul n).2.Safe ↔ (b.findNul n).1 = true) := by
  induction n generalizing b with
  | zero =>
    refine ⟨rfl, by simp [findNul], ?_⟩
    simp only [findNul, Bool.false_eq_true, iff_false]
    intro hsafe
    have := hsafe (-1) (by simp)
    omega
  | succ n ih =>
    have hlt : n < b.bytes.length := hn
    have hget : (b.read n).1 = b.bytes[n] := by simp [read, hlt]
    have htake : b.bytes.take (n + 1) = b.bytes.take n ++ [b.bytes[n]] :=
      List.take_succ_eq_append_getElem hlt
    rw [findNul, htake]
    by_cases hnul : (b.read n).1 = nul
    · simp only [hnul, ne_eq, not_true_eq_false, ↓reduceIte, true_iff]
      refine ⟨rfl, ?_, ?_⟩
      · rw [← hget, hnul]
        simp
      · simpa using h.read hlt
    · simp only [hnul, ne_eq, not_false_eq_true, ↓reduceIte]
      obtain ⟨hbytes, hfound, hsafe⟩ := ih (b.read n).2 (le_of_lt hlt) (h.read hlt)
      refine ⟨hbytes, ?_, hsafe⟩
      rw [hfound, List.mem_append, ← hget]
      simp [Ne.symm hnul]

theorem seekDelimiter_spec (hb : b.bytes = x ++ (data ++ nul :: y)) (h : b.Safe) :
    (b.seekDelimiter data.length x.length).1 = x.length + (data.takeWhile (· ≠ ',')).length ∧
      (b.seekDelimiter data.length x.length).2.bytes = b.bytes ∧
      (b.seekDelimiter data.length x.length).2.Safe := by
  induction data generalizing x b with
  | nil => exact ⟨rfl, rfl, h.read (by simp [hb])⟩
  | cons c data ih =>
    have hlt : x.length < b.bytes.length := by simp [hb]
    have hget : (b.read x.length).1 = c := by simp [read, hb]
    by_cases hc : c = ','
    · have hstep : b.seekDelimiter (data.length + 1) x.length =
          (x.length, (b.read x.length).2) := by simp [seekDelimiter, hget, hc]
      rw [List.length_cons, hstep]
      exact ⟨by simp [hc], rfl, h.read hlt⟩
    · have hstep : b.seekDelimiter (data.length + 1) x.length =
          (b.read x.length).2.seekDelimiter data.length (x.length + 1) := by
        simp [seekDelimiter, hget, hc]
      obtain ⟨hpos, hbytes, hsafe⟩ :=
        ih (x := x ++ [c]) (b := (b.read x.length).2) (by simp [hb]) (h.read hlt)
      simp only [List.length_append, List.length_singleton] at hpos hbytes hsafe
      rw [List.length_cons, hstep]
      refine ⟨?_, hbytes, hsafe⟩
      rw [hpos, List.takeWhile_cons_of_pos (by simpa using hc), List.length_cons]
      omega

end Buffer

theorem strstr_eq_some (h : strstr name text = some found) :
    ∃ before data, text = before ++ found ∧ found = name ++ data := by
  induction text with
  | nil =>
    rw [strstr] at h
    split at h
    case isTrue hname =>
      cases h
      exact ⟨[], [], rfl, by simp [hname]⟩
    case isFalse => cases h
  | cons c text ih =>
    rw [strstr] at h
    split at h
    case isTrue hname =>
      cases h
      obtain ⟨data, hdata⟩ := hname
      exact ⟨[], data, rfl, hdata.symm⟩
    case isFalse =>
      obtain ⟨before, data, rfl, hfound⟩ := ih h
      exact ⟨c :: before, data, rfl, hfound⟩

theorem split_comma (data : List Char) : (',' ∉ data ∧ data.takeWhile (· ≠ ',') = data) ∨
      ∃ rest, ',' ∈ data ∧ data = data.takeWhile (· ≠ ',') ++ ',' :: rest ∧
        (data.dropWhile (· ≠ ',')).drop 1 = rest := by
  by_cases hc : ',' ∈ data
  · obtain ⟨v, rest, rfl, hv⟩ := List.eq_append_cons_of_mem hc
    exact .inr ⟨rest, hc, by rw [takeWhile_ne_append hv], by rw [dropWhile_ne_append hv]; rfl⟩
  · exact .inl ⟨hc, takeWhile_ne hc⟩

theorem set_middle (p v r : List Char) (c d : Char) :
    (p ++ (v ++ c :: r)).set (p.length + v.length) d = p ++ (v ++ d :: r) := by
  rw [List.set_append_right _ _ (Nat.le_add_right ..), Nat.add_sub_cancel_left,
    List.set_append_right _ _ (le_refl _), Nat.sub_self, List.set_cons_zero]

section
variable (sscanf : Sscanf) (count : Nat) (type : ParseTypes) (result : Int) {b : Buffer}

theorem convertField_spec (hb : b.bytes = x ++ (text ++ nul :: y)) (htext : nul ∉ text)
    (h : b.Safe) : ∃ b', convertField sscanf count type result x.length b =
        (sscanf.convert count type result text, sscanf.values count type text, b') ∧
      b'.bytes = b.bytes ∧ b'.Safe := by
  unfold convertField Sscanf.convert Sscanf.values
  split
  · exact ⟨b, rfl, rfl, h⟩
  · refine ⟨(b.cString x.length).2, ?_, rfl, h.cString hb htext⟩
    simp only [Buffer.cString_eq hb htext]

variable {before : List Char} {b : Buffer}

theorem parseData_spec (hb : b.bytes = x ++ (before ++ data) ++ nul :: y)
    (htext : nul ∉ before ++ data) (h : b.Safe) : ∃ b' x', b'.Safe ∧
      parseData sscanf (x.length + (before ++ data).length) count type result x.length
          (x.length + before.length) b =
        (if sscanf.convert count type result (data.takeWhile (· ≠ ',')) ≠ 1 then
          .failed (sscanf.values count type (data.takeWhile (· ≠ ','))) b' else
          .parsed (sscanf.values count type (data.takeWhile (· ≠ ','))) x'.length
            (sscanf.convert count type result (data.takeWhile (· ≠ ','))) b') ∧
      (b'.bytes = b.bytes ↔
        ¬ (sscanf.convert count type result (data.takeWhile (· ≠ ',')) ≠ 1 ∧ ',' ∈ data)) ∧
      b.bytes = x' ++ (if ',' ∈ data then (data.dropWhile (· ≠ ',')).drop 1 else before ++ data) ++
        nul :: y := by
  have hdata : nul ∉ data := fun hmem => htext (List.mem_append_right _ hmem)
  have hb' : b.bytes = (x ++ before) ++ (data ++ nul :: y) := by simp [hb]
  obtain ⟨hdelimiter, hbytes, hsafe⟩ := Buffer.seekDelimiter_spec hb' h
  have hleft : x.length + (before ++ data).length - (x.length + before.length) = data.length := by
    simp only [List.length_append]
    omega
  rw [List.length_append] at hdelimiter hbytes hsafe
  rcases split_comma data with ⟨hcomma, hwhole⟩ | ⟨rest, hcomma, hvalue, hrest⟩
  · rw [hwhole] at hdelimiter
    have hend : ¬ x.length + before.length + data.length < x.length + (before ++ data).length := by
      omega
    obtain ⟨b', hconvert, hbytes', hsafe'⟩ :=
      convertField_spec sscanf count type result (hbytes.trans hb') hdata hsafe
    rw [List.length_append] at hconvert
    refine ⟨b', x, hsafe', ?_, ?_, by simpa [hcomma] using hb⟩
    · simp only [parseData, hleft, hdelimiter, hend, if_false, hconvert, hwhole]
    · simp [hcomma, hbytes', hbytes]
  · set v := data.takeWhile (· ≠ ',') with hv
    have hcut : x.length + before.length + v.length < x.length + (before ++ data).length := by
      rw [hvalue]
      simp only [List.length_append, List.length_cons]
      omega
    have hnul : nul ∉ v := fun hmem => hdata (List.takeWhile_subset _ hmem)
    have hb : b.bytes = (x ++ before) ++ (v ++ ',' :: (rest ++ nul :: y)) := by
      rw [hb', hvalue]
      simp
    have hset : ∀ c d, ((x ++ before) ++ (v ++ c :: (rest ++ nul :: y))).set
        (x.length + before.length + v.length) d =
          (x ++ before) ++ (v ++ d :: (rest ++ nul :: y)) := by
      intro c d
      rw [← List.length_append]
      exact set_middle ..
    -- the text ends at the comma while it is converted
    have hwrite : ((b.seekDelimiter data.length (x.length + before.length)).2.write
        (x.length + before.length + v.length) nul).bytes =
          (x ++ before) ++ (v ++ nul :: (rest ++ nul :: y)) := by
      rw [Buffer.write, hbytes, hb, hset]
    obtain ⟨b', hconvert, hbytes', hsafe'⟩ :=
      convertField_spec sscanf count type result hwrite hnul hsafe.write
    rw [hwrite] at hbytes'
    rw [List.length_append] at hconvert
    have hleft' : b.bytes = (x ++ (before ++ (v ++ [',']))) ++
        (if ',' ∈ data then (data.dropWhile (· ≠ ',')).drop 1 else before ++ data) ++ nul :: y := by
      rw [if_pos hcomma, hrest, hb]
      simp
    have hnext : (x ++ (before ++ (v ++ [',']))).length =
        x.length + before.length + v.length + 1 := by
      simp only [List.length_append, List.length_singleton]
      omega
    by_cases hresult : sscanf.convert count type result v = 1
    · refine ⟨b'.write (x.length + before.length + v.length) ',', _, hsafe'.write, ?_, ?_, hleft'⟩
      · simp only [parseData, hleft, hdelimiter, hcut, if_true, hconvert, hnext]
        simp [hresult]
      · have hback : (b'.write (x.length + before.length + v.length) ',').bytes = b.bytes := by
          rw [Buffer.write, hbytes', hb, hset]
        simp [hback, hresult]
    · refine ⟨b', _, hsafe', ?_, ?_, hleft'⟩
      · simp only [parseData, hleft, hdelimiter, hcut, if_true, hconvert, hnext]
        simp [hresult]
      · have hchanged : b'.bytes ≠ b.bytes := by
          rw [hbytes', hb]
          simp [nul]
        simp [hchanged, hresult, hcomma]

end

theorem parseField_found (sscanf : Sscanf) (spec : ParseParam) (count : Nat) (result : Int)
    (hb : b.bytes = x ++ (text ++ nul :: y)) (htext : nul ∉ text)
    (hfound : strstr spec.name text = some (spec.name ++ data))
    (hsplit : text = before ++ (spec.name ++ data)) :
    parseField sscanf guardAt spec x.length count result b =
      parseData sscanf guardAt count spec.type result x.length
        (x.length + (before ++ spec.name).length) (b.cString x.length).2 := by
  have haddr : x.length + (text.length - (spec.name ++ data).length) + spec.name.length =
      x.length + (before ++ spec.name).length := by
    rw [hsplit]
    simp only [List.length_append]
    omega
  simp only [parseField, Buffer.cString_eq hb htext, hfound, haddr]

theorem parseLoop_frame (sscanf : Sscanf) (specs : List ParseParam)
    (hb : b.bytes = x ++ (text ++ nul :: y)) (htext : nul ∉ text) (h : b.Safe)
    (hguard : guardAt = x.length + text.length) :
    (parseLoop sscanf guardAt specs x.length count result values b).buffer.Safe ∧
      ((parseLoop sscanf guardAt specs x.length count result values b).buffer.bytes = b.bytes ↔
        ¬ FailsAtComma sscanf specs text count result) ∧
      (parseLoop sscanf guardAt specs x.length count result values b).outcome =
        parseText sscanf specs text count result values := by
  induction specs generalizing x text count result values b with
  | nil => exact ⟨h, by simp [parseLoop, FailsAtComma], rfl⟩
  | cons spec specs ih =>
    rw [parseLoop, FailsAtComma, parseText]
    cases hfound : strstr spec.name text with
    | none =>
      simp only [parseField, Buffer.cString_eq hb htext, hfound]
      exact ⟨h.cString hb htext, by simp, rfl⟩
    | some found =>
      obtain ⟨before, data, hsplit, rfl⟩ := strstr_eq_some hfound
      have hsplit' : text = (before ++ spec.name) ++ data := by rw [hsplit]; simp
      have hb' : (b.cString x.length).2.bytes =
          x ++ ((before ++ spec.name) ++ data) ++ nul :: y := by
        rw [Buffer.bytes_cString, hb, hsplit']
        simp
      obtain ⟨b', x', hsafe, houtcome, hbytes, hnext⟩ :=
        parseData_spec sscanf count spec.type result hb' (hsplit' ▸ htext) (h.cString hb htext)
      rw [parseField_found sscanf spec count result hb htext hfound hsplit, hguard, hsplit',
        houtcome]
      simp only [fieldValue, textLeft, List.drop_left]
      set value := data.takeWhile (· ≠ ',') with hvalue
      by_cases hresult : sscanf.convert count spec.type result value = 1
      · simp only [hresult, ne_eq, not_true_eq_false, if_false]
        have hsame : b'.bytes = b.bytes := hbytes.mpr (by simp [hresult])
        set left := if ',' ∈ data then (data.dropWhile (· ≠ ',')).drop 1
          else (before ++ spec.name) ++ data with hleft
        have hnul : nul ∉ left := by
          intro hmem
          refine htext (hsplit' ▸ ?_)
          rw [hleft] at hmem
          split at hmem
          · exact List.mem_append_right _
              ((List.dropWhile_suffix _).subset (List.mem_of_mem_drop hmem))
          · exact hmem
        have hlength : guardAt = x'.length + left.length := by
          have hlen := congrArg List.length (hb'.symm.trans hnext)
          simp only [List.length_append, List.length_cons, hguard, hsplit'] at hlen ⊢
          omega
        have hback : x.length + ((before ++ spec.name) ++ data).length = guardAt := by
          rw [hguard, hsplit']
        rw [hback, ← hsame]
        exact ih (hsame.trans (by simpa using hnext)) hnul hsafe hlength
      · simp only [hresult, ne_eq, not_false_eq_true, if_true]
        refine ⟨hsafe, ?_, rfl⟩
        simpa [hresult] using hbytes

def ParseResult.Framed (r : ParseResult) (s : List Char) : Prop :=
  (∀ a ∈ r.buffer.reads, 0 ≤ a ∧ a < s.length) ∧ r.buffer.bytes = s

theorem parse_spec (sscanf : Sscanf) (s : List Char) (specs : List ParseParam) :
    (nul ∉ s → ¬ (parse sscanf s specs).Framed s ∧
      (parse sscanf s specs).outcome = (-1, none, [])) ∧
    (nul ∈ s → ((parse sscanf s specs).Framed s ↔
        ¬ FailsAtComma sscanf specs (s.takeWhile (· ≠ nul)) 0 0) ∧ (parse sscanf s specs).outcome =
        parseText sscanf specs (s.takeWhile (· ≠ nul)) 0 0 []) := by
  have hempty : Buffer.Safe ⟨s, []⟩ := by simp [Buffer.Safe]
  obtain ⟨hbytes, hfound, hsafe⟩ := Buffer.findNul_spec ⟨s, []⟩ s.length (le_refl _) hempty
  simp only [List.take_length] at hfound
  set b := (Buffer.findNul ⟨s, []⟩ s.length).2 with hb
  constructor
  · intro hnul
    have hmissing : (Buffer.findNul ⟨s, []⟩ s.length).1 = false := by simpa using mt hfound.mp hnul
    have hparse : parse sscanf s specs = ⟨-1, none, [], b⟩ := by simp [parse, hmissing, ← hb]
    have hunsafe : ¬ b.Safe := mt hsafe.mp (mt hfound.mp hnul)
    refine ⟨?_, by rw [hparse]; rfl⟩
    rintro ⟨hreads, -⟩
    rw [hparse] at hreads
    refine hunsafe fun a ha => ?_
    simpa [hbytes] using hreads a ha
  · intro hnul
    obtain ⟨text, y, hsplit, htext⟩ := List.eq_append_cons_of_mem hnul
    have hstart : b.bytes = [] ++ (text ++ nul :: y) := by rw [hbytes, hsplit]; rfl
    have hsafe := hsafe.mpr (hfound.mpr hnul)
    have hcstring : (b.cString 0).1 = text := Buffer.cString_eq hstart htext
    have hparse : parse sscanf s specs =
        parseLoop sscanf text.length specs 0 0 0 [] (b.cString 0).2 := by
      simp [parse, hfound.mpr hnul, ← hb, hcstring, Bool.not_true, Bool.false_eq_true]
    have hstart' : (b.cString 0).2.bytes = [] ++ (text ++ nul :: y) := hstart
    have htake : s.takeWhile (· ≠ nul) = text := by
      rw [hsplit]
      exact takeWhile_ne_append htext
    obtain ⟨hreads, hframe, houtcome⟩ :
        (parse sscanf s specs).buffer.Safe ∧
          ((parse sscanf s specs).buffer.bytes = b.bytes ↔ ¬ FailsAtComma sscanf specs text 0 0) ∧
          (parse sscanf s specs).outcome = parseText sscanf specs text 0 0 [] := by
      rw [hparse]
      exact parseLoop_frame sscanf specs hstart' htext (hsafe.cString hstart htext) (by simp)
    rw [htake]
    refine ⟨?_, houtcome⟩
    rw [← hframe, hbytes, ParseResult.Framed]
    constructor
    · rintro ⟨-, hsame⟩
      exact hsame
    · intro hsame
      refine ⟨fun a ha => ?_, hsame⟩
      simpa [hsame] using hreads a ha

/-- The frame holds for the buffers that hold a zero and whose fields, gone through in order, have
no conversion that fails at a value ended by a comma. -/
theorem parse_framed_iff (sscanf : Sscanf) (s : List Char) (specs : List ParseParam) :
    (parse sscanf s specs).Framed s ↔
      nul ∈ s ∧ ¬ FailsAtComma sscanf specs (s.takeWhile (· ≠ nul)) 0 0 := by
  obtain ⟨hmissing, hthere⟩ := parse_spec sscanf s specs
  by_cases hnul : nul ∈ s
  · rw [(hthere hnul).1]
    exact (and_iff_right hnul).symm
  · exact iff_of_false (hmissing hnul).1 fun h => hnul h.1

/-- A field whose value cannot be read: the comma behind it stays overwritten. -/
theorem comma_lost :
    let sscanf : Sscanf := fun _ _ _ => (0, 0)
    let s := "C=x,P=3".toList ++ [nul]
    (parse sscanf s [⟨"C=".toList, .u8⟩, ⟨"P=".toList, .u8⟩]).ret = -1 ∧
      (parse sscanf s [⟨"C=".toList, .u8⟩, ⟨"P=".toList, .u8⟩]).buffer.bytes =
        "C=x".toList ++ nul :: "P=3".toList ++ [nul] ∧
      (parse sscanf ['C'] []).buffer.reads = [0, -1] := by
  decide

end OpenAvb.Common
