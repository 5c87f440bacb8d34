import Mathlib.Algebra.Group.Nat.Defs
import Mathlib.Data.List.DropRight
import Mathlib.Data.List.Induction

/-!
# Text files

Lines, unsigned decimal numbers and hexadecimal bytes, written to text and read back. What is read
back is what was written, for lines that a line break does not cut or shorten.
-/

namespace TextFormat

/-! ### UTF-8 -/

/-- The bytes of a text. -/
def toUtf8 (s : String) : List UInt8 := s.toUTF8.data.toList

/-- The text that the bytes encode, if they are valid. -/
def ofUtf8? (bytes : List UInt8) : Option String := String.fromUTF8? ⟨bytes.toArray⟩

@[simp] lemma ofUtf8?_toUtf8 (s : String) : ofUtf8? (toUtf8 s) = some s := by
  have hvalid : (⟨(toUtf8 s).toArray⟩ : ByteArray).IsValidUTF8 := s.isValidUTF8
  rw [ofUtf8?, String.fromUTF8?, dif_pos hvalid]
  rfl

@[simp] lemma toUtf8_empty : toUtf8 "" = [] := by decide

@[simp] lemma toUtf8_append (s t : String) : toUtf8 (s ++ t) = toUtf8 s ++ toUtf8 t := by
  simp [toUtf8]

/-! ### Lines -/

/-- A line ends before a line feed, or before a carriage return and a line feed. -/
def stripCr (line : List Char) : List Char :=
  if line.getLast? = some '\r' then line.dropLast else line

/-- The lines of a text behind the beginning `line` of the first; the last one need not be
terminated. -/
def linesFrom (line : List Char) : List Char → List (List Char)
  | []      => if line = [] then [] else [line]
  | c :: cs => if c = '\n' then stripCr line :: linesFrom [] cs else linesFrom (line ++ [c]) cs

/-- The lines of a text. -/
def lines (text : List Char) : List (List Char) := linesFrom [] text

/-- A text of terminated lines. -/
def unlines (ls : List (List Char)) : List Char := ls.flatMap fun l => l ++ ['\n']

/-- A line that is read back as it was written. -/
structure IsLine (line : List Char) : Prop where
  notMem : '\n' ∉ line
  getLast : line.getLast? ≠ some '\r'

/-- A line ends as its end does. -/
lemma isLine_append_iff {pre l : List Char} (hpre : IsLine pre) :
    IsLine (pre ++ l) ↔ IsLine l := by
  have hlast : (pre ++ l).getLast? = some '\r' ↔ l.getLast? = some '\r' := by
    rw [List.getLast?_append]
    cases l.getLast? with
    | none => simp [hpre.getLast]
    | some c => rfl
  constructor
  · intro h
    exact ⟨fun hmem => h.notMem (List.mem_append_right pre hmem), mt hlast.mpr h.getLast⟩
  · intro h
    exact ⟨List.not_mem_append hpre.notMem h.notMem, mt hlast.mp h.getLast⟩

lemma IsLine.stripCr {line : List Char} (h : IsLine line) : stripCr line = line := if_neg h.getLast

lemma length_stripCr_lt {line : List Char} (h : line.getLast? = some '\r') :
    (stripCr line).length < line.length := by
  have hne : line ≠ [] := by
    rintro rfl
    cases h
  rw [stripCr, if_pos h, List.length_dropLast]
  exact Nat.sub_one_lt (mt List.length_eq_zero_iff.mp hne)

lemma linesFrom_append (line l rest : List Char) (h : '\n' ∉ l) :
    linesFrom line (l ++ '\n' :: rest) = stripCr (line ++ l) :: lines rest := by
  induction l generalizing line with
  | nil => simp [linesFrom, lines]
  | cons c cs ih =>
    rw [List.mem_cons, not_or] at h
    rw [List.cons_append, linesFrom, if_neg (Ne.symm h.1), ih _ h.2, List.append_assoc]
    rfl

/-- The first line of a text. -/
lemma lines_append {l : List Char} (h : '\n' ∉ l) (rest : List Char) :
    lines (l ++ '\n' :: rest) = stripCr l :: lines rest :=
  linesFrom_append [] l rest h

theorem lines_unlines {ls : List (List Char)} (h : ∀ l ∈ ls, IsLine l) :
    lines (unlines ls) = ls := by
  induction ls with
  | nil => rfl
  | cons l ls ih =>
    obtain ⟨hl, hls⟩ := List.forall_mem_cons.mp h
    have hunlines : unlines (l :: ls) = l ++ '\n' :: unlines ls := by simp [unlines]
    rw [hunlines, lines_append hl.notMem, ih hls, hl.stripCr]

lemma notMem_stripCr {line : List Char} (h : '\n' ∉ line) : '\n' ∉ stripCr line := by
  unfold stripCr
  split_ifs
  · exact fun hmem => h (List.dropLast_subset line hmem)
  · exact h

lemma notMem_of_mem_linesFrom {line text l : List Char} (hline : '\n' ∉ line)
    (h : l ∈ linesFrom line text) : '\n' ∉ l := by
  induction text generalizing line with
  | nil =>
    rw [linesFrom] at h
    split_ifs at h
    · cases h
    · rwa [List.mem_singleton.mp h]
  | cons c cs ih =>
    rw [linesFrom] at h
    split_ifs at h with hc
    · rcases List.mem_cons.mp h with rfl | h
      · exact notMem_stripCr hline
      · exact ih List.not_mem_nil h
    · exact ih (by simp [hline, Ne.symm hc]) h

/-- No line contains a line feed. -/
lemma notMem_of_mem_lines {text l : List Char} (h : l ∈ lines text) : '\n' ∉ l :=
  notMem_of_mem_linesFrom List.not_mem_nil h

/-! ### Fields -/

/-- What follows the prefix of a line. -/
def stripPrefix? (pre line : List Char) : Option (List Char) :=
  if pre <+: line then some (line.drop pre.length) else none

@[simp] lemma stripPrefix?_append (pre l : List Char) : stripPrefix? pre (pre ++ l) = some l := by
  simp [stripPrefix?]

lemma stripPrefix?_eq_some {pre line l : List Char} :
    stripPrefix? pre line = some l ↔ line = pre ++ l := by
  constructor
  · intro h
    rw [stripPrefix?] at h
    split_ifs at h with hpre
    obtain ⟨t, rfl⟩ := hpre
    rw [List.drop_left, Option.some_inj] at h
    rw [h]
  · rintro rfl
    simp

/-- The characters that Unicode calls white space. -/
def isWhiteSpace (c : Char) : Bool :=
  c.toNat ∈ [0x9, 0xA, 0xB, 0xC, 0xD, 0x20, 0x85, 0xA0, 0x1680, 0x2000, 0x2001, 0x2002, 0x2003,
    0x2004, 0x2005, 0x2006, 0x2007, 0x2008, 0x2009, 0x200A, 0x2028, 0x2029, 0x202F, 0x205F, 0x3000]

/-- A text without the white space around it. -/
def trim (l : List Char) : List Char := (l.dropWhile isWhiteSpace).rdropWhile isWhiteSpace

/-! ### Decimal numbers -/

/-- An unsigned number of so many bits; it may begin with a plus sign. -/
def parseUnsigned (bits : ℕ) (s : List Char) : Option ℕ :=
  let digits := if s.head? = some '+' then s.tail else s
  if digits ≠ [] ∧ digits.all Char.isDigit = true ∧ Nat.ofDigitChars 10 digits 0 < 2 ^ bits then
    some (Nat.ofDigitChars 10 digits 0)
  else none

/-- A decimal number. -/
def decimal (n : ℕ) : List Char := Nat.toDigits 10 n

lemma isDigit_of_mem_decimal {n : ℕ} {c : Char} (h : c ∈ decimal n) : c.isDigit = true :=
  Nat.isDigit_of_mem_toDigits (by decide) (by decide) h

lemma isLine_of_forall {l : List Char} (h : ∀ c ∈ l, c ≠ '\n' ∧ c ≠ '\r') : IsLine l where
  notMem hmem := (h _ hmem).1 rfl
  getLast hlast := (h _ (List.mem_of_getLast? hlast)).2 rfl

lemma isLine_decimal (n : ℕ) : IsLine (decimal n) := by
  apply isLine_of_forall
  intro c hc
  have hdigit := isDigit_of_mem_decimal hc
  constructor <;> rintro rfl <;> cases hdigit

theorem parseUnsigned_decimal {bits n : ℕ} (h : n < 2 ^ bits) :
    parseUnsigned bits (decimal n) = some n := by
  have hplus : (decimal n).head? ≠ some '+' := fun hplus =>
    absurd (isDigit_of_mem_decimal (List.mem_of_head? hplus)) (by decide)
  have hne : decimal n ≠ [] := Nat.toDigits_ne_nil
  have hall : (decimal n).all Char.isDigit = true :=
    List.all_eq_true.mpr fun _ hc => isDigit_of_mem_decimal hc
  have hvalue : Nat.ofDigitChars 10 (decimal n) 0 = n := Nat.ofDigitChars_ten_toDigits
  rw [parseUnsigned, if_neg hplus, hvalue]
  exact if_pos ⟨hne, hall, h⟩

lemma lt_of_parseUnsigned {bits n : ℕ} {s : List Char} (h : parseUnsigned bits s = some n) :
    n < 2 ^ bits := by
  unfold parseUnsigned at h
  generalize (if s.head? = some '+' then s.tail else s) = digits at h
  obtain ⟨hdigits, hvalue⟩ := Option.ite_none_right_eq_some.mp h
  rw [← Option.some.inj hvalue]
  exact hdigits.2.2

/-- White space around a text without white space is trimmed. -/
lemma trim_append {pre l post : List Char} (hpre : ∀ c ∈ pre, isWhiteSpace c = true)
    (hl : ∀ c ∈ l, isWhiteSpace c = false) (hpost : ∀ c ∈ post, isWhiteSpace c = true) :
    trim (pre ++ l ++ post) = l := by
  have hkeep {l' : List Char} (hl' : ∀ c ∈ l', isWhiteSpace c = false) :
      l'.dropWhile isWhiteSpace = l' := by
    refine List.dropWhile_eq_self_iff.mpr fun hne => ?_
    rw [hl' _ (List.getElem_mem _)]
    exact Bool.false_ne_true
  rw [trim, List.append_assoc, List.dropWhile_append_of_pos hpre]
  cases l with
  | nil =>
    rw [List.nil_append, List.dropWhile_eq_nil_iff.mpr hpost, List.rdropWhile_nil]
  | cons c l =>
    have hc : isWhiteSpace c = false := hl c List.mem_cons_self
    rw [List.cons_append, List.dropWhile_cons_of_neg (by rw [hc]; exact Bool.false_ne_true),
      ← List.cons_append, List.rdropWhile, List.reverse_append,
      List.dropWhile_append_of_pos fun c hc => hpost c (List.mem_reverse.mp hc),
      hkeep fun c hc => hl c (List.mem_reverse.mp hc), List.reverse_reverse]

lemma not_isWhiteSpace_of_isDigit {c : Char} (h : c.isDigit = true) : isWhiteSpace c = false := by
  have hle : c.toNat ≤ 57 := by
    simp only [Char.isDigit, Bool.and_eq_true, decide_eq_true_eq] at h
    exact h.2
  have hge : 48 ≤ c.toNat := by
    simp only [Char.isDigit, Bool.and_eq_true, decide_eq_true_eq] at h
    exact h.1
  rw [isWhiteSpace, decide_eq_false_iff_not]
  intro hmem
  simp only [List.mem_cons, List.not_mem_nil, or_false] at hmem
  omega

/-- A number is read from a line with white space around it. -/
theorem parseUnsigned_trim {bits n : ℕ} (h : n < 2 ^ bits) {pre post : List Char}
    (hpre : ∀ c ∈ pre, isWhiteSpace c = true) (hpost : ∀ c ∈ post, isWhiteSpace c = true) :
    parseUnsigned bits (trim (pre ++ decimal n ++ post)) = some n := by
  rw [trim_append hpre (fun c hc => not_isWhiteSpace_of_isDigit (isDigit_of_mem_decimal hc)) hpost]
  exact parseUnsigned_decimal h

lemma decimal_inj {n m : ℕ} (h : decimal n = decimal m) : n = m := by
  have hvalue := congrArg (Nat.ofDigitChars 10 · 0) h
  simpa [decimal, Nat.ofDigitChars_ten_toDigits] using hvalue

/-- The digits in front of a text that begins with something else. -/
lemma takeWhile_decimal (n : ℕ) {rest : List Char}
    (h : ∀ c, rest.head? = some c → c.isDigit = false) :
    (decimal n ++ rest).takeWhile Char.isDigit = decimal n := by
  rw [List.takeWhile_append_of_pos fun _ => isDigit_of_mem_decimal]
  cases rest with
  | nil => exact List.append_nil _
  | cons c rest => rw [List.takeWhile_cons_of_neg (by simp [h c rfl]), List.append_nil]

/-- Decimal numbers, each behind a separator. -/
def fieldText (fields : List (Char × ℕ)) : List Char :=
  fields.flatMap fun field => field.1 :: decimal field.2

@[simp] lemma fieldText_cons (c : Char) (n : ℕ) (fields : List (Char × ℕ)) :
    fieldText ((c, n) :: fields) = c :: (decimal n ++ fieldText fields) := rfl

lemma fieldText_append (fields fields' : List (Char × ℕ)) :
    fieldText (fields ++ fields') = fieldText fields ++ fieldText fields' :=
  List.flatMap_append

lemma head?_fieldText {fields : List (Char × ℕ)} {c : Char}
    (hdigit : ∀ field ∈ fields, field.1.isDigit = false) (h : (fieldText fields).head? = some c) :
    c.isDigit = false := by
  cases fields with
  | nil => cases h
  | cons field fields =>
    obtain rfl := Option.some.inj h
    exact hdigit field List.mem_cons_self

/-- The numbers can be read from the text when the separators are known and are not digits. -/
theorem fieldText_inj {fields fields' : List (Char × ℕ)}
    (hsame : fields'.map Prod.fst = fields.map Prod.fst)
    (hdigit : ∀ field ∈ fields, field.1.isDigit = false)
    (h : fieldText fields = fieldText fields') : fields = fields' := by
  induction fields generalizing fields' with
  | nil => exact (List.map_eq_nil_iff.mp hsame).symm
  | cons field fields ih =>
    obtain ⟨c, n⟩ := field
    obtain ⟨⟨c', m⟩, fields', rfl, hc, hrestsame⟩ := List.map_eq_cons_iff.mp hsame
    obtain rfl : c' = c := hc
    obtain ⟨-, hfields⟩ := List.forall_mem_cons.mp hdigit
    have hfields' : ∀ field ∈ fields', field.1.isDigit = false := by
      intro field hfield
      have hmem : field.1 ∈ fields.map Prod.fst := hrestsame ▸ List.mem_map_of_mem hfield
      obtain ⟨old, hold, hfst⟩ := List.mem_map.mp hmem
      rw [← hfst]
      exact hfields old hold
    have hrest : decimal n ++ fieldText fields = decimal m ++ fieldText fields' :=
      (List.cons_inj_right _).mp h
    have hfirst := congrArg (List.takeWhile Char.isDigit) hrest
    rw [takeWhile_decimal n fun _ => head?_fieldText hfields,
      takeWhile_decimal m fun _ => head?_fieldText hfields'] at hfirst
    obtain rfl := decimal_inj hfirst
    rw [ih hrestsame hfields (List.append_cancel_left hrest)]

/-! ### Hexadecimal bytes -/

/-- Two lower-case digits for each byte. -/
def hexEncode (bytes : List UInt8) : List Char :=
  bytes.flatMap fun b => [Nat.digitChar (b.toNat / 16), Nat.digitChar (b.toNat % 16)]

/-- The value of a digit of either case. -/
def hexValue (c : Char) : Option ℕ :=
  if c.isDigit then some (c.toNat - '0'.toNat)
  else if 'a' ≤ c ∧ c ≤ 'f' then some (c.toNat - 'a'.toNat + 10)
  else if 'A' ≤ c ∧ c ≤ 'F' then some (c.toNat - 'A'.toNat + 10)
  else none

/-- The bytes that pairs of digits encode. -/
def hexDecode : List Char → Option (List UInt8)
  | []             => some []
  | [_]            => none
  | a :: b :: rest => do
    let x ← hexValue a
    let y ← hexValue b
    let bytes ← hexDecode rest
    return UInt8.ofNat (16 * x + y) :: bytes

lemma hexValue_digitChar : ∀ n < 16, hexValue (Nat.digitChar n) = some n := by decide

lemma digitChar_ne : ∀ n < 16, Nat.digitChar n ≠ '\n' ∧ Nat.digitChar n ≠ '\r' := by decide

theorem hexDecode_hexEncode (bytes : List UInt8) : hexDecode (hexEncode bytes) = some bytes := by
  induction bytes with
  | nil => rfl
  | cons b bytes ih =>
    have hb := b.toNat_lt
    have hx : hexValue (Nat.digitChar (b.toNat / 16)) = some (b.toNat / 16) :=
      hexValue_digitChar _ (by omega)
    have hy : hexValue (Nat.digitChar (b.toNat % 16)) = some (b.toNat % 16) :=
      hexValue_digitChar _ (by omega)
    have hbyte : UInt8.ofNat (16 * (b.toNat / 16) + b.toNat % 16) = b := by
      rw [Nat.div_add_mod, UInt8.ofNat_toNat]
    have hencode : hexEncode (b :: bytes) = Nat.digitChar (b.toNat / 16) ::
        Nat.digitChar (b.toNat % 16) :: hexEncode bytes := rfl
    rw [hencode, hexDecode, hx, hy, ih]
    simp only [Option.bind_eq_bind, Option.bind_some, hbyte]
    rfl

lemma isLine_hexEncode (bytes : List UInt8) : IsLine (hexEncode bytes) := by
  apply isLine_of_forall
  intro c hc
  obtain ⟨b, -, hc⟩ := List.mem_flatMap.mp hc
  have hb := b.toNat_lt
  rcases List.mem_pair.mp hc with rfl | rfl
  · exact digitChar_ne _ (by omega)
  · exact digitChar_ne _ (by omega)

end TextFormat
