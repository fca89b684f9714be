import Mathlib

/-! How numbers, instants and identifiers are written as text. Only the value is
fixed by the text, so the same number may be written in other ways too. -/

namespace Text

/-- A text format that reads back what it writes. Instants are microseconds. -/
class Format where
  str : ℚ → String
  decimal : String → Option ℚ
  decimal_str : ∀ q, decimal (str q) = some q
  isoformat : ℤ → String
  fromisoformat : String → Option ℤ
  fromisoformat_isoformat : ∀ t, fromisoformat (isoformat t) = some t
  isoformat_ne_empty : ∀ t, isoformat t ≠ ""
  identifier : ℕ → String
  ofIdentifier : String → Option ℕ
  ofIdentifier_identifier : ∀ n, ofIdentifier (identifier n) = some n

attribute [simp] Format.decimal_str Format.fromisoformat_isoformat Format.ofIdentifier_identifier

theorem Format.identifier_injective [Format] : Function.Injective Format.identifier := by
  intro a b h
  have hab := congrArg Format.ofIdentifier h
  simpa using hab

def natChars (n : ℕ) : List Char := Nat.toDigits 10 n

def natOfChars (cs : List Char) : ℕ := Nat.ofDigitChars 10 cs 0

@[simp] theorem natOfChars_natChars (n : ℕ) : natOfChars (natChars n) = n :=
  Nat.ofDigitChars_ten_toDigits

theorem isDigit_of_mem_natChars {c : Char} {n : ℕ} (h : c ∈ natChars n) : c.isDigit :=
  Nat.isDigit_of_mem_toDigits (by decide) (by decide) h

def intChars (n : ℤ) : List Char :=
  if 0 ≤ n then natChars n.natAbs else '-' :: natChars n.natAbs

def intOfChars : List Char → ℤ
  | '-' :: cs => -natOfChars cs
  | cs => natOfChars cs

theorem ne_of_mem_intChars {c d : Char} {n : ℤ} (h : c ∈ intChars n) (hd : d.isDigit = false)
    (hminus : d ≠ '-') : c ≠ d := by
  rintro rfl
  unfold intChars at h
  split at h
  · have hc := isDigit_of_mem_natChars h
    simp [hd] at hc
  · rcases List.mem_cons.mp h with rfl | h
    · exact hminus rfl
    · have hc := isDigit_of_mem_natChars h
      simp [hd] at hc

@[simp] theorem intOfChars_intChars (n : ℤ) : intOfChars (intChars n) = n := by
  unfold intChars
  split
  · have hne : ∀ cs, natChars n.natAbs ≠ '-' :: cs := by
      intro cs he
      have hc := isDigit_of_mem_natChars (show '-' ∈ natChars n.natAbs by simp [he])
      simp at hc
    unfold intOfChars
    split
    · rename_i cs he
      exact absurd he (hne cs)
    · rw [natOfChars_natChars]
      omega
  · simp only [intOfChars, natOfChars_natChars]
    omega

/-- A number as its digits when it is whole. The code for the others is not meant
to be read. -/
def plainChars (q : ℚ) : List Char :=
  if q.den = 1 then intChars q.num else '/' :: natChars (Encodable.encode q)

def plainOfChars : List Char → Option ℚ
  | '/' :: cs => Encodable.decode (natOfChars cs)
  | cs => some (intOfChars cs)

theorem plainOfChars_plainChars (q : ℚ) : plainOfChars (plainChars q) = some q := by
  unfold plainChars
  split
  · have hne : ∀ cs, intChars q.num ≠ '/' :: cs := by
      intro cs he
      exact ne_of_mem_intChars (show '/' ∈ intChars q.num by simp [he]) (by decide) (by decide) rfl
    unfold plainOfChars
    split
    · rename_i cs he
      exact absurd he (hne cs)
    · rw [intOfChars_intChars]
      exact congrArg some (Rat.coe_int_num_of_den_eq_one ‹q.den = 1›)
  · simp [plainOfChars]

def epochText : String := "1970-01-01T00:00:00+00:00"

def instantChars (t : ℤ) : List Char :=
  if t = 0 then epochText.toList else '@' :: intChars t

def instantOfChars : List Char → Option ℤ
  | '@' :: cs => some (intOfChars cs)
  | cs => if cs = epochText.toList then some 0 else none

theorem instantOfChars_instantChars (t : ℤ) : instantOfChars (instantChars t) = some t := by
  unfold instantChars
  split
  · rename_i ht
    rw [ht]
    decide
  · simp [instantOfChars]

theorem instantChars_ne_nil (t : ℤ) : instantChars t ≠ [] := by
  unfold instantChars
  split
  · decide
  · simp

def identifierOfChars (cs : List Char) : Option ℕ :=
  if natChars (natOfChars cs) = cs then some (natOfChars cs) else none

theorem identifierOfChars_natChars (n : ℕ) : identifierOfChars (natChars n) = some n := by
  simp [identifierOfChars]

abbrev Format.plain : Format where
  str q := String.ofList (plainChars q)
  decimal s := plainOfChars s.toList
  decimal_str q := by rw [String.toList_ofList, plainOfChars_plainChars]
  isoformat t := String.ofList (instantChars t)
  fromisoformat s := instantOfChars s.toList
  fromisoformat_isoformat t := by rw [String.toList_ofList, instantOfChars_instantChars]
  isoformat_ne_empty t h := by
    apply instantChars_ne_nil t
    have hl := congrArg String.toList h
    rwa [String.toList_ofList] at hl
  identifier n := String.ofList (natChars n)
  ofIdentifier s := identifierOfChars s.toList
  ofIdentifier_identifier n := by rw [String.toList_ofList, identifierOfChars_natChars]

theorem identifier_plain_ne_empty (n : ℕ) : Format.plain.identifier n ≠ "" := by
  intro h
  have hl : (String.ofList (natChars n)).toList = [] := congrArg String.toList h
  rw [String.toList_ofList] at hl
  exact Nat.toDigits_ne_nil hl

/-! White space and letter case. -/

def isSpace (c : Char) : Bool :=
  let n := c.toNat
  (9 ≤ n && n ≤ 13) || (28 ≤ n && n ≤ 32) || (0x2000 ≤ n && n ≤ 0x200A) ||
    [0x85, 0xA0, 0x1680, 0x2028, 0x2029, 0x202F, 0x205F, 0x3000].contains n

def strip (s : String) : String :=
  String.ofList ((s.toList.dropWhile isSpace).rdropWhile isSpace)

/-- The longest runs without white space. -/
def split (s : String) : List String :=
  ((s.toList.splitOnP isSpace).filter (!·.isEmpty)).map String.ofList

/-- Whether the first text occurs in the second. The empty text occurs in every one. -/
def isIn (s t : String) : Bool := s.toList <:+: t.toList

theorem strip_eq_empty {s : String} : strip s = "" ↔ ∀ c ∈ s.toList, isSpace c := by
  constructor
  · intro h
    have hchars : (s.toList.dropWhile isSpace).rdropWhile isSpace = [] := by
      have hl := congrArg String.toList h
      rwa [strip, String.toList_ofList] at hl
    rw [List.rdropWhile_eq_nil_iff] at hchars
    cases hrest : s.toList.dropWhile isSpace with
    | nil => exact List.dropWhile_eq_nil_iff.mp hrest
    | cons c rest =>
      have hne : s.toList.dropWhile isSpace ≠ [] := by simp [hrest]
      have hfirst := List.head_dropWhile_not isSpace hne
      have hspace := hchars c (by simp [hrest])
      simp [hrest, hspace] at hfirst
  · intro h
    have hnil : s.toList.dropWhile isSpace = [] := List.dropWhile_eq_nil_iff.mpr h
    rw [strip, hnil]
    rfl

theorem isIn_empty (s : String) : isIn "" s = true := by simp [isIn]

theorem isIn_of_empty {s : String} (h : isIn s "" = true) : s = "" := by
  have hnil : s.toList = [] := by simpa [isIn] using h
  exact String.toList_eq_nil_iff.mp hnil

def asciiLower (s : String) : String := String.ofList (s.toList.map Char.toLower)

def asciiUpper (s : String) : String := String.ofList (s.toList.map Char.toUpper)

/-- What Unicode says about case and about the characters of words. -/
class Unicode where
  lower : String → String
  upper : String → String
  fold : Char → Char
  isWord : Char → Bool

abbrev Unicode.ascii : Unicode where
  lower := asciiLower
  upper := asciiUpper
  fold := Char.toLower
  isWord c := c.isAlphanum || c == '_'

def isAscii (s : String) : Bool := s.toList.all (fun c => c.toNat < 128)

class LawfulText [Unicode] [Format] : Prop where
  lower_ascii : ∀ s, isAscii s → Unicode.lower s = asciiLower s
  identifier_ne_empty : ∀ n, Format.identifier n ≠ ""

/-- White space has no letter case. -/
class LawfulSpaces [Unicode] : Prop where
  lower_blank : ∀ s, strip s = "" → strip (Unicode.lower s) = ""

theorem toLower_of_isSpace {c : Char} (h : isSpace c) : c.toLower = c := by
  have hupper : ¬ c.isUpper = true := by
    simp only [isSpace, Bool.or_eq_true, Bool.and_eq_true, decide_eq_true_eq, List.contains_eq_mem,
      List.mem_cons, List.not_mem_nil, or_false] at h
    simp only [Char.isUpper, decide_eq_true_eq, UInt32.le_iff_toNat_le, ge_iff_le]
    simp only [Char.toNat] at h
    have hA : 'A'.val.toNat = 65 := rfl
    have hZ : 'Z'.val.toNat = 90 := rfl
    omega
  simp only [Char.toLower]
  split
  · rename_i hrange
    exact absurd (by simpa [Char.isUpper] using hrange) hupper
  · rfl

theorem lawfulSpaces_ascii : @LawfulSpaces Unicode.ascii := by
  let := Unicode.ascii
  refine ⟨fun s h => ?_⟩
  rw [strip_eq_empty] at h ⊢
  intro c hc
  change c ∈ (asciiLower s).toList at hc
  rw [asciiLower, String.toList_ofList] at hc
  obtain ⟨c', hc', rfl⟩ := List.mem_map.mp hc
  rw [toLower_of_isSpace (h c' hc')]
  exact h c' hc'

/-- The longest runs of word characters. -/
def words [Unicode] (s : String) : List (List Char) :=
  s.toList.splitOnP (fun c => !Unicode.isWord c)

end Text
