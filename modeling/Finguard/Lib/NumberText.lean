import Finguard.Lib.Text

/-! The numbers of a JSON text: a sign, a whole part, and perhaps a fraction and an exponent. -/

namespace Text

/-- Two runs of characters that end where their kind ends are the same if the texts are. -/
theorem append_inj_of_run {p : Char → Bool} {a b r s : List Char} (ha : ∀ c ∈ a, p c)
    (hb : ∀ c ∈ b, p c) (hr : ∀ c ∈ r.head?, p c = false) (hs : ∀ c ∈ s.head?, p c = false)
    (h : a ++ r = b ++ s) : a = b ∧ r = s := by
  have run : ∀ {x y : List Char}, (∀ c ∈ x, p c) → (∀ c ∈ y.head?, p c = false) →
      (x ++ y).takeWhile p = x := by
    intro x y hx hy
    rw [List.takeWhile_append_of_pos hx]
    cases y with
    | nil => simp
    | cons c y => simp [hy c rfl]
  have hab : a = b := by rw [← run ha hr, ← run hb hs, h]
  subst hab
  exact ⟨rfl, List.append_cancel_left h⟩

/-- The digits of a number, with zeros before them up to a width. -/
def padChars (width n : ℕ) : List Char :=
  List.replicate (width - (natChars n).length) '0' ++ natChars n

variable {width n : ℕ}

@[simp] theorem natOfChars_padChars (width n : ℕ) : natOfChars (padChars width n) = n := by
  rw [padChars, natOfChars, Nat.ofDigitChars_append, Nat.ofDigitChars_replicate_zero, mul_zero]
  exact natOfChars_natChars n

theorem isDigit_of_mem_padChars {c : Char} (h : c ∈ padChars width n) : c.isDigit := by
  rcases List.mem_append.mp h with h | h
  · rw [(List.mem_replicate.mp h).2]
    rfl
  · exact isDigit_of_mem_natChars h

theorem padChars_injective (width : ℕ) : Function.Injective (padChars width) := by
  intro m n h
  rw [← natOfChars_padChars width m, h, natOfChars_padChars]

theorem natChars_injective : Function.Injective natChars := by
  intro m n h
  rw [← natOfChars_natChars m, h, natOfChars_natChars]

theorem length_padChars (hpos : 0 < width) (hlt : n < 10 ^ width) :
    (padChars width n).length = width := by
  have hlen : (natChars n).length ≤ width := by
    rw [natChars, Nat.length_toDigits_le_iff (by norm_num) hpos]
    exact hlt
  rw [padChars, List.length_append, List.length_replicate]
  omega

/-! Hexadecimal digits. -/

def hexChars : ℕ → ℕ → List Char
  | 0, _ => []
  | width + 1, n => Nat.digitChar (n / 16 ^ width % 16) :: hexChars width n

def hexDigit (c : Char) : ℕ := if c.isDigit then c.toNat - 48 else c.toNat - 87

def hexValue (cs : List Char) : ℕ := cs.foldl (fun n c => n * 16 + hexDigit c) 0

theorem length_hexChars : (hexChars width n).length = width := by
  induction width with
  | zero => rfl
  | succ width ih => rw [hexChars, List.length_cons, ih]

theorem isAlphanum_of_mem_hexChars {c : Char} (h : c ∈ hexChars width n) : c.isAlphanum := by
  have hdigit : ∀ k < 16, (Nat.digitChar k).isAlphanum := by decide
  induction width with
  | zero => cases h
  | succ width ih =>
    rcases List.mem_cons.mp h with rfl | h
    · exact hdigit _ (Nat.mod_lt _ (by omega))
    · exact ih h

theorem hexValue_hexChars (hlt : n < 16 ^ width) : hexValue (hexChars width n) = n := by
  have hdigit : ∀ k < 16, hexDigit (Nat.digitChar k) = k := by decide
  have run : ∀ (width a : ℕ), (hexChars width n).foldl (fun n c => n * 16 + hexDigit c) a =
      a * 16 ^ width + n % 16 ^ width := by
    intro width
    induction width with
    | zero => simp [hexChars, Nat.mod_one]
    | succ width ih =>
      intro a
      have hmod := Nat.mod_mul (x := n) (a := 16 ^ width) (b := 16)
      rw [hexChars, List.foldl_cons, ih, hdigit _ (Nat.mod_lt _ (by omega)), pow_succ, hmod]
      ring
  rw [hexValue, run, zero_mul, zero_add, Nat.mod_eq_of_lt hlt]

end Text

open Text

/-- The digits after the point. -/
structure Fraction where
  width : ℕ
  digits : ℕ
  width_pos : 0 < width
  digits_lt : digits < 10 ^ width

namespace Fraction

@[ext] theorem ext {f g : Fraction} (hwidth : f.width = g.width) (hdigits : f.digits = g.digits) :
    f = g := by
  cases f
  cases g
  cases hwidth
  cases hdigits
  rfl

/-- The last digits of a coefficient. -/
def last (width coefficient : ℕ) : Option Fraction :=
  if h : 0 < width then
    some ⟨width, coefficient % 10 ^ width, h, Nat.mod_lt _ (by positivity)⟩
  else none

def chars (f : Fraction) : List Char := '.' :: padChars f.width f.digits

theorem chars_injective : Function.Injective chars := by
  intro f g h
  have hpad : padChars f.width f.digits = padChars g.width g.digits := List.tail_eq_of_cons_eq h
  have hwidth : f.width = g.width := by
    rw [← length_padChars f.width_pos f.digits_lt, hpad, length_padChars g.width_pos g.digits_lt]
  refine Fraction.ext hwidth ?_
  rw [hwidth] at hpad
  exact padChars_injective g.width hpad

end Fraction

structure NumberLiteral where
  negative : Bool
  whole : ℕ
  fraction : Option Fraction
  exponent : Option ℤ

namespace NumberLiteral

/-- The exponent is written with a sign and two digits at least. -/
def exponentChars (x : ℤ) : List Char :=
  'e' :: (if 0 ≤ x then '+' else '-') :: padChars 2 x.natAbs

def chars (l : NumberLiteral) : List Char :=
  (if l.negative then ['-'] else []) ++ (natChars l.whole ++
    (l.fraction.elim [] Fraction.chars ++ l.exponent.elim [] exponentChars))

/-- The number of digits after the point. -/
def width (l : NumberLiteral) : ℕ := l.fraction.elim 0 Fraction.width

/-- All digits as one number. -/
def coefficient (l : NumberLiteral) : ℕ :=
  l.whole * 10 ^ l.width + l.fraction.elim 0 Fraction.digits

def places (l : NumberLiteral) : ℤ := l.exponent.getD 0 - l.width

def magnitude (l : NumberLiteral) : ℚ := l.coefficient * 10 ^ l.places

/-- A coefficient with the point before its last digits. -/
def ofCoefficient (negative : Bool) (coefficient width : ℕ) (exponent : Option ℤ) :
    NumberLiteral where
  negative := negative
  whole := coefficient / 10 ^ width
  fraction := Fraction.last width coefficient
  exponent := exponent

section
variable {negative : Bool} {c width : ℕ} {exponent : Option ℤ}

@[simp] theorem width_ofCoefficient :
    (ofCoefficient negative c width exponent).width = width := by
  by_cases h : 0 < width
  · simp [ofCoefficient, NumberLiteral.width, Fraction.last, h]
  · have hzero : width = 0 := by omega
    simp [ofCoefficient, NumberLiteral.width, Fraction.last, hzero]

@[simp] theorem coefficient_ofCoefficient :
    (ofCoefficient negative c width exponent).coefficient = c := by
  rw [coefficient, width_ofCoefficient]
  by_cases h : 0 < width
  · simpa [ofCoefficient, Fraction.last, h] using Nat.div_add_mod' c (10 ^ width)
  · have hzero : width = 0 := by omega
    simp [ofCoefficient, Fraction.last, hzero]

theorem magnitude_ofCoefficient : (ofCoefficient negative c width exponent).magnitude =
    c * 10 ^ (exponent.getD 0 - width) := by
  rw [magnitude, coefficient_ofCoefficient, places, width_ofCoefficient]
  rfl

end

theorem exponentChars_injective : Function.Injective exponentChars := by
  intro x y h
  have htail := List.tail_eq_of_cons_eq h
  have habs : x.natAbs = y.natAbs := padChars_injective 2 (List.tail_eq_of_cons_eq htail)
  have hsign := List.head_eq_of_cons_eq htail
  by_cases hx : 0 ≤ x
  · by_cases hy : 0 ≤ y
    · omega
    · rw [if_pos hx, if_neg hy] at hsign
      cases hsign
  · by_cases hy : 0 ≤ y
    · rw [if_neg hx, if_pos hy] at hsign
      cases hsign
    · omega

theorem elim_injective {α : Type} {f : α → List Char} (hf : Function.Injective f)
    (hne : ∀ x, f x ≠ []) : Function.Injective fun o : Option α => o.elim [] f := by
  intro o u h
  cases o with
  | none => cases u with
    | none => rfl
    | some y => exact absurd h.symm (hne y)
  | some x => cases u with
    | none => exact absurd h (hne x)
    | some y => exact congrArg some (hf h)

theorem head?_natChars_append {n : ℕ} {rest : List Char} :
    ∀ c ∈ (natChars n ++ rest).head?, c.isDigit := by
  obtain ⟨d, ds, hds⟩ := List.exists_cons_of_ne_nil (show natChars n ≠ [] from
    Nat.toDigits_ne_nil)
  rw [hds]
  intro c hc
  rw [← Option.some.inj hc]
  exact isDigit_of_mem_natChars (n := n) (by simp [hds])

theorem head?_exponent (x : Option ℤ) : ∀ c ∈ (x.elim [] exponentChars).head?, c = 'e' := by
  intro c hc
  cases x with
  | none => cases hc
  | some x => exact (Option.some.inj hc).symm

theorem head?_fraction (f : Option Fraction) (x : Option ℤ) :
    ∀ c ∈ (f.elim [] Fraction.chars ++ x.elim [] exponentChars).head?, c.isDigit = false := by
  intro c hc
  cases f with
  | none => rw [head?_exponent x c hc]; rfl
  | some f => rw [← Option.some.inj hc]; rfl

theorem mem_fraction {f : Option Fraction} {c : Char} (h : c ∈ f.elim [] Fraction.chars) :
    c = '.' ∨ c.isDigit := by
  cases f with
  | none => cases h
  | some f =>
    rcases List.mem_cons.mp h with hc | hc
    · exact .inl hc
    · exact .inr (isDigit_of_mem_padChars hc)

/-- The parts are told apart by the characters they are made of: a minus, then digits, then
what has no `e` in it. -/
theorem chars_injective : Function.Injective chars := by
  intro l m h
  have hminus : ∀ b : Bool, ∀ c ∈ if b then ['-'] else [], (c == '-') = true := by
    intro b c hc
    cases b
    · cases hc
    · simpa using hc
  have hdigit : ∀ {n : ℕ} {rest : List Char}, ∀ c ∈ (natChars n ++ rest).head?,
      (c == '-') = false := by
    intro n rest c hc
    have hd := head?_natChars_append c hc
    rw [beq_eq_false_iff_ne]
    rintro rfl
    cases hd
  obtain ⟨hsign, hbody⟩ := append_inj_of_run (hminus _) (hminus _) hdigit hdigit h
  obtain ⟨hwhole, htail⟩ := append_inj_of_run (fun c hc => isDigit_of_mem_natChars hc)
    (fun c hc => isDigit_of_mem_natChars hc) (head?_fraction _ _) (head?_fraction _ _) hbody
  have hplain : ∀ f : Option Fraction, ∀ c ∈ f.elim [] Fraction.chars, (c != 'e') = true := by
    intro f c hc
    rw [bne_iff_ne]
    rintro rfl
    rcases mem_fraction hc with hc | hc
    · cases hc
    · cases hc
  have hstop : ∀ x : Option ℤ, ∀ c ∈ (x.elim [] exponentChars).head?, (c != 'e') = false := by
    intro x c hc
    rw [head?_exponent x c hc]
    rfl
  obtain ⟨hfraction, hexponent⟩ :=
    append_inj_of_run (hplain _) (hplain _) (hstop _) (hstop _) htail
  have hneg : l.negative = m.negative := by
    revert hsign
    cases l.negative <;> cases m.negative <;> simp
  have hfrac := elim_injective Fraction.chars_injective (fun _ => List.cons_ne_nil _ _) hfraction
  have hexp := elim_injective exponentChars_injective (fun _ => List.cons_ne_nil _ _) hexponent
  cases l
  cases m
  cases hneg
  cases hfrac
  cases hexp
  cases natChars_injective hwhole
  rfl

theorem mem_chars {l : NumberLiteral} {c : Char} (h : c ∈ l.chars) :
    c.isDigit ∨ c = '-' ∨ c = '+' ∨ c = '.' ∨ c = 'e' := by
  rcases List.mem_append.mp h with h | h
  · cases hn : l.negative <;> simp [hn] at h
    exact .inr (.inl h)
  rcases List.mem_append.mp h with h | h
  · exact .inl (isDigit_of_mem_natChars h)
  rcases List.mem_append.mp h with h | h
  · rcases mem_fraction h with rfl | hd
    · exact .inr (.inr (.inr (.inl rfl)))
    · exact .inl hd
  · cases hx : l.exponent with
    | none => simp [hx] at h
    | some x =>
      rw [hx, Option.elim_some, exponentChars] at h
      rcases List.mem_cons.mp h with rfl | h
      · exact .inr (.inr (.inr (.inr rfl)))
      rcases List.mem_cons.mp h with rfl | h
      · by_cases hx : 0 ≤ x
        · exact .inr (.inr (.inl (if_pos hx)))
        · exact .inr (.inl (if_neg hx))
      · exact .inl (isDigit_of_mem_padChars h)

theorem head?_chars (l : NumberLiteral) (r : List Char) :
    ∃ c cs, l.chars ++ r = c :: cs ∧ (c.isDigit ∨ c = '-') := by
  unfold chars
  cases l.negative
  · obtain ⟨d, ds, hds⟩ := List.exists_cons_of_ne_nil (show natChars l.whole ≠ [] from
      Nat.toDigits_ne_nil)
    refine ⟨d, _, by rw [hds]; rfl, .inl ?_⟩
    exact isDigit_of_mem_natChars (n := l.whole) (by simp [hds])
  · exact ⟨'-', _, rfl, .inr rfl⟩

end NumberLiteral
