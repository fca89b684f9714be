import Finguard.Lib.Binary64
import Finguard.Lib.JsonText

/-! The JSON values of Python, and a column that keeps numbers as decimals and the fields of an
object in an order of its own. -/

inductive PyFloat where
  | finite (x : Binary64)
  | infinite (negative : Bool)
  | nan

inductive PyNumber where
  | int (n : ℤ)
  | float (x : PyFloat)

namespace PyNumber

/-- What is not finite is no number of JSON. -/
def literal? : PyNumber → Option NumberLiteral
  | int n => some (.ofCoefficient (n < 0) n.natAbs 0 none)
  | float (.finite x) => some x.repr
  | float _ => none

def infinity : List Char := ['I', 'n', 'f', 'i', 'n', 'i', 't', 'y']

def chars : PyNumber → List Char
  | int n => (NumberLiteral.ofCoefficient (n < 0) n.natAbs 0 none).chars
  | float (.finite x) => x.repr.chars
  | float (.infinite false) => infinity
  | float (.infinite true) => '-' :: infinity
  | float .nan => ['N', 'a', 'N']

/-- A number without fraction and exponent is read as an integer. -/
def ofLiteral (l : NumberLiteral) : PyNumber :=
  if l.fraction.isNone ∧ l.exponent.isNone then int (if l.negative then -l.whole else l.whole)
  else float ((Binary64.nearest? l.negative l.magnitude).elim (.infinite l.negative) .finite)

end PyNumber

namespace Jsonb
open JsonTree

/-- A decimal with a number of digits after its point, and no negative zero. -/
structure Numeric where
  negative : Bool
  coefficient : ℕ
  scale : ℕ

namespace Numeric

def ofLiteral (l : NumberLiteral) : Numeric where
  negative := l.negative && l.coefficient != 0
  coefficient := l.coefficient * 10 ^ l.places.toNat
  scale := (-l.places).toNat

def literal (n : Numeric) : NumberLiteral := .ofCoefficient n.negative n.coefficient n.scale none

theorem magnitude_literal_ofLiteral (l : NumberLiteral) :
    (ofLiteral l).literal.magnitude = l.magnitude := by
  rw [literal, NumberLiteral.magnitude_ofCoefficient, NumberLiteral.magnitude, ofLiteral]
  dsimp only
  rcases le_or_gt 0 l.places with h | h
  · obtain ⟨k, hk⟩ := Int.eq_ofNat_of_zero_le h
    have hzero : (-l.places).toNat = 0 := by omega
    rw [hzero, hk]
    push_cast
    simp
  · have hzero : l.places.toNat = 0 := by omega
    rw [hzero, pow_zero, mul_one, Option.getD_none]
    congr 2
    omega

end Numeric

/-- Shorter keys stand before longer ones. -/
def keyLe (s t : String) : Bool :=
  decide (s.utf8ByteSize < t.utf8ByteSize) ||
    (s.utf8ByteSize == t.utf8ByteSize && codePointLe s t)

def texts {ν : Type} : JsonTree ν → List String :=
  fold ⟨[], fun _ => [], fun _ => [], fun s => [s], List.flatten,
    fun fields => fields.flatMap fun f => f.1 :: f.2⟩

/-- A value of which all numbers are finite, with no NUL in a text. -/
def storable (v : JsonTree PyNumber) : Bool :=
  v.numbers.all (·.literal?.isSome) && (texts v).all (!·.toList.contains (Char.ofNat 0))

def numericOf (n : PyNumber) : Numeric := n.literal?.elim ⟨false, 0, 0⟩ Numeric.ofLiteral

def store? (v : JsonTree PyNumber) : Option (JsonTree Numeric) :=
  if storable v then some ((v.map numericOf).sortKeys keyLe) else none

def load (stored : JsonTree Numeric) : JsonTree PyNumber :=
  stored.map fun n => .ofLiteral n.literal

/-- What a number has become when it is read again. -/
def reread (n : PyNumber) : PyNumber := .ofLiteral (numericOf n).literal

/-- A number that is read again as it was: no negative zero, and no float that is written with
a positive exponent. -/
def Steady : PyNumber → Prop
  | .int _ => True
  | .float (.finite x) => ¬ (x.negative ∧ x.magnitude = 0) ∧ x.magnitude < 10 ^ 16
  | .float _ => False

theorem reread_int (n : ℤ) : reread (.int n) = .int n := by
  have hlit : (numericOf (.int n)).literal = .ofCoefficient (n < 0) n.natAbs 0 none := by
    have hsign : (decide (n < 0) && n.natAbs != 0) = decide (n < 0) := by
      by_cases h : n < 0
      · have hne : n.natAbs ≠ 0 := by omega
        simp [h, hne]
      · simp [h]
    simp only [numericOf, PyNumber.literal?, Option.elim_some, Numeric.ofLiteral, Numeric.literal,
      NumberLiteral.places, NumberLiteral.coefficient_ofCoefficient,
      NumberLiteral.width_ofCoefficient]
    simp [NumberLiteral.ofCoefficient, hsign]
  rw [reread, hlit, PyNumber.ofLiteral, if_pos ⟨rfl, rfl⟩]
  by_cases h : n < 0
  · simp [NumberLiteral.ofCoefficient, h, abs_of_neg h]
  · simp [NumberLiteral.ofCoefficient, h, abs_of_nonneg (not_lt.mp h)]

theorem fraction_ofCoefficient_isNone {negative : Bool} {c width : ℕ} {exponent : Option ℤ} :
    (NumberLiteral.ofCoefficient negative c width exponent).fraction.isNone ↔ width = 0 := by
  by_cases h : 0 < width
  · simp [NumberLiteral.ofCoefficient, Fraction.last, h, h.ne']
  · have hzero : width = 0 := by omega
    simp [NumberLiteral.ofCoefficient, Fraction.last, hzero]

section float
variable {x : Binary64}

theorem coefficient_repr_eq_zero : x.repr.coefficient = 0 ↔ x.magnitude = 0 := by
  have hread := x.roundNearest_magnitude_repr
  constructor
  · intro h
    rw [← hread, NumberLiteral.magnitude, h, Nat.cast_zero, zero_mul, Binary64.roundNearest_zero]
  · intro h
    rw [Binary64.repr, if_pos h, NumberLiteral.coefficient_ofCoefficient]

theorem literal_numericOf_float : (numericOf (.float (.finite x))).literal =
    .ofCoefficient (x.negative && x.repr.coefficient != 0)
      (x.repr.coefficient * 10 ^ x.repr.places.toNat) (-x.repr.places).toNat none := by
  simp only [numericOf, PyNumber.literal?, Option.elim_some, Numeric.literal, Numeric.ofLiteral,
    Binary64.negative_repr]

theorem reread_large (h : 10 ^ 16 ≤ x.magnitude) : ∃ n, reread (.float (.finite x)) = .int n := by
  have hplaces : ¬ x.repr.places < 0 := by
    rw [Binary64.places_repr_neg_iff]
    exact not_lt.mpr h
  have hwhole : (-x.repr.places).toNat = 0 := by omega
  rw [reread, literal_numericOf_float, PyNumber.ofLiteral,
    if_pos ⟨fraction_ofCoefficient_isNone.mpr hwhole, rfl⟩]
  exact ⟨_, rfl⟩

/-- A float that is not large is read as a float, of the same magnitude. -/
theorem reread_small (h : x.magnitude < 10 ^ 16) : ∃ y : Binary64,
    reread (.float (.finite x)) = .float (.finite y) ∧ y.magnitude = x.magnitude ∧
      y.negative = (x.negative && x.magnitude != 0) := by
  have hplaces : x.repr.places < 0 := x.places_repr_neg_iff.mpr h
  have hpoint : ¬ ((numericOf (.float (.finite x))).literal.fraction.isNone ∧
      (numericOf (.float (.finite x))).literal.exponent.isNone) := by
    rw [literal_numericOf_float, fraction_ofCoefficient_isNone]
    omega
  have hmagnitude : (numericOf (.float (.finite x))).literal.magnitude = x.repr.magnitude :=
    Numeric.magnitude_literal_ofLiteral x.repr
  have hnonneg : 0 ≤ x.repr.magnitude := mul_nonneg (Nat.cast_nonneg _)
    (zpow_nonneg (by norm_num) _)
  have hsign : (x.repr.coefficient != 0) = (x.magnitude != 0) := by
    rw [Bool.eq_iff_iff, bne_iff_ne, bne_iff_ne, Ne, Ne, coefficient_repr_eq_zero]
  let y : Binary64 := { x with negative := x.negative && x.magnitude != 0 }
  have hnearest : Binary64.nearest? y.negative x.repr.magnitude = some y := by
    refine Binary64.nearest?_eq_some ?_
    rw [abs_of_nonneg hnonneg]
    exact x.roundNearest_magnitude_repr
  refine ⟨y, ?_, rfl, rfl⟩
  have hnegative : (numericOf (.float (.finite x))).literal.negative = y.negative := by
    rw [literal_numericOf_float]
    exact congrArg (x.negative && ·) hsign
  rw [reread, PyNumber.ofLiteral, if_neg hpoint, hmagnitude, hnegative, hnearest]
  rfl

end float

variable {n : PyNumber}

theorem reread_of_steady (h : Steady n) : reread n = n := by
  cases n with
  | int n => exact reread_int n
  | float x =>
    cases x with
    | finite x =>
      obtain ⟨y, hy, hmagnitude, hnegative⟩ := reread_small h.2
      have hxy : y = x := by
        refine Binary64.ext ?_ hmagnitude
        rw [hnegative]
        cases hsign : x.negative
        · rfl
        · have hne : x.magnitude ≠ 0 := fun hzero => h.1 ⟨hsign, hzero⟩
          simpa using hne
      rw [hy, hxy]
    | infinite => exact h.elim
    | nan => exact h.elim

theorem steady_reread (h : n.literal?.isSome) : Steady (reread n) := by
  cases n with
  | int n =>
    rw [reread_int]
    exact trivial
  | float x =>
    cases x with
    | finite x =>
      by_cases hlt : x.magnitude < 10 ^ 16
      · obtain ⟨y, hy, hmagnitude, hnegative⟩ := reread_small hlt
        rw [hy]
        refine ⟨?_, hmagnitude ▸ hlt⟩
        rintro ⟨hsign, hzero⟩
        rw [hmagnitude] at hzero
        rw [hnegative, hzero] at hsign
        simp at hsign
      · obtain ⟨m, hm⟩ := reread_large (not_lt.mp hlt)
        rw [hm]
        exact trivial
    | infinite => cases h
    | nan => cases h

/-! The canonical text. -/

theorem kind_of_isDigit {c : Char} {cs : List Char} (h : c.isDigit ∨ c = '-') :
    kind (c :: cs) = 3 := by
  unfold kind
  split <;> first
    | rfl
    | (rename_i heq
       rw [(List.cons.inj heq).1] at h
       revert h
       decide)
    | contradiction

theorem stops_of_isDigit {c : Char} (h : c.isDigit ∨ c = '-' ∨ c = '+' ∨ c = '.' ∨ c = 'e') :
    stops c = false := by
  by_contra hstops
  rw [Bool.not_eq_false, stops, Bool.or_eq_true, Bool.or_eq_true, beq_iff_eq, beq_iff_eq,
    beq_iff_eq] at hstops
  rcases hstops with (rfl | rfl) | rfl <;> revert h <;> decide

theorem literal_chars {l : NumberLiteral} (h : n.literal? = some l) : n.chars = l.chars := by
  cases n with
  | int n => rw [← Option.some.inj h]; rfl
  | float x =>
    cases x with
    | finite x => rw [← Option.some.inj h]; rfl
    | infinite => cases h
    | nan => cases h

theorem chars_of_literal?_eq_none (h : n.literal? = none) :
    n = .float (.infinite false) ∨ n = .float (.infinite true) ∨ n = .float .nan := by
  cases n with
  | int => cases h
  | float x =>
    cases x with
    | finite => cases h
    | infinite negative => cases negative <;> simp
    | nan => simp

theorem literal?_injective {m : PyNumber} {l : NumberLiteral} (hn : n.literal? = some l)
    (hm : m.literal? = some l) : n = m := by
  have hint : ∀ (k : ℤ) (x : Binary64),
      NumberLiteral.ofCoefficient (k < 0) k.natAbs 0 none ≠ x.repr := by
    intro k x h
    exact x.repr_not_whole (h ▸ ⟨rfl, rfl⟩)
  rw [← hm] at hn
  cases n with
  | int a =>
    cases m with
    | int b =>
      have hlit := Option.some.inj hn
      have habs := congrArg NumberLiteral.coefficient hlit
      rw [NumberLiteral.coefficient_ofCoefficient, NumberLiteral.coefficient_ofCoefficient] at habs
      have hsign : decide (a < 0) = decide (b < 0) := congrArg NumberLiteral.negative hlit
      rw [decide_eq_decide] at hsign
      congr 1
      omega
    | float y =>
      cases y with
      | finite y => exact absurd (Option.some.inj hn) (hint a y)
      | infinite => cases hn
      | nan => cases hn
  | float x =>
    cases x with
    | finite x =>
      cases m with
      | int b => exact absurd (Option.some.inj hn).symm (hint b x)
      | float y =>
        cases y with
        | finite y => rw [Binary64.repr_injective (Option.some.inj hn)]
        | infinite => cases hn
        | nan => cases hn
    | infinite => rw [hm] at hn; cases hn
    | nan => rw [hm] at hn; cases hn

theorem readable_chars : Readable PyNumber.chars := by
  constructor
  · intro n m h
    -- what is no number of JSON has a capital letter
    have hletter : ∀ {n m : PyNumber} {l : NumberLiteral}, n.literal? = some l →
        m.literal? = none → n.chars ≠ m.chars := by
      intro n m l hl hm heq
      have hcapital : ∃ c ∈ m.chars, c = 'I' ∨ c = 'N' := by
        rcases chars_of_literal?_eq_none hm with rfl | rfl | rfl
        · exact ⟨'I', List.mem_cons_self, .inl rfl⟩
        · exact ⟨'I', List.mem_cons_of_mem _ List.mem_cons_self, .inl rfl⟩
        · exact ⟨'N', List.mem_cons_self, .inr rfl⟩
      obtain ⟨c, hc, hcap⟩ := hcapital
      rw [← heq, literal_chars hl] at hc
      have hchar := NumberLiteral.mem_chars hc
      rcases hcap with rfl | rfl <;> revert hchar <;> decide
    cases hn : n.literal? with
    | some l =>
      cases hm : m.literal? with
      | some l' =>
        rw [literal_chars hn, literal_chars hm] at h
        rw [NumberLiteral.chars_injective h] at hn
        exact literal?_injective hn hm
      | none => exact absurd h (hletter hn hm)
    | none =>
      cases hm : m.literal? with
      | some l' => exact absurd h.symm (hletter hm hn)
      | none =>
        rcases chars_of_literal?_eq_none hn with rfl | rfl | rfl <;>
        rcases chars_of_literal?_eq_none hm with rfl | rfl | rfl <;>
        first | rfl | exact absurd h (by decide)
  · intro n r
    cases hn : n.literal? with
    | some l =>
      obtain ⟨c, cs, hcs, hc⟩ := l.head?_chars r
      rw [literal_chars hn, hcs]
      exact kind_of_isDigit hc
    | none => rcases chars_of_literal?_eq_none hn with rfl | rfl | rfl <;> rfl
  · intro n c hc
    cases hn : n.literal? with
    | some l =>
      rw [literal_chars hn] at hc
      exact stops_of_isDigit (NumberLiteral.mem_chars hc)
    | none =>
      have hall : n.chars.all (!stops ·) = true := by
        rcases chars_of_literal?_eq_none hn with rfl | rfl | rfl <;> rfl
      simpa using List.all_eq_true.mp hall c hc

/-- `json.dumps` with sorted keys. -/
def dumps (v : JsonTree PyNumber) : List Char := (v.sortKeys codePointLe).chars PyNumber.chars

/-- Values with one canonical text are the same up to the order of fields. -/
theorem sortKeys_eq_of_dumps {v w : JsonTree PyNumber} (h : dumps v = dumps w) :
    v.sortKeys codePointLe = w.sortKeys codePointLe :=
  chars_injective readable_chars h

section stored
variable {v : JsonTree PyNumber} {stored : JsonTree Numeric}

theorem load_store (hstored : store? v = some stored) :
    storable v ∧ load stored = (v.map reread).sortKeys keyLe := by
  unfold store? at hstored
  split at hstored
  · refine ⟨‹_›, ?_⟩
    rw [← Option.some.inj hstored, load, ← sortKeys_map, map_map]
    rfl
  · cases hstored

/-- The canonical text survives the column if and only if each number does. -/
theorem dumps_load_iff (hv : v.Distinct) (hstored : store? v = some stored) :
    dumps (load stored) = dumps v ↔ ∀ n ∈ v.numbers, Steady n := by
  obtain ⟨hstorable, hload⟩ := load_store hstored
  have hfinite : ∀ n ∈ v.numbers, n.literal?.isSome := by
    rw [storable, Bool.and_eq_true, List.all_eq_true] at hstorable
    exact hstorable.1
  have hsorted : (load stored).sortKeys codePointLe = (v.sortKeys codePointLe).map reread := by
    rw [hload, sortKeys_sortKeys keyOrder_codePointLe (distinct_map.mpr hv), sortKeys_map]
  constructor
  · intro h n hn
    have hsame := sortKeys_eq_of_dumps h
    rw [hsorted] at hsame
    rw [← @mem_numbers_sortKeys _ codePointLe, ← hsame, mem_numbers_map] at hn
    obtain ⟨m, hm, rfl⟩ := hn
    exact steady_reread (hfinite m (mem_numbers_sortKeys.mp hm))
  · intro h
    rw [dumps, dumps, hsorted, map_eq_self]
    intro n hn
    exact reread_of_steady (h n (mem_numbers_sortKeys.mp hn))

end stored

end Jsonb
