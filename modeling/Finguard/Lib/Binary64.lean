import Finguard.Lib.Decimal
import Finguard.Lib.NumberText

/-! Binary floating-point numbers of 53 bits, the rounding of a rational to one, and the
shortest decimal that is read back as the same number. -/

namespace Binary64
open Decimal

/-- The exponent of the last bit that is kept. -/
def quantum (q : ℚ) : ℤ := max (Int.log 2 q - 52) (-1074)

def step (q : ℚ) : ℚ := 2 ^ quantum q

/-- The nearest number with 53 significant bits, ties to even. -/
def roundNearest (q : ℚ) : ℚ := roundHalfEven (q / step q) * step q

def overflow : ℚ := 2 ^ 1024

variable {p q : ℚ}

theorem step_pos (q : ℚ) : 0 < step q := zpow_pos (by norm_num) _

theorem quantum_mono (hp : 0 < p) (h : p ≤ q) : quantum p ≤ quantum q := by
  have hlog : Int.log 2 p ≤ Int.log 2 q := Int.log_mono_right hp h
  unfold quantum
  omega

theorem roundNearest_nonneg (h : 0 ≤ q) : 0 ≤ roundNearest q := by
  have hround := roundHalfEven_nonneg (div_nonneg h (step_pos q).le)
  exact mul_nonneg (by exact_mod_cast hround) (step_pos q).le

/-- A multiple of the last place is left as it is. -/
theorem roundNearest_of_multiple {n k : ℤ} (hk : quantum q ≤ k) (h : q = n * 2 ^ k) :
    roundNearest q = q := by
  obtain ⟨j, hj⟩ : ∃ j : ℕ, k = quantum q + j := ⟨(k - quantum q).toNat, by omega⟩
  have hquot : q / step q = ((n * 2 ^ j : ℤ) : ℚ) := by
    rw [div_eq_iff (step_pos q).ne', step]
    nth_rewrite 1 [h]
    rw [hj, zpow_add₀ (by norm_num), zpow_natCast]
    push_cast
    ring
  rw [roundNearest, hquot, roundHalfEven_intCast, ← hquot]
  exact div_mul_cancel₀ _ (step_pos q).ne'

theorem roundNearest_zpow {k : ℤ} (hk : -1074 ≤ k) :
    roundNearest ((2 : ℚ) ^ k) = 2 ^ k := by
  have hlog : Int.log 2 ((2 : ℚ) ^ k) = k := by
    have h := Int.log_zpow (R := ℚ) (b := 2) (by norm_num) k
    exact_mod_cast h
  refine @roundNearest_of_multiple _ 1 k ?_ (by simp)
  rw [quantum, hlog]
  omega

theorem roundNearest_mono_of_step (hstep : quantum p = quantum q) (h : p ≤ q) :
    roundNearest p ≤ roundNearest q := by
  have heq : step p = step q := by rw [step, hstep, step]
  rw [roundNearest, roundNearest, heq]
  refine mul_le_mul_of_nonneg_right ?_ (step_pos q).le
  exact_mod_cast roundHalfEven_mono (div_le_div_of_nonneg_right h (step_pos q).le)

theorem exists_zpow_eq {k : ℤ} (hk : quantum q ≤ k) : ∃ n : ℤ, (2 : ℚ) ^ k = n * step q := by
  obtain ⟨j, hj⟩ : ∃ j : ℕ, k = quantum q + j := ⟨(k - quantum q).toNat, by omega⟩
  refine ⟨2 ^ j, ?_⟩
  rw [hj, zpow_add₀ (by norm_num), zpow_natCast, step]
  push_cast
  ring

/-- A value at most a power of two is rounded to at most that power, and from below alike. -/
theorem roundNearest_le_zpow {k : ℤ} (hk : quantum q ≤ k) (h : q ≤ 2 ^ k) :
    roundNearest q ≤ 2 ^ k := by
  obtain ⟨n, hpow⟩ := exists_zpow_eq hk
  rw [hpow] at h ⊢
  have hround := roundHalfEven_mono ((div_le_iff₀ (step_pos q)).mpr h)
  rw [roundHalfEven_intCast] at hround
  exact mul_le_mul_of_nonneg_right (by exact_mod_cast hround) (step_pos q).le

theorem zpow_le_roundNearest {k : ℤ} (hk : quantum q ≤ k) (h : 2 ^ k ≤ q) :
    2 ^ k ≤ roundNearest q := by
  obtain ⟨n, hpow⟩ := exists_zpow_eq hk
  rw [hpow] at h ⊢
  have hround := roundHalfEven_mono ((le_div_iff₀ (step_pos q)).mpr h)
  rw [roundHalfEven_intCast] at hround
  exact mul_le_mul_of_nonneg_right (by exact_mod_cast hround) (step_pos q).le

theorem roundNearest_mono (hp : 0 < p) (h : p ≤ q) : roundNearest p ≤ roundNearest q := by
  have hq : 0 < q := hp.trans_le h
  have hle : quantum p ≤ quantum q := quantum_mono hp h
  by_cases hstep : quantum p = quantum q
  · exact roundNearest_mono_of_step hstep h
  · -- the two lie in different binades, with a power of two between them
    have hlog : Int.log 2 p + 1 ≤ Int.log 2 q := by
      unfold quantum at hle hstep
      omega
    have hlow : p ≤ 2 ^ Int.log 2 q := by
      have hlt := Int.lt_zpow_succ_log_self (b := 2) (by norm_num) p
      push_cast at hlt
      exact hlt.le.trans (zpow_le_zpow_right₀ (by norm_num) hlog)
    have hhigh : (2 : ℚ) ^ Int.log 2 q ≤ q := by
      have hself := Int.zpow_log_le_self (b := 2) (by norm_num) hq
      exact_mod_cast hself
    have hlast : quantum q ≤ Int.log 2 q := by
      unfold quantum at hle hstep ⊢
      omega
    calc roundNearest p ≤ 2 ^ Int.log 2 q := roundNearest_le_zpow (hle.trans hlast) hlow
      _ ≤ roundNearest q := zpow_le_roundNearest hlast hhigh

@[simp] theorem roundNearest_zero : roundNearest 0 = 0 := by
  simp [roundNearest, roundHalfEven]

@[simp] theorem roundNearest_roundNearest (h : 0 ≤ q) :
    roundNearest (roundNearest q) = roundNearest q := by
  rcases h.eq_or_lt with rfl | hpos
  · simp
  set r := roundNearest q with hr
  have hnonneg : 0 ≤ r := roundNearest_nonneg h
  rcases hnonneg.eq_or_lt with hzero | hrpos
  · rw [← hzero, roundNearest_zero]
  by_cases hstep : quantum r ≤ quantum q
  · exact @roundNearest_of_multiple _ (roundHalfEven (q / step q)) _ hstep hr
  · -- rounding went up into the next binade, to the power of two that begins it
    have hlt := Int.lt_zpow_succ_log_self (b := 2) (by norm_num) q
    push_cast at hlt
    have hhigh : q ≤ 2 ^ (quantum q + 53) := by
      refine hlt.le.trans (zpow_le_zpow_right₀ (by norm_num) ?_)
      unfold quantum
      omega
    have hle : r ≤ 2 ^ (quantum q + 53) := roundNearest_le_zpow (by omega) hhigh
    have hself := Int.zpow_log_le_self (b := 2) (by norm_num) hrpos
    push_cast at hself
    have hge : 2 ^ (quantum q + 53) ≤ r := by
      refine (zpow_le_zpow_right₀ (by norm_num) ?_).trans hself
      unfold quantum at hstep ⊢
      omega
    rw [le_antisymm hle hge]
    apply roundNearest_zpow
    unfold quantum
    omega

end Binary64

/-- A finite number: a sign, which zero has too, and a magnitude of 53 bits. -/
structure Binary64 where
  negative : Bool
  magnitude : ℚ
  nonneg : 0 ≤ magnitude
  rounded : Binary64.roundNearest magnitude = magnitude
  lt_overflow : magnitude < Binary64.overflow

namespace Binary64
open Decimal
variable {v : ℚ}

@[ext] theorem ext {x y : Binary64} (hsign : x.negative = y.negative)
    (hmagnitude : x.magnitude = y.magnitude) : x = y := by
  cases x
  cases y
  cases hsign
  cases hmagnitude
  rfl

def zero (negative : Bool) : Binary64 where
  negative := negative
  magnitude := 0
  nonneg := le_rfl
  rounded := roundNearest_zero
  lt_overflow := by norm_num [overflow]

/-- What a decimal is read as; nothing where it is infinite. -/
def nearest? (negative : Bool) (q : ℚ) : Option Binary64 :=
  if hlt : roundNearest |q| < overflow then
    some ⟨negative, roundNearest |q|, roundNearest_nonneg (abs_nonneg q),
      roundNearest_roundNearest (abs_nonneg q), hlt⟩
  else none

theorem nearest?_eq_some {x : Binary64} {q : ℚ} (h : roundNearest |q| = x.magnitude) :
    nearest? x.negative q = some x := by
  have hlt : roundNearest |q| < overflow := h ▸ x.lt_overflow
  rw [nearest?, dif_pos hlt]
  exact congrArg some (Binary64.ext rfl h)

/-! Decimals. -/

/-- A coefficient and a power of ten. -/
def decimalValue (d : ℕ × ℤ) : ℚ := d.1 * 10 ^ d.2

def readsBack (v : ℚ) (d : ℕ × ℤ) : Bool := roundNearest (decimalValue d) = v

/-- The closest of the two decimals around a value that is read back as it. -/
def candidate? (v : ℚ) (e : ℤ) : Option (ℕ × ℤ) :=
  let low := ⌊v / 10 ^ e⌋₊
  [((roundHalfEven (v / 10 ^ e)).toNat, e), (low, e), (low + 1, e)].find? (readsBack v)

/-- Every binary fraction is a decimal. -/
def exactDecimal (v : ℚ) : ℕ × ℤ :=
  if 0 ≤ quantum v then (⌊v⌋₊, 0) else (⌊v * 10 ^ (-quantum v)⌋₊, quantum v)

/-- The decimal with the fewest digits that is read back as the value. Seventeen digits are
enough for any; the exact decimal closes the search. -/
def shortest (v : ℚ) : ℕ × ℤ :=
  ((List.range 18).findSome? fun i => candidate? v (Int.log 10 v + 1 - (i : ℕ))).getD
    (exactDecimal v)

theorem decimalValue_exactDecimal (h : roundNearest v = v) (hv : 0 ≤ v) :
    decimalValue (exactDecimal v) = v := by
  obtain ⟨n, hn⟩ : ∃ n : ℤ, v = n * 2 ^ quantum v := ⟨_, h.symm⟩
  have hnonneg : 0 ≤ n := by
    have hpow : (0 : ℚ) < 2 ^ quantum v := zpow_pos (by norm_num) _
    by_contra hneg
    have hlt : (n : ℚ) * 2 ^ quantum v < 0 :=
      mul_neg_of_neg_of_pos (by exact_mod_cast not_le.mp hneg) hpow
    rw [← hn] at hlt
    exact absurd hv (not_le.mpr hlt)
  obtain ⟨m, rfl⟩ := Int.eq_ofNat_of_zero_le hnonneg
  by_cases hwhole : 0 ≤ quantum v
  · obtain ⟨k, hk⟩ := Int.eq_ofNat_of_zero_le hwhole
    have hv' : v = ((m * 2 ^ k : ℕ) : ℚ) := by
      rw [hn, hk, zpow_natCast]
      push_cast
      rfl
    rw [exactDecimal, if_pos hwhole, decimalValue, zpow_zero, mul_one]
    rw [hv', Nat.floor_natCast]
  · obtain ⟨k, hk⟩ : ∃ k : ℕ, quantum v = -k := ⟨(-quantum v).toNat, by omega⟩
    have hscaled : v * 10 ^ (k : ℤ) = ((m * 5 ^ k : ℕ) : ℚ) := by
      have hten : (10 : ℚ) ^ (k : ℤ) = 2 ^ (k : ℤ) * 5 ^ (k : ℤ) := by
        rw [← mul_zpow]
        norm_num
      have htwo : (2 : ℚ) ^ (-(k : ℤ)) * 2 ^ (k : ℤ) = 1 := by
        rw [← zpow_add₀ (by norm_num), neg_add_cancel, zpow_zero]
      calc v * 10 ^ (k : ℤ) = m * (2 ^ (-(k : ℤ)) * 2 ^ (k : ℤ)) * 5 ^ (k : ℤ) := by
            nth_rewrite 1 [hn]
            rw [hk, hten]
            push_cast
            ring
        _ = ((m * 5 ^ k : ℕ) : ℚ) := by
            rw [htwo, mul_one, zpow_natCast]
            push_cast
            rfl
    rw [exactDecimal, if_neg hwhole, decimalValue]
    dsimp only
    rw [hk, neg_neg, hscaled, Nat.floor_natCast, ← hscaled, mul_assoc,
      ← zpow_add₀ (by norm_num), add_neg_cancel, zpow_zero, mul_one]

theorem readsBack_iff {d : ℕ × ℤ} : readsBack v d ↔ roundNearest (decimalValue d) = v :=
  decide_eq_true_iff

/-- What the search ends with. -/
theorem shortest_cases (v : ℚ) :
    (∃ i < 18, candidate? v (Int.log 10 v + 1 - (i : ℕ)) = some (shortest v)) ∨
      shortest v = exactDecimal v := by
  cases hfound : (List.range 18).findSome? fun i => candidate? v (Int.log 10 v + 1 - (i : ℕ)) with
  | none => exact .inr (by rw [shortest, hfound]; rfl)
  | some d =>
    obtain ⟨i, hi, hd⟩ := List.exists_of_findSome?_eq_some hfound
    refine .inl ⟨i, List.mem_range.mp hi, ?_⟩
    rw [hd, shortest, hfound]
    rfl

section candidate
variable {e : ℤ} {d : ℕ × ℤ}

theorem readsBack_of_candidate (h : candidate? v e = some d) : readsBack v d :=
  List.find?_some h

theorem candidate_exponent (h : candidate? v e = some d) : d.2 = e := by
  have hmem := List.mem_of_find?_eq_some h
  simp only [List.mem_cons, List.not_mem_nil, or_false] at hmem
  rcases hmem with rfl | rfl | rfl <;> rfl

/-- A candidate is at least the decimal below the value. -/
theorem le_candidate (h : candidate? v e = some d) : ⌊v / 10 ^ e⌋₊ ≤ d.1 := by
  have hmem := List.mem_of_find?_eq_some h
  simp only [List.mem_cons, List.not_mem_nil, or_false] at hmem
  rcases hmem with rfl | rfl | rfl
  · rw [← Int.floor_toNat]
    rcases roundHalfEven_cases (v / 10 ^ e) with hlow | hhigh
    · rw [hlow]
    · rw [hhigh]
      exact Int.toNat_le_toNat (by omega)
  · exact le_rfl
  · exact Nat.le_succ _

end candidate

section shortest

theorem roundNearest_shortest (h : roundNearest v = v) (hv : 0 ≤ v) :
    roundNearest (decimalValue (shortest v)) = v := by
  rcases shortest_cases v with ⟨i, _, hi⟩ | hexact
  · exact readsBack_iff.mp (readsBack_of_candidate hi)
  · rw [hexact, decimalValue_exactDecimal h hv, h]

theorem shortest_pos (h : roundNearest v = v) (hv : 0 < v) : 0 < (shortest v).1 := by
  rcases Nat.eq_zero_or_pos (shortest v).1 with hzero | hpos
  · have hreads := roundNearest_shortest h hv.le
    rw [decimalValue, hzero, Nat.cast_zero, zero_mul, roundNearest_zero] at hreads
    exact absurd hreads hv.ne
  · exact hpos

/-- The first magnitude that is written with an exponent. -/
def scientific : ℚ := 10 ^ 16

theorem roundNearest_scientific : roundNearest scientific = scientific := by
  have hlog : Int.log 2 scientific = 53 := by
    rw [scientific, Int.log_of_one_le_right _ (by norm_num)]
    norm_num
  refine @roundNearest_of_multiple _ (5 ^ 16) 16 ?_ ?_
  · rw [quantum, hlog]
    norm_num
  · rw [scientific]
    norm_num

theorem shortest_lt_scientific (h : roundNearest v = v) (hv : 0 ≤ v) (hlt : v < scientific) :
    decimalValue (shortest v) < scientific := by
  by_contra hge
  have hmono := roundNearest_mono (by norm_num [scientific]) (not_lt.mp hge)
  rw [roundNearest_scientific, roundNearest_shortest h hv] at hmono
  exact absurd hlt (not_lt.mpr hmono)

theorem shortest_of_scientific_le (h : roundNearest v = v) (hge : scientific ≤ v) :
    0 ≤ (shortest v).2 ∧ scientific ≤ decimalValue (shortest v) := by
  have hpos : 0 < v := lt_of_lt_of_le (by norm_num [scientific]) hge
  rcases shortest_cases v with ⟨i, hlt, hi⟩ | hexact
  · have hlog : 16 ≤ Int.log 10 v := by
      have hmono := Int.log_mono_right (b := 10) (by norm_num [scientific]) hge
      have hsixteen : Int.log 10 scientific = 16 := by
        rw [scientific, Int.log_of_one_le_right _ (by norm_num)]
        norm_num
      omega
    have hexponent := candidate_exponent hi
    have hnonneg : 0 ≤ (shortest v).2 := by omega
    refine ⟨hnonneg, ?_⟩
    have hlow := le_candidate hi
    have hone := shortest_pos h hpos
    rw [← hexponent] at hlow
    obtain ⟨e, he⟩ := Int.eq_ofNat_of_zero_le hnonneg
    rw [he, zpow_natCast] at hlow
    rw [decimalValue, he, zpow_natCast]
    by_cases hsmall : e ≤ 16
    · -- the decimal below the value is at least the power of ten below it
      have hquot : ((10 ^ (16 - e) : ℕ) : ℚ) ≤ v / 10 ^ e := by
        rw [le_div_iff₀ (by positivity), Nat.cast_pow, Nat.cast_ofNat, ← pow_add,
          Nat.sub_add_cancel hsmall]
        exact hge
      have hfloor : ((10 ^ (16 - e) : ℕ) : ℚ) ≤ (shortest v).1 := by
        exact_mod_cast (Nat.le_floor hquot).trans hlow
      calc scientific = ((10 ^ (16 - e) : ℕ) : ℚ) * 10 ^ e := by
            rw [Nat.cast_pow, Nat.cast_ofNat, ← pow_add, Nat.sub_add_cancel hsmall, scientific]
        _ ≤ (shortest v).1 * 10 ^ e := mul_le_mul_of_nonneg_right hfloor (by positivity)
    · calc scientific ≤ 1 * 10 ^ e := by
            rw [one_mul, scientific]
            exact pow_le_pow_right₀ (by norm_num) (by omega)
        _ ≤ (shortest v).1 * 10 ^ e :=
            mul_le_mul_of_nonneg_right (by exact_mod_cast hone) (by positivity)
  · have hlog : 53 ≤ Int.log 2 v := by
      have hmono := Int.log_mono_right (b := 2) (by norm_num [scientific]) hge
      have hbits : Int.log 2 scientific = 53 := by
        rw [scientific, Int.log_of_one_le_right _ (by norm_num)]
        norm_num
      omega
    have hquantum : 0 ≤ quantum v := by
      unfold quantum
      omega
    rw [hexact]
    refine ⟨?_, ?_⟩
    · rw [exactDecimal, if_pos hquantum]
    · rw [decimalValue_exactDecimal h hpos.le]
      exact hge

end shortest

/-! The text of a number. -/

/-- The position of the point relative to the first digit. -/
def decimalPoint (d : ℕ × ℤ) : ℤ := Nat.log 10 d.1 + 1 + d.2

/-- A fixed notation has a digit after the point at least; the scientific one has one digit
before it. -/
def decimalLiteral (negative : Bool) (d : ℕ × ℤ) : NumberLiteral :=
  if -4 < decimalPoint d ∧ decimalPoint d ≤ 16 then
    if 0 ≤ d.2 then .ofCoefficient negative (d.1 * 10 ^ (d.2.toNat + 1)) 1 none
    else .ofCoefficient negative d.1 (-d.2).toNat none
  else .ofCoefficient negative d.1 (Nat.log 10 d.1) (some (decimalPoint d - 1))

def repr (x : Binary64) : NumberLiteral :=
  if x.magnitude = 0 then .ofCoefficient x.negative 0 1 none
  else decimalLiteral x.negative (shortest x.magnitude)

theorem negative_repr (x : Binary64) : x.repr.negative = x.negative := by
  unfold repr decimalLiteral
  split_ifs <;> rfl

theorem magnitude_decimalLiteral (negative : Bool) (d : ℕ × ℤ) :
    (decimalLiteral negative d).magnitude = decimalValue d := by
  unfold decimalLiteral
  split_ifs with hfixed hwhole
  · obtain ⟨e, he⟩ := Int.eq_ofNat_of_zero_le hwhole
    rw [NumberLiteral.magnitude_ofCoefficient, decimalValue, he, Int.toNat_natCast]
    push_cast
    rw [pow_succ, mul_assoc, mul_assoc, ← zpow_natCast]
    norm_num
  · rw [NumberLiteral.magnitude_ofCoefficient, decimalValue, Option.getD_none]
    congr 2
    omega
  · rw [NumberLiteral.magnitude_ofCoefficient, decimalValue, Option.getD_some, decimalPoint]
    congr 2
    omega

theorem decimalPoint_le_iff {d : ℕ × ℤ} (h : 0 < d.1) :
    decimalPoint d ≤ 16 ↔ decimalValue d < scientific := by
  have hlow : (10 : ℚ) ^ Nat.log 10 d.1 ≤ d.1 := by
    exact_mod_cast Nat.pow_log_le_self 10 h.ne'
  have hhigh : (d.1 : ℚ) < 10 ^ (Nat.log 10 d.1 + 1) := by
    exact_mod_cast Nat.lt_pow_succ_log_self (by norm_num) d.1
  have hpow : (0 : ℚ) < 10 ^ d.2 := zpow_pos (by norm_num) _
  rw [← zpow_natCast] at hlow hhigh
  constructor
  · intro hle
    calc decimalValue d < 10 ^ ((Nat.log 10 d.1 + 1 : ℕ) : ℤ) * 10 ^ d.2 :=
          mul_lt_mul_of_pos_right hhigh hpow
      _ = 10 ^ decimalPoint d := by
          rw [← zpow_add₀ (by norm_num), decimalPoint]
          push_cast
          rfl
      _ ≤ 10 ^ (16 : ℤ) := zpow_le_zpow_right₀ (by norm_num) hle
      _ = scientific := by norm_num [scientific]
  · intro hlt
    by_contra hgt
    have hge : scientific ≤ decimalValue d := by
      calc scientific = 10 ^ (16 : ℤ) := by norm_num [scientific]
        _ ≤ 10 ^ (Nat.log 10 d.1 + d.2) := by
            refine zpow_le_zpow_right₀ (by norm_num) ?_
            unfold decimalPoint at hgt
            omega
        _ = 10 ^ (Nat.log 10 d.1 : ℤ) * 10 ^ d.2 := zpow_add₀ (by norm_num) _ _
        _ ≤ decimalValue d := mul_le_mul_of_nonneg_right hlow hpow.le
    exact absurd hlt (not_lt.mpr hge)

/-- The last digit of a text stands after the point, save for large numbers. -/
theorem places_repr_neg_iff (x : Binary64) : x.repr.places < 0 ↔ x.magnitude < scientific := by
  by_cases hzero : x.magnitude = 0
  · rw [repr, if_pos hzero, NumberLiteral.places, NumberLiteral.width_ofCoefficient, hzero]
    simp [NumberLiteral.ofCoefficient, scientific]
  have hpos : 0 < x.magnitude := lt_of_le_of_ne x.nonneg (Ne.symm hzero)
  have hcoefficient := shortest_pos x.rounded hpos
  rw [repr, if_neg hzero]
  by_cases hlt : x.magnitude < scientific
  · have hpoint := (decimalPoint_le_iff hcoefficient).mpr
      (shortest_lt_scientific x.rounded x.nonneg hlt)
    simp only [hlt, iff_true]
    unfold decimalLiteral
    split_ifs with hfixed hwhole
    · rw [NumberLiteral.places, NumberLiteral.width_ofCoefficient]
      simp [NumberLiteral.ofCoefficient]
    · rw [NumberLiteral.places, NumberLiteral.width_ofCoefficient]
      simp only [NumberLiteral.ofCoefficient, Option.getD_none]
      omega
    · rw [NumberLiteral.places, NumberLiteral.width_ofCoefficient]
      simp only [NumberLiteral.ofCoefficient, Option.getD_some]
      unfold decimalPoint at hpoint hfixed ⊢
      omega
  · obtain ⟨hexponent, hlarge⟩ := shortest_of_scientific_le x.rounded (not_lt.mp hlt)
    have hpoint : ¬ decimalPoint (shortest x.magnitude) ≤ 16 := by
      rw [decimalPoint_le_iff hcoefficient]
      exact not_lt.mpr hlarge
    simp only [hlt, iff_false, not_lt]
    rw [decimalLiteral, if_neg (fun h => hpoint h.2), NumberLiteral.places,
      NumberLiteral.width_ofCoefficient]
    simp only [NumberLiteral.ofCoefficient, Option.getD_some]
    unfold decimalPoint
    omega

/-- A text is read as the number it was made of. -/
theorem roundNearest_magnitude_repr (x : Binary64) :
    roundNearest x.repr.magnitude = x.magnitude := by
  by_cases hzero : x.magnitude = 0
  · rw [repr, if_pos hzero, NumberLiteral.magnitude_ofCoefficient, Nat.cast_zero, zero_mul,
      roundNearest_zero, hzero]
  · rw [repr, if_neg hzero, magnitude_decimalLiteral]
    exact roundNearest_shortest x.rounded x.nonneg

theorem repr_injective : Function.Injective repr := by
  intro x y h
  refine Binary64.ext ?_ ?_
  · rw [← negative_repr x, h, negative_repr]
  · rw [← roundNearest_magnitude_repr x, h, roundNearest_magnitude_repr]

theorem repr_not_whole (x : Binary64) : ¬ (x.repr.fraction.isNone ∧ x.repr.exponent.isNone) := by
  unfold repr decimalLiteral
  split_ifs with hzero hfixed hwhole
  · simp [NumberLiteral.ofCoefficient, Fraction.last]
  · simp [NumberLiteral.ofCoefficient, Fraction.last]
  · have hpos : 0 < (-(shortest x.magnitude).2).toNat := by omega
    simp [NumberLiteral.ofCoefficient, Fraction.last, hpos]
  · simp [NumberLiteral.ofCoefficient]

end Binary64
