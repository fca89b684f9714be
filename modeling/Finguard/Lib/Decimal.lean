import Mathlib

/-! Decimal arithmetic in a bounded context, and fixed-point columns that round
what is stored in them. -/

namespace Decimal

/-- Nearest integer, ties away from zero: the rounding of a numeric column. -/
def roundHalfAway (x : ℚ) : ℤ := if 0 ≤ x then round x else -round (-x)

/-- Nearest integer, ties to even: the rounding of the default context. -/
def roundHalfEven (x : ℚ) : ℤ :=
  let low := ⌊x⌋
  if x - low < 1 / 2 then low
  else if 1 / 2 < x - low then low + 1
  else if low % 2 = 0 then low else low + 1

def ofUnits (scale : ℕ) (units : ℤ) : ℚ := units / 10 ^ scale

theorem pow_ten_pos (scale : ℕ) : (0 : ℚ) < 10 ^ scale := by positivity

@[simp] theorem ofUnits_zero (scale : ℕ) : ofUnits scale 0 = 0 := by simp [ofUnits]

@[simp] theorem ofUnits_inj {scale : ℕ} {a b : ℤ} : ofUnits scale a = ofUnits scale b ↔ a = b := by
  unfold ofUnits
  rw [div_left_inj' (pow_ten_pos scale).ne']
  exact_mod_cast Iff.rfl

@[simp] theorem ofUnits_le {scale : ℕ} {a b : ℤ} : ofUnits scale a ≤ ofUnits scale b ↔ a ≤ b := by
  unfold ofUnits
  rw [div_le_div_iff_of_pos_right (pow_ten_pos scale)]
  exact_mod_cast Iff.rfl

@[simp] theorem ofUnits_lt {scale : ℕ} {a b : ℤ} : ofUnits scale a < ofUnits scale b ↔ a < b := by
  rw [← not_le, ofUnits_le, not_le]

@[simp] theorem ofUnits_nonneg {scale : ℕ} {a : ℤ} : 0 ≤ ofUnits scale a ↔ 0 ≤ a := by
  rw [← ofUnits_zero scale, ofUnits_le]

@[simp] theorem ofUnits_nonpos {scale : ℕ} {a : ℤ} : ofUnits scale a ≤ 0 ↔ a ≤ 0 := by
  rw [← ofUnits_zero scale, ofUnits_le]

@[simp] theorem ofUnits_pos {scale : ℕ} {a : ℤ} : 0 < ofUnits scale a ↔ 0 < a := by
  rw [← ofUnits_zero scale, ofUnits_lt]

theorem ofUnits_add (scale : ℕ) (a b : ℤ) :
    ofUnits scale a + ofUnits scale b = ofUnits scale (a + b) := by
  simp only [ofUnits, Int.cast_add]
  ring

theorem ofUnits_sub (scale : ℕ) (a b : ℤ) :
    ofUnits scale a - ofUnits scale b = ofUnits scale (a - b) := by
  simp only [ofUnits, Int.cast_sub]
  ring

theorem ofUnits_mul_pow (scale : ℕ) (a : ℤ) : ofUnits scale a * 10 ^ scale = a :=
  div_mul_cancel₀ _ (pow_ten_pos scale).ne'

theorem ofUnits_sum (scale : ℕ) (l : List ℤ) :
    (l.map (ofUnits scale)).sum = ofUnits scale l.sum := by
  induction l with
  | nil => simp
  | cons x xs ih => simp [ih, ofUnits_add]

/-! Rounding. -/

@[simp] theorem roundHalfAway_intCast (n : ℤ) : roundHalfAway n = n := by
  unfold roundHalfAway
  split
  · exact round_intCast n
  · rw [← Int.cast_neg, round_intCast, neg_neg]

theorem roundHalfAway_of_nonneg {x : ℚ} (h : 0 ≤ x) : roundHalfAway x = round x := if_pos h

theorem roundHalfAway_nonneg {x : ℚ} (h : 0 ≤ x) : 0 ≤ roundHalfAway x := by
  rw [roundHalfAway_of_nonneg h, round_eq]
  exact Int.floor_nonneg.mpr (by linarith)

theorem roundHalfAway_eq_floor_add {x : ℚ} (h : 0 ≤ x) :
    roundHalfAway x = ⌊x⌋ + if 1 / 2 ≤ Int.fract x then 1 else 0 := by
  have hfract := Int.floor_add_fract x
  have hlt := Int.fract_lt_one x
  have hnonneg := Int.fract_nonneg x
  rw [roundHalfAway_of_nonneg h, round_eq, Int.floor_eq_iff]
  by_cases hhalf : 1 / 2 ≤ Int.fract x
  · rw [if_pos hhalf]
    push_cast
    constructor <;> linarith
  · rw [if_neg hhalf, add_zero]
    constructor <;> linarith

theorem roundHalfAway_mono {x y : ℚ} (h : x ≤ y) : roundHalfAway x ≤ roundHalfAway y := by
  have mono : ∀ {a b : ℚ}, a ≤ b → round a ≤ round b := by
    intro a b hab
    rw [round_eq, round_eq]
    exact Int.floor_le_floor (by linarith)
  unfold roundHalfAway
  split <;> split
  · exact mono h
  · linarith
  · have hx : 0 ≤ round (-x) := by
      rw [round_eq]
      exact Int.floor_nonneg.mpr (by linarith)
    have hy : 0 ≤ round y := by
      rw [round_eq]
      exact Int.floor_nonneg.mpr (by linarith)
    omega
  · have hh := mono (neg_le_neg h)
    omega

/-- Two amounts that add up to less than half a step above `n` round to more than `n`
only when both round up and their whole parts fall one short. -/
theorem roundHalfAway_sum_le_iff {x y : ℚ} {n : ℤ} (hx : 0 ≤ x) (hy : 0 ≤ y)
    (hlt : x + y < n + 1 / 2) : roundHalfAway x + roundHalfAway y ≤ n ↔
      ¬ (1 / 2 ≤ Int.fract x ∧ 1 / 2 ≤ Int.fract y ∧ ⌊x⌋ + ⌊y⌋ + 1 = n) := by
  have hfloorx := Int.floor_add_fract x
  have hfloory := Int.floor_add_fract y
  have hfractx := Int.fract_nonneg x
  have hfracty := Int.fract_nonneg y
  have hfloor : ⌊x⌋ + ⌊y⌋ ≤ n := by
    have hle : ((⌊x⌋ + ⌊y⌋ : ℤ) : ℚ) < (n + 1 : ℤ) := by
      push_cast
      linarith
    exact Int.lt_add_one_iff.mp (by exact_mod_cast hle)
  -- whole parts that use `n` up leave no room for a half
  have hroom : ∀ z : ℚ, z = Int.fract x ∨ z = Int.fract y → 1 / 2 ≤ z → ⌊x⌋ + ⌊y⌋ ≠ n := by
    intro z hz hhalf heq
    have hcast : (⌊x⌋ : ℚ) + ⌊y⌋ = n := by exact_mod_cast heq
    rcases hz with rfl | rfl <;> linarith
  rw [roundHalfAway_eq_floor_add hx, roundHalfAway_eq_floor_add hy]
  by_cases hhalfx : 1 / 2 ≤ Int.fract x
  · have hnex := hroom _ (.inl rfl) hhalfx
    by_cases hhalfy : 1 / 2 ≤ Int.fract y
    · rw [if_pos hhalfx, if_pos hhalfy]
      simp only [hhalfx, hhalfy, true_and]
      omega
    · rw [if_pos hhalfx, if_neg hhalfy]
      simp only [hhalfy, false_and, and_false, not_false_eq_true, iff_true]
      omega
  · rw [if_neg hhalfx]
    simp only [hhalfx, false_and, not_false_eq_true, iff_true]
    by_cases hhalfy : 1 / 2 ≤ Int.fract y
    · have hney := hroom _ (.inr rfl) hhalfy
      rw [if_pos hhalfy]
      omega
    · rw [if_neg hhalfy]
      omega

theorem pos_of_roundHalfAway_pos {x : ℚ} (h : 0 < roundHalfAway x) : 0 < x := by
  by_contra hx
  have hle := roundHalfAway_mono (not_lt.mp hx)
  have hzero : roundHalfAway 0 = 0 := by exact_mod_cast roundHalfAway_intCast 0
  omega

theorem eq_iff_forall_succ_le {a b : ℤ} : a = b ↔ ∀ k : ℤ, k + 1 ≤ a ↔ k + 1 ≤ b := by
  constructor
  · rintro rfl k
    exact Iff.rfl
  · intro h
    have hle := (h (a - 1)).mp (by omega)
    have hge := (h (b - 1)).mpr (by omega)
    omega

theorem forall_half_le_iff {x y : ℚ} :
    (∀ k : ℤ, (k : ℚ) + 1 / 2 ≤ x ↔ (k : ℚ) + 1 / 2 ≤ y) ↔ ⌊x + 1 / 2⌋ = ⌊y + 1 / 2⌋ := by
  have hhalf : ∀ (z : ℚ) (k : ℤ), k + 1 ≤ ⌊z + 1 / 2⌋ ↔ (k : ℚ) + 1 / 2 ≤ z := by
    intro z k
    rw [Int.le_floor]
    push_cast
    constructor <;> intro h <;> linarith
  simp only [eq_iff_forall_succ_le, hhalf]

theorem forall_half_lt_iff {x y : ℚ} :
    (∀ k : ℤ, (k : ℚ) + 1 / 2 ≤ x ↔ (k : ℚ) + 1 / 2 < y) ↔ ⌊x + 1 / 2⌋ = ⌈y - 1 / 2⌉ := by
  have hle : ∀ k : ℤ, k + 1 ≤ ⌊x + 1 / 2⌋ ↔ (k : ℚ) + 1 / 2 ≤ x := by
    intro k
    rw [Int.le_floor]
    push_cast
    constructor <;> intro h <;> linarith
  have hlt : ∀ k : ℤ, k + 1 ≤ ⌈y - 1 / 2⌉ ↔ (k : ℚ) + 1 / 2 < y := by
    intro k
    rw [Int.add_one_le_iff, Int.lt_ceil]
    constructor <;> intro h <;> linarith
  simp only [eq_iff_forall_succ_le, hle, hlt]

/-- A rounded value is a whole number plus a rounded amount exactly when no half lies
between the value and the exact sum. -/
theorem roundHalfAway_eq_add_iff {x y : ℚ} {n : ℤ} (hx : 0 ≤ x) (hy : 0 ≤ y) :
    roundHalfAway x = n + roundHalfAway y ↔
      ∀ k : ℤ, (k : ℚ) + 1 / 2 ≤ x ↔ (k : ℚ) + 1 / 2 ≤ n + y := by
  rw [forall_half_le_iff, roundHalfAway_of_nonneg hx, roundHalfAway_of_nonneg hy, round_eq,
    round_eq, add_assoc, Int.floor_intCast_add]

/-- The amount that is taken off rounds up at a half, so the difference may not meet
one. -/
theorem roundHalfAway_eq_sub_iff {x y : ℚ} {n : ℤ} (hx : 0 ≤ x) (hy : 0 ≤ y) :
    roundHalfAway x = n - roundHalfAway y ↔
      ∀ k : ℤ, (k : ℚ) + 1 / 2 ≤ x ↔ (k : ℚ) + 1 / 2 < n - y := by
  have hneg : (n : ℚ) - y - 1 / 2 = -(y + 1 / 2) + n := by ring
  rw [forall_half_lt_iff, roundHalfAway_of_nonneg hx, roundHalfAway_of_nonneg hy, round_eq,
    round_eq, hneg, Int.ceil_add_intCast, Int.ceil_neg, neg_add_eq_sub]

/-! The context: results of at most `28` digits are exact. -/

/-- An arithmetic context. Whatever it does with longer results, a result of at
most twenty-eight digits is returned unchanged, and the order of results is kept. -/
class Context where
  round : ℚ → ℚ
  round_exact : ∀ (scale : ℕ) (units : ℤ), units.natAbs < 10 ^ 28 →
    round (ofUnits scale units) = ofUnits scale units
  round_mono : ∀ {p q : ℚ}, p ≤ q → round p ≤ round q

section
variable [Context]

theorem Context.round_nonneg {q : ℚ} (h : 0 ≤ q) : 0 ≤ Context.round q := by
  have hzero : Context.round 0 = 0 := by
    simpa using Context.round_exact 0 0 (by norm_num)
  rw [← hzero]
  exact Context.round_mono h

def add (a b : ℚ) : ℚ := Context.round (a + b)

def sub (a b : ℚ) : ℚ := Context.round (a - b)

def mul (a b : ℚ) : ℚ := Context.round (a * b)

def div (a b : ℚ) : ℚ := Context.round (a / b)

/-- Negation and absolute value round like every other operation. -/
def neg (a : ℚ) : ℚ := Context.round (-a)

def magnitude (a : ℚ) : ℚ := Context.round |a|

theorem add_nonneg {a b : ℚ} (ha : 0 ≤ a) (hb : 0 ≤ b) : 0 ≤ add a b :=
  Context.round_nonneg (show 0 ≤ a + b by linarith)

theorem add_ofUnits {scale : ℕ} {a b : ℤ} (h : (a + b).natAbs < 10 ^ 28) :
    add (ofUnits scale a) (ofUnits scale b) = ofUnits scale (a + b) := by
  rw [add, ofUnits_add, Context.round_exact _ _ h]

theorem sub_ofUnits {scale : ℕ} {a b : ℤ} (h : (a - b).natAbs < 10 ^ 28) :
    sub (ofUnits scale a) (ofUnits scale b) = ofUnits scale (a - b) := by
  rw [sub, ofUnits_sub, Context.round_exact _ _ h]

end

/-- `quantize` to `scale` decimals fails when the result needs more digits than
the context has. -/
def quantize? (scale : ℕ) (q : ℚ) : Option ℚ :=
  let units := roundHalfEven (q * 10 ^ scale)
  if units.natAbs < 10 ^ 28 then some (ofUnits scale units) else none

@[simp] theorem roundHalfEven_intCast (n : ℤ) : roundHalfEven n = n := by
  simp [roundHalfEven]

theorem quantize?_ofUnits {scale : ℕ} {a : ℤ} (h : a.natAbs < 10 ^ 28) :
    quantize? scale (ofUnits scale a) = some (ofUnits scale a) := by
  simp only [quantize?, ofUnits_mul_pow, roundHalfEven_intCast]
  exact if_pos h

theorem roundHalfEven_nonneg {x : ℚ} (h : 0 ≤ x) : 0 ≤ roundHalfEven x := by
  have hlow : 0 ≤ ⌊x⌋ := Int.floor_nonneg.mpr h
  simp only [roundHalfEven]
  split_ifs <;> omega

theorem roundHalfEven_cases (x : ℚ) : roundHalfEven x = ⌊x⌋ ∨ roundHalfEven x = ⌊x⌋ + 1 := by
  simp only [roundHalfEven]
  split_ifs <;> simp

theorem abs_roundHalfEven_sub_le (x : ℚ) : |(roundHalfEven x : ℚ) - x| ≤ 1 / 2 := by
  have hlow := Int.floor_le x
  have hhigh := Int.lt_floor_add_one x
  rw [abs_le]
  simp only [roundHalfEven]
  split_ifs
  all_goals
    push_cast
    constructor <;> linarith

theorem units_of_quantize? {scale : ℕ} {q r : ℚ} (h : quantize? scale q = some r) :
    r = ofUnits scale (roundHalfEven (q * 10 ^ scale)) := by
  simp only [quantize?] at h
  split at h
  · exact (Option.some.inj h).symm
  · cases h

theorem roundHalfEven_mono {x y : ℚ} (h : x ≤ y) : roundHalfEven x ≤ roundHalfEven y := by
  have hfloor := Int.floor_le_floor h
  by_cases heq : ⌊x⌋ = ⌊y⌋
  · simp only [roundHalfEven, heq]
    split_ifs
    all_goals first | omega | linarith
  · have hx := roundHalfEven_cases x
    have hy := roundHalfEven_cases y
    omega

theorem roundHalfEven_neg (x : ℚ) : roundHalfEven (-x) = -roundHalfEven x := by
  by_cases hi : (⌊x⌋ : ℚ) = x
  · rw [← hi, ← Int.cast_neg, roundHalfEven_intCast, roundHalfEven_intCast]
  · have hfloor : ⌊-x⌋ = -⌊x⌋ - 1 := by
      rw [Int.floor_eq_iff]
      push_cast
      have hlt := lt_of_le_of_ne (Int.floor_le x) hi
      have hlt' := Int.lt_floor_add_one x
      constructor <;> linarith
    simp only [roundHalfEven, hfloor]
    push_cast
    split_ifs
    all_goals first | omega | linarith

/-! Sums of non-negative amounts, taken one by one. -/

section sum
variable [Context] {scale : ℕ} {l : List ℤ} {a : ℤ} {q : ℚ}

theorem foldl_add_ofUnits (hl : ∀ u ∈ l, 0 ≤ u) (ha : 0 ≤ a) (h : a + l.sum < 10 ^ 28) :
    (l.map (ofUnits scale)).foldl add (ofUnits scale a) = ofUnits scale (a + l.sum) := by
  induction l generalizing a with
  | nil => simp
  | cons u l ih =>
    have hu := hl u List.mem_cons_self
    have hrest : ∀ v ∈ l, 0 ≤ v := fun v hv => hl v (List.mem_cons_of_mem u hv)
    have hsum := List.sum_nonneg hrest
    rw [List.sum_cons] at h
    have hexact : add (ofUnits scale a) (ofUnits scale u) = ofUnits scale (a + u) :=
      add_ofUnits (by omega)
    rw [List.map_cons, List.foldl_cons, hexact, ih hrest (by omega) (by omega), List.sum_cons,
      add_assoc]

omit [Context] in
theorem ofUnits_limit (scale : ℕ) : ofUnits (scale + 1) (10 ^ 28) = ofUnits scale (10 ^ 27) := by
  simp only [ofUnits]
  push_cast
  rw [pow_succ]
  ring

/-- A sum never falls back below the first number with too many digits. -/
theorem le_foldl_add {l : List ℚ} (hl : ∀ p ∈ l, 0 ≤ p)
    (h : ofUnits (scale + 1) (10 ^ 28) ≤ q) : ofUnits (scale + 1) (10 ^ 28) ≤ l.foldl add q := by
  induction l generalizing q with
  | nil => exact h
  | cons p l ih =>
    apply ih (fun r hr => hl r (List.mem_cons_of_mem p hr))
    have hp := hl p List.mem_cons_self
    rw [ofUnits_limit] at h ⊢
    rw [← Context.round_exact scale (10 ^ 27) (by norm_num)]
    exact Context.round_mono (by linarith)

omit [Context] in
theorem quantize?_eq_none (h : ofUnits scale (10 ^ 28) ≤ q) : quantize? scale q = none := by
  have hscaled : ((10 ^ 28 : ℤ) : ℚ) ≤ q * 10 ^ scale := by
    rw [← ofUnits_mul_pow scale (10 ^ 28)]
    exact mul_le_mul_of_nonneg_right h (pow_ten_pos scale).le
  have hround := roundHalfEven_mono hscaled
  rw [roundHalfEven_intCast] at hround
  simp only [quantize?]
  rw [if_neg (by omega)]

/-- A sum with too many digits is too large for `quantize` however it was rounded on the way. -/
theorem quantize?_foldl_add (hl : ∀ u ∈ l, 0 ≤ u) :
    quantize? (scale + 1) ((l.map (ofUnits (scale + 1))).foldl add 0) =
      if l.sum < 10 ^ 28 then some (ofUnits (scale + 1) l.sum) else none := by
  have hsum := List.sum_nonneg hl
  rw [← ofUnits_zero (scale + 1)]
  by_cases h : l.sum < 10 ^ 28
  · rw [if_pos h, foldl_add_ofUnits hl le_rfl (by omega), zero_add]
    exact quantize?_ofUnits (by omega)
  · rw [if_neg h]
    apply quantize?_eq_none
    suffices hlarge : ∀ a : ℤ, 0 ≤ a → 10 ^ 28 ≤ a + l.sum →
        ofUnits (scale + 1) (10 ^ 28) ≤
          (l.map (ofUnits (scale + 1))).foldl add (ofUnits (scale + 1) a) from
      hlarge 0 le_rfl (by omega)
    clear hsum h
    induction l with
    | nil =>
      intro a _ hle
      simpa using hle
    | cons u l ih =>
      intro a ha hle
      have hu := hl u List.mem_cons_self
      have hrest : ∀ v ∈ l, 0 ≤ v := fun v hv => hl v (List.mem_cons_of_mem u hv)
      rw [List.sum_cons] at hle
      rw [List.map_cons, List.foldl_cons]
      by_cases hfits : a + u < 10 ^ 28
      · have hexact : add (ofUnits (scale + 1) a) (ofUnits (scale + 1) u) =
            ofUnits (scale + 1) (a + u) := add_ofUnits (by omega)
        rw [hexact]
        exact ih hrest (a + u) (by omega) (by omega)
      · apply le_foldl_add
        · intro p hp
          obtain ⟨v, hv, rfl⟩ := List.mem_map.mp hp
          exact ofUnits_nonneg.mpr (hrest v hv)
        · have hexact : Context.round (ofUnits scale (10 ^ 27)) = ofUnits scale (10 ^ 27) :=
            Context.round_exact scale (10 ^ 27) (by norm_num)
          rw [ofUnits_limit, ← hexact]
          apply Context.round_mono
          rw [← ofUnits_limit, ofUnits_add, ofUnits_le]
          omega

theorem foldl_add_nonneg {l : List ℚ} (hl : ∀ p ∈ l, 0 ≤ p) (hq : 0 ≤ q) : 0 ≤ l.foldl add q := by
  induction l generalizing q with
  | nil => exact hq
  | cons p l ih =>
    exact ih (fun r hr => hl r (List.mem_cons_of_mem p hr))
      (add_nonneg hq (hl p List.mem_cons_self))

theorem foldl_add_pos_iff (hl : ∀ u ∈ l, 0 ≤ u) :
    0 < (l.map (ofUnits (scale + 1))).foldl add 0 ↔ 0 < l.sum := by
  have hsum := List.sum_nonneg hl
  have hround := @quantize?_foldl_add _ scale _ hl
  have hfold : 0 ≤ (l.map (ofUnits (scale + 1))).foldl add 0 := by
    apply foldl_add_nonneg _ le_rfl
    intro p hp
    obtain ⟨u, hu, rfl⟩ := List.mem_map.mp hp
    exact ofUnits_nonneg.mpr (hl u hu)
  by_cases h : l.sum < 10 ^ 28
  · have hexact := @foldl_add_ofUnits _ (scale + 1) _ _ hl le_rfl (by omega)
    rw [ofUnits_zero, zero_add] at hexact
    rw [hexact, ofUnits_pos]
  · -- a sum that `quantize` refuses is not zero
    rw [if_neg h] at hround
    constructor
    · intro _
      omega
    · intro _
      refine lt_of_le_of_ne hfold ?_
      intro hzero
      rw [← hzero] at hround
      simp [quantize?, roundHalfEven] at hround

end sum

def roundSignificant (digits : ℕ) (q : ℚ) : ℚ :=
  let exponent : ℤ := Int.log 10 |q| + 1 - digits
  roundHalfEven (q / 10 ^ exponent) * 10 ^ exponent

theorem roundSignificant_exact {digits scale : ℕ} {a : ℤ} (h : a.natAbs < 10 ^ digits) :
    roundSignificant digits (ofUnits scale a) = ofUnits scale a := by
  by_cases hz : a = 0
  · simp [hz, roundSignificant, roundHalfEven]
  have hpos : 0 < |ofUnits scale a| := by
    rw [abs_pos, ← ofUnits_zero scale, Ne, ofUnits_inj]
    exact hz
  have hlt : |ofUnits scale a| < (10 : ℚ) ^ ((digits : ℤ) - scale) := by
    have ha : |(a : ℚ)| < 10 ^ digits := by
      rw [← Int.cast_abs, Int.abs_eq_natAbs]
      exact_mod_cast h
    rw [ofUnits, abs_div, abs_of_pos (pow_ten_pos scale), zpow_sub₀ (by norm_num),
      zpow_natCast, zpow_natCast]
    exact (div_lt_div_iff_of_pos_right (pow_ten_pos scale)).mpr ha
  have hlog : Int.log 10 |ofUnits scale a| < (digits : ℤ) - scale :=
    (Int.lt_zpow_iff_log_lt (by norm_num) hpos).mp (by exact_mod_cast hlt)
  -- the quotient by the quantum is a whole number, so rounding leaves it alone
  set e : ℤ := Int.log 10 |ofUnits scale a| + 1 - digits with he
  obtain ⟨k, hk⟩ : ∃ k : ℕ, -e = scale + k := ⟨(-e - scale).toNat, by omega⟩
  have hq : ofUnits scale a / 10 ^ e = ((a * 10 ^ k : ℤ) : ℚ) := by
    have hinv : ofUnits scale a / 10 ^ e = ofUnits scale a * 10 ^ (-e) := by
      rw [zpow_neg, div_eq_mul_inv]
    rw [hinv, hk, zpow_add₀ (by norm_num), zpow_natCast, zpow_natCast, ← mul_assoc,
      ofUnits_mul_pow]
    push_cast
    ring
  have hr : roundSignificant digits (ofUnits scale a) =
      roundHalfEven (ofUnits scale a / 10 ^ e) * 10 ^ e := rfl
  rw [hr, hq, roundHalfEven_intCast, ← hq]
  exact div_mul_cancel₀ _ (zpow_ne_zero _ (by norm_num))

theorem roundSignificant_nonneg {digits : ℕ} {q : ℚ} (h : 0 ≤ q) :
    0 ≤ roundSignificant digits q := by
  refine mul_nonneg ?_ (zpow_nonneg (by norm_num) _)
  exact_mod_cast roundHalfEven_nonneg (div_nonneg h (zpow_nonneg (by norm_num) _))

/-- The exponent of the last digit that is kept. -/
def quantum (digits : ℕ) (q : ℚ) : ℤ := Int.log 10 |q| + 1 - digits

theorem roundSignificant_eq (digits : ℕ) (q : ℚ) : roundSignificant digits q =
    roundHalfEven (q / 10 ^ quantum digits q) * 10 ^ quantum digits q := rfl

theorem roundSignificant_le {digits : ℕ} {q : ℚ} {n : ℤ} (h : q ≤ n * 10 ^ quantum digits q) :
    roundSignificant digits q ≤ n * 10 ^ quantum digits q := by
  have hpos : (0 : ℚ) < 10 ^ quantum digits q := zpow_pos (by norm_num) _
  have hround := roundHalfEven_mono ((div_le_iff₀ hpos).mpr h)
  rw [roundHalfEven_intCast] at hround
  rw [roundSignificant_eq]
  exact mul_le_mul_of_nonneg_right (by exact_mod_cast hround) hpos.le

theorem le_roundSignificant {digits : ℕ} {q : ℚ} {n : ℤ} (h : n * 10 ^ quantum digits q ≤ q) :
    n * 10 ^ quantum digits q ≤ roundSignificant digits q := by
  have hpos : (0 : ℚ) < 10 ^ quantum digits q := zpow_pos (by norm_num) _
  have hround := roundHalfEven_mono ((le_div_iff₀ hpos).mpr h)
  rw [roundHalfEven_intCast] at hround
  rw [roundSignificant_eq]
  exact mul_le_mul_of_nonneg_right (by exact_mod_cast hround) hpos.le

theorem decade_eq {digits k : ℕ} (hk : k ≤ digits) (q : ℚ) :
    (10 : ℚ) ^ (Int.log 10 |q| + 1 - k) = ((10 ^ (digits - k) : ℤ) : ℚ) * 10 ^ quantum digits q := by
  push_cast
  rw [← zpow_natCast, ← zpow_add₀ (by norm_num)]
  congr 1
  unfold quantum
  omega

/-- A rounded value stays in the closed decade of the value. -/
theorem roundSignificant_decade {digits : ℕ} (hd : 0 < digits) {q : ℚ} (hq : 0 < q) :
    (10 : ℚ) ^ Int.log 10 |q| ≤ roundSignificant digits q ∧
      roundSignificant digits q ≤ 10 ^ (Int.log 10 |q| + 1) := by
  have habs := abs_of_pos hq
  have hlow := @decade_eq digits 1 hd q
  have hhigh := @decade_eq digits 0 (Nat.zero_le _) q
  simp only [Nat.cast_one, add_sub_cancel_right, Nat.cast_zero, sub_zero] at hlow hhigh
  constructor
  · have hle := Int.zpow_log_le_self (b := 10) (by norm_num) (abs_pos.mpr hq.ne')
    rw [Nat.cast_ofNat, hlow] at hle
    rw [hlow]
    rw [habs] at hle
    exact le_roundSignificant hle
  · have hlt := Int.lt_zpow_succ_log_self (b := 10) (by norm_num) |q|
    rw [Nat.cast_ofNat, hhigh] at hlt
    rw [hhigh]
    rw [habs] at hlt
    exact roundSignificant_le hlt.le

theorem roundSignificant_neg (digits : ℕ) (q : ℚ) :
    roundSignificant digits (-q) = -roundSignificant digits q := by
  rw [roundSignificant_eq, roundSignificant_eq]
  unfold quantum
  rw [abs_neg, neg_div, roundHalfEven_neg, Int.cast_neg, neg_mul]

theorem roundSignificant_mono_of_pos {digits : ℕ} (hd : 0 < digits) {p q : ℚ} (hp : 0 < p)
    (h : p ≤ q) : roundSignificant digits p ≤ roundSignificant digits q := by
  have hlog : Int.log 10 |p| ≤ Int.log 10 |q| := by
    apply Int.log_mono_right (abs_pos.mpr hp.ne')
    rwa [abs_of_pos hp, abs_of_pos (hp.trans_le h)]
  rcases hlog.eq_or_lt with heq | hlt
  · have hquantum : quantum digits p = quantum digits q := by rw [quantum, heq, quantum]
    have hpos : (0 : ℚ) < 10 ^ quantum digits q := zpow_pos (by norm_num) _
    rw [roundSignificant_eq, roundSignificant_eq, hquantum]
    refine mul_le_mul_of_nonneg_right ?_ hpos.le
    exact_mod_cast roundHalfEven_mono (div_le_div_of_nonneg_right h hpos.le)
  · calc roundSignificant digits p
        ≤ 10 ^ (Int.log 10 |p| + 1) := (roundSignificant_decade hd hp).2
      _ ≤ 10 ^ Int.log 10 |q| := zpow_le_zpow_right₀ (by norm_num) (by omega)
      _ ≤ roundSignificant digits q := (roundSignificant_decade hd (hp.trans_le h)).1

theorem roundSignificant_mono {digits : ℕ} (hd : 0 < digits) {p q : ℚ} (h : p ≤ q) :
    roundSignificant digits p ≤ roundSignificant digits q := by
  rcases lt_or_ge 0 p with hp | hp
  · exact roundSignificant_mono_of_pos hd hp h
  · rcases lt_or_ge q 0 with hq | hq
    · have hneg := roundSignificant_mono_of_pos hd (neg_pos.mpr hq) (neg_le_neg h)
      rw [roundSignificant_neg, roundSignificant_neg] at hneg
      exact neg_le_neg_iff.mp hneg
    · have hnonneg : 0 ≤ roundSignificant digits (-p) := roundSignificant_nonneg (neg_nonneg.mpr hp)
      rw [roundSignificant_neg] at hnonneg
      exact (neg_nonneg.mp hnonneg).trans (roundSignificant_nonneg hq)

/-- The host language's default context: twenty-eight significant digits. -/
abbrev Context.default : Context where
  round := roundSignificant 28
  round_exact _ _ h := roundSignificant_exact h
  round_mono h := roundSignificant_mono (by norm_num) h

/-- Arithmetic that never rounds. -/
abbrev Context.exact : Context where
  round q := q
  round_exact _ _ _ := rfl
  round_mono h := h

/-! Columns. -/

structure Numeric (precision scale : ℕ) where
  units : ℤ
  bounded : units.natAbs < 10 ^ precision
deriving DecidableEq

namespace Numeric
variable {precision scale : ℕ}

instance : Inhabited (Numeric precision scale) := ⟨⟨0, by simp⟩⟩

def val (n : Numeric precision scale) : ℚ := ofUnits scale n.units

/-- What the column holds after `q` is stored: `q` rounded to the scale, or an
overflow error. -/
def store? (precision scale : ℕ) (q : ℚ) : Option (Numeric precision scale) :=
  let units := roundHalfAway (q * 10 ^ scale)
  if h : units.natAbs < 10 ^ precision then some ⟨units, h⟩ else none

theorem units_of_store {q : ℚ} {n : Numeric precision scale}
    (h : store? precision scale q = some n) : n.units = roundHalfAway (q * 10 ^ scale) := by
  simp only [store?] at h
  split at h
  · exact (congrArg units (Option.some.inj h)).symm
  · cases h

theorem units_of_store_ofUnits {a : ℤ} {n : Numeric precision scale}
    (h : store? precision scale (ofUnits scale a) = some n) : n.units = a := by
  rw [units_of_store h, ofUnits_mul_pow, roundHalfAway_intCast]

@[simp] theorem store?_val (n : Numeric precision scale) :
    store? precision scale n.val = some n := by
  simp [store?, val, ofUnits_mul_pow, n.bounded]

/-- The column after an object sets it to `q`: nothing is sent when `q` is the value
that the object was loaded with. -/
def assign? (q : ℚ) (loaded stored : Numeric precision scale) : Option (Numeric precision scale) :=
  if q = loaded.val then some stored else store? precision scale q

@[simp] theorem assign?_self (q : ℚ) (n : Numeric precision scale) :
    assign? q n n = store? precision scale q := by
  unfold assign?
  split
  · rename_i hq
    rw [hq, store?_val]
  · rfl

theorem val_of_store_ofUnits {a : ℤ} {n : Numeric precision scale}
    (h : store? precision scale (ofUnits scale a) = some n) : n.val = ofUnits scale a := by
  rw [val, units_of_store_ofUnits h]

theorem units_nonneg_of_store {q : ℚ} {n : Numeric precision scale} (hq : 0 ≤ q)
    (h : store? precision scale q = some n) : 0 ≤ n.units := by
  rw [units_of_store h]
  exact roundHalfAway_nonneg (mul_nonneg hq (pow_ten_pos scale).le)

/-- The non-negative numbers that a column keeps as positive ones: those that do not round to zero
and do not overflow. -/
theorem exists_store_pos_iff {q : ℚ} (hq : 0 ≤ q) :
    (∃ n : Numeric precision scale, store? precision scale q = some n ∧ 0 < n.units) ↔
      1 / 2 ≤ q * 10 ^ scale ∧ q * 10 ^ scale + 1 / 2 < 10 ^ precision := by
  have hscaled : 0 ≤ q * 10 ^ scale := mul_nonneg hq (pow_ten_pos scale).le
  have hround : roundHalfAway (q * 10 ^ scale) = ⌊q * 10 ^ scale + 1 / 2⌋ := by
    rw [roundHalfAway_of_nonneg hscaled, round_eq]
  have hpos : 0 < ⌊q * 10 ^ scale + 1 / 2⌋ ↔ 1 / 2 ≤ q * 10 ^ scale := by
    rw [Int.floor_pos]
    constructor <;> intro h <;> linarith
  have hfits : ⌊q * 10 ^ scale + 1 / 2⌋ < 10 ^ precision ↔ q * 10 ^ scale + 1 / 2 < 10 ^ precision := by
    rw [Int.floor_lt]
    push_cast
    rfl
  rw [← hpos, ← hfits, ← hround]
  have hnat : ∀ z : ℤ, 0 < z → (z.natAbs < 10 ^ precision ↔ z < 10 ^ precision) := by
    intro z hz
    rw [← Int.ofNat_lt, Int.natCast_natAbs, abs_of_pos hz]
    push_cast
    rfl
  constructor
  · rintro ⟨n, hstore, hn⟩
    rw [← units_of_store hstore]
    exact ⟨hn, (hnat _ hn).mp n.bounded⟩
  · rintro ⟨hn, hlt⟩
    have hbounded := (hnat _ hn).mpr hlt
    exact ⟨⟨_, hbounded⟩, dif_pos hbounded, hn⟩

theorem units_le_of_store {p : ℕ} {q : ℚ} {n : Numeric precision scale} {m : Numeric p scale}
    (hq : q ≤ m.val) (h : store? precision scale q = some n) : n.units ≤ m.units := by
  rw [units_of_store h]
  calc roundHalfAway (q * 10 ^ scale)
      ≤ roundHalfAway (m.val * 10 ^ scale) :=
        roundHalfAway_mono (mul_le_mul_of_nonneg_right hq (pow_ten_pos scale).le)
    _ = m.units := by rw [val, ofUnits_mul_pow, roundHalfAway_intCast]

@[ext] theorem ext_units {n m : Numeric precision scale} (h : n.units = m.units) : n = m := by
  cases n
  cases m
  simp only at h
  subst h
  rfl

@[simp] theorem val_inj {n m : Numeric precision scale} : n.val = m.val ↔ n = m := by
  constructor
  · intro h
    exact ext_units (ofUnits_inj.mp h)
  · rintro rfl
    rfl

end Numeric

end Decimal
