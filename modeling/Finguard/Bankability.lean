import Finguard.Lib.LogSpace
import Finguard.Lib.Scan
import Finguard.PythonValues
import Mathlib.Algebra.Order.Floor.Ring
import Mathlib.Data.Rat.Cast.Order

/-! The bankability score: four sub-scores of a company's revenue and expenses, weighed by the
tuning. -/

namespace Finguard

structure BankabilityTuning where
  trendMax : ℤ := 30
  ratioMax : ℤ := 30
  consistencyMax : ℤ := 20
  solvencyMax : ℤ := 20
  ratioBands : List (ℚ × ℤ) := [(0.50, 30), (0.65, 24), (0.80, 16), (0.95, 8), (1.00, 3)]
  tierLowMin : ℤ := 75
  tierMediumMin : ℤ := 45

inductive RiskTier where
  | low
  | medium
  | high
deriving DecidableEq

structure SubScores where
  trendScore : ℤ
  ratioScore : ℤ
  consistencyScore : ℤ
  runwayScore : ℤ

structure BankabilityScore where
  total : ℤ
  tier : RiskTier
  subScores : SubScores

namespace Bankability

section Score
variable {K : Type} [Field K] [LinearOrder K] [IsStrictOrderedRing K] [FloorRing K]
  [RealFunctions K]

/-- `int` of a float drops what is behind the point. -/
def pyInt (x : K) : ℤ := if 0 ≤ x then ⌊x⌋ else ⌈x⌉

def safeArr (l : List K) : List K := if l = [] then [0] else l

def mean (l : List K) : K := l.sum / l.length

def std (l : List K) : K := RealFunctions.sqrt (mean (l.map fun x => (x - mean l) ^ 2))

/-- The difference of two arrays. An array of one entry is stretched to the other's length. -/
def arraySub (xs ys : List K) : Except PyException (List K) :=
  if xs.length = ys.length then .ok (xs.zipWith (· - ·) ys)
  else match xs, ys with
    | [x], ys => .ok (ys.map (x - ·))
    | xs, [y] => .ok (xs.map (· - y))
    | _, _ => .error .valueError

local instance sixty_atLeastTwo : Nat.AtLeastTwo 60 := ⟨by norm_num⟩

def trendScore (bt : BankabilityTuning) (rev : List K) : ℤ :=
  match rev.reverse with
  | last :: _ :: third :: _ =>
    let pctChange := (last - third) / max third 1
    pyInt (min (bt.trendMax : K) (max 0 (pctChange * 60)))
  | _ => 10

/-- The points of the first band whose bound the ratio is below. -/
def bandPoints (bands : List (ℚ × ℤ)) (ratio : K) : ℤ :=
  match bands.find? fun band => ratio < band.1 with
  | some band => band.2
  | none => 0

def ratioScore (bt : BankabilityTuning) (rev opx : List K) : ℤ :=
  let meanRev := if mean rev = 0 then 1 else mean rev
  bandPoints bt.ratioBands (mean opx / meanRev)

def consistencyScore (bt : BankabilityTuning) (net : List K) : ℤ :=
  if 1 < net.length then
    let cov := std net / max |mean net| 1
    max 0 (pyInt (bt.consistencyMax - cov * 12))
  else 8

def runwayScore (bt : BankabilityTuning) (fcRevenue fcOpex : List K) : ℤ :=
  if fcRevenue ≠ [] ∧ fcOpex ≠ [] then
    let quarters := min fcRevenue.length fcOpex.length
    let solvent := (fcRevenue.zip fcOpex).countP fun q => q.2 ≤ q.1
    pyInt ((solvent / max quarters 1 : K) * bt.solvencyMax)
  else 5

def computeBankabilityScore (bt : BankabilityTuning) (histRevenue histOpex fcRevenue fcOpex : List K) :
    Except PyException BankabilityScore := do
  let rev := safeArr histRevenue
  let opx := safeArr histOpex
  let net ← arraySub rev opx
  let subScores : SubScores :=
    ⟨trendScore bt rev, ratioScore bt rev opx, consistencyScore bt net,
      runwayScore bt fcRevenue fcOpex⟩
  let maxTotal := bt.trendMax + bt.ratioMax + bt.consistencyMax + bt.solvencyMax
  let sum := subScores.trendScore + subScores.ratioScore + subScores.consistencyScore +
    subScores.runwayScore
  let total := min maxTotal (max 0 sum)
  let tier : RiskTier := if bt.tierLowMin ≤ total then .low
    else if bt.tierMediumMin ≤ total then .medium else .high
  .ok ⟨total, tier, subScores⟩

structure WithinMaxima (bt : BankabilityTuning) (s : SubScores) : Prop where
  trend : s.trendScore ≤ bt.trendMax
  ratio : s.ratioScore ≤ bt.ratioMax
  consistency : s.consistencyScore ≤ bt.consistencyMax
  runway : s.runwayScore ≤ bt.solvencyMax

/-- What the output schema asks of a score, for the revenue and expenses of the same months. -/
def ScoresInRange (K : Type) [Field K] [LinearOrder K] [FloorRing K] [RealFunctions K]
    (bt : BankabilityTuning) : Prop :=
  ∀ histRevenue histOpex fcRevenue fcOpex : List K, histRevenue.length = histOpex.length →
    ∃ score, computeBankabilityScore bt histRevenue histOpex fcRevenue fcOpex = .ok score ∧
      WithinMaxima bt score.subScores ∧ 0 ≤ score.total ∧ score.total ≤ 100

/-- The fallback scores and the points of the bands keep to the maxima, and no sum of sub-scores
is above a hundred. -/
structure Proportioned (bt : BankabilityTuning) : Prop where
  trend : 10 ≤ bt.trendMax
  consistency : 8 ≤ bt.consistencyMax
  runway : 5 ≤ bt.solvencyMax
  points : ∀ band ∈ bt.ratioBands, band.2 ≤ bt.ratioMax
  total : ∀ points ∈ 0 :: bt.ratioBands.map Prod.snd,
    bt.trendMax + points + bt.consistencyMax + bt.solvencyMax ≤ 100

/-- What the validator makes sure of. -/
structure Ordered (bt : BankabilityTuning) : Prop where
  trend : 0 ≤ bt.trendMax
  ratio : 0 ≤ bt.ratioMax
  consistency : 0 ≤ bt.consistencyMax
  solvency : 0 ≤ bt.solvencyMax
  ascending : bt.ratioBands.Pairwise fun b c => b.1 < c.1

end Score

variable {bt : BankabilityTuning}

section Arrays
variable {K : Type} [Field K]

theorem arraySub_eq {xs ys : List K} (h : xs.length = ys.length) :
    arraySub xs ys = .ok (xs.zipWith (· - ·) ys) := if_pos h

theorem length_safeArr {xs ys : List K} (h : xs.length = ys.length) :
    (safeArr xs).length = (safeArr ys).length := by
  cases xs with
  | nil =>
    have hys : ys = [] := List.eq_nil_of_length_eq_zero h.symm
    rw [hys]
  | cons x xs =>
    cases ys with
    | nil => simp at h
    | cons y ys => simpa [safeArr] using h

/-- Expenses that stay behind the revenue by the same amount every month. -/
def trailing (rev : List K) (gap : K) : List K := rev.map (· - gap)

theorem zipWith_trailing (rev : List K) (gap : K) :
    rev.zipWith (· - ·) (trailing rev gap) = List.replicate rev.length gap := by
  induction rev with
  | nil => rfl
  | cons x rev ih =>
    have hrest : List.zipWith (· - ·) rev (rev.map (· - gap)) = List.replicate rev.length gap := ih
    simp [trailing, hrest, List.replicate_succ]

theorem sum_trailing (rev : List K) (gap : K) :
    (trailing rev gap).sum = rev.sum - rev.length * gap := by
  induction rev with
  | nil => simp [trailing]
  | cons x rev ih =>
    have hcons : (trailing (x :: rev) gap).sum = x - gap + (trailing rev gap).sum := by
      simp [trailing]
    rw [hcons, ih, List.sum_cons, List.length_cons]
    push_cast
    ring

end Arrays

section Parts
variable {K : Type} [Field K] [LinearOrder K] [IsStrictOrderedRing K] [FloorRing K]

theorem pyInt_le {x : K} {m : ℤ} (hx : 0 ≤ x) (h : x ≤ m) : pyInt x ≤ m := by
  rw [pyInt, if_pos hx]
  have hfloor : (⌊x⌋ : K) ≤ m := le_trans (Int.floor_le x) h
  exact_mod_cast hfloor

theorem pyInt_le_of_nonneg {x : K} {m : ℤ} (hm : 0 ≤ m) (h : x ≤ m) : pyInt x ≤ m := by
  by_cases hx : 0 ≤ x
  · exact pyInt_le hx h
  · have hceil : ⌈x⌉ ≤ 0 := Int.ceil_le.mpr (by exact_mod_cast (not_le.mp hx).le)
    rw [pyInt, if_neg hx]
    omega

theorem pyInt_intCast (n : ℤ) : pyInt (n : K) = n := by
  rw [pyInt]
  split <;> simp

theorem trendScore_le (htrend : 10 ≤ bt.trendMax) (rev : List K) :
    trendScore bt rev ≤ bt.trendMax := by
  have hmax : (0 : K) ≤ bt.trendMax := by exact_mod_cast (by omega : (0 : ℤ) ≤ bt.trendMax)
  unfold trendScore
  split
  · exact pyInt_le (le_min hmax (le_max_left _ _)) (min_le_left _ _)
  · exact htrend

omit [IsStrictOrderedRing K] [FloorRing K] in
theorem bandPoints_mem (bands : List (ℚ × ℤ)) (ratio : K) :
    bandPoints bands ratio ∈ 0 :: bands.map Prod.snd := by
  unfold bandPoints
  split
  · rename_i band hfind
    exact List.mem_cons_of_mem _ (List.mem_map_of_mem (List.mem_of_find?_eq_some hfind))
  · exact List.mem_cons_self

theorem runwayScore_le (hrunway : 5 ≤ bt.solvencyMax) (fcRevenue fcOpex : List K) :
    runwayScore bt fcRevenue fcOpex ≤ bt.solvencyMax := by
  have hmax : (0 : K) ≤ bt.solvencyMax := by exact_mod_cast (by omega : (0 : ℤ) ≤ bt.solvencyMax)
  unfold runwayScore
  split
  · have hcount : (fcRevenue.zip fcOpex).countP (fun q => decide (q.2 ≤ q.1)) ≤
        min fcRevenue.length fcOpex.length := by
      rw [← List.length_zip]
      exact List.countP_le_length
    have hquarters : 0 < max (min fcRevenue.length fcOpex.length) 1 := by omega
    have hshare : ((fcRevenue.zip fcOpex).countP (fun q => decide (q.2 ≤ q.1)) : K) /
        (max (min fcRevenue.length fcOpex.length) 1 : ℕ) ≤ 1 := by
      rw [div_le_one (by exact_mod_cast hquarters)]
      exact_mod_cast le_trans hcount (le_max_left _ _)
    exact pyInt_le_of_nonneg (by omega) (mul_le_of_le_one_left hmax hshare)
  · exact hrunway

omit [IsStrictOrderedRing K] in
theorem mean_replicate {n : ℕ} (hn : n ≠ 0) (x : K) : mean (List.replicate n x) = x := by
  have hcast : (n : K) ≠ 0 := by exact_mod_cast hn
  simp [mean, hcast]

omit [IsStrictOrderedRing K] in
theorem mean_trailing {rev : List K} (hrev : rev ≠ []) (gap : K) :
    mean (trailing rev gap) = mean rev - gap := by
  have hlen : (rev.length : K) ≠ 0 := by
    exact_mod_cast fun hzero => hrev (List.eq_nil_of_length_eq_zero hzero)
  rw [mean, mean, sum_trailing, trailing, List.length_map, sub_div, mul_div_cancel_left₀ _ hlen]

omit [IsStrictOrderedRing K] in
theorem ratioScore_trailing {rev : List K} (hrev : 0 < mean rev) (x : K) :
    ratioScore bt rev (trailing rev (mean rev * (1 - x))) = bandPoints bt.ratioBands x := by
  have hne : rev ≠ [] := by
    intro hnil
    simp [hnil, mean] at hrev
  have hratio : mean (trailing rev (mean rev * (1 - x))) / mean rev = x := by
    rw [mean_trailing hne, div_eq_iff hrev.ne']
    ring
  rw [ratioScore, if_neg hrev.ne', hratio]

/-- Revenue that grows as much as the trend score can reward. -/
def growth (K : Type) [Field K] (bt : BankabilityTuning) : List K := [1, 1, 1 + bt.trendMax]

theorem trendScore_growth (h : 0 ≤ bt.trendMax) :
    trendScore bt (growth K bt) = bt.trendMax := by
  have hmax : (0 : K) ≤ bt.trendMax := by exact_mod_cast h
  have hpct : ((1 + bt.trendMax : K) - 1) / max 1 1 * 60 = bt.trendMax * 60 := by simp
  have hmin : min (bt.trendMax : K) (max 0 (bt.trendMax * 60)) = bt.trendMax := by
    rw [max_eq_right (by positivity)]
    exact min_eq_left (by linarith)
  change pyInt (min (bt.trendMax : K) (max 0 (((1 + bt.trendMax : K) - 1) / max 1 1 * 60))) = _
  rw [hpct, hmin, pyInt_intCast]

theorem mean_growth_pos (h : 0 ≤ bt.trendMax) : 0 < mean (growth K bt) := by
  have hmax : (0 : K) ≤ bt.trendMax := by exact_mod_cast h
  simp only [mean, growth, List.sum_cons, List.sum_nil, List.length_cons, List.length_nil]
  positivity

theorem runwayScore_solvent : runwayScore bt [(1 : K)] [0] = bt.solvencyMax := by
  simp [runwayScore, pyInt_intCast]

theorem exists_at_least (l : List ℚ) : ∃ x, ∀ c ∈ l, c ≤ x := by
  induction l with
  | nil => exact ⟨0, by simp⟩
  | cons c l ih =>
    obtain ⟨x, hx⟩ := ih
    refine ⟨max c x, fun d hd => ?_⟩
    rcases List.mem_cons.mp hd with rfl | hd
    · exact le_max_left _ _
    · exact le_trans (hx d hd) (le_max_right _ _)

theorem exists_at_least_below {l : List ℚ} {u : ℚ} (h : ∀ c ∈ l, c < u) :
    ∃ x < u, ∀ c ∈ l, c ≤ x := by
  induction l with
  | nil => exact ⟨u - 1, by linarith, by simp⟩
  | cons c l ih =>
    obtain ⟨x, hlt, hx⟩ := ih fun d hd => h d (List.mem_cons_of_mem _ hd)
    refine ⟨max c x, max_lt (h c List.mem_cons_self) hlt, fun d hd => ?_⟩
    rcases List.mem_cons.mp hd with rfl | hd
    · exact le_max_left _ _
    · exact le_trans (hx d hd) (le_max_right _ _)

omit [FloorRing K] in
theorem exists_bandPoints {bands : List (ℚ × ℤ)} (h : bands.Pairwise fun b c => b.1 < c.1)
    {points : ℤ} (hpoints : points ∈ 0 :: bands.map Prod.snd) :
    ∃ ratio : K, bandPoints bands ratio = points := by
  rcases List.mem_cons.mp hpoints with rfl | hband
  · obtain ⟨x, hx⟩ := exists_at_least (bands.map Prod.fst)
    refine ⟨x, ?_⟩
    have hnone : bands.find? (fun band => decide ((x : K) < band.1)) = none := by
      refine List.find?_eq_none.mpr fun band hmem => ?_
      simpa using hx band.1 (List.mem_map_of_mem hmem)
    rw [bandPoints, hnone]
  · obtain ⟨band, hmem, rfl⟩ := List.mem_map.mp hband
    obtain ⟨before, after, rfl⟩ := List.append_of_mem hmem
    have hbefore : ∀ c ∈ before.map Prod.fst, c < band.1 := by
      intro c hc
      obtain ⟨b, hb, rfl⟩ := List.mem_map.mp hc
      exact (List.pairwise_append.mp h).2.2 b hb band List.mem_cons_self
    obtain ⟨x, hlt, hx⟩ := exists_at_least_below hbefore
    refine ⟨x, ?_⟩
    have hnone : before.find? (fun band => decide ((x : K) < band.1)) = none := by
      refine List.find?_eq_none.mpr fun b hb => ?_
      simpa using hx b.1 (List.mem_map_of_mem hb)
    have hcast : (x : K) < band.1 := by exact_mod_cast hlt
    rw [bandPoints, List.find?_append, hnone, List.find?_cons_of_pos (by simpa using hcast)]
    rfl

end Parts

section Range
variable {K : Type} [Field K] [LinearOrder K] [IsStrictOrderedRing K] [FloorRing K]
  [RealFunctions K]

omit [IsStrictOrderedRing K] [FloorRing K] in
theorem std_nonneg (l : List K) : 0 ≤ std l := RealFunctions.sqrt_nonneg _

theorem consistencyScore_le (hcons : 8 ≤ bt.consistencyMax) (net : List K) :
    consistencyScore bt net ≤ bt.consistencyMax := by
  unfold consistencyScore
  split
  · have hcov : 0 ≤ std net / max |mean net| 1 :=
      div_nonneg (std_nonneg net) (le_trans (abs_nonneg _) (le_max_left _ _))
    have hle : (bt.consistencyMax : K) - std net / max |mean net| 1 * 12 ≤ bt.consistencyMax := by
      linarith
    have hint := pyInt_le_of_nonneg (by omega : 0 ≤ bt.consistencyMax) hle
    exact max_le (by omega) hint
  · exact hcons

omit [IsStrictOrderedRing K] in
theorem std_replicate {n : ℕ} (hn : n ≠ 0) (x : K) : std (List.replicate n x) = 0 := by
  rw [std, mean_replicate hn, List.map_replicate, mean_replicate hn, sub_self, zero_pow (by simp),
    RealFunctions.sqrt_zero]

theorem consistencyScore_replicate {n : ℕ} (hn : 1 < n) (h : 0 ≤ bt.consistencyMax) (x : K) :
    consistencyScore bt (List.replicate n x) = bt.consistencyMax := by
  have hlen : 1 < (List.replicate n x).length := by simpa using hn
  have hstd : std (List.replicate n x) = 0 := std_replicate (by omega) x
  rw [consistencyScore, if_pos hlen]
  simp only [hstd, zero_div, zero_mul, sub_zero, pyInt_intCast, max_eq_right h]

theorem Proportioned.scores (h : Proportioned bt) (hordered : Ordered bt) :
    ScoresInRange K bt := by
  intro histRevenue histOpex fcRevenue fcOpex hlen
  let rev := safeArr histRevenue
  let opx := safeArr histOpex
  let net := rev.zipWith (· - ·) opx
  have hnet : arraySub rev opx = .ok net := arraySub_eq (length_safeArr hlen)
  have hpoints : ratioScore bt rev opx ∈ 0 :: bt.ratioBands.map Prod.snd := bandPoints_mem _ _
  have htrend : trendScore bt rev ≤ bt.trendMax := trendScore_le h.trend rev
  have hcons : consistencyScore bt net ≤ bt.consistencyMax := consistencyScore_le h.consistency net
  have hrunway : runwayScore bt fcRevenue fcOpex ≤ bt.solvencyMax :=
    runwayScore_le h.runway fcRevenue fcOpex
  have hratio : ratioScore bt rev opx ≤ bt.ratioMax := by
    rcases List.mem_cons.mp hpoints with hzero | hband
    · rw [hzero]
      exact hordered.ratio
    · obtain ⟨band, hmem, heq⟩ := List.mem_map.mp hband
      rw [← heq]
      exact h.points band hmem
  have htotal := h.total _ hpoints
  refine ⟨_, Scan.bind_eq_ok.mpr ⟨net, hnet, rfl⟩, ⟨htrend, hratio, hcons, hrunway⟩, ?_, ?_⟩
  · have htrend0 := hordered.trend
    have hratio0 := hordered.ratio
    have hcons0 := hordered.consistency
    have hsolv0 := hordered.solvency
    exact le_min (by omega) (le_max_left _ _)
  · refine le_trans (min_le_right _ _) (max_le (by omega) ?_)
    change trendScore bt rev + ratioScore bt rev opx + consistencyScore bt net +
      runwayScore bt fcRevenue fcOpex ≤ 100
    omega

theorem scores_growth (hordered : Ordered bt) (x : K) :
    ∃ opex : List K, (growth K bt).length = opex.length ∧ ∃ score,
      computeBankabilityScore bt (growth K bt) opex [1] [0] = .ok score ∧
      score.subScores =
        ⟨bt.trendMax, bandPoints bt.ratioBands x, bt.consistencyMax, bt.solvencyMax⟩ ∧
      score.total = min (bt.trendMax + bt.ratioMax + bt.consistencyMax + bt.solvencyMax)
        (max 0 (bt.trendMax + bandPoints bt.ratioBands x + bt.consistencyMax + bt.solvencyMax)) := by
  let rev : List K := growth K bt
  let gap := mean rev * (1 - x)
  have hlen : rev.length = (trailing rev gap).length := (List.length_map _).symm
  have hnet : arraySub (safeArr rev) (safeArr (trailing rev gap)) = .ok (List.replicate 3 gap) :=
    (arraySub_eq hlen).trans (congrArg _ (zipWith_trailing rev gap))
  have hsub : (⟨trendScore bt rev, ratioScore bt rev (trailing rev gap),
      consistencyScore bt (List.replicate 3 gap), runwayScore bt [(1 : K)] [0]⟩ : SubScores) =
      ⟨bt.trendMax, bandPoints bt.ratioBands x, bt.consistencyMax, bt.solvencyMax⟩ := by
    rw [trendScore_growth hordered.trend, ratioScore_trailing (mean_growth_pos hordered.trend),
      consistencyScore_replicate (by simp) hordered.consistency, runwayScore_solvent]
  refine ⟨trailing rev gap, hlen, _, Scan.bind_eq_ok.mpr ⟨_, hnet, rfl⟩, hsub, ?_⟩
  have htotal := congrArg (fun s : SubScores =>
    min (bt.trendMax + bt.ratioMax + bt.consistencyMax + bt.solvencyMax)
      (max 0 (s.trendScore + s.ratioScore + s.consistencyScore + s.runwayScore))) hsub
  exact htotal

theorem proportioned_of_scores (hordered : Ordered bt) (h : ScoresInRange K bt) :
    Proportioned bt := by
  obtain ⟨score, hscore, hwithin, -, -⟩ := h [] [] [] [] rfl
  have hsub : score.subScores.trendScore = 10 ∧ score.subScores.consistencyScore = 8 ∧
      score.subScores.runwayScore = 5 := by
    have hok : computeBankabilityScore bt ([] : List K) [] [] [] = .ok score := hscore
    obtain ⟨net, hnet, hdone⟩ := Scan.bind_eq_ok.mp hok
    have hlen : net.length = 1 := by
      rw [← Except.ok.inj hnet]
      simp [safeArr]
    rw [← Except.ok.inj hdone]
    simp [trendScore, consistencyScore, runwayScore, safeArr, hlen]
  obtain ⟨htrend, hcons, hrunway⟩ := hsub
  have hreached : ∀ points ∈ 0 :: bt.ratioBands.map Prod.snd, points ≤ bt.ratioMax ∧
      bt.trendMax + points + bt.consistencyMax + bt.solvencyMax ≤ 100 := by
    intro points hpoints
    obtain ⟨x, hx⟩ := exists_bandPoints (K := K) hordered.ascending hpoints
    obtain ⟨opex, hlen, s, hs, hsub, htotal⟩ := scores_growth hordered x
    obtain ⟨s', hs', hin, -, hle⟩ := h _ opex [1] [0] hlen
    have hss : s' = s := Except.ok.inj (hs'.symm.trans hs)
    have hratio := hin.ratio
    rw [hss, hsub, hx] at hratio
    rw [hss, htotal, hx] at hle
    have hpos : 0 ≤ max 0 (bt.trendMax + points + bt.consistencyMax + bt.solvencyMax) :=
      le_max_left _ _
    have hpoints_le : points ≤ bt.ratioMax := hratio
    refine ⟨hpoints_le, ?_⟩
    rcases min_le_iff.mp hle with hcap | hsum
    · exact le_trans (by omega) hcap
    · exact (max_le_iff.mp hsum).2
  have hlow := hwithin.trend
  have hmid := hwithin.consistency
  have hend := hwithin.runway
  rw [htrend] at hlow
  rw [hcons] at hmid
  rw [hrunway] at hend
  exact ⟨hlow, hmid, hend, fun band hmem =>
      (hreached _ (List.mem_cons_of_mem _ (List.mem_map_of_mem hmem))).1,
    fun points hpoints => (hreached points hpoints).2⟩

theorem scoresInRange_iff (hordered : Ordered bt) : ScoresInRange K bt ↔ Proportioned bt :=
  ⟨proportioned_of_scores hordered, fun h => h.scores hordered⟩

end Range

end Bankability

end Finguard
