import Finguard.BatchClassification
import Finguard.Lib.Groups
import Finguard.Model

/-! The financial reports, built from what three queries make of the ledger and the invoices. -/

namespace Finguard.Reports
open Decimal Groups

inductive ReportType where
  | incomeStatement
  | cashFlow
  | taxLiability
deriving DecidableEq

structure ReportMetric where
  label : String
  value : ℚ
  unit : String := "KES"
  isEstimate : Bool := false

structure ReportLine where
  label : String
  amount : ℚ

structure ReportSeriesPoint where
  period : String
  values : List (String × ℚ)

structure FinancialReport where
  reportType : ReportType
  title : String
  currency : String := "KES"
  periodDays : ℕ
  generatedAt : DateTime
  hasData : Bool
  summary : List ReportMetric
  lines : List ReportLine
  series : List ReportSeriesPoint

structure MonthlyRow where
  month : String
  revenue : ℚ
  opex : ℚ

structure Aggregates where
  monthly : List MonthlyRow
  expenseCategories : List (String × ℚ)
  outputVat : ℚ

/-! The queries. Each sees the database of its own moment, and all have one start of the window. -/

/-- `TO_CHAR(DATE_TRUNC('month', created_at), 'YYYY-MM')` in the time zone of the session. -/
class Calendar where
  month : DateTime → String

def isCredit (entry : LedgerEntry) : Bool :=
  match entry.transactionType with
  | .credit => true
  | .debit => false

def inWindow (cutoff : DateTime) (ledger : List LedgerEntry) : List LedgerEntry :=
  ledger.filter fun entry => cutoff ≤ entry.createdAt

def creditUnits (entry : LedgerEntry) : ℤ := if isCredit entry then entry.amount.units else 0

def debitUnits (entry : LedgerEntry) : ℤ := if isCredit entry then 0 else entry.amount.units

def credits (entries : List LedgerEntry) : ℤ := (entries.map creditUnits).sum

def debits (entries : List LedgerEntry) : ℤ := (entries.map debitUnits).sum

def monthOf [Calendar] (entry : LedgerEntry) : String := Calendar.month entry.createdAt

def monthlyRows [Calendar] (entries : List LedgerEntry) : List MonthlyRow :=
  ((entries.map monthOf).dedup.insertionSort (· ≤ ·)).map fun month =>
    let rows := entries.filter (monthOf · == month)
    { month
      revenue := ofUnits 2 (credits rows)
      opex := ofUnits 2 (debits rows) }

def categoryOf (entry : LedgerEntry) : String := entry.category.getD "Uncategorised"

def categoryRows (entries : List LedgerEntry) : List (String × ℚ) :=
  let spent := entries.filter fun entry => !isCredit entry
  ((spent.map categoryOf).dedup.map fun category =>
    (category, ofUnits 2 (debits (spent.filter (categoryOf · == category))))).insertionSort
      fun a b => b.2 ≤ a.2

def fetchReportAggregates [Calendar] (cutoff : DateTime) (ledger later : List LedgerEntry)
    (invoices : List Invoice) : Aggregates where
  monthly := monthlyRows (inWindow cutoff ledger)
  expenseCategories := categoryRows (inWindow cutoff later)
  outputVat := ofUnits 2 ((invoices.filter (cutoff ≤ ·.createdAt)).map (·.tax.units)).sum

/-! The builders. A figure with too many digits to be quantized fails the report. -/

def corporateTaxRate : ℚ := 0.30

def money (value : ℚ) : Option ℚ := quantize? 2 value

/-- `cat or "Uncategorised"` -/
def lineOf (row : String × ℚ) : Option ReportLine := do
  return { label := if row.1 = "" then "Uncategorised" else row.1, amount := ← money row.2 }

section
variable [Context]

def pct (numerator denominator : ℚ) : Option ℚ :=
  if denominator = 0 then some 0 else quantize? 2 (mul (div numerator denominator) 100)

def total (values : List ℚ) : ℚ := values.foldl add 0

def seriesOf (monthly : List MonthlyRow) (revKey opexKey : String) :
    Option (List ReportSeriesPoint) :=
  monthly.mapM fun row => do
    return ⟨row.month, [(revKey, ← money row.revenue), (opexKey, ← money row.opex)]⟩

def buildIncomeStatement (monthly : List MonthlyRow) (expenseCategories : List (String × ℚ))
    (periodDays : ℕ) (now : DateTime) : Option FinancialReport := do
  let revenue := total (monthly.map (·.revenue))
  let opex := total (monthly.map (·.opex))
  let net := sub revenue opex
  let summary := [
    { label := "Revenue", value := ← money revenue },
    { label := "Operating Expenses", value := ← money opex },
    { label := "Net Profit", value := ← money net },
    { label := "Net Margin", value := ← pct net revenue, unit := "%" }]
  let lines ← expenseCategories.mapM lineOf
  return {
    reportType := .incomeStatement
    title := "Income Statement"
    periodDays
    generatedAt := now
    hasData := revenue != 0 || opex != 0
    summary
    lines
    series := ← seriesOf monthly "revenue" "expenses" }

def cashPoint (row : MonthlyRow) : Option ReportSeriesPoint := do
  return ⟨row.month, [("inflows", ← money row.revenue), ("outflows", ← money row.opex),
    ("net", ← money (sub row.revenue row.opex))]⟩

def buildCashFlow (monthly : List MonthlyRow) (periodDays : ℕ) (now : DateTime) :
    Option FinancialReport := do
  let inflow := total (monthly.map (·.revenue))
  let outflow := total (monthly.map (·.opex))
  let net := sub inflow outflow
  let months := if monthly.length = 0 then 1 else monthly.length
  let summary := [
    { label := "Total Inflows", value := ← money inflow },
    { label := "Total Outflows", value := ← money outflow },
    { label := "Net Cash Flow", value := ← money net },
    { label := "Avg Monthly Burn", value := ← money (div outflow months) }]
  let series ← monthly.mapM cashPoint
  return {
    reportType := .cashFlow
    title := "Cash Flow"
    periodDays
    generatedAt := now
    hasData := inflow != 0 || outflow != 0
    summary
    lines := []
    series }

def buildTaxLiability (monthly : List MonthlyRow) (outputVat : ℚ) (periodDays : ℕ)
    (now : DateTime) : Option FinancialReport := do
  let revenue := total (monthly.map (·.revenue))
  let opex := total (monthly.map (·.opex))
  let taxableIncome := sub revenue opex
  let estIncomeTax ← money (mul (max taxableIncome 0) corporateTaxRate)
  let summary := [
    { label := "VAT Payable (output)", value := ← money outputVat },
    { label := "Taxable Income", value := ← money taxableIncome, isEstimate := true },
    { label := "Estimated Income Tax", value := estIncomeTax, isEstimate := true },
    { label := "Corporate Rate", value := ← quantize? 2 (mul corporateTaxRate 100), unit := "%",
      isEstimate := true }]
  let lines := [
    { label := "Output VAT (on sales)", amount := ← money outputVat },
    { label := "Estimated Income Tax", amount := estIncomeTax }]
  return {
    reportType := .taxLiability
    title := "Tax Liability"
    periodDays
    generatedAt := now
    hasData := outputVat != 0 || revenue != 0
    summary
    lines
    series := ← seriesOf monthly "revenue" "expenses" }

def generateReport (a : Aggregates) (periodDays : ℕ) (now : DateTime) :
    ReportType → Option FinancialReport
  | .incomeStatement => buildIncomeStatement a.monthly a.expenseCategories periodDays now
  | .cashFlow => buildCashFlow a.monthly periodDays now
  | .taxLiability => buildTaxLiability a.monthly a.outputVat periodDays now

end

structure ReportCatalogItem where
  reportType : ReportType
  title : String
  description : String
  status : String

def getReportCatalog (a : Aggregates) : List ReportCatalogItem :=
  let hasLedger := a.monthly.any fun row => row.revenue != 0 || row.opex != 0
  let hasTax := decide (0 < a.outputVat)
  let status := fun ready => if ready then "ready" else "no_data"
  [⟨.incomeStatement, "Income Statement", "Revenue, operating expenses and net profit (P&L).",
      status hasLedger⟩,
    ⟨.cashFlow, "Cash Flow", "Inflows, outflows and monthly burn over the period.",
      status hasLedger⟩,
    ⟨.taxLiability, "Tax Liability", "Output VAT and an estimated corporate income-tax charge.",
      status (hasLedger || hasTax)⟩]

/-! The figures. -/

theorem ofUnits_eq_zero {a : ℤ} : ofUnits 2 a = 0 ↔ a = 0 := by
  rw [← ofUnits_zero 2, ofUnits_inj]

theorem mapM_eq_some {α β : Type} {f : α → Option β} {g : α → β} {l : List α}
    (h : ∀ a ∈ l, f a = some (g a)) : l.mapM f = some (l.map g) := by
  induction l with
  | nil => rfl
  | cons a l ih =>
    have hrest := ih fun b hb => h b (List.mem_cons_of_mem a hb)
    rw [List.mapM_cons, h a List.mem_cons_self, hrest]
    rfl

theorem money_ofUnits {a : ℤ} (h : a.natAbs < 10 ^ 28) : money (ofUnits 2 a) = some (ofUnits 2 a) :=
  quantize?_ofUnits h

theorem money_isSome {x : ℚ} {n : ℕ} (h : |x| ≤ n) (hn : n * 100 < 10 ^ 28) :
    ∃ r, money x = some r := by
  obtain ⟨hlow, hhigh⟩ := abs_le.mp h
  have hlow' : -(n * 100 : ℤ) ≤ roundHalfEven (x * 10 ^ 2) := by
    rw [← roundHalfEven_intCast (-(n * 100))]
    refine roundHalfEven_mono ?_
    push_cast
    linarith
  have hhigh' : roundHalfEven (x * 10 ^ 2) ≤ (n * 100 : ℤ) := by
    rw [← roundHalfEven_intCast (n * 100)]
    refine roundHalfEven_mono ?_
    push_cast
    linarith
  refine ⟨_, if_pos ?_⟩
  omega

section
variable [Context] {x : ℚ}

theorem abs_round_le {n : ℕ} (h : |x| ≤ n) (hn : n < 10 ^ 28) : |Context.round x| ≤ n := by
  obtain ⟨hlow, hhigh⟩ := abs_le.mp h
  have hcast : ∀ k : ℤ, ofUnits 0 k = k := by simp [ofUnits]
  have hround := Context.round_mono hlow
  have hround' := Context.round_mono hhigh
  have hneg := Context.round_exact 0 (-n) (by omega)
  have hpos := Context.round_exact 0 n (by omega)
  rw [hcast] at hneg hpos
  push_cast at hneg hpos
  rw [hneg] at hround
  rw [hpos] at hround'
  exact abs_le.mpr ⟨hround, hround'⟩

theorem total_ofUnits {l : List ℤ} (hl : ∀ u ∈ l, 0 ≤ u) (hsum : l.sum < 10 ^ 28) :
    total (l.map (ofUnits 2)) = ofUnits 2 l.sum := by
  have h : (l.map (ofUnits 2)).foldl add (ofUnits 2 0) = ofUnits 2 (0 + l.sum) :=
    foldl_add_ofUnits hl le_rfl (by simpa using hsum)
  rw [total]
  simpa using h

/-- A margin is at most the net amount, counted in cents. -/
theorem pct_isSome {n d : ℤ} (hn : n.natAbs < 10 ^ 24) (hd : 0 ≤ d) :
    ∃ r, pct (ofUnits 2 n) (ofUnits 2 d) = some r := by
  by_cases hzero : d = 0
  · exact ⟨0, by rw [pct, if_pos (by simp [hzero])]⟩
  · have hpos : (1 : ℚ) ≤ d := by exact_mod_cast (by omega : 1 ≤ d)
    have hquotient : |ofUnits 2 n / ofUnits 2 d| ≤ n.natAbs := by
      have hdiv : ofUnits 2 n / ofUnits 2 d = n / d := by
        simp only [ofUnits]
        field_simp
      rw [hdiv, abs_div, abs_of_pos (lt_of_lt_of_le one_pos hpos), Nat.cast_natAbs, Int.cast_abs]
      exact div_le_self (abs_nonneg _) hpos
    have hdiv : |div (ofUnits 2 n) (ofUnits 2 d)| ≤ n.natAbs := abs_round_le hquotient (by omega)
    have hmul : |mul (div (ofUnits 2 n) (ofUnits 2 d)) 100| ≤ (n.natAbs * 100 : ℕ) := by
      refine abs_round_le ?_ (by omega)
      rw [abs_mul, abs_of_pos (by norm_num : (0 : ℚ) < 100), Nat.cast_mul]
      exact mul_le_mul_of_nonneg_right hdiv (by norm_num)
    obtain ⟨r, hr⟩ := money_isSome hmul (by omega)
    exact ⟨r, by rw [pct, if_neg (mt ofUnits_eq_zero.mp hzero)]; exact hr⟩

end

/-- The rows of the months in cents. -/
structure CentsRow where
  month : String
  revenue : ℤ
  opex : ℤ

def CentsRow.row (r : CentsRow) : MonthlyRow := ⟨r.month, ofUnits 2 r.revenue, ofUnits 2 r.opex⟩

def revenueUnits (rows : List CentsRow) : ℤ := (rows.map (·.revenue)).sum

def opexUnits (rows : List CentsRow) : ℤ := (rows.map (·.opex)).sum

/-- Rows that the reports can add up: no amount is negative, and they stay below `10 ^ 24` cents. -/
structure Addable (rows : List CentsRow) : Prop where
  revenue : ∀ r ∈ rows, 0 ≤ r.revenue
  opex : ∀ r ∈ rows, 0 ≤ r.opex
  small : revenueUnits rows + opexUnits rows < 10 ^ 24

def FinancialReport.value? (report : FinancialReport) (label : String) : Option ℚ :=
  (report.summary.find? (·.label = label)).map (·.value)

def FinancialReport.seriesTotal (report : FinancialReport) (key : String) : ℚ :=
  (report.series.map fun point => (point.values.lookup key).getD 0).sum

def FinancialReport.lineTotal (report : FinancialReport) : ℚ := (report.lines.map (·.amount)).sum

/-! What the reports show of credits and debits in cents. -/

structure IncomeShows (report : FinancialReport) (creditUnits debitUnits lineUnits : ℤ) : Prop where
  revenue : report.value? "Revenue" = some (ofUnits 2 creditUnits)
  opex : report.value? "Operating Expenses" = some (ofUnits 2 debitUnits)
  net : report.value? "Net Profit" = some (ofUnits 2 (creditUnits - debitUnits))
  revenueSeries : report.seriesTotal "revenue" = ofUnits 2 creditUnits
  opexSeries : report.seriesTotal "expenses" = ofUnits 2 debitUnits
  lines : report.lineTotal = ofUnits 2 lineUnits
  hasData : report.hasData = true ↔ creditUnits ≠ 0 ∨ debitUnits ≠ 0

structure CashShows (report : FinancialReport) (creditUnits debitUnits : ℤ) : Prop where
  inflow : report.value? "Total Inflows" = some (ofUnits 2 creditUnits)
  outflow : report.value? "Total Outflows" = some (ofUnits 2 debitUnits)
  net : report.value? "Net Cash Flow" = some (ofUnits 2 (creditUnits - debitUnits))
  inflowSeries : report.seriesTotal "inflows" = ofUnits 2 creditUnits
  outflowSeries : report.seriesTotal "outflows" = ofUnits 2 debitUnits
  netSeries : report.seriesTotal "net" = ofUnits 2 (creditUnits - debitUnits)
  hasData : report.hasData = true ↔ creditUnits ≠ 0 ∨ debitUnits ≠ 0

/-- A loss is not taxed. -/
def estimatedTax (net : ℤ) : ℤ := roundHalfEven (3 * (max net 0 : ℤ) / 10)

structure TaxShows (report : FinancialReport) (creditUnits debitUnits vatUnits : ℤ) : Prop where
  vat : report.value? "VAT Payable (output)" = some (ofUnits 2 vatUnits)
  income : report.value? "Taxable Income" = some (ofUnits 2 (creditUnits - debitUnits))
  estimate : report.value? "Estimated Income Tax" =
    some (ofUnits 2 (estimatedTax (creditUnits - debitUnits)))
  lines : report.lineTotal = ofUnits 2 (vatUnits + estimatedTax (creditUnits - debitUnits))
  hasData : report.hasData = true ↔ vatUnits ≠ 0 ∨ creditUnits ≠ 0

section
variable {rows : List CentsRow}

theorem sum_net : (rows.map fun r => r.revenue - r.opex).sum =
    revenueUnits rows - opexUnits rows := by
  unfold revenueUnits opexUnits
  induction rows with
  | nil => rfl
  | cons r rows ih =>
    simp only [List.map_cons, List.sum_cons, ih]
    ring

theorem Addable.nonneg (h : Addable rows) : 0 ≤ revenueUnits rows ∧
    0 ≤ opexUnits rows := by
  constructor
  · exact List.sum_nonneg (by simpa using h.revenue)
  · exact List.sum_nonneg (by simpa using h.opex)

theorem Addable.each (h : Addable rows) : ∀ r ∈ rows, 0 ≤ r.revenue ∧ 0 ≤ r.opex ∧
    r.revenue < 10 ^ 24 ∧ r.opex < 10 ^ 24 := by
  intro r hr
  obtain ⟨hrevenue, hopex⟩ := h.nonneg
  have hle : r.revenue ≤ revenueUnits rows :=
    List.single_le_sum (by simpa using h.revenue) _ (List.mem_map_of_mem hr)
  have hle' : r.opex ≤ opexUnits rows :=
    List.single_le_sum (by simpa using h.opex) _ (List.mem_map_of_mem hr)
  have hsmall := h.small
  refine ⟨h.revenue r hr, h.opex r hr, ?_, ?_⟩ <;> omega

variable [Context]

theorem Addable.totals (h : Addable rows) :
    total ((rows.map CentsRow.row).map (·.revenue)) = ofUnits 2 (revenueUnits rows) ∧
      total ((rows.map CentsRow.row).map (·.opex)) = ofUnits 2 (opexUnits rows) := by
  obtain ⟨hrevenue, hopex⟩ := h.nonneg
  have hsmall := h.small
  unfold revenueUnits opexUnits at *
  constructor
  · have hsum := total_ofUnits (l := rows.map (·.revenue)) (by simpa using h.revenue) (by omega)
    rw [← hsum, List.map_map, List.map_map]
    rfl
  · have hsum := total_ofUnits (l := rows.map (·.opex)) (by simpa using h.opex) (by omega)
    rw [← hsum, List.map_map, List.map_map]
    rfl

omit [Context] in
theorem Addable.series (h : Addable rows) (revKey opexKey : String) :
    seriesOf (rows.map CentsRow.row) revKey opexKey = some (rows.map fun r =>
      ⟨r.month, [(revKey, ofUnits 2 r.revenue), (opexKey, ofUnits 2 r.opex)]⟩) := by
  rw [seriesOf, List.mapM_map]
  refine mapM_eq_some fun r hr => ?_
  obtain ⟨hrevenue, hopex, hsmall, hsmall'⟩ := h.each r hr
  have hmoney := money_ofUnits (a := r.revenue) (by omega)
  have hmoney' := money_ofUnits (a := r.opex) (by omega)
  simp [CentsRow.row, hmoney, hmoney']

theorem Addable.net (h : Addable rows) :
    sub (ofUnits 2 (revenueUnits rows)) (ofUnits 2 (opexUnits rows)) =
      ofUnits 2 (revenueUnits rows - opexUnits rows) := by
  obtain ⟨hrevenue, hopex⟩ := h.nonneg
  have hsmall := h.small
  exact sub_ofUnits (by omega)

theorem income_figures (h : Addable rows) {categories : List (String × ℤ)}
    (hcategories : ∀ c ∈ categories, c.2.natAbs < 10 ^ 28) (periodDays : ℕ) (now : DateTime) :
    ∃ report, buildIncomeStatement (rows.map CentsRow.row)
        (categories.map fun c => (c.1, ofUnits 2 c.2)) periodDays now = some report ∧
      report.series.map (·.period) = rows.map (·.month) ∧
      IncomeShows report (revenueUnits rows) (opexUnits rows) (categories.map Prod.snd).sum := by
  obtain ⟨hrevenue, hopex⟩ := h.nonneg
  have hsmall := h.small
  obtain ⟨htotal, htotal'⟩ := h.totals
  obtain ⟨margin, hmargin⟩ :=
    pct_isSome (n := revenueUnits rows - opexUnits rows) (by omega) hrevenue
  have hlines : (categories.map fun c => (c.1, ofUnits 2 c.2)).mapM lineOf =
      some (categories.map fun c =>
        ⟨if c.1 = "" then "Uncategorised" else c.1, ofUnits 2 c.2⟩) := by
    rw [List.mapM_map]
    refine mapM_eq_some fun c hc => ?_
    simp [lineOf, money_ofUnits (hcategories c hc)]
  let report : FinancialReport := {
    reportType := .incomeStatement
    title := "Income Statement"
    periodDays
    generatedAt := now
    hasData := ofUnits 2 (revenueUnits rows) != 0 || ofUnits 2 (opexUnits rows) != 0
    summary := [
      { label := "Revenue", value := ofUnits 2 (revenueUnits rows) },
      { label := "Operating Expenses", value := ofUnits 2 (opexUnits rows) },
      { label := "Net Profit", value := ofUnits 2 (revenueUnits rows - opexUnits rows) },
      { label := "Net Margin", value := margin, unit := "%" }]
    lines := categories.map fun c =>
      ⟨if c.1 = "" then "Uncategorised" else c.1, ofUnits 2 c.2⟩
    series := rows.map fun r =>
      ⟨r.month, [("revenue", ofUnits 2 r.revenue), ("expenses", ofUnits 2 r.opex)]⟩ }
  have hbuild : buildIncomeStatement (rows.map CentsRow.row)
      (categories.map fun c => (c.1, ofUnits 2 c.2)) periodDays now = some report := by
    simp only [buildIncomeStatement, htotal, htotal', h.net, hmargin, h.series, hlines,
      money_ofUnits (a := revenueUnits rows) (by omega),
      money_ofUnits (a := opexUnits rows) (by omega),
      money_ofUnits (a := revenueUnits rows - opexUnits rows) (by omega),
      Option.bind_eq_bind, Option.bind_some, Option.pure_def, report]
  refine ⟨report, hbuild, by simp [report], rfl, rfl, rfl, ?_, ?_, ?_, ?_⟩
  · rw [revenueUnits, ← ofUnits_sum]
    simp [FinancialReport.seriesTotal, report, Function.comp_def]
  · rw [opexUnits, ← ofUnits_sum]
    simp [FinancialReport.seriesTotal, report, Function.comp_def, List.lookup]
  · rw [← ofUnits_sum]
    simp [FinancialReport.lineTotal, report, Function.comp_def]
  · simp [report, ofUnits_eq_zero]

theorem cash_figures (h : Addable rows) (periodDays : ℕ) (now : DateTime) :
    ∃ report, buildCashFlow (rows.map CentsRow.row) periodDays now = some report ∧
      report.series.map (·.period) = rows.map (·.month) ∧
      CashShows report (revenueUnits rows) (opexUnits rows) := by
  obtain ⟨hrevenue, hopex⟩ := h.nonneg
  have hsmall := h.small
  obtain ⟨htotal, htotal'⟩ := h.totals
  let months : ℕ := if (rows.map CentsRow.row).length = 0 then 1 else (rows.map CentsRow.row).length
  have hmonths : (1 : ℚ) ≤ months := by
    have hone : 1 ≤ months := by
      simp only [months]
      split <;> omega
    exact_mod_cast hone
  obtain ⟨burn, hburn⟩ : ∃ r, money (div (ofUnits 2 (opexUnits rows)) months) = some r := by
    refine money_isSome (n := (opexUnits rows).natAbs) (abs_round_le ?_ (by omega)) (by omega)
    rw [abs_div, abs_of_nonneg (ofUnits_nonneg.mpr hopex), abs_of_pos (by linarith)]
    have hcast : (((opexUnits rows).natAbs : ℕ) : ℚ) = opexUnits rows := by
      rw [Nat.cast_natAbs, Int.cast_abs, abs_of_nonneg (by exact_mod_cast hopex)]
    have hpos : (0 : ℚ) ≤ opexUnits rows := by exact_mod_cast hopex
    calc ofUnits 2 (opexUnits rows) / months ≤ ofUnits 2 (opexUnits rows) :=
          div_le_self (ofUnits_nonneg.mpr hopex) hmonths
      _ ≤ opexUnits rows := div_le_self hpos (by norm_num)
      _ = ((opexUnits rows).natAbs : ℕ) := hcast.symm
  have hseries : (rows.map CentsRow.row).mapM cashPoint =
      some (rows.map fun r => ⟨r.month, [("inflows", ofUnits 2 r.revenue),
        ("outflows", ofUnits 2 r.opex), ("net", ofUnits 2 (r.revenue - r.opex))]⟩) := by
    rw [List.mapM_map]
    refine mapM_eq_some fun r hr => ?_
    obtain ⟨hr₁, hr₂, hr₃, hr₄⟩ := h.each r hr
    simp [cashPoint, CentsRow.row, money_ofUnits (a := r.revenue) (by omega),
      money_ofUnits (a := r.opex) (by omega), sub_ofUnits (a := r.revenue) (b := r.opex) (by omega),
      money_ofUnits (a := r.revenue - r.opex) (by omega)]
  let report : FinancialReport := {
    reportType := .cashFlow
    title := "Cash Flow"
    periodDays
    generatedAt := now
    hasData := ofUnits 2 (revenueUnits rows) != 0 || ofUnits 2 (opexUnits rows) != 0
    summary := [
      { label := "Total Inflows", value := ofUnits 2 (revenueUnits rows) },
      { label := "Total Outflows", value := ofUnits 2 (opexUnits rows) },
      { label := "Net Cash Flow", value := ofUnits 2 (revenueUnits rows - opexUnits rows) },
      { label := "Avg Monthly Burn", value := burn }]
    lines := []
    series := rows.map fun r => ⟨r.month, [("inflows", ofUnits 2 r.revenue),
      ("outflows", ofUnits 2 r.opex), ("net", ofUnits 2 (r.revenue - r.opex))]⟩ }
  have hbuild : buildCashFlow (rows.map CentsRow.row) periodDays now = some report := by
    simp only [months] at hburn
    simp only [buildCashFlow, htotal, htotal', h.net, hburn, hseries,
      money_ofUnits (a := revenueUnits rows) (by omega),
      money_ofUnits (a := opexUnits rows) (by omega),
      money_ofUnits (a := revenueUnits rows - opexUnits rows) (by omega),
      Option.bind_eq_bind, Option.bind_some, Option.pure_def, report]
  refine ⟨report, hbuild, by simp [report], rfl, rfl, rfl, ?_, ?_, ?_, ?_⟩
  · rw [revenueUnits, ← ofUnits_sum]
    simp [FinancialReport.seriesTotal, report, Function.comp_def]
  · rw [opexUnits, ← ofUnits_sum]
    simp [FinancialReport.seriesTotal, report, Function.comp_def, List.lookup]
  · rw [← sum_net, ← ofUnits_sum]
    simp [FinancialReport.seriesTotal, report, Function.comp_def, List.lookup]
  · simp [report, ofUnits_eq_zero]

theorem tax_figures (h : Addable rows) {vat : ℤ} (hvat : vat.natAbs < 10 ^ 28)
    (periodDays : ℕ) (now : DateTime) :
    ∃ report, buildTaxLiability (rows.map CentsRow.row) (ofUnits 2 vat) periodDays now =
        some report ∧
      report.series.map (·.period) = rows.map (·.month) ∧
      TaxShows report (revenueUnits rows) (opexUnits rows) vat := by
  obtain ⟨hrevenue, hopex⟩ := h.nonneg
  have hsmall := h.small
  obtain ⟨htotal, htotal'⟩ := h.totals
  let net : ℤ := revenueUnits rows - opexUnits rows
  have hmax : max (ofUnits 2 net) 0 = ofUnits 2 (max net 0) := by
    rw [← ofUnits_zero 2]
    exact (Monotone.map_max fun a b hab => ofUnits_le.mpr hab).symm
  have hproduct : mul (ofUnits 2 (max net 0)) corporateTaxRate = ofUnits 4 (max net 0 * 30) := by
    have hexact : ofUnits 2 (max net 0) * corporateTaxRate = ofUnits 4 (max net 0 * 30) := by
      simp only [ofUnits, corporateTaxRate]
      push_cast
      ring
    rw [mul, hexact, Context.round_exact _ _ (by omega)]
  have hestimate : money (ofUnits 4 (max net 0 * 30)) = some (ofUnits 2 (estimatedTax net)) := by
    have hcents : ofUnits 4 (max net 0 * 30) * 10 ^ 2 = 3 * (max net 0 : ℤ) / 10 := by
      simp only [ofUnits]
      push_cast
      ring
    have hle : estimatedTax net ≤ max net 0 := by
      have hnonneg : (0 : ℚ) ≤ (max net 0 : ℤ) := by exact_mod_cast le_max_right net 0
      calc estimatedTax net ≤ roundHalfEven (max net 0 : ℤ) :=
            roundHalfEven_mono (by linarith)
        _ = max net 0 := roundHalfEven_intCast _
    have hge : 0 ≤ estimatedTax net := roundHalfEven_nonneg (by positivity)
    rw [money, quantize?, hcents]
    exact if_pos (by change (estimatedTax net).natAbs < _; omega)
  have hrate : quantize? 2 (mul corporateTaxRate 100) = some (ofUnits 2 3000) := by
    have hexact : corporateTaxRate * 100 = ofUnits 2 3000 := by
      norm_num [ofUnits, corporateTaxRate]
    rw [mul, hexact, Context.round_exact _ _ (by decide)]
    exact quantize?_ofUnits (by decide)
  let report : FinancialReport := {
    reportType := .taxLiability
    title := "Tax Liability"
    periodDays
    generatedAt := now
    hasData := ofUnits 2 vat != 0 || ofUnits 2 (revenueUnits rows) != 0
    summary := [
      { label := "VAT Payable (output)", value := ofUnits 2 vat },
      { label := "Taxable Income", value := ofUnits 2 net, isEstimate := true },
      { label := "Estimated Income Tax", value := ofUnits 2 (estimatedTax net),
        isEstimate := true },
      { label := "Corporate Rate", value := ofUnits 2 3000, unit := "%", isEstimate := true }]
    lines := [
      { label := "Output VAT (on sales)", amount := ofUnits 2 vat },
      { label := "Estimated Income Tax", amount := ofUnits 2 (estimatedTax net) }]
    series := rows.map fun r =>
      ⟨r.month, [("revenue", ofUnits 2 r.revenue), ("expenses", ofUnits 2 r.opex)]⟩ }
  have hbuild : buildTaxLiability (rows.map CentsRow.row) (ofUnits 2 vat) periodDays now =
      some report := by
    simp only [net] at hmax hproduct hestimate
    simp only [buildTaxLiability, htotal, htotal', h.net, hmax, hproduct, hestimate, hrate,
      h.series,
      money_ofUnits hvat, money_ofUnits (a := revenueUnits rows - opexUnits rows) (by omega),
      Option.bind_eq_bind, Option.bind_some, Option.pure_def, report, net]
  refine ⟨report, hbuild, by simp [report], rfl, rfl, rfl, ?_, ?_⟩
  · simp [FinancialReport.lineTotal, report, ofUnits_add, net]
  · simp [report, ofUnits_eq_zero]

end

/-! The rows that the queries make of the ledger. -/

/-- No entry takes money away from its side, and the window holds less than `10 ^ 22` shillings. -/
structure Countable (entries : List LedgerEntry) : Prop where
  nonneg : ∀ entry ∈ entries, 0 ≤ entry.amount.units
  small : credits entries + debits entries < 10 ^ 24

section
variable {entries : List LedgerEntry}

theorem units_nonneg (h : ∀ entry ∈ entries, 0 ≤ entry.amount.units) :
    ∀ entry ∈ entries, 0 ≤ creditUnits entry ∧ 0 ≤ debitUnits entry := by
  intro entry hentry
  have hunits := h entry hentry
  unfold creditUnits debitUnits
  constructor <;> split <;> omega

theorem sides_nonneg (h : ∀ entry ∈ entries, 0 ≤ entry.amount.units) :
    0 ≤ credits entries ∧ 0 ≤ debits entries := by
  constructor
  · refine List.sum_nonneg fun u hu => ?_
    obtain ⟨entry, hentry, rfl⟩ := List.mem_map.mp hu
    exact (units_nonneg h entry hentry).1
  · refine List.sum_nonneg fun u hu => ?_
    obtain ⟨entry, hentry, rfl⟩ := List.mem_map.mp hu
    exact (units_nonneg h entry hentry).2

/-- What the second query filters on changes no sum of debits. -/
theorem debits_spent : debits (entries.filter fun entry => !isCredit entry) = debits entries := by
  rw [debits, debits, sum_filter]
  congr 1
  refine List.map_congr_left fun entry _ => ?_
  by_cases hcredit : isCredit entry = true <;> simp [debitUnits, hcredit]

def centsCategories (entries : List LedgerEntry) : List (String × ℤ) :=
  let spent := entries.filter fun entry => !isCredit entry
  ((spent.map categoryOf).dedup.map fun category =>
    (category, debits (spent.filter (categoryOf · == category)))).insertionSort
      fun a b => b.2 ≤ a.2

theorem categoryRows_eq :
    categoryRows entries = (centsCategories entries).map fun c => (c.1, ofUnits 2 c.2) := by
  have hsort := List.map_insertionSort (r := fun a b : String × ℤ => b.2 ≤ a.2)
    (s := fun a b : String × ℚ => b.2 ≤ a.2) (fun c => (c.1, ofUnits 2 c.2))
    (((entries.filter fun entry => !isCredit entry).map categoryOf).dedup.map fun category =>
      (category, debits ((entries.filter fun entry => !isCredit entry).filter
        (categoryOf · == category)))) fun a _ b _ => ofUnits_le.symm
  rw [categoryRows, centsCategories, hsort, List.map_map]
  rfl

theorem sum_centsCategories : ((centsCategories entries).map Prod.snd).sum = debits entries := by
  have hperm := (List.perm_insertionSort (fun a b : String × ℤ => b.2 ≤ a.2)
    (((entries.filter fun entry => !isCredit entry).map categoryOf).dedup.map fun category =>
      (category, debits ((entries.filter fun entry => !isCredit entry).filter
        (categoryOf · == category))))).map Prod.snd
  rw [centsCategories, hperm.sum_eq, List.map_map, ← debits_spent]
  exact sum_groups categoryOf (List.nodup_dedup _)
    (fun entry hentry => List.mem_dedup.mpr (List.mem_map_of_mem hentry)) debitUnits

theorem centsCategories_small (h : Countable entries) :
    ∀ c ∈ centsCategories entries, c.2.natAbs < 10 ^ 28 := by
  have hnonneg : ∀ u ∈ (centsCategories entries).map Prod.snd, 0 ≤ u := by
    intro u hu
    obtain ⟨c, hc, rfl⟩ := List.mem_map.mp hu
    rw [centsCategories, List.mem_insertionSort] at hc
    obtain ⟨category, -, rfl⟩ := List.mem_map.mp hc
    exact (sides_nonneg fun entry hentry =>
      h.nonneg entry (List.mem_of_mem_filter (List.mem_of_mem_filter hentry))).2
  intro c hc
  have hmem : c.2 ∈ (centsCategories entries).map Prod.snd := List.mem_map_of_mem hc
  have hle := List.single_le_sum hnonneg _ hmem
  rw [sum_centsCategories] at hle
  have hpos := hnonneg _ hmem
  have hcredits := (sides_nonneg h.nonneg).1
  have hsmall := h.small
  omega

variable [Calendar]

def months (entries : List LedgerEntry) : List String :=
  (entries.map monthOf).dedup.insertionSort (· ≤ ·)

def centsRows (entries : List LedgerEntry) : List CentsRow :=
  (months entries).map fun month =>
    let rows := entries.filter (monthOf · == month)
    ⟨month, credits rows, debits rows⟩

theorem monthlyRows_eq : monthlyRows entries = (centsRows entries).map CentsRow.row := by
  rw [centsRows, List.map_map]
  rfl

theorem nodup_months : (months entries).Nodup :=
  (List.perm_insertionSort (· ≤ ·) _).nodup_iff.mpr (List.nodup_dedup _)

theorem monthOf_mem : ∀ entry ∈ entries, monthOf entry ∈ months entries := by
  intro entry hentry
  rw [months, List.mem_insertionSort, List.mem_dedup]
  exact List.mem_map_of_mem hentry

theorem revenueUnits_centsRows : revenueUnits (centsRows entries) = credits entries := by
  rw [revenueUnits, centsRows, List.map_map]
  exact sum_groups monthOf nodup_months monthOf_mem creditUnits

theorem opexUnits_centsRows : opexUnits (centsRows entries) = debits entries := by
  rw [opexUnits, centsRows, List.map_map]
  exact sum_groups monthOf nodup_months monthOf_mem debitUnits

theorem addable_centsRows (h : Countable entries) : Addable (centsRows entries) := by
  have hsides : ∀ r ∈ centsRows entries, 0 ≤ r.revenue ∧ 0 ≤ r.opex := by
    intro r hr
    obtain ⟨month, -, rfl⟩ := List.mem_map.mp hr
    exact sides_nonneg fun entry hentry => h.nonneg entry (List.mem_of_mem_filter hentry)
  refine ⟨fun r hr => (hsides r hr).1, fun r hr => (hsides r hr).2, ?_⟩
  rw [revenueUnits_centsRows, opexUnits_centsRows]
  exact h.small

theorem months_sorted : (months entries).Pairwise (· < ·) := by
  have hsorted := List.pairwise_insertionSort (· ≤ ·) (entries.map monthOf).dedup
  exact (hsorted.and nodup_months).imp fun ⟨hle, hne⟩ => lt_of_le_of_ne hle hne

omit [Calendar] in
theorem sum_ne_zero_iff {rows : List CentsRow} {f : CentsRow → ℤ} (hf : ∀ r ∈ rows, 0 ≤ f r) :
    (rows.map f).sum ≠ 0 ↔ ∃ r ∈ rows, f r ≠ 0 := by
  constructor
  · intro hsum
    by_contra hnone
    push Not at hnone
    exact hsum (List.sum_eq_zero (by simpa using hnone))
  · intro ⟨r, hr, hne⟩
    have hle := List.single_le_sum (by simpa using hf) _ (List.mem_map_of_mem (f := f) hr)
    have hpos := hf r hr
    omega

theorem hasLedger_iff (h : Countable entries) :
    ((monthlyRows entries).any fun row => row.revenue != 0 || row.opex != 0) = true ↔
      credits entries ≠ 0 ∨ debits entries ≠ 0 := by
  have hrows := addable_centsRows h
  have hrevenue := sum_ne_zero_iff hrows.revenue
  have hopex := sum_ne_zero_iff hrows.opex
  rw [monthlyRows_eq, ← revenueUnits_centsRows, ← opexUnits_centsRows, revenueUnits, opexUnits,
    hrevenue, hopex, ← exists_or]
  simp [CentsRow.row, ofUnits_eq_zero, and_or_left]

end

@[reducible] def januaryThenFebruary : Calendar :=
  ⟨fun t => if t < 31 then "2026-01" else "2026-02"⟩

def rentThenSale : List LedgerEntry :=
  [{ id := 1, transactionType := .debit, amount := ⟨40000, by decide⟩, createdAt := 3 },
    { id := 2, transactionType := .credit, amount := ⟨100000, by decide⟩, createdAt := 40 }]

end Finguard.Reports
