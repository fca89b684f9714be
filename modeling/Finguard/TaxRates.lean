import Finguard.Lib.Dict
import Finguard.Tuning

/-! The tax rates that are effective at a date: the rows of a schedule laid over the tuning of the
auditor. -/

namespace Finguard
open PyValue

namespace Tuning

/-- `_TAX_RATE_KEYS`. -/
inductive TaxRateKey where
  | vatRate
  | vatThresholdAnnualKes
  | citRate
  | totRate
  | amlReportingThresholdKes
deriving DecidableEq

namespace TaxRateKey

def name : TaxRateKey → String
  | vatRate => "vat_rate"
  | vatThresholdAnnualKes => "vat_threshold_annual_kes"
  | citRate => "cit_rate"
  | totRate => "tot_rate"
  | amlReportingThresholdKes => "aml_reporting_threshold_kes"

def keys : List TaxRateKey :=
  [vatRate, vatThresholdAnnualKes, citRate, totRate, amlReportingThresholdKes]

def ofName? (s : String) : Option TaxRateKey := keys.find? (·.name = s)

theorem ofName?_eq_some_iff {s : String} {key : TaxRateKey} :
    ofName? s = some key ↔ s = key.name := by
  constructor
  · intro h
    have hname : key.name = s := by simpa using List.find?_some h
    exact hname.symm
  · rintro rfl
    cases key <;> decide +kernel

end TaxRateKey

namespace AuditorTuning

def field (a : AuditorTuning) : TaxRateKey → PyValue
  | .vatRate => a.vatRate
  | .vatThresholdAnnualKes => a.vatThresholdAnnualKes
  | .citRate => a.citRate
  | .totRate => a.totRate
  | .amlReportingThresholdKes => a.amlReportingThresholdKes

/-- `dataclasses.replace`: a field that is not replaced keeps its value. -/
def replace (base : AuditorTuning) (overrides : List (TaxRateKey × PyValue)) : AuditorTuning where
  vatRate := (overrides.lookup .vatRate).getD base.vatRate
  vatThresholdAnnualKes :=
    (overrides.lookup .vatThresholdAnnualKes).getD base.vatThresholdAnnualKes
  citRate := (overrides.lookup .citRate).getD base.citRate
  totRate := (overrides.lookup .totRate).getD base.totRate
  amlReportingThresholdKes :=
    (overrides.lookup .amlReportingThresholdKes).getD base.amlReportingThresholdKes

theorem field_replace (base : AuditorTuning) (overrides : List (TaxRateKey × PyValue))
    (key : TaxRateKey) :
    (base.replace overrides).field key = (overrides.lookup key).getD (base.field key) := by
  cases key <;> rfl

theorem ext_field {a b : AuditorTuning} (h : ∀ key, a.field key = b.field key) : a = b := by
  have h₁ := h .vatRate
  have h₂ := h .vatThresholdAnnualKes
  have h₃ := h .citRate
  have h₄ := h .totRate
  have h₅ := h .amlReportingThresholdKes
  cases a
  cases b
  simp_all [field]

end AuditorTuning

/-- A row, with its rate as the database returns it. -/
structure TaxRateSchedule (δ : Type) where
  rateKey : String
  effectiveFrom : δ
  rate : Number
  note : Option String

/-- `float` of a decimal. -/
def floatOf : Number → Number
  | .finite q => .ofRat q
  | x => x

section
variable {δ : Type} [LinearOrder δ]

abbrev Latest (δ : Type) := List (TaxRateKey × δ × Number)

def keepLatest (latest : Latest δ) (row : TaxRateSchedule δ) : Latest δ :=
  match TaxRateKey.ofName? row.rateKey with
  | none => latest
  | some key =>
    match latest.lookup key with
    | none => Dict.set latest key (row.effectiveFrom, floatOf row.rate)
    | some (eff, _) =>
      if eff < row.effectiveFrom then Dict.set latest key (row.effectiveFrom, floatOf row.rate)
      else latest

/-- The rows that `select` returns for a date may come in any order. -/
def getEffectiveAuditorTuning (base : AuditorTuning) (asOf : Option δ) (today : δ)
    (select : δ → Except PyException (List (TaxRateSchedule δ))) :
    Except PyException AuditorTuning :=
  match select (asOf.getD today) with
  | .error exc => if exc.isException then .ok base else .error exc
  | .ok rows =>
    let latest := rows.foldl keepLatest []
    if latest = [] then .ok base
    else .ok (base.replace (latest.map fun entry => (entry.1, .float entry.2.2)))

/-- `set_tax_rate`: a rate with the same key and date is replaced. -/
def setTaxRate (table : List (TaxRateSchedule δ)) (row : TaxRateSchedule δ) :
    Except PyException (List (TaxRateSchedule δ)) :=
  if (TaxRateKey.ofName? row.rateKey).isNone then .error .valueError
  else if table.any (fun r => r.rateKey = row.rateKey ∧ r.effectiveFrom = row.effectiveFrom) then
    .ok (table.map fun r =>
      if r.rateKey = row.rateKey ∧ r.effectiveFrom = row.effectiveFrom then row else r)
  else .ok (table ++ [row])

variable {table rows : List (TaxRateSchedule δ)} {row : TaxRateSchedule δ} {latest : Latest δ}
  {key : TaxRateKey} {day : δ}

/-- For each key that the rows name, the entry of a row that no other one is later than. -/
structure Newest (rows : List (TaxRateSchedule δ)) (latest : Latest δ) : Prop where
  found : ∀ {key eff x}, latest.lookup key = some (eff, x) →
    ∃ row ∈ rows, row.rateKey = key.name ∧ row.effectiveFrom = eff ∧ floatOf row.rate = x
  bound : ∀ {row key}, row ∈ rows → row.rateKey = key.name →
    ∃ eff x, latest.lookup key = some (eff, x) ∧ row.effectiveFrom ≤ eff

theorem keepLatest_of_unknown (h : TaxRateKey.ofName? row.rateKey = none) :
    keepLatest latest row = latest := by
  rw [keepLatest, h]

theorem keepLatest_cases (h : row.rateKey = key.name) :
    (keepLatest latest row = Dict.set latest key (row.effectiveFrom, floatOf row.rate) ∧
      ∀ eff x, latest.lookup key = some (eff, x) → eff < row.effectiveFrom) ∨
    (keepLatest latest row = latest ∧
      ∃ eff x, latest.lookup key = some (eff, x) ∧ row.effectiveFrom ≤ eff) := by
  have hname := TaxRateKey.ofName?_eq_some_iff.mpr h
  cases hlookup : latest.lookup key with
  | none =>
    have hkeep : keepLatest latest row =
        Dict.set latest key (row.effectiveFrom, floatOf row.rate) := by
      simp only [keepLatest, hname, hlookup]
    exact .inl ⟨hkeep, nofun⟩
  | some entry =>
    obtain ⟨eff, x⟩ := entry
    have hkeep : keepLatest latest row = if eff < row.effectiveFrom then
        Dict.set latest key (row.effectiveFrom, floatOf row.rate) else latest := by
      simp only [keepLatest, hname, hlookup]
    by_cases hlt : eff < row.effectiveFrom
    · rw [if_pos hlt] at hkeep
      refine .inl ⟨hkeep, fun eff' x' heq => ?_⟩
      cases heq
      exact hlt
    · rw [if_neg hlt] at hkeep
      exact .inr ⟨hkeep, eff, x, rfl, not_lt.mp hlt⟩

theorem name_injective {k l : TaxRateKey} (h : k.name = l.name) : k = l := by
  have hk : TaxRateKey.ofName? k.name = some k := TaxRateKey.ofName?_eq_some_iff.mpr rfl
  have hl : TaxRateKey.ofName? k.name = some l := TaxRateKey.ofName?_eq_some_iff.mpr h
  exact Option.some.inj (hk.symm.trans hl)

theorem Newest.step (h : Newest rows latest) (row : TaxRateSchedule δ) :
    Newest (rows ++ [row]) (keepLatest latest row) := by
  have hold : ∀ {key eff x}, latest.lookup key = some (eff, x) → ∃ r ∈ rows ++ [row],
      r.rateKey = key.name ∧ r.effectiveFrom = eff ∧ floatOf r.rate = x := by
    intro key eff x hlookup
    obtain ⟨r, hr, hrest⟩ := h.found hlookup
    exact ⟨r, List.mem_append_left _ hr, hrest⟩
  cases hname : TaxRateKey.ofName? row.rateKey with
  | none =>
    rw [keepLatest_of_unknown hname]
    refine ⟨hold, fun {r key} hr hkey => ?_⟩
    rcases List.mem_append.mp hr with hr | hr
    · exact h.bound hr hkey
    · rw [List.mem_singleton.mp hr] at hkey
      rw [TaxRateKey.ofName?_eq_some_iff.mpr hkey] at hname
      cases hname
  | some key₀ =>
    have hkey₀ : row.rateKey = key₀.name := TaxRateKey.ofName?_eq_some_iff.mp hname
    rcases keepLatest_cases hkey₀ with ⟨heq, hlater⟩ | ⟨heq, eff, x, hlookup, hle⟩
    · rw [heq]
      constructor
      · intro key eff x hlookup
        by_cases hk : key = key₀
        · rw [hk, Dict.lookup_set_self] at hlookup
          cases hlookup
          exact ⟨row, by simp, hk ▸ hkey₀, rfl, rfl⟩
        · rw [Dict.lookup_set_of_ne hk] at hlookup
          exact hold hlookup
      · intro r key hr hkey
        by_cases hk : key = key₀
        · rw [hk, Dict.lookup_set_self]
          refine ⟨_, _, rfl, ?_⟩
          rcases List.mem_append.mp hr with hr | hr
          · obtain ⟨eff, x, hlookup, hle⟩ := h.bound hr hkey
            rw [hk] at hlookup
            exact hle.trans (hlater eff x hlookup).le
          · rw [List.mem_singleton.mp hr]
        · rw [Dict.lookup_set_of_ne hk]
          rcases List.mem_append.mp hr with hr | hr
          · exact h.bound hr hkey
          · rw [List.mem_singleton.mp hr] at hkey
            exact absurd (name_injective (hkey.symm.trans hkey₀)) hk
    · rw [heq]
      refine ⟨hold, fun {r key} hr hkey => ?_⟩
      rcases List.mem_append.mp hr with hr | hr
      · exact h.bound hr hkey
      · rw [List.mem_singleton.mp hr] at hkey ⊢
        have hk : key = key₀ := name_injective (hkey.symm.trans hkey₀)
        rw [hk]
        exact ⟨eff, x, hlookup, hle⟩

theorem newest_foldl (rows : List (TaxRateSchedule δ)) : Newest rows (rows.foldl keepLatest []) := by
  induction rows using List.reverseRecOn with
  | nil => exact ⟨nofun, nofun⟩
  | append_singleton rows row ih =>
    rw [List.foldl_append]
    exact ih.step row

/-- The row of a key with the greatest date that is not after the day. -/
structure Effective (table : List (TaxRateSchedule δ)) (day : δ) (key : TaxRateKey)
    (row : TaxRateSchedule δ) : Prop where
  mem : row ∈ table
  named : row.rateKey = key.name
  started : row.effectiveFrom ≤ day
  greatest : ∀ r ∈ table, r.rateKey = key.name → r.effectiveFrom ≤ day →
    r.effectiveFrom ≤ row.effectiveFrom

/-- What `select` returns for a day: the rows up to it, in any order. -/
def Selects (table : List (TaxRateSchedule δ)) (day : δ) (rows : List (TaxRateSchedule δ)) : Prop :=
  rows.Perm (table.filter fun r => decide (r.effectiveFrom ≤ day))

theorem Selects.mem_iff (h : Selects table day rows) :
    row ∈ rows ↔ row ∈ table ∧ row.effectiveFrom ≤ day := by
  rw [List.Perm.mem_iff h, List.mem_filter, decide_eq_true_eq]

omit [LinearOrder δ] in
theorem lookup_overrides (latest : Latest δ) (key : TaxRateKey) :
    (latest.map fun entry => (entry.1, PyValue.float entry.2.2)).lookup key =
      (latest.lookup key).map fun entry => .float entry.2 := by
  induction latest with
  | nil => rfl
  | cons entry latest ih =>
    obtain ⟨k, eff, x⟩ := entry
    by_cases hk : key = k
    · simp [hk]
    · have hne : (key == k) = false := by simpa using hk
      simp only [List.map_cons, List.lookup_cons, hne, ih]

/-- The field of a key after the rows: the rate of an effective row, or the value before. -/
theorem field_of_rows {base tuning : AuditorTuning} {asOf : Option δ} {today : δ}
    {select : δ → Except PyException (List (TaxRateSchedule δ))}
    (hselect : select (asOf.getD today) = .ok rows)
    (h : getEffectiveAuditorTuning base asOf today select = .ok tuning) (key : TaxRateKey) :
    tuning.field key =
      ((rows.foldl keepLatest []).lookup key).elim (base.field key) fun entry => .float entry.2 := by
  rw [getEffectiveAuditorTuning, hselect] at h
  dsimp only at h
  split at h
  · rename_i hnil
    rw [← Except.ok.inj h, hnil]
    rfl
  · rw [← Except.ok.inj h, AuditorTuning.field_replace, lookup_overrides]
    cases (rows.foldl keepLatest []).lookup key <;> rfl

theorem getEffectiveAuditorTuning_total {base : AuditorTuning} {asOf : Option δ} {today : δ}
    {select : δ → Except PyException (List (TaxRateSchedule δ))}
    (hselect : select (asOf.getD today) = .ok rows) :
    ∃ tuning, getEffectiveAuditorTuning base asOf today select = .ok tuning := by
  rw [getEffectiveAuditorTuning, hselect]
  dsimp only
  split
  · exact ⟨_, rfl⟩
  · exact ⟨_, rfl⟩

def Unique (table : List (TaxRateSchedule δ)) : Prop :=
  (table.map fun r => (r.rateKey, r.effectiveFrom)).Nodup

omit [LinearOrder δ] in
theorem Unique.eq (h : Unique table) {r : TaxRateSchedule δ} (hrow : row ∈ table) (hr : r ∈ table)
    (hkey : row.rateKey = r.rateKey) (heff : row.effectiveFrom = r.effectiveFrom) : row = r :=
  List.inj_on_of_nodup_map h hrow hr (Prod.ext hkey heff)

/-- A rate that is set leaves one row at most for a key and a date. -/
theorem Unique.set {table' : List (TaxRateSchedule δ)} (h : Unique table)
    (hset : setTaxRate table row = .ok table') : Unique table' := by
  unfold setTaxRate at hset
  split at hset
  · cases hset
  split at hset
  · have hkeys : (table.map fun r =>
        if r.rateKey = row.rateKey ∧ r.effectiveFrom = row.effectiveFrom then row else r).map
          (fun r => (r.rateKey, r.effectiveFrom)) =
        table.map fun r => (r.rateKey, r.effectiveFrom) := by
      rw [List.map_map]
      refine List.map_congr_left fun r _ => ?_
      by_cases hr : r.rateKey = row.rateKey ∧ r.effectiveFrom = row.effectiveFrom
      · simp [hr]
      · simp [hr]
    rw [← Except.ok.inj hset, Unique, hkeys]
    exact h
  · rename_i hnew
    rw [← Except.ok.inj hset, Unique, List.map_append, List.nodup_append]
    refine ⟨h, List.nodup_singleton _, ?_⟩
    rintro _ hmem _ hrow rfl
    obtain ⟨r, hr, hpair⟩ := List.mem_map.mp hmem
    rw [List.map_singleton, List.mem_singleton] at hrow
    rw [hrow] at hpair
    refine hnew (List.any_eq_true.mpr ⟨r, hr, ?_⟩)
    exact decide_eq_true ⟨congrArg Prod.fst hpair, congrArg Prod.snd hpair⟩

theorem unique_of_setTaxRate (h : rows.foldlM setTaxRate [] = .ok table) : Unique table := by
  induction rows using List.reverseRecOn generalizing table with
  | nil =>
    rw [← Except.ok.inj h]
    exact List.nodup_nil
  | append_singleton rows row ih =>
    rw [List.foldlM_append] at h
    obtain ⟨before, hbefore, hrow⟩ := Scan.bind_eq_ok.mp h
    rw [List.foldlM_cons] at hrow
    obtain ⟨after, hafter, hdone⟩ := Scan.bind_eq_ok.mp hrow
    rw [← Except.ok.inj hdone]
    exact (ih hbefore).set hafter

theorem lookup_of_effective (hunique : Unique table) (hrows : Selects table day rows)
    (h : Effective table day key row) :
    (rows.foldl keepLatest []).lookup key = some (row.effectiveFrom, floatOf row.rate) := by
  have hnewest : Newest rows (rows.foldl keepLatest []) := newest_foldl rows
  have hmem : row ∈ rows := hrows.mem_iff.mpr ⟨h.mem, h.started⟩
  obtain ⟨eff, x, hlookup, hle⟩ := hnewest.bound hmem h.named
  obtain ⟨r, hr, hkey, heff, hrate⟩ := hnewest.found hlookup
  obtain ⟨hrTable, hrDay⟩ := hrows.mem_iff.mp hr
  have hge : eff ≤ row.effectiveFrom := heff ▸ h.greatest r hrTable hkey hrDay
  have hsame : r = row := hunique.eq hrTable h.mem (hkey.trans h.named.symm)
    (heff.trans (le_antisymm hge hle))
  rw [hlookup, ← heff, ← hrate, hsame]

theorem effective_of_lookup (hrows : Selects table day rows) {eff : δ} {x : Number}
    (h : (rows.foldl keepLatest []).lookup key = some (eff, x)) :
    ∃ row, Effective table day key row ∧ floatOf row.rate = x := by
  have hnewest : Newest rows (rows.foldl keepLatest []) := newest_foldl rows
  obtain ⟨row, hrow, hkey, heff, hrate⟩ := hnewest.found h
  obtain ⟨hmem, hday⟩ := hrows.mem_iff.mp hrow
  refine ⟨row, ⟨hmem, hkey, hday, fun r hr hrkey hrday => ?_⟩, hrate⟩
  obtain ⟨eff', x', hlookup, hle⟩ := hnewest.bound (hrows.mem_iff.mpr ⟨hr, hrday⟩) hrkey
  rw [h] at hlookup
  cases hlookup
  rw [heff]
  exact hle

/-- The tables have the same rows of known keys. -/
def SameKnown (table table' : List (TaxRateSchedule δ)) : Prop :=
  ∀ row, (TaxRateKey.ofName? row.rateKey).isSome → (row ∈ table' ↔ row ∈ table)

theorem Effective.of_sameKnown {table' : List (TaxRateSchedule δ)} (hsame : SameKnown table table')
    (h : Effective table day key row) : Effective table' day key row := by
  have hknown : ∀ r : TaxRateSchedule δ, r.rateKey = key.name →
      (TaxRateKey.ofName? r.rateKey).isSome := fun r hr => by
    rw [TaxRateKey.ofName?_eq_some_iff.mpr hr]
    rfl
  exact ⟨(hsame row (hknown row h.named)).mpr h.mem, h.named, h.started, fun r hr hkey hday =>
    h.greatest r ((hsame r (hknown r hkey)).mp hr) hkey hday⟩

/-- For each known key the rate of the row with the greatest date that is not after the day, and
the value before where there is none. Other keys and the order of the rows do not matter. -/
theorem effective_rates {base : AuditorTuning} {asOf : Option δ} {today : δ}
    {select : δ → Except PyException (List (TaxRateSchedule δ))} (hunique : Unique table)
    (hselect : select (asOf.getD today) = .ok rows) (hrows : Selects table (asOf.getD today) rows) :
    ∃ tuning, getEffectiveAuditorTuning base asOf today select = .ok tuning ∧
      (∀ key row, Effective table (asOf.getD today) key row →
        tuning.field key = .float (floatOf row.rate)) ∧
      (∀ key : TaxRateKey, (∀ row ∈ table, row.rateKey = key.name →
        asOf.getD today < row.effectiveFrom) → tuning.field key = base.field key) ∧
      ∀ select' table' rows', Unique table' → SameKnown table table' →
        select' (asOf.getD today) = .ok rows' → Selects table' (asOf.getD today) rows' →
        getEffectiveAuditorTuning base asOf today select' = .ok tuning := by
  obtain ⟨tuning, htuning⟩ := getEffectiveAuditorTuning_total hselect
  have hfield := field_of_rows hselect htuning
  refine ⟨tuning, htuning, fun key row heffective => ?_, fun key hnone => ?_,
    fun select' table' rows' hunique' hsame hselect' hrows' => ?_⟩
  · rw [hfield, lookup_of_effective hunique hrows heffective]
    rfl
  · rw [hfield]
    cases hlookup : (rows.foldl keepLatest []).lookup key with
    | none => rfl
    | some entry =>
      obtain ⟨row, heffective, -⟩ := effective_of_lookup hrows hlookup
      exact absurd heffective.started (not_le.mpr (hnone row heffective.mem heffective.named))
  · obtain ⟨tuning', htuning'⟩ := getEffectiveAuditorTuning_total hselect'
    have hfield' := field_of_rows hselect' htuning'
    have heq : tuning' = tuning := by
      refine AuditorTuning.ext_field fun key => ?_
      rw [hfield, hfield']
      cases hlookup : (rows.foldl keepLatest []).lookup key with
      | some entry =>
        obtain ⟨row, heffective, -⟩ := effective_of_lookup hrows hlookup
        have hsome := lookup_of_effective hunique hrows heffective
        rw [lookup_of_effective hunique' hrows' (heffective.of_sameKnown hsame), ← hlookup, hsome]
      | none =>
        cases hlookup' : (rows'.foldl keepLatest []).lookup key with
        | none => rfl
        | some entry =>
          obtain ⟨row, heffective, -⟩ := effective_of_lookup hrows' hlookup'
          have hback : SameKnown table' table := fun r hr => (hsame r hr).symm
          have hsome := lookup_of_effective hunique hrows (heffective.of_sameKnown hback)
          rw [hlookup] at hsome
          cases hsome
    rw [htuning', heq]

/-- A failed read leaves the rates as they are. -/
theorem rates_kept {base : AuditorTuning} {asOf : Option δ} {today : δ} {exc : PyException}
    {select : δ → Except PyException (List (TaxRateSchedule δ))}
    (hselect : select (asOf.getD today) = .error exc) (hexc : exc.isException) :
    getEffectiveAuditorTuning base asOf today select = .ok base := by
  rw [getEffectiveAuditorTuning, hselect]
  exact if_pos hexc

end

/-- The value added tax was lowered for a year; another tax is not known. -/
def vatHistory : List (TaxRateSchedule ℕ) := [
  ⟨"vat_rate", 20210101, .finite 0.16, none⟩,
  ⟨"luxury_rate", 20200501, .finite 0.25, none⟩,
  ⟨"vat_rate", 20200401, .finite 0.14, some "relief"⟩]

theorem unique_vatHistory : Unique vatHistory :=
  show (vatHistory.map fun r => (r.rateKey, r.effectiveFrom)).Nodup by decide +kernel

theorem vat_relief :
    ∃ tuning, getEffectiveAuditorTuning {} (some 20200701) 20260101
        (fun day => .ok (vatHistory.filter fun r => decide (r.effectiveFrom ≤ day))) = .ok tuning ∧
      (∀ key row, Effective vatHistory ((some 20200701).getD 20260101) key row →
        tuning.field key = .float (floatOf row.rate)) ∧
      (∀ key : TaxRateKey, (∀ row ∈ vatHistory, row.rateKey = key.name →
        (some 20200701).getD 20260101 < row.effectiveFrom) →
        tuning.field key = AuditorTuning.field {} key) ∧
      ∀ select' table' rows', Unique table' → SameKnown vatHistory table' →
        select' ((some 20200701).getD 20260101) = .ok rows' →
        Selects table' ((some 20200701).getD 20260101) rows' →
        getEffectiveAuditorTuning {} (some 20200701) 20260101 select' = .ok tuning :=
  effective_rates unique_vatHistory rfl (.refl _)

end Tuning

end Finguard
