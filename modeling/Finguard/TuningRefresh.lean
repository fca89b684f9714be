import Finguard.Lib.Dict
import Finguard.Tuning

/-! The refresh of the tuning overlay from the table of overrides. -/

namespace Finguard
open PyValue

namespace Tuning

structure AgentConfigRow where
  sectionName : String
  payload : PyValue

/-- `dict` of a value. A key that is no text is refused here, where the code refuses it as an
unknown one. -/
def dictOf : PyValue → Except PyException PyFields
  | .object fields => .ok fields
  | .array items => items.foldlM (fun d item => do
      let (key, v) ← unpackPair item
      match key with
      | .text s => .ok (Dict.set d s v)
      | _ => .error .typeError) []
  | .text _ => .error .valueError
  | _ => .error .typeError

def coerceRow (sec : Section) (payload : PyValue) : Except PyException SectionValue := do
  let raw ← dictOf (if payload.truthy then payload else .object [])
  coerceSection sec raw

def SectionValue.sec : SectionValue → Section
  | .reconciler _ => .reconciler
  | .watchdog _ => .watchdog
  | .auditor _ => .auditor
  | .bankability _ => .bankability
  | .classifier _ => .classifier
  | .receipt _ => .receipt

def startsWith (start s : String) : Bool := start.toList.isPrefixOf s.toList

structure TuningState where
  overlay : List (Section × SectionValue)
  lastRefresh : ℚ

def refreshTtlSeconds : ℚ := 60

section
variable [Text.Unicode]

def validateSection (v : SectionValue) : Except PyException (List String) :=
  (validateAgentTuning v.candidate).map fun problems =>
    problems.filter (startsWith (v.sec.name ++ "."))

/-- A row of a section that is not known, cannot be coerced or has problems is skipped. The
validation stands outside of the handler. -/
def applyRow (overlay : List (Section × SectionValue)) (row : AgentConfigRow) :
    Except PyException (List (Section × SectionValue)) :=
  match Section.ofName? row.sectionName with
  | none => .ok overlay
  | some sec =>
    match coerceRow sec row.payload with
    | .error exc =>
      if exc.isValueError ∨ exc = .typeError then .ok overlay else .error exc
    | .ok v => do
      let problems ← validateSection v
      .ok (if problems.isEmpty then Dict.set overlay sec v else overlay)

/-- A read that fails leaves the overlay as it is. -/
def refreshAgentTuningFromDb (force : Bool) (now : ℚ)
    (rows : Except PyException (List AgentConfigRow)) (st : TuningState) :
    Except PyException TuningState :=
  if force = false ∧ now - st.lastRefresh < refreshTtlSeconds then .ok st
  else
    match rows with
    | .error exc => if exc.isException then .ok st else .error exc
    | .ok rows => do
      let overlay ← rows.foldlM applyRow []
      .ok ⟨overlay, now⟩

/-! What the handler sees. -/

/-- An exception that the handler around the coercion takes. -/
def IsCaught (exc : PyException) : Prop := exc.isValueError ∨ exc = .typeError

omit [Text.Unicode] in
theorem unpackPair_error {v : PyValue} {exc : PyException} (h : unpackPair v = .error exc) :
    IsCaught exc := by
  unfold unpackPair pyIter at h
  cases hitems : v.items? with
  | none =>
    rw [hitems] at h
    exact .inr (Except.error.inj h).symm
  | some items =>
    rw [hitems] at h
    simp only [orTypeError, Option.elim_some, bind, Except.bind] at h
    split at h
    · cases h
    · rw [← Except.error.inj h]
      exact .inl rfl

omit [Text.Unicode] in
theorem dictOf_error {v : PyValue} {exc : PyException} (h : dictOf v = .error exc) :
    IsCaught exc := by
  cases v with
  | object fields => cases h
  | text s =>
    rw [← Except.error.inj h]
    exact .inl rfl
  | array items =>
    rw [dictOf] at h
    generalize ([] : PyFields) = d at h
    induction items generalizing d with
    | nil => cases h
    | cons item items ih =>
      rw [List.foldlM_cons] at h
      rcases Scan.bind_eq_error.mp h with hitem | ⟨d', -, hrest⟩
      · rcases Scan.bind_eq_error.mp hitem with hpair | ⟨p, -, hkey⟩
        · exact unpackPair_error hpair
        · dsimp only at hkey
          split at hkey
          · cases hkey
          · exact .inr (Except.error.inj hkey).symm
      · exact ih d' hrest
  | _ => exact .inr (Except.error.inj h).symm

omit [Text.Unicode] in
theorem coerceRow_error {sec : Section} {payload : PyValue} {exc : PyException}
    (h : coerceRow sec payload = .error exc) : IsCaught exc := by
  rcases Scan.bind_eq_error.mp h with hdict | ⟨raw, -, hcoerce⟩
  · exact dictOf_error hdict
  · unfold coerceSection at hcoerce
    split at hcoerce
    · cases hcoerce
    · rw [← Except.error.inj hcoerce]
      exact .inl rfl

omit [Text.Unicode] in
theorem ofName?_eq_some {s : String} {sec : Section} :
    Section.ofName? s = some sec ↔ sec.name = s := by
  unfold Section.ofName?
  constructor
  · intro h
    simpa using List.find?_some h
  · rintro rfl
    cases sec <;> rfl

/-! One section. -/

def SectionValue.checks : SectionValue → List Check
  | .reconciler r => reconcilerChecks r
  | .watchdog w => watchdogChecks w
  | .auditor a => auditorChecks a
  | .bankability b => bankabilityChecks b
  | .classifier c => classifierChecks c
  | .receipt rc => receiptChecks rc

theorem evaluates_checks {v : SectionValue} : (∀ c ∈ v.checks, Evaluates c.1) ↔ v.Judged := by
  cases v with
  | reconciler r => exact evaluates_reconcilerChecks
  | watchdog w => exact evaluates_watchdogChecks
  | auditor a => exact evaluates_auditorChecks
  | bankability b => exact evaluates_bankabilityChecks
  | classifier c => exact evaluates_classifierChecks
  | receipt rc => exact evaluates_receiptChecks

def allChecks (t : AgentTuning) : List Check :=
  reconcilerChecks t.reconciler ++ watchdogChecks t.watchdog ++ auditorChecks t.auditor ++
    bankabilityChecks t.bankability ++ classifierChecks t.classifier ++ receiptChecks t.receipt

omit [Text.Unicode] in
/-- Checks that report nothing are conditions that hold. -/
theorem holds_of_report {cs : List Check} (h : reportProblems cs = .ok []) :
    ∀ c ∈ cs, c.1 = .ok true := by
  intro c hc
  obtain ⟨b, hb⟩ := (evaluates_reportProblems cs).mp ⟨_, h⟩ c hc
  cases b
  · have hmem := (mem_reportProblems (p := c.2) h).mpr (by rw [← hb]; exact hc)
    cases hmem
  · exact hb

section lawful
variable [Text.Format] [Text.LawfulText]

/-- The checks of a candidate are those of its section and others that hold. -/
theorem mem_allChecks (v : SectionValue) {c : Check} (hc : c ∈ allChecks v.candidate) :
    c ∈ v.checks ∨ c.1 = .ok true := by
  obtain ⟨hreconciler, hwatchdog, hauditor, hbankability, hclassifier⟩ := defaults_pass
  simp only [allChecks, List.mem_append] at hc
  cases v with
  | reconciler x =>
    rcases hc with ((((hc | hc) | hc) | hc) | hc) | hc
    · exact .inl hc
    · exact .inr (holds_of_report hwatchdog c hc)
    · exact .inr (holds_of_report hauditor c hc)
    · exact .inr (holds_of_report hbankability c hc)
    · exact .inr (holds_of_report hclassifier c hc)
    · exact .inr (holds_of_report receipt_default c hc)
  | watchdog x =>
    rcases hc with ((((hc | hc) | hc) | hc) | hc) | hc
    · exact .inr (holds_of_report hreconciler c hc)
    · exact .inl hc
    · exact .inr (holds_of_report hauditor c hc)
    · exact .inr (holds_of_report hbankability c hc)
    · exact .inr (holds_of_report hclassifier c hc)
    · exact .inr (holds_of_report receipt_default c hc)
  | auditor x =>
    rcases hc with ((((hc | hc) | hc) | hc) | hc) | hc
    · exact .inr (holds_of_report hreconciler c hc)
    · exact .inr (holds_of_report hwatchdog c hc)
    · exact .inl hc
    · exact .inr (holds_of_report hbankability c hc)
    · exact .inr (holds_of_report hclassifier c hc)
    · exact .inr (holds_of_report receipt_default c hc)
  | bankability x =>
    rcases hc with ((((hc | hc) | hc) | hc) | hc) | hc
    · exact .inr (holds_of_report hreconciler c hc)
    · exact .inr (holds_of_report hwatchdog c hc)
    · exact .inr (holds_of_report hauditor c hc)
    · exact .inl hc
    · exact .inr (holds_of_report hclassifier c hc)
    · exact .inr (holds_of_report receipt_default c hc)
  | classifier x =>
    rcases hc with ((((hc | hc) | hc) | hc) | hc) | hc
    · exact .inr (holds_of_report hreconciler c hc)
    · exact .inr (holds_of_report hwatchdog c hc)
    · exact .inr (holds_of_report hauditor c hc)
    · exact .inr (holds_of_report hbankability c hc)
    · exact .inl hc
    · exact .inr (holds_of_report receipt_default c hc)
  | receipt x =>
    rcases hc with ((((hc | hc) | hc) | hc) | hc) | hc
    · exact .inr (holds_of_report hreconciler c hc)
    · exact .inr (holds_of_report hwatchdog c hc)
    · exact .inr (holds_of_report hauditor c hc)
    · exact .inr (holds_of_report hbankability c hc)
    · exact .inr (holds_of_report hclassifier c hc)
    · exact .inl hc

end lawful

theorem checks_subset (v : SectionValue) {c : Check} (hc : c ∈ v.checks) :
    c ∈ allChecks v.candidate := by
  simp only [allChecks, List.mem_append]
  cases v with
  | reconciler x => exact .inl (.inl (.inl (.inl (.inl hc))))
  | watchdog x => exact .inl (.inl (.inl (.inl (.inr hc))))
  | auditor x => exact .inl (.inl (.inl (.inr hc)))
  | bankability x => exact .inl (.inl (.inr hc))
  | classifier x => exact .inl (.inr hc)
  | receipt x => exact .inr hc

section lawful
variable [Text.Format] [Text.LawfulText] {v : SectionValue}

theorem evaluates_validate : Evaluates (validateAgentTuning v.candidate) ↔ v.Judged := by
  rw [← evaluates_checks]
  refine (evaluates_reportProblems (allChecks v.candidate)).trans ⟨?_, ?_⟩
  · exact fun h c hc => h c (checks_subset v hc)
  · intro h c hc
    rcases mem_allChecks v hc with hmem | htrue
    · exact h c hmem
    · exact ⟨true, htrue⟩

theorem mem_problems {problems : List String} {p : String}
    (h : validateAgentTuning v.candidate = .ok problems) :
    p ∈ problems ↔ (.ok false, p) ∈ v.checks := by
  rw [mem_reportProblems h]
  constructor
  · intro hmem
    rcases mem_allChecks v hmem with hmem | htrue
    · exact hmem
    · cases htrue
  · exact fun hmem => checks_subset v hmem

end lawful

theorem problem_named {v : SectionValue} {c : Check} (hc : c ∈ v.checks) :
    startsWith (v.sec.name ++ ".") c.2 ∨ ∃ b, v = .bankability b ∧
      c = (pyAll (isAtLeast 0) b.weights, weightsProblem) := by
  -- the texts do not depend on the values, so those of the defaults can be looked at
  have named : ∀ {cs defaults : List Check} {start : String},
      (defaults.map Prod.snd).all (startsWith start) = true →
        cs.map Prod.snd = defaults.map Prod.snd → c ∈ cs → startsWith start c.2 := by
    intro cs defaults start hall hsame hmem
    rw [← hsame] at hall
    exact List.all_eq_true.mp hall _ (List.mem_map_of_mem hmem)
  cases v with
  | reconciler r =>
    have hall : ((reconcilerChecks {}).map Prod.snd).all
        (startsWith (Section.reconciler.name ++ ".")) = true := by decide +kernel
    exact .inl (@named (reconcilerChecks r) _ _ hall rfl hc)
  | watchdog w =>
    have hall : ((watchdogChecks {}).map Prod.snd).all
        (startsWith (Section.watchdog.name ++ ".")) = true := by decide +kernel
    exact .inl (@named (watchdogChecks w) _ _ hall rfl hc)
  | auditor a =>
    have hall : ((auditorChecks {}).map Prod.snd).all
        (startsWith (Section.auditor.name ++ ".")) = true := by decide +kernel
    exact .inl (@named (auditorChecks a) _ _ hall rfl hc)
  | classifier d =>
    have hall : ((classifierChecks {}).map Prod.snd).all
        (startsWith (Section.classifier.name ++ ".")) = true := by decide +kernel
    exact .inl (@named (classifierChecks d) _ _ hall rfl hc)
  | receipt rc =>
    have hall : ((@receiptChecks Text.Unicode.ascii {}).map Prod.snd).all
        (startsWith (Section.receipt.name ++ ".")) = true := by decide +kernel
    exact .inl (@named (receiptChecks rc) _ _ hall rfl hc)
  | bankability b =>
    have hall : (((bankabilityChecks {}).map Prod.snd).filter (· ≠ weightsProblem)).all
        (startsWith (Section.bankability.name ++ ".")) = true := by decide +kernel
    simp only [SectionValue.checks, bankabilityChecks, List.mem_cons, List.not_mem_nil,
      or_false] at hc
    rcases hc with rfl | rfl | rfl
    · exact .inl (List.all_eq_true.mp hall _ (by dsimp only; decide +kernel))
    · exact .inr ⟨b, rfl, rfl⟩
    · exact .inl (List.all_eq_true.mp hall _ (by dsimp only; decide +kernel))

/-- The checks of a bankability row that pass while its weights do not. -/
def OnlyWeightsFail (v : SectionValue) : Prop :=
  ∃ b, v = .bankability b ∧ pyAll (isAtLeast 0) b.weights = .ok false ∧
    pyLt b.tierMediumMin b.tierLowMin = .ok true ∧ bandsAscend b.ratioBands = .ok true

section lawful
variable [Text.Format] [Text.LawfulText] {v : SectionValue}

/-- The section's own validation misses the one problem that does not begin with its name. -/
theorem validateSection_iff (hv : v.Judged) : validateSection v = .ok [] ↔
    validateAgentTuning v.candidate = .ok [] ∨ OnlyWeightsFail v := by
  obtain ⟨problems, hproblems⟩ := evaluates_validate.mpr hv
  have hmem := fun p => @mem_problems _ _ _ v problems p hproblems
  have hsection : validateSection v = .ok [] ↔
      ∀ p ∈ problems, ¬ startsWith (v.sec.name ++ ".") p := by
    rw [validateSection, hproblems, Except.map, Except.ok.injEq, List.filter_eq_nil_iff]
  have hall : validateAgentTuning v.candidate = .ok [] ↔ ∀ p, p ∉ problems := by
    rw [hproblems, Except.ok.injEq, List.eq_nil_iff_forall_not_mem]
  rw [hsection, hall]
  constructor
  · intro hunnamed
    have honly : ∀ p ∈ problems, ∃ b, v = .bankability b ∧
        (.ok false, p) = (pyAll (isAtLeast 0) b.weights, weightsProblem) := by
      intro p hp
      exact (problem_named ((hmem p).mp hp)).resolve_left (hunnamed p hp)
    by_cases hnone : ∀ p, p ∉ problems
    · exact .inl hnone
    · right
      push Not at hnone
      obtain ⟨p, hp⟩ := hnone
      obtain ⟨b, rfl, hweights⟩ := honly p hp
      have passes : ∀ c ∈ bankabilityChecks b, c.2 ≠ weightsProblem → c.1 = .ok true := by
        intro c hc hne
        obtain ⟨holds, hholds⟩ := evaluates_bankabilityChecks.mpr hv c hc
        cases holds
        · have hproblem : c.2 ∈ problems := (hmem c.2).mpr (by rw [← hholds]; exact hc)
          obtain ⟨_, _, hsame⟩ := honly c.2 hproblem
          exact absurd (congrArg Prod.snd hsame) hne
        · exact hholds
      refine ⟨b, rfl, (congrArg Prod.fst hweights).symm, ?_, ?_⟩
      · exact passes _ List.mem_cons_self (by dsimp only; decide +kernel)
      · exact passes _ (List.mem_cons_of_mem _ (List.mem_cons_of_mem _ List.mem_cons_self))
          (by dsimp only; decide +kernel)
  · rintro (hnone | ⟨b, rfl, hweights, htiers, hbands⟩)
    · exact fun p hp => absurd hp (hnone p)
    · intro p hp
      have hfails := (hmem p).mp hp
      simp only [SectionValue.checks, bankabilityChecks, htiers, hbands, List.mem_cons,
        Prod.mk.injEq, Except.ok.injEq, Bool.false_eq_true, false_and, List.not_mem_nil, or_false,
        false_or] at hfails
      rw [hfails.2]
      change ¬ startsWith (Section.bankability.name ++ ".") weightsProblem = true
      decide +kernel

/-! The table. -/

/-- What a row is read as. -/
def Coerces (row : AgentConfigRow) (sec : Section) (v : SectionValue) : Prop :=
  Section.ofName? row.sectionName = some sec ∧ coerceRow sec row.payload = .ok v

def Installs (row : AgentConfigRow) (sec : Section) (v : SectionValue) : Prop :=
  Coerces row sec v ∧ validateSection v = .ok []

omit [Text.Unicode] [Text.Format] [Text.LawfulText] in
theorem Coerces.unique {row : AgentConfigRow} {sec sec' : Section} {w : SectionValue}
    (h : Coerces row sec v) (h' : Coerces row sec' w) : sec = sec' ∧ v = w := by
  obtain ⟨hname, hv⟩ := h
  obtain ⟨hname', hw⟩ := h'
  rw [hname] at hname'
  cases Option.some.inj hname'
  rw [hv] at hw
  exact ⟨rfl, Except.ok.inj hw⟩

section row
variable {overlay overlay' : List (Section × SectionValue)} {row : AgentConfigRow}
  {sec : Section}

theorem evaluates_applyRow : Evaluates (applyRow overlay row) ↔
    ∀ sec v, Coerces row sec v → v.Judged := by
  unfold applyRow Coerces
  cases hname : Section.ofName? row.sectionName with
  | none => simp
  | some sec =>
    dsimp only
    cases hcoerce : coerceRow sec row.payload with
    | error exc =>
      have hcaught : exc.isValueError ∨ exc = .typeError := coerceRow_error hcoerce
      dsimp only
      rw [if_pos hcaught]
      refine iff_of_true ⟨_, rfl⟩ ?_
      rintro sec' v ⟨hsec, hv⟩
      rw [← Option.some.inj hsec, hcoerce] at hv
      cases hv
    | ok v =>
      have hstep : Evaluates (validateSection v >>= fun problems =>
          .ok (if problems.isEmpty then Dict.set overlay sec v else overlay)) ↔ v.Judged := by
        rw [evaluates_bind, ← evaluates_validate, ← evaluates_map]
        exact exists_congr fun problems => and_iff_left ⟨_, rfl⟩
      refine hstep.trans ⟨?_, ?_⟩
      · rintro hv sec' w ⟨hsec, hw⟩
        rw [← Option.some.inj hsec, hcoerce] at hw
        exact Except.ok.inj hw ▸ hv
      · exact fun h => h sec v ⟨rfl, hcoerce⟩

omit [Text.Format] [Text.LawfulText] in
theorem lookup_applyRow (h : applyRow overlay row = .ok overlay') :
    overlay'.lookup sec = some v ↔ Installs row sec v ∨
      (∀ w, ¬ Installs row sec w) ∧ overlay.lookup sec = some v := by
  unfold applyRow at h
  cases hname : Section.ofName? row.sectionName with
  | none =>
    rw [hname] at h
    have hnone : ∀ w, ¬ Installs row sec w := by
      rintro w ⟨⟨hsec, -⟩, -⟩
      rw [hname] at hsec
      cases hsec
    rw [← Except.ok.inj h]
    simp [hnone]
  | some sec' =>
    rw [hname] at h
    dsimp only at h
    cases hcoerce : coerceRow sec' row.payload with
    | error exc =>
      have hcaught : exc.isValueError ∨ exc = .typeError := coerceRow_error hcoerce
      rw [hcoerce] at h
      dsimp only at h
      rw [if_pos hcaught] at h
      have hnone : ∀ w, ¬ Installs row sec w := by
        rintro w ⟨⟨hsec, hw⟩, -⟩
        rw [hname] at hsec
        rw [← Option.some.inj hsec, hcoerce] at hw
        cases hw
      rw [← Except.ok.inj h]
      simp [hnone]
    | ok w =>
      rw [hcoerce] at h
      obtain ⟨problems, hproblems, hset⟩ := Scan.bind_eq_ok.mp h
      have hinstalls : ∀ u, Installs row sec u ↔ sec' = sec ∧ w = u ∧ problems = [] := by
        intro u
        constructor
        · rintro ⟨hcoerces, hvalid⟩
          obtain ⟨rfl, rfl⟩ := Coerces.unique (v := w) ⟨hname, hcoerce⟩ hcoerces
          rw [hproblems] at hvalid
          exact ⟨rfl, rfl, Except.ok.inj hvalid⟩
        · rintro ⟨rfl, rfl, rfl⟩
          exact ⟨⟨hname, hcoerce⟩, hproblems⟩
      simp only [hinstalls]
      rw [← Except.ok.inj hset]
      by_cases hempty : problems = []
      · simp only [hempty, List.isEmpty_nil, if_true, and_true]
        by_cases hsec : sec' = sec
        · rw [hsec, Dict.lookup_set_self]
          simp
        · rw [Dict.lookup_set_of_ne (Ne.symm hsec)]
          simp [hsec]
      · have hfilled : problems.isEmpty = false := by simpa using hempty
        simp [hempty, hfilled]

end row

section rows
variable {rows : List AgentConfigRow} {overlay overlay' : List (Section × SectionValue)}
  {sec : Section}

theorem evaluates_applyRows : Evaluates (rows.foldlM applyRow overlay) ↔
    ∀ row ∈ rows, ∀ sec v, Coerces row sec v → v.Judged := by
  induction rows generalizing overlay with
  | nil => simp [pure, Except.pure]
  | cons row rows ih =>
    rw [List.foldlM_cons, evaluates_bind, List.forall_mem_cons,
      ← @evaluates_applyRow _ _ _ overlay row]
    constructor
    · rintro ⟨overlay', hrow, hrest⟩
      exact ⟨⟨overlay', hrow⟩, ih.mp hrest⟩
    · rintro ⟨⟨overlay', hrow⟩, hrest⟩
      exact ⟨overlay', hrow, ih.mpr hrest⟩

omit [Text.Format] [Text.LawfulText] in
/-- With one row for a section at most, the order of the rows does not matter. -/
theorem lookup_applyRows (hdistinct : (rows.map AgentConfigRow.sectionName).Nodup)
    (h : rows.foldlM applyRow overlay = .ok overlay') :
    overlay'.lookup sec = some v ↔ (∃ row ∈ rows, Installs row sec v) ∨
      (∀ row ∈ rows, ∀ w, ¬ Installs row sec w) ∧ overlay.lookup sec = some v := by
  induction rows generalizing overlay with
  | nil =>
    rw [← Except.ok.inj h]
    simp
  | cons row rows ih =>
    rw [List.map_cons, List.nodup_cons] at hdistinct
    rw [List.foldlM_cons] at h
    obtain ⟨middle, hrow, hrest⟩ := Scan.bind_eq_ok.mp h
    have hother : ∀ {w u : SectionValue}, Installs row sec w → ∀ row' ∈ rows,
        ¬ Installs row' sec u := by
      intro w u hw row' hrow' hu
      have hname := ofName?_eq_some.mp hw.1.1
      have hname' := ofName?_eq_some.mp hu.1.1
      exact hdistinct.1 (hname ▸ hname' ▸ List.mem_map_of_mem hrow')
    rw [ih hdistinct.2 hrest, lookup_applyRow hrow, List.forall_mem_cons]
    simp only [List.mem_cons, exists_eq_or_imp]
    constructor
    · rintro (hlater | ⟨hnone, hfirst | ⟨hnot, hkept⟩⟩)
      · exact .inl (.inr hlater)
      · exact .inl (.inl hfirst)
      · exact .inr ⟨⟨hnot, hnone⟩, hkept⟩
    · rintro ((hfirst | hlater) | ⟨⟨hnot, hnone⟩, hkept⟩)
      · exact .inr ⟨fun row' hrow' u => hother hfirst row' hrow', .inl hfirst⟩
      · exact .inl hlater
      · exact .inr ⟨hnone, .inr ⟨hnot, hkept⟩⟩

end rows

/-- The refresh raises nothing, and the overlay has the sections that coerce and validate. -/
def Isolates (rows : List AgentConfigRow) (result : Except PyException TuningState) : Prop :=
  ∃ st, result = .ok st ∧ ∀ sec v, st.overlay.lookup sec = some v ↔
    ∃ row ∈ rows, Coerces row sec v ∧ validateAgentTuning v.candidate = .ok []

theorem isolates_applyRows {rows : List AgentConfigRow} {now : ℚ}
    (hdistinct : (rows.map AgentConfigRow.sectionName).Nodup) :
    Isolates rows (rows.foldlM applyRow [] >>= fun overlay => .ok ⟨overlay, now⟩) ↔
      ∀ row ∈ rows, ∀ sec v, Coerces row sec v → v.Judged ∧ ¬ OnlyWeightsFail v := by
  constructor
  · rintro ⟨st, hst, hexact⟩
    obtain ⟨overlay, hrun, hok⟩ := Scan.bind_eq_ok.mp hst
    have hjudged := evaluates_applyRows.mp ⟨overlay, hrun⟩
    have hoverlay : st.overlay = overlay := by rw [← Except.ok.inj hok]
    intro row hrow sec v hv
    refine ⟨hjudged row hrow sec v hv, fun honly => ?_⟩
    have hvalid := (validateSection_iff (hjudged row hrow sec v hv)).mpr (.inr honly)
    have hlookup : overlay.lookup sec = some v :=
      (lookup_applyRows hdistinct hrun).mpr (.inl ⟨row, hrow, hv, hvalid⟩)
    rw [← hoverlay] at hlookup
    obtain ⟨row', -, -, hall⟩ := (hexact sec v).mp hlookup
    -- a value that validates as a whole has no problem left out
    obtain ⟨b, rfl, hweights, -, -⟩ := honly
    have hmem : weightsProblem ∈ ([] : List String) := by
      refine (mem_problems hall).mpr ?_
      rw [← hweights]
      exact List.mem_cons_of_mem _ List.mem_cons_self
    cases hmem
  · intro h
    obtain ⟨overlay, hrun⟩ := evaluates_applyRows.mpr fun row hrow sec v hv =>
      (h row hrow sec v hv).1
    refine ⟨⟨overlay, now⟩, by rw [hrun]; rfl, fun sec v => ?_⟩
    rw [lookup_applyRows hdistinct hrun]
    simp only [List.lookup_nil, reduceCtorEq, and_false, or_false]
    refine exists_congr fun row => and_congr_right fun hrow => ?_
    unfold Installs
    refine and_congr_right fun hv => ?_
    obtain ⟨hjudged, honly⟩ := h row hrow sec v hv
    rw [validateSection_iff hjudged, or_iff_left honly]

end lawful

end

end Tuning

open Tuning

/-- A refresh isolates the faults of the rows if and only if every row that coerces holds values
that its section's checks can be evaluated on, and no bankability row fails by its weights
alone. -/
theorem refresh_isolates_iff [Text.Unicode] [Text.Format] [Text.LawfulText] {force : Bool}
    {now : ℚ} {rows : List AgentConfigRow} {st : TuningState}
    (hdistinct : (rows.map AgentConfigRow.sectionName).Nodup)
    (hdue : force = true ∨ refreshTtlSeconds ≤ now - st.lastRefresh) :
    Isolates rows (refreshAgentTuningFromDb force now (.ok rows) st) ↔
      ∀ row ∈ rows, ∀ sec v, Coerces row sec v → v.Judged ∧ ¬ OnlyWeightsFail v := by
  have hrun : ¬ (force = false ∧ now - st.lastRefresh < refreshTtlSeconds) := by
    rintro ⟨hforce, hlt⟩
    rcases hdue with htrue | hle
    · rw [hforce] at htrue
      cases htrue
    · exact absurd hlt (not_lt.mpr hle)
  rw [refreshAgentTuningFromDb, if_neg hrun]
  exact isolates_applyRows hdistinct

/-- Before the time is up, and when the rows cannot be read, nothing changes. -/
theorem refresh_keeps [Text.Unicode] {force : Bool} {now : ℚ} {st : TuningState}
    {rows : Except PyException (List AgentConfigRow)}
    (h : (force = false ∧ now - st.lastRefresh < refreshTtlSeconds) ∨
      ∃ exc, rows = .error exc ∧ exc.isException) :
    refreshAgentTuningFromDb force now rows st = .ok st := by
  unfold refreshAgentTuningFromDb
  split
  · rfl
  · rename_i hrun
    obtain ⟨exc, rfl, hexc⟩ := h.resolve_left hrun
    exact if_pos hexc

/-! A batch size that is a text, beside a tolerance that is fine. -/

namespace Tuning

def textBatch : AgentConfigRow := ⟨"reconciler", .object [("txn_batch", .text "100")]⟩

def wholeRates : AgentConfigRow := ⟨"auditor", .object [("vat_rate", .int 0)]⟩

def emptyState : TuningState := ⟨[], 0⟩

end Tuning

theorem rates_refreshed :
    letI := Text.Unicode.ascii
    letI := Text.Format.plain
    Isolates [wholeRates] (refreshAgentTuningFromDb true 0 (.ok [wholeRates]) emptyState) := by
  let := Text.Unicode.ascii
  let := Text.Format.plain
  have hlawful : Text.LawfulText := ⟨fun _ _ => rfl, Text.identifier_plain_ne_empty⟩
  have hread : Coerces wholeRates .auditor (.auditor { vatRate := .int 0 }) := ⟨rfl, rfl⟩
  have hdistinct : ([wholeRates].map AgentConfigRow.sectionName).Nodup := List.nodup_singleton _
  refine (refresh_isolates_iff hdistinct (.inl rfl)).mpr ?_
  intro row hrow sec v hv
  rw [List.mem_singleton.mp hrow] at hv
  obtain ⟨-, rfl⟩ := hread.unique hv
  refine ⟨⟨fun v hv => ?_⟩, fun ⟨b, hb, _⟩ => by cases hb⟩
  simp only [List.mem_cons, List.not_mem_nil, or_false] at hv
  rcases hv with rfl | rfl | rfl | rfl | rfl <;> rfl

/-- The comparison is outside of the handler. -/
theorem text_batch_raises :
    letI := Text.Unicode.ascii
    (refreshAgentTuningFromDb true 0 (.ok [textBatch, wholeRates]) emptyState).map
      (fun st => st.overlay.map fun entry => entry.1) = .error .typeError := by
  decide +kernel

end Finguard
