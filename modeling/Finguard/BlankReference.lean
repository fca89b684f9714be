import Finguard.Reconciler

/-! References that say nothing. Every text contains the empty one, so a reference that is blank only
after trimming matches every invoice number. -/

namespace Finguard
open Text

/-- Missing, empty, or nothing but white space. -/
def BlankRef (billRef : Option String) : Prop := strip (billRef.getD "") = ""

instance (billRef : Option String) : Decidable (BlankRef billRef) :=
  inferInstanceAs (Decidable (_ = _))

section
variable [Format] [Unicode]

/-- The trimmed reference, the trimmed number or a token of at least three characters is a text that
both contain. -/
def SharesText (billRef : Option String) (invoiceNumber : String) : Prop :=
  let b := normalise (billRef.getD "")
  let i := normalise invoiceNumber
  (b ≠ "" ∧ isIn b i) ∨ (i ≠ "" ∧ isIn i b) ∨ ∃ token ∈ split b, 3 ≤ token.length ∧ isIn token i

/-- A reference that is there is not blank, and neither is the number. -/
def Legible (billRef : Option String) (invoiceNumber : String) : Prop :=
  billRef.getD "" = "" ∨ (normalise (billRef.getD "") ≠ "" ∧ normalise invoiceNumber ≠ "")

omit [Format] in
instance (billRef : Option String) (invoiceNumber : String) :
    Decidable (Legible billRef invoiceNumber) := inferInstanceAs (Decidable (_ ∨ _))

omit [Format] in
theorem refMatch_eq_true {billRef : Option String} {invoiceNumber : String} :
    refMatch billRef invoiceNumber = true ↔ billRef.getD "" ≠ "" ∧
      (isIn (normalise (billRef.getD "")) (normalise invoiceNumber) ∨
        isIn (normalise invoiceNumber) (normalise (billRef.getD "")) ∨
        ∃ token ∈ split (normalise (billRef.getD "")),
          3 ≤ token.length ∧ isIn token (normalise invoiceNumber)) := by
  cases billRef with
  | none => simp [refMatch]
  | some ref =>
    by_cases href : ref = ""
    · simp [refMatch, href]
    · simp [refMatch, href, or_assoc]

omit [Format] in
theorem not_sharesText_of_blank {billRef : Option String} {invoiceNumber : String}
    (h : normalise (billRef.getD "") = "" ∨ normalise invoiceNumber = "") :
    ¬ SharesText billRef invoiceNumber := by
  rcases h with hb | hi
  · rintro (⟨hne, -⟩ | ⟨hne, hin⟩ | ⟨token, htoken, -⟩)
    · exact hne hb
    · rw [hb] at hin
      exact hne (isIn_of_empty hin)
    · rw [hb] at htoken
      simp [split] at htoken
  · rintro (⟨hne, hin⟩ | ⟨hne, -⟩ | ⟨token, -, hlength, hin⟩)
    · rw [hi] at hin
      exact hne (isIn_of_empty hin)
    · exact hne hi
    · rw [hi] at hin
      rw [isIn_of_empty hin] at hlength
      simp at hlength

omit [Format] in
/-- A match of two texts is a text that they share, exactly when neither is blank. -/
theorem refMatch_shares_iff {billRef : Option String} {invoiceNumber : String} :
    (refMatch billRef invoiceNumber = true → SharesText billRef invoiceNumber) ↔
      Legible billRef invoiceNumber := by
  rw [refMatch_eq_true]
  constructor
  · intro h
    by_cases href : billRef.getD "" = ""
    · exact .inl href
    · refine .inr (not_or.mp fun hblank => not_sharesText_of_blank hblank (h ⟨href, ?_⟩))
      rcases hblank with hb | hi
      · left
        rw [hb]
        exact isIn_empty _
      · right
        left
        rw [hi]
        exact isIn_empty _
  · rintro (href | ⟨hb, hi⟩) ⟨hne, hmatch⟩
    · exact absurd href hne
    · rcases hmatch with hin | hin | htoken
      · exact .inl ⟨hb, hin⟩
      · exact .inr (.inl ⟨hi, hin⟩)
      · exact .inr (.inr htoken)

variable {tuning : ReconcilerTuning} {scorer : Scorer} {transactions : List FloatingSettlement}
  {invoices : List OpenInvoice} {pass1 : Matched} {found : List ReconciliationMatch}

theorem pass1_not_blank [LawfulSpaces] {m : ReconciliationMatch}
    (h : pass1Exact tuning transactions invoices = .ok pass1)
    (hlegible : ∀ txn ∈ transactions, ∀ inv ∈ invoices, Legible txn.billRef inv.invoiceNumber)
    (hm : m ∈ pass1.found) :
    ∃ txn ∈ transactions, txn.id = m.transactionId ∧ ¬ BlankRef txn.billRef := by
  obtain ⟨before, txn, inv, hcomes, hfind, rfl⟩ := (mem_pass1 h).mp hm
  have htakes := List.find?_some hfind
  simp only [Matched.takes, exactMatch, Bool.and_eq_true, decide_eq_true_eq] at htakes
  refine ⟨txn, hcomes.mem, rfl, fun hblank => ?_⟩
  have hsome := (refMatch_eq_true.mp htakes.2.2).1
  rcases hlegible txn hcomes.mem inv (List.mem_of_find?_eq_some hfind) with hempty | ⟨hb, -⟩
  · exact hsome hempty
  · exact hb (LawfulSpaces.lower_blank _ hblank)

/-- An answer would be taken as a match: its rows are there and were not named by a better one. -/
def Takes (tuning : ReconcilerTuning) (invoices : List OpenInvoice) (before : Matched)
    (cand : ReconciliationCandidate) : Prop :=
  cand.transactionId ∉ before.txnIds ∧ cand.invoiceId ∉ before.invIds ∧
    tuning.semanticThreshold ≤ cand.matchScore ∧ ∃ inv ∈ invoices, inv.id = cand.invoiceId

omit [Format] [Unicode] in
theorem txnMap_isSome {id : String} (h : ∃ txn ∈ transactions, txn.id = id) :
    ∃ txn, txnMap transactions id = some txn := by
  obtain ⟨txn, htxn, hid⟩ := h
  exact Option.isSome_iff_exists.mp
    (List.find?_isSome.mpr ⟨txn, List.mem_reverse.mpr htxn, by simpa using hid⟩)

omit [Format] [Unicode] in
theorem invMap_isSome {id : String} (h : ∃ inv ∈ invoices, inv.id = id) :
    ∃ inv, invMap invoices id = some inv := by
  obtain ⟨inv, hinv, hid⟩ := h
  exact Option.isSome_iff_exists.mp
    (List.find?_isSome.mpr ⟨inv, List.mem_reverse.mpr hinv, by simpa using hid⟩)

omit [Format] [Unicode] in
theorem takes_iff_judge {before : Matched} {cand : ReconciliationCandidate}
    (htxn : ∃ txn ∈ transactions, txn.id = cand.transactionId) :
    Takes tuning invoices before cand ↔
      ∃ m, before.judge tuning transactions invoices cand = some m := by
  constructor
  · rintro ⟨hntxn, hninv, hscore, hinv⟩
    obtain ⟨txn, htxn⟩ := txnMap_isSome htxn
    obtain ⟨inv, hinv⟩ := invMap_isSome hinv
    exact ⟨_, judge_eq_some.mpr ⟨txn, inv, hntxn, hninv, hscore, htxn, hinv, rfl⟩⟩
  · rintro ⟨m, hjudge⟩
    obtain ⟨txn, inv, hntxn, hninv, hscore, -, hinv, -⟩ := judge_eq_some.mp hjudge
    exact ⟨hntxn, hninv, hscore, inv, invMap_eq_some hinv⟩

/-- No transaction with a blank reference is matched, and references match only through a text that
they share, exactly when the references and numbers that are there are legible and the model never
gets to name a transaction whose reference is blank. -/
theorem blank_reference_unmatched_iff [LawfulSpaces]
    (hids : (transactions.map FloatingSettlement.id).Nodup)
    (h1 : pass1Exact tuning transactions invoices = .ok pass1)
    (h2 : pass2Semantic tuning scorer transactions invoices pass1.txnIds pass1.invIds = .ok found) :
    ((∀ m ∈ pass1.found ++ found, ∀ txn ∈ transactions, txn.id = m.transactionId →
        ¬ BlankRef txn.billRef) ∧
      ∀ txn ∈ transactions, ∀ inv ∈ invoices, refMatch txn.billRef inv.invoiceNumber = true →
        SharesText txn.billRef inv.invoiceNumber) ↔
    (∀ txn ∈ transactions, ∀ inv ∈ invoices, Legible txn.billRef inv.invoiceNumber) ∧
      ∀ before cand, IsJudged tuning transactions invoices
          (answers tuning scorer transactions invoices pass1.txnIds pass1.invIds) before cand →
        Takes tuning invoices before cand →
        ∀ txn ∈ transactions, txn.id = cand.transactionId → ¬ BlankRef txn.billRef := by
  constructor
  · rintro ⟨hunblank, hshares⟩
    refine ⟨fun txn htxn inv hinv => refMatch_shares_iff.mp (hshares txn htxn inv hinv), ?_⟩
    intro before cand hjudged htakes txn htxn hid
    obtain ⟨m, hjudge⟩ := (takes_iff_judge ⟨txn, htxn, hid⟩).mp htakes
    have hm : m ∈ found := (mem_pass2 h2).mpr ⟨before, cand, hjudged, hjudge⟩
    exact hunblank m (List.mem_append_right _ hm) txn htxn (hid.trans (judge_ids hjudge).1.symm)
  · rintro ⟨hlegible, hanswers⟩
    refine ⟨?_, fun txn htxn inv hinv => refMatch_shares_iff.mpr (hlegible txn htxn inv hinv)⟩
    intro m hm txn htxn hid
    rcases List.mem_append.mp hm with hm | hm
    · obtain ⟨txn', htxn', hid', hblank⟩ := pass1_not_blank h1 hlegible hm
      rwa [List.inj_on_of_nodup_map hids htxn htxn' (hid.trans hid'.symm)]
    · obtain ⟨before, cand, hjudged, hjudge⟩ := (mem_pass2 h2).mp hm
      have hcand : txn.id = cand.transactionId := hid.trans (judge_ids hjudge).1
      exact hanswers before cand hjudged
        ((takes_iff_judge ⟨txn, htxn, hcand⟩).mpr ⟨m, hjudge⟩) txn htxn hcand

end

/-- A payment of 1160 with a reference, and the invoice of that amount. -/
def sampleTxn (id : String) (billRef : Option String) : FloatingSettlement where
  id
  amount := 1160
  phone := "254700000001"
  billRef
  createdAt := .stamp 4

def sampleOpen (id invoiceNumber : String) : OpenInvoice where
  id
  invoiceNumber
  balanceDue := 1160
  dueDate := none

/-- A model that confirms one pair, whatever it is asked. -/
def naming (transactionId invoiceId : String) : Scorer where
  tokenSortRatio _ _ := 100
  scoreCandidates _ := some [⟨transactionId, invoiceId, 1, "same payer", by norm_num, le_refl 1⟩]

/-- A reference of two spaces settles the first invoice of its amount. -/
theorem spaces_settle_invoice :
    letI := Format.plain
    letI := Unicode.ascii
    BlankRef (some "  ") ∧
      (pass1Exact {} [sampleTxn "t1" (some "  ")] [sampleOpen "i1" "INV-1"]).toOption.map
        (fun matched => matched.found.map (fun m => (m.transactionId, m.invoiceId))) =
        some [("t1", "i1")] := by
  decide +kernel

/-- A reference with a typing error, which only the model reads. -/
theorem typed_reference_named :
    letI := Format.plain
    letI := Unicode.ascii
    (∀ m ∈ [] ++ [scoredPair {} ⟨"t1", "i1", 1, "same payer", by norm_num, le_refl 1⟩
        (sampleTxn "t1" (some "INW-1")) (sampleOpen "i1" "INV-1")],
      ∀ txn ∈ [sampleTxn "t1" (some "INW-1")], txn.id = m.transactionId → ¬ BlankRef txn.billRef) ∧
    ∀ txn ∈ [sampleTxn "t1" (some "INW-1")], ∀ inv ∈ [sampleOpen "i1" "INV-1"],
      refMatch txn.billRef inv.invoiceNumber = true → SharesText txn.billRef inv.invoiceNumber := by
  let := Format.plain
  let := Unicode.ascii
  have hlawful : LawfulSpaces := lawfulSpaces_ascii
  have hids : ([sampleTxn "t1" (some "INW-1")].map FloatingSettlement.id).Nodup := by decide
  have h1 : pass1Exact {} [sampleTxn "t1" (some "INW-1")] [sampleOpen "i1" "INV-1"] = .ok {} := by
    decide +kernel
  have h2 : pass2Semantic {} (naming "t1" "i1") [sampleTxn "t1" (some "INW-1")]
      [sampleOpen "i1" "INV-1"] ∅ ∅ = .ok [scoredPair {} ⟨"t1", "i1", 1, "same payer", by norm_num,
        le_refl 1⟩ (sampleTxn "t1" (some "INW-1")) (sampleOpen "i1" "INV-1")] := by
    decide +kernel
  have hunblank : ∀ txn ∈ [sampleTxn "t1" (some "INW-1")], ¬ BlankRef txn.billRef := by
    decide +kernel
  have hlegible : ∀ txn ∈ [sampleTxn "t1" (some "INW-1")], ∀ inv ∈ [sampleOpen "i1" "INV-1"],
      Legible txn.billRef inv.invoiceNumber := by
    simp only [List.mem_singleton, forall_eq]
    decide +kernel
  exact (blank_reference_unmatched_iff hids h1 h2).mpr
    ⟨hlegible, fun _ _ _ _ txn htxn _ => hunblank txn htxn⟩

end Finguard
