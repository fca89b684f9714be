import Finguard.Lib.Jsonb
import Finguard.Lib.Sha256
import Finguard.ProposalReview

/-! The fingerprint of a proposal's payload. It is taken of the dictionary that the maker gives,
and at the approval of the one that the column gives back. -/

namespace Finguard
open Jsonb

/-- A dictionary of JSON values. A key stands in a dictionary once. -/
structure PayloadDict where
  fields : List (String × JsonTree PyNumber)
  distinct : (JsonTree.object fields).Distinct

def PayloadDict.value (payload : PayloadDict) : JsonTree PyNumber := .object payload.fields

def canonicalText (payload : JsonTree PyNumber) : String := String.ofList (dumps payload)

/-- The digest of the canonical text, which is ASCII. -/
def payloadHash (payload : JsonTree PyNumber) : String :=
  String.ofList (Sha256.hexdigest ((dumps payload).map fun c => UInt8.ofNat c.toNat))

/-- The row of a proposal as far as its payload goes. -/
structure PinnedProposal where
  payload : JsonTree Numeric
  payloadHash : Option String

/-- Nothing where the column does not take the payload. -/
def pinProposal (payload : PayloadDict) : Option PinnedProposal :=
  (store? payload.value).map fun stored => ⟨stored, some (payloadHash payload.value)⟩

def integrityCheck (proposal : PinnedProposal) : Except ServiceError Unit :=
  if proposal.payloadHash.any (· ≠ payloadHash (load proposal.payload)) then
    .error (.forbidden "Proposal payload has changed since it was proposed — refusing to apply")
  else .ok ()

theorem integrityCheck_ok_iff {payload : PayloadDict} {proposal : PinnedProposal}
    (h : pinProposal payload = some proposal) : integrityCheck proposal = .ok () ↔
      payloadHash (load proposal.payload) = payloadHash payload.value := by
  obtain ⟨stored, _, rfl⟩ := Option.map_eq_some_iff.mp h
  unfold integrityCheck
  simp only [Option.any_some, ne_eq, decide_not, Bool.not_eq_eq_eq_not, Bool.not_true,
    decide_eq_false_iff_not]
  split <;> simp_all [eq_comm]

/-- A proposal that nobody touched passes its check if and only if its payload has no negative
zero and no float from `1e+16` on; and distinct payloads have distinct canonical texts. -/
theorem untouched_passes_iff {payload : PayloadDict} {proposal : PinnedProposal}
    (h : pinProposal payload = some proposal)
    (hdigest : payloadHash (load proposal.payload) = payloadHash payload.value →
      canonicalText (load proposal.payload) = canonicalText payload.value) :
    (integrityCheck proposal = .ok () ↔ ∀ n ∈ payload.value.numbers, Jsonb.Steady n) ∧
      ∀ v w : JsonTree PyNumber, v.sortKeys JsonTree.codePointLe ≠ w.sortKeys JsonTree.codePointLe →
        canonicalText v ≠ canonicalText w := by
  have htext : ∀ {v w : JsonTree PyNumber}, canonicalText v = canonicalText w ↔
      dumps v = dumps w := String.ofList_inj
  refine ⟨?_, fun v w hne heq => hne (sortKeys_eq_of_dumps (htext.mp heq))⟩
  obtain ⟨stored, hstored, hproposal⟩ := Option.map_eq_some_iff.mp h
  have hsame := dumps_load_iff payload.distinct hstored
  have hpayload : stored = proposal.payload := by rw [← hproposal]
  rw [hpayload] at hsame
  rw [integrityCheck_ok_iff h]
  constructor
  · intro hhash
    exact hsame.mp (htext.mp (hdigest hhash))
  · intro hsteady
    rw [payloadHash, hsame.mpr hsteady]
    rfl

/-- The integrity check is the last of those that an approval makes. -/
theorem checkDecision_eq_integrityCheck (encode : ProposalPayload → JsonTree PyNumber)
    {request : ReviewRequest} {proposal : AgentActionProposal} {row : PinnedProposal}
    (hpayload : encode proposal.payload = load row.payload)
    (hhash : proposal.payloadHash = row.payloadHash)
    (htype : proposal.actionType = request.expectedActionType)
    (hstatus : proposal.status = .proposed)
    (hreviewer : proposal.triggeredBy ≠ some request.currentUser) (happroves : request.approves) :
    letI : PayloadHash := ⟨fun payload => payloadHash (encode payload)⟩
    checkDecision request proposal = integrityCheck row := by
  simp [checkDecision, integrityCheck, htype, hstatus, hreviewer, happroves, hpayload, hhash]

/-! A stock adjustment of five, and one of ten quadrillions. -/

namespace PayloadDict

def adjustment (quantity : Binary64) : PayloadDict where
  fields := [("product_ref", .text "SKU-1"), ("movement_type", .text "adjustment"),
    ("quantity", .number (.float (.finite quantity))), ("reason", .text "correction"),
    ("unit_cost", .null), ("note", .null)]
  distinct := by
    rw [JsonTree.distinct_object]
    exact ⟨by simp, by simp [JsonTree.Distinct, JsonTree.fold]⟩

def five : Binary64 where
  negative := false
  magnitude := 5
  nonneg := by norm_num
  rounded := by decide +kernel
  lt_overflow := by decide +kernel

def tenQuadrillion : Binary64 where
  negative := false
  magnitude := 10 ^ 16
  nonneg := by norm_num
  rounded := Binary64.roundNearest_scientific
  lt_overflow := by decide +kernel

end PayloadDict

open PayloadDict

example : canonicalText (adjustment five).value = "\x7b\"movement_type\": \"adjustment\", " ++
    "\"note\": null, \"product_ref\": \"SKU-1\", \"quantity\": 5.0, " ++
    "\"reason\": \"correction\", \"unit_cost\": null\x7d" := by
  decide +kernel

theorem five_passes : (pinProposal (adjustment five)).map integrityCheck = some (.ok ()) := by
  have hread : (pinProposal (adjustment five)).map (fun row => canonicalText (load row.payload)) =
      some (canonicalText (adjustment five).value) := by
    decide +kernel
  obtain ⟨proposal, hpin, htext⟩ := Option.map_eq_some_iff.mp hread
  have hsteady : ∀ n ∈ (adjustment five).value.numbers, Jsonb.Steady n := by
    rw [show (adjustment five).value.numbers = [.float (.finite five)] from rfl]
    intro n hn
    rw [List.mem_singleton.mp hn]
    exact ⟨by simp [five], by norm_num [five]⟩
  rw [hpin, Option.map_some, (untouched_passes_iff hpin fun _ => htext).1.mpr hsteady]

/-- The column gives back the integer, which is written without an exponent. -/
theorem ten_quadrillion_refused :
    (pinProposal (adjustment tenQuadrillion)).map integrityCheck = some (.error (.forbidden
      "Proposal payload has changed since it was proposed — refusing to apply")) := by
  decide +kernel

end Finguard
