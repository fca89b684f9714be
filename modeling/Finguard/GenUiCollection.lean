import Finguard.Compaction
import Finguard.GenUiFences

/-! Payloads of the user interface in the messages of a session, with and without compaction. -/

namespace Finguard.GenUi
open Compaction Text

def GenUIPayload.key (p : GenUIPayload) : String × String := (p.componentId, p.fallbackText)

/-- The keys that were seen are those of what is collected. -/
def collectFrom (collected payloads : List GenUIPayload) : List GenUIPayload :=
  payloads.foldl (fun collected p =>
    if p.key ∈ collected.map (·.key) then collected else collected ++ [p]) collected

/-- What a node of the graph does to the messages: it answers, or it is the hub writer. -/
inductive SessionStep where
  | node (messages : List HistoryMessage)
  | hubWriter

def SessionStep.messages : SessionStep → List HistoryMessage
  | node messages => messages
  | hubWriter => []

/-- `add_messages` gives each message its place; the hub writer compacts or it does nothing. -/
def sessionStep (compacting : Bool) (h : List HistoryMessage) :
    SessionStep → Except PyException (List HistoryMessage)
  | .node messages => addMessages h (messages.map .put)
  | .hubWriter => if compacting then addMessages h (compactionStep h) else .ok h

def sessionRun (compacting : Bool) (h : List HistoryMessage) (steps : List SessionStep) :
    Except PyException (List HistoryMessage) :=
  steps.foldlM (sessionStep compacting) h

section
variable [JsonLoads]

def payloadsOf (m : HistoryMessage) : List GenUIPayload :=
  match m.content with
  | .text s => (parseGenUiBlocks s).2
  | .parts _ => []

def collectGenUiFromMessages (messages : List HistoryMessage) : List GenUIPayload :=
  messages.foldl (fun collected m => collectFrom collected (payloadsOf m)) []

/-- Of every message that compaction removes or cuts, what is left adds the same to the payloads of
the messages before it. -/
def Harmless (h : List HistoryMessage) : Prop :=
  compactThreshold < h.length → ∀ before m after, h = before ++ m :: after →
    collectFrom (collectGenUiFromMessages before) ((outcome h m).elim [] payloadsOf) =
      collectFrom (collectGenUiFromMessages before) (payloadsOf m)

variable {h h' c p : List HistoryMessage} {m : HistoryMessage} {messages : List HistoryMessage}
  {steps : List SessionStep}

theorem collect_append (h messages : List HistoryMessage) :
    collectGenUiFromMessages (h ++ messages) =
      messages.foldl (fun collected m => collectFrom collected (payloadsOf m))
        (collectGenUiFromMessages h) := List.foldl_append

theorem collect_compacted (hharmless : Harmless h) (hlength : compactThreshold < h.length) :
    collectGenUiFromMessages (compacted h) = collectGenUiFromMessages h := by
  have hbefore : ∀ before after, h = before ++ after →
      collectGenUiFromMessages (before.filterMap (outcome h)) =
        collectGenUiFromMessages before := by
    intro before
    induction before using List.reverseRecOn with
    | nil => exact fun _ _ => rfl
    | append_singleton before m ih =>
      intro after hsplit
      rw [List.append_assoc] at hsplit
      have hm := hharmless hlength before m after hsplit
      rw [List.filterMap_append, collect_append, collect_append, ih _ hsplit, List.foldl_cons,
        List.foldl_nil, ← hm]
      cases hout : outcome h m with
      | none =>
        rw [List.filterMap_cons_none hout]
        rfl
      | some m' =>
        rw [List.filterMap_cons_some hout]
        rfl
  exact hbefore h [] (List.append_nil h).symm

omit [JsonLoads] in
/-- Messages with ids of their own are put at the end. -/
theorem addMessages_put (hfresh : ((h ++ messages).map (·.id)).Nodup) :
    addMessages h (messages.map .put) = .ok (h ++ messages) := by
  induction messages generalizing h with
  | nil =>
    rw [List.append_nil]
    rfl
  | cons m messages ih =>
    have hnew : m.id ∉ h.map (·.id) := by
      intro hmem
      rw [List.map_append, List.nodup_append] at hfresh
      exact hfresh.2.2 m.id hmem m.id (by simp) rfl
    have hput : applyUpdate h (.put m) = .ok (h ++ [m]) := if_neg hnew
    have hrest : ((h ++ [m] ++ messages).map (·.id)).Nodup := by
      rw [List.append_assoc]
      exact hfresh
    rw [List.map_cons, addMessages, List.foldlM_cons, hput]
    have hih := ih hrest
    rw [List.append_assoc] at hih
    exact hih

/-- The run with compaction and the run without it. -/
structure Alike (c p : List HistoryMessage) : Prop where
  ids : (c.map (·.id)).Sublist (p.map (·.id))
  nodup : (p.map (·.id)).Nodup
  collected : collectGenUiFromMessages c = collectGenUiFromMessages p

theorem Alike.node (halike : Alike c p) (hfresh : ((p ++ messages).map (·.id)).Nodup) :
    addMessages c (messages.map .put) = .ok (c ++ messages) ∧
      addMessages p (messages.map .put) = .ok (p ++ messages) ∧
      Alike (c ++ messages) (p ++ messages) := by
  have hids : ((c ++ messages).map (·.id)).Sublist ((p ++ messages).map (·.id)) := by
    rw [List.map_append, List.map_append]
    exact halike.ids.append_right _
  refine ⟨addMessages_put (hfresh.sublist hids), addMessages_put hfresh, hids, hfresh, ?_⟩
  rw [collect_append, collect_append, halike.collected]

theorem Alike.hubWriter (halike : Alike c p) (hharmless : Harmless c) :
    ∃ c', addMessages c (compactionStep c) = .ok c' ∧ Alike c' p := by
  by_cases hlength : compactThreshold < c.length
  · refine ⟨compacted c, ?_, ?_⟩
    · rw [compactionStep, if_pos hlength]
      exact addMessages_compactMessages (halike.nodup.sublist halike.ids)
    · exact ⟨(ids_compacted c).trans halike.ids, halike.nodup,
        (collect_compacted hharmless hlength).trans halike.collected⟩
  · refine ⟨c, ?_, halike⟩
    rw [compactionStep, if_neg hlength]
    rfl

end

section
variable [JsonLoads]

theorem payloadsOf_plain {m : HistoryMessage} {s : String} (hm : m.content = .text s)
    (hs : '`' ∉ s.toList) : payloadsOf m = [] := by
  have hyields : Yields (s.toList ++ []) (s.toList ++ [], []) := Yields.nil.plain hs
  have hparse := parseGenUiBlocks_of_yields hyields
  rw [List.append_nil, String.ofList_toList] at hparse
  rw [payloadsOf, hm]
  exact congrArg Prod.snd hparse

theorem foldl_collect_of_nil {messages : List HistoryMessage}
    (h : ∀ m ∈ messages, payloadsOf m = []) (collected : List GenUIPayload) :
    messages.foldl (fun collected m => collectFrom collected (payloadsOf m)) collected =
      collected := by
  induction messages generalizing collected with
  | nil => rfl
  | cons m messages ih =>
    rw [List.foldl_cons, h m List.mem_cons_self]
    exact ih (fun x hx => h x (List.mem_cons_of_mem _ hx)) collected

end

def question : HistoryMessage := ⟨"1", .human, none, .text "Which invoices are open?"⟩

def routing : List HistoryMessage :=
  ["3", "4", "5", "6", "7", "8", "9", "10", "11", "12"].map fun id =>
    ⟨id, .ai, some "supervisor", .text "Routing"⟩

def invoiceMessage : String :=
  String.ofList (@joined JsonLoads.invoice [@Segment.fence JsonLoads.invoice invoiceFence])

def answer (id content : String) : HistoryMessage := ⟨id, .ai, some "d_forecaster", .text content⟩

theorem payloadsOf_invoiceMessage (id : String) :
    letI := JsonLoads.invoice
    payloadsOf (answer id invoiceMessage) = [⟨"InvoiceCard", [], "Invoice"⟩] := by
  let := JsonLoads.invoice
  have hblank : invoiceFence.blank = false := rfl
  have hcalm : Calm false [.fence invoiceFence] := by
    rw [Calm, hblank]
    trivial
  have hparse := parseGenUiBlocks_of_yields (yields_readFrom hcalm)
  have hpayload : invoiceFence.payload? = some ⟨"InvoiceCard", [], "Invoice"⟩ :=
    readPayload?_invoice
  have hread : (readFrom false [.fence invoiceFence]).2 = [⟨"InvoiceCard", [], "Invoice"⟩] := by
    rw [readFrom, hblank, hpayload]
    rfl
  rw [← hread]
  exact congrArg Prod.snd hparse

theorem payloadsOf_others :
    letI := JsonLoads.invoice
    ∀ m ∈ question :: (routing ++ [answer "2" "Two.", answer "13" "Two."]), payloadsOf m = [] := by
  let := JsonLoads.invoice
  intro m hm
  simp only [routing, List.map_cons, List.map_nil, List.cons_append, List.nil_append,
    List.mem_cons, List.not_mem_nil, or_false] at hm
  rcases hm with rfl | rfl | rfl | rfl | rfl | rfl | rfl | rfl | rfl | rfl | rfl | rfl | rfl <;>
    exact payloadsOf_plain rfl (by decide)

/-- The invoice is in the first answer. -/
def invoiceFirst : List HistoryMessage :=
  answer "2" invoiceMessage :: (routing ++ [answer "13" "Two."])

/-- The invoice is in the last answer. -/
def invoiceLast : List HistoryMessage :=
  answer "2" "Two." :: (routing ++ [answer "13" invoiceMessage])

theorem invoiceLast_harmless :
    letI := JsonLoads.invoice
    Harmless ([question] ++ invoiceLast) := by
  let := JsonLoads.invoice
  intro _ before m after hsplit
  have hsame : ∀ m ∈ [question] ++ invoiceLast,
      outcome ([question] ++ invoiceLast) m = some m ∨ payloadsOf m = [] ∧
        outcome ([question] ++ invoiceLast) m = none := by
    have hshort : isLong (.text invoiceMessage) = false := rfl
    have hlast : outcome ([question] ++ invoiceLast) (answer "13" invoiceMessage) =
        if isLong (.text invoiceMessage) then some (truncated (answer "13" invoiceMessage))
        else some (answer "13" invoiceMessage) := rfl
    rw [hshort] at hlast
    simp only [invoiceLast, routing, List.map_cons, List.map_nil, List.cons_append,
      List.nil_append, List.forall_mem_cons, List.not_mem_nil, IsEmpty.forall_iff, implies_true,
      and_true]
    refine ⟨.inl rfl, .inr ⟨payloadsOf_plain rfl (by decide), rfl⟩, ?_⟩
    exact ⟨.inl rfl, .inl rfl, .inl rfl, .inl rfl, .inl rfl, .inl rfl, .inl rfl, .inl rfl,
      .inl rfl, .inl rfl, .inl hlast⟩
  have hm : m ∈ [question] ++ invoiceLast := by
    rw [hsplit]
    exact List.mem_append_right before List.mem_cons_self
  rcases hsame m hm with hout | ⟨hpayloads, hout⟩
  · rw [hout]
    rfl
  · rw [hout, hpayloads]
    rfl

end Finguard.GenUi
