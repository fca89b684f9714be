import Finguard.Lib.Dict
import Finguard.Model

/-! The flow of billed money: from the source to the status of its invoices, and from there to the
rails on which it was collected. -/

namespace Finguard
open Decimal Dict Groups

inductive SankeyKind where
  | source
  | status
  | rail
deriving DecidableEq

structure SankeyNode where
  name : String
  kind : SankeyKind
deriving DecidableEq

structure SankeyLink where
  source : ℕ
  target : ℕ
  value : ℚ
deriving DecidableEq

structure ReconciliationFlow where
  nodes : List SankeyNode
  links : List SankeyLink
  currency : String
  totalBilled : ℚ
  totalCollected : ℚ
  reconciledTotal : ℚ
deriving DecidableEq

/-! Aggregates, in cents. A group without rows is not reported. -/

structure StatusAggregate where
  status : InvoiceStatus
  total : ℚ
  amountPaid : ℚ

structure RailAggregate where
  status : InvoiceStatus
  vault : VaultType
  amount : ℚ

/-- The statuses but the cancelled one. -/
def reportedStatuses : List InvoiceStatus := [.draft, .sent, .paid, .partiallyPaid, .overdue]

namespace Db

def billedIn (db : Db) (status : InvoiceStatus) : ℤ :=
  db.invoices.total (·.status == status) (·.total.units)

def collectedIn (db : Db) (status : InvoiceStatus) : ℤ :=
  db.invoices.total (·.status == status) (·.amountPaid.units)

/-- The payment went to the vault, for an invoice that has the status now. -/
def settles (db : Db) (status : InvoiceStatus) (vault : VaultType) (payment : Payment) : Bool :=
  payment.vault == vault &&
    (db.invoices.find? (·.id == payment.invoiceId)).any (·.status == status)

def railIn (db : Db) (status : InvoiceStatus) (vault : VaultType) : ℤ :=
  db.payments.total (db.settles status vault) (·.amount.units)

def statusAggregates (db : Db) : List StatusAggregate :=
  (reportedStatuses.filter fun status => db.invoices.rows.any (·.status == status)).map
    fun status => ⟨status, ofUnits 2 (db.billedIn status), ofUnits 2 (db.collectedIn status)⟩

def railAggregates (db : Db) : List RailAggregate :=
  ((reportedStatuses ×ˢ VaultType.all).filter fun g => db.payments.rows.any (db.settles g.1 g.2)).map
    fun g => ⟨g.1, g.2, ofUnits 2 (db.railIn g.1 g.2)⟩

end Db

/-! The diagram. -/

/-- The statuses in the order of the lifecycle. -/
def statusLabels : List (InvoiceStatus × String) :=
  [(.draft, "Draft"), (.sent, "Sent"), (.overdue, "Overdue"), (.partiallyPaid, "Partially Paid"),
    (.paid, "Paid")]

def VaultType.railLabel : VaultType → String
  | mpesa => "M-Pesa"
  | bank => "Bank"
  | cash => "Cash"

def sourceNode : SankeyNode := ⟨"Total Billed", .source⟩

def statusNode (label : String) : SankeyNode := ⟨label, .status⟩

def railNode (label : String) : SankeyNode := ⟨label, .rail⟩

structure Diagram where
  nodes : List SankeyNode
  links : List SankeyLink

/-- An amount with too many digits for two decimals is an invalid operation. -/
def Diagram.link (d : Diagram) (source : ℕ) (target : SankeyNode) (amount : ℚ) : Option Diagram := do
  let (index, nodes) := intern (·.name) target d.nodes
  let value ← quantize? 2 amount
  return ⟨nodes, d.links ++ [⟨source, index, value⟩]⟩

def linkStatus (billedByStatus : List (InvoiceStatus × ℚ)) (sourceIdx : ℕ) (d : Diagram)
    (status : InvoiceStatus × String) : Option Diagram :=
  let amount := (billedByStatus.lookup status.1).getD 0
  if 0 < amount then d.link sourceIdx (statusNode status.2) amount else some d

def linkRails (billedByStatus : List (InvoiceStatus × ℚ))
    (railByStatus : List (InvoiceStatus × List (String × ℚ))) (d : Diagram)
    (status : InvoiceStatus × String) : Option Diagram :=
  if (billedByStatus.lookup status.1).getD 0 ≤ 0 then some d
  else
    let rails := (railByStatus.lookup status.1).getD []
    let (statusIdx, nodes) := intern (·.name) (statusNode status.2) d.nodes
    rails.foldlM (fun d rail => d.link statusIdx (railNode rail.1) rail.2) { d with nodes }

structure RailTotals where
  byStatus : List (InvoiceStatus × List (String × ℚ)) := []
  reconciledTotal : ℚ := 0

def VaultType.reconciled (vault : VaultType) : Bool := vault == mpesa || vault == bank

section
variable [Context]

def RailTotals.record (t : RailTotals) (row : RailAggregate) : RailTotals :=
  if row.amount ≤ 0 then t
  else
    let rails := (t.byStatus.lookup row.status).getD []
    let name := row.vault.railLabel
    { byStatus := set t.byStatus row.status (set rails name (add ((rails.lookup name).getD 0) row.amount))
      reconciledTotal :=
        if row.vault.reconciled then add t.reconciledTotal row.amount else t.reconciledTotal }

/-- The database returns the groups in no particular order. -/
def reconciliationFlow (statusRows : List StatusAggregate) (railRows : List RailAggregate) :
    Option ReconciliationFlow :=
  let billedByStatus := ofPairs (statusRows.map fun row => (row.status, row.total))
  let collectedByStatus := ofPairs (statusRows.map fun row => (row.status, row.amountPaid))
  let totalBilled := (billedByStatus.map Prod.snd).foldl add 0
  let totalCollected := (collectedByStatus.map Prod.snd).foldl add 0
  if totalBilled ≤ 0 then some ⟨[], [], "KES", 0, 0, 0⟩
  else do
    let (sourceIdx, nodes) := intern (·.name) sourceNode []
    let d ← statusLabels.foldlM (linkStatus billedByStatus sourceIdx) ⟨nodes, []⟩
    let rails := railRows.foldl RailTotals.record {}
    let d ← statusLabels.foldlM (linkRails billedByStatus rails.byStatus) d
    let totalBilled ← quantize? 2 totalBilled
    let totalCollected ← quantize? 2 totalCollected
    let reconciledTotal ← quantize? 2 rails.reconciledTotal
    return ⟨d.nodes, d.links, "KES", totalBilled, totalCollected, reconciledTotal⟩

end

/-! What a flow has to conserve. -/

/-- Invoices and payments without negative amounts, where the payments of each invoice are what it
has been paid, and no more than it asks for. -/
structure PaidUp (db : Db) : Prop where
  total_nonneg : ∀ invoice ∈ db.invoices.rows, 0 ≤ invoice.total.units
  amount_nonneg : ∀ payment ∈ db.payments.rows, 0 ≤ payment.amount.units
  backed : ∀ invoice ∈ db.invoices.rows,
    db.payments.total (·.invoiceId == invoice.id) (·.amount.units) = invoice.amountPaid.units
  within : ∀ invoice ∈ db.invoices.rows, invoice.amountPaid.units ≤ invoice.total.units

/-- All that was billed, in cents. -/
def Db.totalBilled (db : Db) : ℤ := db.invoices.total (·.status != .cancelled) (·.total.units)

def Db.totalCollected (db : Db) : ℤ := db.invoices.total (·.status != .cancelled) (·.amountPaid.units)

namespace ReconciliationFlow

/-- What flows out of the nodes that meet a condition. -/
def out (flow : ReconciliationFlow) (p : SankeyNode → Bool) : ℚ :=
  ((flow.links.filter fun link => flow.nodes[link.source]?.any p).map (·.value)).sum

/-- What flows into them. -/
def into (flow : ReconciliationFlow) (p : SankeyNode → Bool) : ℚ :=
  ((flow.links.filter fun link => flow.nodes[link.target]?.any p).map (·.value)).sum

structure Conserves (db : Db) (flow : ReconciliationFlow) : Prop where
  billed : flow.totalBilled = ofUnits 2 db.totalBilled
  collected : flow.totalCollected = ofUnits 2 db.totalCollected
  source : flow.out (·.kind == .source) = flow.totalBilled
  status : ∀ status ∈ statusLabels,
    flow.out (· == statusNode status.2) = ofUnits 2 (db.collectedIn status.1)
  rails : flow.into (·.kind == .rail) = flow.totalCollected
  reconciled : flow.into (fun node => node == railNode "M-Pesa" || node == railNode "Bank") =
    flow.reconciledTotal
  nodes : (flow.nodes.map (·.name)).Nodup
  links : ∀ link ∈ flow.links, link.source ≠ link.target ∧ ∃ source target,
    flow.nodes[link.source]? = some source ∧ flow.nodes[link.target]? = some target ∧
      ((source.kind = .source ∧ target.kind = .status) ∨
        (source.kind = .status ∧ target.kind = .rail))

end ReconciliationFlow

/-! Sums over the store. -/

namespace Db
variable {db : Db} {status : InvoiceStatus} {vault : VaultType} {p : VaultType → Bool}

theorem mem_reportedStatuses (h : status ≠ .cancelled) : status ∈ reportedStatuses := by
  cases status <;> simp_all [reportedStatuses]

theorem sum_reported (f : Invoice → ℤ) :
    (reportedStatuses.map fun status => db.invoices.total (·.status == status) f).sum =
      db.invoices.total (·.status != .cancelled) f := by
  have hgroup : ∀ status ∈ reportedStatuses, db.invoices.total (·.status == status) f =
      (((db.invoices.filter (·.status != .cancelled)).filter (·.status == status)).map f).sum := by
    intro status hstatus
    have hne : status ≠ .cancelled := by
      rintro rfl
      exact absurd hstatus (by decide)
    rw [Table.total, Table.filter, Table.filter, List.filter_filter]
    congr 2
    refine List.filter_congr fun invoice _ => ?_
    by_cases hs : invoice.status = status
    · simp [hs, hne]
    · simp [hs]
  rw [List.map_congr_left hgroup]
  apply sum_groups Invoice.status (by decide)
  intro invoice hinvoice
  have hne := (List.mem_filter.mp hinvoice).2
  exact mem_reportedStatuses (by simpa using hne)

theorem sum_joined (f : Payment → ℤ) :
    db.payments.total
        (fun payment => (db.invoices.find? (·.id == payment.invoiceId)).any (·.status == status)) f =
      ((db.invoices.filter (·.status == status)).map fun invoice =>
        db.payments.total (·.invoiceId == invoice.id) f).sum := by
  have hfind : ∀ {invoice id}, db.invoices.find? (·.id == id) = some invoice ↔
      invoice ∈ db.invoices.rows ∧ invoice.id = id := by
    intro invoice id
    rw [Table.find?_eq_some_iff, beq_iff_eq]
    intro a b ha hb
    rw [beq_iff_eq] at ha hb
    simp [Row.clash, ha, hb]
  have hids : ((db.invoices.filter (·.status == status)).map (·.id)).Nodup := by
    rw [List.Nodup, List.pairwise_map]
    refine (db.invoices.unique.filter _).imp ?_
    intro a b hclash hid
    exact hclash (by simp [Row.clash, hid])
  have hkeys : ∀ payment ∈ db.payments.filter
      (fun payment => (db.invoices.find? (·.id == payment.invoiceId)).any (·.status == status)),
      payment.invoiceId ∈ (db.invoices.filter (·.status == status)).map (·.id) := by
    intro payment hpayment
    obtain ⟨invoice, hinvoice, hstatus⟩ := (Option.any_eq_true _ _).mp (List.mem_filter.mp hpayment).2
    obtain ⟨hmem, hid⟩ := hfind.mp hinvoice
    exact List.mem_map.mpr ⟨invoice, List.mem_filter.mpr ⟨hmem, hstatus⟩, hid⟩
  rw [Table.total, ← sum_groups Payment.invoiceId hids hkeys, List.map_map]
  refine congrArg List.sum (List.map_congr_left fun invoice hinvoice => ?_)
  obtain ⟨hmem, hstatus⟩ := List.mem_filter.mp hinvoice
  simp only [Function.comp, Table.total, Table.filter, List.filter_filter]
  congr 2
  refine List.filter_congr fun payment _ => ?_
  by_cases hid : payment.invoiceId = invoice.id
  · have hfound := hfind.mpr ⟨hmem, hid.symm⟩
    simp [hid, hid ▸ hfound, hstatus]
  · simp [hid]

/-- What was collected in a status on the vaults that meet a condition. -/
def railTotal (db : Db) (status : InvoiceStatus) (p : VaultType → Bool) : ℤ :=
  (VaultType.all.map fun vault => if p vault then db.railIn status vault else 0).sum

theorem railIn_nonneg (h : PaidUp db) : 0 ≤ db.railIn status vault := by
  apply List.sum_nonneg
  intro units hunits
  obtain ⟨payment, hpayment, rfl⟩ := List.mem_map.mp hunits
  exact h.amount_nonneg payment (List.mem_filter.mp hpayment).1

theorem billedIn_nonneg (h : PaidUp db) : 0 ≤ db.billedIn status := by
  apply List.sum_nonneg
  intro units hunits
  obtain ⟨invoice, hinvoice, rfl⟩ := List.mem_map.mp hunits
  exact h.total_nonneg invoice (List.mem_filter.mp hinvoice).1

theorem collectedIn_le (h : PaidUp db) : db.collectedIn status ≤ db.billedIn status := by
  apply List.sum_le_sum
  intro invoice hinvoice
  exact h.within invoice (List.mem_filter.mp hinvoice).1

theorem railTotal_all (h : PaidUp db) :
    db.railTotal status (fun _ => true) = db.collectedIn status := by
  have hvaults : db.railTotal status (fun _ => true) = db.payments.total
      (fun payment => (db.invoices.find? (·.id == payment.invoiceId)).any (·.status == status))
      (·.amount.units) := by
    rw [← Table.total_groups Payment.vault (by decide) (fun payment => payment.vault.mem_all)]
    refine congrArg List.sum (List.map_congr_left fun vault _ => ?_)
    have hsettles : db.settles status vault = fun payment =>
        (db.invoices.find? (·.id == payment.invoiceId)).any (·.status == status) &&
          payment.vault == vault := by
      funext payment
      rw [settles, Bool.and_comm]
    rw [if_pos rfl, railIn, hsettles]
  have hbacked : ∀ invoice ∈ db.invoices.filter (·.status == status),
      db.payments.total (·.invoiceId == invoice.id) (·.amount.units) = invoice.amountPaid.units :=
    fun invoice hinvoice => h.backed invoice (List.mem_filter.mp hinvoice).1
  rw [hvaults, sum_joined, List.map_congr_left hbacked]
  rfl

theorem railTotal_nonneg (h : PaidUp db) : 0 ≤ db.railTotal status p := by
  apply List.sum_nonneg
  intro units hunits
  obtain ⟨vault, -, rfl⟩ := List.mem_map.mp hunits
  split
  · exact railIn_nonneg h
  · exact le_rfl

theorem railTotal_le (h : PaidUp db) : db.railTotal status p ≤ db.collectedIn status := by
  rw [← railTotal_all h]
  apply List.sum_le_sum
  intro vault _
  have hnonneg : 0 ≤ db.railIn status vault := railIn_nonneg h
  by_cases hp : p vault = true
  · simp [hp]
  · simpa [hp] using hnonneg

end Db

/-! The diagram by the names of its nodes. -/

structure Flow where
  source : SankeyNode
  target : SankeyNode
  value : ℚ

def sankeyNodes : List SankeyNode :=
  sourceNode :: statusLabels.map (fun status => statusNode status.2) ++
    VaultType.all.map (fun vault => railNode vault.railLabel)

theorem eq_of_name_eq : ∀ a ∈ sankeyNodes, ∀ b ∈ sankeyNodes, a.name = b.name → a = b := by decide

structure Resolves (nodes : List SankeyNode) (link : SankeyLink) (flow : Flow) : Prop where
  source : nodes[link.source]? = some flow.source
  target : nodes[link.target]? = some flow.target
  value : link.value = flow.value

/-- The links of the diagram are the flows, between nodes that are found by their numbers. -/
structure Draws (d : Diagram) (flows : List Flow) : Prop where
  known : ∀ node ∈ d.nodes, node ∈ sankeyNodes
  nodup : (d.nodes.map (·.name)).Nodup
  links : List.Forall₂ (Resolves d.nodes) d.links flows

section draws
variable {d : Diagram} {flows : List Flow} {nodes nodes' : List SankeyNode} {node : SankeyNode}
  {amount : ℚ}

theorem Resolves.mono {link : SankeyLink} {flow : Flow} (h : Resolves nodes link flow)
    (hextends : nodes <+: nodes') : Resolves nodes' link flow :=
  ⟨getElem?_of_extends hextends h.source, getElem?_of_extends hextends h.target, h.value⟩

theorem Draws.intern (h : Draws d flows) (hnode : node ∈ sankeyNodes) :
    Draws { d with nodes := (intern (·.name) node d.nodes).2 } flows ∧
      (intern (·.name) node d.nodes).2[(intern (·.name) node d.nodes).1]? = some node := by
  refine ⟨⟨?_, nodup_intern h.nodup, ?_⟩, ?_⟩
  · intro other hother
    rcases mem_intern hother with hold | rfl
    · exact h.known other hold
    · exact hnode
  · exact h.links.imp fun _ _ hlink => hlink.mono intern_extends
  · apply getElem?_intern
    intro other hother hname
    exact eq_of_name_eq other (h.known other hother) node hnode hname

theorem Draws.link {source : SankeyNode} {index : ℕ} (h : Draws d flows)
    (hsource : d.nodes[index]? = some source) (hnode : node ∈ sankeyNodes)
    (hamount : quantize? 2 amount = some amount) :
    ∃ d', d.link index node amount = some d' ∧ d.nodes <+: d'.nodes ∧
      Draws d' (flows ++ [⟨source, node, amount⟩]) := by
  obtain ⟨hdraws, htarget⟩ := h.intern hnode
  have hextends : d.nodes <+: (Dict.intern (·.name) node d.nodes).2 := intern_extends
  have hrun : d.link index node amount = some
      ⟨(Dict.intern (·.name) node d.nodes).2,
        d.links ++ [⟨index, (Dict.intern (·.name) node d.nodes).1, amount⟩]⟩ := by
    simp [Diagram.link, hamount]
  have hlast : Resolves (Dict.intern (·.name) node d.nodes).2
      ⟨index, (Dict.intern (·.name) node d.nodes).1, amount⟩ ⟨source, node, amount⟩ :=
    ⟨getElem?_of_extends hextends hsource, htarget, rfl⟩
  refine ⟨_, hrun, hextends, hdraws.known, hdraws.nodup, ?_⟩
  exact List.rel_append hdraws.links (.cons hlast .nil)

/-- A loop that adds the flows of its members one after the other. -/
theorem Draws.foldlM {β : Type} {step : Diagram → β → Option Diagram} {added : β → List Flow}
    {l : List β}
    (hstep : ∀ b ∈ l, ∀ d flows, nodes <+: d.nodes → Draws d flows →
      ∃ d', step d b = some d' ∧ d.nodes <+: d'.nodes ∧ Draws d' (flows ++ added b))
    (h : Draws d flows) (hnodes : nodes <+: d.nodes) :
    ∃ d', l.foldlM step d = some d' ∧ d.nodes <+: d'.nodes ∧
      Draws d' (flows ++ l.flatMap added) := by
  induction l generalizing d flows with
  | nil => exact ⟨d, rfl, List.prefix_rfl, by simpa using h⟩
  | cons b l ih =>
    obtain ⟨d₁, hd₁, hextends, hdraws⟩ := hstep b List.mem_cons_self d flows hnodes h
    obtain ⟨d₂, hd₂, hextends₂, hdraws₂⟩ :=
      ih (fun c hc => hstep c (List.mem_cons_of_mem b hc)) hdraws (hnodes.trans hextends)
    refine ⟨d₂, ?_, hextends.trans hextends₂, ?_⟩
    · rw [List.foldlM_cons, hd₁]
      exact hd₂
    · rwa [List.flatMap_cons, ← List.append_assoc]

theorem Draws.flow_of_link (h : Draws d flows) {link : SankeyLink} (hlink : link ∈ d.links) :
    ∃ flow ∈ flows, Resolves d.nodes link flow := by
  have hlinks := h.links
  clear h
  generalize d.links = links at hlinks hlink
  induction hlinks with
  | nil => cases hlink
  | @cons _ flow _ _ hresolves _ ih =>
    rcases List.mem_cons.mp hlink with rfl | hlink
    · exact ⟨flow, List.mem_cons_self, hresolves⟩
    · obtain ⟨other, hother, hfound⟩ := ih hlink
      exact ⟨other, List.mem_cons_of_mem flow hother, hfound⟩

theorem sum_of_resolves {links : List SankeyLink} (h : List.Forall₂ (Resolves nodes) links flows)
    (p : SankeyNode → Bool) :
    ((links.filter fun link => nodes[link.source]?.any p).map (·.value)).sum =
        (flows.map fun flow => if p flow.source then flow.value else 0).sum ∧
      ((links.filter fun link => nodes[link.target]?.any p).map (·.value)).sum =
        (flows.map fun flow => if p flow.target then flow.value else 0).sum := by
  rw [sum_filter, sum_filter]
  induction h with
  | nil => exact ⟨rfl, rfl⟩
  | cons hlink _ ih =>
    simp only [List.map_cons, List.sum_cons, ih.1, ih.2, hlink.source, hlink.target, hlink.value,
      Option.any_some, and_self]

end draws

def billedFlow (billed : InvoiceStatus → ℚ) (status : InvoiceStatus × String) : List Flow :=
  if 0 < billed status.1 then [⟨sourceNode, statusNode status.2, billed status.1⟩] else []

def railFlows (billed : InvoiceStatus → ℚ) (rails : InvoiceStatus → List (String × ℚ))
    (status : InvoiceStatus × String) : List Flow :=
  if 0 < billed status.1 then
    (rails status.1).map fun rail => ⟨statusNode status.2, railNode rail.1, rail.2⟩
  else []

section stages
variable {billedByStatus : List (InvoiceStatus × ℚ)}
  {railByStatus : List (InvoiceStatus × List (String × ℚ))}
  {billed : InvoiceStatus → ℚ} {rails : InvoiceStatus → List (String × ℚ)}
  {status : InvoiceStatus × String} {d : Diagram} {flows : List Flow}

theorem statusNode_mem (h : status ∈ statusLabels) : statusNode status.2 ∈ sankeyNodes :=
  List.mem_append_left _ (List.mem_cons_of_mem _ (List.mem_map_of_mem (f := fun s => statusNode s.2) h))

theorem railNode_mem (vault : VaultType) : railNode vault.railLabel ∈ sankeyNodes :=
  List.mem_append_right _ (List.mem_map_of_mem (f := fun v => railNode v.railLabel) vault.mem_all)

theorem linkStatus_draws (hbilled : (billedByStatus.lookup status.1).getD 0 = billed status.1)
    (hfits : quantize? 2 (billed status.1) = some (billed status.1)) (hstatus : status ∈ statusLabels)
    (hsource : [sourceNode] <+: d.nodes) (h : Draws d flows) :
    ∃ d', linkStatus billedByStatus 0 d status = some d' ∧ d.nodes <+: d'.nodes ∧
      Draws d' (flows ++ billedFlow billed status) := by
  simp only [linkStatus, hbilled, billedFlow]
  by_cases hpos : 0 < billed status.1
  · rw [if_pos hpos, if_pos hpos]
    exact h.link (getElem?_of_extends hsource rfl) (statusNode_mem hstatus) hfits
  · rw [if_neg hpos, if_neg hpos, List.append_nil]
    exact ⟨d, rfl, List.prefix_rfl, h⟩

theorem linkRails_draws (hbilled : (billedByStatus.lookup status.1).getD 0 = billed status.1)
    (hrails : (railByStatus.lookup status.1).getD [] = rails status.1)
    (hfits : ∀ rail ∈ rails status.1, railNode rail.1 ∈ sankeyNodes ∧
      quantize? 2 rail.2 = some rail.2) (hstatus : status ∈ statusLabels) (h : Draws d flows) :
    ∃ d', linkRails billedByStatus railByStatus d status = some d' ∧ d.nodes <+: d'.nodes ∧
      Draws d' (flows ++ railFlows billed rails status) := by
  simp only [linkRails, hbilled, hrails, railFlows]
  by_cases hpos : 0 < billed status.1
  · rw [if_neg (not_le.mpr hpos), if_pos hpos]
    obtain ⟨hdraws, hindex⟩ := h.intern (statusNode_mem hstatus)
    have hloop : ∀ rail ∈ rails status.1, ∀ e others,
        (intern (·.name) (statusNode status.2) d.nodes).2 <+: e.nodes → Draws e others →
        ∃ e', e.link (intern (·.name) (statusNode status.2) d.nodes).1 (railNode rail.1) rail.2 =
            some e' ∧ e.nodes <+: e'.nodes ∧
          Draws e' (others ++ [⟨statusNode status.2, railNode rail.1, rail.2⟩]) := by
      intro rail hrail e others hextends he
      obtain ⟨hnode, hamount⟩ := hfits rail hrail
      exact he.link (getElem?_of_extends hextends hindex) hnode hamount
    obtain ⟨d', hd', hextends, hdraws'⟩ := hdraws.foldlM hloop List.prefix_rfl
    refine ⟨d', hd', intern_extends.trans hextends, ?_⟩
    rwa [← List.map_eq_flatMap] at hdraws'
  · rw [if_pos (not_lt.mp hpos), if_neg hpos, List.append_nil]
    exact ⟨d, rfl, List.prefix_rfl, h⟩

theorem stages_draw
    (hbilled : ∀ status ∈ statusLabels, (billedByStatus.lookup status.1).getD 0 = billed status.1 ∧
      quantize? 2 (billed status.1) = some (billed status.1))
    (hrails : ∀ status ∈ statusLabels, (railByStatus.lookup status.1).getD [] = rails status.1 ∧
      ∀ rail ∈ rails status.1, railNode rail.1 ∈ sankeyNodes ∧ quantize? 2 rail.2 = some rail.2) :
    ∃ d₁ d₂, statusLabels.foldlM (linkStatus billedByStatus 0) ⟨[sourceNode], []⟩ = some d₁ ∧
      statusLabels.foldlM (linkRails billedByStatus railByStatus) d₁ = some d₂ ∧
      Draws d₂ (statusLabels.flatMap (billedFlow billed) ++
        statusLabels.flatMap (railFlows billed rails)) := by
  have hstart : Draws ⟨[sourceNode], []⟩ [] := ⟨by decide, by decide, .nil⟩
  have hfirst : ∀ status ∈ statusLabels, ∀ d flows, [sourceNode] <+: d.nodes → Draws d flows →
      ∃ d', linkStatus billedByStatus 0 d status = some d' ∧ d.nodes <+: d'.nodes ∧
        Draws d' (flows ++ billedFlow billed status) := by
    intro status hstatus d flows hextends h
    exact linkStatus_draws (hbilled status hstatus).1 (hbilled status hstatus).2 hstatus hextends h
  have hsecond : ∀ status ∈ statusLabels, ∀ d flows, [] <+: d.nodes → Draws d flows →
      ∃ d', linkRails billedByStatus railByStatus d status = some d' ∧ d.nodes <+: d'.nodes ∧
        Draws d' (flows ++ railFlows billed rails status) := by
    intro status hstatus d flows _ h
    exact linkRails_draws (hbilled status hstatus).1 (hrails status hstatus).1
      (hrails status hstatus).2 hstatus h
  obtain ⟨d₁, hd₁, -, hdraws₁⟩ := hstart.foldlM hfirst List.prefix_rfl
  obtain ⟨d₂, hd₂, -, hdraws₂⟩ := hdraws₁.foldlM hsecond List.nil_prefix
  exact ⟨d₁, d₂, hd₁, hd₂, hdraws₂⟩

end stages

/-! The aggregates as the diagram reads them. -/

section aggregates
variable {db : Db} {statusRows : List StatusAggregate} {railRows : List RailAggregate}

/-- The rails of a status, in the order in which the database returned them. -/
def railsOf (railRows : List RailAggregate) (status : InvoiceStatus) : List (String × ℚ) :=
  (railRows.filter fun row => row.status == status && !decide (row.amount ≤ 0)).map
    fun row => (row.vault.railLabel, row.amount)

theorem railLabel_injective : Function.Injective VaultType.railLabel := by
  intro a b h
  revert h
  cases a <;> cases b <;> decide

/-- One group for each status and vault, so that no rail is met twice. -/
theorem record_foldl [Context] (hnodup : (railRows.map fun row => (row.status, row.vault)).Nodup)
    (hexact : ∀ row ∈ railRows, add 0 row.amount = row.amount) :
    (∀ status, ((railRows.foldl RailTotals.record {}).byStatus.lookup status).getD [] =
        railsOf railRows status) ∧
      (railRows.foldl RailTotals.record {}).reconciledTotal =
        ((railRows.filter fun row => row.vault.reconciled && !decide (row.amount ≤ 0)).map
          (·.amount)).foldl add 0 := by
  induction railRows using List.reverseRecOn with
  | nil => exact ⟨fun _ => rfl, rfl⟩
  | append_singleton rows row ih =>
    rw [List.map_append, List.nodup_append] at hnodup
    obtain ⟨hrows, -, hdisjoint⟩ := hnodup
    obtain ⟨hrails, hreconciled⟩ := ih hrows (fun r hr => hexact r (List.mem_append_left _ hr))
    rw [List.foldl_append, List.foldl_cons, List.foldl_nil, RailTotals.record]
    by_cases hamount : row.amount ≤ 0
    · rw [if_pos hamount]
      refine ⟨fun status => ?_, ?_⟩
      · rw [hrails, railsOf, railsOf, List.filter_append]
        simp [hamount]
      · rw [hreconciled, List.filter_append]
        simp [hamount]
    · have hnew : row.vault.railLabel ∉ (railsOf rows row.status).map Prod.fst := by
        intro hmem
        simp only [railsOf, List.map_map, List.mem_map, List.mem_filter, Bool.and_eq_true,
          beq_iff_eq, Function.comp] at hmem
        obtain ⟨other, ⟨hother, hstatus, -⟩, hlabel⟩ := hmem
        have hvault := railLabel_injective hlabel
        have hkey : (other.status, other.vault) = (row.status, row.vault) := by
          rw [hstatus, hvault]
        have hlast : (row.status, row.vault) ∈ [row].map fun row => (row.status, row.vault) := by
          simp
        exact hdisjoint (other.status, other.vault) (List.mem_map_of_mem hother) _ hlast hkey
      have hfresh : (railsOf rows row.status).lookup row.vault.railLabel = none := by
        rw [List.lookup_eq_none_iff]
        intro rail hrail
        have hne : row.vault.railLabel ≠ rail.1 := by
          intro he
          exact hnew (he ▸ List.mem_map_of_mem hrail)
        simpa using hne
      rw [if_neg hamount]
      simp only [hrails, hfresh, Option.getD_none, hexact row (by simp), set_of_not_mem hnew,
        hreconciled]
      refine ⟨fun status => ?_, ?_⟩
      · by_cases hstatus : status = row.status
        · subst hstatus
          rw [lookup_set_self]
          simp [railsOf, List.filter_append, hamount]
        · rw [lookup_set_of_ne hstatus, hrails]
          simp [railsOf, List.filter_append, Ne.symm hstatus]
      · by_cases hrec : row.vault.reconciled = true
        · simp [List.filter_append, hrec, hamount]
        · simp [List.filter_append, hrec]

/-- A dictionary of one column of the status groups. -/
structure Column (db : Db) (value : StatusAggregate → ℚ) (units : InvoiceStatus → ℤ) : Prop where
  exact : ∀ row ∈ db.statusAggregates, value row = ofUnits 2 (units row.status)
  absent : ∀ status, (db.invoices.rows.any (·.status == status)) = false → units status = 0

theorem total_absent {status : InvoiceStatus} (f : Invoice → ℤ)
    (h : (db.invoices.rows.any (·.status == status)) = false) :
    db.invoices.total (·.status == status) f = 0 := by
  have hnone : db.invoices.filter (·.status == status) = [] := by
    rw [Table.filter, List.filter_eq_nil_iff]
    simpa using h
  rw [Table.total, hnone]
  rfl

theorem column_total : Column db (·.total) db.billedIn where
  exact row hrow := by
    obtain ⟨status, -, rfl⟩ := List.mem_map.mp hrow
    rfl
  absent _ h := total_absent _ h

theorem column_amountPaid : Column db (·.amountPaid) db.collectedIn where
  exact row hrow := by
    obtain ⟨status, -, rfl⟩ := List.mem_map.mp hrow
    rfl
  absent _ h := total_absent _ h

section column
variable {value : StatusAggregate → ℚ} {units : InvoiceStatus → ℤ}

theorem nodup_statusRows (hs : statusRows.Perm db.statusAggregates) :
    ((statusRows.map fun row => (row.status, value row)).map Prod.fst).Nodup := by
  have hkeys : db.statusAggregates.map (·.status) =
      reportedStatuses.filter fun status => db.invoices.rows.any (·.status == status) := by
    rw [Db.statusAggregates, List.map_map]
    exact List.map_id _
  have hnodup : (statusRows.map (·.status)).Nodup := by
    rw [(hs.map _).nodup_iff, hkeys]
    exact List.Nodup.filter _ (by decide)
  rwa [List.map_map]

theorem Column.lookup (hc : Column db value units) (hs : statusRows.Perm db.statusAggregates)
    {status : InvoiceStatus} (hstatus : status ∈ reportedStatuses) :
    ((ofPairs (statusRows.map fun row => (row.status, value row))).lookup status).getD 0 =
      ofUnits 2 (units status) := by
  have hnodup : ((statusRows.map fun row => (row.status, value row)).map Prod.fst).Nodup :=
    nodup_statusRows hs
  rw [ofPairs_of_nodup hnodup]
  by_cases hany : db.invoices.rows.any (·.status == status) = true
  · have hmem : (⟨status, ofUnits 2 (db.billedIn status), ofUnits 2 (db.collectedIn status)⟩ :
        StatusAggregate) ∈ db.statusAggregates :=
      List.mem_map.mpr ⟨status, List.mem_filter.mpr ⟨hstatus, hany⟩, rfl⟩
    have hpair := List.mem_map_of_mem (f := fun row => (row.status, value row)) (hs.mem_iff.mpr hmem)
    rw [lookup_of_mem hnodup hpair, Option.getD_some]
    exact hc.exact _ hmem
  · have hnone : (statusRows.map fun row => (row.status, value row)).lookup status = none := by
      rw [List.lookup_eq_none_iff]
      intro pair hpair
      obtain ⟨row, hrow, rfl⟩ := List.mem_map.mp hpair
      obtain ⟨other, hother, rfl⟩ := List.mem_map.mp (hs.mem_iff.mp hrow)
      have hne : status ≠ other := by
        rintro rfl
        exact hany (List.mem_filter.mp hother).2
      simpa using hne
    rw [hnone, hc.absent status (by simpa using hany)]
    simp

theorem Column.values (hc : Column db value units) (hs : statusRows.Perm db.statusAggregates) :
    (ofPairs (statusRows.map fun row => (row.status, value row))).map Prod.snd =
        (statusRows.map fun row => units row.status).map (ofUnits 2) ∧
      (statusRows.map fun row => units row.status).sum = (reportedStatuses.map units).sum := by
  constructor
  · rw [ofPairs_of_nodup (nodup_statusRows hs), List.map_map, List.map_map]
    refine List.map_congr_left fun row hrow => ?_
    exact hc.exact row (hs.mem_iff.mp hrow)
  · rw [(hs.map _).sum_eq, Db.statusAggregates, List.map_map]
    have hid : ((fun row : StatusAggregate => units row.status) ∘ fun status =>
        ⟨status, ofUnits 2 (db.billedIn status), ofUnits 2 (db.collectedIn status)⟩) = units := rfl
    rw [hid, sum_filter]
    refine congrArg List.sum (List.map_congr_left fun status _ => ?_)
    by_cases hany : db.invoices.rows.any (·.status == status) = true
    · rw [if_pos hany]
    · rw [if_neg hany, hc.absent status (by simpa using hany)]

end column

theorem amount_of_railRows (hr : railRows.Perm db.railAggregates) :
    ∀ row ∈ railRows, row.amount = ofUnits 2 (db.railIn row.status row.vault) := by
  intro row hrow
  obtain ⟨g, -, rfl⟩ := List.mem_map.mp (hr.mem_iff.mp hrow)
  rfl

theorem nodup_railRows (hr : railRows.Perm db.railAggregates) :
    (railRows.map fun row => (row.status, row.vault)).Nodup := by
  have hkeys : db.railAggregates.map (fun row => (row.status, row.vault)) =
      (reportedStatuses ×ˢ VaultType.all).filter
        fun g => db.payments.rows.any (db.settles g.1 g.2) := by
    rw [Db.railAggregates, List.map_map]
    exact List.map_id _
  rw [(hr.map _).nodup_iff, hkeys]
  exact List.Nodup.filter _ (by decide)

/-- Groups without rows and groups without money add nothing. -/
theorem rail_units (h : PaidUp db) (hr : railRows.Perm db.railAggregates)
    (p : InvoiceStatus → VaultType → Bool) :
    ((railRows.filter fun row => p row.status row.vault && !decide (row.amount ≤ 0)).map
        fun row => db.railIn row.status row.vault).sum =
      (reportedStatuses.map fun status => db.railTotal status (p status)).sum := by
  have hgroup : ∀ g : InvoiceStatus × VaultType,
      (if db.payments.rows.any (db.settles g.1 g.2) then
        if p g.1 g.2 && !decide (ofUnits 2 (db.railIn g.1 g.2) ≤ 0) then db.railIn g.1 g.2 else 0
      else 0) = if p g.1 g.2 then db.railIn g.1 g.2 else 0 := by
    intro g
    have hnonneg : 0 ≤ db.railIn g.1 g.2 := Db.railIn_nonneg h
    by_cases hany : db.payments.rows.any (db.settles g.1 g.2) = true
    · rw [if_pos hany]
      by_cases hp : p g.1 g.2 = true
      · by_cases hzero : db.railIn g.1 g.2 ≤ 0
        · have heq : db.railIn g.1 g.2 = 0 := by omega
          simp [heq]
        · simp [hp, hzero]
      · simp [hp]
    · have hnone : db.payments.filter (db.settles g.1 g.2) = [] := by
        rw [Table.filter, List.filter_eq_nil_iff]
        simpa using hany
      have heq : db.railIn g.1 g.2 = 0 := by
        rw [Db.railIn, Table.total, hnone]
        rfl
      simp [heq]
  rw [((hr.filter _).map _).sum_eq, sum_filter, Db.railAggregates, List.map_map, sum_filter]
  simp only [Function.comp, hgroup]
  have hproduct : reportedStatuses ×ˢ VaultType.all =
      reportedStatuses.flatMap fun status => VaultType.all.map (Prod.mk status) := rfl
  rw [hproduct, sum_flatMap]
  refine congrArg List.sum (List.map_congr_left fun status _ => ?_)
  rw [List.map_map]
  rfl

theorem sum_railsOf (h : PaidUp db) (hr : railRows.Perm db.railAggregates) {status : InvoiceStatus}
    (hstatus : status ∈ reportedStatuses) (q : String → Bool) :
    ((railsOf railRows status).map fun rail => if q rail.1 then rail.2 else 0).sum =
      ofUnits 2 (db.railTotal status fun vault => q vault.railLabel) := by
  have hrows : ((railsOf railRows status).map fun rail => if q rail.1 then rail.2 else 0).sum =
      ((railRows.filter fun row => (row.status == status && q row.vault.railLabel) &&
        !decide (row.amount ≤ 0)).map (·.amount)).sum := by
    rw [railsOf, List.map_map, sum_filter, sum_filter]
    refine congrArg List.sum (List.map_congr_left fun row _ => ?_)
    by_cases hs : row.status = status <;> by_cases hq : q row.vault.railLabel = true <;>
      by_cases ha : row.amount ≤ 0 <;> simp [hs, hq, ha]
  have hunits : ((railRows.filter fun row => (row.status == status && q row.vault.railLabel) &&
        !decide (row.amount ≤ 0)).map (·.amount)) =
      ((railRows.filter fun row => (row.status == status && q row.vault.railLabel) &&
        !decide (row.amount ≤ 0)).map fun row => db.railIn row.status row.vault).map (ofUnits 2) := by
    rw [List.map_map]
    refine List.map_congr_left fun row hrow => ?_
    exact amount_of_railRows hr row (List.mem_filter.mp hrow).1
  have hother : ∀ other ≠ status, other ∈ reportedStatuses →
      db.railTotal other (fun vault => other == status && q vault.railLabel) = 0 := by
    intro other hne _
    have hfalse : (other == status) = false := by simpa using hne
    simp [Db.railTotal, hfalse]
  rw [hrows, hunits, ofUnits_sum,
    rail_units h hr fun other vault => other == status && q vault.railLabel,
    List.sum_map_eq_nsmul_single status _ hother, List.count_eq_one_of_mem (by decide) hstatus,
    one_nsmul]
  simp

end aggregates

/-! The sums of the flows. -/

section sums
variable {db : Db} {railRows : List RailAggregate} {status : InvoiceStatus × String}

def billedOf (db : Db) (status : InvoiceStatus) : ℚ := ofUnits 2 (db.billedIn status)

def flows (db : Db) (railRows : List RailAggregate) : List Flow :=
  statusLabels.flatMap (billedFlow (billedOf db)) ++
    statusLabels.flatMap (railFlows (billedOf db) (railsOf railRows))

theorem reported_of_label (h : status ∈ statusLabels) : status.1 ∈ reportedStatuses := by
  revert status
  decide

theorem sum_statusLabels {M : Type} [AddCommMonoid M] (f : InvoiceStatus → M) :
    (statusLabels.map fun status => f status.1).sum = (reportedStatuses.map f).sum := by
  have hperm : (statusLabels.map Prod.fst).Perm reportedStatuses := by decide
  rw [← (hperm.map f).sum_eq, List.map_map]
  rfl

theorem sum_billedFlow (h : PaidUp db) (f : Flow → Bool) :
    ((billedFlow (billedOf db) status).map fun flow => if f flow then flow.value else 0).sum =
      if f ⟨sourceNode, statusNode status.2, billedOf db status.1⟩ then billedOf db status.1 else 0 := by
  have hnonneg : 0 ≤ billedOf db status.1 := ofUnits_nonneg.mpr (Db.billedIn_nonneg h)
  by_cases hpos : 0 < billedOf db status.1
  · rw [billedFlow, if_pos hpos]
    simp
  · have hzero : billedOf db status.1 = 0 := le_antisymm (not_lt.mp hpos) hnonneg
    simp [billedFlow, hzero]

theorem railTotal_of_not_billed (h : PaidUp db) (hbilled : ¬ 0 < billedOf db status.1)
    (p : VaultType → Bool) : db.railTotal status.1 p = 0 := by
  have hle : db.billedIn status.1 ≤ 0 := ofUnits_nonpos.mp (not_lt.mp hbilled)
  have hcollected : db.collectedIn status.1 ≤ db.billedIn status.1 := Db.collectedIn_le h
  have htotal : db.railTotal status.1 p ≤ db.collectedIn status.1 := Db.railTotal_le h
  have hnonneg : 0 ≤ db.railTotal status.1 p := Db.railTotal_nonneg h
  omega

theorem sum_railFlows (h : PaidUp db) (hr : railRows.Perm db.railAggregates)
    (hstatus : status ∈ statusLabels) (q : String → Bool) {f : Flow → Bool}
    (hf : ∀ rail : String × ℚ, f ⟨statusNode status.2, railNode rail.1, rail.2⟩ = q rail.1) :
    ((railFlows (billedOf db) (railsOf railRows) status).map
        fun flow => if f flow then flow.value else 0).sum =
      ofUnits 2 (db.railTotal status.1 fun vault => q vault.railLabel) := by
  by_cases hpos : 0 < billedOf db status.1
  · rw [railFlows, if_pos hpos, List.map_map, ← sum_railsOf h hr (reported_of_label hstatus)]
    refine congrArg List.sum (List.map_congr_left fun rail _ => ?_)
    simp only [Function.comp, hf]
  · rw [railFlows, if_neg hpos, railTotal_of_not_billed h hpos]
    simp

theorem sum_source (h : PaidUp db) (hr : railRows.Perm db.railAggregates) (p : SankeyNode → Bool) :
    ((flows db railRows).map fun flow => if p flow.source then flow.value else 0).sum =
      (if p sourceNode then ofUnits 2 db.totalBilled else 0) +
        (statusLabels.map fun status =>
          if p (statusNode status.2) then ofUnits 2 (db.collectedIn status.1) else 0).sum := by
  rw [flows, List.map_append, List.sum_append, sum_flatMap, sum_flatMap]
  congr 1
  · simp only [sum_billedFlow h (fun flow => p flow.source)]
    by_cases hp : p sourceNode = true
    · simp only [hp, if_true]
      rw [sum_statusLabels (billedOf db), Db.totalBilled, ← Db.sum_reported, ← ofUnits_sum,
        List.map_map]
      rfl
    · simp [hp]
  · refine congrArg List.sum (List.map_congr_left fun status hstatus => ?_)
    rw [sum_railFlows h hr hstatus (fun _ => p (statusNode status.2)) (fun _ => rfl)]
    by_cases hp : p (statusNode status.2) = true
    · rw [if_pos hp, ← Db.railTotal_all h]
      simp only [hp]
    · simp [hp, Db.railTotal]

theorem sum_target (h : PaidUp db) (hr : railRows.Perm db.railAggregates) {p : SankeyNode → Bool}
    (hp : ∀ label, p (statusNode label) = false) :
    ((flows db railRows).map fun flow => if p flow.target then flow.value else 0).sum =
      ofUnits 2 (reportedStatuses.map fun status =>
        db.railTotal status fun vault => p (railNode vault.railLabel)).sum := by
  rw [flows, List.map_append, List.sum_append, sum_flatMap, sum_flatMap]
  have hbilled : (statusLabels.map fun status => ((billedFlow (billedOf db) status).map
      fun flow => if p flow.target then flow.value else 0).sum).sum = 0 := by
    simp only [sum_billedFlow h (fun flow => p flow.target), hp]
    simp
  rw [hbilled, zero_add, ← ofUnits_sum, List.map_map, ← sum_statusLabels]
  refine congrArg List.sum (List.map_congr_left fun status hstatus => ?_)
  exact sum_railFlows h hr hstatus (fun label => p (railNode label)) (fun _ => rfl)

end sums

section conservation
variable {db : Db} {statusRows : List StatusAggregate} {railRows : List RailAggregate}

/-- What the reconciled rails have collected, in cents. -/
def Db.reconciledTotal (db : Db) : ℤ :=
  (reportedStatuses.map fun status => db.railTotal status VaultType.reconciled).sum

theorem totalBilled_nonneg (h : PaidUp db) : 0 ≤ db.totalBilled := by
  rw [Db.totalBilled, ← Db.sum_reported]
  apply List.sum_nonneg
  intro units hunits
  obtain ⟨status, -, rfl⟩ := List.mem_map.mp hunits
  exact Db.billedIn_nonneg h

theorem billedIn_le_totalBilled (h : PaidUp db) {status : InvoiceStatus}
    (hstatus : status ∈ reportedStatuses) : db.billedIn status ≤ db.totalBilled := by
  rw [Db.totalBilled, ← Db.sum_reported]
  apply List.single_le_sum _ _ (List.mem_map_of_mem hstatus)
  intro units hunits
  obtain ⟨other, -, rfl⟩ := List.mem_map.mp hunits
  exact Db.billedIn_nonneg h

theorem totalCollected_eq (h : PaidUp db) : db.totalCollected =
    (reportedStatuses.map fun status => db.railTotal status fun _ => true).sum := by
  rw [Db.totalCollected, ← Db.sum_reported]
  refine congrArg List.sum (List.map_congr_left fun status _ => ?_)
  exact (Db.railTotal_all h).symm

theorem totalCollected_le (h : PaidUp db) : db.totalCollected ≤ db.totalBilled := by
  rw [Db.totalCollected, Db.totalBilled, ← Db.sum_reported, ← Db.sum_reported]
  exact List.sum_le_sum fun status _ => Db.collectedIn_le h

theorem totalCollected_nonneg (h : PaidUp db) : 0 ≤ db.totalCollected := by
  rw [totalCollected_eq h]
  apply List.sum_nonneg
  intro units hunits
  obtain ⟨status, -, rfl⟩ := List.mem_map.mp hunits
  exact Db.railTotal_nonneg h

theorem reconciledTotal_le (h : PaidUp db) : db.reconciledTotal ≤ db.totalCollected := by
  rw [totalCollected_eq h, Db.reconciledTotal]
  refine List.sum_le_sum fun status _ => ?_
  rw [Db.railTotal_all h]
  exact Db.railTotal_le h

theorem railIn_le_totalBilled (h : PaidUp db) {status : InvoiceStatus}
    (hstatus : status ∈ reportedStatuses) (vault : VaultType) :
    db.railIn status vault ≤ db.totalBilled := by
  have hone : db.railIn status vault = db.railTotal status fun other => other == vault := by
    cases vault <;> simp [Db.railTotal, VaultType.all]
  calc db.railIn status vault = db.railTotal status fun other => other == vault := hone
    _ ≤ db.collectedIn status := Db.railTotal_le h
    _ ≤ db.billedIn status := Db.collectedIn_le h
    _ ≤ db.totalBilled := billedIn_le_totalBilled h hstatus

theorem Draws.out_eq (h : PaidUp db) (hr : railRows.Perm db.railAggregates) {d : Diagram}
    (hdraws : Draws d (flows db railRows)) {flow : ReconciliationFlow} (hnodes : flow.nodes = d.nodes)
    (hlinks : flow.links = d.links) (p : SankeyNode → Bool) :
    flow.out p = (if p sourceNode then ofUnits 2 db.totalBilled else 0) +
      (statusLabels.map fun status =>
        if p (statusNode status.2) then ofUnits 2 (db.collectedIn status.1) else 0).sum := by
  rw [ReconciliationFlow.out, hnodes, hlinks, (sum_of_resolves hdraws.links p).1,
    sum_source h hr p]

theorem Draws.into_eq (h : PaidUp db) (hr : railRows.Perm db.railAggregates) {d : Diagram}
    (hdraws : Draws d (flows db railRows)) {flow : ReconciliationFlow} (hnodes : flow.nodes = d.nodes)
    (hlinks : flow.links = d.links) {p : SankeyNode → Bool}
    (hp : ∀ label, p (statusNode label) = false) :
    flow.into p = ofUnits 2 (reportedStatuses.map fun status =>
      db.railTotal status fun vault => p (railNode vault.railLabel)).sum := by
  rw [ReconciliationFlow.into, hnodes, hlinks, (sum_of_resolves hdraws.links p).2,
    sum_target h hr hp]

/-- A drawn diagram conserves the flow, whatever order the groups came in. -/
theorem Draws.conserves (h : PaidUp db) (hr : railRows.Perm db.railAggregates) {d : Diagram}
    (hdraws : Draws d (flows db railRows)) :
    (⟨d.nodes, d.links, "KES", ofUnits 2 db.totalBilled, ofUnits 2 db.totalCollected,
      ofUnits 2 db.reconciledTotal⟩ : ReconciliationFlow).Conserves db where
  billed := rfl
  collected := rfl
  source := by
    rw [hdraws.out_eq h hr rfl rfl]
    simp [sourceNode, statusNode]
  status status hstatus := by
    rw [hdraws.out_eq h hr rfl rfl]
    have hsource : (sourceNode == statusNode status.2) = false := by
      simp [sourceNode, statusNode]
    have hother : ∀ other ≠ status, other ∈ statusLabels →
        (if statusNode other.2 == statusNode status.2 then ofUnits 2 (db.collectedIn other.1)
          else 0) = 0 := by
      intro other hne hmem
      have hlabel : ∀ a ∈ statusLabels, ∀ b ∈ statusLabels, a.2 = b.2 → a = b := by decide
      rw [if_neg]
      simp only [statusNode, beq_iff_eq, SankeyNode.mk.injEq, and_true]
      exact fun he => hne (hlabel other hmem status hstatus he)
    have hcount : @List.count _ instBEqOfDecidableEq status statusLabels = 1 :=
      @List.count_eq_one_of_mem _ instBEqOfDecidableEq _ _ _ (by decide) hstatus
    rw [hsource, List.sum_map_eq_nsmul_single status _ hother, hcount]
    simp
  rails := by
    rw [hdraws.into_eq h hr rfl rfl (fun _ => rfl), totalCollected_eq h]
    rfl
  reconciled := by
    have hrail : ∀ vault : VaultType, (railNode vault.railLabel == railNode "M-Pesa" ||
        railNode vault.railLabel == railNode "Bank") = vault.reconciled := by
      intro vault
      cases vault <;> decide
    have hstatus : ∀ label, (statusNode label == railNode "M-Pesa" ||
        statusNode label == railNode "Bank") = false := by
      intro label
      simp [statusNode, railNode]
    rw [hdraws.into_eq h hr rfl rfl hstatus]
    simp only [hrail]
    rfl
  nodes := hdraws.nodup
  links := by
    intro link hlink
    obtain ⟨flow, hflow, hresolves⟩ := hdraws.flow_of_link hlink
    have hkinds : flow.source.kind = .source ∧ flow.target.kind = .status ∨
        flow.source.kind = .status ∧ flow.target.kind = .rail := by
      simp only [flows, List.mem_append, List.mem_flatMap] at hflow
      rcases hflow with ⟨status, -, hflow⟩ | ⟨status, -, hflow⟩
      · unfold billedFlow at hflow
        split at hflow
        · obtain rfl := List.mem_singleton.mp hflow
          exact .inl ⟨rfl, rfl⟩
        · cases hflow
      · unfold railFlows at hflow
        split at hflow
        · obtain ⟨rail, -, rfl⟩ := List.mem_map.mp hflow
          exact .inr ⟨rfl, rfl⟩
        · cases hflow
    refine ⟨?_, flow.source, flow.target, hresolves.source, hresolves.target, hkinds⟩
    intro he
    have hsame := hresolves.source
    rw [he, hresolves.target, Option.some.injEq] at hsame
    rcases hkinds with ⟨hsource, htarget⟩ | ⟨hsource, htarget⟩ <;>
      rw [hsame, hsource] at htarget <;> cases htarget

section
variable [Context]

/-- The sum of a column, as the code takes it and rounds it to cents. -/
theorem Column.quantize? {value : StatusAggregate → ℚ} {units : InvoiceStatus → ℤ}
    (hc : Column db value units) (hs : statusRows.Perm db.statusAggregates)
    (hnonneg : ∀ status, 0 ≤ units status) :
    Decimal.quantize? 2
        (((ofPairs (statusRows.map fun row => (row.status, value row))).map Prod.snd).foldl add 0) =
      if (reportedStatuses.map units).sum < 10 ^ 28 then
        some (ofUnits 2 (reportedStatuses.map units).sum)
      else none := by
  obtain ⟨hvalues, hsum⟩ := hc.values hs
  rw [hvalues, ← hsum]
  apply quantize?_foldl_add
  intro u hu
  obtain ⟨row, -, rfl⟩ := List.mem_map.mp hu
  exact hnonneg row.status

theorem Column.foldl_pos {value : StatusAggregate → ℚ} {units : InvoiceStatus → ℤ}
    (hc : Column db value units) (hs : statusRows.Perm db.statusAggregates)
    (hnonneg : ∀ status, 0 ≤ units status) :
    0 < ((ofPairs (statusRows.map fun row => (row.status, value row))).map Prod.snd).foldl add 0 ↔
      0 < (reportedStatuses.map units).sum := by
  obtain ⟨hvalues, hsum⟩ := hc.values hs
  rw [hvalues, ← hsum]
  apply foldl_add_pos_iff
  intro u hu
  obtain ⟨row, -, rfl⟩ := List.mem_map.mp hu
  exact hnonneg row.status

omit [Context] in
theorem reported_of_railRows (hr : railRows.Perm db.railAggregates) {row : RailAggregate}
    (hrow : row ∈ railRows) : row.status ∈ reportedStatuses := by
  obtain ⟨g, hg, rfl⟩ := List.mem_map.mp (hr.mem_iff.mp hrow)
  exact (List.mem_product.mp (List.mem_filter.mp hg).1).1

theorem quantize?_amount (h : PaidUp db) (hr : railRows.Perm db.railAggregates)
    (hfits : db.totalBilled < 10 ^ 28) {row : RailAggregate} (hrow : row ∈ railRows) :
    Decimal.quantize? 2 row.amount = some row.amount ∧ add 0 row.amount = row.amount := by
  have hle := railIn_le_totalBilled h (reported_of_railRows hr hrow) row.vault
  have hnonneg : 0 ≤ db.railIn row.status row.vault := Db.railIn_nonneg h
  have hzero : (0 : ℚ) = ofUnits 2 0 := (ofUnits_zero 2).symm
  rw [amount_of_railRows hr row hrow]
  refine ⟨quantize?_ofUnits (by omega), ?_⟩
  rw [hzero, add_ofUnits (by omega), zero_add]

theorem quantize?_reconciled (h : PaidUp db) (hr : railRows.Perm db.railAggregates)
    (hfits : db.totalBilled < 10 ^ 28) :
    Decimal.quantize? 2 (railRows.foldl RailTotals.record {}).reconciledTotal =
      some (ofUnits 2 db.reconciledTotal) := by
  have hamounts : ((railRows.filter fun row => row.vault.reconciled && !decide (row.amount ≤ 0)).map
      (·.amount)) = ((railRows.filter fun row => row.vault.reconciled &&
        !decide (row.amount ≤ 0)).map fun row => db.railIn row.status row.vault).map (ofUnits 2) := by
    rw [List.map_map]
    refine List.map_congr_left fun row hrow => ?_
    exact amount_of_railRows hr row (List.mem_filter.mp hrow).1
  have hunits := rail_units h hr fun _ vault => vault.reconciled
  have hlt : db.reconciledTotal < 10 ^ 28 :=
    lt_of_le_of_lt ((reconciledTotal_le h).trans (totalCollected_le h)) hfits
  rw [(record_foldl (nodup_railRows hr) fun row hrow => (quantize?_amount h hr hfits hrow).2).2,
    hamounts, quantize?_foldl_add, hunits]
  · exact if_pos hlt
  · intro u hu
    obtain ⟨row, -, rfl⟩ := List.mem_map.mp hu
    exact Db.railIn_nonneg h

/-- The flow that is returned where the billed total has at most twenty-eight digits. -/
theorem reconciliationFlow_eq (h : PaidUp db) (hs : statusRows.Perm db.statusAggregates)
    (hr : railRows.Perm db.railAggregates) (hpos : 0 < db.totalBilled)
    (hfits : db.totalBilled < 10 ^ 28) :
    ∃ d, Draws d (flows db railRows) ∧ reconciliationFlow statusRows railRows =
      some ⟨d.nodes, d.links, "KES", ofUnits 2 db.totalBilled, ofUnits 2 db.totalCollected,
        ofUnits 2 db.reconciledTotal⟩ := by
  have hbilledSum : (reportedStatuses.map db.billedIn).sum = db.totalBilled :=
    Db.sum_reported fun invoice => invoice.total.units
  have hcollectedSum : (reportedStatuses.map db.collectedIn).sum = db.totalCollected :=
    Db.sum_reported fun invoice => invoice.amountPaid.units
  have hbilledTotal := column_total.quantize? hs fun _ => Db.billedIn_nonneg h
  have hcollectedTotal := column_amountPaid.quantize? hs fun status => by
    rw [← Db.railTotal_all h]
    exact Db.railTotal_nonneg h
  rw [hbilledSum, if_pos hfits] at hbilledTotal
  rw [hcollectedSum, if_pos (lt_of_le_of_lt (totalCollected_le h) hfits)] at hcollectedTotal
  have hsome := (column_total.foldl_pos hs fun _ => Db.billedIn_nonneg h).mpr (by rwa [hbilledSum])
  have hrecorded := record_foldl (nodup_railRows hr) fun row hrow =>
    (quantize?_amount h hr hfits hrow).2
  obtain ⟨d₁, d, hfirst, hsecond, hdraws⟩ := @stages_draw
    (ofPairs (statusRows.map fun row => (row.status, row.total)))
    (railRows.foldl RailTotals.record {}).byStatus (billedOf db) (railsOf railRows)
    (fun status hstatus => by
      have hreported := reported_of_label hstatus
      have hle := billedIn_le_totalBilled h hreported
      have hnonneg : 0 ≤ db.billedIn status.1 := Db.billedIn_nonneg h
      exact ⟨column_total.lookup hs hreported, quantize?_ofUnits (by omega)⟩)
    (fun status _ => by
      refine ⟨hrecorded.1 status.1, ?_⟩
      intro rail hrail
      obtain ⟨row, hrow, rfl⟩ := List.mem_map.mp hrail
      exact ⟨railNode_mem row.vault,
        (quantize?_amount h hr hfits (List.mem_filter.mp hrow).1).1⟩)
  refine ⟨d, hdraws, ?_⟩
  have hstart : intern (·.name) sourceNode [] = (0, [sourceNode]) := rfl
  simp only [reconciliationFlow, if_neg (not_le.mpr hsome), hstart]
  rw [hfirst, Option.bind_eq_bind, Option.bind_some, hsecond, Option.bind_eq_bind, Option.bind_some,
    hbilledTotal, hcollectedTotal, quantize?_reconciled h hr hfits]
  rfl

theorem totalBilled_lt_of_some (h : PaidUp db) (hs : statusRows.Perm db.statusAggregates)
    (hsome : (reconciliationFlow statusRows railRows).isSome) : db.totalBilled < 10 ^ 28 := by
  have hbilledSum : (reportedStatuses.map db.billedIn).sum = db.totalBilled :=
    Db.sum_reported fun invoice => invoice.total.units
  have hbilledTotal := column_total.quantize? hs fun _ => Db.billedIn_nonneg h
  have hpos := column_total.foldl_pos hs fun _ => Db.billedIn_nonneg h
  rw [hbilledSum] at hbilledTotal hpos
  by_contra hlarge
  rw [if_neg hlarge] at hbilledTotal
  have hnot := not_le.mpr (hpos.mpr (by omega))
  obtain ⟨flow, hflow⟩ := Option.isSome_iff_exists.mp hsome
  simp only [reconciliationFlow, if_neg hnot, hbilledTotal, Option.bind_eq_bind,
    Option.bind_eq_some_iff] at hflow
  obtain ⟨_, _, _, _, _, hnone, _⟩ := hflow
  cases hnone

/-- Every flow that is returned conserves what was billed and collected, and one is returned unless
the total has too many digits. -/
theorem reconciliation_flow_conserves (h : PaidUp db) (hs : statusRows.Perm db.statusAggregates)
    (hr : railRows.Perm db.railAggregates) :
    (∀ flow, reconciliationFlow statusRows railRows = some flow → flow.Conserves db) ∧
      ((reconciliationFlow statusRows railRows).isSome ↔ db.totalBilled < 10 ^ 28) := by
  by_cases hpos : 0 < db.totalBilled
  · constructor
    · intro flow hflow
      have hsome : (reconciliationFlow statusRows railRows).isSome := by
        rw [hflow]
        rfl
      have hfits := totalBilled_lt_of_some h hs hsome
      obtain ⟨d, hdraws, heq⟩ := reconciliationFlow_eq h hs hr hpos hfits
      rw [heq, Option.some.injEq] at hflow
      rw [← hflow]
      exact hdraws.conserves h hr
    · constructor
      · exact totalBilled_lt_of_some h hs
      · intro hfits
        obtain ⟨d, -, heq⟩ := reconciliationFlow_eq h hs hr hpos hfits
        rw [heq]
        rfl
  · -- nothing was billed, and so nothing was collected either
    have hbilledSum : (reportedStatuses.map db.billedIn).sum = db.totalBilled :=
      Db.sum_reported fun invoice => invoice.total.units
    have hfold := column_total.foldl_pos hs fun _ => Db.billedIn_nonneg h
    rw [hbilledSum] at hfold
    have hempty : reconciliationFlow statusRows railRows = some ⟨[], [], "KES", 0, 0, 0⟩ := by
      rw [reconciliationFlow]
      exact if_pos (not_lt.mp (fun hlt => hpos (hfold.mp hlt)))
    have hbilled : db.totalBilled = 0 := le_antisymm (not_lt.mp hpos) (totalBilled_nonneg h)
    have hcollected : db.totalCollected = 0 :=
      le_antisymm (hbilled ▸ totalCollected_le h) (totalCollected_nonneg h)
    have hnothing : ∀ status ∈ reportedStatuses, db.collectedIn status = 0 := by
      intro status hstatus
      have hle := billedIn_le_totalBilled h hstatus
      have hcollectedIn : db.collectedIn status ≤ db.billedIn status := Db.collectedIn_le h
      have hnonneg : 0 ≤ db.railTotal status fun _ => true := Db.railTotal_nonneg h
      rw [Db.railTotal_all h] at hnonneg
      omega
    refine ⟨?_, by rw [hempty, hbilled]; decide⟩
    intro flow hflow
    rw [hempty, Option.some.injEq] at hflow
    subst hflow
    exact {
      billed := by simp [hbilled]
      collected := by simp [hcollected]
      source := rfl
      status := fun status hstatus => by
        rw [hnothing status.1 (reported_of_label hstatus), ofUnits_zero]
        rfl
      rails := rfl
      reconciled := rfl
      nodes := .nil
      links := by simp }

end

end conservation

def flowInvoice (id : Uuid) (number : String) (status : InvoiceStatus) (total paid : Money) :
    Option Invoice :=
  (Numeric.store? 18 2 (total.val - paid.val)).bind fun balanceDue =>
    if h : balanceDue.units = total.units - (default : Money).units - paid.units then
      some ⟨id, 1, number, status, total, default, total, paid, default, balanceDue, "KES", none, none,
        none, 0, h⟩
    else none

def flowPayment (id invoiceId : Uuid) (amount : Money) (vault : VaultType) : Payment :=
  ⟨id, invoiceId, amount, vault, none, 0, none, none, none⟩

/-- A paid invoice on two rails, one that is paid in part, one that is only sent and a cancelled
one. -/
def flowBooks : Db where
  invoices := ((∅ : Table Invoice).insertAll? ([
    flowInvoice 1 "INV-1" .paid ⟨10000, hundred_fits⟩ ⟨10000, hundred_fits⟩,
    flowInvoice 2 "INV-2" .partiallyPaid ⟨9000, by decide⟩ ⟨2500, by decide⟩,
    flowInvoice 3 "INV-3" .sent ⟨700, by decide⟩ ⟨0, zero_fits⟩,
    flowInvoice 4 "INV-4" .cancelled ⟨300, by decide⟩ ⟨0, zero_fits⟩].reduceOption)).getD ∅
  payments := ((∅ : Table Payment).insertAll? [
    flowPayment 5 1 ⟨4000, forty_fits⟩ .cash, flowPayment 6 1 ⟨6000, sixty_fits⟩ .mpesa,
    flowPayment 7 2 ⟨2500, by decide⟩ .bank]).getD ∅

/-- The groups come in another order than the one they were listed in. -/
theorem flowBooks_conserved :
    letI : Context := .default
    ∃ flow, reconciliationFlow flowBooks.statusAggregates.reverse flowBooks.railAggregates.reverse =
        some flow ∧ flow.Conserves flowBooks ∧ flow.links.length = 6 := by
  let : Context := .default
  have hpaid : PaidUp flowBooks :=
    ⟨by decide +kernel, by decide +kernel, by decide +kernel, by decide +kernel⟩
  obtain ⟨hconserves, hsome⟩ := reconciliation_flow_conserves hpaid
    (List.reverse_perm flowBooks.statusAggregates) (List.reverse_perm flowBooks.railAggregates)
  obtain ⟨flow, hflow⟩ := Option.isSome_iff_exists.mp (hsome.mpr (by decide +kernel))
  refine ⟨flow, hflow, hconserves flow hflow, ?_⟩
  have hlinks : (reconciliationFlow flowBooks.statusAggregates.reverse
      flowBooks.railAggregates.reverse).map (·.links.length) = some 6 := by decide +kernel
  rw [hflow] at hlinks
  exact Option.some.inj hlinks

end Finguard
