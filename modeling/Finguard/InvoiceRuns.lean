import Finguard.InvoiceMoves

/-! Runs of invoice requests, each a transaction that may fail anywhere. -/

namespace Finguard
open Decimal Text Transaction Transaction.Tx InvoiceLedger

inductive InvoiceRequest where
  | createInvoice (data : InvoiceCreate) (id : Uuid) (createdAt : DateTime)
  | sendInvoice (id : Uuid)
  | updateInvoice (id : Uuid) (data : InvoiceUpdate)
  | markInvoicePaid (id : Uuid) (user : Option Uuid) (vault : VaultType) (note : Option String)
      (paymentId : Uuid) (now : DateTime)
  | applyCreditNote (id : Uuid) (amount : ℚ) (user : Option Uuid) (now : DateTime)
  | cancelInvoice (id : Uuid) (user : Option Uuid) (now : DateTime)
  | recordCashPayment (data : PaymentCreate) (user paymentId : Uuid)
  | applyReconciledPayments (batch : List ReconciledPayment)

/-- A condition on status patches and on recorded payments, in the state before. -/
structure Policy where
  patch : InvoiceLedger → Uuid → InvoiceUpdate → Prop
  payment : InvoiceLedger → Uuid → Money → Prop

def Policy.any : Policy := ⟨fun _ _ _ => True, fun _ _ _ => True⟩

section
variable [Context] [Format]

def InvoiceRequest.run : InvoiceRequest → AppTx Unit
  | .createInvoice data id createdAt => do
    let _ ← Finguard.createInvoice data id createdAt
  | .sendInvoice id => do
    let _ ← Finguard.sendInvoice id
  | .updateInvoice id data => do
    let _ ← Finguard.updateInvoice id data
  | .markInvoicePaid id user vault note paymentId now => do
    let _ ← Finguard.markInvoicePaid id user vault note paymentId now
  | .applyCreditNote id amount user now => do
    let _ ← Finguard.applyCreditNote id amount user now
  | .cancelInvoice id user now => do
    let _ ← Finguard.cancelInvoice id user now
  | .recordCashPayment data user paymentId => do
    let _ ← Finguard.recordCashPayment data user paymentId
  | .applyReconciledPayments batch => do
    Finguard.applyReconciledPayments 0 batch
    commit

/-- A request and the failures that the environment has in store for it. -/
abbrev InvoiceAction := InvoiceRequest × Faults Site ServiceError

def invoiceStep (db : Db) (action : InvoiceAction) : Option Db :=
  some (action.1.run.committed action.2 db)

/-- Every settlement of a batch meets the payment condition when its turn comes. -/
def BatchObeys (policy : Policy) (faults : Faults Site ServiceError) (index : ℕ) (db : Db) :
    List ReconciledPayment → Prop
  | [] => True
  | data :: rest =>
    (∀ invoice amount, db.getInvoice data.invoiceId = some invoice →
      Numeric.store? 18 2 (min data.amount invoice.balanceDue.val) = some amount →
        policy.payment db.toInvoiceLedger data.invoiceId amount) ∧
      ∀ r db', within (Site.inBatch index) (applyReconciledPayment data) faults db = .ok r db' →
        BatchObeys policy faults (index + 1) db' rest

def Obeys (policy : Policy) (db : Db) : InvoiceAction → Prop
  | (.updateInvoice id data, _) => policy.patch db.toInvoiceLedger id data
  | (.markInvoicePaid id _ _ _ _ _, _) => ∀ invoice, db.getInvoice id = some invoice →
      policy.payment db.toInvoiceLedger id invoice.balanceDue
  | (.recordCashPayment data _ _, _) => ∀ amount, Numeric.store? 18 2 data.amount = some amount →
      policy.payment db.toInvoiceLedger data.invoiceId amount
  | (.applyReconciledPayments batch, faults) => BatchObeys policy faults 0 db batch
  | _ => True

omit [Context] [Format] in
theorem within_apply {α : Type} (rename : Site → Site) (x : AppTx α)
    (faults : Faults Site ServiceError) (db : Db) :
    within rename x faults db = x (faults ∘ rename) db := rfl

theorem batchObeys_any (faults : Faults Site ServiceError) (index : ℕ) (db : Db)
    (batch : List ReconciledPayment) : BatchObeys Policy.any faults index db batch := by
  induction batch generalizing index db with
  | nil => trivial
  | cons data rest ih => exact ⟨fun _ _ _ _ => trivial, fun _ db' _ => ih (index + 1) db'⟩

theorem obeys_any (db : Db) (action : InvoiceAction) : Obeys Policy.any db action := by
  obtain ⟨request, faults⟩ := action
  cases request with
  | applyReconciledPayments batch => exact batchObeys_any faults 0 db batch
  | markInvoicePaid => exact fun _ _ => trivial
  | recordCashPayment => exact fun _ _ => trivial
  | createInvoice | sendInvoice | updateInvoice | applyCreditNote | cancelInvoice => trivial

/-- What each move keeps, every run keeps. -/
structure Kept (policy : Policy) (P : InvoiceLedger → Prop) : Prop where
  created : ∀ {l l' invoice}, P l → Created l l' invoice → P l'
  sent : ∀ {l l' id invoice}, P l → l.getInvoice id = some invoice → invoice.status = .draft →
    Patched l l' id ⟨some .sent, none, none⟩ → P l'
  patched : ∀ {l l' id invoice data}, P l → l.getInvoice id = some invoice →
    policy.patch l id data → Patched l l' id data → P l'
  posted : ∀ {l l' invoice event}, P l → Posts l l' invoice event none → P l'
  paid : ∀ {l l' invoice event payment}, P l → policy.payment l event.invoiceId event.amount →
    Posts l l' invoice event (some payment) → P l'

namespace Kept
variable {policy : Policy} {P : InvoiceLedger → Prop}

theorem batch (hk : Kept policy P) {batch : List ReconciledPayment} {index : ℕ}
    {faults : Faults Site ServiceError} {db db' : Db} {u : Unit} (hP : P db.toInvoiceLedger)
    (hobeys : BatchObeys policy faults index db batch)
    (h : applyReconciledPayments index batch faults db = .ok u db') : P db'.toInvoiceLedger := by
  induction batch generalizing index db with
  | nil =>
    simp only [applyReconciledPayments, pure_apply, Outcome.ok.injEq] at h
    rw [← h.2]
    exact hP
  | cons data rest ih =>
    simp only [applyReconciledPayments, bind_eq_ok] at h
    obtain ⟨r, db₁, hone, hrest⟩ := h
    refine ih ?_ (hobeys.2 r db₁ hone) hrest
    rw [within_apply] at hone
    obtain ⟨invoice, hget, hcases⟩ := applyReconciledPayment_eq_ok hone
    rcases hcases with ⟨-, rfl⟩ | ⟨-, l', event, payment, _, _, hposts, hid, hstored, -, -, rfl⟩
    · exact hP
    · have hpolicy := hobeys.1 invoice event.amount hget hstored
      rw [← hid] at hpolicy
      simpa using hk.paid hP hpolicy hposts

/-- The step rule: a request keeps what its moves keep. -/
theorem request (hk : Kept policy P) {request : InvoiceRequest} {faults : Faults Site ServiceError}
    {db db' : Db} {u : Unit} (hP : P db.toInvoiceLedger) (hobeys : Obeys policy db (request, faults))
    (h : request.run faults db = .ok u db') : P db'.toInvoiceLedger := by
  cases request with
  | createInvoice data id createdAt =>
    simp only [InvoiceRequest.run, bind_eq_ok, pure_apply, Outcome.ok.injEq] at h
    obtain ⟨_, _, h, -, rfl⟩ := h
    obtain ⟨invoice, hcreated⟩ := createInvoice_eq_ok h
    exact hk.created hP hcreated
  | sendInvoice id =>
    simp only [InvoiceRequest.run, bind_eq_ok, pure_apply, Outcome.ok.injEq] at h
    obtain ⟨_, _, h, -, rfl⟩ := h
    obtain ⟨invoice, hget, hdraft, hpatched⟩ := sendInvoice_eq_ok h
    exact hk.sent hP hget hdraft hpatched
  | updateInvoice id data =>
    simp only [InvoiceRequest.run, bind_eq_ok, pure_apply, Outcome.ok.injEq] at h
    obtain ⟨_, _, h, -, rfl⟩ := h
    obtain ⟨invoice, hget, hpatched⟩ := updateInvoice_eq_ok h
    exact hk.patched hP hget hobeys hpatched
  | markInvoicePaid id user vault note paymentId now =>
    simp only [InvoiceRequest.run, bind_eq_ok, pure_apply, Outcome.ok.injEq] at h
    obtain ⟨_, _, h, -, rfl⟩ := h
    obtain ⟨invoice, hget, hcases⟩ := markInvoicePaid_eq_ok h
    rcases hcases with rfl | ⟨-, event, payment, hposts, hid, hamount⟩
    · exact hP
    · refine hk.paid hP ?_ hposts
      rw [hamount, hid]
      exact hobeys invoice hget
  | applyCreditNote id amount user now =>
    simp only [InvoiceRequest.run, bind_eq_ok, pure_apply, Outcome.ok.injEq] at h
    obtain ⟨_, _, h, -, rfl⟩ := h
    obtain ⟨invoice, event, -, hposts⟩ := applyCreditNote_eq_ok h
    exact hk.posted hP hposts
  | cancelInvoice id user now =>
    simp only [InvoiceRequest.run, bind_eq_ok, pure_apply, Outcome.ok.injEq] at h
    obtain ⟨_, _, h, -, rfl⟩ := h
    obtain ⟨invoice, event, -, -, hposts⟩ := cancelInvoice_eq_ok h
    exact hk.posted hP hposts
  | recordCashPayment data user paymentId =>
    simp only [InvoiceRequest.run, bind_eq_ok, pure_apply, Outcome.ok.injEq] at h
    obtain ⟨_, _, h, -, rfl⟩ := h
    obtain ⟨invoice, event, payment, hid, hstored, hposts⟩ := recordCashPayment_eq_ok h
    refine hk.paid hP ?_ hposts
    rw [hid]
    exact hobeys _ hstored
  | applyReconciledPayments batch =>
    simp only [InvoiceRequest.run, bind_eq_ok, commit, site_eq_ok] at h
    obtain ⟨_, _, h, -, rfl⟩ := h
    exact hk.batch hP hobeys h

/-- The run rule. -/
theorem run (hk : Kept policy P) {start db : Db} (hP : P start.toInvoiceLedger)
    (h : Runs.Reaches invoiceStep (Obeys policy) start db) : P db.toInvoiceLedger := by
  refine h.invariant (I := fun db => P db.toInvoiceLedger) ?_ hP
  intro db action db' hP hobeys hstep
  obtain rfl := Option.some.inj hstep
  refine committed_keeps (P := fun db : Db => P db.toInvoiceLedger) hP ?_
  intro _ db' hok
  exact hk.request hP hobeys hok

end Kept

end

/-! A small store for runs on fixed inputs. -/

def oneCustomer : Db where
  customers := ⟨[⟨1, "Wanjiru", "wanjiru@shop.co.ke"⟩], List.pairwise_singleton _ _⟩

def sampleInvoice : InvoiceCreate where
  customerId := 1
  invoiceNumber := "INV-1"
  subtotal := 1000
  tax := 160
  currency := "KES"
  dueDate := none
  notes := none
  subtotal_pos := by norm_num
  tax_nonneg := by norm_num

def issuedInvoice [Context] [Format] : Db :=
  (InvoiceRequest.createInvoice sampleInvoice 10 1).run.committed noFaults oneCustomer

def samplePayment (amount : ℚ) (amount_pos : 0 < amount) : PaymentCreate :=
  ⟨10, amount, none, 5, amount_pos⟩

end Finguard
