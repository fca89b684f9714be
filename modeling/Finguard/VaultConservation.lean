import Finguard.InvoiceRuns
import Finguard.Treasury

/-! Conservation over the vaults: where the money of the balances comes from, what a
transfer moves, and the transfers that take a cent too much. -/

namespace Finguard
open Decimal Text Transaction Transaction.Tx

namespace Db

/-- The balance of a vault recomputed from the stored rows, in cents. -/
def vaultUnits (db : Db) (vault : VaultType) : ℤ :=
  db.paymentsIn vault + db.transfersIn vault - db.expensesOut vault - db.transfersOut vault

def totalPayments (db : Db) : ℤ := db.payments.total (fun _ => true) (fun p => p.amount.units)

def totalSignedOff (db : Db) : ℤ := db.expenses.total signedOff (fun e => e.amount.units)

def totalTransferred (db : Db) : ℤ :=
  db.vaultTransfers.total (fun _ => true) (fun t => t.amount.units)

/-- No sum that the balances are computed through needs more digits than the context
has. -/
structure CashFits (db : Db) : Prop where
  credit : ∀ vault, (db.paymentsIn vault + db.transfersIn vault).natAbs < 10 ^ 28
  spent : ∀ vault,
    (db.paymentsIn vault + db.transfersIn vault - db.expensesOut vault).natAbs < 10 ^ 28
  balance : ∀ vault, (db.vaultUnits vault).natAbs < 10 ^ 28
  subtotal : (db.vaultUnits .mpesa + db.vaultUnits .cash).natAbs < 10 ^ 28
  total : (db.vaultUnits .mpesa + db.vaultUnits .cash + db.vaultUnits .bank).natAbs < 10 ^ 28

@[simp] theorem transfersIn_linkFee (id expenseId : Uuid) (db : Db) (vault : VaultType) :
    (linkFee id expenseId db).transfersIn vault = db.transfersIn vault :=
  Table.total_update (t := db.vaultTransfers)
    (g := fun t : VaultTransfer => { t with feeExpenseId := some expenseId })
    (fun _ _ => rfl) (fun _ => rfl) (fun _ => rfl)

@[simp] theorem transfersOut_linkFee (id expenseId : Uuid) (db : Db) (vault : VaultType) :
    (linkFee id expenseId db).transfersOut vault = db.transfersOut vault :=
  Table.total_update (t := db.vaultTransfers)
    (g := fun t : VaultTransfer => { t with feeExpenseId := some expenseId })
    (fun _ _ => rfl) (fun _ => rfl) (fun _ => rfl)

/-! Every row counts for one vault. -/

theorem sum_vaults (f : VaultType → ℤ) :
    (VaultType.all.map f).sum = f .mpesa + f .cash + f .bank := by
  simp [VaultType.all, add_assoc]

theorem sum_paymentsIn (db : Db) : (VaultType.all.map db.paymentsIn).sum = db.totalPayments :=
  Table.total_groups (p := fun _ => true) Payment.vault (by decide)
    (fun p => VaultType.mem_all p.vault)

theorem sum_expensesOut (db : Db) : (VaultType.all.map db.expensesOut).sum = db.totalSignedOff :=
  Table.total_groups Expense.vault (by decide) (fun e => VaultType.mem_all e.vault)

theorem sum_transfersIn (db : Db) : (VaultType.all.map db.transfersIn).sum = db.totalTransferred :=
  Table.total_groups (p := fun _ => true) VaultTransfer.toVault (by decide)
    (fun t => VaultType.mem_all t.toVault)

theorem sum_transfersOut (db : Db) :
    (VaultType.all.map db.transfersOut).sum = db.totalTransferred :=
  Table.total_groups (p := fun _ => true) VaultTransfer.fromVault (by decide)
    (fun t => VaultType.mem_all t.fromVault)

theorem sum_vaultUnits (db : Db) :
    db.vaultUnits .mpesa + db.vaultUnits .cash + db.vaultUnits .bank =
      db.totalPayments - db.totalSignedOff := by
  have hin := db.sum_paymentsIn
  have hout := db.sum_expensesOut
  have hcredit := db.sum_transfersIn
  have hdebit := db.sum_transfersOut
  rw [sum_vaults] at hin hout hcredit hdebit
  unfold vaultUnits
  omega

end Db

section
variable [Context]

theorem vaultBalance_eq {db : Db} (h : db.CashFits) (vault : VaultType) :
    vaultBalance (db.paymentsIn vault) (db.transfersIn vault) (db.expensesOut vault)
      (db.transfersOut vault) = some (ofUnits 2 (db.vaultUnits vault)) := by
  have hbalance : (db.paymentsIn vault + db.transfersIn vault - db.expensesOut vault -
      db.transfersOut vault).natAbs < 10 ^ 28 := h.balance vault
  unfold vaultBalance
  rw [add_ofUnits (h.credit vault), sub_ofUnits (h.spent vault), sub_ofUnits hbalance,
    quantize?_ofUnits hbalance]
  rfl

theorem getVaultBalances_state {db db' : Db} {faults : Faults Site ServiceError}
    {r : VaultBalancesResponse} (h : getVaultBalances faults db = .ok r db') : db' = db := by
  simp only [getVaultBalances, bind_eq_ok, select_eq_ok, getOrRaise_eq_ok, pure_apply,
    Outcome.ok.injEq] at h
  obtain ⟨_, _, ⟨-, -, rfl⟩, _, _, ⟨-, -, rfl⟩, _, _, ⟨-, -, rfl⟩, _, _, ⟨-, -, rfl⟩, _, _, ⟨-, rfl⟩,
    -, rfl⟩ := h
  rfl

theorem getVaultBalances_eq {db db' : Db} {faults : Faults Site ServiceError}
    {r : VaultBalancesResponse} (hfits : db.CashFits)
    (h : getVaultBalances faults db = .ok r db') :
    db' = db ∧ (∀ vault, r.of vault = ofUnits 2 (db.vaultUnits vault)) ∧
      (r.balances.map VaultBalance.balance).sum =
        ofUnits 2 (db.totalPayments - db.totalSignedOff) ∧
      r.total = ofUnits 2 (db.totalPayments - db.totalSignedOff) := by
  simp only [getVaultBalances, bind_eq_ok, select_eq_ok, getOrRaise_eq_ok, pure_apply,
    Outcome.ok.injEq] at h
  obtain ⟨_, _, ⟨-, rfl, rfl⟩, _, _, ⟨-, rfl, rfl⟩, _, _, ⟨-, rfl, rfl⟩, _, _, ⟨-, rfl, rfl⟩,
    balances, _, ⟨hbalances, rfl⟩, rfl, rfl⟩ := h
  simp only [vaultBalance_eq hfits, Option.map_some, VaultType.all, List.mapM_cons, List.mapM_nil,
    Option.pure_def, Option.bind_eq_bind, Option.bind_some, Option.some.injEq] at hbalances
  subst hbalances
  have hzero : (0 : ℚ) = ofUnits 2 0 := by simp
  have hsum := db.sum_vaultUnits
  refine ⟨rfl, ?_, ?_, ?_⟩
  · intro vault
    cases vault <;> rfl
  · simp only [List.map_cons, List.map_nil, List.sum_cons, List.sum_nil, hzero, ofUnits_add]
    congr 1
    omega
  · have hfirst : (0 + db.vaultUnits .mpesa).natAbs < 10 ^ 28 := by
      rw [zero_add]
      exact hfits.balance .mpesa
    simp only [List.foldl_cons, List.foldl_nil, hzero]
    rw [add_ofUnits hfirst, zero_add, add_ofUnits hfits.subtotal, add_ofUnits hfits.total, hsum]

theorem getVaultBalances_ok {db : Db} {faults : Faults Site ServiceError} (hfits : db.CashFits)
    (hfaults : faults .vaultTotals = none) :
    ∃ r, getVaultBalances faults db = .ok r db := by
  simp only [getVaultBalances, bind_eq_ok, select_eq_ok, getOrRaise_eq_ok, pure_apply,
    Outcome.ok.injEq]
  refine ⟨_, _, _, ⟨hfaults, rfl, rfl⟩, _, _, ⟨hfaults, rfl, rfl⟩, _, _, ⟨hfaults, rfl, rfl⟩, _, _,
    ⟨hfaults, rfl, rfl⟩, VaultType.all.map (fun vault => ⟨vault, ofUnits 2 (db.vaultUnits vault)⟩), _,
    ⟨?_, rfl⟩, rfl, rfl⟩
  simp only [vaultBalance_eq hfits, Option.map_some, VaultType.all, List.mapM_cons, List.mapM_nil,
    Option.pure_def, Option.bind_eq_bind, Option.bind_some, List.map_cons, List.map_nil]

/-! What a committed transfer moves. -/

omit [Context] in
theorem createExpense_eq_some {db db' : Db} {id : Uuid} {category : String} {amount : ℚ}
    {vault : VaultType} {status : ExpenseApprovalStatus} {user : Option Uuid} {now : DateTime}
    (h : db.createExpense id category amount vault status user now = some db') :
    ∃ stored expenses, Numeric.store? 15 2 amount = some stored ∧
      db.expenses.insert? ⟨id, category, stored, vault, status, user, none, none, none, now⟩ =
        some expenses ∧
      db' = { db with expenses } := by
  simp only [Db.createExpense, Option.bind_eq_bind, Option.bind_eq_some_iff] at h
  obtain ⟨stored, hstored, expenses, hins, hdb⟩ := h
  exact ⟨stored, expenses, hstored, hins, (Option.some.inj hdb).symm⟩

omit [Context] in
theorem createTransfer_eq_some {db db' : Db} {id user : Uuid} {data : VaultTransferCreate}
    (h : db.createTransfer id data user = some db') :
    ∃ amount fee transfers, Numeric.store? 18 2 data.amount = some amount ∧
      Numeric.store? 18 2 data.fee = some fee ∧
      db.vaultTransfers.insert? ⟨id, data.fromVault, data.toVault, amount, fee, data.referenceNote,
        data.occurredAt, some user, none, data.distinct⟩ = some transfers ∧
      db' = { db with vaultTransfers := transfers } := by
  simp only [Db.createTransfer, Option.bind_eq_bind, Option.bind_eq_some_iff] at h
  obtain ⟨amount, hamount, fee, hfee, transfers, hins, hdb⟩ := h
  exact ⟨amount, fee, transfers, hamount, hfee, hins, (Option.some.inj hdb).symm⟩

omit [Context] in
/-- The fee leaves the source vault once, as an expense of the amount that the transfer
keeps too. -/
theorem bookFee_eq_ok {data : VaultTransferCreate} {id feeId : Uuid} {now : DateTime} {fee : Money}
    {faults : Faults Site ServiceError} {db db' : Db} {u : Unit}
    (hfee : Numeric.store? 18 2 data.fee = some fee)
    (h : bookFee data id feeId now faults db = .ok u db') :
    db'.payments = db.payments ∧ (∀ vault, db'.transfersIn vault = db.transfersIn vault) ∧
      (∀ vault, db'.transfersOut vault = db.transfersOut vault) ∧
      ∀ vault, db'.expensesOut vault =
        db.expensesOut vault + if data.fromVault = vault then fee.units else 0 := by
  have hunits := Numeric.units_of_store hfee
  unfold bookFee at h
  by_cases hpos : 0 < data.fee
  · rw [if_pos hpos] at h
    simp only [bind_eq_ok, flush_eq_ok, assign_apply, Outcome.ok.injEq] at h
    obtain ⟨_, _, ⟨-, hexpense⟩, -, rfl⟩ := h
    obtain ⟨stored, expenses, hstored, hins, rfl⟩ := createExpense_eq_some hexpense
    have hsame : stored.units = fee.units := (Numeric.units_of_store hstored).trans hunits.symm
    refine ⟨rfl, ?_, ?_, ?_⟩
    · intro vault
      rw [Db.transfersIn_linkFee]
      rfl
    · intro vault
      rw [Db.transfersOut_linkFee]
      rfl
    · intro vault
      show Table.total expenses _ _ = _
      rw [Table.total_of_insert hins]
      simp [Db.expensesOut, Db.signedOff, hsame]
  · rw [if_neg hpos] at h
    simp only [pure_apply, Outcome.ok.injEq] at h
    obtain ⟨-, rfl⟩ := h
    have hzero : data.fee = 0 := le_antisymm (not_lt.mp hpos) data.fee_nonneg
    have hnone : fee.units = 0 := by
      rw [hunits, hzero, zero_mul]
      exact roundHalfAway_intCast 0
    simp [hnone]

theorem createVaultTransfer_eq_ok [Format] {data : VaultTransferCreate} {user id feeId : Uuid}
    {now : DateTime} {faults : Faults Site ServiceError} {db db' : Db} {r : Uuid}
    (h : createVaultTransfer data user id feeId now faults db = .ok r db') :
    ∃ (amount fee : Money) (balances : VaultBalancesResponse),
      Numeric.store? 18 2 data.amount = some amount ∧ Numeric.store? 18 2 data.fee = some fee ∧
      getVaultBalances faults db = .ok balances db ∧
      add data.amount data.fee ≤ balances.of data.fromVault ∧
      db'.payments = db.payments ∧
      (∀ vault, db'.transfersIn vault =
        db.transfersIn vault + if data.toVault = vault then amount.units else 0) ∧
      (∀ vault, db'.transfersOut vault =
        db.transfersOut vault + if data.fromVault = vault then amount.units else 0) ∧
      ∀ vault, db'.expensesOut vault =
        db.expensesOut vault + if data.fromVault = vault then fee.units else 0 := by
  simp only [createVaultTransfer, bind_eq_ok, site_eq_ok, raiseIf_eq_ok, flush_eq_ok, assign_apply,
    commit, pure_apply, Outcome.ok.injEq, not_lt] at h
  obtain ⟨_, _, ⟨-, rfl⟩, balances, db₁, hbalances, _, _, ⟨hcheck, rfl⟩, _, _, ⟨-, htransfer⟩, _, db₂,
    hfee, _, _, ⟨-, rfl⟩, _, _, ⟨-, rfl⟩, -, rfl⟩ := h
  obtain rfl := getVaultBalances_state hbalances
  obtain ⟨amount, fee, transfers, hamount, hstored, hins, rfl⟩ := createTransfer_eq_some htransfer
  obtain ⟨hpayments, hin, hout, hexpenses⟩ := bookFee_eq_ok hstored hfee
  refine ⟨amount, fee, balances, hamount, hstored, hbalances, hcheck, hpayments, ?_, ?_, hexpenses⟩
  · intro vault
    refine (hin vault).trans ?_
    show Table.total transfers _ _ = _
    rw [Table.total_of_insert hins]
    simp [Db.transfersIn]
  · intro vault
    refine (hout vault).trans ?_
    show Table.total transfers _ _ = _
    rw [Table.total_of_insert hins]
    simp [Db.transfersOut]

/-! The sufficiency check sees the exact sum, the rows keep two rounded amounts. -/

/-- Amount and fee each carry at least half a cent, and their whole cents and one more
make up the balance. -/
def HalvesMeet (data : VaultTransferCreate) (balance : ℤ) : Prop :=
  1 / 2 ≤ Int.fract (data.amount * 10 ^ 2) ∧ 1 / 2 ≤ Int.fract (data.fee * 10 ^ 2) ∧
    ⌊data.amount * 10 ^ 2⌋ + ⌊data.fee * 10 ^ 2⌋ + 1 = balance

theorem sum_lt_of_check {a f : ℚ} {balance : ℤ} (hsmall : (10 * balance + 5).natAbs < 10 ^ 28)
    (hcheck : add a f ≤ ofUnits 2 balance) : a * 10 ^ 2 + f * 10 ^ 2 < balance + 1 / 2 := by
  by_contra hge
  rw [not_lt] at hge
  have hexact : ofUnits 3 (10 * balance + 5) ≤ a + f := by
    unfold ofUnits
    push_cast
    linarith
  have hround := Context.round_mono hexact
  rw [Context.round_exact _ _ hsmall] at hround
  have hle := hround.trans hcheck
  unfold ofUnits at hle
  push_cast at hle
  linarith

theorem stored_sum_le_iff {data : VaultTransferCreate} {amount fee : Money} {balance : ℤ}
    (hamount : Numeric.store? 18 2 data.amount = some amount)
    (hfee : Numeric.store? 18 2 data.fee = some fee)
    (hcheck : add data.amount data.fee ≤ ofUnits 2 balance) :
    amount.units + fee.units ≤ balance ↔ ¬ HalvesMeet data balance := by
  have hA : (0 : ℚ) ≤ data.amount * 10 ^ 2 := mul_nonneg data.amount_pos.le (by norm_num)
  have hF : (0 : ℚ) ≤ data.fee * 10 ^ 2 := mul_nonneg data.fee_nonneg (by norm_num)
  have hunits := Numeric.units_of_store hamount
  have hfeeUnits := Numeric.units_of_store hfee
  have hbalance : 0 ≤ balance := by
    have hsum := Decimal.add_nonneg data.amount_pos.le data.fee_nonneg
    simpa using hsum.trans hcheck
  by_cases hlarge : 10 ^ 20 ≤ balance
  · -- no two columns hold amounts that come near such a balance
    have hboundA := amount.bounded
    have hboundF := fee.bounded
    have hfloorA := roundHalfAway_eq_floor_add hA
    have hfloorF := roundHalfAway_eq_floor_add hF
    rw [← hunits] at hfloorA
    rw [← hfeeUnits] at hfloorF
    constructor
    · rintro - ⟨-, -, hmeet⟩
      split_ifs at hfloorA hfloorF <;> omega
    · intro _
      omega
  · rw [hunits, hfeeUnits]
    exact roundHalfAway_sum_le_iff hA hF (sum_lt_of_check (by omega) hcheck)

theorem vaultUnits_after_transfer [Format] {data : VaultTransferCreate} {user id feeId : Uuid}
    {now : DateTime} {faults : Faults Site ServiceError} {db db' : Db} {r : Uuid}
    (hfits : db.CashFits)
    (h : createVaultTransfer data user id feeId now faults db = .ok r db') :
    0 ≤ db'.vaultUnits data.fromVault ↔ ¬ HalvesMeet data (db.vaultUnits data.fromVault) := by
  obtain ⟨amount, fee, balances, hamount, hfee, hbalances, hcheck, hpayments, hin, hout, hexpenses⟩ :=
    createVaultTransfer_eq_ok h
  rw [(getVaultBalances_eq hfits hbalances).2.1] at hcheck
  rw [← stored_sum_le_iff hamount hfee hcheck]
  have hpaid : db'.paymentsIn data.fromVault = db.paymentsIn data.fromVault := by
    unfold Db.paymentsIn
    rw [hpayments]
  have hcredit := hin data.fromVault
  have hdebit := hout data.fromVault
  have hspent := hexpenses data.fromVault
  rw [if_neg data.distinct.symm] at hcredit
  rw [if_pos rfl] at hdebit hspent
  unfold Db.vaultUnits
  omega

/-- The balances are the payments less the signed-off expenses, transfers cancel out,
and a transfer overdraws its source exactly when two halves meet. -/
theorem vaults_conserved [Format] (db : Db) (hfits : db.CashFits) :
    (∀ faults, faults .vaultTotals = none → ∃ r, getVaultBalances faults db = .ok r db ∧
      (r.balances.map VaultBalance.balance).sum =
        ofUnits 2 (db.totalPayments - db.totalSignedOff) ∧
      r.total = ofUnits 2 (db.totalPayments - db.totalSignedOff)) ∧
    (VaultType.all.map db.transfersIn).sum = (VaultType.all.map db.transfersOut).sum ∧
    ∀ data user id feeId now faults r db',
      createVaultTransfer data user id feeId now faults db = .ok r db' →
        (0 ≤ db'.vaultUnits data.fromVault ↔
          ¬ HalvesMeet data (db.vaultUnits data.fromVault)) := by
  refine ⟨?_, ?_, ?_⟩
  · intro faults hfaults
    obtain ⟨r, hr⟩ := getVaultBalances_ok hfits hfaults
    exact ⟨r, hr, (getVaultBalances_eq hfits hr).2.2⟩
  · rw [db.sum_transfersIn, db.sum_transfersOut]
  · intro data user id feeId now faults r db' h
    exact vaultUnits_after_transfer hfits h

end

/-- One payment of 10.00 in the cash vault. -/
def tenInCash [Context] [Format] : Db :=
  (InvoiceRequest.recordCashPayment (samplePayment 10 ten_is_pos) 7 20).run.committed noFaults
    issuedInvoice

def cashToBank (amount fee : ℚ) (amount_pos : 0 < amount) (fee_nonneg : 0 ≤ fee) :
    VaultTransferCreate :=
  ⟨.cash, .bank, amount, fee, none, 8, amount_pos, fee_nonneg, by decide⟩

theorem tenInCash_conserved :
    letI := Context.default
    letI := Format.plain
    ∃ db', createVaultTransfer (cashToBank 6 4 (by norm_num) (by norm_num)) 7 30 31 9 noFaults
        tenInCash = .ok 30 db' ∧ 0 ≤ db'.vaultUnits .cash := by
  let := Context.default
  let := Format.plain
  have hfits : Db.CashFits tenInCash := {
    credit := fun vault => by cases vault <;> decide +kernel
    spent := fun vault => by cases vault <;> decide +kernel
    balance := fun vault => by cases vault <;> decide +kernel
    subtotal := by decide +kernel
    total := by decide +kernel }
  have htransfer := eq_ok_committed (x := createVaultTransfer
    (cashToBank 6 4 (by norm_num) (by norm_num)) 7 30 31 9) (s := tenInCash) (a := 30)
    (show (createVaultTransfer _ _ _ _ _ noFaults _).value? = _ by decide +kernel)
  refine ⟨_, htransfer, ((vaults_conserved tenInCash hfits).2.2 _ _ _ _ _ _ _ _ htransfer).mpr ?_⟩
  rintro ⟨hhalf, -⟩
  revert hhalf
  decide +kernel

/-- 5.005 and a fee of 4.995 pass for 10.00 and leave as 5.01 and 5.00. -/
theorem halfCents_overdraw :
    letI := Context.default
    letI := Format.plain
    Runs.Reaches invoiceStep Runs.always oneCustomer tenInCash ∧
      ∃ db', createVaultTransfer (cashToBank (5005 / 1000) (4995 / 1000) (by norm_num) (by norm_num))
        7 30 31 9 noFaults tenInCash = .ok 30 db' ∧ db'.vaultUnits .cash = -1 := by
  let := Context.default
  let := Format.plain
  have hrun : Runs.Reaches invoiceStep Runs.always oneCustomer tenInCash :=
    .head ⟨(.createInvoice sampleInvoice 10 1, noFaults), trivial, rfl⟩ <|
    .single ⟨(.recordCashPayment (samplePayment 10 (by norm_num)) 7 20, noFaults), trivial, rfl⟩
  exact ⟨hrun, _, eq_ok_committed (by decide +kernel), by decide +kernel⟩

end Finguard
