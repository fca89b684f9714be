import Finguard.Lib.Decimal

/-! Identifiers, instants and enumerations shared by the domains. -/

namespace Finguard

abbrev Uuid := ℕ

/-- An instant, in microseconds. -/
abbrev DateTime := ℤ

abbrev Money := Decimal.Numeric 18 2

/-- The narrower money column of expenses and raw settlement records. -/
abbrev SettledAmount := Decimal.Numeric 15 2

abbrev Quantity := Decimal.Numeric 18 3

inductive InvoiceEventType where
  | invoiceIssued
  | paymentApplied
  | creditNoteApplied
  | invoiceCancelled
deriving DecidableEq

inductive InvoiceStatus where
  | draft
  | sent
  | paid
  | partiallyPaid
  | overdue
  | cancelled
deriving DecidableEq

def InvoiceStatus.value : InvoiceStatus → String
  | draft => "draft"
  | sent => "sent"
  | paid => "paid"
  | partiallyPaid => "partially_paid"
  | overdue => "overdue"
  | cancelled => "cancelled"

def InvoiceStatus.ofValue? : String → Option InvoiceStatus
  | "draft" => some draft
  | "sent" => some sent
  | "paid" => some paid
  | "partially_paid" => some partiallyPaid
  | "overdue" => some overdue
  | "cancelled" => some cancelled
  | _ => none

@[simp] theorem InvoiceStatus.ofValue?_value (status : InvoiceStatus) :
    ofValue? status.value = some status := by cases status <;> rfl

theorem InvoiceStatus.value_ne_empty (status : InvoiceStatus) : status.value ≠ "" := by
  cases status <;> decide

inductive VaultType where
  | mpesa
  | cash
  | bank
deriving DecidableEq

def VaultType.value : VaultType → String
  | mpesa => "MPESA"
  | cash => "CASH"
  | bank => "BANK"

/-- The vaults in the order of their declaration. -/
def VaultType.all : List VaultType := [mpesa, cash, bank]

theorem VaultType.mem_all (vault : VaultType) : vault ∈ all := by cases vault <;> decide

inductive ExpenseApprovalStatus where
  | draft
  | pendingReview
  | approved
  | scheduled
  | rejected
deriving DecidableEq

def ExpenseApprovalStatus.value : ExpenseApprovalStatus → String
  | draft => "draft"
  | pendingReview => "pending_review"
  | approved => "approved"
  | scheduled => "scheduled"
  | rejected => "rejected"

inductive MovementType where
  | receipt
  | issue
  | sale
  | returnIn
  | adjustment
  | transfer
deriving DecidableEq

def MovementType.value : MovementType → String
  | receipt => "receipt"
  | issue => "issue"
  | sale => "sale"
  | returnIn => "return_in"
  | adjustment => "adjustment"
  | transfer => "transfer"

theorem MovementType.receipt_ne_adjustment : receipt ≠ adjustment := by decide

theorem MovementType.sale_ne_adjustment : sale ≠ adjustment := by decide

def MovementType.ofValue? : String → Option MovementType
  | "receipt" => some receipt
  | "issue" => some issue
  | "sale" => some sale
  | "return_in" => some returnIn
  | "adjustment" => some adjustment
  | "transfer" => some transfer
  | _ => none

/-- The types that add stock; every other one but the adjustment takes it out. -/
def MovementType.inbound : MovementType → Bool
  | receipt => true
  | returnIn => true
  | _ => false

inductive MovementReason where
  | purchase
  | sale
  | damage
  | theft
  | stockTake
  | expiry
  | correction
  | other
deriving DecidableEq

def MovementReason.ofValue? : String → Option MovementReason
  | "purchase" => some purchase
  | "sale" => some sale
  | "damage" => some damage
  | "theft" => some theft
  | "stock_take" => some stockTake
  | "expiry" => some expiry
  | "correction" => some correction
  | "other" => some other
  | _ => none

inductive ProposalStatus where
  | proposed
  | applied
  | rejected
deriving DecidableEq

def ProposalStatus.value : ProposalStatus → String
  | proposed => "proposed"
  | applied => "applied"
  | rejected => "rejected"

/-- A binary or decimal number that need not be finite. -/
inductive Number where
  | finite (q : ℚ)
  | infinite (negative : Bool)
  | nan
deriving DecidableEq

namespace Number

def isZero : Number → Bool
  | finite q => q == 0
  | _ => false

def isPositive : Number → Bool
  | finite q => 0 < q
  | infinite negative => !negative
  | nan => false

/-- Comparing a decimal that is not a number with zero is an invalid operation. -/
def isNegative? : Number → Option Bool
  | finite q => some (q < 0)
  | infinite negative => some negative
  | nan => none

def quantize? (scale : ℕ) [Decimal.Context] : Number → Option ℚ
  | finite q => Decimal.quantize? scale q
  | _ => none

end Number

/-! Amounts, in cents, and quantities that the examples share. -/

theorem zero_fits : Int.natAbs 0 < 10 ^ 18 := by decide

theorem thirty_fits : Int.natAbs 3000 < 10 ^ 18 := by decide

theorem forty_fits : Int.natAbs 4000 < 10 ^ 18 := by decide

theorem sixty_fits : Int.natAbs 6000 < 10 ^ 18 := by decide

theorem hundred_fits : Int.natAbs 10000 < 10 ^ 18 := by decide

theorem settled_fits : Int.natAbs 116000 < 10 ^ 15 := by decide

theorem four_is_pos : (0 : ℚ) < 4 := by norm_num

theorem ten_is_pos : (0 : ℚ) < 10 := by norm_num

end Finguard
