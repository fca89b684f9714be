import Finguard.Model

/-! Roles, the permissions they grant and the users who hold them. -/

namespace Finguard

inductive UserRole where
  | owner
  | admin
  | manager
  | accountant
  | viewer
deriving DecidableEq

namespace UserRole

def value : UserRole → String
  | owner => "owner"
  | admin => "admin"
  | manager => "manager"
  | accountant => "accountant"
  | viewer => "viewer"

def ofValue? : String → Option UserRole
  | "owner" => some owner
  | "admin" => some admin
  | "manager" => some manager
  | "accountant" => some accountant
  | "viewer" => some viewer
  | _ => none

/-- The column keeps the name of the member, which is its value in capitals. -/
def name : UserRole → String
  | owner => "OWNER"
  | admin => "ADMIN"
  | manager => "MANAGER"
  | accountant => "ACCOUNTANT"
  | viewer => "VIEWER"

@[simp] theorem ofValue?_value (role : UserRole) : ofValue? role.value = some role := by
  cases role <;> rfl

theorem asciiLower_name (role : UserRole) : Text.asciiLower role.name = role.value := by
  cases role <;> decide

theorem isAscii_name (role : UserRole) : Text.isAscii role.name := by cases role <;> decide

end UserRole

inductive Permission where
  | financeRead
  | financeWrite
  | financeReconcile
  | financeApprove
  | crmRead
  | crmWrite
  | inventoryRead
  | inventoryWrite
  | inventoryAdjust
  | intelligenceRead
  | intelligenceAct
  | userManage
  | auditRead
deriving DecidableEq

namespace Permission

def readOnly : List Permission := [financeRead, crmRead, inventoryRead, intelligenceRead]

def operator : List Permission :=
  readOnly ++ [financeWrite, crmWrite, inventoryWrite, intelligenceAct]

def manager : List Permission :=
  operator ++ [financeReconcile, financeApprove, auditRead, inventoryAdjust]

def admin : List Permission := manager ++ [userManage]

end Permission

def rolePermissions : UserRole → List Permission
  | .viewer => Permission.readOnly
  | .accountant => Permission.operator
  | .manager => Permission.manager
  | .admin => Permission.admin
  | .owner => Permission.admin

def hasPermission (role : UserRole) (permission : Permission) : Bool :=
  (rolePermissions role).contains permission

structure User where
  id : Uuid
  role : UserRole
deriving DecidableEq

instance : Row User where
  clash a b := a.id == b.id
  clash_symm h := by
    rw [beq_iff_eq] at h ⊢
    exact h.symm

end Finguard
