import Finguard.Identity
import Finguard.Lib.Sessions
import Finguard.Lib.Table

/-! Registration. The first account may become the owner, and whether it is the first is
counted before its row is committed. -/

namespace Finguard
open Sessions

structure UserCreate where
  email : String
  password : String
  fullName : String
  bootstrapKey : Option String

/-- A row of the table of users. -/
structure UserRow extends Account where
  email : String
  fullName : String
  isVerified : Bool
  emailVerifiedAt : Option Instant

instance : Row UserRow where
  clash a b := a.id == b.id || a.email == b.email
  clash_symm h := by
    simp only [Bool.or_eq_true, beq_iff_eq] at h ⊢
    exact h.imp Eq.symm Eq.symm

inductive RegisterError where
  | invalidBootstrapKey
  | ownerClaimed
deriving DecidableEq

/-- No key is configured where the setting is absent or empty. -/
def bootstrapClaim (configured bootstrapKey : Option String) (isFirstUser : Bool) :
    Except RegisterError Bool :=
  if configured = none ∨ configured = some "" then .ok isFirstUser
  else if bootstrapKey = none ∨ bootstrapKey = some "" then .ok false
  else if bootstrapKey ≠ configured then .error .invalidBootstrapKey
  else if ¬ isFirstUser then .error .ownerClaimed
  else .ok true

inductive RegisterPhase where
  | begun
  | emailFree
  | decided (claimOwner : Bool)
  | pending (row : UserRow)

structure RegisterTx where
  data : UserCreate
  phase : RegisterPhase := .begun

/-- Rows are seen by others once they are committed. -/
structure UserStore where
  users : Table UserRow := ∅

/-- What the new row is given by its surroundings. -/
structure RegisterStamp where
  id : Uuid
  hashedPassword : String
  now : Instant

inductive RegisterAction where
  | checkEmail
  | count
  | insert (stamp : RegisterStamp)
  | commit
  | crash

def UserCreate.row (data : UserCreate) (claimOwner : Bool) (stamp : RegisterStamp) : UserRow where
  id := stamp.id
  role := if claimOwner then .owner else .viewer
  isActive := true
  hashedPassword := stamp.hashedPassword
  passwordChangedAt := none
  email := data.email
  fullName := data.fullName
  isVerified := claimOwner
  emailVerifiedAt := if claimOwner then some stamp.now else none

namespace RegisterTx

def advance (configured : Option String) (s : UserStore) (_ : List RegisterTx) (t : RegisterTx) :
    RegisterAction → Option (UserStore × Option RegisterTx)
  | .checkEmail =>
    match t.phase with
    | .begun => some (s, if (s.users.find? (·.email == t.data.email)).isSome then none
        else some { t with phase := .emailFree })
    | _ => none
  | .count =>
    match t.phase with
    | .emailFree =>
      match bootstrapClaim configured t.data.bootstrapKey (s.users.rows.length = 0) with
      | .ok claimOwner => some (s, some { t with phase := .decided claimOwner })
      | .error _ => some (s, none)
    | _ => none
  | .insert stamp =>
    match t.phase with
    | .decided claimOwner => some (s, some { t with phase := .pending (t.data.row claimOwner stamp) })
    | _ => none
  | .commit =>
    match t.phase with
    | .pending row =>
      match s.users.insert? row with
      | some users => some ({ s with users }, none)
      | none => some (s, none)
    | _ => none
  | .crash => some (s, none)

/-- The requests of one deployment, with its bootstrap key. -/
def machine (configured : Option String) :
    Machine UserStore RegisterTx UserCreate RegisterAction where
  start data := { data }
  advance := advance configured

/-- On the way to become the owner. -/
def Claiming (t : RegisterTx) : Bool :=
  match t.phase with
  | .decided claimOwner => claimOwner
  | .pending row => row.role = .owner
  | _ => false

/-- Nobody counts an empty table and claims it while another one is on the way. -/
def Orderly (configured : Option String) (s : UserStore) (others : List RegisterTx)
    (t : RegisterTx) : RegisterAction → Prop
  | .count => bootstrapClaim configured t.data.bootstrapKey (s.users.rows.length = 0) = .ok true →
      ∀ u ∈ others, u.Claiming = false
  | _ => True

instance (configured : Option String) (s : UserStore) (others : List RegisterTx) (t : RegisterTx)
    (action : RegisterAction) : Decidable (Orderly configured s others t action) := by
  cases action <;> unfold Orderly <;> infer_instance

end RegisterTx

def UserStore.owners (s : UserStore) : List UserRow := s.users.filter (·.role = .owner)

theorem bootstrapClaim_eq_true {configured bootstrapKey : Option String} {isFirstUser : Bool}
    (h : bootstrapClaim configured bootstrapKey isFirstUser = .ok true) : isFirstUser = true := by
  unfold bootstrapClaim at h
  split at h
  · exact Except.ok.inj h
  · split at h
    · cases h
    · split at h
      · cases h
      · split at h
        · cases h
        · simpa using ‹¬ ¬ isFirstUser = true›

namespace RegisterTx
variable {configured : Option String}

/-- Every step that a registration can take. -/
inductive Effect (configured : Option String) (s : UserStore) (t : RegisterTx) :
    RegisterAction → UserStore → Option RegisterTx → Prop
  | ended {action : RegisterAction} : Effect configured s t action s none
  | emailFree : Effect configured s t .checkEmail s (some { t with phase := .emailFree })
  | decided {claimOwner : Bool}
    (hclaims : bootstrapClaim configured t.data.bootstrapKey (s.users.rows.length = 0) =
      .ok claimOwner) :
    Effect configured s t .count s (some { t with phase := .decided claimOwner })
  | pending {claimOwner : Bool} {stamp : RegisterStamp} (hphase : t.phase = .decided claimOwner) :
    Effect configured s t (.insert stamp) s
      (some { t with phase := .pending (t.data.row claimOwner stamp) })
  | committed {row : UserRow} {users : Table UserRow} (hphase : t.phase = .pending row)
    (hinsert : s.users.insert? row = some users) :
    Effect configured s t .commit { s with users } none

theorem advance_effect {s s' : UserStore} {others : List RegisterTx} {t : RegisterTx}
    {action : RegisterAction} {ended : Option RegisterTx}
    (h : advance configured s others t action = some (s', ended)) :
    Effect configured s t action s' ended := by
  cases action with
  | checkEmail =>
    cases hphase : t.phase with
    | begun =>
      simp only [advance, hphase, Option.some.injEq, Prod.mk.injEq] at h
      obtain ⟨rfl, rfl⟩ := h
      split
      · exact .ended
      · exact .emailFree
    | _ => simp [advance, hphase] at h
  | count =>
    cases hphase : t.phase with
    | emailFree =>
      cases hclaims : bootstrapClaim configured t.data.bootstrapKey (s.users.rows.length = 0) with
      | ok claimOwner =>
        simp only [advance, hphase, hclaims, Option.some.injEq, Prod.mk.injEq] at h
        obtain ⟨rfl, rfl⟩ := h
        exact .decided hclaims
      | error e =>
        simp only [advance, hphase, hclaims, Option.some.injEq, Prod.mk.injEq] at h
        obtain ⟨rfl, rfl⟩ := h
        exact .ended
    | _ => simp [advance, hphase] at h
  | insert stamp =>
    cases hphase : t.phase with
    | decided claimOwner =>
      simp only [advance, hphase, Option.some.injEq, Prod.mk.injEq] at h
      obtain ⟨rfl, rfl⟩ := h
      exact .pending hphase
    | _ => simp [advance, hphase] at h
  | commit =>
    cases hphase : t.phase with
    | pending row =>
      cases hinsert : s.users.insert? row with
      | some users =>
        simp only [advance, hphase, hinsert, Option.some.injEq, Prod.mk.injEq] at h
        obtain ⟨rfl, rfl⟩ := h
        exact .committed hphase hinsert
      | none =>
        simp only [advance, hphase, hinsert, Option.some.injEq, Prod.mk.injEq] at h
        obtain ⟨rfl, rfl⟩ := h
        exact .ended
    | _ => simp [advance, hphase] at h
  | crash =>
    cases h
    exact .ended

def Apart (t u : RegisterTx) : Prop := t.Claiming → u.Claiming = false

/-- A claim rests on a table without an owner. -/
def Founded (s : UserStore) (t : RegisterTx) : Prop := t.Claiming → s.owners = []

theorem claiming_row (t : RegisterTx) (claimOwner : Bool) (stamp : RegisterStamp) :
    Claiming { t with phase := .pending (t.data.row claimOwner stamp) } = claimOwner := by
  cases claimOwner <;> rfl

theorem reliable (configured : Option String) : Reliable (machine configured) (Orderly configured)
    (fun s => s.owners.length ≤ 1) Founded Apart (fun _ (_ : Empty) => False)
    (fun _ _ => False) where
  symm h := by
    intro hu
    by_contra ht
    rw [h (by simpa using ht)] at hu
    cases hu
  starts _ := by
    intro hclaiming
    cases hclaiming
  starts_apart _ := by
    intro hclaiming
    cases hclaiming
  advances := by
    intro s others t action s' ended hs ht hothers _ hguard hadvance
    have hstay : ∀ u ∈ others, Founded s u := fun u hu => (hothers u hu).1
    have hapart : ∀ u ∈ others, Apart t u := fun u hu => (hothers u hu).2
    have hstep : advance configured s others t action = some (s', ended) := hadvance
    cases advance_effect hstep with
    | ended => exact ⟨hs, by simp, hstay, fun d => d.elim⟩
    | emailFree =>
      refine ⟨hs, ?_, hstay, fun d => d.elim⟩
      rintro t' ⟨⟩
      refine ⟨?_, fun u _ => ?_⟩
      · intro hclaiming
        cases hclaiming
      · intro hclaiming
        cases hclaiming
    | decided hclaims =>
      rename_i claimOwner
      refine ⟨hs, ?_, hstay, fun d => d.elim⟩
      rintro t' ⟨⟩
      refine ⟨?_, fun u hu => ?_⟩
      · intro hclaiming
        obtain rfl : claimOwner = true := hclaiming
        have hempty : s.users.rows.length = 0 := by simpa using bootstrapClaim_eq_true hclaims
        rw [UserStore.owners, Table.filter, List.length_eq_zero_iff.mp hempty]
        rfl
      · intro hclaiming
        obtain rfl : claimOwner = true := hclaiming
        exact hguard hclaims u hu
    | pending hphase =>
      rename_i claimOwner stamp
      have hsame : t.Claiming = claimOwner := by simp [Claiming, hphase]
      refine ⟨hs, ?_, hstay, fun d => d.elim⟩
      rintro t' ⟨⟩
      refine ⟨?_, fun u hu => ?_⟩
      · intro hclaiming
        rw [claiming_row] at hclaiming
        exact ht (hsame.trans hclaiming)
      · intro hclaiming
        rw [claiming_row] at hclaiming
        exact hapart u hu (hsame.trans hclaiming)
    | committed hphase hinsert =>
      rename_i row users
      have howners : UserStore.owners { s with users } =
          if row.role = .owner then s.owners ++ [row] else s.owners := by
        rw [UserStore.owners, Table.filter_of_insert hinsert]
        simp [UserStore.owners]
      by_cases hrole : row.role = .owner
      · have hclaiming : t.Claiming := by simp [Claiming, hphase, hrole]
        have hnone : s.owners = [] := ht hclaiming
        refine ⟨?_, by simp, ?_, fun d => d.elim⟩
        · rw [howners, if_pos hrole, hnone]
          exact le_rfl
        · intro u hu huclaiming
          rw [hapart u hu hclaiming] at huclaiming
          cases huclaiming
      · rw [if_neg hrole] at howners
        refine ⟨?_, by simp, ?_, fun d => d.elim⟩
        · rw [howners]
          exact hs
        · intro u hu huclaiming
          rw [howners]
          exact hstay u hu huclaiming

end RegisterTx

/-- In an orderly run at most one account is the owner. -/
theorem single_bootstrap_owner (configured : Option String) {sys : System UserStore RegisterTx}
    (hrun : Runs.Reaches (RegisterTx.machine configured).step
      (OnStep (RegisterTx.Orderly configured)) ⟨{}, []⟩ sys) : sys.store.owners.length ≤ 1 :=
  ((RegisterTx.reliable configured).run hrun
    ⟨⟨by decide, by simp, .nil⟩, fun d => d.elim⟩).store

/-! Two registrations with the right key. -/

def registrant (email : String) : UserCreate := ⟨email, "correct horse", "Ada", some "key"⟩

def ownerStamp (id : Uuid) : RegisterStamp := ⟨id, "$2b$12$", 100⟩

def registration (index : ℕ) (id : Uuid) : List (Action UserCreate RegisterAction) :=
  [.advance index .checkEmail, .advance index .count, .advance index (.insert (ownerStamp id)),
    .advance index .commit]

/-- The second one finds the account of the first. -/
theorem registrations_in_turn :
    ∃ sys : System UserStore RegisterTx,
      Runs.Reaches (RegisterTx.machine (some "key")).step
        (OnStep (RegisterTx.Orderly (some "key"))) ⟨{}, []⟩ sys ∧
      (sys.store.owners.map (·.email), sys.sessions.length) = (["a@b.co"], 0) ∧
      sys.store.owners.length ≤ 1 := by
  have hreplay : (Runs.replay (RegisterTx.machine (some "key")).step
      (OnStep (RegisterTx.Orderly (some "key"))) ⟨{}, []⟩
      (.start (registrant "a@b.co") :: registration 0 1 ++ .start (registrant "c@d.co") ::
        (registration 0 2).take 2)).map
      (fun sys => (sys.store.owners.map (·.email), sys.sessions.length)) = some (["a@b.co"], 0) := by
    decide +kernel
  obtain ⟨sys, hrun, hsys⟩ := Runs.replay_map_reaches hreplay
  exact ⟨sys, hrun, hsys, single_bootstrap_owner _ hrun⟩

/-- Both count an empty table. -/
def racedRegistrations : List (Action UserCreate RegisterAction) :=
  .start (registrant "a@b.co") :: .start (registrant "c@d.co") ::
    ((registration 1 1).take 2).flatMap (fun step => [step, step]) ++
    [.advance 1 (.insert (ownerStamp 1)), .advance 1 (.insert (ownerStamp 2)), .advance 1 .commit,
      .advance 0 .commit]

theorem raced_bootstrap_owners :
    (∃ sys : System UserStore RegisterTx,
      Runs.Reaches (RegisterTx.machine none).step Runs.always ⟨{}, []⟩ sys ∧
      sys.store.owners.map (·.email) = ["a@b.co", "c@d.co"]) ∧
    ∃ sys : System UserStore RegisterTx,
      Runs.Reaches (RegisterTx.machine (some "key")).step Runs.always ⟨{}, []⟩ sys ∧
      sys.store.owners.map (·.email) = ["a@b.co", "c@d.co"] := by
  have hreplay : ∀ configured ∈ [none, some "key"],
      (Runs.replay (RegisterTx.machine configured).step Runs.always ⟨{}, []⟩
        racedRegistrations).map (fun sys => sys.store.owners.map (·.email)) =
          some ["a@b.co", "c@d.co"] := by
    decide +kernel
  exact ⟨Runs.replay_map_reaches (hreplay none (by simp)),
    Runs.replay_map_reaches (hreplay (some "key") (by simp))⟩

end Finguard
