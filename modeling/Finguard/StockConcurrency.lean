import Finguard.Lib.Sessions
import Finguard.StockReplay

/-! Movement transactions that run side by side: what a transaction has read, locked and
written, and what the others see of it. -/

namespace Finguard
open Decimal Text Transaction RunningBalance Sessions

inductive MovementPhase where
  | begun
  /-- The lock statement has found these rows and waits for them. -/
  | selected (product : Product) (ids : List Uuid)
  | opened (product : Product) (level : StockLevel) (own : Bool)
  | numbered (level : StockLevel) (own : Bool) (plan : MovementPlan) (sequence : ℤ)
  | written (level : StockLevel) (own : Bool) (plan : MovementPlan) (sequence : ℤ)

/-- An open transaction. `loaded` is the level that an earlier read without a lock left
in the session; `own` marks a level that the transaction itself inserted. -/
structure MovementTx where
  request : MovementRequest
  stamp : MovementStamp
  loaded : Option StockLevel := none
  phase : MovementPhase := .begun

inductive MovementAction where
  | peekLevel
  | selectLevel
  | lockLevel
  | readSequence
  | write
  | commit
  | abort
deriving DecidableEq

namespace MovementTx

def locks (t : MovementTx) (id : Uuid) : Bool :=
  match t.phase with
  | .opened _ level own | .numbered level own _ _ | .written level own _ _ =>
    !own && level.id == id
  | _ => false

/-- The level row that the transaction has inserted and not committed. -/
def inserted (t : MovementTx) : Option StockLevel :=
  match t.phase with
  | .opened _ level own | .numbered level own _ _ | .written level own _ _ =>
    if own then some level else none
  | _ => none

/-- The ledger row that the transaction has inserted and not committed. -/
def appended (t : MovementTx) : Option StockMovement :=
  match t.phase with
  | .written _ _ plan sequence => StockLedger.movementRow? t.request plan t.stamp sequence
  | _ => none

/-- A locked row does not refresh an object that the session already holds. -/
def attributes (t : MovementTx) (row : StockLevel) : StockLevel :=
  match t.loaded with
  | some level => if level.id = row.id then level else row
  | none => row

/-- The tables as they are once the transaction commits. -/
def result (t : MovementTx) (l : StockLedger) (level : StockLevel) (own : Bool)
    (plan : MovementPlan) (sequence : ℤ) : Option StockLedger :=
  if own then
    (l.createLevel level.id t.request.productId).bind
      (·.writeMovement level t.request plan t.stamp sequence)
  else l.writeMovement level t.request plan t.stamp sequence

/-- An insert waits while the row clashes with an uncommitted one. -/
def insertWaits {ρ : Type} [Row ρ] (uncommitted : MovementTx → Option ρ)
    (others : List MovementTx) (row : ρ) : Bool :=
  others.any (fun u => (uncommitted u).any (Row.clash · row))

section
variable [Context] [Format]

def lockLevel (l : StockLedger) (others : List MovementTx) (t : MovementTx) (product : Product)
    (ids : List Uuid) : Option (StockLedger × Option MovementTx) :=
  if others.any (fun u => ids.any u.locks) then none
  else
    match (l.levelsOf t.request.productId).filter (fun row => ids.contains row.id) with
    | [row] => some (l, some { t with phase := .opened product (t.attributes row) false })
    | [] =>
      let level := StockLevel.fresh t.stamp.levelId t.request.productId
      if insertWaits inserted others level then none
      else if (l.createLevel t.stamp.levelId t.request.productId).isSome then
        some (l, some { t with phase := .opened product level true })
      else some (l, none)
    | _ => some (l, none)

/-- The statements of one movement, each of them under what is committed when it runs. -/
def advance (l : StockLedger) (others : List MovementTx) (t : MovementTx) :
    MovementAction → Option (StockLedger × Option MovementTx)
  | .peekLevel =>
    match t.phase, l.levelsOf t.request.productId with
    | .begun, [] => some (l, some t)
    | .begun, [level] => some (l, some { t with loaded := t.loaded.or (some level) })
    | .begun, _ => some (l, none)
    | _, _ => none
  | .selectLevel =>
    match t.phase, l.getProduct t.request.productId with
    | .begun, some product =>
      if product.isActive then
        let ids := (l.levelsOf t.request.productId).map StockLevel.id
        some (l, some { t with phase := .selected product ids })
      else some (l, none)
    | .begun, none => some (l, none)
    | _, _ => none
  | .lockLevel =>
    match t.phase with
    | .selected product ids => lockLevel l others t product ids
    | _ => none
  | .readSequence =>
    match t.phase with
    | .opened product level own =>
      match planMovement product level t.request with
      | .ok plan =>
        let sequence := l.lastSequence t.request.productId + 1
        some (l, some { t with phase := .numbered level own plan sequence })
      | .error _ => some (l, none)
    | _ => none
  | .write =>
    match t.phase with
    | .numbered level own plan sequence =>
      match StockLedger.movementRow? t.request plan t.stamp sequence with
      | some movement =>
        if insertWaits appended others movement then none
        else if (t.result l level own plan sequence).isSome then
          some (l, some { t with phase := .written level own plan sequence })
        else some (l, none)
      | none => some (l, none)
    | _ => none
  | .commit =>
    match t.phase with
    | .written level own plan sequence =>
      (t.result l level own plan sequence).map (·, none)
    | _ => none
  | .abort => some (l, none)

def machine : Machine StockLedger MovementTx (MovementRequest × MovementStamp) MovementAction where
  start request := { request := request.1, stamp := request.2 }
  advance := advance

/-! What one statement can do. -/

inductive Advanced (l : StockLedger) (others : List MovementTx) (t : MovementTx) :
    MovementAction → StockLedger → Option MovementTx → Prop
  | ended {action} : Advanced l others t action l none
  | waiting {action t'} (hphase : t'.phase = .begun ∨ ∃ product ids, t'.phase = .selected product ids) :
      Advanced l others t action l (some t')
  | locked {product ids row} (hphase : t.phase = .selected product ids)
      (hrow : row ∈ l.levelsOf t.request.productId) (hfree : ∀ u ∈ others, u.locks row.id = false) :
      Advanced l others t .lockLevel l
        (some { t with phase := .opened product (t.attributes row) false })
  | created {product ids} (hphase : t.phase = .selected product ids) :
      Advanced l others t .lockLevel l (some { t with
        phase := .opened product (.fresh t.stamp.levelId t.request.productId) true })
  | numbered {product level own plan} (hphase : t.phase = .opened product level own)
      (hplan : planMovement product level t.request = .ok plan) :
      Advanced l others t .readSequence l (some { t with
        phase := .numbered level own plan (l.lastSequence t.request.productId + 1) })
  | written {level own plan sequence movement l'} (hphase : t.phase = .numbered level own plan sequence)
      (hmovement : StockLedger.movementRow? t.request plan t.stamp sequence = some movement)
      (hfree : insertWaits appended others movement = false)
      (hresult : t.result l level own plan sequence = some l') :
      Advanced l others t .write l (some { t with phase := .written level own plan sequence })
  | committed {level own plan sequence l'} (hphase : t.phase = .written level own plan sequence)
      (hresult : t.result l level own plan sequence = some l') :
      Advanced l others t .commit l' none

theorem advance_cases {l l' : StockLedger} {others : List MovementTx} {t : MovementTx}
    {action : MovementAction} {ended : Option MovementTx}
    (h : advance l others t action = some (l', ended)) : Advanced l others t action l' ended := by
  cases action with
  | abort =>
    obtain ⟨rfl, rfl⟩ := Prod.mk.inj (Option.some.inj h)
    exact .ended
  | peekLevel =>
    simp only [advance] at h
    split at h <;> rename_i hphase _
    · obtain ⟨rfl, rfl⟩ := Prod.mk.inj (Option.some.inj h)
      exact .waiting (.inl hphase)
    · obtain ⟨rfl, rfl⟩ := Prod.mk.inj (Option.some.inj h)
      exact .waiting (.inl hphase)
    · obtain ⟨rfl, rfl⟩ := Prod.mk.inj (Option.some.inj h)
      exact .ended
    · cases h
  | selectLevel =>
    simp only [advance] at h
    split at h
    · split at h
      · obtain ⟨rfl, rfl⟩ := Prod.mk.inj (Option.some.inj h)
        exact .waiting (.inr ⟨_, _, rfl⟩)
      · obtain ⟨rfl, rfl⟩ := Prod.mk.inj (Option.some.inj h)
        exact .ended
    · obtain ⟨rfl, rfl⟩ := Prod.mk.inj (Option.some.inj h)
      exact .ended
    · cases h
  | lockLevel =>
    simp only [advance] at h
    split at h
    · rename_i product ids hphase
      simp only [lockLevel] at h
      split at h
      · cases h
      · rename_i hfree
        split at h
        · rename_i row hfound
          obtain ⟨rfl, rfl⟩ := Prod.mk.inj (Option.some.inj h)
          have hrow : row ∈ (l.levelsOf t.request.productId).filter
              (fun row => ids.contains row.id) := by
            rw [hfound]
            exact List.mem_singleton_self row
          obtain ⟨hmem, hid⟩ := List.mem_filter.mp hrow
          refine .locked hphase hmem ?_
          intro u hu
          by_contra hlocks
          apply hfree
          rw [List.any_eq_true]
          refine ⟨u, hu, List.any_eq_true.mpr ⟨row.id, by simpa using hid, ?_⟩⟩
          simpa using hlocks
        · split at h
          · cases h
          · split at h
            · obtain ⟨rfl, rfl⟩ := Prod.mk.inj (Option.some.inj h)
              exact .created hphase
            · obtain ⟨rfl, rfl⟩ := Prod.mk.inj (Option.some.inj h)
              exact .ended
        · obtain ⟨rfl, rfl⟩ := Prod.mk.inj (Option.some.inj h)
          exact .ended
    · cases h
  | readSequence =>
    simp only [advance] at h
    split at h
    · rename_i product level own hphase
      split at h
      · rename_i plan hplan
        obtain ⟨rfl, rfl⟩ := Prod.mk.inj (Option.some.inj h)
        exact .numbered hphase hplan
      · obtain ⟨rfl, rfl⟩ := Prod.mk.inj (Option.some.inj h)
        exact .ended
    · cases h
  | write =>
    simp only [advance] at h
    split at h
    · rename_i level own plan sequence hphase
      split at h
      · rename_i movement hmovement
        split at h
        · cases h
        · rename_i hfree
          split at h
          · rename_i hresult
            obtain ⟨l₁, hl₁⟩ := Option.isSome_iff_exists.mp hresult
            obtain ⟨rfl, rfl⟩ := Prod.mk.inj (Option.some.inj h)
            exact .written hphase hmovement (by simpa using hfree) hl₁
          · obtain ⟨rfl, rfl⟩ := Prod.mk.inj (Option.some.inj h)
            exact .ended
      · obtain ⟨rfl, rfl⟩ := Prod.mk.inj (Option.some.inj h)
        exact .ended
    · cases h
  | commit =>
    simp only [advance] at h
    split at h
    · rename_i level own plan sequence hphase
      obtain ⟨l₁, hresult, hl₁⟩ := Option.map_eq_some_iff.mp h
      obtain ⟨rfl, rfl⟩ := Prod.mk.inj hl₁
      exact .committed hphase hresult
    · cases h

/-! What a transaction relies on. -/

/-- The held level is a fresh row, or the only committed row of the product as far as
identity and quantity go. -/
def Held (l : StockLedger) (t : MovementTx) (level : StockLevel) (own : Bool) : Prop :=
  match own with
  | true => level = .fresh t.stamp.levelId t.request.productId
  | false => ∃ row, l.levelsOf t.request.productId = [row] ∧ level.id = row.id ∧
      level.quantityOnHand = row.quantityOnHand

structure Planned (l : StockLedger) (t : MovementTx) (level : StockLevel) (own : Bool)
    (plan : MovementPlan) (sequence : ℤ) : Prop where
  held : Held l t level own
  plan : plan.onHand = add level.quantityOnHand.val t.request.signedDelta ∧ 0 ≤ plan.onHand
  alike : t.request.RoundsAlike level.quantityOnHand.units
  first : own = true → sequence = 1
  next : own = false → sequence = l.lastSequence t.request.productId + 1

def Sound (l : StockLedger) (t : MovementTx) : Prop :=
  match t.phase with
  | .begun | .selected _ _ => True
  | .opened _ level own => Held l t level own
  | .numbered level own plan sequence => Planned l t level own plan sequence
  | .written level own plan sequence =>
    Planned l t level own plan sequence ∧ (∃ movement, t.appended = some movement) ∧
      (own = true → l.levelsOf t.request.productId = [])

/-- No two transactions lock one row, and their uncommitted ledger rows do not clash. -/
structure Apart (t u : MovementTx) : Prop where
  locks : ∀ id, t.locks id → u.locks id → False
  appended : ∀ a ∈ t.appended, ∀ b ∈ u.appended, ¬ Row.clash a b

omit [Context] [Format] in
theorem Apart.symm {t u : MovementTx} (h : Apart t u) : Apart u t where
  locks id hu ht := h.locks id ht hu
  appended a ha b hb hclash := h.appended b hb a ha (Row.clash_symm hclash)

omit [Context] [Format] in
theorem apart_of_idle {t u : MovementTx} (hlocks : ∀ id, t.locks id = false)
    (happended : t.appended = none) : Apart t u := by
  refine ⟨?_, ?_⟩
  · intro id ht
    rw [hlocks] at ht
    cases ht
  · intro a ha
    rw [happended] at ha
    cases ha

omit [Format] in
/-- A transaction reads nothing but the rows of its own product. -/
theorem Sound.congr {l l' : StockLedger} {t : MovementTx}
    (hlevels : l'.levelsOf t.request.productId = l.levelsOf t.request.productId)
    (hlast : l'.lastSequence t.request.productId = l.lastSequence t.request.productId)
    (h : Sound l t) : Sound l' t := by
  have hheld : ∀ level own, Held l t level own → Held l' t level own := by
    intro level own h
    cases own with
    | true => exact h
    | false =>
      unfold Held
      rw [hlevels]
      exact h
  have hplanned : ∀ level own plan sequence,
      Planned l t level own plan sequence → Planned l' t level own plan sequence := by
    intro level own plan sequence h
    refine ⟨hheld _ _ h.held, h.plan, h.alike, h.first, ?_⟩
    rw [hlast]
    exact h.next
  unfold Sound at h ⊢
  split at h
  · trivial
  · trivial
  · exact hheld _ _ h
  · exact hplanned _ _ _ _ h
  · refine ⟨hplanned _ _ _ _ h.1, h.2.1, ?_⟩
    rw [hlevels]
    exact h.2.2

omit [Context] [Format] in
theorem attributes_eq {t : MovementTx} {row : StockLevel}
    (h : ∀ level ∈ t.loaded, row.id = level.id → row.quantityOnHand = level.quantityOnHand) :
    (t.attributes row).id = row.id ∧ (t.attributes row).quantityOnHand = row.quantityOnHand := by
  unfold attributes
  cases hloaded : t.loaded with
  | none => exact ⟨rfl, rfl⟩
  | some level =>
    by_cases hid : level.id = row.id
    · simp only [hid, if_true]
      exact ⟨trivial, (h level hloaded hid.symm).symm⟩
    · simp only [hid, if_false]
      exact ⟨trivial, trivial⟩

omit [Context] [Format] in
theorem levelsOf_eq_nil_of_first {l l' : StockLedger} {t : MovementTx} {level : StockLevel}
    {plan : MovementPlan} (hreplays : Replays l t.request.productId)
    (h : t.result l level true plan 1 = some l') : l.levelsOf t.request.productId = [] := by
  by_contra hlevels
  have hmovements := mt hreplays.owned.mpr hlevels
  obtain ⟨first, hfirst, hnumber⟩ := hreplays.sequences.exists_number
    (List.length_pos_iff.mpr hmovements)
  simp only [result, if_true, Option.bind_eq_some_iff, StockLedger.writeMovement,
    Option.bind_eq_bind] at h
  obtain ⟨l₁, hcreate, movement, hmovement, stockMovements, hins, -⟩ := h
  obtain ⟨-, hproduct, hsequence, -⟩ := movementRow?_eq_some hmovement
  have hsame : l₁.stockMovements = l.stockMovements := by
    simp only [StockLedger.createLevel, Option.bind_eq_bind, Option.bind_eq_some_iff] at hcreate
    obtain ⟨_, -, _, -, hl₁⟩ := hcreate
    rw [← Option.some.inj hl₁]
  rw [hsame] at hins
  obtain ⟨hrow, howner⟩ := List.mem_filter.mp hfirst
  apply Table.not_clash_of_insert hins hrow
  show (first.id == movement.id ||
    (first.productId == movement.productId && first.sequence == movement.sequence)) = true
  rw [beq_iff_eq] at howner
  simp [howner, hproduct, hsequence, hnumber]

omit [Format] in
/-- What is planned on a held level is one movement on the committed tables. -/
theorem Planned.moved {l l' : StockLedger} {t : MovementTx} {level : StockLevel} {own : Bool}
    {plan : MovementPlan} {sequence : ℤ} (h : Planned l t level own plan sequence)
    (hreplays : Replays l t.request.productId)
    (hfirst : own = true → l.levelsOf t.request.productId = [])
    (hresult : t.result l level own plan sequence = some l') :
    (∃ movement, Moved l l' t.request movement) ∧
      t.request.RoundsAlike (l.onHand t.request.productId) := by
  cases own with
  | true =>
    have hlevels := hfirst rfl
    have hheld : level = .fresh t.stamp.levelId t.request.productId := h.held
    have hlast : l.lastSequence t.request.productId = 0 := by
      unfold StockLedger.lastSequence
      rw [hreplays.owned.mp hlevels]
      rfl
    simp only [result, if_true, Option.bind_eq_some_iff] at hresult
    obtain ⟨l₁, hcreate, hwrite⟩ := hresult
    rw [hheld] at hcreate hwrite
    have hopened := createLevel_eq_some hlevels hcreate
    have hnext : sequence = l.lastSequence t.request.productId + 1 := by
      rw [h.first rfl, hlast, zero_add]
    rw [hnext] at hwrite
    have hplan := h.plan
    have halike := h.alike
    rw [hheld] at hplan halike
    refine ⟨hopened.moved rfl rfl hplan hwrite, ?_⟩
    rw [hopened.onHand]
    exact halike
  | false =>
    obtain ⟨row, hlevels, hid, honHand⟩ := h.held
    have hopened : Opened l l t.request.productId row :=
      ⟨.inl hlevels, hlevels, fun _ _ => rfl, rfl⟩
    have hwrite : l.writeMovement level t.request plan t.stamp sequence = some l' := hresult
    rw [h.next rfl] at hwrite
    refine ⟨hopened.moved hid honHand h.plan hwrite, ?_⟩
    rw [hopened.onHand, ← honHand]
    exact h.alike

omit [Context] [Format] in
/-- Two transactions cannot hold the committed row of one product. -/
theorem held_alone {l : StockLedger} {t u : MovementTx} {level level' : StockLevel}
    (hproduct : u.request.productId = t.request.productId) (hapart : Apart t u)
    (ht : Held l t level false) (hu : Held l u level' false)
    (htlocks : t.locks level.id) (hulocks : u.locks level'.id) : False := by
  obtain ⟨row, hlevels, hid, -⟩ := ht
  obtain ⟨row', hlevels', hid', -⟩ := hu
  rw [hproduct, hlevels] at hlevels'
  obtain rfl : row = row' := by simpa using hlevels'
  rw [hid] at htlocks
  rw [hid'] at hulocks
  exact hapart.locks row.id htlocks hulocks

omit [Format] in
/-- A commit leaves what every other transaction relies on. -/
theorem Sound.frame {l l' : StockLedger} {t u : MovementTx} {level : StockLevel} {own : Bool}
    {plan : MovementPlan} {sequence : ℤ} {movement : StockMovement}
    (hphase : t.phase = .written level own plan sequence) (ht : Sound l t) (hapart : Apart t u)
    (hmoved : Moved l l' t.request movement) (hu : Sound l u) : Sound l' u := by
  simp only [Sound, hphase] at ht
  obtain ⟨hplanned, ⟨a, ha⟩, hfirst⟩ := ht
  have htlocks : own = false → t.locks level.id := by
    rintro rfl
    simp [locks, hphase]
  by_cases hproduct : u.request.productId = t.request.productId
  · -- the committed row is not held by anyone else
    have hnotHeld : ∀ level', u.locks level'.id → ¬ Held l u level' false := by
      intro level' hulocks hheld
      cases own with
      | false => exact held_alone hproduct hapart hplanned.held hheld (htlocks rfl) hulocks
      | true =>
        obtain ⟨row, hlevels, -⟩ := hheld
        rw [hproduct, hfirst rfl] at hlevels
        cases hlevels
    cases huphase : u.phase with
    | begun => simp only [Sound, huphase]
    | selected product ids => simp only [Sound, huphase]
    | opened product level' own' =>
      simp only [Sound, huphase] at hu ⊢
      cases own' with
      | true => exact hu
      | false => exact absurd hu (hnotHeld level' (by simp [locks, huphase]))
    | numbered level' own' plan' sequence' =>
      simp only [Sound, huphase] at hu ⊢
      cases own' with
      | true => exact ⟨hu.held, hu.plan, hu.alike, hu.first, fun h => Bool.noConfusion h⟩
      | false => exact absurd hu.held (hnotHeld level' (by simp [locks, huphase]))
    | written level' own' plan' sequence' =>
      simp only [Sound, huphase] at hu
      obtain ⟨huplanned, ⟨b, hb⟩, hufirst⟩ := hu
      cases own' with
      | false => exact absurd huplanned.held (hnotHeld level' (by simp [locks, huphase]))
      | true =>
        cases own with
        | false =>
          obtain ⟨row, hlevels, -⟩ := hplanned.held
          rw [← hproduct, hufirst rfl] at hlevels
          cases hlevels
        | true =>
          -- both are first movements, so both carry the number one
          have ha' := ha
          have hb' := hb
          simp only [MovementTx.appended, hphase] at ha'
          simp only [MovementTx.appended, huphase] at hb'
          obtain ⟨-, haproduct, hasequence, -⟩ := movementRow?_eq_some ha'
          obtain ⟨-, hbproduct, hbsequence, -⟩ := movementRow?_eq_some hb'
          exfalso
          apply hapart.appended a ha b hb
          show (a.id == b.id || (a.productId == b.productId && a.sequence == b.sequence)) = true
          simp [haproduct, hbproduct, hproduct, hasequence, hbsequence, hplanned.first,
            huplanned.first]
  · have hmovements := movementsOf_insert hmoved.appended u.request.productId
    rw [hmoved.owner, if_neg (Ne.symm hproduct)] at hmovements
    refine hu.congr (hmoved.others _ hproduct) ?_
    unfold StockLedger.lastSequence
    rw [hmovements]

/-- When a row is locked, its quantity is the one that an earlier read left in the
session; a transaction that inserted its own level takes its number while no level of the
product is committed; and no movement meets a half of a thousandth. -/
def Serialized (l : StockLedger) (t : MovementTx) : MovementAction → Prop
  | .lockLevel => ∀ level ∈ t.loaded, ∀ row ∈ l.levelsOf t.request.productId,
      row.id = level.id → row.quantityOnHand = level.quantityOnHand
  | .readSequence => ∀ product level own, t.phase = .opened product level own →
      (own = true → l.levelsOf t.request.productId = []) ∧
        t.request.RoundsAlike level.quantityOnHand.units
  | _ => True

instance (l : StockLedger) (t : MovementTx) (action : MovementAction) :
    Decidable (Serialized l t action) := by
  cases action with
  | readSequence =>
    cases hphase : t.phase with
    | opened product level own =>
      refine decidable_of_iff ((own = true → l.levelsOf t.request.productId = []) ∧
        t.request.RoundsAlike level.quantityOnHand.units) ⟨?_, fun h => h product level own hphase⟩
      rintro h _ _ _ hopened
      rw [hphase] at hopened
      cases hopened
      exact h
    | _ =>
      refine .isTrue ?_
      intro _ _ _ hopened
      rw [hphase] at hopened
      cases hopened
  | lockLevel =>
    unfold Serialized
    infer_instance
  | _ => exact .isTrue trivial

omit [Format] in
theorem Planned.of_held {l : StockLedger} {t : MovementTx} {product : Product} {level : StockLevel}
    {own : Bool} {plan : MovementPlan} (hreplays : Replays l t.request.productId)
    (hheld : Held l t level own)
    (hplan : plan.onHand = add level.quantityOnHand.val t.request.signedDelta ∧ 0 ≤ plan.onHand)
    (hphase : t.phase = .opened product level own) (hguard : Serialized l t .readSequence) :
    Planned l t level own plan (l.lastSequence t.request.productId + 1) := by
  obtain ⟨hfirst, halike⟩ := hguard product level own hphase
  refine ⟨hheld, hplan, halike, ?_, fun _ => rfl⟩
  intro hown
  unfold StockLedger.lastSequence
  rw [hreplays.owned.mp (hfirst hown)]
  rfl

/-- What the transaction that takes a step relies on afterwards. -/
theorem Advanced.own {l l' : StockLedger} {others : List MovementTx} {t t' : MovementTx}
    {action : MovementAction} (hl : ∀ productId, Replays l productId) (ht : Sound l t)
    (hothers : ∀ u ∈ others, Sound l u ∧ Apart t u) (hguard : Serialized l t action)
    (h : Advanced l others t action l' (some t')) :
    l' = l ∧ Sound l t' ∧ ∀ u ∈ others, Apart t' u := by
  cases h with
  | waiting hphase =>
    refine ⟨rfl, ?_, ?_⟩
    · rcases hphase with hphase | ⟨product, ids, hphase⟩ <;> simp only [Sound, hphase]
    · intro u hu
      apply apart_of_idle
      · intro id
        rcases hphase with hphase | ⟨product, ids, hphase⟩ <;> simp only [locks, hphase]
      · rcases hphase with hphase | ⟨product, ids, hphase⟩ <;>
          simp only [MovementTx.appended, hphase]
  | locked hphase hrow hfree =>
    rename_i product ids row
    have hattributes := attributes_eq (fun level hlevel hid => hguard level hlevel row hrow hid)
    refine ⟨rfl, ⟨row, (hl _).levelsOf_eq hrow, hattributes⟩, ?_⟩
    intro u hu
    refine ⟨?_, ?_⟩
    · intro id hid hulocks
      have heq : (t.attributes row).id = id := by simpa [locks] using hid
      rw [← heq, hattributes.1, hfree u hu] at hulocks
      cases hulocks
    · intro a ha
      cases ha
  | created hphase =>
    refine ⟨rfl, rfl, ?_⟩
    intro u hu
    exact apart_of_idle (fun id => rfl) rfl
  | numbered hphase hplan =>
    rename_i product level own plan
    have hheld : Held l t level own := by simpa only [Sound, hphase] using ht
    have hplanned := Planned.of_held (hl _) hheld (planMovement_eq_ok hplan) hphase hguard
    refine ⟨rfl, ⟨hplanned.held, hplanned.plan, hplanned.alike, hplanned.first, hplanned.next⟩, ?_⟩
    intro u hu
    refine ⟨?_, ?_⟩
    · intro id hid
      exact (hothers u hu).2.locks id (by simpa [locks, hphase] using hid)
    · intro a ha
      cases ha
  | written hphase hmovement hfree hresult =>
    rename_i level own plan sequence movement l₁
    have hplanned : Planned l t level own plan sequence := by simpa only [Sound, hphase] using ht
    refine ⟨rfl, ⟨⟨hplanned.held, hplanned.plan, hplanned.alike, hplanned.first, hplanned.next⟩,
      ⟨movement, hmovement⟩, ?_⟩, ?_⟩
    · rintro rfl
      rw [hplanned.first rfl] at hresult
      exact levelsOf_eq_nil_of_first (hl _) hresult
    · intro u hu
      refine ⟨?_, ?_⟩
      · intro id hid
        exact (hothers u hu).2.locks id (by simpa [locks, hphase] using hid)
      · intro a ha b hb hclash
        obtain rfl : movement = a := Option.some.inj (hmovement.symm.trans ha)
        have hwaits : insertWaits MovementTx.appended others movement = true := by
          unfold insertWaits
          rw [List.any_eq_true]
          exact ⟨u, hu, by rw [hb]; exact Row.clash_symm hclash⟩
        rw [hwaits] at hfree
        cases hfree

theorem secure : Secure machine Serialized (fun l => ∀ productId, Replays l productId)
    Sound Apart where
  symm := Apart.symm
  starts _ := trivial
  starts_apart _ := apart_of_idle (fun _ => rfl) rfl
  advances := by
    intro l others t action l' ended hl ht hothers hguard hadvance
    have hcases := advance_cases hadvance
    cases ended with
    | some t' =>
      obtain ⟨rfl, hsound, hapart⟩ := hcases.own hl ht hothers hguard
      refine ⟨hl, ?_, fun u hu => (hothers u hu).1⟩
      intro _ ht'
      obtain rfl := Option.some.inj ht'
      exact ⟨hsound, hapart⟩
    | none =>
      cases hcases with
      | ended => exact ⟨hl, by simp, fun u hu => (hothers u hu).1⟩
      | committed hphase hresult =>
        have hplanned := ht
        simp only [Sound, hphase] at hplanned
        obtain ⟨⟨movement, hmoved⟩, halike⟩ :=
          hplanned.1.moved (hl _) hplanned.2.2 hresult
        refine ⟨fun productId => hmoved.replays halike productId (hl productId), by simp, ?_⟩
        intro u hu
        exact Sound.frame hphase ht (hothers u hu).2 hmoved (hothers u hu).1

end

end MovementTx

abbrev StockSystem := System StockLedger MovementTx

section
variable [Context] [Format]

/-- The level that the next movement of the product starts from. -/
def StockLedger.levelFor (l : StockLedger) (productId levelId : Uuid) : StockLevel :=
  ((l.levelsOf productId).head?).getD (.fresh levelId productId)

structure StockLedger.FreshStamp (l : StockLedger) (stamp : MovementStamp) : Prop where
  level : ∀ row ∈ l.stockLevels.rows, row.id ≠ stamp.levelId
  movement : ∀ row ∈ l.stockMovements.rows, row.id ≠ stamp.movementId

/-- Every later movement that its product allows and its columns can hold goes through. -/
def Db.Applicable (db : Db) (productId : Uuid) : Prop :=
  ∀ (product : Product) (request : MovementRequest) (stamp : MovementStamp) (plan : MovementPlan),
    db.getProduct productId = some product → product.isActive → request.productId = productId →
    db.FreshStamp stamp →
    planMovement product (db.levelFor productId stamp.levelId) request = .ok plan →
    (StockLedger.movementRow? request plan stamp (db.lastSequence productId + 1)).isSome →
    (StockLedger.levelRow? plan (db.levelFor productId stamp.levelId)
      (db.levelFor productId stamp.levelId)).isSome →
    ∃ r db', applyMovement request stamp noFaults db = .ok r db'

omit [Context] [Format] in
theorem createLevel_isSome {l : StockLedger} {id productId : Uuid} {product : Product}
    (hproduct : l.getProduct productId = some product)
    (hfresh : ∀ row ∈ l.stockLevels.rows, row.id ≠ id) : (l.createLevel id productId).isSome := by
  have hins : (l.stockLevels.insert? (.fresh id productId)).isSome := by
    apply Table.insert?_isSome
    intro row hrow hclash
    -- a missing location equals no other
    have hsame : (row.id == id || (row.productId == productId && sameValue row.locationId none)) =
      true := hclash
    cases hlocation : row.locationId <;> simp [hlocation, sameValue, hfresh row hrow] at hsame
  obtain ⟨stockLevels, hstockLevels⟩ := Option.isSome_iff_exists.mp hins
  simp [StockLedger.createLevel, hproduct, hstockLevels]

omit [Context] [Format] in
theorem getOrCreateLevel_ok {db : Db} {productId levelId : Uuid} {product : Product}
    (hsingle : (db.levelsOf productId).length ≤ 1)
    (hproduct : db.getProduct productId = some product)
    (hfresh : ∀ row ∈ db.stockLevels.rows, row.id ≠ levelId) :
    ∃ db', getOrCreateLevel productId levelId noFaults db =
      .ok (db.levelFor productId levelId) db' := by
  cases hlevels : db.levelsOf productId with
  | nil =>
    obtain ⟨l₁, hcreate⟩ := Option.isSome_iff_exists.mp (createLevel_isSome hproduct hfresh)
    refine ⟨{ db with toStockLedger := l₁ }, ?_⟩
    simp only [getOrCreateLevel, Tx.bind_eq_ok, Tx.select_eq_ok]
    refine ⟨[], db, ⟨rfl, hlevels, rfl⟩, ?_⟩
    simp only [Tx.bind_eq_ok, Tx.flush_eq_ok, Tx.pure_apply, Outcome.ok.injEq]
    refine ⟨(), _, ⟨rfl, ?_⟩, ?_, rfl⟩
    · simp only [Db.onStock, hcreate, Option.map_some]
    · simp [StockLedger.levelFor, hlevels]
  | cons row rest =>
    cases rest with
    | nil =>
      refine ⟨db, ?_⟩
      simp only [getOrCreateLevel, Tx.bind_eq_ok, Tx.select_eq_ok]
      refine ⟨[row], db, ⟨rfl, hlevels, rfl⟩, ?_⟩
      simp [StockLedger.levelFor, hlevels]
    | cons second rest =>
      rw [hlevels] at hsingle
      simp at hsingle

omit [Context] [Format] in
theorem le_lastSequence {l : StockLedger} {productId : Uuid} {movement : StockMovement}
    (h : movement ∈ l.movementsOf productId) : movement.sequence ≤ l.lastSequence productId := by
  have hmem : movement.sequence ∈ (l.movementsOf productId).map StockMovement.sequence :=
    List.mem_map_of_mem h
  obtain ⟨last, hlast⟩ := Option.isSome_iff_exists.mp (List.isSome_max?_of_mem hmem)
  rw [StockLedger.lastSequence, hlast]
  exact (List.max?_eq_some_iff.mp hlast).2 _ hmem

omit [Context] [Format] in
theorem Opened.writeMovement_isSome {l l₁ : StockLedger} {level : StockLevel}
    {request : MovementRequest} {plan : MovementPlan} {stamp : MovementStamp}
    (hopened : Opened l l₁ request.productId level)
    (hfresh : ∀ row ∈ l.stockMovements.rows, row.id ≠ stamp.movementId)
    (hmovement : (StockLedger.movementRow? request plan stamp
      (l.lastSequence request.productId + 1)).isSome)
    (hlevel : (StockLedger.levelRow? plan level level).isSome) :
    (l₁.writeMovement level request plan stamp
      (l.lastSequence request.productId + 1)).isSome := by
  obtain ⟨movement, hmovement⟩ := Option.isSome_iff_exists.mp hmovement
  obtain ⟨hid, hproduct, hsequence, -⟩ := movementRow?_eq_some hmovement
  have hins : (l₁.stockMovements.insert? movement).isSome := by
    rw [hopened.movements]
    apply Table.insert?_isSome
    intro row hrow hclash
    have hsame : (row.id == movement.id ||
      (row.productId == movement.productId && row.sequence == movement.sequence)) = true := hclash
    simp only [hid, hproduct, hsequence, Bool.or_eq_true, Bool.and_eq_true, beq_iff_eq] at hsame
    rcases hsame with hsame | ⟨howner, hnumber⟩
    · exact hfresh row hrow hsame
    · have hmem : row ∈ l.movementsOf request.productId :=
        List.mem_filter.mpr ⟨hrow, by simpa using howner⟩
      have hle := le_lastSequence hmem
      omega
  have hmem : level ∈ l₁.levelsOf request.productId := by
    rw [hopened.levels]
    exact List.mem_singleton_self level
  have hrow := (List.mem_filter.mp hmem).1
  have hupdate : (l₁.stockLevels.update? (·.id == level.id) (StockLedger.levelRow? plan level)
      (fun _ _ => StockLedger.levelRow?_clash)).isSome := by
    apply Table.update?_isSome
    intro a ha hid
    have hclash : Row.clash a level = true := by
      show (a.id == level.id || _) = true
      simp [beq_iff_eq.mp hid]
    rw [Table.eq_of_clash ha hrow hclash]
    exact hlevel
  obtain ⟨stockMovements, hins⟩ := Option.isSome_iff_exists.mp hins
  obtain ⟨stockLevels, hupdate⟩ := Option.isSome_iff_exists.mp hupdate
  simp [StockLedger.writeMovement, hmovement, hins, hupdate]

theorem applyMovement_ok {db : Db} {product : Product} {request : MovementRequest}
    {stamp : MovementStamp} {plan : MovementPlan}
    (hsingle : (db.levelsOf request.productId).length ≤ 1)
    (hproduct : db.getProduct request.productId = some product) (hactive : product.isActive)
    (hfresh : db.FreshStamp stamp)
    (hplan : planMovement product (db.levelFor request.productId stamp.levelId) request = .ok plan)
    (hmovement : (StockLedger.movementRow? request plan stamp
      (db.lastSequence request.productId + 1)).isSome)
    (hlevel : (StockLedger.levelRow? plan (db.levelFor request.productId stamp.levelId)
      (db.levelFor request.productId stamp.levelId)).isSome) :
    ∃ r db', applyMovement request stamp noFaults db = .ok r db' := by
  obtain ⟨db₁, hopen⟩ := getOrCreateLevel_ok hsingle hproduct hfresh.level
  obtain ⟨l₁, hopened, rfl, -⟩ := getOrCreateLevel_eq_ok hopen
  obtain ⟨l', hwrite⟩ := Option.isSome_iff_exists.mp
    (hopened.writeMovement_isSome hfresh.movement hmovement hlevel)
  have hlast : l₁.lastSequence request.productId = db.lastSequence request.productId := by
    unfold StockLedger.lastSequence StockLedger.movementsOf
    rw [hopened.movements]
  refine ⟨(l'.stockMovements.find? (·.id == stamp.movementId), plan.signal, plan.recovered),
    { db with toStockLedger := l' }, ?_⟩
  simp only [applyMovement, Tx.bind_eq_ok, Tx.select_eq_ok, Tx.getOrRaise_eq_ok, Tx.raiseIf_eq_ok]
  refine ⟨_, _, ⟨rfl, rfl, rfl⟩, product, _, ⟨hproduct, rfl⟩, (), _, ⟨by simp [hactive], rfl⟩,
    _, _, hopen, ?_⟩
  simp only [hplan, Tx.bind_eq_ok, Tx.select_eq_ok, Tx.flush_eq_ok, Tx.pure_apply,
    Outcome.ok.injEq]
  refine ⟨_, _, ⟨rfl, rfl, rfl⟩, (), _, ⟨rfl, ?_⟩, _, _, ⟨rfl, rfl, rfl⟩, rfl, rfl⟩
  simp only [Db.onStock, hlast, hwrite, Option.map_some]

theorem Replays.applicable {db : Db} {productId : Uuid}
    (hreplays : Replays db.toStockLedger productId) : db.Applicable productId := by
  intro product request stamp plan hproduct hactive hid hfresh hplan hmovement hlevel
  subst hid
  exact applyMovement_ok hreplays.single hproduct hactive hfresh hplan hmovement hlevel

/-- In every interleaving whose statements are serialized, the product has one level, the
level is the sum of the committed movements, and later movements go through. -/
theorem serialized_movements {start sys : StockSystem} (hlevels : start.store.stockLevels = ∅)
    (hmovements : start.store.stockMovements = ∅) (hsessions : start.sessions = [])
    (hrun : Runs.Reaches MovementTx.machine.step (OnSession MovementTx.Serialized) start sys)
    (productId : Uuid) :
    (sys.store.levelsOf productId).length ≤ 1 ∧
    sys.store.onHand productId =
      moved signedQuantity balanceAfter 0 (sys.store.movementsOf productId) ∧
    ∀ db : Db, db.toStockLedger = sys.store → db.Applicable productId := by
  have hstart : Holds (fun l => ∀ productId, Replays l productId) MovementTx.Sound
      MovementTx.Apart start := by
    refine ⟨replays_of_empty hlevels hmovements, ?_, ?_⟩
    · rw [hsessions]
      simp
    · rw [hsessions]
      exact .nil
  have hreplays := (MovementTx.secure.run hrun hstart).store productId
  refine ⟨hreplays.single, ?_, ?_⟩
  · rw [hreplays.closing, hreplays.chained.closing_eq, zero_add]
  · intro db hdb
    rw [← hdb] at hreplays
    exact hreplays.applicable

end

/-! Two sessions on the first movements of one product. -/

abbrev StockSystemAction := Sessions.Action (MovementRequest × MovementStamp) MovementAction

def emptyStock : StockSystem where
  store := oneProduct.toStockLedger
  sessions := []

def beginReceipt [Context] (quantity : ℚ) (quantity_pos : 0 < quantity) (levelId movementId : Uuid) :
    StockSystemAction :=
  .start ((receiptOf quantity quantity_pos).request 1 none, ⟨levelId, movementId, 1⟩)

/-- The second receipt waits for the row that the first one inserts and commits. -/
def serializedRun [Context] : List StockSystemAction :=
  [beginReceipt 10 ten_is_pos 50 60, .advance 0 .selectLevel, .advance 0 .lockLevel,
    .advance 0 .readSequence, .advance 0 .write, beginReceipt 4 four_is_pos 51 61,
    .advance 1 .commit, .advance 0 .selectLevel, .advance 0 .lockLevel, .advance 0 .readSequence,
    .advance 0 .write, .advance 0 .commit]

theorem serializedRun_sums :
    letI := Context.default
    letI := Format.plain
    ∃ sys, Runs.Reaches MovementTx.machine.step (OnSession MovementTx.Serialized) emptyStock sys ∧
      (sys.store.movementsOf 1).map balanceAfter = [10000, 14000] ∧
      (sys.store.levelsOf 1).length ≤ 1 ∧
      sys.store.onHand 1 = moved signedQuantity balanceAfter 0 (sys.store.movementsOf 1) := by
  let := Context.default
  let := Format.plain
  have hreplay : (Runs.replay MovementTx.machine.step (OnSession MovementTx.Serialized) emptyStock
      serializedRun).map (fun sys => (sys.store.movementsOf 1).map balanceAfter) =
        some [10000, 14000] := by
    decide +kernel
  obtain ⟨sys, hrun, hmovements⟩ := Runs.replay_map_reaches hreplay
  obtain ⟨hsingle, hsum, -⟩ := serialized_movements rfl rfl rfl hrun 1
  exact ⟨sys, hrun, hmovements, hsingle, hsum⟩

/-- Both find no level; the second takes its number after the first has committed. -/
def racedRun [Context] : List StockSystemAction :=
  [beginReceipt 10 ten_is_pos 50 60, .advance 0 .selectLevel, .advance 0 .lockLevel,
    beginReceipt 4 four_is_pos 51 61, .advance 0 .selectLevel, .advance 0 .lockLevel,
    .advance 1 .readSequence, .advance 0 .write, .advance 0 .commit, .advance 0 .readSequence,
    .advance 0 .write, .advance 0 .commit]

/-- After a receipt of ten, a session reads the level, another one moves it, and the
first then locks the row and works on what it has read. -/
def staleRun [Context] : List StockSystemAction :=
  [beginReceipt 10 ten_is_pos 50 60, .advance 0 .selectLevel, .advance 0 .lockLevel,
    .advance 0 .readSequence, .advance 0 .write, .advance 0 .commit,
    beginReceipt 4 four_is_pos 51 61, .advance 0 .peekLevel,
    beginReceipt 5 (by norm_num) 52 62, .advance 0 .selectLevel, .advance 0 .lockLevel,
    .advance 0 .readSequence, .advance 0 .write, .advance 0 .commit,
    .advance 0 .selectLevel, .advance 0 .lockLevel, .advance 0 .readSequence, .advance 0 .write,
    .advance 0 .commit]

/-- Two levels that no later movement gets past, and an update that is lost. -/
theorem unserialized_movements :
    letI := Context.default
    letI := Format.plain
    (∃ sys, Runs.Reaches MovementTx.machine.step (OnSession fun _ _ _ => True) emptyStock sys ∧
      (sys.store.levelsOf 1).map (·.quantityOnHand.units) = [10000, 4000] ∧
      ∀ (db : Db) (request : MovementRequest) (stamp : MovementStamp)
        (faults : Faults Site ServiceError), db.toStockLedger = sys.store →
        request.productId = 1 → ∀ r db', applyMovement request stamp faults db ≠ .ok r db') ∧
    ∃ sys, Runs.Reaches MovementTx.machine.step (OnSession fun _ _ _ => True) emptyStock sys ∧
      ((sys.store.movementsOf 1).map balanceAfter, sys.store.onHand 1) =
        ([10000, 15000, 14000], 14000) := by
  let := Context.default
  let := Format.plain
  have hraced : (Runs.replay MovementTx.machine.step (OnSession fun _ _ _ => True) emptyStock
      racedRun).map (fun sys => (sys.store.levelsOf 1).map (·.quantityOnHand.units)) =
        some [10000, 4000] := by
    decide +kernel
  have hstale : (Runs.replay MovementTx.machine.step (OnSession fun _ _ _ => True) emptyStock
      staleRun).map (fun sys => ((sys.store.movementsOf 1).map balanceAfter, sys.store.onHand 1)) =
        some ([10000, 15000, 14000], 14000) := by
    decide +kernel
  refine ⟨?_, Runs.replay_map_reaches hstale⟩
  obtain ⟨sys, hrun, hlevels⟩ := Runs.replay_map_reaches hraced
  refine ⟨sys, hrun, hlevels, ?_⟩
  intro db request stamp faults hdb hproduct r db' happly
  obtain ⟨_, _, hmoved, -⟩ := applyMovement_eq_ok happly
  have hsingle := hmoved.single
  have hlength := congrArg List.length hlevels
  rw [hdb, hproduct] at hsingle
  rw [List.length_map] at hlength
  simp only [List.length_cons, List.length_nil] at hlength
  omega

end Finguard
