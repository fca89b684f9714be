import Finguard.Lib.Binary64
import Finguard.Lib.Scan
import Finguard.PythonValues

/-! What Python's operators make of JSON values: comparisons, iteration, sums, and what they
raise. Tuples and lists are the same here. -/

namespace Finguard

namespace Number

def lt : Number → Number → Bool
  | finite p, finite q => p < q
  | finite _, infinite negative => !negative
  | infinite negative, finite _ => negative
  | infinite a, infinite b => a && !b
  | _, _ => false

def eq : Number → Number → Bool
  | nan, _ => false
  | x, y => x = y

def le (x y : Number) : Bool := x.lt y || x.eq y

/-- The float nearest a rational. -/
def ofRat (q : ℚ) : Number :=
  if Binary64.roundNearest |q| < Binary64.overflow then
    finite (if q < 0 then -Binary64.roundNearest |q| else Binary64.roundNearest |q|)
  else infinite (q < 0)

def neg : Number → Number
  | finite q => finite (-q)
  | infinite negative => infinite (!negative)
  | nan => nan

def add : Number → Number → Number
  | finite p, finite q => ofRat (p + q)
  | infinite a, infinite b => if a = b then infinite a else nan
  | infinite a, finite _ => infinite a
  | finite _, infinite b => infinite b
  | _, _ => nan

def sub (x y : Number) : Number := x.add y.neg

def abs : Number → Number
  | finite q => finite |q|
  | infinite _ => infinite false
  | nan => nan

def isFiniteNonzero : Number → Bool
  | finite q => q != 0
  | _ => false

end Number

/-- A whole number that is not too large for a float. -/
def FitsFloat (n : ℤ) : Prop := Binary64.roundNearest |(n : ℚ)| < Binary64.overflow

instance (n : ℤ) : Decidable (FitsFloat n) := inferInstanceAs (Decidable (_ < _))

def floatOfInt (n : ℤ) : Except PyException Number :=
  if FitsFloat n then .ok (.ofRat n) else .error .overflowError

namespace PyValue

@[elab_as_elim]
theorem recursion {motive : PyValue → Prop} (scalar : ∀ v, (∀ items, v ≠ array items) →
      (∀ fields, v ≠ object fields) → motive v)
    (array : ∀ items, (∀ v ∈ items, motive v) → motive (array items))
    (object : ∀ fields, (∀ f ∈ fields, motive f.2) → motive (object fields)) :
    ∀ v, motive v :=
  @PyValue.rec motive (fun items => ∀ v ∈ items, motive v)
    (fun fields => ∀ f ∈ fields, motive f.2) (fun f => motive f.2)
    (scalar _ nofun nofun) (fun _ => scalar _ nofun nofun) (fun _ => scalar _ nofun nofun)
    (fun _ => scalar _ nofun nofun) (fun _ => scalar _ nofun nofun) array
    object (by simp) (fun _ _ hv hvs => by simpa using ⟨hv, hvs⟩) (by simp)
    (fun f _ hf hfs => by
      intro g hg
      rcases List.mem_cons.mp hg with rfl | hg
      · exact hf
      · exact hfs g hg)
    (fun _ _ hv => hv)

def int? : PyValue → Option ℤ
  | int n => some n
  | bool b => some (if b then 1 else 0)
  | _ => none

def number? : PyValue → Option Number
  | float x => some x
  | v => v.int?.map fun n => .finite n

def truthy : PyValue → Bool
  | null => false
  | bool b => b
  | int n => n != 0
  | float x => !x.isZero
  | text s => s != ""
  | array items => !items.isEmpty
  | object fields => !fields.isEmpty

/-- What a loop over the value visits: the characters of a text, the keys of a dictionary. -/
def items? : PyValue → Option (List PyValue)
  | array items => some items
  | text s => some (s.toList.map fun c => text (String.ofList [c]))
  | object fields => some (fields.map fun f => text f.1)
  | _ => none

def pair? (v : PyValue) : Option (PyValue × PyValue) :=
  match v.items? with
  | some [a, b] => some (a, b)
  | _ => none

end PyValue

open PyValue

/-! Comparisons. -/

def scalarEq (v w : PyValue) : Bool :=
  match v, w with
  | .null, .null => true
  | .text s, .text t => s == t
  | v, w => (v.number?.bind fun x => w.number?.map (x.eq ·)).getD false

mutual

def pyEq : PyValue → PyValue → Bool
  | .array xs, .array ys => pyEqAll xs ys
  | .object fs, .object gs => fs.length == gs.length && pyEqFields fs gs
  | v, w => scalarEq v w

def pyEqAll : List PyValue → List PyValue → Bool
  | [], [] => true
  | x :: xs, y :: ys => pyEq x y && pyEqAll xs ys
  | _, _ => false

def pyEqFields : PyFields → PyFields → Bool
  | [], _ => true
  | f :: fs, gs => pyEqField f gs && pyEqFields fs gs

def pyEqField : String × PyValue → PyFields → Bool
  | (key, v), gs =>
    match gs.lookup key with
    | some w => pyEq v w
    | none => false

end

def scalarLt (v w : PyValue) : Except PyException Bool :=
  match v, w with
  | .text s, .text t => .ok (decide (s.toList < t.toList))
  | v, w =>
    match v.number?, w.number? with
    | some x, some y => .ok (x.lt y)
    | _, _ => .error .typeError

mutual

/-- Sequences are compared at their first difference. -/
def pyLt : PyValue → PyValue → Except PyException Bool
  | .array xs, .array ys => pyLtAll xs ys
  | v, w => scalarLt v w

def pyLtAll : List PyValue → List PyValue → Except PyException Bool
  | x :: xs, y :: ys => if pyEq x y then pyLtAll xs ys else pyLt x y
  | [], _ :: _ => .ok true
  | _, [] => .ok false

end

/-! Sums. Whole numbers are added exactly; from the first float on the sum is a float, with a
compensation for what rounding loses. -/

def sumRest : Number → List PyValue → Except PyException PyValue
  | total, [] => .ok (.float total)
  | total, .float x :: vs => sumRest (total.add x) vs
  | total, v :: vs =>
    match v.int? with
    | some n => do
      let x ← floatOfInt n
      sumRest (total.add x) vs
    | none => .error .typeError

/-- Whole numbers beyond the machine's are added without compensation from then on. -/
def sumBig : ℤ → List PyValue → Except PyException PyValue
  | total, [] => .ok (.int total)
  | total, .float x :: vs => do
    let y ← floatOfInt total
    sumRest (y.add x) vs
  | total, v :: vs =>
    match v.int? with
    | some n => sumBig (total + n) vs
    | none => .error .typeError

def IsLong (n : ℤ) : Prop := -2 ^ 63 ≤ n ∧ n < 2 ^ 63

instance (n : ℤ) : Decidable (IsLong n) := inferInstanceAs (Decidable (_ ∧ _))

def compensated (total lost : Number) : Number :=
  if lost.isFiniteNonzero then total.add lost else total

def lostBy (total x : Number) : Number :=
  let sum := total.add x
  if x.abs.le total.abs then (total.sub sum).add x else (x.sub sum).add total

def sumFloats : Number → Number → List PyValue → Except PyException PyValue
  | total, lost, [] => .ok (.float (compensated total lost))
  | total, lost, .float x :: vs => sumFloats (total.add x) (lost.add (lostBy total x)) vs
  | total, lost, v :: vs =>
    match v.int? with
    | some n =>
      if IsLong n then sumFloats (total.add (.ofRat n)) lost vs
      else do
        let x ← floatOfInt n
        sumRest ((compensated total lost).add x) vs
    | none => .error .typeError

def sumInts : ℤ → List PyValue → Except PyException PyValue
  | total, [] => .ok (.int total)
  | total, .float x :: vs => do
    let y ← floatOfInt total
    sumFloats (y.add x) (.finite 0) vs
  | total, v :: vs =>
    match v.int? with
    | some n =>
      if IsLong n ∧ IsLong (total + n) then sumInts (total + n) vs else sumBig (total + n) vs
    | none => .error .typeError

def pySum (items : List PyValue) : Except PyException PyValue := sumInts 0 items

/-- The difference of a number and a float. -/
def minusFloat (v : PyValue) (x : Number) : Except PyException Number :=
  match v with
  | .float y => .ok (y.sub x)
  | v =>
    match v.int? with
    | some n => (floatOfInt n).map (·.sub x)
    | none => .error .typeError

/-! Steps that may raise. -/

section
variable {α β : Type}

def orTypeError (x : Option α) : Except PyException α := x.elim (.error .typeError) .ok

def pyIter (v : PyValue) : Except PyException (List PyValue) := orTypeError v.items?

def pyLen (v : PyValue) : Except PyException ℕ := (pyIter v).map List.length

def numberOf (v : PyValue) : Except PyException Number := orTypeError v.number?

/-- An assignment to two names. -/
def unpackPair (v : PyValue) : Except PyException (PyValue × PyValue) := do
  let items ← pyIter v
  match items with
  | [a, b] => .ok (a, b)
  | _ => .error .valueError

/-- `all` stops at the first item that fails. -/
def pyAll (p : α → Except PyException Bool) : List α → Except PyException Bool
  | [] => .ok true
  | a :: l => do if ← p a then pyAll p l else .ok false

/-- `and` does not look at its second operand if the first fails. -/
def pyAnd (x y : Except PyException Bool) : Except PyException Bool := do
  if ← x then y else .ok false

def Evaluates (x : Except PyException α) : Prop := ∃ a, x = .ok a

/-- What holds of each item up to the first where the scan stops. -/
def EachUntil (stop holds : α → Prop) : List α → Prop
  | [] => True
  | a :: l => holds a ∧ (stop a ∨ EachUntil stop holds l)

variable {x : Except PyException α} {f : α → Except PyException β} {v w : PyValue}

@[simp] theorem evaluates_ok (a : α) : Evaluates (Except.ok a : Except PyException α) := ⟨a, rfl⟩

@[simp] theorem not_evaluates_error (exc : PyException) :
    ¬ Evaluates (Except.error exc : Except PyException α) := nofun

theorem evaluates_bind : Evaluates (x >>= f) ↔ ∃ a, x = .ok a ∧ Evaluates (f a) := by
  cases x with
  | ok a => simp [bind, Except.bind]
  | error exc => simp [bind, Except.bind]

@[simp] theorem evaluates_map (g : α → β) : Evaluates (x.map g) ↔ Evaluates x := by
  cases x <;> simp [Except.map]

@[simp] theorem evaluates_orTypeError (o : Option α) : Evaluates (orTypeError o) ↔ o.isSome := by
  cases o <;> simp [orTypeError]

theorem orTypeError_eq_ok {o : Option α} {a : α} : orTypeError o = .ok a ↔ o = some a := by
  cases o <;> simp [orTypeError]

theorem unpackPair_eq_ok {p : PyValue × PyValue} : unpackPair v = .ok p ↔ v.pair? = some p := by
  unfold unpackPair pyIter pair?
  cases v.items? with
  | none => simp [orTypeError, bind, Except.bind]
  | some items =>
    simp only [orTypeError, Option.elim_some, bind, Except.bind]
    split
    · simp
    · rename_i hne
      split
      · rename_i a b heq
        exact absurd (Option.some.inj heq) (hne a b)
      · simp

theorem evaluates_pyAnd {x y : Except PyException Bool} :
    Evaluates (pyAnd x y) ↔ Evaluates x ∧ (x = .ok true → Evaluates y) := by
  unfold pyAnd
  cases x with
  | error exc => simp [bind, Except.bind]
  | ok b => cases b <;> simp [bind, Except.bind]

theorem evaluates_pyAll {p : α → Except PyException Bool} {l : List α} :
    Evaluates (pyAll p l) ↔ EachUntil (fun a => p a = .ok false) (fun a => Evaluates (p a)) l := by
  induction l with
  | nil => simp [pyAll, EachUntil]
  | cons a l ih =>
    rw [pyAll, EachUntil, evaluates_bind, ← ih]
    cases hp : p a with
    | error exc => simp
    | ok b => cases b <;> simp

theorem EachUntil.congr {stop holds stop' holds' : α → Prop} {l : List α}
    (hholds : ∀ a, holds a ↔ holds' a) (hstop : ∀ a, holds a → (stop a ↔ stop' a)) :
    EachUntil stop holds l ↔ EachUntil stop' holds' l := by
  induction l with
  | nil => exact Iff.rfl
  | cons a l ih =>
    rw [EachUntil, EachUntil, ← hholds a, ih]
    exact and_congr_right fun ha => by rw [hstop a ha]

end

/-! When a comparison or a sum raises nothing. -/

mutual

/-- Two numbers, two texts, or two sequences whose first difference is comparable. -/
def Comparable : PyValue → PyValue → Prop
  | .array xs, .array ys => ComparableAll xs ys
  | v, w => (v.number?.isSome ∧ w.number?.isSome) ∨
      (∃ s, v = .text s) ∧ ∃ t, w = .text t

def ComparableAll : List PyValue → List PyValue → Prop
  | x :: xs, y :: ys => (pyEq x y ∧ ComparableAll xs ys) ∨ (¬ pyEq x y ∧ Comparable x y)
  | _, _ => True

end

theorem evaluates_scalarLt {v w : PyValue} : Evaluates (scalarLt v w) ↔
    (v.number?.isSome ∧ w.number?.isSome) ∨ (∃ s, v = .text s) ∧ ∃ t, w = .text t := by
  unfold scalarLt
  split
  · simp [number?, int?]
  · rename_i hne
    have htexts : ¬ ((∃ s, v = .text s) ∧ ∃ t, w = .text t) := by
      rintro ⟨⟨s, rfl⟩, t, rfl⟩
      exact hne s t rfl rfl
    rw [or_iff_left htexts]
    cases v.number? <;> cases w.number? <;> simp

theorem evaluates_pyLt (v : PyValue) : ∀ w, Evaluates (pyLt v w) ↔ Comparable v w := by
  induction v using PyValue.recursion with
  | array xs ih =>
    intro w
    cases w with
    | array ys =>
      rw [pyLt, Comparable]
      induction xs generalizing ys with
      | nil => cases ys <;> simp [pyLtAll, ComparableAll]
      | cons x xs ihs =>
        cases ys with
        | nil => simp [pyLtAll, ComparableAll]
        | cons y ys =>
          have hrest := ihs (fun v hv => ih v (List.mem_cons_of_mem _ hv)) ys
          have hfirst := ih x List.mem_cons_self y
          rw [pyLtAll, ComparableAll]
          by_cases heq : pyEq x y = true
          · simp [heq, hrest]
          · simp [heq, hfirst]
    | _ => simp only [pyLt, Comparable, evaluates_scalarLt]
  | object fields ih =>
    intro w
    simp only [pyLt, Comparable, evaluates_scalarLt]
  | scalar v harray hobject =>
    intro w
    cases v with
    | array items => exact absurd rfl (harray items)
    | object fields => exact absurd rfl (hobject fields)
    | _ => simp only [pyLt, Comparable, evaluates_scalarLt]

theorem fitsFloat_of_isLong {n : ℤ} (h : IsLong n) : FitsFloat n := by
  have habs : |(n : ℚ)| ≤ 2 ^ 63 := by
    have hint : |n| ≤ 2 ^ 63 := abs_le.mpr ⟨h.1, h.2.le⟩
    exact_mod_cast hint
  rcases (abs_nonneg (n : ℚ)).eq_or_lt with hzero | hpos
  · rw [FitsFloat, ← hzero, Binary64.roundNearest_zero, Binary64.overflow]
    positivity
  · have hmono := Binary64.roundNearest_mono hpos habs
    have hpow : Binary64.roundNearest ((2 : ℚ) ^ 63) = 2 ^ 63 := by
      have hround := @Binary64.roundNearest_zpow 63 (by norm_num)
      exact_mod_cast hround
    rw [hpow] at hmono
    refine lt_of_le_of_lt hmono ?_
    rw [Binary64.overflow]
    exact pow_lt_pow_right₀ (by norm_num) (by norm_num)

/-- What can be added to a float. -/
def IsAddend (v : PyValue) : Prop := (∃ x, v = .float x) ∨ ∃ n, v.int? = some n ∧ FitsFloat n

/-- The whole numbers at the front have a sum that fits, if a float follows or nothing does. -/
def SumsUpFrom : ℤ → List PyValue → Prop
  | total, [] => FitsFloat total
  | total, v :: vs => (∃ n, v.int? = some n ∧ SumsUpFrom (total + n) vs) ∨
      FitsFloat total ∧ (∃ x, v = .float x) ∧ ∀ u ∈ vs, IsAddend u

/-- Numbers with a sum, from which a float can be taken. -/
def SumsUp (items : List PyValue) : Prop := SumsUpFrom 0 items

section sum
variable {vs : List PyValue}

@[simp] theorem evaluates_floatOfInt {n : ℤ} : Evaluates (floatOfInt n) ↔ FitsFloat n := by
  unfold floatOfInt
  by_cases h : FitsFloat n <;> simp [h]

theorem evaluates_floatOfInt_bind {α : Type} {n : ℤ} {f : Number → Except PyException α}
    {p : Prop} (h : ∀ x, Evaluates (f x) ↔ p) :
    Evaluates (floatOfInt n >>= f) ↔ FitsFloat n ∧ p := by
  rw [evaluates_bind]
  constructor
  · rintro ⟨x, hx, hf⟩
    exact ⟨evaluates_floatOfInt.mp ⟨x, hx⟩, (h x).mp hf⟩
  · rintro ⟨hfits, hp⟩
    obtain ⟨x, hx⟩ := evaluates_floatOfInt.mpr hfits
    exact ⟨x, hx, (h x).mpr hp⟩

theorem isAddend_float (x : Number) : IsAddend (.float x) := .inl ⟨x, rfl⟩

theorem isAddend_of_int? {v : PyValue} {n : ℤ} (h : v.int? = some n) :
    IsAddend v ↔ FitsFloat n := by
  constructor
  · rintro (⟨x, rfl⟩ | ⟨m, hm, hfits⟩)
    · cases h
    · rw [h] at hm
      rwa [Option.some.inj hm]
  · exact fun hfits => .inr ⟨n, h, hfits⟩

theorem not_isAddend {v : PyValue} (hfloat : ∀ x, v ≠ .float x) (h : v.int? = none) :
    ¬ IsAddend v := by
  rintro (⟨x, rfl⟩ | ⟨n, hn, -⟩)
  · exact hfloat x rfl
  · rw [h] at hn
    cases hn

theorem evaluates_sumRest (total : Number) :
    Evaluates (sumRest total vs) ↔ ∀ u ∈ vs, IsAddend u := by
  induction vs generalizing total with
  | nil => simp [sumRest]
  | cons v vs ih =>
    rw [List.forall_mem_cons]
    unfold sumRest
    split
    · rename_i heq
      cases heq
    · rename_i x vs' heq
      cases heq
      simp [isAddend_float, ih]
    · rename_i v' vs' hfloat heq
      cases heq
      cases hint : v.int? with
      | none => simp [not_isAddend (fun x hx => hfloat x hx) hint]
      | some n =>
        rw [isAddend_of_int? hint]
        exact evaluates_floatOfInt_bind fun x => ih _

theorem evaluates_sumFloats (total lost : Number) :
    Evaluates (sumFloats total lost vs) ↔ ∀ u ∈ vs, IsAddend u := by
  induction vs generalizing total lost with
  | nil => simp [sumFloats]
  | cons v vs ih =>
    rw [List.forall_mem_cons]
    unfold sumFloats
    split
    · rename_i heq
      cases heq
    · rename_i x vs' heq
      cases heq
      simp [isAddend_float, ih]
    · rename_i v' vs' hfloat heq
      cases heq
      cases hint : v.int? with
      | none => simp [not_isAddend (fun x hx => hfloat x hx) hint]
      | some n =>
        rw [isAddend_of_int? hint]
        by_cases hlong : IsLong n
        · simp [hlong, ih, fitsFloat_of_isLong hlong]
        · simp only [if_neg hlong]
          exact evaluates_floatOfInt_bind fun x => evaluates_sumRest _

theorem sumRest_float {total : Number} {s : PyValue} (h : sumRest total vs = .ok s) :
    ∃ x, s = .float x := by
  induction vs generalizing total with
  | nil => exact ⟨_, (Except.ok.inj h).symm⟩
  | cons v vs ih =>
    unfold sumRest at h
    split at h
    · rename_i heq
      cases heq
    · rename_i heq
      cases heq
      exact ih h
    · rename_i heq
      cases heq
      split at h
      · obtain ⟨x, -, hrest⟩ := Scan.bind_eq_ok.mp h
        exact ih hrest
      · cases h

theorem sumFloats_float {total lost : Number} {s : PyValue}
    (h : sumFloats total lost vs = .ok s) : ∃ x, s = .float x := by
  induction vs generalizing total lost with
  | nil => exact ⟨_, (Except.ok.inj h).symm⟩
  | cons v vs ih =>
    unfold sumFloats at h
    split at h
    · rename_i heq
      cases heq
    · rename_i heq
      cases heq
      exact ih h
    · rename_i heq
      cases heq
      split at h
      · split at h
        · exact ih h
        · obtain ⟨x, -, hrest⟩ := Scan.bind_eq_ok.mp h
          exact sumRest_float hrest
      · cases h

theorem evaluates_minusFloat_of_float {r : Except PyException PyValue} {x : Number}
    (h : ∀ s, r = .ok s → ∃ y, s = .float y) :
    Evaluates (r >>= fun s => minusFloat s x) ↔ Evaluates r := by
  rw [evaluates_bind]
  constructor
  · rintro ⟨s, hs, -⟩
    exact ⟨s, hs⟩
  · rintro ⟨s, hs⟩
    obtain ⟨y, rfl⟩ := h s hs
    exact ⟨_, hs, _, rfl⟩

theorem evaluates_minusFloat_int {n : ℤ} {x : Number} :
    Evaluates (minusFloat (.int n) x) ↔ FitsFloat n := by
  simp [minusFloat, int?]

/-- The step of a sum that meets its first float. -/
theorem evaluates_first_float {total : ℤ} {x : Number}
    {f : Number → Except PyException PyValue} (hf : ∀ y, Evaluates (f y) ↔ ∀ u ∈ vs, IsAddend u)
    (hfloat : ∀ y s, f y = .ok s → ∃ z, s = .float z) :
    Evaluates ((floatOfInt total >>= f) >>= fun s => minusFloat s x) ↔
      FitsFloat total ∧ ∀ u ∈ vs, IsAddend u := by
  rw [evaluates_minusFloat_of_float, evaluates_floatOfInt_bind hf]
  intro s hs
  obtain ⟨y, -, hy⟩ := Scan.bind_eq_ok.mp hs
  exact hfloat y s hy

theorem sumsUpFrom_float {total : ℤ} {x : Number} : SumsUpFrom total (.float x :: vs) ↔
    FitsFloat total ∧ ∀ u ∈ vs, IsAddend u := by
  simp [SumsUpFrom, int?]

theorem sumsUpFrom_int {total n : ℤ} {v : PyValue} (h : v.int? = some n) :
    SumsUpFrom total (v :: vs) ↔ SumsUpFrom (total + n) vs := by
  rw [SumsUpFrom]
  constructor
  · rintro (⟨m, hm, hrest⟩ | ⟨-, ⟨x, rfl⟩, -⟩)
    · rw [h] at hm
      rwa [Option.some.inj hm]
    · cases h
  · exact fun hrest => .inl ⟨n, h, hrest⟩

theorem not_sumsUpFrom {total : ℤ} {v : PyValue} (hfloat : ∀ x, v ≠ .float x)
    (h : v.int? = none) : ¬ SumsUpFrom total (v :: vs) := by
  rintro (⟨n, hn, -⟩ | ⟨-, ⟨x, hx⟩, -⟩)
  · rw [h] at hn
    cases hn
  · exact hfloat x hx

theorem evaluates_sumBig (total : ℤ) (x : Number) :
    Evaluates (sumBig total vs >>= fun s => minusFloat s x) ↔ SumsUpFrom total vs := by
  induction vs generalizing total with
  | nil => exact evaluates_minusFloat_int
  | cons v vs ih =>
    unfold sumBig
    split
    · rename_i heq
      cases heq
    · rename_i heq
      cases heq
      rw [sumsUpFrom_float]
      exact evaluates_first_float (fun y => evaluates_sumRest _) fun y s hs => sumRest_float hs
    · rename_i v' vs' hfloat heq
      cases heq
      cases hint : v.int? with
      | none =>
        simp only [not_sumsUpFrom (fun x hx => hfloat x hx) hint, iff_false]
        exact not_evaluates_error _
      | some n =>
        rw [sumsUpFrom_int hint]
        exact ih _

theorem evaluates_sumInts (total : ℤ) (x : Number) :
    Evaluates (sumInts total vs >>= fun s => minusFloat s x) ↔ SumsUpFrom total vs := by
  induction vs generalizing total with
  | nil => exact evaluates_minusFloat_int
  | cons v vs ih =>
    unfold sumInts
    split
    · rename_i heq
      cases heq
    · rename_i heq
      cases heq
      rw [sumsUpFrom_float]
      exact evaluates_first_float (fun y => evaluates_sumFloats _ _)
        fun y s hs => sumFloats_float hs
    · rename_i v' vs' hfloat heq
      cases heq
      cases hint : v.int? with
      | none =>
        simp only [not_sumsUpFrom (fun x hx => hfloat x hx) hint, iff_false]
        exact not_evaluates_error _
      | some n =>
        rw [sumsUpFrom_int hint]
        dsimp only
        split
        · exact ih _
        · exact evaluates_sumBig _ x

theorem evaluates_pySum_minus (items : List PyValue) (x : Number) :
    Evaluates (pySum items >>= fun s => minusFloat s x) ↔ SumsUp items :=
  evaluates_sumInts 0 x

end sum

end Finguard
