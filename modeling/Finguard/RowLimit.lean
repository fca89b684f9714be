import Finguard.Lib.Numeral
import Finguard.SqlGuard

/-! The limit that the SQL executor puts on a query, and the rows that PostgreSQL delivers. -/

namespace Finguard
open RoseTree Text

/-- `literal` is the text of a literal. -/
structure SqlNode where
  label : Label
  literal : Option String := none
deriving DecidableEq

abbrev SqlTree := RoseTree SqlNode

inductive LimitClause where
  | limit (expression : SqlTree)
  | fetch (count : Option SqlTree) (percent withTies : Bool)

/-- The other parts of a SELECT stand before and after its limit clause. -/
structure SelectQuery where
  before : List SqlTree
  limit : Option LimitClause
  after : List SqlTree

inductive Statement where
  | select (query : SelectQuery)
  | other (tree : SqlTree) (notSelect : tree.label.label ≠ .node .select)

def otherNode (className : String) (children : List SqlTree) : SqlTree :=
  node { label := .node (.other className) } children

def LimitClause.node : LimitClause → SqlTree
  | limit expression => otherNode "Limit" [expression]
  | fetch count _ _ => otherNode "Fetch" (count.toList ++ [otherNode "LimitOptions" []])

def Statement.tree : Statement → Sql
  | select query =>
    (RoseTree.node { label := .node .select }
      (query.before ++ (query.limit.map LimitClause.node).toList ++ query.after)).map SqlNode.label
  | other tree _ => tree.map SqlNode.label

/-- The parser of the guard, and the generator. -/
class SelectParser [Unicode] extends Sqlglot where
  parseStatement : String → Except String (Option Statement)
  parseOne_eq : ∀ query, parseOne query = (parseStatement query).map (Option.map Statement.tree)
  sql : Statement → String

def numberLiteral (n : ℕ) : SqlTree :=
  node { label := .node (.other "Literal"), literal := some (String.ofList (natChars n)) } []

def maxRows : ℕ := 100

section
variable [DecimalDigits]

/-- What the first literal inside the clause says. -/
def LimitClause.current (clause : LimitClause) : ℤ :=
  match clause.node.bfs.findSome? SqlNode.literal with
  | some text => (intOf? text).getD (maxRows + 1)
  | none => maxRows + 1

def SelectQuery.setLimit (query : SelectQuery) (n : ℕ) : SelectQuery :=
  { query with limit := some (.limit (numberLiteral n)) }

def SelectQuery.enforced (query : SelectQuery) : SelectQuery :=
  match query.limit with
  | some clause => if maxRows < clause.current then query.setLimit maxRows else query
  | none => query.setLimit maxRows

variable [Unicode] [SelectParser]

def enforceLimit (query : String) : Except String String :=
  match SelectParser.parseStatement query with
  | .error exc => .error s!"SQL parse error during limit enforcement: {exc}"
  | .ok (some (.select query)) => .ok (SelectParser.sql (.select query.enforced))
  | .ok _ => .error "Internal: non-SELECT reached _enforce_limit"

/-- The query that an executor runs. -/
def safeQuery (query : String) (allowedTables : Option (Finset String)) : Except String String := do
  validate query allowedTables
  enforceLimit query

end

/-! What PostgreSQL delivers. -/

/-- `rows` are those of a query without a limit clause, in the order of their delivery. Where
PostgreSQL refuses, there are none. The value of a limit may be NULL. -/
class Postgres where
  Database : Type
  Row : Type
  rows : SelectQuery → Database → Option (List Row)
  peers : SelectQuery → Database → Row → Row → Bool
  limitValue : SqlTree → Database → Option (Option ℤ)
  limitValue_number : ∀ (n : ℕ) (db : Database),
    limitValue (numberLiteral n) db = some (some (n : ℤ))

/-- A limit of NULL is none at all. -/
def limitBound? : Option ℤ → Option (Option ℕ)
  | none => some none
  | some n => if 0 ≤ n then some (some n.toNat) else none

/-- The rows behind the first `n` that are tied with the last one of these. -/
def tied {α : Type} (peers : α → α → Bool) (n : ℕ) (rows : List α) : List α :=
  match (rows.take n).getLast? with
  | some last => (rows.drop n).takeWhile (peers last)
  | none => []

namespace LimitClause

def isWithTies : LimitClause → Bool
  | limit _ => false
  | fetch _ _ withTies => withTies

def through {α : Type} (clause : LimitClause) (peers : α → α → Bool) (rows : List α) :
    Option ℕ → List α
  | none => rows
  | some n => rows.take n ++ if clause.isWithTies then tied peers n rows else []

/-- How many rows the clause lets through. -/
def reach {α : Type} (clause : LimitClause) (peers : α → α → Bool) (rows : List α) : Option ℕ → ℕ
  | none => rows.length
  | some n => n + if clause.isWithTies then (tied peers n rows).length else 0

variable [Postgres]

def bound? (db : Postgres.Database) : LimitClause → Option (Option ℕ)
  | limit expression => (Postgres.limitValue expression db).bind limitBound?
  | fetch none percent _ => if percent then none else some (some 1)
  | fetch (some count) percent withTies => do
    let value ← Postgres.limitValue count db
    if percent ∨ withTies ∧ value = none then none else limitBound? value

end LimitClause

namespace SelectQuery
variable [Postgres]

def unlimited (query : SelectQuery) : SelectQuery := { query with limit := none }

def run (query : SelectQuery) (db : Postgres.Database) : Option (List Postgres.Row) :=
  match query.limit with
  | none => Postgres.rows query.unlimited db
  | some clause => do
    let bound ← clause.bound? db
    let rows ← Postgres.rows query.unlimited db
    return clause.through (Postgres.peers query.unlimited db) rows bound

end SelectQuery

section rows
variable {α : Type} {peers : α → α → Bool} {clause : LimitClause} {rows : List α}

theorem tied_eq_take (peers : α → α → Bool) (n : ℕ) (rows : List α) :
    tied peers n rows = (rows.drop n).take (tied peers n rows).length := by
  unfold tied
  split
  · exact List.prefix_iff_eq_take.mp (List.takeWhile_prefix _)
  · rfl

/-- What a clause lets through comes first among the rows. -/
theorem LimitClause.through_eq_take (clause : LimitClause) (peers : α → α → Bool) (rows : List α)
    (bound : Option ℕ) :
    clause.through peers rows bound = rows.take (clause.reach peers rows bound) := by
  cases bound with
  | none => exact List.take_length.symm
  | some n =>
    by_cases hties : clause.isWithTies = true
    · rw [through, reach, if_pos hties, if_pos hties, List.take_add, ← tied_eq_take]
    · rw [through, reach, if_neg hties, if_neg hties, List.append_nil, Nat.add_zero]

theorem take_eq_take_of_prefix {m n : ℕ} :
    (rows.take m).take n = rows.take n ↔ n ≤ m ∨ rows.length ≤ m := by
  rw [List.take_take]
  constructor
  · intro h
    have hlength := congrArg List.length h
    rw [List.length_take, List.length_take] at hlength
    omega
  · rintro (h | h)
    · rw [min_eq_left h]
    · by_cases hn : n ≤ m
      · rw [min_eq_left hn]
      · rw [min_eq_right (by omega), List.take_of_length_le h, List.take_of_length_le (by omega)]

end rows

/-- The query as it is run delivers few rows, and of the rows of the query as it was given the
first ones. -/
structure Capped {α : Type} (given run : Option (List α)) : Prop where
  bounded : ∀ rows ∈ run, rows.length ≤ maxRows
  agrees : ∀ rows ∈ given, run = some (rows.take maxRows)

section capped
variable {α : Type} {given : Option (List α)} {bound? : Option (Option ℕ)} {rows? : Option (List α)}
  {reach : Option ℕ → List α → ℕ}

theorem capped_self_iff : Capped given given ↔ ∀ rows ∈ given, rows.length ≤ maxRows := by
  constructor
  · intro h
    exact h.bounded
  · intro h
    refine ⟨h, fun rows hrows => ?_⟩
    rw [List.take_of_length_le (h rows hrows)]
    exact hrows

theorem capped_take_iff :
    Capped (bound?.bind fun bound => rows?.map fun rows => rows.take (reach bound rows))
      (rows?.map (·.take maxRows)) ↔
    ∀ bound ∈ bound?, ∀ rows ∈ rows?,
      maxRows ≤ reach bound rows ∨ rows.length ≤ reach bound rows := by
  constructor
  · rintro ⟨-, hagrees⟩ bound rfl rows rfl
    have hfirst : rows.take maxRows = (rows.take (reach bound rows)).take maxRows :=
      Option.some.inj (hagrees _ rfl)
    exact take_eq_take_of_prefix.mp hfirst.symm
  · intro h
    refine ⟨?_, ?_⟩
    · intro rows hrows
      obtain ⟨all, -, rfl⟩ := Option.map_eq_some_iff.mp hrows
      exact List.length_take_le _ _
    · intro rows hrows
      obtain ⟨bound, hbound, hrows⟩ := Option.bind_eq_some_iff.mp hrows
      obtain ⟨all, hall, rfl⟩ := Option.map_eq_some_iff.mp hrows
      rw [hall, Option.map_some, take_eq_take_of_prefix.mpr (h bound hbound all hall)]

end capped

section
variable [DecimalDigits] [Postgres] {query : SelectQuery} {db : Postgres.Database}

/-- Unless the rows are too few to tell, the clause lets more than the cap through where its first
literal says so, and only there. -/
def SelectQuery.LimitRead (query : SelectQuery) (db : Postgres.Database) : Prop :=
  ∀ clause ∈ query.limit, ∀ bound ∈ clause.bound? db, ∀ rows ∈ Postgres.rows query.unlimited db,
    let reach := clause.reach (Postgres.peers query.unlimited db) rows bound
    (maxRows < clause.current → maxRows ≤ reach ∨ rows.length ≤ reach) ∧
      (clause.current ≤ maxRows → reach ≤ maxRows ∨ rows.length ≤ maxRows)

omit [DecimalDigits] in
theorem run_of_limit {clause : LimitClause} (h : query.limit = some clause) :
    query.run db = (clause.bound? db).bind fun bound =>
      (Postgres.rows query.unlimited db).map fun rows =>
        rows.take (clause.reach (Postgres.peers query.unlimited db) rows bound) := by
  simp only [SelectQuery.run, h, LimitClause.through_eq_take, Option.map_eq_bind]
  rfl

omit [DecimalDigits] in
theorem run_setLimit (query : SelectQuery) (db : Postgres.Database) :
    (query.setLimit maxRows).run db =
      (Postgres.rows query.unlimited db).map (·.take maxRows) := by
  have hbound : LimitClause.bound? db (.limit (numberLiteral maxRows)) = some (some maxRows) := by
    rw [LimitClause.bound?, Postgres.limitValue_number]
    rfl
  rw [run_of_limit rfl, hbound]
  rfl

theorem capped_iff : Capped (query.run db) (query.enforced.run db) ↔ query.LimitRead db := by
  cases hlimit : query.limit with
  | none =>
    have hrun : query.run db = Postgres.rows query.unlimited db := by rw [SelectQuery.run, hlimit]
    have henforced : query.enforced = query.setLimit maxRows := by
      rw [SelectQuery.enforced, hlimit]
    rw [hrun, henforced, run_setLimit]
    constructor
    · intro _ clause hclause
      rw [hlimit] at hclause
      cases hclause
    · intro _
      refine ⟨?_, ?_⟩
      · intro rows hrows
        obtain ⟨all, -, rfl⟩ := Option.map_eq_some_iff.mp hrows
        exact List.length_take_le _ _
      · intro rows hrows
        rw [Option.mem_def.mp hrows, Option.map_some]
  | some clause =>
    rw [SelectQuery.LimitRead, run_of_limit hlimit]
    simp only [hlimit, Option.mem_def, Option.some.injEq, forall_eq']
    by_cases hclamped : maxRows < clause.current
    · have henforced : query.enforced = query.setLimit maxRows := by
        simp only [SelectQuery.enforced, hlimit, if_pos hclamped]
      have hnot : ¬ clause.current ≤ maxRows := by omega
      simp only [henforced, run_setLimit, hclamped, hnot, forall_const, IsEmpty.forall_iff,
        and_true]
      exact capped_take_iff
    · have henforced : query.enforced = query := by
        simp only [SelectQuery.enforced, hlimit, if_neg hclamped]
      have hle : clause.current ≤ maxRows := by omega
      rw [henforced, run_of_limit hlimit, capped_self_iff]
      simp only [hclamped, hle, forall_const, IsEmpty.forall_iff, true_and]
      constructor
      · intro h bound hbound rows hrows
        have hlength := h (rows.take _) (by rw [hbound, Option.bind_some, hrows]; rfl)
        rw [List.length_take] at hlength
        omega
      · intro h rows hrows
        obtain ⟨bound, hbound, hrows⟩ := Option.bind_eq_some_iff.mp hrows
        obtain ⟨all, hall, rfl⟩ := Option.map_eq_some_iff.mp hrows
        have hreach := h bound hbound all hall
        rw [List.length_take]
        omega

/-- A clause that says no more than what it is. -/
inductive LimitClause.Plain : LimitClause → Prop
  | limit (n : ℕ) : Plain (.limit (numberLiteral n))
  | fetch (n : ℕ) : Plain (.fetch (some (numberLiteral n)) false false)
  | all (expression : SqlTree) (hliteral : ∀ node ∈ expression.bfs, node.literal = none)
    (hvalue : ∀ db : Postgres.Database, Postgres.limitValue expression db = some none) :
    Plain (.limit expression)

omit [Postgres] in
theorem current_of_number {clause : LimitClause} {n : ℕ}
    (h : clause.node.bfs.findSome? SqlNode.literal = some (String.ofList (natChars n))) :
    clause.current = n ∨ clause.current = maxRows + 1 ∧ maxRows ≤ n := by
  have hshort : ∀ n < maxRows, (natChars n).length ≤ maxDigits := by decide
  simp only [LimitClause.current, h, intOf?_natChars]
  by_cases hlong : maxDigits < (natChars n).length
  · rw [if_pos hlong]
    refine .inr ⟨rfl, ?_⟩
    by_contra hn
    have hle := hshort n (by omega)
    omega
  · rw [if_neg hlong]
    exact .inl rfl

omit [DecimalDigits] [Postgres] in
theorem literal_of_number (n : ℕ) :
    (LimitClause.limit (numberLiteral n)).node.bfs.findSome? SqlNode.literal =
        some (String.ofList (natChars n)) ∧
      (LimitClause.fetch (some (numberLiteral n)) false false).node.bfs.findSome?
        SqlNode.literal = some (String.ofList (natChars n)) := by
  constructor <;>
    simp [LimitClause.node, otherNode, bfs, walk, size, sizeAll, numberLiteral]

omit [DecimalDigits] [Postgres] in
theorem literal_of_limit {expression : SqlTree}
    (h : ∀ node ∈ expression.bfs, node.literal = none) :
    (LimitClause.limit expression).node.bfs.findSome? SqlNode.literal = none := by
  rw [List.findSome?_eq_none_iff]
  intro found hfound
  rw [mem_bfs, LimitClause.node, otherNode, occurs_node] at hfound
  rcases hfound with rfl | ⟨tree, htree, hfound⟩
  · rfl
  · obtain rfl := List.mem_singleton.mp htree
    exact h found (mem_bfs.mpr hfound)

omit [Postgres] in
theorem read_of_number {clause : LimitClause} {n : ℕ} (length : ℕ)
    (h : clause.current = n ∨ clause.current = maxRows + 1 ∧ maxRows ≤ n) :
    (maxRows < clause.current → maxRows ≤ n ∨ length ≤ n) ∧
      (clause.current ≤ maxRows → n ≤ maxRows ∨ length ≤ maxRows) := by
  omega

theorem limitRead_of_plain (h : ∀ clause ∈ query.limit, clause.Plain) : query.LimitRead db := by
  intro clause hclause bound hbound rows hrows
  cases h clause hclause with
  | limit n =>
    rw [LimitClause.bound?, Postgres.limitValue_number] at hbound
    obtain rfl : some n = bound := by simpa [limitBound?] using hbound
    have hread := read_of_number rows.length (current_of_number (literal_of_number n).1)
    simpa only [LimitClause.reach, LimitClause.isWithTies, Bool.false_eq_true, if_false,
      Nat.add_zero] using hread
  | fetch n =>
    simp only [LimitClause.bound?, Postgres.limitValue_number] at hbound
    obtain rfl : some n = bound := by simpa [limitBound?] using hbound
    have hread := read_of_number rows.length (current_of_number (literal_of_number n).2)
    simpa only [LimitClause.reach, LimitClause.isWithTies, Bool.false_eq_true, if_false,
      Nat.add_zero] using hread
  | all expression hliteral hvalue =>
    rw [LimitClause.bound?, hvalue] at hbound
    obtain rfl : none = bound := by simpa [limitBound?] using hbound
    have hcurrent : (LimitClause.limit expression).current = maxRows + 1 := by
      rw [LimitClause.current, literal_of_limit hliteral]
    refine ⟨fun _ => .inr le_rfl, fun hle => ?_⟩
    omega

end

section
variable [Unicode] [DecimalDigits] [SelectParser]

theorem enforceLimit_eq_ok {text safe : String} (h : enforceLimit text = .ok safe) :
    ∃ query, SelectParser.parseStatement text = .ok (some (.select query)) ∧
      safe = SelectParser.sql (.select query.enforced) := by
  unfold enforceLimit at h
  split at h
  · cases h
  · rename_i query hparsed
    exact ⟨query, hparsed, (Except.ok.inj h).symm⟩
  · cases h

/-- The query that an executor runs is capped on a database where its limit clause comes to
what its first literal says. -/
theorem row_cap_iff [Postgres] {text safe : String} {allowedTables : Option (Finset String)}
    (h : safeQuery text allowedTables = .ok safe) :
    ∃ query, SelectParser.parseStatement text = .ok (some (.select query)) ∧
      safe = SelectParser.sql (.select query.enforced) ∧
      ∀ db, Capped (query.run db) (query.enforced.run db) ↔ query.LimitRead db := by
  have henforced : enforceLimit text = .ok safe := by
    simp only [safeQuery, bind, Except.bind] at h
    split at h
    · cases h
    · exact h
  obtain ⟨query, hparsed, hsafe⟩ := enforceLimit_eq_ok henforced
  exact ⟨query, hparsed, hsafe, fun db => capped_iff⟩

end

/-! Invoices, of which a database has a number. -/

abbrev SelectParser.knowing (text safe : String) (query : SelectQuery)
    (h : Label.node .merge ∉ (Statement.select query).tree.bfs) :
    letI := Unicode.ascii
    SelectParser :=
  letI := Unicode.ascii
  { Sqlglot.knowing text (Statement.select query).tree h with
    parseStatement := fun given =>
      if given = text then .ok (some (.select query)) else .error "unknown text"
    parseOne_eq := by
      intro given
      by_cases htext : given = text
      · rw [if_pos htext]
        exact if_pos htext
      · rw [if_neg htext]
        exact if_neg htext
    sql := fun _ => safe }

def operandValue : SqlTree → Option ℤ
  | node ⟨_, some text⟩ _ => some (natOfChars text.toList)
  | _ => none

def sumValue : SqlTree → Option ℤ
  | node ⟨.node (.other "Add"), none⟩ [a, b] => do
    let left ← operandValue a
    let right ← operandValue b
    return left + right
  | tree => operandValue tree

abbrev Postgres.counting : Postgres where
  Database := ℕ
  Row := ℕ
  rows _ n := some (List.range n)
  peers _ _ _ _ := false
  limitValue tree _ := (sumValue tree).map some
  limitValue_number n _ := by simp [numberLiteral, sumValue, operandValue]

def invoicesQuery (clause : LimitClause) : SelectQuery where
  before := [otherNode "Column" [otherNode "Identifier" []]]
  limit := some clause
  after := [otherNode "From" [node { label := .table { name := some ⟨"invoices", false⟩ } } []]]

def largeLimit : SelectQuery := invoicesQuery (.limit (numberLiteral 5000))

theorem large_limit_capped :
    letI := Unicode.ascii
    letI := DecimalDigits.ascii
    letI := SelectParser.knowing "SELECT id FROM invoices LIMIT 5000"
      "SELECT id FROM invoices LIMIT 100" largeLimit (by decide +kernel)
    letI := Postgres.counting
    safeQuery "SELECT id FROM invoices LIMIT 5000" (some {"invoices"}) =
        .ok "SELECT id FROM invoices LIMIT 100" ∧
      Capped (largeLimit.run (150 : ℕ)) (largeLimit.enforced.run (150 : ℕ)) := by
  let := Unicode.ascii
  let := DecimalDigits.ascii
  let := SelectParser.knowing "SELECT id FROM invoices LIMIT 5000"
    "SELECT id FROM invoices LIMIT 100" largeLimit (by decide +kernel)
  let := Postgres.counting
  have hsafe : safeQuery "SELECT id FROM invoices LIMIT 5000" (some {"invoices"}) =
      .ok "SELECT id FROM invoices LIMIT 100" := by decide +kernel
  refine ⟨hsafe, ?_⟩
  obtain ⟨query, hparsed, -, hcapped⟩ := row_cap_iff hsafe
  obtain rfl : largeLimit = query := by
    have hknown : SelectParser.parseStatement "SELECT id FROM invoices LIMIT 5000" =
        .ok (some (.select largeLimit)) := rfl
    rw [hknown] at hparsed
    cases hparsed
    rfl
  refine (hcapped (150 : ℕ)).mpr (limitRead_of_plain ?_)
  rintro _ ⟨⟩
  exact .limit 5000

def sumLimit : SelectQuery :=
  invoicesQuery (.limit (otherNode "Add" [numberLiteral 50, numberLiteral 100]))

theorem sum_limit_not_capped :
    letI := Unicode.ascii
    letI := DecimalDigits.ascii
    letI := SelectParser.knowing "SELECT id FROM invoices LIMIT 50 + 100"
      "SELECT id FROM invoices LIMIT 50 + 100" sumLimit (by decide +kernel)
    letI := Postgres.counting
    safeQuery "SELECT id FROM invoices LIMIT 50 + 100" (some {"invoices"}) =
        .ok "SELECT id FROM invoices LIMIT 50 + 100" ∧
      SelectParser.parseStatement "SELECT id FROM invoices LIMIT 50 + 100" =
        .ok (some (.select sumLimit)) ∧
      ¬ Capped (sumLimit.run (150 : ℕ)) (sumLimit.enforced.run (150 : ℕ)) := by
  let := Unicode.ascii
  let := DecimalDigits.ascii
  let := SelectParser.knowing "SELECT id FROM invoices LIMIT 50 + 100"
    "SELECT id FROM invoices LIMIT 50 + 100" sumLimit (by decide +kernel)
  let := Postgres.counting
  refine ⟨by decide +kernel, rfl, fun h => ?_⟩
  have hrun : (sumLimit.enforced.run (150 : ℕ)).map List.length = some 150 := by decide +kernel
  obtain ⟨rows, hrows, hlength⟩ := Option.map_eq_some_iff.mp hrun
  have hbounded : rows.length ≤ 100 := h.bounded rows hrows
  omega

end Finguard
