import Finguard.Lib.RoseTree
import Finguard.Lib.Text

/-! The guard in front of the SQL executor, and what PostgreSQL makes of the queries that
pass it. -/

namespace Finguard
open RoseTree Text

structure Identifier where
  text : String
  quoted : Bool := false
deriving DecidableEq

/-- `name` is missing where a function stands for a table. -/
structure TableRef where
  qualifiers : List Identifier := []
  name : Option Identifier
deriving DecidableEq

/-- The name of the table as it was written, without its quotes. -/
def TableRef.text (ref : TableRef) : String := (ref.name.map Identifier.text).getD ""

inductive NodeType where
  | select
  | into
  | insert
  | update
  | delete
  | merge
  | create
  | drop
  | alter
  | truncateTable
  | command
  | copy
  | loadData
  | refresh
  | other (className : String)
deriving DecidableEq

inductive Label where
  | table (ref : TableRef)
  | cte (name : Identifier)
  | withClause (recursive : Bool)
  | call (function arguments : String)
  | node (type : NodeType)
deriving DecidableEq

abbrev Sql := RoseTree Label

def NodeType.className : NodeType → String
  | select => "Select"
  | into => "Into"
  | insert => "Insert"
  | update => "Update"
  | delete => "Delete"
  | merge => "Merge"
  | create => "Create"
  | drop => "Drop"
  | alter => "Alter"
  | truncateTable => "TruncateTable"
  | command => "Command"
  | copy => "Copy"
  | loadData => "LoadData"
  | refresh => "Refresh"
  | other className => className

def Label.className : Label → String
  | table _ => "Table"
  | cte _ => "CTE"
  | withClause _ => "With"
  | call _ _ => "Func"
  | node type => type.className

/-! The guard. -/

def forbiddenWords : List String :=
  ["INSERT", "UPDATE", "DELETE", "DROP", "TRUNCATE", "ALTER", "CREATE", "REPLACE", "MERGE", "EXEC",
    "EXECUTE", "CALL"]

def forbiddenKeyword [Unicode] (query : String) : Bool :=
  (words query).any (fun word =>
    forbiddenWords.any (fun keyword => word.map Unicode.fold == keyword.toList.map Unicode.fold))

/-- The parser. It finds a MERGE only where the text says so. -/
class Sqlglot [Unicode] where
  parse : String → Except String (List (Option Sql))
  parseOne : String → Except String (Option Sql)
  merge_keyword : ∀ {query tree}, parseOne query = .ok (some tree) →
    Occurs (.node .merge) tree → forbiddenKeyword query = true

def forbiddenNodeTypes : List NodeType :=
  [.drop, .delete, .update, .insert, .alter, .create, .truncateTable, .command]

def Label.isForbidden : Label → Bool
  | node type => forbiddenNodeTypes.contains type
  | _ => false

section
variable [Unicode]

def TableRef.lowerName (ref : TableRef) : String := Unicode.lower ref.text

def cteNames (tree : Sql) : List String :=
  tree.bfs.filterMap (fun label =>
    match label with
    | .cte name => if name.text = "" then none else some (Unicode.lower name.text)
    | _ => none)

def tables (tree : Sql) : List TableRef :=
  tree.bfs.filterMap (fun label =>
    match label with
    | .table ref => some ref
    | _ => none)

def checkTables (cteNames : List String) (allowed : Finset String) :
    List TableRef → Except String Unit
  | [] => .ok ()
  | ref :: refs =>
    if ref.lowerName ∈ cteNames then checkTables cteNames allowed refs
    else if ref.lowerName ∉ allowed then
      .error (s!"Query references table '{ref.text}' which is not in the read-only allowlist " ++
        "— query rejected. Allowed: " ++ ", ".intercalate (allowed.sort (· ≤ ·)))
    else checkTables cteNames allowed refs

def assertAllowedTables (tree : Sql) (allowed : Finset String) : Except String Unit :=
  checkTables (cteNames tree) allowed (tables tree)

def checkTree (tree : Sql) (allowedTables : Option (Finset String)) : Except String Unit :=
  if tree.label ≠ .node .select then
    .error (s!"Only SELECT statements are permitted; got {tree.label.className} " ++
      "— possible injection attempt")
  else
    match tree.bfs.find? Label.isForbidden with
    | some label =>
      .error (s!"Forbidden SQL operation '{label.className}' detected in query AST " ++
        "— query rejected")
    | none =>
      match allowedTables with
      | some allowed => assertAllowedTables tree allowed
      | none => .ok ()

variable [Sqlglot]

def astValidate (query : String) (allowedTables : Option (Finset String)) : Except String Unit :=
  match Sqlglot.parse query with
  | .error exc => .error s!"SQL parse error — LLM-generated query has invalid syntax: {exc}"
  | .ok statements =>
    let nonEmpty := statements.filterMap id
    if 1 < nonEmpty.length then
      .error (s!"Only a single SELECT statement is permitted; got {nonEmpty.length} " ++
        "statement(s) — possible injection attempt")
    else
      match Sqlglot.parseOne query with
      | .error exc => .error s!"SQL parse error — LLM-generated query has invalid syntax: {exc}"
      | .ok none => .error "SQL parse returned an empty AST"
      | .ok (some tree) => checkTree tree allowedTables

def validate (query : String) (allowedTables : Option (Finset String)) : Except String Unit :=
  let stripped := strip query
  if !(Unicode.upper stripped).startsWith "SELECT" && !(Unicode.upper stripped).startsWith "WITH" then
    .error "Only SELECT/WITH (CTE) queries are permitted"
  else if forbiddenKeyword stripped then .error "Query contains forbidden keyword"
  else astValidate stripped allowedTables

end

/-! What PostgreSQL reads. A name is looked up in the scopes of the WITH clauses around it,
unless it is qualified. -/

def Identifier.folded (name : Identifier) : String :=
  if name.quoted then name.text else asciiLower name.text

structure PhysicalTable where
  qualifiers : List String
  name : String
deriving DecidableEq

def TableRef.folded (ref : TableRef) : String := (ref.name.map Identifier.folded).getD ""

def TableRef.physical (ref : TableRef) : PhysicalTable :=
  ⟨ref.qualifiers.map Identifier.folded, ref.folded⟩

/-- The reference, unless a CTE of that name is in scope. -/
def TableRef.resolve (env : List String) (ref : TableRef) : List TableRef :=
  match ref.name with
  | none => []
  | some name => if ref.qualifiers = [] ∧ name.folded ∈ env then [] else [ref]

/-- The names that the WITH clauses among the children declare. -/
def declaredNames : List Sql → List String
  | [] => []
  | node (.withClause _) ctes :: rest =>
    ctes.filterMap (fun t =>
      match t.label with
      | .cte name => some name.folded
      | _ => none) ++ declaredNames rest
  | _ :: rest => declaredNames rest

mutual

/-- The references that no CTE in scope answers. The target of INTO is not read. -/
def references (env : List String) : Sql → List TableRef
  | node (.table ref) children => ref.resolve env ++ referencesUnder env env children
  | node (.node .into) _ => []
  | node _ children => referencesUnder env (declaredNames children ++ env) children

/-- The bodies of a WITH clause that is not recursive do not see the clause. -/
def referencesUnder (outer inner : List String) : List Sql → List TableRef
  | [] => []
  | node (.withClause recursive) ctes :: rest =>
    referencesCtes (if recursive then inner else outer) ctes ++ referencesUnder outer inner rest
  | t :: rest => references inner t ++ referencesUnder outer inner rest

def referencesCtes (env : List String) : List Sql → List TableRef
  | [] => []
  | node (.cte name) body :: rest =>
    referencesUnder env env body ++ referencesCtes (name.folded :: env) rest
  | t :: rest => references env t ++ referencesCtes env rest

end

/-- The schema of the tables that the allowlists name, and what functions do. -/
class Catalog where
  home : (qualifiers : List String) → Bool
  home_nil : home [] = true
  functionReads : (function arguments : String) → List PhysicalTable
  functionWrites : (function arguments : String) → Bool

section
variable [Catalog]

def PhysicalTable.InAllowlist (allowed : Finset String) (table : PhysicalTable) : Prop :=
  Catalog.home table.qualifiers = true ∧ table.name ∈ allowed

def Reads (tree : Sql) (table : PhysicalTable) : Prop :=
  (∃ ref ∈ references [] tree, ref.physical = table) ∨
    ∃ function arguments, Occurs (.call function arguments) tree ∧
      table ∈ Catalog.functionReads function arguments

def Label.writes : Label → Bool
  | call function arguments => Catalog.functionWrites function arguments
  | node type =>
    [.into, .insert, .update, .delete, .merge, .create, .drop, .alter, .truncateTable, .command,
      .copy, .loadData, .refresh].contains type
  | _ => false

end

theorem TableRef.eq_of_mem_resolve {env : List String} {ref other : TableRef}
    (h : ref ∈ other.resolve env) : ref = other := by
  unfold resolve at h
  split at h
  · cases h
  · split at h
    · cases h
    · exact List.mem_singleton.mp h

theorem exists_occurs_append {a : Label} {refs refs' : List TableRef} {t : Sql} {rest : List Sql}
    {ref : TableRef} (h : ref ∈ refs ++ refs') (hfirst : ref ∈ refs → Occurs a t)
    (hrest : ref ∈ refs' → ∃ u ∈ rest, Occurs a u) : ∃ u ∈ t :: rest, Occurs a u := by
  rcases List.mem_append.mp h with hin | hin
  · exact ⟨t, List.mem_cons_self, hfirst hin⟩
  · obtain ⟨u, hu, hoccurs⟩ := hrest hin
    exact ⟨u, List.mem_cons_of_mem t hu, hoccurs⟩

theorem occurs_of_children {a b : Label} {children : List Sql} (h : ∃ t ∈ children, Occurs a t) :
    Occurs a (node b children) := occurs_node.mpr (.inr h)

/-- Whatever is read is named somewhere in the query. -/
theorem references_occur (env : List String) (tree : Sql) :
    ∀ ref ∈ references env tree, Occurs (.table ref) tree := by
  refine references.induct (fun env tree => ∀ ref ∈ references env tree, Occurs (.table ref) tree)
    (fun outer inner ts => ∀ ref ∈ referencesUnder outer inner ts, ∃ t ∈ ts, Occurs (.table ref) t)
    (fun env ts => ∀ ref ∈ referencesCtes env ts, ∃ t ∈ ts, Occurs (.table ref) t)
    ?table ?into ?node ?nil ?withClause ?other ?noCte ?cte ?otherCte env tree
  case table =>
    intro env other children ih ref h
    rw [references] at h
    rcases List.mem_append.mp h with hown | hbelow
    · rw [TableRef.eq_of_mem_resolve hown]
      exact .root
    · exact occurs_of_children (ih ref hbelow)
  case into =>
    intro env children ref h
    rw [references] at h
    cases h
  case node =>
    intro env label children htable hinto ih ref h
    rw [references.eq_3 _ _ _ htable hinto] at h
    exact occurs_of_children (ih ref h)
  case nil =>
    intro outer inner ref h
    cases h
  case withClause =>
    intro outer inner recursive ctes rest ihctes ihrest ref h
    rw [referencesUnder] at h
    exact exists_occurs_append h (fun hin => occurs_of_children (ihctes ref hin)) (ihrest ref)
  case other =>
    intro outer inner t rest hwith iht ihrest ref h
    rw [referencesUnder.eq_3 _ _ _ _ hwith] at h
    exact exists_occurs_append h (iht ref) (ihrest ref)
  case noCte =>
    intro env ref h
    cases h
  case cte =>
    intro env name body rest ihbody ihrest ref h
    rw [referencesCtes] at h
    exact exists_occurs_append h (fun hin => occurs_of_children (ihbody ref hin)) (ihrest ref)
  case otherCte =>
    intro env t rest hcte iht ihrest ref h
    rw [referencesCtes.eq_3 _ _ _ hcte] at h
    exact exists_occurs_append h (iht ref) (ihrest ref)

/-! What the guard has seen when it accepts. -/

section
variable [Unicode]

omit [Unicode] in
theorem mem_tables {tree : Sql} {ref : TableRef} : ref ∈ tables tree ↔ Occurs (.table ref) tree := by
  rw [tables, List.mem_filterMap, ← mem_bfs]
  constructor
  · rintro ⟨label, hlabel, heq⟩
    split at heq
    · obtain rfl := Option.some.inj heq
      exact hlabel
    · cases heq
  · exact fun h => ⟨_, h, rfl⟩

theorem checkTables_eq_ok {cteNames : List String} {allowed : Finset String} {refs : List TableRef}
    (h : checkTables cteNames allowed refs = .ok ()) :
    ∀ ref ∈ refs, ref.lowerName ∈ cteNames ∨ ref.lowerName ∈ allowed := by
  induction refs with
  | nil => simp
  | cons ref refs ih =>
    unfold checkTables at h
    rw [List.forall_mem_cons]
    by_cases hcte : ref.lowerName ∈ cteNames
    · rw [if_pos hcte] at h
      exact ⟨.inl hcte, ih h⟩
    · rw [if_neg hcte] at h
      by_cases hallowed : ref.lowerName ∈ allowed
      · rw [if_neg (not_not.mpr hallowed)] at h
        exact ⟨.inr hallowed, ih h⟩
      · rw [if_pos hallowed] at h
        cases h

/-- The tree of an accepted query. -/
structure Accepted (tree : Sql) (allowedTables : Option (Finset String)) : Prop where
  root : tree.label = .node .select
  permitted : ∀ label, Occurs label tree → label.isForbidden = false
  tables : ∀ allowed ∈ allowedTables, ∀ ref, Occurs (.table ref) tree →
    ref.lowerName ∈ cteNames tree ∨ ref.lowerName ∈ allowed

theorem checkTree_eq_ok {tree : Sql} {allowedTables : Option (Finset String)}
    (h : checkTree tree allowedTables = .ok ()) : Accepted tree allowedTables := by
  unfold checkTree at h
  by_cases hroot : tree.label = .node .select
  · rw [if_neg (not_not.mpr hroot)] at h
    cases hfind : tree.bfs.find? Label.isForbidden with
    | some label =>
      rw [hfind] at h
      cases h
    | none =>
      rw [hfind] at h
      have hpermitted : ∀ label, Occurs label tree → label.isForbidden = false := by
        intro label hlabel
        have hnot := List.find?_eq_none.mp hfind label (mem_bfs.mpr hlabel)
        simpa using hnot
      refine ⟨hroot, hpermitted, ?_⟩
      rintro allowed rfl ref href
      exact checkTables_eq_ok h ref (mem_tables.mpr href)
  · rw [if_pos hroot] at h
    cases h

theorem validate_eq_ok [Sqlglot] {query : String} {tree : Sql}
    {allowedTables : Option (Finset String)} (h : validate query allowedTables = .ok ())
    (hparsed : Sqlglot.parseOne (strip query) = .ok (some tree)) :
    Accepted tree allowedTables ∧ forbiddenKeyword (strip query) = false := by
  unfold validate at h
  dsimp only at h
  split at h
  · cases h
  · by_cases hkeyword : forbiddenKeyword (strip query) = true
    · rw [if_pos hkeyword] at h
      cases h
    · rw [if_neg hkeyword] at h
      refine ⟨?_, by simpa using hkeyword⟩
      unfold astValidate at h
      split at h
      · cases h
      · dsimp only at h
        split at h
        · cases h
        · rw [hparsed] at h
          exact checkTree_eq_ok h

end

section
variable [Unicode] [Sqlglot] [Catalog] {query : String} {tree : Sql}

/-- An accepted query stays inside the allowlist as long as PostgreSQL looks up in the home
schema, under the lower-case name, every reference that no CTE in scope answers, and no CTE
elsewhere has that name. -/
theorem accepted_reads_allowlist_iff {allowed : Finset String}
    (haccepted : validate query (some allowed) = .ok ())
    (hparsed : Sqlglot.parseOne (strip query) = .ok (some tree)) :
    (∀ table, Reads tree table → table.InAllowlist allowed) ↔
      (∀ ref ∈ references [] tree, Catalog.home ref.physical.qualifiers = true ∧
        (ref.folded ∈ allowed ∨ ref.folded = ref.lowerName ∧ ref.lowerName ∉ cteNames tree)) ∧
      ∀ function arguments, Occurs (.call function arguments) tree →
        ∀ table ∈ Catalog.functionReads function arguments, table.InAllowlist allowed := by
  obtain ⟨haccepted, -⟩ := validate_eq_ok haccepted hparsed
  constructor
  · intro hreads
    refine ⟨?_, ?_⟩
    · intro ref href
      obtain ⟨hhome, hallowed⟩ := hreads ref.physical (.inl ⟨ref, href, rfl⟩)
      exact ⟨hhome, .inl hallowed⟩
    · intro function arguments hcall table htable
      exact hreads table (.inr ⟨function, arguments, hcall, htable⟩)
  · rintro ⟨hrefs, hcalls⟩ table (⟨ref, href, rfl⟩ | ⟨function, arguments, hcall, htable⟩)
    · obtain ⟨hhome, hname⟩ := hrefs ref href
      refine ⟨hhome, ?_⟩
      rcases hname with hallowed | ⟨hfolded, hcte⟩
      · exact hallowed
      · have hchecked := haccepted.tables allowed rfl ref (references_occur [] tree ref href)
        have hlower : ref.lowerName ∈ allowed := hchecked.resolve_left hcte
        show ref.folded ∈ allowed
        rw [hfolded]
        exact hlower
    · exact hcalls function arguments hcall table htable

/-- Whatever else writes is stopped by the node types and the keywords. -/
theorem accepted_readonly_iff {allowedTables : Option (Finset String)}
    (haccepted : validate query allowedTables = .ok ())
    (hparsed : Sqlglot.parseOne (strip query) = .ok (some tree)) :
    (∀ label, Occurs label tree → label.writes = false) ↔
      (∀ type ∈ [.into, .copy, .loadData, .refresh], ¬ Occurs (.node type) tree) ∧
      ∀ function arguments, Occurs (.call function arguments) tree →
        Catalog.functionWrites function arguments = false := by
  obtain ⟨haccepted, hkeyword⟩ := validate_eq_ok haccepted hparsed
  constructor
  · intro hreadonly
    refine ⟨?_, fun function arguments hcall => hreadonly _ hcall⟩
    intro type htype hoccurs
    have hwrites := hreadonly _ hoccurs
    simp only [List.mem_cons, List.not_mem_nil, or_false] at htype
    rcases htype with rfl | rfl | rfl | rfl <;> cases hwrites
  · rintro ⟨hnodes, hcalls⟩ label hlabel
    cases label with
    | call function arguments => exact hcalls function arguments hlabel
    | node type =>
      have hpermitted := haccepted.permitted _ hlabel
      cases type with
      | merge =>
        have hmerge := Sqlglot.merge_keyword hparsed hlabel
        rw [hkeyword] at hmerge
        cases hmerge
      | into => exact absurd hlabel (hnodes .into (by simp))
      | copy => exact absurd hlabel (hnodes .copy (by simp))
      | loadData => exact absurd hlabel (hnodes .loadData (by simp))
      | refresh => exact absurd hlabel (hnodes .refresh (by simp))
      | select => rfl
      | other className => simp [Label.writes]
      | _ => cases hpermitted
    | _ => rfl

end

/-! Queries over invoices and users. -/

/-- A parser that knows one text. -/
abbrev Sqlglot.knowing (text : String) (tree : Sql) (h : Label.node .merge ∉ tree.bfs) :
    letI := Unicode.ascii
    Sqlglot :=
  letI := Unicode.ascii
  { parse := fun query => if query = text then .ok [some tree] else .error "unknown text"
    parseOne := fun query => if query = text then .ok (some tree) else .error "unknown text"
    merge_keyword := by
      intro query tree' hparsed hmerge
      by_cases htext : query = text
      · rw [if_pos htext] at hparsed
        obtain rfl := Option.some.inj (Except.ok.inj hparsed)
        exact absurd (mem_bfs.mpr hmerge) h
      · rw [if_neg htext] at hparsed
        cases hparsed }

abbrev Catalog.plain : Catalog where
  home qualifiers := qualifiers == [] || qualifiers == ["public"]
  home_nil := rfl
  functionReads _ _ := []
  functionWrites function _ := function == "nextval" || function == "setval"

def columnId : Sql :=
  node (.node (.other "Column")) [node (.node (.other "Identifier")) []]

def fromTable (name : String) : Sql :=
  node (.node (.other "From")) [node (.table { name := some ⟨name, false⟩ }) []]

def cteOf (name : String) (query : Sql) : Sql := node (.cte ⟨name, false⟩) [query]

def invoicesText : String := "SELECT id FROM invoices"

def invoicesTree : Sql := node (.node .select) [columnId, fromTable "invoices"]

theorem invoices_read_within_allowlist :
    letI := Unicode.ascii
    letI := Sqlglot.knowing invoicesText invoicesTree (by decide +kernel)
    letI := Catalog.plain
    validate invoicesText (some {"invoices"}) = .ok () ∧
      ∀ table, Reads invoicesTree table → table.InAllowlist {"invoices"} := by
  let := Unicode.ascii
  let := Sqlglot.knowing invoicesText invoicesTree (by decide +kernel)
  let := Catalog.plain
  have haccepted : validate invoicesText (some {"invoices"}) = .ok () := by decide +kernel
  have htext : strip invoicesText = invoicesText := rfl
  have hparsed : Sqlglot.parseOne (strip invoicesText) = .ok (some invoicesTree) := if_pos htext
  refine ⟨haccepted, (accepted_reads_allowlist_iff haccepted hparsed).mpr ⟨?_, ?_⟩⟩
  · decide
  · intro _ _ _ _ htable
    cases htable

/-- The inner CTE is out of scope where the outer query names its table. -/
def shadowedText : String :=
  "WITH x AS (WITH users AS (SELECT id FROM invoices) SELECT id FROM users) SELECT id FROM users"

def shadowedTree : Sql :=
  node (.node .select) [
    node (.withClause false) [cteOf "x" (node (.node .select) [
      node (.withClause false) [cteOf "users" invoicesTree], columnId, fromTable "users"])],
    columnId, fromTable "users"]

theorem shadowedUsers_read :
    letI := Unicode.ascii
    letI := Sqlglot.knowing shadowedText shadowedTree (by decide +kernel)
    letI := Catalog.plain
    validate shadowedText (some {"invoices"}) = .ok () ∧
      Sqlglot.parseOne (strip shadowedText) = .ok (some shadowedTree) ∧
      Reads shadowedTree ⟨[], "users"⟩ ∧ ¬ PhysicalTable.InAllowlist {"invoices"} ⟨[], "users"⟩ := by
  let := Unicode.ascii
  let := Sqlglot.knowing shadowedText shadowedTree (by decide +kernel)
  let := Catalog.plain
  have htext : strip shadowedText = shadowedText := rfl
  refine ⟨by decide +kernel, if_pos htext, .inl ?_, ?_⟩
  · decide
  · rintro ⟨-, hname⟩
    revert hname
    decide

theorem invoices_read_only :
    letI := Unicode.ascii
    letI := Sqlglot.knowing invoicesText invoicesTree (by decide +kernel)
    letI := Catalog.plain
    validate invoicesText none = .ok () ∧
      ∀ label, Occurs label invoicesTree → label.writes = false := by
  let := Unicode.ascii
  let := Sqlglot.knowing invoicesText invoicesTree (by decide +kernel)
  let := Catalog.plain
  have haccepted : validate invoicesText none = .ok () := by decide +kernel
  have htext : strip invoicesText = invoicesText := rfl
  have hparsed : Sqlglot.parseOne (strip invoicesText) = .ok (some invoicesTree) := if_pos htext
  refine ⟨haccepted, (accepted_readonly_iff haccepted hparsed).mpr ⟨?_, ?_⟩⟩
  · simp only [← mem_bfs]
    decide
  · intro function arguments hcall
    have hlabels : ∀ label ∈ invoicesTree.bfs, label.writes = false := by decide
    exact hlabels _ (mem_bfs.mpr hcall)

def intoText : String := "SELECT id INTO stolen FROM invoices"

def intoTree : Sql :=
  node (.node .select) [columnId,
    node (.node .into) [node (.table { name := some ⟨"stolen", false⟩ }) []],
    fromTable "invoices"]

theorem selectInto_accepted :
    letI := Unicode.ascii
    letI := Sqlglot.knowing intoText intoTree (by decide +kernel)
    letI := Catalog.plain
    validate intoText none = .ok () ∧
      Sqlglot.parseOne (strip intoText) = .ok (some intoTree) ∧
      Occurs (.node .into) intoTree ∧ (Label.node .into).writes = true := by
  let := Unicode.ascii
  let := Sqlglot.knowing intoText intoTree (by decide +kernel)
  let := Catalog.plain
  have htext : strip intoText = intoText := rfl
  refine ⟨by decide +kernel, if_pos htext, mem_bfs.mp ?_, rfl⟩
  decide

end Finguard
