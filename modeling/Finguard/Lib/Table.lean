import Mathlib
import Finguard.Lib.Groups

/-! Tables with unique constraints. The rows stand in the order of their insertion;
an update may not touch a column under a constraint. -/

/-- `clash a b` says that the unique constraints forbid `a` and `b` in one table. -/
class Row (ρ : Type) where
  clash : ρ → ρ → Bool
  clash_symm : ∀ {a b}, clash a b → clash b a

structure Table (ρ : Type) [Row ρ] where
  rows : List ρ
  unique : rows.Pairwise (fun a b => ¬ Row.clash a b)

namespace Table
variable {ρ : Type} [Row ρ] {t t' : Table ρ} {a b r : ρ}

instance : Membership ρ (Table ρ) := ⟨fun t a => a ∈ t.rows⟩

instance : EmptyCollection (Table ρ) := ⟨⟨[], .nil⟩⟩

instance : Inhabited (Table ρ) := ⟨∅⟩

@[simp] theorem rows_empty : (∅ : Table ρ).rows = [] := rfl

def insert? (t : Table ρ) (r : ρ) : Option (Table ρ) :=
  if h : ∀ a ∈ t.rows, ¬ Row.clash a r then
    some ⟨t.rows ++ [r], List.pairwise_append.mpr
      ⟨t.unique, List.pairwise_singleton _ _, by simpa using h⟩⟩
  else none

def updated (p : ρ → Bool) (f : ρ → ρ) (a : ρ) : ρ := if p a then f a else a

def update (t : Table ρ) (p : ρ → Bool) (f : ρ → ρ)
    (hf : ∀ a b, Row.clash (f a) b = Row.clash a b) : Table ρ where
  rows := t.rows.map (updated p f)
  unique := by
    have hg : ∀ a b, Row.clash (updated p f a) b → Row.clash a b := by
      intro a b h
      unfold updated at h
      split at h
      · rwa [← hf a b]
      · exact h
    rw [List.pairwise_map]
    refine t.unique.imp ?_
    intro a b hab h
    exact hab (Row.clash_symm (hg b a (Row.clash_symm (hg a _ h))))

def delete (t : Table ρ) (p : ρ → Bool) : Table ρ where
  rows := t.rows.filter (fun a => !p a)
  unique := t.unique.filter _

/-- An update that is refused as a whole when one of its rows is. -/
def update? (t : Table ρ) (p : ρ → Bool) (f : ρ → Option ρ)
    (hf : ∀ a a', f a = some a' → ∀ b, Row.clash a' b = Row.clash a b) : Option (Table ρ) :=
  if ∀ a ∈ t.rows, p a → (f a).isSome then
    some (t.update p (fun a => (f a).getD a) (by
      intro a b
      cases h : f a with
      | none => rfl
      | some a' => exact hf a a' h b))
  else none

def find? (t : Table ρ) (p : ρ → Bool) : Option ρ := t.rows.find? p

def filter (t : Table ρ) (p : ρ → Bool) : List ρ := t.rows.filter p

theorem eq_of_clash (ha : a ∈ t.rows) (hb : b ∈ t.rows) (h : Row.clash a b) : a = b := by
  by_contra hne
  have hsymm : Std.Symm (fun a b : ρ => ¬ Row.clash a b) := ⟨fun _ _ h h' => h (Row.clash_symm h')⟩
  exact t.unique.forall ha hb hne h

section insert
variable {p : ρ → Bool}

theorem rows_of_insert (h : t.insert? r = some t') : t'.rows = t.rows ++ [r] := by
  unfold insert? at h
  split at h
  · rw [← Option.some.inj h]
  · cases h

theorem not_clash_of_insert (h : t.insert? r = some t') (ha : a ∈ t.rows) : ¬ Row.clash a r := by
  unfold insert? at h
  split at h
  · exact ‹∀ a ∈ t.rows, ¬ Row.clash a r› a ha
  · cases h

theorem insert?_isSome (h : ∀ a ∈ t.rows, ¬ Row.clash a r) : (t.insert? r).isSome := by
  rw [insert?, dif_pos h]
  rfl

theorem mem_of_insert (h : t.insert? r = some t') : a ∈ t'.rows ↔ a ∈ t.rows ∨ a = r := by
  rw [rows_of_insert h]
  simp

theorem filter_of_insert (h : t.insert? r = some t') :
    t'.filter p = if p r then t.filter p ++ [r] else t.filter p := by
  rw [filter, rows_of_insert h, List.filter_append]
  by_cases hp : p r <;> simp [hp, filter]

theorem find?_of_insert_neg (h : t.insert? r = some t') (hp : p r = false) :
    t'.find? p = t.find? p := by
  rw [find?, rows_of_insert h, List.find?_append]
  simp [hp, find?]

theorem find?_of_insert_pos (h : t.insert? r = some t') (hp : p r)
    (hclash : ∀ a, p a → Row.clash a r) : t'.find? p = some r := by
  have hnone : t.rows.find? p = none := by
    rw [List.find?_eq_none]
    intro a ha hpa
    exact not_clash_of_insert h ha (hclash a hpa)
  rw [find?, rows_of_insert h, List.find?_append, hnone]
  simp [hp]

end insert

/-- All rows, or none where one of them is refused. -/
def insertAll? (t : Table ρ) (rows : List ρ) : Option (Table ρ) := rows.foldlM insert? t

theorem rows_of_insertAll {rows : List ρ} (h : t.insertAll? rows = some t') :
    t'.rows = t.rows ++ rows := by
  induction rows generalizing t with
  | nil =>
    obtain rfl := Option.some.inj h
    rw [List.append_nil]
  | cons r rows ih =>
    simp only [insertAll?, List.foldlM_cons, Option.bind_eq_bind, Option.bind_eq_some_iff] at h
    obtain ⟨t₁, hinsert, hrest⟩ := h
    rw [ih hrest, rows_of_insert hinsert, List.append_assoc, List.singleton_append]

theorem insertAll?_isSome {rows : List ρ} (hold : ∀ a ∈ t.rows, ∀ r ∈ rows, ¬ Row.clash a r)
    (hnew : rows.Pairwise (fun a b => ¬ Row.clash a b)) : (t.insertAll? rows).isSome := by
  induction rows generalizing t with
  | nil => rfl
  | cons r rows ih =>
    obtain ⟨hr, hnew⟩ := List.pairwise_cons.mp hnew
    have hinsert := insert?_isSome (fun a ha => hold a ha r List.mem_cons_self)
    obtain ⟨t₁, ht₁⟩ := Option.isSome_iff_exists.mp hinsert
    have hrest : (t₁.insertAll? rows).isSome := by
      apply ih _ hnew
      intro a ha b hb
      rcases (mem_of_insert ht₁).mp ha with ha | rfl
      · exact hold a ha b (List.mem_cons_of_mem r hb)
      · exact hr b hb
    simpa only [insertAll?, List.foldlM_cons, ht₁, Option.bind_eq_bind, Option.bind_some] using hrest

theorem filter_delete_of_imp {p q : ρ → Bool} (h : ∀ a, q a = true → p a = false) :
    (t.delete p).filter q = t.filter q := by
  rw [filter, filter, delete, List.filter_filter]
  refine List.filter_congr (fun a _ => ?_)
  cases hq : q a with
  | false => rfl
  | true => simp [h a hq]

theorem filter_delete_self {p : ρ → Bool} : (t.delete p).filter p = [] := by
  rw [filter, delete, List.filter_filter, List.filter_eq_nil_iff]
  intro a _
  simp

/-- A condition that one row alone meets. -/
theorem length_filter_le_one {p : ρ → Bool}
    (hp : ∀ a ∈ t.rows, ∀ b ∈ t.rows, p a → p b → Row.clash a b) : (t.filter p).length ≤ 1 := by
  have hunique : (t.filter p).Pairwise (fun a b => ¬ Row.clash a b) := t.unique.filter p
  have hall : ∀ a ∈ t.filter p, a ∈ t.rows ∧ p a := fun a ha => List.mem_filter.mp ha
  rcases hrows : t.filter p with _ | ⟨a, _ | ⟨b, rest⟩⟩
  · exact Nat.zero_le 1
  · exact le_rfl
  · rw [hrows] at hunique hall
    obtain ⟨ha, hpa⟩ := hall a (by simp)
    obtain ⟨hb, hpb⟩ := hall b (by simp)
    have hclash := hp a ha b hb hpa hpb
    exact absurd hclash ((List.pairwise_cons.mp hunique).1 b (by simp))

theorem filter_eq_singleton {p : ρ → Bool} (ha : a ∈ t.rows) (hself : Row.clash a a)
    (hp : ∀ b ∈ t.rows, p b = true ↔ b = a) : t.filter p = [a] := by
  obtain ⟨before, after, hrows⟩ := List.append_of_mem ha
  have hunique := t.unique
  rw [hrows, List.pairwise_append, List.pairwise_cons] at hunique
  obtain ⟨-, ⟨hafter, -⟩, hbefore⟩ := hunique
  have hpa : p a = true := (hp a ha).mpr rfl
  have hnone : ∀ l : List ρ, (∀ b ∈ l, b ∈ t.rows ∧ b ≠ a) → l.filter p = [] := by
    intro l hl
    rw [List.filter_eq_nil_iff]
    exact fun b hb hpb => (hl b hb).2 ((hp b (hl b hb).1).mp hpb)
  have hbeforeNone := hnone before (fun b hb => ⟨by rw [hrows]; simp [hb], by
    rintro rfl
    exact hbefore b hb b List.mem_cons_self hself⟩)
  have hafterNone := hnone after (fun b hb => ⟨by rw [hrows]; simp [hb], by
    rintro rfl
    exact hafter b hb hself⟩)
  rw [filter, hrows, List.filter_append, List.filter_cons, if_pos hpa, hbeforeNone, hafterNone]
  rfl

theorem length_filter_delete {p q : ρ → Bool} (ha : a ∈ t.rows) (hself : Row.clash a a)
    (hp : ∀ b ∈ t.rows, p b = true ↔ b = a) :
    (t.filter q).length = ((t.delete p).filter q).length + if q a then 1 else 0 := by
  have hsingle : t.rows.filter p = [a] := filter_eq_singleton ha hself hp
  have hsplit := List.countP_eq_countP_filter_add t.rows q p
  rw [hsingle, List.countP_singleton] at hsplit
  rw [filter, filter, delete, ← List.countP_eq_length_filter, ← List.countP_eq_length_filter,
    hsplit, add_comm]

section update
variable {p q : ρ → Bool} {f : ρ → ρ} {hf : ∀ a b, Row.clash (f a) b = Row.clash a b}

@[simp] theorem rows_update : (t.update p f hf).rows = t.rows.map (updated p f) := rfl

omit [Row ρ] in
theorem comp_updated (hq : ∀ a, q (f a) = q a) : q ∘ updated p f = q := by
  funext a
  simp only [Function.comp, updated]
  split
  · exact hq a
  · rfl

theorem mem_update (h : b ∈ (t.update p f hf).rows) :
    ∃ a ∈ t.rows, (p a = false ∧ b = a) ∨ (p a = true ∧ b = f a) := by
  obtain ⟨a, ha, rfl⟩ := List.mem_map.mp h
  refine ⟨a, ha, ?_⟩
  cases hp : p a with
  | false => exact .inl ⟨rfl, by simp [updated, hp]⟩
  | true => exact .inr ⟨rfl, by simp [updated, hp]⟩

theorem find?_update (hq : ∀ a, q (f a) = q a) :
    (t.update p f hf).find? q = (t.find? q).map (updated p f) := by
  rw [find?, rows_update, List.find?_map, comp_updated hq]
  rfl

theorem filter_update (hq : ∀ a, q (f a) = q a) :
    (t.update p f hf).filter q = (t.filter q).map (updated p f) := by
  rw [filter, rows_update, List.filter_map, comp_updated hq]
  rfl

theorem filter_update_of_mem (hq : ∀ a ∈ t.rows, p a → q (f a) = q a) :
    (t.update p f hf).filter q = (t.filter q).map (updated p f) := by
  rw [filter, rows_update, List.filter_map]
  congr 1
  refine List.filter_congr (fun a ha => ?_)
  simp only [Function.comp, updated]
  split
  · exact hq a ha ‹p a = true›
  · rfl

/-- An update after which the condition fails only takes rows away. -/
theorem filter_update_sublist (hq : ∀ a, q (f a) = false) :
    ((t.update p f hf).filter q).Sublist (t.filter q) := by
  rw [filter, filter, rows_update]
  induction t.rows with
  | nil => exact .slnil
  | cons a rows ih =>
    rw [List.map_cons]
    by_cases hp : p a = true
    · have hgone : q (updated p f a) = false := by simp [updated, hp, hq]
      rw [List.filter_cons_of_neg (by simp [hgone])]
      exact ih.trans ((List.sublist_cons_self a rows).filter q)
    · have hkept : updated p f a = a := by simp [updated, hp]
      rw [hkept]
      by_cases hqa : q a = true
      · rw [List.filter_cons_of_pos hqa, List.filter_cons_of_pos hqa]
        exact ih.cons_cons a
      · rw [List.filter_cons_of_neg hqa, List.filter_cons_of_neg hqa]
        exact ih

theorem filter_update_of_disjoint (hq : ∀ a, q (f a) = q a) (h : ∀ a, q a = true → p a = false) :
    (t.update p f hf).filter q = t.filter q := by
  have hsame : ∀ a ∈ t.filter q, updated p f a = a := by
    intro a ha
    simp [updated, h a (List.mem_filter.mp ha).2]
  rw [filter_update hq, List.map_congr_left hsame]
  exact List.map_id _

end update

theorem mem_of_find? {p : ρ → Bool} (h : t.find? p = some a) : a ∈ t.rows :=
  List.mem_of_find?_eq_some h

theorem of_find? {p : ρ → Bool} (h : t.find? p = some a) : p a = true :=
  List.find?_some h

theorem find?_isSome_of_mem {p : ρ → Bool} (ha : a ∈ t.rows) (hp : p a) :
    ∃ b, t.find? p = some b := by
  rw [← Option.isSome_iff_exists, find?, List.find?_isSome]
  exact ⟨a, ha, hp⟩

section update?
variable {p q : ρ → Bool} {f : ρ → Option ρ}
  {hf : ∀ a a', f a = some a' → ∀ b, Row.clash a' b = Row.clash a b}

theorem rows_of_update? (h : t.update? p f hf = some t') :
    t'.rows = t.rows.map (updated p (fun a => (f a).getD a)) := by
  unfold update? at h
  split at h
  · rw [← Option.some.inj h]
    rfl
  · cases h

theorem isSome_of_update? (h : t.update? p f hf = some t') (ha : a ∈ t.rows) (hp : p a) :
    ∃ a', f a = some a' := by
  unfold update? at h
  split at h
  · exact Option.isSome_iff_exists.mp (‹∀ a ∈ t.rows, p a → (f a).isSome› a ha hp)
  · cases h

theorem mem_of_update? (h : t.update? p f hf = some t') (hb : b ∈ t'.rows) :
    ∃ a ∈ t.rows, (p a = false ∧ b = a) ∨ (p a = true ∧ f a = some b) := by
  rw [rows_of_update? h] at hb
  obtain ⟨a, ha, rfl⟩ := List.mem_map.mp hb
  refine ⟨a, ha, ?_⟩
  cases hp : p a with
  | false => exact .inl ⟨rfl, by simp [updated, hp]⟩
  | true =>
    obtain ⟨a', ha'⟩ := isSome_of_update? h ha hp
    exact .inr ⟨rfl, by simp [updated, hp, ha']⟩

theorem update?_mem_neg (h : t.update? p f hf = some t') (ha : a ∈ t.rows) (hp : p a = false) :
    a ∈ t'.rows := by
  rw [rows_of_update? h]
  exact List.mem_map.mpr ⟨a, ha, by simp [updated, hp]⟩

theorem update?_mem_pos (h : t.update? p f hf = some t') (ha : a ∈ t.rows) (hp : p a = true) :
    ∃ a', f a = some a' ∧ a' ∈ t'.rows := by
  obtain ⟨a', ha'⟩ := isSome_of_update? h ha hp
  refine ⟨a', ha', ?_⟩
  rw [rows_of_update? h]
  exact List.mem_map.mpr ⟨a, ha, by simp [updated, hp, ha']⟩

theorem update?_isSome (h : ∀ a ∈ t.rows, p a → (f a).isSome) : (t.update? p f hf).isSome := by
  rw [update?, if_pos h]
  rfl

omit [Row ρ] in
theorem comp_updated_getD (hq : ∀ a a', f a = some a' → q a' = q a) :
    q ∘ updated p (fun a => (f a).getD a) = q := by
  apply comp_updated
  intro a
  cases h : f a with
  | none => rfl
  | some a' => exact hq a a' h

theorem find?_of_update? (h : t.update? p f hf = some t')
    (hq : ∀ a a', f a = some a' → q a' = q a) :
    t'.find? q = (t.find? q).map (updated p (fun a => (f a).getD a)) := by
  rw [find?, rows_of_update? h, List.find?_map, comp_updated_getD hq]
  rfl

theorem filter_of_update? (h : t.update? p f hf = some t')
    (hq : ∀ a a', f a = some a' → q a' = q a) :
    t'.filter q = (t.filter q).map (updated p (fun a => (f a).getD a)) := by
  rw [filter, rows_of_update? h, List.filter_map, comp_updated_getD hq]
  rfl

theorem find?_of_update?_neg (h : t.update? p f hf = some t')
    (hq : ∀ a a', f a = some a' → q a' = q a) (hp : ∀ a, q a → p a = false) :
    t'.find? q = t.find? q := by
  rw [find?_of_update? h hq]
  cases ha : t.find? q with
  | none => rfl
  | some a => simp [updated, hp a (of_find? ha)]

end update?

/-- A predicate that selects one key finds the row with that key. -/
theorem find?_eq_some_iff {p : ρ → Bool} (hp : ∀ a b, p a → p b → Row.clash a b) :
    t.find? p = some r ↔ r ∈ t.rows ∧ p r := by
  constructor
  · intro h
    exact ⟨mem_of_find? h, of_find? h⟩
  · rintro ⟨hr, hpr⟩
    obtain ⟨b, hb⟩ := find?_isSome_of_mem hr hpr
    rw [hb, eq_of_clash (mem_of_find? hb) hr (hp b r (of_find? hb) hpr)]

/-! Totals over the rows that a condition selects. -/

def total (t : Table ρ) (p : ρ → Bool) (f : ρ → ℤ) : ℤ := ((t.filter p).map f).sum

section total
variable {p : ρ → Bool} {f : ρ → ℤ}

theorem total_of_insert (h : t.insert? r = some t') :
    t'.total p f = t.total p f + if p r then f r else 0 := by
  unfold total
  rw [filter_of_insert h]
  by_cases hp : p r <;> simp [hp]

theorem total_update {q : ρ → Bool} {g : ρ → ρ} (hg : ∀ a b, Row.clash (g a) b = Row.clash a b)
    (hp : ∀ a, p (g a) = p a) (hf : ∀ a, f (g a) = f a) :
    (t.update q g hg).total p f = t.total p f := by
  have hcomp : f ∘ updated q g = f := by
    funext a
    simp only [Function.comp, updated]
    split
    · exact hf a
    · rfl
  unfold total
  rw [filter_update hp, List.map_map, hcomp]

/-- The total after one row has changed, under a condition that changed for that row alone. -/
theorem total_update_row {q r : ρ → Bool} {g : ρ → ρ}
    (hg : ∀ a b, Row.clash (g a) b = Row.clash a b) (ha : a ∈ t.rows) (hself : Row.clash a a)
    (hq : q a = true) (hothers : ∀ b ∈ t.rows, b ≠ a → q b = false ∧ r b = p b) :
    (t.update q g hg).total r f + (if p a then f a else 0) =
      t.total p f + if r (g a) then f (g a) else 0 := by
  obtain ⟨before, after, hrows⟩ := List.append_of_mem ha
  have hunique := t.unique
  rw [hrows, List.pairwise_append, List.pairwise_cons] at hunique
  obtain ⟨-, ⟨hafter, -⟩, hbefore⟩ := hunique
  have hkept : ∀ b ∈ t.rows, b ≠ a → updated q g b = b ∧ r b = p b := by
    intro b hb hne
    obtain ⟨hqb, hpb⟩ := hothers b hb hne
    exact ⟨by simp [updated, hqb], hpb⟩
  have hpart : ∀ l : List ρ, (∀ b ∈ l, b ∈ t.rows ∧ b ≠ a) →
      ((l.map (updated q g)).filter r).map f = (l.filter p).map f := by
    intro l hl
    have hmap : l.map (updated q g) = l := by
      rw [List.map_congr_left (g := fun b => b) (fun b hb => (hkept b (hl b hb).1 (hl b hb).2).1),
        List.map_id']
    rw [hmap, List.filter_congr (fun b hb => (hkept b (hl b hb).1 (hl b hb).2).2)]
  have hpartBefore := hpart before (fun b hb => ⟨by rw [hrows]; simp [hb], by
    rintro rfl
    exact hbefore b hb b List.mem_cons_self hself⟩)
  have hpartAfter := hpart after (fun b hb => ⟨by rw [hrows]; simp [hb], by
    rintro rfl
    exact hafter b hb hself⟩)
  have hchanged : updated q g a = g a := by simp [updated, hq]
  simp only [total, filter, rows_update, hrows, List.map_append, List.map_cons, List.filter_append,
    List.sum_append, hpartBefore, List.filter_cons, hchanged]
  by_cases hp : p a <;> by_cases hr : r (g a) <;>
    simp only [hp, hr, if_true, if_false, Bool.false_eq_true, List.map_cons, List.sum_cons,
      hpartAfter] <;> omega

/-- A total taken group by group: each row has one key and each key is listed once. -/
theorem total_groups {κ : Type} [DecidableEq κ] (key : ρ → κ) {keys : List κ}
    (hnodup : keys.Nodup) (hall : ∀ a, key a ∈ keys) :
    (keys.map (fun k => t.total (fun a => p a && key a == k) f)).sum = t.total p f := by
  have hsplit : ∀ k, t.total (fun a => p a && key a == k) f =
      (((t.filter p).filter (key · == k)).map f).sum := by
    intro k
    rw [total, filter, filter, List.filter_filter]
    simp only [Bool.and_comm]
  simp only [hsplit]
  exact Groups.sum_groups key hnodup (fun a _ => hall a) f

end total

end Table
