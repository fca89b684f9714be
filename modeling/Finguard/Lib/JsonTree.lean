import Finguard.Lib.NumberText

/-! JSON values over numbers of any kind, the order of the fields of their objects, and their
texts in ASCII. -/

inductive JsonTree (ν : Type) where
  | null
  | bool (b : Bool)
  | number (n : ν)
  | text (s : String)
  | array (items : List (JsonTree ν))
  | object (fields : List (String × JsonTree ν))

namespace JsonTree
variable {ν μ β : Type}

@[elab_as_elim, induction_eliminator]
theorem recursion {motive : JsonTree ν → Prop} (null : motive null)
    (bool : ∀ b, motive (bool b)) (number : ∀ n, motive (number n))
    (text : ∀ s, motive (text s))
    (array : ∀ items, (∀ v ∈ items, motive v) → motive (array items))
    (object : ∀ fields, (∀ f ∈ fields, motive f.2) → motive (object fields)) :
    ∀ v, motive v :=
  @JsonTree.rec ν motive (fun items => ∀ v ∈ items, motive v)
    (fun fields => ∀ f ∈ fields, motive f.2) (fun f => motive f.2) null bool number text array
    object (by simp) (fun _ _ hv hvs => by simpa using ⟨hv, hvs⟩) (by simp)
    (fun f _ hf hfs => by
      intro g hg
      rcases List.mem_cons.mp hg with rfl | hg
      · exact hf
      · exact hfs g hg)
    (fun _ _ hv => hv)

/-- What a walk through a value makes of each part. -/
structure Algebra (ν β : Type) where
  null : β
  bool : Bool → β
  number : ν → β
  text : String → β
  array : List β → β
  object : List (String × β) → β

mutual

def fold (alg : Algebra ν β) : JsonTree ν → β
  | null => alg.null
  | bool b => alg.bool b
  | number n => alg.number n
  | text s => alg.text s
  | array items => alg.array (foldAll alg items)
  | object fields => alg.object (foldFields alg fields)

def foldAll (alg : Algebra ν β) : List (JsonTree ν) → List β
  | [] => []
  | v :: items => fold alg v :: foldAll alg items

def foldFields (alg : Algebra ν β) : List (String × JsonTree ν) → List (String × β)
  | [] => []
  | f :: fields => foldField alg f :: foldFields alg fields

def foldField (alg : Algebra ν β) : String × JsonTree ν → String × β
  | (key, v) => (key, fold alg v)

end

section fold
variable (alg : Algebra ν β)

theorem foldAll_eq_map (items : List (JsonTree ν)) : foldAll alg items = items.map (fold alg) := by
  induction items with
  | nil => rfl
  | cons v items ih => rw [foldAll, ih, List.map_cons]

theorem foldFields_eq_map (fields : List (String × JsonTree ν)) :
    foldFields alg fields = fields.map fun f => (f.1, fold alg f.2) := by
  induction fields with
  | nil => rfl
  | cons f fields ih => rw [foldFields, ih, List.map_cons, foldField]

@[simp] theorem fold_array (items : List (JsonTree ν)) :
    fold alg (array items) = alg.array (items.map (fold alg)) := by
  rw [fold, foldAll_eq_map]

@[simp] theorem fold_object (fields : List (String × JsonTree ν)) :
    fold alg (object fields) = alg.object (fields.map fun f => (f.1, fold alg f.2)) := by
  rw [fold, foldFields_eq_map]

end fold

/-- The walk that builds the value again. -/
def rebuild : Algebra ν (JsonTree ν) := ⟨null, bool, number, text, array, object⟩

def map (f : ν → μ) : JsonTree ν → JsonTree μ :=
  fold ⟨null, bool, fun n => number (f n), text, array, object⟩

/-- The fields of each object in the order of their keys. -/
def sortKeys (le : String → String → Bool) : JsonTree ν → JsonTree ν :=
  fold { rebuild with
    object := fun fields => object (fields.insertionSort fun f g => le f.1 g.1) }

def numbers : JsonTree ν → List ν :=
  fold ⟨[], fun _ => [], fun n => [n], fun _ => [], List.flatten,
    fun fields => (fields.map Prod.snd).flatten⟩

/-- No object has two fields of one key. -/
def Distinct : JsonTree ν → Prop :=
  fold ⟨True, fun _ => True, fun _ => True, fun _ => True, fun items => ∀ p ∈ items, p,
    fun fields => (fields.map Prod.fst).Nodup ∧ ∀ f ∈ fields, f.2⟩

section rules
variable {f : ν → μ} {le le' : String → String → Bool} {items : List (JsonTree ν)}
  {fields : List (String × JsonTree ν)}

@[simp] theorem map_array : (array items).map f = array (items.map (map f)) := fold_array _ _

@[simp] theorem map_object :
    (object fields).map f = object (fields.map fun g => (g.1, g.2.map f)) := fold_object _ _

@[simp] theorem sortKeys_array :
    (array items).sortKeys le = array (items.map (sortKeys le)) := fold_array _ _

@[simp] theorem sortKeys_object : (object fields).sortKeys le =
    object ((fields.map fun g => (g.1, g.2.sortKeys le)).insertionSort fun f g => le f.1 g.1) :=
  fold_object _ _

@[simp] theorem numbers_array : (array items).numbers = (items.map numbers).flatten :=
  fold_array _ _

@[simp] theorem numbers_object :
    (object fields).numbers = (fields.map fun g => g.2.numbers).flatten := by
  refine (fold_object _ _).trans ?_
  change ((fields.map _).map Prod.snd).flatten = _
  rw [List.map_map]
  rfl

@[simp] theorem distinct_array : (array items).Distinct ↔ ∀ v ∈ items, v.Distinct := by
  rw [Distinct, fold_array]
  exact List.forall_mem_map

@[simp] theorem distinct_object : (object fields).Distinct ↔
    (fields.map Prod.fst).Nodup ∧ ∀ g ∈ fields, g.2.Distinct := by
  rw [Distinct, fold_object]
  refine and_congr ?_ List.forall_mem_map
  rw [List.map_map]
  rfl

theorem mem_numbers_array {n : ν} : n ∈ (array items).numbers ↔ ∃ v ∈ items, n ∈ v.numbers := by
  simp

theorem mem_numbers_object {n : ν} :
    n ∈ (object fields).numbers ↔ ∃ g ∈ fields, n ∈ g.2.numbers := by
  simp

theorem map_eq_self {f : ν → ν} {v : JsonTree ν} (h : ∀ n ∈ v.numbers, f n = n) :
    v.map f = v := by
  induction v with
  | null => rfl
  | bool b => rfl
  | number n => exact congrArg number (h n (by simp [numbers, fold]))
  | text s => rfl
  | array items ih =>
    rw [map_array, List.map_congr_left (fun v hv => ih v hv fun n hn =>
      h n (mem_numbers_array.mpr ⟨v, hv, hn⟩)), List.map_id']
  | object fields ih =>
    have hfields : fields.map (fun g => (g.1, g.2.map f)) = fields.map id := by
      refine List.map_congr_left fun g hg => ?_
      rw [ih g hg fun n hn => h n (mem_numbers_object.mpr ⟨g, hg, hn⟩)]
      rfl
    rw [map_object, hfields, List.map_id]

theorem map_map {κ : Type} {g : μ → κ} {v : JsonTree ν} : (v.map f).map g = v.map (g ∘ f) := by
  induction v with
  | array items ih =>
    rw [map_array, map_array, map_array, List.map_map]
    exact congrArg array (List.map_congr_left fun v hv => ih v hv)
  | object fields ih =>
    rw [map_object, map_object, map_object, List.map_map]
    exact congrArg object (List.map_congr_left fun f hf => congrArg (Prod.mk f.1) (ih f hf))
  | _ => rfl

theorem distinct_map {v : JsonTree ν} : (v.map f).Distinct ↔ v.Distinct := by
  induction v with
  | array items ih =>
    rw [map_array, distinct_array, distinct_array, List.forall_mem_map]
    exact forall₂_congr ih
  | object fields ih =>
    rw [map_object, distinct_object, distinct_object, List.forall_mem_map, List.map_map]
    exact and_congr Iff.rfl (forall₂_congr ih)
  | _ => rfl

theorem mem_numbers_map {v : JsonTree ν} {m : μ} :
    m ∈ (v.map f).numbers ↔ ∃ n ∈ v.numbers, f n = m := by
  induction v with
  | null => simp [map, numbers, fold]
  | bool b => simp [map, numbers, fold]
  | number n => simp [map, numbers, fold, eq_comm]
  | text s => simp [map, numbers, fold]
  | array items ih =>
    rw [map_array, mem_numbers_array]
    constructor
    · rintro ⟨w, hw, hm⟩
      obtain ⟨v, hv, rfl⟩ := List.mem_map.mp hw
      obtain ⟨n, hn, hfn⟩ := (ih v hv).mp hm
      exact ⟨n, mem_numbers_array.mpr ⟨v, hv, hn⟩, hfn⟩
    · rintro ⟨n, hn, hfn⟩
      obtain ⟨v, hv, hn⟩ := mem_numbers_array.mp hn
      exact ⟨v.map f, List.mem_map_of_mem hv, (ih v hv).mpr ⟨n, hn, hfn⟩⟩
  | object fields ih =>
    rw [map_object, mem_numbers_object]
    constructor
    · rintro ⟨w, hw, hm⟩
      obtain ⟨g, hg, rfl⟩ := List.mem_map.mp hw
      obtain ⟨n, hn, hfn⟩ := (ih g hg).mp hm
      exact ⟨n, mem_numbers_object.mpr ⟨g, hg, hn⟩, hfn⟩
    · rintro ⟨n, hn, hfn⟩
      obtain ⟨g, hg, hn⟩ := mem_numbers_object.mp hn
      exact ⟨(g.1, g.2.map f), List.mem_map_of_mem hg, (ih g hg).mpr ⟨n, hn, hfn⟩⟩

theorem mem_numbers_sortKeys {v : JsonTree ν} {n : ν} :
    n ∈ (v.sortKeys le).numbers ↔ n ∈ v.numbers := by
  induction v with
  | array items ih =>
    rw [sortKeys_array, mem_numbers_array, mem_numbers_array]
    constructor
    · rintro ⟨w, hw, hn⟩
      obtain ⟨v, hv, rfl⟩ := List.mem_map.mp hw
      exact ⟨v, hv, (ih v hv).mp hn⟩
    · rintro ⟨v, hv, hn⟩
      exact ⟨v.sortKeys le, List.mem_map_of_mem hv, (ih v hv).mpr hn⟩
  | object fields ih =>
    rw [sortKeys_object, mem_numbers_object, mem_numbers_object]
    simp only [List.mem_insertionSort]
    constructor
    · rintro ⟨w, hw, hn⟩
      obtain ⟨g, hg, rfl⟩ := List.mem_map.mp hw
      exact ⟨g, hg, (ih g hg).mp hn⟩
    · rintro ⟨g, hg, hn⟩
      exact ⟨(g.1, g.2.sortKeys le), List.mem_map_of_mem hg, (ih g hg).mpr hn⟩
  | _ => rfl

theorem sortKeys_map {v : JsonTree ν} : (v.map f).sortKeys le = (v.sortKeys le).map f := by
  induction v with
  | array items ih =>
    rw [map_array, sortKeys_array, sortKeys_array, map_array, List.map_map, List.map_map]
    exact congrArg array (List.map_congr_left fun v hv => ih v hv)
  | object fields ih =>
    have hsort := List.map_insertionSort (fun f g : String × JsonTree ν => (le f.1 g.1 : Prop))
      (fun f g : String × JsonTree μ => (le f.1 g.1 : Prop)) (fun g => (g.1, g.2.map f))
      (fields.map fun g => (g.1, g.2.sortKeys le)) (fun _ _ _ _ => Iff.rfl)
    rw [map_object, sortKeys_object, sortKeys_object, map_object, hsort, List.map_map,
      List.map_map]
    refine congrArg object (congrArg _ (List.map_congr_left fun g hg => ?_))
    exact congrArg (Prod.mk g.1) (ih g hg)
  | _ => rfl

end rules

/-! A second sorting undoes the first. -/

structure KeyOrder (le : String → String → Bool) : Prop where
  total : ∀ s t, le s t ∨ le t s
  trans : ∀ s t u, le s t → le t u → le s u
  antisymm : ∀ s t, le s t → le t s → s = t

/-- Python compares texts code point by code point. -/
def codePointLe (s t : String) : Bool := decide (s.toList ≤ t.toList)

theorem keyOrder_codePointLe : KeyOrder codePointLe := by
  constructor
  · intro s t
    simpa [codePointLe] using le_total s.toList t.toList
  · intro s t u hst htu
    simp only [codePointLe, decide_eq_true_eq] at hst htu ⊢
    exact hst.trans htu
  · intro s t hst hts
    simp only [codePointLe, decide_eq_true_eq] at hst hts
    exact String.toList_inj.mp (hst.antisymm hts)

section order
variable {le le' : String → String → Bool} {α : Type} {l₁ l₂ : List (String × α)}

/-- Fields of distinct keys can be sorted in one way only. -/
theorem insertionSort_eq_of_perm (hle : KeyOrder le) (hkeys : (l₁.map Prod.fst).Nodup)
    (h : l₁.Perm l₂) : l₁.insertionSort (fun f g => le f.1 g.1) =
      l₂.insertionSort (fun f g => le f.1 g.1) := by
  have htotal : Std.Total (fun f g : String × α => (le f.1 g.1 : Prop)) :=
    ⟨fun f g => hle.total f.1 g.1⟩
  have htrans : IsTrans (String × α) (fun f g => (le f.1 g.1 : Prop)) :=
    ⟨fun f g k => hle.trans f.1 g.1 k.1⟩
  have hperm : (l₁.insertionSort fun f g => le f.1 g.1).Perm
      (l₂.insertionSort fun f g => le f.1 g.1) :=
    (List.perm_insertionSort _ l₁).trans (h.trans (List.perm_insertionSort _ l₂).symm)
  refine List.Perm.eq_of_pairwise ?_ (List.pairwise_insertionSort _ l₁)
    (List.pairwise_insertionSort _ l₂) hperm
  intro f g hf hg hfg hgf
  have hmem : g ∈ l₁ := h.mem_iff.mpr ((List.mem_insertionSort _).mp hg)
  exact List.inj_on_of_nodup_map hkeys ((List.mem_insertionSort _).mp hf) hmem
    (hle.antisymm _ _ hfg hgf)

theorem sortKeys_sortKeys {ν : Type} (hle : KeyOrder le) {v : JsonTree ν} (hv : v.Distinct) :
    (v.sortKeys le').sortKeys le = v.sortKeys le := by
  induction v with
  | array items ih =>
    rw [distinct_array] at hv
    rw [sortKeys_array, sortKeys_array, sortKeys_array, List.map_map]
    exact congrArg array (List.map_congr_left fun v hmem => ih v hmem (hv v hmem))
  | object fields ih =>
    rw [distinct_object] at hv
    rw [sortKeys_object, sortKeys_object, sortKeys_object]
    refine congrArg object ?_
    have hperm : ((((fields.map fun g => (g.1, g.2.sortKeys le')).insertionSort
        fun f g => le' f.1 g.1)).map fun g => (g.1, g.2.sortKeys le)).Perm
        (fields.map fun g => (g.1, g.2.sortKeys le)) := by
      refine ((List.perm_insertionSort _ _).map _).trans ?_
      rw [List.map_map, List.map_congr_left fun g hg => ?_]
      exact congrArg (Prod.mk g.1) (ih g hg (hv.2 g hg))
    refine (insertionSort_eq_of_perm hle ?_ hperm.symm).symm
    rw [List.map_map]
    exact hv.1
  | _ => rfl

end order

end JsonTree
