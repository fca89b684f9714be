import Finguard.Lib.Runs

/-! Sessions that take turns on one shared store. What one session relies on has to
survive the steps of every other session. -/

namespace Sessions

structure System (σ τ : Type) where
  store : σ
  sessions : List τ

inductive Action (β α : Type) where
  | start (request : β)
  | advance (index : ℕ) (action : α)
deriving DecidableEq

/-- `advance store others session action` is `none` where the session has to wait. The
session that comes out is `none` when it has ended. -/
structure Machine (σ τ β α : Type) where
  start : β → τ
  advance : σ → List τ → τ → α → Option (σ × Option τ)

variable {σ τ β α : Type}

namespace Machine

def step (m : Machine σ τ β α) (sys : System σ τ) : Action β α → Option (System σ τ)
  | .start request => some { sys with sessions := m.start request :: sys.sessions }
  | .advance index action => do
    let session ← sys.sessions[index]?
    let others := sys.sessions.eraseIdx index
    let (store, ended) ← m.advance sys.store others session action
    return ⟨store, ended.toList ++ others⟩

theorem step_alone {m : Machine σ τ β α} {s s' : σ} {t : τ} {a : α} {ended : Option τ}
    (h : m.advance s [] t a = some (s', ended)) :
    m.step ⟨s, [t]⟩ (.advance 0 a) = some ⟨s', ended.toList⟩ := by
  simp [step, h]

end Machine

/-- A condition on the session that takes the step and on the store before it. -/
def OnSession (guard : σ → τ → α → Prop) (sys : System σ τ) : Action β α → Prop
  | .start _ => True
  | .advance index action => ∀ session ∈ sys.sessions[index]?, guard sys.store session action

instance (guard : σ → τ → α → Prop) [∀ s t a, Decidable (guard s t a)] (sys : System σ τ)
    (action : Action β α) : Decidable (OnSession guard sys action) := by
  cases action with
  | start request => exact .isTrue trivial
  | advance index action =>
    unfold OnSession
    infer_instance

/-- A condition on the session that takes the step, on the other ones, and on the store. -/
def OnStep (guard : σ → List τ → τ → α → Prop) (sys : System σ τ) : Action β α → Prop
  | .start _ => True
  | .advance index action =>
    ∀ session ∈ sys.sessions[index]?, guard sys.store (sys.sessions.eraseIdx index) session action

instance (guard : σ → List τ → τ → α → Prop) [∀ s l t a, Decidable (guard s l t a)]
    (sys : System σ τ) (action : Action β α) : Decidable (OnStep guard sys action) := by
  cases action with
  | start request => exact .isTrue trivial
  | advance index action =>
    unfold OnStep
    infer_instance

/-- The store keeps `I`, every session keeps `P`, and any two sessions keep `R`. -/
structure Holds (I : σ → Prop) (P : σ → τ → Prop) (R : τ → τ → Prop) (sys : System σ τ) :
    Prop where
  store : I sys.store
  each : ∀ t ∈ sys.sessions, P sys.store t
  apart : sys.sessions.Pairwise R

/-- Moreover, some session owes what is due in the store. -/
structure Covered {δ : Type} (I : σ → Prop) (P : σ → τ → Prop) (R : τ → τ → Prop)
    (Due : σ → δ → Prop) (Owes : τ → δ → Prop) (sys : System σ τ) : Prop
    extends Holds I P R sys where
  covered : ∀ d, Due sys.store d → ∃ t ∈ sys.sessions, Owes t d

theorem pairwise_eraseIdx {R : τ → τ → Prop} (hsymm : ∀ {t u}, R t u → R u t) {l : List τ}
    {i : ℕ} {t : τ} (h : l.Pairwise R) (hget : l[i]? = some t) :
    (∀ u ∈ l.eraseIdx i, R t u) ∧ (l.eraseIdx i).Pairwise R := by
  obtain ⟨hi, rfl⟩ := List.getElem?_eq_some_iff.mp hget
  have hperm : (l[i] :: l.eraseIdx i).Perm l := List.getElem_cons_eraseIdx_perm hi
  have hpairs := (hperm.pairwise_iff hsymm).mpr h
  exact List.pairwise_cons.mp hpairs

theorem mem_or_mem_eraseIdx {l : List τ} {i : ℕ} {t u : τ} (hget : l[i]? = some t) (hu : u ∈ l) :
    u = t ∨ u ∈ l.eraseIdx i := by
  obtain ⟨hi, rfl⟩ := List.getElem?_eq_some_iff.mp hget
  have hperm : (l[i] :: l.eraseIdx i).Perm l := List.getElem_cons_eraseIdx_perm hi
  exact List.mem_cons.mp (hperm.mem_iff.mpr hu)

/-- What the steps of a machine have to do so that everything above is kept. -/
structure Reliable {δ : Type} (m : Machine σ τ β α) (guard : σ → List τ → τ → α → Prop)
    (I : σ → Prop) (P : σ → τ → Prop) (R : τ → τ → Prop) (Due : σ → δ → Prop)
    (Owes : τ → δ → Prop) : Prop where
  symm : ∀ {t u}, R t u → R u t
  starts : ∀ {s request}, I s → P s (m.start request)
  starts_apart : ∀ {s request u}, P s u → R (m.start request) u
  advances : ∀ {s others t a s' ended}, I s → P s t → (∀ u ∈ others, P s u ∧ R t u) →
    (∀ d, Due s d → Owes t d ∨ ∃ u ∈ others, Owes u d) → guard s others t a →
    m.advance s others t a = some (s', ended) →
    I s' ∧ (∀ t' ∈ ended, P s' t' ∧ ∀ u ∈ others, R t' u) ∧ (∀ u ∈ others, P s' u) ∧
      ∀ d, Due s' d → (∃ t' ∈ ended, Owes t' d) ∨ ∃ u ∈ others, Owes u d

namespace Reliable
variable {δ : Type} {m : Machine σ τ β α} {guard : σ → List τ → τ → α → Prop} {I : σ → Prop}
  {P : σ → τ → Prop} {R : τ → τ → Prop} {Due : σ → δ → Prop} {Owes : τ → δ → Prop}

/-- One step keeps what holds of the store and of every session. -/
theorem step (hm : Reliable m guard I P R Due Owes) {sys sys' : System σ τ} {action : Action β α}
    (h : Covered I P R Due Owes sys) (hguard : OnStep guard sys action)
    (hstep : m.step sys action = some sys') : Covered I P R Due Owes sys' := by
  cases action with
  | start request =>
    obtain rfl := Option.some.inj hstep
    refine ⟨⟨h.store, ?_, ?_⟩, ?_⟩
    · intro t ht
      rcases List.mem_cons.mp ht with rfl | ht
      · exact hm.starts h.store
      · exact h.each t ht
    · rw [List.pairwise_cons]
      exact ⟨fun u hu => hm.starts_apart (h.each u hu), h.apart⟩
    · intro d hd
      obtain ⟨t, ht, howes⟩ := h.covered d hd
      exact ⟨t, List.mem_cons_of_mem _ ht, howes⟩
  | advance index action =>
    simp only [Machine.step, Option.bind_eq_bind, Option.bind_eq_some_iff] at hstep
    obtain ⟨t, hget, ⟨s', ended⟩, hadvance, hsys⟩ := hstep
    obtain rfl := Option.some.inj hsys
    have hothers : ∀ u ∈ sys.sessions.eraseIdx index, P sys.store u :=
      fun u hu => h.each u (List.mem_of_mem_eraseIdx hu)
    obtain ⟨hapart, hrest⟩ := pairwise_eraseIdx hm.symm h.apart hget
    have hcovered : ∀ d, Due sys.store d →
        Owes t d ∨ ∃ u ∈ sys.sessions.eraseIdx index, Owes u d := by
      intro d hd
      obtain ⟨u, hu, howes⟩ := h.covered d hd
      rcases mem_or_mem_eraseIdx hget hu with rfl | hu
      · exact .inl howes
      · exact .inr ⟨u, hu, howes⟩
    obtain ⟨hI, hown, hframe, hdebts⟩ := hm.advances h.store (h.each t (List.mem_of_getElem? hget))
      (fun u hu => ⟨hothers u hu, hapart u hu⟩) hcovered (hguard t hget) hadvance
    refine ⟨⟨hI, ?_, ?_⟩, ?_⟩
    · intro u hu
      rcases List.mem_append.mp hu with hu | hu
      · exact (hown u (Option.mem_toList.mp hu)).1
      · exact hframe u hu
    · rw [List.pairwise_append]
      refine ⟨?_, hrest, fun t' ht' => (hown t' (Option.mem_toList.mp ht')).2⟩
      cases ended with
      | none => exact .nil
      | some t' => exact List.pairwise_singleton _ _
    · intro d hd
      rcases hdebts d hd with ⟨t', ht', howes⟩ | ⟨u, hu, howes⟩
      · exact ⟨t', List.mem_append_left _ (Option.mem_toList.mpr ht'), howes⟩
      · exact ⟨u, List.mem_append_right _ hu, howes⟩

/-- The run rule. -/
theorem run (hm : Reliable m guard I P R Due Owes) {sys sys' : System σ τ}
    (hrun : Runs.Reaches m.step (OnStep guard) sys sys') (h : Covered I P R Due Owes sys) :
    Covered I P R Due Owes sys' :=
  hrun.invariant (fun _ _ _ h hguard hstep => hm.step h hguard hstep) h

/-- What every step does to the store, from any state of a run to the later ones. -/
theorem relates (hm : Reliable m guard I P R Due Owes) {Q : σ → σ → Prop} (hrefl : ∀ s, Q s s)
    (htrans : ∀ {s t u}, Q s t → Q t u → Q s u)
    (hstep : ∀ {s others t a s' ended}, I s → P s t → guard s others t a →
      m.advance s others t a = some (s', ended) → Q s s')
    {sys sys' : System σ τ} (hrun : Runs.Reaches m.step (OnStep guard) sys sys')
    (h : Covered I P R Due Owes sys) : Q sys.store sys'.store := by
  refine hrun.relates (I := Covered I P R Due Owes) (Q := fun a b => Q a.store b.store)
    (fun a => hrefl a.store) htrans ?_ h
  intro a action b ha hguard hab
  refine ⟨hm.step ha hguard hab, ?_⟩
  cases action with
  | start request =>
    obtain rfl := Option.some.inj hab
    exact hrefl _
  | advance index action =>
    simp only [Machine.step, Option.bind_eq_bind, Option.bind_eq_some_iff] at hab
    obtain ⟨t, hget, ⟨s', ended⟩, hadvance, hb⟩ := hab
    obtain rfl := Option.some.inj hb
    exact hstep ha.store (ha.each t (List.mem_of_getElem? hget)) (hguard t hget) hadvance

end Reliable

/-- The rule for machines that leave no debts, under a guard that sees one session. -/
structure Secure (m : Machine σ τ β α) (guard : σ → τ → α → Prop) (I : σ → Prop)
    (P : σ → τ → Prop) (R : τ → τ → Prop) : Prop where
  symm : ∀ {t u}, R t u → R u t
  starts : ∀ {s request}, I s → P s (m.start request)
  starts_apart : ∀ {s request u}, P s u → R (m.start request) u
  advances : ∀ {s others t a s' ended}, I s → P s t → (∀ u ∈ others, P s u ∧ R t u) →
    guard s t a → m.advance s others t a = some (s', ended) →
    I s' ∧ (∀ t' ∈ ended, P s' t' ∧ ∀ u ∈ others, R t' u) ∧ ∀ u ∈ others, P s' u

namespace Secure
variable {m : Machine σ τ β α} {guard : σ → τ → α → Prop} {I : σ → Prop} {P : σ → τ → Prop}
  {R : τ → τ → Prop}

theorem reliable (hm : Secure m guard I P R) :
    Reliable m (fun s _ => guard s) I P R (fun _ (_ : Empty) => False) (fun _ _ => False) where
  symm := hm.symm
  starts := hm.starts
  starts_apart := hm.starts_apart
  advances := by
    intro s others t a s' ended hI ht hothers _ hguard hadvance
    obtain ⟨hstore, hown, hframe⟩ := hm.advances hI ht hothers hguard hadvance
    exact ⟨hstore, hown, hframe, fun d => d.elim⟩

theorem step (hm : Secure m guard I P R) {sys sys' : System σ τ} {action : Action β α}
    (h : Holds I P R sys) (hguard : OnSession guard sys action)
    (hstep : m.step sys action = some sys') : Holds I P R sys' := by
  refine (hm.reliable.step ⟨h, fun d => d.elim⟩ ?_ hstep).toHolds
  cases action with
  | start request => trivial
  | advance index action => exact hguard

/-- The run rule. -/
theorem run (hm : Secure m guard I P R) {sys sys' : System σ τ}
    (hrun : Runs.Reaches m.step (OnSession guard) sys sys') (h : Holds I P R sys) :
    Holds I P R sys' :=
  hrun.invariant (fun _ _ _ h hguard hstep => hm.step h hguard hstep) h

theorem run_always (hm : Secure m (fun _ _ _ => True) I P R) {sys sys' : System σ τ}
    (hrun : Runs.Reaches m.step Runs.always sys sys') (h : Holds I P R sys) : Holds I P R sys' := by
  refine hm.run (hrun.weaken ?_) h
  intro sys action _
  cases action with
  | start request => trivial
  | advance index action => exact fun _ _ => trivial

end Secure

section
variable {M : Type} [AddCommMonoid M]

def load (weigh : τ → M) (sessions : List τ) : M := (sessions.map weigh).sum

@[simp] theorem load_nil (weigh : τ → M) : load weigh [] = 0 := rfl

@[simp] theorem load_cons (weigh : τ → M) (t : τ) (sessions : List τ) :
    load weigh (t :: sessions) = weigh t + load weigh sessions := by
  simp [load]

theorem load_eraseIdx (weigh : τ → M) {l : List τ} {i : ℕ} {t : τ} (hget : l[i]? = some t) :
    load weigh l = weigh t + load weigh (l.eraseIdx i) := by
  obtain ⟨hi, rfl⟩ := List.getElem?_eq_some_iff.mp hget
  have hperm : (l[i] :: l.eraseIdx i).Perm l := List.getElem_cons_eraseIdx_perm hi
  have hsum := (hperm.map weigh).sum_eq
  rw [List.map_cons, List.sum_cons] at hsum
  exact hsum.symm

/-- The store and the load of all sessions keep `I` together. -/
structure Metered (m : Machine σ τ β α) (guard : σ → List τ → τ → α → Prop) (weigh : τ → M)
    (I : σ → M → Prop) : Prop where
  starts : ∀ {s rest request}, I s rest → I s (weigh (m.start request) + rest)
  advances : ∀ {s others t a s' ended}, I s (weigh t + load weigh others) → guard s others t a →
    m.advance s others t a = some (s', ended) →
    I s' (load weigh ended.toList + load weigh others)

namespace Metered
variable {m : Machine σ τ β α} {guard : σ → List τ → τ → α → Prop} {weigh : τ → M}
  {I : σ → M → Prop}

theorem step (hm : Metered m guard weigh I) {sys sys' : System σ τ} {action : Action β α}
    (h : I sys.store (load weigh sys.sessions)) (hguard : OnStep guard sys action)
    (hstep : m.step sys action = some sys') : I sys'.store (load weigh sys'.sessions) := by
  cases action with
  | start request =>
    obtain rfl := Option.some.inj hstep
    rw [load_cons]
    exact hm.starts h
  | advance index action =>
    simp only [Machine.step, Option.bind_eq_bind, Option.bind_eq_some_iff] at hstep
    obtain ⟨t, hget, ⟨s', ended⟩, hadvance, hsys⟩ := hstep
    obtain rfl := Option.some.inj hsys
    rw [load_eraseIdx weigh hget] at h
    have hload := hm.advances h (hguard t hget) hadvance
    simpa [load] using hload

/-- The run rule. -/
theorem run (hm : Metered m guard weigh I) {sys sys' : System σ τ}
    (hrun : Runs.Reaches m.step (OnStep guard) sys sys')
    (h : I sys.store (load weigh sys.sessions)) : I sys'.store (load weigh sys'.sessions) :=
  hrun.invariant (I := fun sys => I sys.store (load weigh sys.sessions))
    (fun _ _ _ h hguard hstep => hm.step h hguard hstep) h

end Metered

end

end Sessions
