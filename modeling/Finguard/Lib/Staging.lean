import Mathlib

/-! What a set of things requires in the end, and stages in which everything comes after what it
requires. -/

namespace Staging
variable {α ε : Type} [DecidableEq α]

def demand (requires : α → Except ε (List α)) (a : α) : ℕ :=
  ((requires a).toOption.getD []).length

/-- The demand of the part of the domain that has not been seen. -/
def owed (domain : List α) (requires : α → Except ε (List α)) (needed : List α) : ℕ :=
  ((domain.filter (· ∉ needed)).map (demand requires)).sum

section owed
variable {domain needed required : List α} {requires : α → Except ε (List α)} {a : α}

theorem owed_le (domain : List α) (requires : α → Except ε (List α)) (needed : List α) (a : α) :
    owed domain requires (a :: needed) ≤ owed domain requires needed := by
  induction domain with
  | nil => exact le_rfl
  | cons b domain ih =>
    simp only [owed, List.filter_cons, List.mem_cons] at ih ⊢
    by_cases hb : b ∈ needed
    · simpa [hb] using ih
    · by_cases hba : b = a
      · subst hba
        simp only [true_or, not_true, decide_false, Bool.false_eq_true, if_false, hb,
          not_false_iff, decide_true, if_true, List.map_cons, List.sum_cons]
        omega
      · simp only [hb, hba, or_self, not_false_iff, decide_true, if_true, List.map_cons,
          List.sum_cons]
        omega

theorem owed_lt (ha : a ∈ domain) (hnew : a ∉ needed) (hrequired : requires a = .ok required) :
    owed domain requires (a :: needed) + required.length ≤ owed domain requires needed := by
  have hdemand : demand requires a = required.length := by
    rw [demand, hrequired]
    rfl
  induction domain with
  | nil => cases ha
  | cons b domain ih =>
    by_cases hba : b = a
    · subst hba
      have hle := owed_le domain requires needed b
      simp only [owed, List.filter_cons, List.mem_cons] at hle ⊢
      simp only [true_or, not_true, decide_false, Bool.false_eq_true, if_false, hnew,
        not_false_iff, decide_true, if_true, List.map_cons, List.sum_cons]
      omega
    · have hrest := ih ((List.mem_cons.mp ha).resolve_left (Ne.symm hba))
      simp only [owed, List.filter_cons, List.mem_cons] at hrest ⊢
      by_cases hb : b ∈ needed
      · simpa [hb] using hrest
      · simp only [hb, hba, or_self, not_false_iff, decide_true, if_true, List.map_cons,
          List.sum_cons]
        omega

end owed

/-- The things that are needed when those on the stack are, with everything they require. -/
def collect (domain : List α) (unknown : α → ε) (requires : α → Except ε (List α)) :
    List α → List α → Except ε (List α)
  | [], needed => .ok needed
  | a :: frontier, needed =>
    if _hseen : a ∈ needed then collect domain unknown requires frontier needed
    else if _hknown : a ∈ domain then
      match _hrequired : requires a with
      | .error e => .error e
      | .ok required =>
        collect domain unknown requires (required.reverse ++ frontier) (a :: needed)
    else .error (unknown a)
termination_by frontier needed => owed domain requires needed + frontier.length
decreasing_by
  · exact Nat.lt_succ_self _
  · have hlt := owed_lt _hknown _hseen _hrequired
    simp only [List.length_append, List.length_reverse, List.length_cons]
    omega

section collect
variable {domain : List α} {unknown : α → ε} {requires : α → Except ε (List α)}
  {frontier needed result : List α}

/-- What a collection that succeeds has done, from its end. -/
theorem collect_induction {motive : List α → List α → Prop}
    (h : collect domain unknown requires frontier needed = .ok result)
    (done : motive [] result)
    (seen : ∀ {a frontier needed}, a ∈ needed → motive frontier needed →
      motive (a :: frontier) needed)
    (found : ∀ {a frontier needed required}, a ∉ needed → a ∈ domain →
      requires a = .ok required → motive (required.reverse ++ frontier) (a :: needed) →
      motive (a :: frontier) needed) : motive frontier needed := by
  induction frontier, needed using collect.induct domain requires with
  | case1 needed =>
    rw [collect, Except.ok.injEq] at h
    rwa [h]
  | case2 a frontier needed hseen ih =>
    rw [collect, dif_pos hseen] at h
    exact seen hseen (ih h)
  | case3 a frontier needed hseen hknown e hrequired =>
    rw [collect, dif_neg hseen, dif_pos hknown] at h
    split at h
    · cases h
    · next found hfound =>
      rw [hrequired] at hfound
      cases hfound
  | case4 a frontier needed hseen hknown required hrequired ih =>
    rw [collect, dif_neg hseen, dif_pos hknown] at h
    split at h
    · cases h
    · next result hresult =>
      obtain rfl : required = result := by simpa [hrequired] using hresult
      exact found hseen hknown hrequired (ih h)
  | case5 a frontier needed hseen hknown =>
    rw [collect, dif_neg hseen, dif_neg hknown] at h
    cases h

/-- Everything that is found lies in the domain, with what it requires. -/
theorem collect_spec (h : collect domain unknown requires frontier needed = .ok result) :
    frontier ⊆ result ∧ needed ⊆ result ∧
      ∀ a ∈ result, a ∈ needed ∨ a ∈ domain ∧ ∃ required, requires a = .ok required ∧
        required ⊆ result := by
  refine collect_induction (motive := fun frontier needed => frontier ⊆ result ∧
    needed ⊆ result ∧ ∀ a ∈ result, a ∈ needed ∨ a ∈ domain ∧ ∃ required,
      requires a = .ok required ∧ required ⊆ result) h ?_ ?_ ?_
  · exact ⟨List.nil_subset _, List.Subset.refl _, fun a ha => .inl ha⟩
  · rintro a frontier needed hseen ⟨hfrontier, hneeded, hall⟩
    exact ⟨List.cons_subset.mpr ⟨hneeded hseen, hfrontier⟩, hneeded, hall⟩
  · rintro a frontier needed required hseen hknown hrequired ⟨hfrontier, hneeded, hall⟩
    obtain ⟨ha, hneeded⟩ := List.cons_subset.mp hneeded
    have hsub : required ⊆ result := fun b hb =>
      hfrontier (List.mem_append_left _ (List.mem_reverse.mpr hb))
    refine ⟨List.cons_subset.mpr ⟨ha, fun b hb => hfrontier (List.mem_append_right _ hb)⟩,
      hneeded, fun b hb => ?_⟩
    rcases hall b hb with hb | hb
    · rcases List.mem_cons.mp hb with rfl | hb
      · exact .inr ⟨hknown, required, hrequired, hsub⟩
      · exact .inl hb
    · exact .inr hb

theorem collect_nodup (h : collect domain unknown requires frontier needed = .ok result)
    (hneeded : needed.Nodup) : result.Nodup := by
  refine collect_induction (motive := fun _ needed => needed.Nodup → result.Nodup) h id ?_ ?_
    hneeded
  · exact fun _ ih => ih
  · exact fun hseen _ _ ih hneeded => ih (List.nodup_cons.mpr ⟨hseen, hneeded⟩)

/-- A property that is handed down to what is required. -/
theorem collect_all {P : α → Prop}
    (h : collect domain unknown requires frontier needed = .ok result)
    (hstep : ∀ {a required}, P a → requires a = .ok required → ∀ b ∈ required, P b)
    (hfrontier : ∀ a ∈ frontier, P a) (hneeded : ∀ a ∈ needed, P a) : ∀ a ∈ result, P a := by
  refine collect_induction (motive := fun frontier needed => (∀ a ∈ frontier, P a) →
    (∀ a ∈ needed, P a) → ∀ a ∈ result, P a) h (fun _ hall => hall) ?_ ?_ hfrontier hneeded
  · exact fun _ ih hfrontier => ih (fun b hb => hfrontier b (List.mem_cons_of_mem _ hb))
  · intro a frontier needed required _ _ hrequired ih hfrontier hneeded
    have ha : P a := hfrontier a List.mem_cons_self
    refine ih (fun b hb => ?_) (fun b hb => ?_)
    · rcases List.mem_append.mp hb with hb | hb
      · exact hstep ha hrequired b (List.mem_reverse.mp hb)
      · exact hfrontier b (List.mem_cons_of_mem _ hb)
    · rcases List.mem_cons.mp hb with rfl | hb
      · exact ha
      · exact hneeded b hb

/-- One thing requires another. -/
def Demands (requires : α → Except ε (List α)) (a b : α) : Prop :=
  ∃ required, requires a = .ok required ∧ b ∈ required

/-- What the search stumbles over is required in the end by something on the stack. -/
theorem collect_error {e : ε} (h : collect domain unknown requires frontier needed = .error e) :
    ∃ a ∈ frontier, ∃ b, Relation.ReflTransGen (Demands requires) a b ∧
      (b ∉ domain ∨ requires b = .error e) := by
  induction frontier, needed using collect.induct domain requires with
  | case1 needed =>
    rw [collect] at h
    cases h
  | case2 a frontier needed hseen ih =>
    rw [collect, dif_pos hseen] at h
    obtain ⟨b, hb, hbad⟩ := ih h
    exact ⟨b, List.mem_cons_of_mem _ hb, hbad⟩
  | case3 a frontier needed hseen hknown e' hrequired =>
    rw [collect, dif_neg hseen, dif_pos hknown] at h
    split at h
    · next e'' hfound =>
      obtain rfl := Except.error.inj h
      exact ⟨a, List.mem_cons_self, a, .refl, .inr hfound⟩
    · next hfound =>
      rw [hrequired] at hfound
      cases hfound
  | case4 a frontier needed hseen hknown required hrequired ih =>
    have hnext : collect domain unknown requires (required.reverse ++ frontier) (a :: needed) =
        .error e := by
      rw [collect, dif_neg hseen, dif_pos hknown] at h
      split at h
      · next e' hfound =>
        rw [hrequired] at hfound
        cases hfound
      · next found hfound =>
        obtain rfl : required = found := by simpa [hrequired] using hfound
        exact h
    obtain ⟨b, hb, c, hbc, hbad⟩ := ih hnext
    rcases List.mem_append.mp hb with hb | hb
    · have hdemands : Demands requires a b := ⟨required, hrequired, List.mem_reverse.mp hb⟩
      exact ⟨a, List.mem_cons_self, c, .head hdemands hbc, hbad⟩
    · exact ⟨b, List.mem_cons_of_mem _ hb, c, hbc, hbad⟩
  | case5 a frontier needed hseen hknown =>
    exact ⟨a, List.mem_cons_self, a, .refl, .inl hknown⟩

end collect

/-- What has nothing left that it waits for. -/
def ready (remaining : List (α × List α)) : List α :=
  (remaining.filter (·.2.isEmpty)).map Prod.fst

def without (remaining : List (α × List α)) (stage : List α) : List (α × List α) :=
  (remaining.filter (·.1 ∉ stage)).map fun (a, unmet) => (a, unmet.filter (· ∉ stage))

theorem without_lt {remaining : List (α × List α)} (h : ready remaining ≠ []) :
    (without remaining (ready remaining)).length < remaining.length := by
  obtain ⟨a, ha⟩ := List.exists_mem_of_ne_nil _ h
  obtain ⟨entry, hentry, rfl⟩ := List.mem_map.mp ha
  rw [without, List.length_map]
  refine List.length_filter_lt_length_iff_exists.mpr ⟨entry, (List.mem_filter.mp hentry).1, ?_⟩
  simpa using ha

/-- The stages, or what is left when nothing is ready. -/
def staged (remaining : List (α × List α)) : Except (List α) (List (List α)) :=
  if remaining.isEmpty then .ok []
  else if _hready : ready remaining = [] then .error (remaining.map Prod.fst)
  else (staged (without remaining (ready remaining))).map (ready remaining :: ·)
termination_by remaining.length
decreasing_by exact without_lt _hready

/-- Everything in a stage comes after what it requires. -/
def Layered (requires : α → α → Prop) : List α → List (List α) → Prop
  | _, [] => True
  | settled, stage :: later => (∀ a ∈ stage, ∀ b, requires a b → b ∈ settled) ∧
    Layered requires (settled ++ stage) later

section staged
variable {remaining : List (α × List α)} {stages : List (List α)} {a : α}

omit [DecidableEq α] in
theorem mem_ready : a ∈ ready remaining ↔ (a, []) ∈ remaining := by
  simp [ready]

theorem mem_without {stage unmet : List α} : (a, unmet) ∈ without remaining stage ↔
    a ∉ stage ∧ ∃ before, (a, before) ∈ remaining ∧ before.filter (· ∉ stage) = unmet := by
  simp [without]
  tauto

theorem fst_without (remaining : List (α × List α)) (stage : List α) :
    (without remaining stage).map Prod.fst = (remaining.map Prod.fst).filter (· ∉ stage) := by
  rw [without, List.map_map, List.filter_map]
  rfl

/-- What a staging that succeeds has done, from its end. -/
theorem staged_induction {motive : List (α × List α) → List (List α) → Prop}
    (h : staged remaining = .ok stages) (done : motive [] [])
    (stage : ∀ {remaining later}, ready remaining ≠ [] →
      staged (without remaining (ready remaining)) = .ok later →
      motive (without remaining (ready remaining)) later →
      motive remaining (ready remaining :: later)) : motive remaining stages := by
  induction remaining using staged.induct generalizing stages with
  | case1 remaining hempty =>
    rw [staged, if_pos hempty, Except.ok.injEq] at h
    rw [List.isEmpty_iff.mp hempty, ← h]
    exact done
  | case2 remaining hempty hready =>
    rw [staged, if_neg hempty, dif_pos hready] at h
    cases h
  | case3 remaining hempty hready ih =>
    rw [staged, if_neg hempty, dif_neg hready] at h
    cases hlater : staged (without remaining (ready remaining)) with
    | error left =>
      rw [hlater] at h
      cases h
    | ok later =>
      rw [hlater] at h
      obtain rfl := Except.ok.inj h
      exact stage hready hlater (ih hlater)

theorem staged_mem (h : staged remaining = .ok stages) :
    ∀ a, a ∈ stages.flatten ↔ a ∈ remaining.map Prod.fst := by
  refine staged_induction (motive := fun remaining stages =>
    ∀ a, a ∈ stages.flatten ↔ a ∈ remaining.map Prod.fst) h (fun a => Iff.rfl) ?_
  intro remaining later _ _ ih a
  rw [List.flatten_cons, List.mem_append, ih, fst_without, List.mem_filter]
  have hsub : a ∈ ready remaining → a ∈ remaining.map Prod.fst :=
    fun ha => List.mem_map_of_mem (mem_ready.mp ha)
  by_cases ha : a ∈ ready remaining
  · simp [ha, hsub ha]
  · simp [ha]

theorem staged_nodup (h : staged remaining = .ok stages) (hkeys : (remaining.map Prod.fst).Nodup) :
    stages.flatten.Nodup := by
  refine staged_induction (motive := fun remaining stages =>
    (remaining.map Prod.fst).Nodup → stages.flatten.Nodup) h (fun _ => .nil) ?_ hkeys
  intro remaining later _ hlater ih hkeys
  have hready : (ready remaining).Nodup :=
    (List.filter_sublist.map Prod.fst).nodup hkeys
  have hrest : later.flatten.Nodup := ih (by rw [fst_without]; exact hkeys.filter _)
  rw [List.flatten_cons, List.nodup_append]
  refine ⟨hready, hrest, fun a ha b hb hab => ?_⟩
  rw [staged_mem hlater, fst_without, List.mem_filter, ← hab] at hb
  simp [ha] at hb

/-- The stages come in an order that respects what their members wait for. -/
theorem staged_layered {requires : α → α → Prop} (h : staged remaining = .ok stages)
    {settled : List α} (hunmet : ∀ a unmet, (a, unmet) ∈ remaining → ∀ b, requires a b →
      b ∈ settled ∨ b ∈ unmet) : Layered requires settled stages := by
  refine staged_induction (motive := fun remaining stages => ∀ settled : List α,
    (∀ a unmet, (a, unmet) ∈ remaining → ∀ b, requires a b → b ∈ settled ∨ b ∈ unmet) →
      Layered requires settled stages) h (fun _ _ => trivial) ?_ settled hunmet
  intro remaining later _ _ ih settled hunmet
  refine ⟨fun a ha b hb => ?_, ih _ fun a unmet ha b hb => ?_⟩
  · have hfree := hunmet a [] (mem_ready.mp ha) b hb
    simpa using hfree
  · obtain ⟨-, before, hbefore, rfl⟩ := mem_without.mp ha
    rw [List.mem_append, List.mem_filter]
    by_cases hstage : b ∈ ready remaining
    · exact .inl (.inr hstage)
    · rcases hunmet a before hbefore b hb with hb | hb
      · exact .inl (.inl hb)
      · exact .inr ⟨hb, by simpa using hstage⟩

theorem staged_ne_nil (h : staged remaining = .ok stages) : ∀ stage ∈ stages, stage ≠ [] := by
  refine staged_induction (motive := fun _ stages => ∀ stage ∈ stages, stage ≠ []) h (by simp) ?_
  intro remaining later hready _ ih stage hstage
  rcases List.mem_cons.mp hstage with rfl | hstage
  · exact hready
  · exact ih stage hstage

/-- A chain of so many requirements leads down from the thing. -/
def Descends (requires : α → α → Prop) : ℕ → α → Prop
  | 0, _ => True
  | n + 1, a => ∃ b, requires a b ∧ Descends requires n b

omit [DecidableEq α] in
theorem descends_of_cycle {requires : α → α → Prop} (hcycle : Relation.TransGen requires a a)
    (n : ℕ) : Descends requires n a := by
  suffices hany : ∀ b, Relation.TransGen requires b a → Descends requires n b from hany a hcycle
  induction n with
  | zero => exact fun _ _ => trivial
  | succ n ih =>
    intro b hb
    obtain ⟨c, hbc, hca⟩ := Relation.TransGen.head'_iff.mp hb
    exact ⟨c, hbc, ih c (Relation.TransGen.trans_right hca hcycle)⟩

omit [DecidableEq α] in
theorem Descends.le {requires : α → α → Prop} {m n : ℕ} (hmn : m ≤ n) {a : α}
    (h : Descends requires n a) : Descends requires m a := by
  induction n generalizing m a with
  | zero =>
    obtain rfl : m = 0 := by omega
    exact h
  | succ n ih =>
    obtain ⟨b, hab, hb⟩ := h
    cases m with
    | zero => trivial
    | succ m => exact ⟨b, hab, ih (by omega) hb⟩

/-- A thing comes in the stage whose number is the length of its longest chain. What has gone
before has no chain as long as the number of stages so far. -/
theorem staged_depth {requires : α → α → Prop} (h : staged remaining = .ok stages) {k : ℕ}
    (hdeep : ∀ a ∈ remaining.map Prod.fst, Descends requires k a)
    (hunmet : ∀ a unmet, (a, unmet) ∈ remaining → ∀ b, b ∈ unmet ↔
      requires a b ∧ b ∈ remaining.map Prod.fst)
    (hsettled : ∀ a ∈ remaining.map Prod.fst, ∀ b, requires a b →
      b ∈ remaining.map Prod.fst ∨ ¬ Descends requires k b) {i : ℕ} {stage : List α}
    (hstage : stages[i]? = some stage) {a : α} (ha : a ∈ stage) :
    Descends requires (k + i) a ∧ ¬ Descends requires (k + i + 1) a := by
  refine staged_induction (motive := fun remaining stages => ∀ k : ℕ,
    (∀ a ∈ remaining.map Prod.fst, Descends requires k a) →
    (∀ a unmet, (a, unmet) ∈ remaining → ∀ b, b ∈ unmet ↔
      requires a b ∧ b ∈ remaining.map Prod.fst) →
    (∀ a ∈ remaining.map Prod.fst, ∀ b, requires a b →
      b ∈ remaining.map Prod.fst ∨ ¬ Descends requires k b) → ∀ (i : ℕ) (stage : List α),
    stages[i]? = some stage → ∀ a ∈ stage,
      Descends requires (k + i) a ∧ ¬ Descends requires (k + i + 1) a) h ?_ ?_ k hdeep hunmet
    hsettled i stage hstage a ha
  · intro k _ _ _ i stage hstage
    cases hstage
  clear h hdeep hunmet hsettled hstage ha
  intro remaining later _ _ ih k hdeep hunmet hsettled i stage hstage a ha
  have hshallow : ∀ a ∈ ready remaining, ¬ Descends requires (k + 1) a := by
    rintro a ha ⟨b, hab, hb⟩
    have hentry := mem_ready.mp ha
    rcases hsettled a (List.mem_map_of_mem hentry) b hab with hin | hout
    · have hmem := (hunmet a [] hentry b).mpr ⟨hab, hin⟩
      cases hmem
    · exact hout hb
  cases i with
  | zero =>
    obtain rfl : ready remaining = stage := Option.some.inj hstage
    exact ⟨hdeep a (List.mem_map_of_mem (mem_ready.mp ha)), hshallow a ha⟩
  | succ i =>
    have hmem : ∀ b, b ∈ (without remaining (ready remaining)).map Prod.fst ↔
        b ∈ remaining.map Prod.fst ∧ b ∉ ready remaining := by
      intro b
      rw [fst_without, List.mem_filter, decide_eq_true_eq]
    have hnext := ih (k + 1) ?_ ?_ ?_ i stage (by simpa using hstage) a ha
    · rwa [show k + (i + 1) = k + 1 + i by omega]
    · intro b hb
      obtain ⟨hb, hlater⟩ := (hmem b).mp hb
      obtain ⟨⟨b, unmet⟩, hentry, rfl⟩ := List.mem_map.mp hb
      have hne : unmet ≠ [] := by
        rintro rfl
        exact hlater (mem_ready.mpr hentry)
      obtain ⟨c, hc⟩ := List.exists_mem_of_ne_nil unmet hne
      obtain ⟨hbc, hc⟩ := (hunmet b unmet hentry c).mp hc
      exact ⟨c, hbc, hdeep c hc⟩
    · intro b unmet hentry c
      obtain ⟨-, before, hbefore, rfl⟩ := mem_without.mp hentry
      rw [List.mem_filter, hunmet b before hbefore, hmem, decide_eq_true_eq, and_assoc]
    · intro b hb c hbc
      by_cases hc : c ∈ ready remaining
      · exact .inr (hshallow c hc)
      · rcases hsettled b ((hmem b).mp hb).1 c hbc with hin | hout
        · exact .inl ((hmem c).mpr ⟨hin, hc⟩)
        · exact .inr fun hdeeper => hout (hdeeper.le (Nat.le_succ k))

omit [DecidableEq α] in
/-- Where nothing requires itself in the end, some member of a list requires no other one. -/
theorem exists_free {requires : α → α → Prop} (hacyclic : ∀ a, ¬ Relation.TransGen requires a a)
    {l : List α} (hl : l ≠ []) : ∃ a ∈ l, ∀ b ∈ l, ¬ requires a b := by
  let below : α → α → Prop := fun b a => Relation.TransGen requires a b
  have hstrict : IsStrictOrder α below :=
    { irrefl := hacyclic
      trans := fun _ _ _ h h' => h'.trans h }
  have hwf : {a | a ∈ l}.WellFoundedOn below := (List.finite_toSet l).wellFoundedOn
  obtain ⟨a, ha⟩ := List.exists_mem_of_ne_nil l hl
  obtain ⟨least, -, hleast⟩ := hwf.has_min Set.univ ⟨⟨a, ha⟩, trivial⟩
  exact ⟨least, least.2, fun b hb hab => hleast ⟨b, hb⟩ trivial (.single hab)⟩

theorem staged_total {requires : α → α → Prop} (hacyclic : ∀ a, ¬ Relation.TransGen requires a a)
    (hunmet : ∀ a unmet, (a, unmet) ∈ remaining →
      ∀ b ∈ unmet, requires a b ∧ b ∈ remaining.map Prod.fst) :
    ∃ stages, staged remaining = .ok stages := by
  induction remaining using staged.induct with
  | case1 remaining hempty => exact ⟨[], by rw [staged, if_pos hempty]⟩
  | case2 remaining hempty hready =>
    have hkeys : remaining.map Prod.fst ≠ [] := by simpa using hempty
    obtain ⟨a, ha, hfree⟩ := exists_free hacyclic hkeys
    obtain ⟨⟨a, unmet⟩, hentry, rfl⟩ := List.mem_map.mp ha
    obtain rfl : unmet = [] := List.eq_nil_iff_forall_not_mem.mpr fun b hb =>
      hfree b (hunmet a unmet hentry b hb).2 (hunmet a unmet hentry b hb).1
    have hmem := mem_ready.mpr hentry
    rw [hready] at hmem
    cases hmem
  | case3 remaining hempty hready ih =>
    have hnext : ∀ a unmet, (a, unmet) ∈ without remaining (ready remaining) → ∀ b ∈ unmet,
        requires a b ∧ b ∈ (without remaining (ready remaining)).map Prod.fst := by
      intro a unmet ha b hb
      obtain ⟨-, before, hbefore, rfl⟩ := mem_without.mp ha
      obtain ⟨hb, hlater⟩ := List.mem_filter.mp hb
      obtain ⟨hrequires, hkey⟩ := hunmet a before hbefore b hb
      rw [fst_without]
      exact ⟨hrequires, List.mem_filter.mpr ⟨hkey, hlater⟩⟩
    obtain ⟨later, hlater⟩ := ih hnext
    refine ⟨ready remaining :: later, ?_⟩
    rw [staged, if_neg hempty, dif_neg hready, hlater]
    rfl

/-- Where the stages get stuck, something requires itself in the end. -/
theorem staged_cycle {requires : α → α → Prop} {left : List α} (h : staged remaining = .error left)
    (hunmet : ∀ a unmet, (a, unmet) ∈ remaining →
      ∀ b ∈ unmet, requires a b ∧ b ∈ remaining.map Prod.fst) :
    ∃ a ∈ remaining.map Prod.fst, Relation.TransGen requires a a := by
  by_contra hnone
  push Not at hnone
  let within : α → α → Prop := fun a b => requires a b ∧ a ∈ remaining.map Prod.fst
  have hacyclic : ∀ a, ¬ Relation.TransGen within a a := by
    intro a hcycle
    obtain ⟨b, hab, -⟩ := Relation.TransGen.head'_iff.mp hcycle
    exact hnone a hab.2 (Relation.TransGen.mono (fun _ _ hstep => hstep.1) _ _ hcycle)
  obtain ⟨stages, hstages⟩ := staged_total hacyclic fun a unmet hentry b hb => by
    obtain ⟨hrequires, hin⟩ := hunmet a unmet hentry b hb
    exact ⟨⟨hrequires, List.mem_map_of_mem hentry⟩, hin⟩
  rw [hstages] at h
  cases h

end staged

section Layered
variable {requires : α → α → Prop} {settled : List α} {stages : List (List α)}

omit [DecidableEq α] in
theorem Layered.append (h : Layered requires settled stages) {last : List α}
    (hlast : ∀ a ∈ last, ∀ b, requires a b → b ∈ settled ++ stages.flatten) :
    Layered requires settled (stages ++ [last]) := by
  induction stages generalizing settled with
  | nil => exact ⟨by simpa using hlast, trivial⟩
  | cons stage later ih =>
    refine ⟨h.1, ih h.2 ?_⟩
    simpa using hlast

omit [DecidableEq α] in
/-- The order within a stage does not matter. -/
theorem Layered.map {order : List α → List α} (horder : ∀ stage, (order stage).Perm stage)
    (h : Layered requires settled stages) : Layered requires settled (stages.map order) := by
  suffices hany : ∀ settled settled' : List α, settled ⊆ settled' →
      Layered requires settled stages → Layered requires settled' (stages.map order) from
    hany settled settled (List.Subset.refl _) h
  clear h
  induction stages with
  | nil => exact fun _ _ _ _ => trivial
  | cons stage later ih =>
    intro settled settled' hsub h
    refine ⟨fun a ha b hb => hsub (h.1 a ((horder stage).mem_iff.mp ha) b hb), ih _ _ ?_ h.2⟩
    intro b hb
    rw [List.mem_append, (horder stage).mem_iff]
    exact (List.mem_append.mp hb).imp_left (@hsub b)

omit [DecidableEq α] in
theorem Layered.split {before later : List (List α)} {stage : List α}
    (h : Layered requires settled (before ++ stage :: later)) :
    ∀ a ∈ stage, ∀ b, requires a b → b ∈ settled ++ before.flatten := by
  induction before generalizing settled with
  | nil => simpa using h.1
  | cons first before ih =>
    have hrest := ih h.2
    simpa using hrest

end Layered

end Staging
