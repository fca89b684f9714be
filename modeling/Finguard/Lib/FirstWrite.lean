import Finguard.Lib.Transaction

/-! Where a transaction fails: before its first write, when nothing has been done yet, or
after it. A program is cut before a write by an environment in which the write aborts. -/

namespace Transaction
variable {π σ ε α β : Type}

def Faults.cut (writes : π → Bool) (stop : ε) (faults : Faults π ε) : Faults π ε := fun p =>
  match faults p with
  | some fault => some fault
  | none => if writes p then some (.aborted stop) else none

namespace Tx

def upTo (writes : π → Bool) (stop : ε) (x : Tx π σ ε α) : Tx π σ ε α := fun faults s =>
  x (faults.cut writes stop) s

theorem bind_assoc {γ : Type} (x : Tx π σ ε α) (k : α → Tx π σ ε β) (l : β → Tx π σ ε γ) :
    x >>= k >>= l = x >>= fun a => k a >>= l := by
  funext faults s
  rw [bind_apply, bind_apply, bind_apply]
  cases x faults s with
  | ok a t => rfl
  | raised e t => rfl
  | aborted e => rfl

theorem upTo_bind (writes : π → Bool) (stop : ε) (x : Tx π σ ε α) (k : α → Tx π σ ε β) :
    (x >>= k).upTo writes stop = x.upTo writes stop >>= fun a => (k a).upTo writes stop := rfl

/-- A program that writes nothing: no cut changes it, and it keeps the store. -/
structure Silent (writes : π → Bool) (stop : ε) (x : Tx π σ ε α) : Prop where
  same : ∀ faults s, x.upTo writes stop faults s = x faults s
  keeps : Keeps Eq x

/-- A program that leaves a trace `D` by its first write: where the cut does not matter, nothing
has been written. -/
structure Traced (writes : π → Bool) (stop : ε) (D : σ → σ → Prop) (x : Tx π σ ε α) : Prop where
  finished : ∀ {faults s a w}, x.upTo writes stop faults s = .ok a w → x faults s = .ok a w ∧ s = w
  refused : ∀ {faults s e w}, x.upTo writes stop faults s = .raised e w →
    x faults s = .raised e w ∧ s = w
  traced : ∀ {faults s e w}, x.upTo writes stop faults s = .aborted e →
    (x faults s).working? = some w → D s w

variable {writes : π → Bool} {stop : ε} {D : σ → σ → Prop}

namespace Silent

theorem pure (a : α) : Silent writes stop (Pure.pure a : Tx π σ ε α) :=
  ⟨fun _ _ => rfl, .pure a⟩

theorem raise (e : ε) : Silent writes stop (Tx.raise e : Tx π σ ε α) :=
  ⟨fun _ _ => rfl, .raise e⟩

theorem raiseIf (c : Prop) [Decidable c] (e : ε) :
    Silent writes stop (Tx.raiseIf c e : Tx π σ ε Unit) := by
  unfold Tx.raiseIf
  split
  · exact raise e
  · exact pure ()

theorem getOrRaise (o : Option α) (e : ε) :
    Silent writes stop (Tx.getOrRaise o e : Tx π σ ε α) := by
  cases o with
  | none => exact raise e
  | some a => exact pure a

theorem read (f : σ → α) : Silent writes stop (Tx.read f : Tx π σ ε α) :=
  ⟨fun _ _ => rfl, .read f⟩

theorem site {p : π} (hp : writes p = false) : Silent writes stop (Tx.site p : Tx π σ ε Unit) where
  same faults s := by
    simp only [upTo, Tx.site, Faults.cut, hp]
    cases faults p with
    | none => rfl
    | some fault => rfl
  keeps := .site p

theorem bind {x : Tx π σ ε α} {k : α → Tx π σ ε β} (hx : Silent writes stop x)
    (hk : ∀ a, Silent writes stop (k a)) : Silent writes stop (x >>= k) where
  same faults s := by
    rw [upTo_bind, bind_apply, bind_apply, hx.same]
    cases x faults s with
    | ok a t => exact (hk a).same faults t
    | raised e t => rfl
    | aborted e => rfl
  keeps := .bind hx.keeps fun a => (hk a).keeps

theorem select {p : π} (hp : writes p = false) (f : σ → α) :
    Silent writes stop (Tx.select p f : Tx π σ ε α) :=
  bind (site hp) fun _ => read f

theorem stays {R : σ → σ → Prop} [Std.Refl R] {x : Tx π σ ε α} (hx : Silent writes stop x) :
    Keeps R x := by
  refine hx.keeps.mono ?_
  rintro s _ rfl
  exact Std.Refl.refl s

theorem traced {x : Tx π σ ε α} (hx : Silent writes stop x) : Traced writes stop D x where
  finished h := by
    rw [hx.same] at h
    exact ⟨h, hx.keeps.of_ok h⟩
  refused h := by
    rw [hx.same] at h
    exact ⟨h, hx.keeps.of_raised h⟩
  traced h hworking := by
    rw [hx.same] at h
    rw [h] at hworking
    cases hworking

end Silent

namespace Traced

/-- Reads come before a traced program. -/
theorem after {x : Tx π σ ε α} {k : α → Tx π σ ε β} (hx : Silent writes stop x)
    (hk : ∀ a, Traced writes stop D (k a)) : Traced writes stop D (x >>= k) where
  finished {faults s b w} h := by
    rw [upTo_bind, bind_apply, hx.same] at h
    rw [bind_apply]
    cases hrun : x faults s with
    | ok a t =>
      rw [hrun] at h
      obtain rfl := hx.keeps.of_ok hrun
      exact (hk a).finished h
    | raised e t =>
      rw [hrun] at h
      cases h
    | aborted e =>
      rw [hrun] at h
      cases h
  refused {faults s e w} h := by
    rw [upTo_bind, bind_apply, hx.same] at h
    rw [bind_apply]
    cases hrun : x faults s with
    | ok a t =>
      rw [hrun] at h
      obtain rfl := hx.keeps.of_ok hrun
      exact (hk a).refused h
    | raised e' t =>
      rw [hrun] at h
      cases h
      exact ⟨rfl, hx.keeps.of_raised hrun⟩
    | aborted e' =>
      rw [hrun] at h
      cases h
  traced {faults s e w} h hworking := by
    rw [upTo_bind, bind_apply, hx.same] at h
    rw [bind_apply] at hworking
    cases hrun : x faults s with
    | ok a t =>
      rw [hrun] at h hworking
      obtain rfl := hx.keeps.of_ok hrun
      exact (hk a).traced h hworking
    | raised e' t =>
      rw [hrun] at h
      cases h
    | aborted e' =>
      rw [hrun] at hworking
      cases hworking

/-- What comes after a traced program writes nothing. -/
theorem before {x : Tx π σ ε α} {k : α → Tx π σ ε β} (hx : Traced writes stop D x)
    (hk : ∀ a, Silent writes stop (k a)) : Traced writes stop D (x >>= k) where
  finished {faults s b w} h := by
    rw [upTo_bind, bind_apply] at h
    cases hcut : x.upTo writes stop faults s with
    | ok a t =>
      obtain ⟨hrun, rfl⟩ := hx.finished hcut
      rw [hcut] at h
      have hrest : k a faults s = .ok b w := ((hk a).same faults s).symm.trans h
      rw [bind_apply, hrun]
      exact ⟨hrest, (hk a).keeps.of_ok hrest⟩
    | raised e t =>
      rw [hcut] at h
      cases h
    | aborted e =>
      rw [hcut] at h
      cases h
  refused {faults s e w} h := by
    rw [upTo_bind, bind_apply] at h
    cases hcut : x.upTo writes stop faults s with
    | ok a t =>
      obtain ⟨hrun, rfl⟩ := hx.finished hcut
      rw [hcut] at h
      have hrest : k a faults s = .raised e w := ((hk a).same faults s).symm.trans h
      rw [bind_apply, hrun]
      exact ⟨hrest, (hk a).keeps.of_raised hrest⟩
    | raised e' t =>
      obtain ⟨hrun, rfl⟩ := hx.refused hcut
      rw [hcut] at h
      cases h
      rw [bind_apply, hrun]
      exact ⟨rfl, rfl⟩
    | aborted e' =>
      rw [hcut] at h
      cases h
  traced {faults s e w} h hworking := by
    rw [upTo_bind, bind_apply] at h
    rw [bind_apply] at hworking
    cases hcut : x.upTo writes stop faults s with
    | ok a t =>
      obtain ⟨hrun, rfl⟩ := hx.finished hcut
      rw [hcut] at h
      have hrest : k a faults s = .aborted e := ((hk a).same faults s).symm.trans h
      rw [hrun] at hworking
      change (k a faults s).working? = some w at hworking
      rw [hrest] at hworking
      cases hworking
    | raised e' t =>
      rw [hcut] at h
      cases h
    | aborted e' =>
      cases hrun : x faults s with
      | ok a t =>
        rw [hrun] at hworking
        have htrace : D s t := hx.traced hcut (by rw [hrun]; rfl)
        obtain rfl := (hk a).keeps faults t w hworking
        exact htrace
      | raised e'' t =>
        rw [hrun] at hworking
        exact hx.traced hcut (by rw [hrun]; exact hworking)
      | aborted e'' =>
        rw [hrun] at hworking
        cases hworking

/-- The first write. `R` is what comes after it keeps. -/
theorem flush {p : π} {e : ε} {f : σ → Option σ} {k : Unit → Tx π σ ε β} {R : σ → σ → Prop}
    (hp : writes p = true) (hk : Keeps R (k ())) (hD : ∀ {s t w}, f s = some t → R t w → D s w) :
    Traced writes stop D (Tx.flush p e f >>= k) where
  finished {faults s b w} h := by
    simp only [upTo, bind_eq_ok, flush_eq_ok, Faults.cut, hp] at h
    obtain ⟨_, _, ⟨hsite, -⟩, -⟩ := h
    cases hfault : faults p <;> simp [hfault] at hsite
  refused {faults s e' w} h := by
    cases hfault : faults p with
    | none => simp [upTo, bind_apply, Tx.flush, Tx.site, Faults.cut, hp, hfault] at h
    | some fault =>
      cases fault with
      | raised error =>
        simp only [upTo, bind_apply, Tx.flush, Tx.site, Faults.cut, hfault] at h
        cases h
        simp [bind_apply, Tx.flush, Tx.site, hfault]
      | aborted error => simp [upTo, bind_apply, Tx.flush, Tx.site, Faults.cut, hfault] at h
  traced {faults s e' w} h hworking := by
    cases hfault : faults p with
    | none =>
      simp only [bind_apply, Tx.flush, Tx.site, hfault, Tx.write] at hworking
      cases hwrite : f s with
      | none =>
        rw [hwrite] at hworking
        cases hworking
      | some t =>
        rw [hwrite] at hworking
        exact hD hwrite (hk faults t w hworking)
    | some fault =>
      cases fault with
      | raised error => simp [upTo, bind_apply, Tx.flush, Tx.site, Faults.cut, hfault] at h
      | aborted error =>
        simp only [bind_apply, Tx.flush, Tx.site, hfault] at hworking
        cases hworking

/-- An exception that is handed to the caller has left the same trace. -/
theorem attempt {x : Tx π σ ε α} (hx : Traced writes stop D x) :
    Traced writes stop D (Tx.attempt x) where
  finished {faults s a w} h := by
    change Tx.attempt (x.upTo writes stop) faults s = _ at h
    unfold Tx.attempt at h ⊢
    cases hcut : x.upTo writes stop faults s with
    | ok b t =>
      rw [hcut] at h
      cases h
      obtain ⟨hrun, rfl⟩ := hx.finished hcut
      rw [hrun]
      exact ⟨rfl, rfl⟩
    | raised e t =>
      rw [hcut] at h
      cases h
      obtain ⟨hrun, rfl⟩ := hx.refused hcut
      rw [hrun]
      exact ⟨rfl, rfl⟩
    | aborted e =>
      rw [hcut] at h
      cases h
  refused {faults s e w} h := by
    change Tx.attempt (x.upTo writes stop) faults s = _ at h
    unfold Tx.attempt at h
    split at h <;> cases h
  traced {faults s e w} h hworking := by
    have hcut : x.upTo writes stop faults s = .aborted e := by
      change Tx.attempt (x.upTo writes stop) faults s = _ at h
      unfold Tx.attempt at h
      split at h
      · cases h
      · cases h
      · cases h
        assumption
    refine hx.traced hcut ?_
    unfold Tx.attempt at hworking
    cases hrun : x faults s <;> rw [hrun] at hworking <;> exact hworking

/-- A failed program was either refused before its first write, or it has left its trace. -/
theorem refused_or_traced {x : Tx π σ ε α} (hx : Traced writes stop D x) {faults : Faults π ε}
    {s w : σ} {e : ε} (hrun : x faults s = .raised e w) :
    (∃ e' w', x.upTo writes stop faults s = .raised e' w') ∧ s = w ∨
      (¬ ∃ e' w', x.upTo writes stop faults s = .raised e' w') ∧ D s w := by
  cases hcut : x.upTo writes stop faults s with
  | ok a t =>
    have hsame := (hx.finished hcut).1
    rw [hrun] at hsame
    cases hsame
  | raised e' t =>
    obtain ⟨hsame, rfl⟩ := hx.refused hcut
    rw [hrun] at hsame
    cases hsame
    exact .inl ⟨⟨e, s, rfl⟩, rfl⟩
  | aborted e' =>
    refine .inr ⟨?_, hx.traced hcut (by rw [hrun]; rfl)⟩
    rintro ⟨_, _, hraised⟩
    cases hraised

end Traced

end Tx

end Transaction
