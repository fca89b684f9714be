import Mathlib

/-! Database transactions as programs over a working copy of the store. Every
statement is a place where the environment may make the program fail. -/

namespace Transaction

/-- How a statement fails: `raised` leaves the session usable with its flushed
work still pending, `aborted` makes the database drop the whole transaction. -/
inductive Fault (ε : Type) where
  | raised (error : ε)
  | aborted (error : ε)

inductive Outcome (σ ε α : Type) where
  | ok (value : α) (working : σ)
  | raised (error : ε) (working : σ)
  | aborted (error : ε)

def Outcome.value? {σ ε α : Type} : Outcome σ ε α → Option α
  | .ok a _ => some a
  | _ => none

def Outcome.working? {σ ε α : Type} : Outcome σ ε α → Option σ
  | .ok _ s => some s
  | .raised _ s => some s
  | .aborted _ => none

abbrev Faults (π ε : Type) := π → Option (Fault ε)

def Tx (π σ ε α : Type) : Type := Faults π ε → σ → Outcome σ ε α

namespace Tx
variable {π σ ε α β : Type}

protected def pure (a : α) : Tx π σ ε α := fun _ s => .ok a s

protected def bind (x : Tx π σ ε α) (k : α → Tx π σ ε β) : Tx π σ ε β := fun faults s =>
  match x faults s with
  | .ok a s' => k a faults s'
  | .raised e s' => .raised e s'
  | .aborted e => .aborted e

instance : Monad (Tx π σ ε) where
  pure := Tx.pure
  bind := Tx.bind

def raise (e : ε) : Tx π σ ε α := fun _ s => .raised e s

def raiseIf (c : Prop) [Decidable c] (e : ε) : Tx π σ ε Unit :=
  if c then raise e else pure ()

def getOrRaise (a : Option α) (e : ε) : Tx π σ ε α :=
  match a with
  | some a => pure a
  | none => raise e

def site (p : π) : Tx π σ ε Unit := fun faults s =>
  match faults p with
  | none => .ok () s
  | some (.raised e) => .raised e s
  | some (.aborted e) => .aborted e

def read (f : σ → α) : Tx π σ ε α := fun _ s => .ok (f s) s

/-- Set attributes of objects the session already holds; no statement is sent. -/
def assign (f : σ → σ) : Tx π σ ε Unit := fun _ s => .ok () (f s)

/-- Send a write; one that the store refuses aborts the transaction. -/
def write (refused : ε) (f : σ → Option σ) : Tx π σ ε Unit := fun _ s =>
  match f s with
  | some s' => .ok () s'
  | none => .aborted refused

def select (p : π) (f : σ → α) : Tx π σ ε α := do
  site p
  read f

def flush (p : π) (refused : ε) (f : σ → Option σ) : Tx π σ ε Unit := do
  site p
  write refused f

/-- Run a block under other names for its sites. -/
def within (rename : π → π) (x : Tx π σ ε α) : Tx π σ ε α := fun faults s =>
  x (faults ∘ rename) s

/-- Run a block and hand its exception to the caller; an aborted transaction is
not handled. -/
def attempt (x : Tx π σ ε α) : Tx π σ ε (Except ε α) := fun faults s =>
  match x faults s with
  | .ok a s' => .ok (.ok a) s'
  | .raised e s' => .ok (.error e) s'
  | .aborted e => .aborted e

/-- What the store holds after the transaction: its work if it ran to the end,
what was there before otherwise. -/
def committed (x : Tx π σ ε α) (faults : Faults π ε) (s : σ) : σ :=
  match x faults s with
  | .ok _ s' => s'
  | _ => s

section
variable {faults : Faults π ε} {s s' : σ} {a : α} {b : β} {e : ε} {p : π} {u : Unit}

theorem bind_apply (x : Tx π σ ε α) (k : α → Tx π σ ε β) (faults : Faults π ε) (s : σ) :
    (x >>= k) faults s =
      match x faults s with
      | .ok a s' => k a faults s'
      | .raised e s' => .raised e s'
      | .aborted e => .aborted e := rfl

@[simp] theorem pure_apply (a : α) (faults : Faults π ε) (s : σ) :
    (pure a : Tx π σ ε α) faults s = .ok a s := rfl

@[simp] theorem raise_apply (e : ε) (faults : Faults π ε) (s : σ) :
    (raise e : Tx π σ ε α) faults s = .raised e s := rfl

@[simp] theorem read_apply (f : σ → α) (faults : Faults π ε) (s : σ) :
    (read f : Tx π σ ε α) faults s = .ok (f s) s := rfl

@[simp] theorem assign_apply (f : σ → σ) (faults : Faults π ε) (s : σ) :
    (assign f : Tx π σ ε Unit) faults s = .ok () (f s) := rfl

@[simp] theorem bind_eq_ok {x : Tx π σ ε α} {k : α → Tx π σ ε β} :
    (x >>= k) faults s = .ok b s' ↔
      ∃ a t, x faults s = .ok a t ∧ k a faults t = .ok b s' := by
  rw [bind_apply]
  cases h : x faults s with
  | ok a t => simp
  | raised e t => simp
  | aborted e => simp

@[simp] theorem raiseIf_eq_ok {c : Prop} [Decidable c] :
    (raiseIf c e : Tx π σ ε Unit) faults s = .ok u s' ↔ ¬ c ∧ s = s' := by
  unfold raiseIf
  by_cases h : c <;> simp [h]

@[simp] theorem getOrRaise_eq_ok {o : Option α} :
    (getOrRaise o e : Tx π σ ε α) faults s = .ok a s' ↔ o = some a ∧ s = s' := by
  cases o <;> simp [getOrRaise]

theorem site_eq_ok : (site p : Tx π σ ε Unit) faults s = .ok u s' ↔ faults p = none ∧ s = s' := by
  unfold site
  rcases faults p with _ | (_ | _) <;> simp

@[simp] theorem write_eq_ok {f : σ → Option σ} :
    (write e f : Tx π σ ε Unit) faults s = .ok u s' ↔ f s = some s' := by
  unfold write
  cases f s <;> simp

@[simp] theorem select_eq_ok {f : σ → α} :
    (select p f : Tx π σ ε α) faults s = .ok a s' ↔ faults p = none ∧ f s = a ∧ s = s' := by
  unfold select
  simp only [bind_eq_ok, site_eq_ok, read_apply, Outcome.ok.injEq]
  constructor
  · rintro ⟨_, t, ⟨hf, rfl⟩, ha, hs⟩
    exact ⟨hf, ha, hs⟩
  · rintro ⟨hf, ha, rfl⟩
    exact ⟨(), s, ⟨hf, rfl⟩, ha, rfl⟩

@[simp] theorem flush_eq_ok {f : σ → Option σ} :
    (flush p e f : Tx π σ ε Unit) faults s = .ok u s' ↔ faults p = none ∧ f s = some s' := by
  unfold flush
  simp only [bind_eq_ok, site_eq_ok, write_eq_ok]
  constructor
  · rintro ⟨_, t, ⟨hf, rfl⟩, hs⟩
    exact ⟨hf, hs⟩
  · rintro ⟨hf, hs⟩
    exact ⟨(), s, ⟨hf, rfl⟩, hs⟩

/-- A committed transaction either ran to the end or left the store alone. -/
theorem committed_cases (x : Tx π σ ε α) (faults : Faults π ε) (s : σ) :
    x.committed faults s = s ∨ ∃ a, x faults s = .ok a (x.committed faults s) := by
  unfold committed
  cases h : x faults s with
  | ok a t => exact .inr ⟨a, rfl⟩
  | raised e t => exact .inl rfl
  | aborted e => exact .inl rfl

theorem eq_ok_committed {x : Tx π σ ε α} (h : (x faults s).value? = some a) :
    x faults s = .ok a (x.committed faults s) := by
  unfold committed
  cases hx : x faults s with
  | ok b t =>
    rw [hx] at h
    rw [Option.some.inj h]
  | raised e t =>
    rw [hx] at h
    cases h
  | aborted e =>
    rw [hx] at h
    cases h

theorem committed_eq_self {x : Tx π σ ε α} (h : (x faults s).value? = none) :
    x.committed faults s = s := by
  unfold committed
  cases hx : x faults s with
  | ok a t =>
    rw [hx] at h
    cases h
  | raised e t => rfl
  | aborted e => rfl

theorem committed_keeps {P : σ → Prop} {x : Tx π σ ε α} (hs : P s)
    (h : ∀ a t, x faults s = .ok a t → P t) : P (x.committed faults s) := by
  rcases committed_cases x faults s with he | ⟨a, he⟩
  · rwa [he]
  · exact h a _ he

end

/-! What a program keeps in every outcome that leaves a working copy. -/

def Keeps (R : σ → σ → Prop) (x : Tx π σ ε α) : Prop :=
  ∀ faults s s', (x faults s).working? = some s' → R s s'

namespace Keeps
variable {R : σ → σ → Prop}

theorem of_ok {x : Tx π σ ε α} {faults : Faults π ε} {s s' : σ} {a : α} (h : Keeps R x)
    (hrun : x faults s = .ok a s') : R s s' := h faults s s' (by rw [hrun]; rfl)

theorem of_raised {x : Tx π σ ε α} {faults : Faults π ε} {s s' : σ} {e : ε} (h : Keeps R x)
    (hrun : x faults s = .raised e s') : R s s' := h faults s s' (by rw [hrun]; rfl)

theorem mono {R' : σ → σ → Prop} {x : Tx π σ ε α} (hR : ∀ {s s'}, R s s' → R' s s')
    (h : Keeps R x) : Keeps R' x := fun faults s s' hrun => hR (h faults s s' hrun)

variable [Std.Refl R]

theorem pure (a : α) : Keeps R (Pure.pure a : Tx π σ ε α) := by
  rintro faults s s' ⟨⟩
  exact Std.Refl.refl s

theorem raise (e : ε) : Keeps R (Tx.raise e : Tx π σ ε α) := by
  rintro faults s s' ⟨⟩
  exact Std.Refl.refl s

theorem raiseIf (c : Prop) [Decidable c] (e : ε) : Keeps R (Tx.raiseIf c e : Tx π σ ε Unit) := by
  unfold Tx.raiseIf
  split
  · exact raise e
  · exact pure ()

theorem getOrRaise (o : Option α) (e : ε) : Keeps R (Tx.getOrRaise o e : Tx π σ ε α) := by
  cases o with
  | none => exact raise e
  | some a => exact pure a

theorem read (f : σ → α) : Keeps R (Tx.read f : Tx π σ ε α) := by
  rintro faults s s' ⟨⟩
  exact Std.Refl.refl s

theorem site (p : π) : Keeps R (Tx.site p : Tx π σ ε Unit) := by
  intro faults s s' h
  unfold Tx.site at h
  rcases hfault : faults p with _ | _ | _ <;> rw [hfault] at h <;> cases h <;>
    exact Std.Refl.refl s

omit [Std.Refl R] in
theorem assign {f : σ → σ} (hf : ∀ s, R s (f s)) : Keeps R (Tx.assign f : Tx π σ ε Unit) := by
  rintro faults s s' ⟨⟩
  exact hf s

omit [Std.Refl R] in
theorem write {e : ε} {f : σ → Option σ} (hf : ∀ s s', f s = some s' → R s s') :
    Keeps R (Tx.write e f : Tx π σ ε Unit) := by
  intro faults s s' h
  unfold Tx.write at h
  cases hw : f s with
  | none =>
    rw [hw] at h
    cases h
  | some t =>
    rw [hw] at h
    cases h
    exact hf s s' hw

variable [IsTrans σ R]

omit [Std.Refl R] in
theorem bind {x : Tx π σ ε α} {k : α → Tx π σ ε β} (hx : Keeps R x) (hk : ∀ a, Keeps R (k a)) :
    Keeps R (x >>= k) := by
  intro faults s s' h
  rw [bind_apply] at h
  cases hrun : x faults s with
  | ok a t =>
    rw [hrun] at h
    exact IsTrans.trans _ _ _ (hx.of_ok hrun) (hk a faults t s' h)
  | raised e t =>
    rw [hrun] at h
    cases h
    exact hx.of_raised hrun
  | aborted e =>
    rw [hrun] at h
    cases h

theorem select (p : π) (f : σ → α) : Keeps R (Tx.select p f : Tx π σ ε α) :=
  bind (site p) (fun _ => read f)

theorem flush {p : π} {e : ε} {f : σ → Option σ} (hf : ∀ s s', f s = some s' → R s s') :
    Keeps R (Tx.flush p e f : Tx π σ ε Unit) :=
  bind (site p) (fun _ => write hf)

omit [Std.Refl R] [IsTrans σ R] in
theorem attempt {x : Tx π σ ε α} (hx : Keeps R x) : Keeps R (Tx.attempt x) := by
  intro faults s s' h
  unfold Tx.attempt at h
  cases hrun : x faults s with
  | ok a t =>
    rw [hrun] at h
    cases h
    exact hx.of_ok hrun
  | raised e t =>
    rw [hrun] at h
    cases h
    exact hx.of_raised hrun
  | aborted e =>
    rw [hrun] at h
    cases h

end Keeps

end Tx

end Transaction
