import Mathlib

/-! Keys that a store keeps up to a moment of their own. -/

namespace Expiring

/-- The latest entry of a key counts. -/
structure Keys (κ ι : Type) where
  entries : List (κ × ι) := []

namespace Keys
variable {κ ι : Type} [DecidableEq κ] {keys : Keys κ ι} {key other : κ} {expiry expiry' now : ι}

def expiry? (keys : Keys κ ι) (key : κ) : Option ι :=
  (keys.entries.find? (fun entry => entry.1 = key)).map Prod.snd

def set (keys : Keys κ ι) (key : κ) (expiry : ι) : Keys κ ι := ⟨(key, expiry) :: keys.entries⟩

@[simp] theorem expiry?_set : (keys.set key expiry).expiry? key = some expiry := by
  simp [expiry?, set]

@[simp] theorem expiry?_set_of_ne (h : other ≠ key) :
    (keys.set key expiry).expiry? other = keys.expiry? other := by
  simp [expiry?, set, h.symm]

variable [LinearOrder ι]

/-- Whether a key is there at some moment. It goes after its expiry. -/
def stands (keys : Keys κ ι) (now : ι) (key : κ) : Bool := (keys.expiry? key).any (now ≤ ·)

def Lasts (keys : Keys κ ι) (key : κ) (expiry : ι) : Prop :=
  ∃ e, keys.expiry? key = some e ∧ expiry ≤ e

theorem Lasts.stands (h : keys.Lasts key expiry) (hnow : now ≤ expiry) :
    keys.stands now key = true := by
  obtain ⟨e, he, hle⟩ := h
  simp [Keys.stands, he, hnow.trans hle]

theorem lasts_set (h : expiry ≤ expiry') : (keys.set key expiry').Lasts key expiry :=
  ⟨expiry', expiry?_set, h⟩

theorem Lasts.set_of_ne (h : keys.Lasts other expiry) (hne : other ≠ key) :
    (keys.set key expiry').Lasts other expiry := by
  obtain ⟨e, he, hle⟩ := h
  exact ⟨e, (expiry?_set_of_ne hne).trans he, hle⟩

end Keys

/-- Keys that carry a value. -/
structure Cells (κ ν ι : Type) where
  entries : List (κ × ν × ι) := []

namespace Cells
variable {κ ν ι : Type} [DecidableEq κ] {cells : Cells κ ν ι} {key other : κ} {value : ν}
  {expiry now : ι}

def latest? (cells : Cells κ ν ι) (key : κ) : Option (ν × ι) :=
  (cells.entries.find? (fun entry => entry.1 = key)).map Prod.snd

def set (cells : Cells κ ν ι) (key : κ) (value : ν) (expiry : ι) : Cells κ ν ι :=
  ⟨(key, value, expiry) :: cells.entries⟩

@[simp] theorem latest?_set : (cells.set key value expiry).latest? key = some (value, expiry) := by
  simp [latest?, set]

@[simp] theorem latest?_set_of_ne (h : other ≠ key) :
    (cells.set key value expiry).latest? other = cells.latest? other := by
  simp [latest?, set, h.symm]

variable [LinearOrder ι]

/-- What a reader finds. -/
def get? (cells : Cells κ ν ι) (now : ι) (key : κ) : Option ν :=
  ((cells.latest? key).filter (now ≤ ·.2)).map Prod.fst

theorem latest?_of_get? (h : cells.get? now key = some value) :
    ∃ expiry, cells.latest? key = some (value, expiry) ∧ now ≤ expiry := by
  simp only [get?, Option.map_eq_some_iff, Option.filter_eq_some_iff] at h
  obtain ⟨⟨value', expiry⟩, ⟨hlatest, hnow⟩, rfl⟩ := h
  exact ⟨expiry, hlatest, by simpa using hnow⟩

theorem expired_of_get? (h : cells.get? now key = none)
    (hlatest : cells.latest? key = some (value, expiry)) : expiry < now := by
  simpa [get?, hlatest] using h

end Cells

end Expiring
