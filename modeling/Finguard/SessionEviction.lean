import Finguard.Identity
import Finguard.Lib.Runs

/-! Which sessions a password reset ends. The time in a token is cut to whole seconds, and the
time of the reset is not. -/

namespace Finguard

inductive MintedClaims where
  | access (claims : AccessToken)
  | refresh (claims : RefreshToken)

def MintedClaims.iat : MintedClaims → ℤ
  | access claims => claims.iat
  | refresh claims => claims.iat

/-- A token, with the moment at which it was made. -/
structure MintedToken (α : Type) where
  claims : MintedClaims
  mintedAt : α

/-- The sessions of one user. The latest reset comes first. -/
structure UserSessions (α : Type) where
  now : α
  passwordChangedAt : Option α := none
  resets : List α := []
  minted : List (MintedToken α) := []

/-- The names of the new pair, and the moments at which its two tokens are made. -/
structure NewPair (α : Type) where
  accessJti : Uuid
  refreshJti : Uuid
  accessAt : α
  refreshAt : α

inductive SessionAction (α : Type) where
  | login (sub familyId : Uuid) (pair : NewPair α)
  | refresh (index : ℕ) (pair : NewPair α)
  | reset (moment : α)

namespace UserSessions
variable {α : Type} [Ring α] [LinearOrder α] [FloorRing α] [AuthSettings]

def accepts (s : UserSessions α) (token : MintedToken α) : Bool :=
  tokenIssuedAfterPasswordChange (some token.claims.iat) s.passwordChangedAt

def mint (s : UserSessions α) (sub familyId : Uuid) (pair : NewPair α) : UserSessions α :=
  { s with
    now := pair.refreshAt
    minted := s.minted ++
      [⟨.access (createAccessToken sub pair.accessJti pair.accessAt), pair.accessAt⟩,
        ⟨.refresh (createRefreshToken sub pair.refreshJti familyId pair.refreshAt),
          pair.refreshAt⟩] }

/-- Moments follow each other. A refresh presents a token that passes the check. -/
def step (s : UserSessions α) : SessionAction α → Option (UserSessions α)
  | .login sub familyId pair =>
    if s.now ≤ pair.accessAt ∧ pair.accessAt ≤ pair.refreshAt then some (s.mint sub familyId pair)
    else none
  | .refresh index pair => do
    let token ← s.minted[index]?
    match token.claims with
    | .access _ => none
    | .refresh claims =>
      if s.accepts token ∧ s.now ≤ pair.accessAt ∧ pair.accessAt ≤ pair.refreshAt then
        some (s.mint claims.sub claims.familyId pair)
      else none
  | .reset moment =>
    if s.now ≤ moment then some { s with
      now := moment
      passwordChangedAt := some moment
      resets := moment :: s.resets }
    else none

/-- Minted at or after the latest reset. -/
def Current (s : UserSessions α) (token : MintedToken α) : Prop :=
  ∀ reset ∈ s.resets.head?, reset ≤ token.mintedAt

/-- Minted after the latest reset, in the second that the reset had already begun. -/
def LostSecond (s : UserSessions α) (token : MintedToken α) : Prop :=
  ∃ reset ∈ s.resets.head?, ⌊token.mintedAt⌋ < reset ∧ reset ≤ token.mintedAt

/-- What the user's row and the tokens say of their times. -/
structure Stamped (s : UserSessions α) : Prop where
  changed : s.passwordChangedAt = s.resets.head?
  issued : ∀ token ∈ s.minted, token.claims.iat = ⌊token.mintedAt⌋

theorem Stamped.mint {s : UserSessions α} (h : s.Stamped) (sub familyId : Uuid)
    (pair : NewPair α) : (s.mint sub familyId pair).Stamped where
  changed := h.changed
  issued := by
    intro token htoken
    rcases List.mem_append.mp htoken with htoken | htoken
    · exact h.issued token htoken
    · simp only [List.mem_cons, List.not_mem_nil, or_false] at htoken
      rcases htoken with rfl | rfl
      · rfl
      · rfl

theorem Stamped.step {s s' : UserSessions α} (h : s.Stamped) {action : SessionAction α}
    (hstep : s.step action = some s') : s'.Stamped := by
  cases action with
  | login sub familyId pair =>
    simp only [UserSessions.step, Option.ite_none_right_eq_some, Option.some.injEq] at hstep
    obtain ⟨-, rfl⟩ := hstep
    exact h.mint sub familyId pair
  | refresh index pair =>
    simp only [UserSessions.step, Option.bind_eq_bind, Option.bind_eq_some_iff] at hstep
    obtain ⟨token, -, hstep⟩ := hstep
    cases hclaims : token.claims with
    | access claims => simp [hclaims] at hstep
    | refresh claims =>
      simp only [hclaims, Option.ite_none_right_eq_some, Option.some.injEq] at hstep
      obtain ⟨-, rfl⟩ := hstep
      exact h.mint _ _ pair
  | reset moment =>
    simp only [UserSessions.step, Option.ite_none_right_eq_some, Option.some.injEq] at hstep
    obtain ⟨-, rfl⟩ := hstep
    exact ⟨rfl, h.issued⟩

omit [AuthSettings] in
/-- The check errs on the tokens of the lost second, and on no other. -/
theorem Stamped.accepts_iff {s : UserSessions α} (h : s.Stamped) {token : MintedToken α}
    (htoken : token ∈ s.minted) :
    (s.accepts token = true ↔ s.Current token) ↔ ¬ s.LostSecond token := by
  have hissued := h.issued token htoken
  have hfloor : ((⌊token.mintedAt⌋ : ℤ) : α) ≤ token.mintedAt := Int.floor_le _
  cases hhead : s.resets.head? with
  | none => simp [accepts, h.changed, hhead, Current, LostSecond, tokenIssuedAfterPasswordChange]
  | some reset =>
    have haccepts : s.accepts token = true ↔ reset ≤ (⌊token.mintedAt⌋ : ℤ) := by
      simp [accepts, h.changed, hhead, tokenIssuedAfterPasswordChange, hissued]
    have hcurrent : s.Current token ↔ reset ≤ token.mintedAt := by simp [Current, hhead]
    have hlost : s.LostSecond token ↔ ((⌊token.mintedAt⌋ : ℤ) : α) < reset ∧
        reset ≤ token.mintedAt := by simp [LostSecond, hhead]
    rw [haccepts, hcurrent, hlost]
    constructor
    · rintro hiff ⟨hlt, hle⟩
      exact absurd (hiff.mpr hle) (not_le.mpr hlt)
    · intro hnot
      refine ⟨fun hle => hle.trans hfloor, fun hle => ?_⟩
      by_contra hgt
      exact hnot ⟨not_le.mp hgt, hle⟩

end UserSessions

open UserSessions in
/-- In every state of every run, the check ends exactly the older sessions if and only if no
token was made in the second that its user's latest reset had already begun. -/
theorem reset_evicts_older_iff {α : Type} [Ring α] [LinearOrder α] [FloorRing α] [AuthSettings]
    {now : α} {s : UserSessions α} (hrun : Runs.Reaches step Runs.always { now } s) :
    (∀ token ∈ s.minted, s.accepts token = true ↔ s.Current token) ↔
      ∀ token ∈ s.minted, ¬ s.LostSecond token := by
  have hstart : Stamped ({ now } : UserSessions α) := ⟨rfl, by simp⟩
  have hstamped : s.Stamped :=
    hrun.invariant (fun _ _ _ h _ hstep => h.step hstep) hstart
  constructor
  · exact fun h token htoken => (hstamped.accepts_iff htoken).mp (h token htoken)
  · exact fun h token htoken => (hstamped.accepts_iff htoken).mpr (h token htoken)

/-! A login, a reset, and a login within the same second. -/

def resetAndReturn (moment : ℚ) : List (SessionAction ℚ) :=
  [.login 7 9 ⟨1, 2, 99, 99⟩, .reset (100 + 1 / 4), .login 7 10 ⟨3, 4, moment, moment⟩]

def UserSessions.verdicts [AuthSettings] (s : UserSessions ℚ) : List (ℚ × Bool) :=
  s.minted.map (fun token => (token.mintedAt, s.accepts token))

/-- A return in the next second is accepted. -/
theorem returnLater_exact :
    letI := AuthSettings.default
    ∃ s, Runs.Reaches UserSessions.step Runs.always ({ now := 0 } : UserSessions ℚ) s ∧
      s.verdicts = [(99, false), (99, false), (101, true), (101, true)] ∧
      ∀ token ∈ s.minted, s.accepts token = true ↔ s.Current token := by
  let := AuthSettings.default
  have hreplay : (Runs.replay UserSessions.step Runs.always ({ now := 0 } : UserSessions ℚ)
      (resetAndReturn 101)).map (fun s => (s.verdicts, s.resets)) =
        some ([(99, false), (99, false), (101, true), (101, true)], [100 + 1 / 4]) := by
    decide +kernel
  obtain ⟨s, hrun, hs⟩ := Runs.replay_map_reaches hreplay
  obtain ⟨hverdicts, hresets⟩ := Prod.mk.inj hs
  refine ⟨s, hrun, hverdicts, (reset_evicts_older_iff hrun).mpr ?_⟩
  rintro token htoken ⟨reset, hreset, hlt, hle⟩
  obtain rfl : reset = 100 + 1 / 4 := by simpa [hresets] using hreset.symm
  have hmoment : token.mintedAt ∈ s.verdicts.map Prod.fst := by
    rw [UserSessions.verdicts, List.map_map]
    exact List.mem_map_of_mem htoken
  rw [hverdicts] at hmoment
  simp only [List.map_cons, List.map_nil, List.mem_cons, List.not_mem_nil, or_false] at hmoment
  rcases hmoment with hmoment | hmoment | hmoment | hmoment <;> rw [hmoment] at hlt hle <;>
    revert hlt hle <;> norm_num

/-- A return half a second after the reset is refused. -/
theorem returnAtOnce_refused :
    letI := AuthSettings.default
    ∃ s, Runs.Reaches UserSessions.step Runs.always ({ now := 0 } : UserSessions ℚ) s ∧
      s.verdicts = [(99, false), (99, false), (100 + 3 / 4, false), (100 + 3 / 4, false)] ∧
      ¬ ∀ token ∈ s.minted, s.accepts token = true ↔ s.Current token := by
  let := AuthSettings.default
  have hreplay : (Runs.replay UserSessions.step Runs.always ({ now := 0 } : UserSessions ℚ)
      (resetAndReturn (100 + 3 / 4))).map (fun s => (s.verdicts, s.resets)) =
        some ([(99, false), (99, false), (100 + 3 / 4, false), (100 + 3 / 4, false)],
          [100 + 1 / 4]) := by
    decide +kernel
  obtain ⟨s, hrun, hs⟩ := Runs.replay_map_reaches hreplay
  obtain ⟨hverdicts, hresets⟩ := Prod.mk.inj hs
  refine ⟨s, hrun, hverdicts, fun hexact => ?_⟩
  have hmem : ((100 + 3 / 4 : ℚ), false) ∈ s.verdicts := by simp [hverdicts]
  obtain ⟨token, htoken, hverdict⟩ := List.mem_map.mp hmem
  obtain ⟨hmoment, hrefused⟩ := Prod.mk.inj hverdict
  have hcurrent : s.Current token := by
    intro reset hreset
    obtain rfl : reset = 100 + 1 / 4 := by simpa [hresets] using hreset.symm
    rw [hmoment]
    norm_num
  have haccepted := (hexact token htoken).mpr hcurrent
  rw [hrefused] at haccepted
  cases haccepted

end Finguard
