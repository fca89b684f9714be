import Finguard.Identity
import Finguard.Lib.Sessions

/-! The use of a reset link. The password is committed before the link is marked as used, so
what is owed in between is a debt of the request. -/

namespace Finguard
open Expiring Sessions

/-! The machine. -/

/-- The hash of a password under a salt. -/
class Bcrypt where
  hashpw : String → String → String

inductive ResetPhase where
  | begun
  | decoded
  | unused
  | loaded
  | changed
deriving DecidableEq

structure ResetTx where
  token : ResetToken
  newPassword : String
  phase : ResetPhase := .begun

inductive ResetEvent where
  | changed (token : ResetToken)
  | consumed (token : ResetToken) (consumedAt : Instant)

structure ResetStore extends AuthStore where
  log : List ResetEvent := []

inductive ResetAction where
  | decode
  | checkUsed
  | loadUser
  | commit (salt : String)
  | blacklist
  | wait (now : Instant)
  | outside (accounts : List Account)
  | crash

def Account.withPassword (account : Account) (hashedPassword : String) (now : Instant) : Account :=
  { account with
    hashedPassword
    passwordChangedAt := some now }

namespace ResetTx
variable [Bcrypt]

def advance (s : ResetStore) (_ : List ResetTx) (t : ResetTx) :
    ResetAction → Option (ResetStore × Option ResetTx)
  | .decode =>
    match t.phase with
    | .begun =>
      some (s, if unexpired t.token.exp s.now then some { t with phase := .decoded } else none)
    | _ => none
  | .checkUsed =>
    match t.phase with
    | .decoded => some (s, if s.hasKey (.blacklist t.token.jti) then none
        else some { t with phase := .unused })
    | _ => none
  | .loadUser =>
    match t.phase with
    | .unused => some (s, if (s.getById t.token.sub).any (·.isActive) then
        some { t with phase := .loaded } else none)
    | _ => none
  | .commit salt =>
    match t.phase with
    | .loaded => some ({ s with
        accounts := s.accounts.map (fun account => if account.id = t.token.sub then
          account.withPassword (Bcrypt.hashpw salt t.newPassword) s.now else account)
        log := s.log ++ [.changed t.token] }, some { t with phase := .changed })
    | _ => none
  | .blacklist =>
    match t.phase with
    | .changed => some (⟨s.toAuthStore.blacklistJti t.token.jti t.token.exp,
        s.log ++ [.consumed t.token s.now]⟩, none)
    | _ => none
  | .wait now => if s.now ≤ now then some ({ s with now }, some t) else none
  | .outside accounts => some ({ s with accounts }, some t)
  | .crash => some (s, none)

def machine : Machine ResetStore ResetTx (ResetToken × String) ResetAction where
  start request := { token := request.1, newPassword := request.2 }
  advance := advance

/-- Every step that a request can take. -/
inductive Effect (s : ResetStore) (t : ResetTx) :
    ResetAction → ResetStore → Option ResetTx → Prop
  | ended {action : ResetAction} (hphase : action = .crash ∨ t.phase ≠ .changed) :
    Effect s t action s none
  | decoded (hphase : t.phase = .begun) : Effect s t .decode s (some { t with phase := .decoded })
  | unused (hphase : t.phase = .decoded) (hkey : s.hasKey (.blacklist t.token.jti) = false) :
    Effect s t .checkUsed s (some { t with phase := .unused })
  | loaded (hphase : t.phase = .unused) :
    Effect s t .loadUser s (some { t with phase := .loaded })
  | changed {salt : String} {accounts : List Account} (hphase : t.phase = .loaded) :
    Effect s t (.commit salt) { s with
      accounts
      log := s.log ++ [.changed t.token] } (some { t with phase := .changed })
  | consumed (hphase : t.phase = .changed) :
    Effect s t .blacklist ⟨s.toAuthStore.blacklistJti t.token.jti t.token.exp,
      s.log ++ [.consumed t.token s.now]⟩ none
  | waited {now : Instant} (hnow : s.now ≤ now) : Effect s t (.wait now) { s with now } (some t)
  | outside {accounts : List Account} : Effect s t (.outside accounts) { s with accounts } (some t)

theorem advance_effect {s s' : ResetStore} {others : List ResetTx} {t : ResetTx}
    {action : ResetAction} {ended : Option ResetTx}
    (h : advance s others t action = some (s', ended)) : Effect s t action s' ended := by
  cases action with
  | decode =>
    cases hphase : t.phase with
    | begun =>
      simp only [advance, hphase, Option.some.injEq, Prod.mk.injEq] at h
      obtain ⟨rfl, rfl⟩ := h
      split
      · exact .decoded hphase
      · exact .ended (.inr (by simp [hphase]))
    | _ => simp [advance, hphase] at h
  | checkUsed =>
    cases hphase : t.phase with
    | decoded =>
      simp only [advance, hphase, Option.some.injEq, Prod.mk.injEq] at h
      obtain ⟨rfl, rfl⟩ := h
      cases hkey : s.hasKey (.blacklist t.token.jti) with
      | false => exact .unused hphase hkey
      | true => exact .ended (.inr (by simp [hphase]))
    | _ => simp [advance, hphase] at h
  | loadUser =>
    cases hphase : t.phase with
    | unused =>
      simp only [advance, hphase, Option.some.injEq, Prod.mk.injEq] at h
      obtain ⟨rfl, rfl⟩ := h
      split
      · exact .loaded hphase
      · exact .ended (.inr (by simp [hphase]))
    | _ => simp [advance, hphase] at h
  | commit salt =>
    cases hphase : t.phase with
    | loaded =>
      simp only [advance, hphase, Option.some.injEq, Prod.mk.injEq] at h
      obtain ⟨rfl, rfl⟩ := h
      exact .changed hphase
    | _ => simp [advance, hphase] at h
  | blacklist =>
    cases hphase : t.phase with
    | changed =>
      simp only [advance, hphase, Option.some.injEq, Prod.mk.injEq] at h
      obtain ⟨rfl, rfl⟩ := h
      exact .consumed hphase
    | _ => simp [advance, hphase] at h
  | wait now =>
    by_cases hnow : s.now ≤ now
    · simp only [advance, if_pos hnow, Option.some.injEq, Prod.mk.injEq] at h
      obtain ⟨rfl, rfl⟩ := h
      exact .waited hnow
    · simp [advance, hnow] at h
  | outside accounts =>
    cases h
    exact .outside
  | crash =>
    cases h
    exact .ended (.inl rfl)

end ResetTx

/-! What the link is for. -/

namespace ResetEvent

def changedJti? : ResetEvent → Option Uuid
  | changed token => some token.jti
  | consumed _ _ => none

def consumedJti? : ResetEvent → Option Uuid
  | changed _ => none
  | consumed token _ => some token.jti

/-- Whether the key that marks a link as used is gone. -/
def lapsed (now : Instant) : ResetEvent → Bool
  | changed _ => false
  | consumed token consumedAt => consumedAt + blacklistTtl token.exp consumedAt < now

end ResetEvent

/-- The links that a password was changed by, once for each time. -/
def ResetStore.changedBy (s : ResetStore) : List Uuid := s.log.filterMap ResetEvent.changedJti?

def ResetStore.consumed (s : ResetStore) : List Uuid := s.log.filterMap ResetEvent.consumedJti?

namespace ResetTx

/-- Past the check that the link is unused. -/
def Cleared (t : ResetTx) : Bool :=
  match t.phase with
  | .unused | .loaded | .changed => true
  | _ => false

/-- No two requests with one link are past the check at a time, no check comes after the key
that it looks for is gone, and none crashes before a changed password is followed by the key. -/
def Orderly (s : ResetStore) (others : List ResetTx) (t : ResetTx) : ResetAction → Prop
  | .checkUsed =>
    (∀ event ∈ s.log, event.consumedJti? = some t.token.jti → event.lapsed s.now = false) ∧
    ∀ u ∈ others, u.token.jti = t.token.jti → ¬ u.Cleared
  | .crash => t.phase ≠ .changed
  | _ => True

instance (s : ResetStore) (others : List ResetTx) (t : ResetTx) (action : ResetAction) :
    Decidable (Orderly s others t action) := by
  cases action <;> unfold Orderly <;> infer_instance

structure Sound (s : ResetStore) : Prop where
  once : s.changedBy.Nodup
  kept : ∀ token consumedAt, .consumed token consumedAt ∈ s.log →
    s.redis.Lasts (.blacklist token.jti) (consumedAt + blacklistTtl token.exp consumedAt)

/-- What a request has found out still holds. -/
structure Informed (s : ResetStore) (t : ResetTx) : Prop where
  unchanged : t.Cleared → t.phase ≠ .changed → t.token.jti ∉ s.changedBy
  unconsumed : t.Cleared → t.token.jti ∉ s.consumed

def Apart (t u : ResetTx) : Prop := t.Cleared → u.Cleared → t.token.jti ≠ u.token.jti

def Due (s : ResetStore) (jti : Uuid) : Prop := jti ∈ s.changedBy ∧ jti ∉ s.consumed

def Owes (t : ResetTx) (jti : Uuid) : Prop := t.phase = .changed ∧ t.token.jti = jti

theorem informed_of_phase {s : ResetStore} {t : ResetTx} (h : t.Cleared = false) : Informed s t := by
  constructor <;> simp [h]

theorem cleared_of_changed {t : ResetTx} (h : t.phase = .changed) : t.Cleared := by
  simp [Cleared, h]

theorem mem_consumed {s : ResetStore} {jti : Uuid} : jti ∈ s.consumed ↔
    ∃ token consumedAt, .consumed token consumedAt ∈ s.log ∧ token.jti = jti := by
  rw [ResetStore.consumed, List.mem_filterMap]
  constructor
  · rintro ⟨event, hevent, hjti⟩
    cases event with
    | changed token => cases hjti
    | consumed token consumedAt => exact ⟨token, consumedAt, hevent, Option.some.inj hjti⟩
  · rintro ⟨token, consumedAt, hevent, rfl⟩
    exact ⟨_, hevent, rfl⟩

theorem Sound.unconsumed_of_key {s : ResetStore} (h : Sound s) {jti : Uuid}
    (hkept : ∀ event ∈ s.log, event.consumedJti? = some jti → event.lapsed s.now = false)
    (hkey : s.hasKey (.blacklist jti) = false) : jti ∉ s.consumed := by
  intro hconsumed
  obtain ⟨token, consumedAt, hevent, rfl⟩ := mem_consumed.mp hconsumed
  have hlapsed := hkept _ hevent rfl
  have hstands := (h.kept token consumedAt hevent).stands (by simpa [ResetEvent.lapsed] using hlapsed)
  rw [AuthStore.hasKey, hstands] at hkey
  cases hkey

theorem changedBy_changed (s : ResetStore) (accounts : List Account) (token : ResetToken) :
    ResetStore.changedBy { s with accounts, log := s.log ++ [.changed token] } =
      s.changedBy ++ [token.jti] := by
  rw [ResetStore.changedBy, List.filterMap_append]
  rfl

theorem consumed_changed (s : ResetStore) (accounts : List Account) (token : ResetToken) :
    ResetStore.consumed { s with accounts, log := s.log ++ [.changed token] } = s.consumed := by
  rw [ResetStore.consumed, List.filterMap_append]
  exact List.append_nil _

theorem changedBy_consumed (s : ResetStore) (auth : AuthStore) (token : ResetToken)
    (consumedAt : Instant) :
    ResetStore.changedBy ⟨auth, s.log ++ [.consumed token consumedAt]⟩ = s.changedBy := by
  rw [ResetStore.changedBy, List.filterMap_append]
  exact List.append_nil _

theorem consumed_consumed (s : ResetStore) (auth : AuthStore) (token : ResetToken)
    (consumedAt : Instant) :
    ResetStore.consumed ⟨auth, s.log ++ [.consumed token consumedAt]⟩ =
      s.consumed ++ [token.jti] := by
  rw [ResetStore.consumed, List.filterMap_append]
  rfl

theorem Sound.changed {s : ResetStore} (h : Sound s) (accounts : List Account) {token : ResetToken}
    (hunchanged : token.jti ∉ s.changedBy) :
    Sound { s with accounts, log := s.log ++ [.changed token] } where
  once := by
    rw [changedBy_changed, List.nodup_append]
    refine ⟨h.once, List.nodup_singleton _, ?_⟩
    intro jti hjti jti' hjti' hsame
    rw [List.mem_singleton.mp hjti'] at hsame
    exact hunchanged (hsame ▸ hjti)
  kept used consumedAt hused := by
    rcases List.mem_append.mp hused with hused | hused
    · exact h.kept used consumedAt hused
    · simp at hused

theorem Sound.consumed {s : ResetStore} (h : Sound s) {token : ResetToken}
    (hunconsumed : token.jti ∉ s.consumed) :
    Sound ⟨s.toAuthStore.blacklistJti token.jti token.exp, s.log ++ [.consumed token s.now]⟩ where
  once := by
    rw [changedBy_consumed]
    exact h.once
  kept used consumedAt hused := by
    rcases List.mem_append.mp hused with hused | hused
    · have hne : used.jti ≠ token.jti := fun hsame =>
        hunconsumed (mem_consumed.mpr ⟨used, consumedAt, hused, hsame⟩)
      exact (h.kept used consumedAt hused).set_of_ne (by simpa using hne)
    · obtain ⟨rfl, rfl⟩ := ResetEvent.consumed.inj (List.mem_singleton.mp hused)
      exact Keys.lasts_set le_rfl

theorem Informed.changed {s : ResetStore} {u : ResetTx} (h : Informed s u) (accounts : List Account)
    {token : ResetToken} (hapart : u.Cleared → token.jti ≠ u.token.jti) :
    Informed { s with accounts, log := s.log ++ [.changed token] } u where
  unchanged hcleared hphase := by
    rw [changedBy_changed, List.mem_append, List.mem_singleton]
    rintro (hmem | hsame)
    · exact h.unchanged hcleared hphase hmem
    · exact hapart hcleared hsame.symm
  unconsumed hcleared := by
    rw [consumed_changed]
    exact h.unconsumed hcleared

theorem Informed.consumed {s : ResetStore} {u : ResetTx} (h : Informed s u) (auth : AuthStore)
    {token : ResetToken} (consumedAt : Instant) (hapart : u.Cleared → token.jti ≠ u.token.jti) :
    Informed ⟨auth, s.log ++ [.consumed token consumedAt]⟩ u where
  unchanged hcleared hphase := by
    rw [changedBy_consumed]
    exact h.unchanged hcleared hphase
  unconsumed hcleared := by
    rw [consumed_consumed, List.mem_append, List.mem_singleton]
    rintro (hmem | hsame)
    · exact h.unconsumed hcleared hmem
    · exact hapart hcleared hsame.symm

theorem not_owes {t : ResetTx} (h : t.phase ≠ .changed) (jti : Uuid) : ¬ Owes t jti :=
  fun howes => h howes.1

theorem reliable [Bcrypt] : Reliable machine Orderly Sound Informed Apart Due Owes where
  symm h := fun hu ht => (h ht hu).symm
  starts _ := informed_of_phase (by simp [Cleared, machine])
  starts_apart _ := fun hcleared => by cases hcleared
  advances := by
    intro s others t action s' ended hs ht hothers hdebts hguard hadvance
    have hstay : ∀ u ∈ others, Informed s u := fun u hu => (hothers u hu).1
    have hapart : ∀ u ∈ others, Apart t u := fun u hu => (hothers u hu).2
    have hrest : t.phase ≠ .changed → ∀ jti, Due s jti → ∃ u ∈ others, Owes u jti :=
      fun hphase jti hdue => (hdebts jti hdue).resolve_left (not_owes hphase jti)
    have hstep : advance s others t action = some (s', ended) := hadvance
    cases advance_effect hstep with
    | ended hphase =>
      have hunchanged : t.phase ≠ .changed := by
        rcases hphase with rfl | hphase
        · exact hguard
        · exact hphase
      exact ⟨hs, by simp, hstay, fun jti hdue => .inr (hrest hunchanged jti hdue)⟩
    | decoded hphase =>
      refine ⟨hs, ?_, hstay, fun jti hdue => .inr (hrest (by simp [hphase]) jti hdue)⟩
      rintro t' ⟨⟩
      exact ⟨informed_of_phase rfl, fun _ _ hcleared => by cases hcleared⟩
    | unused hphase hkey =>
      have hunconsumed := hs.unconsumed_of_key hguard.1 hkey
      have hdue := hrest (by simp [hphase])
      refine ⟨hs, ?_, hstay, fun jti hjti => .inr (hdue jti hjti)⟩
      rintro t' ⟨⟩
      refine ⟨⟨?_, fun _ => hunconsumed⟩,
        fun u hu _ hcleared hsame => hguard.2 u hu hsame.symm hcleared⟩
      -- a password that was changed by this link would still be owed for
      intro _ _ hchanged
      obtain ⟨u, hu, hphase', hsame⟩ := hdue _ ⟨hchanged, hunconsumed⟩
      exact hguard.2 u hu hsame (cleared_of_changed hphase')
    | loaded hphase =>
      have hcleared : t.Cleared := by simp [Cleared, hphase]
      refine ⟨hs, ?_, hstay, fun jti hdue => .inr (hrest (by simp [hphase]) jti hdue)⟩
      rintro t' ⟨⟩
      exact ⟨⟨fun _ _ => ht.unchanged hcleared (by simp [hphase]),
        fun _ => ht.unconsumed hcleared⟩, fun u hu _ => hapart u hu hcleared⟩
    | changed hphase =>
      have hcleared : t.Cleared := by simp [Cleared, hphase]
      have hunchanged := ht.unchanged hcleared (by simp [hphase])
      refine ⟨hs.changed _ hunchanged, ?_,
        fun u hu => (hstay u hu).changed _ (hapart u hu hcleared), ?_⟩
      · rintro t' ⟨⟩
        refine ⟨⟨fun _ hphase' => absurd rfl hphase', ?_⟩, fun u hu _ => hapart u hu hcleared⟩
        intro _
        rw [consumed_changed]
        exact ht.unconsumed hcleared
      · rintro jti ⟨hjti, hunconsumed⟩
        rw [changedBy_changed, List.mem_append, List.mem_singleton] at hjti
        rw [consumed_changed] at hunconsumed
        rcases hjti with hjti | rfl
        · exact .inr (hrest (by simp [hphase]) jti ⟨hjti, hunconsumed⟩)
        · exact .inl ⟨_, rfl, rfl, rfl⟩
    | consumed hphase =>
      have hcleared := cleared_of_changed hphase
      refine ⟨hs.consumed (ht.unconsumed hcleared), by simp,
        fun u hu => (hstay u hu).consumed _ _ (hapart u hu hcleared), ?_⟩
      rintro jti ⟨hjti, hunconsumed⟩
      rw [changedBy_consumed] at hjti
      rw [consumed_consumed, List.mem_append, List.mem_singleton] at hunconsumed
      push Not at hunconsumed
      rcases hdebts jti ⟨hjti, hunconsumed.1⟩ with ⟨-, hsame⟩ | howed
      · exact absurd hsame.symm hunconsumed.2
      · exact .inr howed
    | waited hnow =>
      refine ⟨⟨hs.once, hs.kept⟩, ?_, fun u hu => ⟨(hstay u hu).unchanged, (hstay u hu).unconsumed⟩, ?_⟩
      · rintro t' ⟨⟩
        exact ⟨⟨ht.unchanged, ht.unconsumed⟩, hapart⟩
      · intro jti hdue
        exact (hdebts jti hdue).imp (fun howes => ⟨t, rfl, howes⟩) id
    | outside =>
      refine ⟨⟨hs.once, hs.kept⟩, ?_, fun u hu => ⟨(hstay u hu).unchanged, (hstay u hu).unconsumed⟩, ?_⟩
      · rintro t' ⟨⟩
        exact ⟨⟨ht.unchanged, ht.unconsumed⟩, hapart⟩
      · intro jti hdue
        exact (hdebts jti hdue).imp (fun howes => ⟨t, rfl, howes⟩) id

end ResetTx

/-- In an orderly run a link changes the password at most once. -/
theorem reset_link_once [Bcrypt] {s : ResetStore} (hlog : s.log = [])
    {sys : System ResetStore ResetTx}
    (hrun : Runs.Reaches ResetTx.machine.step (OnStep ResetTx.Orderly) ⟨s, []⟩ sys) :
    sys.store.changedBy.Nodup := by
  have hsound : ResetTx.Sound s := by
    constructor
    · rw [ResetStore.changedBy, hlog]
      exact List.nodup_nil
    · simp [hlog]
  have hnodebts : ∀ jti, ResetTx.Due s jti → ∃ t ∈ ([] : List ResetTx), ResetTx.Owes t jti := by
    rintro jti ⟨hjti, -⟩
    simp [ResetStore.changedBy, hlog] at hjti
  exact (ResetTx.reliable.run hrun ⟨⟨hsound, by simp, .nil⟩, hnodebts⟩).store.once

/-! One link, presented twice. -/

def oneReset : System ResetStore ResetTx :=
  ⟨⟨⟨100, {}, [⟨⟨7, .viewer⟩, true, "$2b$12$", none⟩]⟩, []⟩, []⟩

def resetToken : ResetToken := ⟨7, 1, 3700⟩

abbrev Bcrypt.joined : Bcrypt := ⟨fun salt plain => salt ++ plain⟩

def ResetStore.outcome (s : ResetStore) : List Uuid × List String :=
  (s.changedBy, s.accounts.map Account.hashedPassword)

def oneRequest (index : ℕ) : List (Action (ResetToken × String) ResetAction) :=
  [.advance index .decode, .advance index .checkUsed, .advance index .loadUser,
    .advance index (.commit "$"), .advance index .blacklist]

/-- The second request comes after the first. -/
def orderlyResets : List (Action (ResetToken × String) ResetAction) :=
  .start (resetToken, "one") :: oneRequest 0 ++
    [.start (resetToken, "two"), .advance 0 .decode, .advance 0 .checkUsed]

theorem orderlyResets_once :
    letI := Bcrypt.joined
    ∃ sys : System ResetStore ResetTx,
      Runs.Reaches ResetTx.machine.step (OnStep ResetTx.Orderly) oneReset sys ∧
      sys.store.outcome = ([1], ["$one"]) ∧ sys.store.changedBy.Nodup := by
  let := Bcrypt.joined
  have hreplay : (Runs.replay ResetTx.machine.step (OnStep ResetTx.Orderly) oneReset
      orderlyResets).map (fun sys => sys.store.outcome) = some ([1], ["$one"]) := by
    decide +kernel
  obtain ⟨sys, hrun, houtcome⟩ := Runs.replay_map_reaches hreplay
  exact ⟨sys, hrun, houtcome, reset_link_once rfl hrun⟩

/-- Both pass the check before either marks the link. -/
def overlappingResets : List (Action (ResetToken × String) ResetAction) :=
  .start (resetToken, "one") :: .start (resetToken, "two") ::
    (oneRequest 1).dropLast.flatMap (fun step => [step, step])

/-- The first crashes after its commit. -/
def crashedReset : List (Action (ResetToken × String) ResetAction) :=
  .start (resetToken, "one") :: (oneRequest 0).dropLast ++ [.advance 0 .crash,
    .start (resetToken, "two")] ++ oneRequest 0

theorem resets_twice [Bcrypt] {run : List (Action (ResetToken × String) ResetAction)}
    (h : (Runs.replay ResetTx.machine.step Runs.always oneReset run).map (·.store.outcome) =
      some ([1, 1], ["$two"])) : ∃ sys : System ResetStore ResetTx,
      Runs.Reaches ResetTx.machine.step Runs.always oneReset sys ∧
      (Runs.replay ResetTx.machine.step Runs.always oneReset run).map (·.store.outcome) =
        some sys.store.outcome ∧ sys.store.outcome = ([1, 1], ["$two"]) ∧
      ¬ sys.store.changedBy.Nodup := by
  obtain ⟨sys, hreaches, houtcome⟩ := Runs.replay_map_reaches h
  refine ⟨sys, hreaches, ?_, houtcome, ?_⟩
  · rw [h, houtcome]
  · have hchanged : sys.store.changedBy = [1, 1] := congrArg Prod.fst houtcome
    rw [hchanged]
    decide

theorem unorderly_resets :
    letI := Bcrypt.joined
    (∃ sys : System ResetStore ResetTx,
      Runs.Reaches ResetTx.machine.step Runs.always oneReset sys ∧
      (Runs.replay ResetTx.machine.step Runs.always oneReset overlappingResets).map
        (·.store.outcome) = some sys.store.outcome ∧
      sys.store.outcome = ([1, 1], ["$two"]) ∧ ¬ sys.store.changedBy.Nodup) ∧
    ∃ sys : System ResetStore ResetTx,
      Runs.Reaches ResetTx.machine.step Runs.always oneReset sys ∧
      (Runs.replay ResetTx.machine.step Runs.always oneReset crashedReset).map
        (·.store.outcome) = some sys.store.outcome ∧
      sys.store.outcome = ([1, 1], ["$two"]) ∧ ¬ sys.store.changedBy.Nodup := by
  let := Bcrypt.joined
  exact ⟨resets_twice (by decide +kernel), resets_twice (by decide +kernel)⟩

end Finguard
