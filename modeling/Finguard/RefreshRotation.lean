import Finguard.Identity
import Finguard.Lib.Sessions

/-! The exchange of a refresh token. The checks and the keys that they look for are separate
steps, so requests that overlap may both pass. -/

namespace Finguard
open Expiring Sessions

/-! The machine. -/

inductive RefreshPhase where
  | begun
  | decoded
  | familyChecked
  | replayed
  | unused
  | known
  | issuing (consumedAt : Instant)

structure RefreshTx where
  token : RefreshToken
  phase : RefreshPhase := .begun

inductive RefreshEvent where
  | exchanged (token successor : RefreshToken) (consumedAt : Instant)
  | rejected (token : RefreshToken) (revokedAt : Instant)

structure RefreshStore extends AuthStore where
  log : List RefreshEvent := []

/-- Accounts change by other requests, and time passes. -/
inductive RefreshAction where
  | decode
  | checkFamily
  | checkBlacklist
  | revokeFamily
  | checkUser
  | blacklist
  | issue (jti : Uuid)
  | wait (now : Instant)
  | outside (accounts : List Account)
  | crash

def Account.mayRefresh (account : Account) (token : RefreshToken) : Bool :=
  account.isActive && tokenIssuedAfterPasswordChange (some token.iat) account.passwordChangedAt

namespace RefreshTx
variable [AuthSettings]

def advance (s : RefreshStore) (_ : List RefreshTx) (t : RefreshTx) :
    RefreshAction → Option (RefreshStore × Option RefreshTx)
  | .decode =>
    match t.phase with
    | .begun =>
      some (s, if unexpired t.token.exp s.now then some { t with phase := .decoded } else none)
    | _ => none
  | .checkFamily =>
    match t.phase with
    | .decoded => some (s, if s.hasKey (.revokedFamily t.token.familyId) then none
        else some { t with phase := .familyChecked })
    | _ => none
  | .checkBlacklist =>
    match t.phase with
    | .familyChecked => some (s, some { t with
        phase := if s.hasKey (.blacklist t.token.jti) then .replayed else .unused })
    | _ => none
  | .revokeFamily =>
    match t.phase with
    | .replayed => some (⟨s.toAuthStore.revokeFamily t.token.familyId,
        s.log ++ [.rejected t.token s.now]⟩, none)
    | _ => none
  | .checkUser =>
    match t.phase with
    | .unused => some (s, if (s.getById t.token.sub).any (·.mayRefresh t.token) then
        some { t with phase := .known } else none)
    | _ => none
  | .blacklist =>
    match t.phase with
    | .known => some (⟨s.toAuthStore.blacklistJti t.token.jti t.token.exp, s.log⟩,
        some { t with phase := .issuing s.now })
    | _ => none
  | .issue jti =>
    match t.phase with
    | .issuing consumedAt => some ({ s with
        log := s.log ++ [.exchanged t.token
          (createRefreshToken t.token.sub jti t.token.familyId s.now) consumedAt] }, none)
    | _ => none
  | .wait now => if s.now ≤ now then some ({ s with now }, some t) else none
  | .outside accounts => some ({ s with accounts }, some t)
  | .crash => some (s, none)

def machine : Machine RefreshStore RefreshTx RefreshToken RefreshAction where
  start token := { token }
  advance := advance

/-- Every step that a request can take. -/
inductive Effect (s : RefreshStore) (t : RefreshTx) :
    RefreshAction → RefreshStore → Option RefreshTx → Prop
  | ended {action : RefreshAction} : Effect s t action s none
  | decoded {action : RefreshAction} : Effect s t action s (some { t with phase := .decoded })
  | familyChecked (hphase : t.phase = .decoded)
    (hkey : s.hasKey (.revokedFamily t.token.familyId) = false) :
    Effect s t .checkFamily s (some { t with phase := .familyChecked })
  | replayed (hphase : t.phase = .familyChecked) :
    Effect s t .checkBlacklist s (some { t with phase := .replayed })
  | unused (hphase : t.phase = .familyChecked)
    (hkey : s.hasKey (.blacklist t.token.jti) = false) :
    Effect s t .checkBlacklist s (some { t with phase := .unused })
  | rejected (hphase : t.phase = .replayed) :
    Effect s t .revokeFamily ⟨s.toAuthStore.revokeFamily t.token.familyId,
      s.log ++ [.rejected t.token s.now]⟩ none
  | known (hphase : t.phase = .unused) :
    Effect s t .checkUser s (some { t with phase := .known })
  | consumed (hphase : t.phase = .known) :
    Effect s t .blacklist ⟨s.toAuthStore.blacklistJti t.token.jti t.token.exp, s.log⟩
      (some { t with phase := .issuing s.now })
  | exchanged {jti : Uuid} {consumedAt : Instant} (hphase : t.phase = .issuing consumedAt) :
    Effect s t (.issue jti) { s with
      log := s.log ++ [.exchanged t.token
        (createRefreshToken t.token.sub jti t.token.familyId s.now) consumedAt] } none
  | waited {now : Instant} (hnow : s.now ≤ now) : Effect s t (.wait now) { s with now } (some t)
  | outside {accounts : List Account} : Effect s t (.outside accounts) { s with accounts } (some t)

theorem advance_effect {s s' : RefreshStore} {others : List RefreshTx} {t : RefreshTx}
    {action : RefreshAction} {ended : Option RefreshTx}
    (h : advance s others t action = some (s', ended)) : Effect s t action s' ended := by
  cases action with
  | decode =>
    cases hphase : t.phase with
    | begun =>
      simp only [advance, hphase, Option.some.injEq, Prod.mk.injEq] at h
      obtain ⟨rfl, rfl⟩ := h
      split
      · exact .decoded
      · exact .ended
    | _ => simp [advance, hphase] at h
  | checkFamily =>
    cases hphase : t.phase with
    | decoded =>
      simp only [advance, hphase, Option.some.injEq, Prod.mk.injEq] at h
      obtain ⟨rfl, rfl⟩ := h
      cases hkey : s.hasKey (.revokedFamily t.token.familyId) with
      | false => exact .familyChecked hphase hkey
      | true => exact .ended
    | _ => simp [advance, hphase] at h
  | checkBlacklist =>
    cases hphase : t.phase with
    | familyChecked =>
      simp only [advance, hphase, Option.some.injEq, Prod.mk.injEq] at h
      obtain ⟨rfl, rfl⟩ := h
      cases hkey : s.hasKey (.blacklist t.token.jti) with
      | false => exact .unused hphase hkey
      | true => exact .replayed hphase
    | _ => simp [advance, hphase] at h
  | revokeFamily =>
    cases hphase : t.phase with
    | replayed =>
      simp only [advance, hphase, Option.some.injEq, Prod.mk.injEq] at h
      obtain ⟨rfl, rfl⟩ := h
      exact .rejected hphase
    | _ => simp [advance, hphase] at h
  | checkUser =>
    cases hphase : t.phase with
    | unused =>
      simp only [advance, hphase, Option.some.injEq, Prod.mk.injEq] at h
      obtain ⟨rfl, rfl⟩ := h
      split
      · exact .known hphase
      · exact .ended
    | _ => simp [advance, hphase] at h
  | blacklist =>
    cases hphase : t.phase with
    | known =>
      simp only [advance, hphase, Option.some.injEq, Prod.mk.injEq] at h
      obtain ⟨rfl, rfl⟩ := h
      exact .consumed hphase
    | _ => simp [advance, hphase] at h
  | issue jti =>
    cases hphase : t.phase with
    | issuing consumedAt =>
      simp only [advance, hphase, Option.some.injEq, Prod.mk.injEq] at h
      obtain ⟨rfl, rfl⟩ := h
      exact .exchanged hphase
    | _ => simp [advance, hphase] at h
  | wait now =>
    by_cases hnow : s.now ≤ now
    · simp only [advance, if_pos hnow, Option.some.injEq, Prod.mk.injEq] at h
      obtain ⟨rfl, rfl⟩ := h
      exact .waited hnow
    · simp [advance, hnow] at h
  | outside accounts =>
    cases h
    exact .outside
  | crash =>
    cases h
    exact .ended

end RefreshTx

/-! What rotation is for. -/

def RefreshEvent.exchangedJti? : RefreshEvent → Option Uuid
  | .exchanged token _ _ => some token.jti
  | .rejected _ _ => none

def RefreshEvent.revokedFamily? : RefreshEvent → Option Uuid
  | .exchanged _ _ _ => none
  | .rejected replay _ => some replay.familyId

/-- Whether the key that an event has left is gone. -/
def RefreshEvent.lapsed [AuthSettings] (now : Instant) : RefreshEvent → Bool
  | .exchanged token _ consumedAt => consumedAt + blacklistTtl token.exp consumedAt < now
  | .rejected _ revokedAt => revokedAt + familyTtl < now

/-- An exchange does not follow the rejection of a replay in its family. -/
def RefreshEvent.Follows : RefreshEvent → RefreshEvent → Prop
  | .rejected replay _, .exchanged token _ _ => token.familyId ≠ replay.familyId
  | _, _ => True

/-- Every token is exchanged at most once, and after a replay none of its family. -/
structure Rotated (log : List RefreshEvent) : Prop where
  once : (log.filterMap RefreshEvent.exchangedJti?).Nodup
  revoked : log.Pairwise RefreshEvent.Follows

namespace RefreshTx

/-- Past the check of its family, and on the way to an exchange. -/
def Admitted (t : RefreshTx) : Bool :=
  match t.phase with
  | .familyChecked | .unused | .known | .issuing _ => true
  | _ => false

/-- Past both checks. -/
def Cleared (t : RefreshTx) : Bool :=
  match t.phase with
  | .unused | .known | .issuing _ => true
  | _ => false

theorem admitted_of_cleared {t : RefreshTx} (h : t.Cleared) : t.Admitted := by
  cases hphase : t.phase <;> simp_all [Cleared, Admitted]

variable [AuthSettings]

/-- No check comes after the key that it looks for is gone, no two requests with one token are
past the check at a time, and a replay is rejected while no other request of its family is
under way. -/
def Orderly (s : RefreshStore) (others : List RefreshTx) (t : RefreshTx) : RefreshAction → Prop
  | .checkFamily =>
    ∀ event ∈ s.log, event.revokedFamily? = some t.token.familyId → event.lapsed s.now = false
  | .checkBlacklist =>
    (∀ event ∈ s.log, event.exchangedJti? = some t.token.jti → event.lapsed s.now = false) ∧
    ∀ u ∈ others, u.token.jti = t.token.jti → ¬ u.Cleared
  | .revokeFamily => ∀ u ∈ others, u.token.familyId = t.token.familyId → ¬ u.Admitted
  | _ => True

/-- The keys of what has happened are kept for their time. -/
structure Sound (s : RefreshStore) : Prop where
  rotated : Rotated s.log
  consumed : ∀ token successor consumedAt, .exchanged token successor consumedAt ∈ s.log →
    s.redis.Lasts (.blacklist token.jti) (consumedAt + blacklistTtl token.exp consumedAt)
  revoked : ∀ replay revokedAt, .rejected replay revokedAt ∈ s.log →
    s.redis.Lasts (.revokedFamily replay.familyId) (revokedAt + familyTtl)
  past : ∀ replay revokedAt, .rejected replay revokedAt ∈ s.log → revokedAt ≤ s.now

/-- What a request has found out still holds. -/
structure Informed (s : RefreshStore) (t : RefreshTx) : Prop where
  family : t.Admitted → ∀ replay revokedAt, .rejected replay revokedAt ∈ s.log →
    replay.familyId ≠ t.token.familyId
  fresh : t.Cleared → ∀ token successor consumedAt, .exchanged token successor consumedAt ∈ s.log →
    token.jti ≠ t.token.jti
  consumed : ∀ consumedAt, t.phase = .issuing consumedAt →
    s.redis.Lasts (.blacklist t.token.jti) (consumedAt + blacklistTtl t.token.exp consumedAt)

def Apart (t u : RefreshTx) : Prop := t.Cleared → u.Cleared → t.token.jti ≠ u.token.jti

omit [AuthSettings] in
theorem Informed.of_log {s s' : RefreshStore} {t : RefreshTx} (h : Informed s t)
    (hlog : s'.log = s.log) (hredis : s'.redis = s.redis) : Informed s' t := by
  constructor
  · rw [hlog]
    exact h.family
  · rw [hlog]
    exact h.fresh
  · rw [hredis]
    exact h.consumed

theorem Sound.of_log {s s' : RefreshStore} (h : Sound s) (hlog : s'.log = s.log)
    (hredis : s'.redis = s.redis) (hnow : s.now ≤ s'.now) : Sound s' := by
  constructor
  · rw [hlog]
    exact h.rotated
  · rw [hlog, hredis]
    exact h.consumed
  · rw [hlog, hredis]
    exact h.revoked
  · rw [hlog]
    exact fun replay revokedAt hrejected => (h.past replay revokedAt hrejected).trans hnow

omit [AuthSettings] in
/-- A request that is not past its checks knows nothing yet. -/
theorem informed_of_phase {s : RefreshStore} {t : RefreshTx} (h : ¬ t.Admitted) : Informed s t where
  family hadmitted := absurd hadmitted h
  fresh hcleared := absurd (admitted_of_cleared hcleared) h
  consumed consumedAt hphase := by
    refine absurd ?_ h
    simp [Admitted, hphase]

theorem Sound.rejected {s : RefreshStore} (h : Sound s) (token : RefreshToken) :
    Sound ⟨s.toAuthStore.revokeFamily token.familyId, s.log ++ [.rejected token s.now]⟩ where
  rotated := by
    refine ⟨?_, ?_⟩
    · have hnone : [RefreshEvent.rejected token s.now].filterMap RefreshEvent.exchangedJti? = [] := rfl
      rw [List.filterMap_append, hnone, List.append_nil]
      exact h.rotated.once
    · rw [List.pairwise_append]
      refine ⟨h.rotated.revoked, List.pairwise_singleton _ _, ?_⟩
      intro event _ new hnew
      obtain rfl := List.mem_singleton.mp hnew
      cases event <;> trivial
  consumed := by
    intro used successor consumedAt hused
    rcases List.mem_append.mp hused with hused | hused
    · exact (h.consumed used successor consumedAt hused).set_of_ne (by simp)
    · simp at hused
  revoked := by
    intro replay revokedAt hrejected
    by_cases hfamily : replay.familyId = token.familyId
    · -- a later rejection only prolongs the key
      have hpast : revokedAt ≤ s.now := by
        rcases List.mem_append.mp hrejected with hrejected | hrejected
        · exact h.past replay revokedAt hrejected
        · simp only [List.mem_singleton, RefreshEvent.rejected.injEq] at hrejected
          exact hrejected.2.le
      rw [hfamily]
      exact Keys.lasts_set (by linarith)
    · rcases List.mem_append.mp hrejected with hrejected | hrejected
      · exact (h.revoked replay revokedAt hrejected).set_of_ne (by simpa using hfamily)
      · simp only [List.mem_singleton, RefreshEvent.rejected.injEq] at hrejected
        exact absurd (congrArg RefreshToken.familyId hrejected.1) hfamily
  past := by
    intro replay revokedAt hrejected
    rcases List.mem_append.mp hrejected with hrejected | hrejected
    · exact h.past replay revokedAt hrejected
    · simp only [List.mem_singleton, RefreshEvent.rejected.injEq] at hrejected
      exact hrejected.2.le

theorem Informed.rejected {s : RefreshStore} {u : RefreshTx} (h : Informed s u)
    {token : RefreshToken} (hfamily : u.token.familyId = token.familyId → ¬ u.Admitted) :
    Informed ⟨s.toAuthStore.revokeFamily token.familyId, s.log ++ [.rejected token s.now]⟩ u where
  family hadmitted replay revokedAt hrejected := by
    rcases List.mem_append.mp hrejected with hrejected | hrejected
    · exact h.family hadmitted replay revokedAt hrejected
    · simp only [List.mem_singleton, RefreshEvent.rejected.injEq] at hrejected
      intro hsame
      rw [hrejected.1] at hsame
      exact hfamily hsame.symm hadmitted
  fresh hcleared used successor consumedAt hused := by
    rcases List.mem_append.mp hused with hused | hused
    · exact h.fresh hcleared used successor consumedAt hused
    · simp at hused
  consumed consumedAt hphase := (h.consumed consumedAt hphase).set_of_ne (by simp)

theorem Sound.consumed_token {s : RefreshStore} (h : Sound s) {token : RefreshToken}
    (hfresh : ∀ used successor consumedAt, .exchanged used successor consumedAt ∈ s.log →
      used.jti ≠ token.jti) :
    Sound ⟨s.toAuthStore.blacklistJti token.jti token.exp, s.log⟩ where
  rotated := h.rotated
  consumed used successor consumedAt hused := by
    have hne := hfresh used successor consumedAt hused
    exact (h.consumed used successor consumedAt hused).set_of_ne (by simpa using hne)
  revoked replay revokedAt hrejected := (h.revoked replay revokedAt hrejected).set_of_ne (by simp)
  past := h.past

omit [AuthSettings] in
theorem Informed.consumed_token {s : RefreshStore} {u : RefreshTx} (h : Informed s u)
    {token : RefreshToken} (hapart : u.Cleared → token.jti ≠ u.token.jti) :
    Informed ⟨s.toAuthStore.blacklistJti token.jti token.exp, s.log⟩ u where
  family := h.family
  fresh := h.fresh
  consumed consumedAt hphase := by
    have hcleared : u.Cleared := by simp [Cleared, hphase]
    refine (h.consumed consumedAt hphase).set_of_ne ?_
    simpa using (hapart hcleared).symm

/-- The step that the checks are for. -/
theorem Sound.exchanged {s : RefreshStore} {t : RefreshTx} (h : Sound s) (ht : Informed s t)
    {consumedAt : Instant} (hphase : t.phase = .issuing consumedAt) (successor : RefreshToken) :
    Sound { s with log := s.log ++ [.exchanged t.token successor consumedAt] } := by
  have hcleared : t.Cleared := by simp [Cleared, hphase]
  refine ⟨⟨?_, ?_⟩, ?_, ?_, ?_⟩
  · have hnew : [RefreshEvent.exchanged t.token successor consumedAt].filterMap
        RefreshEvent.exchangedJti? = [t.token.jti] := rfl
    rw [List.filterMap_append, hnew, List.nodup_append]
    refine ⟨h.rotated.once, List.nodup_singleton _, ?_⟩
    intro jti hjti jti' hjti'
    obtain ⟨event, hevent, hsome⟩ := List.mem_filterMap.mp hjti
    obtain rfl := List.mem_singleton.mp hjti'
    cases event with
    | rejected replay revokedAt => cases hsome
    | exchanged used successor' consumedAt' =>
      obtain rfl := Option.some.inj hsome
      exact ht.fresh hcleared used successor' consumedAt' hevent
  · rw [List.pairwise_append]
    refine ⟨h.rotated.revoked, List.pairwise_singleton _ _, ?_⟩
    intro event hevent new hnew
    obtain rfl := List.mem_singleton.mp hnew
    cases event with
    | rejected replay revokedAt =>
      exact (ht.family (admitted_of_cleared hcleared) replay revokedAt hevent).symm
    | exchanged used successor' consumedAt' => trivial
  · intro used successor' consumedAt' hused
    rcases List.mem_append.mp hused with hused | hused
    · exact h.consumed used successor' consumedAt' hused
    · obtain ⟨rfl, -, rfl⟩ := RefreshEvent.exchanged.inj (List.mem_singleton.mp hused)
      exact ht.consumed _ hphase
  · intro replay revokedAt hrejected
    rcases List.mem_append.mp hrejected with hrejected | hrejected
    · exact h.revoked replay revokedAt hrejected
    · simp at hrejected
  · intro replay revokedAt hrejected
    rcases List.mem_append.mp hrejected with hrejected | hrejected
    · exact h.past replay revokedAt hrejected
    · simp at hrejected

omit [AuthSettings] in
theorem Informed.exchanged {s : RefreshStore} {u : RefreshTx} (h : Informed s u)
    {token successor : RefreshToken} {consumedAt : Instant}
    (hapart : u.Cleared → token.jti ≠ u.token.jti) :
    Informed { s with log := s.log ++ [.exchanged token successor consumedAt] } u where
  family hadmitted replay revokedAt hrejected := by
    rcases List.mem_append.mp hrejected with hrejected | hrejected
    · exact h.family hadmitted replay revokedAt hrejected
    · simp at hrejected
  fresh hcleared used successor' consumedAt' hused := by
    rcases List.mem_append.mp hused with hused | hused
    · exact h.fresh hcleared used successor' consumedAt' hused
    · obtain ⟨rfl, -, -⟩ := RefreshEvent.exchanged.inj (List.mem_singleton.mp hused)
      exact hapart hcleared
  consumed := h.consumed

theorem Sound.family_check {s : RefreshStore} {t : RefreshTx} (h : Sound s)
    (hkept : ∀ event ∈ s.log, event.revokedFamily? = some t.token.familyId →
      event.lapsed s.now = false)
    (hkey : s.hasKey (.revokedFamily t.token.familyId) = false) :
    Informed s { t with phase := .familyChecked } where
  family _ replay revokedAt hrejected hsame := by
    have hlasts := h.revoked replay revokedAt hrejected
    rw [hsame] at hlasts
    have hlapsed := hkept _ hrejected (congrArg some hsame)
    have hstands := hlasts.stands (by simpa [RefreshEvent.lapsed] using hlapsed)
    rw [AuthStore.hasKey, hstands] at hkey
    cases hkey
  fresh hcleared := by cases hcleared
  consumed := nofun

theorem Sound.blacklist_check {s : RefreshStore} {t : RefreshTx} (h : Sound s) (ht : Informed s t)
    (hadmitted : t.Admitted)
    (hkept : ∀ event ∈ s.log, event.exchangedJti? = some t.token.jti →
      event.lapsed s.now = false)
    (hkey : s.hasKey (.blacklist t.token.jti) = false) :
    Informed s { t with phase := .unused } where
  family _ := ht.family hadmitted
  fresh _ used successor consumedAt hused hsame := by
    have hlasts := h.consumed used successor consumedAt hused
    rw [hsame] at hlasts
    have hlapsed := hkept _ hused (congrArg some hsame)
    have hstands := hlasts.stands (by simpa [RefreshEvent.lapsed] using hlapsed)
    rw [AuthStore.hasKey, hstands] at hkey
    cases hkey
  consumed := nofun

theorem reliable : Reliable machine Orderly Sound Informed Apart (fun _ (_ : Empty) => False)
    (fun _ _ => False) where
  symm h := fun hu ht => (h ht hu).symm
  starts _ := informed_of_phase (by simp [Admitted, machine])
  starts_apart _ := fun hcleared => by cases hcleared
  advances := by
    intro s others t action s' ended hs ht hothers _ hguard hadvance
    have hstay : ∀ u ∈ others, Informed s u := fun u hu => (hothers u hu).1
    have hapart : ∀ u ∈ others, Apart t u := fun u hu => (hothers u hu).2
    have hstep : advance s others t action = some (s', ended) := hadvance
    cases advance_effect hstep with
    | ended => exact ⟨hs, by simp, hstay, fun d => d.elim⟩
    | decoded =>
      refine ⟨hs, ?_, hstay, fun d => d.elim⟩
      rintro t' ⟨⟩
      exact ⟨informed_of_phase (by simp [Admitted]), fun _ _ hcleared => by cases hcleared⟩
    | familyChecked hphase hkey =>
      refine ⟨hs, ?_, hstay, fun d => d.elim⟩
      rintro t' ⟨⟩
      exact ⟨hs.family_check hguard hkey, fun _ _ hcleared => by cases hcleared⟩
    | replayed hphase =>
      refine ⟨hs, ?_, hstay, fun d => d.elim⟩
      rintro t' ⟨⟩
      exact ⟨informed_of_phase (by simp [Admitted]), fun _ _ hcleared => by cases hcleared⟩
    | unused hphase hkey =>
      refine ⟨hs, ?_, hstay, fun d => d.elim⟩
      rintro t' ⟨⟩
      have hadmitted : t.Admitted := by simp [Admitted, hphase]
      exact ⟨hs.blacklist_check ht hadmitted hguard.1 hkey,
        fun u hu _ hcleared hsame => hguard.2 u hu hsame.symm hcleared⟩
    | rejected hphase =>
      refine ⟨hs.rejected t.token, by simp, ?_, fun d => d.elim⟩
      exact fun u hu => (hstay u hu).rejected (hguard u hu)
    | known hphase =>
      have hcleared : t.Cleared := by simp [Cleared, hphase]
      refine ⟨hs, ?_, hstay, fun d => d.elim⟩
      rintro t' ⟨⟩
      exact ⟨⟨fun _ => ht.family (admitted_of_cleared hcleared), fun _ => ht.fresh hcleared, nofun⟩,
        fun u hu _ hucleared => hapart u hu hcleared hucleared⟩
    | consumed hphase =>
      have hcleared : t.Cleared := by simp [Cleared, hphase]
      refine ⟨hs.consumed_token (ht.fresh hcleared), ?_, ?_, fun d => d.elim⟩
      · rintro t' ⟨⟩
        refine ⟨⟨fun _ => ht.family (admitted_of_cleared hcleared), fun _ => ht.fresh hcleared, ?_⟩,
          fun u hu _ hucleared => hapart u hu hcleared hucleared⟩
        rintro consumedAt ⟨⟩
        exact Keys.lasts_set le_rfl
      · exact fun u hu => (hstay u hu).consumed_token (hapart u hu hcleared)
    | exchanged hphase =>
      have hcleared : t.Cleared := by simp [Cleared, hphase]
      exact ⟨hs.exchanged ht hphase _, by simp,
        fun u hu => (hstay u hu).exchanged (hapart u hu hcleared), fun d => d.elim⟩
    | waited hnow =>
      refine ⟨hs.of_log rfl rfl hnow, ?_, fun u hu => (hstay u hu).of_log rfl rfl,
        fun d => d.elim⟩
      rintro t' ⟨⟩
      exact ⟨ht.of_log rfl rfl, hapart⟩
    | outside =>
      refine ⟨hs.of_log rfl rfl le_rfl, ?_, fun u hu => (hstay u hu).of_log rfl rfl,
        fun d => d.elim⟩
      rintro t' ⟨⟩
      exact ⟨ht.of_log rfl rfl, hapart⟩

instance (s : RefreshStore) (others : List RefreshTx) (t : RefreshTx) (action : RefreshAction) :
    Decidable (Orderly s others t action) := by
  cases action <;> unfold Orderly <;> infer_instance

end RefreshTx

/-- In an orderly run a token is exchanged once, and its family dies with its replay. -/
theorem refresh_rotation [AuthSettings] {s : RefreshStore} (hlog : s.log = [])
    {sys : System RefreshStore RefreshTx}
    (hrun : Runs.Reaches RefreshTx.machine.step (OnStep RefreshTx.Orderly) ⟨s, []⟩ sys) :
    Rotated sys.store.log := by
  have hsound : RefreshTx.Sound s := by
    constructor
    · rw [hlog]
      exact ⟨List.nodup_nil, .nil⟩
    all_goals simp [hlog]
  exact (RefreshTx.reliable.run hrun ⟨⟨hsound, by simp, .nil⟩, fun d => d.elim⟩).store.rotated

/-! One user with one login. -/

def oneAccount : AuthStore where
  now := 100
  accounts := [⟨⟨7, .viewer⟩, true, "$2b$12$", none⟩]

abbrev RefreshSystem := System RefreshStore RefreshTx

def oneLogin : RefreshSystem := ⟨⟨oneAccount, []⟩, []⟩

def loginToken [AuthSettings] : RefreshToken := createRefreshToken 7 1 9 (100 : Instant)

def rotatedToken [AuthSettings] : RefreshToken := createRefreshToken 7 2 9 (100 : Instant)

/-- Whether a token was exchanged or rejected, with its number and its family. -/
def RefreshEvent.summary : RefreshEvent → Bool × Uuid × Uuid
  | .exchanged token _ _ => (true, token.jti, token.familyId)
  | .rejected replay _ => (false, replay.jti, replay.familyId)

theorem RefreshEvent.exchangedJti?_eq (event : RefreshEvent) :
    event.exchangedJti? = if event.summary.1 then some event.summary.2.1 else none := by
  cases event <;> rfl

/-- All of a request but the last step. -/
def untilIssue (index : ℕ) : List (Action RefreshToken RefreshAction) :=
  [.advance index .decode, .advance index .checkFamily, .advance index .checkBlacklist,
    .advance index .checkUser, .advance index .blacklist]

/-- The login's token is exchanged and then replayed, and its successor is refused. -/
def replayedRun [AuthSettings] : List (Action RefreshToken RefreshAction) :=
  .start loginToken :: untilIssue 0 ++ [.advance 0 (.issue 2), .start loginToken,
    .advance 0 .decode, .advance 0 .checkFamily, .advance 0 .checkBlacklist,
    .advance 0 .revokeFamily, .start rotatedToken, .advance 0 .decode, .advance 0 .checkFamily]

theorem replayedRun_rotated :
    letI := AuthSettings.default
    ∃ sys : RefreshSystem,
      Runs.Reaches RefreshTx.machine.step (OnStep RefreshTx.Orderly) oneLogin sys ∧
      (sys.store.log.map RefreshEvent.summary, sys.sessions.length) =
        ([(true, 1, 9), (false, 1, 9)], 0) ∧ Rotated sys.store.log := by
  let := AuthSettings.default
  have hreplay : (Runs.replay RefreshTx.machine.step (OnStep RefreshTx.Orderly) oneLogin
      replayedRun).map (fun sys => (sys.store.log.map RefreshEvent.summary, sys.sessions.length)) =
        some ([(true, 1, 9), (false, 1, 9)], 0) := by
    decide +kernel
  obtain ⟨sys, hrun, hlog⟩ := Runs.replay_map_reaches hreplay
  exact ⟨sys, hrun, hlog, refresh_rotation rfl hrun⟩

/-- Two requests pass the check of the same token before either has used it up. -/
def doubleRun [AuthSettings] : List (Action RefreshToken RefreshAction) :=
  .start loginToken :: .start loginToken :: (untilIssue 1).flatMap (fun step => [step, step]) ++
    [.advance 1 (.issue 2), .advance 0 (.issue 3)]

/-- A replay is rejected while the successor of its token is being exchanged. -/
def lateRun [AuthSettings] : List (Action RefreshToken RefreshAction) :=
  .start loginToken :: untilIssue 0 ++ [.advance 0 (.issue 2), .start rotatedToken] ++
    untilIssue 0 ++ [.start loginToken, .advance 0 .decode, .advance 0 .checkFamily,
      .advance 0 .checkBlacklist, .advance 0 .revokeFamily, .advance 0 (.issue 3)]

/-- The token outlives the key of its first use by a fraction of a second. -/
def lapsedRun [AuthSettings] : List (Action RefreshToken RefreshAction) :=
  .start loginToken :: .advance 0 (.wait (604899 + 1 / 4)) :: untilIssue 0 ++ [.advance 0 (.issue 2),
    .start loginToken, .advance 0 (.wait (604900 + 1 / 2))] ++ untilIssue 0 ++
    [.advance 0 (.issue 3)]

theorem unorderly_refreshes :
    letI := AuthSettings.default
    (∃ sys : RefreshSystem, Runs.Reaches RefreshTx.machine.step Runs.always oneLogin sys ∧
      sys.store.log.map RefreshEvent.summary = [(true, 1, 9), (true, 1, 9)] ∧
      ¬ Rotated sys.store.log) ∧
    (∃ sys : RefreshSystem, Runs.Reaches RefreshTx.machine.step Runs.always oneLogin sys ∧
      sys.store.log.map RefreshEvent.summary = [(true, 1, 9), (false, 1, 9), (true, 2, 9)]) ∧
    (Runs.replay RefreshTx.machine.step Runs.always oneLogin lapsedRun).map
      (fun sys => sys.store.log.map RefreshEvent.summary) = some [(true, 1, 9), (true, 1, 9)] := by
  let := AuthSettings.default
  have hdouble : (Runs.replay RefreshTx.machine.step Runs.always oneLogin doubleRun).map
      (fun sys => sys.store.log.map RefreshEvent.summary) =
        some [(true, 1, 9), (true, 1, 9)] := by
    decide +kernel
  have hlate : (Runs.replay RefreshTx.machine.step Runs.always oneLogin lateRun).map
      (fun sys => sys.store.log.map RefreshEvent.summary) =
        some [(true, 1, 9), (false, 1, 9), (true, 2, 9)] := by
    decide +kernel
  refine ⟨?_, Runs.replay_map_reaches hlate, by decide +kernel⟩
  obtain ⟨sys, hrun, hlog⟩ := Runs.replay_map_reaches hdouble
  refine ⟨sys, hrun, hlog, fun hrotated => ?_⟩
  have honce := hrotated.once
  have hjtis : sys.store.log.filterMap RefreshEvent.exchangedJti? = [1, 1] := by
    have hfst := congrArg (List.filterMap (fun e => if e.1 then some e.2.1 else none)) hlog
    rw [List.filterMap_map] at hfst
    rw [funext RefreshEvent.exchangedJti?_eq]
    exact hfst
  rw [hjtis] at honce
  exact absurd honce (by decide)

end Finguard
