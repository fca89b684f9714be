import Finguard.RefreshRotation

/-! What stands between a request and its handler: the double-submitted token, the access token
and what has become of it since, the account, and its permissions. Logouts and refreshes take
turns with the requests that they mean to stop. -/

namespace Finguard.Gate
open Expiring Sessions

inductive SignedToken where
  | access (claims : AccessToken)
  | refresh (claims : RefreshToken)
  | reset (claims : ResetToken)

def SignedToken.jti : SignedToken → Uuid
  | .access claims => claims.jti
  | .refresh claims => claims.jti
  | .reset claims => claims.jti

def SignedToken.exp : SignedToken → ℤ
  | .access claims => claims.exp
  | .refresh claims => claims.exp
  | .reset claims => claims.exp

/-- The signatures of the service. Every token is made with a name of its own, so the name tells
the time to which it is good. -/
class TokenCodec where
  verify : String → Option SignedToken
  expOf : Uuid → ℤ
  verify_exp : ∀ {raw token}, verify raw = some token → token.exp = expOf token.jti

class GateSettings where
  csrfEnabled : Bool

structure HttpRequest where
  method : String
  path : String
  csrfCookie : Option String := none
  csrfHeader : Option String := none
  accessCookie : Option String := none
  refreshCookie : Option String := none
  bearer : Option String := none

/-! The double-submitted token. -/

def safeMethods : List String := ["GET", "HEAD", "OPTIONS", "TRACE"]

def csrfExemptPaths : List String :=
  ["/api/v1/finance/mpesa/callback", "/api/v1/identity/token", "/api/v1/identity/register"]

/-- `compare_digest` takes no text outside ASCII. -/
inductive CsrfError where
  | rejected (detail : String)
  | typeError
deriving DecidableEq

def validateTokens (cookieVal headerVal : Option String) : Option CsrfError :=
  let cookie := cookieVal.getD ""
  let header := headerVal.getD ""
  if cookie = "" ∨ header = "" then some (.rejected "CSRF validation failed: missing token")
  else if Text.isAscii cookie = false ∨ Text.isAscii header = false then some .typeError
  else if cookie ≠ header then some (.rejected "CSRF validation failed: token mismatch")
  else none

def HttpRequest.csrfError (request : HttpRequest) : Option CsrfError :=
  validateTokens request.csrfCookie request.csrfHeader

def csrfRequired [GateSettings] (method path : String) : Bool :=
  GateSettings.csrfEnabled && !safeMethods.contains method && !csrfExemptPaths.contains path

/-- The cookie of a browser goes before the header of a program. -/
def HttpRequest.presented (request : HttpRequest) : Option String :=
  match request.accessCookie with
  | none | some "" => request.bearer
  | cookie => cookie

/-! The machine. -/

inductive Endpoint where
  | guarded (required : List Permission)
  | refresh
  | logout

inductive ApiPhase where
  | decoded
  | unrevoked (checkedAt : Instant)
  | known (checkedAt : Instant) (account : Account)

structure ApiTx where
  request : HttpRequest
  required : List Permission
  claims : AccessToken
  phase : ApiPhase := .decoded

inductive GateTx where
  | arriving (endpoint : Endpoint) (request : HttpRequest)
  | api (t : ApiTx)
  | refreshing (t : RefreshTx)
  | leaving (pending : List String)

inductive GateEvent where
  | revoked (jti : Uuid)
  | passed (jti : Uuid) (checkedAt : Instant)
  | handled (t : ApiTx) (account : Account) (checkedAt : Instant)

structure GateStore extends RefreshStore where
  trail : List GateEvent := []

inductive GateAction where
  | enter
  | checkBlacklist
  | checkUser
  | authorise
  | refresh (action : RefreshAction)
  | revokeNext
  | wait (now : Instant)
  | outside (accounts : List Account)
  | crash

def mayAct (account : Account) (claims : AccessToken) : Bool :=
  account.isActive && tokenIssuedAfterPasswordChange (some claims.iat) account.passwordChangedAt

section
variable [GateSettings] [TokenCodec]

def enter (s : GateStore) (request : HttpRequest) : Endpoint → Option GateTx
  | .guarded required => do
    let raw ← request.presented
    match TokenCodec.verify raw with
    | some (.access claims) =>
      if unexpired claims.exp s.now then some (.api { request, required, claims }) else none
    | _ => none
  | .refresh => do
    if request.csrfError ≠ none then none
    else
      let raw ← request.refreshCookie
      match TokenCodec.verify raw with
      | some (.refresh claims) => some (.refreshing { token := claims })
      | _ => none
  | .logout => some (.leaving (request.presented.toList ++ request.refreshCookie.toList))

/-- What a step of a refresh leaves on the trail. -/
def refreshTrail (now : Instant) (token : RefreshToken) (action : RefreshAction)
    (ended : Option RefreshTx) : List GateEvent :=
  match action, ended with
  | .checkBlacklist, some t =>
    match t.phase with
    | .unused => [.passed token.jti now]
    | _ => []
  | .blacklist, some t =>
    match t.phase with
    | .issuing _ => [.revoked token.jti]
    | _ => []
  | _, _ => []

def blacklistToken (s : GateStore) (raw : String) : GateStore :=
  match TokenCodec.verify raw with
  | none => s
  | some token =>
    if unexpired token.exp s.now then
      { s with
        toAuthStore := s.toAuthStore.blacklistJti token.jti token.exp
        trail := s.trail ++ [.revoked token.jti] }
    else s

def advance [AuthSettings] (s : GateStore) (_ : List GateTx) :
    GateTx → GateAction → Option (GateStore × Option GateTx)
  | t, .wait now => if s.now ≤ now then some ({ s with now }, some t) else none
  | t, .outside accounts => some ({ s with accounts }, some t)
  | _, .crash => some (s, none)
  | .arriving endpoint request, .enter =>
    if csrfRequired request.method request.path ∧ request.csrfError ≠ none then some (s, none)
    else some (s, enter s request endpoint)
  | .api t, .checkBlacklist =>
    match t.phase with
    | .decoded =>
      if s.hasKey (.blacklist t.claims.jti) then some (s, none)
      else some ({ s with trail := s.trail ++ [.passed t.claims.jti s.now] },
        some (.api { t with phase := .unrevoked s.now }))
    | _ => none
  | .api t, .checkUser =>
    match t.phase with
    | .unrevoked checkedAt =>
      match s.getById t.claims.sub with
      | none => some (s, none)
      | some account => some (s, if mayAct account t.claims then
          some (.api { t with phase := .known checkedAt account }) else none)
    | _ => none
  | .api t, .authorise =>
    match t.phase with
    | .known checkedAt account =>
      if t.required.all (hasPermission account.role) then
        some ({ s with trail := s.trail ++ [.handled t account checkedAt] }, none)
      else some (s, none)
    | _ => none
  | .refreshing t, .refresh action =>
    match RefreshTx.advance s.toRefreshStore [] t action with
    | none => none
    | some (store, ended) =>
      some (⟨store, s.trail ++ refreshTrail s.now t.token action ended⟩, ended.map .refreshing)
  | .leaving pending, .revokeNext =>
    match pending with
    | [] => some (s, none)
    | raw :: rest => some (blacklistToken s raw, some (.leaving rest))
  | _, _ => none

def machine [AuthSettings] : Machine GateStore GateTx (Endpoint × HttpRequest) GateAction where
  start arrived := .arriving arrived.1 arrived.2
  advance := advance

/-- Every step that a request can take. -/
inductive Effect [AuthSettings] (s : GateStore) : GateTx → GateStore → Option GateTx → Prop
  | ended {t : GateTx} : Effect s t s none
  | waited {t : GateTx} {now : Instant} (hnow : s.now ≤ now) : Effect s t { s with now } (some t)
  | outside {t : GateTx} {accounts : List Account} : Effect s t { s with accounts } (some t)
  | entered {endpoint : Endpoint} {request : HttpRequest}
    (hcsrf : csrfRequired request.method request.path = true → request.csrfError = none) :
    Effect s (.arriving endpoint request) s (enter s request endpoint)
  | passed {t : ApiTx} (hphase : t.phase = .decoded)
    (hkey : s.hasKey (.blacklist t.claims.jti) = false) :
    Effect s (.api t) { s with trail := s.trail ++ [.passed t.claims.jti s.now] }
      (some (.api { t with phase := .unrevoked s.now }))
  | known {t : ApiTx} {checkedAt : Instant} {account : Account}
    (hphase : t.phase = .unrevoked checkedAt) (haccount : s.getById t.claims.sub = some account)
    (hmay : mayAct account t.claims = true) :
    Effect s (.api t) s (some (.api { t with phase := .known checkedAt account }))
  | handled {t : ApiTx} {checkedAt : Instant} {account : Account}
    (hphase : t.phase = .known checkedAt account)
    (hall : t.required.all (hasPermission account.role) = true) :
    Effect s (.api t) { s with trail := s.trail ++ [.handled t account checkedAt] } none
  | refreshed {t : RefreshTx} {action : RefreshAction} {store : RefreshStore}
    {ended : Option RefreshTx} (h : RefreshTx.Effect s.toRefreshStore t action store ended) :
    Effect s (.refreshing t) ⟨store, s.trail ++ refreshTrail s.now t.token action ended⟩
      (ended.map .refreshing)
  | revoked {raw : String} {rest : List String} :
    Effect s (.leaving (raw :: rest)) (blacklistToken s raw) (some (.leaving rest))

theorem advance_effect [AuthSettings] {s s' : GateStore} {others : List GateTx} {t : GateTx}
    {action : GateAction}
    {ended : Option GateTx} (h : advance s others t action = some (s', ended)) :
    Effect s t s' ended := by
  cases action with
  | wait now =>
    by_cases hnow : s.now ≤ now
    · cases t <;>
      · simp only [advance, if_pos hnow, Option.some.injEq, Prod.mk.injEq] at h
        obtain ⟨rfl, rfl⟩ := h
        exact .waited hnow
    · cases t <;> simp [advance, hnow] at h
  | outside accounts => cases t <;> (cases h; exact .outside)
  | crash => cases t <;> (cases h; exact .ended)
  | enter =>
    cases t with
    | arriving endpoint request =>
      by_cases hcsrf : csrfRequired request.method request.path ∧ request.csrfError ≠ none
      · rw [advance, if_pos hcsrf] at h
        cases h
        exact .ended
      · rw [advance, if_neg hcsrf] at h
        cases h
        exact .entered fun hrequired => by
          by_contra herror
          exact hcsrf ⟨hrequired, herror⟩
    | _ => cases h
  | checkBlacklist =>
    cases t with
    | api t =>
      cases hphase : t.phase with
      | decoded =>
        cases hkey : s.hasKey (.blacklist t.claims.jti) with
        | true =>
          simp only [advance, hphase, hkey, if_true, Option.some.injEq, Prod.mk.injEq] at h
          obtain ⟨rfl, rfl⟩ := h
          exact .ended
        | false =>
          simp only [advance, hphase, hkey, Bool.false_eq_true, if_false, Option.some.injEq,
            Prod.mk.injEq] at h
          obtain ⟨rfl, rfl⟩ := h
          exact .passed hphase hkey
      | _ => simp [advance, hphase] at h
    | _ => cases h
  | checkUser =>
    cases t with
    | api t =>
      cases hphase : t.phase with
      | unrevoked checkedAt =>
        cases haccount : s.getById t.claims.sub with
        | none =>
          simp only [advance, hphase, haccount, Option.some.injEq, Prod.mk.injEq] at h
          obtain ⟨rfl, rfl⟩ := h
          exact .ended
        | some account =>
          simp only [advance, hphase, haccount, Option.some.injEq, Prod.mk.injEq] at h
          obtain ⟨rfl, rfl⟩ := h
          by_cases hmay : mayAct account t.claims = true
          · rw [if_pos hmay]
            exact .known hphase haccount hmay
          · rw [if_neg hmay]
            exact .ended
      | _ => simp [advance, hphase] at h
    | _ => cases h
  | authorise =>
    cases t with
    | api t =>
      cases hphase : t.phase with
      | known checkedAt account =>
        by_cases hall : t.required.all (hasPermission account.role) = true
        · simp only [advance, hphase, hall, if_true, Option.some.injEq, Prod.mk.injEq] at h
          obtain ⟨rfl, rfl⟩ := h
          exact .handled hphase hall
        · simp [advance, hphase, hall] at h
          obtain ⟨rfl, rfl⟩ := h
          exact .ended
      | _ => simp [advance, hphase] at h
    | _ => cases h
  | refresh action =>
    cases t with
    | refreshing t =>
      cases hstep : RefreshTx.advance s.toRefreshStore [] t action with
      | none => simp [advance, hstep] at h
      | some next =>
        obtain ⟨store, out⟩ := next
        simp only [advance, hstep, Option.some.injEq, Prod.mk.injEq] at h
        obtain ⟨rfl, rfl⟩ := h
        exact .refreshed (RefreshTx.advance_effect hstep)
    | _ => cases h
  | revokeNext =>
    cases t with
    | leaving pending =>
      cases pending with
      | nil =>
        cases h
        exact .ended
      | cons raw rest =>
        cases h
        exact .revoked
    | _ => cases h

/-! What a run keeps. -/

/-- After the end of its session a token passes the check only once its time is up. -/
def Final : GateEvent → GateEvent → Prop
  | .revoked jti, .passed other checkedAt =>
    other = jti → (TokenCodec.expOf jti : Instant) < checkedAt
  | _, _ => True

/-- What a request to an endpoint has shown. -/
structure Shown (request : HttpRequest) (claims : AccessToken) : Prop where
  csrf : csrfRequired request.method request.path = true → request.csrfError = none
  token : ∃ raw, request.presented = some raw ∧ TokenCodec.verify raw = some (.access claims)

/-- The account that the token names, in good standing. -/
def Stands (claims : AccessToken) (account : Account) : Prop :=
  account.id = claims.sub ∧ mayAct account claims = true

/-- What has to be there before a handler is called. -/
structure Mediated (before : List GateEvent) (t : ApiTx) (account : Account) (checkedAt : Instant) :
    Prop where
  shown : Shown t.request t.claims
  passed : .passed t.claims.jti checkedAt ∈ before
  stands : Stands t.claims account
  permitted : ∀ permission ∈ t.required, hasPermission account.role permission = true

structure Guarded (s : GateStore) : Prop where
  keys : ∀ jti, .revoked jti ∈ s.trail →
    s.redis.Lasts (.blacklist jti) (TokenCodec.expOf jti : Instant)
  final : s.trail.Pairwise Final
  mediated : ∀ before t account checkedAt after,
    s.trail = before ++ .handled t account checkedAt :: after → Mediated before t account checkedAt

def Keeps (s : GateStore) : GateTx → Prop
  | .api t => Shown t.request t.claims ∧
    match t.phase with
    | .decoded => True
    | .unrevoked checkedAt => .passed t.claims.jti checkedAt ∈ s.trail
    | .known checkedAt account =>
      .passed t.claims.jti checkedAt ∈ s.trail ∧ Stands t.claims account
  | .refreshing t => t.token.exp = TokenCodec.expOf t.token.jti
  | _ => True

section
variable {s s' : GateStore}

theorem Keeps.mono {t : GateTx} (h : Keeps s t) (htrail : s.trail ⊆ s'.trail) : Keeps s' t := by
  cases t with
  | api t =>
    obtain ⟨hshown, hphase⟩ := h
    refine ⟨hshown, ?_⟩
    cases hcase : t.phase with
    | decoded => trivial
    | unrevoked checkedAt =>
      rw [hcase] at hphase
      exact htrail hphase
    | known checkedAt account =>
      rw [hcase] at hphase
      exact ⟨htrail hphase.1, hphase.2⟩
  | refreshing t => exact h
  | _ => trivial

/-- With one more event, a call of a handler is an earlier one or that event. -/
theorem Guarded.mediated_append (h : Guarded s) {event : GateEvent}
    (hlast : ∀ t account checkedAt, event = .handled t account checkedAt →
      Mediated s.trail t account checkedAt) {before after : List GateEvent} {t : ApiTx}
    {account : Account} {checkedAt : Instant}
    (hsplit : s.trail ++ [event] = before ++ .handled t account checkedAt :: after) :
    Mediated before t account checkedAt := by
  rcases List.eq_nil_or_concat after with rfl | ⟨rest, last, rfl⟩
  · obtain ⟨rfl, hevent⟩ := List.append_inj' hsplit rfl
    exact hlast t account checkedAt (List.singleton_inj.mp hevent)
  · have hsplit : s.trail ++ [event] =
        (before ++ .handled t account checkedAt :: rest) ++ [last] := by simpa using hsplit
    obtain ⟨htrail, -⟩ := List.append_inj' hsplit rfl
    exact h.mediated before t account checkedAt rest htrail

/-- A step that revokes nothing and lets nothing pass. -/
theorem Guarded.same (h : Guarded s) (htrail : s'.trail = s.trail) (hredis : s'.redis = s.redis) :
    Guarded s' := by
  constructor
  · rw [htrail, hredis]
    exact h.keys
  · rw [htrail]
    exact h.final
  · rw [htrail]
    exact h.mediated

omit [GateSettings] [TokenCodec] in
theorem exp_le_blacklistTtl (exp : ℤ) (now : Instant) :
    (exp : Instant) ≤ now + blacklistTtl exp now := by
  have hfloor := Int.floor_le now
  have hmax : exp - ⌊now⌋ ≤ blacklistTtl exp now := le_max_right _ _
  have hcast : ((exp - ⌊now⌋ : ℤ) : Instant) ≤ (blacklistTtl exp now : ℤ) := by exact_mod_cast hmax
  push_cast at hcast
  linarith

/-- The key of a revoked token stays for as long as the token is good, whatever other keys come. -/
theorem Guarded.keys_set (h : Guarded s) {key : AuthKey} {expiry : Instant}
    (hkey : ∀ jti, key = .blacklist jti → (TokenCodec.expOf jti : Instant) ≤ expiry) :
    ∀ jti, .revoked jti ∈ s.trail →
      (s.redis.set key expiry).Lasts (.blacklist jti) (TokenCodec.expOf jti : Instant) := by
  intro jti hmem
  by_cases hsame : key = .blacklist jti
  · rw [hsame]
    exact Keys.lasts_set (hkey jti hsame)
  · exact (h.keys jti hmem).set_of_ne (Ne.symm hsame)

/-- One token more is revoked. -/
theorem Guarded.revoke (h : Guarded s) {jti : Uuid} {store : RefreshStore}
    (hredis : store.redis = (s.redis.set (.blacklist jti)
      (s.now + blacklistTtl (TokenCodec.expOf jti) s.now))) :
    Guarded ⟨store, s.trail ++ [.revoked jti]⟩ := by
  have hexpiry := exp_le_blacklistTtl (TokenCodec.expOf jti) s.now
  constructor
  · intro other hmem
    change store.redis.Lasts _ _
    rw [hredis]
    rcases List.mem_append.mp hmem with hmem | hmem
    · refine h.keys_set ?_ other hmem
      rintro _ ⟨⟩
      exact hexpiry
    · obtain rfl : other = jti := by simpa using hmem
      exact Keys.lasts_set hexpiry
  · refine List.pairwise_append.mpr ⟨h.final, List.pairwise_singleton _ _, ?_⟩
    intro earlier _ later hlater
    obtain rfl := List.mem_singleton.mp hlater
    cases earlier <;> trivial
  · intro before t account checkedAt after hsplit
    exact h.mediated_append (by simp) hsplit

/-- A token passes the check: no session of it has ended, or its time is up. -/
theorem Guarded.pass (h : Guarded s) {jti : Uuid} {store : RefreshStore}
    (hkey : s.hasKey (.blacklist jti) = false) (hredis : store.redis = s.redis) :
    Guarded ⟨store, s.trail ++ [.passed jti s.now]⟩ := by
  constructor
  · intro other hmem
    change store.redis.Lasts _ _
    rw [hredis]
    exact h.keys other (by simpa using hmem)
  · refine List.pairwise_append.mpr ⟨h.final, List.pairwise_singleton _ _, ?_⟩
    intro earlier hearlier later hlater
    obtain rfl := List.mem_singleton.mp hlater
    cases earlier with
    | revoked other =>
      rintro rfl
      by_contra hearly
      have hstands := (h.keys jti hearlier).stands (not_lt.mp hearly)
      have hgone : s.redis.stands s.now (.blacklist jti) = false := hkey
      rw [hgone] at hstands
      cases hstands
    | _ => trivial
  · intro before t account checkedAt after hsplit
    exact h.mediated_append (by simp) hsplit

theorem Guarded.handle (h : Guarded s) {t : ApiTx} {account : Account} {checkedAt : Instant}
    (hmediated : Mediated s.trail t account checkedAt) :
    Guarded { s with trail := s.trail ++ [.handled t account checkedAt] } := by
  constructor
  · intro other hmem
    exact h.keys other (by simpa using hmem)
  · refine List.pairwise_append.mpr ⟨h.final, List.pairwise_singleton _ _, ?_⟩
    intro earlier _ later hlater
    obtain rfl := List.mem_singleton.mp hlater
    cases earlier <;> trivial
  · intro before u other moment after hsplit
    refine h.mediated_append ?_ hsplit
    rintro _ _ _ ⟨⟩
    exact hmediated

theorem keeps_enter {endpoint : Endpoint} {request : HttpRequest}
    (hcsrf : csrfRequired request.method request.path = true → request.csrfError = none)
    {t : GateTx} (h : enter s request endpoint = some t) : Keeps s t := by
  cases endpoint with
  | guarded required =>
    simp only [enter, Option.bind_eq_bind, Option.bind_eq_some_iff] at h
    obtain ⟨raw, hraw, h⟩ := h
    split at h
    · rename_i claims hverify
      split at h
      · cases h
        exact ⟨⟨hcsrf, raw, hraw, hverify⟩, trivial⟩
      · cases h
    · cases h
  | refresh =>
    by_cases herror : request.csrfError = none
    · simp only [enter, herror, ne_eq, not_true_eq_false, if_false, Option.bind_eq_bind,
        Option.bind_eq_some_iff] at h
      obtain ⟨raw, hraw, h⟩ := h
      split at h
      · rename_i claims hverify
        cases h
        exact TokenCodec.verify_exp hverify
      · cases h
    · simp [enter, herror] at h
  | logout =>
    cases h
    trivial

theorem Guarded.blacklistToken (h : Guarded s) (raw : String) : Guarded (blacklistToken s raw) := by
  unfold Gate.blacklistToken
  cases hverify : TokenCodec.verify raw with
  | none => exact h
  | some token =>
    by_cases hexp : unexpired token.exp s.now = true
    · simp only [hexp, if_true]
      refine h.revoke ?_
      rw [← TokenCodec.verify_exp hverify]
      rfl
    · simp only [hexp]
      exact h

omit [GateSettings] in
theorem trail_blacklistToken (s : GateStore) (raw : String) :
    s.trail ⊆ (blacklistToken s raw).trail := by
  unfold Gate.blacklistToken
  cases TokenCodec.verify raw with
  | none => exact fun _ h => h
  | some token =>
    by_cases hexp : unexpired token.exp s.now = true
    · simp only [hexp, if_true]
      exact List.subset_append_left _ _
    · simp only [hexp]
      exact fun _ h => h

variable [AuthSettings]

theorem Guarded.refreshed (h : Guarded s) {t : RefreshTx} {action : RefreshAction}
    {store : RefreshStore} {ended : Option RefreshTx}
    (hexp : t.token.exp = TokenCodec.expOf t.token.jti)
    (heffect : RefreshTx.Effect s.toRefreshStore t action store ended) :
    Guarded ⟨store, s.trail ++ refreshTrail s.now t.token action ended⟩ ∧
      ∀ t' ∈ ended, t'.token = t.token := by
  have hquiet : ∀ store : RefreshStore, store.redis = s.redis → Guarded ⟨store, s.trail ++ []⟩ :=
    fun store hredis => h.same (List.append_nil _) hredis
  cases heffect with
  | ended =>
    refine ⟨?_, by simp⟩
    cases action <;> exact hquiet _ rfl
  | decoded =>
    refine ⟨?_, by simp⟩
    cases action <;> exact hquiet _ rfl
  | familyChecked hphase hkey => exact ⟨hquiet _ rfl, by simp⟩
  | replayed hphase => exact ⟨hquiet _ rfl, by simp⟩
  | unused hphase hkey => exact ⟨h.pass hkey rfl, by simp⟩
  | rejected hphase =>
    refine ⟨?_, by simp⟩
    have hkeys : ∀ jti, AuthKey.revokedFamily t.token.familyId = .blacklist jti →
        (TokenCodec.expOf jti : Instant) ≤ s.now + familyTtl := by
      intro jti hsame
      cases hsame
    have hsame : Guarded ⟨s.toRefreshStore, s.trail ++ []⟩ := hquiet _ rfl
    exact ⟨hsame.keys_set hkeys, hsame.final, hsame.mediated⟩
  | known hphase => exact ⟨hquiet _ rfl, by simp⟩
  | consumed hphase =>
    refine ⟨h.revoke ?_, by simp⟩
    rw [← hexp]
    rfl
  | exchanged hphase => exact ⟨hquiet _ rfl, by simp⟩
  | waited hnow => exact ⟨hquiet _ rfl, by simp⟩
  | outside => exact ⟨hquiet _ rfl, by simp⟩

theorem secure : Secure machine (fun _ _ _ => True) Guarded Keeps (fun _ _ => True) where
  symm _ := trivial
  starts _ := trivial
  starts_apart _ := trivial
  advances := by
    intro s others t action s' ended hI ht hothers _ hadvance
    have hframe : s.trail ⊆ s'.trail → ∀ u ∈ others, Keeps s' u :=
      fun htrail u hu => (hothers u hu).1.mono htrail
    have hown : s.trail ⊆ s'.trail → Guarded s' → (∀ t' ∈ ended, Keeps s' t') →
        Guarded s' ∧ (∀ t' ∈ ended, Keeps s' t' ∧ ∀ u ∈ others, True) ∧ ∀ u ∈ others, Keeps s' u :=
      fun htrail hguarded hkeeps =>
        ⟨hguarded, fun t' ht' => ⟨hkeeps t' ht', fun _ _ => trivial⟩, hframe htrail⟩
    have hstep : advance s others t action = some (s', ended) := hadvance
    cases advance_effect hstep with
    | ended => exact hown (fun _ h => h) hI (by simp)
    | waited hnow =>
      refine hown (fun _ h => h) (hI.same rfl rfl) ?_
      rintro _ ⟨⟩
      exact ht.mono fun _ h => h
    | outside =>
      refine hown (fun _ h => h) (hI.same rfl rfl) ?_
      rintro _ ⟨⟩
      exact ht.mono fun _ h => h
    | entered hcsrf => exact hown (fun _ h => h) hI fun t' ht' => keeps_enter hcsrf ht'
    | passed hphase hkey =>
      refine hown (List.subset_append_left _ _) (hI.pass hkey rfl) ?_
      rintro _ ⟨⟩
      exact ⟨ht.1, by simp⟩
    | known hphase haccount hmay =>
      refine hown (fun _ h => h) hI ?_
      rintro _ ⟨⟩
      obtain ⟨hshown, hpassed⟩ := ht
      rw [hphase] at hpassed
      have hid := List.find?_some haccount
      exact ⟨hshown, hpassed, by simpa using hid, hmay⟩
    | handled hphase hall =>
      refine hown (List.subset_append_left _ _) (hI.handle ?_) (by simp)
      obtain ⟨hshown, hpassed⟩ := ht
      rw [hphase] at hpassed
      exact ⟨hshown, hpassed.1, hpassed.2, List.all_eq_true.mp hall⟩
    | refreshed heffect =>
      obtain ⟨hguarded, htoken⟩ := hI.refreshed ht heffect
      refine hown (List.subset_append_left _ _) hguarded ?_
      intro t' ht'
      obtain ⟨u, hu, rfl⟩ := Option.map_eq_some_iff.mp ht'
      rw [Keeps, htoken u hu]
      exact ht
    | revoked =>
      refine hown (trail_blacklistToken s _) (hI.blacklistToken _) ?_
      rintro _ ⟨⟩
      trivial

end

end

/-- One access token is in use. -/
abbrev TokenCodec.single : TokenCodec where
  verify raw := if raw = "a" then some (.access ⟨7, 1, 100, 1900⟩) else none
  expOf _ := 1900
  verify_exp := by
    intro raw token h
    by_cases hraw : raw = "a"
    · rw [if_pos hraw] at h
      cases h
      rfl
    · rw [if_neg hraw] at h
      cases h

/-- The token is used, its session is ended, and the token is refused. -/
def endedSession : List (Action (Endpoint × HttpRequest) GateAction) :=
  let browse : HttpRequest :=
    { method := "GET", path := "/api/v1/finance/ledger", accessCookie := some "a" }
  let leave : HttpRequest :=
    { method := "POST", path := "/api/v1/identity/logout", csrfCookie := some "t",
      csrfHeader := some "t", accessCookie := some "a" }
  [.start (.guarded [.financeRead], browse), .advance 0 .enter, .advance 0 .checkBlacklist,
    .advance 0 .checkUser, .advance 0 .authorise, .start (.logout, leave), .advance 0 .enter,
    .advance 0 .revokeNext, .advance 0 .revokeNext, .start (.guarded [.financeRead], browse),
    .advance 0 .enter, .advance 0 .checkBlacklist]

end Finguard.Gate
