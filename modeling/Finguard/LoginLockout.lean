import Finguard.BootstrapOwner

/-! The lockout of a login. The threshold is read before the password is checked, and a failed
check is counted after it. -/

namespace Finguard
open Sessions

class LoginSettings where
  maxLoginAttempts : ℕ
  lockoutDurationMinutes : ℕ

abbrev LoginSettings.default : LoginSettings := ⟨5, 30⟩

class PasswordHashing where
  verifyPassword : String → String → Bool
  dummyPasswordHash : String

structure LoginRequest where
  email : String
  password : String

inductive LoginError where
  | locked
  | invalidCredentials
  | accountDisabled
  | emailNotVerified
  | pendingVerification
deriving DecidableEq

structure AttemptCounter where
  attempts : ℕ
  expiry : Option Instant

/-- The counter is that of one email and one address. Beside it stands how many requests have
failed their check since the last reset. -/
structure LoginStore where
  now : Instant
  users : Table UserRow
  counter : Option AttemptCounter := none
  failed : ℕ := 0

inductive LoginPhase where
  | begun
  | admitted
  | refused
  | counted
  | verified
deriving DecidableEq

structure LoginTx where
  request : LoginRequest
  phase : LoginPhase := .begun

inductive LoginAction where
  | readAttempts
  | verify
  | incr
  | expire
  | clear
  | elapse (moment : Instant)
  | crash

namespace LoginStore

def attempts (s : LoginStore) : ℕ := (s.counter.map (·.attempts)).getD 0

/-- A key that is not there counts from zero, and has no expiry then. -/
def incr (s : LoginStore) : LoginStore :=
  match s.counter with
  | some counter => { s with counter := some { counter with attempts := counter.attempts + 1 } }
  | none => { s with counter := some ⟨1, none⟩ }

def expire [LoginSettings] (s : LoginStore) : LoginStore :=
  { s with counter := s.counter.map fun counter =>
      { counter with expiry := some (s.now + LoginSettings.lockoutDurationMinutes * 60) } }

def reset (s : LoginStore) : LoginStore := { s with counter := none, failed := 0 }

def expired (s : LoginStore) (moment : Instant) : Bool :=
  s.counter.any fun counter => counter.expiry.any (· < moment)

def elapse (s : LoginStore) (moment : Instant) : LoginStore :=
  if s.expired moment then { s.reset with now := moment } else { s with now := moment }

end LoginStore

/-- An account is looked up by the email alone, and some hash is verified in any case. -/
def checkPassword [PasswordHashing] (users : Table UserRow) (request : LoginRequest) :
    Option UserRow :=
  let user := users.find? (·.email == request.email)
  let hash := (user.map (·.hashedPassword)).getD PasswordHashing.dummyPasswordHash
  user.filter fun _ => PasswordHashing.verifyPassword request.password hash

def loginGates (user : UserRow) : Except LoginError Unit :=
  if ¬ user.isActive then .error .accountDisabled
  else if user.emailVerifiedAt = none then .error .emailNotVerified
  else if ¬ user.isVerified then .error .pendingVerification
  else .ok ()

namespace LoginTx
variable [LoginSettings] [PasswordHashing]

def advance (s : LoginStore) (_ : List LoginTx) (t : LoginTx) :
    LoginAction → Option (LoginStore × Option LoginTx)
  | .readAttempts =>
    match t.phase with
    | .begun => some (s, if LoginSettings.maxLoginAttempts ≤ s.attempts then none
        else some { t with phase := .admitted })
    | _ => none
  | .verify =>
    match t.phase with
    | .admitted =>
      match checkPassword s.users t.request with
      | none => some ({ s with failed := s.failed + 1 }, some { t with phase := .refused })
      | some user =>
        match loginGates user with
        | .ok _ => some (s, some { t with phase := .verified })
        | .error _ => some (s, none)
    | _ => none
  | .incr =>
    match t.phase with
    | .refused => some (s.incr, some { t with phase := .counted })
    | _ => none
  | .expire =>
    match t.phase with
    | .counted => some (s.expire, none)
    | _ => none
  | .clear =>
    match t.phase with
    | .verified => some (s.reset, none)
    | _ => none
  | .elapse moment => if s.now ≤ moment then some (s.elapse moment, some t) else none
  | .crash => some (s, none)

def machine : Machine LoginStore LoginTx LoginRequest LoginAction where
  start request := { request }
  advance := advance

end LoginTx

namespace LoginTx

/-- Admitted, and not yet counted. -/
def InFlight (t : LoginTx) : Bool := t.phase = .admitted ∨ t.phase = .refused

/-- Nobody is admitted beyond what the requests in flight may still count, and what has failed
is counted. -/
def Orderly [LoginSettings] (s : LoginStore) (others : List LoginTx) (t : LoginTx) :
    LoginAction → Prop
  | .readAttempts => s.attempts < LoginSettings.maxLoginAttempts →
      s.attempts + others.countP InFlight < LoginSettings.maxLoginAttempts
  | .crash => t.phase ≠ .refused
  | _ => True

instance [LoginSettings] (s : LoginStore) (others : List LoginTx) (t : LoginTx)
    (action : LoginAction) : Decidable (Orderly s others t action) := by
  cases action <;> unfold Orderly <;> infer_instance

/-- How many are admitted, and how many have failed without being counted. -/
def weight (t : LoginTx) : ℕ × ℕ :=
  match t.phase with
  | .admitted => (1, 0)
  | .refused => (0, 1)
  | _ => (0, 0)

theorem countP_inFlight (l : List LoginTx) :
    l.countP InFlight = (load weight l).1 + (load weight l).2 := by
  induction l with
  | nil => rfl
  | cons t l ih =>
    cases hphase : t.phase <;> simp [InFlight, weight, hphase, ih] <;> omega

variable [LoginSettings] [PasswordHashing]

/-- Every step that a login can take. -/
inductive Effect (s : LoginStore) (t : LoginTx) :
    LoginAction → LoginStore → Option LoginTx → Prop
  | locked (hphase : t.phase = .begun) : Effect s t .readAttempts s none
  | admitted (hphase : t.phase = .begun) (h : s.attempts < LoginSettings.maxLoginAttempts) :
    Effect s t .readAttempts s (some { t with phase := .admitted })
  | refused (hphase : t.phase = .admitted) : Effect s t .verify { s with failed := s.failed + 1 }
      (some { t with phase := .refused })
  | verified (hphase : t.phase = .admitted) :
    Effect s t .verify s (some { t with phase := .verified })
  | gated (hphase : t.phase = .admitted) : Effect s t .verify s none
  | counted (hphase : t.phase = .refused) :
    Effect s t .incr s.incr (some { t with phase := .counted })
  | expiring (hphase : t.phase = .counted) : Effect s t .expire s.expire none
  | cleared (hphase : t.phase = .verified) : Effect s t .clear s.reset none
  | elapsed {moment : Instant} : Effect s t (.elapse moment) (s.elapse moment) (some t)
  | crashed : Effect s t .crash s none

theorem advance_effect {s s' : LoginStore} {others : List LoginTx} {t : LoginTx}
    {action : LoginAction} {ended : Option LoginTx}
    (h : advance s others t action = some (s', ended)) : Effect s t action s' ended := by
  cases action with
  | readAttempts =>
    cases hphase : t.phase with
    | begun =>
      simp only [advance, hphase, Option.some.injEq, Prod.mk.injEq] at h
      obtain ⟨rfl, rfl⟩ := h
      by_cases hlocked : LoginSettings.maxLoginAttempts ≤ s.attempts
      · rw [if_pos hlocked]
        exact .locked hphase
      · rw [if_neg hlocked]
        exact .admitted hphase (by omega)
    | _ => simp [advance, hphase] at h
  | verify =>
    cases hphase : t.phase with
    | admitted =>
      cases hcheck : checkPassword s.users t.request with
      | none =>
        simp only [advance, hphase, hcheck, Option.some.injEq, Prod.mk.injEq] at h
        obtain ⟨rfl, rfl⟩ := h
        exact .refused hphase
      | some user =>
        cases hgates : loginGates user with
        | ok _ =>
          simp only [advance, hphase, hcheck, hgates, Option.some.injEq, Prod.mk.injEq] at h
          obtain ⟨rfl, rfl⟩ := h
          exact .verified hphase
        | error _ =>
          simp only [advance, hphase, hcheck, hgates, Option.some.injEq, Prod.mk.injEq] at h
          obtain ⟨rfl, rfl⟩ := h
          exact .gated hphase
    | _ => simp [advance, hphase] at h
  | incr =>
    cases hphase : t.phase with
    | refused =>
      simp only [advance, hphase, Option.some.injEq, Prod.mk.injEq] at h
      obtain ⟨rfl, rfl⟩ := h
      exact .counted hphase
    | _ => simp [advance, hphase] at h
  | expire =>
    cases hphase : t.phase with
    | counted =>
      simp only [advance, hphase, Option.some.injEq, Prod.mk.injEq] at h
      obtain ⟨rfl, rfl⟩ := h
      exact .expiring hphase
    | _ => simp [advance, hphase] at h
  | clear =>
    cases hphase : t.phase with
    | verified =>
      simp only [advance, hphase, Option.some.injEq, Prod.mk.injEq] at h
      obtain ⟨rfl, rfl⟩ := h
      exact .cleared hphase
    | _ => simp [advance, hphase] at h
  | elapse moment =>
    simp only [advance, Option.ite_none_right_eq_some, Option.some.injEq, Prod.mk.injEq] at h
    obtain ⟨-, rfl, rfl⟩ := h
    exact .elapsed
  | crash =>
    cases h
    exact .crashed

/-- What has failed is counted or on the way to be counted, and there is room for all that is
in flight. -/
structure Bounded (s : LoginStore) (inFlight : ℕ × ℕ) : Prop where
  room : s.attempts + inFlight.1 + inFlight.2 ≤ LoginSettings.maxLoginAttempts
  counted : s.failed ≤ s.attempts + inFlight.2

end LoginTx

namespace LoginStore

@[simp] theorem attempts_incr (s : LoginStore) : s.incr.attempts = s.attempts + 1 := by
  cases hcounter : s.counter <;> simp [incr, attempts, hcounter]

@[simp] theorem failed_incr (s : LoginStore) : s.incr.failed = s.failed := by
  cases hcounter : s.counter <;> simp [incr, hcounter]

@[simp] theorem attempts_expire [LoginSettings] (s : LoginStore) :
    s.expire.attempts = s.attempts := by
  cases hcounter : s.counter <;> simp [expire, attempts, hcounter]

@[simp] theorem failed_expire [LoginSettings] (s : LoginStore) : s.expire.failed = s.failed := rfl

end LoginStore

namespace LoginTx
variable [LoginSettings] {s s' : LoginStore} {t u : LoginTx} {rest : ℕ × ℕ}

theorem Bounded.reset (h : Bounded s rest) : Bounded s.reset rest := by
  have hroom := h.room
  constructor
  · simp only [LoginStore.reset, LoginStore.attempts, Option.map_none, Option.getD_none]
    omega
  · exact Nat.zero_le _

theorem Bounded.elapse (h : Bounded s rest) (moment : Instant) :
    Bounded (s.elapse moment) rest := by
  by_cases hexpired : s.expired moment
  · rw [LoginStore.elapse, if_pos hexpired]
    exact ⟨h.reset.room, h.reset.counted⟩
  · rw [LoginStore.elapse, if_neg hexpired]
    exact ⟨h.room, h.counted⟩

/-- A step may take from its own share, and has to count what it takes from the failed ones. -/
theorem Bounded.move (h : Bounded s (t.weight + rest))
    (hroom : s'.attempts + (u.weight.1 + u.weight.2) ≤ s.attempts + (t.weight.1 + t.weight.2))
    (hcounted : s'.failed + (s.attempts + t.weight.2) ≤ s.failed + (s'.attempts + u.weight.2)) :
    Bounded s' (u.weight + rest) := by
  have hroom' := h.room
  have hcounted' := h.counted
  simp only [Prod.fst_add, Prod.snd_add] at hroom' hcounted'
  constructor
  · simp only [Prod.fst_add, Prod.snd_add]
    omega
  · simp only [Prod.snd_add]
    omega

theorem Bounded.leave (h : Bounded s (t.weight + rest)) (hphase : t.phase ≠ .refused) :
    Bounded s rest := by
  have hnone : t.weight.2 = 0 := by
    cases ht : t.phase <;> simp_all [weight]
  have hgone : Bounded s (weight { t with phase := .counted } + rest) :=
    h.move (by simp [weight]) (by rw [hnone]; exact le_rfl)
  rwa [show weight { t with phase := .counted } = 0 from rfl, zero_add] at hgone

variable [PasswordHashing]

theorem metered : Metered machine Orderly weight Bounded where
  starts := by
    intro s rest request h
    have hzero : weight (machine.start request) = 0 := rfl
    rwa [hzero, zero_add]
  advances := by
    intro s others t action s' ended h hguard hadvance
    have hstep : advance s others t action = some (s', ended) := hadvance
    cases ended with
    | none =>
      rw [Option.toList_none, load_nil, zero_add]
      cases advance_effect hstep with
      | locked hphase => exact h.leave (by simp [hphase])
      | gated hphase => exact h.leave (by simp [hphase])
      | expiring hphase =>
        have hleft := h.leave (by simp [hphase])
        exact ⟨by simpa using hleft.room, by simpa using hleft.counted⟩
      | cleared hphase => exact (h.leave (by simp [hphase])).reset
      | crashed => exact h.leave hguard
    | some t' =>
      rw [Option.toList_some, load_cons, load_nil, add_zero]
      cases advance_effect hstep with
      | admitted hphase hopen =>
        have hroom : s.attempts + others.countP InFlight < LoginSettings.maxLoginAttempts :=
          hguard hopen
        rw [countP_inFlight] at hroom
        have hcounted := (h.leave (by simp [hphase])).counted
        constructor
        · simp only [weight, Prod.fst_add, Prod.snd_add]
          omega
        · simpa [weight] using hcounted
      | refused hphase =>
        exact h.move (by simp [weight, hphase, LoginStore.attempts])
          (by simp [weight, hphase, LoginStore.attempts]; omega)
      | verified hphase => exact h.move (by simp [weight, hphase]) (by simp [weight, hphase])
      | counted hphase =>
        exact h.move (by simp [weight, hphase]) (by simp [weight, hphase])
      | elapsed => exact h.elapse _

end LoginTx

/-- In an orderly run no more than the threshold fail their check between two resets. -/
theorem failed_le_max [LoginSettings] [PasswordHashing] {now : Instant} {users : Table UserRow}
    {sys : System LoginStore LoginTx}
    (hrun : Runs.Reaches LoginTx.machine.step (OnStep LoginTx.Orderly) ⟨{ now, users }, []⟩ sys) :
    sys.store.failed ≤ LoginSettings.maxLoginAttempts := by
  have hbounded := LoginTx.metered.run hrun ⟨Nat.zero_le _, Nat.zero_le _⟩
  have hroom := hbounded.room
  have hcounted := hbounded.counted
  omega

/-! A wrong password, tried by one request after the other and by six at once. -/

abbrev plainHashing : PasswordHashing := ⟨fun password hash => password == hash, ""⟩

def wrongLogin : LoginRequest := ⟨"a@b.co", "guess"⟩

def refusedLogin : List (Action LoginRequest LoginAction) :=
  [.start wrongLogin, .advance 0 .readAttempts, .advance 0 .verify, .advance 0 .incr,
    .advance 0 .expire]

/-- The sixth one is turned away. -/
theorem logins_in_turn :
    letI := LoginSettings.default
    letI := plainHashing
    ∃ sys : System LoginStore LoginTx,
      Runs.Reaches LoginTx.machine.step (OnStep LoginTx.Orderly)
        ⟨{ now := 0, users := ∅ }, []⟩ sys ∧
      (sys.store.failed, sys.sessions.length) = (5, 0) ∧
      sys.store.failed ≤ LoginSettings.maxLoginAttempts := by
  let := LoginSettings.default
  let := plainHashing
  have hreplay : (Runs.replay LoginTx.machine.step (OnStep LoginTx.Orderly)
      ⟨{ now := 0, users := ∅ }, []⟩
      ((List.replicate 5 refusedLogin).flatten ++ refusedLogin.take 2)).map
      (fun sys => (sys.store.failed, sys.sessions.length)) = some (5, 0) := by
    decide +kernel
  obtain ⟨sys, hrun, hsys⟩ := Runs.replay_map_reaches hreplay
  exact ⟨sys, hrun, hsys, failed_le_max hrun⟩

/-- All six read the counter before the first failure is counted. -/
def simultaneousLogins : List (Action LoginRequest LoginAction) :=
  List.replicate 6 (.start wrongLogin) ++ (List.range 6).map (.advance · .readAttempts) ++
    (List.range 6).map (.advance · .verify)

theorem simultaneous_failures :
    letI := LoginSettings.default
    letI := plainHashing
    ∃ sys : System LoginStore LoginTx,
      Runs.Reaches LoginTx.machine.step Runs.always ⟨{ now := 0, users := ∅ }, []⟩ sys ∧
      LoginSettings.maxLoginAttempts < sys.store.failed := by
  let := LoginSettings.default
  let := plainHashing
  have hreplay : (Runs.replay LoginTx.machine.step Runs.always ⟨{ now := 0, users := ∅ }, []⟩
      simultaneousLogins).map (·.store.failed) = some 6 := by
    decide +kernel
  obtain ⟨sys, hrun, hsys⟩ := Runs.replay_map_reaches hreplay
  refine ⟨sys, hrun, ?_⟩
  rw [hsys]
  decide

end Finguard
