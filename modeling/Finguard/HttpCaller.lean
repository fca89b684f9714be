import Finguard.AgentRegistry
import Finguard.Lib.Attempts
import Finguard.Lib.Dict
import Finguard.Lib.Json
import Finguard.Lib.Networks
import Finguard.Lib.Text

/-! The outbound HTTP tool of the agents: the address it checks, the socket it opens, and what it
makes of the replies. -/

namespace Finguard.Http
open Networks Attempts Text

inductive IpAddress where
  | v4 (ip : BitVec 32)
  | v6 (ip : BitVec 128)
deriving DecidableEq

def v4Net (a b c d length : ℕ) : Network 32 :=
  ⟨BitVec.ofNat 32 (((a * 256 + b) * 256 + c) * 256 + d), length⟩

/-- The groups after the last one given are zero. -/
def v6Net (groups : List ℕ) (length : ℕ) : Network 128 :=
  ⟨BitVec.ofNat 128 (groups.foldl (fun n group => n * 65536 + group) 0 *
    65536 ^ (8 - groups.length)), length⟩

/-! The tables of `ipaddress`. -/

def privateV4 : List (Network 32) :=
  [v4Net 0 0 0 0 8, v4Net 10 0 0 0 8, v4Net 127 0 0 0 8, v4Net 169 254 0 0 16,
    v4Net 172 16 0 0 12, v4Net 192 0 0 0 24, v4Net 192 0 0 170 31, v4Net 192 0 2 0 24,
    v4Net 192 168 0 0 16, v4Net 198 18 0 0 15, v4Net 198 51 100 0 24, v4Net 203 0 113 0 24,
    v4Net 240 0 0 0 4, v4Net 255 255 255 255 32]

def privateExceptionsV4 : List (Network 32) := [v4Net 192 0 0 9 32, v4Net 192 0 0 10 32]

def privateV6 : List (Network 128) :=
  [v6Net [0, 0, 0, 0, 0, 0, 0, 1] 128, v6Net [] 128, v6Net [0, 0, 0, 0, 0, 0xffff] 96,
    v6Net [0x64, 0xff9b, 1] 48, v6Net [0x100] 64, v6Net [0x2001] 23, v6Net [0x2001, 0xdb8] 32,
    v6Net [0x2002] 16, v6Net [0xfc00] 7, v6Net [0xfe80] 10]

def privateExceptionsV6 : List (Network 128) :=
  [v6Net [0x2001, 1, 0, 0, 0, 0, 0, 1] 128, v6Net [0x2001, 1, 0, 0, 0, 0, 0, 2] 128,
    v6Net [0x2001, 3] 32, v6Net [0x2001, 4, 0x112] 48, v6Net [0x2001, 0x20] 28,
    v6Net [0x2001, 0x30] 28]

def reservedV6 : List (Network 128) :=
  [v6Net [] 8, v6Net [0x100] 8, v6Net [0x200] 7, v6Net [0x400] 6, v6Net [0x800] 5,
    v6Net [0x1000] 4, v6Net [0x4000] 3, v6Net [0x6000] 3, v6Net [0x8000] 3, v6Net [0xa000] 3,
    v6Net [0xc000] 3, v6Net [0xe000] 4, v6Net [0xf000] 5, v6Net [0xf800] 6, v6Net [0xfe00] 9]

def loopbackV4 : Network 32 := v4Net 127 0 0 0 8
def linkLocalV4 : Network 32 := v4Net 169 254 0 0 16
def multicastV4 : Network 32 := v4Net 224 0 0 0 4
def reservedV4 : Network 32 := v4Net 240 0 0 0 4
def linkLocalV6 : Network 128 := v6Net [0xfe80] 10
def multicastV6 : Network 128 := v6Net [0xff00] 8

def isPrivateV4 (ip : BitVec 32) : Bool := listed privateV4 privateExceptionsV4 ip

/-- A private, loopback, link-local, reserved, multicast or unspecified address. -/
def nonPublicV4 (ip : BitVec 32) : Bool :=
  isPrivateV4 ip || loopbackV4.contains ip || linkLocalV4.contains ip || reservedV4.contains ip ||
    multicastV4.contains ip || ip == 0

def specialV6 (ip : BitVec 128) : Bool :=
  ip == 1 || linkLocalV6.contains ip || reservedV6.any (·.contains ip) ||
    multicastV6.contains ip || ip == 0

def mappedV6 : Network 128 := v6Net [0, 0, 0, 0, 0, 0xffff] 96

def ipv4Mapped (ip : BitVec 128) : Option (BitVec 32) :=
  if ip >>> 32 = 0xffff then some (ip.setWidth 32) else none

/-- The later releases of the library answer every question about a mapped address from the
address inside it, the earlier ones only `is_private`. -/
def nonPublic (readsMapped : Bool) : IpAddress → Bool
  | .v4 ip => nonPublicV4 ip
  | .v6 ip =>
    match ipv4Mapped ip with
    | some inner => if readsMapped then nonPublicV4 inner else isPrivateV4 inner || specialV6 ip
    | none => listed privateV6 privateExceptionsV6 ip || specialV6 ip

def internalV4 : List (Network 32) :=
  [v4Net 0 0 0 0 8, v4Net 10 0 0 0 8, v4Net 127 0 0 0 8, v4Net 169 254 0 0 16,
    v4Net 172 16 0 0 12, v4Net 192 168 0 0 16, v4Net 224 0 0 0 4, v4Net 240 0 0 0 4]

def internalV6 : List (Network 128) :=
  [v6Net [] 128, v6Net [0, 0, 0, 0, 0, 0, 0, 1] 128, v6Net [0x64, 0xff9b] 96, v6Net [0xfc00] 7,
    v6Net [0xfe80] 10, v6Net [0xff00] 8]

/-- An address that no outside host has, also when it is wrapped for a socket of the other
family: the machine itself, its neighbours, the metadata service, private networks, groups. -/
def Internal : IpAddress → Prop
  | .v4 ip => ∃ net ∈ internalV4, net.contains ip = true
  | .v6 ip => (∃ net ∈ internalV6, net.contains ip = true) ∨
      ∃ inner ∈ ipv4Mapped ip, ∃ net ∈ internalV4, net.contains inner = true

theorem nonPublicV4_of_internal {ip : BitVec 32} {net : Network 32} (hnet : net ∈ internalV4)
    (hip : net.contains ip = true) : nonPublicV4 ip = true := by
  by_cases hgroup : net = multicastV4
  · simp [nonPublicV4, ← hgroup, hip]
  · have hwithin : ∀ net ∈ internalV4, net = multicastV4 ∨
        (∃ outer ∈ privateV4, net.within outer = true) ∧
        ∀ e ∈ privateExceptionsV4, net.within e = false ∧ e.within net = false := by
      simp only [internalV4, List.forall_mem_cons]
      refine ⟨?_, ?_, ?_, ?_, ?_, ?_, .inl rfl, ?_, by simp⟩ <;> exact .inr (by decide)
    obtain ⟨hprivate, hapart⟩ := (hwithin net hnet).resolve_left hgroup
    simp [nonPublicV4, isPrivateV4, listed_of_within hprivate hapart hip]

theorem specialV6_of_internal {ip : BitVec 128} {net : Network 128} (hnet : net ∈ internalV6)
    (hip : net.contains ip = true) :
    listed privateV6 privateExceptionsV6 ip = true ∨ specialV6 ip = true := by
  by_cases hgroup : net = multicastV6
  · exact .inr (by simp [specialV6, ← hgroup, hip])
  · by_cases hwrapped : net = v6Net [0x64, 0xff9b] 96
    · have hreserved : reservedV6.any (·.contains ip) = true :=
        List.any_eq_true.mpr ⟨v6Net [] 8, by simp [reservedV6],
          Network.contains_of_within (by rw [hwrapped]; decide) hip⟩
      exact .inr (by simp [specialV6, hreserved])
    · have hwithin : ∀ net ∈ internalV6, net = multicastV6 ∨ net = v6Net [0x64, 0xff9b] 96 ∨
          (∃ outer ∈ privateV6, net.within outer = true) ∧
          ∀ e ∈ privateExceptionsV6, net.within e = false ∧ e.within net = false := by
        simp only [internalV6, List.forall_mem_cons]
        refine ⟨?_, ?_, .inr (.inl trivial), ?_, ?_, .inl rfl, by simp⟩ <;>
          exact .inr (.inr (by decide))
      obtain ⟨hprivate, hapart⟩ :=
        ((hwithin net hnet).resolve_left hgroup).resolve_left hwrapped
      exact .inl (listed_of_within hprivate hapart hip)

theorem mappedV6_contains {ip : BitVec 128} (h : ip >>> 32 = 0xffff) :
    mappedV6.contains ip = true := by
  have hbase : leading 96 mappedV6.base = 0xffff := by decide
  have hip : leading 96 ip = 0xffff := h
  change (leading 96 ip == leading 96 mappedV6.base) = true
  rw [hip, hbase]
  rfl

theorem not_internal_of_mapped {ip : BitVec 128} (hmapped : ip >>> 32 = 0xffff) :
    ∀ net ∈ internalV6, net.contains ip = false := by
  have hapart : ∀ net ∈ internalV6, net.within mappedV6 = false ∧ mappedV6.within net = false := by
    decide
  intro net hnet
  obtain ⟨hout, hback⟩ := hapart net hnet
  by_contra hcontains
  rcases Network.nested (by simpa using hcontains) (mappedV6_contains hmapped) with h | h
  · rw [hout] at h
    cases h
  · rw [hback] at h
    cases h

/-- What passes the check is no internal address, with either reading of mapped addresses. -/
theorem not_internal {readsMapped : Bool} {ip : IpAddress} (h : nonPublic readsMapped ip = false) :
    ¬ Internal ip := by
  cases ip with
  | v4 ip =>
    rintro ⟨net, hnet, hip⟩
    rw [nonPublic, nonPublicV4_of_internal hnet hip] at h
    cases h
  | v6 ip =>
    by_cases hmapped : ip >>> 32 = 0xffff
    · have hinner : ipv4Mapped ip = some (ip.setWidth 32) := if_pos hmapped
      rintro (⟨net, hnet, hip⟩ | ⟨inner, hsome, net, hnet, hip⟩)
      · rw [not_internal_of_mapped hmapped net hnet] at hip
        cases hip
      · obtain rfl : ip.setWidth 32 = inner := by simpa [hinner] using hsome
        cases readsMapped with
        | true =>
          simp [nonPublic, hinner, nonPublicV4_of_internal hnet hip] at h
        | false =>
          have hreserved : reservedV6.any (·.contains ip) = true :=
            List.any_eq_true.mpr ⟨v6Net [] 8, by simp [reservedV6],
              Network.contains_of_within (by decide)
                (mappedV6_contains hmapped)⟩
          simp [nonPublic, hinner, specialV6, hreserved] at h
    · have hnone : ipv4Mapped ip = none := if_neg hmapped
      rintro (⟨net, hnet, hip⟩ | ⟨inner, hsome, -⟩)
      · obtain ⟨hlisted, hspecial⟩ : listed privateV6 privateExceptionsV6 ip = false ∧
            specialV6 ip = false := by simpa [nonPublic, hnone] using h
        rcases specialV6_of_internal hnet hip with hyes | hyes
        · rw [hlisted] at hyes
          cases hyes
        · rw [hspecial] at hyes
          cases hyes
      · rw [hnone] at hsome
        cases hsome

/-! The tool. -/

structure ParsedUrl where
  scheme : String
  hostname : Option String
  port : Except String (Option ℕ)

/-- What the standard library makes of texts. An error is the text of a `ValueError`, which refuses
the call as the checks below do. -/
class NetText where
  urlparse : String → Except String ParsedUrl
  strIp : IpAddress → String
  repr : String → String
  readsMapped : Bool

/-- What `response.json()` comes to. -/
inductive Reading where
  | parsed (value : Json)
  | notJson
  | failed (error : String)

structure Response where
  statusCode : ℕ
  statusText : String
  json : Reading
  text : String
  url : String

inductive NetFailure where
  | timeout (message : String)
  | connect (message : String)
  | other (message : String)

inductive Failure where
  | status (response : Response)
  | net (failure : NetFailure)
  | blocked (message : String)

def Failure.message : Failure → String
  | .status response => response.statusText
  | .net (.timeout message) | .net (.connect message) | .net (.other message) => message
  | .blocked message => message

inductive DnsFailure where
  | gaierror
  | other (message : String)

structure Request where
  method : String
  url : String
  headers : List (String × String)
  params : List (String × String)
  json : Option Json

/-- A connection that the pool asks its backend for. -/
inductive Connect where
  | tcp (host : String) (port : ℕ)
  | unix (path : String)

structure Dial where
  address : IpAddress
  port : ℕ
deriving DecidableEq

inductive Event where
  | resolved (host : String) (port : ℕ) (answer : Except DnsFailure (List IpAddress))
  | exchanged (dials : List Dial) (request : Request) (answer : Except Failure Response)

/-- The resolver and the servers answer as they like, whatever they answered before, and the pool
asks for the connections that a request needs. -/
class Internet where
  getaddrinfo : List Event → String → ℕ → Except DnsFailure (List IpAddress)
  request : List Event → Request → List Connect × Except NetFailure Response

def allowedSchemes : List String := ["http", "https"]

def assertIpPublic [NetText] (host : String) (ip : IpAddress) : Except String Unit :=
  if nonPublic NetText.readsMapped ip then
    .error s!"blocked URL: {host} resolves to non-public address {NetText.strIp ip}"
  else .ok ()

/-- The address to pin: the first of the host's, when all are public. -/
def pinnedIp [NetText] (host : String) :
    Except DnsFailure (List IpAddress) → Except String IpAddress
  | .error .gaierror => .error s!"blocked URL: DNS resolution failed for {NetText.repr host}"
  | .error (.other message) => .error message
  | .ok [] => .error s!"blocked URL: no addresses resolved for {NetText.repr host}"
  | .ok (ip :: ips) => (forM (ip :: ips) (assertIpPublic host)).map fun _ => ip

def resolveAndPin [NetText] [Internet] (url : String) (log : List Event) :
    Except String IpAddress × List Event :=
  match NetText.urlparse url with
  | .error message => (.error message, log)
  | .ok parsed =>
    if parsed.scheme ∉ allowedSchemes then
      (.error s!"blocked URL scheme: {NetText.repr parsed.scheme}", log)
    else
      match parsed.hostname with
      | none | some "" => (.error "blocked URL: missing host", log)
      | some host =>
        match parsed.port with
        | .error message => (.error message, log)
        | .ok given =>
          let port := match given with
            | none | some 0 => if parsed.scheme = "https" then 443 else 80
            | some port => port
          let answer := Internet.getaddrinfo log host port
          (pinnedIp host answer, log ++ [.resolved host port answer])

/-- The backend of the pinned transport: the host's name is not looked up again. -/
def connect (pinned : IpAddress) : Connect → Except Failure Dial
  | .tcp _ port => .ok ⟨pinned, port⟩
  | .unix _ => .error (.blocked "blocked URL: unix-socket connections are not permitted")

def dial (pinned : IpAddress) : List Connect → List Dial × Option Failure
  | [] => ([], none)
  | wanted :: rest =>
    match connect pinned wanted with
    | .error exc => ([], some exc)
    | .ok made =>
      let (dials, failed) := dial pinned rest
      (made :: dials, failed)

def raiseForStatus (response : Response) : Except Failure Response :=
  if 200 ≤ response.statusCode ∧ response.statusCode < 300 then .ok response
  else .error (.status response)

def shouldRetry : Failure → Bool
  | .status response => response.statusCode == 429 || decide (500 ≤ response.statusCode)
  | .net (.timeout _) | .net (.connect _) => true
  | .net (.other _) | .blocked _ => false

def send [Internet] (pinned : IpAddress) (request : Request) (log : List Event) :
    Except Failure Response × List Event :=
  let (wanted, reply) := Internet.request log request
  let (dials, failed) := dial pinned wanted
  let answer := match failed with
    | some exc => .error exc
    | none => (reply.mapError .net).bind raiseForStatus
  (answer, log ++ [.exchanged dials request answer])

/-- `stop_after_attempt(4)`: three attempts after the first. -/
def moreAttempts : ℕ := 3

def sendWithRetry [Internet] (pinned : IpAddress) (request : Request) (log : List Event) :
    Except Failure Response × List Event :=
  let ended := Attempts.run shouldRetry (send pinned request) moreAttempts log
  (ended.1.answer, ended.2)

inductive Data where
  | json (value : Json)
  | text (s : String)
  | error (message : String)

structure HttpResult where
  statusCode : ℕ
  data : Data
  url : String

structure HttpArgs where
  method : String
  url : String
  headers : Option (List (String × String)) := none
  params : Option (List (String × String)) := none
  body : Option Json := none

def HttpArgs.request [Unicode] (args : HttpArgs) : Request where
  method := Unicode.upper args.method
  url := args.url
  headers := (args.headers.getD []).foldl (fun d p => Dict.set d p.1 p.2)
    [("Accept", "application/json"), ("Content-Type", "application/json")]
  params := args.params.getD []
  json := args.body

def result (url : String) : Except Failure Response → HttpResult
  | .error exc =>
    match exc with
    | .status response => ⟨response.statusCode, .error exc.message, url⟩
    | _ => ⟨0, .error exc.message, url⟩
  | .ok response =>
    match response.json with
    | .parsed value => ⟨response.statusCode, .json value, response.url⟩
    | .notJson => ⟨response.statusCode, .text response.text, response.url⟩
    | .failed message => ⟨0, .error message, url⟩

/-- `(urlparse(url).hostname or "").lower()` -/
def hostOf [NetText] [Unicode] (url : String) : String :=
  match NetText.urlparse url with
  | .error _ => ""
  | .ok parsed => Unicode.lower (parsed.hostname.getD "")

def httpCall [NetText] [Unicode] [Internet] (fxHost agentId : String) (args : HttpArgs)
    (log : List Event) : HttpResult × List Event :=
  match resolveAndPin args.url log with
  | (.error message, log) => (result args.url (.error (.blocked message)), log)
  | (.ok pinned, log) =>
    let host := hostOf args.url
    if host ∉ allowedHttpHosts fxHost agentId then
      (result args.url (.error (.blocked
        s!"blocked URL: host {NetText.repr host} not permitted for agent {NetText.repr agentId}")),
        log)
    else
      let (answer, log) := sendWithRetry pinned args.request log
      (result args.url answer, log)

section
variable [NetText] {url host : String} {log : List Event}

theorem forM_assertIpPublic {ips : List IpAddress}
    (h : forM ips (assertIpPublic host) = .ok ()) :
    ∀ ip ∈ ips, nonPublic NetText.readsMapped ip = false := by
  induction ips with
  | nil => simp
  | cons ip ips ih =>
    rw [List.forM_cons, assertIpPublic] at h
    by_cases hip : nonPublic NetText.readsMapped ip = true
    · rw [if_pos hip] at h
      cases h
    · rw [if_neg hip] at h
      intro ip' hmem
      rcases List.mem_cons.mp hmem with rfl | hmem
      · simpa using hip
      · exact ih h ip' hmem

/-- The pinned address is the first that the resolver gave, and all that it gave are public. -/
theorem pinnedIp_eq_ok {answer : Except DnsFailure (List IpAddress)} {ip : IpAddress}
    (h : pinnedIp host answer = .ok ip) : ∃ ips, answer = .ok (ip :: ips) ∧
      ∀ address ∈ ip :: ips, nonPublic NetText.readsMapped address = false := by
  cases answer with
  | error exc => cases exc <;> cases h
  | ok ips =>
    cases ips with
    | nil => cases h
    | cons first ips =>
      rw [pinnedIp] at h
      cases hall : forM (first :: ips) (assertIpPublic host) with
      | error exc =>
        rw [hall] at h
        cases h
      | ok _ =>
        rw [hall] at h
        cases h
        exact ⟨ips, rfl, forM_assertIpPublic hall⟩

variable [Internet]

/-- One question to the resolver at most, and an address only from a good answer to it. -/
theorem resolveAndPin_cases (url : String) (log : List Event) :
    (∃ message asked, resolveAndPin url log = (.error message, log ++ asked) ∧
        (asked = [] ∨ ∃ host port answer, asked = [.resolved host port answer])) ∨
      ∃ parsed host port ip ips, NetText.urlparse url = .ok parsed ∧
        parsed.scheme ∈ allowedSchemes ∧ parsed.hostname = some host ∧ host ≠ "" ∧
        (∀ address ∈ ip :: ips, nonPublic NetText.readsMapped address = false) ∧
        resolveAndPin url log = (.ok ip, log ++ [.resolved host port (.ok (ip :: ips))]) := by
  have hquiet : ∀ message, resolveAndPin url log = (.error message, log) →
      ∃ message asked, resolveAndPin url log = (.error message, log ++ asked) ∧
        (asked = [] ∨ ∃ host port answer, asked = [.resolved host port answer]) :=
    fun message h => ⟨message, [], by rw [h, List.append_nil], .inl rfl⟩
  cases hurl : NetText.urlparse url with
  | error message => exact .inl (hquiet message (by rw [resolveAndPin, hurl]))
  | ok parsed =>
    by_cases hscheme : parsed.scheme ∈ allowedSchemes
    · cases hhost : parsed.hostname with
      | none => exact .inl (hquiet _ (by simp [resolveAndPin, hurl, hscheme, hhost]; rfl))
      | some host =>
        by_cases hempty : host = ""
        · exact .inl (hquiet _ (by simp [resolveAndPin, hurl, hscheme, hhost, hempty]; rfl))
        · cases hport : parsed.port with
          | error message =>
            exact .inl (hquiet message (by simp [resolveAndPin, hurl, hscheme, hhost, hport]))
          | ok given =>
            obtain ⟨port, hask⟩ : ∃ port, resolveAndPin url log =
                (pinnedIp host (Internet.getaddrinfo log host port),
                  log ++ [.resolved host port (Internet.getaddrinfo log host port)]) := by
              simp only [resolveAndPin, hurl, hscheme, hhost, hport, not_true_eq_false, if_false]
              exact ⟨_, rfl⟩
            cases hpin : pinnedIp host (Internet.getaddrinfo log host port) with
            | error message =>
              exact .inl ⟨message, _, by rw [hask, hpin], .inr ⟨host, port, _, rfl⟩⟩
            | ok ip =>
              obtain ⟨ips, hanswer, hpublic⟩ := pinnedIp_eq_ok hpin
              exact .inr ⟨parsed, host, port, ip, ips, rfl, hscheme, hhost, hempty, hpublic,
                by rw [hask, hpin, hanswer]⟩
    · exact .inl (hquiet _ (by simp [resolveAndPin, hurl, hscheme]; rfl))

end

theorem dial_pinned (pinned : IpAddress) (wanted : List Connect) :
    ∀ made ∈ (dial pinned wanted).1, made.address = pinned := by
  induction wanted with
  | nil => simp [dial]
  | cons first rest ih =>
    cases first with
    | unix path => simp [dial, connect]
    | tcp host port => simpa [dial, connect] using ih

theorem raiseForStatus_settles (response : Response) :
    (raiseForStatus response = .ok response ∧ 200 ≤ response.statusCode ∧
        response.statusCode < 300) ∨
      raiseForStatus response = .error (.status response) ∧
        ¬ (200 ≤ response.statusCode ∧ response.statusCode < 300) := by
  by_cases h : 200 ≤ response.statusCode ∧ response.statusCode < 300
  · exact .inl ⟨if_pos h, h⟩
  · exact .inr ⟨if_neg h, h⟩

/-- An answer is good exactly where its status is. -/
def Consistent : Except Failure Response → Prop
  | .ok response => 200 ≤ response.statusCode ∧ response.statusCode < 300
  | .error (.status response) => ¬ (200 ≤ response.statusCode ∧ response.statusCode < 300)
  | .error _ => True

/-- One attempt of the request, with sockets to the pinned address only. -/
def Attempted (pinned : IpAddress) (request : Request) (event : Event)
    (answer : Except Failure Response) : Prop :=
  ∃ dials, event = .exchanged dials request answer ∧ (∀ made ∈ dials, made.address = pinned) ∧
    Consistent answer

theorem dial_blocked {pinned : IpAddress} {wanted : List Connect} {exc : Failure}
    (h : (dial pinned wanted).2 = some exc) : ∃ message, exc = .blocked message := by
  induction wanted with
  | nil => cases h
  | cons first rest ih =>
    cases first with
    | unix path =>
      cases h
      exact ⟨_, rfl⟩
    | tcp host port => exact ih h

section
variable [Internet]

theorem send_logged (pinned : IpAddress) (request : Request) (log : List Event) :
    ∃ event, (send pinned request log).2 = log ++ [event] ∧
      Attempted pinned request event (send pinned request log).1 := by
  rcases hrequest : Internet.request log request with ⟨wanted, reply⟩
  refine ⟨_, rfl, (dial pinned (Internet.request log request).1).1, rfl, dial_pinned _ _, ?_⟩
  cases hdial : (dial pinned wanted).2 with
  | some exc =>
    obtain ⟨message, rfl⟩ := dial_blocked hdial
    simp [send, hrequest, hdial, Consistent]
  | none =>
    cases reply with
    | error failure => simp [send, hrequest, hdial, Except.mapError, Except.bind, Consistent]
    | ok response =>
      rcases raiseForStatus_settles response with ⟨hstatus, hgood⟩ | ⟨hstatus, hbad⟩
      · simpa [send, hrequest, hdial, Except.mapError, Except.bind, hstatus, Consistent] using hgood
      · simpa [send, hrequest, hdial, Except.mapError, Except.bind, hstatus, Consistent] using hbad

/-- The exchanges of one call: each attempt but the last failed in a way that may pass. -/
def Exchanges (pinned : IpAddress) (request : Request) (events : List Event)
    (answer : Except Failure Response) : Prop :=
  ∃ errors passed final, events = passed ++ [final] ∧
    List.Forall₂ (fun event exc => Attempted pinned request event (.error exc)) passed errors ∧
    Attempted pinned request final answer ∧ (∀ exc ∈ errors, shouldRetry exc = true) ∧
    errors.length ≤ moreAttempts ∧
    ∀ exc, answer = .error exc → shouldRetry exc = true → errors.length = moreAttempts

theorem sendWithRetry_exchanges (pinned : IpAddress) (request : Request) (log : List Event) :
    ∃ events, (sendWithRetry pinned request log).2 = log ++ events ∧
      Exchanges pinned request events (sendWithRetry pinned request log).1 := by
  obtain ⟨errors, answer, htries, hlength, hsettles⟩ :=
    run_tries shouldRetry (send pinned request) moreAttempts log
  obtain ⟨passed, final, hlog, hfinal, hpassed⟩ :=
    htries.logged (f := id) (P := Attempted pinned request) (send_logged pinned request)
  refine ⟨passed ++ [final], ?_, errors, passed, final, rfl, hpassed, ?_, htries.retried, hlength,
    ?_⟩
  · simpa [sendWithRetry] using hlog
  · rw [sendWithRetry, hsettles.answer_eq]
    exact hfinal
  · intro exc hend hretry
    rw [sendWithRetry, hsettles.answer_eq] at hend
    exact hsettles.length_eq hend hretry

variable [NetText] [Unicode]

/-- A call either sends nothing, after one question at most, or it asks once, every address that
came back is public, and all of its attempts, four at most, go to the first of them, for a host that
the agent may call. The result is the last attempt's. -/
theorem httpCall_cases (fxHost agentId : String) (args : HttpArgs) (log : List Event) :
    ∃ sent, (httpCall fxHost agentId args log).2 = log ++ sent ∧
      (((httpCall fxHost agentId args log).1.statusCode = 0 ∧
          (sent = [] ∨ ∃ host port answer, sent = [.resolved host port answer])) ∨
        ∃ host port ip ips events answer,
          sent = .resolved host port (.ok (ip :: ips)) :: events ∧
          (∀ address ∈ ip :: ips, ¬ Internal address) ∧
          hostOf args.url = Unicode.lower host ∧
          hostOf args.url ∈ allowedHttpHosts fxHost agentId ∧
          Exchanges ip args.request events answer ∧
          (httpCall fxHost agentId args log).1 = result args.url answer) := by
  rcases resolveAndPin_cases args.url log with
    ⟨message, asked, hresolve, hasked⟩ |
    ⟨parsed, host, port, ip, ips, hurl, -, hhost, -, hpublic, hresolve⟩
  · exact ⟨asked, by rw [httpCall, hresolve], .inl ⟨by rw [httpCall, hresolve]; rfl, hasked⟩⟩
  · have hlower : hostOf args.url = Unicode.lower host := by simp [hostOf, hurl, hhost]
    by_cases hallowed : hostOf args.url ∈ allowedHttpHosts fxHost agentId
    · obtain ⟨events, hlog, hexchanges⟩ := sendWithRetry_exchanges ip args.request
        (log ++ [.resolved host port (.ok (ip :: ips))])
      refine ⟨.resolved host port (.ok (ip :: ips)) :: events, ?_,
        .inr ⟨host, port, ip, ips, events,
        _, rfl, fun address hmem => not_internal (hpublic address hmem), hlower, hallowed,
        hexchanges, ?_⟩⟩
      · simp [httpCall, hresolve, hallowed, hlog]
      · simp [httpCall, hresolve, hallowed]
    · refine ⟨[.resolved host port (.ok (ip :: ips))], ?_, .inl ⟨?_, .inr ⟨host, port, _, rfl⟩⟩⟩
      · simp [httpCall, hresolve, hallowed]
      · simp [httpCall, hresolve, hallowed, result]

end

theorem attempted_of_passed {pinned : IpAddress} {request : Request} {passed : List Event}
    {errors : List Failure}
    (h : List.Forall₂ (fun event exc => Attempted pinned request event (.error exc))
      passed errors) :
    ∀ event ∈ passed, ∃ answer, Attempted pinned request event answer := by
  induction h with
  | nil => simp
  | cons hattempt _ ih =>
    intro event hmem
    rcases List.mem_cons.mp hmem with rfl | hmem
    · exact ⟨_, hattempt⟩
    · exact ih event hmem

theorem Exchanges.mem {pinned : IpAddress} {request : Request} {events : List Event}
    {answer : Except Failure Response} (h : Exchanges pinned request events answer) :
    events.length ≤ moreAttempts + 1 ∧
      ∀ event ∈ events, ∃ answer, Attempted pinned request event answer := by
  obtain ⟨errors, passed, final, rfl, hpassed, hfinal, -, hlength, -⟩ := h
  have hsame := hpassed.length_eq
  refine ⟨by rw [List.length_append, List.length_singleton]; omega, ?_⟩
  intro event hmem
  rcases List.mem_append.mp hmem with hmem | hmem
  · exact attempted_of_passed hpassed event hmem
  · obtain rfl := List.mem_singleton.mp hmem
    exact ⟨answer, hfinal⟩

def Event.isExchange : Event → Bool
  | .exchanged .. => true
  | .resolved .. => false

section
variable [NetText] [Unicode] [Internet] {fxHost : String} {calls : List (String × HttpArgs)}
  {log : List Event}

/-- Every socket goes to the first address of the answer that came last before it, after three
exchanges at most that used the same answer; all of the answer is public, and the request is one
that an agent made to a host of its own list. -/
def DialsAsResolved (fxHost : String) (calls : List (String × HttpArgs))
    (log : List Event) : Prop :=
  ∀ before dials request answer after, log = before ++ .exchanged dials request answer :: after →
    ∃ start host port ip ips tried,
      before = start ++ .resolved host port (.ok (ip :: ips)) :: tried ∧
      tried.length ≤ moreAttempts ∧ (∀ event ∈ tried, event.isExchange = true) ∧
      (∀ made ∈ dials, made.address = ip) ∧ (∀ address ∈ ip :: ips, ¬ Internal address) ∧
      ∃ call ∈ calls, request = call.2.request ∧ hostOf call.2.url = Unicode.lower host ∧
        hostOf call.2.url ∈ allowedHttpHosts fxHost call.1

theorem DialsAsResolved.call (h : DialsAsResolved fxHost calls log) {call : String × HttpArgs}
    (hcall : call ∈ calls) :
    DialsAsResolved fxHost calls (httpCall fxHost call.1 call.2 log).2 := by
  obtain ⟨sent, hlog, hsent⟩ := httpCall_cases fxHost call.1 call.2 log
  intro before dials request answer after hsplit
  rw [hlog, List.append_eq_append_iff] at hsplit
  rcases hsplit with ⟨done, hbefore, hin⟩ | ⟨done, hbefore, hin⟩
  · rcases hsent with ⟨-, rfl | ⟨host, port, given, rfl⟩⟩ |
      ⟨host, port, ip, ips, events, last, rfl, hpublic, hhost, hallowed, hexchanges, -⟩
    · simp at hin
    · cases done <;> simp at hin
    · obtain ⟨hlength, hattempts⟩ := hexchanges.mem
      cases done with
      | nil => simp at hin
      | cons first tried =>
        obtain ⟨rfl, hevents⟩ : Event.resolved host port (.ok (ip :: ips)) = first ∧
            events = tried ++ .exchanged dials request answer :: after := by simpa using hin
        obtain ⟨_, _, hevent, hdials, -⟩ := hattempts (.exchanged dials request answer)
          (by simp [hevents])
        cases hevent
        refine ⟨log, host, port, ip, ips, tried, hbefore, ?_, ?_, hdials, hpublic, call, hcall,
          rfl, hhost, hallowed⟩
        · rw [hevents, List.length_append, List.length_cons] at hlength
          omega
        · intro event hmem
          obtain ⟨_, _, rfl, -⟩ := hattempts event (by simp [hevents, hmem])
          rfl
  · cases done with
    | nil =>
      rcases hsent with ⟨-, rfl | ⟨host, port, given, rfl⟩⟩ |
        ⟨host, port, ip, ips, events, last, rfl, -⟩ <;> simp at hin
    | cons first rest =>
      obtain ⟨rfl, -⟩ : Event.exchanged dials request answer = first ∧ after = rest ++ sent := by
        simpa using hin
      exact h before dials request answer rest hbefore

def runCalls (fxHost : String) (calls : List (String × HttpArgs)) (log : List Event) : List Event :=
  calls.foldl (fun log call => (httpCall fxHost call.1 call.2 log).2) log

/-- Whatever the resolver answers from one question to the next, and wherever the servers point. -/
theorem runCalls_dialsAsResolved (fxHost : String) (calls : List (String × HttpArgs)) :
    DialsAsResolved fxHost calls (runCalls fxHost calls []) := by
  have hrun : ∀ rest ⊆ calls, ∀ log, DialsAsResolved fxHost calls log →
      DialsAsResolved fxHost calls (runCalls fxHost rest log) := by
    intro rest
    induction rest with
    | nil => exact fun _ log h => h
    | cons call rest ih =>
      intro hsub log h
      exact ih (fun c hc => hsub (List.mem_cons_of_mem _ hc)) _ (h.call (hsub List.mem_cons_self))
  refine hrun calls (fun c hc => hc) [] ?_
  intro before dials request answer after hsplit
  simp at hsplit

end

end Finguard.Http
