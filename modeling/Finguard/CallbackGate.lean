import Finguard.AuditTrail
import Finguard.HttpCaller
import Finguard.Lib.Sha256

/-! Who may report a payment: the check in front of the callback, behind the proxy, and what it
means for the settlements that are recorded. -/

namespace Finguard.Callback
open Http Networks Text Transaction Transaction.Tx

inductive IpNetwork where
  | v4 (net : Network 32)
  | v6 (net : Network 128)

/-- An address is in no network of the other version. -/
def IpNetwork.contains : IpNetwork → IpAddress → Bool
  | .v4 net, .v4 ip => net.contains ip
  | .v6 net, .v6 ip => net.contains ip
  | _, _ => false

/-- What `ipaddress` and `str.encode` make of texts. -/
class NetworkText where
  ipAddress : String → Option IpAddress
  ipNetwork : String → Option IpNetwork
  encode : String → List UInt8

structure CallbackSettings where
  allowedIps : List String
  consumerSecret : String

structure CallbackRequest where
  xForwardedFor : Option String
  clientHost : Option String
  xDarajaSignature : Option String
  body : List UInt8

/-- It is broken where comparing the signatures raises. -/
inductive Verdict where
  | accepted
  | refused (status : ℕ) (detail : String)
  | broken
deriving DecidableEq

def sha256Digest (message : List UInt8) : List UInt8 :=
  let ws := Sha256.words (Sha256.pad (message.map UInt8.toNat))
  let s := Sha256.blocks (ws.length / 16) Sha256.initial ws
  ([s.a, s.b, s.c, s.d, s.e, s.f, s.g, s.h].flatMap (Sha256.bytesBE 4)).map UInt8.ofNat

/-- `hmac.new(key, message, sha256).hexdigest()` -/
def hmacHexdigest (key message : List UInt8) : String :=
  let short := if 64 < key.length then sha256Digest key else key
  let block := short ++ List.replicate (64 - short.length) 0
  let inner := sha256Digest (block.map (· ^^^ 0x36) ++ message)
  String.ofList (Sha256.hexdigest (block.map (· ^^^ 0x5c) ++ inner))

section
variable [NetworkText]

def mpesaAllowedNetworks (settings : CallbackSettings) : List IpNetwork :=
  settings.allowedIps.filterMap fun raw =>
    if strip raw = "" then none else NetworkText.ipNetwork (strip raw)

def callbackOriginIp (request : CallbackRequest) : Option String :=
  Audit.resolveClientIp
    { xForwardedFor := request.xForwardedFor, clientHost := request.clientHost }

def originAllowed (settings : CallbackSettings) (ipStr : Option String) : Bool :=
  match ipStr.bind NetworkText.ipAddress with
  | some ip => (mpesaAllowedNetworks settings).any (·.contains ip)
  | none => false

def computedSignature (settings : CallbackSettings) (request : CallbackRequest) : String :=
  hmacHexdigest (NetworkText.encode settings.consumerSecret) request.body

variable [Unicode]

def checkSignature (settings : CallbackSettings) (request : CallbackRequest) : Verdict :=
  match request.xDarajaSignature with
  | none => .refused 403 "Missing X-Daraja-Signature header"
  | some signature =>
    if isAscii (Unicode.lower signature) = false then .broken
    else if computedSignature settings request = Unicode.lower signature then .accepted
    else .refused 403 "Signature mismatch"

def verifyMpesaSignature (settings : CallbackSettings) (request : CallbackRequest) : Verdict :=
  let networks := mpesaAllowedNetworks settings
  let hasSecret := settings.consumerSecret ≠ ""
  if networks.isEmpty ∧ ¬ hasSecret then
    .refused 503 "M-Pesa callback authentication is not configured on this server"
  else if networks.isEmpty = false ∧ originAllowed settings (callbackOriginIp request) = false then
    .refused 403 "Callback origin is not in the M-Pesa allowlist"
  else if hasSecret ∧ (request.xDarajaSignature.isSome ∨ networks.isEmpty) then
    checkSignature settings request
  else .accepted

end

/-- The address of the other end of a connection, as the proxy writes it. -/
structure Peer where
  text : String
  nonempty : text ≠ ""
  plain : ',' ∉ text.toList
  trimmed : strip text = text

/-- The proxy sets the header, whatever the caller has put there. -/
def behindProxy (peer : Peer) (request : CallbackRequest) : CallbackRequest :=
  { request with xForwardedFor := some peer.text }

section
variable [NetworkText] [Unicode] {settings : CallbackSettings} {peer : Peer}
  {request : CallbackRequest}

def Allowlisted (settings : CallbackSettings) (peer : Peer) : Prop :=
  ∃ ip, NetworkText.ipAddress peer.text = some ip ∧
    ∃ net ∈ mpesaAllowedNetworks settings, net.contains ip = true

def SignedBy (settings : CallbackSettings) (request : CallbackRequest)
    (signature : String) : Prop :=
  Unicode.lower signature = computedSignature settings request

/-- With an allowlist the peer is on it, and a signature that is sent to a server with a secret is
right; without one there is a secret and the callback is signed with it. -/
def Authentic (settings : CallbackSettings) (peer : Peer) (request : CallbackRequest) : Prop :=
  if mpesaAllowedNetworks settings = [] then
    settings.consumerSecret ≠ "" ∧
      ∃ signature ∈ request.xDarajaSignature, SignedBy settings request signature
  else
    Allowlisted settings peer ∧ (settings.consumerSecret ≠ "" →
      ∀ signature ∈ request.xDarajaSignature, SignedBy settings request signature)

omit [NetworkText] [Unicode] in
theorem isAscii_hmac (key message : List UInt8) : isAscii (hmacHexdigest key message) = true := by
  have hdigits : ∀ width n, ∀ c ∈ hexChars width n, c.toNat < 128 := by
    intro width n
    induction width with
    | zero => simp [hexChars]
    | succ width ih =>
      intro c hc
      rcases List.mem_cons.mp hc with rfl | hc
      · have hdigit : ∀ k < 16, (Nat.digitChar k).toNat < 128 := by decide
        exact hdigit _ (Nat.mod_lt _ (by decide))
      · exact ih c hc
  rw [isAscii, hmacHexdigest, String.toList_ofList, List.all_eq_true]
  intro c hc
  obtain ⟨word, -, hword⟩ := List.mem_flatMap.mp hc
  simpa using hdigits 8 word c hword

omit [NetworkText] [Unicode] in
theorem callbackOriginIp_behindProxy :
    callbackOriginIp (behindProxy peer request) = some peer.text := by
  have hall : peer.text.toList.takeWhile (· ≠ ',') = peer.text.toList :=
    List.takeWhile_eq_self_iff.mpr fun c hc => by
      have hne : c ≠ ',' := fun h => peer.plain (h ▸ hc)
      simpa using hne
  have hfirst : Audit.firstForwarded peer.text = peer.text := by
    rw [Audit.firstForwarded, hall, String.ofList_toList, peer.trimmed]
  simp [callbackOriginIp, behindProxy, Audit.resolveClientIp, hfirst, peer.nonempty]

omit [Unicode] in
theorem originAllowed_iff :
    originAllowed settings (callbackOriginIp (behindProxy peer request)) = true ↔
      Allowlisted settings peer := by
  rw [callbackOriginIp_behindProxy, originAllowed, Option.bind_some, Allowlisted]
  cases NetworkText.ipAddress peer.text <;> simp

theorem checkSignature_iff : checkSignature settings request = .accepted ↔
    ∃ signature ∈ request.xDarajaSignature, SignedBy settings request signature := by
  unfold checkSignature
  cases hsent : request.xDarajaSignature with
  | none => simp
  | some signature =>
    by_cases hsigned : SignedBy settings request signature
    · have hascii : isAscii (Unicode.lower signature) = true := by
        rw [hsigned]
        exact isAscii_hmac _ _
      simpa [hascii, hsigned.symm] using hsigned
    · have hne : computedSignature settings request ≠ Unicode.lower signature := Ne.symm hsigned
      simp only [hne, Option.mem_some_iff, exists_eq_left', hsigned]
      split <;> simp

/-- Behind the proxy no header of the caller's stands in for the address it calls from. -/
theorem accepted_iff : verifyMpesaSignature settings (behindProxy peer request) = .accepted ↔
    Authentic settings peer request := by
  have hsignature : checkSignature settings (behindProxy peer request) = .accepted ↔
      ∃ signature ∈ request.xDarajaSignature, SignedBy settings request signature :=
    checkSignature_iff
  have horigin : originAllowed settings (callbackOriginIp (behindProxy peer request)) = true ↔
      Allowlisted settings peer := originAllowed_iff
  have hsent : (behindProxy peer request).xDarajaSignature = request.xDarajaSignature := rfl
  unfold verifyMpesaSignature Authentic
  by_cases hnetworks : mpesaAllowedNetworks settings = []
  · by_cases hsecret : settings.consumerSecret = ""
    · simp [hnetworks, hsecret]
    · simp [hnetworks, hsecret, hsignature]
  · have hlisted : (mpesaAllowedNetworks settings).isEmpty = false := by simpa using hnetworks
    rw [if_neg hnetworks, ← horigin]
    cases originAllowed settings (callbackOriginIp (behindProxy peer request)) with
    | false => simp [hlisted]
    | true =>
      by_cases hsecret : settings.consumerSecret = ""
      · simp [hlisted, hsecret]
      · cases hheader : request.xDarajaSignature with
        | none => simp [hlisted, hsecret, hsent, hheader]
        | some signature => simp [hlisted, hsecret, hsent, hheader, hsignature]

end

/-! Callbacks over time. -/

/-- What of a callback ends up in a settlement. -/
structure ReportedPayment where
  receipt : String
  amount : SettledAmount
  phone : String

def settled (txn : MpesaTransaction) : ReportedPayment := ⟨txn.transId, txn.amount, txn.phone⟩

/-- Every settlement that is there now was there before, or is of the kind. -/
def AddsOnly (kind : ReportedPayment → Prop) (db db' : Db) : Prop :=
  ∀ txn ∈ db'.mpesaTransactions.rows,
    (∃ old ∈ db.mpesaTransactions.rows, settled old = settled txn) ∨ kind (settled txn)

section
variable {kind : ReportedPayment → Prop}

instance : Std.Refl (AddsOnly kind) := ⟨fun _ txn htxn => .inl ⟨txn, htxn, rfl⟩⟩

instance : IsTrans Db (AddsOnly kind) := ⟨fun _ _ _ h h' txn htxn => by
  rcases h' txn htxn with ⟨old, hold, hsame⟩ | hkind
  · rw [← hsame]
    exact h old hold
  · exact .inr hkind⟩

theorem AddsOnly.of_eq {db db' : Db} (h : db'.mpesaTransactions = db.mpesaTransactions) :
    AddsOnly kind db db' := fun txn htxn => .inl ⟨txn, h ▸ htxn, rfl⟩

theorem AddsOnly.mono {kind' : ReportedPayment → Prop} {db db' : Db} (h : AddsOnly kind db db')
    (hkind : ∀ payment, kind payment → kind' payment) : AddsOnly kind' db db' :=
  fun txn htxn => (h txn htxn).imp_right (hkind _)

end

/-- How the body of a request is read. -/
class BodyText where
  parse : List UInt8 → Option PyFields

section
variable [NetworkText] [Unicode] [CallbackText] [BodyText]

/-- The endpoint: the payload is read and handled only once the check has passed. -/
def mpesaCallback (settings : CallbackSettings) (request : CallbackRequest)
    (stamp : CallbackStamp) (faults : Faults Site ServiceError) (db : Db) : Db :=
  match verifyMpesaSignature settings request with
  | .accepted =>
    match BodyText.parse request.body with
    | some body => (processMpesaCallback body stamp).committed faults db
    | none => db
  | _ => db

/-- The callback of a peer arrives, or the application does something else, which adds no
settlement. The list has what arrived. -/
inductive Callbacks (settings : CallbackSettings) (db : Db) :
    List (Peer × CallbackRequest) → Db → Prop
  | start : Callbacks settings db [] db
  | callback {arrived : List (Peer × CallbackRequest)} {db' : Db}
    (h : Callbacks settings db arrived db') (peer : Peer) (request : CallbackRequest)
    (stamp : CallbackStamp) (faults : Faults Site ServiceError) :
    Callbacks settings db (arrived ++ [(peer, request)])
      (mpesaCallback settings (behindProxy peer request) stamp faults db')
  | other {arrived : List (Peer × CallbackRequest)} {db' db'' : Db}
    (h : Callbacks settings db arrived db') (hnone : AddsOnly (fun _ => False) db' db'') :
    Callbacks settings db arrived db''

def Carries (data : PaymentMetadata) (amount : Number) (payment : ReportedPayment) : Prop :=
  varchar? 50 data.receipt.str = some payment.receipt ∧
    settledAmount? amount = some payment.amount ∧ varchar? 20 data.phone.str = some payment.phone

/-- An authentic callback among those that arrived reports the payment. -/
def Reported (settings : CallbackSettings) (arrived : List (Peer × CallbackRequest))
    (payment : ReportedPayment) : Prop :=
  ∃ peer request body data amount, (peer, request) ∈ arrived ∧ Authentic settings peer request ∧
    BodyText.parse request.body = some body ∧
    callbackPayment body = .ok (some (data, amount)) ∧ Carries data amount payment

variable {settings : CallbackSettings} {db db' : Db}

omit [NetworkText] [Unicode] [BodyText] in
theorem recordMpesaTransaction_keeps (body : PyFields) (data : PaymentMetadata) (amount : Number)
    (stamp : CallbackStamp) :
    Keeps (AddsOnly (Carries data amount)) (recordMpesaTransaction body data amount stamp) := by
  refine .bind (.site _) fun _ => .bind (.write ?_) fun _ => .bind (.read _) fun existing => ?_
  · intro db db' h
    split at h
    · cases h
    · exact .of_eq (congrArg _ (Option.some.inj h).symm)
  · cases existing with
    | some txn => exact .pure _
    | none =>
      refine .bind (.flush ?_) fun _ => .bind (.read _) fun txn =>
        .bind (.assign fun db => .of_eq rfl) fun _ => .bind (.site _) fun _ => .pure _
      intro db db' h
      obtain ⟨txn, table, hstored, -, hinsert, rfl⟩ := createMpesaTransaction_eq_some h
      intro row hrow
      rcases (Table.mem_of_insert hinsert).mp hrow with hold | rfl
      · exact .inl ⟨row, hold, rfl⟩
      · exact .inr ⟨hstored.transId, hstored.amount, hstored.phone⟩

omit [NetworkText] [Unicode] [BodyText] in
theorem processMpesaCallback_keeps (body : PyFields) (stamp : CallbackStamp) :
    Keeps (AddsOnly fun payment => ∃ data amount,
      callbackPayment body = .ok (some (data, amount)) ∧ Carries data amount payment)
      (processMpesaCallback body stamp) := by
  unfold processMpesaCallback
  cases hpayment : callbackPayment body with
  | error e => exact .raise _
  | ok payment =>
    cases payment with
    | none => exact .pure _
    | some payment =>
      obtain ⟨data, amount⟩ := payment
      exact (recordMpesaTransaction_keeps body data amount stamp).mono fun h =>
        h.mono fun payment hpayment => ⟨data, amount, rfl, hpayment⟩

theorem mpesaCallback_adds (peer : Peer) (request : CallbackRequest) (stamp : CallbackStamp)
    (faults : Faults Site ServiceError) :
    AddsOnly (Reported settings [(peer, request)]) db
      (mpesaCallback settings (behindProxy peer request) stamp faults db) := by
  unfold mpesaCallback
  cases hverdict : verifyMpesaSignature settings (behindProxy peer request) with
  | refused status detail => exact .of_eq rfl
  | broken => exact .of_eq rfl
  | accepted =>
    have hauthentic := accepted_iff.mp hverdict
    cases hbody : BodyText.parse (behindProxy peer request).body with
    | none => exact .of_eq rfl
    | some body =>
      rcases committed_cases (processMpesaCallback body stamp) faults db with hsame | ⟨txn?, hok⟩
      · exact .of_eq (congrArg _ hsame)
      · refine ((processMpesaCallback_keeps body stamp).of_ok hok).mono fun payment h => ?_
        obtain ⟨data, amount, hpayment, hcarries⟩ := h
        exact ⟨peer, request, body, data, amount, List.mem_singleton_self _, hauthentic, hbody,
          hpayment, hcarries⟩

theorem Reported.of_subset {arrived arrived' : List (Peer × CallbackRequest)}
    (hsub : arrived ⊆ arrived') {payment : ReportedPayment}
    (h : Reported settings arrived payment) : Reported settings arrived' payment := by
  obtain ⟨peer, request, body, data, amount, hmem, hauthentic⟩ := h
  exact ⟨peer, request, body, data, amount, hsub hmem, hauthentic⟩

/-- However many callbacks arrive, from whomever and with whatever headers, and whatever fails on
the way: a settlement that was not there at the start has the receipt, the amount and the phone that
an authentic one of these callbacks reported. -/
theorem settlements_authentic {arrived : List (Peer × CallbackRequest)}
    (h : Callbacks settings db arrived db') : AddsOnly (Reported settings arrived) db db' := by
  induction h with
  | start => exact .of_eq rfl
  | @callback arrived db' _ peer request stamp faults ih =>
    have hbefore : AddsOnly (Reported settings (arrived ++ [(peer, request)])) db db' :=
      ih.mono fun payment => Reported.of_subset (List.subset_append_left _ _)
    have hnew : AddsOnly (Reported settings (arrived ++ [(peer, request)])) db'
        (mpesaCallback settings (behindProxy peer request) stamp faults db') :=
      (mpesaCallback_adds peer request stamp faults).mono fun payment =>
        Reported.of_subset (List.subset_append_right _ _)
    exact IsTrans.trans _ _ _ hbefore hnew
  | other _ hnone ih =>
    exact IsTrans.trans _ _ _ ih (hnone.mono fun _ hfalse => hfalse.elim)

end

/-- One block of addresses, as the provider publishes it. -/
abbrev NetworkText.provider : NetworkText where
  ipAddress text :=
    if text = "196.201.214.200" then some (.v4 0xc4c9d6c8#32)
    else if text = "8.8.8.8" then some (.v4 0x08080808#32) else none
  ipNetwork text := if text = "196.201.214.0/24" then some (.v4 (v4Net 196 201 214 0 24)) else none
  encode _ := []

abbrev BodyText.paid : BodyText := ⟨fun _ => some (paidCallback (.int 1500))⟩

def providerPeer : Peer := ⟨"196.201.214.200", by decide, by decide, by decide⟩

def otherPeer : Peer := ⟨"8.8.8.8", by decide, by decide, by decide⟩

/-- A payment is reported from elsewhere with the provider's address in a header, then by the
provider. -/
theorem forged_origin_adds_nothing :
    letI := NetworkText.provider
    letI := Unicode.ascii
    letI := CallbackText.plain
    letI := BodyText.paid
    let settings : CallbackSettings := ⟨["196.201.214.0/24"], ""⟩
    let request : CallbackRequest := ⟨some "196.201.214.200", none, none, []⟩
    let forged := mpesaCallback settings (behindProxy otherPeer request) ⟨7, 20⟩ noFaults {}
    let paid := mpesaCallback settings (behindProxy providerPeer request) ⟨8, 21⟩ noFaults forged
    forged.mpesaTransactions.rows.map (·.transId) = [] ∧
      paid.mpesaTransactions.rows.map (·.transId) = ["NLJ7RT61SV"] ∧
      AddsOnly (Reported settings [(otherPeer, request), (providerPeer, request)]) {} paid := by
  let := NetworkText.provider
  let := Unicode.ascii
  let := CallbackText.plain
  let := BodyText.paid
  refine ⟨by decide +kernel, by decide +kernel, ?_⟩
  exact settlements_authentic (.callback (.callback .start otherPeer _ _ _) providerPeer _ _ _)

end Finguard.Callback
