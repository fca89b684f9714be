import Finguard.Lib.Base64
import Finguard.Lib.Scan
import Finguard.PythonValues

/-! Verifiable credentials: how a token is taken apart, and what may be raised on the way. -/

namespace Finguard
open Text

inductive VcException where
  | vcError (message : String)
  | raised (exc : PyException)
deriving DecidableEq

/-- The key of the certificate authority. -/
class CaKey where
  verify : (data signature : List UInt8) → Bool

def verifySignature [CaKey] (data signature : List UInt8) : Bool :=
  if signature.length ≠ 64 then false else CaKey.verify data signature

def b64urlDecode (segment : String) : Except PyException (List UInt8) :=
  let padding := List.replicate ((4 - segment.toList.length % 4) % 4) '='
  let padded := segment.toList ++ padding
  if padded.all (·.toNat < 128) then
    (Base64.decode? (padded.map Base64.ofUrlSafe)).elim (.error .valueError) .ok
  else .error .valueError

/-- A handler for value errors. -/
def onValueError {α : Type} (message : String) (x : Except PyException α) : Except VcException α :=
  x.mapError fun exc => if exc.isValueError then .vcError message else .raised exc

/-- No handler. -/
def unhandled {α : Type} (x : Except PyException α) : Except VcException α :=
  x.mapError .raised

def PyValue.isText : PyValue → String → Bool
  | .text s, t => s == t
  | _, _ => false

def splitDots (token : String) : List String :=
  (token.toList.splitOnP (· == '.')).map String.ofList

section
variable [DecimalDigits] [PythonJson] [CaKey]

/-- The JSON value of a segment. -/
def readSegment (segment : String) : Except PyException PyValue :=
  b64urlDecode segment >>= PythonJson.loads

def checkExp (exp : PyValue) (now : ℤ) : Except VcException Unit :=
  match intOfValue exp with
  | .ok n => if n < now then .error (.vcError "VC has expired") else .ok ()
  | .error exc =>
    if exc.isValueError ∨ exc = .typeError then do
      let text ← unhandled (PythonJson.repr exp)
      .error (.vcError s!"VC has a non-numeric exp claim: {text}")
    else .error (.raised exc)

def enforceExp (claims : PyValue) (now : ℤ) : Except VcException Unit := do
  let fields ← unhandled claims.asDict
  match dictGet fields "exp" .null with
  | .null => .ok ()
  | exp => checkExp exp now

def decodeVc (token : String) (now : ℤ) : Except VcException PyValue :=
  match splitDots token with
  | [headerSeg, payloadSeg, sigSeg] => do
    let header ← onValueError "Malformed VC header" (readSegment headerSeg)
    let fields ← unhandled header.asDict
    let alg := dictGet fields "alg" .null
    if alg.isText "EdDSA" then do
      let signingInput ← unhandled (encodeAscii (headerSeg ++ "." ++ payloadSeg))
      let signature ← onValueError "Malformed VC signature" (b64urlDecode sigSeg)
      if verifySignature signingInput signature then do
        let claims ← onValueError "Malformed VC payload" (readSegment payloadSeg)
        enforceExp claims now
        return claims
      else .error (.vcError "VC signature verification failed")
    else if alg.isText "HS256" then
      .error (.vcError ("Legacy HS256 VCs are no longer accepted (sunset 2026-06-23); " ++
        "re-sign via scripts.migrate_hs256_vcs"))
    else do
      let text ← unhandled (PythonJson.repr alg)
      .error (.vcError s!"Unsupported VC algorithm: {text}")
  | _ => .error (.vcError "Malformed VC token (expected three segments)")

def verifyVc (token : String) (now : ℤ) : Except VcException PyValue := decodeVc token now

end

/-- Whatever goes wrong is told as a `VCError`. -/
def Quiet {α : Type} (x : Except VcException α) : Prop := ∀ exc, x ≠ .error (.raised exc)

section quiet
variable {α β : Type} {a : α} {message : String} {x : Except PyException α}

theorem quiet_bind {y : Except VcException α} {k : α → Except VcException β} :
    Quiet (y >>= k) ↔ Quiet y ∧ ∀ a, y = .ok a → Quiet (k a) := by
  simp only [Quiet, ne_eq, Scan.bind_eq_error, not_or, forall_and, not_exists, not_and]
  exact and_congr_right' ⟨fun h a hy exc => h exc a hy, fun h exc a hy => h a hy exc⟩

theorem quiet_ok : Quiet (.ok a : Except VcException α) := nofun

theorem quiet_vcError : Quiet (.error (.vcError message) : Except VcException α) := nofun

theorem onValueError_eq_ok : onValueError message x = .ok a ↔ x = .ok a := by
  cases x <;> simp [onValueError, Except.mapError]

theorem quiet_onValueError :
    Quiet (onValueError message x) ↔ ∀ exc, x = .error exc → exc.isValueError := by
  cases x with
  | ok a => exact iff_of_true nofun nofun
  | error exc =>
    cases hvalue : exc.isValueError <;> simp [Quiet, onValueError, Except.mapError, hvalue]

theorem unhandled_eq_ok : unhandled x = .ok a ↔ x = .ok a := by
  cases x <;> simp [unhandled, Except.mapError]

theorem quiet_unhandled : Quiet (unhandled x) ↔ ∃ a, x = .ok a := by
  cases x <;> simp [Quiet, unhandled, Except.mapError]

theorem encodeAscii_eq_ok {s : String} {bytes : List UInt8} :
    encodeAscii s = .ok bytes ↔ isAscii s ∧ bytes = asciiBytes s := by
  unfold encodeAscii
  by_cases h : isAscii s
  · simp [h, eq_comm]
  · simp [h]

end quiet

section
variable [DecimalDigits] [PythonJson] [CaKey] {token : String} {claims : PyValue} {now : ℤ}

/-- The value is a number by the rules of `int`, or it can be shown in the message. -/
def ReadableExp (exp : PyValue) : Prop :=
  exp = .null ∨ (∃ n, intOfValue exp = .ok n) ∨
    intOfValue exp ≠ .error .overflowError ∧ ∃ text, PythonJson.repr exp = .ok text

def Unexpired (claims : PyValue) (now : ℤ) : Prop :=
  ∃ fields, claims = .object fields ∧ (dictGet fields "exp" .null = .null ∨
    ∃ n, intOfValue (dictGet fields "exp" .null) = .ok n ∧ now ≤ n)

omit [PythonJson] [CaKey] in
theorem intOfValue_error {exp : PyValue} {exc : PyException} (h : intOfValue exp = .error exc) :
    (exc.isValueError ∨ exc = .typeError) ∨ exc = .overflowError := by
  unfold intOfValue at h
  split at h
  case h_6 s =>
    cases hint : intOf? s with
    | none =>
      rw [hint] at h
      cases h
      exact .inl (.inl rfl)
    | some n =>
      rw [hint] at h
      cases h
  all_goals cases h
  · exact .inr rfl
  · exact .inl (.inl rfl)
  · exact .inl (.inr rfl)

omit [CaKey] in
theorem checkExp_eq_ok {exp : PyValue} :
    checkExp exp now = .ok () ↔ ∃ n, intOfValue exp = .ok n ∧ now ≤ n := by
  cases hint : intOfValue exp with
  | ok n =>
    simp only [checkExp, hint, Except.ok.injEq, exists_eq_left']
    by_cases hexpired : n < now
    · simp [hexpired]
    · simp [hexpired, not_lt.mp hexpired]
  | error exc =>
    refine iff_of_false ?_ nofun
    simp only [checkExp, hint]
    split
    · rw [Scan.bind_eq_ok]
      rintro ⟨_, -, h⟩
      cases h
    · nofun

omit [CaKey] in
theorem quiet_checkExp {exp : PyValue} : Quiet (checkExp exp now) ↔
    (∃ n, intOfValue exp = .ok n) ∨
      intOfValue exp ≠ .error .overflowError ∧ ∃ text, PythonJson.repr exp = .ok text := by
  cases hint : intOfValue exp with
  | ok n =>
    refine iff_of_true ?_ (.inl ⟨n, rfl⟩)
    simp only [checkExp, hint]
    split
    · exact quiet_vcError
    · exact quiet_ok
  | error exc =>
    simp only [checkExp, hint]
    rcases intOfValue_error hint with hcaught | rfl
    · have hother : exc ≠ .overflowError := by
        rintro rfl
        simp [PyException.isValueError] at hcaught
      rw [if_pos hcaught, quiet_bind, quiet_unhandled]
      simp [hother, quiet_vcError]
    · rw [if_neg (by simp [PyException.isValueError])]
      simp [Quiet]

omit [CaKey] in
theorem enforceExp_object (fields : PyFields) (now : ℤ) :
    dictGet fields "exp" .null = .null ∧ enforceExp (.object fields) now = .ok () ∨
      dictGet fields "exp" .null ≠ .null ∧
        enforceExp (.object fields) now = checkExp (dictGet fields "exp" .null) now := by
  have henforce : enforceExp (.object fields) now =
      match dictGet fields "exp" .null with
      | .null => .ok ()
      | exp => checkExp exp now := rfl
  rw [henforce]
  cases dictGet fields "exp" .null with
  | null => exact .inl ⟨rfl, rfl⟩
  | _ => exact .inr ⟨nofun, rfl⟩

omit [CaKey] in
theorem enforceExp_eq_ok : enforceExp claims now = .ok () ↔ Unexpired claims now := by
  cases claims with
  | object fields =>
    simp only [Unexpired, PyValue.object.injEq, exists_eq_left']
    rcases enforceExp_object fields now with ⟨hnull, hok⟩ | ⟨hexp, hcheck⟩
    · simp [hnull, hok]
    · simp only [hcheck, checkExp_eq_ok, hexp, false_or]
  | _ => exact iff_of_false nofun nofun

omit [CaKey] in
theorem quiet_enforceExp : Quiet (enforceExp claims now) ↔
    ∃ fields, claims = .object fields ∧ ReadableExp (dictGet fields "exp" .null) := by
  cases claims with
  | object fields =>
    simp only [ReadableExp, PyValue.object.injEq, exists_eq_left']
    rcases enforceExp_object fields now with ⟨hnull, hok⟩ | ⟨hexp, hcheck⟩
    · simp [hnull, hok, quiet_ok]
    · rw [hcheck, quiet_checkExp]
      simp [hexp]
  | _ =>
    refine iff_of_false (fun h => h .attributeError rfl) nofun

def signingInput (headerSeg payloadSeg : String) : List UInt8 :=
  asciiBytes (headerSeg ++ "." ++ payloadSeg)

/-- The first two segments carry a signature of the authority, which is the third one. -/
def Signed (headerSeg payloadSeg sigSeg : String) : Prop :=
  ∃ signature, b64urlDecode sigSeg = .ok signature ∧
    verifySignature (signingInput headerSeg payloadSeg) signature = true

/-- What a token has to be for its claims to be returned. -/
structure Presents (token : String) (now : ℤ) (claims : PyValue)
    (headerSeg payloadSeg sigSeg : String) (fields : PyFields) : Prop where
  segments : splitDots token = [headerSeg, payloadSeg, sigSeg]
  header : readSegment headerSeg = .ok (.object fields)
  alg : (dictGet fields "alg" .null).isText "EdDSA" = true
  signed : Signed headerSeg payloadSeg sigSeg
  payload : readSegment payloadSeg = .ok claims
  unexpired : Unexpired claims now

/-- Only value errors are raised, and what is read is of the shape that is looked into. -/
def ReadsAs (segment : String) (shape : PyFields → Prop) : Prop :=
  (∀ exc, readSegment segment = .error exc → exc.isValueError) ∧
    ∀ value, readSegment segment = .ok value → ∃ fields, value = .object fields ∧ shape fields

/-- The header is an object wherever it is one of JSON at all; under EdDSA the text that is signed
is ASCII, and so is the payload an object with a readable expiry. -/
def WellShaped (token : String) : Prop :=
  ∀ headerSeg payloadSeg sigSeg, splitDots token = [headerSeg, payloadSeg, sigSeg] →
    ReadsAs headerSeg fun header =>
      let alg := dictGet header "alg" .null
      if alg.isText "EdDSA" then
        isAscii (headerSeg ++ "." ++ payloadSeg) ∧
          (Signed headerSeg payloadSeg sigSeg → ReadsAs payloadSeg fun claims =>
            ReadableExp (dictGet claims "exp" .null))
      else alg.isText "HS256" ∨ ∃ text, PythonJson.repr alg = .ok text

/-- The verification has one of two outcomes. -/
structure Verifies (token : String) (now : ℤ) : Prop where
  quiet : Quiet (verifyVc token now)
  sound : ∀ claims, verifyVc token now = .ok claims →
    ∃ headerSeg payloadSeg sigSeg fields,
      Presents token now claims headerSeg payloadSeg sigSeg fields

omit [DecimalDigits] [CaKey] in
theorem quiet_readSegment {segment message : String} {α : Type} {k : PyValue → Except VcException α}
    {shape : PyFields → Prop}
    (hk : ∀ fields, Quiet (k (.object fields)) ↔ shape fields)
    (hother : ∀ value, (∀ fields, value ≠ .object fields) → ¬ Quiet (k value)) :
    Quiet (onValueError message (readSegment segment) >>= k) ↔ ReadsAs segment shape := by
  rw [quiet_bind, quiet_onValueError]
  refine and_congr_right' ?_
  simp only [onValueError_eq_ok]
  constructor
  · intro h value hvalue
    have hquiet := h value hvalue
    by_cases hobject : ∃ fields, value = .object fields
    · obtain ⟨fields, rfl⟩ := hobject
      exact ⟨fields, rfl, (hk fields).mp hquiet⟩
    · exact absurd hquiet (hother value (not_exists.mp hobject))
  · intro h value hvalue
    obtain ⟨fields, rfl, hshape⟩ := h value hvalue
    exact (hk fields).mpr hshape

omit [DecimalDigits] [PythonJson] [CaKey] in
theorem b64urlDecode_error {segment : String} {exc : PyException}
    (h : b64urlDecode segment = .error exc) : exc.isValueError := by
  simp only [b64urlDecode] at h
  split at h
  · cases hbytes : Base64.decode? ((segment.toList ++
        List.replicate ((4 - segment.toList.length % 4) % 4) '=').map Base64.ofUrlSafe) with
    | none =>
      rw [hbytes] at h
      cases h
      rfl
    | some bytes =>
      rw [hbytes] at h
      cases h
  · cases h
    rfl

omit [CaKey] in
theorem quiet_payload {payloadSeg message : String} :
    Quiet (onValueError message (readSegment payloadSeg) >>= fun claims =>
        enforceExp claims now >>= fun _ => .ok claims) ↔
      ReadsAs payloadSeg fun claims => ReadableExp (dictGet claims "exp" .null) := by
  refine quiet_readSegment (fun fields => ?_) (fun value hvalue => ?_)
  · rw [quiet_bind, quiet_enforceExp]
    simp [quiet_ok]
  · rw [quiet_bind, quiet_enforceExp]
    rintro ⟨⟨fields, rfl, -⟩, -⟩
    exact hvalue fields rfl

omit [DecimalDigits] [PythonJson] in
theorem quiet_signature {sigSeg : String} {bytes : List UInt8}
    {k : Except VcException PyValue} :
    Quiet (onValueError "Malformed VC signature" (b64urlDecode sigSeg) >>= fun signature =>
        if verifySignature bytes signature then k
        else .error (.vcError "VC signature verification failed")) ↔
      ((∃ signature, b64urlDecode sigSeg = .ok signature ∧ verifySignature bytes signature = true) →
        Quiet k) := by
  rw [quiet_bind, quiet_onValueError]
  simp only [onValueError_eq_ok]
  constructor
  · rintro ⟨-, h⟩ ⟨signature, hsignature, hverified⟩
    have hquiet := h signature hsignature
    rwa [if_pos hverified] at hquiet
  · intro h
    refine ⟨fun exc hexc => b64urlDecode_error hexc, fun signature hsignature => ?_⟩
    by_cases hverified : verifySignature bytes signature = true
    · rw [if_pos hverified]
      exact h ⟨signature, hsignature, hverified⟩
    · rw [if_neg hverified]
      exact quiet_vcError

theorem quiet_verifyVc : Quiet (verifyVc token now) ↔ WellShaped token := by
  by_cases hthree : ∃ headerSeg payloadSeg sigSeg, splitDots token = [headerSeg, payloadSeg, sigSeg]
  · obtain ⟨headerSeg, payloadSeg, sigSeg, hsegments⟩ := hthree
    have hshaped : WellShaped token ↔ ReadsAs headerSeg fun header =>
        let alg := dictGet header "alg" .null
        if alg.isText "EdDSA" then
          isAscii (headerSeg ++ "." ++ payloadSeg) ∧
            (Signed headerSeg payloadSeg sigSeg → ReadsAs payloadSeg fun claims =>
              ReadableExp (dictGet claims "exp" .null))
        else alg.isText "HS256" ∨ ∃ text, PythonJson.repr alg = .ok text := by
      simp [WellShaped, hsegments]
    simp only [hshaped, verifyVc, decodeVc, hsegments]
    refine quiet_readSegment (fun fields => ?_) (fun value hvalue => ?_)
    · change Quiet (if _ then _ else _) ↔ _
      by_cases heddsa : (dictGet fields "alg" .null).isText "EdDSA" = true
      · simp only [if_pos heddsa]
        rw [quiet_bind, quiet_unhandled]
        simp only [unhandled_eq_ok, encodeAscii_eq_ok]
        constructor
        · rintro ⟨⟨bytes, hascii, rfl⟩, hsigned⟩
          have hquiet := quiet_signature.mp (hsigned _ ⟨hascii, rfl⟩)
          exact ⟨hascii, fun h => quiet_payload.mp (hquiet h)⟩
        · rintro ⟨hascii, hsigned⟩
          refine ⟨⟨_, hascii, rfl⟩, ?_⟩
          rintro _ ⟨-, rfl⟩
          exact quiet_signature.mpr fun h => quiet_payload.mpr (hsigned h)
      · simp only [if_neg heddsa]
        by_cases hhs : (dictGet fields "alg" .null).isText "HS256" = true
        · simp [hhs, quiet_vcError]
        · simp only [if_neg hhs, quiet_bind, quiet_unhandled]
          simp [hhs, quiet_vcError]
    · intro hquiet
      cases value with
      | object fields => exact hvalue fields rfl
      | _ => exact hquiet .attributeError rfl
  · refine iff_of_true ?_ ?_
    · simp only [verifyVc, decodeVc]
      split
      · rename_i headerSeg payloadSeg sigSeg hsegments
        exact absurd ⟨headerSeg, payloadSeg, sigSeg, hsegments⟩ hthree
      · exact quiet_vcError
    · intro headerSeg payloadSeg sigSeg hsegments
      exact absurd ⟨headerSeg, payloadSeg, sigSeg, hsegments⟩ hthree

theorem verifyVc_sound (h : verifyVc token now = .ok claims) :
    ∃ headerSeg payloadSeg sigSeg fields,
      Presents token now claims headerSeg payloadSeg sigSeg fields := by
  simp only [verifyVc, decodeVc] at h
  split at h
  · rename_i headerSeg payloadSeg sigSeg hsegments
    simp only [Scan.bind_eq_ok, onValueError_eq_ok, unhandled_eq_ok, PyValue.asDict_eq_ok] at h
    obtain ⟨_, hheader, fields, rfl, h⟩ := h
    by_cases heddsa : (dictGet fields "alg" .null).isText "EdDSA" = true
    · simp only [if_pos heddsa, Scan.bind_eq_ok, onValueError_eq_ok, unhandled_eq_ok,
        encodeAscii_eq_ok] at h
      obtain ⟨_, ⟨-, rfl⟩, signature, hsignature, h⟩ := h
      by_cases hverified : verifySignature (asciiBytes (headerSeg ++ "." ++ payloadSeg)) signature
      · simp only [if_pos hverified, Scan.bind_eq_ok, onValueError_eq_ok] at h
        obtain ⟨claims', hpayload, _, hexp, h⟩ := h
        cases h
        exact ⟨headerSeg, payloadSeg, sigSeg, fields, hsegments, hheader, heddsa,
          ⟨signature, hsignature, hverified⟩, hpayload, enforceExp_eq_ok.mp hexp⟩
      · rw [if_neg hverified] at h
        cases h
    · rw [if_neg heddsa] at h
      split at h
      · cases h
      · obtain ⟨_, -, h⟩ := Scan.bind_eq_ok.mp h
        cases h
  · cases h

end

/-- A token is verified or refused by a `VCError` if and only if it is well shaped. -/
theorem verifies_iff [DecimalDigits] [PythonJson] [CaKey] {token : String} {now : ℤ} :
    Verifies token now ↔ WellShaped token := by
  constructor
  · intro h
    exact quiet_verifyVc.mp h.quiet
  · intro h
    exact ⟨quiet_verifyVc.mpr h, fun claims => verifyVc_sound⟩

abbrev CaKey.none : CaKey := ⟨fun _ _ => false⟩

/-- The header of this token is an empty array. -/
theorem array_header_raises :
    letI := DecimalDigits.ascii
    letI := PythonJson.knowing [("[]", .array [])]
    letI := CaKey.none
    verifyVc "W10.W10.W10" 0 = .error (.raised .attributeError) ∧ ¬ Verifies "W10.W10.W10" 0 := by
  let := DecimalDigits.ascii
  let := PythonJson.knowing [("[]", .array [])]
  let := CaKey.none
  have hraised : verifyVc "W10.W10.W10" 0 = .error (.raised .attributeError) := by
    rfl
  exact ⟨hraised, fun h => h.quiet _ hraised⟩

end Finguard
