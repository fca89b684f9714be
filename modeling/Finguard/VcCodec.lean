import Finguard.VcIssuer

/-! Verifiable credentials: how a token is put together, and that it is taken apart again. -/

namespace Finguard
open Text

/-- Two values that are equal but for the order of the entries in a dictionary. -/
inductive PyValue.Same : PyValue → PyValue → Prop where
  | null : Same .null .null
  | bool (b : Bool) : Same (.bool b) (.bool b)
  | int (n : ℤ) : Same (.int n) (.int n)
  | float (x : Number) : Same (.float x) (.float x)
  | text (s : String) : Same (.text s) (.text s)
  | array {items items' : List PyValue} (h : List.Forall₂ Same items items') :
      Same (.array items) (.array items')
  | object {fields fields' : PyFields}
      (h : ∀ name, Option.Rel Same (fields.lookup name) (fields'.lookup name)) :
      Same (.object fields) (.object fields')

/-- An object whose values are texts. -/
abbrev PyValue.ofTexts (fields : List (String × String)) : PyValue :=
  .object (fields.map fun f => (f.1, .text f.2))

theorem PyValue.Same.ofTexts (fields : List (String × String)) :
    (PyValue.ofTexts fields).Same (PyValue.ofTexts fields) := by
  refine .object fun name => ?_
  cases hlookup : (fields.map fun f => (f.1, PyValue.text f.2)).lookup name with
  | none => exact .none
  | some value =>
    obtain ⟨l₁, l₂, heq, -⟩ := List.lookup_eq_some_iff.mp hlookup
    have hmem : (name, value) ∈ fields.map fun f => (f.1, PyValue.text f.2) := by simp [heq]
    obtain ⟨f, -, hf⟩ := List.mem_map.mp hmem
    have hvalue : value = .text f.2 := (congrArg Prod.snd hf).symm
    rw [hvalue]
    exact .some (.text f.2)

def vcHeader : PyValue := .ofTexts [("alg", "EdDSA"), ("typ", "FG-VC")]

/-- `json.dumps` with sorted keys and without blanks, as bytes. -/
class PythonDumps extends PythonJson where
  dumps : PyValue → Except PyException (List UInt8)
  loads_dumps : ∀ {value text}, dumps value = .ok text →
    ∃ value', loads text = .ok value' ∧ value'.Same value
  dumps_header : ∃ text, dumps vcHeader = .ok text

class CaSigner extends CaKey where
  sign : List UInt8 → List UInt8

def signData [CaSigner] (data : List UInt8) : List UInt8 := CaSigner.sign data

def b64urlEncode (raw : List UInt8) : String :=
  String.ofList (((Base64.encode raw).map Base64.toUrlSafe).rdropWhile (· = '='))

def encodeVc [PythonDumps] [CaSigner] (claims : PyValue) : Except PyException String := do
  let headerSeg := b64urlEncode (← PythonDumps.dumps vcHeader)
  let payloadSeg := b64urlEncode (← PythonDumps.dumps claims)
  let signingInput ← encodeAscii (headerSeg ++ "." ++ payloadSeg)
  let signature := signData signingInput
  return headerSeg ++ "." ++ payloadSeg ++ "." ++ b64urlEncode signature

/-! Segments. -/

theorem b64urlEncode_eq (raw : List UInt8) : ∃ digits k, (∀ c ∈ digits, ∃ n < 64,
    c = Base64.digit n) ∧ k < 3 ∧ (digits.length + k) % 4 = 0 ∧
    Base64.encode raw = digits ++ List.replicate k '=' ∧
    (b64urlEncode raw).toList = digits.map Base64.toUrlSafe := by
  obtain ⟨digits, k, hdigits, hk, hlength, hencode⟩ := Base64.encode_eq_append raw
  refine ⟨digits, k, hdigits, hk, hlength, hencode, ?_⟩
  have hmap : (Base64.encode raw).map Base64.toUrlSafe =
      digits.map Base64.toUrlSafe ++ List.replicate k '=' := by
    rw [hencode, List.map_append, List.map_replicate]
    rfl
  have hdrop : ∀ k, (digits.map Base64.toUrlSafe ++ List.replicate k '=').rdropWhile (· = '=') =
      digits.map Base64.toUrlSafe := by
    intro k
    induction k with
    | zero =>
      rw [List.replicate_zero, List.append_nil, List.rdropWhile_eq_self_iff]
      intro hne hlast
      obtain ⟨c, hc, heq⟩ := List.mem_map.mp (List.getLast_mem hne)
      obtain ⟨n, hn, rfl⟩ := hdigits c hc
      exact (Base64.toUrlSafe_digit hn).1 (heq.trans (of_decide_eq_true hlast))
    | succ k ih =>
      rw [List.replicate_succ', ← List.append_assoc, List.rdropWhile_concat_pos _ _ _ (by simp), ih]
  rw [b64urlEncode, String.toList_ofList, hmap, hdrop]

theorem b64urlDecode_b64urlEncode (raw : List UInt8) :
    b64urlDecode (b64urlEncode raw) = .ok raw := by
  obtain ⟨digits, k, hdigits, hk, hlength, hencode, hsegment⟩ := b64urlEncode_eq raw
  have hpadding : (4 - (digits.map Base64.toUrlSafe).length % 4) % 4 = k := by
    rw [List.length_map]
    omega
  have hascii : (digits.map Base64.toUrlSafe ++ List.replicate k '=').all
      (·.toNat < 128) = true := by
    rw [List.all_eq_true]
    intro c hc
    rcases List.mem_append.mp hc with hc | hc
    · obtain ⟨d, hd, rfl⟩ := List.mem_map.mp hc
      obtain ⟨n, hn, rfl⟩ := hdigits d hd
      exact decide_eq_true (Base64.toUrlSafe_digit hn).2.2
    · rw [List.eq_of_mem_replicate hc]
      rfl
  have hback : (digits.map Base64.toUrlSafe ++ List.replicate k '=').map Base64.ofUrlSafe =
      Base64.encode raw := by
    have hsame : (digits.map Base64.toUrlSafe).map Base64.ofUrlSafe = digits := by
      rw [List.map_map]
      refine (List.map_congr_left fun c hc => ?_).trans (List.map_id digits)
      obtain ⟨n, hn, rfl⟩ := hdigits c hc
      exact Base64.ofUrlSafe_toUrlSafe_digit hn
    rw [List.map_append, hsame, List.map_replicate, hencode]
    rfl
  simp only [b64urlDecode, hsegment, hpadding, hascii, if_true, hback, Base64.decode?_encode]
  rfl

theorem mem_b64urlEncode {raw : List UInt8} {c : Char} (hc : c ∈ (b64urlEncode raw).toList) :
    c ≠ '.' ∧ c.toNat < 128 := by
  obtain ⟨digits, k, hdigits, -, -, -, hsegment⟩ := b64urlEncode_eq raw
  rw [hsegment] at hc
  obtain ⟨d, hd, rfl⟩ := List.mem_map.mp hc
  obtain ⟨n, hn, rfl⟩ := hdigits d hd
  exact (Base64.toUrlSafe_digit hn).2

theorem splitDots_segments {headerSeg payloadSeg sigSeg : String}
    (hheader : '.' ∉ headerSeg.toList) (hpayload : '.' ∉ payloadSeg.toList)
    (hsig : '.' ∉ sigSeg.toList) :
    splitDots (headerSeg ++ "." ++ payloadSeg ++ "." ++ sigSeg) =
      [headerSeg, payloadSeg, sigSeg] := by
  have hne : ∀ {s : String}, '.' ∉ s.toList → ∀ c ∈ s.toList, (c == '.') = false := by
    intro s hs c hc
    simpa using fun heq : c = '.' => hs (heq ▸ hc)
  have htoken : (headerSeg ++ "." ++ payloadSeg ++ "." ++ sigSeg).toList =
      headerSeg.toList ++ '.' :: (payloadSeg.toList ++ '.' :: sigSeg.toList) := by
    simp
  rw [splitDots, htoken, List.splitOnP_append_cons_of_forall_mem (hne hheader) '.' rfl,
    List.splitOnP_append_cons_of_forall_mem (hne hpayload) '.' rfl,
    List.splitOnP_eq_singleton (hne hsig)]
  simp

theorem isAscii_segments (header payload : List UInt8) :
    isAscii (b64urlEncode header ++ "." ++ b64urlEncode payload) := by
  have hsegment : ∀ raw : List UInt8, (b64urlEncode raw).toList.all (·.toNat < 128) = true := by
    intro raw
    exact List.all_eq_true.mpr fun c hc => decide_eq_true (mem_b64urlEncode hc).2
  have hdot : ".".toList.all (·.toNat < 128) = true := rfl
  rw [isAscii, String.toList_append, String.toList_append, List.all_append, List.all_append,
    hsegment, hsegment, hdot]
  rfl

theorem splitDots_b64urlEncode (header payload signature : List UInt8) :
    splitDots (b64urlEncode header ++ "." ++ b64urlEncode payload ++ "." ++
      b64urlEncode signature) =
        [b64urlEncode header, b64urlEncode payload, b64urlEncode signature] :=
  splitDots_segments (fun h => (mem_b64urlEncode h).1 rfl) (fun h => (mem_b64urlEncode h).1 rfl)
    (fun h => (mem_b64urlEncode h).1 rfl)

/-! The token of a claims object. -/

theorem PyValue.Same.lookup {fields fields' : PyFields}
    (h : (PyValue.object fields).Same (.object fields')) (name : String) :
    (dictGet fields name .null).Same (dictGet fields' name .null) := by
  cases h with
  | object h =>
    have hname := h name
    unfold dictGet
    generalize fields.lookup name = x at hname ⊢
    generalize fields'.lookup name = y at hname ⊢
    cases hname with
    | some hsame => exact hsame
    | none => exact .null

theorem PyValue.Same.eq_text {value : PyValue} {s : String} (h : value.Same (.text s)) :
    value = .text s := by
  cases h
  rfl

theorem PyValue.Same.intOfValue_eq [DecimalDigits] {value value' : PyValue}
    (h : value.Same value') : intOfValue value = intOfValue value' := by
  cases h <;> rfl

theorem Unexpired.of_same [DecimalDigits] {value value' : PyValue} {now : ℤ}
    (h : Unexpired value' now) (hsame : value.Same value') : Unexpired value now := by
  obtain ⟨fields', rfl, hexp⟩ := h
  have hsame' := hsame
  cases hsame with
  | @object fields _ hfields =>
    have hlookup := hsame'.lookup "exp"
    refine ⟨fields, rfl, ?_⟩
    rcases hexp with hnull | ⟨n, hint, hle⟩
    · rw [hnull] at hlookup
      cases hvalue : dictGet fields "exp" .null with
      | null => exact .inl rfl
      | _ =>
        rw [hvalue] at hlookup
        cases hlookup
    · exact .inr ⟨n, hlookup.intOfValue_eq.trans hint, hle⟩

theorem decodeVc_of_presents [DecimalDigits] [PythonJson] [CaKey] {token : String} {now : ℤ}
    {claims : PyValue} {headerSeg payloadSeg sigSeg : String} {fields : PyFields}
    (h : Presents token now claims headerSeg payloadSeg sigSeg fields)
    (hascii : isAscii (headerSeg ++ "." ++ payloadSeg)) : decodeVc token now = .ok claims := by
  obtain ⟨signature, hsignature, hverified⟩ := h.signed
  have hexp : enforceExp claims now = .ok () := enforceExp_eq_ok.mpr h.unexpired
  have hinput : encodeAscii (headerSeg ++ "." ++ payloadSeg) =
      .ok (signingInput headerSeg payloadSeg) := encodeAscii_eq_ok.mpr ⟨hascii, rfl⟩
  simp only [decodeVc, h.segments, Scan.bind_eq_ok, onValueError_eq_ok, unhandled_eq_ok]
  refine ⟨_, h.header, fields, rfl, ?_⟩
  rw [if_pos h.alg]
  simp only [Scan.bind_eq_ok, onValueError_eq_ok, unhandled_eq_ok]
  refine ⟨_, hinput, signature, hsignature, ?_⟩
  rw [if_pos hverified]
  simp only [Scan.bind_eq_ok, onValueError_eq_ok]
  exact ⟨claims, h.payload, (), hexp, rfl⟩

section
variable [DecimalDigits] [PythonDumps] [CaSigner] {claims : PyValue} {token : String} {now : ℤ}

omit [DecimalDigits] in
theorem encodeVc_eq_ok : encodeVc claims = .ok token ↔
    ∃ header payload, PythonDumps.dumps vcHeader = .ok header ∧
      PythonDumps.dumps claims = .ok payload ∧
      token = b64urlEncode header ++ "." ++ b64urlEncode payload ++ "." ++
        b64urlEncode (signData (signingInput (b64urlEncode header) (b64urlEncode payload))) := by
  simp only [encodeVc, Scan.bind_eq_ok, encodeAscii_eq_ok]
  constructor
  · rintro ⟨header, hheader, payload, hpayload, _, ⟨-, rfl⟩, htoken⟩
    exact ⟨header, payload, hheader, hpayload, (Except.ok.inj htoken).symm⟩
  · rintro ⟨header, payload, hheader, hpayload, rfl⟩
    exact ⟨header, hheader, payload, hpayload, _, ⟨isAscii_segments header payload, rfl⟩, rfl⟩

omit [DecimalDigits] [CaSigner] in
/-- The header of every token that is put together says that it is signed with EdDSA. -/
theorem readSegment_header {header : List UInt8} (h : PythonDumps.dumps vcHeader = .ok header) :
    ∃ fields, readSegment (b64urlEncode header) = .ok (.object fields) ∧
      dictGet fields "alg" .null = .text "EdDSA" := by
  obtain ⟨value, hload, hsame⟩ := PythonDumps.loads_dumps h
  have hread : readSegment (b64urlEncode header) = .ok value := by
    rw [readSegment, b64urlDecode_b64urlEncode]
    exact hload
  have hfields := hsame
  cases hsame with
  | @object fields _ _ => exact ⟨fields, hread, (hfields.lookup "alg").eq_text⟩

omit [DecimalDigits] [CaSigner] in
theorem readSegment_payload {payload : List UInt8} (h : PythonDumps.dumps claims = .ok payload) :
    ∃ value, readSegment (b64urlEncode payload) = .ok value ∧ value.Same claims := by
  obtain ⟨value, hload, hsame⟩ := PythonDumps.loads_dumps h
  refine ⟨value, ?_, hsame⟩
  rw [readSegment, b64urlDecode_b64urlEncode]
  exact hload

theorem decodeVc_encodeVc (hsigns : ∀ data, verifySignature data (signData data) = true)
    (htoken : encodeVc claims = .ok token) (hunexpired : Unexpired claims now) :
    ∃ claims', decodeVc token now = .ok claims' ∧ claims'.Same claims := by
  obtain ⟨header, payload, hheader, hpayload, rfl⟩ := encodeVc_eq_ok.mp htoken
  obtain ⟨fields, hfields, halg⟩ := readSegment_header hheader
  obtain ⟨claims', hread, hsame⟩ := readSegment_payload hpayload
  have hsigned : Signed (b64urlEncode header) (b64urlEncode payload)
      (b64urlEncode (signData (signingInput (b64urlEncode header) (b64urlEncode payload)))) :=
    ⟨_, b64urlDecode_b64urlEncode _, hsigns _⟩
  have hpresents : Presents _ now claims' _ _ _ fields :=
    ⟨splitDots_b64urlEncode _ _ _, hfields, by rw [halg]; rfl, hsigned, hread,
      hunexpired.of_same hsame⟩
  exact ⟨claims', decodeVc_of_presents hpresents (isAscii_segments header payload), hsame⟩

end

/-- Bytes come back from their segment, and claims from their token, which has three segments. -/
theorem vc_round_trip [DecimalDigits] [PythonDumps] [CaSigner]
    (hsigns : ∀ data, verifySignature data (signData data) = true) :
    (∀ raw, b64urlDecode (b64urlEncode raw) = .ok raw) ∧
      (∀ fields text now, PythonDumps.dumps (.object fields) = .ok text →
        Unexpired (.object fields) now → ∃ token claims, encodeVc (.object fields) = .ok token ∧
          decodeVc token now = .ok claims ∧ claims.Same (.object fields)) ∧
      ∀ claims token, encodeVc claims = .ok token → (splitDots token).length = 3 := by
  refine ⟨b64urlDecode_b64urlEncode, ?_, ?_⟩
  · intro fields text now hdumps hunexpired
    obtain ⟨header, hheader⟩ := PythonDumps.dumps_header
    have htoken := encodeVc_eq_ok.mpr ⟨header, text, hheader, hdumps, rfl⟩
    obtain ⟨claims, hdecode, hsame⟩ := decodeVc_encodeVc hsigns htoken hunexpired
    exact ⟨_, claims, htoken, hdecode, hsame⟩
  · intro claims token htoken
    obtain ⟨header, payload, -, -, rfl⟩ := encodeVc_eq_ok.mp htoken
    rw [splitDots_b64urlEncode]
    rfl

/-! A credential that names its subject only. -/

def subjectClaims : PyValue := .ofTexts [("sub", "E")]

def headerText : String := "\x7b\"alg\":\"EdDSA\",\"typ\":\"FG-VC\"\x7d"

def subjectText : String := "\x7b\"sub\":\"E\"\x7d"

/-- It reads some more texts than it writes. -/
abbrev PythonDumps.subject (texts : List (String × PyValue)) : PythonDumps where
  toPythonJson := .knowing ((headerText, vcHeader) :: (subjectText, subjectClaims) :: texts)
  dumps
    | .object [("alg", .text "EdDSA"), ("typ", .text "FG-VC")] => .ok (asciiBytes headerText)
    | .object [("sub", .text "E")] => .ok (asciiBytes subjectText)
    | _ => .error .recursionError
  loads_dumps h := by
    split at h
    · cases h
      exact ⟨vcHeader, rfl, .ofTexts _⟩
    · cases h
      exact ⟨subjectClaims, rfl, .ofTexts _⟩
    · cases h
  dumps_header := ⟨asciiBytes headerText, rfl⟩

/-- The signature repeats the beginning of what is signed. -/
abbrev CaSigner.repeating : CaSigner where
  sign data := (data ++ List.replicate 64 0).take 64
  verify data signature := signature = (data ++ List.replicate 64 0).take 64

theorem CaSigner.repeating_signs :
    letI := CaSigner.repeating
    ∀ data, verifySignature data (signData data) = true := by
  let := CaSigner.repeating
  intro data
  have hlength : ((data ++ List.replicate 64 0).take 64).length = 64 := by simp
  have hverify : verifySignature data (signData data) =
      if ((data ++ List.replicate 64 0).take 64).length ≠ 64 then false
      else decide ((data ++ List.replicate 64 0).take 64 =
        (data ++ List.replicate 64 0).take 64) := rfl
  rw [hverify, if_neg (not_not.mpr hlength)]
  exact decide_eq_true rfl

theorem subject_round_trip :
    letI := DecimalDigits.ascii
    letI := PythonDumps.subject []
    letI := CaSigner.repeating
    ∃ token claims, encodeVc subjectClaims = .ok token ∧ decodeVc token 0 = .ok claims ∧
      claims.Same subjectClaims := by
  let := DecimalDigits.ascii
  let := PythonDumps.subject []
  let := CaSigner.repeating
  have hsigns := CaSigner.repeating_signs
  exact (vc_round_trip hsigns).2.1 _ (asciiBytes subjectText) 0 rfl ⟨_, rfl, .inl rfl⟩

end Finguard
