import Finguard.Lib.Dict
import Finguard.Lib.Sha256
import Finguard.VcCodec

/-! The migration of credentials from HS256 to Ed25519. -/

namespace Finguard
open Text

inductive JoseException where
  | jwtError (message : String)
  | raised (exc : PyException)

/-- The library that knows HS256: `verifies` checks the signature of a token, and `decode` the
times of its claims too. -/
class Jose where
  verifies : (token secretKey : String) → Bool
  decode : (token secretKey : String) → (now : ℤ) → Except JoseException PyFields
  verifies_of_decode : ∀ {token secretKey now claims},
    decode token secretKey now = .ok claims → verifies token secretKey = true

/-- A value of a type that nothing here looks at is kept as it is encoded. -/
inductive BsonValue where
  | text (s : String)
  | date (t : ℤ)
  | encoded (bytes : List UInt8)
deriving DecidableEq

structure TrustDoc where
  id : String
  fields : List (String × BsonValue)
deriving DecidableEq

def TrustDoc.vcToken (doc : TrustDoc) : Option BsonValue := doc.fields.lookup "vc_token"

/-- The token, if there is one to look at. -/
def TrustDoc.token? (doc : TrustDoc) : Option String :=
  match doc.vcToken with
  | some (.text token) => if token = "" then none else some token
  | _ => none

/-- `$set` -/
def TrustDoc.set (doc : TrustDoc) (values : List (String × BsonValue)) : TrustDoc where
  id := doc.id
  fields := values.foldl (fun fields value => Dict.set fields value.1 value.2) doc.fields

def updateDocs (docs : List TrustDoc) (id : String) (values : List (String × BsonValue)) :
    List TrustDoc :=
  docs.map fun doc => if doc.id = id then doc.set values else doc

theorem ids_updateDocs (docs : List TrustDoc) (id : String) (values : List (String × BsonValue)) :
    (updateDocs docs id values).map (·.id) = docs.map (·.id) := by
  rw [updateDocs, List.map_map]
  refine List.map_congr_left fun doc _ => ?_
  by_cases hid : doc.id = id
  · simp [hid, TrustDoc.set]
  · simp [hid]

/-- The collection. A document has an id of its own. -/
structure TrustLog where
  docs : List TrustDoc
  nodup : (docs.map (·.id)).Nodup

@[ext]
theorem TrustLog.ext {log log' : TrustLog} (h : log.docs = log'.docs) : log = log' := by
  cases log
  cases log'
  cases h
  rfl

def TrustLog.updateOne (log : TrustLog) (id : String) (values : List (String × BsonValue)) :
    TrustLog where
  docs := updateDocs log.docs id values
  nodup := by rw [ids_updateDocs]; exact log.nodup

structure MigrationCounts where
  (scanned migrated alreadyEddsa invalidSignature noToken unknownAlg : ℕ)
deriving DecidableEq

def legacyFingerprint (legacyToken : String) : String :=
  String.ofList (Sha256.hexdigest legacyToken.toUTF8.toList)

/-! What may become of a document. -/

inductive Fate where
  | noToken
  | alreadyEddsa
  | unknownAlg
  | invalidSignature
  | migrated (token newToken : String)

def Fate.isMigrated : Fate → Bool
  | migrated _ _ => true
  | _ => false

def Fate.count (fate : Fate) (counts : MigrationCounts) : MigrationCounts :=
  let counts := { counts with scanned := counts.scanned + 1 }
  match fate with
  | noToken => { counts with noToken := counts.noToken + 1 }
  | alreadyEddsa => { counts with alreadyEddsa := counts.alreadyEddsa + 1 }
  | unknownAlg => { counts with unknownAlg := counts.unknownAlg + 1 }
  | invalidSignature => { counts with invalidSignature := counts.invalidSignature + 1 }
  | migrated _ _ => { counts with migrated := counts.migrated + 1 }

def Fate.update (now : ℤ) : Fate → Option (List (String × BsonValue))
  | invalidSignature => some [("migration_status", .text "invalid_hs256_signature")]
  | migrated token newToken => some [("vc_token", .text newToken),
      ("migrated_from_alg", .text "HS256"), ("migrated_at", .date now),
      ("legacy_token_sha256", .text (legacyFingerprint token))]
  | _ => none

def MigrationCounts.outcomes (counts : MigrationCounts) : ℕ :=
  counts.migrated + counts.alreadyEddsa + counts.invalidSignature + counts.noToken +
    counts.unknownAlg

section
variable {counts : MigrationCounts} {fate : Fate} {log : TrustLog} {doc : TrustDoc}
  {done todo : List TrustDoc}

theorem Fate.count_scanned : (fate.count counts).scanned = counts.scanned + 1 := by
  cases fate <;> rfl

theorem Fate.count_outcomes : (fate.count counts).outcomes = counts.outcomes + 1 := by
  cases fate <;> simp only [Fate.count, MigrationCounts.outcomes] <;> omega

theorem Fate.count_migrated :
    (fate.count counts).migrated = counts.migrated + if fate.isMigrated then 1 else 0 := by
  cases fate <;> rfl

theorem updateOne_docs {values : List (String × BsonValue)}
    (hlog : log.docs = done ++ doc :: todo) :
    (log.updateOne doc.id values).docs = done ++ doc.set values :: todo := by
  have hids := log.nodup
  rw [hlog, List.map_append, List.map_cons, List.nodup_append] at hids
  obtain ⟨-, htodo, hdisjoint⟩ := hids
  have hsame : ∀ {l : List TrustDoc}, (∀ x ∈ l, x.id ≠ doc.id) → updateDocs l doc.id values = l := by
    intro l hl
    refine (List.map_congr_left fun x hx => ?_).trans (List.map_id l)
    rw [if_neg (hl x hx)]
    rfl
  have hdone : ∀ x ∈ done, x.id ≠ doc.id := fun x hx =>
    hdisjoint x.id (List.mem_map_of_mem hx) doc.id List.mem_cons_self
  have hrest : ∀ x ∈ todo, x.id ≠ doc.id := fun x hx heq =>
    (List.nodup_cons.mp htodo).1 (heq ▸ List.mem_map_of_mem hx)
  have hsplit : updateDocs (done ++ doc :: todo) doc.id values =
      updateDocs done doc.id values ++ doc.set values :: updateDocs todo doc.id values := by
    simp [updateDocs]
  have hdocs : (log.updateOne doc.id values).docs = updateDocs log.docs doc.id values := rfl
  rw [hdocs, hlog, hsplit, hsame hdone, hsame hrest]

end

section
variable [PythonDumps] [CaSigner] [Jose]

def tokenAlg (token : String) : Except PyException (Option String) :=
  match splitDots token with
  | [headerSeg, _, _] =>
    match readSegment headerSeg with
    | .error exc => if exc.isValueError then .ok none else .error exc
    | .ok header => do
      let fields ← header.asDict
      match dictGet fields "alg" .null with
      | .text alg => return some alg
      | _ => return none
  | _ => .ok none

def resignHs256Token (legacyToken secretKey : String) (now : ℤ) :
    Except PyException (String × PyFields) := do
  let alg ← tokenAlg legacyToken
  if alg ≠ some "HS256" then .error .valueError
  else
    match Jose.decode legacyToken secretKey now with
    | .error (.jwtError _) => .error .valueError
    | .error (.raised exc) => .error exc
    | .ok claims => do
      let newToken ← encodeVc (.object claims)
      return (newToken, claims)

/-- One document: the counts after it, and what is set in it. -/
def migrateDoc (secretKey : String) (dryRun : Bool) (now : ℤ) (doc : TrustDoc)
    (counts : MigrationCounts) :
    Except PyException (MigrationCounts × Option (List (String × BsonValue))) :=
  let counts := { counts with scanned := counts.scanned + 1 }
  match doc.token? with
  | none => .ok ({ counts with noToken := counts.noToken + 1 }, none)
  | some token => do
    let alg ← tokenAlg token
    if alg = some "EdDSA" then
      return ({ counts with alreadyEddsa := counts.alreadyEddsa + 1 }, none)
    else if alg ≠ some "HS256" then
      return ({ counts with unknownAlg := counts.unknownAlg + 1 }, none)
    else
      match resignHs256Token token secretKey now with
      | .error exc =>
        if exc.isValueError then
          return ({ counts with invalidSignature := counts.invalidSignature + 1 },
            if dryRun then none else some [("migration_status", .text "invalid_hs256_signature")])
        else .error exc
      | .ok (newToken, _) =>
        return ({ counts with migrated := counts.migrated + 1 },
          if dryRun then none else some [("vc_token", .text newToken),
            ("migrated_from_alg", .text "HS256"), ("migrated_at", .date now),
            ("legacy_token_sha256", .text (legacyFingerprint token))])

/-- `clock` tells when the run comes to a document. -/
def migrateFrom (secretKey : String) (dryRun : Bool) (clock : String → ℤ) :
    List TrustDoc → TrustLog → MigrationCounts → TrustLog × Except PyException MigrationCounts
  | [], log, counts => (log, .ok counts)
  | doc :: docs, log, counts =>
    match migrateDoc secretKey dryRun (clock doc.id) doc counts with
    | .error exc => (log, .error exc)
    | .ok (counts, none) => migrateFrom secretKey dryRun clock docs log counts
    | .ok (counts, some values) =>
      migrateFrom secretKey dryRun clock docs (log.updateOne doc.id values) counts

def migrate (secretKey : String) (dryRun : Bool) (clock : String → ℤ) (log : TrustLog) :
    TrustLog × Except PyException MigrationCounts :=
  migrateFrom secretKey dryRun clock log.docs log ⟨0, 0, 0, 0, 0, 0⟩

/-! What becomes of a document, and of the documents. -/

def fateOf (secretKey : String) (now : ℤ) (doc : TrustDoc) : Except PyException Fate :=
  match doc.token? with
  | none => .ok .noToken
  | some token => do
    let alg ← tokenAlg token
    if alg = some "EdDSA" then return .alreadyEddsa
    else if alg ≠ some "HS256" then return .unknownAlg
    else
      match resignHs256Token token secretKey now with
      | .error exc => if exc.isValueError then return .invalidSignature else .error exc
      | .ok (newToken, _) => return .migrated token newToken

/-- The document when the run has passed it. -/
def migratedDoc (secretKey : String) (now : ℤ) (doc : TrustDoc) : TrustDoc :=
  match fateOf secretKey now doc with
  | .error _ => doc
  | .ok fate => (fate.update now).elim doc doc.set

/-- The counts when the run has passed the documents. -/
def tally (secretKey : String) (clock : String → ℤ) (docs : List TrustDoc)
    (counts : MigrationCounts) : MigrationCounts :=
  docs.foldl (fun counts doc =>
    match fateOf secretKey (clock doc.id) doc with
    | .error _ => counts
    | .ok fate => fate.count counts) counts

variable {secretKey token newToken : String} {dryRun : Bool} {now later : ℤ}
  {clock clock' : String → ℤ} {doc doc' : TrustDoc} {docs done todo : List TrustDoc}
  {log log' : TrustLog} {counts counts' : MigrationCounts} {fate : Fate} {exc : PyException}

theorem migrateDoc_eq : migrateDoc secretKey dryRun now doc counts =
    (fateOf secretKey now doc).map fun fate =>
      (fate.count counts, if dryRun then none else fate.update now) := by
  unfold migrateDoc fateOf
  cases doc.token? with
  | none => cases dryRun <;> rfl
  | some token =>
    dsimp only
    cases tokenAlg token with
    | error exc => rfl
    | ok alg =>
      by_cases heddsa : alg = some "EdDSA"
      · rw [heddsa]
        cases dryRun <;> rfl
      · by_cases hhs : alg = some "HS256"
        · rw [hhs]
          cases hresign : resignHs256Token token secretKey now with
          | error exc =>
            cases hvalue : exc.isValueError
            · simp [Except.map, bind, Except.bind, hvalue]
            · cases dryRun <;>
                simp [Except.map, bind, Except.bind, pure, Except.pure, hvalue, Fate.count,
                  Fate.update]
          | ok result => cases dryRun <;> rfl
        · cases dryRun <;> simp [Except.map, bind, Except.bind, pure, Except.pure, heddsa, hhs,
            Fate.count, Fate.update]

theorem migrateFrom_cons_error (h : fateOf secretKey (clock doc.id) doc = .error exc) :
    migrateFrom secretKey dryRun clock (doc :: docs) log counts = (log, .error exc) := by
  rw [migrateFrom, migrateDoc_eq, h]
  rfl

theorem migrateFrom_cons_ok (h : fateOf secretKey (clock doc.id) doc = .ok fate) :
    migrateFrom secretKey dryRun clock (doc :: docs) log counts =
      migrateFrom secretKey dryRun clock docs
        (if dryRun then log else (fate.update (clock doc.id)).elim log (log.updateOne doc.id))
        (fate.count counts) := by
  rw [migrateFrom, migrateDoc_eq, h]
  cases dryRun with
  | true => rfl
  | false => cases hupdate : fate.update (clock doc.id) <;> simp [Except.map, hupdate]

/-- A dry run reports what the run would, and leaves everything as it was. -/
theorem migrateFrom_dryRun : migrateFrom secretKey true clock docs log counts =
    (log, (migrateFrom secretKey false clock docs log' counts).2) := by
  induction docs generalizing log' counts with
  | nil => rfl
  | cons doc docs ih =>
    cases hfate : fateOf secretKey (clock doc.id) doc with
    | error exc => rw [migrateFrom_cons_error hfate, migrateFrom_cons_error hfate]
    | ok fate =>
      rw [migrateFrom_cons_ok hfate, migrateFrom_cons_ok hfate]
      exact ih

theorem migrateFrom_eq
    (hfates : ∀ doc ∈ todo, ∃ fate, fateOf secretKey (clock doc.id) doc = .ok fate)
    (hlog : log.docs = done ++ todo) :
    (migrateFrom secretKey false clock todo log counts).1.docs =
        done ++ todo.map (fun doc => migratedDoc secretKey (clock doc.id) doc) ∧
      (migrateFrom secretKey false clock todo log counts).2 =
        .ok (tally secretKey clock todo counts) := by
  induction todo generalizing done log counts with
  | nil => exact ⟨by simpa [migrateFrom] using hlog, rfl⟩
  | cons doc todo ih =>
    obtain ⟨fate, hfate⟩ := hfates doc List.mem_cons_self
    have hrest := fun doc hdoc => hfates doc (List.mem_cons_of_mem _ hdoc)
    have hdoc : migratedDoc secretKey (clock doc.id) doc =
        (fate.update (clock doc.id)).elim doc doc.set := by
      rw [migratedDoc, hfate]
    have htally : tally secretKey clock (doc :: todo) counts =
        tally secretKey clock todo (fate.count counts) := by
      rw [tally, List.foldl_cons, hfate]
      rfl
    rw [migrateFrom_cons_ok hfate, if_neg Bool.false_ne_true, htally, List.map_cons, hdoc]
    have hnext : ((fate.update (clock doc.id)).elim log (log.updateOne doc.id)).docs =
        done ++ [(fate.update (clock doc.id)).elim doc doc.set] ++ todo := by
      rw [List.append_assoc]
      cases fate.update (clock doc.id) with
      | none => exact hlog
      | some values => exact updateOne_docs hlog
    obtain ⟨hdocs, hcounts⟩ := ih hrest hnext
    exact ⟨by rw [hdocs, List.append_assoc]; rfl, hcounts⟩

theorem fates_of_completes
    (h : (migrateFrom secretKey dryRun clock docs log counts).2 = .ok counts') :
    ∀ doc ∈ docs, ∃ fate, fateOf secretKey (clock doc.id) doc = .ok fate := by
  induction docs generalizing log counts with
  | nil => nofun
  | cons doc docs ih =>
    cases hfate : fateOf secretKey (clock doc.id) doc with
    | error exc =>
      rw [migrateFrom_cons_error hfate] at h
      cases h
    | ok fate =>
      rw [migrateFrom_cons_ok hfate] at h
      exact List.forall_mem_cons.mpr ⟨⟨fate, hfate⟩, ih h⟩

theorem tally_counts (counts : MigrationCounts)
    (hfates : ∀ doc ∈ docs, ∃ fate, fateOf secretKey (clock doc.id) doc = .ok fate) :
    (tally secretKey clock docs counts).scanned = counts.scanned + docs.length ∧
      (tally secretKey clock docs counts).outcomes = counts.outcomes + docs.length ∧
      ((tally secretKey clock docs counts).migrated = 0 ↔ counts.migrated = 0 ∧
        ∀ doc ∈ docs, ∀ fate, fateOf secretKey (clock doc.id) doc = .ok fate →
          fate.isMigrated = false) := by
  induction docs generalizing counts with
  | nil => simp [tally]
  | cons doc docs ih =>
    obtain ⟨fate, hfate⟩ := hfates doc List.mem_cons_self
    have htally : tally secretKey clock (doc :: docs) counts =
        tally secretKey clock docs (fate.count counts) := by
      rw [tally, List.foldl_cons, hfate]
      rfl
    obtain ⟨hscanned, houtcomes, hmigrated⟩ :=
      ih (fate.count counts) fun doc hdoc => hfates doc (List.mem_cons_of_mem _ hdoc)
    rw [Fate.count_scanned] at hscanned
    rw [Fate.count_outcomes] at houtcomes
    rw [Fate.count_migrated] at hmigrated
    rw [htally, List.length_cons]
    refine ⟨by omega, by omega, hmigrated.trans ?_⟩
    cases hfated : fate.isMigrated <;> simp [hfate, hfated]

/-! When a document aborts the run. -/

/-- The header of a token of three segments is an object, or it raises a value error. -/
def Parseable (token : String) : Prop :=
  ∀ headerSeg payloadSeg sigSeg, splitDots token = [headerSeg, payloadSeg, sigSeg] →
    ReadsAs headerSeg fun _ => True

/-- The token is verified, and its claims can be written. -/
def Reissued (token secretKey : String) (now : ℤ) : Prop :=
  ∃ claims payload, Jose.decode token secretKey now = .ok claims ∧
    PythonDumps.dumps (.object claims) = .ok payload

/-- The token is not verified, or its claims cannot be written because of their values. -/
def Refused (token secretKey : String) (now : ℤ) : Prop :=
  (∃ message, Jose.decode token secretKey now = .error (.jwtError message)) ∨
    (∃ exc, Jose.decode token secretKey now = .error (.raised exc) ∧ exc.isValueError) ∨
    ∃ claims exc, Jose.decode token secretKey now = .ok claims ∧
      PythonDumps.dumps (.object claims) = .error exc ∧ exc.isValueError

omit [CaSigner] [Jose] in
theorem tokenAlg_total : (∃ alg, tokenAlg token = .ok alg) ↔ Parseable token := by
  by_cases hthree : ∃ headerSeg payloadSeg sigSeg, splitDots token = [headerSeg, payloadSeg, sigSeg]
  · obtain ⟨headerSeg, payloadSeg, sigSeg, hsegments⟩ := hthree
    have hparseable : Parseable token ↔ ReadsAs headerSeg fun _ => True := by
      simp [Parseable, hsegments]
    rw [hparseable]
    simp only [tokenAlg, hsegments, ReadsAs]
    cases hread : readSegment headerSeg with
    | error exc => cases hvalue : exc.isValueError <;> simp [hvalue]
    | ok value =>
      cases value with
      | object fields =>
        refine iff_of_true ?_ (by simp)
        change ∃ alg, (match dictGet fields "alg" .null with
          | .text alg => Except.ok (some alg)
          | _ => .ok none) = Except.ok alg
        split <;> exact ⟨_, rfl⟩
      | _ => simp [PyValue.asDict, bind, Except.bind]
  · refine iff_of_true ⟨none, ?_⟩ ?_
    · unfold tokenAlg
      split
      · rename_i headerSeg payloadSeg sigSeg hsegments
        exact absurd ⟨headerSeg, payloadSeg, sigSeg, hsegments⟩ hthree
      · rfl
    · intro headerSeg payloadSeg sigSeg hsegments
      exact absurd ⟨headerSeg, payloadSeg, sigSeg, hsegments⟩ hthree

omit [Jose] in
theorem encodeVc_error {claims : PyValue} :
    encodeVc claims = .error exc ↔ PythonDumps.dumps claims = .error exc := by
  obtain ⟨header, hheader⟩ := PythonDumps.dumps_header
  cases hdumps : PythonDumps.dumps claims with
  | ok payload =>
    have htoken := encodeVc_eq_ok.mpr ⟨header, payload, hheader, hdumps, rfl⟩
    rw [htoken]
    exact iff_of_false nofun nofun
  | error exc' =>
    have hencode : encodeVc claims = .error exc' := by
      rw [encodeVc, hheader, hdumps]
      rfl
    rw [hencode, Except.error.injEq, Except.error.injEq]

theorem resignHs256Token_eq (halg : tokenAlg token = .ok (some "HS256")) :
    resignHs256Token token secretKey now =
      match Jose.decode token secretKey now with
      | .error (.jwtError _) => .error .valueError
      | .error (.raised exc) => .error exc
      | .ok claims => encodeVc (.object claims) >>= fun newToken => .ok (newToken, claims) := by
  rw [resignHs256Token, halg]
  rfl

theorem resignHs256Token_eq_ok {claims : PyFields} (halg : tokenAlg token = .ok (some "HS256")) :
    resignHs256Token token secretKey now = .ok (newToken, claims) ↔
      Jose.decode token secretKey now = .ok claims ∧ encodeVc (.object claims) = .ok newToken := by
  rw [resignHs256Token_eq halg]
  cases hdecode : Jose.decode token secretKey now with
  | error exc => cases exc <;> exact iff_of_false nofun nofun
  | ok claims' =>
    rw [Scan.bind_eq_ok]
    constructor
    · rintro ⟨newToken', hencode, heq⟩
      obtain ⟨rfl, rfl⟩ := Prod.mk.inj (Except.ok.inj heq)
      exact ⟨rfl, hencode⟩
    · rintro ⟨heq, hencode⟩
      cases heq
      exact ⟨newToken, hencode, rfl⟩

theorem resignHs256Token_error (halg : tokenAlg token = .ok (some "HS256")) :
    (∃ exc, resignHs256Token token secretKey now = .error exc ∧ exc.isValueError) ↔
      Refused token secretKey now := by
  rw [resignHs256Token_eq halg, Refused]
  cases hdecode : Jose.decode token secretKey now with
  | error exc =>
    cases exc with
    | jwtError message => simp [PyException.isValueError]
    | raised exc => simp
  | ok claims =>
    simp [Scan.bind_eq_error, encodeVc_error]

/-- What a document becomes. -/
inductive Becomes (secretKey : String) (now : ℤ) (doc : TrustDoc) : Fate → Prop where
  | noToken (htoken : doc.token? = none) : Becomes secretKey now doc .noToken
  | alreadyEddsa {token : String} (htoken : doc.token? = some token)
      (halg : tokenAlg token = .ok (some "EdDSA")) : Becomes secretKey now doc .alreadyEddsa
  | unknownAlg {token : String} {alg : Option String} (htoken : doc.token? = some token)
      (halg : tokenAlg token = .ok alg) (heddsa : alg ≠ some "EdDSA") (hhs : alg ≠ some "HS256") :
      Becomes secretKey now doc .unknownAlg
  | invalidSignature {token : String} (htoken : doc.token? = some token)
      (halg : tokenAlg token = .ok (some "HS256")) (hrefused : Refused token secretKey now) :
      Becomes secretKey now doc .invalidSignature
  | migrated {token newToken : String} {claims : PyFields} (htoken : doc.token? = some token)
      (halg : tokenAlg token = .ok (some "HS256"))
      (hdecode : Jose.decode token secretKey now = .ok claims)
      (hencode : encodeVc (.object claims) = .ok newToken) :
      Becomes secretKey now doc (.migrated token newToken)

theorem becomes_of_fateOf (h : fateOf secretKey now doc = .ok fate) :
    Becomes secretKey now doc fate := by
  unfold fateOf at h
  cases htoken : doc.token? with
  | none =>
    rw [htoken] at h
    cases h
    exact .noToken htoken
  | some token =>
    rw [htoken] at h
    obtain ⟨alg, halg, h⟩ := Scan.bind_eq_ok.mp h
    by_cases heddsa : alg = some "EdDSA"
    · rw [if_pos heddsa] at h
      cases h
      exact .alreadyEddsa htoken (heddsa ▸ halg)
    · rw [if_neg heddsa] at h
      by_cases hhs : alg = some "HS256"
      · rw [if_neg (not_not.mpr hhs)] at h
        have halg' : tokenAlg token = .ok (some "HS256") := hhs ▸ halg
        cases hresign : resignHs256Token token secretKey now with
        | error exc =>
          rw [hresign] at h
          dsimp only at h
          split at h
          · rename_i hvalue
            cases h
            exact .invalidSignature htoken halg'
              ((resignHs256Token_error halg').mp ⟨exc, hresign, hvalue⟩)
          · cases h
        | ok result =>
          obtain ⟨newToken, claims⟩ := result
          rw [hresign] at h
          cases h
          obtain ⟨hdecode, hencode⟩ := (resignHs256Token_eq_ok halg').mp hresign
          exact .migrated htoken halg' hdecode hencode
      · rw [if_pos hhs] at h
        cases h
        exact .unknownAlg htoken halg heddsa hhs

theorem fateOf_of_becomes (h : Becomes secretKey now doc fate) :
    fateOf secretKey now doc = .ok fate := by
  unfold fateOf
  cases h with
  | noToken htoken => rw [htoken]
  | alreadyEddsa htoken halg =>
    rw [htoken]
    exact Scan.bind_eq_ok.mpr ⟨_, halg, if_pos rfl⟩
  | unknownAlg htoken halg heddsa hhs =>
    rw [htoken]
    exact Scan.bind_eq_ok.mpr ⟨_, halg, by rw [if_neg heddsa, if_pos hhs]; rfl⟩
  | @invalidSignature token htoken halg hrefused =>
    obtain ⟨exc, hresign, hvalue⟩ := (resignHs256Token_error halg).mpr hrefused
    rw [htoken]
    refine Scan.bind_eq_ok.mpr ⟨_, halg, ?_⟩
    rw [if_neg (by decide), if_neg (by decide), hresign]
    exact if_pos hvalue
  | migrated htoken halg hdecode hencode =>
    have hresign := (resignHs256Token_eq_ok halg).mpr ⟨hdecode, hencode⟩
    rw [htoken]
    refine Scan.bind_eq_ok.mpr ⟨_, halg, ?_⟩
    rw [if_neg (by decide), if_neg (by decide), hresign]
    rfl

omit [CaSigner] in
theorem not_reissued_and_refused (hreissued : Reissued token secretKey now)
    (hrefused : Refused token secretKey now) : False := by
  obtain ⟨claims, payload, hdecode, hdumps⟩ := hreissued
  simp [Refused, hdecode, hdumps] at hrefused

theorem becomes_total (h : ∀ token, doc.token? = some token → Parseable token ∧
    (tokenAlg token = .ok (some "HS256") →
      Reissued token secretKey now ∨ Refused token secretKey now)) :
    ∃ fate, Becomes secretKey now doc fate := by
  cases htoken : doc.token? with
  | none => exact ⟨_, .noToken htoken⟩
  | some token =>
    obtain ⟨hparseable, hsigned⟩ := h token htoken
    obtain ⟨alg, halg⟩ := tokenAlg_total.mpr hparseable
    by_cases heddsa : alg = some "EdDSA"
    · exact ⟨_, .alreadyEddsa htoken (heddsa ▸ halg)⟩
    · by_cases hhs : alg = some "HS256"
      · have halg' : tokenAlg token = .ok (some "HS256") := hhs ▸ halg
        rcases hsigned halg' with ⟨claims, payload, hdecode, hdumps⟩ | hrefused
        · obtain ⟨header, hheader⟩ := PythonDumps.dumps_header
          have hencode := encodeVc_eq_ok.mpr ⟨header, payload, hheader, hdumps, rfl⟩
          exact ⟨_, .migrated htoken halg' hdecode hencode⟩
        · exact ⟨_, .invalidSignature htoken halg' hrefused⟩
      · exact ⟨_, .unknownAlg htoken halg heddsa hhs⟩

theorem migratedDoc_eq (h : Becomes secretKey now doc fate) :
    migratedDoc secretKey now doc = (fate.update now).elim doc doc.set := by
  rw [migratedDoc, fateOf_of_becomes h]

theorem id_migratedDoc : (migratedDoc secretKey now doc).id = doc.id := by
  unfold migratedDoc
  cases fateOf secretKey now doc with
  | error exc => rfl
  | ok fate => cases fate <;> rfl

omit [PythonDumps] [CaSigner] [Jose] in
theorem vcToken_set_status (status : BsonValue) :
    (doc.set [("migration_status", status)]).vcToken = doc.vcToken := by
  have hne : "vc_token" ≠ "migration_status" := by decide
  exact Dict.lookup_set_of_ne hne

omit [PythonDumps] [CaSigner] [Jose] in
theorem vcToken_set_token (alg time fingerprint : BsonValue) :
    (doc.set [("vc_token", .text newToken), ("migrated_from_alg", alg), ("migrated_at", time),
      ("legacy_token_sha256", fingerprint)]).vcToken = some (.text newToken) := by
  have hset : (doc.set [("vc_token", .text newToken), ("migrated_from_alg", alg),
      ("migrated_at", time), ("legacy_token_sha256", fingerprint)]).vcToken =
      (Dict.set (Dict.set (Dict.set (Dict.set doc.fields "vc_token" (.text newToken))
        "migrated_from_alg" alg) "migrated_at" time) "legacy_token_sha256" fingerprint).lookup
          "vc_token" := rfl
  rw [hset, Dict.lookup_set_of_ne (by decide), Dict.lookup_set_of_ne (by decide),
    Dict.lookup_set_of_ne (by decide), Dict.lookup_set_self]

omit [PythonDumps] [CaSigner] [Jose] in
theorem token?_set_status (doc : TrustDoc) (status : BsonValue) :
    (doc.set [("migration_status", status)]).token? = doc.token? := by
  rw [TrustDoc.token?, vcToken_set_status, TrustDoc.token?]

omit [Jose] in
theorem migrated_token {claims : PyFields} (hencode : encodeVc (.object claims) = .ok newToken) :
    newToken ≠ "" ∧ tokenAlg newToken = .ok (some "EdDSA") := by
  obtain ⟨header, payload, hheader, -, rfl⟩ := encodeVc_eq_ok.mp hencode
  obtain ⟨fields, hread, halg⟩ := readSegment_header hheader
  have hsegments := splitDots_b64urlEncode header payload
    (signData (signingInput (b64urlEncode header) (b64urlEncode payload)))
  refine ⟨fun hempty => ?_, ?_⟩
  · rw [hempty] at hsegments
    have hone : splitDots "" = [""] := by decide
    have hlength := congrArg List.length (hone.symm.trans hsegments)
    simp at hlength
  · simp only [tokenAlg, hsegments, hread]
    change (match dictGet fields "alg" .null with
      | .text alg => Except.ok (some alg)
      | _ => .ok none) = _
    rw [halg]

theorem becomes_later (h : Becomes secretKey now doc fate)
    (hrefused : ∀ token, doc.token? = some token → Refused token secretKey now →
      tokenAlg token = .ok (some "HS256") → Refused token secretKey later) :
    ∃ fate', Becomes secretKey later (migratedDoc secretKey now doc) fate' ∧
      fate'.isMigrated = false := by
  rw [migratedDoc_eq h]
  cases h with
  | noToken htoken => exact ⟨_, .noToken htoken, rfl⟩
  | alreadyEddsa htoken halg => exact ⟨_, .alreadyEddsa htoken halg, rfl⟩
  | unknownAlg htoken halg heddsa hhs => exact ⟨_, .unknownAlg htoken halg heddsa hhs, rfl⟩
  | invalidSignature htoken halg hnow =>
    have htoken' := (token?_set_status doc (.text "invalid_hs256_signature")).trans htoken
    exact ⟨_, .invalidSignature htoken' halg (hrefused _ htoken hnow halg), rfl⟩
  | @migrated token newToken claims htoken halg hdecode hencode =>
    obtain ⟨hne, heddsa⟩ := migrated_token hencode
    have htoken' : (doc.set [("vc_token", .text newToken), ("migrated_from_alg", .text "HS256"),
        ("migrated_at", .date now),
        ("legacy_token_sha256", .text (legacyFingerprint token))]).token? = some newToken := by
      rw [TrustDoc.token?, vcToken_set_token]
      exact if_neg hne
    exact ⟨_, .alreadyEddsa htoken' heddsa, rfl⟩

/-! The migration. -/

/-- The payload of a token is an object with these entries. -/
def HoldsClaims (token : String) (claims : PyFields) : Prop :=
  ∃ headerSeg payloadSeg sigSeg value, splitDots token = [headerSeg, payloadSeg, sigSeg] ∧
    readSegment payloadSeg = .ok value ∧ value.Same (.object claims)

/-- A token in a document is one whose header is an object, or none of JSON; and one that says
HS256 is verified and written, or it is refused at both runs. -/
def Migratable (secretKey : String) (now later : ℤ) (doc : TrustDoc) : Prop :=
  ∀ token, doc.token? = some token → Parseable token ∧
    (tokenAlg token = .ok (some "HS256") → Reissued token secretKey now ∨
      Refused token secretKey now ∧ Refused token secretKey later)

/-- What the migration is to do. -/
structure MigratesWell (secretKey : String) (clock clock' : String → ℤ) (log : TrustLog) :
    Prop where
  counted : ∃ counts, (migrate secretKey false clock log).2 = .ok counts ∧
    counts.scanned = log.docs.length ∧ counts.scanned = counts.outcomes
  dryRun : migrate secretKey true clock log = (log, (migrate secretKey false clock log).2)
  ids : (migrate secretKey false clock log).1.docs.map (·.id) = log.docs.map (·.id)
  tokens : ∀ doc ∈ log.docs, ∀ doc' ∈ (migrate secretKey false clock log).1.docs,
    doc'.id = doc.id → doc'.vcToken = doc.vcToken ∨ ∃ token newToken claims,
      doc.token? = some token ∧ doc'.vcToken = some (.text newToken) ∧
      tokenAlg token = .ok (some "HS256") ∧ Jose.verifies token secretKey = true ∧
      Jose.decode token secretKey (clock doc.id) = .ok claims ∧ HoldsClaims newToken claims
  second : ∃ counts,
    (migrate secretKey false clock' (migrate secretKey false clock log).1).2 = .ok counts ∧
      counts.migrated = 0

theorem migratedDoc_token (h : Becomes secretKey now doc fate) :
    (migratedDoc secretKey now doc).vcToken = doc.vcToken ∨ ∃ token newToken claims,
      doc.token? = some token ∧
      (migratedDoc secretKey now doc).vcToken = some (.text newToken) ∧
      tokenAlg token = .ok (some "HS256") ∧ Jose.verifies token secretKey = true ∧
      Jose.decode token secretKey now = .ok claims ∧ HoldsClaims newToken claims := by
  rw [migratedDoc_eq h]
  cases h with
  | noToken | alreadyEddsa | unknownAlg => exact .inl rfl
  | invalidSignature => exact .inl (vcToken_set_status _)
  | @migrated token newToken claims htoken halg hdecode hencode =>
    obtain ⟨header, payload, -, hpayload, hnew⟩ := encodeVc_eq_ok.mp hencode
    obtain ⟨value, hread, hsame⟩ := readSegment_payload hpayload
    have hsegments := splitDots_b64urlEncode header payload
      (signData (signingInput (b64urlEncode header) (b64urlEncode payload)))
    have hholds : HoldsClaims newToken claims :=
      ⟨_, _, _, value, hnew ▸ hsegments, hread, hsame⟩
    exact .inr ⟨token, newToken, claims, htoken, vcToken_set_token _ _ _, halg,
      Jose.verifies_of_decode hdecode, hdecode, hholds⟩

theorem migrate_eq (h : ∀ doc ∈ log.docs, ∃ fate, fateOf secretKey (clock doc.id) doc = .ok fate) :
    (migrate secretKey false clock log).1.docs =
        log.docs.map (fun doc => migratedDoc secretKey (clock doc.id) doc) ∧
      (migrate secretKey false clock log).2 =
        .ok (tally secretKey clock log.docs ⟨0, 0, 0, 0, 0, 0⟩) := by
  have hlog : log.docs = [] ++ log.docs := rfl
  exact migrateFrom_eq h hlog

theorem migratable_of_migratesWell (h : MigratesWell secretKey clock clock' log)
    (hdoc : doc ∈ log.docs) : Migratable secretKey (clock doc.id) (clock' doc.id) doc := by
  obtain ⟨counts, hcounts, -⟩ := h.counted
  have hfates := fates_of_completes hcounts
  obtain ⟨hdocs, -⟩ := migrate_eq hfates
  obtain ⟨counts', hcounts', hmigrated⟩ := h.second
  have hfates' := fates_of_completes hcounts'
  have hnone := ((tally_counts _ hfates').2.2.mp
    (Except.ok.inj ((migrate_eq hfates').2.symm.trans hcounts') ▸ hmigrated)).2
  obtain ⟨fate, hfate⟩ := hfates doc hdoc
  have hbecomes := becomes_of_fateOf hfate
  have hmem : migratedDoc secretKey (clock doc.id) doc ∈
      (migrate secretKey false clock log).1.docs := by
    rw [hdocs]
    exact List.mem_map_of_mem hdoc
  obtain ⟨fate', hfate'⟩ := hfates' _ hmem
  have hkept := hnone _ hmem _ hfate'
  rw [id_migratedDoc] at hfate'
  have hbecomes' := becomes_of_fateOf hfate'
  rw [migratedDoc_eq hbecomes] at hbecomes'
  intro token htoken
  cases hbecomes with
  | noToken hnone => rw [hnone] at htoken; cases htoken
  | alreadyEddsa htoken' halg =>
    cases htoken'.symm.trans htoken
    refine ⟨tokenAlg_total.mp ⟨_, halg⟩, fun hhs => ?_⟩
    exact absurd (Except.ok.inj (halg.symm.trans hhs)) (by decide)
  | unknownAlg htoken' halg heddsa hhs =>
    cases htoken'.symm.trans htoken
    refine ⟨tokenAlg_total.mp ⟨_, halg⟩, fun hhs' => ?_⟩
    exact absurd (Except.ok.inj (halg.symm.trans hhs')) hhs
  | migrated htoken' halg hdecode hencode =>
    cases htoken'.symm.trans htoken
    obtain ⟨header, payload, -, hpayload, -⟩ := encodeVc_eq_ok.mp hencode
    exact ⟨tokenAlg_total.mp ⟨_, halg⟩, fun _ => .inl ⟨_, payload, hdecode, hpayload⟩⟩
  | invalidSignature htoken' halg hrefused =>
    cases htoken'.symm.trans htoken
    have hsame := token?_set_status doc (.text "invalid_hs256_signature")
    refine ⟨tokenAlg_total.mp ⟨_, halg⟩, fun _ => .inr ⟨hrefused, ?_⟩⟩
    -- at the second run the token is the same, and it is not signed anew
    cases hbecomes' with
    | noToken hnone => cases (hsame.symm.trans hnone).symm.trans htoken
    | alreadyEddsa hagain heddsa =>
      cases (hsame.symm.trans hagain).symm.trans htoken
      exact absurd (Except.ok.inj (heddsa.symm.trans halg)) (by decide)
    | unknownAlg hagain halg' _ hhs =>
      cases (hsame.symm.trans hagain).symm.trans htoken
      exact absurd (Except.ok.inj (halg'.symm.trans halg)) hhs
    | invalidSignature hagain _ hlater =>
      cases (hsame.symm.trans hagain).symm.trans htoken
      exact hlater
    | migrated => cases hkept

theorem migratesWell_of_migratable
    (h : ∀ doc ∈ log.docs, Migratable secretKey (clock doc.id) (clock' doc.id) doc) :
    MigratesWell secretKey clock clock' log := by
  have hbecomes : ∀ doc ∈ log.docs, ∃ fate, Becomes secretKey (clock doc.id) doc fate :=
    fun doc hdoc => becomes_total fun token htoken =>
      ⟨(h doc hdoc token htoken).1, fun hhs => ((h doc hdoc token htoken).2 hhs).imp_right And.left⟩
  have hfates : ∀ doc ∈ log.docs, ∃ fate, fateOf secretKey (clock doc.id) doc = .ok fate :=
    fun doc hdoc => (hbecomes doc hdoc).imp fun fate => fateOf_of_becomes
  obtain ⟨hdocs, hcounts⟩ := migrate_eq hfates
  obtain ⟨hscanned, houtcomes, -⟩ := tally_counts ⟨0, 0, 0, 0, 0, 0⟩ hfates
  -- the second run comes to documents of which none is migrated
  have hagain : ∀ doc' ∈ (migrate secretKey false clock log).1.docs, ∃ fate,
      Becomes secretKey (clock' doc'.id) doc' fate ∧ fate.isMigrated = false := by
    rw [hdocs]
    intro doc' hdoc'
    obtain ⟨doc, hdoc, rfl⟩ := List.mem_map.mp hdoc'
    obtain ⟨fate, hfate⟩ := hbecomes doc hdoc
    rw [id_migratedDoc]
    refine becomes_later hfate fun token htoken hrefused hhs => ?_
    rcases (h doc hdoc token htoken).2 hhs with hreissued | ⟨-, hlater⟩
    · exact (not_reissued_and_refused hreissued hrefused).elim
    · exact hlater
  have hfates' : ∀ doc' ∈ (migrate secretKey false clock log).1.docs, ∃ fate,
      fateOf secretKey (clock' doc'.id) doc' = .ok fate := fun doc' hdoc' =>
    (hagain doc' hdoc').imp fun fate hfate => fateOf_of_becomes hfate.1
  have hkept : ∀ doc' ∈ (migrate secretKey false clock log).1.docs, ∀ fate,
      fateOf secretKey (clock' doc'.id) doc' = .ok fate → fate.isMigrated = false := by
    intro doc' hdoc' fate hfate
    obtain ⟨fate', hfate', hmigrated⟩ := hagain doc' hdoc'
    rw [fateOf_of_becomes hfate'] at hfate
    exact Except.ok.inj hfate ▸ hmigrated
  have hnone := (tally_counts ⟨0, 0, 0, 0, 0, 0⟩ hfates').2.2.mpr ⟨rfl, hkept⟩
  refine ⟨⟨_, hcounts, ?_, ?_⟩, migrateFrom_dryRun, ?_, ?_, ⟨_, (migrate_eq hfates').2, hnone⟩⟩
  · simpa using hscanned
  · rw [hscanned, houtcomes]
    rfl
  · rw [hdocs, List.map_map]
    exact List.map_congr_left fun doc _ => id_migratedDoc
  · rw [hdocs]
    intro doc hdoc doc' hdoc' hid
    obtain ⟨other, hother, rfl⟩ := List.mem_map.mp hdoc'
    rw [id_migratedDoc] at hid
    have hsame : other = doc := List.inj_on_of_nodup_map log.nodup hother hdoc hid
    rw [hsame]
    obtain ⟨fate, hfate⟩ := hbecomes doc hdoc
    exact migratedDoc_token hfate

end

/-- The migration does what it is to do if and only if each document is one that it can take. -/
theorem migratesWell_iff [PythonDumps] [CaSigner] [Jose] {secretKey : String}
    {clock clock' : String → ℤ} {log : TrustLog} :
    MigratesWell secretKey clock clock' log ↔
      ∀ doc ∈ log.docs, Migratable secretKey (clock doc.id) (clock' doc.id) doc := by
  constructor
  · intro h doc hdoc
    exact migratable_of_migratesWell h hdoc
  · intro h
    exact migratesWell_of_migratable h

/-- A library that knows one token and one secret. -/
abbrev Jose.knowing (token secretKey : String) (claims : PyFields) : Jose where
  verifies t key := t = token ∧ key = secretKey
  decode t key _ := if t = token ∧ key = secretKey then .ok claims
    else .error (.jwtError "Signature verification failed.")
  verifies_of_decode h := by
    split at h
    · rename_i heq
      exact decide_eq_true heq
    · cases h

def legacyHeaderText : String := "\x7b\"alg\":\"HS256\",\"typ\":\"JWT\"\x7d"

def legacySignature : List UInt8 := [
  248, 91, 15, 252, 163, 105, 153, 220, 5, 52, 38, 19, 142, 167, 45, 248, 64, 160, 247, 130,
  133, 228, 125, 161, 171, 90, 165, 251, 75, 202, 51, 152]

def legacyToken : String := b64urlEncode (asciiBytes legacyHeaderText) ++ "." ++
  b64urlEncode (asciiBytes subjectText) ++ "." ++ b64urlEncode legacySignature

/-- A credential of before the sunset. -/
def legacyLog : TrustLog := ⟨[⟨"1", [("vc_token", .text legacyToken)]⟩], by decide⟩

theorem legacyLog_migrates :
    letI := PythonDumps.subject [(legacyHeaderText, .ofTexts [("alg", "HS256"), ("typ", "JWT")])]
    letI := CaSigner.repeating
    letI := Jose.knowing legacyToken "secret" [("sub", .text "E")]
    MigratesWell "secret" (fun _ => 0) (fun _ => 1) legacyLog := by
  let := PythonDumps.subject [(legacyHeaderText, .ofTexts [("alg", "HS256"), ("typ", "JWT")])]
  let := CaSigner.repeating
  let := Jose.knowing legacyToken "secret" [("sub", .text "E")]
  refine migratesWell_iff.mpr fun doc hdoc token htoken => ?_
  have htoken' : token = legacyToken := by
    rw [List.mem_singleton.mp hdoc] at htoken
    have hstored : TrustDoc.token? ⟨"1", [("vc_token", .text legacyToken)]⟩ =
        if legacyToken = "" then none else some legacyToken := rfl
    rw [hstored] at htoken
    split at htoken
    · cases htoken
    · exact (Option.some.inj htoken).symm
  have hsegments := splitDots_b64urlEncode (asciiBytes legacyHeaderText) (asciiBytes subjectText)
    legacySignature
  have hread : readSegment (b64urlEncode (asciiBytes legacyHeaderText)) =
      .ok (.ofTexts [("alg", "HS256"), ("typ", "JWT")]) := by
    rw [readSegment, b64urlDecode_b64urlEncode]
    rfl
  have halg : tokenAlg legacyToken = .ok (some "HS256") := by
    simp only [tokenAlg, legacyToken, hsegments, hread]
    rfl
  have hdecode : Jose.decode legacyToken "secret" 0 = .ok [("sub", .text "E")] :=
    if_pos ⟨rfl, rfl⟩
  rw [htoken']
  exact ⟨tokenAlg_total.mp ⟨_, halg⟩, fun _ => .inl ⟨_, asciiBytes subjectText, hdecode, rfl⟩⟩

/-- The header of the token in this document is an empty array. -/
def arrayHeaderLog : TrustLog := ⟨[⟨"1", [("vc_token", .text "W10.W10.W10")]⟩], by decide⟩

theorem array_header_aborts :
    letI := PythonDumps.subject [("[]", .array [])]
    letI := CaSigner.repeating
    letI := Jose.knowing legacyToken "secret" [("sub", .text "E")]
    (migrate "secret" false (fun _ => 0) arrayHeaderLog).2 = .error .attributeError ∧
      ¬ MigratesWell "secret" (fun _ => 0) (fun _ => 1) arrayHeaderLog := by
  let := PythonDumps.subject [("[]", .array [])]
  let := CaSigner.repeating
  let := Jose.knowing legacyToken "secret" [("sub", .text "E")]
  have haborts : (migrate "secret" false (fun _ => 0) arrayHeaderLog).2 =
      .error .attributeError := by
    rfl
  refine ⟨haborts, fun h => ?_⟩
  obtain ⟨counts, hcounts, -⟩ := h.counted
  rw [haborts] at hcounts
  cases hcounts

end Finguard
