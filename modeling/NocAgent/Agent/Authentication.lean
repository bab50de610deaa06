import NocAgent.Library.Base64
import NocAgent.Library.Dict
import NocAgent.Library.Fallible
import NocAgent.Library.Json
import NocAgent.Library.Text

namespace Authentication
open Fallible Text

inductive Raised where
  | valueError
  | jsonDecodeError
  | pyJwtError
  | typeError
  | keyError (key : String)
  | other
deriving DecidableEq

def Raised.caught : Raised → Bool
  | .valueError | .jsonDecodeError | .pyJwtError => true
  | .typeError | .keyError _ | .other => false

-- The decoders, which return a value or raise what the caller catches, and str.
structure Decoders where
  b64decode : String → Except Raised (List UInt8)
  loads : List UInt8 → Except Raised Json
  jwtDecode : String → Except Raised Json.Members
  str : Json → String
  b64decode_caught : ∀ text e, b64decode text = .error e → e.caught = true
  loads_caught : ∀ bytes e, loads bytes = .error e → e.caught = true
  jwtDecode_caught : ∀ token e, jwtDecode token = .error e → e.caught = true
  str_text : ∀ text, str (.str text) = text

structure AuthenticatedCall where
  bearerToken : String
  oid : String
  displayName : String
deriving DecidableEq

abbrev RequestHeaders := List (List UInt8 × List UInt8)

def lowerByte (b : UInt8) : UInt8 := if 65 ≤ b ∧ b ≤ 90 then b + 32 else b

def bytes (text : String) : List UInt8 := text.toList.map fun c => .ofNat c.toNat

def latin1 (value : List UInt8) : String := .ofList (value.map fun b => .ofNat b.toNat)

-- A repeated header counts with its last value, a missing one as empty.
def headerText (headers : RequestHeaders) (name : String) : String :=
  latin1 ((((headers.filter (·.1.map lowerByte = bytes name)).getLast?).map (·.2)).getD [])

def padded (text : String) : String :=
  text ++ .ofList (List.replicate ((4 - text.length % 4) % 4) '=')

def truthy : Json → Bool
  | .null => false
  | .bool value => value
  | .num value => value ≠ 0
  | .str text => text ≠ ""
  | .arr items => items ≠ []
  | .obj members => members ≠ []

def number? : Json → Option ℚ
  | .num value => some value
  | .bool value => some (if value then 1 else 0)
  | _ => none

def isStr : Json → Bool
  | .str _ => true
  | _ => false

def equalsText (value : Option Json) (text : String) : Bool :=
  match value with
  | some (.str t) => t = text
  | _ => false

-- claims[key]
def getItem (claims : Json.Members) (key : String) : Except Raised Json :=
  match claims.find key with
  | some value => pure value
  | none => throw (.keyError key)

-- a <= b and a > b on a claim and the clock
def compared (value : Json) (test : ℚ → Bool) : Except Raised Bool :=
  match number? value with
  | some q => pure (test q)
  | none => throw .typeError

-- allowed.intersection(values) hashes every value.
def intersects (allowed : List String) : List Json → Except Raised Bool
  | [] => pure false
  | .arr _ :: _ | .obj _ :: _ => throw .typeError
  | value :: values => do
    let rest ← intersects allowed values
    pure (allowed.any (equalsText (some value)) || rest)

abbrev Env := String → Option String

structure Settings where
  tenantId : String
  clientId : String
  audience : String
  requiredScope : String
  allowedCallerId : String
  allowedCallerType : String

section Validated
variable (u : Unicode) (d : Decoders)

def getenv (env : Env) (name default : String) : String := u.stripText ((env name).getD default)

def settings (env : Env) : Settings where
  tenantId := getenv u env "AZURE_TENANT_ID" ""
  clientId := getenv u env "MCP_SERVER_APP_CLIENT_ID" ""
  audience := getenv u env "MCP_SERVER_AUDIENCE" ""
  requiredScope := getenv u env "MCP_REQUIRED_SCOPE" "noc.invoke"
  allowedCallerId := getenv u env "MCP_ALLOWED_CALLER_OBJECT_ID" ""
  allowedCallerType := u.lower (getenv u env "MCP_ALLOWED_CALLER_TYPE" "Group")

def Settings.allowedAudiences (s : Settings) : List String :=
  [s.clientId, s.audience].filter (· ≠ "")

def presented (headers : RequestHeaders) : Option (String × String) :=
  let authorization := headerText headers "authorization"
  let principal := headerText headers "x-ms-client-principal"
  if ¬ "Bearer ".toList <+: authorization.toList ∨ principal = "" then none
  else some (.ofList (u.strip (authorization.toList.drop 7)), principal)

def principalItems (payload : Json) : Option (List Json) :=
  match payload.member "claims" with
  | some (.arr items) => some items
  | _ => none

def principalClaim (item : Json) : Option (String × String) :=
  match (item.member "typ").filter truthy, (item.member "val").filter truthy with
  | some typ, some val => some (d.str typ, d.str val)
  | _, _ => none

def principalClaims (items : List Json) : Dict String :=
  .setAll ∅ (items.filterMap (principalClaim d))

def decodeBoth (token principal : String) :
    Except Raised (Option (List Json × Json.Members)) := do
  let principalBytes ← d.b64decode (padded principal)
  let payload ← d.loads principalBytes
  match principalItems payload with
  | none => pure none
  | some items => do
    let claims ← d.jwtDecode token
    pure (some (items, claims))

def tryDecode (token principal : String) : Except Raised (Option (List Json × Json.Members)) :=
  match decodeBoth d token principal with
  | .ok decoded => pure decoded
  | .error e => if e.caught then pure none else throw e

def listed (claims : Json.Members) (key : String) : Option (List Json) :=
  match (claims.find key).getD (.arr []) with
  | .str text => some [.str text]
  | .arr values => some values
  | _ => none

def tokenAudiences (claims : Json.Members) : Option (List Json) :=
  (listed claims "aud").filter (·.all isStr)

def scopes (claims : Json.Members) : List String :=
  u.words (d.str ((claims.find "scp").getD (.str "")))

def callerAllowed (s : Settings) (claims : Json.Members) : Except Raised Bool :=
  if s.allowedCallerId = "" then pure true
  else if s.allowedCallerType = "user" then do
    let oid ← getItem claims "oid"
    pure (equalsText (some oid) s.allowedCallerId)
  else if s.allowedCallerType = "group" then
    match listed claims "groups" with
    | some groups => pure (groups.any fun group => equalsText (some group) s.allowedCallerId)
    | none => pure false
  else pure false

def principalValue (claims : Dict String) (short uri : String) : Option String :=
  (claims.lookup short).filter (· ≠ "") |>.or (claims.lookup uri)

def matchesClaim (value : Option String) (claim : Json) : Bool :=
  match value with
  | some text => equalsText (some claim) text
  | none => match claim with
    | .null => true
    | _ => false

def principalMatches (principal : Dict String) (claims : Json.Members) : Except Raised Bool := do
  let easyAuthOid := principalValue principal "oid"
    "http://schemas.microsoft.com/identity/claims/objectidentifier"
  let easyAuthTid := principalValue principal "tid"
    "http://schemas.microsoft.com/identity/claims/tenantid"
  let oid ← getItem claims "oid"
  if ¬ matchesClaim easyAuthOid oid then pure false
  else do
    let tid ← getItem claims "tid"
    pure (matchesClaim easyAuthTid tid)

def isNumber (value : Option Json) : Bool := (value.bind number?).isSome

def inForce (claims : Json.Members) (now : ℚ) : Except Raised Bool := do
  if ¬ isNumber (claims.find "exp") then pure false
  else do
    let exp ← getItem claims "exp"
    if ← compared exp (· ≤ now) then pure false
    else if ¬ isNumber (claims.find "nbf") then pure true
    else do
      let nbf ← getItem claims "nbf"
      let early ← compared nbf (now < ·)
      pure !early

def displayName (claims : Json.Members) : Except Raised String :=
  match (claims.find "name").filter truthy, (claims.find "preferred_username").filter truthy with
  | some name, _ => pure (d.str name)
  | none, some name => pure (d.str name)
  | none, none => do
    let oid ← getItem claims "oid"
    pure (d.str oid)

def validatedClaims (s : Settings) (now : ℚ) (token : String) (principal : Dict String)
    (claims : Json.Members) : Except Raised (Option AuthenticatedCall) :=
  match tokenAudiences claims with
  | none => pure none
  | some audiences => do
    if s.tenantId = "" ∨ equalsText (claims.find "tid") s.tenantId = false then return none
    if s.allowedAudiences = [] then return none
    if (← intersects s.allowedAudiences audiences) = false then return none
    if s.requiredScope = "" ∨ s.requiredScope ∉ scopes u d claims then return none
    match claims.find "oid" with
    | some (.str oid) => do
      if oid = "" then return none
      if (← callerAllowed s claims) = false then return none
      if (← principalMatches principal claims) = false then return none
      if (← inForce claims now) = false then return none
      let name ← displayName d claims
      return some ⟨token, oid, name⟩
    | _ => return none

def validatedCall (env : Env) (headers : RequestHeaders) (now : ℚ) :
    Except Raised (Option AuthenticatedCall) :=
  match presented u headers with
  | none => pure none
  | some (token, principal) => do
    match ← tryDecode d token principal with
    | none => pure none
    | some (items, claims) =>
      validatedClaims u d (settings u env) now token (principalClaims d items) claims

inductive Dispatch where
  | unauthorized
  | app (call : Option AuthenticatedCall)

def easyAuthClaims (env : Env) (type path : String) (headers : RequestHeaders) (now : ℚ) :
    Except Raised Dispatch :=
  if type = "http" ∧ "/mcp".toList <+: path.toList then do
    match ← validatedCall u d env headers now with
    | none => pure .unauthorized
    | some call => pure (.app (some call))
  else pure (.app none)

end Validated

def claimedValue (d : Decoders) (items : List Json) (name : String) : Option String :=
  (((items.filterMap (principalClaim d)).filter (·.1 = name)).getLast?).map (·.2)

def PrincipalHas (d : Decoders) (items : List Json) (short uri value : String) : Prop :=
  claimedValue d items short = some value ∨
    (∀ text, claimedValue d items short = some text → text = "") ∧
      claimedValue d items uri = some value

def Lists (value : Option Json) (text : String) : Prop :=
  value = some (.str text) ∨ ∃ values, value = some (.arr values) ∧ .str text ∈ values

structure Settings.Complete (s : Settings) : Prop where
  tenant : s.tenantId ≠ ""
  audience : s.clientId ≠ "" ∨ s.audience ≠ ""
  scope : s.requiredScope ≠ ""
  caller : s.allowedCallerId ≠ "" →
    s.allowedCallerType = "user" ∨ s.allowedCallerType = "group"

structure Authentic (u : Unicode) (d : Decoders) (s : Settings) (now : ℚ) (items : List Json)
    (claims : Json.Members) (oid : String) : Prop where
  tenant : s.tenantId ≠ "" ∧ claims.find "tid" = some (.str s.tenantId)
  audience : ∃ audience, audience ≠ "" ∧ (audience = s.clientId ∨ audience = s.audience) ∧
    Lists (claims.find "aud") audience
  scope : s.requiredScope ≠ "" ∧ ∃ scp, claims.find "scp" = some scp ∧
    s.requiredScope ∈ u.words (d.str scp)
  user : oid ≠ "" ∧ claims.find "oid" = some (.str oid)
  principalOid : PrincipalHas d items "oid"
    "http://schemas.microsoft.com/identity/claims/objectidentifier" oid
  principalTid : PrincipalHas d items "tid"
    "http://schemas.microsoft.com/identity/claims/tenantid" s.tenantId
  exp : ∃ value exp, claims.find "exp" = some value ∧ number? value = some exp ∧ now < exp
  nbf : ∀ value nbf, claims.find "nbf" = some value → number? value = some nbf → nbf ≤ now
  caller : s.allowedCallerId ≠ "" →
    s.allowedCallerType = "user" ∧ oid = s.allowedCallerId ∨
      s.allowedCallerType = "group" ∧ Lists (claims.find "groups") s.allowedCallerId

structure Presents (u : Unicode) (d : Decoders) (headers : RequestHeaders) (token : String)
    (items : List Json) (claims : Json.Members) : Prop where
  bearer : ∃ rest, headerText headers "authorization" = "Bearer " ++ rest ∧ token = u.stripText rest
  principal : ∃ bytes payload, d.b64decode (padded (headerText headers "x-ms-client-principal")) =
    .ok bytes ∧ d.loads bytes = .ok payload ∧ payload.member "claims" = some (.arr items)
  decoded : d.jwtDecode token = .ok claims

section Spec
variable {u : Unicode} {d : Decoders} {s : Settings} {claims : Json.Members} {now : ℚ}
  {items : List Json} {oid : String}

theorem equalsText_iff {value : Option Json} {text : String} :
    equalsText value text = true ↔ value = some (.str text) := by
  cases value with
  | none => simp [equalsText]
  | some value => cases value <;> simp [equalsText]

theorem getItem_of_find {key : String} {value : Json} (h : claims.find key = some value) :
    getItem claims key = .ok value := by
  rw [getItem, h]
  rfl

theorem isStr_iff {value : Json} : isStr value = true ↔ ∃ text, value = .str text := by
  cases value <;> simp [isStr]

theorem intersects_of_isStr (allowed : List String) {values : List Json}
    (h : ∀ value ∈ values, isStr value = true) :
    ∃ found, intersects allowed values = .ok found ∧
      (found = true ↔ ∃ text ∈ allowed, .str text ∈ values) := by
  induction values with
  | nil => exact ⟨false, rfl, by simp⟩
  | cons value values ih =>
    obtain ⟨text, rfl⟩ := isStr_iff.mp (h value List.mem_cons_self)
    obtain ⟨found, hfound, hiff⟩ := ih fun v hv => h v (List.mem_cons_of_mem _ hv)
    refine ⟨allowed.any (equalsText (some (.str text))) || found, ?_, ?_⟩
    · rw [intersects, hfound]
      rfl
      · intro items h
        cases h
      · intro members h
        cases h
    · rw [Bool.or_eq_true, hiff, List.any_eq_true]
      simp only [equalsText_iff, Option.some.injEq, Json.str.injEq, List.mem_cons]
      constructor
      · rintro (⟨a, ha, rfl⟩ | ⟨a, ha, hmem⟩)
        · exact ⟨_, ha, .inl rfl⟩
        · exact ⟨a, ha, .inr hmem⟩
      · rintro ⟨a, ha, rfl | hmem⟩
        · exact .inl ⟨_, ha, rfl⟩
        · exact .inr ⟨a, ha, hmem⟩

theorem listed_spec {key : String} {values : List Json} (h : listed claims key = some values)
    {text : String} (htext : .str text ∈ values) : Lists (claims.find key) text := by
  rw [listed] at h
  cases hclaim : claims.find key with
  | none =>
    rw [hclaim] at h
    cases h
    cases htext
  | some claim =>
    rw [hclaim, Option.getD_some] at h
    cases claim with
    | str own =>
      cases h
      rw [List.mem_singleton, Json.str.injEq] at htext
      exact .inl (by rw [htext])
    | arr values =>
      cases h
      exact .inr ⟨_, rfl, htext⟩
    | null => cases h
    | bool value => cases h
    | num value => cases h
    | obj members => cases h

theorem callerAllowed_spec (hoid : claims.find "oid" = some (.str oid)) :
    ∃ allowed, callerAllowed s claims = .ok allowed ∧ (allowed = true → s.allowedCallerId ≠ "" →
      s.allowedCallerType = "user" ∧ oid = s.allowedCallerId ∨
        s.allowedCallerType = "group" ∧ Lists (claims.find "groups") s.allowedCallerId) := by
  rw [callerAllowed]
  split_ifs with hnone huser hgroup
  · exact ⟨true, rfl, fun _ h => absurd hnone h⟩
  · refine ⟨equalsText (some (.str oid)) s.allowedCallerId, ?_, fun h _ => .inl ⟨huser, ?_⟩⟩
    · rw [getItem_of_find hoid]
      rfl
    · simpa using equalsText_iff.mp h
  · cases hgroups : listed claims "groups" with
    | none => exact ⟨false, rfl, fun h => by cases h⟩
    | some groups =>
      refine ⟨_, rfl, fun h _ => .inr ⟨hgroup, ?_⟩⟩
      obtain ⟨group, hmem, hequals⟩ := List.any_eq_true.mp h
      rw [equalsText_iff, Option.some.injEq] at hequals
      exact listed_spec hgroups (hequals ▸ hmem)
  · exact ⟨false, rfl, fun h => by cases h⟩

theorem principalHas_of_value {short uri value : String}
    (h : principalValue (principalClaims d items) short uri = some value) :
    PrincipalHas d items short uri value := by
  have hlookup : ∀ name, (principalClaims d items).lookup name = claimedValue d items name := by
    intro name
    rw [principalClaims, Dict.lookup_setAll_last, AList.lookup_empty, Option.or_none, claimedValue]
  rw [principalValue, hlookup, hlookup] at h
  cases hshort : claimedValue d items short with
  | none =>
    rw [hshort] at h
    refine .inr ⟨fun text htext => ?_, h⟩
    rw [hshort] at htext
    cases htext
  | some text =>
    rw [hshort, Option.filter_some] at h
    by_cases hempty : text = ""
    · rw [if_neg (by simpa using hempty)] at h
      refine .inr ⟨fun other hother => ?_, h⟩
      rw [hshort, Option.some.injEq] at hother
      rw [← hother, hempty]
    · rw [if_pos (by simpa using hempty), Option.some_or] at h
      exact .inl (hshort.trans h)

theorem matchesClaim_text {value : Option String} {text : String}
    (h : matchesClaim value (.str text) = true) : value = some text := by
  cases value with
  | none => cases h
  | some own =>
    have hequals : equalsText (some (.str text)) own = true := h
    rw [equalsText_iff, Option.some.injEq, Json.str.injEq] at hequals
    rw [hequals]

theorem principalMatches_spec (d : Decoders) (items : List Json) {tid : String}
    (hoid : claims.find "oid" = some (.str oid)) (htid : claims.find "tid" = some (.str tid)) :
    ∃ same, principalMatches (principalClaims d items) claims = .ok same ∧ (same = true →
      PrincipalHas d items "oid"
        "http://schemas.microsoft.com/identity/claims/objectidentifier" oid ∧
      PrincipalHas d items "tid" "http://schemas.microsoft.com/identity/claims/tenantid" tid) := by
  rw [principalMatches, getItem_of_find hoid, getItem_of_find htid]
  simp only [bind, Except.bind]
  split_ifs with hmatch
  · exact ⟨_, rfl, fun h => ⟨principalHas_of_value (matchesClaim_text hmatch),
      principalHas_of_value (matchesClaim_text h)⟩⟩
  · exact ⟨false, rfl, fun h => by cases h⟩

theorem compared_of_number {value : Json} {q : ℚ} (h : number? value = some q) (test : ℚ → Bool) :
    compared value test = .ok (test q) := by
  rw [compared, h]
  rfl

theorem isNumber_iff {value : Option Json} :
    isNumber value = true ↔ ∃ claim q, value = some claim ∧ number? claim = some q := by
  cases value with
  | none => simp [isNumber]
  | some claim => simp [isNumber, Option.isSome_iff_exists]

theorem inForce_spec (claims : Json.Members) (now : ℚ) :
    ∃ valid, inForce claims now = .ok valid ∧ (valid = true →
      (∃ value exp, claims.find "exp" = some value ∧ number? value = some exp ∧ now < exp) ∧
        ∀ value nbf, claims.find "nbf" = some value → number? value = some nbf → nbf ≤ now) := by
  rw [inForce]
  by_cases hexp : isNumber (claims.find "exp") = true
  · obtain ⟨value, exp, hvalue, hnumber⟩ := isNumber_iff.mp hexp
    rw [if_neg (not_not.mpr hexp), getItem_of_find hvalue]
    simp only [bind, Except.bind, compared_of_number hnumber]
    by_cases hlate : exp ≤ now
    · exact ⟨false, by rw [decide_eq_true hlate]; rfl, fun h => by cases h⟩
    · have hafter : now < exp := not_le.mp hlate
      rw [decide_eq_false hlate, if_neg Bool.false_ne_true]
      by_cases hnbf : isNumber (claims.find "nbf") = true
      · obtain ⟨value', nbf, hvalue', hnumber'⟩ := isNumber_iff.mp hnbf
        rw [if_neg (not_not.mpr hnbf), getItem_of_find hvalue']
        simp only [compared_of_number hnumber']
        refine ⟨_, rfl, fun h => ⟨⟨value, exp, hvalue, hnumber, hafter⟩, ?_⟩⟩
        intro other q hother hq
        rw [hvalue', Option.some.injEq] at hother
        subst hother
        rw [hnumber', Option.some.injEq] at hq
        subst hq
        simpa using h
      · rw [if_pos hnbf]
        exact ⟨true, rfl, fun _ => ⟨⟨value, exp, hvalue, hnumber, hafter⟩, fun other q hother hq =>
          absurd (isNumber_iff.mpr ⟨other, q, hother, hq⟩) hnbf⟩⟩
  · rw [if_pos hexp]
    exact ⟨false, rfl, fun h => by cases h⟩

theorem displayName_ok (d : Decoders) (hoid : claims.find "oid" = some (.str oid)) :
    ∃ name, displayName d claims = .ok name := by
  rw [displayName]
  split
  · exact ⟨_, rfl⟩
  · exact ⟨_, rfl⟩
  · rw [getItem_of_find hoid]
    exact ⟨_, rfl⟩

-- An answer that raises nothing and gives a call only where P holds of it.
def Answers (P : AuthenticatedCall → Prop) (answer : Except Raised (Option AuthenticatedCall)) :
    Prop :=
  ∃ result, answer = .ok result ∧ ∀ call, result = some call → P call

theorem answers_none {P : AuthenticatedCall → Prop} : Answers P (.ok none) :=
  ⟨none, rfl, fun call h => by cases h⟩

theorem answers_unless {P : AuthenticatedCall → Prop} {c : Prop} [Decidable c]
    {answer : Except Raised (Option AuthenticatedCall)} (h : ¬ c → Answers P answer) :
    Answers P (if c then .ok none else answer) := by
  split_ifs with hc
  · exact answers_none
  · exact h hc

theorem audiences_listed {audiences : List Json} (h : tokenAudiences claims = some audiences) :
    listed claims "aud" = some audiences ∧ ∀ value ∈ audiences, isStr value = true := by
  rw [tokenAudiences, Option.filter_eq_some_iff, List.all_eq_true] at h
  exact h

theorem mem_allowedAudiences {audience : String} (h : audience ∈ s.allowedAudiences) :
    audience ≠ "" ∧ (audience = s.clientId ∨ audience = s.audience) := by
  rw [Settings.allowedAudiences, List.mem_filter, List.mem_pair, decide_eq_true_eq] at h
  exact ⟨h.2, h.1⟩

theorem scope_of_mem {scope : String} (h : scope ∈ scopes u d claims) :
    ∃ scp, claims.find "scp" = some scp ∧ scope ∈ u.words (d.str scp) := by
  rw [scopes] at h
  cases hscp : claims.find "scp" with
  | some scp =>
    rw [hscp] at h
    exact ⟨scp, rfl, h⟩
  | none =>
    rw [hscp, Option.getD_none, d.str_text] at h
    cases h

theorem validatedClaims_answers (u : Unicode) (d : Decoders) (s : Settings) (now : ℚ)
    (items : List Json) (claims : Json.Members) (token : String) :
    Answers (fun call => call.bearerToken = token ∧ Authentic u d s now items claims call.oid)
      (validatedClaims u d s now token (principalClaims d items) claims) := by
  rw [validatedClaims]
  cases haudiences : tokenAudiences claims with
  | none => exact answers_none
  | some audiences =>
    obtain ⟨hlisted, hstr⟩ := audiences_listed haudiences
    obtain ⟨found, hfound, hfound_iff⟩ := intersects_of_isStr s.allowedAudiences hstr
    simp only [bind, Except.bind, pure, Except.pure, hfound]
    refine answers_unless fun htenant => answers_unless fun _ => answers_unless fun hshared =>
      answers_unless fun hscope => ?_
    rw [not_or, Bool.not_eq_false, equalsText_iff] at htenant
    rw [not_or, not_not] at hscope
    split
    case h_2 => exact answers_none
    case h_1 oid hoid =>
      refine answers_unless fun hempty => ?_
      obtain ⟨allowed, hallowed, hcaller⟩ := callerAllowed_spec (s := s) hoid
      obtain ⟨same, hsame, hprincipal⟩ :=
        principalMatches_spec d items hoid htenant.2
      obtain ⟨valid, hvalid, htime⟩ := inForce_spec claims now
      obtain ⟨name, hname⟩ := displayName_ok d hoid
      simp only [hallowed, hsame, hvalid, hname]
      refine answers_unless fun hallows => answers_unless fun hmatches =>
        answers_unless fun hlive => ⟨_, rfl, ?_⟩
      rintro call ⟨⟩
      obtain ⟨audience, hmem, hin⟩ := hfound_iff.mp (eq_true_of_ne_false hshared)
      obtain ⟨hnonempty, hconfigured⟩ := mem_allowedAudiences hmem
      exact ⟨rfl,
        { tenant := htenant
          audience := ⟨audience, hnonempty, hconfigured, listed_spec hlisted hin⟩
          scope := ⟨hscope.1, scope_of_mem hscope.2⟩
          user := ⟨hempty, hoid⟩
          principalOid := (hprincipal (eq_true_of_ne_false hmatches)).1
          principalTid := (hprincipal (eq_true_of_ne_false hmatches)).2
          exp := (htime (eq_true_of_ne_false hlive)).1
          nbf := (htime (eq_true_of_ne_false hlive)).2
          caller := hcaller (eq_true_of_ne_false hallows) }⟩

theorem decodeBoth_caught {token principal : String} {e : Raised}
    (h : decodeBoth d token principal = .error e) : e.caught = true := by
  rcases error_of_bind h with hbytes | ⟨bytes, -, h⟩
  · exact d.b64decode_caught _ _ hbytes
  rcases error_of_bind h with hpayload | ⟨payload, -, h⟩
  · exact d.loads_caught _ _ hpayload
  split at h
  · cases h
  · rcases error_of_bind h with hclaims | ⟨claims, -, h⟩
    · exact d.jwtDecode_caught _ _ hclaims
    · cases h

theorem member_of_principalItems {payload : Json} {items : List Json}
    (h : principalItems payload = some items) : payload.member "claims" = some (.arr items) := by
  rw [principalItems] at h
  split at h
  · rename_i items' hmember
    cases h
    exact hmember
  · cases h

theorem decodeBoth_some {token principal : String} {items : List Json} {claims : Json.Members}
    (h : decodeBoth d token principal = .ok (some (items, claims))) :
    (∃ bytes payload, d.b64decode (padded principal) = .ok bytes ∧ d.loads bytes = .ok payload ∧
      payload.member "claims" = some (.arr items)) ∧ d.jwtDecode token = .ok claims := by
  obtain ⟨bytes, hbytes, h⟩ := ok_of_bind h
  obtain ⟨payload, hpayload, h⟩ := ok_of_bind h
  split at h
  · cases h
  · rename_i items' hitems
    obtain ⟨claims', hclaims, h⟩ := ok_of_bind h
    cases h
    exact ⟨⟨bytes, payload, hbytes, hpayload, member_of_principalItems hitems⟩, hclaims⟩

theorem tryDecode_spec (token principal : String) :
    ∃ decoded, tryDecode d token principal = .ok decoded ∧
      ∀ items claims, decoded = some (items, claims) →
        decodeBoth d token principal = .ok (some (items, claims)) := by
  rw [tryDecode]
  cases hboth : decodeBoth d token principal with
  | ok decoded => exact ⟨decoded, rfl, fun items claims h => by rw [h]⟩
  | error e =>
    refine ⟨none, ?_, fun items claims h => by cases h⟩
    simp only [decodeBoth_caught hboth, if_true]
    rfl

theorem presented_spec {headers : RequestHeaders} {token principal : String}
    (h : presented u headers = some (token, principal)) :
    (∃ rest, headerText headers "authorization" = "Bearer " ++ rest ∧ token = u.stripText rest) ∧
      principal = headerText headers "x-ms-client-principal" := by
  rw [presented] at h
  split_ifs at h with hmissing
  obtain ⟨hstart, -⟩ := not_or.mp hmissing
  obtain ⟨rest, hrest⟩ := not_not.mp hstart
  rw [Option.some.injEq, Prod.mk.injEq, ← hrest] at h
  refine ⟨⟨.ofList rest, ?_, ?_⟩, h.2.symm⟩
  · rw [← String.toList_inj, String.toList_append, ← hrest]
    exact congrArg _ String.toList_ofList.symm
  · rw [← h.1, Unicode.stripText]
    exact congrArg (fun cs => String.ofList (u.strip cs)) String.toList_ofList.symm

theorem Authentic.complete (h : Authentic u d s now items claims oid) : s.Complete where
  tenant := h.tenant.1
  audience := by
    obtain ⟨audience, hnonempty, rfl | rfl, -⟩ := h.audience
    · exact .inl hnonempty
    · exact .inr hnonempty
  scope := h.scope.1
  caller hid := (h.caller hid).imp And.left And.left

theorem validatedCall_answers (u : Unicode) (env : Env) (headers : RequestHeaders) (now : ℚ) :
    Answers (fun call => ∃ items claims, Presents u d headers call.bearerToken items claims ∧
        Authentic u d (settings u env) now items claims call.oid)
      (validatedCall u d env headers now) := by
  rw [validatedCall]
  cases hpresented : presented u headers with
  | none => exact answers_none
  | some pair =>
    obtain ⟨token, principal⟩ := pair
    obtain ⟨hbearer, rfl⟩ := presented_spec hpresented
    obtain ⟨decoded, hdecoded, hboth⟩ :=
      tryDecode_spec (d := d) token (headerText headers "x-ms-client-principal")
    simp only [bind, Except.bind, hdecoded]
    cases decoded with
    | none => exact answers_none
    | some pair =>
      obtain ⟨items, claims⟩ := pair
      obtain ⟨hprincipal, hclaims⟩ := decodeBoth_some (hboth items claims rfl)
      obtain ⟨result, hresult, hcall⟩ :=
        validatedClaims_answers u d (settings u env) now items claims token
      refine ⟨result, hresult, fun call hsome => ?_⟩
      obtain ⟨htoken, hauthentic⟩ := hcall call hsome
      exact ⟨items, claims, ⟨htoken ▸ hbearer, hprincipal, htoken ▸ hclaims⟩, hauthentic⟩

theorem call_authentic (u : Unicode) (d : Decoders) (env : Env) (headers : RequestHeaders)
    (now : ℚ) :
    ∃ result, validatedCall u d env headers now = .ok result ∧
      (∀ call, result = some call → ∃ items claims,
        Presents u d headers call.bearerToken items claims ∧
          Authentic u d (settings u env) now items claims call.oid) ∧
      (¬ (settings u env).Complete → result = none) := by
  obtain ⟨result, hresult, hcall⟩ := validatedCall_answers u env headers now
  refine ⟨result, hresult, hcall, fun hincomplete => ?_⟩
  cases result with
  | none => rfl
  | some call =>
    obtain ⟨items, claims, -, hauthentic⟩ := hcall call rfl
    exact absurd hauthentic.complete hincomplete

theorem dispatch_authentic (env : Env) {path : String} (hpath : "/mcp".toList <+: path.toList)
    (headers : RequestHeaders) (now : ℚ) :
    easyAuthClaims u d env "http" path headers now = .ok .unauthorized ∨
      ∃ call items claims, easyAuthClaims u d env "http" path headers now = .ok (.app (some call)) ∧
        Presents u d headers call.bearerToken items claims ∧
        Authentic u d (settings u env) now items claims call.oid := by
  obtain ⟨result, hresult, hcall⟩ := validatedCall_answers (d := d) u env headers now
  rw [easyAuthClaims, if_pos ⟨rfl, hpath⟩, hresult]
  cases result with
  | none => exact .inl rfl
  | some call =>
    obtain ⟨items, claims, hpresents, hauthentic⟩ := hcall call rfl
    exact .inr ⟨call, items, claims, rfl, hpresents, hauthentic⟩

end Spec

def asciiText (bytes : List UInt8) : List Char := bytes.map fun b => .ofNat b.toNat

def decodeText (text : List Char) : Except Raised (List UInt8) :=
  match Base64.decode text with
  | some bytes => .ok bytes
  | none => .error .valueError

def loadsText (bytes : List UInt8) : Except Raised Json :=
  match Json.read (asciiText bytes) with
  | some payload => .ok payload
  | none => .error .jsonDecodeError

def tokenPayload (token : String) : Option Json := do
  match token.toList.splitOn '.' with
  | [_, segment, _] =>
    let bytes ← Base64.decode (padded (.ofList segment)).toList
    Json.read (asciiText bytes)
  | _ => none

def decodeToken (token : String) : Except Raised Json.Members :=
  match tokenPayload token with
  | some (.obj claims) => .ok claims
  | _ => .error .pyJwtError

def textOf : Json → String
  | .str text => text
  | _ => ""

def demoDecoders : Decoders where
  b64decode text := decodeText text.toList
  loads := loadsText
  jwtDecode := decodeToken
  str := textOf
  b64decode_caught text e h := by
    rw [decodeText] at h
    split at h <;> cases h
    rfl
  loads_caught bytes e h := by
    rw [loadsText] at h
    split at h <;> cases h
    rfl
  jwtDecode_caught token e h := by
    rw [decodeToken] at h
    split at h <;> cases h
    rfl
  str_text _ := rfl

def demoToken : String := "eyJhbGciOiJub25lIn0." ++
  "eyJ0aWQiOiJ0LTEiLCJhdWQiOiJub2MiLCJvaWQiOiJhZGEiLCJzY3AiOiJub2MuaW52b2tlIiwiZXhwIjoyMDAwfQ" ++
  ".c2ln"

def demoHeaders : RequestHeaders :=
  [(bytes "Authorization", bytes ("Bearer " ++ demoToken)),
    (bytes "x-ms-client-principal", bytes ("eyJjbGFpbXMiOlt7InR5cCI6Im9pZCIsInZhbCI6ImFkYSJ9" ++
      "LHsidHlwIjoidGlkIiwidmFsIjoidC0xIn1dfQ=="))]

def demoEnv : Env
  | "AZURE_TENANT_ID" => some "t-1"
  | "MCP_SERVER_APP_CLIENT_ID" => some "noc"
  | "MCP_ALLOWED_CALLER_TYPE" => some "robot"
  | _ => none

theorem unrestricted_caller_accepted :
    demoEnv "MCP_ALLOWED_CALLER_OBJECT_ID" = none ∧
      demoEnv "MCP_ALLOWED_CALLER_TYPE" = some "robot" ∧
      validatedCall ascii demoDecoders demoEnv demoHeaders 1000 =
        .ok (some ⟨demoToken, "ada", "ada"⟩) := by
  refine ⟨by decide, by decide, ?_⟩
  decide +kernel

end Authentication
