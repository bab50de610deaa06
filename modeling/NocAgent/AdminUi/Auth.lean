import NocAgent.AdminUi.Keys
import NocAgent.Library.Fallible

namespace AdminUi
open Pricing (Failure given)
open Text (strip)

inductive Audience where
  | one (name : String)
  | many (names : List String)

def Audience.values : Audience → List String
  | .one name => [name]
  | .many names => names

structure Claims where
  iss : Option String := none
  aud : Option Audience := none
  -- none also stands for an exp that is no number
  exp : Option ℚ := none
  oid : Option String := none
  sub : Option String := none
  name : Option String := none
  groups : Option (List String) := none

structure Principal where
  oid : String
  name : String
  isAdmin : Bool
deriving DecidableEq

inductive TokenFault where
  | jwkClient
  | other

-- The signature and what else the JWT library checks stand behind decode.
structure TokenVerifier where
  issuer : String
  audience : String
  adminGroup : String
  decode : String → Except TokenFault Claims

section Verify
variable (v : TokenVerifier) (now : ℚ)

def TokenVerifier.bareAudience : String :=
  if "api://".toList <+: v.audience.toList then .ofList (v.audience.toList.drop 6) else v.audience

def Claims.audiences (claims : Claims) : List String := (claims.aud.map Audience.values).getD []

def Claims.subject (claims : Claims) : Option String := (given claims.oid).or (given claims.sub)

def validateClaims (claims : Claims) : Except String Principal :=
  if claims.iss ≠ some v.issuer then .error "issuer mismatch"
  else if v.audience ∉ claims.audiences ∧ v.bareAudience ∉ claims.audiences then
    .error "audience mismatch"
  else if ¬ ∃ exp ∈ claims.exp, now ≤ exp then .error "token expired"
  else
    match claims.subject with
    | none => .error "no subject"
    | some oid =>
      .ok ⟨oid, claims.name.getD oid, decide (v.adminGroup ∈ claims.groups.getD [])⟩

def bearerPrefixed (authorization : String) : Prop :=
  (authorization.toList.take 7).map Char.toLower = "bearer ".toList

instance (authorization : String) : Decidable (bearerPrefixed authorization) :=
  inferInstanceAs (Decidable (_ = _))

def bearerToken (authorization : String) : String :=
  strip (.ofList (authorization.toList.drop 7))

def currentPrincipal (authorization : String) : Except Failure Principal :=
  if bearerPrefixed authorization then
    match v.decode (bearerToken authorization) with
    | .ok claims => (validateClaims v now claims).mapError (.http 401)
    | .error .jwkClient => .error (.http 503 "unable to validate token")
    | .error .other => .error (.http 401 "invalid token")
  else .error (.http 401 "missing bearer token")

def requireAdmin (authorization : String) : Except Failure Principal :=
  match currentPrincipal v now authorization with
  | .error failure => .error failure
  | .ok principal =>
    if principal.isAdmin then .ok principal
    else .error (.http 403 "admin group membership required")

end Verify

section Admitted
variable {v : TokenVerifier} {now : ℚ} {authorization : String} {claims : Claims}
  {principal : Principal}

structure Claims.Admits (claims : Claims) (v : TokenVerifier) (now : ℚ) (principal : Principal) :
    Prop where
  issuer : claims.iss = some v.issuer
  audience : v.audience ∈ claims.audiences ∨ v.bareAudience ∈ claims.audiences
  unexpired : ∃ exp, claims.exp = some exp ∧ now ≤ exp
  subject : claims.subject = some principal.oid
  name : principal.name = claims.name.getD principal.oid
  admin : principal.isAdmin = true ↔ v.adminGroup ∈ claims.groups.getD []

theorem validateClaims_ok_iff :
    validateClaims v now claims = .ok principal ↔ claims.Admits v now principal := by
  rw [validateClaims]
  split_ifs with hissuer haudience hexp
  · exact ⟨False.elim, fun h => absurd h.issuer hissuer⟩
  · rw [← not_or] at haudience
    exact ⟨False.elim, fun h => absurd h.audience haudience⟩
  rotate_left
  · exact ⟨False.elim, fun h => absurd h.unexpired hexp⟩
  · rw [not_not] at hissuer
    rw [← not_or, not_not] at haudience
    cases hsubject : claims.subject with
    | none =>
      refine ⟨fun h => (by cases h), fun h => ?_⟩
      rw [h.subject] at hsubject
      cases hsubject
    | some oid =>
      constructor
      · intro h
        cases h
        exact ⟨hissuer, haudience, hexp, hsubject, rfl, decide_eq_true_iff⟩
      · intro h
        obtain ⟨oid', name, isAdmin⟩ := principal
        have hoid : oid = oid' := Option.some.inj (hsubject.symm.trans h.subject)
        subst hoid
        have hname : name = claims.name.getD oid := h.name
        have hadmin : isAdmin = decide (v.adminGroup ∈ claims.groups.getD []) :=
          Bool.eq_iff_iff.mpr (h.admin.trans decide_eq_true_iff.symm)
        rw [hname, hadmin]

theorem currentPrincipal_ok_iff : currentPrincipal v now authorization = .ok principal ↔
    bearerPrefixed authorization ∧ ∃ claims,
      v.decode (bearerToken authorization) = .ok claims ∧ claims.Admits v now principal := by
  rw [currentPrincipal]
  split_ifs with hbearer
  · simp only [hbearer, true_and]
    cases hdecode : v.decode (bearerToken authorization) with
    | error fault =>
      refine ⟨fun h => ?_, fun ⟨claims, h, _⟩ => by cases h⟩
      cases fault <;> cases h
    | ok claims =>
      constructor
      · intro h
        exact ⟨claims, rfl, validateClaims_ok_iff.mp (Fallible.ok_of_mapError h)⟩
      · rintro ⟨claims', hclaims, hadmits⟩
        cases hclaims
        dsimp only
        rw [validateClaims_ok_iff.mpr hadmits]
        rfl
  · exact ⟨False.elim, fun h => absurd h.1 hbearer⟩

theorem requireAdmin_ok_iff : requireAdmin v now authorization = .ok principal ↔
    currentPrincipal v now authorization = .ok principal ∧ principal.isAdmin = true := by
  rw [requireAdmin]
  cases currentPrincipal v now authorization with
  | error failure => exact ⟨fun h => (by cases h), fun h => by cases h.1⟩
  | ok found =>
    dsimp only
    split_ifs with hadmin
    · constructor
      · intro h
        cases h
        exact ⟨rfl, hadmin⟩
      · exact fun h => h.1
    · refine ⟨fun h => (by cases h), fun h => ?_⟩
      cases h.1
      exact absurd h.2 hadmin

end Admitted

end AdminUi
