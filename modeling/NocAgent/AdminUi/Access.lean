import NocAgent.AdminUi.Api

namespace AdminUi
open Noninterference Trace
open Pricing (Failure)

structure Claims.Admin (claims : Claims) (v : TokenVerifier) (now : ℚ) : Prop where
  issuer : claims.iss = some v.issuer
  audience : v.audience ∈ claims.audiences ∨ v.bareAudience ∈ claims.audiences
  unexpired : ∃ exp, claims.exp = some exp ∧ now ≤ exp
  subject : claims.subject ≠ none
  group : v.adminGroup ∈ claims.groups.getD []

def FromAdmin (v : TokenVerifier) (q : ApiRequest) : Prop :=
  bearerPrefixed q.authorization ∧ ∃ claims,
    v.decode (bearerToken q.authorization) = .ok claims ∧ claims.Admin v q.now

theorem fromAdmin_iff {v : TokenVerifier} {q : ApiRequest} :
    FromAdmin v q ↔ ∃ principal, requireAdmin v q.now q.authorization = .ok principal := by
  constructor
  · rintro ⟨hbearer, claims, hdecode, h⟩
    obtain ⟨oid, hoid⟩ := Option.ne_none_iff_exists'.mp h.subject
    refine ⟨⟨oid, claims.name.getD oid, true⟩, requireAdmin_ok_iff.mpr ⟨?_, rfl⟩⟩
    refine currentPrincipal_ok_iff.mpr ⟨hbearer, claims, hdecode, ?_⟩
    exact ⟨h.issuer, h.audience, h.unexpired, hoid, rfl, iff_of_true rfl h.group⟩
  · rintro ⟨principal, h⟩
    obtain ⟨hprincipal, hadmin⟩ := requireAdmin_ok_iff.mp h
    obtain ⟨hbearer, claims, hdecode, hadmits⟩ := currentPrincipal_ok_iff.mp hprincipal
    refine ⟨hbearer, claims, hdecode, hadmits.issuer, hadmits.audience, hadmits.unexpired, ?_,
      hadmits.admin.mp hadmin⟩
    rw [hadmits.subject]
    exact Option.some_ne_none _

instance (v : TokenVerifier) : DecidablePred (FromAdmin v) := fun q =>
  decidable_of_iff ((requireAdmin v q.now q.authorization).toOption.isSome = true) <| by
    rw [fromAdmin_iff]
    cases requireAdmin v q.now q.authorization with
    | error failure => exact ⟨fun h => (by cases h), fun ⟨_, h⟩ => (by cases h)⟩
    | ok principal => exact iff_of_true rfl ⟨principal, rfl⟩

def Route.writesPricing : Route → Bool
  | .admin (.pricingWrite _) => true
  | _ => false

def WritesPricing (q : ApiRequest) : Prop := q.route.writesPricing = true

instance : DecidablePred WritesPricing := fun q =>
  inferInstanceAs (Decidable (q.route.writesPricing = true))

def Outside (v : TokenVerifier) (q : ApiRequest) : Prop := ¬ FromAdmin v q

instance (v : TokenVerifier) : DecidablePred (Outside v) := fun q =>
  inferInstanceAs (Decidable (¬ FromAdmin v q))

-- The prices are the one thing an administrator writes that the open routes show.
def Shown (v : TokenVerifier) (q : ApiRequest) : Prop := Outside v q ∨ WritesPricing q

instance (v : TokenVerifier) : DecidablePred (Shown v) := fun q =>
  inferInstanceAs (Decidable (Outside v q ∨ WritesPricing q))

section Unwinding
variable {s : Settings} {v : TokenVerifier} {site site' : Site} {q : ApiRequest}

theorem requireAdmin_of_outside (h : Outside v q) :
    ∃ failure, requireAdmin v q.now q.authorization = .error failure := by
  cases hadmin : requireAdmin v q.now q.authorization with
  | error failure => exact ⟨failure, rfl⟩
  | ok principal => exact absurd (fromAdmin_iff.mpr ⟨principal, hadmin⟩) h

theorem handle_outside (h : Outside v q) (site : Site) : (handle s site v q).1 = site := by
  obtain ⟨failure, hfailure⟩ := requireAdmin_of_outside h
  rw [handle]
  cases q.route with
  | healthz => rfl
  | config => rfl
  | me => rfl
  | admin route => rw [hfailure]

theorem answer_outside (h : Outside v q) (hpricing : site.pricing = site'.pricing) :
    (handle s site v q).2 = (handle s site' v q).2 := by
  obtain ⟨failure, hfailure⟩ := requireAdmin_of_outside h
  rw [handle, handle]
  cases q.route with
  | healthz => rfl
  | config => simp only [hpricing]
  | me => rfl
  | admin route => simp only [hfailure]

theorem pricing_handleAdmin (principal : Principal) {route : AdminRoute}
    (h : ∀ call, route ≠ .pricingWrite call) :
    (handleAdmin s site principal route).1.pricing = site.pricing := by
  cases route with
  | pricingWrite call => exact absurd rfl (h call)
  | deleteConsumer consumer =>
    rw [handleAdmin, removeConsumer]
    cases deleteConsumer site.keys consumer <;> rfl
  | _ => rfl

theorem pricing_handle (h : ¬ WritesPricing q) :
    (handle s site v q).1.pricing = site.pricing := by
  rw [handle]
  cases hroute : q.route with
  | healthz => rfl
  | config => rfl
  | me => rfl
  | admin route =>
    dsimp only
    cases requireAdmin v q.now q.authorization with
    | error failure => rfl
    | ok principal =>
      refine pricing_handleAdmin principal fun call hcall => h ?_
      rw [WritesPricing, hroute, hcall]
      rfl

theorem pricing_writePricing {call : Pricing.Call} (hpricing : site.pricing = site'.pricing) :
    (writePricing s site call).1.pricing = (writePricing s site' call).1.pricing := by
  rw [writePricing, writePricing, hpricing]
  cases call.respond s.azureLocation site'.pricing with
  | error failure => exact hpricing
  | ok doc => rfl

theorem pricing_handle_eq (h : WritesPricing q) (hpricing : site.pricing = site'.pricing) :
    (handle s site v q).1.pricing = (handle s site' v q).1.pricing := by
  rw [WritesPricing] at h
  rw [handle, handle]
  cases hroute : q.route with
  | healthz | config | me =>
    rw [hroute] at h
    cases h
  | admin route =>
    rw [hroute] at h
    cases route with
    | pricingWrite call =>
      dsimp only
      cases requireAdmin v q.now q.authorization with
      | error failure => exact hpricing
      | ok principal => exact pricing_writePricing hpricing
    | _ => cases h

theorem api_unwinding (s : Settings) (v : TokenVerifier) :
    Unwinding (api s v) (Outside v) (Shown v) fun site site' => site.pricing = site'.pricing where
  outside_kept _ h := .inl h
  answer _ _ _ h hpricing := answer_outside h hpricing
  step site site' q h hpricing := by
    rcases h with houtside | hwrites
    · exact (congrArg Site.pricing (handle_outside houtside site)).trans
        (hpricing.trans (congrArg Site.pricing (handle_outside houtside site')).symm)
    · exact pricing_handle_eq hwrites hpricing
  hidden site site' q h hpricing := (pricing_handle fun hwrites => h (.inr hwrites)).trans hpricing

theorem run_outside (site : Site) (requests : List ApiRequest) :
    run (api s v).step site requests =
      run (api s v).step site (requests.filter (FromAdmin v ·)) := by
  induction requests generalizing site with
  | nil => rfl
  | cons q requests ih =>
    by_cases hadmin : FromAdmin v q
    · rw [List.filter_cons_of_pos (by simpa using hadmin)]
      exact ih _
    · rw [List.filter_cons_of_neg (by simpa using hadmin), run_cons]
      exact (congrArg (run _ · requests) (handle_outside hadmin site)).trans (ih site)

end Unwinding

theorem outsiders_see_prices (s : Settings) (v : TokenVerifier) (site : Site)
    (requests : List ApiRequest) :
    run (api s v).step site requests =
        run (api s v).step site (requests.filter (FromAdmin v ·)) ∧
      (api s v).observed (Outside v) site requests =
        (api s v).observed (Outside v) { pricing := site.pricing }
          (requests.filter (Shown v ·)) := by
  have hblank : site.pricing = ({ pricing := site.pricing } : Site).pricing := rfl
  exact ⟨run_outside site requests, (api_unwinding s v).observed_filter hblank requests⟩

end AdminUi
