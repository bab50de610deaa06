import Mathlib.Data.Nat.Notation
import Mathlib.Logic.Relation
import Mathlib.Tactic.SplitIfs

namespace Agent

-- A response of the SDK: a record is a dictionary, or a typed object read by its attributes.
inductive Value where
  | none
  | text (text : String)
  | number (nonzero : Bool)
  | items (values : List Value)
  | record (typed : Bool) (fields : List (String × Value))

namespace Value

def truthy : Value → Bool
  | none => false
  | text s => s ≠ ""
  | number nonzero => nonzero
  | items values => !values.isEmpty
  | record typed fields => typed || !fields.isEmpty

def or (a b : Value) : Value := if a.truthy then a else b

def field : List (String × Value) → String → Value
  | [], _ => none
  | (name, value) :: rest, key => if name = key then value else field rest key

def isConsentRequest (fields : List (String × Value)) : Bool :=
  match field fields "type" with
  | text s => s = "oauth_consent_request"
  | _ => false

def consentLink (fields : List (String × Value)) : Value :=
  (field fields "consent_link").or (field fields "consentLink")

mutual

-- What walk finds, a value that is not truthy where it finds nothing.
def extractOauthConsentUrl : Value → Value
  | items values => walkItems values
  | record _ fields =>
    if isConsentRequest fields then consentLink fields
    else (walkField fields "output").or
      ((walkField fields "response").or ((walkField fields "data").or none))
  | _ => none

def walkItems : List Value → Value
  | [] => none
  | value :: rest => (extractOauthConsentUrl value).or (walkItems rest)

def walkField : List (String × Value) → String → Value
  | [], _ => none
  | (name, value) :: rest, key =>
    if name = key then extractOauthConsentUrl value else walkField rest key

end

mutual

def requestsConsent : Value → Bool
  | items values => anyRequests values
  | record _ fields => isConsentRequest fields || fieldRequests fields "output" ||
      fieldRequests fields "response" || fieldRequests fields "data"
  | _ => false

def anyRequests : List Value → Bool
  | [] => false
  | value :: rest => requestsConsent value || anyRequests rest

def fieldRequests : List (String × Value) → String → Bool
  | [], _ => false
  | (name, value) :: rest, key =>
    if name = key then requestsConsent value else fieldRequests rest key

end

theorem truthy_or (a b : Value) : (a.or b).truthy = (a.truthy || b.truthy) := by
  unfold or
  cases ha : a.truthy <;> simp [ha]

mutual

theorem requestsConsent_of_link : ∀ v : Value,
    (extractOauthConsentUrl v).truthy = true → requestsConsent v = true
  | none, h => by cases h
  | text _, h => by cases h
  | number _, h => by cases h
  | items values, h => by
    rw [requestsConsent]
    exact anyRequests_of_link values h
  | record _ fields, h => by
    rw [requestsConsent]
    rw [extractOauthConsentUrl] at h
    cases hrequest : isConsentRequest fields with
    | true => rfl
    | false =>
      simp only [hrequest, Bool.false_eq_true, if_false, truthy_or, Bool.or_eq_true] at h
      obtain h | h | h | h := h
      · simp [fieldRequests_of_link fields "output" h]
      · simp [fieldRequests_of_link fields "response" h]
      · simp [fieldRequests_of_link fields "data" h]
      · cases h

theorem anyRequests_of_link : ∀ values : List Value,
    (walkItems values).truthy = true → anyRequests values = true
  | [], h => by cases h
  | value :: rest, h => by
    rw [anyRequests, Bool.or_eq_true]
    rw [walkItems, truthy_or, Bool.or_eq_true] at h
    exact h.imp (requestsConsent_of_link value) (anyRequests_of_link rest)

theorem fieldRequests_of_link : ∀ (fields : List (String × Value)) (key : String),
    (walkField fields key).truthy = true → fieldRequests fields key = true
  | [], _, h => by cases h
  | (name, value) :: rest, key, h => by
    rw [fieldRequests]
    rw [walkField] at h
    by_cases hname : name = key
    · rw [if_pos hname] at h ⊢
      exact requestsConsent_of_link value h
    · rw [if_neg hname] at h ⊢
      exact fieldRequests_of_link rest key h

end

def wrappers : List String := ["output", "response", "data"]

inductive Child : Value → Value → Prop
  | item {value : Value} {values : List Value} (h : value ∈ values) : Child (items values) value
  | member {typed : Bool} {fields : List (String × Value)} {name : String}
      (hplain : isConsentRequest fields = false) (hname : name ∈ wrappers) :
      Child (record typed fields) (field fields name)

def Reaches (root value : Value) : Prop := Relation.ReflTransGen Child root value

def HasLink (fields : List (String × Value)) : Prop :=
  (field fields "consent_link").truthy = true ∨ (field fields "consentLink").truthy = true

instance (fields : List (String × Value)) : Decidable (HasLink fields) :=
  inferInstanceAs (Decidable (_ ∨ _))

def Requests (root : Value) (fields : List (String × Value)) : Prop :=
  ∃ typed, Reaches root (record typed fields) ∧ isConsentRequest fields = true

mutual

def consentRequests : Value → List (List (String × Value))
  | items values => itemRequests values
  | record _ fields =>
    if isConsentRequest fields then [fields]
    else memberRequests fields "output" ++
      (memberRequests fields "response" ++ memberRequests fields "data")
  | _ => []

def itemRequests : List Value → List (List (String × Value))
  | [] => []
  | value :: rest => consentRequests value ++ itemRequests rest

def memberRequests : List (String × Value) → String → List (List (String × Value))
  | [], _ => []
  | (name, value) :: rest, key =>
    if name = key then consentRequests value else memberRequests rest key

end

-- What is returned without a link: the empty one of the response itself, if it is a request.
def emptyLink : Value → Value
  | record _ fields =>
    if isConsentRequest fields = true ∧ ¬ HasLink fields then field fields "consentLink" else none
  | _ => none

def firstLink (requests : List (List (String × Value))) (otherwise : Value) : Value :=
  (requests.find? fun fields => HasLink fields).elim otherwise consentLink

section Search
variable {fields : List (String × Value)} {a b v : Value}

theorem or_of_truthy (h : a.truthy = true) : a.or b = a := if_pos h

theorem or_of_not_truthy (h : a.truthy = false) : a.or b = b :=
  if_neg (by rw [h]; exact Bool.false_ne_true)

theorem truthy_consentLink : (consentLink fields).truthy = true ↔ HasLink fields := by
  rw [consentLink, truthy_or, Bool.or_eq_true, HasLink]

theorem consentLink_of_no_link (h : ¬ HasLink fields) :
    consentLink fields = field fields "consentLink" :=
  or_of_not_truthy (eq_false_of_ne_true fun hlink => h (.inl hlink))

theorem truthy_emptyLink (v : Value) : (emptyLink v).truthy = false := by
  cases v with
  | none => rfl
  | text s => rfl
  | number nonzero => rfl
  | items values => rfl
  | record typed fields =>
    rw [emptyLink]
    split_ifs with h
    · exact eq_false_of_ne_true fun hlink => h.2 (.inr hlink)
    · rfl

theorem truthy_firstLink {requests : List (List (String × Value))}
    (hb : b.truthy = false) :
    (firstLink requests b).truthy = true ↔ ∃ fields ∈ requests, HasLink fields := by
  rw [firstLink]
  cases hfind : requests.find? fun fields => HasLink fields with
  | none =>
    have hnone : ∀ fields ∈ requests, ¬ HasLink fields := by simpa using hfind
    refine iff_of_false (by rw [Option.elim_none, hb]; exact Bool.false_ne_true) ?_
    rintro ⟨fields, hmem, hlink⟩
    exact hnone fields hmem hlink
  | some fields =>
    have hlink : HasLink fields := by simpa using List.find?_some hfind
    exact iff_of_true (truthy_consentLink.mpr hlink)
      ⟨fields, List.mem_of_find?_eq_some hfind, hlink⟩

theorem firstLink_append (requests rest : List (List (String × Value))) (ha : a.truthy = false) :
    (firstLink requests a).or (firstLink rest b) = firstLink (requests ++ rest) b := by
  rw [firstLink, firstLink, firstLink, List.find?_append]
  cases hfind : requests.find? fun fields => HasLink fields with
  | none => exact or_of_not_truthy ha
  | some fields =>
    have hlink : HasLink fields := by simpa using List.find?_some hfind
    exact or_of_truthy (truthy_consentLink.mpr hlink)

end Search

mutual

theorem extract_eq : ∀ v : Value,
    extractOauthConsentUrl v = firstLink (consentRequests v) (emptyLink v)
  | none => rfl
  | text _ => rfl
  | number _ => rfl
  | items values => walkItems_eq values
  | record _ fields => by
    rw [extractOauthConsentUrl, consentRequests, emptyLink]
    cases hrequest : isConsentRequest fields with
    | true =>
      by_cases hlink : HasLink fields
      · simp [firstLink, hlink]
      · simp [firstLink, hlink, consentLink_of_no_link hlink]
    | false =>
      obtain ⟨output, houtput, houtput_eq⟩ := walkField_eq fields "output"
      obtain ⟨response, hresponse, hresponse_eq⟩ := walkField_eq fields "response"
      obtain ⟨data, hdata, hdata_eq⟩ := walkField_eq fields "data"
      have hend : (firstLink (memberRequests fields "data") data).or none =
          firstLink (memberRequests fields "data") none := by
        have happend := firstLink_append (b := none) (memberRequests fields "data") [] hdata
        rwa [List.append_nil] at happend
      simp only [Bool.false_eq_true, if_false, false_and]
      rw [houtput_eq, hresponse_eq, hdata_eq, hend, firstLink_append _ _ hresponse,
        firstLink_append _ _ houtput]

theorem walkItems_eq : ∀ values : List Value,
    walkItems values = firstLink (itemRequests values) none
  | [] => rfl
  | value :: rest => by
    rw [walkItems, itemRequests, extract_eq value, walkItems_eq rest,
      firstLink_append _ _ (truthy_emptyLink value)]

theorem walkField_eq : ∀ (fields : List (String × Value)) (key : String),
    ∃ otherwise : Value, otherwise.truthy = false ∧
      walkField fields key = firstLink (memberRequests fields key) otherwise
  | [], _ => ⟨none, rfl, rfl⟩
  | (name, value) :: rest, key => by
    rw [walkField, memberRequests]
    split_ifs
    · exact ⟨emptyLink value, truthy_emptyLink value, extract_eq value⟩
    · exact walkField_eq rest key

end

def LinkReached (root : Value) : Prop := ∃ fields, Requests root fields ∧ HasLink fields

section Reach
variable {fields fs : List (String × Value)} {typed : Bool} {root : Value} {values : List Value}

theorem not_requests_of_leaf (h : ∀ value, ¬ Child root value)
    (hroot : ∀ typed fields, root ≠ record typed fields) : ¬ Requests root fields := by
  rintro ⟨typed, hreach, -⟩
  rcases Relation.ReflTransGen.cases_head hreach with heq | ⟨value, hchild, -⟩
  · exact hroot _ _ heq
  · exact h value hchild

theorem requests_items_iff :
    Requests (items values) fields ↔ ∃ value ∈ values, Requests value fields := by
  constructor
  · rintro ⟨typed, hreach, hrequest⟩
    rcases Relation.ReflTransGen.cases_head hreach with heq | ⟨value, hchild, hrest⟩
    · cases heq
    · cases hchild with
      | item hmem => exact ⟨value, hmem, typed, hrest, hrequest⟩
  · rintro ⟨value, hmem, typed, hreach, hrequest⟩
    exact ⟨typed, .head (.item hmem) hreach, hrequest⟩

theorem requests_of_request (h : isConsentRequest fs = true) :
    Requests (record typed fs) fields ↔ fields = fs := by
  constructor
  · rintro ⟨typed', hreach, -⟩
    rcases Relation.ReflTransGen.cases_head hreach with heq | ⟨value, hchild, -⟩
    · cases heq
      rfl
    · cases hchild with
      | member hplain =>
        rw [h] at hplain
        cases hplain
  · rintro rfl
    exact ⟨typed, .refl, h⟩

theorem requests_of_plain (h : isConsentRequest fs = false) :
    Requests (record typed fs) fields ↔ ∃ name ∈ wrappers, Requests (field fs name) fields := by
  constructor
  · rintro ⟨typed', hreach, hrequest⟩
    rcases Relation.ReflTransGen.cases_head hreach with heq | ⟨value, hchild, hrest⟩
    · cases heq
      rw [h] at hrequest
      cases hrequest
    · cases hchild with
      | member _ hname => exact ⟨_, hname, typed', hrest, hrequest⟩
  · rintro ⟨name, hname, typed', hreach, hrequest⟩
    exact ⟨typed', .head (.member h hname) hreach, hrequest⟩

end Reach

mutual

theorem mem_consentRequests : ∀ (v : Value) (fields : List (String × Value)),
    fields ∈ consentRequests v ↔ Requests v fields
  | none, _ => iff_of_false List.not_mem_nil
      (not_requests_of_leaf (fun _ h => by cases h) fun _ _ h => by cases h)
  | text _, _ => iff_of_false List.not_mem_nil
      (not_requests_of_leaf (fun _ h => by cases h) fun _ _ h => by cases h)
  | number _, _ => iff_of_false List.not_mem_nil
      (not_requests_of_leaf (fun _ h => by cases h) fun _ _ h => by cases h)
  | items values, fields => by
    rw [consentRequests, mem_itemRequests values fields, requests_items_iff]
  | record _ fs, fields => by
    rw [consentRequests]
    cases hrequest : isConsentRequest fs with
    | true => rw [if_pos rfl, List.mem_singleton, requests_of_request hrequest]
    | false =>
      rw [if_neg Bool.false_ne_true, requests_of_plain hrequest, List.mem_append, List.mem_append,
        mem_memberRequests fs "output", mem_memberRequests fs "response",
        mem_memberRequests fs "data"]
      simp [wrappers]

theorem mem_itemRequests : ∀ (values : List Value) (fields : List (String × Value)),
    fields ∈ itemRequests values ↔ ∃ value ∈ values, Requests value fields
  | [], _ => by simp [itemRequests]
  | value :: rest, fields => by
    rw [itemRequests, List.mem_append, mem_consentRequests value, mem_itemRequests rest]
    simp

theorem mem_memberRequests : ∀ (fs : List (String × Value)) (key : String)
    (fields : List (String × Value)),
    fields ∈ memberRequests fs key ↔ Requests (field fs key) fields
  | [], _, _ => iff_of_false List.not_mem_nil
      (not_requests_of_leaf (fun _ h => by cases h) fun _ _ h => by cases h)
  | (name, value) :: rest, key, fields => by
    rw [memberRequests, field]
    split_ifs
    · exact mem_consentRequests value fields
    · exact mem_memberRequests rest key fields

end

theorem truthy_extract_iff (v : Value) :
    (extractOauthConsentUrl v).truthy = true ↔ LinkReached v := by
  rw [extract_eq, truthy_firstLink (truthy_emptyLink v), LinkReached]
  exact exists_congr fun fields => and_congr_left fun _ => mem_consentRequests v fields

theorem extract_of_no_link {v : Value} (h : ¬ LinkReached v) :
    extractOauthConsentUrl v = emptyLink v := by
  have hnone : ((consentRequests v).find? fun fields => HasLink fields) = Option.none := by
    rw [List.find?_eq_none]
    intro fields hmem hlink
    exact h ⟨fields, (mem_consentRequests v fields).mp hmem, of_decide_eq_true hlink⟩
  rw [extract_eq, firstLink, hnone, Option.elim_none]

theorem extract_of_link {v : Value} (h : LinkReached v) :
    ∃ before fields after, consentRequests v = before ++ fields :: after ∧
      (∀ other ∈ before, ¬ HasLink other) ∧ HasLink fields ∧
      extractOauthConsentUrl v = consentLink fields := by
  obtain ⟨fields, hrequests, hlink⟩ := h
  cases hfind : (consentRequests v).find? fun fields => HasLink fields with
  | none =>
    rw [List.find?_eq_none] at hfind
    exact absurd (decide_eq_true hlink)
      (hfind fields ((mem_consentRequests v fields).mpr hrequests))
  | some first =>
    obtain ⟨hfirst, before, after, hsplit, hbefore⟩ := List.find?_eq_some_iff_append.mp hfind
    refine ⟨before, first, after, hsplit, fun other hother => ?_, of_decide_eq_true hfirst, ?_⟩
    · simpa using hbefore other hother
    · rw [extract_eq, firstLink, hfind, Option.elim_some]

theorem consent_link_found_iff (v : Value) :
    (∀ fields, fields ∈ consentRequests v ↔ Requests v fields) ∧
    (extractOauthConsentUrl v = none ↔ ¬ LinkReached v ∧ emptyLink v = none) ∧
    ((extractOauthConsentUrl v).truthy = false ↔ ¬ LinkReached v) ∧
    (¬ LinkReached v → extractOauthConsentUrl v = emptyLink v) ∧
    (LinkReached v → ∃ before fields after, consentRequests v = before ++ fields :: after ∧
      (∀ other ∈ before, ¬ HasLink other) ∧ HasLink fields ∧
      extractOauthConsentUrl v = consentLink fields) := by
  refine ⟨mem_consentRequests v, ⟨fun hnone => ?_, fun h => ?_⟩, ?_, extract_of_no_link,
    extract_of_link⟩
  · have hlink : ¬ LinkReached v := by
      rw [← truthy_extract_iff, hnone]
      exact Bool.false_ne_true
    exact ⟨hlink, (extract_of_no_link hlink).symm.trans hnone⟩
  · exact (extract_of_no_link h.1).trans h.2
  · rw [← truthy_extract_iff, Bool.not_eq_true]

section Example

def emptyRequest : Value :=
  record false [("type", text "oauth_consent_request"), ("consentLink", text "")]

theorem empty_link_returned :
    extractOauthConsentUrl emptyRequest = text "" ∧ ¬ LinkReached emptyRequest ∧
      ¬ (extractOauthConsentUrl emptyRequest = none ↔ ¬ LinkReached emptyRequest) := by
  have hempty : extractOauthConsentUrl emptyRequest = text "" := by rfl
  have hlink : ¬ LinkReached emptyRequest := by
    rw [← truthy_extract_iff, hempty]
    decide
  refine ⟨hempty, hlink, fun h => ?_⟩
  rw [hempty] at h
  cases h.mpr hlink

end Example

end Value

end Agent
