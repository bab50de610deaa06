import NocAgent.Library.Json
import NocAgent.RunLedger.Service
import Mathlib.Tactic.NormNum

namespace Gateway

open Json.Members RunLedger RunLedger.RunLedgerService

-- The conversions of a token: none where the conversion throws, a null string or bool as none
-- inside. Only what the policy meets in a decision is fixed.
structure Newtonsoft where
  toText : Json → String
  asString : Json → Option (Option String)
  asInt : Json → Option ℤ
  asBool : Json → Option (Option Bool)
  asString_null : asString .null = some none
  asString_str : ∀ text, asString (.str text) = some (some text)
  asInt_nat : ∀ n : ℕ, asInt (.num n) = if n < 2 ^ 31 then some (n : ℤ) else none

def actionName : Action → String
  | .allow => "allow"
  | .mutate => "mutate"
  | .queue => "queue"
  | .halt => "halt"

def nullable : Option String → Json
  | none => .null
  | some text => .str text

def nullableNat : Option ℕ → Json
  | none => .null
  | some n => .num n

-- The body of the precall reply: a field that is None is written as null.
def responseMembers (r : PrecallResponse) : Json.Members :=
  [("action", .str (actionName r.action)), ("model_override", nullable r.modelOverride),
    ("max_output_tokens", nullableNat r.maxOutputTokens), ("inject", nullable r.inject),
    ("halt_reason", nullable r.haltReason), ("reservation_id", nullable r.reservationId)]

section Policy
variable (nt : Newtonsoft) (d b : Json.Members)

def overrideModel : Option Json.Members :=
  match find d "model_override" with
  | none => some b
  | some token => (nt.asString token).map fun text => put b "model" (nullable text)

def capField : String :=
  if (find b "input").isSome then "max_output_tokens" else "max_tokens"

def capOutput : Option Json.Members :=
  match find d "max_output_tokens" with
  | none => some b
  | some token => (nt.asInt token).map fun n => put b (capField b) (.num n)

def systemMessage (content : Json) : Json := .obj [("role", .str "system"), ("content", content)]

def inputText : Json → String
  | .str text => text
  | token => nt.toText token

def separator : String := "\n\n[system]: "

def injectText : Option Json.Members :=
  match find d "inject" with
  | none => some b
  | some token =>
    match find b "messages" with
    | some (.arr items) => (nt.asString token).map fun text =>
        put b "messages" (.arr (items ++ [systemMessage (nullable text)]))
    | _ =>
      match find b "input" with
      | none => some b
      | some input => (nt.asString token).map fun text =>
          put b "input" (.str (inputText nt input ++ separator ++ text.getD ""))

def streamOptions : Option Json.Members :=
  match find b "stream" with
  | none => some b
  | some token => (nt.asBool token).map fun value =>
      if value = some true ∧ (find b "messages").isSome then
        put b "stream_options" (.obj [("include_usage", .bool true)])
      else b

def mutateBody : Option Json.Members := do
  let b ← overrideModel nt d b
  let b ← capOutput nt d b
  let b ← injectText nt d b
  streamOptions nt b

end Policy

section Contract
variable (nt : Newtonsoft) (b : Json.Members)

def Shaped : Prop := (∃ items, find b "messages" = some (.arr items)) ∨ find b "input" ≠ none

def promptField : String :=
  match find b "messages" with
  | some (.arr _) => "messages"
  | _ => "input"

def promptWith (text : String) : Json :=
  match find b "messages" with
  | some (.arr items) => .arr (items ++ [systemMessage (.str text)])
  | _ => .str (inputText nt ((find b "input").getD .null) ++ separator ++ text)

def expected (d : Decision) (key : String) : Option Json :=
  if key = "model" then
    match d.modelOverride with
    | none => find b key
    | some model => some (.str model)
  else if key = capField b then
    match d.maxOutputTokens with
    | none => find b key
    | some n => some (.num n)
  else if key = promptField b then
    match d.inject with
    | none => find b key
    | some text => some (promptWith nt b text)
  else find b key

def Forwards (d : Decision) (reservationId : Option String) : Prop :=
  ∃ b', mutateBody nt (responseMembers (precallResponse d reservationId)) b = some b' ∧
    ∀ key, key ≠ "stream_options" → find b' key = expected nt b d key

end Contract

section Decided
variable {run : RunState} {prices : Prices} {est : ℕ} {maxOut : Option ℕ} {promptHash : String}
  {pol : Policies} {d : Decision}

theorem granted_of_mutate {modelOverride inject : Option String} {cap : ℕ}
    (hm : (granted prices est maxOut modelOverride inject cap).action = .mutate) :
    (granted prices est maxOut modelOverride inject cap).modelOverride = modelOverride ∧
      (granted prices est maxOut modelOverride inject cap).inject = inject ∧
      (granted prices est maxOut modelOverride inject cap).maxOutputTokens = some cap := by
  unfold granted at hm ⊢
  split_ifs at hm ⊢
  exact ⟨rfl, rfl, rfl⟩

theorem preCallWorstCase_of_mutate {modelOverride inject : Option String} {cap : ℕ}
    (hd : preCallWorstCase run prices est maxOut modelOverride inject cap = .ok d)
    (hm : d.action = .mutate) :
    d.modelOverride = modelOverride ∧ d.inject = inject ∧ ∃ n, d.maxOutputTokens = some n := by
  unfold preCallWorstCase at hd
  split_ifs at hd
  · cases hd
    cases hm
  · cases hd
    obtain ⟨hmodel, hinject, hcap⟩ := granted_of_mutate hm
    exact ⟨hmodel, hinject, _, hcap⟩
  · cases hd
    obtain ⟨hmodel, hinject, hcap⟩ := granted_of_mutate hm
    exact ⟨hmodel, hinject, _, hcap⟩

theorem decide_of_mutate (hd : RunLedger.decide run prices est maxOut promptHash pol = .ok d)
    (hm : d.action = .mutate) :
    (d.inject.isSome ↔ repeats run promptHash pol ∨ steers run pol) ∧
      (d.modelOverride.isSome ↔ ¬ repeats run promptHash pol ∧ steers run pol) ∧
      ∃ n, d.maxOutputTokens = some n := by
  unfold RunLedger.decide at hd
  split_ifs at hd with hhalt hspend hsteps hrep hconc
  · cases hd
    cases hm
  · cases hd
    cases hm
  · cases hd
    cases hm
  · cases hd
    exact ⟨by simp [hrep], by simp [hrep], _, rfl⟩
  · cases hd
    cases hm
  · obtain ⟨hmodel, hinject, hcap⟩ := preCallWorstCase_of_mutate hd hm
    refine ⟨?_, ?_, hcap⟩
    · rw [hinject, costGuardInject]
      split_ifs with hsteer
      · simp [hsteer]
      · simp [hsteer, hrep]
    · rw [hmodel, costGuardModel]
      split_ifs with hsteer
      · simp [hsteer, hrep]
      · simp [hsteer]

end Decided

section Steps
variable {nt : Newtonsoft} {b : Json.Members} (r : PrecallResponse)

theorem asString_nullable (text : Option String) : nt.asString (nullable text) = some text := by
  cases text with
  | none => exact nt.asString_null
  | some text => exact nt.asString_str text

theorem overrideModel_response :
    overrideModel nt (responseMembers r) b = some (put b "model" (nullable r.modelOverride)) := by
  simp [overrideModel, responseMembers, find, asString_nullable]

theorem capOutput_response {n : ℕ} (hn : r.maxOutputTokens = some n) :
    capOutput nt (responseMembers r) b =
      if n < 2 ^ 31 then some (put b (capField b) (.num n)) else none := by
  have hget : find (responseMembers r) "max_output_tokens" = some (.num n) := by
    simp [responseMembers, find, hn, nullableNat]
  simp only [capOutput, hget, nt.asInt_nat]
  split_ifs
  · simp
  · rfl

def injected (nt : Newtonsoft) (b : Json.Members) (text : Option String) : Json :=
  match find b "messages" with
  | some (.arr items) => .arr (items ++ [systemMessage (nullable text)])
  | _ => .str (inputText nt ((find b "input").getD .null) ++ separator ++ text.getD "")

theorem injectText_response (hb : Shaped b) :
    injectText nt (responseMembers r) b =
      some (put b (promptField b) (injected nt b r.inject)) := by
  have hget : find (responseMembers r) "inject" = some (nullable r.inject) := by
    simp [responseMembers, find]
  simp only [injectText, hget, asString_nullable, Option.map_some]
  unfold promptField injected
  split
  · rfl
  · rename_i hnot
    rcases hb with ⟨items, hitems⟩ | hinput
    · exact absurd hitems (hnot items)
    · obtain ⟨input, hinput⟩ := Option.ne_none_iff_exists'.mp hinput
      simp only [hinput, Option.getD_some]

theorem injected_some (text : String) : injected nt b (some text) = promptWith nt b text := rfl

theorem injected_none_ne (hb : Shaped b) : some (injected nt b none) ≠ find b (promptField b) := by
  unfold injected promptField
  split
  · rename_i items hitems
    intro he
    have hlength := congrArg List.length (Json.arr.inj (Option.some.inj (he.trans hitems)))
    simp at hlength
  · rename_i hnot
    rcases hb with ⟨items, hitems⟩ | hinput
    · exact absurd hitems (hnot items)
    · obtain ⟨input, hinput⟩ := Option.ne_none_iff_exists'.mp hinput
      intro he
      rw [hinput, Option.getD_some] at he
      cases input with
      | str text =>
        have hlength := congrArg String.length (Json.str.inj (Option.some.inj he))
        simp [inputText, separator] at hlength
      | _ => cases he

theorem mutateBody_response {n : ℕ} (hn : r.maxOutputTokens = some n) (hb : Shaped b) :
    mutateBody nt (responseMembers r) b =
      if n < 2 ^ 31 then
        streamOptions nt (((b.put "model" (nullable r.modelOverride)).put (capField b) (.num n)).put
          (promptField b) (injected nt b r.inject))
      else none := by
  have hcap : capField (b.put "model" (nullable r.modelOverride)) = capField b := by
    simp [capField]
  rw [mutateBody, overrideModel_response, Option.bind_eq_bind, Option.bind_some,
    capOutput_response r hn, hcap]
  split_ifs
  · have hmessages : ∀ key, key = "messages" ∨ key = "input" →
        find ((b.put "model" (nullable r.modelOverride)).put (capField b) (.num n)) key =
          find b key := by
      rintro key (rfl | rfl) <;> unfold capField <;> split_ifs <;> simp
    have hshaped :
        Shaped ((b.put "model" (nullable r.modelOverride)).put (capField b) (.num n)) := by
      rw [Shaped, hmessages _ (.inl rfl), hmessages _ (.inr rfl)]
      exact hb
    rw [Option.bind_some, injectText_response r hshaped, Option.bind_some]
    simp only [promptField, injected, hmessages _ (Or.inl rfl), hmessages _ (Or.inr rfl)]
  · rfl

theorem streamOptions_isSome :
    (streamOptions nt b).isSome ↔ ∀ token ∈ find b "stream", nt.asBool token ≠ none := by
  unfold streamOptions
  cases find b "stream" with
  | none => simp
  | some token =>
    rw [Option.isSome_map, Option.isSome_iff_ne_none]
    simp

theorem find_streamOptions {b' : Json.Members} (hb' : streamOptions nt b = some b') {key : String}
    (hkey : key ≠ "stream_options") : find b' key = find b key := by
  unfold streamOptions at hb'
  split at hb'
  · cases hb'
    rfl
  · obtain ⟨value, -, hb'⟩ := Option.map_eq_some_iff.mp hb'
    split_ifs at hb' <;> subst hb'
    · rw [find_put, if_neg hkey]
    · rfl

theorem promptField_cases : promptField b = "messages" ∨ promptField b = "input" := by
  unfold promptField
  split
  · exact .inl rfl
  · exact .inr rfl

theorem capField_cases : capField b = "max_output_tokens" ∨ capField b = "max_tokens" := by
  unfold capField
  split_ifs
  · exact .inl rfl
  · exact .inr rfl

theorem fields_distinct : promptField b ≠ "model" ∧ promptField b ≠ capField b ∧
    capField b ≠ "model" ∧ "stream" ≠ promptField b ∧ "stream" ≠ capField b ∧
    promptField b ≠ "stream_options" := by
  rcases promptField_cases (b := b) with hp | hp <;>
    rcases capField_cases (b := b) with hc | hc <;>
      rw [hp, hc] <;> decide

def rewritten (nt : Newtonsoft) (b : Json.Members) (r : PrecallResponse) (n : ℕ) : Json.Members :=
  ((b.put "model" (nullable r.modelOverride)).put (capField b) (.num n)).put (promptField b)
    (injected nt b r.inject)

theorem forwards_iff_rewritten {d : Decision} {reservationId : Option String} {n : ℕ}
    (hn : d.maxOutputTokens = some n) (hb : Shaped b) :
    Forwards nt b d reservationId ↔
      n < 2 ^ 31 ∧ (∀ token ∈ find b "stream", nt.asBool token ≠ none) ∧
      ∀ key, key ≠ "stream_options" →
        find (rewritten nt b (precallResponse d reservationId) n) key = expected nt b d key := by
  obtain ⟨-, -, -, hsp, hsc, -⟩ := fields_distinct (b := b)
  have hstream : find (rewritten nt b (precallResponse d reservationId) n) "stream" =
      find b "stream" := by
    simp [rewritten, hsp, hsc]
  rw [← hstream, ← streamOptions_isSome, Forwards, mutateBody_response _ hn hb]
  constructor
  · rintro ⟨b', hb', hkeys⟩
    split_ifs at hb' with hlt
    refine ⟨hlt, Option.isSome_iff_exists.mpr ⟨b', hb'⟩, fun key hkey => ?_⟩
    rw [← hkeys key hkey]
    exact (find_streamOptions hb' hkey).symm
  · rintro ⟨hlt, hsome, hkeys⟩
    obtain ⟨b', hb'⟩ := Option.isSome_iff_exists.mp hsome
    refine ⟨b', by rw [if_pos hlt]; exact hb', fun key hkey => ?_⟩
    rw [← hkeys key hkey]
    exact find_streamOptions hb' hkey

theorem rewritten_expected_iff {d : Decision} {reservationId : Option String} {n : ℕ}
    (hn : d.maxOutputTokens = some n) (hb : Shaped b) :
    (∀ key, key ≠ "stream_options" →
      find (rewritten nt b (precallResponse d reservationId) n) key = expected nt b d key) ↔
      d.inject ≠ none ∧ (d.modelOverride ≠ none ∨ find b "model" = some .null) := by
  obtain ⟨hpm, hpc, hcm, -, -, hps⟩ := fields_distinct (b := b)
  have hinject : (precallResponse d reservationId).inject = d.inject := rfl
  have hmodel : (precallResponse d reservationId).modelOverride = d.modelOverride := rfl
  simp only [rewritten, find_put, hinject, hmodel]
  constructor
  · intro hkeys
    refine ⟨fun hnone => ?_, ?_⟩
    · have hprompt := hkeys (promptField b) hps
      simp only [expected, if_neg hpm, if_neg hpc, hnone] at hprompt
      exact injected_none_ne hb hprompt
    · rw [or_iff_not_imp_left, not_not]
      intro hnone
      have hkept := hkeys "model" (by decide)
      simp only [expected, if_neg hpm.symm, if_neg hcm.symm, hnone] at hkept
      exact hkept.symm
  · rintro ⟨hinj, hmod⟩ key -
    obtain ⟨text, htext⟩ := Option.ne_none_iff_exists'.mp hinj
    unfold expected
    by_cases hkp : key = promptField b
    · subst hkp
      rw [if_pos rfl, if_neg hpm, if_neg hpc, if_pos rfl, htext, injected_some]
    · rw [if_neg hkp, if_neg hkp]
      by_cases hkc : key = capField b
      · subst hkc
        rw [if_pos rfl, if_neg hcm, if_pos rfl, hn]
      · rw [if_neg hkc, if_neg hkc]
        by_cases hkm : key = "model"
        · subst hkm
          rw [if_pos rfl, if_pos rfl]
          cases hoverride : d.modelOverride with
          | some model => rfl
          | none =>
            rcases hmod with hmod | hmod
            · exact absurd hoverride hmod
            · exact hmod.symm
        · rw [if_neg hkm, if_neg hkm]

theorem mutate_forwards_iff (nt : Newtonsoft) {run : RunState} {prices : Prices} {est : ℕ}
    {maxOut : Option ℕ} {promptHash : String} {pol : Policies} {d : Decision}
    (hd : RunLedger.decide run prices est maxOut promptHash pol = .ok d)
    (hm : d.action = .mutate) {b : Json.Members} (hb : Shaped b)
    (reservationId : Option String) :
    Forwards nt b d reservationId ↔
      (if repeats run promptHash pol then find b "model" = some .null else steers run pol) ∧
      (∀ n ∈ d.maxOutputTokens, n < 2 ^ 31) ∧
      ∀ token ∈ find b "stream", nt.asBool token ≠ none := by
  obtain ⟨hinject, hmodel, n, hn⟩ := decide_of_mutate hd hm
  have hcap : (∀ m ∈ d.maxOutputTokens, m < 2 ^ 31) ↔ n < 2 ^ 31 := by simp [hn]
  rw [forwards_iff_rewritten hn hb, rewritten_expected_iff hn hb, hcap,
    ← Option.isSome_iff_ne_none, ← Option.isSome_iff_ne_none, hinject, hmodel]
  split_ifs with hrep
  · constructor
    · rintro ⟨hlt, hstream, -, hmod⟩
      exact ⟨hmod.resolve_left fun hsteer => hsteer.1 hrep, hlt, hstream⟩
    · rintro ⟨hnull, hlt, hstream⟩
      exact ⟨hlt, hstream, .inl hrep, .inr hnull⟩
  · constructor
    · rintro ⟨hlt, hstream, hinj, -⟩
      exact ⟨hinj.resolve_left hrep, hlt, hstream⟩
    · rintro ⟨hsteer, hlt, hstream⟩
      exact ⟨hlt, hstream, .inr hsteer, .inl ⟨hrep, hsteer⟩⟩

end Steps

section Example

def demoNewtonsoft : Newtonsoft where
  toText
    | .str text => text
    | _ => ""
  asString
    | .null => some none
    | .str text => some (some text)
    | _ => none
  asInt
    | .num q => if q.den = 1 ∧ q.num < 2 ^ 31 ∧ -2 ^ 31 ≤ q.num then some q.num else none
    | _ => none
  asBool
    | .null => some none
    | .bool value => some (some value)
    | _ => none
  asString_null := rfl
  asString_str _ := rfl
  asInt_nat n := by simp

def demoPrices : Prices := { inputMicros := 5 / 2, outputMicros := 10 }

def demoBody : Json.Members := [("model", .str "gpt-5.4"), ("input", .str "why?")]

-- The worst case of 1024 tokens does not fit, that of 750 does: only the cap is decided.
def shortRun : RunState := { budgetMicros := 10000 }

def capOnly : Decision :=
  { action := .mutate, maxOutputTokens := some 750, reserveMicros := 10000 }

def guardedRun : RunState := { budgetMicros := 2000000, spendMicros := 1700000 }

def steering : Decision :=
  { action := .mutate
    modelOverride := some "gpt-5.4-mini"
    maxOutputTokens := some 1024
    inject := some "Budget is nearly exhausted. Answer from what you have."
    reserveMicros := 12740 }

theorem mutate_forwards_iff_steering :
    Forwards demoNewtonsoft demoBody steering (some "u") ↔
      (if repeats guardedRun "h" {} then find demoBody "model" = some .null
        else steers guardedRun {}) ∧
      (∀ n ∈ steering.maxOutputTokens, n < 2 ^ 31) ∧
      ∀ token ∈ find demoBody "stream", demoNewtonsoft.asBool token ≠ none :=
  have hd : RunLedger.decide guardedRun demoPrices 1000 (some 1024) "h" {} = .ok steering := by
    decide +kernel
  mutate_forwards_iff demoNewtonsoft hd rfl (.inr (by simp [demoBody, find])) (some "u")

theorem cap_only_rewrites_model_and_prompt :
    RunLedger.decide shortRun demoPrices 1000 (some 1024) "h" {} = .ok capOnly ∧
      capOnly.action = .mutate ∧ Shaped demoBody ∧
      mutateBody demoNewtonsoft (responseMembers (precallResponse capOnly (some "u"))) demoBody =
        some [("model", .null), ("input", .str ("why?" ++ "\n\n[system]: ")),
          ("max_output_tokens", .num 750)] ∧
      ¬ Forwards demoNewtonsoft demoBody capOnly (some "u") := by
  have hb : Shaped demoBody := .inr (by simp [demoBody, find])
  have hout : mutateBody demoNewtonsoft (responseMembers (precallResponse capOnly (some "u")))
      demoBody = some [("model", .null), ("input", .str ("why?" ++ "\n\n[system]: ")),
        ("max_output_tokens", .num 750)] := by
    rw [mutateBody_response _ rfl hb]
    rfl
  refine ⟨by decide +kernel, rfl, hb, hout, ?_⟩
  rintro ⟨b', hb', hkeys⟩
  cases hout.symm.trans hb'
  have hmodel := hkeys "model" (by decide)
  simp [find, expected, demoBody, capOnly] at hmodel

end Example

end Gateway
