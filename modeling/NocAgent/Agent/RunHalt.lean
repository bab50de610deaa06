import NocAgent.Library.BreadthFirst
import NocAgent.Library.Dict
import NocAgent.Library.Text
import NocAgent.Agent.RunLedgerClient

namespace RunHalt
open Text BreadthFirst

-- What a headers attribute gives when its items are asked for.
inductive Headers where
  | pairs (items : List (String × String))
  | unreadable

structure Response where
  statusCode : Option ℤ := none
  headers : Option Headers := none

structure Exc (ν : Type) where
  -- the reason of a _RunHaltedError
  runHalted : Option String := none
  response : Option Response := none
  statusCode : Option ℤ := none
  headers : Option Headers := none
  args : List ν := []
  cause : Option ν := none
  context : Option ν := none

structure HttpError where
  statusCode : ℤ
  headers : Option Headers

def Exc.links {ν : Type} (exc : Exc ν) : List ν :=
  exc.args ++ (exc.cause.toList ++ exc.context.toList)

def Exc.httpError {ν : Type} (exc : Exc ν) : Option HttpError :=
  match exc.response.bind fun r => r.statusCode.map (HttpError.mk · r.headers) with
  | some error => some error
  | none =>
    match exc.statusCode, exc.headers with
    | some statusCode, some headers => some ⟨statusCode, some headers⟩
    | _, _ => none

def headerItems : Option Headers → List (String × String)
  | some (.pairs items) => items
  | _ => []

def normalizeHeaders (u : Unicode) (headers : Option Headers) : Dict String :=
  .setAll ∅ ((headerItems headers).map fun (k, v) => (u.lower k, v))

def nonEmpty (value : Option String) : Option String := value.filter (· ≠ "")

def detailsHaltReason : ℤ × Dict String → Option String
  | (statusCode, headers) =>
    if statusCode = 403 then nonEmpty (headers.lookup "x-run-halt-reason")
    else if statusCode = 429 then
      (nonEmpty (headers.lookup "retry-after")).map fun after =>
        "Concurrency cap reached. Retry after " ++ after ++ " second(s)."
    else none

section Extract
variable {ν : Type} [Fintype ν] [DecidableEq ν] (u : Unicode) (heap : ν → Exc ν)

def extractHttpErrorDetails (exc : ν) : Option (ℤ × Dict String) :=
  (search (fun x => (heap x).links) (fun x => (heap x).httpError) [exc] ∅).map fun error =>
    (error.statusCode, normalizeHeaders u error.headers)

def extractRunHaltReason (exc : ν) : Option String :=
  match (heap exc).runHalted with
  | some reason => some reason
  | none => (extractHttpErrorDetails u heap exc).bind detailsHaltReason

end Extract

-- The last value under the name, in whatever case the names are written.
def headerValue (u : Unicode) (headers : Option Headers) (name : String) : Option String :=
  (((headerItems headers).filter (u.lower ·.1 = name)).getLast?).map (·.2)

def HttpError.Has (u : Unicode) (error : HttpError) (name : String) : Prop :=
  ∃ value, headerValue u error.headers name = some value ∧ value ≠ ""

def HttpError.Signals (u : Unicode) (error : HttpError) : Prop :=
  error.statusCode = 403 ∧ error.Has u "x-run-halt-reason" ∨
    error.statusCode = 429 ∧ error.Has u "retry-after"

def Exc.Signals {ν : Type} (u : Unicode) (exc : Exc ν) : Prop :=
  exc.runHalted.isSome ∨ ∃ error, exc.httpError = some error ∧ error.Signals u

section Recognised
variable {ν : Type} [Fintype ν] [DecidableEq ν] (u : Unicode) (heap : ν → Exc ν) (root : ν)

def Reaches (root x : ν) : Prop := Reachable (fun x => (heap x).links) root x

def SignalReached : Prop := ∃ x, Reaches heap root x ∧ (heap x).Signals u

def Recognised : Prop :=
  (SignalReached u heap root → ∃ reason, extractRunHaltReason u heap root = some reason) ∧
    (¬ SignalReached u heap root → extractRunHaltReason u heap root = none)

def NearestHttpSignals : Prop :=
  ∃ error, First (fun x => (heap x).links) (fun x => (heap x).httpError) root 0 error ∧
    error.Signals u

end Recognised

section Search
variable {ν : Type} [Fintype ν] [DecidableEq ν] {u : Unicode} {heap : ν → Exc ν} {root : ν}

theorem lookup_normalizeHeaders (u : Unicode) (headers : Option Headers) (name : String) :
    (normalizeHeaders u headers).lookup name = headerValue u headers name := by
  rw [normalizeHeaders, Dict.lookup_setAll_last, AList.lookup_empty, Option.or_none, headerValue,
    List.filter_map, List.getLast?_map, Option.map_map]
  rfl

theorem nonEmpty_isSome_iff {value : Option String} :
    (nonEmpty value).isSome = true ↔ ∃ text, value = some text ∧ text ≠ "" := by
  cases value with
  | none => simp [nonEmpty]
  | some text => simp [nonEmpty, Option.filter_some]

theorem detailsHaltReason_isSome_iff {error : HttpError} :
    (detailsHaltReason (error.statusCode, normalizeHeaders u error.headers)).isSome = true ↔
      error.Signals u := by
  rw [detailsHaltReason, HttpError.Signals]
  simp only [lookup_normalizeHeaders]
  split_ifs with h403 h429
  · rw [nonEmpty_isSome_iff, h403]
    simp [HttpError.Has]
  · rw [Option.isSome_map, nonEmpty_isSome_iff, h429]
    simp [HttpError.Has]
  · simp [h403, h429]

theorem extract_of_halted {reason : String} (h : (heap root).runHalted = some reason) :
    extractRunHaltReason u heap root = some reason := by
  rw [extractRunHaltReason, h]

theorem extract_isSome_iff : (extractRunHaltReason u heap root).isSome = true ↔
    (heap root).runHalted.isSome = true ∨ NearestHttpSignals u heap root := by
  cases hroot : (heap root).runHalted with
  | some reason => simp [extract_of_halted hroot]
  | none =>
    rw [extractRunHaltReason, hroot]
    simp only [Option.isSome_none, Bool.false_eq_true, false_or, extractHttpErrorDetails]
    constructor
    · intro h
      cases hfound : search (fun x => (heap x).links) (fun x => (heap x).httpError) [root] ∅ with
      | none => simp [hfound] at h
      | some error =>
        rw [hfound] at h
        exact ⟨error, search_eq_some_iff.mp hfound, detailsHaltReason_isSome_iff.mp h⟩
    · rintro ⟨error, hfirst, hsignals⟩
      rw [search_eq_some_iff.mpr hfirst]
      exact detailsHaltReason_isSome_iff.mpr hsignals

omit [Fintype ν] [DecidableEq ν] in
theorem signalReached_of_nearest (h : NearestHttpSignals u heap root) :
    SignalReached u heap root := by
  obtain ⟨error, ⟨k, -, -, hfound⟩, hsignals⟩ := h
  obtain ⟨x, hx, herror⟩ := List.exists_of_findSome?_eq_some hfound
  exact ⟨x, reachable_iff.mpr ⟨k, hx⟩, .inr ⟨error, herror, hsignals⟩⟩

theorem signalReached_of_isSome (h : (extractRunHaltReason u heap root).isSome = true) :
    SignalReached u heap root := by
  rcases extract_isSome_iff.mp h with hroot | hnearest
  · exact ⟨root, .refl, .inl hroot⟩
  · exact signalReached_of_nearest hnearest

theorem recognised_iff (u : Unicode) (heap : ν → Exc ν) (root : ν) :
    Recognised u heap root ↔ (SignalReached u heap root →
      (heap root).runHalted.isSome = true ∨ NearestHttpSignals u heap root) := by
  rw [Recognised, ← extract_isSome_iff]
  simp only [← Option.isSome_iff_exists]
  refine ⟨And.left, fun h => ⟨h, fun hnone => ?_⟩⟩
  rw [← Option.not_isSome_iff_eq_none]
  exact fun hsome => hnone (signalReached_of_isSome hsome)

end Search

section Single

def ofFault : Agent.Fault → Exc (Fin 1)
  | .runHalted reason => { runHalted := some reason }
  | .http statusCode headers _ =>
    { response := some { statusCode := some statusCode, headers := some (.pairs headers) } }
  | _ => {}

theorem headerValue_of_normalized {u : Unicode} {headers : List (String × String)}
    (hlower : ∀ header ∈ headers, u.lower header.1 = header.1)
    (hnames : (headers.map Prod.fst).Nodup) (name : String) :
    headerValue u (some (.pairs headers)) name = Agent.header headers name := by
  have hfilter : headers.filter (u.lower ·.1 = name) = headers.filter (·.1 = name) :=
    List.filter_congr fun header hheader => by rw [hlower header hheader]
  rw [headerValue, headerItems, hfilter, Agent.header]
  clear hlower hfilter
  induction headers with
  | nil => rfl
  | cons header headers ih =>
    obtain ⟨key, value⟩ := header
    rw [List.map_cons, List.nodup_cons] at hnames
    by_cases hname : key = name
    · subst hname
      have hrest : headers.filter (·.1 = key) = [] := by
        rw [List.filter_eq_nil_iff]
        intro other hother hsame
        exact hnames.1 (List.mem_map.mpr ⟨other, hother, of_decide_eq_true hsame⟩)
      rw [List.filter_cons_of_pos (by simp), hrest, List.lookup_cons_self]
      rfl
    · have hkey : (name == key) = false := beq_false_of_ne (Ne.symm hname)
      rw [List.filter_cons_of_neg (by simpa using hname), List.lookup_cons, hkey]
      exact ih hnames.2

theorem nonEmpty_eq (value : Option String) :
    nonEmpty value = if RunLedger.truthy value then value else none := by
  cases value with
  | none => rfl
  | some text => rw [nonEmpty, Option.filter_some]; rfl

theorem extract_ofFault {u : Unicode} {fault : Agent.Fault}
    (hlower : ∀ statusCode headers text, fault = .http statusCode headers text →
      (∀ header ∈ headers, u.lower header.1 = header.1) ∧ (headers.map Prod.fst).Nodup) :
    extractRunHaltReason u (fun _ => ofFault fault) 0 = Agent.extractRunHaltReason fault := by
  have hnone : (∀ x : Fin 1, (ofFault fault).httpError = none) →
      extractHttpErrorDetails u (fun _ => ofFault fault) 0 = none := fun h => by
    rw [extractHttpErrorDetails, search_eq_none_iff.mpr fun x _ => h x, Option.map_none]
  cases fault with
  | runHalted reason => rfl
  | timeout => rw [extractRunHaltReason, hnone fun _ => rfl]; rfl
  | other text => rw [extractRunHaltReason, hnone fun _ => rfl]; rfl
  | http statusCode headers text =>
    obtain ⟨hlower, hnames⟩ := hlower statusCode headers text rfl
    have hfound : search (fun _ : Fin 1 => (ofFault (.http statusCode headers text)).links)
        (fun _ => (ofFault (.http statusCode headers text)).httpError) [0] ∅ =
          some ⟨statusCode, some (.pairs headers)⟩ :=
      search_eq_some_iff.mpr ⟨0, le_rfl, fun i _ hi => absurd hi (Nat.not_lt_zero i), rfl⟩
    have hvalue := headerValue_of_normalized hlower hnames
    rw [extractRunHaltReason, extractHttpErrorDetails, hfound]
    simp only [ofFault, Option.map_some, Option.bind_some, detailsHaltReason,
      lookup_normalizeHeaders, hvalue, Agent.extractRunHaltReason, nonEmpty_eq]
    by_cases h403 : statusCode = 403
    · cases RunLedger.truthy (Agent.header headers "x-run-halt-reason") <;> simp [h403]
    · by_cases h429 : statusCode = 429
      · cases hafter : Agent.header headers "retry-after" with
        | none => simp [h429, RunLedger.truthy]
        | some after => by_cases hempty : after = "" <;> simp [h429, RunLedger.truthy, hempty]
      · simp [h403, h429]

end Single

section Example

-- The framework raises its own error from the one of the ledger.
def wrapped : Bool → Exc Bool
  | false => { cause := some true, context := some true }
  | true => { runHalted := some "step_cap" }

-- A 503 met on the way hides the 403 behind it.
def hidden : Bool → Exc Bool
  | false => { response := some { statusCode := some 503 }, cause := some true }
  | true =>
    { response := some
        { statusCode := some 403
          headers := some (.pairs [("X-Run-Halt-Reason", "cost_budget")]) } }

theorem wrapped_halt_missed :
    extractRunHaltReason ascii wrapped false = none ∧
      extractRunHaltReason ascii hidden false = none ∧
      ¬ Recognised ascii wrapped false ∧ ¬ Recognised ascii hidden false := by
  have hwrapped : extractRunHaltReason ascii wrapped false = none := by
    have hnone : search (fun x => (wrapped x).links) (fun x => (wrapped x).httpError) [false] ∅ =
        none :=
      search_eq_none_iff.mpr fun x _ => by cases x <;> rfl
    rw [extractRunHaltReason, extractHttpErrorDetails, hnone]
    rfl
  have hhidden : extractRunHaltReason ascii hidden false = none := by
    have hfirst : search (fun x => (hidden x).links) (fun x => (hidden x).httpError) [false] ∅ =
        some ⟨503, none⟩ :=
      search_eq_some_iff.mpr ⟨0, le_rfl, fun i _ hi => absurd hi (Nat.not_lt_zero i), rfl⟩
    rw [extractRunHaltReason, extractHttpErrorDetails, hfirst]
    rfl
  refine ⟨hwrapped, hhidden, fun h => ?_, fun h => ?_⟩
  · obtain ⟨reason, hreason⟩ := h.1 ⟨true, .single (by decide), .inl rfl⟩
    rw [hwrapped] at hreason
    cases hreason
  · have hsignals : (hidden true).Signals ascii :=
      .inr ⟨_, rfl, .inl ⟨rfl, "cost_budget", by decide +kernel, by decide⟩⟩
    obtain ⟨reason, hreason⟩ := h.1 ⟨true, .single (by decide), hsignals⟩
    rw [hhidden] at hreason
    cases hreason

end Example

end RunHalt
