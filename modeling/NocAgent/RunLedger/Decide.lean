import NocAgent.Library.HalfEven
import Mathlib.Tactic.Positivity
import Mathlib.Tactic.Ring

namespace RunLedger

inductive PyError where
  | zeroDivisionError
  | overflowError
  | valueError
  | keyError (key : String)
deriving DecidableEq, Repr

-- Prices, rates and the guard threshold are exact rationals; the source keeps them as floats.
structure Prices where
  inputMicros : ℚ
  outputMicros : ℚ
deriving DecidableEq, Repr

structure RunState where
  budgetMicros : ℤ
  spendMicros : ℤ := 0
  inflightMicros : ℤ := 0
  haltedReason : Option String := none
  steps : ℤ := 0
  concurrent : ℤ := 0
  steered : Bool := false
  recentPromptHashes : List String := []
deriving DecidableEq, Repr

structure Policies where
  maxSteps : ℤ := 20
  maxConcurrent : ℤ := 4
  guardThreshold : ℚ := 4 / 5
  defaultMaxOutput : ℕ := 1024
  cheapModel : String := "gpt-5.4-mini"
  loopWindow : ℤ := 6
  loopRepeats : ℤ := 3
deriving DecidableEq, Repr

inductive Action where
  | allow | mutate | queue | halt
deriving DecidableEq, Repr

structure Decision where
  action : Action
  haltReason : Option String := none
  modelOverride : Option String := none
  maxOutputTokens : Option ℕ := none
  inject : Option String := none
  reserveMicros : ℤ := 0
deriving DecidableEq, Repr

def Action.admits : Action → Bool
  | .allow | .mutate => true
  | .queue | .halt => false

def truthy : Option String → Bool
  | none => false
  | some text => text ≠ ""

def sliceFrom {α : Type} (xs : List α) (start : ℤ) : List α :=
  xs.drop (if start < 0 then (xs.length + start).toNat else start.toNat)

def worstCaseMicros (estInput maxOutput : ℕ) (p : Prices) : ℤ :=
  HalfEven.round (estInput * p.inputMicros + maxOutput * p.outputMicros)

def RunState.remaining (run : RunState) : ℤ :=
  run.budgetMicros - run.spendMicros - run.inflightMicros

def repeats (run : RunState) (promptHash : String) (pol : Policies) : Prop :=
  pol.loopRepeats ≤ (sliceFrom run.recentPromptHashes (-pol.loopWindow)).count promptHash

instance (run : RunState) (promptHash : String) (pol : Policies) :
    Decidable (repeats run promptHash pol) := inferInstanceAs (Decidable (_ ≤ _))

def steers (run : RunState) (pol : Policies) : Prop :=
  run.steered = false ∧ run.budgetMicros * pol.guardThreshold ≤ run.spendMicros

instance (run : RunState) (pol : Policies) : Decidable (steers run pol) :=
  inferInstanceAs (Decidable (_ ∧ _))

def granted (prices : Prices) (estInputTokens : ℕ) (maxOutputTokens : Option ℕ)
    (modelOverride inject : Option String) (cap : ℕ) : Decision :=
  if truthy modelOverride ∨ truthy inject ∨ some cap ≠ maxOutputTokens then
    { action := .mutate
      modelOverride := modelOverride
      maxOutputTokens := some cap
      inject := inject
      reserveMicros := worstCaseMicros estInputTokens cap prices }
  else
    { action := .allow
      maxOutputTokens := some cap
      reserveMicros := worstCaseMicros estInputTokens cap prices }

def effectiveCap (maxOutputTokens : Option ℕ) (pol : Policies) : ℕ :=
  match maxOutputTokens with
  | none => pol.defaultMaxOutput
  | some n => if n = 0 then pol.defaultMaxOutput else n

def costGuardModel (run : RunState) (pol : Policies) : Option String :=
  if steers run pol then some pol.cheapModel else none

def costGuardInject (run : RunState) (pol : Policies) : Option String :=
  if steers run pol then some "Budget is nearly exhausted. Answer from what you have." else none

def preCallWorstCase (run : RunState) (prices : Prices) (estInputTokens : ℕ)
    (maxOutputTokens : Option ℕ) (modelOverride inject : Option String) (cap : ℕ) :
    Except PyError Decision :=
  if run.remaining < worstCaseMicros estInputTokens cap prices then
    if prices.outputMicros = 0 then .error .zeroDivisionError
    else if ⌊(run.remaining - estInputTokens * prices.inputMicros) / prices.outputMicros⌋ < 1 then
      .ok { action := .halt, haltReason := some "pre_call_worst_case" }
    else
      .ok (granted prices estInputTokens maxOutputTokens modelOverride inject
        ⌊(run.remaining - estInputTokens * prices.inputMicros) / prices.outputMicros⌋.toNat)
  else
    .ok (granted prices estInputTokens maxOutputTokens modelOverride inject cap)

def decide (run : RunState) (prices : Prices) (estInputTokens : ℕ) (maxOutputTokens : Option ℕ)
    (promptHash : String) (pol : Policies) : Except PyError Decision :=
  if truthy run.haltedReason then
    .ok { action := .halt, haltReason := run.haltedReason }
  else if run.budgetMicros ≤ run.spendMicros + run.inflightMicros then
    .ok { action := .halt, haltReason := some "cost_budget" }
  else if pol.maxSteps ≤ run.steps then
    .ok { action := .halt, haltReason := some "step_cap" }
  else if repeats run promptHash pol then
    .ok
      { action := .mutate
        inject := some "You are repeating the same request. Answer from what you already have."
        maxOutputTokens := some pol.defaultMaxOutput
        reserveMicros := worstCaseMicros estInputTokens pol.defaultMaxOutput prices }
  else if pol.maxConcurrent ≤ run.concurrent then
    .ok { action := .queue }
  else
    preCallWorstCase run prices estInputTokens maxOutputTokens (costGuardModel run pol)
      (costGuardInject run pol) (effectiveCap maxOutputTokens pol)

def Prices.Nonneg (p : Prices) : Prop := 0 ≤ p.inputMicros ∧ 0 ≤ p.outputMicros

theorem worstCaseMicros_nonneg {p : Prices} (hp : p.Nonneg) (estInput maxOutput : ℕ) :
    0 ≤ worstCaseMicros estInput maxOutput p := by
  obtain ⟨hin, hout⟩ := hp
  exact HalfEven.round_nonneg (by positivity)

@[simp] theorem granted_reserveMicros (prices : Prices) (est : ℕ) (maxOut : Option ℕ)
    (modelOverride inject : Option String) (cap : ℕ) :
    (granted prices est maxOut modelOverride inject cap).reserveMicros =
      worstCaseMicros est cap prices := by
  unfold granted
  split_ifs <;> rfl

def RunState.Proceeds (run : RunState) (pol : Policies) : Prop :=
  truthy run.haltedReason = false ∧ run.spendMicros + run.inflightMicros < run.budgetMicros ∧
    run.steps < pol.maxSteps

instance (run : RunState) (pol : Policies) : Decidable (run.Proceeds pol) :=
  inferInstanceAs (Decidable (_ ∧ _))

def guardFires (run : RunState) (promptHash : String) (pol : Policies) : Prop :=
  run.Proceeds pol ∧ repeats run promptHash pol

instance (run : RunState) (promptHash : String) (pol : Policies) :
    Decidable (guardFires run promptHash pol) := inferInstanceAs (Decidable (_ ∧ _))

section Admitted
variable {run : RunState} {prices : Prices} {est : ℕ} {maxOut : Option ℕ} {promptHash : String}
  {pol : Policies} {d : Decision}

theorem decide_of_guardFires (h : guardFires run promptHash pol) (prices : Prices) (est : ℕ)
    (maxOut : Option ℕ) :
    ∃ d, decide run prices est maxOut promptHash pol = .ok d ∧ d.action.admits = true ∧
      d.reserveMicros = worstCaseMicros est pol.defaultMaxOutput prices := by
  obtain ⟨⟨hhalt, hspend, hsteps⟩, hrep⟩ := h
  rw [decide, if_neg (by simp [hhalt]), if_neg hspend.not_ge, if_neg hsteps.not_ge, if_pos hrep]
  exact ⟨_, rfl, rfl, rfl⟩

theorem affordable_fits {c : ℤ} (hout : 0 < prices.outputMicros) (hone : 1 ≤ c)
    (hc : c = ⌊(run.remaining - est * prices.inputMicros) / prices.outputMicros⌋) :
    worstCaseMicros est c.toNat prices ≤ run.remaining := by
  have hle : (c : ℚ) * prices.outputMicros ≤ run.remaining - est * prices.inputMicros := by
    rw [← le_div_iff₀ hout, hc]
    exact Int.floor_le _
  have hcast : ((c.toNat : ℕ) : ℚ) = c := by
    exact_mod_cast Int.toNat_of_nonneg (by omega : 0 ≤ c)
  refine HalfEven.round_le_of_le ?_
  rw [hcast]
  linarith

theorem preCallWorstCase_admitted {modelOverride inject : Option String} {cap : ℕ}
    (h : preCallWorstCase run prices est maxOut modelOverride inject cap = .ok d)
    (ha : d.action.admits = true) :
    (∃ cap, d.reserveMicros = worstCaseMicros est cap prices) ∧
      (0 ≤ prices.outputMicros → d.reserveMicros ≤ run.remaining) := by
  unfold preCallWorstCase at h
  split_ifs at h with hwc hzero hafford
  · cases h
    cases ha
  · cases h
    refine ⟨⟨_, granted_reserveMicros ..⟩, fun hout => ?_⟩
    rw [granted_reserveMicros]
    exact affordable_fits (lt_of_le_of_ne hout (Ne.symm hzero)) (not_lt.mp hafford) rfl
  · cases h
    refine ⟨⟨_, granted_reserveMicros ..⟩, fun _ => ?_⟩
    rw [granted_reserveMicros]
    exact not_lt.mp hwc

theorem decide_admitted (h : decide run prices est maxOut promptHash pol = .ok d)
    (ha : d.action.admits = true) :
    run.Proceeds pol ∧ (∃ cap, d.reserveMicros = worstCaseMicros est cap prices) ∧
      (guardFires run promptHash pol ∧
          d.reserveMicros = worstCaseMicros est pol.defaultMaxOutput prices ∨
        ¬ repeats run promptHash pol ∧ run.concurrent < pol.maxConcurrent ∧
          (0 ≤ prices.outputMicros → d.reserveMicros ≤ run.remaining)) := by
  unfold decide at h
  split_ifs at h with hhalt hspend hsteps hrep hconc
  · cases h
    cases ha
  · cases h
    cases ha
  · cases h
    cases ha
  · cases h
    have hp : run.Proceeds pol :=
      ⟨by simpa using hhalt, lt_of_not_ge hspend, lt_of_not_ge hsteps⟩
    exact ⟨hp, ⟨_, rfl⟩, .inl ⟨⟨hp, hrep⟩, rfl⟩⟩
  · cases h
    cases ha
  · obtain ⟨hcap, hfit⟩ := preCallWorstCase_admitted h ha
    exact ⟨⟨by simpa using hhalt, lt_of_not_ge hspend, lt_of_not_ge hsteps⟩, hcap,
      .inr ⟨hrep, lt_of_not_ge hconc, hfit⟩⟩

theorem decide_reserveMicros_nonneg (hp : prices.Nonneg)
    (h : decide run prices est maxOut promptHash pol = .ok d) (ha : d.action.admits = true) :
    0 ≤ d.reserveMicros := by
  obtain ⟨-, ⟨cap, hcap⟩, -⟩ := decide_admitted h ha
  rw [hcap]
  exact worstCaseMicros_nonneg hp est cap

end Admitted

end RunLedger
