import NocAgent.Library.Double
import NocAgent.Library.Fallible
import NocAgent.RunLedger.OutputCap

namespace RunLedger

def PyError.ofFloat : PyFloat.Error → PyError
  | .overflowError => .overflowError
  | .valueError => .valueError
  | .zeroDivisionError => .zeroDivisionError

-- The decision with prices, products and quotients as floats of a given format. The guard
-- threshold is a finite float, which no comparison with an integer rounds.
namespace Floating
open PyFloat

structure Prices where
  inputMicros : PyFloat
  outputMicros : PyFloat

-- A rate as float() reads it.
structure Rate where
  prompt : Option PyFloat := none
  completion : Option PyFloat := none

section Decide
variable (f : Format)

def pricesFor (modelPrices : String → Option Rate) (model : String) : Prices :=
  let rate := (modelPrices model).getD {}
  { inputMicros := f.mul (rate.prompt.getD (.finite 0)) (.finite 1000)
    outputMicros := f.mul (rate.completion.getD (.finite 0)) (.finite 1000) }

def worstCaseMicros (estInput maxOutput : ℕ) (p : Prices) : Except PyFloat.Error ℤ := do
  let input := f.mul (← f.ofInt estInput) p.inputMicros
  let output := f.mul (← f.ofInt maxOutput) p.outputMicros
  (f.add input output).roundInt

def steers (run : RunState) (pol : Policies) : Except PyFloat.Error Bool :=
  if run.steered then pure false
  else do
    let threshold := f.mul (← f.ofInt run.budgetMicros) (.finite pol.guardThreshold)
    pure (threshold.le run.spendMicros)

def affordableOutput (remaining : ℤ) (estInputTokens : ℕ) (p : Prices) :
    Except PyFloat.Error ℤ := do
  let input := f.mul (← f.ofInt estInputTokens) p.inputMicros
  let left := f.sub (← f.ofInt remaining) input
  let quotient ← f.floorDiv left p.outputMicros
  quotient.toInt

def granted (maxOutputTokens : Option ℕ) (steered : Bool) (pol : Policies) (cap : ℕ)
    (reserveMicros : ℤ) : Decision :=
  let modelOverride := if steered then some pol.cheapModel else none
  let inject :=
    if steered then some "Budget is nearly exhausted. Answer from what you have." else none
  if truthy modelOverride ∨ truthy inject ∨ some cap ≠ maxOutputTokens then
    { action := .mutate
      modelOverride := modelOverride
      maxOutputTokens := some cap
      inject := inject
      reserveMicros := reserveMicros }
  else
    { action := .allow
      maxOutputTokens := some cap
      reserveMicros := reserveMicros }

def shrink (run : RunState) (prices : Prices) (estInputTokens : ℕ) (maxOutputTokens : Option ℕ)
    (steered : Bool) (pol : Policies) : Except PyFloat.Error Decision := do
  let affordable ← affordableOutput f run.remaining estInputTokens prices
  if affordable < 1 then pure { action := .halt, haltReason := some "pre_call_worst_case" }
  else do
    let wc ← worstCaseMicros f estInputTokens affordable.toNat prices
    pure (granted maxOutputTokens steered pol affordable.toNat wc)

def preCallWorstCase (run : RunState) (prices : Prices) (estInputTokens : ℕ)
    (maxOutputTokens : Option ℕ) (steered : Bool) (pol : Policies) (cap : ℕ) :
    Except PyFloat.Error Decision := do
  let wc ← worstCaseMicros f estInputTokens cap prices
  if run.remaining < wc then shrink f run prices estInputTokens maxOutputTokens steered pol
  else pure (granted maxOutputTokens steered pol cap wc)

def decide (run : RunState) (prices : Prices) (estInputTokens : ℕ) (maxOutputTokens : Option ℕ)
    (promptHash : String) (pol : Policies) : Except PyFloat.Error Decision :=
  if truthy run.haltedReason then
    .ok { action := .halt, haltReason := run.haltedReason }
  else if run.budgetMicros ≤ run.spendMicros + run.inflightMicros then
    .ok { action := .halt, haltReason := some "cost_budget" }
  else if pol.maxSteps ≤ run.steps then
    .ok { action := .halt, haltReason := some "step_cap" }
  else if repeats run promptHash pol then do
    let reserveMicros ← worstCaseMicros f estInputTokens pol.defaultMaxOutput prices
    pure
      { action := .mutate
        inject := some "You are repeating the same request. Answer from what you already have."
        maxOutputTokens := some pol.defaultMaxOutput
        reserveMicros := reserveMicros }
  else if pol.maxConcurrent ≤ run.concurrent then
    .ok { action := .queue }
  else do
    let steered ← steers f run pol
    preCallWorstCase f run prices estInputTokens maxOutputTokens steered pol
      (effectiveCap maxOutputTokens pol)

end Decide

-- What a call costs: both prices are finite, and no count, product or sum overflows.
inductive Costs (f : Format) (p : Prices) (est cap : ℕ) (input total : ℚ) : Prop
  | intro {i o e c output : ℚ} (inputMicros : p.inputMicros = .finite i)
      (outputMicros : p.outputMicros = .finite o) (est_round : f.round est = some e)
      (input_round : f.round (e * i) = some input) (cap_round : f.round cap = some c)
      (output_round : f.round (c * o) = some output)
      (total_round : f.round (input + output) = some total)

-- The output price can be divided by, and neither the quotient overflows nor the price of the
-- tokens that it allows.
def Shrinks (f : Format) (p : Prices) (est : ℕ) (remaining : ℤ) (input : ℚ) : Prop :=
  p.outputMicros ≠ .finite 0 ∧ ∃ q,
    f.floorDiv (f.sub (f.fit remaining) (.finite input)) p.outputMicros = .ok (.finite q) ∧
      (1 ≤ truncate q → ∃ input total, Costs f p est (truncate q).toNat input total)

section Returns
variable {f : Format} {run : RunState} {p : Prices} {est cap : ℕ} {maxOut : Option ℕ}
  {promptHash : String} {pol : Policies}

theorem worstCaseMicros_eq_ok_iff {wc : ℤ} :
    worstCaseMicros f est cap p = .ok wc ↔
      ∃ input total, Costs f p est cap input total ∧ HalfEven.round total = wc := by
  constructor
  · intro h
    obtain ⟨x, hx, h⟩ := Fallible.ok_of_bind h
    obtain ⟨y, hy, h⟩ := Fallible.ok_of_bind h
    obtain ⟨e, he, rfl⟩ := ofInt_eq_ok_iff.mp hx
    obtain ⟨c, hc, rfl⟩ := ofInt_eq_ok_iff.mp hy
    obtain ⟨total, hsum, hwc⟩ := roundInt_eq_ok_iff.mp h
    obtain ⟨input, output, hinput, houtput, htotal⟩ := add_eq_finite_iff.mp hsum
    obtain ⟨_, i, hfinite, hi, hinput⟩ := mul_eq_finite_iff.mp hinput
    obtain ⟨_, o, hfinite', ho, houtput⟩ := mul_eq_finite_iff.mp houtput
    cases hfinite
    cases hfinite'
    exact ⟨input, total, ⟨hi, ho, he, hinput, hc, houtput, htotal⟩, hwc⟩
  · rintro ⟨input, total, ⟨hi, ho, he, hinput, hc, houtput, htotal⟩, rfl⟩
    have hx := mul_eq_finite_iff.mpr ⟨_, _, rfl, hi, hinput⟩
    have hy := mul_eq_finite_iff.mpr ⟨_, _, rfl, ho, houtput⟩
    have hsum := add_eq_finite_iff.mpr ⟨_, _, rfl, rfl, htotal⟩
    have he' : f.ofInt est = .ok (.finite _) := ofInt_eq_ok_iff.mpr ⟨_, he, rfl⟩
    have hc' : f.ofInt cap = .ok (.finite _) := ofInt_eq_ok_iff.mpr ⟨_, hc, rfl⟩
    simp only [worstCaseMicros, he', hc', bind, Except.bind, hx, hy, hsum, roundInt]

theorem affordableOutput_eq {remaining : ℤ} {input total : ℚ}
    (hcosts : Costs f p est cap input total) (hpos : 0 ≤ remaining)
    (hexceeds : remaining < HalfEven.round total) :
    affordableOutput f remaining est p =
      f.floorDiv (f.sub (f.fit remaining) (.finite input)) p.outputMicros >>= PyFloat.toInt := by
  obtain ⟨hi, -, he, hinput, -, -, htotal⟩ := hcosts
  have hle : (remaining : ℚ) ≤ total := by
    by_contra hlt
    exact hexceeds.not_ge (HalfEven.round_le_of_le (not_le.mp hlt).le)
  have hrange : f.round remaining ≠ none := by
    refine f.round_between (by exact_mod_cast hpos) hle ?_
    rw [f.round_round htotal]
    exact Option.some_ne_none total
  obtain ⟨r, hr⟩ := Option.ne_none_iff_exists'.mp hrange
  have hx := mul_eq_finite_iff.mpr ⟨_, _, rfl, hi, hinput⟩
  have he' : f.ofInt est = .ok (.finite _) := ofInt_eq_ok_iff.mpr ⟨_, he, rfl⟩
  have hr' : f.ofInt remaining = .ok (.finite r) := ofInt_eq_ok_iff.mpr ⟨r, hr, rfl⟩
  simp only [affordableOutput, he', hr', bind, Except.bind, hx, fit_of_round hr]

theorem steers_returns_iff :
    (∃ steered, steers f run pol = .ok steered) ↔
      run.steered = true ∨ f.round run.budgetMicros ≠ none := by
  rw [steers]
  split_ifs with hsteered
  · exact iff_of_true ⟨false, rfl⟩ (.inl hsteered)
  · rw [or_iff_right hsteered]
    constructor
    · rintro ⟨steered, h⟩
      obtain ⟨x, hx, -⟩ := Fallible.ok_of_bind h
      obtain ⟨r, hr, -⟩ := ofInt_eq_ok_iff.mp hx
      rw [hr]
      exact Option.some_ne_none r
    · intro hrange
      obtain ⟨r, hr⟩ := Option.ne_none_iff_exists'.mp hrange
      have hx : f.ofInt run.budgetMicros = .ok (.finite r) := ofInt_eq_ok_iff.mpr ⟨r, hr, rfl⟩
      rw [hx]
      exact ⟨_, rfl⟩

theorem worstCase_returns_iff {g : ℤ → Decision} :
    (∃ d, (worstCaseMicros f est cap p >>= fun wc => pure (g wc)) = .ok d) ↔
      ∃ input total, Costs f p est cap input total := by
  refine (Fallible.ok_of_bind_iff (P := fun _ => True) fun wc =>
    iff_true_intro ⟨g wc, rfl⟩).trans ?_
  simp only [worstCaseMicros_eq_ok_iff, and_true]
  constructor
  · rintro ⟨_, input, total, hcosts, -⟩
    exact ⟨input, total, hcosts⟩
  · rintro ⟨input, total, hcosts⟩
    exact ⟨_, input, total, hcosts, rfl⟩

theorem shrink_returns_iff {input total : ℚ} (hcosts : Costs f p est cap input total)
    (hpos : 0 ≤ run.remaining) (hexceeds : run.remaining < HalfEven.round total) (steered : Bool) :
    (∃ d, shrink f run p est maxOut steered pol = .ok d) ↔
      Shrinks f p est run.remaining input := by
  rw [shrink, affordableOutput_eq hcosts hpos hexceeds, Shrinks]
  refine (Fallible.ok_of_bind_iff (P := fun affordable => 1 ≤ affordable →
    ∃ input total, Costs f p est affordable.toNat input total) fun affordable => ?_).trans ?_
  · split_ifs with hnone
    · exact iff_of_true ⟨_, rfl⟩ fun hone => absurd hone (by omega)
    · rw [forall_prop_of_true (not_lt.mp hnone)]
      exact worstCase_returns_iff
  · constructor
    · rintro ⟨n, hn, hfits⟩
      obtain ⟨x, hx, hn⟩ := Fallible.ok_of_bind hn
      obtain ⟨q, rfl, rfl⟩ := toInt_eq_ok_iff.mp hn
      refine ⟨fun hfree => ?_, q, hx, hfits⟩
      rw [Format.floorDiv, if_pos hfree] at hx
      cases hx
    · rintro ⟨-, q, hq, hfits⟩
      refine ⟨truncate q, ?_, hfits⟩
      rw [hq]
      rfl

theorem preCallWorstCase_returns_iff (hpos : 0 ≤ run.remaining) (steered : Bool) :
    (∃ d, preCallWorstCase f run p est maxOut steered pol cap = .ok d) ↔
      ∃ input total, Costs f p est cap input total ∧
        (run.remaining < HalfEven.round total → Shrinks f p est run.remaining input) := by
  constructor
  · rintro ⟨d, hd⟩
    obtain ⟨wc, hwc, hd⟩ := Fallible.ok_of_bind hd
    obtain ⟨input, total, hcosts, rfl⟩ := worstCaseMicros_eq_ok_iff.mp hwc
    refine ⟨input, total, hcosts, fun hexceeds => ?_⟩
    rw [if_pos hexceeds] at hd
    exact (shrink_returns_iff hcosts hpos hexceeds steered).mp ⟨d, hd⟩
  · rintro ⟨input, total, hcosts, hshrinks⟩
    have hwc := worstCaseMicros_eq_ok_iff.mpr ⟨input, total, hcosts, rfl⟩
    rw [preCallWorstCase, hwc]
    change ∃ d, (if run.remaining < HalfEven.round total then _ else _) = _
    split_ifs with hexceeds
    · exact (shrink_returns_iff hcosts hpos hexceeds steered).mpr (hshrinks hexceeds)
    · exact ⟨_, rfl⟩

theorem decide_of_guardFires (h : guardFires run promptHash pol) :
    (∃ d, decide f run p est maxOut promptHash pol = .ok d) ↔
      ∃ input total, Costs f p est pol.defaultMaxOutput input total := by
  obtain ⟨⟨hhalt, hspend, hsteps⟩, hrep⟩ := h
  rw [decide, if_neg (by simp [hhalt]), if_neg hspend.not_ge, if_neg hsteps.not_ge, if_pos hrep]
  exact worstCase_returns_iff

theorem decide_of_reaches (h : run.ReachesWorstCase promptHash pol) :
    (∃ d, decide f run p est maxOut promptHash pol = .ok d) ↔
      (run.steered = true ∨ f.round run.budgetMicros ≠ none) ∧
        ∃ input total, Costs f p est (effectiveCap maxOut pol) input total ∧
          (run.remaining < HalfEven.round total → Shrinks f p est run.remaining input) := by
  obtain ⟨⟨hhalt, hspend, hsteps⟩, hrep, hconc⟩ := h
  have hpos : 0 ≤ run.remaining := by
    rw [RunState.remaining]
    omega
  rw [decide, if_neg (by simp [hhalt]), if_neg hspend.not_ge, if_neg hsteps.not_ge, if_neg hrep,
    if_neg hconc.not_ge, ← steers_returns_iff]
  refine (Fallible.ok_of_bind_iff fun steered => preCallWorstCase_returns_iff hpos steered).trans ?_
  exact ⟨fun ⟨steered, hsteers, hfits⟩ => ⟨⟨steered, hsteers⟩, hfits⟩,
    fun ⟨⟨steered, hsteers⟩, hfits⟩ => ⟨steered, hsteers, hfits⟩⟩

theorem decide_of_earlier (hguard : ¬ guardFires run promptHash pol)
    (hreach : ¬ run.ReachesWorstCase promptHash pol) :
    ∃ d, decide f run p est maxOut promptHash pol = .ok d := by
  rw [decide]
  split_ifs with hhalt hspend hsteps hrep hconc
  · exact ⟨_, rfl⟩
  · exact ⟨_, rfl⟩
  · exact ⟨_, rfl⟩
  · have hp : run.Proceeds pol :=
      ⟨by simpa using hhalt, lt_of_not_ge hspend, lt_of_not_ge hsteps⟩
    exact absurd ⟨hp, hrep⟩ hguard
  · exact ⟨_, rfl⟩
  · have hp : run.Proceeds pol :=
      ⟨by simpa using hhalt, lt_of_not_ge hspend, lt_of_not_ge hsteps⟩
    exact absurd ⟨hp, hrep, lt_of_not_ge hconc⟩ hreach

theorem decide_returns_iff (f : Format) (modelPrices : String → Option Rate) (model : String)
    (run : RunState) (est : ℕ) (maxOut : Option ℕ) (promptHash : String) (pol : Policies) :
    let p := pricesFor f modelPrices model
    (∃ d, decide f run p est maxOut promptHash pol = .ok d) ↔
      (guardFires run promptHash pol →
        ∃ input total, Costs f p est pol.defaultMaxOutput input total) ∧
      (run.ReachesWorstCase promptHash pol →
        (run.steered = true ∨ f.round run.budgetMicros ≠ none) ∧
        ∃ input total, Costs f p est (effectiveCap maxOut pol) input total ∧
          (run.remaining < HalfEven.round total → Shrinks f p est run.remaining input)) := by
  intro p
  by_cases hguard : guardFires run promptHash pol
  · have hreach : ¬ run.ReachesWorstCase promptHash pol := fun h => h.2.1 hguard.2
    rw [decide_of_guardFires hguard, forall_prop_of_true hguard]
    exact (and_iff_left fun h => absurd h hreach).symm
  · rw [and_iff_right fun h => absurd h hguard]
    by_cases hreach : run.ReachesWorstCase promptHash pol
    · rw [decide_of_reaches hreach, forall_prop_of_true hreach]
    · exact iff_of_true (decide_of_earlier hguard hreach) fun h => absurd h hreach

end Returns

section Exact
variable {run : RunState} {prices : RunLedger.Prices} {est : ℕ} {maxOut : Option ℕ} {pol : Policies}

def Prices.ofExact (p : RunLedger.Prices) : Prices :=
  ⟨.finite p.inputMicros, .finite p.outputMicros⟩

def Rate.ofExact (rate : RunLedger.Rate) : Rate :=
  ⟨rate.prompt.map .finite, rate.completion.map .finite⟩

theorem pricesFor_exact (settings : Settings) (model : String) :
    pricesFor .exact (fun m => (settings.modelPrices m).map Rate.ofExact) model =
      Prices.ofExact (settings.pricesFor model) := by
  have hrate (rate : Option ℚ) : Format.exact.mul ((rate.map .finite).getD (.finite 0))
      (.finite 1000) = .finite (rate.getD 0 * 1000) := by
    cases rate <;> rfl
  rw [pricesFor, Settings.pricesFor]
  cases settings.modelPrices model with
  | none => exact congrArg₂ Prices.mk (hrate none) (hrate none)
  | some rate => exact congrArg₂ Prices.mk (hrate rate.prompt) (hrate rate.completion)

theorem worstCaseMicros_exact (est cap : ℕ) (prices : RunLedger.Prices) :
    worstCaseMicros .exact est cap (.ofExact prices) =
      .ok (RunLedger.worstCaseMicros est cap prices) := rfl

theorem steers_exact (run : RunState) (pol : Policies) :
    steers .exact run pol = .ok (Decidable.decide (RunLedger.steers run pol)) := by
  rw [steers]
  split_ifs with hsteered
  · have hnot : ¬ RunLedger.steers run pol := fun h => Bool.false_ne_true (h.1.symm.trans hsteered)
    exact congrArg Except.ok (decide_eq_false hnot).symm
  · refine congrArg Except.ok (decide_eq_decide.mpr ?_)
    rw [Bool.not_eq_true] at hsteered
    exact (and_iff_right hsteered).symm

theorem affordableOutput_exact (remaining : ℤ) (est : ℕ) (hout : prices.outputMicros ≠ 0) :
    affordableOutput .exact remaining est (.ofExact prices) =
      .ok ⌊(remaining - est * prices.inputMicros) / prices.outputMicros⌋ := by
  have hquotient := floorDiv_exact (remaining - est * prices.inputMicros) hout
  rw [sub_eq_add_neg] at hquotient ⊢
  change (Format.exact.floorDiv (.finite (remaining + -(est * prices.inputMicros)))
    (.finite prices.outputMicros) >>= PyFloat.toInt) = _
  rw [hquotient]
  refine congrArg Except.ok ?_
  rw [truncate, Int.floor_intCast, Int.ceil_intCast, ite_self]

theorem granted_exact (cap : ℕ) :
    granted maxOut (Decidable.decide (RunLedger.steers run pol)) pol cap
        (RunLedger.worstCaseMicros est cap prices) =
      RunLedger.granted prices est maxOut (costGuardModel run pol) (costGuardInject run pol)
        cap := by
  rw [granted, RunLedger.granted, costGuardModel, costGuardInject]
  simp only [decide_eq_true_eq]

theorem affordableOutput_free (remaining : ℤ) (est : ℕ) (hout : prices.outputMicros = 0) :
    affordableOutput .exact remaining est (.ofExact prices) = .error .zeroDivisionError := by
  have hfree : (Prices.ofExact prices).outputMicros = .finite 0 := congrArg PyFloat.finite hout
  change (Format.exact.floorDiv _ (Prices.ofExact prices).outputMicros >>= PyFloat.toInt) = _
  rw [Format.floorDiv, if_pos hfree]
  rfl

theorem shrink_exact (hout : prices.outputMicros ≠ 0) :
    shrink .exact run (.ofExact prices) est maxOut (Decidable.decide (RunLedger.steers run pol))
        pol =
      .ok (if ⌊(run.remaining - est * prices.inputMicros) / prices.outputMicros⌋ < 1 then
        { action := .halt, haltReason := some "pre_call_worst_case" }
      else RunLedger.granted prices est maxOut (costGuardModel run pol) (costGuardInject run pol)
        ⌊(run.remaining - est * prices.inputMicros) / prices.outputMicros⌋.toNat) := by
  rw [shrink, affordableOutput_exact run.remaining est hout]
  change (if ⌊(run.remaining - est * prices.inputMicros) / prices.outputMicros⌋ < 1 then _ else _ :
    Except PyFloat.Error Decision) = _
  split_ifs with hnone
  · rfl
  · rw [worstCaseMicros_exact]
    exact congrArg Except.ok (granted_exact _)

theorem preCallWorstCase_exact (cap : ℕ) :
    (preCallWorstCase .exact run (.ofExact prices) est maxOut
        (Decidable.decide (RunLedger.steers run pol)) pol cap).mapError PyError.ofFloat =
      RunLedger.preCallWorstCase run prices est maxOut (costGuardModel run pol)
        (costGuardInject run pol) cap := by
  rw [preCallWorstCase, worstCaseMicros_exact, RunLedger.preCallWorstCase]
  change (if run.remaining < RunLedger.worstCaseMicros est cap prices then _ else _ :
    Except PyFloat.Error Decision).mapError _ = _
  by_cases hexceeds : run.remaining < RunLedger.worstCaseMicros est cap prices
  · rw [if_pos hexceeds, if_pos hexceeds]
    by_cases hout : prices.outputMicros = 0
    · rw [if_pos hout, shrink, affordableOutput_free run.remaining est hout]
      rfl
    · rw [if_neg hout, shrink_exact hout]
      split_ifs <;> rfl
  · rw [if_neg hexceeds, if_neg hexceeds]
    exact congrArg Except.ok (granted_exact cap)

theorem decide_exact (run : RunState) (prices : RunLedger.Prices) (est : ℕ) (maxOut : Option ℕ)
    (promptHash : String) (pol : Policies) :
    (decide .exact run (.ofExact prices) est maxOut promptHash pol).mapError PyError.ofFloat =
      RunLedger.decide run prices est maxOut promptHash pol := by
  rw [decide, RunLedger.decide, steers_exact]
  split_ifs
  · rfl
  · rfl
  · rfl
  · rfl
  · rfl
  · exact preCallWorstCase_exact _

end Exact

section Example

def promptOnly (model : String) : Option Rate :=
  if model = "gpt" then some { prompt := some (Format.double.fit (25 / 10000)) } else none

theorem missing_rate_divides_by_zero :
    (¬ ∃ d, decide .double { budgetMicros := 1000 } (pricesFor .double promptOnly "gpt") 1000 none
        "h" {} = .ok d) ∧
      ¬ ∃ d, decide .double { budgetMicros := 1000 } (pricesFor .double promptOnly "unknown")
        (10 ^ 309) none "h" {} = .ok d := by
  constructor
  · rintro ⟨d, hd⟩
    have herror : decide .double { budgetMicros := 1000 } (pricesFor .double promptOnly "gpt") 1000
        none "h" {} = .error .zeroDivisionError := by decide +kernel
    rw [herror] at hd
    cases hd
  · rintro ⟨d, hd⟩
    have herror : decide .double { budgetMicros := 1000 } (pricesFor .double promptOnly "unknown")
        (10 ^ 309) none "h" {} = .error .overflowError := by decide +kernel
    rw [herror] at hd
    cases hd

end Example

end Floating

end RunLedger
