import NocAgent.RunLedger.Service
import Mathlib.Order.Bounds.Defs

namespace RunLedger

def RunState.ReachesWorstCase (run : RunState) (promptHash : String) (pol : Policies) : Prop :=
  run.Proceeds pol ∧ ¬ repeats run promptHash pol ∧ run.concurrent < pol.maxConcurrent

instance (run : RunState) (promptHash : String) (pol : Policies) :
    Decidable (run.ReachesWorstCase promptHash pol) := inferInstanceAs (Decidable (_ ∧ _))

def Affordable (run : RunState) (prices : Prices) (estInputTokens cap : ℕ) : Prop :=
  estInputTokens * prices.inputMicros + cap * prices.outputMicros ≤ run.remaining

-- With a negative output price the quotient grows as the difference falls.
def Inverted (run : RunState) (prices : Prices) (estInputTokens cap : ℕ) : Prop :=
  prices.outputMicros < 0 ∧
    run.remaining ≤ estInputTokens * prices.inputMicros + cap * prices.outputMicros

def Decision.KeepsCap (d : Decision) (cap : ℕ) : Prop :=
  d.action.admits = true → ∃ c, d.maxOutputTokens = some c ∧ c ≤ cap

-- The default is granted for a cap it stands in for or exceeds only where it is no larger.
def CapRespected (run : RunState) (prices : Prices) (estInputTokens cap : ℕ) (promptHash : String)
    (pol : Policies) : Prop :=
  (guardFires run promptHash pol → pol.defaultMaxOutput ≤ cap) ∧
    (run.ReachesWorstCase promptHash pol →
      (worstCaseMicros estInputTokens (effectiveCap (some cap) pol) prices ≤ run.remaining →
        cap = 0 → pol.defaultMaxOutput = 0) ∧
      (run.remaining < worstCaseMicros estInputTokens (effectiveCap (some cap) pol) prices →
        (cap = 0 → 0 < prices.outputMicros → ¬ Affordable run prices estInputTokens 1) ∧
        ¬ Inverted run prices estInputTokens (cap + 1)))

section Cap
variable {run : RunState} {prices : Prices} {est : ℕ} {maxOut : Option ℕ} {promptHash : String}
  {pol : Policies} {d : Decision} {cap : ℕ}

theorem worstCaseMicros_le_of_affordable (h : Affordable run prices est cap) :
    worstCaseMicros est cap prices ≤ run.remaining := HalfEven.round_le_of_le h

theorem not_affordable_of_lt (h : run.remaining < worstCaseMicros est cap prices) :
    ¬ Affordable run prices est cap :=
  fun hfits => (worstCaseMicros_le_of_affordable hfits).not_gt h

theorem affordable_iff_le_floor (hout : 0 < prices.outputMicros) :
    Affordable run prices est cap ↔
      (cap : ℤ) ≤ ⌊(run.remaining - est * prices.inputMicros) / prices.outputMicros⌋ := by
  rw [Int.le_floor, le_div_iff₀ hout, le_sub_iff_add_le', Affordable]
  rfl

theorem inverted_iff_le_floor (hout : prices.outputMicros < 0) :
    Inverted run prices est cap ↔
      (cap : ℤ) ≤ ⌊(run.remaining - est * prices.inputMicros) / prices.outputMicros⌋ := by
  rw [Int.le_floor, le_div_iff_of_neg hout, sub_le_iff_le_add', Inverted, and_iff_right hout]
  rfl

theorem affordable_of_le {c : ℕ} (hout : 0 < prices.outputMicros) (hle : c ≤ cap)
    (h : Affordable run prices est cap) : Affordable run prices est c := by
  rw [affordable_iff_le_floor hout] at h ⊢
  exact (Int.ofNat_le.mpr hle).trans h

@[simp] theorem granted_admits (modelOverride inject : Option String) :
    (granted prices est maxOut modelOverride inject cap).action.admits = true := by
  unfold granted
  split_ifs <;> rfl

@[simp] theorem granted_maxOutputTokens (modelOverride inject : Option String) :
    (granted prices est maxOut modelOverride inject cap).maxOutputTokens = some cap := by
  unfold granted
  split_ifs <;> rfl

theorem decide_of_reaches (h : run.ReachesWorstCase promptHash pol) (prices : Prices) (est : ℕ)
    (maxOut : Option ℕ) :
    decide run prices est maxOut promptHash pol =
      preCallWorstCase run prices est maxOut (costGuardModel run pol) (costGuardInject run pol)
        (effectiveCap maxOut pol) := by
  obtain ⟨⟨hhalt, hspend, hsteps⟩, hrep, hconc⟩ := h
  rw [decide, if_neg (by simp [hhalt]), if_neg hspend.not_ge, if_neg hsteps.not_ge, if_neg hrep,
    if_neg hconc.not_ge]

theorem decide_of_not_reaches (h : ¬ run.ReachesWorstCase promptHash pol) (prices : Prices)
    (est : ℕ) (maxOut : Option ℕ) :
    ∃ d, decide run prices est maxOut promptHash pol = .ok d ∧
      (d.action.admits = true ↔ guardFires run promptHash pol) ∧
      (d.action.admits = true → d.maxOutputTokens = some pol.defaultMaxOutput) := by
  by_cases hguard : guardFires run promptHash pol
  · obtain ⟨⟨hhalt, hspend, hsteps⟩, hrep⟩ := id hguard
    rw [decide, if_neg (by simp [hhalt]), if_neg hspend.not_ge, if_neg hsteps.not_ge, if_pos hrep]
    exact ⟨_, rfl, iff_of_true rfl hguard, fun _ => rfl⟩
  · have hrefused {d : Decision} (hd : d.action.admits = false) :
        (d.action.admits = true ↔ guardFires run promptHash pol) ∧
          (d.action.admits = true → d.maxOutputTokens = some pol.defaultMaxOutput) := by
      have hadm : ¬ d.action.admits = true := by simp [hd]
      exact ⟨iff_of_false hadm hguard, fun ha => absurd ha hadm⟩
    rw [decide]
    split_ifs with hhalt hspend hsteps hrep hconc
    · exact ⟨_, rfl, hrefused rfl⟩
    · exact ⟨_, rfl, hrefused rfl⟩
    · exact ⟨_, rfl, hrefused rfl⟩
    · have hp : run.Proceeds pol :=
        ⟨by simpa using hhalt, lt_of_not_ge hspend, lt_of_not_ge hsteps⟩
      exact absurd ⟨hp, hrep⟩ hguard
    · exact ⟨_, rfl, hrefused rfl⟩
    · have hp : run.Proceeds pol :=
        ⟨by simpa using hhalt, lt_of_not_ge hspend, lt_of_not_ge hsteps⟩
      exact absurd ⟨hp, hrep, lt_of_not_ge hconc⟩ h

section Reached
variable (hreach : run.ReachesWorstCase promptHash pol)
include hreach

theorem decide_of_fits
    (hfits : worstCaseMicros est (effectiveCap maxOut pol) prices ≤ run.remaining) :
    decide run prices est maxOut promptHash pol =
      .ok (granted prices est maxOut (costGuardModel run pol) (costGuardInject run pol)
        (effectiveCap maxOut pol)) := by
  rw [decide_of_reaches hreach, preCallWorstCase, if_neg hfits.not_gt]

theorem decide_of_free (hexceeds : run.remaining < worstCaseMicros est (effectiveCap maxOut pol)
    prices) (hout : prices.outputMicros = 0) :
    decide run prices est maxOut promptHash pol = .error .zeroDivisionError := by
  rw [decide_of_reaches hreach, preCallWorstCase, if_pos hexceeds, if_pos hout]

theorem decide_of_exceeds (hexceeds : run.remaining <
    worstCaseMicros est (effectiveCap maxOut pol) prices) (hout : prices.outputMicros ≠ 0) :
    (∃ d, decide run prices est maxOut promptHash pol = .ok d ∧ d.action.admits = false ∧
        ⌊(run.remaining - est * prices.inputMicros) / prices.outputMicros⌋ < 1) ∨
      ∃ c : ℕ, (c : ℤ) = ⌊(run.remaining - est * prices.inputMicros) / prices.outputMicros⌋ ∧
        1 ≤ c ∧ decide run prices est maxOut promptHash pol =
          .ok (granted prices est maxOut (costGuardModel run pol) (costGuardInject run pol) c) := by
  rw [decide_of_reaches hreach, preCallWorstCase, if_pos hexceeds, if_neg hout]
  split_ifs with hnone
  · exact .inl ⟨_, rfl, rfl, hnone⟩
  · have hfloor := not_lt.mp hnone
    refine .inr ⟨_, Int.toNat_of_nonneg (by omega), by omega, rfl⟩

theorem shrink_cases (hexceeds : run.remaining <
    worstCaseMicros est (effectiveCap maxOut pol) prices) (hout : 0 < prices.outputMicros) :
    (∃ d, decide run prices est maxOut promptHash pol = .ok d ∧ d.action.admits = false ∧
        ¬ Affordable run prices est 1) ∨
      ∃ c, IsGreatest {c | 1 ≤ c ∧ Affordable run prices est c} c ∧ c < effectiveCap maxOut pol ∧
        decide run prices est maxOut promptHash pol =
          .ok (granted prices est maxOut (costGuardModel run pol) (costGuardInject run pol) c) := by
  rcases decide_of_exceeds hreach hexceeds hout.ne' with ⟨d, hd, hadm, hnone⟩ | ⟨c, hc, hone, hd⟩
  · refine .inl ⟨d, hd, hadm, fun hfits => ?_⟩
    rw [affordable_iff_le_floor hout] at hfits
    exact hnone.not_ge (by exact_mod_cast hfits)
  · have hfits : Affordable run prices est c := (affordable_iff_le_floor hout).mpr hc.le
    refine .inr ⟨c, ⟨⟨hone, hfits⟩, fun b hb => ?_⟩, ?_, hd⟩
    · have hfloor := (affordable_iff_le_floor hout).mp hb.2
      omega
    · by_contra hle
      exact not_affordable_of_lt hexceeds (affordable_of_le hout (not_lt.mp hle) hfits)

end Reached

theorem shrink_is_optimal (hreach : run.ReachesWorstCase promptHash pol)
    (hout : 0 < prices.outputMicros) :
    ∃ d, decide run prices est maxOut promptHash pol = .ok d ∧
      (run.remaining < worstCaseMicros est (effectiveCap maxOut pol) prices →
        (d.action.admits = true ↔ ∃ c, 1 ≤ c ∧ Affordable run prices est c) ∧
        (d.action.admits = true → ∃ c, d.maxOutputTokens = some c ∧
          IsGreatest {c | 1 ≤ c ∧ Affordable run prices est c} c ∧
          c < effectiveCap maxOut pol ∧ d.reserveMicros ≤ run.remaining)) ∧
      (d.action.admits = true → d.reserveMicros ≤ run.remaining) := by
  rcases le_or_gt (worstCaseMicros est (effectiveCap maxOut pol) prices) run.remaining with
    hfits | hexceeds
  · refine ⟨_, decide_of_fits hreach hfits, fun hexceeds => absurd hexceeds hfits.not_gt,
      fun _ => ?_⟩
    rwa [granted_reserveMicros]
  · rcases shrink_cases hreach hexceeds hout with ⟨d, hd, hadm, hnone⟩ | ⟨c, hc, hlt, hd⟩
    · have hrefused : ¬ d.action.admits = true := by simp [hadm]
      refine ⟨d, hd, fun _ => ⟨iff_of_false hrefused ?_, fun h => absurd h hrefused⟩,
        fun h => absurd h hrefused⟩
      rintro ⟨c, hone, hfits⟩
      exact hnone (affordable_of_le hout hone hfits)
    · have hreserve : worstCaseMicros est c prices ≤ run.remaining :=
        worstCaseMicros_le_of_affordable hc.1.2
      refine ⟨_, hd, fun _ => ⟨iff_of_true (granted_admits ..) ⟨c, hc.1⟩, fun _ => ?_⟩, fun _ => ?_⟩
      · exact ⟨c, granted_maxOutputTokens .., hc, hlt, by rwa [granted_reserveMicros]⟩
      · rwa [granted_reserveMicros]

theorem keepsCap_of_ok {n : ℕ} (hd : decide run prices est maxOut promptHash pol = .ok d) :
    (∀ d, decide run prices est maxOut promptHash pol = .ok d → d.KeepsCap n) ↔ d.KeepsCap n := by
  rw [hd]
  exact ⟨fun h => h d rfl, fun h d' hd' => Except.ok.inj hd' ▸ h⟩

theorem keepsCap_of_refused {n : ℕ} (h : d.action.admits = false) : d.KeepsCap n := by
  intro hadm
  rw [h] at hadm
  cases hadm

theorem keepsCap_iff {n c : ℕ} (hadm : d.action.admits = true) (hc : d.maxOutputTokens = some c) :
    d.KeepsCap n ↔ c ≤ n := by
  rw [Decision.KeepsCap, hc]
  exact ⟨fun h => by
    obtain ⟨c', hc', hle⟩ := h hadm
    rwa [Option.some.inj hc'], fun h _ => ⟨c, rfl, h⟩⟩

theorem effectiveCap_le_iff (n : ℕ) :
    effectiveCap (some n) pol ≤ n ↔ (n = 0 → pol.defaultMaxOutput = 0) := by
  rw [effectiveCap]
  split_ifs with hzero
  · rw [hzero]
    exact ⟨fun h _ => Nat.le_zero.mp h, fun h => (h rfl).le⟩
  · exact iff_of_true le_rfl fun h => absurd h hzero

theorem shrunk_keeps_iff (hreach : run.ReachesWorstCase promptHash pol) {n : ℕ}
    (hexceeds : run.remaining < worstCaseMicros est (effectiveCap (some n) pol) prices) :
    (∀ d, decide run prices est (some n) promptHash pol = .ok d → d.KeepsCap n) ↔
      (n = 0 → 0 < prices.outputMicros → ¬ Affordable run prices est 1) ∧
        ¬ Inverted run prices est (n + 1) := by
  rcases lt_trichotomy prices.outputMicros 0 with hneg | hfree | hout
  · rw [and_iff_right fun _ hout => absurd hout hneg.not_gt, inverted_iff_le_floor hneg]
    rcases decide_of_exceeds hreach hexceeds hneg.ne with ⟨d, hd, hadm, hnone⟩ | ⟨c, hc, -, hd⟩
    · rw [keepsCap_of_ok hd]
      exact iff_of_true (keepsCap_of_refused hadm) (by omega)
    · rw [keepsCap_of_ok hd, keepsCap_iff (granted_admits ..) (granted_maxOutputTokens ..), ← hc]
      omega
  · rw [decide_of_free hreach hexceeds hfree]
    exact iff_of_true (fun d hd => by cases hd)
      ⟨fun _ hout => absurd hout hfree.not_gt, fun h => h.1.ne hfree⟩
  · rw [and_iff_left fun h => h.1.not_gt hout]
    rcases shrink_cases hreach hexceeds hout with ⟨d, hd, hadm, hnone⟩ | ⟨c, hc, hlt, hd⟩
    · rw [keepsCap_of_ok hd]
      exact iff_of_true (keepsCap_of_refused hadm) fun _ _ => hnone
    · rw [keepsCap_of_ok hd, keepsCap_iff (granted_admits ..) (granted_maxOutputTokens ..)]
      have hfirst : Affordable run prices est 1 := affordable_of_le hout hc.1.1 hc.1.2
      rcases Nat.eq_zero_or_pos n with hzero | hpos
      · have hone : 1 ≤ c := hc.1.1
        exact iff_of_false (by omega) fun h => h hzero hout hfirst
      · rw [effectiveCap, if_neg hpos.ne'] at hlt
        exact iff_of_true hlt.le fun hzero => absurd hzero hpos.ne'

theorem never_enlarges_iff (run : RunState) (prices : Prices) (est n : ℕ) (promptHash : String)
    (pol : Policies) :
    (∀ d, decide run prices est (some n) promptHash pol = .ok d → d.KeepsCap n) ↔
      CapRespected run prices est n promptHash pol := by
  rw [CapRespected]
  by_cases hreach : run.ReachesWorstCase promptHash pol
  · have hguard : ¬ guardFires run promptHash pol := fun h => hreach.2.1 h.2
    rw [and_iff_right fun h => absurd h hguard, forall_prop_of_true hreach]
    rcases le_or_gt (worstCaseMicros est (effectiveCap (some n) pol) prices) run.remaining with
      hfits | hexceeds
    · rw [keepsCap_of_ok (decide_of_fits hreach hfits),
        keepsCap_iff (granted_admits ..) (granted_maxOutputTokens ..), effectiveCap_le_iff,
        and_iff_left fun hexceeds => absurd hexceeds hfits.not_gt, forall_prop_of_true hfits]
    · rw [forall_prop_of_true hexceeds]
      exact (shrunk_keeps_iff hreach hexceeds).trans
        (and_iff_right fun hfits => absurd hexceeds hfits.not_gt).symm
  · obtain ⟨d, hd, hadm, hcap⟩ := decide_of_not_reaches hreach prices est (some n)
    rw [and_iff_left fun h => absurd h hreach, keepsCap_of_ok hd]
    by_cases hguard : guardFires run promptHash pol
    · rw [keepsCap_iff (hadm.mpr hguard) (hcap (hadm.mpr hguard)), forall_prop_of_true hguard]
    · refine iff_of_true (fun h => absurd (hadm.mp h) hguard) fun h => absurd h hguard

end Cap

section Example

def tokenPrices : Prices := { inputMicros := 5 / 2, outputMicros := 10 }

def nearlySpent : RunState :=
  { budgetMicros := 2000000, spendMicros := 1999000, steered := true }

theorem shrink_is_optimal_nearly_spent :
    ∃ d, decide nearlySpent tokenPrices 100 (some 4000) "h1" {} = .ok d ∧
      (nearlySpent.remaining < worstCaseMicros 100 (effectiveCap (some 4000) {}) tokenPrices →
        (d.action.admits = true ↔ ∃ c, 1 ≤ c ∧ Affordable nearlySpent tokenPrices 100 c) ∧
        (d.action.admits = true → ∃ c, d.maxOutputTokens = some c ∧
          IsGreatest {c | 1 ≤ c ∧ Affordable nearlySpent tokenPrices 100 c} c ∧
          c < effectiveCap (some 4000) {} ∧ d.reserveMicros ≤ nearlySpent.remaining)) ∧
      (d.action.admits = true → d.reserveMicros ≤ nearlySpent.remaining) :=
  shrink_is_optimal (by decide +kernel) (by norm_num [tokenPrices])

def repeatedPrompt : RunState :=
  { budgetMicros := 2000000, recentPromptHashes := ["loop", "loop", "loop"] }

theorem loop_guard_enlarges : ¬ ∀ d,
    decide repeatedPrompt tokenPrices 10 (some 10) "loop" {} = .ok d → d.KeepsCap 10 := by
  rw [never_enlarges_iff]
  intro h
  have hdefault := h.1 (by decide +kernel)
  revert hdefault
  decide +kernel

end Example

end RunLedger
