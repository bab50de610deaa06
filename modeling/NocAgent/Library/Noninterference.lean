import NocAgent.Library.Trace

-- Who can learn what from a machine that answers its requests: noninterference by unwinding.
namespace Noninterference

structure Machine (S Q O : Type) where
  step : S → Q → S
  answer : S → Q → O

variable {S Q O : Type}

def Machine.observed (m : Machine S Q O) (outside : Q → Prop) [DecidablePred outside] :
    S → List Q → List O
  | _, [] => []
  | s, q :: qs =>
    if outside q then m.answer s q :: m.observed outside (m.step s q) qs
    else m.observed outside (m.step s q) qs

-- Requests that are not kept do not show: those from outside are kept, and so are those that may
-- show in what the outside sees.
structure Unwinding (m : Machine S Q O) (outside kept : Q → Prop) (alike : S → S → Prop) :
    Prop where
  outside_kept : ∀ q, outside q → kept q
  answer : ∀ s s' q, outside q → alike s s' → m.answer s q = m.answer s' q
  step : ∀ s s' q, kept q → alike s s' → alike (m.step s q) (m.step s' q)
  hidden : ∀ s s' q, ¬ kept q → alike s s' → alike (m.step s q) s'

namespace Unwinding
variable {m : Machine S Q O} {outside kept : Q → Prop} [DecidablePred outside]
  [DecidablePred kept] {alike : S → S → Prop}

theorem observed_filter (h : Unwinding m outside kept alike) {s s' : S} (halike : alike s s')
    (qs : List Q) : m.observed outside s qs = m.observed outside s' (qs.filter (kept ·)) := by
  induction qs generalizing s s' with
  | nil => rfl
  | cons q qs ih =>
    by_cases hkept : kept q
    · have hrest := ih (h.step s s' q hkept halike)
      rw [List.filter_cons_of_pos (by simpa using hkept), Machine.observed, Machine.observed, hrest]
      by_cases houtside : outside q
      · rw [if_pos houtside, if_pos houtside, h.answer s s' q houtside halike]
      · rw [if_neg houtside, if_neg houtside]
    · have houtside : ¬ outside q := fun houtside => hkept (h.outside_kept q houtside)
      rw [List.filter_cons_of_neg (by simpa using hkept), Machine.observed, if_neg houtside]
      exact ih (h.hidden s s' q hkept halike)

end Unwinding

end Noninterference
