namespace Fallible

variable {ε ε' α β : Type} {x : Except ε α} {f : α → Except ε β}

theorem ok_of_bind {b : β} (h : x >>= f = .ok b) : ∃ a, x = .ok a ∧ f a = .ok b := by
  cases x with
  | error e => cases h
  | ok a => exact ⟨a, rfl, h⟩

theorem ok_of_bind_iff {P : α → Prop} (hf : ∀ a, (∃ b, f a = .ok b) ↔ P a) :
    (∃ b, x >>= f = .ok b) ↔ ∃ a, x = .ok a ∧ P a := by
  constructor
  · rintro ⟨b, hb⟩
    obtain ⟨a, ha, hb⟩ := ok_of_bind hb
    exact ⟨a, ha, (hf a).mp ⟨b, hb⟩⟩
  · rintro ⟨a, rfl, hP⟩
    exact (hf a).mpr hP

theorem error_of_bind {e : ε} (h : x >>= f = .error e) :
    x = .error e ∨ ∃ a, x = .ok a ∧ f a = .error e := by
  cases x with
  | error e' =>
    cases h
    exact .inl rfl
  | ok a => exact .inr ⟨a, rfl, h⟩

theorem ok_of_mapError {g : ε → ε'} {a : α} (h : x.mapError g = .ok a) : x = .ok a := by
  cases x with
  | error e => cases h
  | ok b =>
    cases h
    rfl

end Fallible
