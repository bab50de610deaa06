import Mathlib.Algebra.Order.Group.Nat
import Mathlib.Data.Option.Basic
import Mathlib.Logic.Function.Basic

structure Term where
  id : ℕ
  expires : ℕ
deriving DecidableEq, Repr

-- A lease with a time limit, kept by a server; the identifiers it issues are never reused.
structure LeaseRegister where
  now : ℕ := 0
  current : Option Term := none
  issued : ℕ := 0
deriving DecidableEq, Repr

namespace LeaseRegister

def Free (r : LeaseRegister) : Prop := ∀ t ∈ r.current, t.expires ≤ r.now

instance (r : LeaseRegister) : Decidable r.Free := by
  unfold Free
  infer_instance

def Holds (r : LeaseRegister) (id : ℕ) : Prop := ∃ t ∈ r.current, t.id = id

instance (r : LeaseRegister) (id : ℕ) : Decidable (r.Holds id) :=
  decidable_of_iff (r.current.map Term.id = some id) (by simp [Holds])

def tick (seconds : ℕ) (r : LeaseRegister) : LeaseRegister := { r with now := r.now + seconds }

def fresh (duration : ℕ) (r : LeaseRegister) : Term := ⟨r.issued, r.now + duration⟩

def extended (duration id : ℕ) (r : LeaseRegister) : Term := ⟨id, r.now + duration⟩

def acquire (duration : ℕ) (r : LeaseRegister) : LeaseRegister × Option Term :=
  if r.Free then
    ({ r with current := some (r.fresh duration), issued := r.issued + 1 },
      some (r.fresh duration))
  else (r, none)

-- A term that has run out is renewed as well, as long as no other has been issued.
def renew (duration id : ℕ) (r : LeaseRegister) : LeaseRegister × Option Term :=
  if r.Holds id then
    ({ r with current := some (r.extended duration id) }, some (r.extended duration id))
  else (r, none)

def release (id : ℕ) (r : LeaseRegister) : LeaseRegister :=
  if r.Holds id then { r with current := none } else r

variable {ι : Type}

structure Sound (duration : ℕ) (r : LeaseRegister) (terms : ι → Option Term) : Prop where
  current_issued : ∀ t ∈ r.current, t.id < r.issued
  bounded : ∀ t ∈ r.current, t.expires ≤ r.now + duration
  issued : ∀ k t, terms k = some t → t.id < r.issued
  distinct : ∀ j k t u, terms j = some t → terms k = some u → t.id = u.id → j = k
  backed : ∀ k t, terms k = some t →
    (∃ u ∈ r.current, u.id = t.id ∧ t.expires ≤ u.expires) ∨ t.expires ≤ r.now

namespace Sound
variable {duration : ℕ} {r : LeaseRegister} {terms : ι → Option Term}

theorem init : Sound duration {} (fun _ : ι => none) where
  current_issued _ h := by cases h
  bounded _ h := by cases h
  issued _ _ h := by cases h
  distinct _ _ _ _ h := by cases h
  backed _ _ h := by cases h

theorem holds (h : Sound duration r terms) {k : ι} {t : Term} (hk : terms k = some t)
    (hterm : r.now < t.expires) : r.Holds t.id := by
  rcases h.backed k t hk with ⟨u, hu, hid, -⟩ | hout
  · exact ⟨u, hu, hid⟩
  · omega

theorem exclusive (h : Sound duration r terms) {j k : ι} {t u : Term} (hj : terms j = some t)
    (hk : terms k = some u) (ht : r.now < t.expires) (hu : r.now < u.expires) : j = k := by
  obtain ⟨x, hx, hxt⟩ := h.holds hj ht
  obtain ⟨y, hy, hyu⟩ := h.holds hk hu
  cases hx.symm.trans hy
  exact h.distinct j k t u hj hk (hxt.symm.trans hyu)

theorem free_tick (h : Sound duration r terms) : (r.tick duration).Free := h.bounded

theorem tick (h : Sound duration r terms) (seconds : ℕ) :
    Sound duration (r.tick seconds) terms where
  current_issued := h.current_issued
  bounded t ht := (h.bounded t ht).trans (Nat.add_le_add_right (Nat.le_add_right _ _) _)
  issued := h.issued
  distinct := h.distinct
  backed k t hk := (h.backed k t hk).imp_right fun hout =>
    hout.trans (Nat.le_add_right _ _)

variable [DecidableEq ι]

theorem drop (h : Sound duration r terms) (k : ι) :
    Sound duration r (Function.update terms k none) := by
  have hsome {j : ι} {t : Term} (hj : Function.update terms k none j = some t) :
      terms j = some t := by
    by_cases hjk : j = k
    · rw [hjk, Function.update_self] at hj
      cases hj
    · rwa [Function.update_of_ne hjk] at hj
  exact ⟨h.current_issued, h.bounded, fun j t hj => h.issued j t (hsome hj),
    fun i j t u hi hj => h.distinct i j t u (hsome hi) (hsome hj),
    fun j t hj => h.backed j t (hsome hj)⟩

theorem release (h : Sound duration r terms) {k : ι} {t : Term} (hk : terms k = some t) :
    Sound duration (r.release t.id) (Function.update terms k none) := by
  have hdrop := h.drop k
  unfold LeaseRegister.release
  split_ifs with hheld
  · refine ⟨fun u hu => (nomatch hu), fun u hu => (nomatch hu), hdrop.issued, hdrop.distinct,
      fun j u hj => .inr ?_⟩
    have hjk : j ≠ k := by
      rintro rfl
      rw [Function.update_self] at hj
      cases hj
    rw [Function.update_of_ne hjk] at hj
    rcases h.backed j u hj with ⟨x, hx, hid, -⟩ | hout
    · obtain ⟨y, hy, hyid⟩ := hheld
      cases hx.symm.trans hy
      exact absurd (h.distinct j k u t hj hk (hid.symm.trans hyid)) hjk
    · exact hout
  · exact hdrop

-- `term` is none when the reply is lost on the way.
theorem acquire (h : Sound duration r terms) (hfree : r.Free) (k : ι) {term : Option Term}
    (hterm : term = none ∨ term = some (r.fresh duration)) :
    Sound duration { r with current := some (r.fresh duration), issued := r.issued + 1 }
      (Function.update terms k term) := by
  have hcases {j : ι} {t : Term} (hj : Function.update terms k term j = some t) :
      j = k ∧ t = r.fresh duration ∨ terms j = some t := by
    by_cases hjk : j = k
    · rw [hjk, Function.update_self] at hj
      rcases hterm with rfl | rfl
      · cases hj
      · exact .inl ⟨hjk, (Option.some.inj hj).symm⟩
    · rw [Function.update_of_ne hjk] at hj
      exact .inr hj
  refine ⟨fun t ht => ?_, fun t ht => ?_, fun j t hj => ?_, fun i j t u hi hj hid => ?_,
    fun j t hj => ?_⟩
  · cases ht
    exact Nat.lt_succ_self _
  · cases ht
    exact le_rfl
  · rcases hcases hj with ⟨-, rfl⟩ | hj
    · exact Nat.lt_succ_self _
    · exact Nat.lt_succ_of_lt (h.issued j t hj)
  · rcases hcases hi with ⟨rfl, rfl⟩ | hi' <;> rcases hcases hj with ⟨rfl, rfl⟩ | hj'
    · rfl
    · exact absurd hid.symm (h.issued j u hj').ne
    · exact absurd hid (h.issued i t hi').ne
    · exact h.distinct i j t u hi' hj' hid
  · rcases hcases hj with ⟨-, rfl⟩ | hj
    · exact .inl ⟨_, rfl, rfl, le_rfl⟩
    · rcases h.backed j t hj with ⟨u, hu, -, hle⟩ | hout
      · exact .inr (hle.trans (hfree u hu))
      · exact .inr hout

theorem renew (h : Sound duration r terms) {k : ι} {t : Term} (hk : terms k = some t)
    (hheld : r.Holds t.id) {term : Term} (hterm : term = t ∨ term = r.extended duration t.id) :
    Sound duration { r with current := some (r.extended duration t.id) }
      (Function.update terms k (some term)) := by
  obtain ⟨x, hx, hxid⟩ := hheld
  have hid : term.id = t.id := by
    rcases hterm with rfl | rfl <;> rfl
  have hcases {j : ι} {u : Term} (hj : Function.update terms k (some term) j = some u) :
      j = k ∧ u = term ∨ j ≠ k ∧ terms j = some u := by
    by_cases hjk : j = k
    · rw [hjk, Function.update_self] at hj
      exact .inl ⟨hjk, (Option.some.inj hj).symm⟩
    · rw [Function.update_of_ne hjk] at hj
      exact .inr ⟨hjk, hj⟩
  have hlater : t.expires ≤ r.now + duration ∨ t.expires ≤ r.now := by
    rcases h.backed k t hk with ⟨u, hu, -, hle⟩ | hout
    · exact .inl (hle.trans (h.bounded u hu))
    · exact .inr hout
  refine ⟨fun u hu => ?_, fun u hu => ?_, fun j u hj => ?_, fun i j u v hi hj huv => ?_,
    fun j u hj => ?_⟩
  · cases hu
    exact h.issued k t hk
  · cases hu
    exact le_rfl
  · rcases hcases hj with ⟨-, rfl⟩ | ⟨-, hj⟩
    · rw [hid]
      exact h.issued k t hk
    · exact h.issued j u hj
  · rcases hcases hi with ⟨rfl, rfl⟩ | ⟨hik, hi'⟩ <;>
      rcases hcases hj with ⟨rfl, rfl⟩ | ⟨hjk, hj'⟩
    · rfl
    · exact absurd (h.distinct _ _ _ _ hk hj' (hid.symm.trans huv)).symm hjk
    · exact absurd (h.distinct _ _ _ _ hi' hk (huv.trans hid)) hik
    · exact h.distinct i j u v hi' hj' huv
  · rcases hcases hj with ⟨-, rfl⟩ | ⟨hjk, hj⟩
    · rcases hterm with rfl | rfl
      · exact hlater.imp_left fun hle => ⟨_, rfl, rfl, hle⟩
      · exact .inl ⟨_, rfl, rfl, le_rfl⟩
    · rcases h.backed j u hj with ⟨y, hy, hyid, -⟩ | hout
      · cases hx.symm.trans hy
        exact absurd (h.distinct _ _ _ _ hj hk (hyid.symm.trans hxid)) hjk
      · exact .inr hout

end Sound

end LeaseRegister
