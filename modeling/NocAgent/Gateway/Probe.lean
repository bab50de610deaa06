import NocAgent.Gateway.AllowedModels

namespace Gateway

open TextSearch (indexOf)

section Probe
variable (eq : Char → Char → Bool)

def startsWith : List Char → List Char → Bool
  | [], _ => true
  | _ :: _, [] => false
  | p :: ps, c :: cs => eq p c && startsWith ps cs

def endsWith (pattern text : List Char) : Bool :=
  pattern.length ≤ text.length && startsWith eq pattern (text.drop (text.length - pattern.length))

-- What follows the first match of a probe in two parts: its second part starts here, and its
-- first part ends the text before.
def after (head tail : List Char) : List Char → List Char → Option (List Char)
  | _, [] => none
  | before, c :: cs =>
    if startsWith eq tail (c :: cs) && endsWith eq head before then
      some ((c :: cs).drop tail.length)
    else after head tail (before ++ [c]) cs

variable {eq}

theorem startsWith_iff {pattern text : List Char} : startsWith eq pattern text = true ↔
    pattern.length ≤ text.length ∧ ((pattern.zip text).all fun p => eq p.1 p.2) = true := by
  induction pattern generalizing text with
  | nil => simp [startsWith]
  | cons p ps ih =>
    cases text with
    | nil => simp [startsWith]
    | cons c cs =>
      simp only [startsWith, Bool.and_eq_true, ih, List.length_cons, List.zip_cons_cons,
        List.all_cons, Nat.add_le_add_iff_right]
      tauto

theorem indexOf_cons (pattern : List Char) (c : Char) (cs : List Char) :
    indexOf eq pattern (c :: cs) =
      if startsWith eq pattern (c :: cs) = true then some 0
      else (indexOf eq pattern cs).map (· + 1) := by
  rw [indexOf]
  by_cases h : startsWith eq pattern (c :: cs) = true
  · rw [if_pos h, if_pos (startsWith_iff.mp h)]
  · rw [if_neg h, if_neg (fun hm => h (startsWith_iff.mpr hm))]

theorem length_le_of_endsWith {pattern text : List Char}
    (h : endsWith eq pattern text = true) : pattern.length ≤ text.length := by
  unfold endsWith at h
  simpa using (Bool.and_eq_true_iff.mp h).1

theorem startsWith_append {ps qs xs ys : List Char} (hlength : ps.length = xs.length) :
    startsWith eq (ps ++ qs) (xs ++ ys) = (startsWith eq ps xs && startsWith eq qs ys) := by
  induction ps generalizing xs with
  | nil =>
    obtain rfl := List.length_eq_zero_iff.mp hlength.symm
    simp [startsWith]
  | cons p ps ih =>
    cases xs with
    | nil => simp at hlength
    | cons x xs =>
      simp only [List.cons_append, startsWith, ih (Nat.succ.inj hlength), Bool.and_assoc]

theorem endsWith_append {head before window : List Char} (hlength : head.length = window.length) :
    endsWith eq head (before ++ window) = startsWith eq head window := by
  simp [endsWith, hlength]

theorem endsWith_iff {pattern text : List Char} : endsWith eq pattern text = true ↔
    ∃ before window, text = before ++ window ∧ pattern.length = window.length ∧
      startsWith eq pattern window = true := by
  constructor
  · intro h
    obtain ⟨hle, hstart⟩ := Bool.and_eq_true_iff.mp h
    have hle : pattern.length ≤ text.length := of_decide_eq_true hle
    refine ⟨_, _, (List.take_append_drop (text.length - pattern.length) text).symm, ?_, hstart⟩
    rw [List.length_drop]
    omega
  · rintro ⟨before, window, rfl, hlength, hstart⟩
    rwa [endsWith_append hlength]

theorem indexOf_of_short {pattern text : List Char} (h : text.length < pattern.length) :
    indexOf eq pattern text = none := by
  induction text with
  | nil =>
    have hne : pattern ≠ [] := List.ne_nil_of_length_pos h
    rw [indexOf, if_neg hne]
  | cons c cs ih =>
    have hnot : ¬ startsWith eq pattern (c :: cs) = true := fun hs => by
      have := (startsWith_iff.mp hs).1
      omega
    rw [indexOf_cons, if_neg hnot, ih (by rw [List.length_cons] at h; omega)]
    rfl

-- What a search gives that goes on from the end of its first match.
def following (eq : Char → Char → Bool) (pattern text : List Char) : Option (List Char) :=
  (indexOf eq pattern text).map fun start => text.drop (start + pattern.length)

theorem following_cons {pattern : List Char} (c : Char) (cs : List Char) :
    following eq pattern (c :: cs) =
      if startsWith eq pattern (c :: cs) = true then some ((c :: cs).drop pattern.length)
      else following eq pattern cs := by
  unfold following
  rw [indexOf_cons]
  by_cases h : startsWith eq pattern (c :: cs) = true
  · rw [if_pos h, if_pos h, Option.map_some, Nat.zero_add]
  · rw [if_neg h, if_neg h, Option.map_map]
    refine congrArg (Option.map · _) (funext fun start => ?_)
    simp only [Function.comp]
    rw [show start + 1 + pattern.length = (start + pattern.length) + 1 by omega,
      List.drop_succ_cons]

theorem following_of_window {head tail : List Char} (hhead : head ≠ []) (htail : tail ≠ [])
    {window : List Char} (hwindow : head.length = window.length) (before text : List Char) :
    following eq (head ++ tail) (window ++ text) = after eq head tail (before ++ window) text := by
  induction text generalizing window before with
  | nil =>
    have htl := List.length_pos_of_ne_nil htail
    rw [following, indexOf_of_short (by simp; omega)]
    rfl
  | cons c cs ih =>
    obtain ⟨a, window', rfl⟩ : ∃ a window', window = a :: window' :=
      List.exists_cons_of_ne_nil fun h => hhead (by simpa [h] using hwindow)
    have hstart : startsWith eq (head ++ tail) (a :: window' ++ c :: cs) =
        (startsWith eq tail (c :: cs) && endsWith eq head (before ++ a :: window')) := by
      rw [startsWith_append hwindow, endsWith_append hwindow, Bool.and_comm]
    have hdrop : (a :: window' ++ c :: cs).drop (head ++ tail).length =
        (c :: cs).drop tail.length := by
      rw [List.length_append, hwindow, ← List.drop_drop, List.drop_left]
    have hshift : head.length = (window' ++ [c]).length := by simpa using hwindow
    have hnext := ih hshift (before ++ [a])
    rw [after, ← hstart, List.cons_append, following_cons, ← List.cons_append, hdrop]
    simp only [List.append_assoc, List.cons_append, List.nil_append] at hnext ⊢
    rw [hnext]

theorem after_of_short {head : List Char} (tail : List Char) {xs : List Char} (text : List Char)
    {before : List Char} (h : before.length + xs.length ≤ head.length) :
    after eq head tail before (xs ++ text) = after eq head tail (before ++ xs) text := by
  induction xs generalizing before with
  | nil => simp
  | cons x xs ih =>
    have hnot : endsWith eq head before = false := by
      refine Bool.eq_false_iff.mpr fun he => ?_
      have := length_le_of_endsWith he
      rw [List.length_cons] at h
      omega
    rw [List.cons_append, after, hnot, Bool.and_false, if_neg Bool.false_ne_true,
      ih (by simp at h ⊢; omega), List.append_assoc]
    rfl

theorem following_eq_after {head tail : List Char} (hhead : head ≠ []) (htail : tail ≠ [])
    (text : List Char) : following eq (head ++ tail) text = after eq head tail [] text := by
  by_cases hshort : text.length < head.length
  · have hafter : after eq head tail [] (text ++ []) = after eq head tail text [] :=
      after_of_short tail [] (by simp; omega)
    rw [List.append_nil] at hafter
    rw [hafter, following, indexOf_of_short (by simp; omega)]
    rfl
  · have hwindow : head.length = (text.take head.length).length := by simp; omega
    have hskip : after eq head tail [] (text.take head.length ++ text.drop head.length) =
        after eq head tail (text.take head.length) (text.drop head.length) :=
      after_of_short tail _ (by simp)
    rw [List.take_append_drop] at hskip
    rw [hskip, ← List.nil_append (text.take head.length),
      ← following_of_window hhead htail hwindow, List.take_append_drop]

def Skips (eq : Char → Char → Bool) (tail xs text : List Char) : Prop :=
  ∀ head before, after eq head tail before (xs ++ text) = after eq head tail (before ++ xs) text

variable {tail xs ys text : List Char} {c : Char}

theorem skips_nil : Skips eq tail [] text := fun _ before => by
  rw [List.nil_append, List.append_nil]

theorem skips_cons (hstart : startsWith eq tail (c :: xs ++ text) = false)
    (h : Skips eq tail xs text) : Skips eq tail (c :: xs) text := fun head before => by
  have hrest := h head (before ++ [c])
  rw [List.append_assoc] at hrest
  rw [List.cons_append] at hstart ⊢
  rw [after, hstart, Bool.false_and, if_neg Bool.false_ne_true, hrest]
  rfl

theorem Skips.append (hxs : Skips eq tail xs (ys ++ text)) (hys : Skips eq tail ys text) :
    Skips eq tail (xs ++ ys) text := fun head before => by
  rw [List.append_assoc, hxs, hys, List.append_assoc]

theorem skips_of_first {p : Char} {ps : List Char} (h : ∀ c ∈ xs, eq p c = false) :
    Skips eq (p :: ps) xs text := by
  induction xs with
  | nil => exact skips_nil
  | cons x xs ih =>
    refine skips_cons ?_ (ih fun c hc => h c (List.mem_cons_of_mem x hc))
    rw [List.cons_append, startsWith, h x List.mem_cons_self, Bool.false_and]

end Probe

end Gateway
