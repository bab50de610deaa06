import Mathlib.Data.List.Infix

namespace Cut

-- The text before the leftmost place at which `p` matches, and what the match leaves.
def cut (p : List Char → Option (List Char)) : List Char → Option (List Char × List Char)
  | [] => (p []).map fun rest => ([], rest)
  | c :: cs =>
    match p (c :: cs) with
    | some rest => some ([], rest)
    | none => (cut p cs).map fun found => (c :: found.1, found.2)

def literal (pat text : List Char) : Option (List Char) :=
  if pat.isPrefixOf text then some (text.drop pat.length) else none

-- No match begins inside `before` when `text` follows it.
def Absent (p : List Char → Option (List Char)) (before text : List Char) : Prop :=
  ∀ a b, before = a ++ b → b ≠ [] → p (b ++ text) = none

def flat (lines : List (List Char)) : List Char := lines.flatMap fun line => line ++ ['\n']

section Cut
variable {p : List Char → Option (List Char)} {before text rest : List Char}

theorem Absent.nil : Absent p [] text := by
  intro a b hab hb
  exact absurd (List.append_eq_nil_iff.mp hab.symm).2 hb

theorem absent_cons {c : Char} :
    Absent p (c :: before) text ↔ p (c :: before ++ text) = none ∧ Absent p before text := by
  constructor
  · intro h
    refine ⟨h [] (c :: before) rfl (List.cons_ne_nil _ _), fun a b hab hb => ?_⟩
    exact h (c :: a) b (by rw [hab, List.cons_append]) hb
  · rintro ⟨hhead, htail⟩ a b hab hb
    cases a with
    | nil =>
      rw [List.nil_append] at hab
      rw [← hab]
      exact hhead
    | cons x a =>
      rw [List.cons_append, List.cons.injEq] at hab
      exact htail a b hab.2 hb

instance decidableAbsent (p : List Char → Option (List Char)) :
    (before text : List Char) → Decidable (Absent p before text)
  | [], _ => isTrue .nil
  | c :: before, text =>
    have := decidableAbsent p before text
    decidable_of_iff (p (c :: before ++ text) = none ∧ Absent p before text) absent_cons.symm

theorem absent_append {x y : List Char} :
    Absent p (x ++ y) text ↔ Absent p x (y ++ text) ∧ Absent p y text := by
  induction x with
  | nil => exact ⟨fun h => ⟨.nil, h⟩, fun h => h.2⟩
  | cons c x ih =>
    rw [List.cons_append, absent_cons, absent_cons, ih, and_assoc, List.cons_append,
      List.append_assoc, List.cons_append]

theorem cut_of_match (h : p text = some rest) (hbefore : Absent p before text) :
    cut p (before ++ text) = some (before, rest) := by
  induction before with
  | nil => cases text <;> simp [cut, h]
  | cons c before ih =>
    obtain ⟨hc, hbefore⟩ := absent_cons.mp hbefore
    rw [List.cons_append] at hc ⊢
    simp only [cut, hc, ih hbefore, Option.map_some]

theorem cut_eq_none (hbefore : Absent p before []) (hnil : p [] = none) : cut p before = none := by
  induction before with
  | nil => simp only [cut, hnil, Option.map_none]
  | cons c before ih =>
    obtain ⟨hc, hbefore⟩ := absent_cons.mp hbefore
    rw [List.append_nil] at hc
    simp only [cut, hc, ih hbefore, Option.map_none]

theorem literal_append (pat text : List Char) : literal pat (pat ++ text) = some text := by
  rw [literal, if_pos (List.isPrefixOf_iff_prefix.mpr (List.prefix_append pat text)),
    List.drop_left]

theorem literal_eq_none_iff {pat text : List Char} : literal pat text = none ↔ ¬ pat <+: text := by
  rw [literal, ← List.isPrefixOf_iff_prefix]
  split_ifs with h <;> simp [h]

end Cut

section Lines
variable {pat line text rest : List Char} {lines : List (List Char)}

theorem flat_nil : flat [] = [] := rfl

theorem flat_append (xs ys : List (List Char)) : flat (xs ++ ys) = flat xs ++ flat ys :=
  List.flatMap_append

theorem flat_cons : flat (line :: lines) = line ++ '\n' :: flat lines := by
  rw [flat, List.flatMap_cons, List.append_assoc]
  rfl

theorem flat_splitOn (text : List Char) : flat (text.splitOn '\n') = text ++ ['\n'] := by
  induction text with
  | nil => rfl
  | cons c text ih =>
    rw [List.splitOn_cons_eq_if_modifyHead]
    split_ifs with hc
    · rw [flat_cons, ih, beq_iff_eq.mp hc]
      rfl
    · obtain ⟨first, others, hsplit⟩ := List.exists_cons_of_ne_nil (List.splitOn_ne_nil '\n' text)
      rw [hsplit, flat_cons] at ih
      rw [hsplit, List.modifyHead_cons, flat_cons, List.cons_append, ih, List.cons_append]

theorem newline_not_mem_splitOn (text : List Char) : ∀ line ∈ text.splitOn '\n', '\n' ∉ line := by
  induction text with
  | nil => simp
  | cons c text ih =>
    rw [List.splitOn_cons_eq_if_modifyHead]
    split_ifs with hc
    · exact List.forall_mem_cons.mpr ⟨List.not_mem_nil, ih⟩
    · obtain ⟨first, others, hsplit⟩ := List.exists_cons_of_ne_nil (List.splitOn_ne_nil '\n' text)
      rw [hsplit] at ih ⊢
      obtain ⟨hfirst, hothers⟩ := List.forall_mem_cons.mp ih
      rw [List.modifyHead_cons, List.forall_mem_cons]
      refine ⟨fun hmem => ?_, hothers⟩
      rcases List.mem_cons.mp hmem with rfl | hmem
      · exact hc rfl
      · exact hfirst hmem

theorem mem_flat {c : Char} (hline : line ∈ lines) (hc : c ∈ line) : c ∈ flat lines :=
  List.mem_flatMap.mpr ⟨line, hline, List.mem_append_left _ hc⟩

theorem eq_of_prefix_line (hpat : '\n' ∉ pat) (hline : '\n' ∉ line)
    (h : pat ++ '\n' :: rest <+: line ++ '\n' :: text) : pat = line := by
  induction pat generalizing line with
  | nil =>
    cases line with
    | nil => rfl
    | cons d line =>
      obtain ⟨hd, -⟩ := List.cons_prefix_cons.mp h
      exact absurd (hd ▸ List.mem_cons_self) hline
  | cons c pat ih =>
    cases line with
    | nil =>
      obtain ⟨hc, -⟩ := List.cons_prefix_cons.mp h
      exact absurd (hc ▸ List.mem_cons_self) hpat
    | cons d line =>
      obtain ⟨rfl, htail⟩ := List.cons_prefix_cons.mp h
      rw [ih (fun hmem => hpat (List.mem_cons_of_mem _ hmem))
        (fun hmem => hline (List.mem_cons_of_mem _ hmem)) htail]

theorem absent_line (hpat : '\n' ∉ pat) (hline : '\n' ∉ line) (hend : ¬ pat <:+ line)
    (rest text : List Char) : Absent (literal (pat ++ '\n' :: rest)) (line ++ ['\n']) text := by
  intro a b hab hb
  rw [literal_eq_none_iff]
  intro h
  obtain ⟨b', rfl⟩ : ∃ b', b = b' ++ ['\n'] := by
    have hlast : b.getLast hb = '\n' := by
      have hsame : (line ++ ['\n']).getLast (by simp) = '\n' := List.getLast_concat
      simp only [hab] at hsame
      rwa [List.getLast_append_of_ne_nil _ hb] at hsame
    exact ⟨b.dropLast, by rw [← hlast, List.dropLast_append_getLast]⟩
  rw [← List.append_assoc] at hab
  obtain ⟨hline', -⟩ := List.append_inj' hab rfl
  have hb' : '\n' ∉ b' := fun h => hline (hline' ▸ List.mem_append_right a h)
  rw [List.append_assoc] at h
  rw [eq_of_prefix_line hpat hb' h, hline'] at hend
  exact hend (List.suffix_append a b')

theorem absent_flat (hpat : '\n' ∉ pat) (hlines : ∀ line ∈ lines, '\n' ∉ line ∧ ¬ pat <:+ line)
    (rest text : List Char) : Absent (literal (pat ++ '\n' :: rest)) (flat lines) text := by
  induction lines with
  | nil => exact .nil
  | cons line lines ih =>
    obtain ⟨⟨hline, hend⟩, hlines⟩ := List.forall_mem_cons.mp hlines
    have hfirst := absent_line hpat hline hend rest (flat lines ++ text)
    have hflat : flat (line :: lines) = line ++ ['\n'] ++ flat lines := by
      rw [flat_cons, List.append_assoc]
      rfl
    rw [hflat, absent_append]
    exact ⟨hfirst, ih hlines⟩

theorem cut_line (hpat : '\n' ∉ pat) (hlines : ∀ line ∈ lines, '\n' ∉ line ∧ ¬ pat <:+ line)
    (rest text : List Char) :
    cut (literal (pat ++ '\n' :: rest)) (flat lines ++ (pat ++ '\n' :: rest ++ text)) =
      some (flat lines, text) :=
  cut_of_match (literal_append _ text) (absent_flat hpat hlines rest _)

end Lines

end Cut
