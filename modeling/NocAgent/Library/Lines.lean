import Mathlib.Data.List.Basic

namespace Lines

def isBreak (c : Char) : Bool :=
  c.toNat ∈ [0x0a, 0x0b, 0x0c, 0x0d, 0x1c, 0x1d, 0x1e, 0x85, 0x2028, 0x2029]

-- The lines of a text, given the line so far and whether a carriage return came just before.
def split : Bool → List Char → List Char → List (List Char)
  | _, line, [] => if line = [] then [] else [line]
  | afterReturn, line, c :: cs =>
    if afterReturn = true ∧ c = '\n' then split false line cs
    else if isBreak c then line :: split (c = '\r') [] cs
    else split false (line ++ [c]) cs

def splitLines (text : List Char) : List (List Char) := split false [] text

inductive Ending : List Char → Prop
  | single {c : Char} (h : isBreak c = true) : Ending [c]
  | crlf : Ending ['\r', '\n']

def Unbroken (line : List Char) : Prop := ∀ c ∈ line, isBreak c = false

instance (line : List Char) : Decidable (Unbroken line) :=
  List.decidableBAll (isBreak · = false) line

-- A text of one line after the other, of which the last may lack its ending unless it is empty.
-- The relation says how a line is written down.
inductive Written (R : List Char → List Char → Prop) (ending : List Char) :
    List (List Char) → List Char → Prop
  | nil : Written R ending [] []
  | last {line raw : List Char} (h : R line raw) (hline : line ≠ []) : Written R ending [line] raw
  | cons {line raw text : List Char} {lines : List (List Char)} (h : R line raw)
      (hlines : Written R ending lines text) :
      Written R ending (line :: lines) (raw ++ ending ++ text)

def Plain (line raw : List Char) : Prop := raw = line ∧ Unbroken line

section Split
variable {line rest ending text : List Char} {lines : List (List Char)}

theorem ne_newline_of_not_break {c : Char} (h : isBreak c = false) : c ≠ '\n' := by
  rintro rfl
  cases h

theorem split_line (h : Unbroken line) (before rest : List Char) :
    split false before (line ++ rest) = split false (before ++ line) rest := by
  induction line generalizing before with
  | nil => rw [List.nil_append, List.append_nil]
  | cons c cs ih =>
    obtain ⟨hc, hcs⟩ := List.forall_mem_cons.mp h
    rw [List.cons_append, split, if_neg (by simp), hc, if_neg Bool.false_ne_true, ih hcs,
      List.append_assoc]
    rfl

theorem split_afterReturn (h : text.head? ≠ some '\n') :
    split true line text = split false line text := by
  cases text with
  | nil => rfl
  | cons c cs =>
    have hc : c ≠ '\n' := by simpa using h
    simp only [split, hc, and_false, if_false]

theorem split_ending (hending : Ending ending)
    (hrest : ending = ['\r'] → rest.head? ≠ some '\n') :
    split false line (ending ++ rest) = line :: split false [] rest := by
  cases hending with
  | single hbreak =>
    rename_i c
    rw [List.singleton_append, split, if_neg (by simp), if_pos hbreak]
    by_cases hreturn : c = '\r'
    · rw [decide_eq_true hreturn, split_afterReturn (hrest (by rw [hreturn]))]
    · rw [decide_eq_false hreturn]
  | crlf => rfl

theorem head?_written (h : Written Plain ['\r'] lines text) : text.head? ≠ some '\n' := by
  cases h with
  | nil => exact (Option.some_ne_none _).symm
  | last hraw hline =>
    obtain ⟨rfl, hunbroken⟩ := hraw
    obtain ⟨c, cs, rfl⟩ := List.exists_cons_of_ne_nil hline
    rw [List.head?_cons, ne_eq, Option.some.injEq]
    exact ne_newline_of_not_break (hunbroken c List.mem_cons_self)
  | cons hraw hlines =>
    obtain ⟨rfl, hunbroken⟩ := hraw
    rename_i line _ _
    cases line with
    | nil => simp
    | cons c cs =>
      rw [List.cons_append, List.cons_append, List.head?_cons, ne_eq, Option.some.injEq]
      exact ne_newline_of_not_break (hunbroken c List.mem_cons_self)

theorem splitLines_written (hending : Ending ending) (h : Written Plain ending lines text) :
    splitLines text = lines := by
  induction h with
  | nil => rfl
  | last hraw hline =>
    obtain ⟨rfl, hunbroken⟩ := hraw
    rename_i line
    have hsplit := split_line hunbroken [] []
    rw [List.append_nil, List.nil_append] at hsplit
    rw [splitLines, hsplit, split, if_neg hline]
  | cons hraw hlines ih =>
    obtain ⟨rfl, hunbroken⟩ := hraw
    rw [splitLines, List.append_assoc, split_line hunbroken, List.nil_append,
      split_ending hending fun hreturn => head?_written (hreturn ▸ hlines)]
    exact congrArg _ ih

end Split

end Lines
