import NocAgent.Library.Lines

namespace Markup
open Lines

-- Takes every < with the text up to the next > out, where there is a > and something before it.
-- The first argument is what has come since a < that is still open.
def strip : Option (List Char) → List Char → List Char
  | none, [] => []
  | some content, [] => '<' :: content
  | none, c :: cs => if c = '<' then strip (some []) cs else c :: strip none cs
  | some content, c :: cs =>
    if c = '>' then
      if content = [] then '<' :: '>' :: strip none cs else strip none cs
    else strip (some (content ++ [c])) cs

def stripTags (text : List Char) : List Char := strip none text

inductive Marked : List Char → List Char → Prop
  | nil : Marked [] []
  | char {c : Char} {line raw : List Char} (hc : c ≠ '<') (h : Marked line raw) :
      Marked (c :: line) (c :: raw)
  | tag {content line raw : List Char} (hcontent : content ≠ []) (hclose : '>' ∉ content)
      (h : Marked line raw) : Marked line ('<' :: content ++ '>' :: raw)

def MarkedLine (line raw : List Char) : Prop := Marked line raw ∧ Unbroken line

section Strip
variable {line raw text ending : List Char} {lines : List (List Char)}

theorem strip_tag {content rest : List Char} (before : List Char) (hclose : '>' ∉ content)
    (hne : before ++ content ≠ []) :
    strip (some before) (content ++ '>' :: rest) = strip none rest := by
  induction content generalizing before with
  | nil =>
    rw [List.append_nil] at hne
    rw [List.nil_append, strip, if_pos rfl, if_neg hne]
  | cons c cs ih =>
    rw [List.mem_cons, not_or] at hclose
    rw [List.cons_append, strip, if_neg (Ne.symm hclose.1), ih (before ++ [c]) hclose.2 (by simp)]

theorem strip_marked (h : Marked line raw) (rest : List Char) :
    strip none (raw ++ rest) = line ++ strip none rest := by
  induction h with
  | nil => rfl
  | char hc h ih => rw [List.cons_append, strip, if_neg hc, ih, List.cons_append]
  | tag hcontent hclose h ih =>
    rw [List.append_assoc, List.cons_append, List.cons_append, strip, if_pos rfl,
      strip_tag [] hclose (by simpa using hcontent), ih]

theorem marked_self (h : '<' ∉ text) : Marked text text := by
  induction text with
  | nil => exact .nil
  | cons c cs ih =>
    rw [List.mem_cons, not_or] at h
    exact .char (Ne.symm h.1) (ih h.2)

theorem Marked.append {line' raw' : List Char} (h : Marked line raw) (h' : Marked line' raw') :
    Marked (line ++ line') (raw ++ raw') := by
  induction h with
  | nil => exact h'
  | char hc h ih => exact .char hc ih
  | tag hcontent hclose h ih =>
    rw [List.append_assoc]
    exact .tag hcontent hclose ih

theorem marked_wrapped (opening line closing : List Char)
    (hopening : opening ≠ [] ∧ '>' ∉ opening) (hclosing : closing ≠ [] ∧ '>' ∉ closing)
    (hline : '<' ∉ line) :
    Marked line ('<' :: opening ++ '>' :: (line ++ ('<' :: closing ++ ['>']))) := by
  have hend : Marked [] ('<' :: closing ++ ['>']) := .tag hclosing.1 hclosing.2 .nil
  have hrest := (marked_self hline).append hend
  rw [List.append_nil] at hrest
  exact .tag hopening.1 hopening.2 hrest

theorem marked_ending (h : Ending ending) : Marked ending ending := by
  refine marked_self ?_
  cases h with
  | single hbreak =>
    rw [List.mem_singleton]
    rintro rfl
    cases hbreak
  | crlf => decide

theorem written_stripTags (hending : Ending ending) (h : Written MarkedLine ending lines text) :
    Written Plain ending lines (stripTags text) := by
  induction h with
  | nil => exact .nil
  | last hraw hline =>
    rename_i line raw
    have hstrip := strip_marked hraw.1 []
    rw [List.append_nil, strip, List.append_nil] at hstrip
    rw [stripTags, hstrip]
    exact .last ⟨rfl, hraw.2⟩ hline
  | cons hraw hlines ih =>
    rw [stripTags, List.append_assoc, strip_marked hraw.1, strip_marked (marked_ending hending),
      ← List.append_assoc]
    exact .cons ⟨rfl, hraw.2⟩ ih

theorem splitLines_stripTags (hending : Ending ending)
    (h : Written MarkedLine ending lines text) : splitLines (stripTags text) = lines :=
  splitLines_written hending (written_stripTags hending h)

end Strip

end Markup
