import Mathlib.Data.List.Basic

namespace StringLiteral

-- A language of quoted literals. After the escape character stands a sequence for one character,
-- of as many characters as readEscape says.
structure Dialect where
  quote : Char
  escape : Char
  isSpace : Char → Bool
  readEscape : List Char → Option (Char × ℕ)
  quote_ne_escape : quote ≠ escape
  readEscape_pos : ∀ cs value n, readEscape cs = some (value, n) → 0 < n

-- Inside a literal, with the rest of an escape sequence to skip, or after one that ended at the
-- mark, where white space may lead to the next.
inductive State where
  | body (skip : ℕ)
  | between (mark : List Char)

variable {d : Dialect}

-- The value of the literals that stand one after the other, and the text after the last.
def lex (d : Dialect) : State → List Char → Option (List Char × List Char)
  | .body _, [] => none
  | .body (skip + 1), _ :: cs => lex d (.body skip) cs
  | .body 0, c :: cs =>
    if c = d.quote then lex d (.between cs) cs
    else if c = d.escape then
      match d.readEscape cs with
      | none => none
      | some (value, n) => (lex d (.body n) cs).map fun r => (value :: r.1, r.2)
    else (lex d (.body 0) cs).map fun r => (c :: r.1, r.2)
  | .between mark, [] => some ([], mark)
  | .between mark, c :: cs =>
    if c = d.quote then lex d (.body 0) cs
    else if d.isSpace c then lex d (.between mark) cs
    else some ([], mark)

def expression (d : Dialect) : List Char → Option (List Char × List Char)
  | [] => none
  | c :: cs => if c = d.quote then lex d (.body 0) cs else none

def Stops (d : Dialect) (text : List Char) : Prop :=
  ∃ c cs, text = c :: cs ∧ c ≠ d.quote ∧ d.isSpace c = false

section Read
variable {text body after value rest : List Char}

theorem lex_between (h : Stops d after) : lex d (.between after) after = some ([], after) := by
  obtain ⟨c, cs, rfl, hquote, hspace⟩ := h
  rw [lex, if_neg hquote, hspace]
  rfl

theorem lex_plain (hquote : d.quote ∉ body) (hescape : d.escape ∉ body) (hafter : Stops d after) :
    lex d (.body 0) (body ++ d.quote :: after) = some (body, after) := by
  induction body with
  | nil => rw [List.nil_append, lex, if_pos rfl, lex_between hafter]
  | cons c cs ih =>
    rw [List.mem_cons, not_or] at hquote hescape
    rw [List.cons_append, lex, if_neg (Ne.symm hquote.1), if_neg (Ne.symm hescape.1),
      ih hquote.2 hescape.2]
    rfl

theorem lex_body_zero {c : Char} {cs : List Char} (hquote : c ≠ d.quote)
    (h : lex d (.body 0) (c :: cs) = some (value, rest)) :
    ∃ v value' n, value = v :: value' ∧ lex d (.body n) cs = some (value', rest) ∧
      (c = d.escape → 0 < n) := by
  rw [lex, if_neg hquote] at h
  split_ifs at h with hescape
  · split at h
    · cases h
    · rename_i v n hread
      obtain ⟨⟨value', rest'⟩, hlex, heq⟩ := Option.map_eq_some_iff.mp h
      cases heq
      exact ⟨v, value', n, rfl, hlex, fun _ => d.readEscape_pos _ _ _ hread⟩
  · obtain ⟨⟨value', rest'⟩, hlex, heq⟩ := Option.map_eq_some_iff.mp h
    cases heq
    exact ⟨c, value', 0, rfl, hlex, fun h => absurd h hescape⟩

def Consumes (d : Dialect) (text value rest : List Char) : Prop :=
  ∃ consumed, text = consumed ++ rest ∧ value.length + consumed.count d.quote ≤ consumed.length

def ReadsFrom (d : Dialect) : State → List Char → List Char → List Char → Prop
  | .body _, text, value, rest => Consumes d text value rest ∧ rest.length < text.length
  | .between mark, text, value, rest => ∀ spaces, mark = spaces ++ text → d.quote ∉ spaces →
      Consumes d mark value rest

theorem Consumes.cons {c : Char} (h : Consumes d text value rest) (hvalue : c ≠ d.quote)
    (v : Char) : Consumes d (c :: text) (v :: value) rest := by
  obtain ⟨consumed, rfl, hlength⟩ := h
  refine ⟨c :: consumed, rfl, ?_⟩
  rw [List.count_cons_of_ne hvalue, List.length_cons, List.length_cons]
  omega

theorem Consumes.skip (c : Char) (h : Consumes d text value rest) :
    Consumes d (c :: text) value rest := by
  obtain ⟨consumed, rfl, hlength⟩ := h
  refine ⟨c :: consumed, rfl, ?_⟩
  rw [List.count_cons, List.length_cons]
  split_ifs <;> omega

theorem Consumes.prepend {spaces : List Char} (hspaces : d.quote ∉ spaces)
    (h : Consumes d text value rest) : Consumes d (spaces ++ text) value rest := by
  obtain ⟨consumed, rfl, hlength⟩ := h
  refine ⟨spaces ++ consumed, (List.append_assoc _ _ _).symm, ?_⟩
  rw [List.count_append, List.count_eq_zero.mpr hspaces, List.length_append]
  omega

theorem Consumes.length_le (h : Consumes d text value rest) : rest.length ≤ text.length := by
  obtain ⟨consumed, rfl, -⟩ := h
  rw [List.length_append]
  omega

theorem lex_reads (state : State) (h : lex d state text = some (value, rest)) :
    ReadsFrom d state text value rest := by
  induction text generalizing state value with
  | nil =>
    cases state with
    | body skip => cases h
    | between mark =>
      cases h
      exact fun spaces _ _ => ⟨[], rfl, Nat.le_refl _⟩
  | cons c cs ih =>
    cases state with
    | body skip =>
      cases skip with
      | succ skip =>
        obtain ⟨hconsumes, hlength⟩ := ih _ h
        exact ⟨hconsumes.skip c, Nat.lt_succ_of_lt hlength⟩
      | zero =>
        by_cases hquote : c = d.quote
        · rw [lex, if_pos hquote] at h
          have hconsumes : Consumes d cs value rest := ih _ h [] rfl List.not_mem_nil
          exact ⟨hconsumes.skip c, Nat.lt_succ_of_le hconsumes.length_le⟩
        · obtain ⟨v, value', n, rfl, hlex, -⟩ := lex_body_zero hquote h
          obtain ⟨hconsumes, hlength⟩ := ih _ hlex
          exact ⟨hconsumes.cons hquote v, Nat.lt_succ_of_lt hlength⟩
    | between mark =>
      rw [lex] at h
      rintro spaces rfl hspaces
      split_ifs at h with hquote hspace
      · exact ((ih _ h).1.skip c).prepend hspaces
      · refine ih _ h (spaces ++ [c]) (List.append_cons _ _ _) ?_
        rw [List.mem_append, List.mem_singleton, not_or]
        exact ⟨hspaces, Ne.symm hquote⟩
      · cases h
        exact ⟨[], rfl, Nat.le_refl _⟩

theorem length_of_lex (h : lex d (.body 0) (body ++ d.quote :: after) = some (value, after)) :
    value.length + body.count d.quote ≤ body.length := by
  obtain ⟨⟨consumed, htext, hlength⟩, -⟩ := lex_reads _ h
  have hconsumed : consumed = body ++ [d.quote] := by
    rw [List.append_cons] at htext
    exact (List.append_cancel_right htext).symm
  rw [hconsumed, List.count_append, List.count_singleton_self, List.length_append,
    List.length_singleton] at hlength
  omega

theorem length_lt_of_skip {k : ℕ} (hquote : d.quote ∉ body)
    (h : lex d (.body k) (body ++ d.quote :: after) = some (value, after)) :
    value.length ≤ body.length ∧ (0 < k ∨ d.escape ∈ body → value.length < body.length) := by
  induction body generalizing k value with
  | nil =>
    cases k with
    | zero =>
      rw [List.nil_append, lex, if_pos rfl] at h
      obtain ⟨consumed, htext, hlength⟩ := lex_reads _ h [] rfl List.not_mem_nil
      have hconsumed : consumed = [] := by simpa using htext
      rw [hconsumed] at hlength
      simp only [List.count_nil, List.length_nil] at hlength
      exact ⟨by simpa using hlength, fun hk => by simp at hk⟩
    | succ k =>
      have hlength := (lex_reads (.body k) h).2
      exact absurd hlength (Nat.lt_irrefl _)
  | cons c cs ih =>
    rw [List.mem_cons, not_or] at hquote
    rw [List.cons_append] at h
    cases k with
    | succ k =>
      have hlength := (ih hquote.2 h).1
      exact ⟨Nat.le_succ_of_le hlength, fun _ => Nat.lt_succ_of_le hlength⟩
    | zero =>
      obtain ⟨v, value', n, rfl, hlex, hescape⟩ := lex_body_zero (Ne.symm hquote.1) h
      obtain ⟨hle, hlt⟩ := ih hquote.2 hlex
      refine ⟨Nat.succ_le_succ hle, fun hmem => Nat.succ_lt_succ (hlt ?_)⟩
      rcases List.mem_cons.mp (hmem.resolve_left (Nat.lt_irrefl 0)) with hfirst | hrest
      · exact .inl (hescape hfirst.symm)
      · exact .inr hrest

end Read

end StringLiteral
