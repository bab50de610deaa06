import NocAgent.IncidentMonitor.Overlap
import NocAgent.Library.StringLiteral

namespace IncidentMonitor
open StringLiteral

def doubled (value : List Char) : List Char :=
  value.flatMap fun c => if c = '\'' then ['\'', '\''] else [c]

def kqlString (value : String) : List Char := '\'' :: doubled value.toList ++ ['\'']

-- replace("\n\n", "\n")
def collapse : List Char → List Char
  | [] => []
  | [c] => [c]
  | c :: c' :: cs => if c = '\n' ∧ c' = '\n' then '\n' :: collapse cs else c :: collapse (c' :: cs)

-- What the query texts are made of besides the clauses: the form of an instant.
abbrev IsoFormat := ℤ → String

section Text
variable (iso : IsoFormat)

def windowText (query : IncidentQuery) : List Char :=
  "| where Timestamp >= datetime(".toList ++ (iso query.lower).toList ++
    ") and Timestamp <= datetime(".toList ++ (iso query.upper).toList ++ ")".toList

def filterHead (time : ℤ) : List Char :=
  "| where Timestamp > datetime(".toList ++ (iso time).toList ++
    ") or (Timestamp == datetime(".toList ++ (iso time).toList ++
    ") and strcmp(IncidentId, ".toList

def cursorFilterText (query : IncidentQuery) : List Char :=
  match query.cursorFilter with
  | some (time, incidentId) => filterHead iso time ++ kqlString incidentId ++ ") > 0)".toList
  | none => []

def queryText (query : IncidentQuery) : List Char :=
  collapse (['\n'].intercalate
    ["IncidentEvents".toList, "| where Stage == 'Detected'".toList, windowText iso query,
      cursorFilterText iso query, "| project Timestamp, IncidentId, Detail".toList,
      "| order by Timestamp asc, IncidentId asc".toList,
      "| take ".toList ++ (toString query.take).toList])

def textBefore (query : IncidentQuery) (time : ℤ) : List Char :=
  collapse (['\n'].intercalate
    ["IncidentEvents".toList, "| where Stage == 'Detected'".toList, windowText iso query,
      filterHead iso time])

def textAfter (take : ℕ) : List Char :=
  collapse (['\n'].intercalate
    [") > 0)".toList, "| project Timestamp, IncidentId, Detail".toList,
      "| order by Timestamp asc, IncidentId asc".toList,
      "| take ".toList ++ (toString take).toList])

end Text

section Collapse
variable {xs : List Char}

theorem collapse_append (xs : List Char) {c : Char} (hc : c ≠ '\n') (ys : List Char) :
    collapse (xs ++ c :: ys) = collapse xs ++ collapse (c :: ys) := by
  induction xs using collapse.induct with
  | case1 => rfl
  | case2 x => simp [collapse, hc]
  | case3 x x' cs h ih => simp [collapse, h, ih]
  | case4 x x' cs h ih =>
    rw [List.cons_append, List.cons_append, collapse, if_neg h, collapse, if_neg h]
    exact congrArg _ ih

theorem collapse_cons {c : Char} (hc : c ≠ '\n') (ys : List Char) :
    collapse (c :: ys) = c :: collapse ys := by
  cases ys with
  | nil => rfl
  | cons y ys => rw [collapse, if_neg fun h => hc h.1]

theorem count_collapse {q : Char} (hq : q ≠ '\n') (xs : List Char) :
    (collapse xs).count q = xs.count q := by
  induction xs using collapse.induct with
  | case1 => rfl
  | case2 x => rfl
  | case3 x x' cs h ih =>
    rw [collapse, if_pos h, h.1, h.2, List.count_cons_of_ne (Ne.symm hq), ih,
      List.count_cons_of_ne (Ne.symm hq), List.count_cons_of_ne (Ne.symm hq)]
  | case4 x x' cs h ih => rw [collapse, if_neg h, List.count_cons, ih, ← List.count_cons]

theorem collapse_length_le (xs : List Char) : (collapse xs).length ≤ xs.length := by
  induction xs using collapse.induct with
  | case1 => rfl
  | case2 x => rfl
  | case3 x x' cs h ih =>
    rw [collapse, if_pos h, List.length_cons, List.length_cons, List.length_cons]
    omega
  | case4 x x' cs h ih =>
    rw [collapse, if_neg h, List.length_cons, List.length_cons]
    omega

theorem collapse_cases (xs : List Char) :
    collapse xs = xs ∧ ¬ ['\n', '\n'] <:+: xs ∨
      (collapse xs).length < xs.length ∧ ['\n', '\n'] <:+: xs := by
  induction xs using collapse.induct with
  | case1 => exact .inl ⟨rfl, by decide⟩
  | case2 x => exact .inl ⟨rfl, fun h => absurd h.length_le (by simp)⟩
  | case3 x x' cs h ih =>
    rw [collapse, if_pos h, List.length_cons, List.length_cons, List.length_cons]
    have hlength := collapse_length_le cs
    refine .inr ⟨by omega, [], cs, ?_⟩
    rw [h.1, h.2]
    rfl
  | case4 x x' cs h ih =>
    rw [collapse, if_neg h, List.length_cons, List.length_cons]
    rcases ih with ⟨hsame, hpair⟩ | ⟨hshorter, hpair⟩
    · refine .inl ⟨by rw [hsame], fun hinfix => ?_⟩
      rcases List.infix_cons_iff.mp hinfix with hstart | hinfix
      · rw [List.cons_prefix_cons, List.cons_prefix_cons] at hstart
        exact h ⟨hstart.1.symm, hstart.2.1.symm⟩
      · exact hpair hinfix
    · exact .inr ⟨by omega, hpair.trans (List.suffix_cons _ _).isInfix⟩

end Collapse

section Doubled
variable {xs : List Char}

theorem doubled_cons (c : Char) (cs : List Char) :
    doubled (c :: cs) = (if c = '\'' then ['\'', '\''] else [c]) ++ doubled cs := rfl

theorem doubled_length (xs : List Char) : (doubled xs).length = xs.length + xs.count '\'' := by
  induction xs with
  | nil => rfl
  | cons c cs ih =>
    rw [doubled_cons, List.length_append, ih, List.length_cons]
    split_ifs with h
    · rw [h, List.count_cons_self]
      simp only [List.length_cons, List.length_nil]
      omega
    · rw [List.count_cons_of_ne h, List.length_singleton]
      omega

theorem count_doubled (xs : List Char) : (doubled xs).count '\'' = 2 * xs.count '\'' := by
  induction xs with
  | nil => rfl
  | cons c cs ih =>
    rw [doubled_cons, List.count_append, ih]
    split_ifs with h
    · rw [h, List.count_cons_self]
      simp only [List.count_cons_self, List.count_nil]
      omega
    · rw [List.count_cons_of_ne h, List.count_cons_of_ne h, List.count_nil, Nat.zero_add]

theorem doubled_eq_self (h : '\'' ∉ xs) : doubled xs = xs := by
  induction xs with
  | nil => rfl
  | cons c cs ih =>
    rw [List.mem_cons, not_or] at h
    rw [doubled_cons, if_neg (Ne.symm h.1), ih h.2]
    rfl

end Doubled

structure Kusto where
  isSpace : Char → Bool
  readEscape : List Char → Option (Char × ℕ)
  readEscape_pos : ∀ cs value n, readEscape cs = some (value, n) → 0 < n
  paren_not_space : isSpace ')' = false

def Kusto.dialect (k : Kusto) : Dialect where
  quote := '\''
  escape := '\\'
  isSpace := k.isSpace
  readEscape := k.readEscape
  quote_ne_escape := by decide
  readEscape_pos := k.readEscape_pos

section Quoting
variable (k : Kusto) (iso : IsoFormat) (m : PollingMonitor) (timestamp : String) (now : ℤ)

def queryFor (incidentId : String) : IncidentQuery :=
  m.buildIncidentQuery (some ⟨timestamp, incidentId⟩) now

def argumentBefore : List Char :=
  textBefore iso (queryFor m timestamp now "") (m.asUtc timestamp)

def argumentAfter : List Char := textAfter m.config.batchSize

def QuotedFaithfully (incidentId : String) : Prop :=
  ∃ argument, queryText iso (queryFor m timestamp now incidentId) =
      argumentBefore iso m timestamp now ++ argument ++ argumentAfter m ∧
    expression k.dialect (argument ++ argumentAfter m) =
      some (incidentId.toList, argumentAfter m)

variable {k iso m timestamp now} {incidentId : String}

theorem collapse_around (before body after : List Char) :
    collapse (before ++ ('\'' :: body ++ ['\'']) ++ after) =
      collapse before ++ ('\'' :: collapse body ++ ['\'']) ++ collapse after := by
  have hquote : '\'' ≠ '\n' := by decide
  have hafter : collapse ('\'' :: after) = '\'' :: collapse after := collapse_cons hquote after
  calc
    collapse (before ++ ('\'' :: body ++ ['\'']) ++ after) =
        collapse (before ++ '\'' :: (body ++ '\'' :: after)) := by simp
    _ = collapse before ++ '\'' :: (collapse body ++ '\'' :: collapse after) := by
        rw [collapse_append before hquote, collapse_cons hquote, collapse_append body hquote,
          hafter]
    _ = collapse before ++ ('\'' :: collapse body ++ ['\'']) ++ collapse after := by simp

theorem lines_around (first second third before argument after fifth sixth last : List Char) :
    ['\n'].intercalate [first, second, third, before ++ argument ++ after, fifth, sixth, last] =
      ['\n'].intercalate [first, second, third, before] ++ argument ++
        ['\n'].intercalate [after, fifth, sixth, last] := by
  simp [List.intercalate]

theorem queryText_eq : queryText iso (queryFor m timestamp now incidentId) =
    argumentBefore iso m timestamp now ++
      ('\'' :: collapse (doubled incidentId.toList) ++ ['\'']) ++ argumentAfter m :=
  (congrArg collapse (lines_around ..)).trans (collapse_around ..)

theorem expression_quoted (body after : List Char) :
    expression k.dialect (('\'' :: body ++ ['\'']) ++ after) =
      lex k.dialect (.body 0) (body ++ k.dialect.quote :: after) := by
  rw [List.append_assoc, List.cons_append, expression]
  exact if_pos rfl

theorem argumentAfter_stops : Stops k.dialect (argumentAfter m) :=
  ⟨')', _, collapse_cons (by decide) _, (by decide : ')' ≠ '\''), k.paren_not_space⟩

theorem quoted_faithfully_iff (k : Kusto) (iso : IsoFormat) (m : PollingMonitor)
    (timestamp : String) (now : ℤ) (incidentId : String) :
    QuotedFaithfully k iso m timestamp now incidentId ↔
      '\'' ∉ incidentId.toList ∧ '\\' ∉ incidentId.toList ∧
        ¬ ['\n', '\n'] <:+: incidentId.toList := by
  constructor
  · rintro ⟨argument, htext, hread⟩
    rw [queryText_eq] at htext
    rw [← List.append_cancel_left (List.append_cancel_right htext), expression_quoted] at hread
    have hlength := length_of_lex hread
    change _ + (collapse _).count '\'' ≤ _ at hlength
    rw [count_collapse (by decide), count_doubled] at hlength
    have hcollapsed := collapse_length_le (doubled incidentId.toList)
    rw [doubled_length] at hcollapsed
    have hquote : '\'' ∉ incidentId.toList := List.count_eq_zero.mp (by omega)
    rw [doubled_eq_self hquote] at hread hlength
    rcases collapse_cases incidentId.toList with ⟨hsame, hpair⟩ | ⟨hshorter, -⟩
    · rw [hsame] at hread
      refine ⟨hquote, fun hescape => ?_, hpair⟩
      exact absurd ((length_lt_of_skip hquote hread).2 (.inr hescape)) (Nat.lt_irrefl _)
    · omega
  · rintro ⟨hquote, hescape, hpair⟩
    have hbody : collapse (doubled incidentId.toList) = incidentId.toList := by
      rw [doubled_eq_self hquote]
      exact ((collapse_cases incidentId.toList).resolve_right fun h => hpair h.2).1
    refine ⟨_, queryText_eq, ?_⟩
    rw [expression_quoted, hbody]
    exact lex_plain hquote hescape argumentAfter_stops

end Quoting

section Demo
open PollingMonitor

def simpleEscape : Char → Option Char
  | '\'' => some '\''
  | '"' => some '"'
  | '\\' => some '\\'
  | 'n' => some '\n'
  | 'r' => some '\r'
  | 't' => some '\t'
  | _ => none

def simpleKusto : Kusto where
  isSpace c := c = ' ' || c = '\t' || c = '\r' || c = '\n'
  readEscape cs := cs.head?.bind fun c => (simpleEscape c).map fun value => (value, 1)
  readEscape_pos cs value n h := by
    obtain ⟨c, -, hc⟩ := Option.bind_eq_some_iff.mp h
    obtain ⟨v, -, hv⟩ := Option.map_eq_some_iff.mp hc
    cases hv
    exact Nat.one_pos
  paren_not_space := by decide

def cursorTime : String := "2026-09-16T11:59:00.000000Z"

def noon : String := "2026-09-16T12:00:00.000000Z"

def demoIso (instant : ℤ) : String :=
  if instant = fromisoformat cursorTime then cursorTime
  else if instant = fromisoformat noon then noon
  else "2026-09-16T11:58:30.000000Z"

theorem doubled_quote_dropped :
    queryText demoIso (queryFor monitor cursorTime (fromisoformat noon) "INC'OOPS") =
        argumentBefore demoIso monitor cursorTime (fromisoformat noon) ++
          "'INC''OOPS'".toList ++ argumentAfter monitor ∧
      expression simpleKusto.dialect ("'INC''OOPS'".toList ++ argumentAfter monitor) =
        some ("INCOOPS".toList, argumentAfter monitor) ∧
      ¬ QuotedFaithfully simpleKusto demoIso monitor cursorTime (fromisoformat noon)
          "INC'OOPS" := by
  have htext : queryText demoIso (queryFor monitor cursorTime (fromisoformat noon) "INC'OOPS") =
      argumentBefore demoIso monitor cursorTime (fromisoformat noon) ++
        "'INC''OOPS'".toList ++ argumentAfter monitor := by decide +kernel
  have hread : expression simpleKusto.dialect ("'INC''OOPS'".toList ++ argumentAfter monitor) =
      some ("INCOOPS".toList, argumentAfter monitor) := by decide +kernel
  refine ⟨htext, hread, ?_⟩
  rintro ⟨argument, hargument, hfaithful⟩
  rw [htext] at hargument
  rw [← List.append_cancel_left (List.append_cancel_right hargument), hread] at hfaithful
  exact absurd (congrArg (Option.map Prod.fst) hfaithful) (by decide)

end Demo

end IncidentMonitor
