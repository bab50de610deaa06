import NocAgent.Library.Json
import NocAgent.Library.TextSearch

namespace Gateway

open TextSearch

def ordinalIgnoreCase (a b : Char) : Bool := a.toLower = b.toLower

-- The allowedList variable of both pipelines.
def allowedList (allowed : List String) : List Char := Json.textOfStrings allowed

namespace OpenAI

def marker : List Char := "/deployments/".toList

def requestDeployment (path : List Char) : List Char :=
  match indexOf ordinalIgnoreCase marker path with
  | none => []
  | some start => (path.drop (start + marker.length)).takeWhile (· ≠ '/')

def Passes (allowed : List String) (path : List Char) : Prop :=
  requestDeployment path <:+: allowedList allowed

-- The name in the first segment after a /deployments/ of the path.
def Segment (path name : List Char) : Prop :=
  ∃ before key after, First ordinalIgnoreCase marker path before key (name ++ after) ∧
    '/' ∉ name ∧ (after = [] ∨ ∃ rest, after = '/' :: rest)

end OpenAI

namespace Foundry

def marker : List Char := "\"model\":".toList

def requestDeployment (body : List Char) : List Char :=
  match indexOf ordinalIgnoreCase marker body with
  | none => []
  | some index =>
    match (body.drop (index + marker.length)).dropWhile (· ≠ '"') with
    | [] => []
    | _ :: rest => if '"' ∈ rest then rest.takeWhile (· ≠ '"') else []

def Passes (allowed : List String) (body : List Char) : Prop :=
  requestDeployment body <:+: allowedList allowed

-- The text between the two quotes that follow the first "model": of the body.
def FirstModel (body name : List Char) : Prop :=
  ∃ before key gap after,
    First ordinalIgnoreCase marker body before key (gap ++ '"' :: (name ++ '"' :: after)) ∧
      '"' ∉ gap ∧ '"' ∉ name

def model? (body : List Char) : Option String :=
  match (Json.read body).bind (·.member "model") with
  | some (.str text) => some text
  | _ => none

end Foundry

-- The quote-free pieces of the list's text that lie outside every element.
def punctuation : List String → List (List Char)
  | [] => [[], ['['], [']'], ['[', ']']]
  | [_] => [[], ['['], [']']]
  | _ :: _ :: _ => [[], ['['], [']'], [',']]

def partsTail : List String → List (List Char)
  | [] => [[']']]
  | model :: models => [','] :: ((Json.escape model).splitOn '"' ++ partsTail models)

-- The list's text cut at its quotes, those inside an element included.
def parts : List String → List (List Char)
  | [] => [['[', ']']]
  | model :: models => ['['] :: ((Json.escape model).splitOn '"' ++ partsTail models)

-- A name without a quote is a part of one element or of the punctuation. A path can also give a
-- name with quotes: its ends then lie in two parts, and the parts between are its own.
def Lies (allowed : List String) (name : List Char) : Prop :=
  ('"' ∉ name ∧ ((∃ model ∈ allowed, name <:+: Json.escape model) ∨ name ∈ punctuation allowed)) ∨
    ('"' ∈ name ∧ Spans (name.splitOn '"') (parts allowed))

-- A name is told from the others if it is an element and lies in the list, or is none and does
-- not.
def Told (allowed : List String) (name : List Char) (listed : Prop) : Prop :=
  listed ∧ Lies allowed name ∨ ¬ listed ∧ ¬ Lies allowed name

section Quoted
variable {name : List Char}

theorem infix_textsTail_iff (hq : '"' ∉ name) (texts : List String) :
    name <:+: Json.textsTail texts ↔
      (∃ text ∈ texts, name <:+: Json.escape text) ∨ name = [] ∨ name = [']'] ∨
        (texts ≠ [] ∧ name = [',']) := by
  induction texts with
  | nil =>
    rw [Json.textsTail, infix_singleton_iff]
    simp
  | cons text texts ih =>
    have hsplit : Json.textsTail (text :: texts) =
        [','] ++ '"' :: (Json.escape text ++ '"' :: Json.textsTail texts) := by
      simp [Json.textsTail, Json.quote]
    rw [hsplit, infix_append_cons_iff hq, infix_append_cons_iff hq, ih, infix_singleton_iff]
    simp only [List.mem_cons, exists_eq_or_imp, ne_eq, reduceCtorEq, not_false_eq_true, true_and]
    grind

theorem infix_allowedList_iff_of_free (hq : '"' ∉ name) (allowed : List String) :
    name <:+: allowedList allowed ↔
      (∃ model ∈ allowed, name <:+: Json.escape model) ∨ name ∈ punctuation allowed := by
  cases allowed with
  | nil =>
    rw [allowedList, Json.textOfStrings, List.infix_cons_iff, infix_singleton_iff]
    simp [punctuation, List.prefix_cons_iff]
    grind
  | cons model models =>
    have hsplit : allowedList (model :: models) =
        ['['] ++ '"' :: (Json.escape model ++ '"' :: Json.textsTail models) := by
      simp [allowedList, Json.textOfStrings, Json.quote]
    rw [hsplit, infix_append_cons_iff hq, infix_append_cons_iff hq, infix_textsTail_iff hq,
      infix_singleton_iff]
    cases models with
    | nil =>
      simp [punctuation]
      grind
    | cons model' models =>
      simp [punctuation]
      grind

theorem splitOn_textsTail (texts : List String) :
    (Json.textsTail texts).splitOn '"' = partsTail texts := by
  induction texts with
  | nil => decide +kernel
  | cons text texts ih =>
    have hsplit : Json.textsTail (text :: texts) =
        [','] ++ '"' :: (Json.escape text ++ '"' :: Json.textsTail texts) := by
      simp [Json.textsTail, Json.quote]
    rw [hsplit, List.splitOn_append_cons_self, List.splitOn_append_cons_self, ih, partsTail]
    rfl

theorem splitOn_allowedList (allowed : List String) :
    (allowedList allowed).splitOn '"' = parts allowed := by
  cases allowed with
  | nil => decide +kernel
  | cons model models =>
    have hsplit : allowedList (model :: models) =
        ['['] ++ '"' :: (Json.escape model ++ '"' :: Json.textsTail models) := by
      simp [allowedList, Json.textOfStrings, Json.quote]
    rw [hsplit, List.splitOn_append_cons_self, List.splitOn_append_cons_self, splitOn_textsTail,
      parts]
    rfl

theorem infix_allowedList_iff (name : List Char) (allowed : List String) :
    name <:+: allowedList allowed ↔ Lies allowed name := by
  unfold Lies
  by_cases hq : '"' ∈ name
  · rw [infix_iff_spans hq, splitOn_allowedList, or_iff_right (fun h => h.1 hq),
      and_iff_right hq]
  · rw [infix_allowedList_iff_of_free hq, and_iff_right hq]
    exact (or_iff_left fun h : '"' ∈ name ∧ _ => hq h.1).symm

theorem iff_iff_told {listed : Prop} (name : List Char) (allowed : List String) :
    (name <:+: allowedList allowed ↔ listed) ↔ Told allowed name listed := by
  rw [infix_allowedList_iff, iff_comm (a := Lies allowed name)]
  exact iff_iff_and_or_not_and_not

end Quoted

def PlainName (name : List Char) : Prop :=
  name ≠ [] ∧ ∀ c ∈ name, c ≠ '"' ∧ c ≠ '[' ∧ c ≠ ']' ∧ c ≠ ','

theorem mem_punctuation {allowed : List String} {name : List Char}
    (h : name ∈ punctuation allowed) : name = [] ∨ ∃ c ∈ name, c = '[' ∨ c = ']' ∨ c = ',' := by
  unfold punctuation at h
  split at h
  all_goals
    simp only [List.mem_cons, List.not_mem_nil, or_false] at h
    rcases h with rfl | rfl | rfl | rfl
  all_goals simp

theorem told_plain_iff {allowed : List String} (hallowed : ∀ m ∈ allowed, Json.escape m = m.toList)
    {name : List Char} (hname : PlainName name) :
    Told allowed name (String.ofList name ∈ allowed) ↔
      (String.ofList name ∈ allowed ∨ ∀ m ∈ allowed, ¬ name <:+: m.toList) := by
  obtain ⟨hne, hplain⟩ := hname
  have hquote : '"' ∉ name := fun hm => (hplain _ hm).1 rfl
  have hpunct : name ∉ punctuation allowed := by
    intro hm
    obtain ⟨c, hc, hcase⟩ := (mem_punctuation hm).resolve_left hne
    obtain ⟨-, hopen, hclose, hcomma⟩ := hplain c hc
    tauto
  have hlies : Lies allowed name ↔ ∃ m ∈ allowed, name <:+: m.toList := by
    have hsame : (∃ m ∈ allowed, name <:+: Json.escape m) ↔ ∃ m ∈ allowed, name <:+: m.toList :=
      exists_congr fun m => and_congr_right fun hm => by rw [hallowed m hm]
    rw [Lies, hsame, and_iff_right hquote, or_iff_left hpunct]
    exact or_iff_left fun h : '"' ∈ name ∧ _ => hquote h.1
  have hself : String.ofList name ∈ allowed → ∃ m ∈ allowed, name <:+: m.toList := by
    refine fun hm => ⟨_, hm, ?_⟩
    rw [String.toList_ofList]
  rw [Told, hlies]
  constructor
  · rintro (⟨hl, -⟩ | ⟨-, hn⟩)
    · exact .inl hl
    · exact .inr fun m hm hi => hn ⟨m, hm, hi⟩
  · rintro (hl | hn)
    · exact .inl ⟨hl, hself hl⟩
    · have hnone : ¬ ∃ m ∈ allowed, name <:+: m.toList := fun ⟨m, hm, hi⟩ => hn m hm hi
      exact .inr ⟨fun hl => hnone (hself hl), hnone⟩

namespace OpenAI

theorem segment_iff {path name : List Char} :
    Segment path name ↔ ∃ start, indexOf ordinalIgnoreCase marker path = some start ∧
      (path.drop (start + marker.length)).takeWhile (· ≠ '/') = name := by
  constructor
  · rintro ⟨before, key, after, hfirst, hname, hafter⟩
    cases hfound : indexOf ordinalIgnoreCase marker path with
    | none => exact absurd hfirst (indexOf_eq_none_iff.mp hfound _ _ _)
    | some start =>
      obtain ⟨before', key', hfirst'⟩ := indexOf_eq_some hfound
      exact ⟨start, rfl, takeWhile_ne_eq_iff.mpr
        ⟨hname, after, hfirst'.after_eq hfirst, hafter⟩⟩
  · rintro ⟨start, hfound, hname⟩
    obtain ⟨before, key, hfirst⟩ := indexOf_eq_some hfound
    obtain ⟨hfree, after, hsplit, hafter⟩ := takeWhile_ne_eq_iff.mp hname
    exact ⟨before, key, after, hsplit ▸ hfirst, hfree, hafter⟩

theorem Segment.requestDeployment_eq {path name : List Char} (h : Segment path name) :
    requestDeployment path = name := by
  obtain ⟨start, hfound, hname⟩ := segment_iff.mp h
  rw [requestDeployment, hfound]
  exact hname

theorem requestDeployment_of_no_segment {path : List Char} (h : ∀ name, ¬ Segment path name) :
    requestDeployment path = [] := by
  cases hfound : indexOf ordinalIgnoreCase marker path with
  | none => rw [requestDeployment, hfound]
  | some start => exact absurd (segment_iff.mpr ⟨start, hfound, rfl⟩) (h _)

def Gates (allowed : List String) (path : List Char) : Prop :=
  Passes allowed path ↔ ∃ name, Segment path name ∧ String.ofList name ∈ allowed

theorem Segment.gates_iff {path name : List Char} (h : Segment path name)
    (allowed : List String) :
    Gates allowed path ↔ Told allowed name (String.ofList name ∈ allowed) := by
  have hlisted : (∃ name, Segment path name ∧ String.ofList name ∈ allowed) ↔
      String.ofList name ∈ allowed := by
    constructor
    · rintro ⟨name', hname', hin⟩
      rwa [← h.requestDeployment_eq, hname'.requestDeployment_eq]
    · exact fun hin => ⟨name, h, hin⟩
  rw [Gates, Passes, h.requestDeployment_eq, hlisted]
  exact iff_iff_told name allowed

theorem not_gates_of_no_segment {path : List Char} (h : ∀ name, ¬ Segment path name)
    (allowed : List String) : ¬ Gates allowed path := by
  intro hgates
  have hpasses : Passes allowed path := by
    rw [Passes, requestDeployment_of_no_segment h]
    exact List.nil_infix
  obtain ⟨name, hname, -⟩ := hgates.mp hpasses
  exact h name hname

theorem gates_iff (allowed : List String) (path : List Char) :
    Gates allowed path ↔
      ∃ name, Segment path name ∧ Told allowed name (String.ofList name ∈ allowed) := by
  constructor
  · intro hgates
    obtain ⟨name, hname⟩ : ∃ name, Segment path name := by
      by_contra hnone
      exact not_gates_of_no_segment (not_exists.mp hnone) allowed hgates
    exact ⟨name, hname, (hname.gates_iff allowed).mp hgates⟩
  · rintro ⟨name, hname, htold⟩
    exact (hname.gates_iff allowed).mpr htold

end OpenAI

namespace Foundry

theorem requestDeployment_eq_of_first {body before key rest : List Char}
    (h : First ordinalIgnoreCase marker body before key rest) :
    requestDeployment body =
      match rest.dropWhile (· ≠ '"') with
      | [] => []
      | _ :: rest => if '"' ∈ rest then rest.takeWhile (· ≠ '"') else [] := by
  cases hfound : indexOf ordinalIgnoreCase marker body with
  | none => exact absurd h (indexOf_eq_none_iff.mp hfound _ _ _)
  | some start =>
    obtain ⟨before', key', hfirst⟩ := indexOf_eq_some hfound
    rw [requestDeployment, hfound, ← hfirst.after_eq h]

theorem FirstModel.requestDeployment_eq {body name : List Char} (h : FirstModel body name) :
    requestDeployment body = name := by
  obtain ⟨before, key, gap, after, hfirst, hgap, hname⟩ := h
  rw [requestDeployment_eq_of_first hfirst, dropWhile_ne_append hgap]
  exact (if_pos (by simp)).trans (takeWhile_ne_append hname after)

theorem requestDeployment_of_no_model {body : List Char} (h : ∀ name, ¬ FirstModel body name) :
    requestDeployment body = [] := by
  cases hfound : indexOf ordinalIgnoreCase marker body with
  | none => rw [requestDeployment, hfound]
  | some start =>
    obtain ⟨before, key, hfirst⟩ := indexOf_eq_some hfound
    rw [requestDeployment_eq_of_first hfirst]
    generalize body.drop (start + marker.length) = rest at hfirst ⊢
    by_cases hopen : '"' ∈ rest
    · obtain ⟨gap, rest, rfl, hgap⟩ := List.eq_append_cons_of_mem hopen
      rw [dropWhile_ne_append hgap]
      by_cases hclose : '"' ∈ rest
      · obtain ⟨name, after, rfl, hname⟩ := List.eq_append_cons_of_mem hclose
        exact absurd ⟨before, key, gap, after, hfirst, hgap, hname⟩ (h name)
      · exact if_neg hclose
    · rw [dropWhile_ne_of_not_mem hopen]

def Listed (allowed : List String) (body : List Char) : Prop :=
  ∃ model, model? body = some model ∧ model ∈ allowed

def Gates (allowed : List String) (body : List Char) : Prop :=
  Passes allowed body ↔ Listed allowed body

theorem FirstModel.gates_iff {body name : List Char} (h : FirstModel body name)
    (allowed : List String) :
    Gates allowed body ↔ Told allowed name (Listed allowed body) := by
  rw [Gates, Passes, h.requestDeployment_eq]
  exact iff_iff_told name allowed

theorem gates_iff_of_no_model {body : List Char} (h : ∀ name, ¬ FirstModel body name)
    (allowed : List String) : Gates allowed body ↔ Listed allowed body := by
  rw [Gates, Passes, requestDeployment_of_no_model h]
  exact iff_true_left List.nil_infix

theorem gates_iff (allowed : List String) (body : List Char) :
    Gates allowed body ↔
      (∃ name, FirstModel body name ∧ Told allowed name (Listed allowed body)) ∨
        ((∀ name, ¬ FirstModel body name) ∧ Listed allowed body) := by
  by_cases hmodel : ∃ name, FirstModel body name
  · obtain ⟨name, hname⟩ := hmodel
    rw [hname.gates_iff allowed]
    constructor
    · exact fun htold => .inl ⟨name, hname, htold⟩
    · rintro (⟨name', hname', htold⟩ | ⟨hnone, -⟩)
      · rwa [← hname.requestDeployment_eq, hname'.requestDeployment_eq]
      · exact absurd hname (hnone name)
  · rw [gates_iff_of_no_model (not_exists.mp hmodel) allowed]
    constructor
    · exact fun hlisted => .inr ⟨not_exists.mp hmodel, hlisted⟩
    · rintro (⟨name, hname, -⟩ | ⟨-, hlisted⟩)
      · exact absurd ⟨name, hname⟩ hmodel
      · exact hlisted

end Foundry

def Unmistaken (allowed : List String) (name : List Char) : Prop :=
  String.ofList name ∈ allowed ∨ ∀ m ∈ allowed, ¬ name <:+: m.toList

theorem allowed_model_gate_iff (allowed : List String) (path body : List Char) :
    (OpenAI.Gates allowed path ↔ ∃ name, OpenAI.Segment path name ∧
        Told allowed name (String.ofList name ∈ allowed)) ∧
      (Foundry.Gates allowed body ↔
        (∃ name, Foundry.FirstModel body name ∧
            Told allowed name (Foundry.Listed allowed body)) ∨
          ((∀ name, ¬ Foundry.FirstModel body name) ∧ Foundry.Listed allowed body)) ∧
      ((∀ m ∈ allowed, Json.escape m = m.toList) → ∀ name, PlainName name →
        (OpenAI.Segment path name → (OpenAI.Gates allowed path ↔ Unmistaken allowed name)) ∧
          (Foundry.FirstModel body name → Foundry.model? body = some (String.ofList name) →
            (Foundry.Gates allowed body ↔ Unmistaken allowed name))) := by
  refine ⟨OpenAI.gates_iff allowed path, Foundry.gates_iff allowed body,
    fun hallowed name hname => ⟨fun hpath => ?_, fun hbody hmodel => ?_⟩⟩
  · rw [hpath.gates_iff allowed]
    exact told_plain_iff hallowed hname
  · have hlisted : Foundry.Listed allowed body ↔ String.ofList name ∈ allowed := by
      simp only [Foundry.Listed, hmodel, Option.some.injEq, exists_eq_left']
    rw [hbody.gates_iff allowed, hlisted]
    exact told_plain_iff hallowed hname

section Example

def miniOnly : List String := ["gpt-5.4-mini"]

def largePath : List Char := "/openai/deployments/gpt-5.4/chat/completions".toList

def pathWithoutModel : List Char := "/openai/models".toList

def nestedBody : List Char :=
  "\x7b\"metadata\":\x7b\"model\":\"gpt-5.4-mini\"\x7d,\"model\":\"grok-4.3\"\x7d".toList

theorem gate_passes_unlisted_models :
    ¬ OpenAI.Gates miniOnly largePath ∧ ¬ OpenAI.Gates miniOnly pathWithoutModel ∧
      ¬ Foundry.Gates miniOnly nestedBody := by
  have hlarge : OpenAI.Passes miniOnly largePath := by
    unfold OpenAI.Passes
    decide +kernel
  have hnone : OpenAI.Passes miniOnly pathWithoutModel := by
    unfold OpenAI.Passes
    decide +kernel
  have hnested : Foundry.Passes miniOnly nestedBody := by
    unfold Foundry.Passes
    decide +kernel
  refine ⟨fun h => ?_, fun h => ?_, fun h => ?_⟩
  · obtain ⟨name, hname, hin⟩ := h.mp hlarge
    rw [← hname.requestDeployment_eq] at hin
    exact absurd hin (by decide +kernel)
  · obtain ⟨name, hname, -⟩ := h.mp hnone
    obtain ⟨start, hfound, -⟩ := OpenAI.segment_iff.mp hname
    have hmissing : indexOf ordinalIgnoreCase OpenAI.marker pathWithoutModel = none := by
      decide +kernel
    rw [hmissing] at hfound
    cases hfound
  · obtain ⟨model, hmodel, hin⟩ := h.mp hnested
    have hwhich : Foundry.model? nestedBody = some "grok-4.3" := by decide +kernel
    rw [hwhich] at hmodel
    cases hmodel
    exact absurd hin (by decide +kernel)

end Example

end Gateway
