import Mathlib.Data.List.Forall2
import Mathlib.Data.List.Infix
import Mathlib.Data.List.TakeWhile

namespace TextSearch

section First
variable {α : Type} (eq : α → α → Bool)

-- The position of the first match, eq deciding what matches.
def indexOf [DecidableEq α] (pattern : List α) : List α → Option ℕ
  | [] => if pattern = [] then some 0 else none
  | c :: cs =>
    if pattern.length ≤ (c :: cs).length ∧ (pattern.zip (c :: cs)).all fun p => eq p.1 p.2 then
      some 0
    else (indexOf pattern cs).map (· + 1)

def Matches (pattern key : List α) : Prop := List.Forall₂ (fun p c => eq p c = true) pattern key

structure First (pattern text before key after : List α) : Prop where
  split : text = before ++ (key ++ after)
  matches_key : Matches eq pattern key
  earliest : ∀ before' key' after', text = before' ++ (key' ++ after') →
    Matches eq pattern key' → before.length ≤ before'.length

variable {eq}

theorem matches_take_iff {pattern text : List α} :
    (∃ key after, text = key ++ after ∧ Matches eq pattern key) ↔
      pattern.length ≤ text.length ∧ ((pattern.zip text).all fun p => eq p.1 p.2) = true := by
  induction pattern generalizing text with
  | nil => simp [Matches]
  | cons p ps ih =>
    cases text with
    | nil =>
      simp only [List.length_cons, List.length_nil, Nat.le_zero_eq, Nat.add_one_ne_zero, false_and,
        iff_false]
      rintro ⟨key, after, hnil, hkey⟩
      obtain ⟨rfl, -⟩ := List.append_eq_nil_iff.mp hnil.symm
      cases hkey
    | cons c cs =>
      have hone : (∃ key after, c :: cs = key ++ after ∧ Matches eq (p :: ps) key) ↔
          eq p c = true ∧ ∃ key after, cs = key ++ after ∧ Matches eq ps key := by
        constructor
        · rintro ⟨_, after, hsplit, hkey⟩
          cases hkey with
          | cons hpc hrest =>
            obtain ⟨rfl, rfl⟩ := List.cons.inj hsplit
            exact ⟨hpc, _, after, rfl, hrest⟩
        · rintro ⟨hpc, key, after, rfl, hrest⟩
          exact ⟨c :: key, after, rfl, .cons hpc hrest⟩
      rw [hone, ih]
      simp only [List.length_cons, List.zip_cons_cons, List.all_cons, Nat.add_le_add_iff_right,
        Bool.and_eq_true]
      tauto

theorem First.cons {pattern text before key after : List α} {c : α}
    (hnot : ¬ ∃ key after, c :: text = key ++ after ∧ Matches eq pattern key)
    (h : First eq pattern text before key after) :
    First eq pattern (c :: text) (c :: before) key after := by
  refine ⟨by rw [h.split]; rfl, h.matches_key, fun before' key' after' hsplit hkey => ?_⟩
  cases before' with
  | nil => exact absurd ⟨key', after', hsplit, hkey⟩ hnot
  | cons c' before' =>
    exact Nat.succ_le_succ (h.earliest before' key' after' (List.cons.inj hsplit).2 hkey)

variable (eq) in
theorem indexOf_spec [DecidableEq α] (pattern text : List α) :
    match indexOf eq pattern text with
    | some start => ∃ before key after,
        First eq pattern text before key after ∧ before.length = start
    | none => ∀ before key after, text = before ++ (key ++ after) → ¬ Matches eq pattern key := by
  induction text with
  | nil =>
    rw [indexOf]
    split_ifs with hp
    · subst hp
      exact ⟨[], [], [], ⟨rfl, .nil, fun _ _ _ _ _ => Nat.zero_le _⟩, rfl⟩
    · intro before key after hsplit hkey
      obtain ⟨-, hnil⟩ := List.append_eq_nil_iff.mp hsplit.symm
      obtain ⟨rfl, -⟩ := List.append_eq_nil_iff.mp hnil
      cases hkey
      exact hp rfl
  | cons c cs ih =>
    rw [indexOf]
    split_ifs with hhere
    · obtain ⟨key, after, hsplit, hkey⟩ := matches_take_iff.mpr hhere
      exact ⟨[], key, after, ⟨hsplit, hkey, fun _ _ _ _ _ => Nat.zero_le _⟩, rfl⟩
    · have hnot := mt matches_take_iff.mp hhere
      cases hfound : indexOf eq pattern cs with
      | none =>
        rw [hfound] at ih
        rintro (_ | ⟨c', before⟩) key after hsplit hkey
        · exact hnot ⟨key, after, hsplit, hkey⟩
        · exact ih before key after (List.cons.inj hsplit).2 hkey
      | some start =>
        rw [hfound] at ih
        obtain ⟨before, key, after, hfirst, hlength⟩ := ih
        exact ⟨c :: before, key, after, hfirst.cons hnot, by rw [List.length_cons, hlength]⟩

theorem Matches.length_eq {pattern key : List α} (h : Matches eq pattern key) :
    pattern.length = key.length :=
  List.Forall₂.length_eq h

theorem First.after_eq {pattern text before key after before' key' after' : List α}
    (h : First eq pattern text before key after)
    (h' : First eq pattern text before' key' after') : after = after' := by
  have hbefore : before.length = before'.length :=
    le_antisymm (h.earliest _ _ _ h'.split h'.matches_key)
      (h'.earliest _ _ _ h.split h.matches_key)
  have hkey : key.length = key'.length :=
    h.matches_key.length_eq.symm.trans h'.matches_key.length_eq
  have hsame := h.split.symm.trans h'.split
  exact (List.append_inj (List.append_inj hsame hbefore).2 hkey).2

theorem indexOf_eq_none_iff [DecidableEq α] {pattern text : List α} :
    indexOf eq pattern text = none ↔
      ∀ before key after, ¬ First eq pattern text before key after := by
  have hspec := indexOf_spec eq pattern text
  constructor
  · intro hnone before key after hfirst
    rw [hnone] at hspec
    exact hspec before key after hfirst.split hfirst.matches_key
  · intro hall
    cases hfound : indexOf eq pattern text with
    | none => rfl
    | some start =>
      rw [hfound] at hspec
      obtain ⟨before, key, after, hfirst, -⟩ := hspec
      exact absurd hfirst (hall before key after)

theorem indexOf_eq_some [DecidableEq α] {pattern text : List α} {start : ℕ}
    (h : indexOf eq pattern text = some start) :
    ∃ before key, First eq pattern text before key (text.drop (start + pattern.length)) := by
  have hspec := indexOf_spec eq pattern text
  rw [h] at hspec
  obtain ⟨before, key, after, hfirst, rfl⟩ := hspec
  have hdrop : text.drop (before.length + pattern.length) = after := by
    rw [hfirst.matches_key.length_eq, ← List.length_append, hfirst.split, ← List.append_assoc,
      List.drop_left]
  exact ⟨before, key, hdrop ▸ hfirst⟩

end First

section Infix
variable {α : Type} {c : α}

theorem infix_append_cons_iff {l xs ys : List α} (hc : c ∉ l) :
    l <:+: xs ++ c :: ys ↔ l <:+: xs ∨ l <:+: ys := by
  have hhead : ∀ {t : List α}, c ∉ t → t <+: c :: ys → t = [] := by
    intro t ht hpre
    cases t with
    | nil => rfl
    | cons a t =>
      obtain rfl : a = c := (List.cons_prefix_cons.mp hpre).1
      exact absurd List.mem_cons_self ht
  rw [List.infix_append_iff, List.infix_cons_iff]
  constructor
  · rintro (h | (h | h) | ⟨l₁, l₂, rfl, h₁, h₂⟩)
    · exact .inl h
    · rw [hhead hc h]
      exact .inl List.nil_infix
    · exact .inr h
    · rw [hhead (fun hm => hc (List.mem_append_right _ hm)) h₂, List.append_nil]
      exact .inl h₁.isInfix
  · rintro (h | h)
    · exact .inl h
    · exact .inr (.inl (.inr h))

theorem infix_singleton_iff {l : List α} : l <:+: [c] ↔ l = [] ∨ l = [c] := by
  rw [List.infix_cons_iff, List.prefix_cons_iff, List.infix_nil]
  constructor
  · rintro ((h | ⟨t, rfl, h⟩) | h)
    · exact .inl h
    · rw [List.prefix_nil.mp h]
      exact .inr rfl
    · exact .inl h
  · rintro (rfl | rfl)
    · exact .inr rfl
    · exact .inl (.inr ⟨[], rfl, List.nil_prefix⟩)

-- How pieces lie over parts: the first piece ends a part, those between are parts, and the last
-- one begins a part.
def Spans (pieces parts : List (List α)) : Prop :=
  ∃ before first middle last after head tail,
    parts = before ++ first :: (middle ++ last :: after) ∧ pieces = head :: (middle ++ [tail]) ∧
      head <:+ first ∧ tail <+: last

theorem intercalate_cons (x : List α) {xs : List (List α)} (h : xs ≠ []) :
    [c].intercalate (x :: xs) = x ++ c :: [c].intercalate xs := by
  obtain ⟨y, ys, rfl⟩ := List.exists_cons_of_ne_nil h
  rw [List.intercalate_cons_cons, List.append_assoc]
  rfl

theorem suffix_intercalate (before : List (List α)) {xs : List (List α)} (h : xs ≠ []) :
    [c].intercalate xs <:+ [c].intercalate (before ++ xs) := by
  induction before with
  | nil => exact List.suffix_rfl
  | cons b before ih =>
    rw [List.cons_append, intercalate_cons b (by simp [h])]
    exact ih.trans ((List.suffix_cons c _).trans (List.suffix_append b _))

theorem suffix_intercalate_head {head first : List α} (h : head <:+ first)
    (xs : List (List α)) : [c].intercalate (head :: xs) <:+ [c].intercalate (first :: xs) := by
  obtain ⟨s, rfl⟩ := h
  cases xs with
  | nil => simp
  | cons x xs =>
    rw [intercalate_cons _ (List.cons_ne_nil x xs), intercalate_cons _ (List.cons_ne_nil x xs),
      List.append_assoc]
    exact List.suffix_append s _

theorem prefix_intercalate_last {tail last : List α} (h : tail <+: last)
    (xs after : List (List α)) :
    [c].intercalate (xs ++ [tail]) <+: [c].intercalate (xs ++ last :: after) := by
  induction xs with
  | nil =>
    cases after with
    | nil => simpa using h
    | cons a after =>
      rw [List.nil_append, List.nil_append, intercalate_cons last (List.cons_ne_nil a after),
        List.intercalate_singleton]
      exact h.trans (List.prefix_append last _)
  | cons x xs ih =>
    rw [List.cons_append, List.cons_append, intercalate_cons x (by simp),
      intercalate_cons x (by simp)]
    exact List.prefix_append_right_inj x |>.mpr (List.cons_prefix_cons.mpr ⟨rfl, ih⟩)

section Split
variable [DecidableEq α]

theorem splitOn_append_free (u : List α) {head : List α} (hc : c ∉ head) :
    ∃ before first, (u ++ head).splitOn c = before ++ [first] ∧ head <:+ first := by
  induction u with
  | nil => exact ⟨[], head, List.splitOn_eq_singleton hc, List.suffix_rfl⟩
  | cons x u ih =>
    obtain ⟨before, first, hsplit, hsuffix⟩ := ih
    rw [List.cons_append, List.splitOn_cons_eq_if_modifyHead, hsplit]
    split_ifs
    · exact ⟨[] :: before, first, rfl, hsuffix⟩
    · cases before with
      | nil => exact ⟨[], x :: first, rfl, hsuffix.trans (List.suffix_cons x first)⟩
      | cons b before => exact ⟨(x :: b) :: before, first, rfl, hsuffix⟩

theorem splitOn_free_append {tail : List α} (hc : c ∉ tail) (v : List α) :
    ∃ last after, (tail ++ v).splitOn c = last :: after ∧ tail <+: last := by
  induction tail with
  | nil =>
    obtain ⟨last, after, hsplit⟩ := List.exists_cons_of_ne_nil (List.splitOn_ne_nil c v)
    exact ⟨last, after, hsplit, List.nil_prefix⟩
  | cons x tail ih =>
    obtain ⟨last, after, hsplit, hpre⟩ := ih fun hm => hc (List.mem_cons_of_mem x hm)
    have hne : ¬ (x == c) = true := fun hx => hc (beq_iff_eq.mp hx ▸ List.mem_cons_self)
    rw [List.cons_append, List.splitOn_cons_eq_if_modifyHead, hsplit, if_neg hne]
    exact ⟨x :: last, after, rfl, List.cons_prefix_cons.mpr ⟨rfl, hpre⟩⟩

theorem Spans.within {l text : List α} (h : Spans (l.splitOn c) (text.splitOn c)) :
    l <:+: text := by
  obtain ⟨before, first, middle, last, after, head, tail, hparts, hpieces, hhead, htail⟩ := h
  have hl : [c].intercalate (l.splitOn c) = l := List.intercalate_splitOn c
  have htext : [c].intercalate (text.splitOn c) = text := List.intercalate_splitOn c
  rw [← hl, ← htext, hparts, hpieces]
  have hlast := prefix_intercalate_last (c := c) htail (head :: middle) after
  have hfirst := suffix_intercalate_head (c := c) hhead (middle ++ last :: after)
  have hbefore := suffix_intercalate (c := c) before
    (List.cons_ne_nil first (middle ++ last :: after))
  exact hlast.isInfix.trans (hfirst.trans hbefore).isInfix

theorem spans_of_within {l text : List α} (hc : c ∈ l) (h : l <:+: text) :
    Spans (l.splitOn c) (text.splitOn c) := by
  obtain ⟨u, v, rfl⟩ := h
  obtain ⟨head, rest, rfl, hhead⟩ := List.eq_append_cons_of_mem hc
  obtain ⟨before, first, hfirst, hsuffix⟩ := splitOn_append_free u hhead
  rw [List.splitOn_append_cons_self_of_not_mem hhead]
  by_cases hrest : c ∈ rest
  · obtain ⟨tail', inner', hrev, htail'⟩ :=
      List.eq_append_cons_of_mem (List.mem_reverse.mpr hrest)
    obtain ⟨inner, tail, rfl, htail⟩ : ∃ inner tail, rest = inner ++ c :: tail ∧ c ∉ tail := by
      refine ⟨inner'.reverse, tail'.reverse, ?_, fun hm => htail' (List.mem_reverse.mp hm)⟩
      rw [← List.reverse_reverse rest, hrev]
      simp
    obtain ⟨last, after, hlast, hpre⟩ := splitOn_free_append htail v
    have htext : u ++ (head ++ c :: (inner ++ c :: tail)) ++ v =
        (u ++ head) ++ c :: (inner ++ c :: (tail ++ v)) := by simp
    rw [htext, List.splitOn_append_cons_self (u ++ head), List.splitOn_append_cons_self inner,
      List.splitOn_append_cons_self inner, hfirst, hlast, List.splitOn_eq_singleton htail]
    exact ⟨before, first, inner.splitOn c, last, after, head, tail, by simp, rfl, hsuffix, hpre⟩
  · obtain ⟨last, after, hlast, hpre⟩ := splitOn_free_append hrest v
    have htext : u ++ (head ++ c :: rest) ++ v = (u ++ head) ++ c :: (rest ++ v) := by simp
    rw [htext, List.splitOn_append_cons_self, hfirst, hlast, List.splitOn_eq_singleton hrest]
    exact ⟨before, first, [], last, after, head, rest, by simp, rfl, hsuffix, hpre⟩

theorem infix_iff_spans {l text : List α} (hc : c ∈ l) :
    l <:+: text ↔ Spans (l.splitOn c) (text.splitOn c) :=
  ⟨spans_of_within hc, Spans.within⟩

end Split

end Infix

section Until
variable {α : Type} [DecidableEq α] {c : α}

theorem takeWhile_ne_append {name : List α} (hc : c ∉ name) (rest : List α) :
    (name ++ c :: rest).takeWhile (· ≠ c) = name := by
  have hall : ∀ d ∈ name, decide (d ≠ c) = true := fun d hd =>
    decide_eq_true fun heq => hc (heq ▸ hd)
  rw [List.takeWhile_append_of_pos hall, List.takeWhile_cons_of_neg (by simp), List.append_nil]

theorem dropWhile_ne_append {gap : List α} (hc : c ∉ gap) (rest : List α) :
    (gap ++ c :: rest).dropWhile (· ≠ c) = c :: rest := by
  have hall : ∀ d ∈ gap, decide (d ≠ c) = true := fun d hd =>
    decide_eq_true fun heq => hc (heq ▸ hd)
  rw [List.dropWhile_append_of_pos hall, List.dropWhile_cons_of_neg (by simp)]

theorem takeWhile_ne_of_not_mem {text : List α} (hc : c ∉ text) :
    text.takeWhile (· ≠ c) = text :=
  List.takeWhile_eq_self_iff.mpr fun _ hd => decide_eq_true fun heq => hc (heq ▸ hd)

theorem dropWhile_ne_of_not_mem {text : List α} (hc : c ∉ text) :
    text.dropWhile (· ≠ c) = [] :=
  List.dropWhile_eq_nil_iff.mpr fun _ hd => decide_eq_true fun heq => hc (heq ▸ hd)

theorem takeWhile_ne_eq_iff {text name : List α} :
    text.takeWhile (· ≠ c) = name ↔
      c ∉ name ∧ ∃ after, text = name ++ after ∧ (after = [] ∨ ∃ rest, after = c :: rest) := by
  constructor
  · rintro rfl
    by_cases hc : c ∈ text
    · obtain ⟨name, rest, rfl, hname⟩ := List.eq_append_cons_of_mem hc
      rw [takeWhile_ne_append hname]
      exact ⟨hname, _, rfl, .inr ⟨rest, rfl⟩⟩
    · rw [takeWhile_ne_of_not_mem hc]
      exact ⟨hc, [], (List.append_nil text).symm, .inl rfl⟩
  · rintro ⟨hname, _, rfl, rfl | ⟨rest, rfl⟩⟩
    · rw [List.append_nil, takeWhile_ne_of_not_mem hname]
    · exact takeWhile_ne_append hname rest

end Until

end TextSearch
