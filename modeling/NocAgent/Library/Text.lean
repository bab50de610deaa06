import Mathlib.Data.List.Infix
import Mathlib.Data.List.TakeWhile

namespace Text

def isSpace (c : Char) : Bool :=
  (9 ≤ c.toNat && c.toNat ≤ 13) || (28 ≤ c.toNat && c.toNat ≤ 32) ||
    c.toNat ∈ [0x85, 0xa0, 0x1680, 0x2028, 0x2029, 0x202f, 0x205f, 0x3000] ||
    (0x2000 ≤ c.toNat && c.toNat ≤ 0x200a)

theorem isSpace_ascii (c : Char) (hc : c.toNat < 128) :
    isSpace c = ((9 ≤ c.toNat && c.toNat ≤ 13) || (28 ≤ c.toNat && c.toNat ≤ 32)) := by
  have hlater : ∀ n ∈ [0x85, 0xa0, 0x1680, 0x2028, 0x2029, 0x202f, 0x205f, 0x3000], 128 ≤ n := by
    decide
  have hlisted : ¬ c.toNat ∈ [0x85, 0xa0, 0x1680, 0x2028, 0x2029, 0x202f, 0x205f, 0x3000] :=
    fun hmem => (hlater _ hmem).not_gt hc
  have hrange : ¬ 0x2000 ≤ c.toNat := by omega
  rw [isSpace, decide_eq_false hlisted, decide_eq_false hrange, Bool.or_false, Bool.false_and,
    Bool.or_false]

def stripOf (isSpace : Char → Bool) (cs : List Char) : List Char :=
  ((cs.dropWhile isSpace).reverse.dropWhile isSpace).reverse

def strip (text : String) : String := .ofList (stripOf isSpace text.toList)

-- The tables behind lower(), \w and isspace(), known here for ASCII.
structure Unicode where
  lower : String → String
  isWord : Char → Bool
  isSpace : Char → Bool
  lower_ascii : ∀ text, (∀ c ∈ text.toList, c.toNat < 128) →
    lower text = .ofList (text.toList.map Char.toLower)
  isWord_ascii : ∀ c, c.toNat < 128 → isWord c = (c.isAlphanum || c = '_')
  isSpace_ascii : ∀ c, c.toNat < 128 →
    isSpace c = ((9 ≤ c.toNat && c.toNat ≤ 13) || (28 ≤ c.toNat && c.toNat ≤ 32))

def ascii : Unicode where
  lower text := .ofList (text.toList.map Char.toLower)
  isWord c := c.isAlphanum || c = '_'
  isSpace := isSpace
  lower_ascii _ _ := rfl
  isWord_ascii _ _ := rfl
  isSpace_ascii := isSpace_ascii

def Unicode.strip (u : Unicode) : List Char → List Char := stripOf u.isSpace

def Unicode.stripText (u : Unicode) (text : String) : String := .ofList (u.strip text.toList)

-- The words that split() gives, which are never empty.
def Unicode.words (u : Unicode) (text : String) : List String :=
  ((text.toList.splitOnP u.isSpace).filter (· ≠ [])).map String.ofList

def Blank (u : Unicode) (text : List Char) : Prop := ∀ c ∈ text, u.isSpace c = true

instance (u : Unicode) (text : List Char) : Decidable (Blank u text) :=
  List.decidableBAll (u.isSpace · = true) text

theorem Unicode.strip_eq_nil_iff {u : Unicode} {text : List Char} :
    u.strip text = [] ↔ Blank u text := by
  have hblank : Blank u text ↔ text.dropWhile u.isSpace = [] := List.dropWhile_eq_nil_iff.symm
  rw [strip, stripOf, List.reverse_eq_nil_iff, List.dropWhile_eq_nil_iff, hblank]
  constructor
  · intro hall
    by_contra hrest
    have hhead := List.head_dropWhile_not u.isSpace hrest
    rw [hall _ (List.mem_reverse.mpr (List.head_mem hrest))] at hhead
    cases hhead
  · rintro hnil c hc
    rw [hnil] at hc
    cases hc

theorem Unicode.strip_cons {u : Unicode} {c : Char} (hc : u.isSpace c = true) (text : List Char) :
    u.strip (c :: text) = u.strip text := by
  rw [strip, stripOf, stripOf, List.dropWhile_cons_of_pos hc]

section Words
variable (isWord : Char → Bool) (literal : List Char)

-- \b between two neighbours, either of which may be missing.
def isBoundary (prev next : Option Char) : Bool := prev.any isWord != next.any isWord

def matchesAt (prev : Option Char) (text : List Char) : Bool :=
  literal.isPrefixOf text && isBoundary isWord prev text.head? &&
    isBoundary isWord (literal.getLast?.or prev) (text.drop literal.length).head?

-- A search for the literal between two word boundaries.
def wordSearch : Option Char → List Char → Bool
  | prev, [] => matchesAt isWord literal prev []
  | prev, c :: cs => matchesAt isWord literal prev (c :: cs) || wordSearch (some c) cs

structure FoundAt (prev : Option Char) (text before after : List Char) : Prop where
  split : text = before ++ literal ++ after
  opens : isBoundary isWord (before.getLast?.or prev) (literal ++ after).head? = true
  closes : isBoundary isWord (literal.getLast?.or (before.getLast?.or prev)) after.head? = true

variable {isWord literal}

theorem matchesAt_iff {prev : Option Char} {text : List Char} :
    matchesAt isWord literal prev text = true ↔
      ∃ after, FoundAt isWord literal prev text [] after := by
  rw [matchesAt, Bool.and_eq_true, Bool.and_eq_true, List.isPrefixOf_iff_prefix]
  constructor
  · rintro ⟨⟨⟨after, rfl⟩, hopens⟩, hcloses⟩
    rw [List.drop_left] at hcloses
    exact ⟨after, rfl, hopens, hcloses⟩
  · rintro ⟨after, rfl, hopens, hcloses⟩
    rw [List.nil_append, List.drop_left]
    exact ⟨⟨List.prefix_append _ _, hopens⟩, hcloses⟩

theorem getLast?_cons_or (c : Char) (cs : List Char) (prev : Option Char) :
    (c :: cs).getLast?.or prev = cs.getLast?.or (some c) := by
  rw [List.getLast?_cons]
  cases cs.getLast? <;> rfl

theorem foundAt_cons {prev : Option Char} {c : Char} {cs before after : List Char} :
    FoundAt isWord literal prev (c :: cs) (c :: before) after ↔
      FoundAt isWord literal (some c) cs before after := by
  constructor
  · rintro ⟨hsplit, hopens, hcloses⟩
    rw [getLast?_cons_or] at hopens hcloses
    exact ⟨(List.cons.inj hsplit).2, hopens, hcloses⟩
  · rintro ⟨rfl, hopens, hcloses⟩
    refine ⟨rfl, ?_, ?_⟩
    · rwa [getLast?_cons_or]
    · rwa [getLast?_cons_or]

theorem wordSearch_iff {prev : Option Char} {text : List Char} :
    wordSearch isWord literal prev text = true ↔
      ∃ before after, FoundAt isWord literal prev text before after := by
  induction text generalizing prev with
  | nil =>
    rw [wordSearch, matchesAt_iff]
    constructor
    · rintro ⟨after, h⟩
      exact ⟨[], after, h⟩
    · rintro ⟨before, after, h⟩
      have hnil : before = [] := by
        have hsplit := h.split
        rw [List.append_assoc, eq_comm, List.append_eq_nil_iff] at hsplit
        exact hsplit.1
      exact ⟨after, hnil ▸ h⟩
  | cons c cs ih =>
    rw [wordSearch, Bool.or_eq_true, matchesAt_iff, ih]
    constructor
    · rintro (⟨after, h⟩ | ⟨before, after, h⟩)
      · exact ⟨[], after, h⟩
      · exact ⟨c :: before, after, foundAt_cons.mpr h⟩
    · rintro ⟨before, after, h⟩
      cases before with
      | nil => exact .inl ⟨after, h⟩
      | cons b before =>
        obtain rfl : c = b := (List.cons.inj h.split).1
        exact .inr ⟨before, after, foundAt_cons.mp h⟩

theorem wordSearch_of_longer {c d : Char} {rest : List Char} {prev : Option Char}
    {text : List Char} (hlast : literal.getLast? = some c) (hc : isWord c = true)
    (hd : isWord d = false) (h : wordSearch isWord (literal ++ d :: rest) prev text = true) :
    wordSearch isWord literal prev text = true := by
  obtain ⟨before, after, hsplit, hopens, -⟩ := wordSearch_iff.mp h
  refine wordSearch_iff.mpr ⟨before, d :: rest ++ after, ?_, ?_, ?_⟩
  · rw [hsplit]
    simp only [List.append_assoc, List.cons_append]
  · rwa [← List.append_assoc]
  · rw [hlast, Option.some_or, List.cons_append, List.head?_cons, isBoundary, Option.any_some,
      Option.any_some, hc, hd]
    rfl

end Words

section Replace

-- The text after `skip` more characters, with each occurrence of `old` from there on replaced.
def replaceFrom (old new : List Char) : ℕ → List Char → List Char
  | _, [] => []
  | skip + 1, _ :: cs => replaceFrom old new skip cs
  | 0, c :: cs =>
    if old.isPrefixOf (c :: cs) = true then new ++ replaceFrom old new (old.length - 1) cs
    else c :: replaceFrom old new 0 cs

def replace (old new cs : List Char) : List Char := replaceFrom old new 0 cs

variable {c : Char} {old new cs rest : List Char}

theorem replaceFrom_skip (skipped rest : List Char) :
    replaceFrom old new skipped.length (skipped ++ rest) = replace old new rest := by
  induction skipped with
  | nil => rfl
  | cons s skipped ih => exact ih

theorem replace_append (h : c ∉ cs) (rest : List Char) :
    replace (c :: old) new (cs ++ rest) = cs ++ replace (c :: old) new rest := by
  induction cs with
  | nil => rfl
  | cons d cs ih =>
    obtain ⟨hd, hcs⟩ := List.ne_and_not_mem_of_not_mem_cons h
    have hskip : (c :: old).isPrefixOf (d :: (cs ++ rest)) = false := by
      rw [List.isPrefixOf_cons_cons, beq_false_of_ne hd, Bool.false_and]
    rw [List.cons_append, replace, replaceFrom, if_neg (by rw [hskip]; exact Bool.false_ne_true)]
    exact congrArg (d :: ·) (ih hcs)

theorem replace_of_not_mem (h : c ∉ cs) : replace (c :: old) new cs = cs := by
  have hnil : replace (c :: old) new [] = [] := rfl
  have happend : replace (c :: old) new (cs ++ []) = cs ++ replace (c :: old) new [] :=
    replace_append h []
  rwa [List.append_nil, hnil, List.append_nil] at happend

theorem replace_old (rest : List Char) :
    replace (c :: old) new (c :: old ++ rest) = new ++ replace (c :: old) new rest := by
  have hfound : (c :: old).isPrefixOf (c :: (old ++ rest)) = true :=
    List.isPrefixOf_iff_prefix.mpr (List.prefix_append (c :: old) rest)
  rw [List.cons_append, replace, replaceFrom, if_pos hfound]
  exact congrArg (new ++ ·) (replaceFrom_skip old rest)

end Replace

end Text
