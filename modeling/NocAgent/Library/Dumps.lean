import NocAgent.Library.Json
import Mathlib.Data.List.Sort

-- The compact ASCII text that Python's json.dumps gives with sorted keys.
namespace Dumps

def unicodeEscape (n : ℕ) : List Char :=
  ['\\', 'u', Json.hexOf (n / 4096 % 16), Json.hexOf (n / 256 % 16), Json.hexOf (n / 16 % 16),
    Json.hexOf (n % 16)]

def escapeChar (c : Char) : List Char :=
  if c = '"' then ['\\', '"']
  else if c = '\\' then ['\\', '\\']
  else if c = '\n' then ['\\', 'n']
  else if c = '\r' then ['\\', 'r']
  else if c = '\t' then ['\\', 't']
  else if c.toNat = 8 then ['\\', 'b']
  else if c.toNat = 12 then ['\\', 'f']
  else if 32 ≤ c.toNat ∧ c.toNat ≤ 126 then [c]
  else if c.toNat < 65536 then unicodeEscape c.toNat
  else
    unicodeEscape (55296 + (c.toNat - 65536) / 1024 % 1024) ++
      unicodeEscape (56320 + (c.toNat - 65536) % 1024)

def escape (text : String) : List Char := text.toList.flatMap escapeChar

def quote (text : String) : List Char := '"' :: escape text ++ ['"']

def member (name : String) (value : List Char) : List Char := quote name ++ ':' :: value

def membersTail : List (String × List Char) → List Char
  | [] => ['\x7d']
  | (name, value) :: rest => ',' :: member name value ++ membersTail rest

-- An object from its members in the order of the text and the text of each value.
def object : List (String × List Char) → List Char
  | [] => ['\x7b', '\x7d']
  | (name, value) :: rest => '\x7b' :: member name value ++ membersTail rest

def sortKeys {α : Type} (members : List (String × α)) : List (String × α) :=
  members.insertionSort fun a b => a.1 ≤ b.1

theorem mem_sortKeys {α : Type} {members : List (String × α)} {m : String × α} :
    m ∈ sortKeys members ↔ m ∈ members := List.mem_insertionSort _

theorem hexOf_ne_quote (n : ℕ) : Json.hexOf (n % 16) ≠ '"' := by
  have hall : ∀ n ∈ List.range 16, Json.hexOf n ≠ '"' := by decide
  exact hall _ (List.mem_range.mpr (Nat.mod_lt n (by decide)))

theorem quote_not_mem_unicodeEscape (n : ℕ) : '"' ∉ unicodeEscape n := by
  simp only [unicodeEscape, List.mem_cons, List.not_mem_nil, or_false, not_or]
  exact ⟨by decide, by decide, (hexOf_ne_quote _).symm, (hexOf_ne_quote _).symm,
    (hexOf_ne_quote _).symm, (hexOf_ne_quote _).symm⟩

-- A quote in an escaped text follows a backslash.
def Escapes (c : Char) (xs : List Char) : Prop :=
  (xs = [c] ∧ c ≠ '"') ∨ xs = ['\\', '"'] ∨ ∃ ys, xs = '\\' :: ys ∧ '"' ∉ ys

theorem escapes_unicodeEscape (c : Char) (n : ℕ) {xs : List Char} (h : '"' ∉ xs) :
    Escapes c (unicodeEscape n ++ xs) := by
  refine .inr (.inr ⟨(unicodeEscape n).tail ++ xs, rfl, ?_⟩)
  rw [List.mem_append, not_or]
  exact ⟨fun hmem => quote_not_mem_unicodeEscape n (List.mem_of_mem_tail hmem), h⟩

theorem escapeChar_escapes (c : Char) : Escapes c (escapeChar c) := by
  unfold escapeChar
  refine iteInduction (fun _ => .inr (.inl rfl)) fun hquote => ?_
  iterate 6 refine iteInduction (fun _ => .inr (.inr ⟨_, rfl, by decide⟩)) fun _ => ?_
  refine iteInduction (fun _ => .inl ⟨rfl, hquote⟩) fun _ => ?_
  refine iteInduction (fun _ => escapes_unicodeEscape c _ (List.not_mem_nil)) fun _ => ?_
  exact escapes_unicodeEscape c _ (quote_not_mem_unicodeEscape _)

-- Printable ASCII without the quote and the backslash is written as it is.
def Plain (text : String) : Prop :=
  ∀ c ∈ text.toList, 32 ≤ c.toNat ∧ c.toNat ≤ 126 ∧ c ≠ '"' ∧ c ≠ '\\'

theorem escapeChar_of_plain {c : Char} (hlow : 32 ≤ c.toNat) (hhigh : c.toNat ≤ 126)
    (hquote : c ≠ '"') (hslash : c ≠ '\\') : escapeChar c = [c] := by
  have hother {d : Char} (hd : d.toNat < 32) : c ≠ d := by
    rintro rfl
    omega
  rw [escapeChar, if_neg hquote, if_neg hslash, if_neg (hother (by decide)),
    if_neg (hother (by decide)), if_neg (hother (by decide)), if_neg (by omega),
    if_neg (by omega), if_pos ⟨hlow, hhigh⟩]

theorem escape_of_plain {text : String} (h : Plain text) : escape text = text.toList := by
  rw [Plain] at h
  rw [escape]
  generalize text.toList = cs at h ⊢
  induction cs with
  | nil => rfl
  | cons c cs ih =>
    obtain ⟨⟨hlow, hhigh, hquote, hslash⟩, hcs⟩ := List.forall_mem_cons.mp h
    rw [List.flatMap_cons, escapeChar_of_plain hlow hhigh hquote hslash, ih hcs]
    rfl

end Dumps
