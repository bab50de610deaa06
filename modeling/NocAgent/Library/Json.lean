import Mathlib.Data.List.Infix
import Mathlib.Data.Rat.Defs
import Mathlib.Algebra.Field.Rat

inductive Json where
  | null
  | bool (value : Bool)
  | num (value : ℚ)
  | str (text : String)
  | arr (items : List Json)
  | obj (members : List (String × Json))

namespace Json

-- The members of an object in the order of the text, each name once when only put builds them.
abbrev Members := List (String × Json)

namespace Members

def find : Members → String → Option Json
  | [], _ => none
  | (name, value) :: ms, key => if name = key then some value else find ms key

def put : Members → String → Json → Members
  | [], key, value => [(key, value)]
  | (name, old) :: ms, key, value =>
    if name = key then (name, value) :: ms else (name, old) :: put ms key value

@[simp] theorem find_put (ms : Members) (key : String) (value : Json) (j : String) :
    (ms.put key value).find j = if j = key then some value else ms.find j := by
  induction ms with
  | nil =>
    by_cases hj : j = key
    · simp [put, find, hj]
    · simp [put, find, hj, Ne.symm hj]
  | cons m ms ih =>
    obtain ⟨name, old⟩ := m
    by_cases hn : name = key
    · by_cases hj : j = key
      · simp [put, find, hn, hj]
      · simp [put, find, hn, hj, Ne.symm hj]
    · by_cases hj : name = j
      · subst hj
        simp [put, find, hn]
      · simp [put, find, hn, hj, ih]

end Members

def member : Json → String → Option Json
  | .obj ms, key => Members.find ms key
  | _, _ => none

section Text

def isSpace (c : Char) : Bool := c = ' ' || c = '\t' || c = '\n' || c = '\r'

def skipSpace (cs : List Char) : List Char := cs.dropWhile isSpace

def hexDigit? (c : Char) : Option ℕ :=
  if c.isDigit then some (c.toNat - '0'.toNat)
  else if 'a' ≤ c ∧ c ≤ 'f' then some (c.toNat - 'a'.toNat + 10)
  else if 'A' ≤ c ∧ c ≤ 'F' then some (c.toNat - 'A'.toNat + 10)
  else none

def unescape? (c : Char) : Option ℕ :=
  if c = '"' ∨ c = '\\' ∨ c = '/' then some c.toNat
  else if c = 'b' then some 8
  else if c = 'f' then some 12
  else if c = 'n' then some 10
  else if c = 'r' then some 13
  else if c = 't' then some 9
  else none

inductive Scan where
  | plain
  | escape
  | hex (missing : ℕ) (acc : ℕ)

def push (n : ℕ) (r : Option (List ℕ × List Char)) : Option (List ℕ × List Char) :=
  r.map fun p => (n :: p.1, p.2)

-- What follows an opening quote: code points, an escaped surrogate pair still as two of them.
def scan : Scan → List Char → Option (List ℕ × List Char)
  | _, [] => none
  | .plain, c :: cs =>
    if c = '"' then some ([], cs)
    else if c = '\\' then scan .escape cs
    else if c.toNat < 32 then none
    else push c.toNat (scan .plain cs)
  | .escape, c :: cs =>
    if c = 'u' then scan (.hex 3 0) cs
    else
      match unescape? c with
      | none => none
      | some n => push n (scan .plain cs)
  | .hex missing acc, c :: cs =>
    match hexDigit? c with
    | none => none
    | some d =>
      match missing with
      | 0 => push (acc * 16 + d) (scan .plain cs)
      | k + 1 => scan (.hex k (acc * 16 + d)) cs

def charOf (n : ℕ) : Char := if n.isValidChar then Char.ofNat n else Char.ofNat 65533

def combine : List ℕ → List Char
  | [] => []
  | [n] => [charOf n]
  | high :: low :: ns =>
    if 55296 ≤ high ∧ high < 56320 ∧ 56320 ≤ low ∧ low < 57344 then
      charOf (65536 + (high - 55296) * 1024 + (low - 56320)) :: combine ns
    else charOf high :: combine (low :: ns)

def readString (cs : List Char) : Option (String × List Char) :=
  (scan .plain cs).map fun p => (String.ofList (combine p.1), p.2)

def natOf (ds : List Char) : ℕ := ds.foldl (fun n c => n * 10 + (c.toNat - '0'.toNat)) 0

def readFraction (cs : List Char) : Option (List Char × List Char) :=
  match cs with
  | '.' :: cs =>
    let ds := cs.takeWhile Char.isDigit
    if ds = [] then none else some (ds, cs.dropWhile Char.isDigit)
  | cs => some ([], cs)

def readExponent (cs : List Char) : Option (ℤ × List Char) :=
  match cs with
  | [] => some (0, [])
  | c :: rest =>
    if c = 'e' ∨ c = 'E' then
      let unsigned := if rest.head? = some '-' ∨ rest.head? = some '+' then rest.drop 1 else rest
      let ds := unsigned.takeWhile Char.isDigit
      let sign : ℤ := if rest.head? = some '-' then -1 else 1
      if ds = [] then none else some (sign * natOf ds, unsigned.dropWhile Char.isDigit)
    else some (0, c :: rest)

def readNumber (cs : List Char) : Option (ℚ × List Char) :=
  let unsigned := if cs.head? = some '-' then cs.drop 1 else cs
  let sign : ℚ := if cs.head? = some '-' then -1 else 1
  let ds := unsigned.takeWhile Char.isDigit
  if ds = [] ∨ (1 < ds.length ∧ ds.head? = some '0') then none
  else do
    let (fraction, cs) ← readFraction (unsigned.dropWhile Char.isDigit)
    let (exponent, cs) ← readExponent cs
    some (sign * natOf (ds ++ fraction) * (10 : ℚ) ^ (exponent - fraction.length), cs)

def readLiteral (cs : List Char) : Option (Json × List Char) :=
  if "null".toList <+: cs then some (.null, cs.drop 4)
  else if "true".toList <+: cs then some (.bool true, cs.drop 4)
  else if "false".toList <+: cs then some (.bool false, cs.drop 5)
  else (readNumber cs).map fun p => (.num p.1, p.2)

inductive Want where
  | value
  | items (before : List Json)
  | members (before : Members)

def readValue : ℕ → Want → List Char → Option (Json × List Char)
  | 0, _, _ => none
  | n + 1, .value, cs =>
    match skipSpace cs with
    | [] => none
    | c :: cs =>
      if c = '\x7b' then
        match skipSpace cs with
        | '\x7d' :: cs => some (.obj [], cs)
        | cs => readValue n (.members []) cs
      else if c = '[' then
        match skipSpace cs with
        | ']' :: cs => some (.arr [], cs)
        | cs => readValue n (.items []) cs
      else if c = '"' then (readString cs).map fun p => (.str p.1, p.2)
      else readLiteral (c :: cs)
  | n + 1, .items before, cs => do
    let (item, cs) ← readValue n .value cs
    match skipSpace cs with
    | ',' :: cs => readValue n (.items (before ++ [item])) cs
    | ']' :: cs => some (.arr (before ++ [item]), cs)
    | _ => none
  | n + 1, .members before, cs =>
    match skipSpace cs with
    | '"' :: cs => do
      let (name, cs) ← readString cs
      match skipSpace cs with
      | ':' :: cs => do
        let (value, cs) ← readValue n .value cs
        match skipSpace cs with
        | ',' :: cs => readValue n (.members (before.put name value)) cs
        | '\x7d' :: cs => some (.obj (before.put name value), cs)
        | _ => none
      | _ => none
    | _ => none

-- Each value takes two levels at most and at least one character.
def read (cs : List Char) : Option Json :=
  match readValue (2 * cs.length + 2) .value cs with
  | none => none
  | some (value, rest) => if skipSpace rest = [] then some value else none

def hexOf (n : ℕ) : Char := if n < 10 then Char.ofNat (48 + n) else Char.ofNat (87 + n)

def escapeChar (c : Char) : List Char :=
  if c = '"' then ['\\', '"']
  else if c = '\\' then ['\\', '\\']
  else if c = '\n' then ['\\', 'n']
  else if c = '\r' then ['\\', 'r']
  else if c = '\t' then ['\\', 't']
  else if c.toNat = 8 then ['\\', 'b']
  else if c.toNat = 12 then ['\\', 'f']
  else if c.toNat < 32 ∨ c.toNat = 133 ∨ c.toNat = 8232 ∨ c.toNat = 8233 then
    ['\\', 'u', hexOf (c.toNat / 4096), hexOf (c.toNat / 256 % 16), hexOf (c.toNat / 16 % 16),
      hexOf (c.toNat % 16)]
  else [c]

def escape (text : String) : List Char := text.toList.flatMap escapeChar

def quote (text : String) : List Char := '"' :: escape text ++ ['"']

def textsTail : List String → List Char
  | [] => [']']
  | text :: texts => ',' :: quote text ++ textsTail texts

def textOfStrings : List String → List Char
  | [] => ['[', ']']
  | text :: texts => '[' :: quote text ++ textsTail texts

end Text

end Json
