import NocAgent.Library.Dict
import NocAgent.Library.Markup
import NocAgent.Library.Text

namespace IncidentEmail
open Text Lines Markup

def tagOpening : List Char := "[INCIDENT:".toList

section Parse
variable (u : Unicode)

-- re.match(r"\s*\[INCIDENT:(\w+)\]", text), with what its group matches.
def matchTag (text : List Char) : Option (List Char) :=
  let opened := text.dropWhile u.isSpace
  if tagOpening <+: opened then
    let named := opened.drop tagOpening.length
    let stage := named.takeWhile u.isWord
    if stage ≠ [] ∧ (named.dropWhile u.isWord).head? = some ']' then some stage else none
  else none

def bodyTag : List (List Char) → Option (List Char × List (List Char))
  | [] => none
  | line :: lines => if u.strip line = [] then bodyTag lines else (matchTag u line).map (·, lines)

def fieldOf (line : List Char) : Option (String × String) :=
  if ':' ∈ line then
    let key := u.strip (line.takeWhile (· ≠ ':'))
    let value := u.strip ((line.dropWhile (· ≠ ':')).drop 1)
    if key ≠ [] then some (.ofList key, .ofList value) else none
  else none

def contextOf (stage : List Char) (lines : List (List Char)) : Dict String :=
  Dict.setAll (AList.insert "LifecycleStage" (.ofList stage) ∅) (lines.filterMap (fieldOf u))

def parseIncidentEmail (subject body : Option String) : Option (Dict String) :=
  let lines := splitLines (stripTags (body.getD "").toList)
  match matchTag u (subject.getD "").toList with
  | some stage => some (contextOf u stage lines)
  | none => (bodyTag u lines).map fun found => contextOf u found.1 found.2

end Parse

structure Tagged (u : Unicode) (stage text : List Char) : Prop where
  nonempty : stage ≠ []
  word : ∀ c ∈ stage, u.isWord c = true
  starts : ∃ pad rest, Blank u pad ∧ text = pad ++ (tagOpening ++ (stage ++ ']' :: rest))

structure Field (u : Unicode) where
  key : List Char
  value : List Char
  key_plain : ∀ c ∈ key, c ≠ ':' ∧ c ≠ '<' ∧ c ≠ '>' ∧ isBreak c = false
  value_plain : ∀ c ∈ value, c ≠ '<' ∧ c ≠ '>' ∧ isBreak c = false
  named : u.strip key ≠ []
  ordinary : String.ofList (u.strip key) ≠ "LifecycleStage"

namespace Field
variable {u : Unicode} (field : Field u)

def line : List Char := field.key ++ ':' :: ' ' :: field.value

def name : String := .ofList (u.strip field.key)

def text : String := .ofList (u.strip field.value)

end Field

def lastValue {u : Unicode} (fields : List (Field u)) (name : String) : Option String :=
  ((fields.filter (·.name = name)).getLast?).map (·.text)

def Reads {u : Unicode} (context : Option (Dict String)) (stage : List Char)
    (fields : List (Field u)) : Prop :=
  ∃ found, context = some found ∧ ∀ name, found.lookup name =
    if name = "LifecycleStage" then some (.ofList stage) else lastValue fields name

section Tag
variable {u : Unicode} {stage text line : List Char} {lines blanks rest : List (List Char)}

theorem isSpace_bracket (u : Unicode) : u.isSpace '[' = false := by
  rw [u.isSpace_ascii _ (by decide)]
  rfl

theorem isSpace_blank (u : Unicode) : u.isSpace ' ' = true := by
  rw [u.isSpace_ascii _ (by decide)]
  rfl

theorem isWord_bracket (u : Unicode) : u.isWord ']' = false := by
  rw [u.isWord_ascii _ (by decide)]
  rfl

theorem matchTag_of_tagged (h : Tagged u stage text) : matchTag u text = some stage := by
  obtain ⟨hnonempty, hword, pad, rest, hpad, rfl⟩ := h
  have hbracket : ¬ u.isSpace '[' = true := by
    rw [isSpace_bracket]
    exact Bool.false_ne_true
  have hopened : (pad ++ (tagOpening ++ (stage ++ ']' :: rest))).dropWhile u.isSpace =
      tagOpening ++ (stage ++ ']' :: rest) := by
    rw [List.dropWhile_append_of_pos hpad]
    exact List.dropWhile_cons_of_neg hbracket
  have hclosed : ¬ u.isWord ']' = true := by
    rw [isWord_bracket]
    exact Bool.false_ne_true
  rw [matchTag]
  simp only [hopened]
  rw [if_pos (List.prefix_append _ _), List.drop_left, List.takeWhile_append_of_pos hword,
    List.dropWhile_append_of_pos hword, List.takeWhile_cons_of_neg hclosed,
    List.dropWhile_cons_of_neg hclosed, List.append_nil]
  exact if_pos ⟨hnonempty, rfl⟩

theorem tagged_of_matchTag (h : matchTag u text = some stage) : Tagged u stage text := by
  rw [matchTag] at h
  dsimp only at h
  split_ifs at h with hstart hstage
  cases h
  obtain ⟨named, hnamed⟩ := hstart
  rw [← hnamed, List.drop_left] at hstage ⊢
  obtain ⟨hnonempty, hclosed⟩ := hstage
  obtain ⟨rest, hrest⟩ : ∃ rest, named.dropWhile u.isWord = ']' :: rest := by
    cases hdrop : named.dropWhile u.isWord with
    | nil =>
      rw [hdrop] at hclosed
      cases hclosed
    | cons c cs =>
      rw [hdrop, List.head?_cons, Option.some.injEq] at hclosed
      exact ⟨cs, by rw [hclosed]⟩
  refine ⟨hnonempty, fun c hc => List.mem_takeWhile_imp hc, text.takeWhile u.isSpace, rest,
    fun c hc => List.mem_takeWhile_imp hc, ?_⟩
  rw [← hrest, List.takeWhile_append_dropWhile, hnamed, List.takeWhile_append_dropWhile]

theorem matchTag_eq_none (h : ∀ stage, ¬ Tagged u stage text) : matchTag u text = none := by
  cases hmatch : matchTag u text with
  | none => rfl
  | some stage => exact absurd (tagged_of_matchTag hmatch) (h stage)

theorem Tagged.not_blank (h : Tagged u stage text) : ¬ u.strip text = [] := by
  intro hnil
  obtain ⟨-, -, pad, rest, -, rfl⟩ := h
  have hbracket : '[' ∈ pad ++ (tagOpening ++ (stage ++ ']' :: rest)) :=
    List.mem_append_right _ (List.mem_append_left _ (by decide))
  have hspace := Unicode.strip_eq_nil_iff.mp hnil _ hbracket
  rw [isSpace_bracket] at hspace
  cases hspace

theorem bodyTag_of_tagged (hblanks : ∀ blank ∈ blanks, Blank u blank) (h : Tagged u stage line) :
    bodyTag u (blanks ++ line :: rest) = some (stage, rest) := by
  induction blanks with
  | nil =>
    rw [List.nil_append, bodyTag, if_neg h.not_blank, matchTag_of_tagged h]
    rfl
  | cons blank blanks ih =>
    obtain ⟨hblank, hrest⟩ := List.forall_mem_cons.mp hblanks
    rw [List.cons_append, bodyTag, if_pos (Unicode.strip_eq_nil_iff.mpr hblank), ih hrest]

theorem bodyTag_eq_none (h : ∀ blanks line rest, lines = blanks ++ line :: rest →
    (∀ blank ∈ blanks, Blank u blank) → ∀ stage, ¬ Tagged u stage line) :
    bodyTag u lines = none := by
  induction lines with
  | nil => rfl
  | cons line lines ih =>
    rw [bodyTag]
    split_ifs with hblank
    · refine ih fun blanks other rest hlines hblanks => ?_
      refine h (line :: blanks) other rest (by rw [hlines]; rfl) ?_
      exact List.forall_mem_cons.mpr ⟨Unicode.strip_eq_nil_iff.mp hblank, hblanks⟩
    · have hnone : matchTag u line = none :=
        matchTag_eq_none (h [] line lines rfl fun blank hmem => absurd hmem List.not_mem_nil)
      rw [hnone]
      rfl

end Tag

section Fields
variable {u : Unicode} {fields : List (Field u)}

theorem fieldOf_line (field : Field u) : fieldOf u field.line = some (field.name, field.text) := by
  have hplain : ∀ c ∈ field.key, decide (c ≠ ':') = true := fun c hc =>
    decide_eq_true (field.key_plain c hc).1
  have hkey : field.line.takeWhile (· ≠ ':') = field.key := by
    rw [Field.line, List.takeWhile_append_of_pos hplain]
    exact List.append_nil _
  have hvalue : (field.line.dropWhile (· ≠ ':')).drop 1 = ' ' :: field.value := by
    rw [Field.line, List.dropWhile_append_of_pos hplain]
    rfl
  have hcolon : ':' ∈ field.line := List.mem_append_right _ List.mem_cons_self
  rw [fieldOf, if_pos hcolon, hkey, hvalue, Unicode.strip_cons (isSpace_blank u)]
  exact if_pos field.named

theorem fieldOf_lines (fields : List (Field u)) :
    (fields.map Field.line).filterMap (fieldOf u) = fields.map fun field =>
      (field.name, field.text) := by
  rw [List.filterMap_map]
  exact List.filterMap_eq_map_iff_forall_eq_some.mpr fun field _ => fieldOf_line field

theorem lastValue_eq (fields : List (Field u)) (name : String) :
    (((fields.map fun field => (field.name, field.text)).filter (·.1 = name)).getLast?).map (·.2) =
      lastValue fields name := by
  rw [List.filter_map, List.getLast?_map, Option.map_map]
  rfl

theorem lastValue_stage (fields : List (Field u)) : lastValue fields "LifecycleStage" = none := by
  have hnone : fields.filter (·.name = "LifecycleStage") = [] := by
    refine List.filter_eq_nil_iff.mpr fun field _ => ?_
    rw [decide_eq_true_eq]
    exact field.ordinary
  rw [lastValue, hnone]
  rfl

theorem contextOf_reads (stage : List Char) (fields : List (Field u)) :
    Reads (some (contextOf u stage (fields.map Field.line))) stage fields := by
  refine ⟨_, rfl, fun name => ?_⟩
  rw [contextOf, fieldOf_lines, Dict.lookup_setAll_last, lastValue_eq, Dict.lookup_insert_eq,
    AList.lookup_empty]
  split_ifs with hname
  · rw [hname, lastValue_stage, Option.none_or]
  · rw [Option.or_none]

end Fields

section Emails
variable {u : Unicode} {ending : List Char} {stage line : List Char} {fields : List (Field u)}
  {blanks : List (List Char)} {subject body : String}

theorem parse_of_subject (hending : Ending ending) (htag : Tagged u stage subject.toList)
    (hbody : Written MarkedLine ending (fields.map Field.line) body.toList) :
    Reads (parseIncidentEmail u (some subject) (some body)) stage fields := by
  rw [parseIncidentEmail, Option.getD_some, Option.getD_some, matchTag_of_tagged htag,
    splitLines_stripTags hending hbody]
  exact contextOf_reads stage fields

theorem parse_of_body {subject : Option String} (hending : Ending ending)
    (hsubject : ∀ s, ¬ Tagged u s (subject.getD "").toList)
    (hblanks : ∀ blank ∈ blanks, Blank u blank) (htag : Tagged u stage line)
    (hbody : Written MarkedLine ending (blanks ++ line :: fields.map Field.line) body.toList) :
    Reads (parseIncidentEmail u subject (some body)) stage fields := by
  rw [parseIncidentEmail, matchTag_eq_none hsubject, Option.getD_some,
    splitLines_stripTags hending hbody]
  dsimp only
  rw [bodyTag_of_tagged hblanks htag]
  exact contextOf_reads stage fields

theorem parse_of_no_tag {subject body : Option String}
    (hsubject : ∀ s, ¬ Tagged u s (subject.getD "").toList)
    (hbody : ∀ blanks line rest,
      splitLines (stripTags (body.getD "").toList) = blanks ++ line :: rest →
      (∀ blank ∈ blanks, Blank u blank) → ∀ s, ¬ Tagged u s line) :
    parseIncidentEmail u subject body = none := by
  rw [parseIncidentEmail, matchTag_eq_none hsubject]
  dsimp only
  rw [bodyTag_eq_none hbody]
  rfl

end Emails

theorem parse_undoes_convention (u : Unicode) {ending : List Char} (hending : Ending ending) :
    (∀ stage (fields : List (Field u)) (subject body : String), Tagged u stage subject.toList →
      Written MarkedLine ending (fields.map Field.line) body.toList →
      Reads (parseIncidentEmail u (some subject) (some body)) stage fields) ∧
    (∀ stage (fields : List (Field u)) blanks line (subject : Option String) (body : String),
      (∀ s, ¬ Tagged u s (subject.getD "").toList) → (∀ blank ∈ blanks, Blank u blank) →
      Tagged u stage line →
      Written MarkedLine ending (blanks ++ line :: fields.map Field.line) body.toList →
      Reads (parseIncidentEmail u subject (some body)) stage fields) ∧
    ∀ subject body : Option String, (∀ s, ¬ Tagged u s (subject.getD "").toList) →
      (∀ blanks line rest,
        splitLines (stripTags (body.getD "").toList) = blanks ++ line :: rest →
        (∀ blank ∈ blanks, Blank u blank) → ∀ s, ¬ Tagged u s line) →
      parseIncidentEmail u subject body = none :=
  ⟨fun _ _ _ _ htag hbody => parse_of_subject hending htag hbody,
    fun _ _ _ _ _ _ hsubject hblanks htag hbody =>
      parse_of_body hending hsubject hblanks htag hbody,
    fun _ _ hsubject hbody => parse_of_no_tag hsubject hbody⟩

section Example

-- The instance for a statement about all characters tries every character there is.
local instance everyChar (p : Char → Prop) [DecidablePred p] (text : List Char) :
    Decidable (∀ c ∈ text, p c) :=
  List.decidableBAll p text

def site : Field ascii where
  key := "Site".toList
  value := "SYD-CORE-04 ".toList
  key_plain := by decide
  value_plain := by decide
  named := by decide
  ordinary := by decide

def eta : Field ascii where
  key := " ETA".toList
  value := "18:45".toList
  key_plain := by decide
  value_plain := by decide
  named := by decide
  ordinary := by decide

def body : String := "\n  \n<p>[INCIDENT:ESCALATION]</p>\n<b>Site: SYD-CORE-04 </b>\n ETA: 18:45"

theorem body_written : Written MarkedLine ['\n']
    ([[], [' ', ' ']] ++ "[INCIDENT:ESCALATION]".toList :: [site, eta].map Field.line)
    body.toList := by
  have hetas : Written MarkedLine ['\n'] [eta.line] eta.line :=
    .last ⟨marked_self (by decide), by decide⟩ (by decide)
  have hsite : MarkedLine site.line ("<b>".toList ++ (site.line ++ "</b>".toList)) :=
    ⟨marked_wrapped ['b'] site.line ['/', 'b'] (by decide) (by decide) (by decide), by decide⟩
  have htag : MarkedLine "[INCIDENT:ESCALATION]".toList
      ("<p>".toList ++ ("[INCIDENT:ESCALATION]".toList ++ "</p>".toList)) :=
    ⟨marked_wrapped ['p'] "[INCIDENT:ESCALATION]".toList ['/', 'p'] (by decide) (by decide)
      (by decide), by decide⟩
  have hblank : MarkedLine [' ', ' '] [' ', ' '] := ⟨marked_self (by decide), by decide⟩
  exact .cons ⟨.nil, by decide⟩ (.cons hblank (.cons htag (.cons hsite hetas)))

theorem escalation_read :
    Reads (parseIncidentEmail ascii none (some body)) "ESCALATION".toList [site, eta] :=
  (parse_undoes_convention ascii (.single (by decide))).2.1 _ _ [[], [' ', ' ']]
    "[INCIDENT:ESCALATION]".toList none body
    (fun s h => by
      have hmatch := matchTag_of_tagged h
      cases hmatch)
    (by decide)
    ⟨by decide, by decide, [], [], by decide, rfl⟩ body_written

end Example

end IncidentEmail
