import NocAgent.Agent.Notifications
import NocAgent.Library.Cut
import NocAgent.Library.Lines
import Mathlib.Data.List.Chain

namespace Notifications
open Text Cut Lines

inductive TemplateError where
  | valueError
  | stopIteration
deriving DecidableEq

def personaMarker (persona : Persona) : List Char := ("### Persona: " ++ persona.name).toList

def subjectMarker : List Char := "**Subject**:".toList

def bodyLine : List Char := "**Body**:".toList

def headings : List (List Char) := ["\n# ".toList, "\n## ".toList, "\n### ".toList]

def heading (text : List Char) : Option (List Char) := headings.findSome? (literal · text)

-- \n-{3,}\s*$
def rule (u : Unicode) : List Char → Option (List Char)
  | '\n' :: cs =>
    if 3 ≤ (cs.takeWhile (· = '-')).length ∧ (cs.dropWhile (· = '-')).all u.isSpace = true then
      some []
    else none
  | _ => none

def beforeMatch (p : List Char → Option (List Char)) (text : List Char) : List Char :=
  match cut p text with
  | none => text
  | some found => found.1

def extractTemplate (u : Unicode) (template : List Char) (persona : Persona) :
    Except TemplateError (List Char × List Char) :=
  match cut (literal (personaMarker persona ++ ['\n'])) template with
  | none => .error .valueError
  | some (_, rest) =>
    let text := beforeMatch heading rest
    match (splitLines text).find? (subjectMarker.isPrefixOf ·) with
    | none => .error .stopIteration
    | some line =>
      match cut (literal (bodyLine ++ ['\n', '\n'])) text with
      | none => .error .valueError
      | some (_, body) =>
        .ok (u.strip (line.drop subjectMarker.length), u.strip (beforeMatch (rule u) body))

-- A name that stands for itself: no lookup inside the value, no conversion, no format spec.
def isName (name : List Char) : Bool :=
  name.any (!·.isDigit) && name.all fun c => c.isAlphanum || c = '_'

-- string.Formatter().vformat, in the text or in a field of which some of the name is read.
def formatFrom (value : List Char → List Char) : Option (List Char) → List Char →
    Option (List Char)
  | none, [] => some []
  | some _, [] => none
  | none, '\x7b' :: '\x7b' :: cs => (formatFrom value none cs).map ('\x7b' :: ·)
  | none, '\x7d' :: '\x7d' :: cs => (formatFrom value none cs).map ('\x7d' :: ·)
  | none, c :: cs =>
    if c = '\x7b' then formatFrom value (some []) cs
    else if c = '\x7d' then none
    else (formatFrom value none cs).map (c :: ·)
  | some name, c :: cs =>
    if c = '\x7d' then
      if isName name then (formatFrom value none cs).map (value name ++ ·) else none
    else formatFrom value (some (name ++ [c])) cs

section Render
variable (w : World) (update : Update)

def safeContext (persona : Persona) (name : String) : Option Json :=
  if name ∈ persona.allowedFields then update.context.lookup name else none

def fieldValue (persona : Persona) (name : List Char) : List Char :=
  match safeContext update persona (.ofList name) with
  | some value => (w.str value).toList
  | none => '\x7b' :: name ++ ['\x7d']

def renderTemplate (template : List Char) (persona : Persona) :
    Except TemplateError (List Char × List Char) :=
  match extractTemplate w.unicode template persona with
  | .error e => .error e
  | .ok (subject, body) =>
    match formatFrom (fieldValue w update persona) none subject,
      formatFrom (fieldValue w update persona) none body with
    | some subject, some body => .ok (subject, body)
    | _, _ => .error .valueError

end Render

-- A section as the template lays it out; `trailer` is a horizontal rule after the body, if any.
structure Layout (u : Unicode) where
  lead : List (List Char)
  subject : List Char
  between : List (List Char)
  content : List Char
  trailer : List Char
  lead_plain : ∀ line ∈ lead, Unbroken line ∧ ¬ subjectMarker <+: line ∧ ¬ bodyLine <:+ line
  subject_plain : Unbroken subject ∧ ¬ bodyLine <:+ subjectMarker ++ subject
  between_plain : ∀ line ∈ between, '\n' ∉ line ∧ ¬ bodyLine <:+ line
  trailer_rule : trailer = [] ∧ Absent (rule u) content [] ∨
    ∃ dashes blanks, 3 ≤ dashes ∧ Blank u blanks ∧
      trailer = '\n' :: (List.replicate dashes '-' ++ blanks)

def Layout.text {u : Unicode} (l : Layout u) : List Char :=
  flat (l.lead ++ (subjectMarker ++ l.subject) :: l.between) ++
    (bodyLine ++ ['\n', '\n'] ++ (l.content ++ l.trailer))

section Extract
variable {u : Unicode} {before text rest line : List Char}

theorem heading_eq_none_iff : heading text = none ↔ ∀ pat ∈ headings, ¬ pat <+: text := by
  rw [heading, List.findSome?_eq_none_iff]
  exact forall₂_congr fun pat _ => literal_eq_none_iff

theorem newline_once {pat : List Char} (hpat : pat ∈ headings) :
    ∃ tail, pat = '\n' :: tail ∧ '\n' ∉ tail := by
  simp only [headings, List.mem_cons, List.not_mem_nil, or_false] at hpat
  rcases hpat with rfl | rfl | rfl <;> exact ⟨_, rfl, by decide⟩

theorem absent_heading_append (h : Absent heading text []) (hrest : rest.head? = some '\n') :
    Absent heading text rest := by
  intro a b hab hb
  have hnone := h a b hab hb
  rw [List.append_nil] at hnone
  rw [heading_eq_none_iff] at hnone ⊢
  intro pat hpat hstart
  obtain ⟨tail, rfl, htail⟩ := newline_once hpat
  rcases List.prefix_or_prefix_of_prefix hstart (List.prefix_append b rest) with hin | hin
  · exact hnone _ hpat hin
  · obtain ⟨more, hmore⟩ := hin
    obtain ⟨c, b, rfl⟩ := List.exists_cons_of_ne_nil hb
    obtain ⟨-, rfl⟩ := List.cons.inj hmore
    rw [← hmore, List.prefix_append_right_inj] at hstart
    cases more with
    | nil =>
      rw [List.append_nil] at hmore
      exact hnone _ hpat (hmore ▸ List.prefix_rfl)
    | cons d more =>
      obtain ⟨x, hx⟩ := hstart
      rw [← hx, List.cons_append, List.head?_cons, Option.some.injEq] at hrest
      exact htail (List.mem_append_right b (hrest ▸ List.mem_cons_self))

theorem rule_eq_none_of_dash (h : '-' ∈ text.dropWhile (· = '-')) :
    rule u ('\n' :: text) = none := by
  have hdash : u.isSpace '-' = false := by
    rw [u.isSpace_ascii _ (by decide)]
    decide
  rw [rule, if_neg]
  rintro ⟨-, hall⟩
  rw [List.all_eq_true] at hall
  rw [hall _ h] at hdash
  cases hdash

theorem absent_rule {dashes : ℕ} {blanks : List Char} (h : 3 ≤ dashes) :
    Absent (rule u) text ('\n' :: (List.replicate dashes '-' ++ blanks)) := by
  intro a b _ hb
  obtain ⟨c, b, rfl⟩ := List.exists_cons_of_ne_nil hb
  by_cases hc : c = '\n'
  · rw [hc, List.cons_append]
    refine rule_eq_none_of_dash ?_
    have hmem : '-' ∈ List.replicate dashes '-' ++ blanks :=
      List.mem_append_left _ (List.mem_replicate.mpr ⟨by omega, rfl⟩)
    rw [List.dropWhile_append]
    split_ifs
    · rw [List.dropWhile_cons_of_neg (by decide)]
      exact List.mem_cons_of_mem _ hmem
    · exact List.mem_append_right _ (List.mem_cons_of_mem _ hmem)
  · simp only [rule, List.cons_append]
    split
    · rename_i heq
      exact absurd (List.cons.inj heq).1 hc
    · rfl

theorem rule_matches {dashes : ℕ} {blanks : List Char} (h : 3 ≤ dashes) (hblanks : Blank u blanks) :
    rule u ('\n' :: (List.replicate dashes '-' ++ blanks)) = some [] := by
  have htake : (List.replicate dashes '-' ++ blanks).takeWhile (· = '-') =
      List.replicate dashes '-' ++ blanks.takeWhile (· = '-') :=
    List.takeWhile_append_of_pos fun c hc => by simpa using List.eq_of_mem_replicate hc
  have hdrop : (List.replicate dashes '-' ++ blanks).dropWhile (· = '-') =
      blanks.dropWhile (· = '-') :=
    List.dropWhile_append_of_pos fun c hc => by simpa using List.eq_of_mem_replicate hc
  rw [rule, htake, hdrop, if_pos]
  refine ⟨?_, ?_⟩
  · rw [List.length_append, List.length_replicate]
    omega
  · rw [List.all_eq_true]
    exact fun c hc => hblanks c ((List.dropWhile_sublist _).mem hc)

theorem Layout.beforeRule (l : Layout u) :
    beforeMatch (rule u) (l.content ++ l.trailer) = l.content := by
  rcases l.trailer_rule with ⟨hnil, habsent⟩ | ⟨dashes, blanks, h, hblanks, htrailer⟩
  · rw [hnil, List.append_nil, beforeMatch, cut_eq_none habsent rfl]
  · rw [htrailer, beforeMatch, cut_of_match (rule_matches h hblanks) (absent_rule h)]

theorem splitLines_line (h : Unbroken line) (rest : List Char) :
    splitLines (line ++ '\n' :: rest) = line :: splitLines rest := by
  have hending : Ending ['\n'] := .single rfl
  rw [splitLines, split_line h, List.nil_append]
  exact split_ending hending fun hreturn => by cases hreturn

theorem find_subject {lead : List (List Char)} {subject : List Char}
    (hlead : ∀ line ∈ lead, Unbroken line ∧ ¬ subjectMarker <+: line)
    (hsubject : Unbroken (subjectMarker ++ subject)) (rest : List Char) :
    (splitLines (flat lead ++ (subjectMarker ++ subject ++ '\n' :: rest))).find?
      (subjectMarker.isPrefixOf ·) = some (subjectMarker ++ subject) := by
  induction lead with
  | nil =>
    have hfound : subjectMarker.isPrefixOf (subjectMarker ++ subject) = true :=
      List.isPrefixOf_iff_prefix.mpr (List.prefix_append _ _)
    rw [flat, List.flatMap_nil, List.nil_append, splitLines_line hsubject,
      List.find?_cons_of_pos hfound]
  | cons line lead ih =>
    obtain ⟨⟨hline, hother⟩, hlead⟩ := List.forall_mem_cons.mp hlead
    have hskip : ¬ subjectMarker.isPrefixOf line = true := by
      rwa [List.isPrefixOf_iff_prefix]
    rw [flat_cons, List.append_assoc, List.cons_append, splitLines_line hline,
      List.find?_cons_of_neg hskip]
    exact ih hlead

theorem not_newline (h : Unbroken line) : '\n' ∉ line := fun hmem => by
  have hbreak := h _ hmem
  cases hbreak

theorem unbroken_append {x y : List Char} (hx : Unbroken x) (hy : Unbroken y) :
    Unbroken (x ++ y) :=
  List.forall_mem_append.mpr ⟨hx, hy⟩

theorem Layout.body_found (l : Layout u) :
    cut (literal (bodyLine ++ ['\n', '\n'])) l.text =
      some (flat (l.lead ++ (subjectMarker ++ l.subject) :: l.between),
        l.content ++ l.trailer) := by
  refine cut_line (by decide) (fun line hline => ?_) ['\n'] (l.content ++ l.trailer)
  rcases List.mem_append.mp hline with hline | hline
  · obtain ⟨hunbroken, -, hend⟩ := l.lead_plain line hline
    exact ⟨not_newline hunbroken, hend⟩
  · rcases List.mem_cons.mp hline with rfl | hline
    · exact ⟨not_newline (unbroken_append (by decide) l.subject_plain.1), l.subject_plain.2⟩
    · exact l.between_plain line hline

theorem Layout.subject_found (l : Layout u) :
    (splitLines l.text).find? (subjectMarker.isPrefixOf ·) = some (subjectMarker ++ l.subject) := by
  have htext : l.text = flat l.lead ++ (subjectMarker ++ l.subject ++ '\n' ::
      (flat l.between ++ (bodyLine ++ ['\n', '\n'] ++ (l.content ++ l.trailer)))) := by
    rw [Layout.text, flat, List.flatMap_append, List.flatMap_cons]
    simp only [flat, List.append_assoc, List.cons_append, List.nil_append]
  rw [htext]
  refine find_subject (fun line hline => ?_) (unbroken_append (by decide) l.subject_plain.1) _
  obtain ⟨hunbroken, hother, -⟩ := l.lead_plain line hline
  exact ⟨hunbroken, hother⟩

def Placed (persona : Persona) (l : Layout u) (template : List Char) : Prop :=
  ∃ before after,
    template = flat before ++ (personaMarker persona ++ ['\n'] ++ (l.text ++ after)) ∧
      (∀ line ∈ before, '\n' ∉ line ∧ ¬ personaMarker persona <:+ line) ∧
        Absent heading l.text [] ∧ (after = [] ∨ (heading after).isSome = true)

theorem beforeMatch_heading {after : List Char} (h : Absent heading text [])
    (hafter : after = [] ∨ (heading after).isSome = true) :
    beforeMatch heading (text ++ after) = text := by
  rcases hafter with rfl | hafter
  · rw [List.append_nil, beforeMatch, cut_eq_none h (by decide)]
  · obtain ⟨rest, hrest⟩ := Option.isSome_iff_exists.mp hafter
    have hhead : after.head? = some '\n' := by
      obtain ⟨pat, hpat, hfound⟩ := List.exists_of_findSome?_eq_some hrest
      have hstart : pat <+: after := by
        by_contra hnot
        rw [literal_eq_none_iff.mpr hnot] at hfound
        cases hfound
      obtain ⟨tail, rfl, -⟩ := newline_once hpat
      obtain ⟨more, rfl⟩ := hstart
      rfl
    rw [beforeMatch, cut_of_match hrest (absent_heading_append h hhead)]

theorem extractTemplate_placed {persona : Persona} {l : Layout u} {template : List Char}
    (h : Placed persona l template) :
    extractTemplate u template persona = .ok (u.strip l.subject, u.strip l.content) := by
  obtain ⟨before, after, rfl, hbefore, hclosed, hafter⟩ := h
  have hmarker : '\n' ∉ personaMarker persona := by cases persona <;> decide
  simp only [extractTemplate, cut_line hmarker hbefore [] (l.text ++ after),
    beforeMatch_heading hclosed hafter, l.subject_found, l.body_found, l.beforeRule,
    List.drop_left]

end Extract

def escapeBrace (c : Char) : List Char := if c = '\x7b' ∨ c = '\x7d' then [c, c] else [c]

def Piece.source : Piece → List Char
  | .text cs => cs.toList.flatMap escapeBrace
  | .field name => '\x7b' :: name.toList ++ ['\x7d']

def Piece.fill (value : List Char → List Char) : Piece → List Char
  | .text cs => cs.toList
  | .field name => value name.toList

def Named (pieces : List Piece) : Prop := ∀ name, .field name ∈ pieces → isName name.toList = true

section Format
variable {value : List Char → List Char}

theorem formatFrom_escape (c : Char) (rest : List Char) :
    formatFrom value none (escapeBrace c ++ rest) = (formatFrom value none rest).map (c :: ·) := by
  unfold escapeBrace
  split_ifs with hc
  · rcases hc with rfl | rfl <;> rfl
  · obtain ⟨hopen, hclose⟩ := not_or.mp hc
    rw [List.singleton_append, formatFrom.eq_5, if_neg hopen, if_neg hclose]
    all_goals
      rintro _ rfl
      contradiction

theorem formatFrom_text (text rest : List Char) :
    formatFrom value none (text.flatMap escapeBrace ++ rest) =
      (formatFrom value none rest).map (text ++ ·) := by
  induction text with
  | nil => simp
  | cons c text ih =>
    rw [List.flatMap_cons, List.append_assoc, formatFrom_escape, ih, Option.map_map]
    rfl

theorem formatFrom_name (value : List Char → List Char) {name : List Char}
    (hname : ∀ c ∈ name, c ≠ '\x7d') (read rest : List Char)
    (hread : isName (read ++ name) = true) :
    formatFrom value (some read) (name ++ '\x7d' :: rest) =
      (formatFrom value none rest).map (value (read ++ name) ++ ·) := by
  induction name generalizing read with
  | nil =>
    rw [List.append_nil] at hread ⊢
    rw [List.nil_append, formatFrom, if_pos rfl, if_pos hread]
  | cons c name ih =>
    obtain ⟨hc, hname⟩ := List.forall_mem_cons.mp hname
    have hmore : read ++ c :: name = read ++ [c] ++ name := by simp
    rw [List.cons_append, formatFrom, if_neg hc, hmore]
    exact ih hname (read ++ [c]) (hmore ▸ hread)

theorem isName_spec {name : List Char} (h : isName name = true) :
    name ≠ [] ∧ ∀ c ∈ name, c ≠ '\x7b' ∧ c ≠ '\x7d' := by
  rw [isName, Bool.and_eq_true, List.any_eq_true, List.all_eq_true] at h
  obtain ⟨⟨c, hc, -⟩, hall⟩ := h
  refine ⟨List.ne_nil_of_mem hc, fun c hc => ⟨?_, ?_⟩⟩
  · rintro rfl
    exact absurd (hall _ hc) (by decide)
  · rintro rfl
    exact absurd (hall _ hc) (by decide)

theorem formatFrom_piece {piece : Piece}
    (hname : ∀ name, piece = .field name → isName name.toList = true) (rest : List Char) :
    formatFrom value none (piece.source ++ rest) =
      (formatFrom value none rest).map (piece.fill value ++ ·) := by
  cases piece with
  | text cs => exact formatFrom_text cs.toList rest
  | field name =>
    obtain ⟨hnil, hbraces⟩ := isName_spec (hname name rfl)
    have hopen : formatFrom value none ('\x7b' :: (name.toList ++ '\x7d' :: rest)) =
        formatFrom value (some []) (name.toList ++ '\x7d' :: rest) := by
      obtain ⟨c, cs, hcs⟩ := List.exists_cons_of_ne_nil hnil
      have hc : c ≠ '\x7b' := (hbraces c (hcs ▸ List.mem_cons_self)).1
      rw [hcs, List.cons_append, formatFrom.eq_5, if_pos rfl]
      · rintro tail - htail
        exact hc (List.cons.inj htail).1
      · rintro _ h
        cases h
    have hread := formatFrom_name value (fun c hc => (hbraces c hc).2) [] rest
      (hname name rfl)
    rw [List.nil_append] at hread
    have hsource : (Piece.field name).source ++ rest =
        '\x7b' :: (name.toList ++ '\x7d' :: rest) := by
      simp [Piece.source]
    rw [hsource, hopen, hread]
    rfl

theorem formatFrom_source {pieces : List Piece} (h : Named pieces) :
    formatFrom value none (pieces.flatMap Piece.source) =
      some (pieces.flatMap (Piece.fill value)) := by
  induction pieces with
  | nil => rfl
  | cons piece pieces ih =>
    have hpiece : ∀ name, piece = .field name → isName name.toList = true :=
      fun name hname => h name (hname ▸ List.mem_cons_self)
    rw [List.flatMap_cons, formatFrom_piece hpiece,
      ih fun name hname => h name (List.mem_cons_of_mem _ hname)]
    rfl

end Format

section Rendered
variable {w : World} {update : Update} {persona : Persona}

theorem toList_vformat (pieces : List Piece) :
    (vformat w (safeContext update persona) pieces).toList =
      pieces.flatMap (Piece.fill (fieldValue w update persona)) := by
  rw [vformat, String.toList_join, List.flatMap_map]
  refine List.flatMap_congr fun piece _ => ?_
  cases piece with
  | text cs => rfl
  | field name =>
    simp only [Piece.fill, fieldValue, String.ofList_toList]
    cases safeContext update persona name with
    | none => simp
    | some value => rfl

theorem renderTemplate_placed {l : Layout w.unicode} {template : List Char}
    (h : Placed persona l template) {subject body : List Piece}
    (hsubject : w.unicode.strip l.subject = subject.flatMap Piece.source)
    (hbody : w.unicode.strip l.content = body.flatMap Piece.source)
    (hnames : Named (subject ++ body)) (update : Update) :
    renderTemplate w update template persona =
      .ok ((vformat w (safeContext update persona) subject).toList,
        (vformat w (safeContext update persona) body).toList) := by
  have hnamed : Named subject ∧ Named body :=
    ⟨fun name hname => hnames name (List.mem_append_left _ hname),
      fun name hname => hnames name (List.mem_append_right _ hname)⟩
  simp only [renderTemplate, extractTemplate_placed h, hsubject, hbody,
    formatFrom_source hnamed.1, formatFrom_source hnamed.2, toList_vformat]

theorem render_fills_allowed (w : World) (update : Update) {persona : Persona}
    {l : Layout w.unicode} {template : List Char} (h : Placed persona l template)
    {subject body : List Piece}
    (hsubject : w.unicode.strip l.subject = subject.flatMap Piece.source)
    (hbody : w.unicode.strip l.content = body.flatMap Piece.source)
    (hnames : Named (subject ++ body)) :
    renderTemplate w update template persona =
        .ok ((vformat w (safeContext update persona) subject).toList,
          (vformat w (safeContext update persona) body).toList) ∧
      ∀ update' : Update, (∀ name ∈ persona.allowedFields,
          update'.context.lookup name = update.context.lookup name) →
        renderTemplate w update' template persona = renderTemplate w update template persona := by
  have hrender := renderTemplate_placed h hsubject hbody hnames
  refine ⟨hrender update, fun update' hsame => ?_⟩
  have hcontext : safeContext update' persona = safeContext update persona := by
    funext name
    unfold safeContext
    split_ifs with hname
    · exact hsame name hname
    · rfl
  rw [hrender, hrender, hcontext]

end Rendered

-- The persona part of customer_communication_template.md.
section File
variable (u : Unicode)

def subjectText (persona : Persona) : List Char :=
  (extractPersonaSection persona).subject.flatMap Piece.source

def bodyText (persona : Persona) : List Char :=
  (extractPersonaSection persona).body.flatMap Piece.source

def fileSubject (persona : Persona) : List Char := ' ' :: subjectText persona

def fileContent (persona : Persona) : List Char := bodyText persona ++ ['\n']

def fileTrailer : Persona → List Char
  | .partners => "\n---\n".toList
  | _ => []

theorem fileSubject_plain (persona : Persona) :
    Unbroken (fileSubject persona) ∧ ¬ bodyLine <:+ subjectMarker ++ fileSubject persona := by
  cases persona <;> decide +kernel

theorem rule_eq_none {text : List Char} (h : ¬ ['\n', '-'] <+: text) : rule u text = none := by
  rw [rule.eq_def]
  split
  · rename_i cs
    rw [if_neg]
    rintro ⟨hlength, -⟩
    cases cs with
    | nil => exact absurd hlength (by decide)
    | cons c cs =>
      have hc : c ≠ '-' := by
        rintro rfl
        exact h ⟨cs, rfl⟩
      rw [List.takeWhile_cons_of_neg (by simpa using hc)] at hlength
      exact absurd hlength (by decide)
  · rfl

theorem absent_rule_of_chain {text : List Char} (h : text.IsChain fun a b => a = '\n' → b ≠ '-') :
    Absent (rule u) text [] := by
  rintro a b rfl -
  rw [List.append_nil]
  refine rule_eq_none u fun hstart => ?_
  obtain ⟨more, rfl⟩ := hstart
  exact (List.isChain_cons_cons.mp (List.IsChain.right_of_append h)).1 rfl rfl

def solid (c : Char) : Bool := c.toNat < 128 && !ascii.isSpace c

def solidEnds (text : List Char) : Bool := text.head?.any solid && text.getLast?.any solid

theorem not_space_of_solid {c : Char} (h : solid c = true) : u.isSpace c = false := by
  rw [solid, Bool.and_eq_true, decide_eq_true_eq, Bool.not_eq_true'] at h
  rw [u.isSpace_ascii c h.1, ← ascii.isSpace_ascii c h.1]
  exact h.2

theorem strip_of_solid {text : List Char} (blanks more : List Char) (hblanks : Blank u blanks)
    (hmore : Blank u more) (h : solidEnds text = true) :
    u.strip (blanks ++ (text ++ more)) = text := by
  rw [solidEnds, Bool.and_eq_true, Option.any_eq_true, Option.any_eq_true] at h
  obtain ⟨⟨c, hc, hsolid⟩, d, hd, hsolid'⟩ := h
  obtain ⟨tail, rfl⟩ := List.head?_eq_some_iff.mp hc
  have hfront : (blanks ++ (c :: tail ++ more)).dropWhile u.isSpace = c :: tail ++ more := by
    rw [List.dropWhile_append_of_pos hblanks, List.cons_append,
      List.dropWhile_cons_of_neg (by rw [not_space_of_solid u hsolid]; exact Bool.false_ne_true)]
  obtain ⟨init, hinit⟩ := List.getLast?_eq_some_iff.mp hd
  rw [Unicode.strip, stripOf, hfront, hinit, List.reverse_append, List.reverse_append,
    List.dropWhile_append_of_pos fun x hx => hmore x (List.mem_reverse.mp hx)]
  rw [List.reverse_singleton, List.singleton_append, List.dropWhile_cons_of_neg
    (by rw [not_space_of_solid u hsolid']; exact Bool.false_ne_true), List.reverse_cons,
    List.reverse_reverse]

theorem bodyText_plain (persona : Persona) :
    ((fileContent persona).IsChain fun a b => a ≠ '#' ∧ (a = '\n' → b ≠ '-')) ∧
      solidEnds (bodyText persona) = true := by
  cases persona <;> decide +kernel

theorem fileContent_chain (persona : Persona) :
    (fileContent persona).IsChain fun a b => a ≠ '#' ∧ (a = '\n' → b ≠ '-') :=
  (bodyText_plain persona).1

theorem hash_not_mem_bodyText (persona : Persona) : '#' ∉ bodyText persona := by
  intro hmem
  obtain ⟨a, b, hsplit⟩ := List.append_of_mem hmem
  have hchain := fileContent_chain persona
  rw [fileContent, hsplit, List.append_assoc] at hchain
  have hlast := List.IsChain.right_of_append hchain
  cases b with
  | nil => exact (List.isChain_cons_cons.mp hlast).1.1 rfl
  | cons d b => exact (List.isChain_cons_cons.mp hlast).1.1 rfl

theorem fileTrailer_rule (persona : Persona) :
    fileTrailer persona = [] ∧ Absent (rule u) (fileContent persona) [] ∨
      ∃ dashes blanks, 3 ≤ dashes ∧ Blank u blanks ∧
        fileTrailer persona = '\n' :: (List.replicate dashes '-' ++ blanks) := by
  have hnone := absent_rule_of_chain u ((fileContent_chain persona).imp fun _ _ h => h.2)
  cases persona with
  | partners =>
    refine .inr ⟨3, ['\n'], le_rfl, fun c hc => ?_, rfl⟩
    rw [List.mem_singleton.mp hc, u.isSpace_ascii _ (by decide)]
    decide
  | executives => exact .inl ⟨rfl, hnone⟩
  | technical => exact .inl ⟨rfl, hnone⟩
  | venue => exact .inl ⟨rfl, hnone⟩

theorem blankLine_plain :
    ∀ line ∈ [([] : List Char)],
      Unbroken line ∧ ¬ subjectMarker <+: line ∧ ¬ bodyLine <:+ line := by
  decide

theorem blankLine_between : ∀ line ∈ [([] : List Char)], '\n' ∉ line ∧ ¬ bodyLine <:+ line := by
  decide

def fileLayout (persona : Persona) : Layout u where
  lead := [[]]
  subject := fileSubject persona
  between := [[]]
  content := fileContent persona
  trailer := fileTrailer persona
  lead_plain := blankLine_plain
  subject_plain := fileSubject_plain persona
  between_plain := blankLine_between
  trailer_rule := fileTrailer_rule u persona

def fileLines (persona : Persona) : List (List Char) :=
  personaMarker persona :: [] :: (subjectMarker ++ fileSubject persona) :: [] :: bodyLine :: [] ::
    ((bodyText persona).splitOn '\n' ++ [[]])

def templateFile (preamble : List (List Char)) (after : List Char) : List Char :=
  flat (preamble ++ (fileLines .executives ++ (fileLines .technical ++ fileLines .venue))) ++
    (personaMarker .partners ++ ['\n'] ++ ((fileLayout ascii .partners).text ++ after))

structure Surrounds (preamble : List (List Char)) (after : List Char) : Prop where
  preamble_plain : ∀ line ∈ preamble, '\n' ∉ line ∧ ∀ persona, ¬ personaMarker persona <:+ line
  after_heading : after = [] ∨ (heading after).isSome = true

theorem flat_fileLines (persona : Persona) (h : fileTrailer persona = []) :
    flat (fileLines persona) =
      personaMarker persona ++ ['\n'] ++ ((fileLayout u persona).text ++ ['\n']) := by
  simp only [fileLines, flat_cons, flat_append, flat_nil, flat_splitOn, Layout.text, fileLayout,
    fileContent, h, List.append_assoc, List.cons_append, List.nil_append, List.append_nil]

theorem fileLines_tail (persona : Persona) :
    ∀ line ∈ (fileLines persona).tail, '\n' ∉ line ∧ '#' ∉ line := by
  have hhead : ∀ line ∈ [[], subjectMarker ++ fileSubject persona, [], bodyLine, []],
      '\n' ∉ line ∧ '#' ∉ line := by
    cases persona <;> decide +kernel
  have hbody : ∀ line ∈ (bodyText persona).splitOn '\n', '\n' ∉ line ∧ '#' ∉ line := by
    refine fun line hline => ⟨newline_not_mem_splitOn _ line hline, fun hhash => ?_⟩
    have hmem := mem_flat hline hhash
    rw [flat_splitOn, List.mem_append] at hmem
    rcases hmem with hmem | hmem
    · exact hash_not_mem_bodyText persona hmem
    · revert hmem
      decide
  intro line hline
  rcases List.mem_append.mp (show line ∈ [[], subjectMarker ++ fileSubject persona, [], bodyLine,
    []] ++ ((bodyText persona).splitOn '\n' ++ [[]]) from hline) with hline | hline
  · exact hhead line hline
  · rcases List.mem_append.mp hline with hline | hline
    · exact hbody line hline
    · rw [List.mem_singleton.mp hline]
      decide

theorem fileLines_plain {persona other : Persona} (h : persona ≠ other) :
    ∀ line ∈ fileLines persona, '\n' ∉ line ∧ ¬ personaMarker other <:+ line := by
  intro line hline
  rcases List.mem_cons.mp hline with rfl | hline
  · revert h
    cases persona <;> cases other <;> decide
  · obtain ⟨hnewline, hhash⟩ := fileLines_tail persona line hline
    refine ⟨hnewline, fun hend => hhash (hend.mem ?_)⟩
    cases other <;> decide

theorem absent_heading {text : List Char} (h : '#' ∉ text) : Absent heading text [] := by
  have hhash : ∀ pat ∈ headings, '#' ∈ pat := by decide
  rintro a b rfl -
  rw [List.append_nil, heading_eq_none_iff]
  exact fun pat hpat hstart => h (List.mem_append_right a (hstart.mem (hhash pat hpat)))

theorem fileText_closed (persona : Persona) : Absent heading (fileLayout u persona).text [] := by
  refine absent_heading fun hmem => ?_
  rcases List.mem_append.mp hmem with hmem | hmem
  · obtain ⟨line, hline, hmem⟩ := List.mem_flatMap.mp hmem
    rcases List.mem_append.mp hmem with hmem | hmem
    · have htail : line ∈ (fileLines persona).tail := by
        change line ∈ [[], subjectMarker ++ fileSubject persona, []] ++
          (bodyLine :: [] :: ((bodyText persona).splitOn '\n' ++ [[]]))
        exact List.mem_append_left _ hline
      exact (fileLines_tail persona line htail).2 hmem
    · revert hmem
      decide
  · have hcontent : '#' ∉ fileContent persona := fun h => (List.mem_append.mp h).elim
      (hash_not_mem_bodyText persona) (by decide)
    have htrailer : '#' ∉ fileTrailer persona := by cases persona <;> decide
    simp only [List.mem_append] at hmem
    rcases hmem with (hmem | hmem) | hmem | hmem
    · revert hmem
      decide
    · revert hmem
      decide
    · exact hcontent hmem
    · exact htrailer hmem

theorem strip_subjectText (persona : Persona) :
    u.strip (fileSubject persona) = subjectText persona := by
  have hends : solidEnds (subjectText persona) = true := by cases persona <;> decide +kernel
  have hblank : Blank u [' '] := fun c hc => by
    rw [List.mem_singleton.mp hc, u.isSpace_ascii _ (by decide)]
    decide
  have hstrip := strip_of_solid u [' '] [] hblank (fun _ h => by cases h) hends
  rwa [List.append_nil] at hstrip

theorem strip_bodyText (persona : Persona) : u.strip (fileContent persona) = bodyText persona := by
  have hblank : Blank u ['\n'] := fun c hc => by
    rw [List.mem_singleton.mp hc, u.isSpace_ascii _ (by decide)]
    decide
  exact strip_of_solid u [] ['\n'] (fun _ h => by cases h) hblank (bodyText_plain persona).2

theorem allowedFields_named (persona : Persona) :
    ∀ name ∈ persona.allowedFields, isName name.toList = true := by
  cases persona <;> decide

theorem named_file (persona : Persona) :
    Named ((extractPersonaSection persona).subject ++ (extractPersonaSection persona).body) := by
  intro name hname
  refine allowedFields_named persona name ?_
  cases persona <;> simp [extractPersonaSection] at hname <;>
    simp [Persona.allowedFields] <;> tauto

theorem heading_of_marker (persona : Persona) (rest : List Char) :
    (heading ('\n' :: (personaMarker persona ++ rest))).isSome = true := by
  rw [Option.isSome_iff_ne_none, ne_eq, heading_eq_none_iff]
  intro h
  refine h "\n### ".toList (by decide) ?_
  cases persona <;> exact ⟨_, rfl⟩

theorem before_file {preamble : List (List Char)} {after : List Char}
    (h : Surrounds preamble after) {persona : Persona} {earlier : List Persona}
    (hearlier : ∀ p ∈ earlier, p ≠ persona) :
    ∀ line ∈ preamble ++ earlier.flatMap fileLines,
      '\n' ∉ line ∧ ¬ personaMarker persona <:+ line := by
  intro line hline
  rcases List.mem_append.mp hline with hline | hline
  · obtain ⟨hnewline, hmarker⟩ := h.preamble_plain line hline
    exact ⟨hnewline, hmarker persona⟩
  · obtain ⟨p, hp, hline⟩ := List.mem_flatMap.mp hline
    exact fileLines_plain (hearlier p hp) line hline

theorem placed_before_next {preamble : List (List Char)} {after : List Char}
    (h : Surrounds preamble after) (persona next : Persona) (earlier : List Persona)
    (hearlier : ∀ p ∈ earlier, p ≠ persona) (htrailer : fileTrailer persona = [])
    (rest : List Char) :
    Placed persona (fileLayout u persona)
      (flat (preamble ++ earlier.flatMap fileLines) ++
        (flat (fileLines persona) ++ (personaMarker next ++ rest))) := by
  refine ⟨preamble ++ earlier.flatMap fileLines, '\n' :: (personaMarker next ++ rest), ?_,
    before_file h hearlier, fileText_closed u persona, .inr (heading_of_marker next rest)⟩
  rw [flat_fileLines u persona htrailer]
  simp only [List.append_assoc, List.cons_append, List.nil_append]

theorem flat_fileLines_marker (persona : Persona) :
    ∃ rest, flat (fileLines persona) = personaMarker persona ++ rest := by
  refine ⟨'\n' :: flat (fileLines persona).tail, ?_⟩
  exact flat_cons

theorem placed_file {preamble : List (List Char)} {after : List Char}
    (h : Surrounds preamble after) (persona : Persona) :
    Placed persona (fileLayout u persona) (templateFile preamble after) := by
  obtain ⟨technical, htechnical⟩ := flat_fileLines_marker .technical
  obtain ⟨venue, hvenue⟩ := flat_fileLines_marker .venue
  cases persona with
  | executives =>
    have hplaced := placed_before_next u h .executives .technical [] (by simp) rfl
      (technical ++ (flat (fileLines .venue) ++
        (personaMarker .partners ++ ['\n'] ++ ((fileLayout ascii .partners).text ++ after))))
    simpa only [templateFile, flat_append, htechnical, List.flatMap_nil, flat_nil,
      List.append_nil, List.append_assoc] using hplaced
  | technical =>
    have hplaced := placed_before_next u h .technical .venue [.executives] (by simp) rfl (venue ++
        (personaMarker .partners ++ ['\n'] ++ ((fileLayout ascii .partners).text ++ after)))
    simpa only [templateFile, flat_append, hvenue, List.flatMap_cons, List.flatMap_nil, flat_nil,
      List.append_nil, List.append_assoc] using hplaced
  | venue =>
    have hplaced := placed_before_next u h .venue .partners [.executives, .technical] (by simp) rfl
      (['\n'] ++ ((fileLayout ascii .partners).text ++ after))
    simpa only [templateFile, flat_append, List.flatMap_cons, List.flatMap_nil, flat_nil,
      List.append_nil, List.append_assoc] using hplaced
  | partners =>
    refine ⟨preamble ++ [.executives, .technical, .venue].flatMap fileLines, after, ?_,
      before_file h (by simp), fileText_closed u .partners, h.after_heading⟩
    simp only [templateFile, List.flatMap_cons, List.flatMap_nil, List.append_nil]
    rfl

theorem renderTemplate_file (w : World) (update : Update) {preamble : List (List Char)}
    {after : List Char} (h : Surrounds preamble after) (persona : Persona) :
    renderTemplate w update (templateFile preamble after) persona =
      .ok ((renderPersonaMessage w update persona).1.toList,
        (renderPersonaMessage w update persona).2.toList) :=
  renderTemplate_placed (placed_file w.unicode h persona) (strip_subjectText w.unicode persona)
    (strip_bodyText w.unicode persona) (named_file persona) update

theorem render_fills_allowed_venue :
    renderTemplate demoWorld demoUpdate (templateFile [] []) .venue =
      .ok ((renderPersonaMessage demoWorld demoUpdate .venue).1.toList,
        (renderPersonaMessage demoWorld demoUpdate .venue).2.toList) :=
  (render_fills_allowed demoWorld demoUpdate
    (placed_file ascii ⟨(fun _ h => by cases h), .inl rfl⟩ .venue) (strip_subjectText ascii .venue)
    (strip_bodyText ascii .venue) (named_file .venue)).1

end File

end Notifications
