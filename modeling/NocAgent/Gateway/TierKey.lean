import NocAgent.ConsumerConfig.Bundle
import NocAgent.Gateway.Probe

namespace Gateway

open ConsumerConfig TextSearch

-- The consumerConfigJson variable of the pipeline. GetString never fails, but the bytes of a
-- bundle are UTF-8 anyway.
def consumerConfigJson (encoded : Option (List Char)) : List Char :=
  match (Base64.decode (encoded.getD "e30=".toList)).bind fun bytes =>
      String.fromUTF8? (ByteArray.mk bytes.toArray) with
  | some text => text.toList
  | none => "\x7b\x7d".toList

namespace TierKey

def opening (consumer : String) : List Char := '"' :: consumer.toList

-- The closing quote of a consumer's name and the beginning of an entry with the tier in front.
def closing : List Char := ['"', ':', '\x7b', '"', 't', 'i', 'e', 'r', '"', ':', '"']

def upToQuote (text : List Char) : List Char :=
  if '"' ∈ text then text.takeWhile (· ≠ '"') else []

end TierKey

open TierKey in
def tierKey (body : List Char) (consumer : String) : List Char :=
  match indexOf ordinalIgnoreCase (opening consumer ++ closing) body with
  | none => []
  | some index => upToQuote (body.drop (index + (opening consumer ++ closing).length))

theorem consumerConfigJson_encodeBundle (numbers : NumberText) (bundle : Dict Entry) :
    consumerConfigJson (some (encodeBundle numbers bundle)) = bundleText numbers bundle := by
  have hutf8 (s : String) :
      String.fromUTF8? (ByteArray.mk s.toUTF8.data.toList.toArray) = some s := by
    rw [Array.toArray_toList, String.fromUTF8?]
    exact dif_pos s.isValidUTF8
  rw [consumerConfigJson, Option.getD_some, encodeBundle, Base64.decode_encode, Option.bind_some,
    hutf8]
  exact String.toList_ofList

namespace TierKey

theorem tierKey_eq (body : List Char) (consumer : String) :
    tierKey body consumer =
      (after ordinalIgnoreCase (opening consumer) closing [] body).elim [] upToQuote := by
  rw [← following_eq_after (by simp [opening]) (by decide), tierKey, following]
  cases indexOf ordinalIgnoreCase (opening consumer ++ closing) body with
  | none => rfl
  | some index => rfl

abbrev Starts (text : List Char) : Bool := startsWith ordinalIgnoreCase closing text

abbrev Passes (xs text : List Char) : Prop := Skips ordinalIgnoreCase closing xs text

theorem toLower_eq_quote {c : Char} (h : c.toLower = '"') : c = '"' := by
  unfold Char.toLower at h
  split at h
  · rename_i hupper
    have hval := congrArg (fun d : Char => d.val.toNat) h
    have hlow : 65 ≤ c.toNat := hupper.1
    have hhigh : c.toNat ≤ 90 := hupper.2
    simp at hval
    omega
  · exact h

theorem ordinalIgnoreCase_quote {c : Char} (h : c ≠ '"') : ordinalIgnoreCase '"' c = false := by
  refine decide_eq_false fun hc => h (toLower_eq_quote ?_)
  rw [← hc]
  rfl

theorem startsWith_escapeChar {p c : Char} {ps text : List Char}
    (hp : ordinalIgnoreCase p '\\' = false)
    (h : startsWith ordinalIgnoreCase (p :: ps) (Dumps.escapeChar c ++ text) = true) :
    ordinalIgnoreCase p c = true ∧ c ≠ '"' ∧ startsWith ordinalIgnoreCase ps text = true := by
  obtain ⟨hescape, hc⟩ | hescape | ⟨xs, hescape, -⟩ := Dumps.escapeChar_escapes c
  · rw [hescape, List.singleton_append, startsWith, Bool.and_eq_true] at h
    exact ⟨h.1, hc, h.2⟩
  · rw [hescape, List.cons_append, startsWith, hp, Bool.false_and] at h
    cases h
  · rw [hescape, List.cons_append, startsWith, hp, Bool.false_and] at h
    cases h

-- From the quote that opens a string, or from one inside it, the third quote of the probe's end
-- would be the one that closes the string, and what follows a string is no letter.
theorem not_starts_string (cs : List Char) {r : Char} (hr : ordinalIgnoreCase 't' r = false)
    (text : List Char) :
    Starts ('"' :: (cs.flatMap Dumps.escapeChar ++ '"' :: r :: text)) = false := by
  refine Bool.eq_false_iff.mpr fun h => ?_
  rw [Starts, closing, startsWith, Bool.and_eq_true] at h
  obtain ⟨-, hcolon⟩ := h
  cases cs with
  | nil => cases hcolon
  | cons c₁ cs =>
    rw [List.flatMap_cons, List.append_assoc] at hcolon
    obtain ⟨-, -, hbrace⟩ := startsWith_escapeChar (by decide) hcolon
    cases cs with
    | nil => cases hbrace
    | cons c₂ cs =>
      rw [List.flatMap_cons, List.append_assoc] at hbrace
      obtain ⟨-, -, hquote⟩ := startsWith_escapeChar (by decide) hbrace
      cases cs with
      | nil =>
        rw [List.flatMap_nil, List.nil_append, startsWith, startsWith, hr, Bool.false_and,
          Bool.and_false] at hquote
        cases hquote
      | cons c₃ cs =>
        rw [List.flatMap_cons, List.append_assoc] at hquote
        obtain ⟨heq, hne, -⟩ := startsWith_escapeChar (by decide) hquote
        rw [ordinalIgnoreCase_quote hne] at heq
        cases heq

theorem passes_of_quote_not_mem (xs : List Char) (h : '"' ∉ xs) (text : List Char) :
    Passes xs text :=
  skips_of_first fun _ hc => ordinalIgnoreCase_quote fun heq => h (heq ▸ hc)

theorem passes_content (cs : List Char) {r : Char} (hr : ordinalIgnoreCase 't' r = false)
    (text : List Char) : Passes (cs.flatMap Dumps.escapeChar) ('"' :: r :: text) := by
  induction cs with
  | nil => exact skips_nil
  | cons c cs ih =>
    rw [List.flatMap_cons]
    refine Skips.append ?_ ih
    obtain ⟨hescape, hc⟩ | hescape | ⟨xs, hescape, hxs⟩ := Dumps.escapeChar_escapes c
    · rw [hescape]
      exact passes_of_quote_not_mem _ (by simpa using hc.symm) _
    · rw [hescape]
      exact skips_cons rfl (skips_cons (not_starts_string cs hr text) skips_nil)
    · rw [hescape]
      exact passes_of_quote_not_mem _ (by simpa using hxs) _

theorem passes_opened (name : String) {r : Char} (hr : ordinalIgnoreCase 't' r = false)
    (text : List Char) : Passes ('"' :: Dumps.escape name) ('"' :: r :: text) :=
  skips_cons (not_starts_string _ hr text) (passes_content _ hr text)

theorem passes_quote (name : String) {r : Char} {text : List Char}
    (hr : ordinalIgnoreCase 't' r = false) (hclosed : Starts ('"' :: r :: text) = false) :
    Passes (Dumps.quote name) (r :: text) := by
  exact (passes_opened name hr text).append (skips_cons hclosed skips_nil)

theorem startsWith_iff_toLower {ps cs : List Char} (hlength : ps.length = cs.length) :
    startsWith ordinalIgnoreCase ps cs = true ↔ ps.map Char.toLower = cs.map Char.toLower := by
  induction ps generalizing cs with
  | nil =>
    obtain rfl := List.length_eq_zero_iff.mp hlength.symm
    simp [startsWith]
  | cons p ps ih =>
    cases cs with
    | nil => simp at hlength
    | cons c cs =>
      simp only [startsWith, Bool.and_eq_true, ih (Nat.succ.inj hlength), List.map_cons,
        List.cons.injEq, ordinalIgnoreCase, decide_eq_true_eq]

theorem quote_mem_map {cs : List Char} : '"' ∈ cs.map Char.toLower ↔ '"' ∈ cs := by
  constructor
  · intro h
    obtain ⟨c, hc, hlower⟩ := List.mem_map.mp h
    exact toLower_eq_quote hlower ▸ hc
  · exact fun h => List.mem_map.mpr ⟨'"', h, rfl⟩

theorem opened_of_endsWith {consumer : String} (hconsumer : '"' ∉ consumer.toList)
    {text : List Char} : endsWith ordinalIgnoreCase (opening consumer) text = true ↔
      ∃ before window, text = before ++ '"' :: window ∧ '"' ∉ window ∧
        consumer.toList.map Char.toLower = window.map Char.toLower := by
  rw [endsWith_iff]
  constructor
  · rintro ⟨before, window, rfl, hlength, hstart⟩
    rw [startsWith_iff_toLower hlength] at hstart
    cases window with
    | nil => cases hlength
    | cons c window =>
      obtain ⟨hc, hwindow⟩ := List.cons.inj hstart
      obtain rfl : c = '"' := toLower_eq_quote hc.symm
      refine ⟨before, window, rfl, fun hmem => hconsumer ?_, hwindow⟩
      exact quote_mem_map.mp (hwindow ▸ quote_mem_map.mpr hmem)
  · rintro ⟨before, window, rfl, -, hwindow⟩
    have hlength : (opening consumer).length = ('"' :: window).length := by
      have hmap := congrArg List.length hwindow
      simpa [opening] using hmap
    refine ⟨before, _, rfl, hlength, (startsWith_iff_toLower hlength).mpr ?_⟩
    rw [opening, List.map_cons, List.map_cons, hwindow]

theorem endsWith_key {consumer : String} (hconsumer : '"' ∉ consumer.toList)
    (before content : List Char) :
    endsWith ordinalIgnoreCase (opening consumer) (before ++ '"' :: content) =
      endsWith ordinalIgnoreCase (opening consumer) ('"' :: content) := by
  rw [Bool.eq_iff_iff, opened_of_endsWith hconsumer, opened_of_endsWith hconsumer]
  constructor
  · rintro ⟨before', window, htext, hwindow, hmap⟩
    have hkey : '"' :: content <:+ before ++ '"' :: content := List.suffix_append _ _
    have hmatch : '"' :: window <:+ before ++ '"' :: content := ⟨before', htext.symm⟩
    obtain ⟨rest, hrest⟩ | hshort := List.suffix_or_suffix_of_suffix hmatch hkey
    · exact ⟨rest, window, hrest.symm, hwindow, hmap⟩
    · obtain heq | hinside := List.suffix_cons_iff.mp hshort
      · exact ⟨[], window, heq, hwindow, hmap⟩
      · exact absurd (hinside.subset List.mem_cons_self) hwindow
  · rintro ⟨before', window, htext, hwindow, hmap⟩
    exact ⟨before ++ before', window, by rw [htext, List.append_assoc], hwindow, hmap⟩

theorem endsWith_of_quote_not_mem {consumer : String} (hconsumer : '"' ∉ consumer.toList)
    {content : List Char} (hcontent : '"' ∉ content) :
    endsWith ordinalIgnoreCase (opening consumer) ('"' :: content) =
      decide (consumer.toList.map Char.toLower = content.map Char.toLower) := by
  rw [Bool.eq_iff_iff, opened_of_endsWith hconsumer, decide_eq_true_iff]
  constructor
  · rintro ⟨before, window, htext, -, hmap⟩
    cases before with
    | nil =>
      obtain ⟨-, rfl⟩ := List.cons.inj htext
      exact hmap
    | cons c before =>
      obtain ⟨-, rfl⟩ := List.cons.inj htext
      exact absurd (List.mem_append_right _ List.mem_cons_self) hcontent
  · exact fun hmap => ⟨[], content, rfl, hcontent, hmap⟩

def Ended (text : List Char) : Prop := ∃ c cs, text = c :: cs ∧ (c = ',' ∨ c = '\x7d')

structure Tame (value : List Char) : Prop where
  named : ∀ text, Ended text → Starts ('"' :: ':' :: (value ++ text)) = false
  passes : ∀ text, Ended text → Passes value text

theorem ended_membersTail (members : List (String × List Char)) (text : List Char) :
    Ended (Dumps.membersTail members ++ text) := by
  cases members with
  | nil => exact ⟨'\x7d', text, rfl, .inr rfl⟩
  | cons m members => exact ⟨',', _, rfl, .inl rfl⟩

theorem tame_quote (name : String) : Tame (Dumps.quote name) where
  named _ _ := rfl
  passes text hend := by
    obtain ⟨c, cs, rfl, rfl | rfl⟩ := hend
    · exact passes_quote name (by decide) rfl
    · exact passes_quote name (by decide) rfl

theorem not_starts_of_fourth {c d : Char} (hd : d ≠ '"') (text : List Char) :
    Starts ('"' :: ':' :: c :: d :: text) = false := by
  simp [Starts, closing, startsWith, ordinalIgnoreCase_quote hd]

theorem tame_of_quote_not_mem {value : List Char} (h : '"' ∉ value) : Tame value where
  named text hend := by
    obtain ⟨c, cs, rfl, hc⟩ := hend
    have hne : c ≠ '"' := by
      rintro rfl
      revert hc
      decide
    cases value with
    | nil => obtain rfl | rfl := hc <;> rfl
    | cons v value =>
      cases value with
      | nil => exact not_starts_of_fourth hne cs
      | cons w value =>
        refine not_starts_of_fourth (fun hw => h ?_) (value ++ c :: cs)
        rw [hw]
        exact List.mem_cons_of_mem _ List.mem_cons_self
  passes text _ := passes_of_quote_not_mem value h text

theorem passes_member (name : String) {value text : List Char} (h : Tame value)
    (hend : Ended text) : Passes (Dumps.member name value) text := by
  refine Skips.append (passes_quote name (by decide) (h.named text hend)) ?_
  exact (passes_of_quote_not_mem [':'] (by decide) _).append (h.passes text hend)

theorem passes_membersTail {members : List (String × List Char)}
    (h : ∀ m ∈ members, Tame m.2) (text : List Char) :
    Passes (Dumps.membersTail members) text := by
  induction members with
  | nil => exact passes_of_quote_not_mem _ (by decide) text
  | cons m members ih =>
    have htail := ih fun m hm => h m (List.mem_cons_of_mem _ hm)
    have hmember := passes_member m.1 (h m List.mem_cons_self) (ended_membersTail members text)
    exact (passes_of_quote_not_mem [','] (by decide) _).append (hmember.append htail)

theorem passes_object {members : List (String × List Char)} (h : ∀ m ∈ members, Tame m.2)
    (text : List Char) : Passes (Dumps.object members) text := by
  cases members with
  | nil => exact passes_of_quote_not_mem _ (by decide) text
  | cons m members =>
    have htail := passes_membersTail (fun m hm => h m (List.mem_cons_of_mem _ hm)) text
    have hmember := passes_member m.1 (h m List.mem_cons_self) (ended_membersTail members text)
    exact (passes_of_quote_not_mem ['\x7b'] (by decide) _).append (hmember.append htail)

theorem tame_object {name : String} {value : List Char} {members : List (String × List Char)}
    {c : Char} (hname : (Dumps.escape name).head? = some c)
    (hc : ordinalIgnoreCase 't' c = false) (h : ∀ m ∈ (name, value) :: members, Tame m.2) :
    Tame (Dumps.object ((name, value) :: members)) where
  named text _ := by
    obtain ⟨cs, hcs⟩ := List.head?_eq_some_iff.mp hname
    rw [Dumps.object, Dumps.member, Dumps.quote, hcs]
    simp [Starts, closing, startsWith, hc]
  passes text _ := passes_object h text

section Entry
variable (numbers : NumberText)

theorem tame_downgradeText (downgrade : ActiveDowngrade) :
    Tame (downgradeText numbers downgrade) := by
  rw [downgradeText_eq]
  refine tame_object (c := 'e') (by decide) (by decide) fun m hm => ?_
  simp only [List.mem_cons, List.not_mem_nil, or_false] at hm
  obtain rfl | rfl | rfl | rfl := hm
  · exact tame_quote _
  · exact tame_of_quote_not_mem (numbers.quote_not_mem_int _)
  · exact tame_of_quote_not_mem (numbers.quote_not_mem_float _)
  · exact tame_of_quote_not_mem (numbers.quote_not_mem_float _)

theorem tame_valueText (value : BundleValue) : Tame (valueText numbers value) := by
  cases value with
  | text text => exact tame_quote text
  | downgrade downgrade => exact tame_downgradeText numbers downgrade

theorem entryText_cases (fields : Fields) :
    (∃ tier, bareTier (bundleEntry fields) = some tier ∧ fields.tier = some tier ∧
      entryText numbers (bundleEntry fields) = Dumps.object [("tier", Dumps.quote tier)]) ∨
    bareTier (bundleEntry fields) = none ∧ Tame (entryText numbers (bundleEntry fields)) := by
  have htame {c : Char} {m : String × BundleValue} {ms : Entry}
      (hsorted : sortedEntry fields = m :: ms) (hname : (Dumps.escape m.1).head? = some c)
      (hc : ordinalIgnoreCase 't' c = false) : Tame (entryText numbers (bundleEntry fields)) := by
    rw [entryText, sortKeys_bundleEntry, hsorted]
    refine tame_object hname hc fun value hvalue => ?_
    obtain rfl | hvalue := List.mem_cons.mp hvalue
    · exact tame_valueText numbers m.2
    · obtain ⟨m, -, rfl⟩ := List.mem_map.mp hvalue
      exact tame_valueText numbers m.2
  have hactive : (Dumps.escape "active_downgrade").head? = some 'a' := by decide
  have hallowed : (Dumps.escape "allowed_models").head? = some 'a' := by decide
  have hdowngrade : (Dumps.escape "downgrade_ladder").head? = some 'd' := by decide
  obtain ⟨models, tier, _, _, _, _, _, ladder, downgrade⟩ := fields
  cases downgrade with
  | some downgrade =>
    refine .inr ⟨?_, htame rfl hactive (by decide)⟩
    cases models <;> cases tier <;> cases ladder <;> rfl
  | none =>
    cases models with
    | some models =>
      refine .inr ⟨?_, htame rfl hallowed (by decide)⟩
      cases tier <;> cases ladder <;> rfl
    | none =>
      cases ladder with
      | some ladder =>
        refine .inr ⟨?_, htame rfl hdowngrade (by decide)⟩
        cases tier <;> rfl
      | none =>
        cases tier with
        | some tier => exact .inl ⟨tier, rfl, rfl, rfl⟩
        | none =>
          exact .inr ⟨rfl, tame_of_quote_not_mem (show '"' ∉ Dumps.object [] by decide)⟩

-- The keys of the entries with a tier and nothing else: the text up to the closing quote, and the
-- tier.
def bareKeys : List Char → List (String × Entry) → List (List Char × String)
  | _, [] => []
  | before, (name, entry) :: rest =>
    ((bareTier entry).map fun tier => (before ++ '"' :: Dumps.escape name, tier)).toList ++
      bareKeys (before ++ Dumps.member name (entryText numbers entry) ++ [',']) rest

def found (consumer : String) (before : List Char) (entries : List (String × Entry)) :
    Option String :=
  ((bareKeys numbers before entries).find? fun key =>
    endsWith ordinalIgnoreCase (opening consumer) key.1).map Prod.snd

variable {numbers} {fields : Fields} {head text : List Char}

theorem passes_entry (name : String) (hend : Ended text)
    (hbare : bareTier (bundleEntry fields) = none) :
    Passes (Dumps.member name (entryText numbers (bundleEntry fields))) text := by
  obtain ⟨tier, hsome, -⟩ | ⟨-, htame⟩ := entryText_cases numbers fields
  · rw [hsome] at hbare
    cases hbare
  · exact passes_member name htame hend

theorem after_bare (name : String) {tier : String} (before : List Char)
    (hbare : bareTier (bundleEntry fields) = some tier) :
    after ordinalIgnoreCase head closing before
        (Dumps.member name (entryText numbers (bundleEntry fields)) ++ text) =
      if endsWith ordinalIgnoreCase head (before ++ '"' :: Dumps.escape name) = true then
        some (Dumps.escape tier ++ '"' :: '\x7d' :: text)
      else after ordinalIgnoreCase head closing
        (before ++ Dumps.member name (entryText numbers (bundleEntry fields))) text := by
  obtain ⟨_, hsome, -, htext⟩ | ⟨hnone, -⟩ := entryText_cases numbers fields
  · obtain rfl := Option.some.inj (hbare.symm.trans hsome)
    have hobject : Passes (Dumps.object [("tier", Dumps.quote tier)]) text := by
      refine passes_object (fun m hm => ?_) text
      obtain rfl := List.mem_singleton.mp hm
      exact tame_quote tier
    have hopened := passes_opened name (r := ':') (by decide)
      (Dumps.object [("tier", Dumps.quote tier)] ++ text) head before
    have hstarts : startsWith ordinalIgnoreCase closing
        ('"' :: ':' :: (Dumps.object [("tier", Dumps.quote tier)] ++ text)) = true := rfl
    have hskipped : Passes (':' :: Dumps.object [("tier", Dumps.quote tier)]) text :=
      skips_cons rfl hobject
    have hvalue : ('"' :: ':' :: (Dumps.object [("tier", Dumps.quote tier)] ++ text)).drop
        closing.length = Dumps.escape tier ++ '"' :: '\x7d' :: text := by
      simp [closing, Dumps.object, Dumps.member, Dumps.quote, Dumps.membersTail, Dumps.escape,
        Dumps.escapeChar]
    have hname : Dumps.member name (Dumps.object [("tier", Dumps.quote tier)]) ++ text =
        '"' :: Dumps.escape name ++ '"' :: ':' ::
          (Dumps.object [("tier", Dumps.quote tier)] ++ text) := by
      simp [Dumps.member, Dumps.quote]
    rw [htext, hname, hopened, after, hstarts, Bool.true_and, hvalue]
    refine if_congr Iff.rfl rfl ?_
    rw [← List.cons_append, hskipped]
    simp [Dumps.member, Dumps.quote]
  · rw [hnone] at hbare
    cases hbare

def Written (entries : List (String × Entry)) : Prop :=
  ∀ m ∈ entries, ∃ fields, m.2 = bundleEntry fields ∧ ∀ tier, fields.tier = some tier →
    Dumps.Plain tier

theorem bareTier_eq_some {tier : String} (h : bareTier (bundleEntry fields) = some tier) :
    fields.tier = some tier := by
  obtain ⟨_, hsome, htier, -⟩ | ⟨hnone, -⟩ := entryText_cases ⟨fun _ => [], fun _ => [],
    fun _ => List.not_mem_nil, fun _ => List.not_mem_nil⟩ fields
  · rw [htier, ← hsome, h]
  · rw [hnone] at h
    cases h

theorem upToQuote_escape {tier : String} (h : Dumps.Plain tier) (text : List Char) :
    upToQuote (Dumps.escape tier ++ '"' :: text) = tier.toList := by
  have hall : ∀ c ∈ tier.toList, (decide (c ≠ '"')) = true := fun c hc =>
    decide_eq_true (h c hc).2.2.1
  rw [upToQuote, Dumps.escape_of_plain h, if_pos (by simp),
    List.takeWhile_append_of_pos hall]
  simp

variable (numbers)

theorem found_of_none (consumer : String) (before : List Char) (name : String) {entry : Entry}
    (entries : List (String × Entry)) (hbare : bareTier entry = none) :
    found numbers consumer before ((name, entry) :: entries) =
      found numbers consumer (before ++ Dumps.member name (entryText numbers entry) ++ [','])
        entries := by
  rw [found, bareKeys, hbare]
  rfl

theorem found_of_bare (consumer : String) (before : List Char) (name : String) {entry : Entry}
    (entries : List (String × Entry)) {tier : String} (hbare : bareTier entry = some tier) :
    found numbers consumer before ((name, entry) :: entries) =
      if endsWith ordinalIgnoreCase (opening consumer) (before ++ '"' :: Dumps.escape name) = true
      then some tier
      else found numbers consumer (before ++ Dumps.member name (entryText numbers entry) ++ [','])
        entries := by
  rw [found, bareKeys, hbare]
  split_ifs with hends
  · simp [hends]
  · simp [hends, found]

abbrev entriesTail (entries : List (String × Entry)) : List Char :=
  Dumps.membersTail (entries.map fun m => (m.1, entryText numbers m.2))

abbrev scan (consumer : String) (before text : List Char) : List Char :=
  (after ordinalIgnoreCase (opening consumer) closing before text).elim [] upToQuote

variable {numbers}

theorem scan_member {consumer : String} {entries : List (String × Entry)}
    (hplain : ∀ tier, fields.tier = some tier → Dumps.Plain tier)
    (htail : ∀ before, scan consumer before (entriesTail numbers entries) =
      (found numbers consumer (before ++ [',']) entries).elim [] String.toList)
    (name : String) (before : List Char) :
    scan consumer before (Dumps.member name (entryText numbers (bundleEntry fields)) ++
        entriesTail numbers entries) =
      (found numbers consumer before ((name, bundleEntry fields) :: entries)).elim []
        String.toList := by
  have hend : Ended (entriesTail numbers entries) := by
    simpa using ended_membersTail (entries.map fun m => (m.1, entryText numbers m.2)) []
  cases hbare : bareTier (bundleEntry fields) with
  | none =>
    rw [found_of_none numbers _ _ _ _ hbare, scan, passes_entry name hend hbare]
    exact htail _
  | some tier =>
    rw [found_of_bare numbers _ _ _ _ hbare, scan, after_bare name before hbare]
    split_ifs with hends
    · exact upToQuote_escape (hplain tier (bareTier_eq_some hbare)) _
    · exact htail _

theorem scan_entriesTail (numbers : NumberText) (consumer : String)
    {entries : List (String × Entry)}
    (hwritten : Written entries) (before : List Char) :
    scan consumer before (entriesTail numbers entries) =
      (found numbers consumer (before ++ [',']) entries).elim [] String.toList := by
  induction entries generalizing before with
  | nil => rfl
  | cons m entries ih =>
    obtain ⟨name, entry⟩ := m
    obtain ⟨fields, hentry, hplain⟩ := hwritten _ List.mem_cons_self
    obtain rfl : entry = bundleEntry fields := hentry
    have hrest := ih fun m hm => hwritten m (List.mem_cons_of_mem _ hm)
    have hcomma : Passes [','] (Dumps.member name (entryText numbers (bundleEntry fields)) ++
        entriesTail numbers entries) := passes_of_quote_not_mem _ (by decide) _
    rw [← scan_member hplain hrest name, scan, scan, ← hcomma]
    rfl

theorem scan_object (consumer : String) {entries : List (String × Entry)}
    (hwritten : Written entries) :
    scan consumer [] (Dumps.object (entries.map fun m => (m.1, entryText numbers m.2))) =
      (found numbers consumer ['\x7b'] entries).elim [] String.toList := by
  cases entries with
  | nil => rfl
  | cons m entries =>
    obtain ⟨name, entry⟩ := m
    obtain ⟨fields, hentry, hplain⟩ := hwritten _ List.mem_cons_self
    obtain rfl : entry = bundleEntry fields := hentry
    have hrest := scan_entriesTail numbers consumer fun m hm =>
      hwritten m (List.mem_cons_of_mem _ hm)
    have hbrace : Passes ['\x7b'] (Dumps.member name (entryText numbers (bundleEntry fields)) ++
        entriesTail numbers entries) := passes_of_quote_not_mem _ (by decide) _
    rw [← scan_member hplain hrest name, scan, scan, ← List.nil_append ['\x7b'], ← hbrace]
    rfl

theorem mem_bareKeys {entries : List (String × Entry)} {before : List Char}
    {key : List Char × String} (h : key ∈ bareKeys numbers before entries) :
    ∃ m ∈ entries, bareTier m.2 = some key.2 := by
  induction entries generalizing before with
  | nil => cases h
  | cons m entries ih =>
    obtain hkey | hrest := List.mem_append.mp h
    · obtain ⟨tier, htier, rfl⟩ := Option.map_eq_some_iff.mp (Option.mem_toList.mp hkey)
      exact ⟨m, List.mem_cons_self, htier⟩
    · obtain ⟨m, hm, hbare⟩ := ih hrest
      exact ⟨m, List.mem_cons_of_mem _ hm, hbare⟩

theorem found_eq_findSome {consumer : String} {keyed : String → Bool}
    {entries : List (String × Entry)} (hkeyed : ∀ m ∈ entries, ∀ before,
      endsWith ordinalIgnoreCase (opening consumer) (before ++ '"' :: Dumps.escape m.1) = keyed m.1)
    (before : List Char) :
    found numbers consumer before entries =
      entries.findSome? fun m => if keyed m.1 then bareTier m.2 else none := by
  induction entries generalizing before with
  | nil => rfl
  | cons m entries ih =>
    have hrest := ih fun m hm => hkeyed m (List.mem_cons_of_mem _ hm)
    rw [List.findSome?_cons]
    cases hbare : bareTier m.2 with
    | none =>
      rw [found_of_none numbers _ _ _ _ hbare, hrest]
      simp
    | some tier =>
      rw [found_of_bare numbers _ _ _ _ hbare, hkeyed m List.mem_cons_self, hrest]
      cases keyed m.1 <;> simp

end Entry

end TierKey

end Gateway
