import NocAgent.Library.Text
import NocAgent.Pricing.WorkerSync

namespace Pricing
open Fallible HalfEven Text

-- A pattern is the text between its two word boundaries.
structure MeterRule where
  model : String
  kind : String
  patterns : List String
deriving DecidableEq

def modelRules : List MeterRule :=
  [⟨"gpt-5.4", "prompt", ["5.4 inp gl", "gpt 5 inpt glbl", "gpt 5 inpt dzone"]⟩,
    ⟨"gpt-5.4", "completion",
      ["5.4 opt gl", "gpt 5 outpt glbl", "gpt 5 outpt dzone", "5.4 opt dz"]⟩,
    ⟨"gpt-5.4-mini", "prompt",
      ["5.4 mini inp gl", "gpt 5 mini inpt glbl", "gpt 5 mini inpt dzone"]⟩,
    ⟨"gpt-5.4-mini", "completion",
      ["5.4 mini opt gl", "gpt 5 mini outpt glbl", "gpt 5 mini outpt dzone", "5.4 mini opt dz"]⟩,
    ⟨"grok-4.3", "prompt", ["4.3 inp glbl", "4.3 inp dz", "4.3 inp glbl l", "4.3 inp dz l"]⟩,
    ⟨"grok-4.3", "completion", ["4.3 outp glbl", "4.3 outp dz", "4.3 outp dz l"]⟩,
    ⟨"DeepSeek-V4-Pro", "prompt",
      ["v4 pro inp glbl", "v4 pro inp dz", "fw deepseek-v4-pro ch inp dz"]⟩,
    ⟨"DeepSeek-V4-Pro", "completion",
      ["v4 pro outp glbl", "v4 pro outp dz", "fw deepseek-v4-pro outp dz"]⟩]

structure RetailItem where
  productName : Option String := none
  skuName : Option String := none
  meterName : Option String := none
  armSkuName : Option String := none
  unitOfMeasure : Option String := none
  retailPrice : Option ℚ := none
deriving DecidableEq

-- What a price list is read with: a price for 1K tokens and one for 1M are rounded as floats are.
structure Reading extends Unicode where
  perThousand : ℚ → ℚ
  perMillion : ℚ → ℚ

-- The unit's letters are ASCII, which no other letter turns into in upper case.
def normalizeUnitPrice (u : Reading) (retailPrice : ℚ) (unitOfMeasure : String) :
    Except FetchFault ℚ :=
  let unit := (u.strip unitOfMeasure.toList).map Char.toUpper
  if unit = "1K".toList then pure (u.perThousand retailPrice)
  else if unit = "1M".toList then pure (u.perMillion retailPrice)
  else throw (.lookupOrValue ("unrecognized unit_of_measure '" ++ unitOfMeasure ++ "'"))

def meterText (u : Reading) (item : RetailItem) : String :=
  u.lower (" ".intercalate
    ([item.productName, item.skuName, item.meterName, item.armSkuName].map (·.getD "")))

def isTokenMeter (u : Reading) (item : RetailItem) : Bool :=
  decide ("token".toList <:+: (meterText u item).toList)

def searchPattern (u : Reading) (pattern : String) (item : RetailItem) : Bool :=
  wordSearch u.isWord pattern.toList none (meterText u item).toList

def itemRate (u : Reading) (item : RetailItem) : Except FetchFault ℚ :=
  match item.retailPrice with
  | none => throw (.lookupOrValue "'retailPrice'")
  | some retailPrice => normalizeUnitPrice u retailPrice (item.unitOfMeasure.getD "")

def pickRate (u : Reading) (items : List RetailItem) (rule : MeterRule) : Except FetchFault ℚ :=
  let tokenItems := items.filter (isTokenMeter u)
  match rule.patterns.findSome? fun pattern => tokenItems.find? (searchPattern u pattern) with
  | some item => itemRate u item
  | none => throw (.lookupOrValue ("missing " ++ rule.kind ++ " meter for " ++ rule.model))

def setRate (out : Dict (Dict ℚ)) (rule : MeterRule) (rate : ℚ) : Dict (Dict ℚ) :=
  out.insert rule.model (((out.lookup rule.model).getD ∅).insert rule.kind rate)

def extractRates (u : Reading) (items : List RetailItem) :
    List MeterRule → Dict (Dict ℚ) → Except FetchFault (Dict (Dict ℚ))
  | [], out => pure out
  | rule :: rules, out => do
    let rate ← pickRate u items rule
    extractRates u items rules (setRate out rule rate)

def extractModelPrices (u : Reading) (items : List RetailItem) :
    Except FetchFault (Dict (Dict ℚ)) :=
  extractRates u items modelRules ∅

structure Page where
  items : List RetailItem
  nextPageLink : Option String

-- The pages as the service answers one link after the other.
def fetchRetailItems : List Page → List RetailItem
  | [] => []
  | page :: pages =>
    page.items ++ if given page.nextPageLink = none then [] else fetchRetailItems pages

def fetchModelPricing (u : Reading) (pages : List Page) : Except FetchFault (Dict (Dict ℚ)) :=
  extractModelPrices u (fetchRetailItems pages)

def SameOutcome {ε α : Type} (x y : Except ε α) : Prop :=
  (∃ a, x = .ok a ∧ y = .ok a) ∨ (∃ e, x = .error e) ∧ ∃ e, y = .error e

def OrderFree (u : Reading) (items : List RetailItem) : Prop :=
  ∀ items', items'.Perm items →
    SameOutcome (extractModelPrices u items) (extractModelPrices u items')

-- Found by the first of the rule's patterns that finds any token meter at all.
def competes (u : Reading) (items : List RetailItem) (rule : MeterRule) (item : RetailItem) :
    Bool :=
  match rule.patterns.find? fun pattern =>
    (items.filter (isTokenMeter u)).any (searchPattern u pattern) with
  | some pattern => isTokenMeter u item && searchPattern u pattern item
  | none => false

def candidates (u : Reading) (items : List RetailItem) (rule : MeterRule) : List RetailItem :=
  items.filter (competes u items rule)

def HasRate (u : Reading) (items : List RetailItem) (rule : MeterRule) : Prop :=
  ∃ item ∈ candidates u items rule, ∃ rate, itemRate u item = .ok rate

def OneRate (u : Reading) (items : List RetailItem) (rule : MeterRule) : Prop :=
  ∃ rate, ∀ item ∈ candidates u items rule, itemRate u item = .ok rate

def Unambiguous (u : Reading) (items : List RetailItem) : Prop :=
  (∃ rule ∈ modelRules, ¬ HasRate u items rule) ∨ ∀ rule ∈ modelRules, OneRate u items rule

section Extract
variable {u : Reading} {items items' : List RetailItem} {rule : MeterRule}
  {rules : List MeterRule} {out table : Dict (Dict ℚ)}

def rateIn (table : Dict (Dict ℚ)) (rule : MeterRule) : Option ℚ :=
  (table.lookup rule.model).bind (·.lookup rule.kind)

theorem findSome?_find? {α β : Type} (f : α → β → Bool) (xs : List α) (ys : List β) :
    (xs.findSome? fun x => ys.find? (f x)) =
      (xs.find? fun x => ys.any (f x)).bind fun x => ys.find? (f x) := by
  induction xs with
  | nil => rfl
  | cons x xs ih =>
    rw [List.findSome?_cons, List.find?_cons]
    cases hfind : ys.find? (f x) with
    | none =>
      have hany : ys.any (f x) = false := by
        rw [List.any_eq_false]
        exact List.find?_eq_none.mp hfind
      simp only [hany, ih]
    | some y =>
      have hany : ys.any (f x) = true :=
        List.any_eq_true.mpr ⟨y, List.mem_of_find?_eq_some hfind, List.find?_some hfind⟩
      simp only [hany, Option.bind_some, hfind]

theorem pickRate_eq (u : Reading) (items : List RetailItem) (rule : MeterRule) :
    pickRate u items rule =
      match (candidates u items rule).head? with
      | some item => itemRate u item
      | none =>
        .error (.lookupOrValue ("missing " ++ rule.kind ++ " meter for " ++ rule.model)) := by
  have hhead : (rule.patterns.findSome? fun pattern =>
      (items.filter (isTokenMeter u)).find? (searchPattern u pattern)) =
        (candidates u items rule).head? := by
    rw [findSome?_find?, candidates, List.head?_filter]
    unfold competes
    cases rule.patterns.find? fun pattern =>
      (items.filter (isTokenMeter u)).any (searchPattern u pattern) with
    | none => exact (List.find?_eq_none.mpr fun item _ => Bool.false_ne_true).symm
    | some pattern => simp only [Option.bind_some, List.find?_filter, Bool.decide_and,
        Bool.decide_eq_true]
  simp only [pickRate, hhead]
  rfl

theorem competes_perm (h : items'.Perm items) (rule : MeterRule) :
    competes u items' rule = competes u items rule := by
  have hany : ∀ f : RetailItem → Bool, (items'.filter (isTokenMeter u)).any f =
      (items.filter (isTokenMeter u)).any f := fun f => by
    rw [Bool.eq_iff_iff, List.any_eq_true, List.any_eq_true]
    exact exists_congr fun item => and_congr_left fun _ => (h.filter _).mem_iff
  funext item
  simp only [competes, hany]

theorem candidates_of_perm (h : items'.Perm items) (rule : MeterRule) :
    candidates u items' rule = items'.filter (competes u items rule) := by
  rw [candidates, competes_perm h]

theorem candidates_perm (h : items'.Perm items) (rule : MeterRule) :
    (candidates u items' rule).Perm (candidates u items rule) := by
  rw [candidates_of_perm h]
  exact h.filter _

theorem pickRate_of_oneRate {rate : ℚ} (hsome : candidates u items rule ≠ [])
    (h : ∀ item ∈ candidates u items rule, itemRate u item = .ok rate) :
    pickRate u items rule = .ok rate := by
  rw [pickRate_eq]
  cases hhead : (candidates u items rule).head? with
  | none => exact absurd (List.head?_eq_none_iff.mp hhead) hsome
  | some item => exact h item (List.mem_of_head? hhead)

theorem pickRate_of_not_hasRate (h : ¬ HasRate u items rule) :
    ∃ e, pickRate u items rule = .error e := by
  rw [pickRate_eq]
  cases hhead : (candidates u items rule).head? with
  | none => exact ⟨_, rfl⟩
  | some item =>
    cases hrate : itemRate u item with
    | error e => exact ⟨e, hrate⟩
    | ok rate => exact absurd ⟨item, List.mem_of_head? hhead, rate, hrate⟩ h

theorem extractRates_congr (h : ∀ rule ∈ rules, pickRate u items rule = pickRate u items' rule) :
    extractRates u items rules out = extractRates u items' rules out := by
  induction rules generalizing out with
  | nil => rfl
  | cons rule rules ih =>
    rw [extractRates, extractRates, h rule List.mem_cons_self]
    refine congrArg _ (funext fun rate => ih fun rule hrule => ?_)
    exact h rule (List.mem_cons_of_mem _ hrule)

theorem extractRates_error (hrule : rule ∈ rules) {e : FetchFault}
    (h : pickRate u items rule = .error e) : ∃ e, extractRates u items rules out = .error e := by
  induction rules generalizing out with
  | nil => cases hrule
  | cons first rules ih =>
    rw [extractRates]
    cases hfirst : pickRate u items first with
    | error e' => exact ⟨e', rfl⟩
    | ok rate =>
      rcases List.mem_cons.mp hrule with rfl | hrule
      · rw [h] at hfirst
        cases hfirst
      · exact ih hrule

theorem extractRates_ok (out : Dict (Dict ℚ))
    (h : ∀ rule ∈ rules, ∃ rate, pickRate u items rule = .ok rate) :
    ∃ table, extractRates u items rules out = .ok table := by
  induction rules generalizing out with
  | nil => exact ⟨out, rfl⟩
  | cons rule rules ih =>
    obtain ⟨rate, hrate⟩ := h rule List.mem_cons_self
    rw [extractRates, hrate]
    exact ih _ fun rule hrule => h rule (List.mem_cons_of_mem _ hrule)

theorem rateIn_setRate (out : Dict (Dict ℚ)) (rule other : MeterRule) (rate : ℚ) :
    rateIn (setRate out rule rate) other =
      if other.model = rule.model ∧ other.kind = rule.kind then some rate
      else rateIn out other := by
  rw [rateIn, rateIn, setRate, Dict.lookup_insert_eq]
  by_cases hmodel : other.model = rule.model
  · rw [if_pos hmodel, Option.bind_some, Dict.lookup_insert_eq, hmodel]
    split_ifs with hkind hboth hboth
    · rfl
    · exact absurd ⟨rfl, hkind⟩ hboth
    · exact absurd hboth.2 hkind
    · cases out.lookup rule.model with
      | none => exact AList.lookup_empty _
      | some rates => rfl
  · rw [if_neg hmodel, if_neg fun h => hmodel h.1]

theorem rateIn_extractRates_of_not_mem {other : MeterRule}
    (hother : ∀ rule ∈ rules, ¬ (other.model = rule.model ∧ other.kind = rule.kind))
    (h : extractRates u items rules out = .ok table) : rateIn table other = rateIn out other := by
  induction rules generalizing out with
  | nil =>
    cases h
    rfl
  | cons rule rules ih =>
    obtain ⟨rate, -, h⟩ := ok_of_bind h
    rw [ih (fun rule hrule => hother rule (List.mem_cons_of_mem _ hrule)) h, rateIn_setRate,
      if_neg (hother rule List.mem_cons_self)]

theorem rateIn_extractRates
    (hrules : rules.Pairwise fun rule rule' =>
      ¬ (rule.model = rule'.model ∧ rule.kind = rule'.kind))
    (h : extractRates u items rules out = .ok table) (hrule : rule ∈ rules) :
    ∃ rate, pickRate u items rule = .ok rate ∧ rateIn table rule = some rate := by
  induction rules generalizing out with
  | nil => cases hrule
  | cons first rules ih =>
    obtain ⟨rate, hrate, h⟩ := ok_of_bind h
    rw [List.pairwise_cons] at hrules
    rcases List.mem_cons.mp hrule with rfl | hrule
    · refine ⟨rate, hrate, ?_⟩
      rw [rateIn_extractRates_of_not_mem hrules.1 h, rateIn_setRate, if_pos ⟨rfl, rfl⟩]
    · exact ih hrules.2 h hrule

theorem modelRules_pairwise : modelRules.Pairwise fun rule rule' =>
    ¬ (rule.model = rule'.model ∧ rule.kind = rule'.kind) := by
  decide +kernel

def quotes (u : Reading) (item : RetailItem) : Bool := (itemRate u item).isOk

theorem quotes_iff {item : RetailItem} :
    quotes u item = true ↔ ∃ rate, itemRate u item = .ok rate := by
  rw [quotes]
  cases itemRate u item with
  | error e => exact iff_of_false Bool.false_ne_true fun ⟨rate, hrate⟩ => by cases hrate
  | ok rate => exact iff_of_true rfl ⟨rate, rfl⟩

def quotesFirst (u : Reading) (items : List RetailItem) : List RetailItem :=
  items.filter (quotes u) ++ items.filter fun item => !quotes u item

theorem quotesFirst_perm (u : Reading) (items : List RetailItem) :
    (quotesFirst u items).Perm items := List.filter_append_perm _ _

theorem pickRate_quotesFirst (h : HasRate u items rule) :
    ∃ rate, pickRate u (quotesFirst u items) rule = .ok rate := by
  obtain ⟨item, hitem, hquotes⟩ := h
  have hfront : item ∈ (items.filter (quotes u)).filter (competes u items rule) :=
    List.mem_filter.mpr ⟨List.mem_filter.mpr ⟨List.mem_of_mem_filter hitem,
      quotes_iff.mpr hquotes⟩, (List.mem_filter.mp hitem).2⟩
  rw [pickRate_eq, candidates_of_perm (quotesFirst_perm u items), quotesFirst, List.filter_append]
  cases hhead : ((items.filter (quotes u)).filter (competes u items rule)).head? with
  | none =>
    rw [List.head?_eq_none_iff.mp hhead] at hfront
    cases hfront
  | some first =>
    obtain ⟨rate, hrate⟩ := quotes_iff.mp
      (List.mem_filter.mp (List.mem_of_mem_filter (List.mem_of_head? hhead))).2
    rw [List.head?_append, hhead, Option.some_or]
    exact ⟨rate, hrate⟩

theorem pickRate_cons_erase {item : RetailItem} (h : item ∈ candidates u items rule) :
    pickRate u (item :: items.erase item) rule = itemRate u item := by
  obtain ⟨hmem, hcompetes⟩ := List.mem_filter.mp h
  rw [pickRate_eq, candidates_of_perm (List.perm_cons_erase hmem).symm,
    List.filter_cons_of_pos hcompetes]
  rfl

theorem HasRate.perm (h : items'.Perm items) (hrate : HasRate u items' rule) :
    HasRate u items rule := by
  obtain ⟨item, hitem, hquotes⟩ := hrate
  exact ⟨item, (candidates_perm h rule).mem_iff.mp hitem, hquotes⟩

theorem extract_error_of_not_hasRate (hrule : rule ∈ modelRules) (h : ¬ HasRate u items rule) :
    ∃ e, extractModelPrices u items = .error e := by
  obtain ⟨e, he⟩ := pickRate_of_not_hasRate h
  exact extractRates_error hrule he

theorem orderFree_of_unambiguous (h : Unambiguous u items) : OrderFree u items := by
  intro items' hperm
  by_cases hrates : ∀ rule ∈ modelRules, HasRate u items rule
  · rcases h with ⟨rule, hrule, hnone⟩ | hone
    · exact absurd (hrates rule hrule) hnone
    · have hpick : ∀ rule ∈ modelRules, ∃ rate, pickRate u items rule = .ok rate ∧
          pickRate u items' rule = .ok rate := by
        intro rule hrule
        obtain ⟨rate, hrate⟩ := hone rule hrule
        obtain ⟨item, hitem, -⟩ := hrates rule hrule
        have hmem := fun item => (candidates_perm (u := u) hperm rule).mem_iff (a := item)
        exact ⟨rate, pickRate_of_oneRate (List.ne_nil_of_mem hitem) hrate,
          pickRate_of_oneRate (List.ne_nil_of_mem ((hmem item).mpr hitem))
            fun item hitem => hrate item ((hmem item).mp hitem)⟩
      obtain ⟨table, htable⟩ := extractRates_ok ∅ fun rule hrule =>
        (hpick rule hrule).imp fun _ => And.left
      refine .inl ⟨table, htable, ?_⟩
      rw [← htable]
      refine (extractRates_congr fun rule hrule => ?_).symm
      obtain ⟨rate, hrate, hrate'⟩ := hpick rule hrule
      rw [hrate, hrate']
  · rw [not_forall] at hrates
    obtain ⟨rule, hrule⟩ := hrates
    rw [not_forall] at hrule
    obtain ⟨hrule, hnone⟩ := hrule
    exact .inr ⟨extract_error_of_not_hasRate hrule hnone,
      extract_error_of_not_hasRate hrule fun hrate => hnone (hrate.perm hperm)⟩

theorem SameOutcome.symm {ε α : Type} {x y : Except ε α} (h : SameOutcome x y) :
    SameOutcome y x := by
  rcases h with ⟨a, hx, hy⟩ | ⟨hx, hy⟩
  · exact .inl ⟨a, hy, hx⟩
  · exact .inr ⟨hy, hx⟩

theorem SameOutcome.eq_of_ok {ε α : Type} {x y : Except ε α} (h : SameOutcome x y) {a : α}
    (hy : y = .ok a) : x = .ok a := by
  rcases h with ⟨b, hx, hb⟩ | ⟨-, e, he⟩
  · rw [hx, ← hb, hy]
  · rw [hy] at he
    cases he

theorem unambiguous_of_orderFree (h : OrderFree u items) : Unambiguous u items := by
  by_cases hrates : ∀ rule ∈ modelRules, HasRate u items rule
  · refine .inr fun rule hrule => ?_
    obtain ⟨table, htable⟩ := extractRates_ok ∅ fun rule hrule =>
      pickRate_quotesFirst (hrates rule hrule)
    have hitems := (h _ (quotesFirst_perm u items)).eq_of_ok htable
    obtain ⟨rate, -, hrate⟩ := rateIn_extractRates modelRules_pairwise hitems hrule
    refine ⟨rate, fun item hitem => ?_⟩
    have hperm := (List.perm_cons_erase (List.mem_of_mem_filter hitem)).symm
    have hfirst := (h _ hperm).symm.eq_of_ok hitems
    obtain ⟨rate', hpick, hrate'⟩ := rateIn_extractRates modelRules_pairwise hfirst hrule
    rw [hrate', Option.some.injEq] at hrate
    rw [← pickRate_cons_erase hitem, hpick, hrate]
  · rw [not_forall] at hrates
    obtain ⟨rule, hrule⟩ := hrates
    rw [not_forall] at hrule
    obtain ⟨hrule, hnone⟩ := hrule
    exact .inl ⟨rule, hrule, hnone⟩

end Extract

theorem order_free_iff (u : Reading) (items : List RetailItem) :
    OrderFree u items ↔ Unambiguous u items :=
  ⟨unambiguous_of_orderFree, orderFree_of_unambiguous⟩

-- A pattern for the long-context meter comes after one that finds this meter already.
theorem searchPattern_of_long (u : Reading) {pattern : String} {c : Char}
    (hlast : pattern.toList.getLast? = some c) (hascii : c.toNat < 128)
    (hword : c.isAlphanum = true) {item : RetailItem}
    (h : searchPattern u (pattern ++ " l") item = true) : searchPattern u pattern item = true := by
  have hc : u.isWord c = true := by rw [u.isWord_ascii c hascii, hword, Bool.true_or]
  have hspace : u.isWord ' ' = false := by rw [u.isWord_ascii ' ' (by decide)]; decide
  rw [searchPattern, String.toList_append] at h
  exact wordSearch_of_longer hlast hc hspace h

section Example

def exact : Reading :=
  { ascii with
    perThousand := roundTo 6
    perMillion := fun price => roundTo 6 (price / 1000) }

def meter (meterName : String) (retailPrice : ℚ) : RetailItem :=
  { meterName := some (meterName ++ " Tokens")
    unitOfMeasure := some "1K"
    retailPrice := some retailPrice }

def otherMeters : List RetailItem :=
  [meter "5.4 inp Gl" (25 / 10000), meter "5.4 opt Gl" (15 / 1000),
    meter "5.4 mini inp Gl" (75 / 100000), meter "5.4 mini opt Gl" (45 / 10000),
    meter "4.3 Outp glbl" (25 / 10000), meter "V4 Pro Inp glbl" (174 / 100000),
    meter "V4 Pro Outp glbl" (348 / 100000)]

def plainMeter : RetailItem := meter "4.3 Inp glbl" (125 / 100000)

def longMeter : RetailItem := meter "4.3 Inp glbl L" (25 / 10000)

def grokPrompt : MeterRule :=
  ⟨"grok-4.3", "prompt", ["4.3 inp glbl", "4.3 inp dz", "4.3 inp glbl l", "4.3 inp dz l"]⟩

theorem long_meter_first :
    (extractModelPrices exact (plainMeter :: longMeter :: otherMeters)).toOption.bind
        (rateIn · grokPrompt) = some (125 / 100000) ∧
      (extractModelPrices exact (longMeter :: plainMeter :: otherMeters)).toOption.bind
        (rateIn · grokPrompt) = some (25 / 10000) ∧
      ¬ ∀ u items, OrderFree u items := by
  have hplain : (extractModelPrices exact (plainMeter :: longMeter :: otherMeters)).toOption.bind
      (rateIn · grokPrompt) = some (125 / 100000) := by decide +kernel
  have hlong : (extractModelPrices exact (longMeter :: plainMeter :: otherMeters)).toOption.bind
      (rateIn · grokPrompt) = some (25 / 10000) := by decide +kernel
  refine ⟨hplain, hlong, fun hall => ?_⟩
  have hsame := hall exact _ _ (List.Perm.swap plainMeter longMeter otherMeters)
  rcases hsame with ⟨table, htable, htable'⟩ | ⟨⟨e, he⟩, -⟩
  · rw [htable] at hplain
    rw [htable', hplain] at hlong
    norm_num at hlong
  · rw [he] at hplain
    cases hplain

end Example

end Pricing
