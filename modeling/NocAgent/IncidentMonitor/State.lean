import Mathlib.Data.Prod.Lex
import Mathlib.Data.String.Basic
import Mathlib.Order.Basic

namespace IncidentMonitor

structure Cursor where
  timestamp : String
  incidentId : String
deriving DecidableEq, Repr

def Cursor.key (c : Cursor) : String ×ₗ String := toLex (c.timestamp, c.incidentId)

theorem Cursor.key_injective : Function.Injective Cursor.key := by
  rintro ⟨t, i⟩ ⟨t', i'⟩ h
  cases h
  rfl

instance : LinearOrder Cursor := LinearOrder.lift' Cursor.key Cursor.key_injective

structure Event where
  timestamp : String
  incidentId : String
  detail : String
deriving DecidableEq, Repr

structure Subscription where
  conversationId : String
  authorizedUserId : String
  authorizedUserName : String
deriving DecidableEq, Repr

structure Item where
  event : Event
  attempts : ℕ
deriving DecidableEq, Repr

structure DeadLetter where
  timestamp : String
  incidentId : String
  attempts : ℕ
  errorType : String
deriving DecidableEq, Repr

def DeadLetter.cursor (d : DeadLetter) : Cursor := ⟨d.timestamp, d.incidentId⟩

structure MonitorState where
  cursor : Option Cursor := none
  pending : List (String × Item) := []
  deadLetters : List DeadLetter := []
deriving DecidableEq, Repr

namespace MonitorState

def item? (state : MonitorState) (key : String) : Option Item :=
  (state.pending.find? (·.1 = key)).map (·.2)

def setItem (state : MonitorState) (key : String) (item : Item) : MonitorState :=
  if state.pending.any (·.1 = key) then
    { state with pending := state.pending.map fun p => if p.1 = key then (key, item) else p }
  else { state with pending := state.pending ++ [(key, item)] }

def delItem (state : MonitorState) (key : String) : MonitorState :=
  { state with pending := state.pending.filter (·.1 ≠ key) }

def setCursor (state : MonitorState) (cursor : Cursor) : MonitorState :=
  { state with cursor := some cursor }

def appendDeadLetter (state : MonitorState) (letter : DeadLetter) : MonitorState :=
  { state with deadLetters := state.deadLetters ++ [letter] }

section Single
variable {state : MonitorState} {key : String} {item : Item}

theorem item?_of_single (h : state.pending = [(key, item)]) : state.item? key = some item := by
  simp [item?, h]

theorem setItem_of_single (h : state.pending = [(key, item)]) (item' : Item) :
    state.setItem key item' = { state with pending := [(key, item')] } := by
  simp [setItem, h]

theorem setItem_of_nil (h : state.pending = []) (key : String) (item : Item) :
    state.setItem key item = { state with pending := [(key, item)] } := by
  simp [setItem, h]

theorem delItem_of_single (h : state.pending = [(key, item)]) :
    state.delItem key = { state with pending := [] } := by
  simp [delItem, h]

end Single

end MonitorState

structure MonitorConfig where
  batchSize : ℕ := 20
  maxAttempts : ℕ := 3
  batchSize_pos : 1 ≤ batchSize := by decide
  maxAttempts_pos : 1 ≤ maxAttempts := by decide

def base64Alphabet : List Char :=
  "ABCDEFGHIJKLMNOPQRSTUVWXYZabcdefghijklmnopqrstuvwxyz0123456789-_".toList

def base64Char (n : ℕ) : Char := base64Alphabet.getD n '='

def urlsafeB64encode : List ℕ → List Char
  | [] => []
  | [a] => [base64Char (a / 4), base64Char (a % 4 * 16), '=', '=']
  | [a, b] =>
    [base64Char (a / 4), base64Char (a % 4 * 16 + b / 16), base64Char (b % 16 * 4), '=']
  | a :: b :: c :: bytes =>
    base64Char (a / 4) :: base64Char (a % 4 * 16 + b / 16) :: base64Char (b % 16 * 4 + c / 64) ::
      base64Char (c % 64) :: urlsafeB64encode bytes

def pendingKey (c : Cursor) : String :=
  let bytes := (c.timestamp ++ "\n" ++ c.incidentId).toUTF8.toList.map UInt8.toNat
  String.ofList ((urlsafeB64encode bytes).reverse.dropWhile (· = '=')).reverse

-- `iso` is the normalisation of a timestamp to UTC text with six digits of fraction.
structure Monitor where
  config : MonitorConfig := {}
  iso : String → String

def Monitor.fromEvent (m : Monitor) (event : Event) : Cursor :=
  ⟨m.iso event.timestamp, event.incidentId⟩

def After (cursor : Option Cursor) (x : Cursor) : Prop := ∀ c ∈ cursor, c < x

instance (cursor : Option Cursor) (x : Cursor) : Decidable (After cursor x) :=
  inferInstanceAs (Decidable (∀ c ∈ cursor, c < x))

def Advances (earlier later : Option Cursor) : Prop := ∀ c ∈ earlier, ∃ c' ∈ later, c ≤ c'

theorem Advances.refl (cursor : Option Cursor) : Advances cursor cursor :=
  fun c hc => ⟨c, hc, le_rfl⟩

theorem Advances.trans {a b c : Option Cursor} (hab : Advances a b) (hbc : Advances b c) :
    Advances a c := by
  intro x hx
  obtain ⟨y, hy, hxy⟩ := hab x hx
  obtain ⟨z, hz, hyz⟩ := hbc y hy
  exact ⟨z, hz, hxy.trans hyz⟩

theorem After.of_advances {a b : Option Cursor} (hab : Advances a b) {x : Cursor}
    (hx : After b x) : After a x := by
  intro c hc
  obtain ⟨c', hc', hle⟩ := hab c hc
  exact hle.trans_lt (hx c' hc')

theorem After.advances {cursor : Option Cursor} {x : Cursor} (hx : After cursor x) :
    Advances cursor (some x) := fun c hc => ⟨x, rfl, (hx c hc).le⟩

theorem not_after_iff {cursor : Option Cursor} {x : Cursor} :
    ¬ After cursor x ↔ ∃ c ∈ cursor, x ≤ c := by
  simp only [After, not_forall, not_lt]
  exact ⟨fun ⟨c, hc, hle⟩ => ⟨c, hc, hle⟩, fun ⟨c, hc, hle⟩ => ⟨c, hc, hle⟩⟩

theorem after_some {c x : Cursor} : After (some c) x ↔ c < x := by
  simp [After]

end IncidentMonitor
