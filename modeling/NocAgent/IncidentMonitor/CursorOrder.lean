import NocAgent.IncidentMonitor.Overlap
import NocAgent.Library.IsoText

namespace IncidentMonitor
open Calendar

-- A naive datetime has no offset.
inductive Timestamp
  | datetime (wall : DateTime) (utcoffset : Option Offset)
  | text (value : String)

def parsed : Timestamp → Option (DateTime × Option Offset)
  | .datetime wall utcoffset => some (wall, utcoffset)
  | .text value => fromisoformat (Text.replace ['Z'] zeroOffset value.toList)

-- `none` where the code raises: on a text that is no date, on a result beyond the calendar.
def asUtc (value : Timestamp) : Option DateTime := do
  let (wall, utcoffset) ← parsed value
  DateTime.ofMicros (wall.micros - (utcoffset.getD .utc).micros)

def iso (value : Timestamp) : Option String :=
  (asUtc value).map fun utc =>
    String.ofList (Text.replace zeroOffset ['Z'] (isoformat utc))

def Cursor.fromEvent (timestamp : Timestamp) (incidentId : String) : Option Cursor :=
  (iso timestamp).map fun text => ⟨text, incidentId⟩

def Timestamp.Denotes : Timestamp → ℤ → Prop
  | .datetime wall utcoffset, t => t = wall.micros - (utcoffset.getD .utc).micros
  | .text value, t =>
    ∃ wall offset, Written wall offset value.toList ∧ t = wall.micros - offset.micros

def InRange (t : ℤ) : Prop := ∃ utc : DateTime, (utc.micros : ℤ) = t

def cursorAt (utc : DateTime) (incidentId : String) : Cursor :=
  ⟨String.ofList (zuluText utc), incidentId⟩

section Order
variable {timestamp : Timestamp} {t : ℤ}

theorem parsed_denotes (h : timestamp.Denotes t) :
    ∃ wall utcoffset, parsed timestamp = some (wall, utcoffset) ∧
      t = wall.micros - (utcoffset.getD .utc).micros := by
  cases timestamp with
  | datetime wall utcoffset => exact ⟨wall, utcoffset, rfl, h⟩
  | text value =>
    obtain ⟨wall, offset, hwritten, ht⟩ := h
    exact ⟨wall, some offset, fromisoformat_written hwritten, ht⟩

theorem asUtc_denotes (h : timestamp.Denotes t) {utc : DateTime} :
    asUtc timestamp = some utc ↔ (utc.micros : ℤ) = t := by
  obtain ⟨wall, utcoffset, hparsed, ht⟩ := parsed_denotes h
  simp only [asUtc, hparsed, Option.bind_eq_bind, Option.bind_some]
  rw [← ht, DateTime.ofMicros_eq_some_iff]

theorem fromEvent_denotes (h : timestamp.Denotes t) {utc : DateTime} (hutc : (utc.micros : ℤ) = t)
    (incidentId : String) :
    Cursor.fromEvent timestamp incidentId = some (cursorAt utc incidentId) := by
  rw [Cursor.fromEvent, iso, (asUtc_denotes h).mpr hutc]
  rfl

theorem Cursor.lt_iff {c c' : Cursor} : c < c' ↔
    c.timestamp < c'.timestamp ∨ c.timestamp = c'.timestamp ∧ c.incidentId < c'.incidentId :=
  Prod.Lex.toLex_lt_toLex

theorem timestamp_lt_iff {utc utc' : DateTime} {i i' : String} :
    (cursorAt utc i).timestamp < (cursorAt utc' i').timestamp ↔ utc.micros < utc'.micros := by
  rw [String.lt_iff_toList_lt, ← zuluText_lt_iff]
  simp only [cursorAt, String.toList_ofList]

theorem timestamp_inj {utc utc' : DateTime} {i i' : String} :
    (cursorAt utc i).timestamp = (cursorAt utc' i').timestamp ↔ utc = utc' := by
  rw [← zuluText_inj]
  exact String.ofList_inj

section CursorAt
variable {utc utc' : DateTime} {i i' : String}

theorem cursorAt_lt_iff : cursorAt utc i < cursorAt utc' i' ↔
    toLex ((utc.micros : ℤ), i) < toLex ((utc'.micros : ℤ), i') := by
  rw [Cursor.lt_iff, Prod.Lex.toLex_lt_toLex, timestamp_lt_iff, timestamp_inj, Nat.cast_lt,
    Nat.cast_inj, DateTime.micros_injective.eq_iff]
  rfl

theorem cursorAt_inj : cursorAt utc i = cursorAt utc' i' ↔
    toLex ((utc.micros : ℤ), i) = toLex ((utc'.micros : ℤ), i') := by
  rw [Cursor.mk.injEq, toLex_inj, Prod.mk.injEq, Nat.cast_inj, DateTime.micros_injective.eq_iff]
  exact and_congr timestamp_inj Iff.rfl

theorem cursorAt_le_iff : cursorAt utc i ≤ cursorAt utc' i' ↔
    toLex ((utc.micros : ℤ), i) ≤ toLex ((utc'.micros : ℤ), i') := by
  rw [le_iff_lt_or_eq, le_iff_lt_or_eq, cursorAt_lt_iff, cursorAt_inj]

end CursorAt

end Order

theorem cursor_order_is_chronological (timestamp timestamp' : Timestamp) (t t' : ℤ)
    (incidentId incidentId' : String) (h : timestamp.Denotes t) (h' : timestamp'.Denotes t')
    (hrange : InRange t) (hrange' : InRange t') :
    ∃ c c', Cursor.fromEvent timestamp incidentId = some c ∧
      Cursor.fromEvent timestamp' incidentId' = some c' ∧
      (c < c' ↔ toLex (t, incidentId) < toLex (t', incidentId')) ∧
      (c ≤ c' ↔ toLex (t, incidentId) ≤ toLex (t', incidentId')) ∧
      (c = c' ↔ toLex (t, incidentId) = toLex (t', incidentId')) ∧
      (c.timestamp = c'.timestamp ↔ t = t') := by
  obtain ⟨utc, rfl⟩ := hrange
  obtain ⟨utc', rfl⟩ := hrange'
  refine ⟨_, _, fromEvent_denotes h rfl incidentId, fromEvent_denotes h' rfl incidentId',
    cursorAt_lt_iff, cursorAt_le_iff, cursorAt_inj, ?_⟩
  rw [timestamp_inj, Nat.cast_inj, DateTime.micros_injective.eq_iff]

section Example

def halfPastMidnight : DateTime := ⟨⟨2026, 1, 1, by decide⟩, ⟨0, 30, 0, 0, by decide⟩⟩

def inCentralEurope : Timestamp :=
  .datetime ⟨⟨2026, 1, 1, by decide⟩, ⟨1, 30, 0, 0, by decide⟩⟩ (some ⟨3600000000, by decide⟩)

def inNewYork : Timestamp := .text "2025-12-31T19:30:00-05:00"

theorem inCentralEurope_denotes : inCentralEurope.Denotes halfPastMidnight.micros := by
  change (halfPastMidnight.micros : ℤ) = _ - _
  decide +kernel

theorem inNewYork_denotes : inNewYork.Denotes halfPastMidnight.micros := by
  refine ⟨⟨⟨2025, 12, 31, by decide⟩, ⟨19, 30, 0, 0, by decide⟩⟩, ⟨-18000000000, by decide⟩,
    ⟨'T', ['1', '9', ':', '3', '0', ':', '0', '0'], ['-', '0', '5', ':', '0', '0'], ?_, by decide,
      .second rfl, ?_⟩, ?_⟩
  · decide +kernel
  · have hfive : Clock.Written ⟨5, 0, 0, 0, by decide⟩ ['0', '5', ':', '0', '0'] := .minute rfl rfl
    exact .minus (by decide +kernel) hfive
  · decide +kernel

theorem cursor_order_across_offsets :
    ∃ c c', Cursor.fromEvent inCentralEurope "INC-1" = some c ∧
      Cursor.fromEvent inNewYork "INC-2" = some c' ∧ c < c' ∧ c.timestamp = c'.timestamp := by
  obtain ⟨c, c', hc, hc', hlt, -, -, hsame⟩ :=
    cursor_order_is_chronological inCentralEurope inNewYork halfPastMidnight.micros
      halfPastMidnight.micros "INC-1" "INC-2" inCentralEurope_denotes inNewYork_denotes
      ⟨_, rfl⟩ ⟨_, rfl⟩
  exact ⟨c, c', hc, hc', hlt.mpr (by decide +kernel), hsame.mpr rfl⟩

end Example

section Monitor

-- A text that is no date is left alone here, where the code raises.
def isoText (timestamp : String) : String := (iso (.text timestamp)).getD timestamp

def instant (timestamp : String) : ℤ := ((asUtc (.text timestamp)).map DateTime.micros).getD 0

theorem asUtc_zuluText (utc : DateTime) :
    asUtc (.text (String.ofList (zuluText utc))) = some utc := by
  have hwritten : Written utc .utc (String.ofList (zuluText utc)).toList := by
    rw [String.toList_ofList]
    exact written_zuluText utc
  have hdenotes : Timestamp.Denotes (.text (.ofList (zuluText utc))) utc.micros :=
    ⟨utc, .utc, hwritten, (sub_zero _).symm⟩
  exact (asUtc_denotes hdenotes).mpr rfl

theorem asUtc_isoText (timestamp : String) :
    asUtc (.text (isoText timestamp)) = asUtc (.text timestamp) := by
  rw [isoText, iso]
  cases hutc : asUtc (.text timestamp) with
  | none => exact hutc
  | some utc => exact asUtc_zuluText utc

def utcMonitor (config : MonitorConfig) : PollingMonitor where
  config := config
  iso := isoText
  asUtc := instant
  asUtc_iso timestamp := by rw [instant, asUtc_isoText, instant]

theorem rowKey_denotes (config : MonitorConfig) {event : Event} {utc : DateTime}
    (h : Timestamp.Denotes (.text event.timestamp) utc.micros) :
    (utcMonitor config).rowKey event = toLex ((utc.micros : ℤ), event.incidentId) := by
  change toLex (instant event.timestamp, event.incidentId) = _
  rw [instant, (asUtc_denotes h).mpr rfl, Option.map_some, Option.getD_some]

theorem utcMonitor_fromEvent (config : MonitorConfig) {event : Event} {utc : DateTime}
    (h : Timestamp.Denotes (.text event.timestamp) utc.micros) :
    (utcMonitor config).fromEvent event = cursorAt utc event.incidentId := by
  change Cursor.mk (isoText event.timestamp) event.incidentId = _
  rw [isoText, iso, (asUtc_denotes h).mpr rfl]
  rfl

theorem utcMonitor_fromEvent_le_iff (config : MonitorConfig) {event event' : Event}
    {utc utc' : DateTime} (h : Timestamp.Denotes (.text event.timestamp) utc.micros)
    (h' : Timestamp.Denotes (.text event'.timestamp) utc'.micros) :
    (utcMonitor config).fromEvent event ≤ (utcMonitor config).fromEvent event' ↔
      (utcMonitor config).rowKey event ≤ (utcMonitor config).rowKey event' := by
  rw [utcMonitor_fromEvent config h, utcMonitor_fromEvent config h', rowKey_denotes config h,
    rowKey_denotes config h', cursorAt_le_iff]

end Monitor

end IncidentMonitor
