import NocAgent.Library.Keyspace
import Mathlib.Data.List.TakeDrop

namespace RunLedger

-- Integer fields stand for the decimal text that Redis keeps; the other fields are the text itself.
structure RunHash where
  budgetMicros : Option ℤ := none
  spendMicros : Option ℤ := none
  inflightMicros : Option ℤ := none
  halt : Option String := none
  haltReason : Option String := none
  steps : Option ℤ := none
  concurrent : Option ℤ := none
  steered : Option String := none
  policySet : Option String := none
  intent : Option String := none
  user : Option String := none
  team : Option String := none
  task : Option String := none
deriving DecidableEq, Repr

structure Reservation where
  runId : String
  reservedMicros : ℤ
  model : String
deriving DecidableEq, Repr

inductive Counter where
  | inflightMicros | concurrent | spendMicros
deriving DecidableEq, Repr

def toInt (value : Option ℤ) : ℤ := value.getD 0

def RunHash.incrby (h : RunHash) (amount : ℤ) : Counter → RunHash
  | .inflightMicros => { h with inflightMicros := some (toInt h.inflightMicros + amount) }
  | .concurrent => { h with concurrent := some (toInt h.concurrent + amount) }
  | .spendMicros => { h with spendMicros := some (toInt h.spendMicros + amount) }

def RunHash.overlay (h mapping : RunHash) : RunHash where
  budgetMicros := mapping.budgetMicros.or h.budgetMicros
  spendMicros := mapping.spendMicros.or h.spendMicros
  inflightMicros := mapping.inflightMicros.or h.inflightMicros
  halt := mapping.halt.or h.halt
  haltReason := mapping.haltReason.or h.haltReason
  steps := mapping.steps.or h.steps
  concurrent := mapping.concurrent.or h.concurrent
  steered := mapping.steered.or h.steered
  policySet := mapping.policySet.or h.policySet
  intent := mapping.intent.or h.intent
  user := mapping.user.or h.user
  team := mapping.team.or h.team
  task := mapping.task.or h.task

structure Redis where
  runs : Keyspace String RunHash
  prompts : Keyspace String (List String)
  reservations : Keyspace String Reservation
  clock : ℕ

def listRange {α : Type} (xs : List α) (start stop : ℤ) : List α :=
  let first := if start < 0 then xs.length + start else start
  let last := if stop < 0 then xs.length + stop else stop
  (xs.take (last + 1).toNat).drop first.toNat

namespace Redis

def empty : Redis := ⟨.empty, .empty, .empty, 0⟩

def hgetall (s : Redis) (key : String) : Option RunHash := s.runs.get key

def lrange (s : Redis) (key : String) (start stop : ℤ) : List String :=
  listRange ((s.prompts.get key).getD []) start stop

def get (s : Redis) (key : String) : Option Reservation := s.reservations.get key

def hincrby (s : Redis) (key : String) (field : Counter) (amount : ℤ) : Redis :=
  { s with runs := s.runs.write key (((s.runs.get key).getD {}).incrby amount field) }

def hset (s : Redis) (key : String) (mapping : RunHash) : Redis :=
  { s with runs := s.runs.write key (((s.runs.get key).getD {}).overlay mapping) }

def expire (s : Redis) (key : String) (ttl : ℕ) : Redis :=
  { s with
    runs := s.runs.expire key (s.clock + ttl)
    prompts := s.prompts.expire key (s.clock + ttl)
    reservations := s.reservations.expire key (s.clock + ttl) }

def setex (s : Redis) (key : String) (ttl : ℕ) (value : Reservation) : Redis :=
  { s with reservations := s.reservations.put key ⟨value, some (s.clock + ttl)⟩ }

def delete (s : Redis) (key : String) : Redis :=
  { s with reservations := s.reservations.delete key }

def lpush (s : Redis) (key : String) (value : String) : Redis :=
  { s with prompts := s.prompts.write key (value :: (s.prompts.get key).getD []) }

def ltrim (s : Redis) (key : String) (start stop : ℤ) : Redis :=
  { s with prompts := s.prompts.write key (s.lrange key start stop) }

def tick (s : Redis) (seconds : ℕ) : Redis where
  runs := s.runs.purge (s.clock + seconds)
  prompts := s.prompts.purge (s.clock + seconds)
  reservations := s.reservations.purge (s.clock + seconds)
  clock := s.clock + seconds

section Commands
variable (s : Redis) (key : String)

@[simp] theorem hincrby_reservations (field : Counter) (n : ℤ) :
    (s.hincrby key field n).reservations = s.reservations := rfl

@[simp] theorem hincrby_prompts (field : Counter) (n : ℤ) :
    (s.hincrby key field n).prompts = s.prompts := rfl

@[simp] theorem hset_reservations (mapping : RunHash) :
    (s.hset key mapping).reservations = s.reservations := rfl

@[simp] theorem hset_prompts (mapping : RunHash) : (s.hset key mapping).prompts = s.prompts := rfl

@[simp] theorem setex_runs (ttl : ℕ) (value : Reservation) :
    (s.setex key ttl value).runs = s.runs := rfl

@[simp] theorem setex_prompts (ttl : ℕ) (value : Reservation) :
    (s.setex key ttl value).prompts = s.prompts := rfl

@[simp] theorem delete_runs : (s.delete key).runs = s.runs := rfl

@[simp] theorem delete_prompts : (s.delete key).prompts = s.prompts := rfl

@[simp] theorem lpush_runs (value : String) : (s.lpush key value).runs = s.runs := rfl

@[simp] theorem lpush_reservations (value : String) :
    (s.lpush key value).reservations = s.reservations := rfl

@[simp] theorem ltrim_runs (start stop : ℤ) : (s.ltrim key start stop).runs = s.runs := rfl

@[simp] theorem ltrim_reservations (start stop : ℤ) :
    (s.ltrim key start stop).reservations = s.reservations := rfl

@[simp] theorem get_runs_hincrby (field : Counter) (n : ℤ) (j : String) :
    (s.hincrby key field n).runs.get j =
      if j = key then some (((s.runs.get key).getD {}).incrby n field) else s.runs.get j :=
  Keyspace.get_write ..

@[simp] theorem get_runs_hset (mapping : RunHash) (j : String) :
    (s.hset key mapping).runs.get j =
      if j = key then some (((s.runs.get key).getD {}).overlay mapping) else s.runs.get j :=
  Keyspace.get_write ..

@[simp] theorem get_runs_expire (ttl : ℕ) (j : String) :
    (s.expire key ttl).runs.get j = s.runs.get j := Keyspace.get_expire ..

@[simp] theorem get_prompts_expire (ttl : ℕ) (j : String) :
    (s.expire key ttl).prompts.get j = s.prompts.get j := Keyspace.get_expire ..

@[simp] theorem get_reservations_expire (ttl : ℕ) (j : String) :
    (s.expire key ttl).reservations.get j = s.reservations.get j := Keyspace.get_expire ..

@[simp] theorem total_reservations_expire (ttl : ℕ) (w : Reservation → ℤ) :
    (s.expire key ttl).reservations.total w = s.reservations.total w :=
  Keyspace.total_congr w fun _ => Keyspace.get_expire ..

end Commands

end Redis

def runKey (runId : String) : String := "run:" ++ runId

def promptKey (runId : String) : String := "run:" ++ runId ++ ":prompts"

def reservationKey (reservationId : String) : String := "resv:" ++ reservationId

@[simp] theorem runKey_inj {a b : String} : runKey a = runKey b ↔ a = b := by
  simp [runKey]

@[simp] theorem promptKey_inj {a b : String} : promptKey a = promptKey b ↔ a = b := by
  simp [promptKey]

@[simp] theorem reservationKey_inj {a b : String} :
    reservationKey a = reservationKey b ↔ a = b := by
  simp [reservationKey]

end RunLedger
