import NocAgent.Library.Dict
import NocAgent.Library.KeyValue
import NocAgent.Library.Requests

namespace BlobAgentsStorage
open KeyValue Requests Trace

inductive Error where
  | value (text : String)
  | request (text : String)
deriving DecidableEq

def emptyKey : Error := .value "Storage key cannot be empty"

section Storage
variable {V J C : Type}

inductive Call (V C : Type) where
  | read (keys : List String) (targetCls : Option C)
  | write (changes : List (String × V))
  | delete (keys : List String)

inductive Task (V C : Type) where
  | reading (keys : List String) (targetCls : C) (result : Dict V)
  | writing (changes : List (String × V))
  | deleting (keys : List String)
  | returned (result : Option (Dict V))
  | raised (error : Error)

-- The blobs that the incident monitor keeps in the same container.
inductive MonitorBlob where
  | state
  | subscription
  | lease
deriving DecidableEq

def MonitorBlob.name : MonitorBlob → String
  | state => "monitor/state.json"
  | subscription => "monitor/subscription.json"
  | lease => "monitor/leader.lock"

def MonitorBlob.op (blob : MonitorBlob) : Option J → Op String J
  | some content => .put blob.name content
  | none => .remove blob.name

structure Host (V J C : Type) where
  container : Table String J := fun _ => none
  task : ℕ → Option (Task V C) := fun _ => none

inductive Move (V J C : Type) where
  | call (id : ℕ) (call : Call V C)
  | go (id : ℕ) (fate : Fate) (error : String)
  | monitor (blob : MonitorBlob) (content : Option J)

def Call.start : Call V C → Task V C
  | .read [] _ | .read (_ :: _) none =>
    .raised (.value "Storage.read requires keys and target_cls")
  | .read (key :: keys) (some targetCls) => .reading (key :: keys) targetCls ∅
  | .write [] => .raised (.value "Storage.write requires changes")
  | .write (change :: changes) => .writing (change :: changes)
  | .delete [] => .raised (.value "Storage.delete requires keys")
  | .delete (key :: keys) => .deleting (key :: keys)

namespace Host

def set (h : Host V J C) (id : ℕ) (task : Task V C) : Host V J C :=
  { h with task := fun id' => if id' = id then some task else h.task id' }

def write (h : Host V J C) (op : Op String J) : Host V J C :=
  { h with container := apply h.container op }

def request (h : Host V J C) (id : ℕ) (op : Op String J) (next : Task V C) (error : String) :
    Fate → Host V J C
  | .served => (h.write op).set id next
  | .unanswered => (h.write op).set id (.raised (.request error))
  | .lost => h.set id (.raised (.request error))

end Host

section Steps
variable (digest : String → String) (toJson : V → J) (decode : C → J → Except Error V)

def name (key : String) : String := "agents/" ++ digest key ++ ".json"

def readItem (container : Table String J) (key : String) (rest : List String) (targetCls : C)
    (result : Dict V) (error : String) : Fate → Task V C
  | .served =>
    match container (name digest key) with
    | none => .reading rest targetCls result
    | some content =>
      match decode targetCls content with
      | .ok item => .reading rest targetCls (result.insert key item)
      | .error failure => .raised failure
  | .unanswered | .lost => .raised (.request error)

def Host.go (h : Host V J C) (id : ℕ) (error : String) (fate : Fate) : Host V J C :=
  match h.task id with
  | some (.reading [] _ result) => h.set id (.returned (some result))
  | some (.reading (key :: rest) targetCls result) =>
    if key = "" then h.set id (.raised emptyKey)
    else h.set id (readItem digest decode h.container key rest targetCls result error fate)
  | some (.writing []) => h.set id (.returned none)
  | some (.writing (change :: rest)) =>
    if change.1 = "" then h.set id (.raised emptyKey)
    else h.request id (.put (name digest change.1) (toJson change.2)) (.writing rest) error fate
  | some (.deleting []) => h.set id (.returned none)
  | some (.deleting (key :: rest)) =>
    if key = "" then h.set id (.raised emptyKey)
    else h.request id (.remove (name digest key)) (.deleting rest) error fate
  | some (.returned _) | some (.raised _) | none => h

def step (h : Host V J C) : Move V J C → Host V J C
  | .call id call =>
    match h.task id with
    | none => h.set id call.start
    | some _ => h
  | .go id fate error => h.go digest toJson decode id error fate
  | .monitor blob content => h.write (blob.op content)

def Call.ops : Call V C → List (Op String J)
  | .write changes => changes.map fun change => .put change.1 (toJson change.2)
  | .delete keys => keys.map .remove
  | .read _ _ => []

def Task.ops : Task V C → List (Op String J)
  | .writing changes => changes.map fun change => .put change.1 (toJson change.2)
  | .deleting keys => keys.map .remove
  | .reading _ _ _ | .returned _ | .raised _ => []

def Move.Asks (op : Op String J) : Move V J C → Prop
  | .call _ asked => op ∈ asked.ops toJson
  | .go _ _ _ | .monitor _ _ => False

def Task.nextOp : Task V C → Option (Op String J)
  | .writing (change :: _) =>
    if change.1 = "" then none else some (.put change.1 (toJson change.2))
  | .deleting (key :: _) => if key = "" then none else some (.remove key)
  | .reading _ _ _ | .writing [] | .deleting [] | .returned _ | .raised _ => none

def effect (h : Host V J C) : Move V J C → Option (Op String J)
  | .go id fate _ => if fate = .lost then none else (h.task id).bind (Task.nextOp toJson)
  | .call _ _ | .monitor _ _ => none

def effects : Host V J C → List (Move V J C) → List (Op String J)
  | _, [] => []
  | h, move :: moves =>
    (effect toJson h move).toList ++ effects (step digest toJson decode h move) moves

def blobOp (h : Host V J C) : Move V J C → Option (Op String J)
  | .monitor blob content => some (blob.op content)
  | move => (effect toJson h move).map (Op.rename (name digest))

theorem agents_toList (key : String) :
    (name digest key).toList = 'a' :: ("gents/" ++ digest key ++ ".json").toList := by
  simp [name, String.toList_append]

theorem monitor_ne_agents (blob : MonitorBlob) (key : String) : blob.name ≠ name digest key := by
  intro hsame
  have hfirst := congrArg (fun text : String => text.toList.head?) hsame
  simp only [agents_toList, List.head?_cons] at hfirst
  cases blob <;> exact absurd hfirst (by decide)

theorem name_injOn {keys : Set String} (h : Set.InjOn digest keys) :
    Set.InjOn (name digest) keys := by
  intro key hkey key' hkey' hsame
  refine h hkey hkey' ?_
  have htexts := congrArg String.toList hsame
  simp only [name, String.toList_append, List.append_assoc] at htexts
  exact String.toList_inj.mp (List.append_cancel_right (List.append_cancel_left htexts))

variable {digest toJson decode} {h : Host V J C} {move : Move V J C} {moves : List (Move V J C)}

theorem request_container (h : Host V J C) (id : ℕ) (op : Op String J) (next : Task V C)
    (error : String) (fate : Fate) :
    (h.request id op next error fate).container =
      if fate = .lost then h.container else apply h.container op := by
  cases fate <;> rfl

theorem go_container (h : Host V J C) (id : ℕ) (error : String) (fate : Fate) :
    (h.go digest toJson decode id error fate).container =
      (blobOp digest toJson h (.go id fate error)).elim h.container (apply h.container) := by
  have hwritten : ∀ (op : Op String J) (next : Task V C),
      (h.request id (op.rename (name digest)) next error fate).container =
        ((if fate = .lost then none else some op).map (Op.rename (name digest))).elim h.container
          (apply h.container) := by
    intro op next
    rw [request_container]
    split_ifs <;> rfl
  simp only [Host.go, blobOp, effect]
  cases htask : h.task id with
  | none => cases fate <;> rfl
  | some task =>
    cases task with
    | reading keys targetCls result =>
      cases keys with
      | nil => cases fate <;> rfl
      | cons key rest =>
        simp only [Option.bind_some, Task.nextOp, ite_self]
        split_ifs <;> rfl
    | writing changes =>
      cases changes with
      | nil => cases fate <;> rfl
      | cons change rest =>
        obtain hempty | hempty := eq_or_ne change.1 ""
        · simp only [Option.bind_some, Task.nextOp, if_pos hempty]
          cases fate <;> rfl
        · simp only [Option.bind_some, Task.nextOp, if_neg hempty]
          exact hwritten (.put change.1 (toJson change.2)) (.writing rest)
    | deleting keys =>
      cases keys with
      | nil => cases fate <;> rfl
      | cons key rest =>
        obtain hempty | hempty := eq_or_ne key ""
        · simp only [Option.bind_some, Task.nextOp, if_pos hempty]
          cases fate <;> rfl
        · simp only [Option.bind_some, Task.nextOp, if_neg hempty]
          exact hwritten (.remove key) (.deleting rest)
    | returned result => cases fate <;> rfl
    | raised failure => cases fate <;> rfl

theorem step_container (h : Host V J C) (move : Move V J C) :
    (step digest toJson decode h move).container =
      (blobOp digest toJson h move).elim h.container (apply h.container) := by
  cases move with
  | call id asked =>
    rw [step]
    split <;> rfl
  | go id fate error => exact go_container h id error fate
  | monitor blob content => rfl

def Host.Pending (toJson : V → J) (allowed : Op String J → Prop) (h : Host V J C) : Prop :=
  ∀ id task, h.task id = some task → ∀ op ∈ task.ops toJson, allowed op

variable {allowed : Op String J → Prop} {id : ℕ} {task : Task V C} {op : Op String J}

theorem ops_start (call : Call V C) : call.start.ops toJson ⊆ call.ops toJson := by
  cases call with
  | read keys targetCls => cases keys <;> cases targetCls <;> exact List.Subset.refl _
  | write changes => cases changes <;> exact List.Subset.refl _
  | delete keys => cases keys <;> exact List.Subset.refl _

theorem mem_ops_of_nextOp (h : task.nextOp toJson = some op) : op ∈ task.ops toJson := by
  cases task with
  | writing changes =>
    cases changes with
    | nil => cases h
    | cons change rest =>
      rw [Task.nextOp] at h
      split_ifs at h
      cases h
      exact List.mem_cons_self
  | deleting keys =>
    cases keys with
    | nil => cases h
    | cons key rest =>
      rw [Task.nextOp] at h
      split_ifs at h
      cases h
      exact List.mem_cons_self
  | reading keys targetCls result => cases h
  | returned result => cases h
  | raised failure => cases h

theorem Host.Pending.set (hp : h.Pending toJson allowed)
    (htask : ∀ op ∈ task.ops toJson, allowed op) : (h.set id task).Pending toJson allowed := by
  intro id' task' h'
  simp only [Host.set] at h'
  split_ifs at h'
  · cases h'
    exact htask
  · exact hp id' task' h'

theorem Host.Pending.request (hp : h.Pending toJson allowed)
    (hrest : ∀ op ∈ task.ops toJson, allowed op) (op : Op String J) (error : String) (fate : Fate) :
    (h.request id op task error fate).Pending toJson allowed := by
  have hwritten : (h.write op).Pending toJson allowed := hp
  cases fate with
  | served => exact hwritten.set hrest
  | unanswered => exact hwritten.set (by simp [Task.ops])
  | lost => exact hp.set (by simp [Task.ops])

theorem ops_readItem (container : Table String J) (key : String) (rest : List String)
    (targetCls : C) (result : Dict V) (error : String) (fate : Fate) :
    (readItem digest decode container key rest targetCls result error fate).ops toJson = [] := by
  cases fate with
  | served =>
    rw [readItem]
    split
    · rfl
    · split <;> rfl
  | unanswered => rfl
  | lost => rfl

theorem Host.Pending.go (hp : h.Pending toJson allowed) (id : ℕ) (error : String) (fate : Fate) :
    (h.go digest toJson decode id error fate).Pending toJson allowed := by
  have hended : ∀ {task : Task V C}, task.ops toJson = [] →
      (h.set id task).Pending toJson allowed := fun hops => hp.set (by simp [hops])
  simp only [Host.go]
  cases htask : h.task id with
  | none => exact hp
  | some task =>
    have hops := hp id task htask
    cases task with
    | reading keys targetCls result =>
      cases keys with
      | nil => exact hended rfl
      | cons key rest =>
        dsimp only
        split_ifs
        · exact hended rfl
        · exact hended (ops_readItem h.container key rest targetCls result error fate)
    | writing changes =>
      cases changes with
      | nil => exact hended rfl
      | cons change rest =>
        dsimp only
        split_ifs
        · exact hended rfl
        · have hrest : ∀ op ∈ (Task.writing rest : Task V C).ops toJson, allowed op :=
            fun op hop => hops op (List.mem_cons_of_mem _ hop)
          exact hp.request hrest _ error fate
    | deleting keys =>
      cases keys with
      | nil => exact hended rfl
      | cons key rest =>
        dsimp only
        split_ifs
        · exact hended rfl
        · have hrest : ∀ op ∈ (Task.deleting rest : Task V C).ops toJson, allowed op :=
            fun op hop => hops op (List.mem_cons_of_mem _ hop)
          exact hp.request hrest _ error fate
    | returned result => exact hp
    | raised failure => exact hp

theorem Host.Pending.step (hp : h.Pending toJson allowed)
    (hmove : ∀ op, move.Asks toJson op → allowed op) :
    (step digest toJson decode h move).Pending toJson allowed := by
  cases move with
  | call id asked =>
    rw [BlobAgentsStorage.step]
    split
    · exact hp.set fun op hop => hmove op (ops_start asked hop)
    · exact hp
  | go id fate error => exact hp.go id error fate
  | monitor blob content => exact hp

theorem Host.Pending.effect (hp : h.Pending toJson allowed) (hop : effect toJson h move = some op) :
    allowed op := by
  cases move with
  | go id fate error =>
    rw [BlobAgentsStorage.effect] at hop
    split_ifs at hop
    obtain ⟨task, htask, hnext⟩ := Option.bind_eq_some_iff.mp hop
    exact hp id task htask op (mem_ops_of_nextOp hnext)
  | call id asked => cases hop
  | monitor blob content => cases hop

theorem effects_allowed (hp : h.Pending toJson allowed)
    (hmoves : ∀ move ∈ moves, ∀ op, move.Asks toJson op → allowed op) :
    ∀ op ∈ effects digest toJson decode h moves, allowed op := by
  induction moves generalizing h with
  | nil => exact fun op hop => absurd hop List.not_mem_nil
  | cons move moves ih =>
    obtain ⟨hmove, hrest⟩ := List.forall_mem_cons.mp hmoves
    intro op hop
    rcases List.mem_append.mp hop with hnow | hlater
    · exact hp.effect (Option.mem_toList.mp hnow)
    · exact ih (hp.step hmove) hrest op hlater

theorem holds_step {keys : Set String} {m : Table String J} (hdigest : Set.InjOn digest keys)
    (hm : Holds keys (name digest) h.container m)
    (hop : ∀ op, effect toJson h move = some op → op.key ∈ keys) :
    Holds keys (name digest) (step digest toJson decode h move).container
      (run apply m (effect toJson h move).toList) := by
  rw [step_container]
  cases move with
  | monitor blob content =>
    refine Holds.aside hm fun key _ hsame => monitor_ne_agents digest blob key ?_
    rw [hsame]
    cases content <;> rfl
  | call id asked => exact hm
  | go id fate error =>
    rw [blobOp]
    · cases heffect : effect toJson h (.go id fate error) with
      | none => exact hm
      | some op => exact hm.apply (name_injOn digest hdigest) (hop op heffect)
    · exact fun blob content hmonitor => by cases hmonitor

theorem holds_run {keys : Set String} {m : Table String J} (hdigest : Set.InjOn digest keys)
    (hm : Holds keys (name digest) h.container m)
    (hkeys : ∀ op ∈ effects digest toJson decode h moves, op.key ∈ keys) :
    Holds keys (name digest) (run (step digest toJson decode) h moves).container
      (run apply m (effects digest toJson decode h moves)) := by
  induction moves generalizing h m with
  | nil => exact hm
  | cons move moves ih =>
    obtain ⟨hnow, hlater⟩ := List.forall_mem_append.mp hkeys
    rw [run_cons, effects, run_append]
    exact ih (holds_step hdigest hm fun op hop => hnow op (Option.mem_toList.mpr hop)) hlater

-- What stands in a blob of the monitor after its own writes, whatever the agents store beside it.
def monitorWrite (blob : MonitorBlob) (content : Option J) : Move V J C → Option J
  | .monitor other written => if other = blob then written else content
  | .call _ _ | .go _ _ _ => content

theorem name_injective : Function.Injective MonitorBlob.name := by
  intro blob other hsame
  cases blob <;> cases other <;> first | rfl | exact absurd hsame (by decide)

theorem monitor_step (h : Host V J C) (move : Move V J C) (blob : MonitorBlob) :
    (step digest toJson decode h move).container blob.name =
      monitorWrite blob (h.container blob.name) move := by
  have hagents : ∀ id fate error,
      (step digest toJson decode h (.go id fate error)).container blob.name =
        h.container blob.name := by
    intro id fate error
    rw [step_container, blobOp]
    · cases effect toJson h (.go id fate error) with
      | none => rfl
      | some op =>
        refine apply_of_ne ?_ h.container
        rw [Op.key_rename]
        exact monitor_ne_agents digest blob op.key
    · exact fun blob content hmonitor => by cases hmonitor
  cases move with
  | call id asked =>
    rw [step_container]
    rfl
  | go id fate error => exact hagents id fate error
  | monitor other written =>
    have hkey : (other.op written).key = other.name := by cases written <;> rfl
    have hentry : (other.op written).entry = written := by cases written <;> rfl
    rw [monitorWrite]
    split_ifs with hblob
    · rw [← hblob, ← hkey]
      exact (apply_self h.container (other.op written)).trans hentry
    · refine apply_of_ne ?_ h.container
      rw [hkey]
      exact fun hsame => hblob (name_injective hsame).symm

theorem monitor_run (blob : MonitorBlob) :
    (run (step digest toJson decode) h moves).container blob.name =
      run (monitorWrite blob) (h.container blob.name) moves := by
  induction moves generalizing h with
  | nil => rfl
  | cons move moves ih => rw [run_cons, run_cons, ih, monitor_step]

theorem container_holds_map (digest : String → String) (toJson : V → J)
    (decode : C → J → Except Error V) (moves : List (Move V J C)) :
    let h := run (step digest toJson decode) {} moves
    let ops := effects digest toJson decode {} moves
    (∀ keys, Set.InjOn digest keys →
      (∀ move ∈ moves, ∀ op, move.Asks toJson op → op.key ∈ keys) →
      Holds keys (name digest) h.container (run apply (fun _ => none) ops)) ∧
    (∀ op ∈ ops, ∃ move ∈ moves, move.Asks toJson op) ∧
    ∀ blob : MonitorBlob, h.container blob.name = run (monitorWrite blob) none moves := by
  intro h ops
  have hasked : ∀ op ∈ ops, ∃ move ∈ moves, move.Asks toJson op :=
    effects_allowed (fun id task htask => by cases htask)
      fun move hmove op hop => ⟨move, hmove, hop⟩
  refine ⟨fun keys hdigest hkeys => ?_, hasked, fun blob => monitor_run blob⟩
  refine holds_run hdigest (fun _ _ => rfl) fun op hop => ?_
  obtain ⟨move, hmove, hop⟩ := hasked op hop
  exact hkeys move hmove op hop

-- What a loop has shown of its keys: seen are the containers there have been since the call.
section Progress
variable (digest toJson decode) (seen : Table String J → Prop)

def Wrote (changes : List (String × V)) : Prop :=
  ∀ change ∈ changes, change.1 ≠ "" ∧
    ∃ container, seen container ∧ container (name digest change.1) = some (toJson change.2)

def Deleted (keys : List String) : Prop :=
  ∀ key ∈ keys, key ≠ "" ∧ ∃ container, seen container ∧ container (name digest key) = none

structure Read (targetCls : C) (keys : List String) (result : Dict V) : Prop where
  given : ∀ key ∈ keys, key ≠ ""
  found : ∀ key item, result.lookup key = some item → key ∈ keys ∧
    ∃ container content, seen container ∧ container (name digest key) = some content ∧
      decode targetCls content = .ok item
  missing : ∀ key ∈ keys, result.lookup key = none →
    ∃ container, seen container ∧ container (name digest key) = none

def Accomplished : Call V C → Option (Dict V) → Prop
  | .read keys (some targetCls), some result => Read digest decode seen targetCls keys result
  | .write changes, none => Wrote digest toJson seen changes
  | .delete keys, none => Deleted digest seen keys
  | .read _ _, _ | .write _, some _ | .delete _, some _ => False

inductive Tracks : Call V C → Task V C → Prop where
  | reading {targetCls : C} {done rest : List String} {result : Dict V}
      (hread : Read digest decode seen targetCls done result) :
      Tracks (.read (done ++ rest) (some targetCls)) (.reading rest targetCls result)
  | writing {done rest : List (String × V)} (hwrote : Wrote digest toJson seen done) :
      Tracks (.write (done ++ rest)) (.writing rest)
  | deleting {done rest : List String} (hdeleted : Deleted digest seen done) :
      Tracks (.delete (done ++ rest)) (.deleting rest)
  | returned {call : Call V C} {result : Option (Dict V)}
      (hdone : Accomplished digest toJson decode seen call result) : Tracks call (.returned result)
  | raised (call : Call V C) (error : Error) : Tracks call (.raised error)

end Progress

section Linearize
variable {seen seen' : Table String J → Prop} {targetCls : C} {keys : List String}
  {changes : List (String × V)} {result : Dict V} {call : Call V C} {key : String}

theorem Wrote.mono (hseen : ∀ container, seen container → seen' container)
    (h : Wrote digest toJson seen changes) : Wrote digest toJson seen' changes := by
  intro change hchange
  obtain ⟨hgiven, container, hcontainer, hentry⟩ := h change hchange
  exact ⟨hgiven, container, hseen container hcontainer, hentry⟩

theorem Deleted.mono (hseen : ∀ container, seen container → seen' container)
    (h : Deleted digest seen keys) : Deleted digest seen' keys := by
  intro key hkey
  obtain ⟨hgiven, container, hcontainer, hentry⟩ := h key hkey
  exact ⟨hgiven, container, hseen container hcontainer, hentry⟩

theorem Read.mono (hseen : ∀ container, seen container → seen' container)
    (h : Read digest decode seen targetCls keys result) :
    Read digest decode seen' targetCls keys result where
  given := h.given
  found key item hitem := by
    obtain ⟨hkey, container, content, hcontainer, hentry⟩ := h.found key item hitem
    exact ⟨hkey, container, content, hseen container hcontainer, hentry⟩
  missing key hkey hnone := by
    obtain ⟨container, hcontainer, hentry⟩ := h.missing key hkey hnone
    exact ⟨container, hseen container hcontainer, hentry⟩

theorem Tracks.mono (hseen : ∀ container, seen container → seen' container)
    (h : Tracks digest toJson decode seen call task) :
    Tracks digest toJson decode seen' call task := by
  cases h with
  | reading hread => exact .reading (hread.mono hseen)
  | writing hwrote => exact .writing (Wrote.mono hseen hwrote)
  | deleting hdeleted => exact .deleting (Deleted.mono hseen hdeleted)
  | @returned _ result hdone =>
    refine .returned ?_
    match call, result, hdone with
    | .read _ (some _), some _, hread => exact Read.mono hseen hread
    | .write _, none, hwrote => exact Wrote.mono hseen hwrote
    | .delete _, none, hdeleted => exact Deleted.mono hseen hdeleted
  | raised call error => exact .raised call error

theorem Read.absent (h : Read digest decode seen targetCls keys result) (hkey : key ≠ "")
    {container : Table String J} (hseen : seen container)
    (hnone : container (name digest key) = none) :
    Read digest decode seen targetCls (keys ++ [key]) result where
  given := List.forall_mem_append.mpr ⟨h.given, by simpa using hkey⟩
  found key' item hitem := by
    obtain ⟨hmem, hrest⟩ := h.found key' item hitem
    exact ⟨List.mem_append_left _ hmem, hrest⟩
  missing key' hmem hmissing := by
    rcases List.mem_append.mp hmem with hold | hnew
    · exact h.missing key' hold hmissing
    · rw [List.mem_singleton.mp hnew]
      exact ⟨container, hseen, hnone⟩

theorem Read.present (h : Read digest decode seen targetCls keys result) (hkey : key ≠ "")
    {container : Table String J} {content : J} {item : V} (hseen : seen container)
    (hcontent : container (name digest key) = some content)
    (hitem : decode targetCls content = .ok item) :
    Read digest decode seen targetCls (keys ++ [key]) (result.insert key item) where
  given := List.forall_mem_append.mpr ⟨h.given, by simpa using hkey⟩
  found key' item' hlookup := by
    rw [Dict.lookup_insert_eq] at hlookup
    split_ifs at hlookup with hsame
    · cases hlookup
      rw [hsame]
      exact ⟨List.mem_append_right _ (List.mem_singleton_self key), container, content, hseen,
        hcontent, hitem⟩
    · obtain ⟨hmem, hrest⟩ := h.found key' item' hlookup
      exact ⟨List.mem_append_left _ hmem, hrest⟩
  missing key' hmem hmissing := by
    rw [Dict.lookup_insert_eq] at hmissing
    split_ifs at hmissing with hsame
    exact h.missing key' ((List.mem_append.mp hmem).resolve_right (by simpa using hsame)) hmissing

theorem Tracks.start (call : Call V C) : Tracks digest toJson decode seen call call.start := by
  cases call with
  | read keys targetCls =>
    cases keys with
    | nil => exact .raised _ _
    | cons key keys =>
      cases targetCls with
      | none => exact .raised _ _
      | some targetCls =>
        have hread : Read digest decode seen targetCls [] (∅ : Dict V) :=
          ⟨by simp, fun key item hitem => absurd hitem (Dict.lookup_empty_ne key item), by simp⟩
        exact .reading hread
  | write changes =>
    cases changes with
    | nil => exact .raised _ _
    | cons change rest =>
      have hwrote : Wrote digest toJson seen ([] : List (String × V)) := by simp [Wrote]
      exact .writing hwrote
  | delete keys =>
    cases keys with
    | nil => exact .raised _ _
    | cons key rest =>
      have hdeleted : Deleted digest seen [] := by simp [Deleted]
      exact .deleting hdeleted

theorem set_self (h : Host V J C) (id : ℕ) (task : Task V C) :
    (h.set id task).task id = some task := if_pos rfl

theorem set_other {id' : ℕ} (hid : id ≠ id') (h : Host V J C) (task : Task V C) :
    (h.set id' task).task id = h.task id := if_neg hid

theorem request_self (h : Host V J C) (id : ℕ) (op : Op String J) (next : Task V C)
    (error : String) (fate : Fate) :
    (h.request id op next error fate).task id =
      some (if fate = .served then next else .raised (.request error)) := by
  cases fate <;> exact set_self _ id _

theorem request_other {id' : ℕ} (hid : id ≠ id') (h : Host V J C) (op : Op String J)
    (next : Task V C) (error : String) (fate : Fate) :
    (h.request id' op next error fate).task id = h.task id := by
  cases fate <;> exact set_other hid _ _

theorem Tracks.readItem {container : Table String J} {rest : List String} (hseen : seen container)
    (hread : Read digest decode seen targetCls keys result) (hkey : key ≠ "") (error : String)
    (fate : Fate) :
    Tracks digest toJson decode seen (.read (keys ++ key :: rest) (some targetCls))
      (readItem digest decode container key rest targetCls result error fate) := by
  cases fate with
  | served =>
    rw [BlobAgentsStorage.readItem, List.append_cons]
    cases hcontent : container (name digest key) with
    | none => exact .reading (hread.absent hkey hseen hcontent)
    | some content =>
      dsimp only
      cases hitem : decode targetCls content with
      | ok item => exact .reading (hread.present hkey hseen hcontent hitem)
      | error failure => exact .raised _ failure
  | unanswered => exact .raised _ _
  | lost => exact .raised _ _

theorem Tracks.go {error : String} {fate : Fate} (htask : h.task id = some task)
    (htracks : Tracks digest toJson decode seen call task) (hbefore : seen h.container)
    (hafter : seen (h.go digest toJson decode id error fate).container) :
    ∃ task', (h.go digest toJson decode id error fate).task id = some task' ∧
      Tracks digest toJson decode seen call task' := by
  simp only [Host.go, htask] at hafter ⊢
  cases htracks with
  | @reading targetCls done rest result hread =>
    cases rest with
    | nil =>
      rw [List.append_nil]
      exact ⟨_, set_self h id _, .returned hread⟩
    | cons key rest =>
      dsimp only
      split_ifs with hkey
      · exact ⟨_, set_self h id _, .raised _ _⟩
      · exact ⟨_, set_self h id _, Tracks.readItem hbefore hread hkey error fate⟩
  | @writing done rest hwrote =>
    cases rest with
    | nil =>
      rw [List.append_nil]
      exact ⟨_, set_self h id _, .returned hwrote⟩
    | cons change rest =>
      dsimp only at hafter ⊢
      split_ifs at hafter ⊢ with hkey
      · exact ⟨_, set_self h id _, .raised _ _⟩
      · refine ⟨_, request_self h id _ _ error fate, ?_⟩
        split_ifs with hserved
        · rw [request_container, hserved, if_neg (by decide)] at hafter
          rw [List.append_cons]
          refine .writing (List.forall_mem_append.mpr ⟨hwrote, List.forall_mem_singleton.mpr ?_⟩)
          exact ⟨hkey, _, hafter, apply_self h.container (.put (name digest change.1) _)⟩
        · exact .raised _ _
  | @deleting done rest hdeleted =>
    cases rest with
    | nil =>
      rw [List.append_nil]
      exact ⟨_, set_self h id _, .returned hdeleted⟩
    | cons key rest =>
      dsimp only at hafter ⊢
      split_ifs at hafter ⊢ with hkey
      · exact ⟨_, set_self h id _, .raised _ _⟩
      · refine ⟨_, request_self h id _ _ error fate, ?_⟩
        split_ifs with hserved
        · rw [request_container, hserved, if_neg (by decide)] at hafter
          rw [List.append_cons]
          refine .deleting (List.forall_mem_append.mpr ⟨hdeleted, List.forall_mem_singleton.mpr ?_⟩)
          exact ⟨hkey, _, hafter, apply_self h.container (.remove (name digest key))⟩
        · exact .raised _ _
  | returned hdone => exact ⟨_, htask, .returned hdone⟩
  | raised call failure => exact ⟨_, htask, .raised _ _⟩

theorem go_other {id' : ℕ} (hid : id ≠ id') (h : Host V J C) (error : String) (fate : Fate) :
    (h.go digest toJson decode id' error fate).task id = h.task id := by
  simp only [Host.go]
  split
  · exact set_other hid h _
  · split_ifs <;> exact set_other hid h _
  · exact set_other hid h _
  · split_ifs
    · exact set_other hid h _
    · exact request_other hid h _ _ error fate
  · exact set_other hid h _
  · split_ifs
    · exact set_other hid h _
    · exact request_other hid h _ _ error fate
  · rfl
  · rfl
  · rfl

theorem Tracks.step (htask : h.task id = some task)
    (htracks : Tracks digest toJson decode seen call task) (hbefore : seen h.container)
    (hafter : seen (step digest toJson decode h move).container) :
    ∃ task', (step digest toJson decode h move).task id = some task' ∧
      Tracks digest toJson decode seen call task' := by
  cases move with
  | call id' other =>
    rw [BlobAgentsStorage.step]
    cases hother : h.task id' with
    | some busy => exact ⟨task, htask, htracks⟩
    | none =>
      have hid : id ≠ id' := by
        rintro rfl
        cases hother.symm.trans htask
      exact ⟨task, (set_other hid h _).trans htask, htracks⟩
  | go id' error fate =>
    obtain rfl | hid := eq_or_ne id id'
    · exact htracks.go htask hbefore hafter
    · exact ⟨task, (go_other hid h _ _).trans htask, htracks⟩
  | monitor blob content => exact ⟨task, htask, htracks⟩

theorem tracks_run (h : Host V J C) (hfree : h.task id = none) (call : Call V C)
    (moves : List (Move V J C)) :
    let before := step digest toJson decode h (.call id call)
    ∃ task, (run (step digest toJson decode) before moves).task id = some task ∧
      Tracks digest toJson decode
        (fun container => ∃ part, part <+: moves ∧
          container = (run (step digest toJson decode) before part).container) call task := by
  intro before
  induction moves using List.reverseRecOn with
  | nil =>
    refine ⟨call.start, ?_, .start call⟩
    simp only [before, run_nil, BlobAgentsStorage.step, hfree]
    exact set_self h id _
  | append_singleton moves move ih =>
    obtain ⟨task, htask, htracks⟩ := ih
    rw [run_append]
    refine Tracks.step htask (htracks.mono ?_) ?_ ?_
    · rintro container ⟨part, hpart, hcontainer⟩
      exact ⟨part, hpart.trans (List.prefix_append moves [move]), hcontainer⟩
    · exact ⟨moves, List.prefix_append moves [move], rfl⟩
    · exact ⟨moves ++ [move], List.prefix_rfl, by rw [run_append]; rfl⟩

theorem returned_call_took_effect (digest : String → String) (toJson : V → J)
    (decode : C → J → Except Error V) (h : Host V J C) (id : ℕ) (call : Call V C)
    (moves : List (Move V J C)) (result : Option (Dict V)) (hfree : h.task id = none) :
    let before := step digest toJson decode h (.call id call)
    (run (step digest toJson decode) before moves).task id = some (.returned result) →
      Accomplished digest toJson decode
        (fun container => ∃ part, part <+: moves ∧
          container = (run (step digest toJson decode) before part).container) call result := by
  intro before hreturned
  obtain ⟨task, htask, htracks⟩ := tracks_run h hfree call moves
  cases htask.symm.trans hreturned
  cases htracks with
  | returned hdone => exact hdone

end Linearize

end Steps

end Storage

section Example

def itemText : Unit → String → Except Error String := fun _ content => .ok content

def storeTurn : Call String Unit := .write [("conversation", "reference"), ("user", "ada")]

def served : List (Move String String Unit) :=
  [.go 0 .served "", .go 0 .served "", .go 0 .served ""]

def mirror (text : String) : String := .ofList text.toList.reverse

theorem mirror_injective : Function.Injective mirror := fun _ _ h =>
  String.toList_inj.mp (List.reverse_injective (String.ofList_injective h))

theorem container_holds_map_turn :
    let moves := .call 0 storeTurn :: .monitor .state (some "cursor") :: served
    Holds Set.univ (name mirror) (run (step mirror id itemText) {} moves).container
      (run apply (fun _ => none) (effects mirror id itemText {} moves)) :=
  (container_holds_map mirror id itemText _).1 Set.univ mirror_injective.injOn
    fun _ _ _ _ => trivial

theorem returned_call_took_effect_turn :
    Accomplished mirror id itemText (fun container => ∃ part, part <+: served ∧
      container = (run (step mirror id itemText) (step mirror id itemText {} (.call 0 storeTurn))
        part).container) storeTurn none :=
  returned_call_took_effect mirror id itemText {} 0 storeTurn served none rfl rfl

end Example

end BlobAgentsStorage
