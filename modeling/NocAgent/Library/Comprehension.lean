import Mathlib.Data.List.Basic

namespace Comprehension
variable {Key Entry Err Result : Type}

-- One key after the other: what each of them leaves in the log, and its result or the error
-- that ends the whole comprehension.
def collect (work : Key → List Entry × Except Err Result) :
    List Key → List Entry × Except Err (List (Key × Result))
  | [] => ([], .ok [])
  | key :: keys =>
    match work key with
    | (entries, .error e) => (entries, .error e)
    | (entries, .ok result) =>
      let rest := collect work keys
      (entries ++ rest.1, rest.2.map ((key, result) :: ·))

variable {work : Key → List Entry × Except Err Result} {keys : List Key}

theorem collect_cons {key : Key} {result : Result} (h : (work key).2 = .ok result) :
    collect work (key :: keys) =
      ((work key).1 ++ (collect work keys).1, (collect work keys).2.map ((key, result) :: ·)) := by
  rw [collect]
  split
  · rename_i entries e hkey
    rw [hkey] at h
    cases h
  · rename_i entries found hkey
    rw [hkey] at h
    cases h
    rw [hkey]

theorem collect_cons_error {key : Key} {e : Err} (h : (work key).2 = .error e) :
    collect work (key :: keys) = ((work key).1, .error e) := by
  rw [collect]
  split
  · rename_i entries found hkey
    rw [hkey] at h
    cases h
    rw [hkey]
  · rename_i entries result hkey
    rw [hkey] at h
    cases h

theorem collect_of_ok {result : Key → Result} (h : ∀ key ∈ keys, (work key).2 = .ok (result key)) :
    collect work keys =
      (keys.flatMap fun key => (work key).1, .ok (keys.map fun key => (key, result key))) := by
  induction keys with
  | nil => rfl
  | cons key keys ih =>
    rw [collect_cons (h key List.mem_cons_self), ih fun k hk => h k (List.mem_cons_of_mem _ hk)]
    rfl

theorem work_of_collect_ok {out : List (Key × Result)} (h : (collect work keys).2 = .ok out) :
    ∀ key ∈ keys, ∃ result, (work key).2 = .ok result := by
  induction keys generalizing out with
  | nil => exact fun key hkey => absurd hkey List.not_mem_nil
  | cons key keys ih =>
    cases hkey : (work key).2 with
    | error e =>
      rw [collect_cons_error hkey] at h
      cases h
    | ok result =>
      rw [collect_cons hkey] at h
      cases hrest : (collect work keys).2 with
      | error e =>
        rw [hrest] at h
        cases h
      | ok rest =>
        rw [List.forall_mem_cons]
        exact ⟨⟨result, hkey⟩, ih hrest⟩

theorem collect_of_error {before after : List Key} {key : Key} {e : Err} {result : Key → Result}
    (hbefore : ∀ k ∈ before, (work k).2 = .ok (result k)) (h : (work key).2 = .error e) :
    collect work (before ++ key :: after) =
      ((before.flatMap fun k => (work k).1) ++ (work key).1, .error e) := by
  induction before with
  | nil => exact collect_cons_error h
  | cons k before ih =>
    rw [List.cons_append, collect_cons (hbefore k List.mem_cons_self),
      ih fun k hk => hbefore k (List.mem_cons_of_mem _ hk), List.flatMap_cons, List.append_assoc]
    rfl

end Comprehension
