import NocAgent.Agent.RunHalt

namespace RunHalt
open Text BreadthFirst

def Exc.CarriesHttp {ν : Type} (exc : Exc ν) : Prop :=
  (∃ response statusCode, exc.response = some response ∧ response.statusCode = some statusCode) ∨
    ∃ statusCode headers, exc.statusCode = some statusCode ∧ exc.headers = some headers

def Exc.details {ν : Type} (u : Unicode) (exc : Exc ν) : Option (ℤ × Dict String) :=
  exc.httpError.map fun error => (error.statusCode, normalizeHeaders u error.headers)

section Walk
variable {ν : Type} [Fintype ν] [DecidableEq ν] (u : Unicode) (heap : ν → Exc ν)

-- _extract_http_error_details for fewer than the given number of rounds, and what it has visited.
def walk (rounds : ℕ) (exc : ν) : Option (List ν × Option (ℤ × Dict String)) :=
  (loop (fun x => (heap x).links) (fun x => (heap x).httpError) rounds [exc] ∅).map fun r =>
    (r.1, r.2.map fun error => (error.statusCode, normalizeHeaders u error.headers))

def AtDistance (root x : ν) (n : ℕ) : Prop :=
  x ∈ generation (fun x => (heap x).links) root n ∧
    ∀ m, x ∈ generation (fun x => (heap x).links) root m → n ≤ m

variable {u heap} {root : ν} {details : ℤ × Dict String}

omit [Fintype ν] [DecidableEq ν] in
theorem httpError_isSome_iff {exc : Exc ν} : exc.httpError.isSome = true ↔ exc.CarriesHttp := by
  rw [Exc.httpError, Exc.CarriesHttp]
  cases hresponse : exc.response with
  | none =>
    cases hstatus : exc.statusCode with
    | none => simp
    | some statusCode =>
      cases hheaders : exc.headers with
      | none => simp
      | some headers => simp
  | some response =>
    cases hcode : response.statusCode with
    | some statusCode => simp [hcode]
    | none =>
      cases hstatus : exc.statusCode with
      | none => simp [hcode]
      | some statusCode =>
        cases hheaders : exc.headers with
        | none => simp [hcode]
        | some headers => simp [hcode]

omit [Fintype ν] [DecidableEq ν] in
theorem httpError_eq_none_iff {exc : Exc ν} : exc.httpError = none ↔ ¬ exc.CarriesHttp := by
  rw [← httpError_isSome_iff, Bool.not_eq_true, Option.isSome_eq_false_iff,
    Option.isNone_iff_eq_none]

theorem walk_ends {rounds : ℕ} (hrounds : 1 + ∑ x, (heap x).links.length < rounds) (root : ν) :
    ∃ visited, walk u heap rounds root =
        some (visited, extractHttpErrorDetails u heap root) ∧
      visited.Nodup ∧ ∀ x ∈ visited, Reaches heap root x := by
  obtain ⟨visited, hloop, hvisited⟩ :=
    loop_root (fun x => (heap x).httpError) hrounds root
  exact ⟨visited, by rw [walk, hloop, Option.map_some, extractHttpErrorDetails], hvisited⟩

theorem extract_eq_none_iff : extractHttpErrorDetails u heap root = none ↔
    ∀ x, Reaches heap root x → ¬ (heap x).CarriesHttp := by
  rw [extractHttpErrorDetails, Option.map_eq_none_iff, search_eq_none_iff]
  exact forall_congr' fun x => forall_congr' fun _ => httpError_eq_none_iff

theorem nearest_of_extract (h : extractHttpErrorDetails u heap root = some details) :
    ∃ x n, AtDistance heap root x n ∧ (heap x).details u = some details ∧
      ∀ y m, AtDistance heap root y m → (heap y).CarriesHttp → n ≤ m := by
  obtain ⟨error, hsearch, hdetails⟩ := Option.map_eq_some_iff.mp h
  obtain ⟨n, -, hbefore, hfound⟩ := search_eq_some_iff.mp hsearch
  obtain ⟨x, hx, herror⟩ := List.exists_of_findSome?_eq_some hfound
  have hfirst : ∀ y m, y ∈ generation (fun x => (heap x).links) root m →
      (heap y).CarriesHttp → n ≤ m := by
    intro y m hy hcarries
    by_contra hlt
    exact httpError_eq_none_iff.mp (hbefore m (Nat.zero_le m) (not_le.mp hlt) y hy) hcarries
  have hcarries : (heap x).CarriesHttp := httpError_isSome_iff.mp (by rw [herror]; rfl)
  refine ⟨x, n, ⟨hx, fun m hm => hfirst x m hm hcarries⟩, ?_, fun y m hy => hfirst y m hy.1⟩
  rw [Exc.details, herror, Option.map_some, hdetails]

theorem walk_complete (u : Unicode) (heap : ν → Exc ν) (root : ν) :
    (∀ rounds, 1 + ∑ x, (heap x).links.length < rounds → ∃ visited,
      walk u heap rounds root = some (visited, extractHttpErrorDetails u heap root) ∧
        visited.Nodup ∧ ∀ x ∈ visited, Reaches heap root x) ∧
    (extractHttpErrorDetails u heap root = none ↔
      ∀ x, Reaches heap root x → ¬ (heap x).CarriesHttp) ∧
    ∀ details, extractHttpErrorDetails u heap root = some details →
      ∃ x n, AtDistance heap root x n ∧ (heap x).details u = some details ∧
        ∀ y m, AtDistance heap root y m → (heap y).CarriesHttp → n ≤ m :=
  ⟨fun _ hrounds => walk_ends hrounds root, extract_eq_none_iff, fun _ h => nearest_of_extract h⟩

end Walk

end RunHalt
