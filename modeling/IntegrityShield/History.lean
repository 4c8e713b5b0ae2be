import IntegrityShield.Types
import Mathlib.Data.List.Nodup

namespace IntegrityShield.History

open Types

variable {α κ : Type} [Inhabited α]

/-- The search both history lookups make: the first element the test accepts, or the
zero value. -/
def firstMatch (p : α → Bool) : List α → Bool × α
  | [] => (false, default)
  | x :: xs => if p x then (true, x) else firstMatch p xs

def getTargetResourceLog (res : ObservationResourceResult)
    (lastResults : List FinalObservationResourceResult) : Bool × FinalObservationResourceResult :=
  firstMatch (fun lres => lres.kind == res.kind && lres.«namespace» == res.«namespace» &&
    lres.name == res.name) lastResults

def getTargetProvenanceLog (new : ManifestProvenanceInfo)
    (lastProvs : List ManifestProvenanceResult) : Bool × ManifestProvenanceResult :=
  firstMatch (fun prov => prov.gitRepo == new.gitRepo) lastProvs

theorem firstMatch_eq (p : α → Bool) (xs : List α) :
    firstMatch p xs = ((xs.find? p).map (fun x => (true, x))).getD (false, default) := by
  induction xs with
  | nil => rfl
  | cons x xs ih => by_cases hx : p x <;> simp [firstMatch, hx, ih]

theorem getTargetResourceLog_eq (res : ObservationResourceResult) :
    getTargetResourceLog res = firstMatch (fun lres => decide
      ((lres.kind, lres.«namespace», lres.name) = (res.kind, res.«namespace», res.name))) := by
  funext xs
  simp only [getTargetResourceLog, Prod.mk.injEq, Bool.decide_and, Bool.and_assoc]
  rfl

omit [Inhabited α] in
theorem find?_perm_of_unique {p : α → Bool} {xs ys : List α} (hperm : List.Perm xs ys)
    (huniq : ∀ x ∈ xs, ∀ y ∈ xs, p x → p y → x = y) : xs.find? p = ys.find? p := by
  cases hx : xs.find? p with
  | none =>
    exact (List.find?_eq_none.mpr fun y hy => List.find?_eq_none.mp hx y (hperm.mem_iff.mpr hy)).symm
  | some x =>
    have hxs := List.mem_of_find?_eq_some hx
    cases hy : ys.find? p with
    | none => exact absurd (List.find?_some hx) (List.find?_eq_none.mp hy x (hperm.mem_iff.mp hxs))
    | some y =>
      exact congrArg some (huniq x hxs y (hperm.mem_iff.mpr (List.mem_of_find?_eq_some hy))
        (List.find?_some hx) (List.find?_some hy))

theorem firstMatch_perm_of_nodup [DecidableEq κ] (key : α → κ) (k : κ) {xs ys : List α}
    (hperm : List.Perm xs ys) (hnodup : (xs.map key).Nodup) :
    firstMatch (fun x => decide (key x = k)) xs = firstMatch (fun x => decide (key x = k)) ys := by
  rw [firstMatch_eq, firstMatch_eq, find?_perm_of_unique hperm]
  intro x hx y hy hpx hpy
  exact List.inj_on_of_nodup_map hnodup hx hy (by simp_all)

/-- The history lookups: each returns the first entry with the looked-up key, or the zero
value, so with pairwise distinct keys the order of the history does not matter. -/
theorem getTargetLog_spec :
    (∀ res lastResults, getTargetResourceLog res lastResults =
      ((lastResults.find? (fun lres => decide
          ((lres.kind, lres.«namespace», lres.name) = (res.kind, res.«namespace», res.name)))).map
        (fun l => (true, l))).getD (false, default)) ∧
    (∀ new lastProvs, getTargetProvenanceLog new lastProvs =
      ((lastProvs.find? (fun prov => decide (prov.gitRepo = new.gitRepo))).map
        (fun l => (true, l))).getD (false, default)) ∧
    (∀ res (xs ys : List FinalObservationResourceResult), List.Perm xs ys →
      (xs.map (fun l => (l.kind, l.«namespace», l.name))).Nodup →
      getTargetResourceLog res xs = getTargetResourceLog res ys) ∧
    (∀ new (xs ys : List ManifestProvenanceResult), List.Perm xs ys →
      (xs.map (·.gitRepo)).Nodup →
      getTargetProvenanceLog new xs = getTargetProvenanceLog new ys) := by
  refine ⟨fun res xs => ?_, fun new xs => firstMatch_eq _ xs, fun res xs ys hperm hnodup => ?_,
    fun new xs ys hperm => firstMatch_perm_of_nodup _ _ hperm⟩
  · rw [getTargetResourceLog_eq, firstMatch_eq]
  · rw [getTargetResourceLog_eq]
    exact firstMatch_perm_of_nodup _ _ hperm hnodup

end IntegrityShield.History
