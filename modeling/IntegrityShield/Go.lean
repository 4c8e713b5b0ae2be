import Mathlib.Data.List.Perm.Basic
import Mathlib.Data.List.Nodup

namespace IntegrityShield.Go

/-- The runtime panics the observer's code can raise. -/
inductive GoPanic where
  /-- `runtime error: invalid memory address or nil pointer dereference` -/
  | nilDereference
  /-- `interface conversion: interface {} is actual, not expected` -/
  | interfaceConversion (actual expected : String)
  deriving Repr, DecidableEq

/-- A value `encoding/json` decodes into an `interface{}`. `null` is the nil interface; an
object is a `map[string]interface{}`, kept as its bindings, the first binding of a key being
its value. Numbers are `float64` in Go; no function of the observer reads one. -/
inductive Value where
  | null
  | bool (b : Bool)
  | number (n : Int)
  | string (s : String)
  | array (elems : List Value)
  | object (fields : List (String × Value))
  deriving Repr, Inhabited

abbrev Object := List (String × Value)

def index (m : Object) (k : String) : Value := (m.lookup k).getD .null

namespace Value

def typeName : Value → String
  | .null => "nil"
  | .bool _ => "bool"
  | .number _ => "float64"
  | .string _ => "string"
  | .array _ => "[]interface {}"
  | .object _ => "map[string]interface {}"

def asMap : Value → Except GoPanic Object
  | .object fs => .ok fs
  | v => .error (.interfaceConversion v.typeName "map[string]interface {}")

def asString : Value → Except GoPanic String
  | .string s => .ok s
  | v => .error (.interfaceConversion v.typeName "string")

def asSlice : Value → Except GoPanic (List Value)
  | .array vs => .ok vs
  | v => .error (.interfaceConversion v.typeName "[]interface {}")

def toSlice : Value → List Value
  | .array vs => vs
  | _ => []

@[simp] theorem asMap_eq_ok {v : Value} {m : Object} : v.asMap = .ok m ↔ v = .object m := by
  cases v <;> simp [asMap]

@[simp] theorem asString_eq_ok {v : Value} {s : String} : v.asString = .ok s ↔ v = .string s := by
  cases v <;> simp [asString]

@[simp] theorem asSlice_eq_ok {v : Value} {vs : List Value} :
    v.asSlice = .ok vs ↔ v = .array vs := by
  cases v <;> simp [asSlice]

theorem asMap_of_not_object {v : Value} (h : ∀ m, v ≠ .object m) :
    v.asMap = .error (.interfaceConversion v.typeName "map[string]interface {}") := by
  cases v <;> simp_all [asMap]

theorem asSlice_of_not_array {v : Value} (h : ∀ vs, v ≠ .array vs) :
    v.asSlice = .error (.interfaceConversion v.typeName "[]interface {}") := by
  cases v <;> simp_all [asSlice]

end Value

/-- `json.Unmarshal(body, &data)` into `data map[string]interface{}`: the object's bindings,
and the nil map when the body is not JSON or holds anything but an object. -/
def unmarshalMap : Option Value → Object
  | some (.object fs) => fs
  | _ => []

@[simp] theorem ok_bind {ε α β : Type} (a : α) (f : α → Except ε β) :
    (Except.ok a >>= f) = f a := rfl

@[simp] theorem error_bind {ε α β : Type} (e : ε) (f : α → Except ε β) :
    (Except.error e >>= f) = .error e := rfl

@[simp] theorem pure_eq_ok {ε α : Type} (a : α) : (pure a : Except ε α) = .ok a := rfl

@[simp] theorem throw_eq_error {ε α : Type} (e : ε) : (throw e : Except ε α) = .error e := rfl

theorem bind_eq_ok {ε α β : Type} {x : Except ε α} {f : α → Except ε β} {b : β} :
    (x >>= f) = .ok b ↔ ∃ a, x = .ok a ∧ f a = .ok b := by
  cases x <;> simp

/-- `for _, x := range xs { y := body(x); acc = append(acc, y) }`, where the body may panic. -/
def rangeAppend {α β : Type} (body : α → Except GoPanic β) : List α → List β → Except GoPanic (List β)
  | [], acc => pure acc
  | x :: xs, acc => do
    let y ← body x
    rangeAppend body xs (acc ++ [y])

theorem rangeAppend_eq_ok {α β : Type} {body : α → Except GoPanic β} {xs : List α}
    {acc r : List β} :
    rangeAppend body xs acc = .ok r ↔
      ∃ ys, List.Forall₂ (fun x y => body x = .ok y) xs ys ∧ r = acc ++ ys := by
  induction xs generalizing acc with
  | nil => simp [rangeAppend, eq_comm]
  | cons x xs ih =>
    cases hx : body x with
    | error e =>
      refine iff_of_false (by simp [rangeAppend, hx]) ?_
      rintro ⟨_, h, -⟩
      cases h with
      | cons hy _ => simp [hx] at hy
    | ok y =>
      rw [show rangeAppend body (x :: xs) acc = rangeAppend body xs (acc ++ [y]) by
        simp [rangeAppend, hx], ih]
      constructor
      · rintro ⟨ys, h, rfl⟩
        exact ⟨y :: ys, .cons hx h, by simp⟩
      · rintro ⟨_, h, rfl⟩
        cases h with
        | cons hy h =>
          obtain rfl : y = _ := by simpa [hx] using hy
          exact ⟨_, h, by simp⟩

theorem rangeAppend_append {α β : Type} (body : α → Except GoPanic β) (xs ys : List α)
    (acc : List β) (h : ∀ x ∈ xs, ∃ y, body x = .ok y) :
    rangeAppend body (xs ++ ys) acc =
      rangeAppend body ys (acc ++ xs.filterMap (fun x => (body x).toOption)) := by
  induction xs generalizing acc with
  | nil => simp
  | cons x xs ih =>
    obtain ⟨y, hy⟩ := h x (List.mem_cons_self _ _)
    simp [rangeAppend, hy, ih _ (fun x hx => h x (List.mem_cons_of_mem _ hx)), Except.toOption]

/-- A Go map: its bindings, each key at most once. A `range` loop over it visits the
bindings in an order the runtime picks afresh on every run: any permutation of them. -/
structure GoMap (α : Type) where
  entries : List (String × α)
  nodup : (entries.map Prod.fst).Nodup

def GoMap.get? {α : Type} (m : GoMap α) (k : String) : Option α := m.entries.lookup k

namespace GoMap

variable {α : Type}

def empty : GoMap α := ⟨[], List.nodup_nil⟩

def assign (m : GoMap α) (k : String) (v : α) : GoMap α :=
  if hk : k ∈ m.entries.map Prod.fst then
    ⟨m.entries.map (fun e => if e.1 = k then (k, v) else e), by
      rw [List.map_map]
      convert m.nodup using 2
      funext e
      by_cases he : e.1 = k <;> simp [he]⟩
  else
    have hd : (m.entries.map Prod.fst ++ [k]).Nodup :=
      m.nodup.append (List.nodup_singleton k) (List.disjoint_singleton.mpr hk)
    ⟨m.entries ++ [(k, v)], by simpa using hd⟩

theorem entries_assign_of_not_mem {m : GoMap α} {k : String} (v : α)
    (hk : k ∉ m.entries.map Prod.fst) : (m.assign k v).entries = m.entries ++ [(k, v)] := by
  simp [assign, hk]

theorem lookup_eq_some_iff_mem {l : List (String × α)} (hl : (l.map Prod.fst).Nodup)
    {k : String} {v : α} : l.lookup k = some v ↔ (k, v) ∈ l := by
  induction l with
  | nil => simp
  | cons e l ih =>
    obtain ⟨k', v'⟩ := e
    simp only [List.map_cons, List.nodup_cons] at hl
    by_cases hk : k = k'
    · subst hk
      have hnot : (k, v) ∉ l := fun h => hl.1 (List.mem_map_of_mem Prod.fst h)
      simp only [List.lookup_cons_self, Option.some.injEq, List.mem_cons, Prod.mk.injEq, true_and,
        hnot, or_false, eq_comm]
    · simp only [List.lookup_cons, beq_false_of_ne hk, ih hl.2, List.mem_cons, Prod.mk.injEq, hk,
        false_and, false_or]

theorem lookup_perm {l l' : List (String × α)} (hp : List.Perm l l') (hl : (l.map Prod.fst).Nodup)
    (k : String) : l.lookup k = l'.lookup k := by
  have hl' : (l'.map Prod.fst).Nodup := (hp.map Prod.fst).nodup_iff.mp hl
  apply Option.ext
  intro v
  simp only [Option.mem_def]
  rw [lookup_eq_some_iff_mem hl, lookup_eq_some_iff_mem hl', hp.mem_iff]

end GoMap

end IntegrityShield.Go
