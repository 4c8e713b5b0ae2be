import Mathlib.Data.List.Infix

namespace IntegrityShield.Strings

variable {old new s a b r rest : List Char} {c sep d : Char}

/-- `strings.Replace(s, old, new, 1)` on the characters of `s`: the first occurrence of `old`
becomes `new`, and an empty `old` matches at the start. Go scans bytes, but a UTF-8 pattern
only matches at a character boundary, so the two agree. -/
def replaceFirst (old new : List Char) : List Char → List Char
  | [] => if old.isPrefixOf [] then new else []
  | c :: cs =>
    if old.isPrefixOf (c :: cs) then new ++ (c :: cs).drop old.length
    else c :: replaceFirst old new cs

/-- Go's `strings.Replace(s, old, new, 1)`. -/
def replace (s old new : String) : String := ⟨replaceFirst old.data new.data s.data⟩

def contains (s substr : String) : Prop := substr.data <:+: s.data

instance (s substr : String) : Decidable (contains s substr) :=
  inferInstanceAs (Decidable (substr.data <:+: s.data))

@[simp] theorem data_replace (s old new : String) :
    (replace s old new).data = replaceFirst old.data new.data s.data := rfl

theorem replaceFirst_at_match (h : old <+: s) : replaceFirst old new s = new ++ s.drop old.length := by
  cases s with
  | nil => simp [replaceFirst, List.isPrefixOf_iff_prefix.mpr h]
  | cons c cs => simp [replaceFirst, List.isPrefixOf_iff_prefix.mpr h]

theorem replaceFirst_cons_of_no_match (h : ¬ old <+: c :: s) :
    replaceFirst old new (c :: s) = c :: replaceFirst old new s := by
  simp [replaceFirst, h]

theorem replaceFirst_append_sep (ha : ¬ old <:+: a) (hsep : sep ∉ old) :
    replaceFirst old new (a ++ sep :: b) = a ++ sep :: replaceFirst old new b := by
  induction a with
  | nil =>
    apply replaceFirst_cons_of_no_match
    intro h
    rcases List.prefix_cons_iff.mp h with rfl | ⟨t, rfl, -⟩
    · exact ha List.nil_infix
    · exact hsep (List.mem_cons_self _ _)
  | cons c a ih =>
    rw [List.cons_append, replaceFirst_cons_of_no_match, ih (fun h => ha (List.infix_cons h))]
    · rfl
    intro h
    rcases List.prefix_or_prefix_of_prefix h (List.prefix_append (c :: a) (sep :: b)) with
      hp | ⟨t, rfl⟩
    · exact ha hp.isInfix
    · rw [← List.cons_append, List.prefix_append_right_inj] at h
      rcases List.prefix_cons_iff.mp h with rfl | ⟨u, rfl, -⟩
      · exact ha (by simp)
      · exact hsep (by simp)

theorem replaceFirst_append_self (new : List Char) (hr : ¬ (d :: rest) <:+: r) (hd : d ∉ rest)
    (s : List Char) :
    replaceFirst (d :: rest) new (r ++ (d :: rest ++ s)) = r ++ (new ++ s) := by
  induction r with
  | nil =>
    rw [List.nil_append, replaceFirst_at_match (List.prefix_append (d :: rest) s)]
    simp
  | cons c r ih =>
    rw [List.cons_append, replaceFirst_cons_of_no_match,
      ih (fun h => hr (List.infix_cons h))]
    · rfl
    intro h
    rcases List.prefix_or_prefix_of_prefix h (List.prefix_append (c :: r) (d :: rest ++ s)) with
      hp | ⟨t, ht⟩
    · exact hr hp.isInfix
    · have ht' : t <+: d :: (rest ++ s) := by
        rw [← List.prefix_append_right_inj (c :: r), ht]
        exact h
      rcases List.prefix_cons_iff.mp ht' with rfl | ⟨u, rfl, -⟩
      · exact hr (by rw [← ht]; simp)
      · have hrest : rest = r ++ d :: u := (List.cons_eq_cons.mp ht).2.symm
        exact hd (by simp [hrest])

end IntegrityShield.Strings
