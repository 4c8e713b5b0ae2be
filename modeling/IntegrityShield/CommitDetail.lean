import IntegrityShield.Types

namespace IntegrityShield.CommitDetail

open Go Types

def fileName (file : Value) : Except GoPanic String := do
  let f ← file.asMap
  (index f "filename").asString

theorem fileName_eq_ok {file : Value} {n : String} :
    fileName file = .ok n ↔ ∃ m, file = .object m ∧ index m "filename" = .string n := by
  simp [fileName, bind_eq_ok]

def authorOf (author : Value) : Except GoPanic String :=
  match author with
  | .null => pure ""
  | v => v.asString

theorem authorOf_eq_ok {v : Value} {a : String} :
    authorOf v = .ok a ↔ v = .null ∧ a = "" ∨ v = .string a := by
  cases v <;> simp [authorOf, Value.asString, eq_comm]

/-- `getCommitInfoFromDetail`: the commit's author, date and changed files read from a commit
detail response, with every field access an unchecked type assertion. -/
def getCommitInfoFromDetail (body : Option Value) (cmtid : String) : Except GoPanic CommitData := do
  let data := unmarshalMap body
  let commit ← (index data "commit").asMap
  let authorMap ← (index commit "author").asMap
  let author := index authorMap "email"
  let authorStr ← authorOf author
  let commit' ← (index data "commit").asMap
  let authorMap' ← (index commit' "author").asMap
  let date ← (index authorMap' "date").asString
  let files ← (index data "files").asSlice
  let fileNames ← rangeAppend fileName files []
  pure { commit := cmtid, date := date, author := authorStr, files := fileNames }

def parentOf (parent : Value) : Except GoPanic Parent := do
  let url ← (index (← parent.asMap) "url").asString
  let sha ← (index (← parent.asMap) "sha").asString
  pure { commit := sha, url := url }

theorem parentOf_eq_ok {parent : Value} {p : Parent} :
    parentOf parent = .ok p ↔
      ∃ m, parent = .object m ∧ index m "url" = .string p.url ∧
        index m "sha" = .string p.commit := by
  cases parent with
  | object m =>
    simp only [parentOf, bind_eq_ok, Value.asMap, Value.asString_eq_ok, pure_eq_ok,
      Except.ok.injEq, Value.object.injEq, exists_eq_left']
    constructor
    · rintro ⟨_, hu, _, hs, rfl⟩
      exact ⟨hu, hs⟩
    · rintro ⟨hu, hs⟩
      exact ⟨_, hu, _, hs, rfl⟩
  | _ => simp [parentOf, Value.asMap]

def getParentsFromDetail (body : Option Value) : Except GoPanic (List Parent) := do
  let data := unmarshalMap body
  let parents ← (index data "parents").asSlice
  rangeAppend parentOf parents []

/-- A commit detail response is read without a panic exactly when `commit.author` is a map
whose `email` is nil or a string and whose `date` is a string, and `files` is an array of
maps each with a string `filename`; the record then holds the commit id given, that date,
that email (empty for nil) and the file names in order. -/
theorem getCommitInfoFromDetail_eq_ok {body : Option Value} {cmtid : String} {cd : CommitData} :
    getCommitInfoFromDetail body cmtid = .ok cd ↔
      ∃ commit authorMap files,
        index (unmarshalMap body) "commit" = .object commit ∧
        index commit "author" = .object authorMap ∧
        (index authorMap "email" = .null ∧ cd.author = "" ∨
          index authorMap "email" = .string cd.author) ∧
        index authorMap "date" = .string cd.date ∧
        index (unmarshalMap body) "files" = .array files ∧
        List.Forall₂ (fun f n => ∃ m, f = .object m ∧ index m "filename" = .string n)
          files cd.files ∧
        cd.commit = cmtid := by
  simp only [getCommitInfoFromDetail, bind_eq_ok, Value.asMap_eq_ok, Value.asString_eq_ok,
    Value.asSlice_eq_ok, rangeAppend_eq_ok, fileName_eq_ok, pure_eq_ok, Except.ok.injEq,
    List.nil_append]
  constructor
  · rintro ⟨c, hc, am, ham, a, ha, c', hc', am', ham', d, hd, files, hf, _, ⟨names, hn, rfl⟩, rfl⟩
    obtain rfl : c = c' := by simpa [hc] using hc'
    obtain rfl : am = am' := by simpa [ham] using ham'
    exact ⟨c, am, files, hc, ham, authorOf_eq_ok.mp ha, hd, hf, hn, rfl⟩
  · rintro ⟨c, am, files, hc, ham, ha, hd, hf, hn, hcmt⟩
    exact ⟨c, hc, am, ham, cd.author, authorOf_eq_ok.mpr ha, c, hc, am, ham, cd.date, hd, files,
      hf, cd.files, ⟨cd.files, hn, rfl⟩, by rw [← hcmt]⟩

theorem getCommitInfoFromDetail_commit {body : Option Value} {cmtid : String} {cd : CommitData}
    (h : getCommitInfoFromDetail body cmtid = .ok cd) : cd.commit = cmtid := by
  simp only [getCommitInfoFromDetail, bind_eq_ok, pure_eq_ok, Except.ok.injEq] at h
  obtain ⟨-, -, -, -, -, -, -, -, -, -, -, -, -, -, -, -, -, -, rfl⟩ := h
  rfl

theorem getCommitInfoFromDetail_files_not_array {body : Option Value} {cmtid : String}
    {commit authorMap : Object} {d : String}
    (hc : index (unmarshalMap body) "commit" = .object commit)
    (ha : index commit "author" = .object authorMap)
    (he : index authorMap "email" = .null ∨ ∃ e, index authorMap "email" = .string e)
    (hd : index authorMap "date" = .string d)
    (hf : ∀ vs, index (unmarshalMap body) "files" ≠ .array vs) :
    getCommitInfoFromDetail body cmtid =
      .error (.interfaceConversion (index (unmarshalMap body) "files").typeName "[]interface {}") := by
  obtain ⟨a, hauthor⟩ : ∃ a, authorOf (index authorMap "email") = .ok a := by
    rcases he with he | ⟨e, he⟩
    · exact ⟨"", authorOf_eq_ok.mpr (.inl ⟨he, rfl⟩)⟩
    · exact ⟨e, authorOf_eq_ok.mpr (.inr he)⟩
  simp [getCommitInfoFromDetail, hc, ha, hd, hauthor, Value.asSlice_of_not_array hf,
    Value.asMap, Value.asString]

theorem getCommitInfoFromDetail_without_files :
    getCommitInfoFromDetail (some (.object [("commit", .object [("author", .object
      [("email", .string "dev@example.com"), ("date", .string "2021-08-10T12:00:00Z")])])]))
      "abc123" = .error (.interfaceConversion "nil" "[]interface {}") :=
  getCommitInfoFromDetail_files_not_array rfl rfl (.inr ⟨_, rfl⟩) rfl (fun _ h => by cases h)

theorem getParentsFromDetail_eq_ok {body : Option Value} {ps : List Parent} :
    getParentsFromDetail body = .ok ps ↔
      ∃ parents, index (unmarshalMap body) "parents" = .array parents ∧
        List.Forall₂ (fun v p => ∃ m, v = .object m ∧ index m "url" = .string p.url ∧
          index m "sha" = .string p.commit) parents ps := by
  simp [getParentsFromDetail, bind_eq_ok, rangeAppend_eq_ok, parentOf_eq_ok]

theorem getParentsFromDetail_parents_not_array {body : Option Value}
    (hp : ∀ ps, index (unmarshalMap body) "parents" ≠ .array ps) :
    getParentsFromDetail body =
      .error (.interfaceConversion (index (unmarshalMap body) "parents").typeName
        "[]interface {}") := by
  simp [getParentsFromDetail, Value.asSlice_of_not_array hp]

theorem getParentsFromDetail_error_response :
    getParentsFromDetail (some (.object [("message", .string "Not Found")])) =
      .error (.interfaceConversion "nil" "[]interface {}") :=
  getParentsFromDetail_parents_not_array (fun _ h => by cases h)

end IntegrityShield.CommitDetail
