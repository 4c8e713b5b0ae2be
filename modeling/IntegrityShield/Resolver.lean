import IntegrityShield.CommitDetail
import IntegrityShield.GitUrl

namespace IntegrityShield.Resolver

open Go Types GitUrl CommitDetail

/-- What `accessGitRepo` gets from `net/http`: whether `http.NewRequest` accepts a URL, and
the outcome of `client.Get` on it, a transport error or the body it read (as `encoding/json`
reads it: `none` when it is not JSON). -/
structure Http where
  newRequestOk : String → Bool
  get : String → Except String (Option Value)

/-- `accessGitRepo`. The request carrying the bearer token is built and then dropped, as the
GET is `client.Get(url)`; errors are only logged, so a rejected URL dereferences a nil
request and a transport error a nil response. -/
def accessGitRepo (http : Http) (url token : String) : Except GoPanic (Option Value) := do
  let _bearer := "Bearer " ++ token
  if !http.newRequestOk url then throw .nilDereference
  match http.get url with
  | .error _ => throw .nilDereference
  | .ok body => pure body

def setNewManifestProvenanceResult (http : Http) (token : String) (prov : ManifestProvenanceInfo) :
    Except GoPanic ManifestProvenanceResult := do
  let data ← accessGitRepo http prov.gitApiURL token
  let cmtd ← getCommitInfoFromDetail data prov.commitID
  pure { gitRepo := prov.gitRepo, gitApiURL := prov.gitApiURL, commitID := prov.commitID,
         commitDate := cmtd.date, author := cmtd.author, files := cmtd.files, hash := prov.hash,
         artifact := prov.artifact }

structure Statement where
  predicate : Value

def commitInfoOf (http : Http) (token : String) (m : Value) : Except GoPanic CommitData := do
  let uri := index (← m.asMap) "uri"
  let digest := index (← m.asMap) "digest"
  let commit := index (← digest.asMap) "commit"
  let commitStr ← commit.asString
  let url := convertToCommitDetailURL (← uri.asString) commitStr
  let data ← accessGitRepo http url token
  getCommitInfoFromDetail data commitStr

/-- `getCommitInfo`. `statement` is what `json.Unmarshal` leaves in the `*in_toto.Statement`:
nil when the attestation is not JSON or is `null`. A missing or non-array `materials` is
only logged and leaves a nil slice. -/
def getCommitInfo (http : Http) (token : String) (statement : Option Statement) :
    Except GoPanic (List CommitData) := do
  let st ← match statement with
    | none => throw .nilDereference
    | some st => pure st
  let predicate := st.predicate
  let materials := index (← predicate.asMap) "materials"
  let materialsArray := materials.toSlice
  rangeAppend (commitInfoOf http token) materialsArray []

theorem accessGitRepo_eq_ok {http : Http} {url token : String} {body : Option Value} :
    accessGitRepo http url token = .ok body ↔ http.newRequestOk url ∧ http.get url = .ok body := by
  unfold accessGitRepo
  cases hn : http.newRequestOk url <;> cases hg : http.get url <;>
    simp

theorem setNewManifestProvenanceResult_fields {http : Http} {token : String}
    {prov : ManifestProvenanceInfo} {r : ManifestProvenanceResult}
    (h : setNewManifestProvenanceResult http token prov = .ok r) :
    r.gitRepo = prov.gitRepo ∧ r.gitApiURL = prov.gitApiURL ∧ r.commitID = prov.commitID ∧
      r.hash = prov.hash ∧ r.artifact = prov.artifact := by
  simp only [setNewManifestProvenanceResult, bind_eq_ok] at h
  obtain ⟨_, -, _, -, hr⟩ := h
  cases hr
  exact ⟨rfl, rfl, rfl, rfl, rfl⟩

theorem setNewManifestProvenanceResult_unresolved (http : Http) (token : String)
    (prov : ManifestProvenanceInfo) :
    (∀ e, http.get prov.gitApiURL = .error e →
      setNewManifestProvenanceResult http token prov = .error .nilDereference) ∧
    (∀ body, http.newRequestOk prov.gitApiURL → http.get prov.gitApiURL = .ok body →
      (∀ m, index (unmarshalMap body) "commit" ≠ .object m) →
      setNewManifestProvenanceResult http token prov =
        .error (.interfaceConversion (index (unmarshalMap body) "commit").typeName
          "map[string]interface {}")) := by
  refine ⟨fun e he => ?_, fun body hn hg hc => ?_⟩
  · unfold setNewManifestProvenanceResult accessGitRepo
    cases hn : http.newRequestOk prov.gitApiURL <;>
      simp [hn, he]
  · have hacc : accessGitRepo http prov.gitApiURL token = .ok body := accessGitRepo_eq_ok.mpr ⟨hn, hg⟩
    simp [setNewManifestProvenanceResult, hacc, getCommitInfoFromDetail,
      Value.asMap_of_not_object hc]

theorem setNewManifestProvenanceResult_error_response :
    setNewManifestProvenanceResult
      ⟨fun _ => true, fun _ => .ok (some (.object [("message", .string "Bad credentials")]))⟩
      "" default = .error (.interfaceConversion "nil" "map[string]interface {}") :=
  (setNewManifestProvenanceResult_unresolved _ "" default).2
    (some (.object [("message", .string "Bad credentials")])) rfl rfl (fun _ h => by cases h)

theorem commitInfoOf_eq_ok {http : Http} {token : String} {m : Value} {cd : CommitData} :
    commitInfoOf http token m = .ok cd ↔
      ∃ mfs dig uri body, m = .object mfs ∧ index mfs "uri" = .string uri ∧
        index mfs "digest" = .object dig ∧ index dig "commit" = .string cd.commit ∧
        http.newRequestOk (convertToCommitDetailURL uri cd.commit) ∧
        http.get (convertToCommitDetailURL uri cd.commit) = .ok body ∧
        getCommitInfoFromDetail body cd.commit = .ok cd := by
  simp only [commitInfoOf, bind_eq_ok, Value.asMap_eq_ok, Value.asString_eq_ok,
    accessGitRepo_eq_ok]
  constructor
  · rintro ⟨mfs, rfl, _, hm, dig, hd, c, hc, uri, hu, body, ⟨hn, hg⟩, h⟩
    cases hm
    obtain rfl := getCommitInfoFromDetail_commit h
    exact ⟨mfs, dig, uri, body, rfl, hu, hd, hc, hn, hg, h⟩
  · rintro ⟨mfs, dig, uri, body, rfl, hu, hd, hc, hn, hg, h⟩
    exact ⟨mfs, rfl, mfs, rfl, dig, hd, _, hc, uri, hu, body, ⟨hn, hg⟩, h⟩

theorem getCommitInfo_eq_ok {http : Http} {token : String} {statement : Option Statement}
    {res : List CommitData} :
    getCommitInfo http token statement = .ok res ↔
      ∃ st fs, statement = some st ∧ st.predicate = .object fs ∧
        List.Forall₂ (fun m cd => ∃ mfs dig uri body, m = .object mfs ∧
            index mfs "uri" = .string uri ∧ index mfs "digest" = .object dig ∧
            index dig "commit" = .string cd.commit ∧
            http.newRequestOk (convertToCommitDetailURL uri cd.commit) ∧
            http.get (convertToCommitDetailURL uri cd.commit) = .ok body ∧
            getCommitInfoFromDetail body cd.commit = .ok cd)
          (index fs "materials").toSlice res := by
  cases statement with
  | none => simp [getCommitInfo]
  | some st => simp [getCommitInfo, bind_eq_ok, rangeAppend_eq_ok, commitInfoOf_eq_ok]

theorem getCommitInfo_material_without_commit (http : Http) (token : String)
    {fs mfs dfs : Object} {ms₁ ms₂ : List Value}
    (hmat : index fs "materials" = .array (ms₁ ++ .object mfs :: ms₂))
    (hok : ∀ m ∈ ms₁, ∃ cd, commitInfoOf http token m = .ok cd)
    (hd : index mfs "digest" = .object dfs) (hc : index dfs "commit" = .null) :
    getCommitInfo http token (some ⟨.object fs⟩) = .error (.interfaceConversion "nil" "string") := by
  simp [getCommitInfo, hmat, Value.toSlice, rangeAppend_append _ _ _ _ hok, rangeAppend,
    commitInfoOf, hd, hc, Value.asMap, Value.asString, Value.typeName]

theorem getCommitInfo_sha256_material :
    getCommitInfo ⟨fun _ => true, fun _ => .error "unreachable"⟩ "" (some ⟨.object [("materials",
      .array [.object [("uri", .string "https://github.com/acme/app.git"),
        ("digest", .object [("sha256", .string "4e1243bd22c66e76c2ba9eddc1f91394")])]])]⟩) =
      .error (.interfaceConversion "nil" "string") :=
  @getCommitInfo_material_without_commit _ "" _ _ _ [] _ rfl (fun _ h => nomatch h) rfl rfl

end IntegrityShield.Resolver
