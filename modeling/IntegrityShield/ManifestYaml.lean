import IntegrityShield.Types

namespace IntegrityShield.ManifestYaml

open Go Types

abbrev Bytes := Option String

/-- The helpers of `k8smnfutil` and `ghodss/yaml` that `getManifestYaml` calls, none of them
in src/; a Go `[]byte` is a `Bytes`, `none` being the nil slice. `manifestSearchByContent` is
called with nil ignore-field lists, and its diff result is dropped. `unmarshal` is
`yaml.Unmarshal(manifest, &mnfObj)` into an `*unstructured.Unstructured`: an error, or the
pointer it leaves, nil for a document that decodes to null. -/
structure ManifestUtil (Image : Type) where
  pullImage : String → Except String Image
  generateConcatYAMLsFromImage : Image → Except String Bytes
  splitConcatYAMLs : Bytes → List Bytes
  concatenateYAMLs : List Bytes → Bytes
  manifestSearchByGVKNameNamespace : Bytes → String → String → String → String → Bool × Bytes
  manifestSearchByContent : Bytes → Bytes → Bool × Bytes
  marshal : Unstructured → Except String Bytes
  unmarshal : Bytes → Except String (Option Unstructured)

variable {Image : Type} (util : ManifestUtil Image)

/-- The kind-filter loop: a document that fails to decode is skipped, a document of the
object's kind is kept, and `mnfObj.GetKind()` on a document that decodes to null
dereferences a nil pointer. -/
def kindFilter (kind : String) : List Bytes → List Bytes → Except GoPanic (List Bytes)
  | [], kindMatchedYAMLs => pure kindMatchedYAMLs
  | manifest :: yamls, kindMatchedYAMLs =>
    match util.unmarshal manifest with
    | .error _ => kindFilter kind yamls kindMatchedYAMLs
    | .ok none => throw .nilDereference
    | .ok (some mnfObj) =>
      if kind = mnfObj.getKind then kindFilter kind yamls (kindMatchedYAMLs ++ [manifest])
      else kindFilter kind yamls kindMatchedYAMLs

def searchCandidates (obj : Unstructured) (objBytes : Bytes) (kindMatchedYAMLs : List Bytes) :
    Bool × Bytes :=
  let apiVersion := obj.getAPIVersion
  let kind := obj.getKind
  let name := obj.getName
  let «namespace» := obj.getNamespace
  if kindMatchedYAMLs.length = 0 then (false, none) else
  let candidateManifestBytes := util.concatenateYAMLs kindMatchedYAMLs
  if candidateManifestBytes = none then (false, none) else
  let byGVK := util.manifestSearchByGVKNameNamespace candidateManifestBytes apiVersion kind name
    «namespace»
  if byGVK.1 then byGVK else
  let byContent := util.manifestSearchByContent candidateManifestBytes objBytes
  if byContent.1 then byContent else (false, none)

/-- `getManifestYaml`: the manifest of a signed bundle that produced `obj`, searched among the
documents of its kind. -/
def getManifestYaml (imageRef : String) (obj : Unstructured) : Except GoPanic (Bool × Bytes) :=
  match util.pullImage imageRef with
  | .error _ => pure (false, none)
  | .ok image =>
    match util.generateConcatYAMLsFromImage image with
    | .error _ => pure (false, none)
    | .ok concatYAMLbytes =>
      match util.marshal obj with
      | .error _ => pure (false, none)
      | .ok objBytes => do
        let yamls := util.splitConcatYAMLs concatYAMLbytes
        let kindMatchedYAMLs ← kindFilter util obj.getKind yamls []
        pure (searchCandidates util obj objBytes kindMatchedYAMLs)

def ManifestUtil.decoded (m : Bytes) : Option Unstructured :=
  match util.unmarshal m with
  | .ok (some u) => some u
  | _ => none

def ManifestUtil.decodesToNull (m : Bytes) : Bool :=
  match util.unmarshal m with
  | .ok none => true
  | _ => false

def kindMatched (kind : String) (yamls : List Bytes) : List Bytes :=
  yamls.filter (fun m => (util.decoded m).map (·.getKind) == some kind)

def identity (u : Unstructured) : String × String × String × String :=
  (u.getAPIVersion, u.getKind, u.getName, u.getNamespace)

theorem kindFilter_eq (kind : String) (yamls acc : List Bytes) :
    kindFilter util kind yamls acc =
      if yamls.any util.decodesToNull then .error .nilDereference
      else .ok (acc ++ kindMatched util kind yamls) := by
  induction yamls generalizing acc with
  | nil => simp [kindFilter, kindMatched]
  | cons m yamls ih =>
    rcases hm : util.unmarshal m with e | _ | u
    · simp [kindFilter, hm, ih, ManifestUtil.decodesToNull, kindMatched, ManifestUtil.decoded]
    · simp [kindFilter, hm, ManifestUtil.decodesToNull]
    · by_cases hk : kind = u.getKind
      · subst hk
        simp [kindFilter, hm, ih, ManifestUtil.decodesToNull, kindMatched, ManifestUtil.decoded]
      · simp [kindFilter, hm, hk, ih, ManifestUtil.decodesToNull, kindMatched,
          ManifestUtil.decoded, Ne.symm hk]

theorem getManifestYaml_of_bundle {imageRef : String} {obj : Unstructured} {image : Image}
    {concat : Bytes} (hpull : util.pullImage imageRef = .ok image)
    (hgen : util.generateConcatYAMLsFromImage image = .ok concat) :
    getManifestYaml util imageRef obj =
      match util.marshal obj with
      | .error _ => .ok (false, none)
      | .ok objBytes =>
        if (util.splitConcatYAMLs concat).any util.decodesToNull then .error .nilDereference
        else .ok (searchCandidates util obj objBytes
          (kindMatched util obj.getKind (util.splitConcatYAMLs concat))) := by
  simp only [getManifestYaml, hpull, hgen]
  cases util.marshal obj with
  | error e => rfl
  | ok objBytes =>
    simp only [kindFilter_eq, List.nil_append]
    split <;> rfl

theorem getManifestYaml_null_document {imageRef : String} {obj : Unstructured} {image : Image}
    {concat objBytes : Bytes} (hpull : util.pullImage imageRef = .ok image)
    (hgen : util.generateConcatYAMLsFromImage image = .ok concat)
    (hmarshal : util.marshal obj = .ok objBytes)
    (hnull : ∃ m ∈ util.splitConcatYAMLs concat, util.decodesToNull m) :
    getManifestYaml util imageRef obj = .error .nilDereference := by
  rw [getManifestYaml_of_bundle util hpull hgen, hmarshal]
  simp [List.any_eq_true.mpr hnull]

theorem getManifestYaml_eq_error {imageRef : String} {obj : Unstructured} {e : GoPanic} :
    getManifestYaml util imageRef obj = .error e ↔
      e = .nilDereference ∧ ∃ image concat objBytes, util.pullImage imageRef = .ok image ∧
        util.generateConcatYAMLsFromImage image = .ok concat ∧ util.marshal obj = .ok objBytes ∧
        (util.splitConcatYAMLs concat).any util.decodesToNull := by
  cases hpull : util.pullImage imageRef with
  | error _ => simp [getManifestYaml, hpull]
  | ok image =>
    cases hgen : util.generateConcatYAMLsFromImage image with
    | error _ => simp [getManifestYaml, hpull, hgen]
    | ok concat =>
      rw [getManifestYaml_of_bundle util hpull hgen]
      cases hm : util.marshal obj with
      | error _ => simp
      | ok objBytes =>
        split_ifs with hn
        · simp [hn, hgen, -List.any_eq_true, @eq_comm _ GoPanic.nilDereference e]
        · simp [hn, hgen, -List.any_eq_true]

def web : Unstructured :=
  ⟨[("apiVersion", .string "apps/v1"), ("kind", .string "Deployment"),
    ("metadata", .object [("name", .string "web"), ("namespace", .string "default")])]⟩

def emptyDocumentUtil : ManifestUtil Unit where
  pullImage _ := .ok ()
  generateConcatYAMLsFromImage _ := .ok (some "---\nkind: Deployment\n")
  splitConcatYAMLs _ := [some "", some "kind: Deployment\n"]
  concatenateYAMLs yamls := some (String.intercalate "\n---\n" (yamls.map (·.getD "")))
  manifestSearchByGVKNameNamespace _ _ _ _ _ := (false, none)
  manifestSearchByContent _ _ := (false, none)
  marshal _ := .ok (some "kind: Deployment\n")
  unmarshal m := if m = some "" then .ok none else .ok (some web)

theorem getManifestYaml_empty_document :
    getManifestYaml emptyDocumentUtil "registry.example/bundle:1" web = .error .nilDereference :=
  getManifestYaml_null_document emptyDocumentUtil rfl rfl rfl ⟨some "", List.mem_cons_self _ _, rfl⟩

/-- What is assumed of the helpers: each search returns only documents of its input, the
search by identity finds a document of the requested identity whenever its input has one, and
`ConcatenateYAMLs` of a non-empty list is a non-nil slice, as the library's string
concatenation always is. -/
structure SearchContract : Prop where
  concat_ne_nil : ∀ K, K ≠ [] → util.concatenateYAMLs K ≠ none
  byGVK_mem : ∀ b av k n ns, (util.manifestSearchByGVKNameNamespace b av k n ns).1 = true →
    (util.manifestSearchByGVKNameNamespace b av k n ns).2 ∈ util.splitConcatYAMLs b
  byContent_mem : ∀ b o, (util.manifestSearchByContent b o).1 = true →
    (util.manifestSearchByContent b o).2 ∈ util.splitConcatYAMLs b
  byGVK_finds : ∀ b av k n ns,
    (∃ m ∈ util.splitConcatYAMLs b, (util.decoded m).map identity = some (av, k, n, ns)) →
      (util.manifestSearchByGVKNameNamespace b av k n ns).1 = true ∧
      (util.decoded (util.manifestSearchByGVKNameNamespace b av k n ns).2).map identity =
        some (av, k, n, ns)

variable {util}

theorem searchCandidates_nil (obj : Unstructured) (objBytes : Bytes) :
    searchCandidates util obj objBytes [] = (false, none) := rfl

theorem searchCandidates_mem (hs : SearchContract util) {obj : Unstructured} {objBytes : Bytes}
    {K : List Bytes} (h : (searchCandidates util obj objBytes K).1 = true) :
    (searchCandidates util obj objBytes K).2 ∈ util.splitConcatYAMLs (util.concatenateYAMLs K) := by
  dsimp only [searchCandidates] at h ⊢
  split_ifs at h ⊢ with h0 hnil hgvk hcontent
  · exact hs.byGVK_mem _ _ _ _ _ hgvk
  · exact hs.byContent_mem _ _ hcontent

theorem searchCandidates_identity (hs : SearchContract util) {obj : Unstructured}
    {objBytes : Bytes} {K : List Bytes} (hK : K ≠ []) (hnil : util.concatenateYAMLs K ≠ none)
    (hm : ∃ m ∈ util.splitConcatYAMLs (util.concatenateYAMLs K),
      (util.decoded m).map identity = some (identity obj)) :
    (searchCandidates util obj objBytes K).1 = true ∧
      (util.decoded (searchCandidates util obj objBytes K).2).map identity = some (identity obj) := by
  obtain ⟨hfound, hid⟩ := hs.byGVK_finds _ _ _ _ _ hm
  have hlen : K.length ≠ 0 := fun h => hK (List.length_eq_zero.mp h)
  simp only [searchCandidates, hlen, hnil, if_false, hfound, if_true]
  exact ⟨trivial, hid⟩

theorem mem_kindMatched {kind : String} {m : Bytes} {yamls : List Bytes} :
    m ∈ kindMatched util kind yamls ↔ m ∈ yamls ∧ (util.decoded m).map (·.getKind) = some kind := by
  simp [kindMatched]

theorem kind_of_identity {m : Bytes} {obj : Unstructured}
    (h : (util.decoded m).map identity = some (identity obj)) :
    (util.decoded m).map (·.getKind) = some obj.getKind := by
  cases hm : util.decoded m with
  | none => simp [hm] at h
  | some u =>
    simp only [hm, Option.map_some', Option.some.injEq, identity, Prod.mk.injEq] at h ⊢
    exact h.2.1

/-- The manifest locator: with no document of the object's kind it reports none; a manifest
it finds is a document of the bundle of the object's kind; and for a live object, which
marshals, a document of the object's identity is the one found, whatever a content match
would give. -/
theorem getManifestYaml_locates {imageRef : String} {obj : Unstructured} {image : Image}
    {concat : Bytes} {r : Bool × Bytes} (hs : SearchContract util)
    (hpull : util.pullImage imageRef = .ok image)
    (hgen : util.generateConcatYAMLsFromImage image = .ok concat)
    (hsplit : util.splitConcatYAMLs (util.concatenateYAMLs
        (kindMatched util obj.getKind (util.splitConcatYAMLs concat))) =
      kindMatched util obj.getKind (util.splitConcatYAMLs concat))
    (h : getManifestYaml util imageRef obj = .ok r) :
    ((∀ m ∈ util.splitConcatYAMLs concat, (util.decoded m).map (·.getKind) ≠ some obj.getKind) →
      r = (false, none)) ∧
    (r.1 = true → r.2 ∈ util.splitConcatYAMLs concat ∧
      (util.decoded r.2).map (·.getKind) = some obj.getKind) ∧
    ((∃ b, util.marshal obj = .ok b) →
      (∃ m ∈ util.splitConcatYAMLs concat, (util.decoded m).map identity = some (identity obj)) →
      r.1 = true ∧ (util.decoded r.2).map identity = some (identity obj)) := by
  rw [getManifestYaml_of_bundle util hpull hgen] at h
  cases hm : util.marshal obj with
  | error e =>
    rw [hm] at h
    cases h
    exact ⟨fun _ => rfl, fun h => absurd h Bool.false_ne_true, fun ⟨b, hb⟩ => by simp at hb⟩
  | ok objBytes =>
    rw [hm] at h
    split_ifs at h
    cases h
    refine ⟨fun hnone => ?_, fun hfound => ?_, fun _ ⟨m, hmD, hid⟩ => ?_⟩
    · have hK : kindMatched util obj.getKind (util.splitConcatYAMLs concat) = [] :=
        List.filter_eq_nil_iff.mpr fun m hm' => by simpa using hnone m hm'
      rw [hK, searchCandidates_nil]
    · have hmem := searchCandidates_mem hs hfound
      rw [hsplit] at hmem
      exact mem_kindMatched.mp hmem
    · have hmK : m ∈ kindMatched util obj.getKind (util.splitConcatYAMLs concat) :=
        mem_kindMatched.mpr ⟨hmD, kind_of_identity hid⟩
      have hK := List.ne_nil_of_mem hmK
      exact searchCandidates_identity hs hK (hs.concat_ne_nil _ hK)
        ⟨m, by rw [hsplit]; exact hmK, hid⟩

def api : Unstructured :=
  ⟨[("apiVersion", .string "apps/v1"), ("kind", .string "Deployment"),
    ("metadata", .object [("name", .string "api"), ("namespace", .string "default")])]⟩

def sceneDecode (m : Bytes) : Option Unstructured :=
  if m = some "web" then some web else if m = some "api" then some api else none

def sceneSplit (b : Bytes) : List Bytes := if b = some "bundle" then [some "web", some "api"] else []

def sceneUtil : ManifestUtil Unit where
  pullImage _ := .ok ()
  generateConcatYAMLsFromImage _ := .ok (some "bundle")
  splitConcatYAMLs := sceneSplit
  concatenateYAMLs _ := some "bundle"
  manifestSearchByGVKNameNamespace b av k n ns :=
    match (sceneSplit b).find? (fun m => (sceneDecode m).map identity == some (av, k, n, ns)) with
    | some m => (true, m)
    | none => (false, none)
  manifestSearchByContent _ _ := (false, none)
  marshal _ := .ok (some "web")
  unmarshal m :=
    match sceneDecode m with
    | some u => .ok (some u)
    | none => .error "not a manifest"

theorem sceneUtil_decoded (m : Bytes) : sceneUtil.decoded m = sceneDecode m := by
  simp only [ManifestUtil.decoded, sceneUtil]
  cases sceneDecode m <;> rfl

theorem sceneUtil_searchContract : SearchContract sceneUtil := by
  refine ⟨fun _ _ => Option.some_ne_none _, fun b av k n ns h => ?_,
    fun _ _ h => absurd h Bool.false_ne_true, fun b av k n ns ⟨m, hm, hid⟩ => ?_⟩
  · simp only [sceneUtil] at h ⊢
    cases hf : (sceneSplit b).find? (fun m => (sceneDecode m).map identity == some (av, k, n, ns))
    · simp [hf] at h
    · simpa [hf] using List.mem_of_find?_eq_some hf
  · simp only [sceneUtil_decoded] at hid ⊢
    simp only [sceneUtil]
    cases hf : (sceneSplit b).find? (fun m => (sceneDecode m).map identity == some (av, k, n, ns))
    · exact absurd (by simpa using hid) (List.find?_eq_none.mp hf m hm)
    · exact ⟨rfl, by simpa [sceneUtil_decoded] using List.find?_some hf⟩

theorem getManifestYaml_locates_web :
    getManifestYaml sceneUtil "registry.example/bundle:1" web = .ok (true, some "web") ∧
      (sceneUtil.decoded (some "web")).map identity = some (identity web) :=
  have h : getManifestYaml sceneUtil "registry.example/bundle:1" web = .ok (true, some "web") := rfl
  ⟨h, ((@getManifestYaml_locates Unit sceneUtil _ web () (some "bundle") _
    sceneUtil_searchContract rfl rfl rfl h).2.2 ⟨some "web", rfl⟩
    ⟨some "web", List.mem_cons_self _ _, rfl⟩).2⟩

variable (util) in
theorem getManifestYaml_other_documents {imageRef imageRef' : String} {obj : Unstructured}
    {image image' : Image} {concat concat' : Bytes}
    (hpull : util.pullImage imageRef = .ok image)
    (hgen : util.generateConcatYAMLsFromImage image = .ok concat)
    (hpull' : util.pullImage imageRef' = .ok image')
    (hgen' : util.generateConcatYAMLsFromImage image' = .ok concat')
    (hnull : (util.splitConcatYAMLs concat).any util.decodesToNull = false)
    (hnull' : (util.splitConcatYAMLs concat').any util.decodesToNull = false)
    (hK : kindMatched util obj.getKind (util.splitConcatYAMLs concat) =
      kindMatched util obj.getKind (util.splitConcatYAMLs concat')) :
    getManifestYaml util imageRef obj = getManifestYaml util imageRef' obj := by
  simp only [getManifestYaml_of_bundle util hpull hgen, getManifestYaml_of_bundle util hpull' hgen',
    hnull, hnull', hK]

def webService : Unstructured :=
  ⟨[("apiVersion", .string "v1"), ("kind", .string "Service"),
    ("metadata", .object [("name", .string "web"), ("namespace", .string "default")])]⟩

def serviceBundleUtil : ManifestUtil String where
  pullImage imageRef := .ok imageRef
  generateConcatYAMLsFromImage image := .ok (some image)
  splitConcatYAMLs b := if b = some "web+svc" then [some "web", some "svc"] else [some "web"]
  concatenateYAMLs _ := some "web"
  manifestSearchByGVKNameNamespace _ _ _ _ _ := (true, some "web")
  manifestSearchByContent _ _ := (false, none)
  marshal _ := .ok (some "web")
  unmarshal m := if m = some "svc" then .ok (some webService) else .ok (some web)

theorem getManifestYaml_with_service :
    getManifestYaml serviceBundleUtil "web+svc" web = getManifestYaml serviceBundleUtil "web" web :=
  getManifestYaml_other_documents serviceBundleUtil rfl rfl rfl rfl rfl rfl rfl

end IntegrityShield.ManifestYaml
