import IntegrityShield.History

namespace IntegrityShield.Config

open Go

/-- `path/filepath.Clean` on Unix: the shortest path lexically equal to `p`. Empty and `.`
elements are dropped, a `..` removes the element before it, and a rooted path drops the
`..` it starts with. -/
def clean (p : String) : String :=
  if p.data = [] then "." else
  let rooted := p.data.head? = some '/'
  let parts := (p.data.splitOn '/').filter (fun e => e ≠ [] ∧ e ≠ ['.'])
  let stack := parts.foldl (fun acc e =>
    if e = ['.', '.'] then
      match acc with
      | x :: rest => if x = ['.', '.'] then e :: acc else rest
      | [] => if rooted then [] else [e]
    else e :: acc) []
  let body := ['/'].intercalate stack.reverse
  if rooted then ⟨'/' :: body⟩ else if body = [] then "." else ⟨body⟩

def join (dir name : String) : String :=
  if dir ≠ "" then clean (dir ++ "/" ++ name)
  else if name ≠ "" then clean name
  else ""

theorem clean_ne_empty (p : String) : clean p ≠ "" := by
  simp only [clean, ne_eq, String.ext_iff]
  split_ifs <;> simp_all

def IsElement (e : List Char) : Prop := e ≠ [] ∧ '/' ∉ e ∧ e ≠ ['.'] ∧ e ≠ ['.', '.']

instance (e : List Char) : Decidable (IsElement e) :=
  inferInstanceAs (Decidable (_ ∧ _ ∧ _ ∧ _))

theorem foldl_push {f : List (List Char) → List Char → List (List Char)}
    (hf : ∀ acc e, e ≠ ['.', '.'] → f acc e = e :: acc) {l : List (List Char)}
    (hl : ∀ e ∈ l, e ≠ ['.', '.']) (acc : List (List Char)) :
    l.foldl f acc = l.reverse ++ acc := by
  induction l generalizing acc with
  | nil => rfl
  | cons e l ih =>
    rw [List.foldl_cons, hf acc e (hl e (List.mem_cons_self _ _)),
      ih (fun x hx => hl x (List.mem_cons_of_mem _ hx))]
    simp

theorem clean_rooted {es : List (List Char)} (hes : ∀ e ∈ es, e = [] ∨ IsElement e) :
    clean ⟨'/' :: ['/'].intercalate es⟩ = ⟨'/' :: ['/'].intercalate (es.filter (· ≠ []))⟩ := by
  cases es with
  | nil => rfl
  | cons e es =>
    have hsep : ∀ l ∈ [] :: e :: es, '/' ∉ l := by
      intro l hl
      rcases List.mem_cons.mp hl with rfl | hl
      · exact List.not_mem_nil _
      · rcases hes l hl with rfl | he
        · exact List.not_mem_nil _
        · exact he.2.1
    have hsplit : ('/' :: ['/'].intercalate (e :: es)).splitOn '/' = [] :: e :: es := by
      simpa [List.intercalate, List.intersperse_cons_cons] using
        List.splitOn_intercalate ([] :: e :: es) '/' hsep (List.cons_ne_nil _ _)
    have hfilter : ∀ x ∈ e :: es, decide (x ≠ [] ∧ x ≠ ['.']) = decide (x ≠ []) := by
      intro x hx
      rcases hes x hx with rfl | hx'
      · rfl
      · simp [hx'.1, hx'.2.2.1]
    have hkept : ([] :: e :: es).filter (fun x => decide (x ≠ [] ∧ x ≠ ['.'])) =
        (e :: es).filter (· ≠ []) := by
      rw [List.filter_cons_of_neg (by simp)]
      exact List.filter_congr hfilter
    have hdots : ∀ x ∈ (e :: es).filter (· ≠ []), x ≠ ['.', '.'] := by
      intro x hx
      obtain ⟨hx, hne⟩ := List.mem_filter.mp hx
      rcases hes x hx with rfl | hx'
      · simp at hne
      · exact hx'.2.2.2
    simp only [clean, hsplit, hkept, List.cons_ne_nil, List.head?_cons, if_false, if_true]
    rw [foldl_push (fun acc x hx => if_neg hx) hdots, List.append_nil, List.reverse_reverse]

structure LogConfig where
  level : String
  manifestSigstoreLogLevel : String
  format : String

inductive LogLevel where
  | panicLevel | fatalLevel | errorLevel | warnLevel | infoLevel | debugLevel | traceLevel
  deriving Repr, DecidableEq

def logLevelMap : List (String × LogLevel) :=
  [("panic", .panicLevel), ("fatal", .fatalLevel), ("error", .errorLevel), ("warn", .warnLevel),
    ("info", .infoLevel), ("debug", .debugLevel), ("trace", .traceLevel)]

structure LoggerSetup where
  k8sLogLevel : String
  level : LogLevel
  jsonFormatter : Bool
  deriving Repr, DecidableEq

/-- `SetupLogger`; the admission request it is given is not read. -/
def setupLogger (config : LogConfig) : LoggerSetup :=
  let levels := if config.level = "" ∧ config.manifestSigstoreLogLevel = "" then ("info", "info")
    else (config.level, config.manifestSigstoreLogLevel)
  let logLevelStr := if levels.1 = "" ∧ levels.2 ≠ "" then levels.2 else levels.1
  let k8sLogLevelStr := if logLevelStr ≠ "" ∧ levels.2 = "" then logLevelStr else levels.2
  { k8sLogLevel := k8sLogLevelStr, level := (logLevelMap.lookup logLevelStr).getD .infoLevel,
    jsonFormatter := config.format == "json" }

theorem setupLogger_fallback (config : LogConfig) :
    (setupLogger config).k8sLogLevel =
      (if config.manifestSigstoreLogLevel ≠ "" then config.manifestSigstoreLogLevel
        else if config.level ≠ "" then config.level else "info") ∧
    (setupLogger config).level =
      (logLevelMap.lookup (if config.level ≠ "" then config.level
        else if config.manifestSigstoreLogLevel ≠ "" then config.manifestSigstoreLogLevel
        else "info")).getD .infoLevel := by
  by_cases hl : config.level = "" <;> by_cases hk : config.manifestSigstoreLogLevel = "" <;>
    simp [setupLogger, hl, hk]

structure Secret where
  data : GoMap (List UInt8)

def keyDir (keySecretNamespace keySecretName : String) : String :=
  "/tmp/" ++ keySecretNamespace ++ "/" ++ keySecretName ++ "/"

/-- The range loop over `secret.Data`, in the order of one run: a failed write adds its error
and goes on, the first successful one ends the loop with its path. `writeFile` is the outcome
of `ioutil.WriteFile` at a path: `none` when it succeeds, the error's text otherwise. -/
def writeKeyFiles (writeFile : String → List UInt8 → Option String) (keyDir : String) :
    List (String × List UInt8) → String × List String → String × List String
  | [], st => st
  | (fname, keyData) :: rest, (keyPath, sumErr) =>
    let fpath := join keyDir fname
    match writeFile fpath keyData with
    | some err => writeKeyFiles writeFile keyDir rest (keyPath, sumErr ++ [err])
    | none => (fpath, sumErr)

/-- `LoadKeySecret`. `getResource` is the outcome of `kubeutil.GetResource` for the secret, and
`iterate` the order in which the runtime ranges over a map in this run. -/
def loadKeySecret (getResource : Except String Secret)
    (writeFile : String → List UInt8 → Option String)
    (iterate : GoMap (List UInt8) → List (String × List UInt8))
    (keySecretNamespace keySecretName : String) : Except String String :=
  match getResource with
  | .error err => .error ("failed to get a secret `" ++ keySecretName ++ "` in `" ++
      keySecretNamespace ++ "` namespace: " ++ err)
  | .ok secret =>
    let keyPathSumErr := writeKeyFiles writeFile (keyDir keySecretNamespace keySecretName)
      (iterate secret.data) ("", [])
    let keyPath := keyPathSumErr.1
    let sumErr := keyPathSumErr.2
    if keyPath = "" ∧ sumErr.length > 0 then
      .error ("failed to save secret data as a file; " ++ "; ".intercalate sumErr)
    else if keyPath = "" then
      .error ("no key files are found in the secret `" ++ keySecretName ++ "` in `" ++
        keySecretNamespace ++ "` namespace")
    else .ok keyPath

theorem join_ne_empty {dir : String} (name : String) (h : dir ≠ "") : join dir name ≠ "" := by
  simpa [join, h] using clean_ne_empty (dir ++ "/" ++ name)

theorem keyDir_ne_empty (keySecretNamespace keySecretName : String) :
    keyDir keySecretNamespace keySecretName ≠ "" := by
  simp [keyDir, String.ext_iff]

theorem join_keyDir {ns name fname : String} (hns : IsElement ns.data)
    (hname : IsElement name.data) (hf : IsElement fname.data) :
    join (keyDir ns name) fname = keyDir ns name ++ fname := by
  have hpath : keyDir ns name ++ "/" ++ fname =
      ⟨'/' :: ['/'].intercalate [['t', 'm', 'p'], ns.data, name.data, [], fname.data]⟩ := by
    apply String.ext
    simp [keyDir, List.intercalate]
  have hes : ∀ e ∈ [['t', 'm', 'p'], ns.data, name.data, [], fname.data], e = [] ∨ IsElement e := by
    simp only [List.mem_cons, List.mem_singleton, List.not_mem_nil, or_false]
    rintro e (rfl | rfl | rfl | rfl | rfl)
    · exact .inr (by decide)
    · exact .inr hns
    · exact .inr hname
    · exact .inl rfl
    · exact .inr hf
  rw [join, if_pos (keyDir_ne_empty ns name), hpath, clean_rooted hes]
  apply String.ext
  simp [keyDir, List.intercalate, hns.1, hname.1, hf.1]

-- A key named `..`, which Kubernetes rejects, would leave the key directory.
example : join (keyDir "default" "keys") ".." = "/tmp/default" := rfl

def writable (writeFile : String → List UInt8 → Option String) (dir : String)
    (e : String × List UInt8) : Bool :=
  (writeFile (join dir e.1) e.2).isNone

variable {writeFile : String → List UInt8 → Option String} {dir : String}

theorem writeKeyFiles_found {order : List (String × List UInt8)} {e : String × List UInt8}
    (st : String × List String) (h : order.find? (writable writeFile dir) = some e) :
    (writeKeyFiles writeFile dir order st).1 = join dir e.1 := by
  induction order generalizing st with
  | nil => simp at h
  | cons x xs ih =>
    obtain ⟨keyPath, sumErr⟩ := st
    cases hx : writeFile (join dir x.1) x.2 with
    | none =>
      have hw : writable writeFile dir x = true := by simp [writable, hx]
      rw [List.find?_cons_of_pos _ hw, Option.some.injEq] at h
      subst h
      simp [writeKeyFiles, hx]
    | some err =>
      have hw : ¬ writable writeFile dir x = true := by simp [writable, hx]
      rw [List.find?_cons_of_neg _ hw] at h
      simpa [writeKeyFiles, hx] using ih _ h

theorem writeKeyFiles_none {order : List (String × List UInt8)} (keyPath : String)
    (sumErr : List String) (h : order.find? (writable writeFile dir) = none) :
    writeKeyFiles writeFile dir order (keyPath, sumErr) =
      (keyPath, sumErr ++ order.filterMap (fun e => writeFile (join dir e.1) e.2)) := by
  induction order generalizing sumErr with
  | nil => simp [writeKeyFiles]
  | cons x xs ih =>
    cases hx : writeFile (join dir x.1) x.2 with
    | none => simp [writable, hx] at h
    | some err =>
      have hw : ¬ writable writeFile dir x = true := by simp [writable, hx]
      rw [List.find?_cons_of_neg _ hw] at h
      simp [writeKeyFiles, hx, ih _ h]

theorem loadKeySecret_ok_eq (secret : Secret)
    (iterate : GoMap (List UInt8) → List (String × List UInt8)) (ns name : String) :
    loadKeySecret (.ok secret) writeFile iterate ns name =
      match (iterate secret.data).find? (writable writeFile (keyDir ns name)) with
      | some e => .ok (join (keyDir ns name) e.1)
      | none =>
        if iterate secret.data = [] then
          .error ("no key files are found in the secret `" ++ name ++ "` in `" ++ ns ++
            "` namespace")
        else .error ("failed to save secret data as a file; " ++ "; ".intercalate
          ((iterate secret.data).filterMap (fun e => writeFile (join (keyDir ns name) e.1) e.2))) := by
  cases hfind : (iterate secret.data).find? (writable writeFile (keyDir ns name)) with
  | some e =>
    have hpath := writeKeyFiles_found ("", []) hfind
    have hne := join_ne_empty e.1 (keyDir_ne_empty ns name)
    simp [loadKeySecret, hpath, hne]
  | none =>
    simp only [loadKeySecret, writeKeyFiles_none "" [] hfind, List.nil_append]
    cases horder : iterate secret.data with
    | nil => simp
    | cons x xs =>
      have hx : ¬ writable writeFile (keyDir ns name) x = true :=
        List.find?_eq_none.mp hfind x (by simp [horder])
      obtain ⟨err, herr⟩ : ∃ err, writeFile (join (keyDir ns name) x.1) x.2 = some err := by
        simpa [writable, Option.isNone_iff_eq_none, Option.ne_none_iff_exists'] using hx
      simp [herr]

/-- Which key file is used follows the map's iteration order: the result is the same in
every order of the bindings when at most one key file can be written. -/
theorem loadKeySecret_first_writable (secret : Secret) (ns name : String) :
    (∀ iterate, loadKeySecret (.ok secret) writeFile iterate ns name =
      match (iterate secret.data).find? (writable writeFile (keyDir ns name)) with
      | some e => .ok (join (keyDir ns name) e.1)
      | none =>
        if iterate secret.data = [] then
          .error ("no key files are found in the secret `" ++ name ++ "` in `" ++ ns ++
            "` namespace")
        else .error ("failed to save secret data as a file; " ++ "; ".intercalate
          ((iterate secret.data).filterMap (fun e => writeFile (join (keyDir ns name) e.1) e.2)))) ∧
    ((∀ e₁ ∈ secret.data.entries, ∀ e₂ ∈ secret.data.entries,
        writable writeFile (keyDir ns name) e₁ → writable writeFile (keyDir ns name) e₂ → e₁ = e₂) →
      ∀ iterate₁ iterate₂, List.Perm (iterate₁ secret.data) secret.data.entries →
        List.Perm (iterate₂ secret.data) secret.data.entries →
        (loadKeySecret (.ok secret) writeFile iterate₁ ns name).toOption =
          (loadKeySecret (.ok secret) writeFile iterate₂ ns name).toOption) := by
  refine ⟨fun iterate => loadKeySecret_ok_eq secret iterate ns name,
    fun huniq iterate₁ iterate₂ h₁ h₂ => ?_⟩
  have hfind := @History.find?_perm_of_unique _ (writable writeFile (keyDir ns name)) _ _
    (h₁.trans h₂.symm) fun x hx y hy => huniq x (h₁.mem_iff.mp hx) y (h₁.mem_iff.mp hy)
  rw [loadKeySecret_ok_eq, loadKeySecret_ok_eq, hfind]
  cases (iterate₂ secret.data).find? (writable writeFile (keyDir ns name)) with
  | some e => rfl
  | none => split_ifs <;> rfl

def onlyAWritable (path : String) (_ : List UInt8) : Option String :=
  if path = "/tmp/default/keys/a.pub" then none else some "permission denied"

def twoKeyFiles : GoMap (List UInt8) := ⟨[("a.pub", []), ("b.pub", [])], by decide⟩

theorem loadKeySecret_order_dependent :
    List.Perm [("a.pub", ([] : List UInt8)), ("b.pub", [])] twoKeyFiles.entries ∧
    List.Perm [("b.pub", ([] : List UInt8)), ("a.pub", [])] twoKeyFiles.entries ∧
    loadKeySecret (.ok ⟨twoKeyFiles⟩) (fun _ _ => none) (fun _ => [("a.pub", []), ("b.pub", [])])
      "default" "keys" = .ok "/tmp/default/keys/a.pub" ∧
    loadKeySecret (.ok ⟨twoKeyFiles⟩) (fun _ _ => none) (fun _ => [("b.pub", []), ("a.pub", [])])
      "default" "keys" = .ok "/tmp/default/keys/b.pub" :=
  ⟨List.Perm.refl _, List.Perm.swap _ _ _, rfl, rfl⟩

theorem loadKeySecret_one_writable :
    (loadKeySecret (.ok ⟨twoKeyFiles⟩) onlyAWritable (fun _ => [("a.pub", []), ("b.pub", [])])
      "default" "keys").toOption =
    (loadKeySecret (.ok ⟨twoKeyFiles⟩) onlyAWritable (fun _ => [("b.pub", []), ("a.pub", [])])
      "default" "keys").toOption :=
  (loadKeySecret_first_writable ⟨twoKeyFiles⟩ "default" "keys").2 (by decide) _ _
    (List.Perm.refl _) (List.Perm.swap _ _ _)

theorem loadKeySecret_key_path {secret : Secret}
    {iterate : GoMap (List UInt8) → List (String × List UInt8)} {ns name p : String}
    (hperm : List.Perm (iterate secret.data) secret.data.entries)
    (hns : IsElement ns.data) (hname : IsElement name.data)
    (hkeys : ∀ e ∈ secret.data.entries, IsElement e.1.data)
    (h : loadKeySecret (.ok secret) writeFile iterate ns name = .ok p) :
    ∃ e ∈ secret.data.entries, p = keyDir ns name ++ e.1 ∧ writeFile p e.2 = none := by
  rw [loadKeySecret_ok_eq] at h
  cases hfind : (iterate secret.data).find? (writable writeFile (keyDir ns name)) with
  | none => rw [hfind] at h; split_ifs at h
  | some e =>
    rw [hfind] at h
    cases h
    have he := hperm.mem_iff.mp (List.mem_of_find?_eq_some hfind)
    have hw := List.find?_some hfind
    exact ⟨e, he, join_keyDir hns hname (hkeys e he), by simpa [writable] using hw⟩

theorem loadKeySecret_key_path_default :
    ∃ e ∈ twoKeyFiles.entries, "/tmp/default/keys/a.pub" = keyDir "default" "keys" ++ e.1 ∧
      onlyAWritable "/tmp/default/keys/a.pub" e.2 = none :=
  @loadKeySecret_key_path onlyAWritable ⟨twoKeyFiles⟩ (fun _ => [("b.pub", []), ("a.pub", [])])
    "default" "keys" _ (List.Perm.swap _ _ _) (by decide) (by decide) (by decide) rfl

theorem loadKeySecret_returns_path_iff {secret : Secret}
    {iterate : GoMap (List UInt8) → List (String × List UInt8)} {ns name : String}
    (hperm : List.Perm (iterate secret.data) secret.data.entries) :
    (∃ p, loadKeySecret (.ok secret) writeFile iterate ns name = .ok p) ↔
      ∃ e ∈ secret.data.entries, writeFile (join (keyDir ns name) e.1) e.2 = none := by
  rw [loadKeySecret_ok_eq]
  cases hfind : (iterate secret.data).find? (writable writeFile (keyDir ns name)) with
  | some e =>
    have he := hperm.mem_iff.mp (List.mem_of_find?_eq_some hfind)
    exact iff_of_true ⟨_, rfl⟩ ⟨e, he, by simpa [writable] using List.find?_some hfind⟩
  | none =>
    refine iff_of_false (fun ⟨p, hp⟩ => by split_ifs at hp) fun ⟨e, he, hw⟩ => ?_
    have := List.find?_eq_none.mp hfind e (hperm.mem_iff.mpr he)
    simp [writable, hw] at this

theorem loadKeySecret_returns_path_two_keys :
    (∃ p, loadKeySecret (.ok ⟨twoKeyFiles⟩) onlyAWritable (fun _ => [("b.pub", []), ("a.pub", [])])
      "default" "keys" = .ok p) ↔
      ∃ e ∈ twoKeyFiles.entries, onlyAWritable (join (keyDir "default" "keys") e.1) e.2 = none :=
  @loadKeySecret_returns_path_iff onlyAWritable ⟨twoKeyFiles⟩ (fun _ => [("b.pub", []), ("a.pub", [])])
    "default" "keys" (List.Perm.swap _ _ _)

end IntegrityShield.Config
