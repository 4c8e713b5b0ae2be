import IntegrityShield.Go
import IntegrityShield.Heap

namespace IntegrityShield.DeepCopy

open Go Heap

structure ControllerContainer where
  selectorLabels : Ref
  securityContext : Ref
  resources : Value
  log : Value
  deriving Inhabited

structure Observer where
  selectorLabels : Ref
  securityContext : Ref
  deriving Inhabited

structure SecurityConfig where
  podSecurityContext : Ref
  deriving Inhabited

structure ServerContainer where
  selectorLabels : Ref
  securityContext : Ref
  resources : Value
  deriving Inhabited

structure IntegrityShieldSpec where
  maxSurge : Ref
  maxUnavailable : Ref
  replicaCount : Ref
  metaLabels : Ref
  nodeSelector : Ref
  affinity : Ref
  tolerations : Ref
  security : SecurityConfig
  server : ServerContainer
  controllerContainer : ControllerContainer
  observer : Observer
  webhookNamespacedResource : Value
  webhookClusterResource : Value
  deriving Inhabited

structure IntegrityShield where
  typeMeta : Value
  objectMeta : Value
  spec : IntegrityShieldSpec
  status : Value
  deriving Inhabited

structure IntegrityShieldList where
  typeMeta : Value
  listMeta : Value
  items : Ref
  deriving Inhabited

/-- An object of the heap: a `map[string]string`, what a pointer to a type declared outside src
or to a type of values only points to, the backing array of a slice of such a type or of
`IntegrityShield`, or a structure of src made by `new`. The structures keep the fields their
`DeepCopyInto` names; a field of a type declared outside src is kept as its value. -/
inductive Cell where
  | stringMap (m : GoMap String)
  | value (v : Value)
  | values (vs : List Value)
  | shields (xs : List IntegrityShield)
  | shield (x : IntegrityShield)
  | shieldList (x : IntegrityShieldList)
  | shieldSpec (x : IntegrityShieldSpec)
  | controllerContainer (x : ControllerContainer)
  | observer (x : Observer)
  | securityConfig (x : SecurityConfig)
  | serverContainer (x : ServerContainer)

abbrev Heap := List Cell

def asStringMap : Option Cell → GoMap String
  | some (.stringMap m) => m
  | _ => GoMap.empty

def asValue : Option Cell → Value
  | some (.value v) => v
  | _ => .null

def asValues : Option Cell → List Value
  | some (.values vs) => vs
  | _ => []

def asShields : Option Cell → List IntegrityShield
  | some (.shields xs) => xs
  | _ => []

@[simp] theorem asShields_shields (xs : List IntegrityShield) : asShields (some (.shields xs)) = xs :=
  rfl

def asShield : Option Cell → IntegrityShield
  | some (.shield x) => x
  | _ => default

def asShieldList : Option Cell → IntegrityShieldList
  | some (.shieldList x) => x
  | _ => default

def asShieldSpec : Option Cell → IntegrityShieldSpec
  | some (.shieldSpec x) => x
  | _ => default

def asControllerContainer : Option Cell → ControllerContainer
  | some (.controllerContainer x) => x
  | _ => default

def asObserver : Option Cell → Observer
  | some (.observer x) => x
  | _ => default

def asSecurityConfig : Option Cell → SecurityConfig
  | some (.securityConfig x) => x
  | _ => default

def asServerContainer : Option Cell → ServerContainer
  | some (.serverContainer x) => x
  | _ => default

def mapView (h : Heap) (r : Ref) : Option (String → Option String) :=
  refView (fun c => (asStringMap c).get?) h r

variable {iterate : Nat → GoMap String → List (String × String)}

/-- `*out = new(T)` with the copy of `*in` in it, under `if in.X != nil`, for a `T` declared
outside src: `**out = **in`, or `(*in).DeepCopyInto(*out)`, whose copy is kept as the value. -/
def copyPointee (h : Heap) : Ref → Heap × Ref
  | none => (h, none)
  | some a =>
    let (h', b) := alloc h (.value (asValue h[a]?))
    (h', some b)

def copySlice (h : Heap) : Ref → Heap × Ref
  | none => (h, none)
  | some a =>
    let (h', b) := alloc h (.values (asValues h[a]?))
    (h', some b)

theorem copyPointee_spec : CopySpec (fun _ => Option.toList) (refView asValue) copyPointee :=
  copySpec_alloc asValue (fun c => .value (asValue c)) copyPointee (fun _ => rfl)
    (fun _ => rfl) (fun _ _ => rfl)

theorem copySlice_spec : CopySpec (fun _ => Option.toList) (refView asValues) copySlice :=
  copySpec_alloc asValues (fun c => .values (asValues c)) copySlice (fun _ => rfl)
    (fun _ => rfl) (fun _ _ => rfl)

def mapAssign (h : Heap) (b : Nat) (key val : String) : Heap :=
  match h[b]? with
  | some (.stringMap m) => h.set b (.stringMap (m.assign key val))
  | _ => h

/-- `*out = make(map[string]string, len(*in)); for key, val := range *in { (*out)[key] = val }`
under `if in.X != nil`. The runtime picks the order of every range loop afresh: `iterate b` is
the order of the loop that fills the new map at `b`, so each loop of a copy has its own. -/
def copyStringMap (iterate : Nat → GoMap String → List (String × String)) (h : Heap) :
    Ref → Heap × Ref
  | none => (h, none)
  | some a =>
    let src := asStringMap h[a]?
    let (h', b) := alloc h (.stringMap GoMap.empty)
    ((iterate b src).foldl (fun h kv => mapAssign h b kv.1 kv.2) h', some b)

theorem assignLoop_spec {b : Nat} (kvs : List (String × String)) (h : Heap) (m : GoMap String)
    (hb : h[b]? = some (.stringMap m)) (hk : ((m.entries ++ kvs).map Prod.fst).Nodup) :
    let h' := kvs.foldl (fun h kv => mapAssign h b kv.1 kv.2) h
    h'.length = h.length ∧ (∀ a, a ≠ b → h'[a]? = h[a]?) ∧
      ∃ m', h'[b]? = some (.stringMap m') ∧ m'.entries = m.entries ++ kvs := by
  induction kvs generalizing h m with
  | nil => exact ⟨rfl, fun _ _ => rfl, m, hb, by simp⟩
  | cons kv kvs ih =>
    have hnew : kv.1 ∉ m.entries.map Prod.fst := by
      simp only [List.map_append, List.map_cons, List.nodup_append, List.nodup_cons] at hk
      exact fun h => hk.2.2 h (List.mem_cons_self _ _)
    have hbl : b < h.length := (List.getElem?_eq_some_iff.mp hb).1
    have hstep : mapAssign h b kv.1 kv.2 = h.set b (.stringMap (m.assign kv.1 kv.2)) := by
      simp [mapAssign, hb]
    have hentries := GoMap.entries_assign_of_not_mem kv.2 hnew
    obtain ⟨hlen, hother, m', hm', hentries'⟩ := ih (h.set b (.stringMap (m.assign kv.1 kv.2)))
      (m.assign kv.1 kv.2) (by simp [hbl]) (by simpa [hentries] using hk)
    simp only [List.foldl_cons, hstep]
    refine ⟨by simpa using hlen, fun a ha => ?_, m', hm', by simp [hentries', hentries]⟩
    rw [hother a ha, List.getElem?_set_ne (Ne.symm ha)]

theorem copyStringMap_spec (hit : ∀ b m, List.Perm (iterate b m) m.entries) :
    CopySpec (fun _ => Option.toList) mapView (copyStringMap iterate) := by
  intro h₀ h r e hr
  cases r with
  | none => exact ⟨Extends.refl h, by simp [Fresh, copyStringMap], fun h₂ _ => rfl⟩
  | some a =>
    have ha : a < h₀.length := hr a (List.mem_singleton_self a)
    set src := asStringMap h[a]?
    have hk : ((GoMap.empty.entries ++ iterate h.length src).map Prod.fst).Nodup :=
      ((hit h.length src).map Prod.fst).nodup_iff.mpr src.nodup
    obtain ⟨hlen, hother, m', hm', hentries⟩ :=
      assignLoop_spec (b := h.length) (iterate h.length src)
      (alloc h (.stringMap GoMap.empty)).1 GoMap.empty (alloc_get_new h _) hk
    set h' := (iterate h.length src).foldl (fun h' kv => mapAssign h' h.length kv.1 kv.2)
      (alloc h (.stringMap GoMap.empty)).1
    have hcopy : copyStringMap iterate h (some a) = (h', some h.length) := rfl
    have hlen' : h'.length = h.length + 1 := by simpa [alloc] using hlen
    rw [hcopy]
    show Extends h h' ∧ Fresh h h' [h.length] ∧
      ∀ h₂, (∀ c ∈ [h.length], h₂[c]? = h'[c]?) →
        mapView h₂ (some h.length) = mapView h₀ (some a)
    refine ⟨⟨by omega, fun c hc => ?_⟩, by simp [Fresh, hlen'], fun h₂ e₂ => ?_⟩
    · rw [hother c (Nat.ne_of_lt hc)]
      exact List.getElem?_append_left hc
    · have hb : h₂[h.length]? = some (.stringMap m') := by
        rw [e₂ h.length (List.mem_singleton_self _), hm']
      have hsrc : asStringMap h₀[a]? = src := by rw [← e.keeps a ha]
      simp only [mapView, refView, Option.map_some', hb, hsrc, Option.some.injEq]
      funext k
      show m'.entries.lookup k = src.entries.lookup k
      rw [hentries]
      exact GoMap.lookup_perm (hit h.length src) hk k

def copyLabelsAndContext (iterate : Nat → GoMap String → List (String × String)) (h : Heap)
    (selectorLabels securityContext : Ref) : Heap × Ref × Ref :=
  let (h, selectorLabels) := copyStringMap iterate h selectorLabels
  let (h, securityContext) := copyPointee h securityContext
  (h, selectorLabels, securityContext)

theorem labelsAndContext_progress (hit : ∀ b m, List.Perm (iterate b m) m.entries) {h₀ h g : Heap}
    {ys : List Nat} {Q : Heap → Prop} (p : Progress h₀ h g ys Q) (l c : Ref)
    (hl : ∀ a ∈ l.toList, a < h₀.length) (hc : ∀ a ∈ c.toList, a < h₀.length) :
    let r := copyLabelsAndContext iterate g l c
    Progress h₀ h r.1 (ys ++ r.2.1.toList ++ r.2.2.toList) fun h₂ =>
      (Q h₂ ∧ mapView h₂ r.2.1 = mapView h₀ l) ∧
        refView asValue h₂ r.2.2 = refView asValue h₀ c :=
  (p.step (copyStringMap_spec hit) l hl).step copyPointee_spec c hc

def ControllerContainer.refs (x : ControllerContainer) : List Nat :=
  x.selectorLabels.toList ++ x.securityContext.toList

def ControllerContainer.view (h : Heap) (x : ControllerContainer) :=
  (mapView h x.selectorLabels, refView asValue h x.securityContext, x.resources, x.log)

def ControllerContainer.deepCopyInto (iterate : Nat → GoMap String → List (String × String))
    (h : Heap) (x : ControllerContainer) : Heap × ControllerContainer :=
  let (h, selectorLabels, securityContext) :=
    copyLabelsAndContext iterate h x.selectorLabels x.securityContext
  (h, { x with selectorLabels, securityContext })

theorem ControllerContainer.deepCopyInto_spec (hit : ∀ b m, List.Perm (iterate b m) m.entries) :
    CopySpec (fun _ => ControllerContainer.refs) ControllerContainer.view
      (ControllerContainer.deepCopyInto iterate) := by
  intro h₀ h x e hx
  simp only [ControllerContainer.refs, List.mem_append] at hx
  have p := labelsAndContext_progress hit (Progress.start e) x.selectorLabels x.securityContext
    (fun a ha => hx a (.inl ha)) (fun a ha => hx a (.inr ha))
  refine ⟨p.ext, by simpa [ControllerContainer.refs] using p.fresh, fun h₂ hagree => ?_⟩
  obtain ⟨⟨-, v₁⟩, v₂⟩ := p.view h₂ (by simpa [ControllerContainer.refs] using hagree)
  exact Prod.ext v₁ (Prod.ext v₂ rfl)

theorem ControllerContainer.view_stable :
    Stable (fun _ => ControllerContainer.refs) ControllerContainer.view := fun h h' x hx => by
  simp only [ControllerContainer.refs, List.mem_append] at hx
  simp only [ControllerContainer.view, mapView,
    refView_stable _ h h' x.selectorLabels fun a ha => hx a (.inl ha),
    refView_stable _ h h' x.securityContext fun a ha => hx a (.inr ha)]

def Observer.refs (x : Observer) : List Nat := x.selectorLabels.toList ++ x.securityContext.toList

def Observer.view (h : Heap) (x : Observer) :=
  (mapView h x.selectorLabels, refView asValue h x.securityContext)

def Observer.deepCopyInto (iterate : Nat → GoMap String → List (String × String)) (h : Heap)
    (x : Observer) : Heap × Observer :=
  let (h, selectorLabels, securityContext) :=
    copyLabelsAndContext iterate h x.selectorLabels x.securityContext
  (h, { x with selectorLabels, securityContext })

theorem Observer.deepCopyInto_spec (hit : ∀ b m, List.Perm (iterate b m) m.entries) :
    CopySpec (fun _ => Observer.refs) Observer.view (Observer.deepCopyInto iterate) := by
  intro h₀ h x e hx
  simp only [Observer.refs, List.mem_append] at hx
  have p := labelsAndContext_progress hit (Progress.start e) x.selectorLabels x.securityContext
    (fun a ha => hx a (.inl ha)) (fun a ha => hx a (.inr ha))
  refine ⟨p.ext, by simpa [Observer.refs] using p.fresh, fun h₂ hagree => ?_⟩
  obtain ⟨⟨-, v₁⟩, v₂⟩ := p.view h₂ (by simpa [Observer.refs] using hagree)
  exact Prod.ext v₁ v₂

theorem Observer.view_stable : Stable (fun _ => Observer.refs) Observer.view := fun h h' x hx => by
  simp only [Observer.refs, List.mem_append] at hx
  simp only [Observer.view, mapView,
    refView_stable _ h h' x.selectorLabels fun a ha => hx a (.inl ha),
    refView_stable _ h h' x.securityContext fun a ha => hx a (.inr ha)]

def ServerContainer.refs (x : ServerContainer) : List Nat :=
  x.selectorLabels.toList ++ x.securityContext.toList

def ServerContainer.view (h : Heap) (x : ServerContainer) :=
  (mapView h x.selectorLabels, refView asValue h x.securityContext, x.resources)

def ServerContainer.deepCopyInto (iterate : Nat → GoMap String → List (String × String)) (h : Heap)
    (x : ServerContainer) : Heap × ServerContainer :=
  let (h, selectorLabels, securityContext) :=
    copyLabelsAndContext iterate h x.selectorLabels x.securityContext
  (h, { x with selectorLabels, securityContext })

theorem ServerContainer.deepCopyInto_spec (hit : ∀ b m, List.Perm (iterate b m) m.entries) :
    CopySpec (fun _ => ServerContainer.refs) ServerContainer.view
      (ServerContainer.deepCopyInto iterate) := by
  intro h₀ h x e hx
  simp only [ServerContainer.refs, List.mem_append] at hx
  have p := labelsAndContext_progress hit (Progress.start e) x.selectorLabels x.securityContext
    (fun a ha => hx a (.inl ha)) (fun a ha => hx a (.inr ha))
  refine ⟨p.ext, by simpa [ServerContainer.refs] using p.fresh, fun h₂ hagree => ?_⟩
  obtain ⟨⟨-, v₁⟩, v₂⟩ := p.view h₂ (by simpa [ServerContainer.refs] using hagree)
  exact Prod.ext v₁ (Prod.ext v₂ rfl)

theorem ServerContainer.view_stable :
    Stable (fun _ => ServerContainer.refs) ServerContainer.view := fun h h' x hx => by
  simp only [ServerContainer.refs, List.mem_append] at hx
  simp only [ServerContainer.view, mapView,
    refView_stable _ h h' x.selectorLabels fun a ha => hx a (.inl ha),
    refView_stable _ h h' x.securityContext fun a ha => hx a (.inr ha)]

def SecurityConfig.refs (x : SecurityConfig) : List Nat := x.podSecurityContext.toList

def SecurityConfig.view (h : Heap) (x : SecurityConfig) := refView asValue h x.podSecurityContext

def SecurityConfig.deepCopyInto (h : Heap) (x : SecurityConfig) : Heap × SecurityConfig :=
  let (h, podSecurityContext) := copyPointee h x.podSecurityContext
  (h, { x with podSecurityContext })

theorem SecurityConfig.deepCopyInto_spec :
    CopySpec (fun _ => SecurityConfig.refs) SecurityConfig.view SecurityConfig.deepCopyInto :=
  fun h₀ h x e hx => copyPointee_spec h₀ h x.podSecurityContext e hx

def IntegrityShieldSpec.refs (x : IntegrityShieldSpec) : List Nat :=
  x.maxSurge.toList ++ x.maxUnavailable.toList ++ x.replicaCount.toList ++ x.metaLabels.toList ++
    x.nodeSelector.toList ++ x.affinity.toList ++ x.tolerations.toList ++ x.security.refs ++
    x.server.refs ++ x.controllerContainer.refs ++ x.observer.refs

def IntegrityShieldSpec.view (h : Heap) (x : IntegrityShieldSpec) :=
  (refView asValue h x.maxSurge, refView asValue h x.maxUnavailable,
    refView asValue h x.replicaCount, mapView h x.metaLabels, mapView h x.nodeSelector,
    refView asValue h x.affinity, refView asValues h x.tolerations, x.security.view h,
    x.server.view h, x.controllerContainer.view h, x.observer.view h,
    x.webhookNamespacedResource, x.webhookClusterResource)

/-- `IntegrityShieldSpec.DeepCopyInto`: `*out = *in`, then every pointer, map and slice copied,
and the nested structures copied by their own `DeepCopyInto`. -/
def IntegrityShieldSpec.deepCopyInto (iterate : Nat → GoMap String → List (String × String))
    (h : Heap) (x : IntegrityShieldSpec) : Heap × IntegrityShieldSpec :=
  let (h, maxSurge) := copyPointee h x.maxSurge
  let (h, maxUnavailable) := copyPointee h x.maxUnavailable
  let (h, replicaCount) := copyPointee h x.replicaCount
  let (h, metaLabels) := copyStringMap iterate h x.metaLabels
  let (h, nodeSelector) := copyStringMap iterate h x.nodeSelector
  let (h, affinity) := copyPointee h x.affinity
  let (h, tolerations) := copySlice h x.tolerations
  let (h, security) := x.security.deepCopyInto h
  let (h, server) := x.server.deepCopyInto iterate h
  let (h, controllerContainer) := x.controllerContainer.deepCopyInto iterate h
  let (h, observer) := x.observer.deepCopyInto iterate h
  (h, { x with
    maxSurge, maxUnavailable, replicaCount, metaLabels, nodeSelector, affinity, tolerations,
    security, server, controllerContainer, observer })

theorem IntegrityShieldSpec.deepCopyInto_spec (hit : ∀ b m, List.Perm (iterate b m) m.entries) :
    CopySpec (fun _ => IntegrityShieldSpec.refs) IntegrityShieldSpec.view
      (IntegrityShieldSpec.deepCopyInto iterate) := by
  intro h₀ h x e hx
  simp only [refs, List.mem_append, or_imp, forall_and] at hx
  obtain ⟨⟨⟨⟨⟨⟨⟨⟨⟨⟨hs, hu⟩, hr⟩, hm⟩, hn⟩, ha⟩, ht⟩, hsec⟩, hsrv⟩, hc⟩, ho⟩ := hx
  have p := (Progress.start e)
    |>.step copyPointee_spec x.maxSurge hs
    |>.step copyPointee_spec x.maxUnavailable hu
    |>.step copyPointee_spec x.replicaCount hr
    |>.step (copyStringMap_spec hit) x.metaLabels hm
    |>.step (copyStringMap_spec hit) x.nodeSelector hn
    |>.step copyPointee_spec x.affinity ha
    |>.step copySlice_spec x.tolerations ht
    |>.step SecurityConfig.deepCopyInto_spec x.security hsec
    |>.step (ServerContainer.deepCopyInto_spec hit) x.server hsrv
    |>.step (ControllerContainer.deepCopyInto_spec hit) x.controllerContainer hc
    |>.step (Observer.deepCopyInto_spec hit) x.observer ho
  refine ⟨p.ext, by simpa [refs] using p.fresh, fun h₂ hagree => ?_⟩
  obtain ⟨⟨⟨⟨⟨⟨⟨⟨⟨⟨⟨-, v₁⟩, v₂⟩, v₃⟩, v₄⟩, v₅⟩, v₆⟩, v₇⟩, v₈⟩, v₉⟩, v₁₀⟩, v₁₁⟩ :=
    p.view h₂ (by simpa [refs] using hagree)
  exact Prod.ext v₁ (Prod.ext v₂ (Prod.ext v₃ (Prod.ext v₄ (Prod.ext v₅ (Prod.ext v₆
    (Prod.ext v₇ (Prod.ext v₈ (Prod.ext v₉ (Prod.ext v₁₀ (Prod.ext v₁₁ rfl))))))))))

theorem IntegrityShieldSpec.view_stable :
    Stable (fun _ => IntegrityShieldSpec.refs) IntegrityShieldSpec.view := fun h h' x hx => by
  simp only [refs, List.mem_append, or_imp, forall_and] at hx
  obtain ⟨⟨⟨⟨⟨⟨⟨⟨⟨⟨hs, hu⟩, hr⟩, hm⟩, hn⟩, ha⟩, ht⟩, hsec⟩, hsrv⟩, hc⟩, ho⟩ := hx
  simp only [IntegrityShieldSpec.view, mapView, SecurityConfig.view,
    refView_stable _ h h' x.maxSurge hs, refView_stable _ h h' x.maxUnavailable hu,
    refView_stable _ h h' x.replicaCount hr, refView_stable _ h h' x.metaLabels hm,
    refView_stable _ h h' x.nodeSelector hn, refView_stable _ h h' x.affinity ha,
    refView_stable _ h h' x.tolerations ht,
    refView_stable _ h h' x.security.podSecurityContext hsec,
    ServerContainer.view_stable h h' x.server hsrv,
    ControllerContainer.view_stable h h' x.controllerContainer hc,
    Observer.view_stable h h' x.observer ho]

def IntegrityShield.refs (x : IntegrityShield) : List Nat := x.spec.refs

def IntegrityShield.view (h : Heap) (x : IntegrityShield) :=
  (x.typeMeta, x.objectMeta, x.spec.view h, x.status)

def IntegrityShield.deepCopyInto (iterate : Nat → GoMap String → List (String × String)) (h : Heap)
    (x : IntegrityShield) : Heap × IntegrityShield :=
  let (h, spec) := x.spec.deepCopyInto iterate h
  (h, { x with spec })

theorem IntegrityShield.deepCopyInto_spec (hit : ∀ b m, List.Perm (iterate b m) m.entries) :
    CopySpec (fun _ => IntegrityShield.refs) IntegrityShield.view
      (IntegrityShield.deepCopyInto iterate) := by
  intro h₀ h x e hx
  obtain ⟨e', f, v⟩ := IntegrityShieldSpec.deepCopyInto_spec hit h₀ h x.spec e hx
  exact ⟨e', f, fun h₂ hagree => Prod.ext rfl (Prod.ext rfl (Prod.ext (v h₂ hagree) rfl))⟩

theorem IntegrityShield.view_stable :
    Stable (fun _ => IntegrityShield.refs) IntegrityShield.view := fun h h' x hx => by
  simp only [IntegrityShield.view, IntegrityShieldSpec.view_stable h h' x.spec hx]

def setItem (h : Heap) (b : Nat) (i : Nat) (y : IntegrityShield) : Heap :=
  match h[b]? with
  | some (.shields ys) => h.set b (.shields (ys.set i y))
  | _ => h

def copyItems (iterate : Nat → GoMap String → List (String × String)) (b : Nat) :
    Nat → List IntegrityShield → Heap → Heap
  | _, [], h => h
  | i, x :: xs, h =>
    let (h, y) := x.deepCopyInto iterate h
    copyItems iterate b (i + 1) xs (setItem h b i y)

def IntegrityShieldList.refs (h : Heap) (x : IntegrityShieldList) : List Nat :=
  match x.items with
  | none => []
  | some a => a :: (asShields h[a]?).flatMap IntegrityShield.refs

def IntegrityShieldList.view (h : Heap) (x : IntegrityShieldList) :=
  (x.typeMeta, x.listMeta, x.items.map fun a => (asShields h[a]?).map (·.view h))

def IntegrityShieldList.deepCopyInto (iterate : Nat → GoMap String → List (String × String))
    (h : Heap) (x : IntegrityShieldList) : Heap × IntegrityShieldList :=
  match x.items with
  | none => (h, x)
  | some a =>
    let items := asShields h[a]?
    let (h, b) := alloc h (.shields (List.replicate items.length default))
    (copyItems iterate b 0 items h, { x with items := some b })

def ItemCopied (h₀ : Heap) (b : Nat) (g : Heap) (x y : IntegrityShield) : Prop :=
  (∀ c ∈ y.refs, b < c ∧ c < g.length) ∧
    ∀ h₂, (∀ c ∈ y.refs, h₂[c]? = g[c]?) → y.view h₂ = x.view h₀

/-- The items loop of a copy started at `h`, after copying the items `done` into `ys`, at heap
`g`: the objects of `h` are kept and the array at `b` holds the copies, then zero values for
the `rest`. -/
structure ItemsInv (h₀ h : Heap) (b : Nat) (done ys : List IntegrityShield) (rest : Nat)
    (g : Heap) : Prop where
  ext : Extends h g
  cell : g[b]? = some (.shields (ys ++ List.replicate rest default))
  copied : List.Forall₂ (ItemCopied h₀ b g) done ys

theorem ItemCopied.mono {h₀ g g' : Heap} {b : Nat} {x y : IntegrityShield}
    (c : ItemCopied h₀ b g x y) (hle : g.length ≤ g'.length)
    (hkeep : ∀ a, b < a → a < g.length → g'[a]? = g[a]?) : ItemCopied h₀ b g' x y :=
  ⟨fun a ha => ⟨(c.1 a ha).1, lt_of_lt_of_le (c.1 a ha).2 hle⟩, fun h₂ hagree =>
    c.2 h₂ fun a ha => (hagree a ha).trans (hkeep a (c.1 a ha).1 (c.1 a ha).2)⟩

theorem ItemsInv.step (hit : ∀ b m, List.Perm (iterate b m) m.entries) {h₀ h g : Heap} {b : Nat}
    {done ys : List IntegrityShield} {rest : Nat} (e₀ : Extends h₀ h) (hb : h.length ≤ b)
    (inv : ItemsInv h₀ h b done ys (rest + 1) g) (x : IntegrityShield)
    (hx : ∀ c ∈ x.refs, c < h₀.length) :
    ItemsInv h₀ h b (done ++ [x]) (ys ++ [(x.deepCopyInto iterate g).2]) rest
      (setItem (x.deepCopyInto iterate g).1 b ys.length (x.deepCopyInto iterate g).2) := by
  obtain ⟨e, f, v⟩ := IntegrityShield.deepCopyInto_spec hit h₀ g x (e₀.trans inv.ext) hx
  set r := x.deepCopyInto iterate g
  have hbg : b < g.length := (List.getElem?_eq_some_iff.mp inv.cell).1
  have hcell : r.1[b]? = some (.shields (ys ++ List.replicate (rest + 1) default)) :=
    (e.keeps b hbg).trans inv.cell
  have hset : setItem r.1 b ys.length r.2 =
      r.1.set b (.shields ((ys ++ [r.2]) ++ List.replicate rest default)) := by
    simp [setItem, hcell, List.replicate_succ, List.set_append_right]
  have hlen : (setItem r.1 b ys.length r.2).length = r.1.length := by simp [hset]
  have hkeep : ∀ a, a ≠ b → (setItem r.1 b ys.length r.2)[a]? = r.1[a]? := fun a ha => by
    rw [hset, List.getElem?_set_ne (Ne.symm ha)]
  have hhg := inv.ext.le
  have hgr := e.le
  refine ⟨⟨by omega, fun a ha => ?_⟩, by simp [hset, hbg, lt_of_lt_of_le hbg hgr], ?_⟩
  · rw [hkeep a (by omega), e.keeps a (by omega), inv.ext.keeps a ha]
  · have hnew : ItemCopied h₀ b (setItem r.1 b ys.length r.2) x r.2 :=
      ⟨fun c hc => ⟨lt_of_lt_of_le hbg (f c hc).1, hlen ▸ (f c hc).2⟩, fun h₂ hagree =>
        v h₂ fun c hc => (hagree c hc).trans (hkeep c (by have := (f c hc).1; omega))⟩
    exact List.rel_append (inv.copied.imp fun x' y' c => c.mono (by omega) fun a hba hag =>
      (hkeep a (by omega)).trans (e.keeps a hag)) (List.Forall₂.cons hnew List.Forall₂.nil)

theorem ItemsInv.run (hit : ∀ b m, List.Perm (iterate b m) m.entries) {h₀ h : Heap} {b : Nat}
    (e₀ : Extends h₀ h) (hb : h.length ≤ b) (xs : List IntegrityShield)
    (hx : ∀ x ∈ xs, ∀ c ∈ x.refs, c < h₀.length) {done ys : List IntegrityShield} {g : Heap}
    (inv : ItemsInv h₀ h b done ys xs.length g) :
    ∃ ys', ItemsInv h₀ h b (done ++ xs) (ys ++ ys') 0 (copyItems iterate b ys.length xs g) := by
  induction xs generalizing done ys g with
  | nil => exact ⟨[], by simpa using inv⟩
  | cons x xs ih =>
    obtain ⟨ys', inv'⟩ := ih (fun x' hx' => hx x' (List.mem_cons_of_mem _ hx'))
      (inv.step hit e₀ hb x (hx x (List.mem_cons_self _ _)))
    exact ⟨_ :: ys', by simpa [copyItems] using inv'⟩

theorem fresh_of_copied {h₀ g : Heap} {b : Nat} {xs ys : List IntegrityShield}
    (hc : List.Forall₂ (ItemCopied h₀ b g) xs ys) :
    ∀ c ∈ ys.flatMap IntegrityShield.refs, b < c ∧ c < g.length := by
  induction hc with
  | nil => simp
  | cons hxy _ ih =>
    intro c hc
    rcases List.mem_append.mp (List.flatMap_cons _ _ _ ▸ hc) with hc | hc
    · exact hxy.1 c hc
    · exact ih c hc

theorem map_view_of_copied {h₀ g h₂ : Heap} {b : Nat} {xs ys : List IntegrityShield}
    (hc : List.Forall₂ (ItemCopied h₀ b g) xs ys)
    (hagree : ∀ c ∈ ys.flatMap IntegrityShield.refs, h₂[c]? = g[c]?) :
    ys.map (·.view h₂) = xs.map (·.view h₀) := by
  induction hc with
  | nil => rfl
  | cons hxy _ ih =>
    simp only [List.flatMap_cons, List.mem_append] at hagree
    simp only [List.map_cons, hxy.2 _ fun c hc => hagree c (.inl hc),
      ih fun c hc => hagree c (.inr hc)]

theorem IntegrityShieldList.deepCopyInto_spec (hit : ∀ b m, List.Perm (iterate b m) m.entries) :
    CopySpec IntegrityShieldList.refs IntegrityShieldList.view
      (IntegrityShieldList.deepCopyInto iterate) := by
  intro h₀ h x e hx
  cases hi : x.items with
  | none =>
    simp only [IntegrityShieldList.deepCopyInto, hi]
    exact ⟨Extends.refl h, by simp [Fresh, IntegrityShieldList.refs, hi],
      fun h₂ _ => by simp [IntegrityShieldList.view, hi]⟩
  | some a =>
    simp only [IntegrityShieldList.refs, hi, List.mem_cons, List.mem_flatMap] at hx
    have ha : a < h₀.length := hx a (.inl rfl)
    set items := asShields h[a]?
    have hitems : asShields h₀[a]? = items := by rw [← e.keeps a ha]
    have inv₀ : ItemsInv h₀ h h.length [] [] items.length
        (alloc h (.shields (List.replicate items.length default))).1 :=
      ⟨extends_alloc h _, alloc_get_new h _, List.Forall₂.nil⟩
    obtain ⟨ys, inv⟩ := inv₀.run hit e le_rfl items
      (fun x hx' c hc => hx c (.inr ⟨x, hitems ▸ hx', hc⟩))
    simp only [List.nil_append, List.length_nil, List.append_nil, List.replicate_zero] at inv
    set g := copyItems iterate h.length 0 items
      (alloc h (.shields (List.replicate items.length default))).1
    have hcell : g[h.length]? = some (.shields ys) := by simpa using inv.cell
    have hbg : h.length < g.length := (List.getElem?_eq_some_iff.mp hcell).1
    have hcopy :
        IntegrityShieldList.deepCopyInto iterate h x = (g, { x with items := some h.length }) := by
      simp only [IntegrityShieldList.deepCopyInto, hi]; rfl
    rw [hcopy]
    simp only [IntegrityShieldList.refs, hcell, asShields_shields]
    refine ⟨inv.ext, fun c hc => ?_, fun h₂ hagree => ?_⟩
    · rcases List.mem_cons.mp hc with rfl | hc
      · exact ⟨le_rfl, hbg⟩
      · exact ⟨le_of_lt (fresh_of_copied inv.copied c hc).1, (fresh_of_copied inv.copied c hc).2⟩
    · have hb : h₂[h.length]? = g[h.length]? := hagree _ (List.mem_cons_self _ _)
      simp only [IntegrityShieldList.view, hi, Option.map_some', hb, hcell, asShields_shields, hitems,
        map_view_of_copied inv.copied fun c hc => hagree c (List.mem_cons_of_mem _ hc)]

theorem IntegrityShieldList.view_stable :
    Stable IntegrityShieldList.refs IntegrityShieldList.view := fun h h' x hx => by
  cases hi : x.items with
  | none => simp [IntegrityShieldList.view, hi]
  | some a =>
    simp only [IntegrityShieldList.refs, hi, List.mem_cons, List.mem_flatMap] at hx
    simp only [IntegrityShieldList.view, hi, Option.map_some', hx a (.inl rfl)]
    congr 3
    exact List.map_congr_left fun y hy =>
      IntegrityShield.view_stable h h' y fun c hc => hx c (.inr ⟨y, hy, hc⟩)

theorem IntegrityShieldList.refs_congr {h h' : Heap} (x : IntegrityShieldList)
    (hx : ∀ c ∈ IntegrityShieldList.refs h x, h'[c]? = h[c]?) :
    IntegrityShieldList.refs h' x = IntegrityShieldList.refs h x := by
  cases hi : x.items with
  | none => simp [IntegrityShieldList.refs, hi]
  | some a =>
    have ha : h'[a]? = h[a]? := hx a (by simp [IntegrityShieldList.refs, hi])
    simp only [IntegrityShieldList.refs, hi, ha]

def IntegrityShield.deepCopy (iterate : Nat → GoMap String → List (String × String)) :
    Heap → Ref → Heap × Ref :=
  deepCopyPtr Cell.shield asShield (IntegrityShield.deepCopyInto iterate)

def IntegrityShieldList.deepCopy (iterate : Nat → GoMap String → List (String × String)) :
    Heap → Ref → Heap × Ref :=
  deepCopyPtr Cell.shieldList asShieldList (IntegrityShieldList.deepCopyInto iterate)

def IntegrityShieldSpec.deepCopy (iterate : Nat → GoMap String → List (String × String)) :
    Heap → Ref → Heap × Ref :=
  deepCopyPtr Cell.shieldSpec asShieldSpec (IntegrityShieldSpec.deepCopyInto iterate)

def ControllerContainer.deepCopy (iterate : Nat → GoMap String → List (String × String)) :
    Heap → Ref → Heap × Ref :=
  deepCopyPtr Cell.controllerContainer asControllerContainer
    (ControllerContainer.deepCopyInto iterate)

def Observer.deepCopy (iterate : Nat → GoMap String → List (String × String)) :
    Heap → Ref → Heap × Ref :=
  deepCopyPtr Cell.observer asObserver (Observer.deepCopyInto iterate)

def SecurityConfig.deepCopy : Heap → Ref → Heap × Ref :=
  deepCopyPtr Cell.securityConfig asSecurityConfig SecurityConfig.deepCopyInto

def ServerContainer.deepCopy (iterate : Nat → GoMap String → List (String × String)) :
    Heap → Ref → Heap × Ref :=
  deepCopyPtr Cell.serverContainer asServerContainer (ServerContainer.deepCopyInto iterate)

def IntegrityShieldStatus.deepCopyInto (h : Heap) (x : Value) : Heap × Value := (h, x)

def IntegrityShieldStatus.deepCopy : Heap → Ref → Heap × Ref :=
  deepCopyPtr Cell.value asValue IntegrityShieldStatus.deepCopyInto

def LogConfig.deepCopyInto (h : Heap) (x : Value) : Heap × Value := (h, x)

def LogConfig.deepCopy : Heap → Ref → Heap × Ref :=
  deepCopyPtr Cell.value asValue LogConfig.deepCopyInto

/-- `IntegrityShield.DeepCopy` makes a deep copy, whatever order each of its map loops takes. -/
theorem integrityShield_deepCopy_spec (hit : ∀ b m, List.Perm (iterate b m) m.entries) :
    CopySpec (ptrRefs (fun _ => IntegrityShield.refs) asShield)
      (ptrView IntegrityShield.view asShield) (IntegrityShield.deepCopy iterate) :=
  deepCopyPtr_spec (fun _ => rfl) (fun _ _ _ _ => rfl) (IntegrityShield.deepCopyInto_spec hit)

theorem integrityShield_deepCopy_spec_in_order :
    CopySpec (ptrRefs (fun _ => IntegrityShield.refs) asShield)
      (ptrView IntegrityShield.view asShield) (IntegrityShield.deepCopy (fun _ m => m.entries)) :=
  integrityShield_deepCopy_spec fun _ _ => List.Perm.refl _

theorem integrityShieldList_deepCopy_spec (hit : ∀ b m, List.Perm (iterate b m) m.entries) :
    CopySpec (ptrRefs IntegrityShieldList.refs asShieldList)
      (ptrView IntegrityShieldList.view asShieldList) (IntegrityShieldList.deepCopy iterate) :=
  deepCopyPtr_spec (fun _ => rfl) (fun _ _ x hx => IntegrityShieldList.refs_congr x hx)
    (IntegrityShieldList.deepCopyInto_spec hit)

theorem integrityShieldList_deepCopy_spec_in_order :
    CopySpec (ptrRefs IntegrityShieldList.refs asShieldList)
      (ptrView IntegrityShieldList.view asShieldList)
      (IntegrityShieldList.deepCopy (fun _ m => m.entries)) :=
  integrityShieldList_deepCopy_spec fun _ _ => List.Perm.refl _

/-- No store through the pointers of an `IntegrityShieldList.DeepCopy` changes the original. -/
theorem IntegrityShieldList.deepCopy_writes_keep_original
    (hit : ∀ b m, List.Perm (iterate b m) m.entries) {h : Heap} {p : Ref}
    (hp : ∀ a ∈ ptrRefs IntegrityShieldList.refs asShieldList h p, a < h.length)
    {ws : List (Nat × Cell)}
    (hws : ∀ w ∈ ws, w.1 ∈ ptrRefs IntegrityShieldList.refs asShieldList
      (IntegrityShieldList.deepCopy iterate h p).1 (IntegrityShieldList.deepCopy iterate h p).2) :
    ptrView IntegrityShieldList.view asShieldList
        (writeAll (IntegrityShieldList.deepCopy iterate h p).1 ws) p =
      ptrView IntegrityShieldList.view asShieldList h p :=
  (deepCopyPtr_spec (fun _ => rfl) (fun _ _ x hx => IntegrityShieldList.refs_congr x hx)
    (IntegrityShieldList.deepCopyInto_spec hit)).original_after_writes
    (ptrView_stable asShieldList IntegrityShieldList.view_stable) hp hws

def oneShieldHeap : Heap := [.shieldList ⟨.null, .null, some 1⟩, .shields [default]]

theorem deepCopy_writes_keep_original_one :
    ptrView IntegrityShieldList.view asShieldList
        (writeAll (IntegrityShieldList.deepCopy (fun _ m => m.entries) oneShieldHeap (some 0)).1
          [(3, .shields [])]) (some 0) =
      ptrView IntegrityShieldList.view asShieldList oneShieldHeap (some 0) :=
  IntegrityShieldList.deepCopy_writes_keep_original (fun _ _ => List.Perm.refl _) (by decide)
    (by decide)

theorem IntegrityShieldList.deepCopy_writes_keep_copy
    (hit : ∀ b m, List.Perm (iterate b m) m.entries) {h : Heap} {p : Ref}
    (hp : ∀ a ∈ ptrRefs IntegrityShieldList.refs asShieldList h p, a < h.length)
    {ws : List (Nat × Cell)}
    (hws : ∀ w ∈ ws, w.1 ∈ ptrRefs IntegrityShieldList.refs asShieldList h p) :
    ptrView IntegrityShieldList.view asShieldList
        (writeAll (IntegrityShieldList.deepCopy iterate h p).1 ws)
        (IntegrityShieldList.deepCopy iterate h p).2 =
      ptrView IntegrityShieldList.view asShieldList h p :=
  (deepCopyPtr_spec (fun _ => rfl) (fun _ _ x hx => IntegrityShieldList.refs_congr x hx)
    (IntegrityShieldList.deepCopyInto_spec hit)).copy_after_writes hp hws

theorem deepCopy_writes_keep_copy_one :
    ptrView IntegrityShieldList.view asShieldList
        (writeAll (IntegrityShieldList.deepCopy (fun _ m => m.entries) oneShieldHeap (some 0)).1
          [(1, .shields [])])
        (IntegrityShieldList.deepCopy (fun _ m => m.entries) oneShieldHeap (some 0)).2 =
      ptrView IntegrityShieldList.view asShieldList oneShieldHeap (some 0) :=
  IntegrityShieldList.deepCopy_writes_keep_copy (fun _ _ => List.Perm.refl _) (by decide) (by decide)

end IntegrityShield.DeepCopy
