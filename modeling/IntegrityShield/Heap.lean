import Mathlib.Data.List.Basic

namespace IntegrityShield.Heap

variable {σ : Type}

/-- A Go pointer, map or slice: nil, or the address of the object it refers to. -/
abbrev Ref := Option Nat

def alloc (h : List σ) (c : σ) : List σ × Nat := (h ++ [c], h.length)

def refView {β : Type} (read : Option σ → β) (h : List σ) (r : Ref) : Option β :=
  r.map fun a => read h[a]?

structure Extends (h h' : List σ) : Prop where
  le : h.length ≤ h'.length
  keeps : ∀ a < h.length, h'[a]? = h[a]?

def Fresh (h h' : List σ) (ys : List Nat) : Prop := ∀ a ∈ ys, h.length ≤ a ∧ a < h'.length

theorem Extends.refl (h : List σ) : Extends h h := ⟨le_rfl, fun _ _ => rfl⟩

theorem Extends.trans {h₁ h₂ h₃ : List σ} (e₁ : Extends h₁ h₂) (e₂ : Extends h₂ h₃) :
    Extends h₁ h₃ :=
  ⟨e₁.le.trans e₂.le, fun a ha => (e₂.keeps a (lt_of_lt_of_le ha e₁.le)).trans (e₁.keeps a ha)⟩

theorem extends_alloc (h : List σ) (c : σ) : Extends h (alloc h c).1 :=
  ⟨by simp [alloc], fun a ha => List.getElem?_append_left ha⟩

@[simp] theorem alloc_get_new (h : List σ) (c : σ) : (alloc h c).1[h.length]? = some c := by
  simp [alloc]

section Copy

variable {α β : Type} {refs : List σ → α → List Nat} {view : List σ → α → β}
  {copy : List σ → α → List σ × α}

/-- What the deep copy `copy` guarantees for a value `x` allocated in a heap `h₀`, when run from
any heap `h` that extends `h₀`: it only adds objects, the copy refers only to objects it added,
and in every heap that holds the same objects at the copy's references it reads as `x` in
`h₀`. -/
def CopySpec {α β : Type} (refs : List σ → α → List Nat) (view : List σ → α → β)
    (copy : List σ → α → List σ × α) : Prop :=
  ∀ h₀ h x, Extends h₀ h → (∀ a ∈ refs h₀ x, a < h₀.length) →
    Extends h (copy h x).1 ∧ Fresh h (copy h x).1 (refs (copy h x).1 (copy h x).2) ∧
      ∀ h₂, (∀ a ∈ refs (copy h x).1 (copy h x).2, h₂[a]? = (copy h x).1[a]?) →
        view h₂ (copy h x).2 = view h₀ x

def Stable {α β : Type} (refs : List σ → α → List Nat) (view : List σ → α → β) : Prop :=
  ∀ h h' x, (∀ a ∈ refs h x, h'[a]? = h[a]?) → view h' x = view h x

theorem refView_stable {β : Type} (read : Option σ → β) :
    Stable (fun _ => Option.toList) (refView read) := fun _ _ r hr => by
  cases r with
  | none => rfl
  | some a => simp [refView, hr a (List.mem_singleton_self a)]

theorem copySpec_alloc {β : Type} (read : Option σ → β) (mk : Option σ → σ)
    (copy : List σ → Ref → List σ × Ref) (hread : ∀ c, read (some (mk c)) = read c)
    (hnone : ∀ h, copy h none = (h, none))
    (hsome : ∀ h a, copy h (some a) = ((alloc h (mk h[a]?)).1, some h.length)) :
    CopySpec (fun _ => Option.toList) (refView read) copy := by
  intro h₀ h r e hr
  cases r with
  | none =>
    rw [hnone]
    exact ⟨Extends.refl h, by simp [Fresh], fun h₂ _ => rfl⟩
  | some a =>
    have ha : a < h₀.length := hr a (List.mem_singleton_self a)
    rw [hsome]
    refine ⟨extends_alloc h _, by simp [Fresh, alloc], fun h₂ hagree => ?_⟩
    have hnew : h₂[h.length]? = some (mk h[a]?) := by
      rw [hagree h.length (List.mem_singleton_self _), alloc_get_new]
    simp [refView, hnew, hread, e.keeps a ha]

/-- A sequence of field copies for a value allocated in `h₀`, run from `h` and now at `g`: the
heap has only grown, the copies made so far refer to the objects `ys`, added after `h`, and `Q`
holds of every heap with the objects of `g` at `ys`. -/
structure Progress (h₀ h g : List σ) (ys : List Nat) (Q : List σ → Prop) : Prop where
  ext : Extends h g
  base : Extends h₀ g
  fresh : Fresh h g ys
  view : ∀ h₂, (∀ a ∈ ys, h₂[a]? = g[a]?) → Q h₂

theorem Progress.start {h₀ h : List σ} (e : Extends h₀ h) : Progress h₀ h h [] fun _ => True :=
  ⟨Extends.refl h, e, by simp [Fresh], fun _ _ => trivial⟩

theorem Progress.step {h₀ h g : List σ} {ys : List Nat} {Q : List σ → Prop}
    (p : Progress h₀ h g ys Q) (s : CopySpec refs view copy) (x : α)
    (hx : ∀ a ∈ refs h₀ x, a < h₀.length) :
    Progress h₀ h (copy g x).1 (ys ++ refs (copy g x).1 (copy g x).2)
      (fun h₂ => Q h₂ ∧ view h₂ (copy g x).2 = view h₀ x) := by
  obtain ⟨e, f, v⟩ := s h₀ g x p.base hx
  refine ⟨p.ext.trans e, p.base.trans e, fun a ha => ?_, fun h₂ hagree => ⟨p.view h₂ fun a ha =>
    (hagree a (List.mem_append_left _ ha)).trans (e.keeps a (p.fresh a ha).2),
    v h₂ fun a ha => hagree a (List.mem_append_right _ ha)⟩⟩
  rcases List.mem_append.mp ha with ha | ha
  · exact ⟨(p.fresh a ha).1, lt_of_lt_of_le (p.fresh a ha).2 e.le⟩
  · exact ⟨le_trans p.ext.le (f a ha).1, (f a ha).2⟩

def writeAll (h : List σ) (ws : List (Nat × σ)) : List σ :=
  ws.foldl (fun h w => h.set w.1 w.2) h

theorem writeAll_getElem?_of_ne {a : Nat} :
    ∀ (ws : List (Nat × σ)) (h : List σ), (∀ w ∈ ws, w.1 ≠ a) → (writeAll h ws)[a]? = h[a]?
  | [], _, _ => rfl
  | w :: ws, h, hws => by
    show (writeAll (h.set w.1 w.2) ws)[a]? = h[a]?
    rw [writeAll_getElem?_of_ne ws _ fun w' hw' => hws w' (List.mem_cons_of_mem _ hw'),
      List.getElem?_set_ne (hws w (List.mem_cons_self _ _))]

theorem CopySpec.original_after_writes (s : CopySpec refs view copy) (st : Stable refs view)
    {h : List σ} {x : α} (hx : ∀ a ∈ refs h x, a < h.length) {ws : List (Nat × σ)}
    (hws : ∀ w ∈ ws, w.1 ∈ refs (copy h x).1 (copy h x).2) :
    view (writeAll (copy h x).1 ws) x = view h x := by
  obtain ⟨e, f, -⟩ := s h h x (Extends.refl h) hx
  refine st _ _ x fun a ha => ?_
  have hne : ∀ w ∈ ws, w.1 ≠ a := fun w hw => by
    have := (f _ (hws w hw)).1; have := hx a ha; omega
  rw [writeAll_getElem?_of_ne ws _ hne, e.keeps a (hx a ha)]

theorem CopySpec.copy_after_writes (s : CopySpec refs view copy)
    {h : List σ} {x : α} (hx : ∀ a ∈ refs h x, a < h.length) {ws : List (Nat × σ)}
    (hws : ∀ w ∈ ws, w.1 ∈ refs h x) :
    view (writeAll (copy h x).1 ws) (copy h x).2 = view h x := by
  obtain ⟨-, f, v⟩ := s h h x (Extends.refl h) hx
  refine v _ fun a ha => writeAll_getElem?_of_ne ws _ fun w hw => ?_
  have := (f a ha).1; have := hx _ (hws w hw); omega

end Copy

section Pointer

variable {α β : Type} {refs : List σ → α → List Nat} {view : List σ → α → β}

/-- `DeepCopy` of a `*T`: nil for nil; otherwise `out := new(T)`, `in.DeepCopyInto(out)`, and
`out`. `mk` is the object `new(T)` allocates, `read` reads one back. -/
def deepCopyPtr {α : Type} [Inhabited α] (mk : α → σ) (read : Option σ → α)
    (deepCopyInto : List σ → α → List σ × α) (h : List σ) : Ref → List σ × Ref
  | none => (h, none)
  | some a =>
    let (h, out) := alloc h (mk default)
    let (h, y) := deepCopyInto h (read h[a]?)
    (h.set out (mk y), some out)

def ptrRefs {α : Type} (refs : List σ → α → List Nat) (read : Option σ → α) (h : List σ) :
    Ref → List Nat
  | none => []
  | some a => a :: refs h (read h[a]?)

def ptrView {α β : Type} (view : List σ → α → β) (read : Option σ → α) (h : List σ) (r : Ref) :
    Option β :=
  r.map fun a => view h (read h[a]?)

theorem ptrView_stable (read : Option σ → α) (st : Stable refs view) :
    Stable (ptrRefs refs read) (ptrView view read) := fun h h' r hr => by
  cases r with
  | none => rfl
  | some a =>
    simp only [ptrRefs, List.mem_cons] at hr
    simp only [ptrView, Option.map_some', hr a (.inl rfl),
      st h h' _ fun c hc => hr c (.inr hc)]

theorem deepCopyPtr_spec [Inhabited α] {mk : α → σ} {read : Option σ → α}
    {copy : List σ → α → List σ × α} (hread : ∀ x, read (some (mk x)) = x)
    (hrefs : ∀ h h' x, (∀ c ∈ refs h x, h'[c]? = h[c]?) → refs h' x = refs h x)
    (s : CopySpec refs view copy) :
    CopySpec (ptrRefs refs read) (ptrView view read) (deepCopyPtr mk read copy) := by
  intro h₀ h r e hr
  cases r with
  | none => exact ⟨Extends.refl h, by simp [Fresh, deepCopyPtr, ptrRefs], fun _ _ => rfl⟩
  | some a =>
    simp only [ptrRefs, List.mem_cons] at hr
    have ha : a < h₀.length := hr a (.inl rfl)
    set g₁ := (alloc h (mk default)).1
    have e₁ : Extends h g₁ := extends_alloc h _
    have hx : read g₁[a]? = read h₀[a]? := by
      rw [e₁.keeps a (lt_of_lt_of_le ha e.le), e.keeps a ha]
    obtain ⟨e₂, f, v⟩ :=
      s h₀ g₁ (read g₁[a]?) (e.trans e₁) (hx ▸ fun c hc => hr c (.inr hc))
    set r := copy g₁ (read g₁[a]?)
    set g₃ := r.1.set h.length (mk r.2)
    have hout : h.length < g₁.length := by simp [g₁, alloc]
    have hlen : g₃.length = r.1.length := List.length_set ..
    have hle := e₂.le
    have hset : ∀ c, c ≠ h.length → g₃[c]? = r.1[c]? :=
      fun c hc => List.getElem?_set_ne (Ne.symm hc)
    have hnew : g₃[h.length]? = some (mk r.2) := by simp [g₃, lt_of_lt_of_le hout hle]
    have hrefs' : refs g₃ r.2 = refs r.1 r.2 :=
      hrefs _ _ _ fun c hc => hset c (by have := (f c hc).1; omega)
    have hcopy : deepCopyPtr mk read copy h (some a) = (g₃, some h.length) := rfl
    rw [hcopy]
    simp only [ptrRefs, hnew, hread, hrefs']
    refine ⟨⟨by omega, fun c hc => ?_⟩, fun c hc => ?_, fun h₂ hagree => ?_⟩
    · rw [hset c (by omega), e₂.keeps c (by omega), e₁.keeps c hc]
    · rcases List.mem_cons.mp hc with rfl | hc
      · exact ⟨le_rfl, by omega⟩
      · have := f c hc; omega
    · have hb : h₂[h.length]? = some (mk r.2) := (hagree _ (List.mem_cons_self _ _)).trans hnew
      simp only [ptrView, Option.map_some', hb, hread, ← hx]
      exact congrArg some <| v h₂ fun c hc => (hagree c (List.mem_cons_of_mem _ hc)).trans
        (hset c (by have := (f c hc).1; omega))

end Pointer

end IntegrityShield.Heap
