import Mathlib.Tactic.Lemma
import Shader.Surface.Elaboration

/-!
# Types that are skipped

A type that programs cannot have after elaboration is left out.  Trying it adds nothing to the
types, except for a value pointer: what it points to is added before its address space is looked
at.  So types that are skipped behind others change no handle of these, and leave at most the
pointees of value pointers (`skipped_types_leave_pointees`).
-/

namespace Shader.Surface

open List

variable {β : Type} {α : Type _} {r r' r₁ : Renaming} {A A' A₁ : UniqueArena .type IR.Ty}
    {answer : Option (Handle .type)} {us ts : List Ty} {m : Module}

/-- The type that is added for a value pointer. -/
def TypeShape.pointee? : TypeShape → Option IR.Ty
  | valuePointer size s _ => some ⟨none, pointeeShape size s⟩
  | _ => none

/-- The arena with the pointees of shapes. -/
def withPointees (A : UniqueArena .type IR.Ty) (shapes : List TypeShape) :
    UniqueArena .type IR.Ty :=
  (shapes.filterMap TypeShape.pointee?).foldl (fun A type => (A.insert type).2) A

lemma withPointees_cons (s : TypeShape) (rest : List TypeShape) :
    withPointees A (s :: rest) = withPointees (withPointees A [s]) rest := by
  simp only [withPointees, filterMap_cons, filterMap_nil]
  cases s.pointee? <;> rfl

/-- A type that is stored is not stored again. -/
lemma insert_of_mem {type : IR.Ty} (h : type ∈ A.items.toList) : (A.insert type).2 = A := by
  have hsame : (A.toIndexedArena.insert type).2 = A.toIndexedArena := by
    unfold IndexedArena.insert
    split
    · rfl
    · rename_i hnone
      obtain ⟨i, hi⟩ := mem_iff_getElem?.1 h
      have hmem := (A.agrees.mem_lookup type i).2 (Array.getElem?_toList.symm.trans hi)
      exact absurd (mem_map.2 ⟨_, hmem, rfl⟩) (IndexedArena.find?_eq_none_iff.1 hnone)
  exact UniqueArena.ext (congrArg (·.items) hsame) (congrArg (·.lookup) hsame)

lemma withPointees_of_mem (h : ∀ s ∈ shapes, ∀ type ∈ s.pointee?, type ∈ A.items.toList) :
    withPointees A shapes = A := by
  refine foldlRecOn (motive := (· = A)) _ _ rfl ?_
  rintro _ rfl type htype
  obtain ⟨s, hs, hpointee⟩ := mem_filterMap.1 htype
  exact insert_of_mem (h s hs type hpointee)

/-! ### Renamings -/

/-- The second answer is the first one, unless that takes its program for malformed. -/
def Follows (x y : Except Error α) : Prop := y = x ∨ ∃ c, x = .error (.malformed c)

/-- Neither step changes the types, and the answer of the second follows that of the first. -/
def Steady (x y : TypesM α) : Prop :=
  ∀ A B, ∃ a b : Except Error α, x A = (a : TypesM α) A ∧ y B = (b : TypesM α) B ∧ Follows a b

lemma Steady.lift {a b : Except Error α} (h : Follows a b) : Steady (a : TypesM α) b :=
  fun _ _ => ⟨a, b, rfl, rfl, h⟩

lemma bind_apply (x : TypesM α) (f : α → TypesM β) (A : UniqueArena .type IR.Ty) :
    (x >>= f) A = match x A with
      | .ok a A => f a A
      | .error e A => .error e A := by
  show EStateM.bind x f A = _
  unfold EStateM.bind
  cases x A <;> rfl

lemma Steady.bind (h : Steady x y) (hf : ∀ a, Steady (f a) (g a)) : Steady (x >>= f) (y >>= g) := by
  intro A B
  obtain ⟨a, b, ha, hb, hfollows⟩ := h A B
  rw [bind_apply, bind_apply, ha, hb]
  cases b with
  | error e =>
    rcases hfollows with rfl | ⟨c, rfl⟩
    · exact ⟨.error e, .error e, rfl, rfl, .inl rfl⟩
    · exact ⟨.error (.malformed c), .error e, rfl, rfl, .inr ⟨c, rfl⟩⟩
  | ok b =>
    obtain ⟨a', b', ha', hb', hfollows'⟩ := hf b A B
    rcases hfollows with rfl | ⟨c, rfl⟩
    · exact ⟨a', b', ha', hb', hfollows'⟩
    · exact ⟨.error (.malformed c), b', rfl, hb', .inr ⟨c, rfl⟩⟩

lemma Steady.mapM {f g : α → TypesM β} (h : ∀ a, Steady (f a) (g a)) (l : List α) :
    Steady (l.mapM f) (l.mapM g) := by
  induction l with
  | nil => exact .lift (a := .ok []) (.inl rfl)
  | cons a rest ih =>
    rw [mapM_cons, mapM_cons]
    exact (h a).bind fun b => ih.bind fun bs => .lift (a := .ok (b :: bs)) (.inl rfl)

/-- A renaming that answers as another one, where that one does not take a handle for malformed. -/
def Renaming.Keeps (r r' : Renaming) : Prop := ∀ h, Follows (r.type h) (r'.type h)

lemma Follows.bind {a b : Except Error α} (h : Follows a b) (f : α → Except Error β) :
    Follows (a >>= f) (b >>= f) := by
  rcases h with rfl | ⟨c, rfl⟩
  · exact .inl rfl
  · exact .inr ⟨c, rfl⟩

lemma TypeShape.steady_elaborate {s : TypeShape} (hr : r.Keeps r') (hs : s.pointee? = none) :
    Steady (s.elaborate r) (s.elaborate r') := by
  have hsame : ∀ {α} (x : Except Error α), Steady (x : TypesM α) x := fun x => .lift (.inl rfl)
  cases s with
  | scalar | vector | matrix | atomic => exact hsame (.ok _)
  | resource => exact hsame (.error _)
  | valuePointer => cases hs
  | pointer base space | array base size stride =>
    exact (Steady.lift (hr base)).bind fun _ => (hsame _).bind fun _ => hsame (.ok _)
  | struct members span =>
    refine (Steady.mapM (fun member => .lift ?_) members).bind fun _ => hsame (.ok _)
    exact (hr member.type).bind _

lemma TypeShape.elaborate_ok {s : TypeShape} (hr : r.Keeps r')
    (h : s.elaborate r A = .ok shape A') :
    s.elaborate r' A = .ok shape A' := by
  cases hs : s.pointee? with
  | none =>
    obtain ⟨a, b, ha, hb, rfl | ⟨c, rfl⟩⟩ := steady_elaborate hr hs A A
    · rw [hb, ← ha, h]
    · cases h.symm.trans ha
  | some type =>
    cases s with
    | valuePointer => exact h
    | _ => cases hs

/-- A shape that is not supported is so with any types, and adds its pointee. -/
lemma TypeShape.elaborate_unsupported {s : TypeShape} (hr : r.Keeps r')
    (h : s.elaborate r A = .error (.unsupported c) A') (B : UniqueArena .type IR.Ty) :
    s.elaborate r' B = .error (.unsupported c) (withPointees B [s]) := by
  cases hs : s.pointee? with
  | none =>
    have hnothing : withPointees B [s] = B := by simp [withPointees, hs]
    obtain ⟨a, b, ha, hb, rfl | ⟨c, rfl⟩⟩ := steady_elaborate hr hs A B
    · rw [hb, hnothing]
      cases b <;> cases h.symm.trans ha
      rfl
    · cases h.symm.trans ha
  | some type =>
    cases s with
    | valuePointer size scalar space =>
      simp only [elaborate] at h ⊢
      generalize space.elaborate = answer at h ⊢
      cases answer <;> cases h
      rfl
    | _ => cases hs

/-! ### Lists of types -/

lemma Renaming.Keeps.refl : r.Keeps r := fun _ => .inl rfl

lemma Ty.elaborate_ok {type : Ty} (hr : r.Keeps r') (h : type.elaborate r A = .ok answer A') :
    type.elaborate r' A = .ok answer A' := by
  unfold Ty.elaborate at h ⊢
  cases hshape : type.shape.elaborate r A with
  | ok shape A₁ => rwa [TypeShape.elaborate_ok hr hshape, ← hshape]
  | error e A₁ =>
    cases e with
    | malformed =>
      rw [hshape] at h
      cases h
    | unsupported c =>
      rw [TypeShape.elaborate_unsupported .refl hshape] at h
      rwa [TypeShape.elaborate_unsupported hr hshape]

lemma keeps_module (h : m.types = r.module.types ++ us) : r.Keeps { r with module := m } := by
  intro handle
  unfold Follows Renaming.type
  dsimp only
  cases r.types.getD handle.index none with
  | some => exact .inl rfl
  | none =>
    cases htype : r.module.types[handle.index]? with
    | none => exact .inr ⟨_, rfl⟩
    | some type =>
      rw [h, getElem?_append_left (List.getElem?_eq_some_iff.1 htype).1, htype]
      exact .inl rfl

lemma keeps_push (r : Renaming) : r.Keeps { r with types := r.types.push none } := by
  intro handle
  have hget : (r.types.push none).getD handle.index none = r.types.getD handle.index none := by
    simp only [Array.getD_eq_getD_getElem?, Array.getElem?_push]
    split
    · rename_i heq
      simp [heq]
    · rfl
  unfold Follows Renaming.type
  rw [hget]
  exact .inl rfl

lemma elaborateTypes_cons (h : type.elaborate r A = .ok answer A') (rest : List Ty) :
    elaborateTypes r (type :: rest) A = elaborateTypes { r with types := r.types.push answer } rest
    A' := by
  rw [elaborateTypes, bind_apply, h]

lemma elaborateTypes_module : ∀ {ts : List Ty} {r r₁ : Renaming} {A A₁ : UniqueArena .type IR.Ty},
    m.types = r.module.types ++ us → elaborateTypes r ts A = .ok r₁ A₁ →
    elaborateTypes { r with module := m } ts A = .ok { r₁ with module := m } A₁
  | [], _, _, _, _, _, h => by cases h; rfl
  | type :: rest, r, r₁, A, A₁, hm, h => by
    cases htype : type.elaborate r A with
    | error =>
      rw [elaborateTypes, bind_apply, htype] at h
      cases h
    | ok answer A₂ =>
      rw [elaborateTypes_cons htype] at h
      rw [elaborateTypes_cons (Ty.elaborate_ok (keeps_module hm) htype)]
      exact elaborateTypes_module (r := { r with types := r.types.push answer }) hm h

lemma elaborateTypes_append (r : Renaming) (ts us : List Ty) :
    elaborateTypes r (ts ++ us) = elaborateTypes r ts >>= fun r => elaborateTypes r us := by
  induction ts generalizing r with
  | nil => rfl
  | cons type rest ih => simp only [cons_append, elaborateTypes, ih, bind_assoc]

/-- Types that are not supported are skipped. -/
lemma elaborateTypes_skipped {us : List Ty}
    (h : ∀ u ∈ us, ∃ c A', u.shape.elaborate r A = .error (.unsupported c) A')
    (B : UniqueArena .type IR.Ty) :
    elaborateTypes r us B =
      .ok { r with types := r.types ++ (us.map fun _ => none).toArray }
      (withPointees B (us.map Ty.shape)) := by
  induction us generalizing r B with
  | nil => simp [elaborateTypes, withPointees]; rfl
  | cons u rest ih =>
    obtain ⟨⟨c, A', hu⟩, hrest⟩ := forall_mem_cons.1 h
    have htype : u.elaborate r B = .ok none (withPointees B [u.shape]) := by
      rw [Ty.elaborate, TypeShape.elaborate_unsupported .refl hu]
    rw [elaborateTypes_cons htype, ih fun v hv => ?_, map_cons, map_cons,
      withPointees_cons _ (map _ rest)]
    · rw [push_append_toArray]
    · obtain ⟨c, A', hv⟩ := hrest v hv
      exact ⟨c, _, TypeShape.elaborate_unsupported (keeps_push r) hv A⟩

/-- If the types `ts` of a module come to an arena, then with types that are not supported behind
them they come to the same handles; the arena is the same but for the pointees of the value pointers
among the types that are skipped, and it is the same if it has these already. -/
theorem skipped_types_leave_pointees {m n : Module} {us : List Ty} (hm : n.types = m.types ++ us)
    (h : elaborateTypes { module := m } m.types {} = .ok r A)
    (hus : ∀ u ∈ us, ∃ c A', u.shape.elaborate { r with module := n } A =
      .error (.unsupported c) A') :
    elaborateTypes { module := n } n.types {} = .ok
      { r with module := n, types := r.types ++ (us.map fun _ => none).toArray }
      (withPointees A (us.map Ty.shape)) ∧
    (∀ u ∈ us, ∀ c A', u.shape.elaborate { r with module := n } A = .error (.unsupported c) A' →
      A' = withPointees A [u.shape]) ∧
    ((∀ u ∈ us, ∀ type ∈ u.shape.pointee?, type ∈ A.items.toList) →
      withPointees A (us.map Ty.shape) = A) := by
  refine ⟨?_, fun u _ c A' hu => ?_, fun hmem => withPointees_of_mem ?_⟩
  · rw [hm, elaborateTypes_append, bind_apply,
      show elaborateTypes { module := n } m.types {} = _ from
        elaborateTypes_module (r := { module := m }) hm h]
    exact elaborateTypes_skipped hus A
  · have := TypeShape.elaborate_unsupported .refl hu A
    rw [hu] at this
    cases this
    rfl
  · rintro s hs type htype
    obtain ⟨u, hu, rfl⟩ := mem_map.1 hs
    exact hmem u hu type htype

/-- A module that has types only. -/
def typesOnly (types : List Ty) : Module := ⟨types, {}, [], [], [], [], []⟩

/-- A pointer to vectors in an address space that programs do not have. -/
def resourcePointer : Ty := ⟨none, .valuePointer (some .two) ⟨.float, 4⟩ .handle⟩

/-- Types that are supported, the second made of the first. -/
def arrayTypes : List Ty := [⟨none, .scalar ⟨.float, 4⟩⟩, ⟨none, .array ⟨0⟩ (.fixed 3) 4⟩]

theorem skipped_types_leave_pointees_resourcePointer : ∃ r A,
    elaborateTypes
      { module := typesOnly (arrayTypes ++ [⟨none, .resource .sampler⟩, resourcePointer]) }
      (arrayTypes ++ [⟨none, .resource .sampler⟩, resourcePointer]) {} = .ok r A ∧
    r.types = #[some ⟨0⟩, some ⟨1⟩, none, none] ∧
    A.items =
      #[⟨none, .scalar .f32⟩, ⟨none, .array ⟨0⟩ (.fixed 3) 4⟩, ⟨none, .vector .two .f32⟩] := by
  have h := (skipped_types_leave_pointees (m := typesOnly arrayTypes)
    (n := typesOnly (arrayTypes ++ [⟨none, .resource .sampler⟩, resourcePointer])) rfl rfl ?_).1
  · exact ⟨_, _, h, rfl, rfl⟩
  · rintro u hu
    rcases mem_cons.1 hu with rfl | hu
    · exact ⟨_, _, rfl⟩
    · obtain rfl := mem_singleton.1 hu
      exact ⟨_, _, rfl⟩

/-- A type that is not supported adds a type. -/
theorem resourcePointer_adds_type :
    (∃ r, elaborateTypes { module := typesOnly [] } [] {} = .ok r {}) ∧
    (∃ c A, resourcePointer.shape.elaborate { module := typesOnly [resourcePointer] } {} =
      .error (.unsupported c) A) ∧
    ∃ r A, elaborateTypes { module := typesOnly [resourcePointer] } [resourcePointer] {} = .ok r A ∧
      A.items = #[⟨none, .vector .two .f32⟩] :=
  ⟨⟨_, rfl⟩, ⟨_, _, rfl⟩, _, _, rfl, rfl⟩

end Shader.Surface
