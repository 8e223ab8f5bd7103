import Shader.Proofs.Acyclicity
import Shader.Proofs.Compliance
import Shader.Proofs.Computation
import Shader.Proofs.Length
import Shader.Proofs.Valuation

/-!
# Emissions side by side

Several emissions of the same code, in environments that agree, do the same things: they take the
same branches and end alike, with a value or with a fault.  The ids they come by may differ, but
correspond to each other.  A single emission is the case of one.

What it means that states of emission correspond, and ids, is left open (`Link`), as long as ids
that correspond go on to correspond.  While the body of a function is emitted, the constructs around
the point of emission are known, and which labels are owed; a step leads from one phase to another.
It is followed in all emissions at once (`Sim`): from states that correspond it ends alike, and the
states after it correspond.  A correspondence is a link for which this is true of the elementary
steps of emission (`Correspondence`); it is then true of all of it.
-/

namespace Shader.Emit

open List Assembly

variable {ι α β γ ρ ρ' σ ε : Type}

/-! ### What emissions have in common, up to ids -/

/-- An id for each emission. -/
abbrev Ids (ι : Type) := ι → Id

/-- An operand for each emission. -/
inductive Term (ι : Type) where
  | id (a : Ids ι)
  | word (value : UInt32)
  | text (value : String)

def Term.on (i : ι) : Term ι → Operand
  | id a => .id (a i)
  | word value => .word value
  | text value => .text value

/-- A construct around the point of emission. -/
structure Around (ι : Type) where
  merge : Ids ι
  continuing : Option (Ids ι)
  construct : Construct

def Around.on (i : ι) (f : Around ι) : Frame := ⟨f.merge i, f.continuing.map (· i), f.construct⟩

/-- How a global variable is reached. -/
structure Place (ι : Type) where
  id : Ids ι
  contents : Option (Ids ι)

def Place.on (v : Place ι) (i : ι) : GlobalPlace := ⟨v.id i, v.contents.map (· i)⟩

/-- What is known about a global variable. -/
def Place.facts (v : Place ι) : List (Fact (Ids ι)) := .global v.id :: v.contents.toList.map .global

/-- A variable through which a value enters or leaves an entry point. -/
structure Port (ι : Type) where
  id : Ids ι
  member : Option (UInt32 × Ids ι)
  element : Option (Ids ι)

def Port.on (v : Port ι) (i : ι) : InterfaceVariable :=
  ⟨v.id i, v.member.map fun m => (m.1, m.2 i), v.element.map (· i)⟩

/-- What is known about an interface variable. -/
def Port.facts (v : Port ι) : List (Fact (Ids ι)) :=
  .global v.id :: (v.member.toList.map fun m => .global m.2) ++ v.element.toList.map .global

/-- A function, as its statements see it. -/
structure Locale (ι : Type) where
  env : ι → Env
  function : IR.Function
  name : String
  result : Option (Ids ι)
  outputs : List (Port ι)
  deferred : Array Bool

def Locale.on (E : Locale ι) (i : ι) : FunctionEnv :=
  ⟨E.env i, E.function, E.name, E.result.map (· i), E.outputs.map (·.on i), E.deferred⟩

/-- What is known about a function. -/
def Locale.facts (E : Locale ι) : List (Fact (Ids ι)) :=
  E.outputs.flatMap Port.facts ++ E.result.toList.map .global

/-- How far emission is. -/
structure Phase (ι : Type) where
  /-- The ids that are issued and not yet defined. -/
  owed : List (Ids ι)
  /-- The constructs around the point of emission. -/
  flow : List (Around ι)
  /-- How far the function is that is emitted, if one is. -/
  openness : Option Openness

variable {a : Ids ι}

@[simp]
lemma attested_flatMap_issued {ids : List (Ids ι)} :
    Attested (ids.flatMap ([.issued ·])) a ↔ a ∈ ids := by
  rw [← map_eq_flatMap, attested_map_issued]

lemma ids_on (l : List (Ids ι)) (i : ι) :
    Operand.ids (l.map (· i)) = (l.map Term.id).map (Term.on i) := by
  simp [Operand.ids, Function.comp_def, Term.on]

lemma words_on (l : List UInt32) (i : ι) : Operand.words l = (l.map Term.word).map (Term.on i) := by
  simp [Operand.words, Function.comp_def, Term.on]

/-! ### Links -/

variable {m : IR.Module} {options : Options} {R : Regime m options}

/-- What it means that states, ids and faults of several emissions correspond. -/
structure Link (ι : Type) (R : Regime m options) where
  Rel : List (Ids ι) → Option Openness → (ι → Progress) → Prop
  /-- What holds of the states after a failure. -/
  Left : (ι → Progress) → Prop
  Holds : (ι → Progress) → Fact (Ids ι) → Prop
  /-- What holds between a state and one that emission leads to. -/
  Later : Progress → Progress → Prop
  Alike : (ι → Fault) → Prop
  left : ∀ {owed o p}, Rel owed o p → Left p
  perm : ∀ {owed owed' o p}, owed.Perm owed' → Rel owed o p → Rel owed' o p
  begun : ∀ {owed o p}, o ≠ .blank → Rel owed (some o) p → Rel owed (some .begun) p
  refl : ∀ p, Later p p
  trans : ∀ {p₁ p₂ p₃}, Later p₁ p₂ → Later p₂ p₃ → Later p₁ p₃
  keep : ∀ {p q x}, (∀ i, Later (p i) (q i)) → Holds p x → Holds q x
  issued : ∀ {owed o p a}, Rel owed o p → Holds p (.global a) → Holds p (.issued a)
  alike : ∀ {fault : Fault}, fault.isStructural = false → fault ≠ .inconsistent .circular →
    Alike fun _ => fault

namespace Link

/-- All facts hold. -/
def Knows (L : Link ι R) (p : ι → Progress) (g : List (Fact (Ids ι))) : Prop := ∀ x ∈ g, L.Holds p x

/-- The lists are the same up to ids, which correspond. -/
def Lists (L : Link ι R) (p : ι → Progress) (on : ρ → ι → α) (facts : ρ → List (Fact (Ids ι)))
    (xs : ι → Array α) : Prop :=
  ∃ rs : List ρ, (∀ i, (xs i).toList = rs.map (on · i)) ∧ ∀ r ∈ rs, L.Knows p (facts r)

/-- References are followed as deep in all emissions as it takes: what holds of a handle whenever it
holds of those it refers to, one level down, holds of all.  If the levels end, they end together,
and the circle that this means is a fault in all emissions. -/
def Descends (L : Link ι R) {kind : Kind} (Refers : Handle kind → Handle kind → Prop)
    (depth : ι → Nat) : Prop :=
  ∀ P : (ι → Nat) → Handle kind → Prop, (L.Alike (fun _ => .inconsistent .circular) → ∀ h,
    P (fun _ => 0) h) → (∀ n h, (∀ c, Refers h c → P n c) → P (fun i => n i + 1) h) → ∀ h, P depth h

/-- A kind of states that hold the progress of emission. -/
structure Stage (L : Link ι R) (σ : Type) where
  look : σ → Progress
  At : Phase ι → (ι → σ) → Prop
  rel : ∀ {s x}, At s x → L.Rel s.owed s.openness fun i => look (x i)
  perm : ∀ {s : Phase ι} {x owed}, s.owed.Perm owed → At s x → At ⟨owed, s.flow, s.openness⟩ x
  begun : ∀ {owed flow o x}, o ≠ .blank → At ⟨owed, flow, some o⟩ x → At ⟨owed, flow, some .begun⟩ x

/-- Emission outside functions. -/
def emission (L : Link ι R) : L.Stage Progress :=
  ⟨id, fun s p => L.Rel s.owed s.openness p, id, L.perm, L.begun⟩

variable {L : Link ι R} {S : L.Stage σ} {g : List (Fact (Ids ι))} {p q : ι → Progress}
  {on : ρ → ι → α} {k : ρ → List (Fact (Ids ι))} {s s' : Phase ι}
  {g' : List (Assembly.Fact (Ids ι))} {x : ι → σ} {k' : ρ → List (Assembly.Fact (Ids ι))}

lemma Knows.nil : L.Knows p [] := forall_mem_nil _

lemma Knows.append (h : L.Knows p g') (h' : L.Knows p g) :
    L.Knows p (g' ++ g) := forall_mem_append.2 ⟨h, h'⟩

lemma Knows.later (h : L.Knows p g) (hq : ∀ i, L.Later (p i) (q i)) : L.Knows q g :=
  fun x hx => L.keep hq (h x hx)

lemma Lists.later {xs : ι → Array α} (h : L.Lists p on k xs) (hq : ∀ i, L.Later (p i) (q i)) :
    L.Lists q on k xs := by
  obtain ⟨rs, hrs, hknown⟩ := h
  exact ⟨rs, hrs, fun r hr => (hknown r hr).later hq⟩

lemma Lists.push {xs : ι → Array α} (h : L.Lists p on k xs) (r : ρ)
    (hr : L.Knows p (k r)) : L.Lists p on k fun i => (xs i).push (on r i) := by
  obtain ⟨rs, hrs, hknown⟩ := h
  refine ⟨rs ++ [r], fun i => Array.toList_push.trans ?_, forall_mem_append.2 ⟨hknown,
    forall_mem_singleton.2 hr⟩⟩
  rw [hrs, map_append]
  rfl

lemma Lists.getElem? {xs : ι → Array α} (h : L.Lists p on k xs) (n : Nat) :
    ∃ r : Option ρ, (∀ i, (xs i)[n]? = r.map (on · i)) ∧ ∀ a, r = some a → L.Knows p (k a) := by
  obtain ⟨rs, hrs, hknown⟩ := h
  refine ⟨rs[n]?, fun i => ?_, fun a ha => hknown a (mem_of_getElem? ha)⟩
  rw [← Array.getElem?_toList, hrs, getElem?_map]

lemma Lists.places {xs : ι → Array GlobalPlace} (places : Array GlobalPlace)
    (hxs : ∀ i, xs i = places)
    (h : ∀ place ∈ places, ∀ u, u = place.id ∨ place.contents = some u →
      L.Holds p (.global fun _ => u)) :
    L.Lists p Place.on Place.facts xs := by
  refine ⟨places.toList.map fun place => ⟨fun _ => place.id, place.contents.map fun u _ => u⟩,
    fun i => ?_, ?_⟩
  · simp [hxs, Function.comp_def, Place.on]
  · intro v hv
    obtain ⟨place, hplace, rfl⟩ := mem_map.1 hv
    have hplace := h place (Array.mem_toList_iff.1 hplace)
    refine forall_mem_cons.2 ⟨hplace _ (.inl rfl), fun x hx => ?_⟩
    obtain ⟨u, hu, rfl⟩ := mem_map.1 hx
    obtain ⟨c, hc, rfl⟩ := Option.map_eq_some_iff.1 (Option.mem_toList.1 hu)
    exact hplace c (.inr hc)

lemma Descends.same {Refers : Handle kind → Handle kind → Prop}
    (h : L.Alike fun _ => .inconsistent .circular) {depth : ι → Nat} (n : Nat)
    (hdepth : ∀ i, depth i = n) :
    L.Descends Refers depth := by
  intro P zero succ
  obtain rfl : depth = fun _ => n := funext hdepth
  induction n with
  | zero => exact zero h
  | succ n ih => exact fun e => succ _ e fun c _ => ih (fun _ => rfl) c

/-! ### Steps -/

/-- The step succeeds in all emissions, with answers that stand for a common one, or it fails in
all. -/
def Ensues (S : L.Stage σ) (on : ρ → ι → α) (t : ρ → Phase ι) (facts : ρ → List (Fact (Ids ι)))
    (act : ι → EStateM Fault σ α) (x : ι → σ) : Prop :=
  (∃ (r : ρ) (y : ι → σ), (∀ i, act i (x i) = .ok (on r i) (y i)) ∧ S.At (t r) y ∧
      (∀ i, L.Later (S.look (x i)) (S.look (y i))) ∧ L.Knows (fun i => S.look (y i)) (facts r)) ∨
    ∃ (fault : ι → Fault) (y : ι → σ), (∀ i, act i (x i) = .error (fault i) (y i)) ∧
      L.Left (fun i => S.look (y i)) ∧ (∀ i, L.Later (S.look (x i)) (S.look (y i))) ∧ L.Alike fault

/-- From states in a phase that know of the given facts, the step does the same in all emissions. -/
def Sim (S : L.Stage σ) (g : List (Fact (Ids ι))) (on : ρ → ι → α) (s : Phase ι) (t : ρ → Phase ι)
    (facts : ρ → List (Fact (Ids ι))) (act : ι → EStateM Fault σ α) : Prop :=
  ∀ x : ι → σ, S.At s x → L.Knows (fun i => S.look (x i)) g → Ensues S on t facts act x

lemma Ensues.issued {act : ι → EStateM Fault σ α} {t : ρ → Phase ι} (h : Ensues S on t k act x)
    (hk : ∀ r, ∀ x ∈ k' r, x ∈ k r ∨ ∃ a, x = .issued a ∧ .global a ∈ k r) :
    Ensues S on t k' act x := by
  rcases h with ⟨r, y, hrun, hy, hlater, hknown⟩ | hfailed
  · refine .inl ⟨r, y, hrun, hy, hlater, fun x hx => ?_⟩
    rcases hk r x hx with hx | ⟨a, rfl, ha⟩
    · exact hknown x hx
    · exact L.issued (S.rel hy) (hknown _ ha)
  · exact .inr hfailed

lemma Ensues.congr {act act' : ι → EStateM Fault σ α} {t : ρ → Phase ι} (h : Ensues S on t k act x)
    (hact : ∀ i, act' i (x i) = act i (x i)) : Ensues S on t k act' x := by
  unfold Ensues
  simp only [hact]
  exact h

namespace Sim

variable {act : ι → EStateM Fault σ α} {t : ρ → Phase ι} {on' : ρ' → ι → β} {t' : ρ' → Phase ι}
  {l : ρ' → List (Fact (Ids ι))} {fault : Fault} {y : σ}

lemma answer {r : ρ} (h : ∀ x ∈ k r, x ∈ g) (hs : t r = s) :
    Sim S g on s t k fun i => pure (on r i) :=
  fun x hx hg => .inl ⟨r, x, fun _ => rfl, hs ▸ hx, fun _ => L.refl _, fun y hy => hg y (h y hy)⟩

protected lemma pure {r : ρ} (h : ∀ x ∈ k r, x ∈ g) :
    Sim S g on s (fun _ => s) k fun i => pure (on r i) :=
  answer h rfl

protected lemma throw {fault : ι → Fault} (h : L.Alike fault) :
    Sim S g on s t k fun i => throw (fault i) :=
  fun x hx _ => .inr ⟨fault, x, fun _ => rfl, L.left (S.rel hx), fun _ => L.refl _, h⟩

lemma fail (h : fault.isStructural = false) (h' : fault ≠ .inconsistent .circular) :
    Sim S g on s t k fun _ => throw fault := .throw (L.alike h h')

/-- One step after the other: the second knows what the first left. -/
protected lemma bind {next : ι → α → EStateM Fault σ β} (h : Sim S g on s t k act)
    (h' : ∀ r, Sim S (k r ++ g) on' (t r) t' l fun i => next i (on r i)) :
    Sim S g on' s t' l fun i => act i >>= next i := by
  intro x hx hg
  rcases h x hx hg with ⟨r, y, hrun, hy, hlater, hk⟩ | ⟨fault, y, hrun, hfailed⟩
  · have hnext : ∀ i, (act i >>= next i) (x i) = next i (on r i) (y i) := fun i => bind_ok (hrun i)
    rcases h' r y hy (hk.append (hg.later hlater)) with ⟨r', z, hrun', hz, hlater',
      hl⟩ | ⟨fault, z, hrun', hz⟩
    · exact .inl ⟨r', z, fun i => (hnext i).trans (hrun' i), hz, fun i => L.trans (hlater i)
        (hlater' i), hl⟩
    · exact .inr ⟨fault, z, fun i => (hnext i).trans (hrun' i), hz.1,
        fun i => L.trans (hlater i) (hz.2.1 i), hz.2.2⟩
  · exact .inr ⟨fault, y, fun i => bind_error (hrun i), hfailed⟩

lemma failing {next : ι → α → EStateM Fault σ β} (h : fault.isStructural = false)
    (h' : fault ≠ .inconsistent .circular) : Sim S g on' s t' l fun i => throw fault >>= next i :=
  fun x hx hg => fail (S := S) (t := t') h h' x hx hg

lemma mono (h : Sim S g on s t k act) (hg : ∀ x ∈ g, x ∈ g') : Sim S g' on s t k act :=
  fun x hx hknows => h x hx fun y hy => hknows y (hg y hy)

lemma ite {c : Prop} [Decidable c] {act' : ι → EStateM Fault σ α} (h : c → Sim S g on s t k act)
    (h' : ¬c → Sim S g on s t k act') : Sim S g on s t k fun i => if c then act i else act' i := by
  by_cases hc : c
  · simp only [if_pos hc]
    exact h hc
  · simp only [if_neg hc]
    exact h' hc

lemma read {next : ι → σ → EStateM Fault σ α}
    (h : ∀ x, S.At s x → L.Knows (fun i => S.look (x i)) g →
      ∃ g', L.Knows (fun i => S.look (x i)) g' ∧ Sim S (g' ++ g) on s t k fun i => next i (x i)) :
    Sim S g on s t k fun i => MonadState.get >>= next i := by
  intro x hx hg
  obtain ⟨g', hg', hnext⟩ := h x hx hg
  exact hnext x hx (hg'.append hg)

lemma perm (owed : List (Ids ι)) (h : Sim S g on ⟨owed, s.flow, s.openness⟩ t k act)
    (hperm : s.owed.Perm owed) :
    Sim S g on s t k act := fun x hx hg => h x (S.perm hperm hx) hg

lemma begun {owed : List (Ids ι)} {flow : List (Around ι)} {o : ρ → Openness}
    (h : Sim S g on s (fun r => ⟨owed, flow, some (o r)⟩) k act) (ho : ∀ r, o r ≠ .blank) :
    Sim S g on s (fun _ => ⟨owed, flow, some .begun⟩) k act := by
  intro x hx hg
  rcases h x hx hg with ⟨r, y, hrun, hy, hrest⟩ | hfailed
  · exact .inl ⟨r, y, hrun, S.begun (ho r) hy, hrest⟩
  · exact .inr hfailed

lemma issued (h : Sim S g on s t k act) (hk : ∀ r, ∀ x ∈ k' r, x ∈ k r ∨ ∃ a, x = .issued a ∧
    .global a ∈ k r) :
    Sim S g on s t k' act := fun x hx hg => (h x hx hg).issued hk

/-- The answers may be told of in another way. -/
lemma imp {on' : ρ' → ι → α} {k' : ρ' → List (Fact (Ids ι))} (f : ρ → ρ') (h : Sim S g on s t k act)
    (hon : ∀ r i, on r i = on' (f r) i) (ht : ∀ r, t r = t' (f r))
    (hk : ∀ r, ∀ x ∈ k' (f r), x ∈ k r) :
    Sim S g on' s t' k' act := by
  intro x hx hg
  rcases h x hx hg with ⟨r, y, hrun, hy, hlater, hknown⟩ | hfailed
  · exact .inl ⟨f r, y, fun i => hon r i ▸ hrun i, ht r ▸ hy, hlater, fun z hz =>
      hknown z (hk r z hz)⟩
  · exact .inr hfailed

protected lemma mapM {xs : List γ} {f : ι → γ → EStateM Fault σ α}
    (h : ∀ {g}, ∀ x ∈ xs, Sim S g on s (fun _ => s) k fun i => f i x) :
    Sim S g (fun (rs : List ρ) i => rs.map (on · i)) s (fun _ => s) (flatMap k) fun i =>
    xs.mapM (f i) := by
  induction xs generalizing g with
  | nil => exact .pure (r := []) (forall_mem_nil _)
  | cons x xs ih =>
    simp only [mapM_cons]
    refine .bind (h x mem_cons_self) fun r => .bind (ih fun y hy => h y (mem_cons_of_mem _ hy))
      fun rs => .pure (r := r :: rs) fun z hz => ?_
    simp only [flatMap_cons, mem_append] at hz ⊢
    tauto

protected lemma forM {xs : List γ} {f : ι → γ → EStateM Fault σ Unit}
    (h : ∀ x ∈ xs, Sim S g (fun (_ : Unit) _ => ()) s (fun _ => s) (fun _ => []) fun i => f i x) :
    Sim S g (fun (_ : Unit) _ => ()) s (fun _ => s) (fun _ => []) fun i => xs.forM (f i) := by
  induction xs with
  | nil => exact .pure (r := ()) (forall_mem_nil _)
  | cons x xs ih =>
    exact .bind (h x mem_cons_self) fun _ => ih fun y hy => h y (mem_cons_of_mem _ hy)

end Sim

/-! ### Emission inside functions -/

/-- The bodies are emitted as far, and hold ids that correspond. -/
structure BodiesAgree (L : Link ι R) (s : Phase ι) (σ : ι → Body) : Prop where
  rel : L.Rel s.owed s.openness fun i => (σ i).progress
  size : ∀ i j, (σ i).values.size = (σ j).values.size
  trail : ∀ i j, (σ i).values.trail = (σ j).values.trail
  values : ∀ h, ∃ r : Option (Ids ι), (∀ i, (σ i).values.get? h = r.map (· i)) ∧
    ∀ a, r = some a → L.Holds (fun i => (σ i).progress) (.issued a)
  arguments : L.Lists (fun i => (σ i).progress) (fun a => a) ([.issued ·]) fun i => (σ i).arguments
  locals : L.Lists (fun i => (σ i).progress) (fun a => a) ([.issued ·]) fun i => (σ i).locals
  contents : L.Lists (fun i => (σ i).progress) (fun (r : Option (Ids ι)) i => r.map (· i))
    (·.toList.map .issued) fun i => (σ i).contents
  flow : ∀ i, (σ i).flow = ⟨s.flow.map (·.on i)⟩
  frames : ∀ f ∈ s.flow, L.Knows (fun i => (σ i).progress)
    (.issued f.merge :: f.continuing.toList.map .issued)

/-- Emission inside functions. -/
def body (L : Link ι R) : L.Stage Body :=
  ⟨Body.progress, L.BodiesAgree, BodiesAgree.rel, fun hperm h =>
    { h with rel := L.perm hperm h.rel }, fun ho h => { h with rel := L.begun ho h.rel }⟩

variable {σ : ι → Body} {t : ρ → Phase ι}

lemma BodiesAgree.later (h : L.BodiesAgree s σ) (hrel : L.Rel s'.owed s'.openness q)
    (hflow : s'.flow = s.flow)
    (hq : ∀ i, L.Later (σ i).progress (q i)) :
    L.BodiesAgree s' fun i => (σ i).withProgress (q i) where
  rel := hrel
  size := h.size
  trail := h.trail
  values e := by
    obtain ⟨r, hr, hheld⟩ := h.values e
    exact ⟨r, hr, fun a ha => L.keep hq (hheld a ha)⟩
  arguments := h.arguments.later hq
  locals := h.locals.later hq
  contents := h.contents.later hq
  flow i := (h.flow i).trans (by rw [hflow])
  frames f hf := (h.frames f (hflow ▸ hf)).later hq

lemma BodiesAgree.rewind (h : L.BodiesAgree s σ) (mark : Nat) :
    L.BodiesAgree s fun i => { σ i with values := (σ i).values.rewind mark } :=
  { h with
    size := fun i j => by
      show (Valuation.forget _ _).ids.size = (Valuation.forget _ _).ids.size
      rw [Valuation.size_forget, Valuation.size_forget]
      exact h.size i j
    trail := fun i j => by
      show (σ i).values.trail.drop _ = (σ j).values.trail.drop _
      rw [h.trail i j]
    values := fun e => by
      by_cases he : ∃ i, e ∈ (σ i).values.trail.take ((σ i).values.trail.length - mark)
      · obtain ⟨j, hj⟩ := he
        refine ⟨none, fun i => ?_, nofun⟩
        rw [← h.trail i j] at hj
        exact (Valuation.get?_forget ..).trans (if_pos hj)
      · obtain ⟨r, hr, hheld⟩ := h.values e
        refine ⟨r, fun i => ?_, hheld⟩
        rw [← hr i]
        exact (Valuation.get?_forget ..).trans (if_neg fun hi => he ⟨i, hi⟩) }

lemma BodiesAgree.set (h : L.BodiesAgree s σ) (e : Handle .expression)
    (ha : L.Holds (fun i => (σ i).progress) (.issued a)) :
    L.BodiesAgree s fun i => { σ i with values := (σ i).values.set e (a i) } :=
  { h with
    size := fun i j => by
      rw [Valuation.size_set, Valuation.size_set]
      exact h.size i j
    trail := fun i j => by
      have hsize : (σ i).values.slots.ids.size = (σ j).values.slots.ids.size := h.size i j
      show (Valuation.set _ e _).trail = (Valuation.set _ e _).trail
      unfold Valuation.set
      rw [hsize]
      split
      · exact congrArg (e :: ·) (h.trail i j)
      · exact h.trail i j
    values := fun f => by
      obtain ⟨r, hr, hheld⟩ := h.values f
      by_cases hfe : f = e ∧ ∃ i, f.index < (σ i).values.size
      · obtain ⟨rfl, j, hj⟩ := hfe
        refine ⟨some a, fun i => Valuation.get?_set_self (h.size i j ▸ hj), ?_⟩
        rintro _ ⟨⟩
        exact ha
      · refine ⟨r, fun i => ?_, hheld⟩
        rw [← hr i]
        by_cases hf : f = e
        · subst hf
          have hout : (σ i).values.set f (a i) = (σ i).values := if_neg fun hlt => hfe ⟨rfl, i, hlt⟩
          exact congrArg (Valuation.get? · f) hout
        · exact Valuation.get?_set_of_ne hf }

lemma Ensues.lift {act : ι → EmitM α} (hσ : L.BodiesAgree s σ)
    (h : Ensues L.emission on t k act fun i => (σ i).progress) (hflow : ∀ r, (t r).flow = s.flow) :
    Ensues L.body on t k (fun i => (liftM (act i) : BodyM α)) σ := by
  rcases h with ⟨r, y, hrun, hy, hlater, hk⟩ | ⟨fault, y, hrun, hfailed⟩
  · exact .inl ⟨r, fun i => (σ i).withProgress (y i), fun i => (lift_run (act i) (σ i)).trans
      (by rw [hrun]), hσ.later hy (hflow r) hlater, hlater, hk⟩
  · exact .inr ⟨fault, fun i => (σ i).withProgress (y i), fun i => (lift_run (act i) (σ i)).trans
      (by rw [hrun]), hfailed⟩

lemma Sim.lift {act : ι → EmitM α} {owed : ρ → List (Ids ι)} {o : ρ → Option Openness}
    (h : Sim L.emission g on s (fun r => ⟨owed r, s.flow, o r⟩) k act) :
    Sim L.body g on s (fun r => ⟨owed r, s.flow, o r⟩) k fun i => (liftM (act i) : BodyM α) :=
  fun _ hσ hg => .lift hσ (h _ (BodiesAgree.rel hσ) hg) fun _ => rfl

lemma Sim.modify {change : ι → Body → Body} {s' : Phase ι}
    (hprogress : ∀ i b, (change i b).progress = b.progress)
    (h : ∀ x, L.BodiesAgree s x → L.Knows (fun i => (x i).progress) g →
      L.BodiesAgree s' fun i => change i (x i)) :
    Sim L.body g (fun (_ : Unit) _ => ()) s (fun _ => s') (fun _ => []) fun i =>
    (modify (change i) : BodyM Unit) := by
  intro x hx hg
  refine .inl ⟨(), fun i => change i (x i), fun _ => rfl, h x hx hg, fun i => ?_, .nil⟩
  show L.Later (x i).progress (change i (x i)).progress
  rw [hprogress]
  exact L.refl _

/-! ### Kinds of steps -/

/-- The step leads from one phase to another, outside functions. -/
abbrev Leads (L : Link ι R) (g : List (Fact (Ids ι))) (s t : Phase ι) (act : ι → EmitM Unit) :
    Prop :=
  Sim L.emission g (fun (_ : Unit) _ => ()) s (fun _ => t) (fun _ => []) act

/-- The step gives an id that is declared. -/
abbrev Provides (L : Link ι R) (g : List (Fact (Ids ι))) (s : Phase ι) (act : ι → EmitM Id) :
    Prop :=
  Sim L.emission g (fun a => a) s (fun _ => s) ([.global ·]) act

/-- The step leads from one phase to another, inside a function. -/
abbrev Moves (L : Link ι R) (g : List (Fact (Ids ι))) (s t : Phase ι) (act : ι → BodyM Unit) :
    Prop :=
  Sim L.body g (fun (_ : Unit) _ => ()) s (fun _ => t) (fun _ => []) act

/-- The step stays in an open block, where it gives an id. -/
abbrev Computes (L : Link ι R) (g : List (Fact (Ids ι))) (owed : List (Ids ι))
    (flow : List (Around ι)) (act : ι → BodyM Id) : Prop :=
  Sim L.body g (fun a => a) ⟨owed, flow, some .opened⟩ (fun _ => ⟨owed, flow, some .opened⟩)
    ([.issued ·]) act

end Link

/-! ### Correspondences -/

open Link

/-- The ids that the operands mention are known. -/
def Covered (g : List (Fact (Ids ι))) (terms : List (Term ι)) :
    Prop := ∀ a, .id a ∈ terms → Attested g a

section

variable {g : List (Fact (Ids ι))} {terms : List (Term ι)}

@[simp]
lemma covered_nil : Covered g [] := nofun

@[simp]
lemma covered_id_cons : Covered g (.id a :: terms) ↔ Attested g a ∧ Covered g terms := by
  simp [Covered]

@[simp]
lemma covered_word_cons : Covered g (.word w :: terms) ↔ Covered g terms := by
  simp [Covered]

@[simp]
lemma covered_text_cons : Covered g (.text w :: terms) ↔ Covered g terms := by
  simp [Covered]

@[simp]
lemma covered_map_id {ids : List (Ids ι)} : Covered g (ids.map .id) ↔ ∀ a ∈ ids, Attested g a := by
  simp [Covered]

@[simp]
lemma covered_map_word {words : List UInt32} : Covered g (words.map .word) := by
  simp [Covered]

lemma Covered.append (h : Covered g terms) (g' : List (Fact (Ids ι))) : Covered (g' ++ g) terms :=
  fun a ha => (h a ha).append g'

end

/-- An entry point with the given variables, which lists the globals too if it has to. -/
def entryInstruction (env : Env) (p : Progress) (operands : List Operand) (ids : List Id) :
    Instruction :=
  ⟨.entryPoint, operands ++ Operand.ids (ids ++
    if env.options.listsGlobals then p.globals.toList.map GlobalPlace.id else [])⟩

/-- A link that the elementary steps of emission respect. -/
structure Correspondence (ι : Type) [Inhabited ι] (R : Regime m options) extends Link ι R where
  /-- The environments in which the emissions take place. -/
  Akin : (ι → Env) → Prop
  akin_types : ∀ {env}, Akin env → ∀ i, (env i).module.types = (env default).module.types
  akin_constants : ∀ {env}, Akin env → ∀ i, (env i).module.constants =
    (env default).module.constants
  akin_within : ∀ {env} (f : IR.Function), Akin env → Akin fun i => (env i).within f
  suits : ∀ {env}, Akin env → R.SuitsTypes (env default).module
  /-- The functions that are emitted. -/
  Fits : IR.Function → Prop
  descends : ∀ {env} {f : IR.Function}, Akin env → Fits f →
    toLink.Descends f.Refers fun i => ((env i).within f).depth
  isConstant : ∀ {owed o p a}, Rel owed o p → Holds p (.issued a) → ∀ i,
    (p i).assembly.isConstant (a i) = (p default).assembly.isConstant (a default)
  isSpecialization : ∀ {owed o p a}, Rel owed o p → Holds p (.issued a) → ∀ i,
    (p i).assembly.isSpecialization (a i) = (p default).assembly.isSpecialization (a default)
  recorded : ∀ {owed o p a}, Rel owed o p → Holds p (.issued a) →
    (p default).assembly.isConstant (a default) → Holds p (.global a)
  globals : ∀ {owed o p}, Rel owed o p → toLink.Lists p Place.on Place.facts fun i => (p i).globals
  freshId : ∀ {g owed flow o}, Sim toLink.emission g (fun a => a) ⟨owed, flow, o⟩
    (fun a => ⟨a :: owed, flow, o⟩) ([.issued ·]) fun _ => (liftM freshId : EmitM Id)
  scalarType : ∀ {g s scalar}, R.Narrow scalar →
    toLink.Provides g s fun _ => (liftM (scalarType scalar) : EmitM Id)
  vectorType : ∀ {g s scalar} (n : UInt32), R.Narrow scalar →
    toLink.Provides g s fun _ => (liftM (vectorType scalar n) : EmitM Id)
  voidType : ∀ {g s}, toLink.Provides g s fun _ => (liftM voidType : EmitM Id)
  pointerType : ∀ {g s a} (storage : StorageClass), .global a ∈ g →
    toLink.Provides g s fun i => (liftM (pointerType storage (a i)) : EmitM Id)
  arrayType : ∀ {g s a} (length stride : UInt32), .global a ∈ g →
    toLink.Provides g s fun i => (liftM (arrayType (a i) length stride) : EmitM Id)
  functionType : ∀ {g s r} (ps : List (Ids ι)), .global r ∈ g → (∀ a ∈ ps, .global a ∈ g) →
    toLink.Provides g s fun i =>
    (liftM (Assembly.typeId (.function (r i) (ps.map (· i)))) : EmitM Id)
  constant : ∀ {g s t v}, .global t ∈ g → (∀ parts, v ≠ .composite parts) →
    toLink.Provides g s fun i => (liftM (constant (t i) v) : EmitM Id)
  /-- A composite of what is constant already. -/
  composite : ∀ {g s t p} (parts : List (Ids ι)), toLink.emission.At s p → toLink.Knows p g →
    .global t ∈ g → (∀ a ∈ parts, .global a ∈ g ∧ (p default).assembly.isConstant (a default)) →
    Ensues toLink.emission (fun a => a) (fun _ => s) ([.global ·]) (fun i =>
      (liftM (Assembly.constant (t i) (.composite (parts.map (· i)))) : EmitM Id)) p
  oneConstant : ∀ {g s t} (shape : IR.TypeShape), .global t ∈ g →
    toLink.Provides g s fun i => Emit.oneConstant (t i) shape
  mathImport : ∀ {g s}, Sim toLink.emission g (fun a => a) s (fun _ => s) ([.issued ·]) fun _ =>
    (liftM mathImport : EmitM Id)
  typeId : ∀ {env g s} {h : Handle .type}, Akin env →
    toLink.Provides g s fun i => Emit.typeId (env i) h
  constantId : ∀ {env g s} {h : Handle .expression}, Akin env →
    toLink.Provides g s fun i => Emit.constantId (env i) h
  overrideId : ∀ {g s} h, toLink.Provides g s fun _ => Emit.overrideId h
  functionId : ∀ {g s} h, Sim toLink.emission g (fun a => a) s (fun _ => s) ([.issued ·]) fun _ =>
    Emit.functionId h
  nameTarget : ∀ {g s a} (name : Option String), Attested g a →
    toLink.Leads g s s fun i => (liftM (nameTarget (a i) name) : EmitM Unit)
  newVariable : ∀ {α ρ : Type} {g s k pointer ds} {on : ρ → ι → α} {next : ι → Id → EmitM α}
    (storage : StorageClass), R.globals → .global pointer ∈ g → ds.Plain →
    (∀ id : Ids ι, Sim toLink.emission (.global id :: g) on s (fun _ => s) k fun i =>
    next i (id i)) → Sim toLink.emission g on s (fun _ => s) k fun i => do
      let id ← (liftM Assembly.freshId : EmitM Id)
      (liftM (pushTo .globals (.variable (pointer i) id storage none)) : EmitM Unit)
      (liftM (adorn id ds) : EmitM Unit)
      next i id
  entryPoint : ∀ {env owed o p g s} (terms : List (Term ι)) (ids : List (Ids ι)),
    Akin env → Rel owed o p → Covered g terms → (∀ a ∈ ids, Attested g a) → ∃ g',
    toLink.Knows p g' ∧
      toLink.Leads (g' ++ g) s s fun i =>
      (liftM (pushTo .entryPoints (entryInstruction (env i) (p i)
        (terms.map (Term.on i)) (ids.map (· i)))) : EmitM Unit)
  executionMode : ∀ {g s a} (mode : ExecutionMode) (words : List UInt32), words.length ≤
    9 → Attested g a → toLink.Leads g s s fun i =>
    (liftM (pushTo .executionModes (executionMode (a i) mode words)) : EmitM Unit)
  openFunction : ∀ {g owed flow id type r} (ps : List (Ids ι × Ids ι)), Attested g id →
    Attested g type → Attested g r → (∀ q ∈ ps, Attested g q.1 ∧ Attested g q.2) →
    toLink.Leads g ⟨id :: ps.map Prod.snd ++ owed, flow, none⟩ ⟨owed, flow, some .blank⟩ fun i =>
      (liftM (openFunction ⟨id i, type i, r i, (ps.map fun q => ⟨q.1 i, q.2 i⟩).toArray, #[]⟩) :
        EmitM Unit)
  addVariable : ∀ {g owed flow o pointer id} (init : Option (Ids ι)), Attested g pointer →
    Attested g id → (∀ a, init = some a → Attested g a) → toLink.Leads g ⟨id :: owed, flow, some o⟩
    ⟨owed, flow, some o⟩ fun i =>
      (liftM (addVariable (.variable (pointer i) (id i) .function (init.map (· i)))) : EmitM Unit)
  beginBlock : ∀ {g owed flow o label}, o = .blank ∨ o = .closed → Attested g label →
    toLink.Leads g ⟨label :: owed, flow, some o⟩ ⟨owed, flow, some .opened⟩ fun i =>
      (liftM (Assembly.beginBlock (label i)) : EmitM Unit)
  push : ∀ {g owed flow op} {terms : List (Term ι)}, Opcode.resultless.contains op →
    op.isTerminator = false → Covered g terms →
    (∀ i, Instruction.Regular ⟨op, terms.map (Term.on i)⟩) → toLink.Leads g
    ⟨owed, flow, some .opened⟩ ⟨owed, flow, some .opened⟩ fun i =>
      (liftM (pushInstruction ⟨op, terms.map (Term.on i)⟩) : EmitM Unit)
  pushResult : ∀ {g owed flow op type id} {terms : List (Term ι)}, op.isTyped → Attested g type →
    Attested g id → Covered g terms →
    (∀ i, (Instruction.result op (type i) (id i) (terms.map (Term.on i))).Regular) → toLink.Leads g
    ⟨id :: owed, flow, some .opened⟩ ⟨owed, flow, some .opened⟩ fun i =>
      (liftM (pushInstruction (.result op (type i) (id i) (terms.map (Term.on i)))) : EmitM Unit)
  terminate : ∀ {g owed flow op} {terms : List (Term ι)}, Opcode.resultless.contains op →
    Covered g terms → (∀ i, Instruction.Regular ⟨op, terms.map (Term.on i)⟩) →
    toLink.Leads g ⟨owed, flow, some .opened⟩ ⟨owed, flow, some .closed⟩ fun i =>
      (liftM (Assembly.terminate ⟨op, terms.map (Term.on i)⟩) : EmitM Unit)
  openLabel : ∀ {g owed flow}, Sim toLink.body g (fun (r : Option (Ids ι)) i => r.map (· i))
    ⟨owed, flow, some .begun⟩ (fun r => ⟨owed, flow, some (if r.isSome then .opened else .closed)⟩)
    (·.toList.map .issued) fun _ => openLabel?
  labelOr : ∀ {g owed flow} (cause : Inconsistency), cause ≠ .circular →
    toLink.Computes g owed flow fun _ => labelOr cause
  closeFunction : ∀ {g owed flow}, toLink.Leads g ⟨owed, flow, some .closed⟩
    ⟨owed, flow, none⟩ fun _ => (liftM closeFunction : EmitM Unit)

end Shader.Emit
