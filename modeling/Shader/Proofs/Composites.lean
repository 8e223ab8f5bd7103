import Shader.Proofs.Discipline

/-!
# What constant composites are made of

A constant composite has to be made of constants that cannot be specialized.  Composites of a
program that list their components are refused if one of these comes down to an override; in
functions they are constructed instead.  A vector of equal components is not checked that way: one
of an override becomes a constant composite of a constant that can be specialized, and it is the
only kind that does.
-/

namespace Shader.IR

open List

/-- The constant expression is an override, or leads to one by name. -/
inductive Module.Overridden (m : Module) : Handle .expression → Prop where
  | override : m.constants.get? h = some (.override o) →
      Overridden m h
  | constant {h value : Handle .expression} : m.constants.get? h = some (.constant value) →
      Overridden m value → Overridden m h

/-- The constant expression lists a component that comes down to an override, or is made from one
that does. -/
inductive Module.Refused (m : Module) : Handle .expression → Prop where
  | compose :
      m.constants.get? h = some (.compose type components) → c ∈ components →
      m.Overridden c → Refused m h
  | constant {h value : Handle .expression} : m.constants.get? h = some (.constant value) →
      Refused m value → Refused m h
  | operand : m.constants.get? h = some e → g ∈ e.operands →
      Refused m g → Refused m h

section

variable {m : Module} {h value : Handle .expression} {e : Expression}

lemma Module.not_overridden (he : m.constants.get? h = some e) (hoverride : ∀ o, e ≠ .override o)
    (hconstant : ∀ v, e ≠ .constant v) : ¬m.Overridden h := by
  rintro (hget | ⟨hget, -⟩)
  · exact hoverride _ (Option.some.inj (he.symm.trans hget))
  · exact hconstant _ (Option.some.inj (he.symm.trans hget))

lemma Module.overridden_constant_iff (he : m.constants.get? h = some (.constant value)) :
    m.Overridden h ↔ m.Overridden value := by
  refine ⟨?_, .constant he⟩
  rintro (hget | ⟨hget, hvalue⟩)
  · cases he.symm.trans hget
  · cases he.symm.trans hget
    exact hvalue

lemma Module.refused_constant_iff (he : m.constants.get? h = some (.constant value)) :
    m.Refused h ↔ m.Refused value := by
  refine ⟨?_, .constant he⟩
  rintro (⟨hget, -, -⟩ | ⟨hget, hvalue⟩ | ⟨hget, hg, -⟩)
  · cases he.symm.trans hget
  · cases he.symm.trans hget
    exact hvalue
  · cases he.symm.trans hget
    cases hg

lemma Module.not_refused (he : m.constants.get? h = some e) (hconstant : ∀ v, e ≠ .constant v)
    (hoperands : ∀ g ∈ e.operands, ¬m.Refused g)
    (hcomponents : ∀ type components, e = .compose type components → ∀ c ∈ components,
      ¬m.Overridden c) :
    ¬m.Refused h := by
  rintro (⟨hget, hc, hover⟩ | ⟨hget, -⟩ | ⟨hget, hg, hrefused⟩)
  · exact hcomponents _ _ (Option.some.inj (he.symm.trans hget)) _ hc hover
  · exact hconstant _ (Option.some.inj (he.symm.trans hget))
  · cases he.symm.trans hget
    exact hoperands _ hg hrefused

end

end Shader.IR

namespace Shader.Assembly

open List

/-- What declares constants that cannot be specialized. -/
def Opcode.fixedConstants :
    List Opcode := [.constantTrue, .constant, .constantNull, .constantComposite]

/-- What declares constants that can be specialized. -/
def Opcode.specializable : List Opcode := [.specConstantTrue, .specConstantFalse, .specConstant]

lemma Opcode.not_specializable_of_fixed : ∀ op ∈ fixedConstants, op ∉ specializable := by decide

/-- One of the instructions has one of the opcodes, and defines the id. -/
def DefinedBy (ops : List Opcode) (is : List Instruction) (u : Id) : Prop :=
  ∃ i ∈ is, i.opcode ∈ ops ∧ i.result? = some u

lemma DefinedBy.mono (h : DefinedBy ops is u) (hsub : is ⊆ is') : DefinedBy ops is' u := by
  obtain ⟨i, hi, hop, hresult⟩ := h
  exact ⟨i, hsub hi, hop, hresult⟩

lemma constantInstruction_fixed (type id : Id) (h : value ≠ .bool false) :
    (constantInstruction type id value).opcode ∈ Opcode.fixedConstants ∧
      (constantInstruction type id value).result? = some id := by
  cases value with
  | bool b =>
    cases b with
    | false => exact absurd rfl h
    | true => exact ⟨.head _, rfl⟩
  | word | wide | explicitZero => exact ⟨.tail _ (.head _), rfl⟩
  | null => exact ⟨.tail _ (.tail _ (.head _)), rfl⟩
  | composite parts => exact ⟨.tail _ (.tail _ (.tail _ (.head _))), rfl⟩

lemma specializationInstruction_specializable (type id : Id) (value : ConstantValue) :
    (specializationInstruction type id value).opcode ∈ Opcode.specializable ∧
      (specializationInstruction type id value).result? = some id := by
  cases value with
  | bool b =>
    cases b with
    | true => exact ⟨.head _, rfl⟩
    | false => exact ⟨.tail _ (.head _), rfl⟩
  | _ => exact ⟨.tail _ (.tail _ (.head _)), rfl⟩

end Shader.Assembly

namespace Shader.Emit

open List Assembly
open IR (Expression)

variable {parts : List Assembly.Id} {h init : Handle .expression} {a a' : Assembly.Module}
    {p p' p₁ p₂ : Progress} {depth depth' : Nat} {t : Assembly.Id}

/-! ### Composites in the declarations -/

/-- Some constant expression is a vector whose components all are one that comes down to an
override, and the parts are as many. -/
def SplatsOverride (m : IR.Module) (parts : List Id) (u : Id) : Prop :=
  ∃ (h value : Handle .expression) (size : IR.VectorSize), m.constants.get? h =
    some (.splat size value) ∧ m.Overridden value ∧ parts = replicate size.toNat u

/-- The parts are constants that come before, or one constant that can be specialized in place of
all components of a vector. -/
def MadeAfter (m : IR.Module) (before : List Instruction) (parts : List Id) : Prop :=
  (∀ u ∈ parts, DefinedBy Opcode.fixedConstants before u) ∨
    ∃ u, SplatsOverride m parts u ∧ DefinedBy Opcode.specializable before u

/-- What composites may be made of in a module under construction. -/
def compositeLaw (m : IR.Module) : Law where
  Made a parts := (∀ u ∈ parts, a.isConstant u) ∨ ∃ u, SplatsOverride m parts u ∧
    a.isSpecialization u

/-- Constants are declared, and constant composites come after what they are made of. -/
structure Composed (m : IR.Module) (a : Assembly.Module) : Prop where
  constants : ∀ e ∈ a.constants, DefinedBy Opcode.fixedConstants a.declarations e.2
  specializations : ∀ id ∈ a.specializations, DefinedBy Opcode.specializable a.declarations id
  composites : ∀ before i, before ++ [i] <+: a.declarations → i.opcode = .constantComposite →
    ∃ type id parts, i = .result .constantComposite type id (Operand.ids parts) ∧
    MadeAfter m before parts

namespace Composed

variable {m : IR.Module}

lemma declare (h : Composed m a) (hdeclarations : a'.declarations = a.declarations ++ [i])
    (hconstants : ∀ e ∈ a'.constants, e ∈ a.constants ∨ i.opcode ∈ Opcode.fixedConstants ∧
      i.result? = some e.2)
    (hspecializations : ∀ id ∈ a'.specializations,
      id ∈ a.specializations ∨ i.opcode ∈ Opcode.specializable ∧ i.result? = some id)
    (hcomposite : i.opcode = .constantComposite → ∃ type id parts,
      i = .result .constantComposite type id (Operand.ids parts) ∧ MadeAfter m
      a.declarations parts) :
    Composed m a' where
  constants e he := by
    rw [hdeclarations]
    rcases hconstants e he with hold | ⟨hop, hresult⟩
    · exact (h.constants e hold).mono (subset_append_left _ _)
    · exact ⟨i, mem_append_right _ mem_cons_self, hop, hresult⟩
  specializations id hid := by
    rw [hdeclarations]
    rcases hspecializations id hid with hold | ⟨hop, hresult⟩
    · exact (h.specializations id hold).mono (subset_append_left _ _)
    · exact ⟨i, mem_append_right _ mem_cons_self, hop, hresult⟩
  composites before j hprefix hj := by
    rw [hdeclarations] at hprefix
    rcases prefix_concat_iff.1 hprefix with heq | hprefix
    · obtain ⟨rfl, hlast⟩ := append_inj' heq rfl
      obtain rfl := (cons.inj hlast).1
      exact hcomposite hj
    · exact h.composites before j hprefix hj

lemma madeAfter (h : Composed m a) (hmade : (compositeLaw m).Made a parts) :
    MadeAfter m a.declarations parts := by
  rcases hmade with hparts | ⟨u, hsplats, hu⟩
  · refine .inl fun u hu => ?_
    obtain ⟨key, hmem⟩ := isConstant_iff.1 (hparts u hu)
    exact h.constants _ hmem
  · exact .inr ⟨u, hsplats, h.specializations u (contains_iff_mem.1 hu)⟩

/-- Changes under the law keep composites behind what they are made of. -/
lemma change (hchange : a.Change (compositeLaw m) a') (h : Composed m a) : Composed m a' := by
  cases hchange with
  | push i _ _ hglobals =>
    have hsame := Assembly.Module.declarations_pushed (m := a) hglobals i
    exact ⟨by rw [hsame]; exact h.constants, by rw [hsame]; exact h.specializations,
      by rw [hsame]; exact h.composites⟩
  | type names _ hdeclares =>
    refine h.declare (Assembly.Module.declarations_grown _ _ _ _) (fun _ => .inl)
      (fun _ => .inl) fun heq => ?_
    have huntyped := hdeclares.untyped
    rw [show Declarator.opcode _ = _ from heq] at huntyped
    cases huntyped
  | global pointer storage init =>
    exact h.declare (Assembly.Module.declarations_grown _ _ _ _) (fun _ => .inl)
      (fun _ => .inl) nofun
  | @constant key _ hnormal hmade =>
    refine h.declare (Assembly.Module.declarations_grown _ _ _ _) (fun e he => ?_)
      (fun _ => .inl) fun heq => ?_
    · rcases mem_cons.1 he with rfl | he
      · exact .inr (constantInstruction_fixed _ _ hnormal.ne_false)
      · exact .inl he
    · obtain ⟨type, value⟩ := key
      cases value with
      | composite parts => exact ⟨_, _, parts, rfl, h.madeAfter (hmade parts rfl)⟩
      | bool b => cases b <;> cases heq
      | _ => cases heq
  | specialization type value =>
    refine h.declare (Assembly.Module.declarations_grown _ _ _ _) (fun _ => .inl)
      (fun id hid => ?_) fun heq => ?_
    · rcases mem_cons.1 hid with rfl | hid
      · exact .inr (specializationInstruction_specializable _ _ _)
      · exact .inl hid
    · cases value with
      | bool b => cases b <;> cases heq
      | _ => cases heq
  | _ => exact ⟨h.constants, h.specializations, h.composites⟩

end Composed

lemma composed_opening (m : IR.Module) (options : Options) :
    Composed m (Progress.opening m options).assembly := by
  rw [assembly_opening]
  exact ⟨nofun, nofun, fun before i hprefix => by
    have hlength := hprefix.length_le
    rw [length_append] at hlength
    exact absurd hlength (Nat.not_succ_le_zero _)⟩

/-! ### What constants stand for -/

/-- A constant that is not refused stands for one that can be specialized if and only if it comes
down to an override. -/
structure StandsFor (m : IR.Module) (h : Handle .expression) (id : Id) (a : Assembly.Module) :
    Prop where
  accepted : ¬m.Refused h
  specialization : m.Overridden h → a.isSpecialization id
  constant : ¬m.Overridden h → a.isConstant id

lemma StandsFor.reaches {id : Id} (hreaches : a.Reaches L a') (hid : StandsFor m h id a) :
    StandsFor m h id a' :=
  ⟨hid.accepted, fun ho => hreaches.isSpecialization (hid.specialization ho),
    fun ho => hreaches.isConstant (hid.constant ho)⟩

/-- The ids that are kept for constants and overrides stand for them. -/
structure Settled (m : IR.Module) (p : Progress) : Prop where
  constants : ∀ h id, p.constants.get? h = some id → StandsFor m h id p.assembly
  overrides : ∀ id ∈ p.overrides, p.assembly.isSpecialization id

/-- Emission, with regard to what composites are made of. -/
def composites (m : IR.Module) (options : Options) : Regime m options where
  toLaw := compositeLaw m
  Inv := Settled m
  made h := .inl h
  keep hreaches hconstants hoverrides h :=
    ⟨fun k id hk => (h.constants k id (hconstants ▸ hk)).reaches hreaches,
      fun id hid => hreaches.isSpecialization (h.overrides id (hoverrides ▸ hid))⟩
  override hid h := ⟨h.constants, fun id' hid' => by
    rcases Array.mem_push.1 hid' with hold | rfl
    · exact h.overrides id' hold
    · exact hid⟩

namespace composites

variable {m : IR.Module} {options : Options} {env : Env}

lemma exists_of_mem_left (h : Forall₂ q xs ys) (hx : x ∈ xs) : ∃ y ∈ ys, q x y := by
  induction h with
  | nil => cases hx
  | cons hq _ ih =>
    rcases mem_cons.1 hx with rfl | hx
    · exact ⟨_, mem_cons_self, hq⟩
    · obtain ⟨y, hy, hxy⟩ := ih hx
      exact ⟨y, mem_cons_of_mem _ hy, hxy⟩

lemma isConstant_constant (type : Id) (value : ConstantValue) (a : Assembly.Module) :
    (constant type value a).2.isConstant (constant type value a).1 :=
  isConstant_iff.2 ⟨_, mem_of_lookup (lookup_constant type value a)⟩

lemma later_composite (hlater : (composites m options).Later p p') (type : Id)
    (hmade : (composites m options).Good p → (compositeLaw m).Made p'.assembly parts) :
    (composites m options).Later p
      (p'.withAssembly (constant type (.composite parts) p'.assembly).2) where
  run hp := by
    have hreaches : p'.assembly.Reaches (compositeLaw m) (constant type (.composite parts)
      p'.assembly).2 :=
      reaches_constant fun parts' heq => ConstantValue.composite.inj heq ▸ hmade hp
    exact (hlater.trans (Regime.later_declare hreaches)).run hp
  faults := hlater.faults
  globals := hlater.globals

lemma yields_constant (hact : (composites m options).Obeys act) (value : ConstantValue)
    (hvalue : ∀ parts, value ≠ .composite parts) (hover : ¬m.Overridden h) (hrefused : ¬m.Refused h)
    (p : Progress) :
    (composites m options).Yields (do constant (← act) value) p (StandsFor m h) := by
  refine .bind ((hact p).mono (fun _ _ => id) fun _ _ => id) fun type p₁ hlater => ?_
  have hdeclared := Regime.later_declare (R := composites m options) (p := p₁)
    (changes_constant type hvalue p₁.assembly)
  exact ⟨hlater.trans hdeclared, fun _ => ⟨hrefused, fun ho => absurd ho hover,
    fun _ => isConstant_constant type value p₁.assembly⟩⟩

/-- The id that a constant gets stands for it. -/
lemma yields_constantOf (htypes : (composites m options).FitsTypes env)
    (he : m.constants.get? h = some e)
    (hoperand : ∀ g p, (composites m options).Yields (operand g) p (StandsFor m g)) (p : Progress) :
    (composites m options).Yields (constantOf env operand h e) p (StandsFor m h) := by
  have htype (t : Handle .type) := Regime.obeys_typeId htypes t
  cases e with
  | literal literal =>
    exact yields_constant (.declare (changes_scalarType (Law.narrow_literal literal))) _
      (by cases literal <;> nofun) (m.not_overridden he nofun nofun)
      (m.not_refused he nofun nofun nofun) p
  | zeroValue type =>
    exact yields_constant (htype type) .null nofun (m.not_overridden he nofun nofun)
      (m.not_refused he nofun nofun nofun) p
  | constant value =>
    refine (hoperand value p).mono (fun id p' ⟨hlater, hid⟩ => ⟨hlater, fun hp => ?_⟩) fun _ _ => id
    have hvalue := hid hp
    exact ⟨fun hr => hvalue.accepted ((m.refused_constant_iff he).1 hr),
      fun ho => hvalue.specialization ((m.overridden_constant_iff he).1 ho),
      fun ho => hvalue.constant fun ho' => ho ((m.overridden_constant_iff he).2 ho')⟩
  | «override» o =>
    refine .bind (q := fun q p' => p = q ∧ p = p') ⟨rfl, rfl⟩ ?_
    rintro _ _ ⟨rfl, rfl⟩
    cases hget : p.overrides[o.index]? with
    | none => exact .refl p
    | some id =>
      have hmem : id ∈ p.overrides := Array.mem_of_getElem? hget
      exact ⟨.refl p, fun hp => ⟨m.not_refused he nofun nofun nofun,
        fun _ => hp.inv.overrides id hmem, fun ho => absurd (.override he) ho⟩⟩
  | compose type components =>
    refine .bind ((htype type p).mono (fun _ _ => id) fun _ _ => id) fun type_ p₁ hlater₁ => ?_
    have hparts := Regime.yields_mapM
      (fun hreaches => .reaches hreaches) fun c (_ : c ∈ components) => hoperand c
    refine .bind ((hparts p₁).mono (fun _ _ => id) fun _ _ => hlater₁.trans) ?_
    rintro parts p₂ ⟨hlater₂, hparts⟩
    have hlater := hlater₁.trans hlater₂
    refine .bind (q := fun q p' => p₂ = q ∧ p₂ = p') ⟨rfl, rfl⟩ ?_
    rintro _ _ ⟨rfl, rfl⟩
    by_cases hany : parts.any p₂.assembly.isSpecialization = true
    · rw [if_pos hany]
      exact hlater
    · rw [if_neg hany]
      -- every component is one that cannot be specialized
      have hfixed : (composites m options).Good p → (∀ c ∈ components, ¬m.Refused c ∧
          ¬m.Overridden c) ∧ ∀ u ∈ parts, p₂.assembly.isConstant u := by
        intro hp
        have hall := hparts (hlater₁.run hp).2
        have hplain : ∀ u ∈ parts, p₂.assembly.isSpecialization u = false := by
          simpa only [any_eq_true, not_exists, not_and, Bool.not_eq_true] using hany
        refine ⟨fun c hc => ?_, fun u hu => ?_⟩
        · obtain ⟨u, hu, hstands⟩ := exists_of_mem_left hall hc
          exact ⟨hstands.accepted, fun ho => absurd (hstands.specialization ho)
            (by rw [hplain u hu]; nofun)⟩
        · obtain ⟨c, hc, hstands⟩ := exists_of_mem_left hall.flip hu
          refine hstands.constant fun ho => absurd (hstands.specialization ho) ?_
          rw [hplain u hu]
          nofun
      refine ⟨later_composite hlater type_ fun hp => .inl (hfixed hp).2, fun hp => ?_⟩
      refine ⟨m.not_refused he nofun (fun c hc => ((hfixed hp).1 c hc).1) ?_,
        fun ho => absurd ho (m.not_overridden he nofun nofun), fun _ => isConstant_constant _ _ _⟩
      rintro _ _ ⟨⟩ c hc
      exact ((hfixed hp).1 c hc).2
  | splat size value =>
    show (composites m options).Yields ((liftM (env.module.constants.typeOf h) : EmitM _) >>= _) p _
    cases env.module.constants.typeOf h with
    | error error => exact .refl p
    | ok t =>
      refine .bind (q := fun t' p' => t = t' ∧ p = p') ⟨rfl, rfl⟩ ?_
      rintro _ _ ⟨rfl, rfl⟩
      refine .bind ((htype t p).mono (fun _ _ => id) fun _ _ => id) fun type_ p₁ hlater₁ => ?_
      refine .bind ((hoperand value p₁).mono (fun _ _ => id) fun _ _ => hlater₁.trans) ?_
      rintro part p₂ ⟨hlater₂, hpart⟩
      have hstands (hp : (composites m options).Good p) := hpart (hlater₁.run hp).2
      refine ⟨later_composite (hlater₁.trans hlater₂) type_ fun hp => ?_, fun hp => ?_⟩
      · by_cases ho : m.Overridden value
        · exact .inr ⟨part, ⟨h, value, size, he, ho, rfl⟩, (hstands hp).specialization ho⟩
        · refine .inl fun u hu => ?_
          rw [eq_of_mem_replicate hu]
          exact (hstands hp).constant ho
      · refine ⟨m.not_refused he nofun (fun g hg => ?_) nofun,
          fun ho => absurd ho (m.not_overridden he nofun nofun), fun _ => isConstant_constant _ _ _⟩
        rw [mem_singleton.1 hg]
        exact (hstands hp).accepted
  | _ => exact .refl p

lemma yields_constantIdWithin (htypes : (composites m options).FitsTypes env) :
    ∀ depth h p, (composites m options).Yields (constantIdWithin env depth h) p
      (StandsFor m h) := by
  intro depth
  induction depth with
  | zero => exact fun _ p => .refl p
  | succ depth ih =>
    intro h p
    refine .bind (q := fun q p' => p = q ∧ p = p') ⟨rfl, rfl⟩ ?_
    rintro _ _ ⟨rfl, rfl⟩
    cases hslot : p.constants.get? h with
    | some id => exact ⟨.refl p, fun hp => hp.inv.constants h id hslot⟩
    | none =>
      cases hfetch : env.module.constants.fetch h with
      | error error => exact .refl p
      | ok e =>
        have he : m.constants.get? h = some e := by
          rw [← htypes.module]
          exact Regime.get?_of_fetch hfetch
        refine .bind (q := fun t p' => e = t ∧ p = p') ⟨rfl, rfl⟩ ?_
        rintro _ _ ⟨rfl, rfl⟩
        refine .bind (yields_constantOf htypes he ih p) ?_
        rintro id p₁ ⟨hlater, hid⟩
        refine ⟨⟨fun hp => ?_, hlater.faults, hlater.globals⟩, hid⟩
        obtain ⟨hreaches, hp₁⟩ := hlater.run hp
        refine ⟨hreaches, ⟨fun k id' hk => ?_, hp₁.inv.overrides⟩, hp₁.keyed⟩
        rcases Slots.get?_set_cases hk with ⟨rfl, rfl⟩ | hold
        · exact hid hp
        · exact hp₁.inv.constants k id' hold

lemma admits (depth : Nat) : (composites m options).Admits ⟨m, options, depth⟩ := by
  have htypes : (composites m options).FitsTypes ⟨m, options, depth⟩ :=
    ⟨⟨fun _ _ _ _ => .inl trivial⟩, rfl, rfl⟩
  exact ⟨htypes, fun h p => (yields_constantIdWithin htypes _ h p).mono
    (fun _ _ h => h.1) fun _ _ => id⟩

lemma fitsProgram : (composites m options).FitsProgram := ⟨trivial, admits⟩

lemma settled_opening : Settled m (.opening m options) where
  constants h id hid := by
    rw [show (Progress.opening m options).constants.get? h = none from Slots.get?_empty _ h] at hid
    cases hid
  overrides := nofun

lemma composed_of_assemble (h : assemble m options = .ok a) : Composed m a := by
  have hprogram : (composites m options).FitsProgram := fitsProgram
  obtain ⟨p, _, hattained, rfl⟩ := Regime.run_assemble hprogram trivial settled_opening h
  exact hattained.reaches.keeps (fun hchange hm => hm.change hchange) (composed_opening m options)

section

variable (hp : (composites m options).Good p)
include hp

lemma constantIdWithin_ne_ok {id : Id} (hrefused : m.Refused h) :
    constantIdWithin ⟨m, options, depth⟩ depth' h p ≠ .ok id p' := fun hrun =>
  ((yields_constantIdWithin (admits depth).types depth' h p).of_ok hrun).2 hp |>.accepted hrefused

/-- A composite is refused because of a component that can be specialized, if nothing is wrong with
its type and the other components. -/
lemma constantIdWithin_compose
    (hh : m.constants.get? h = some (.compose type components))
    (hover : ∃ c ∈ components, m.Overridden c)
    (htype : typeId ⟨m, options, depth⟩ type p = .ok t p₁)
    (hparts : components.mapM (constantIdWithin ⟨m, options, depth⟩ depth') p₁ = .ok parts p₂) :
    constantIdWithin ⟨m, options, depth⟩ (depth' + 1) h p =
      .error (.unsupported .compositeOfOverrides) p₂ := by
  obtain ⟨c, hc, hcover⟩ := hover
  have henv : (composites m options).Admits ⟨m, options, depth⟩ := admits depth
  have htypes := henv.types
  have hp₁ : (composites m options).Good p₁ :=
    (((Regime.obeys_typeId htypes type p).of_ok htype).run hp).2
  have hstands := ((Regime.yields_mapM (fun hreaches => .reaches hreaches)
    (fun c _ => yields_constantIdWithin htypes depth' c) p₁).of_ok hparts).2 hp₁
  obtain ⟨u, hu, hcu⟩ := exists_of_mem_left hstands hc
  have hany : parts.any p₂.assembly.isSpecialization = true :=
    any_eq_true.2 ⟨u, hu, hcu.specialization hcover⟩
  have hslot : p.constants.get? h = none := by
    cases hget : p.constants.get? h with
    | none => rfl
    | some id => exact absurd (.compose hh hc hcover) (hp.inv.constants h id hget).accepted
  have hfetch : m.constants.fetch h = .ok (.compose type components) := by
    unfold IR.ExpressionArena.fetch
    rw [hh]
  have hof : constantOf ⟨m, options, depth⟩ (constantIdWithin ⟨m, options, depth⟩ depth') h
      (.compose type components) p = .error (.unsupported .compositeOfOverrides) p₂ := by
    refine (bind_ok htype).trans ((bind_ok hparts).trans ?_)
    show (if parts.any p₂.assembly.isSpecialization = true then _ else _ : EmitM Id) p₂ = _
    rw [if_pos hany]
    rfl
  refine (bind_ok rfl).trans ?_
  dsimp only
  rw [hslot, hfetch]
  show ((constantOf ⟨m, options, depth⟩ (constantIdWithin ⟨m, options, depth⟩ depth') h
    (.compose type components)) >>= _) p = _
  exact bind_error hof

lemma declareGlobal_ne_ok (hspace : v.space = .private)
    (hinit : v.init = some init) (hrefused : m.Refused init) :
    declareGlobal ⟨m, options, depth⟩ v p ≠ .ok () p' := by
  intro hrun
  have henv : (composites m options).Admits ⟨m, options, depth⟩ := admits depth
  obtain ⟨contents, p₁, htype, hrun⟩ := bind_eq_ok.1 hrun
  obtain ⟨contentsPointer, p₂, hpointer, hrun⟩ := bind_eq_ok.1 hrun
  obtain ⟨⟨pointee, wrapped⟩, p₃, hvariable, hrun⟩ := bind_eq_ok.1 hrun
  obtain ⟨pointer, p₄, hpointer', hrun⟩ := bind_eq_ok.1 hrun
  obtain ⟨_, p₅, hglobal, -⟩ := bind_eq_ok.1 hrun
  have hp₁ := (Regime.obeys_typeId henv.types _).good hp htype
  have hp₂ := (Regime.Obeys.declare (changes_pointerType _ _)).good hp₁ hpointer
  rw [hspace] at hvariable
  obtain ⟨-, rfl⟩ := pure_eq_ok.1 hvariable
  have hp₄ := (Regime.Obeys.declare (changes_pointerType _ _)).good hp₂ hpointer'
  unfold globalInit at hglobal
  rw [hspace, hinit] at hglobal
  obtain ⟨id, p₆, hconstant, -⟩ := bind_eq_ok.1 hglobal
  exact constantIdWithin_ne_ok hp₄ hrefused hconstant

end

lemma assemble_of_refused (hv : v ∈ m.globals.toList) (hspace : v.space = .private)
    (hinit : v.init = some init) (hrefused : m.Refused init) :
    ∃ fault, assemble m options = .error (.declaration fault) := by
  cases hdeclare : declareModule (.of m options) (.initial (.of m options)) with
  | error fault p =>
    refine ⟨fault, ?_⟩
    unfold assemble assembleIn
    rw [hdeclare]
  | ok _ p =>
    have hprogram : (composites m options).FitsProgram := fitsProgram
    have hp₁ : (composites m options).Good (.opening m options) :=
      ⟨settled_opening, Regime.keyed_opening⟩
    obtain ⟨_, p₁, hpreamble, hrun⟩ := bind_eq_ok.1 hdeclare
    obtain ⟨_, p₂, hoverrides, hrun⟩ := bind_eq_ok.1 hrun
    obtain ⟨_, p₃, hglobals, -⟩ := bind_eq_ok.1 hrun
    cases hpreamble
    have hp₂ := (Regime.sustains_declareOverridesFrom (g := []) _ _ _ 0).obeys.good hp₁ hoverrides
    obtain ⟨q, q', hq, hv⟩ := Regime.Obeys.good_of_forM
      (fun v _ => (Regime.sustains_declareGlobal (g := []) (hprogram.admits _) trivial
      trivial v).obeys) hp₂ hglobals v hv
    exact absurd hv (declareGlobal_ne_ok hq hspace hinit hrefused)

end composites

lemma composite_of_specialization (htidy : σ.progress.assembly.tables.Tidy) (type : Id)
    (hparts : ∃ u ∈ parts, σ.progress.assembly.isSpecialization u) :
    composite type parts σ = emitResult .compositeConstruct type (Operand.ids parts) σ := by
  obtain ⟨u, hu, hspecialization⟩ := hparts
  have hstanding := (htidy.holds_specialization (contains_iff_mem.1 hspecialization)).standing
  have hconstant : σ.progress.assembly.isConstant u = false := congrArg Standing.constant hstanding
  show (if parts.all σ.progress.assembly.isConstant = true then _ else _ : BodyM Id) σ = _
  rw [if_neg]
  intro hall
  rw [all_eq_true.1 hall u hu] at hconstant
  cases hconstant

lemma not_specializable (ha : a.Disciplined) (his : is ⊆ a.declarations)
    (hu : DefinedBy Opcode.fixedConstants is u) :
    ¬DefinedBy Opcode.specializable a.declarations u := by
  obtain ⟨i, hi, hop, hresult⟩ := hu
  rintro ⟨j, hj, hop', hresult'⟩
  obtain rfl := ha.declaration_unique (his hi) hj hresult hresult'
  exact Opcode.not_specializable_of_fixed _ hop hop'

/-- Constant composites come after the constants they are made of, none of which can be specialized
unless a vector is made of equal components.  Composites that list a component that comes down to an
override are refused outside functions, whatever names lead to them, and constructed in
functions. -/
theorem constant_composites_of_constants (m : IR.Module) (options : Options) :
    (∀ a, assemble m options = .ok a → ∀ before i, before ++ [i] <+: a.declarations →
      i.opcode = .constantComposite →
      ∃ type id parts, i = .result .constantComposite type id (Operand.ids parts) ∧
        ((∀ u ∈ parts, DefinedBy Opcode.fixedConstants before u ∧
            ¬DefinedBy Opcode.specializable a.declarations u) ∨
          ∃ u, SplatsOverride m parts u ∧ DefinedBy Opcode.specializable before u)) ∧
    (∀ v ∈ m.globals.toList, ∀ init, v.space = .private → v.init = some init → m.Refused init →
      ∃ fault, assemble m options = .error (.declaration fault)) ∧
    (∀ depth depth' p, (composites m options).Good p →
      (∀ h id p', m.Refused h → constantIdWithin ⟨m, options, depth⟩ depth' h p ≠ .ok id p') ∧
      ∀ h type components t parts p₁ p₂, m.constants.get? h = some (.compose type components) →
        (∃ c ∈ components, m.Overridden c) → typeId ⟨m, options, depth⟩ type p = .ok t p₁ →
        components.mapM (constantIdWithin ⟨m, options, depth⟩ depth') p₁ = .ok parts p₂ →
        constantIdWithin ⟨m, options, depth⟩ (depth' + 1) h p =
          .error (.unsupported .compositeOfOverrides) p₂) ∧
    ∀ (σ : Body) type parts, σ.progress.assembly.tables.Tidy →
      (∃ u ∈ parts, σ.progress.assembly.isSpecialization u) →
      composite type parts σ = emitResult .compositeConstruct type (Operand.ids parts) σ := by
  refine ⟨fun a ha before i hprefix hop => ?_, ?_, ?_, ?_⟩
  · obtain ⟨type, id, parts, hi, hmade⟩ :=
      (composites.composed_of_assemble ha).composites before i hprefix hop
    refine ⟨type, id, parts, hi, hmade.imp_left fun hparts u hu => ⟨hparts u hu, ?_⟩⟩
    have hbefore : before ⊆ a.declarations :=
      fun j hj => hprefix.subset (List.mem_append_left _ hj)
    exact not_specializable (disciplined_of_assemble ha) hbefore (hparts u hu)
  · exact fun v hv init hspace hinit hrefused => composites.assemble_of_refused hv
      hspace hinit hrefused
  · exact fun depth depth' p hp =>
      ⟨fun h id p' hrefused => composites.constantIdWithin_ne_ok hp hrefused,
      fun h type components t parts p₁ p₂ hh hover htype hparts =>
        composites.constantIdWithin_compose hp hh hover htype hparts⟩
  · exact fun σ type parts htidy hparts => composite_of_specialization htidy type hparts

/-- A private vector of two constants, one of which is named. -/
def pairOfConstants : IR.Module where
  types := .ofList [⟨none, .scalar ⟨.float, 4⟩⟩, ⟨none, .vector .two ⟨.float, 4⟩⟩]
  globals := ⟨#[⟨none, .private, none, ⟨1⟩, some ⟨3⟩⟩]⟩
  constants :=
    ⟨⟨#[.literal (.f32 0x3f800000), .constant ⟨0⟩, .zeroValue ⟨0⟩, .compose ⟨1⟩ [⟨1⟩, ⟨2⟩]]⟩,
    #[⟨0⟩, ⟨0⟩, ⟨0⟩, ⟨1⟩]⟩

theorem constant_composites_of_constants_pair : ∃ a before i, assemble pairOfConstants {} = .ok a ∧
    before ++ [i] <+: a.declarations ∧ i.opcode = .constantComposite ∧
    ∃ type id parts, i = .result .constantComposite type id (Operand.ids parts) ∧
      ((∀ u ∈ parts, DefinedBy Opcode.fixedConstants before u ∧
          ¬DefinedBy Opcode.specializable a.declarations u) ∨
        ∃ u, SplatsOverride pairOfConstants parts u ∧ DefinedBy Opcode.specializable before u) := by
  have hrun : (assemble pairOfConstants {}).toOption.any fun a =>
      a.declarations[5]?.any (·.opcode == .constantComposite) := by decide +kernel
  cases hassemble : assemble pairOfConstants {} with
  | error failure =>
    rw [hassemble] at hrun
    cases hrun
  | ok a =>
    rw [hassemble] at hrun
    obtain ⟨i, hi, hop⟩ := (Option.any_eq_true _ a.declarations[5]?).1 hrun
    have hbefore : a.declarations.take 5 ++ [i] <+: a.declarations := by
      have hsplit := List.take_add_one (l := a.declarations) (i := 5)
      rw [hi] at hsplit
      exact hsplit ▸ List.take_prefix _ _
    exact ⟨a, _, i, rfl, hbefore, beq_iff_eq.1 hop,
      (constant_composites_of_constants pairOfConstants {}).1 a hassemble _ i hbefore
      (beq_iff_eq.1 hop)⟩

/-- A private vector of an override in all components. -/
def splatOverride : IR.Module where
  types := .ofList [⟨none, .scalar ⟨.float, 4⟩⟩, ⟨none, .vector .two ⟨.float, 4⟩⟩]
  overrides := ⟨#[⟨none, none, ⟨0⟩, none⟩]⟩
  globals := ⟨#[⟨none, .private, none, ⟨1⟩, some ⟨1⟩⟩]⟩
  constants := ⟨⟨#[.override ⟨0⟩, .splat .two ⟨0⟩]⟩, #[⟨0⟩, ⟨1⟩]⟩

/-- The vector is not refused: it becomes a constant composite of a constant that can be
specialized. -/
theorem splat_of_override_not_refused : ∃ a, assemble splatOverride {} = .ok a ∧
    ∃ type id u, .result .constantComposite type id (Operand.ids [u, u]) ∈ a.declarations ∧
      DefinedBy Opcode.specializable a.declarations u ∧
      ¬DefinedBy Opcode.fixedConstants a.declarations u := by
  have hrun : (assemble splatOverride {}).toOption.map (·.declarations) = some
      [⟨.typeFloat, [.id ⟨1⟩, .word 32]⟩, .result .specConstant ⟨1⟩ ⟨2⟩ [.word 0],
        ⟨.typeVector, [.id ⟨3⟩, .id ⟨1⟩, .word 2]⟩, ⟨.typePointer, [.id ⟨4⟩, .word 6, .id ⟨3⟩]⟩,
        .result .constantComposite ⟨3⟩ ⟨5⟩ (Operand.ids [⟨2⟩, ⟨2⟩]),
        .variable ⟨4⟩ ⟨6⟩ .private (some ⟨5⟩)] := by
    decide +kernel
  cases hassemble : assemble splatOverride {} with
  | error failure =>
    rw [hassemble] at hrun
    cases hrun
  | ok a =>
    rw [hassemble] at hrun
    have hdeclarations : a.declarations = _ := Option.some.inj hrun
    have hspecialization : DefinedBy Opcode.specializable a.declarations ⟨2⟩ := by
      rw [hdeclarations]
      exact ⟨.result .specConstant ⟨1⟩ ⟨2⟩ [.word 0], .tail _ (.head _), by decide, rfl⟩
    refine ⟨a, rfl, ⟨3⟩, ⟨5⟩, ⟨2⟩, ?_, hspecialization, fun hfixed =>
      not_specializable (disciplined_of_assemble hassemble) (List.Subset.refl _) hfixed
        hspecialization⟩
    rw [hdeclarations]
    decide

end Shader.Emit
