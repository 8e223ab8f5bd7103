import Shader.Proofs.Contrast

/-!
# Emission comes to an end

References are followed to a depth, and if that is exhausted, the fault says that they lead in a
circle.  Where they do not, no depth beyond the number of things there are to refer to is ever
exhausted, although handles are not ordered and expressions may be computed more than once.  Main
result: how deep references are followed makes no difference then, and no circle is reported
(`acyclic_emission_independent_of_depth`).
-/

namespace Shader.Emit

/-- The outcome for a program without circles is the same at all depths beyond the number of its
types and of its constants; in functions, the number of their expressions is added to the depth. -/
theorem acyclic_emission_independent_of_depth (m : IR.Module) (hm : m.Acyclic) (options : Options) :
    (∀ depth, m.types.size < depth → m.constants.size < depth →
      assembleIn ⟨m, options, depth⟩ = assemble m options) ∧
    ∀ failure, words m options = .error failure → ¬failure.IsCircular := by
  have houtcome : ∀ depth, m.types.size < depth → m.constants.size < depth →
      Outcomes ⟨options.debugNames, options.debugNames, [], false, true⟩ (assemble m options)
        (assembleIn ⟨m, options, depth⟩) := by
    intro depth htypes hconstants
    have hdeep : (Env.of m options).Deep := ⟨hm.types, hm.constants, by grind [Env.of, Env.depthOf],
      by grind [Env.of, Env.depthOf]⟩
    exact outcomes_assembleIn rfl ⟨.refl m, rfl, nofun,
      fun _ => ⟨hdeep, hm.types, hm.constants, htypes, hconstants⟩⟩ rfl rfl rfl
      (.inl ⟨rfl, rfl⟩) fun _ => hm
  constructor
  · intro depth htypes hconstants
    have h := houtcome depth htypes hconstants
    generalize assemble m options = r at h ⊢
    generalize assembleIn ⟨m, options, depth⟩ = r' at h ⊢
    cases h with
    | failed => rfl
    | built hp => exact congrArg (fun p => Except.ok p.assembly) (hp.eq rfl rfl)
  · intro failure hwords
    have h := houtcome (m.types.size + m.constants.size + 1) (by omega) (by omega)
    unfold words at hwords
    generalize assemble m options = r at h hwords
    generalize assembleIn _ = r' at h
    cases h with
    | failed hfailure =>
      obtain rfl := Except.error.inj hwords
      exact hfailure rfl
    | built hp => cases hwords

/-- A private array whose elements have a type with a larger handle, and a function that returns a
short circuit of expressions with larger handles. -/
def forwardReference : IR.Module where
  types := .ofList [⟨none, .array ⟨2⟩ (.fixed 2) 4⟩, ⟨none, .scalar .bool⟩, ⟨none, .scalar .u32⟩]
  globals := ⟨#[⟨none, .private, none, ⟨0⟩, none⟩]⟩
  functions := ⟨#[{
    result := some ⟨⟨1⟩, none⟩
    expressions := ⟨⟨#[.binary .logicalAnd ⟨1⟩ ⟨2⟩, .literal (.bool true), .literal (.bool false)]⟩,
      #[⟨1⟩, ⟨1⟩, ⟨1⟩]⟩
    body := [.emit ⟨0, 1⟩, .return (some ⟨0⟩)] }]⟩

theorem acyclic_emission_independent_of_depth_forwardReference :
    forwardReference.Acyclic ∧ (assemble forwardReference {}).isOk ∧ ∀ depth, 3 < depth →
      assembleIn ⟨forwardReference, {}, depth⟩ = assemble forwardReference {} := by
  have hacyclic : forwardReference.Acyclic := by
    refine ⟨.of_rank (fun h => 2 - h.index) ?_, fun h hh => ?_, ?_, nofun⟩
    · rintro ⟨_ | _ | _ | n⟩ c ⟨type, htype, hc⟩
      · obtain rfl := Except.ok.inj htype
        obtain rfl := List.mem_singleton.1 hc
        decide
      · obtain rfl := Except.ok.inj htype
        cases hc
      · obtain rfl := Except.ok.inj htype
        cases hc
      · cases htype
    · obtain ⟨_, ⟨_, he, _⟩, _⟩ := Relation.TransGen.head'_iff.1 hh
      exact nomatch he
    · rintro f hf
      obtain rfl := List.mem_singleton.1 hf
      refine .of_rank (fun h => 1 - h.index) ?_
      rintro ⟨_ | _ | _ | n⟩ c ⟨e, he, hc⟩
      · obtain rfl := Except.ok.inj he
        rcases List.mem_pair.1 hc with rfl | rfl <;> decide
      · obtain rfl := Except.ok.inj he
        cases hc
      · obtain rfl := Except.ok.inj he
        cases hc
      · cases he
  exact ⟨hacyclic, by decide +kernel, fun depth hdepth =>
    (acyclic_emission_independent_of_depth _ hacyclic {}).1 depth hdepth (Nat.zero_lt_of_lt hdepth)⟩

end Shader.Emit
