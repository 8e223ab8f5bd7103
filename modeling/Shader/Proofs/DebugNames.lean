import Shader.Proofs.Contrast

/-!
# Emission with and without debug names

Two emissions of one program, of which one may write debug names and the other may not, come to the
same code.  Main result: names do not influence the code (`names_do_not_influence_code`).
-/

namespace Shader.Emit

/-- The modules have the same code; the first has no debug names, and the second has debug names
only where these belong. -/
structure SameCode (a a' : Assembly.Module) : Prop where
  bound : a.bound = a'.bound
  sections : ∀ s, s ≠ .debug → a.sections.get s = a'.sections.get s
  functions : a.functions = a'.functions
  silent : a.sections.get .debug = #[]
  names : ∀ i ∈ a'.sections.get .debug, i.opcode = .name ∨ i.opcode = .memberName

/-- Both attempts fail with the same failure, or both give a module, with the same code. -/
inductive SameOutcome : Except Failure Assembly.Module → Except Failure Assembly.Module → Prop where
  | failed (failure : Failure) : SameOutcome (.error failure) (.error failure)
  | built {a a' : Assembly.Module} : SameCode a a' → SameOutcome (.ok a) (.ok a')

/-- Debug names do not influence the code: with and without them a program fails alike, or becomes
the same module but for the debug section. -/
theorem names_do_not_influence_code (m : IR.Module) (version : Assembly.Version)
    (generator : UInt32) :
    SameOutcome (assemble m ⟨version, generator, false⟩) (assemble m ⟨version, generator, true⟩) ∧
      ∀ failure, words m ⟨version, generator, false⟩ = .error failure ↔
        words m ⟨version, generator, true⟩ = .error failure := by
  have houtcome : Outcomes { flag := false, flag' := true } (assemble m ⟨version, generator, false⟩)
      (assemble m ⟨version, generator, true⟩) :=
    outcomes_assemble m ⟨version, generator, false⟩ ⟨version, generator, true⟩ rfl rfl
  unfold words
  generalize assemble m ⟨version, generator, false⟩ = r at houtcome ⊢
  generalize assemble m ⟨version, generator, true⟩ = r' at houtcome ⊢
  cases houtcome with
  | failed => exact ⟨.failed _, fun _ => Iff.rfl⟩
  | @built p p' hp =>
    refine ⟨.built ⟨?_, fun s hs => ?_, ?_, hp.neat.silent hp.flag, hp.neat'.names⟩, fun _ => ?_⟩
    · exact (hp.look (fun q => q.assembly.bound) fun _ _ => rfl).symm
    · by_cases hentries : s = .entryPoints
      · subst hentries
        exact (hp.entries.trans (map_listing_nil _)).symm
      · refine (hp.look (fun q => q.assembly.sections.get s) fun _ q => ?_).symm
        cases s <;> first | rfl | exact absurd rfl hs | exact absurd rfl hentries
    · exact (hp.look (fun q => q.assembly.functions) fun _ _ => rfl).symm
    · exact ⟨nofun, nofun⟩

end Shader.Emit
