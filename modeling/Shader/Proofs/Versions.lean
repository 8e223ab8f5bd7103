import Shader.Proofs.BufferBlocks
import Shader.Proofs.Contrast

/-!
# What the version decides

Of the version, emission asks only whether there is a storage class for storage buffers, and whether
entry points list the global variables.  Main result: versions that agree on both give the same
words but for the version itself, and where only the second differs, all that changes is that entry
points list the global variables (`version_decides_at_thresholds`).
-/

namespace Shader.Emit

open Assembly

lemma encode_version (a : Assembly.Module) (v w : Version) (generator : UInt32) :
    a.encode w generator = (a.encode v generator).set 1 w.word := rfl

/-- The version decides at its two thresholds only: versions on the same side of both give the same
failure or the same words but for the version, and from 1.4 on entry points list the globals in
addition to what they list in version 1.3, while all else stays the same. -/
theorem version_decides_at_thresholds (m : IR.Module) (generator : UInt32) (debugNames : Bool) :
    (∀ v w : Version, w.before ⟨1, 3⟩ = v.before ⟨1, 3⟩ → w.before ⟨1, 4⟩ = v.before ⟨1, 4⟩ →
      (∃ failure, words m ⟨v, generator, debugNames⟩ = .error failure ∧
        words m ⟨w, generator, debugNames⟩ = .error failure) ∨
      ∃ ws, words m ⟨v, generator, debugNames⟩ = .ok ws ∧
        words m ⟨w, generator, debugNames⟩ = .ok (ws.set 1 w.word)) ∧
    ∀ (w : Version) (a a' : Assembly.Module), w.before ⟨1, 4⟩ = false →
      assemble m ⟨⟨1, 3⟩, generator, debugNames⟩ = .ok a →
      assemble m ⟨w, generator, debugNames⟩ = .ok a' →
      ∃ ids, AreVariables (a.globalVariables.take m.globals.size) ids ∧
        ids.length = m.globals.size ∧
        a' = { a with sections := { a.sections with
          entryPoints := a.sections.entryPoints.map (listing ids) } } := by
  constructor
  · intro v w hbuffers hlists
    have houtcome := outcomes_assemble m ⟨v, generator, debugNames⟩ ⟨w, generator, debugNames⟩
      (congrArg not hbuffers) (congrArg not hlists)
    unfold words
    generalize assemble m ⟨v, generator, debugNames⟩ = r at houtcome ⊢
    generalize assemble m ⟨w, generator, debugNames⟩ = r' at houtcome ⊢
    cases houtcome with
    | failed => exact .inl ⟨_, rfl, rfl⟩
    | @built p p' hp =>
      obtain rfl : p' = p := hp.eq rfl rfl
      exact .inr ⟨_, rfl, congrArg Except.ok (encode_version _ v w generator)⟩
  · intro w a a' hw ha ha'
    obtain ⟨p, hrun, hlength, hvariables⟩ := variables_of_assemble ha
    have hrecent : w.before ⟨1, 3⟩ = false := by
      simp only [Version.before, Bool.or_eq_false_iff, decide_eq_false_iff_not,
        UInt8.not_lt] at hw ⊢
      grind
    have houtcome : Outcomes ⟨debugNames, debugNames, p.globalIds, false, false⟩
        (assemble m ⟨⟨1, 3⟩, generator, debugNames⟩) (assemble m ⟨w, generator, debugNames⟩) := by
      refine outcomes_assembleIn rfl ⟨.refl m, congrArg not hrecent, fun _ => rfl,
        nofun⟩ rfl rfl rfl (.inr ⟨rfl, congrArg not hw, fun q hq => ?_⟩) nofun
      obtain ⟨-, rfl⟩ := EStateM.Result.ok.inj (hrun.symm.trans hq)
      rfl
    rw [ha, ha'] at houtcome
    cases houtcome with
    | built hq => exact ⟨_, hvariables, hlength, hq.assembly_eq rfl⟩

end Shader.Emit
