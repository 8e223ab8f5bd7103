import Shader.Proofs.Inventory
import Shader.Proofs.Length
import Shader.Target.Backend

/-!
# Headers

The header of a file tells the version that was asked for and a bound above every id of the module,
below which every id was issued.  The bytes of a file stand for its words.
-/

namespace Shader.Assembly

open List

lemma Version.ofWord_word (v : Version) : ofWord v.word = v := by
  have hword : v.word = wordOfBytes 0 v.minor v.major
    0 := by simp [word, wordOfBytes, UInt32.or_comm]
  have hbytes := bytesOfWord_wordOfBytes 0 v.minor v.major 0
  simp only [bytesOfWord, cons.injEq] at hbytes
  rw [ofWord, hword, hbytes.2.1, hbytes.2.2.1]

lemma Header.decode?_encode_append (h : Header) (rest : List UInt32) :
    decode? (h.encode ++ rest) = some h := by
  simp [encode, decode?, Version.ofWord_word]

/-- Bytes taken four at a time as words, the lowest byte first. -/
def regroup : List UInt8 → List UInt32
  | a :: b :: c :: d :: rest => wordOfBytes a b c d :: regroup rest
  | _ => []

lemma regroup_flatMap_bytesOfWord (words : List UInt32) :
    regroup (words.flatMap bytesOfWord) = words := by
  induction words with
  | nil => rfl
  | cons w rest ih => exact congrArg₂ _ (wordOfBytes_bytes w) ih

/-- On the way from one module to the other the id with the number `n` is issued. -/
def Module.Issues (L : Law) (m m' : Module) (n : Nat) : Prop :=
  ∃ m₁ m₂, m.Reaches L m₁ ∧ m₁.Change L m₂ ∧ m₁.bound = n ∧ m₂.bound = n + 1 ∧ m₂.Reaches L m'

variable {L : Law}

lemma Module.Change.bound {m m' : Module} (h : m.Change L m') :
    m'.bound = m.bound ∨ m'.bound = m.bound + 1 := by
  cases h with
  | push | block | draft => exact .inl rfl
  | _ => exact .inr rfl

/-- Every id between the bounds is issued, since no change passes over one. -/
lemma Module.Reaches.issues {m m' : Module} (h : m.Reaches L m') (hn : m.bound ≤ n)
    (hlt : n < m'.bound) :
    m.Issues L m' n := by
  induction h with
  | refl => omega
  | @tail m₁ m₂ hreaches hchange ih =>
    by_cases hbefore : n < m₁.bound
    · obtain ⟨a, b, ha, hab, hn, hn', hb⟩ := ih hbefore
      exact ⟨a, b, ha, hab, hn, hn', hb.tail hchange⟩
    · have := hchange.bound
      exact ⟨m₁, m₂, hreaches, hchange, by omega, by omega, .refl⟩

end Shader.Assembly

namespace Shader.Target

open Assembly (Header regroup)

lemma compile_eq_ok (h : spirv.compile m options = .ok files) :
    ∃ ws, Emit.words m options.emission = .ok ws ∧ files = [⟨"module.spv", ws⟩] := by
  change (options.validate >>= fun _ => _) = _ at h
  cases hvalid : options.validate with
  | error => rw [hvalid] at h; cases h
  | ok =>
    rw [hvalid] at h
    change (if m.entryPoints.isEmpty then _ else _) = _ at h
    split at h
    · cases h
    · cases hwords : Emit.words m options.emission with
      | error => rw [hwords] at h; cases h
      | ok ws => rw [hwords] at h; cases h; exact ⟨ws, rfl, rfl⟩

end Shader.Target
