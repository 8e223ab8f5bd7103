import Mathlib.Data.List.Induction
import Mathlib.Data.List.Nodup
import Mathlib.Tactic.Lemma
import Shader.Arena

/-!
# Arenas of distinct values

An arena that keeps each distinct value once has its values in a list and finds them in a table, and
an insertion decides by the table alone.  Whatever is inserted, the two agree: looking a value up
and reading a handle stay inverse to each other, and an insertion adds its value behind the others,
or nothing.
-/

namespace Shader

variable {kind : Kind} {α : Type}

/-- Reading a handle is reading a position. -/
lemma Arena.get?_eq (a : Arena kind α) (h : Handle kind) : a.get? h = a.toList[h.index]? :=
  Array.getElem?_toList.symm

namespace IndexedArena

variable [DecidableEq α] {a : IndexedArena kind α} {v w : α} {h : Handle kind}

/-! ### One insertion -/

/-- Where table and values agree, a value is found at a handle exactly when it is behind it. -/
lemma Agrees.find?_eq_some_iff (ha : a.Agrees) : a.find? v = some h ↔ a.get? h = some v := by
  have hread : ∀ {h}, a.find? v = some h → a.get? h = some v := by
    intro h hfind
    obtain ⟨i, hi, rfl⟩ := Option.map_eq_some_iff.1 hfind
    obtain ⟨before, after, htable, -⟩ := List.lookup_eq_some_iff.1 hi
    exact (ha.mem_lookup v i).1 (htable ▸ by simp)
  refine ⟨hread, fun hget => ?_⟩
  -- the value is in the table, where it stands once only
  have hmem : (v, h.index) ∈ a.lookup := (ha.mem_lookup v h.index).2 hget
  cases hfind : a.find? v with
  | none => exact absurd (List.mem_map.2 ⟨_, hmem, rfl⟩) (find?_eq_none_iff.1 hfind)
  | some found =>
    have hmem' : (v, found.index) ∈ a.lookup := (ha.mem_lookup v found.index).2 (hread hfind)
    have hsame := List.inj_on_of_nodup_map ha.keys hmem' hmem rfl
    exact congrArg some (congrArg Handle.mk (Prod.mk.inj hsame).2)

/-- The values are distinct, since the table has each of them once. -/
lemma Agrees.nodup (ha : a.Agrees) : a.toList.Nodup := by
  refine List.nodup_iff_getElem?_ne_getElem?.2 fun i j hij hj hsame => ?_
  have hi : a.get? ⟨i⟩ = some a.toList[i] :=
    (a.get?_eq ⟨i⟩).trans (List.getElem?_eq_getElem (Nat.lt_trans hij hj))
  have hj : a.get? ⟨j⟩ = some a.toList[i] :=
    (a.get?_eq ⟨j⟩).trans (hsame.symm.trans ((a.get?_eq ⟨i⟩).symm.trans hi))
  have hfound := (ha.find?_eq_some_iff.2 hi).symm.trans (ha.find?_eq_some_iff.2 hj)
  exact Nat.ne_of_lt hij (congrArg Handle.index (Option.some.inj hfound))

/-- An insertion answers with the handle of its value, and adds the value if it is new. -/
lemma Agrees.insert_spec (ha : a.Agrees) (v : α) : (a.insert v).2.get? (a.insert v).1 = some v ∧
    (a.insert v).2.toList = a.toList ++ [v].removeAll a.toList := by
  unfold IndexedArena.insert
  split
  · rename_i h hfind
    have hget := ha.find?_eq_some_iff.1 hfind
    have hmem : v ∈ a.toList := List.mem_of_getElem? ((a.get?_eq _).symm.trans hget)
    exact ⟨hget, by simp [List.removeAll, hmem]⟩
  · rename_i hnone
    have hnew : v ∉ a.toList := by
      intro hv
      obtain ⟨i, hi⟩ := List.mem_iff_getElem?.1 hv
      have hget : a.get? ⟨i⟩ = some v := (a.get?_eq ⟨i⟩).trans hi
      rw [ha.find?_eq_some_iff.2 hget] at hnone
      cases hnone
    have hadded : [v].removeAll a.toList = [v] := by simp [List.removeAll, hnew]
    exact ⟨Arena.get?_append_self a.toArena v, hadded.symm ▸ Arena.toList_append a.toArena v⟩

/-- What is behind a handle stays there. -/
lemma Agrees.get?_insert (ha : a.Agrees) (hget : a.get? h = some w) :
    (a.insert v).2.get? h = some w := by
  have hlt : h.index < a.toList.length := Arena.get?_eq_some_lt hget
  rw [Arena.get?_eq, (ha.insert_spec v).2, List.getElem?_append_left hlt, ← Arena.get?_eq, hget]

/-! ### All insertions -/

/-- Table and values agree after any insertions. -/
lemma Agrees.foldl_insert (ha : a.Agrees) (later : List α) :
    (later.foldl (fun a w => (a.insert w).2) a).Agrees := by
  induction later generalizing a with
  | nil => exact ha
  | cons w later ih => exact ih (ha.insert w)

lemma Agrees.get?_foldl_insert (ha : a.Agrees) (hget : a.get? h = some v) (later : List α) :
    (later.foldl (fun a w => (a.insert w).2) a).get? h = some v := by
  induction later generalizing a with
  | nil => exact hget
  | cons w later ih => exact ih (ha.insert w) (ha.get?_insert hget)

lemma agrees_ofList (values : List α) : (ofList values : IndexedArena kind α).Agrees :=
  agrees_empty.foldl_insert values

/-- The values are the distinct ones that were inserted, in the order of first insertion. -/
lemma toList_ofList (values : List α) :
    (ofList values : IndexedArena kind α).toList = values.eraseDups := by
  induction values using List.reverseRecOn with
  | nil => rfl
  | append_singleton values v ih =>
    have hlast : (ofList (values ++ [v]) : IndexedArena kind α) = ((ofList values).insert v).2 := by
      rw [ofList, List.foldl_append]
      rfl
    rw [hlast, ((agrees_ofList values).insert_spec v).2, ih, List.eraseDups_append]
    by_cases hmem : v ∈ values
    · simp [List.removeAll, hmem]
    · simp [List.removeAll, hmem, List.eraseDups_cons]

/-- An arena that carries the agreement has the same values and the same table. -/
lemma toIndexedArena_ofList (values : List α) :
    (UniqueArena.ofList values : UniqueArena kind α).toIndexedArena = ofList values := by
  have hstep : ∀ (values : List α) (a : UniqueArena kind α),
      (values.foldl (fun a v => (a.insert v).2) a).toIndexedArena =
        values.foldl (fun a v => (a.insert v).2) a.toIndexedArena := by
    intro values
    induction values with
    | nil => exact fun _ => rfl
    | cons v values ih => exact fun a => ih (a.insert v).2
  exact hstep values {}

/-- After any insertions into an empty arena its table and its values agree, and the values are the
distinct ones that were inserted, in the order of first insertion.  The handle that an insertion
answers with is that of its value, then and later, and two insertions answer with the same handle
for equal values only.  A value is found in the table at a handle exactly when it is behind it, and
later insertions change neither.  An arena that carries the agreement is made by the same
insertions. -/
theorem insertions_consistent (values : List α) :
    let after : List α → IndexedArena kind α := ofList
    (after values).Agrees ∧ (after values).toList.Nodup ∧ (after values).toList = values.eraseDups ∧
    (∀ v later, (after (values ++ v :: later)).get? ((after values).insert v).1 = some v) ∧
    (∀ v between w, ((after values).insert v).1 = ((after (values ++ v :: between)).insert w).1 ↔
      v = w) ∧
    (∀ v h, (after values).find? v = some h ↔ (after values).get? h = some v) ∧
    (∀ v h, (after values).get? h = some v → ∀ later,
      (after (values ++ later)).get? h = some v ∧ (after (values ++ later)).find? v = some h) ∧
    (UniqueArena.ofList values).toIndexedArena = after values := by
  intro after
  have hagrees : ∀ values, (after values).Agrees := agrees_ofList
  have hafter : ∀ later, after (values ++ later) =
      later.foldl (fun a w => (a.insert w).2) (after values) := fun _ => List.foldl_append
  have hinsert : ∀ v later, (after (values ++ v :: later)).get?
    ((after values).insert v).1 = some v := by
    intro v later
    rw [hafter]
    exact ((hagrees values).insert v).get?_foldl_insert ((hagrees values).insert_spec v).1 later
  refine ⟨hagrees values, (hagrees values).nodup, toList_ofList values, hinsert, ?_,
    fun v h => (hagrees values).find?_eq_some_iff, ?_, toIndexedArena_ofList values⟩
  · intro v between w
    have hlater := (hagrees (values ++ v :: between)).insert w
    have hfirst := (hagrees (values ++ v :: between)).get?_insert (hinsert v between) (v := w)
    have hsecond := ((hagrees (values ++ v :: between)).insert_spec w).1
    refine ⟨fun hhandle => ?_, fun hvalue => ?_⟩
    · rw [hhandle, hsecond] at hfirst
      exact (Option.some.inj hfirst).symm
    · subst hvalue
      have hfound := (hlater.find?_eq_some_iff.2 hfirst).symm.trans
        (hlater.find?_eq_some_iff.2 hsecond)
      exact Option.some.inj hfound
  · intro v h hget later
    have hlater : (after (values ++ later)).get? h = some v := by
      rw [hafter]
      exact (hagrees values).get?_foldl_insert hget later
    exact ⟨hlater, (hagrees _).find?_eq_some_iff.2 hlater⟩

theorem insertions_consistent_repeated :
    let after : List String → IndexedArena .type String := ofList
    (after ["vec3", "f32", "vec3"]).toList = ["vec3", "f32"] ∧
    (after ["vec3", "f32", "vec3"]).lookup = [("f32", 1), ("vec3", 0)] ∧
    (after ["vec3", "f32", "vec3"]).get? ⟨1⟩ = some "f32" ∧
    (after (["vec3", "f32", "vec3"] ++ ["mat4"])).find? "f32" = some ⟨1⟩ := by
  have hget : (ofList ["vec3", "f32", "vec3"] : IndexedArena .type String).get? ⟨1⟩ =
      some "f32" := by decide
  obtain ⟨-, -, htoList, -, -, -, hlater, -⟩ := insertions_consistent ["vec3", "f32", "vec3"]
  exact ⟨htoList.trans (by decide), by decide, hget, (hlater "f32" ⟨1⟩ hget ["mat4"]).2⟩

end IndexedArena

end Shader
