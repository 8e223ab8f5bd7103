/-!
# Arenas and handles

The parts of a shader module refer to each other by handle: a zero-based position, tagged with the
kind of value it points at.  An `Arena` keeps every value appended to it.  A `UniqueArena` keeps
each distinct value once, in order of first insertion, so equal values share a handle.  It finds
them in a table, which an `IndexedArena` has beside its values; that the two agree is part of it.

A handle may lie outside its arena; `get?` then answers `none` and the caller decides.
-/

namespace Shader

/-- What a handle points at. -/
inductive Kind where
  | type
  | constant
  | override
  | globalVariable
  | localVariable
  | expression
  | function
deriving DecidableEq, Repr

/-- A position in an arena of values of one kind. -/
structure Handle (kind : Kind) where
  index : Nat
deriving DecidableEq, Repr

/-- Expressions, by their handles. -/
abbrev Handles := List (Handle .expression)

namespace Handle

variable {kind : Kind}

instance : Ord (Handle kind) := ⟨fun a b => compare a.index b.index⟩

/-- The written form of a handle, `[3]`. -/
def text (h : Handle kind) : String := s!"[{h.index}]"

end Handle

/-- A half-open run of handles, from `start` up to and without `stop`. -/
structure HandleRange (kind : Kind) where
  start : Nat
  stop : Nat
deriving DecidableEq, Repr

namespace HandleRange

variable {kind : Kind}

/-- The run from `first` up to and including `last`. -/
def inclusive (first last : Handle kind) : HandleRange kind := ⟨first.index, last.index + 1⟩

/-- The run covers no handle. -/
def isEmpty (r : HandleRange kind) : Bool := r.stop ≤ r.start

/-- The handles of the run, in order. -/
def handles (r : HandleRange kind) : List (Handle kind) :=
  (List.range' r.start (r.stop - r.start)).map Handle.mk

/-- The run covers the handle. -/
def covers (r : HandleRange kind) (h : Handle kind) : Bool :=
  r.start ≤ h.index && h.index < r.stop

/-- The written form of a run, `[2..5)`. -/
def text (r : HandleRange kind) : String := s!"[{r.start}..{r.stop})"

theorem mem_handles {r : HandleRange kind} {h : Handle kind} :
    h ∈ r.handles ↔ r.start ≤ h.index ∧ h.index < r.stop := by
  obtain ⟨i⟩ := h
  simp [handles, List.mem_range'_1]
  omega

theorem handles_eq_nil_iff {r : HandleRange kind} : r.handles = [] ↔ r.isEmpty = true := by
  simp [handles, isEmpty, Nat.sub_eq_zero_iff_le]

end HandleRange

/-- An append-only store addressed by handles. -/
structure Arena (kind : Kind) (α : Type) where
  items : Array α := #[]
deriving Repr

namespace Arena

variable {kind : Kind} {α : Type}

instance : Inhabited (Arena kind α) := ⟨{}⟩

def ofList (items : List α) : Arena kind α := ⟨items.toArray⟩

/-- The stored values, in order. -/
def toList (a : Arena kind α) : List α := a.items.toList

def size (a : Arena kind α) : Nat := a.items.size

def isEmpty (a : Arena kind α) : Bool := a.size == 0

/-- The handle the next `append` answers with. -/
def nextHandle (a : Arena kind α) : Handle kind := ⟨a.size⟩

def append (a : Arena kind α) (value : α) : Handle kind × Arena kind α :=
  (a.nextHandle, ⟨a.items.push value⟩)

def get? (a : Arena kind α) (h : Handle kind) : Option α := a.items[h.index]?

/-- Replaces the value behind a handle; `none` when the handle is out of bounds. -/
def set? (a : Arena kind α) (h : Handle kind) (value : α) : Option (Arena kind α) :=
  if bound : h.index < a.items.size then some ⟨a.items.set h.index value bound⟩ else none

/-- Changes the value behind a handle, if there is one. -/
def modify (a : Arena kind α) (h : Handle kind) (f : α → α) : Arena kind α :=
  ⟨a.items.modify h.index f⟩

/-- The handles appended since the arena held `count` values. -/
def rangeFrom (a : Arena kind α) (count : Nat) : HandleRange kind := ⟨count, a.size⟩

/-- The values with their handles, in order. -/
def entries (a : Arena kind α) : List (Handle kind × α) :=
  a.items.toList.zipIdx.map fun (value, i) => (⟨i⟩, value)

@[simp] theorem size_append (a : Arena kind α) (v : α) : (a.append v).2.size = a.size + 1 := by
  simp [append, size]

@[simp] theorem toList_append (a : Arena kind α) (v : α) :
    (a.append v).2.toList = a.toList ++ [v] := by
  simp [append, toList]

theorem get?_append_self (a : Arena kind α) (v : α) :
    (a.append v).2.get? (a.append v).1 = some v := by
  simp [append, get?, nextHandle, size]

theorem get?_append_of_lt {a : Arena kind α} {v : α} {h : Handle kind} (hlt : h.index < a.size) :
    (a.append v).2.get? h = a.get? h := by
  simp only [append, get?, size] at *
  grind

theorem get?_eq_some_lt {a : Arena kind α} {h : Handle kind} {v : α} (hv : a.get? h = some v) :
    h.index < a.size := by
  simp only [get?, size] at *
  grind

end Arena

/-- Values, and a table by which they are found. -/
structure IndexedArena (kind : Kind) (α : Type) extends Arena kind α where
  /-- The positions of the values. -/
  lookup : List (α × Nat) := []

namespace IndexedArena

variable {kind : Kind} {α : Type}

/-- The table has every value that is stored, at its position, and no other. -/
structure Agrees (a : IndexedArena kind α) : Prop where
  mem_lookup : ∀ value i, (value, i) ∈ a.lookup ↔ a.items[i]? = some value
  /-- No value is in the table twice. -/
  keys : (a.lookup.map Prod.fst).Nodup

theorem agrees_empty : ({} : IndexedArena kind α).Agrees := ⟨by simp, List.nodup_nil⟩

variable [DecidableEq α]

/-- The handle that the table has for a value. -/
def find? (a : IndexedArena kind α) (value : α) : Option (Handle kind) :=
  (a.lookup.lookup value).map Handle.mk

/-- Puts a value that is not in the table there, and behind the others; answers with its handle. -/
def insert (a : IndexedArena kind α) (value : α) : Handle kind × IndexedArena kind α :=
  match a.find? value with
  | some h => (h, a)
  | none => (a.nextHandle, { items := a.items.push value, lookup := (value, a.size) :: a.lookup })

/-- The arena after the insertion of the values into an empty one. -/
def ofList (values : List α) : IndexedArena kind α :=
  values.foldl (fun a value => (a.insert value).2) {}

/-- What is not found is not in the table. -/
theorem find?_eq_none_iff {a : IndexedArena kind α} {value : α} :
    a.find? value = none ↔ value ∉ a.lookup.map Prod.fst := by
  simp only [find?, Option.map_eq_none_iff, List.lookup_eq_none_iff, List.mem_map,
    not_exists, not_and]
  exact forall₂_congr fun entry _ => by rw [bne_iff_ne, ne_comm, Ne]

/-- An insertion changes the table and the values alike. -/
theorem Agrees.insert {a : IndexedArena kind α} (h : a.Agrees) (value : α) :
    (a.insert value).2.Agrees := by
  unfold IndexedArena.insert
  split
  · exact h
  · rename_i hnone
    have hnew := find?_eq_none_iff.1 hnone
    refine ⟨fun v i => ?_, List.nodup_cons.2 ⟨hnew, h.keys⟩⟩
    rw [List.mem_cons, h.mem_lookup, Array.getElem?_push, Prod.mk.injEq]
    by_cases hi : i = a.items.size
    · -- the new position had no value before
      subst hi
      simp [Arena.size, eq_comm]
    · rw [if_neg hi]
      exact or_iff_right fun hnow => hi hnow.2

end IndexedArena

/-- A store that keeps each distinct value once. -/
@[ext] structure UniqueArena (kind : Kind) (α : Type) extends IndexedArena kind α where
  /-- The table tells what is stored. -/
  agrees : toIndexedArena.Agrees := by exact IndexedArena.agrees_empty

namespace UniqueArena

variable {kind : Kind} {α : Type}

instance : Inhabited (UniqueArena kind α) := ⟨{}⟩

variable [DecidableEq α]

/-- Stores a value unless an equal one is there, and answers with its handle. -/
def insert (a : UniqueArena kind α) (value : α) : Handle kind × UniqueArena kind α :=
  ((a.toIndexedArena.insert value).1, ⟨(a.toIndexedArena.insert value).2, a.agrees.insert value⟩)

/-- The arena of the distinct values of a list. -/
def ofList (values : List α) : UniqueArena kind α :=
  values.foldl (fun a value => (a.insert value).2) {}

end UniqueArena

end Shader
