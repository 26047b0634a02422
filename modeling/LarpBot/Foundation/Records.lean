import Mathlib

/-!
# Classes of records

A record is a list of named values. A class of records says which names a record may have and which
it must have, and a reader takes the values of a record of its class. A union has no tag: a record is
of the first class that takes it. Where the classes are apart, no record is of two of them, so the
order of the union does not matter and what one class has written that class reads
(`readUnion_eq`).
-/

namespace Records

variable {V ι β : Type}

/-- The names that a record of a class may have, and those it must have. -/
structure Shape where
  fields : List String
  required : List String

namespace Shape

def Admits (shape : Shape) (names : List String) : Prop :=
  shape.required ⊆ names ∧ names ⊆ shape.fields

instance (shape : Shape) (names : List String) : Decidable (shape.Admits names) :=
  inferInstanceAs (Decidable (_ ∧ _))

/-- One of the classes must have a name that the other one cannot have. -/
def Apart (shape other : Shape) : Prop :=
  ¬ shape.required ⊆ other.fields ∨ ¬ other.required ⊆ shape.fields

instance (shape other : Shape) : Decidable (shape.Apart other) :=
  inferInstanceAs (Decidable (_ ∨ _))

/-- No record is of two classes that are apart. -/
theorem Apart.not_admits {shape other : Shape} (h : shape.Apart other) {names : List String}
    (hnames : shape.Admits names) : ¬ other.Admits names := by
  intro hother
  rcases h with h | h
  · exact h fun _ hname => hother.2 (hnames.1 hname)
  · exact h fun _ hname => hnames.2 (hother.1 hname)

end Shape

/-- The value under a name; of two values the last one counts. -/
def field? (name : String) (record : List (String × V)) : Option V :=
  record.reverse.lookup name

theorem mem_of_field? {name : String} {record : List (String × V)} {v : V}
    (h : field? name record = some v) : (name, v) ∈ record := by
  obtain ⟨before, after, heq, -⟩ := List.lookup_eq_some_iff.mp h
  have hmem : (name, v) ∈ record.reverse := by simp [heq]
  exact List.mem_reverse.mp hmem

/-- The value of a name that has one value only. -/
theorem field?_eq_some {name : String} {record : List (String × V)} {v : V} (h : (name, v) ∈ record)
    (hone : ∀ w, (name, w) ∈ record → w = v) : field? name record = some v := by
  have hsome : (field? name record).isSome = true :=
    List.lookup_isSome_iff.mpr ⟨(name, v), List.mem_reverse.mpr h, by simp⟩
  obtain ⟨w, hw⟩ := Option.isSome_iff_exists.mp hsome
  rw [hw, hone w (mem_of_field? hw)]

def names (record : List (String × V)) : List String :=
  record.map Prod.fst

section Union

variable (shape : ι → Shape) (read : ι → List (String × V) → Option β)

/-- The record as one of its class. -/
def readAs (i : ι) (record : List (String × V)) : Option β :=
  if (shape i).Admits (names record) then read i record else none

/-- The record as one of the first class that takes it. -/
def readUnion (classes : List ι) (record : List (String × V)) : Option β :=
  classes.findSome? fun i => readAs shape read i record

variable {shape read}

/-- A record of one of the classes is read as that. -/
theorem readUnion_eq {classes : List ι} {i : ι} {record : List (String × V)}
    (hapart : ∀ j ∈ classes, j ≠ i → (shape i).Apart (shape j)) (hi : i ∈ classes)
    (hrecord : (shape i).Admits (names record)) :
    readUnion shape read classes record = read i record := by
  have hself : readAs shape read i record = read i record := if_pos hrecord
  induction classes with
  | nil => exact absurd hi List.not_mem_nil
  | cons j classes ih =>
    have hrest := fun k hk => hapart k (List.mem_cons_of_mem j hk)
    rw [readUnion, List.findSome?_cons]
    by_cases hj : j = i
    · subst hj
      rw [hself]
      cases hread : read j record with
      | some b => rfl
      | none =>
        refine List.findSome?_eq_none_iff.mpr fun k hk => ?_
        by_cases hk' : k = j
        · rw [hk', hself, hread]
        · exact if_neg ((hrest k hk hk').not_admits hrecord)
    · have hnone : readAs shape read j record = none :=
        if_neg ((hapart j List.mem_cons_self hj).not_admits hrecord)
      rw [hnone]
      exact ih hrest ((List.mem_cons.mp hi).resolve_left (Ne.symm hj))

end Union

end Records
