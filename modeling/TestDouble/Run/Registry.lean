import TestDouble.Run.Core
/-!
# Registries

A registry maps the keys of tests to the types generated for them. A type is held as what it does: the
contract it implements and, for every method, the value that is part of it.
-/

namespace TestDouble.Run

structure Method where
  /-- The name under which its calls are recorded. -/
  name : String
  type : ValueType
  /-- The value it returns unless another one is configured. -/
  baked : type.Carrier
  /-- A method that borrows, or returns nothing, takes no value configured at run time. -/
  fixed : Bool

structure Factory where
  /-- The full name of the contract it implements. -/
  contract : String
  methods : List Method

/-- A value of a generated type, over the core with the given number. -/
structure Double where
  factory : Factory
  mode : Mode
  core : Nat

structure Handle where
  key : String
  double : Double

/-- The types registered under their keys, in ascending order of the keys. -/
structure Registry where
  factories : List (String × Factory) := []

namespace Registry

/-- Puts an entry in its place in an ascending list; an entry of the same key is replaced. -/
def place (key : String) (factory : Factory) : List (String × Factory) → List (String × Factory)
  | [] => [(key, factory)]
  | (other, held) :: rest =>
    if key = other then (key, factory) :: rest
    else if key < other then (key, factory) :: (other, held) :: rest
    else (other, held) :: place key factory rest

theorem lookup_place (key other : String) (factory : Factory) (entries : List (String × Factory)) :
    (place key factory entries).lookup other =
      if other = key then some factory else entries.lookup other := by
  induction entries with
  | nil => exact lookup_cons_ite key other factory []
  | cons entry rest ih =>
    obtain ⟨held, current⟩ := entry
    unfold place
    by_cases found : key = held
    · subst found
      simp only [if_true, lookup_cons_ite]
      by_cases same : other = key <;> simp [same]
    · rw [if_neg found]
      by_cases before : key < held
      · rw [if_pos before, lookup_cons_ite]
      · rw [if_neg before, lookup_cons_ite, lookup_cons_ite, ih]
        by_cases same : other = held
        · have different : ¬held = key := fun equal => found equal.symm
          simp [same, different]
        · simp [same]

def register (registry : Registry) (key : String) (factory : Factory) : Registry :=
  ⟨place key factory registry.factories⟩

def keys (registry : Registry) : List String := registry.factories.map (·.1)

def contains (registry : Registry) (key : String) : Bool := registry.keys.contains key

def size (registry : Registry) : Nat := registry.factories.length

/-- The type registered for a key, which must implement the contract. -/
def factory (registry : Registry) (key contract : String) : Except RunError Factory :=
  match registry.factories.lookup key with
  | none => .error (.noMatchingSpecification key)
  | some factory =>
    if factory.contract = contract then .ok factory else .error (.contractMismatch key contract)

def inspect (registry : Registry) : String :=
  "\x7b" ++ ", ".intercalate (registry.keys.map Text.quoted) ++ "\x7d"

end Registry

end TestDouble.Run
