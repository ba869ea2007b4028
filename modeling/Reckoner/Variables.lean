/-! # Variables

Names bound to numbers, in the order in which they were first bound. The
constants `pi` and `e` come first and keep their values. -/

namespace Reckoner

structure Variable where
  name : String
  value : Float
  /-- The value never changes. -/
  constant : Bool
  deriving DecidableEq

/-- A table of variables. Entries are never removed. -/
structure Variables where
  entries : List Variable
  deriving DecidableEq

namespace Variables

/-- The double nearest to the circle constant. -/
def pi : Float := Float.ofBits 0x400921fb54442d18

/-- The double nearest to the base of natural logarithms. -/
def e : Float := Float.ofBits 0x4005bf0a8b145769

/-- The table a session starts with. -/
def initial : Variables := ⟨[⟨"pi", pi, true⟩, ⟨"e", e, true⟩]⟩

def size (vars : Variables) : Nat := vars.entries.length

def isEmpty (vars : Variables) : Bool := vars.entries.isEmpty

def names (vars : Variables) : List String := vars.entries.map (·.name)

def get? (vars : Variables) (name : String) : Option Variable :=
  vars.entries.find? (·.name = name)

/-- The value bound to a name. -/
def value? (vars : Variables) (name : String) : Option Float :=
  (vars.get? name).map (·.value)

/-- Binds a new name after all others. -/
def append (vars : Variables) (name : String) (value : Float) : Variables :=
  ⟨vars.entries ++ [⟨name, value, false⟩]⟩

/-- A new name does not hide one that is bound. -/
theorem get?_append (vars : Variables) (name other : String) (value : Float) :
    (vars.append name value).get? other =
      (vars.get? other).or (if name = other then some ⟨name, value, false⟩ else none) := by
  simp only [append, get?, List.find?_append, List.find?_cons, List.find?_nil]
  split <;> simp_all

/-- Binds the name to zero unless it is bound. -/
def declare (vars : Variables) (name : String) : Variables :=
  match vars.get? name with
  | some _ => vars
  | none => vars.append name 0

/-- Gives the name a value. A constant keeps the one it has. -/
def assign (vars : Variables) (name : String) (value : Float) : Variables :=
  match vars.get? name with
  | some _ =>
      ⟨vars.entries.map fun entry =>
        if entry.name = name && !entry.constant then { entry with value } else entry⟩
  | none => vars.append name value

end Variables
end Reckoner
