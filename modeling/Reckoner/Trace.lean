/-! # Traces of an evaluation

A trace in detailed mode records every arithmetic step in order. -/

namespace Reckoner

/-- One operation as text, and its result. -/
structure Step where
  operation : String
  result : Float
  deriving DecidableEq

structure Trace where
  detailed : Bool
  steps : List Step
  deriving DecidableEq

namespace Trace

def start (detailed : Bool) : Trace := ⟨detailed, []⟩

/-- Records a step in detailed mode. Otherwise its text is not even built. -/
@[macro_inline] def add (trace : Trace) (operation : String) (result : Float) : Trace :=
  if trace.detailed then { trace with steps := trace.steps ++ [⟨operation, result⟩] } else trace

@[simp] theorem detailed_add (trace : Trace) (operation : String) (result : Float) :
    (trace.add operation result).detailed = trace.detailed := by
  unfold add; split <;> rfl

end Trace
end Reckoner
