import Reckoner.Trace

/-! # Traces that grow

A detailed trace grows at its end, by single steps or by the steps of a whole operation. -/

namespace Reckoner

namespace Trace

/-- Records some steps, unless none are asked for. -/
def extend (trace : Trace) (steps : List Step) : Trace :=
  if trace.detailed then { trace with steps := trace.steps ++ steps } else trace

@[simp] theorem extend_nil (trace : Trace) : trace.extend [] = trace := by
  simp [extend]

theorem extend_append (trace : Trace) (first second : List Step) :
    trace.extend (first ++ second) = (trace.extend first).extend second := by
  cases hd : trace.detailed <;> simp [extend, hd]

theorem extend_of_not_detailed {trace : Trace} (hd : trace.detailed = false) (steps : List Step) :
    trace.extend steps = trace := by
  simp [extend, hd]

theorem steps_prefix_extend (trace : Trace) (steps : List Step) :
    trace.steps <+: (trace.extend steps).steps := by
  unfold extend
  split
  · exact List.prefix_append _ _
  · exact List.prefix_refl _

theorem add_eq_extend (trace : Trace) (operation : String) (result : Float) :
    trace.add operation result = trace.extend [⟨operation, result⟩] := rfl

end Trace
end Reckoner
