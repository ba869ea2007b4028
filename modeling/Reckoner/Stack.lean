/-! # Stacks

Last in, first out. The evaluator keeps its values and its waiting operators
on stacks. -/

namespace Reckoner

/-- A stack, listed from the top down. -/
structure Stack (α : Type) where
  items : List α
  deriving DecidableEq, Repr

namespace Stack

variable {α : Type}

def empty : Stack α := ⟨[]⟩

def push (stack : Stack α) (item : α) : Stack α := ⟨item :: stack.items⟩

/-- The top item and the stack below it. -/
def pop? (stack : Stack α) : Option (α × Stack α) :=
  match stack.items with
  | [] => none
  | item :: rest => some (item, ⟨rest⟩)

def peek? (stack : Stack α) : Option α := stack.items.head?

def size (stack : Stack α) : Nat := stack.items.length

def isEmpty (stack : Stack α) : Bool := stack.items.isEmpty

@[simp] theorem pop?_push (stack : Stack α) (item : α) :
    (stack.push item).pop? = some (item, stack) := rfl

@[simp] theorem peek?_push (stack : Stack α) (item : α) : (stack.push item).peek? = some item := rfl

@[simp] theorem pop?_empty : (empty : Stack α).pop? = none := rfl

end Stack
end Reckoner
