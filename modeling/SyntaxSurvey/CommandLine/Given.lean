/-! What a flag with a value was given. A value that consists of the separator alone is taken away
as if it separated something, so that the flag stands there without a value. -/

namespace SyntaxSurvey.CommandLine

/-- What a flag with a value was given. -/
inductive Given (α : Type) where
  /-- The flag is not there. -/
  | nothing
  /-- The flag is there, but its value was taken away. -/
  | emptied
  /-- The flag has a value. -/
  | value (a : α)
  deriving DecidableEq, Repr

namespace Given

variable {α : Type}

def value? : Given α → Option α
  | .value a => some a
  | _ => none

def getD (given : Given α) (other : α) : α :=
  given.value?.getD other

end Given

end SyntaxSurvey.CommandLine
