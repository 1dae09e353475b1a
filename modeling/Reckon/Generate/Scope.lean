/-
  The names bound in the function that is being generated.
-/

namespace Reckon

/-- The values of names, each name once. -/
abbrev Scope (V : Type) := List (String × V)

namespace Scope

variable {V : Type}

def bind (s : Scope V) (name : String) (value : V) : Scope V :=
  (name, value) :: s.filter fun entry => entry.1 != name

def value? (s : Scope V) (name : String) : Option V := s.lookup name

/-- Parameters bound to their values; of a repeated name the last one counts. -/
def ofParams (params : List String) (values : List V) : Scope V :=
  (params.zip values).foldl (fun s entry => s.bind entry.1 entry.2) []

end Scope

end Reckon
