/-! Constructs that have no counterpart. -/
namespace Scribe

/-- A construct of some kind, in a context of some kind, that cannot be converted. -/
structure Unsupported where
  kind : String
  context : String
deriving DecidableEq, Repr

namespace Unsupported

def message (u : Unsupported) : String :=
  "Unhandled node type '" ++ u.kind ++ "' in context '" ++ u.context ++ "'"

/-- The context of what stands in no other construct. -/
def file : String := "file"

end Unsupported
end Scribe
