import Scribe.Text.Scoped

/-! Types of the source language and the types that stand for them in the output. -/
namespace Scribe
namespace TypeName

/-- Types with a counterpart of another name; the empty one leaves a type to be inferred. -/
def table : List (String × String) :=
  [("int", "number"), ("unsigned", "number"), ("short", "number"), ("long", "number"),
    ("float", "number"), ("double", "number"), ("ld", "number"), ("size_t", "number"),
    ("char", "string"), ("bool", "boolean"), ("void", "void"), ("auto", ""),
    ("std::string", "string"), ("string", "string")]

def isNumeric (word : String) : Bool := table.lookup word == some "number"

/-- The type to annotate with, if any: a counterpart from the table; a number for several
words that are all numeric; else the type itself with dots between its scopes. -/
def counterpart (name : String) : Option String :=
  if name.isEmpty then none
  else match table.lookup name with
    | some target => if target.isEmpty then none else some target
    | none =>
      let words := Text.words name
      if !words.isEmpty && words.all isNumeric then some "number"
      else some (Text.dotScopes name)

/-- A name with its type behind it, if the type is to be written. -/
def annotate (name : String) (type : Option String) : String :=
  match type.bind counterpart with
  | some t => name ++ ": " ++ t
  | none => name

end TypeName
end Scribe
