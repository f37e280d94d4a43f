import Scribe.Text.Blank

/-! Names with scopes: texts that are cut at double colons. -/
namespace Scribe
namespace Text

/-- Put a character at the start of the first part. -/
def consPart (c : Char) : List (List Char) → List (List Char)
  | [] => [[c]]
  | part :: rest => (c :: part) :: rest

/-- Cut at each double colon, from left to right, so that of three colons the third
stays with the part behind it. -/
def scopeParts : List Char → List (List Char)
  | [] => [[]]
  | ':' :: ':' :: cs => [] :: scopeParts cs
  | c :: cs => consPart c (scopeParts cs)

/-- The parts of a scoped name, trimmed, without the empty ones. -/
def scopeNames (s : String) : List String :=
  (((scopeParts s.toList).map trimChars).filter (!·.isEmpty)).map String.ofList

/-- One plain name for a scoped one: its parts joined by underscores. The empty part
that stands for the global scope is left out. -/
def flattenScopes (s : String) : String := join "_" (scopeNames s)

/-- The same text with a dot for each double colon. -/
def dotScopes (s : String) : String := join "." ((scopeParts s.toList).map String.ofList)

end Text
end Scribe
