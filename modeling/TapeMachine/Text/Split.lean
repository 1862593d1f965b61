/-!
# Splitting at a separator

The pieces of a text between separators. There is always one piece more than there are separators.
-/

namespace TapeMachine.Text

/-- Splits at `separator`, where `current` holds the piece under way, its last character first. -/
def splitFrom (separator : Char) (current : List Char) : List Char → List String
  | [] => [String.ofList current.reverse]
  | c :: rest =>
    if c = separator then String.ofList current.reverse :: splitFrom separator [] rest
    else splitFrom separator (c :: current) rest

/-- The pieces between separators, in order. -/
def split (separator : Char) (cs : List Char) : List String := splitFrom separator [] cs

end TapeMachine.Text
