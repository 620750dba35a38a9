/-!
# Cutting texts

A text is cut at every occurrence of a separator. The stretches between the separators are
kept also where they are empty.
-/

namespace ForthAsm

/-- The stretches between the separators of a text, empty ones included. -/
def cutAt (separator : Char) : List Char → List (List Char)
  | [] => [[]]
  | character :: characters =>
    if character = separator then [] :: cutAt separator characters
    else match cutAt separator characters with
      | [] => [[character]]
      | first :: others => (character :: first) :: others

end ForthAsm
