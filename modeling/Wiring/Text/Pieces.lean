/-!
# Pieces of a text

A text cut at every place of a separator.
-/

namespace Wiring.Text

/-- What stands between the separators, an empty piece included. -/
def pieces (sep : Char) : List Char → List (List Char)
  | [] => [[]]
  | c :: cs => if c = sep then [] :: pieces sep cs else (pieces sep cs).modifyHead (c :: ·)

end Wiring.Text
