/-!
# Comparison without regard to ASCII case

Only the letters `A` to `Z` and `a` to `z` are alike; every other character is like itself alone.
-/

namespace TableClient.Text

/-- The text with its ASCII capitals in lower case. -/
def lower (s : String) : String :=
  String.ofList (s.toList.map Char.toLower)

/-- Whether two texts are the same but for the case of ASCII letters. -/
def sameLetters (s t : String) : Bool :=
  lower s = lower t

end TableClient.Text
