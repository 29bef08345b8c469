/-
# String helpers

`toLower` and `getNameFromLastSegmentObjectPath` of the helpers. `tolower` acts on
single bytes and changes the ASCII letters only.
-/

import ObmcWebapp.Core.Exceptions

namespace ObmcWebapp.Core

def toLower (data : String) : String := String.ofList (data.toList.map Char.toLower)

/-- The text after the last slash, with blanks for underscores; a path without a
slash is rejected. -/
def getNameFromLastSegmentObjectPath (objectPath : String) : Except Exception String :=
  let letters := objectPath.toList
  if letters.contains '/' then
    let name := (letters.reverse.takeWhile fun letter => letter ≠ '/').reverse
    .ok (String.ofList (name.map fun letter => if letter = '_' then ' ' else letter))
  else .error (.invalidType "Object path should not be ends by the '/'")

end ObmcWebapp.Core
