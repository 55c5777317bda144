import DeskSync.Backend.Basic
import DeskSync.Lib.Percent

/-!
# Query strings of Go

What the backend uses of `net/url`.
-/

namespace DeskSync.Backend

/-- `url.QueryEscape`. -/
def queryEscape (s : String) : List Char := Percent.queryEscape (bytes s)

/-- `url.Values`, with one value for each key. -/
abbrev Values := List (String × String)

namespace Values

/-- `Set`. -/
def set (q : Values) (key value : String) : Values := q.filter (·.1 != key) ++ [(key, value)]

/-- A key and its value, escaped. -/
def pair (p : String × String) : List Char := queryEscape p.1 ++ '=' :: queryEscape p.2

/-- `Encode` sorts by key. -/
def encode (q : Values) : String :=
  String.ofList (List.intercalate ['&'] ((q.insertionSort fun a b => a.1 ≤ b.1).map pair))

end Values

end DeskSync.Backend
