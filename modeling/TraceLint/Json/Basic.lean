import TraceLint.Text.Basic

/-! JSON documents as trees. Numbers keep their literal, and an object keeps its members in order,
repeated names included. -/
namespace TraceLint

inductive Json where
  | null
  | bool (b : Bool)
  | number (literal : Text)
  | string (s : Text)
  | array (items : List Json)
  | object (members : List (Text × Json))
deriving Inhabited

namespace Json

/-- An integer as a JSON number. -/
def ofInt (n : Int) : Json := .number (Text.ofInt n)

end Json

end TraceLint
