import Grab.Lib.Binary

/-!
# JSON values

The values of a JSON library that keeps the three kinds of number apart: signed
integers, unsigned integers and floating point.  Writing a value out and reading
the text back gives the same value but for the kind of an integer, which the text
does not carry, and a number that is not finite, which has no literal.
-/

namespace Grab.Lib

inductive Json where
  | null
  | bool (value : Bool)
  | int (value : Int64)
  | uint (value : UInt64)
  | float (value : Double)
  | string (value : String)
  | array (items : List Json)
  | object (members : List (String × Json))

/-- Why a text is not read. -/
inductive ParseFailure where
  | syntaxError (byte : Nat)
  | badValue (what : String)

/-- The two ends of a JSON library. -/
structure JsonLibrary where
  dump : Json → String
  parse : String → Except ParseFailure Json

namespace Json

/-- The value under a name. -/
def lookup (name : String) : List (String × Json) → Option Json
  | [] => none
  | member :: rest => if member.1 = name then some member.2 else lookup name rest

mutual

/-- What reading the text of a value gives. -/
def reparse : Json → Json
  | .int value => if 0 ≤ value then .uint value.toUInt64 else .int value
  | .float value => if value.isFinite then .float value else .null
  | .array items => .array (reparseAll items)
  | .object members => .object (reparseMembers members)
  | other => other

def reparseAll : List Json → List Json
  | [] => []
  | item :: rest => reparse item :: reparseAll rest

def reparseMembers : List (String × Json) → List (String × Json)
  | [] => []
  | (name, value) :: rest => (name, reparse value) :: reparseMembers rest

end

end Json

/-- The library reads back what it writes of a value. -/
def JsonLibrary.Lossless (library : JsonLibrary) (value : Json) : Prop :=
  library.parse (library.dump value) = .ok value.reparse

namespace Json

attribute [simp] reparse reparseAll reparseMembers

@[simp]
theorem lookup_cons (name : String) (member : String × Json) (rest : List (String × Json)) :
    lookup name (member :: rest) =
      if member.1 = name then some member.2 else lookup name rest :=
  rfl

@[simp]
theorem reparse_float {value : Double} (finite : value.isFinite = true) :
    reparse (.float value) = .float value := by
  rw [reparse, if_pos finite]

end Json

end Grab.Lib
