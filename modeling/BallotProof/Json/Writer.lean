import BallotProof.Json.Basic

/-!
# Writing json

Values are written on one line without blanks; in texts the double mark, the backslash and the
control characters are escaped.

* `Json.toText` writes a value.
-/

namespace BallotProof

namespace Json

/-- The last four hex digits of a code point. -/
def fourDigits (c : Char) : List Char :=
  let digits := Nat.toDigits 16 c.toNat
  List.replicate (4 - digits.length) '0' ++ digits

/-- The spelling of a character in a string. -/
def escapeChar (c : Char) : List Char :=
  if c = '\x22' || c = '\\' then ['\\', c]
  else if c.toNat < 0x20 then '\\' :: 'u' :: fourDigits c
  else [c]

/-- A text in double marks. -/
def quoted (s : String) : String :=
  String.ofList ('\x22' :: s.toList.flatMap escapeChar ++ ['\x22'])

mutual

/-- The text of a value. -/
def toText : Json → String
  | .null => "null"
  | .bool b => if b then "true" else "false"
  | .int n => toString n
  | .double x => x.text
  | .string s => quoted s
  | .array items => "[" ++ ",".intercalate (itemTexts items) ++ "]"
  | .object members => "\x7b" ++ ",".intercalate (memberTexts members) ++ "\x7d"

/-- The texts of the items of an array. -/
def itemTexts : List Json → List String
  | [] => []
  | value :: rest => toText value :: itemTexts rest

/-- The texts of the members of an object. -/
def memberTexts : List (String × Json) → List String
  | [] => []
  | (key, value) :: rest => (quoted key ++ ":" ++ toText value) :: memberTexts rest

end

end Json

end BallotProof
