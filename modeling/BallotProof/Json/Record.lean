import BallotProof.Hex
import BallotProof.Json.Basic

/-!
# Records in json

A record is written as an object with one member for each field. It is read from an object, whose
other members are ignored, or from an array of the fields in their declared order. Of several
defects in an object the first in alphabetical order of the fields is reported, and a missing
field only if all present ones are good.

* `Json.toWord` and `Json.toInt64` read the two kinds of fields.
* `Record.read` reads a record; `Record.locate`, `Fields.examine`, `Fields.get` and `Fields.finish`
  are the steps.
-/

namespace BallotProof

/-- The kinds of fields. -/
inductive FieldKind where
  /-- A word, as a text in hex. -/
  | word
  /-- A signed integer of 64 bits. -/
  | integer
deriving DecidableEq

/-- The name of a record and its fields in declared order. -/
structure Record where
  /-- The name that error messages give to the record. -/
  name : String
  /-- The fields. -/
  fields : List (String × FieldKind)
deriving DecidableEq

/-- What was looked for. -/
inductive Expected where
  /-- A text. -/
  | string
  /-- A signed integer of 64 bits. -/
  | integer
  /-- A record. -/
  | record (shape : Record)
deriving DecidableEq

/-- Why a value cannot be read. -/
inductive JsonError where
  /-- The value is of another type. -/
  | wrongType (found : Json) (expected : Expected)
  /-- An integer does not fit 64 bits with a sign. -/
  | outOfRange (value : Int)
  /-- An object lacks a field. -/
  | missingField (name : String)
  /-- An array has too few items for the record. -/
  | tooShort (length : Nat) (shape : Record)
  /-- An array has more items than the record has fields. -/
  | tooLong (length : Nat)
  /-- A text is not a word. -/
  | word (cause : WordError)

/-- What a value is called in a message. -/
def Json.describe : Json → String
  | .null => "null"
  | .bool b => "boolean `" ++ (if b then "true" else "false") ++ "`"
  | .int n => "integer `" ++ toString n ++ "`"
  | .double x => "floating point `" ++ x.text ++ "`"
  | .string s => "string " ++ Text.quote s
  | .array _ => "sequence"
  | .object _ => "map"

/-- What was looked for, in a message. -/
def Expected.describe : Expected → String
  | .string => "a string"
  | .integer => "i64"
  | .record shape => "struct " ++ shape.name

/-- The text of the error. -/
def JsonError.message : JsonError → String
  | .wrongType found expected =>
    "invalid type: " ++ found.describe ++ ", expected " ++ expected.describe
  | .outOfRange value =>
    "invalid value: " ++ (Json.int value).describe ++ ", expected " ++ Expected.integer.describe
  | .missingField name => "missing field `" ++ name ++ "`"
  | .tooShort length shape =>
    "invalid length " ++ toString length ++ ", expected " ++ (Expected.record shape).describe
      ++ " with " ++ toString shape.fields.length ++ " elements"
  | .tooLong length => "invalid length " ++ toString length ++ ", expected fewer elements in array"
  | .word cause => cause.message

namespace Json

/-! ### Fields -/

/-- Reads a word from a text in hex. -/
def toWord : Json → Except JsonError Word
  | .string s => (Word.ofHex? s).mapError .word
  | other => .error (.wrongType other .string)

/-- Reads a signed integer of 64 bits. -/
def toInt64 : Json → Except JsonError Int64
  | .int n =>
    if Int64.minValue.toInt ≤ n ∧ n ≤ Int64.maxValue.toInt then .ok (Int64.ofInt n)
    else .error (.outOfRange n)
  | other => .error (.wrongType other .integer)

/-- A word as a text in hex. -/
def ofWord (w : Word) : Json :=
  .string w.toHex

/-- A signed integer of 64 bits. -/
def ofInt64 (n : Int64) : Json :=
  .int n.toInt

theorem toInt64_ofInt64 (n : Int64) : toInt64 (ofInt64 n) = .ok n := by
  have h : Int64.minValue.toInt ≤ n.toInt ∧ n.toInt ≤ Int64.maxValue.toInt :=
    ⟨Int64.minValue_le_toInt n, Int64.toInt_le n⟩
  rw [ofInt64, toInt64, if_pos h, Int64.ofInt_toInt]

end Json

/-- Reads a value of the kind and forgets it. -/
def FieldKind.check (value : Json) : FieldKind → Except JsonError Unit
  | .word => value.toWord.map fun _ => ()
  | .integer => value.toInt64.map fun _ => ()

/-! ### Records -/

/-- Where the fields of a record are found. -/
inductive Fields where
  /-- In an object, by name. -/
  | named (members : Members)
  /-- In an array, by position. -/
  | positional (items : List Json)

namespace Record

/-- The fields in alphabetical order. -/
def sorted (shape : Record) : List (String × FieldKind) :=
  shape.fields.mergeSort fun a b => a.1 ≤ b.1

/-- The fields of an object or an array. -/
def locate (shape : Record) : Json → Except JsonError Fields
  | .object members => .ok (.named members)
  | .array items => .ok (.positional items)
  | other => .error (.wrongType other (.record shape))

theorem sorted_perm (shape : Record) : shape.sorted.Perm shape.fields :=
  List.mergeSort_perm ..

end Record

namespace Fields

/-- Reads all members of an object that are fields, in alphabetical order. -/
def examine (shape : Record) : Fields → Except JsonError Unit
  | .named members =>
    shape.sorted.forM fun (name, kind) =>
      match members.lookup name with
      | some value => kind.check value
      | none => .ok ()
  | .positional _ => .ok ()

/-- The value of a field. -/
def get (shape : Record) (name : String) : Fields → Except JsonError Json
  | .named members =>
    match members.lookup name with
    | some value => .ok value
    | none => .error (.missingField name)
  | .positional items =>
    match items[(shape.fields.map Prod.fst).idxOf name]? with
    | some value => .ok value
    | none => .error (.tooShort items.length shape)

/-- Refuses an array with more items than there are fields. -/
def finish (shape : Record) : Fields → Except JsonError Unit
  | .named _ => .ok ()
  | .positional items =>
    if shape.fields.length < items.length then .error (.tooLong items.length) else .ok ()

/-- The value of a field that is a word. -/
def word (shape : Record) (fields : Fields) (name : String) : Except JsonError Word := do
  let value ← fields.get shape name
  value.toWord

/-- The value of a field that is an integer. -/
def integer (shape : Record) (fields : Fields) (name : String) : Except JsonError Int64 := do
  let value ← fields.get shape name
  value.toInt64

end Fields

/-- Reads a record whose fields are put together by `ofFields`. -/
def Record.read {α : Type} (shape : Record) (ofFields : Fields → Except JsonError α)
    (value : Json) : Except JsonError α := do
  let fields ← shape.locate value
  fields.examine shape
  let x ← ofFields fields
  fields.finish shape
  return x

end BallotProof
