import BallotProof.Json.Basic

/-!
# Tokens of a json text

A text is cut into tokens in one pass over its characters. The state between two characters is a
`Mode`: between tokens, inside a word (a number, `true`, `false` or `null`) or inside a string.

* `Token.scan` cuts a text.
* `Json.ofWord?` reads a word; a number with a fraction or an exponent, minus zero and an integer
  beyond 64 bits are doubles.
-/

namespace BallotProof

namespace Json

/-! ### Words -/

/-- Numeric values of decimal digits. -/
def digitValues (cs : List Char) : List Nat :=
  cs.map fun c => c.toNat - '0'.toNat

/-- The number that decimal digits stand for. -/
def natOfDigits (cs : List Char) : Nat :=
  (digitValues cs).foldl (fun n d => 10 * n + d) 0

/-- An exponent, behind its letter: an optional sign and at least one digit. -/
def exponent? (cs : List Char) : Option Int :=
  let (negative, digits) := match cs with
    | '-' :: rest => (true, rest)
    | '+' :: rest => (false, rest)
    | rest => (false, rest)
  if digits = [] || !digits.all Char.isDigit then none
  else some (if negative then -(natOfDigits digits : Int) else natOfDigits digits)

/-- What follows the digits before the point: a fraction and an exponent, both optional. -/
def tail? (cs : List Char) : Option (List Char × Option Int) :=
  let behind (fraction : List Char) : List Char → Option (List Char × Option Int)
    | [] => some (fraction, none)
    | c :: rest =>
      if c = 'e' || c = 'E' then (exponent? rest).map fun e => (fraction, some e) else none
  match cs with
  | '.' :: rest =>
    let fraction := rest.takeWhile Char.isDigit
    if fraction = [] then none else behind fraction (rest.dropWhile Char.isDigit)
  | _ => behind [] cs

/-- An integer of 64 bits as it is, any other as a double. -/
def ofDigits? (negative : Bool) (whole : List Char) : Option Json :=
  let n := natOfDigits whole
  if !negative && n < 2 ^ (64 : Nat) then some (.int n)
  else if negative && n ≠ 0 && n ≤ 2 ^ (63 : Nat) then some (.int (-n))
  else (Double.ofDecimal? negative (digitValues whole) [] 0).map .double

/-- The number that a word spells. -/
def number? (cs : List Char) : Option Json := do
  let (negative, cs) := match cs with
    | '-' :: rest => (true, rest)
    | rest => (false, rest)
  let whole := cs.takeWhile Char.isDigit
  if whole = [] || (whole.head? = some '0' && 1 < whole.length) then none
  match ← tail? (cs.dropWhile Char.isDigit) with
  | ([], none) => ofDigits? negative whole
  | (fraction, exponent) =>
    let value ← Double.ofDecimal? negative (digitValues whole) (digitValues fraction)
      (exponent.getD 0)
    return .double value

/-- The value that a word spells. -/
def ofWord? (cs : List Char) : Option Json :=
  if cs = "null".toList then some .null
  else if cs = "true".toList then some (.bool true)
  else if cs = "false".toList then some (.bool false)
  else number? cs

end Json

/-- A piece of a json text. -/
inductive Token where
  /-- A bracket, a brace, a comma or a colon. -/
  | mark (c : Char)
  /-- A value without parts. -/
  | scalar (value : Json)

namespace Token

/-- Where a scan stands between two characters; texts are kept in reverse. -/
inductive Mode where
  /-- Between two tokens. -/
  | outside
  /-- Inside a word. -/
  | word (text : List Char)
  /-- Inside a string; `high` is the first half of a surrogate pair that waits for the second. -/
  | string (text : List Char) (high : Option Nat)
  /-- Behind a backslash in a string. -/
  | escape (text : List Char) (high : Option Nat)
  /-- Inside a code of four hex digits, of which `left` are missing. -/
  | code (text : List Char) (high : Option Nat) (value left : Nat)

/-- The state of a scan: the tokens so far, in reverse, and the mode. -/
structure Scan where
  /-- The tokens so far, the last one first. -/
  tokens : List Token
  /-- The mode. -/
  mode : Mode

/-- The marks of the format. -/
def isMark (c : Char) : Bool :=
  ['[', ']', '\x7b', '\x7d', ',', ':'].contains c

/-- The blanks of the format. -/
def isSpace (c : Char) : Bool :=
  [' ', '\t', '\n', '\r'].contains c

/-- The characters of words. -/
def isWordChar (c : Char) : Bool :=
  c.isAlphanum || c = '-' || c = '+' || c = '.'

/-- The character that a letter behind a backslash stands for. -/
def unescape? (c : Char) : Option Char :=
  [('\x22', '\x22'), ('\\', '\\'), ('/', '/'), ('b', '\x08'), ('f', '\x0c'), ('n', '\n'),
    ('r', '\r'), ('t', '\t')].lookup c

/-- The value of a hex digit. -/
def hexValue? (c : Char) : Option Nat :=
  if c.isDigit then some (c.toNat - 0x30)
  else if 'a' ≤ c && c ≤ 'f' then some (c.toNat - 0x57)
  else if 'A' ≤ c && c ≤ 'F' then some (c.toNat - 0x37)
  else none

/-- A string goes on behind a complete code. -/
def endCode? (text : List Char) (high : Option Nat) (value : Nat) : Option Mode :=
  match high with
  | some h =>
    if 0xdc00 ≤ value && value < 0xe000 then
      some (.string (Char.ofNat (0x10000 + 0x400 * (h - 0xd800) + (value - 0xdc00)) :: text) none)
    else none
  | none =>
    if 0xd800 ≤ value && value < 0xdc00 then some (.string text (some value))
    else if 0xdc00 ≤ value && value < 0xe000 then none
    else some (.string (Char.ofNat value :: text) none)

/-- One character in the mode between tokens. -/
def stepOutside (tokens : List Token) (c : Char) : Option Scan :=
  if isSpace c then some ⟨tokens, .outside⟩
  else if isMark c then some ⟨.mark c :: tokens, .outside⟩
  else if c = '\x22' then some ⟨tokens, .string [] none⟩
  else if isWordChar c then some ⟨tokens, .word [c]⟩
  else none

/-- One character of a text. -/
def step (s : Scan) (c : Char) : Option Scan :=
  match s.mode with
  | .outside => stepOutside s.tokens c
  | .word text =>
    if isWordChar c then some ⟨s.tokens, .word (c :: text)⟩
    else do
      let value ← Json.ofWord? text.reverse
      stepOutside (.scalar value :: s.tokens) c
  | .string text none =>
    if c = '\x22' then some ⟨.scalar (.string (String.ofList text.reverse)) :: s.tokens, .outside⟩
    else if c = '\\' then some ⟨s.tokens, .escape text none⟩
    else if c.toNat < 0x20 then none
    else some ⟨s.tokens, .string (c :: text) none⟩
  | .string text (some high) =>
    if c = '\\' then some ⟨s.tokens, .escape text (some high)⟩ else none
  | .escape text high =>
    if c = 'u' then some ⟨s.tokens, .code text high 0 4⟩
    else if high.isSome then none
    else do
      let plain ← unescape? c
      return ⟨s.tokens, .string (plain :: text) none⟩
  | .code text high value left => do
    let digit ← hexValue? c
    if left ≤ 1 then
      let mode ← endCode? text high (16 * value + digit)
      return ⟨s.tokens, mode⟩
    else return ⟨s.tokens, .code text high (16 * value + digit) (left - 1)⟩

/-- The tokens of a text. -/
def scan (cs : List Char) : Option (List Token) := do
  let s ← cs.foldlM step ⟨[], .outside⟩
  match s.mode with
  | .outside => return s.tokens.reverse
  | .word text =>
    let value ← Json.ofWord? text.reverse
    return (.scalar value :: s.tokens).reverse
  | _ => none

end Token

end BallotProof
