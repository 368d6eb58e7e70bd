import BallotProof.Text.Unprintable

/-!
# Quoted text

How characters and texts are written between quotation marks in messages and events: the mark and
the backslash get a backslash, five control characters have a short spelling, and every other
character that does not show is spelled by its code point.

* `quote` writes a text between double marks, `quoteChar` a character between single marks.
* `quoteList` and `quotePairs` write lists of names and of named outcomes.
* `quote_of_plain` : a text without such characters stands between the marks as it is.
-/

namespace BallotProof

namespace Text

/-- The double quotation mark. -/
def doubleMark : Char := '\x22'

/-- The single quotation mark. -/
def singleMark : Char := '\x27'

/-- The code point of `c` in lower-case hex, between `\u` and braces. -/
def codePoint (c : Char) : List Char :=
  ['\\', 'u', '\x7b'] ++ Nat.toDigits 16 c.toNat ++ ['\x7d']

/-- The spelling of `c` between two `mark`s. -/
def escape (mark c : Char) : List Char :=
  if c = '\x00' then ['\\', '0']
  else if c = '\t' then ['\\', 't']
  else if c = '\r' then ['\\', 'r']
  else if c = '\n' then ['\\', 'n']
  else if c = '\\' || c = mark then ['\\', c]
  else if isUnprintable c then codePoint c
  else [c]

/-- A text between double quotation marks. -/
def quote (s : String) : String :=
  String.ofList (doubleMark :: s.toList.flatMap (escape doubleMark) ++ [doubleMark])

/-- A character between single quotation marks. -/
def quoteChar (c : Char) : String :=
  String.ofList (singleMark :: escape singleMark c ++ [singleMark])

/-- Items between brackets, separated by a comma and a space. -/
def bracketed (items : List String) : String :=
  "[" ++ ", ".intercalate items ++ "]"

/-- A list of quoted names. -/
def quoteList (names : List String) : String :=
  bracketed (names.map quote)

/-- A list of quoted names with an outcome each. -/
def quotePairs (items : List (String × Bool)) : String :=
  bracketed (items.map fun item =>
    "(" ++ quote item.1 ++ ", " ++ (if item.2 then "true" else "false") ++ ")")

/-- The character stands for itself between double marks. -/
def isPlain (c : Char) : Bool :=
  0x20 ≤ c.toNat && c.toNat ≤ 0x7e && c != doubleMark && c != '\\'

theorem escape_of_plain {c : Char} (h : isPlain c = true) : escape doubleMark c = [c] := by
  simp only [isPlain, Bool.and_eq_true, decide_eq_true_eq, bne_iff_ne] at h
  obtain ⟨⟨⟨hlo, hhi⟩, hmark⟩, hslash⟩ := h
  have low {d : Char} (hd : d.toNat < 0x20) : c ≠ d := by
    rintro rfl
    omega
  simp [escape, low (d := '\x00') (by decide), low (d := '\t') (by decide),
    low (d := '\r') (by decide), low (d := '\n') (by decide), hmark, hslash,
    isUnprintable_ascii hlo hhi]

/-- A plain text stands between the marks as it is. -/
theorem quote_of_plain {s : String} (h : s.toList.all isPlain = true) :
    quote s = String.ofList (doubleMark :: s.toList ++ [doubleMark]) := by
  have : s.toList.flatMap (escape doubleMark) = s.toList := by
    generalize s.toList = cs at h
    induction cs with
    | nil => rfl
    | cons c cs ih =>
      simp only [List.all_cons, Bool.and_eq_true] at h
      rw [List.flatMap_cons, escape_of_plain h.1, ih h.2]
      rfl
  rw [quote, this]

end Text

end BallotProof
