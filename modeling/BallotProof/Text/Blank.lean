/-!
# Blank characters

The characters with the Unicode property White_Space, and the removal of blanks at both ends of a
text.

* `isBlank` decides the property.
* `trim_eq_self` : a text without a blank at either end is left as it is.
-/

namespace BallotProof

namespace Text

/-- The first and last code points of the ranges of White_Space. -/
def blankRanges : List (Nat × Nat) :=
  [(0x9, 0xd), (0x20, 0x20), (0x85, 0x85), (0xa0, 0xa0), (0x1680, 0x1680), (0x2000, 0x200a),
    (0x2028, 0x2029), (0x202f, 0x202f), (0x205f, 0x205f), (0x3000, 0x3000)]

/-- The character is white space. -/
def isBlank (c : Char) : Bool :=
  blankRanges.any fun r => r.1 ≤ c.toNat && c.toNat ≤ r.2

/-- The text without the blanks at its end. -/
def trimEnd (cs : List Char) : List Char :=
  (cs.reverse.dropWhile isBlank).reverse

/-- The text without the blanks at both ends. -/
def trim (cs : List Char) : List Char :=
  trimEnd (cs.dropWhile isBlank)

theorem isBlank_of_isWhitespace {c : Char} (h : c.isWhitespace = true) : isBlank c = true := by
  simp only [Char.isWhitespace, Bool.or_eq_true, decide_eq_true_eq] at h
  rcases h with ((rfl | rfl) | rfl) | rfl <;> decide

theorem dropWhile_eq_nil {bs : List Char} (h : bs.all isBlank = true) :
    bs.dropWhile isBlank = [] := by
  induction bs with
  | nil => rfl
  | cons b bs ih =>
    simp only [List.all_cons, Bool.and_eq_true] at h
    simp [h.1, ih h.2]

theorem trimEnd_append_of_blank {bs : List Char} (h : bs.all isBlank = true) (cs : List Char) :
    trimEnd (cs ++ bs) = trimEnd cs := by
  unfold trimEnd
  rw [List.reverse_append, List.dropWhile_append]
  have : bs.reverse.dropWhile isBlank = [] := dropWhile_eq_nil (by rwa [List.all_reverse])
  simp [this]

theorem trim_append_of_blank {as bs : List Char} (ha : as.all isBlank = true)
    (hb : bs.all isBlank = true) (cs : List Char) : trim (as ++ cs ++ bs) = trim cs := by
  unfold trim
  rw [List.append_assoc, List.dropWhile_append, dropWhile_eq_nil ha, List.isEmpty_nil, if_pos rfl,
    List.dropWhile_append]
  cases hc : (cs.dropWhile isBlank).isEmpty with
  | true => rw [if_pos rfl, dropWhile_eq_nil hb, List.isEmpty_iff.1 hc]
  | false => simpa using trimEnd_append_of_blank hb _

theorem trim_eq_self {cs : List Char} (hhead : ∀ c ∈ cs.head?, isBlank c = false)
    (hlast : ∀ c ∈ cs.getLast?, isBlank c = false) : trim cs = cs := by
  have keep : ∀ ds : List Char, (∀ c ∈ ds.head?, isBlank c = false) →
      ds.dropWhile isBlank = ds := by
    intro ds h
    cases ds with
    | nil => rfl
    | cons d ds => simp [h d (by simp)]
  unfold trim trimEnd
  rw [keep cs hhead, keep cs.reverse (by simpa using hlast), List.reverse_reverse]

end Text

end BallotProof
