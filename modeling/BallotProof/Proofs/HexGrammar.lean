import BallotProof.Proofs.HexText
import Mathlib.Data.List.Forall2
import Mathlib.Data.Nat.Digits.Defs

/-!
# The texts that stand for words

Reading finds the digits of a text by steps on the text: the blanks around it are left out, then one
mark in front, and the number of bytes is made even.  Which digits a text spells can be said without
these steps, and so can the number that digits stand for and the first byte that is no digit.

* `Hex.Spells` relates a text to its digits; `Hex.spells_iff` : reading finds exactly those.
* `Hex.Numeral` relates digits in either case to their positional value, `Hex.FirstDefect` a byte
  string to its first byte that is no digit.  One of the two always applies
  (`Hex.numeral_or_firstDefect`).
* `Hex.decodeFrom_of_numeral`, `Hex.decodeFrom_of_firstDefect` : digits are decoded to their value,
  and the first defect is the one that is reported.
* `Word.ofHex?_exact` : **a text is read as a word exactly if its digits are a numeral that fits**,
  and each of the two errors has exactly its own cause.
-/

namespace BallotProof

/-! ### Blanks around a text -/

namespace Text

/-- The second text is the first one without the blanks at both ends. -/
structure Trimmed (cs core : List Char) : Prop where
  exists_blanks : ∃ before after, cs = before ++ core ++ after ∧
    before.all isBlank = true ∧ after.all isBlank = true
  head : ∀ c ∈ core.head?, isBlank c = false
  last : ∀ c ∈ core.getLast?, isBlank c = false

theorem exists_blanks_dropWhile (cs : List Char) :
    ∃ before, cs = before ++ cs.dropWhile isBlank ∧ before.all isBlank = true :=
  ⟨cs.takeWhile isBlank, List.takeWhile_append_dropWhile.symm, List.all_takeWhile⟩

theorem head?_dropWhile (cs : List Char) :
    ∀ c ∈ (cs.dropWhile isBlank).head?, isBlank c = false := by
  intro c hc
  have h := List.head?_dropWhile_not isBlank cs
  rw [Option.mem_def.1 hc] at h
  simpa using h

theorem trimmed_trim (cs : List Char) : Trimmed cs (trim cs) := by
  obtain ⟨before, hbefore, hblank⟩ := exists_blanks_dropWhile cs
  obtain ⟨after, hafter, hblank'⟩ := exists_blanks_dropWhile (cs.dropWhile isBlank).reverse
  have hsplit : cs.dropWhile isBlank = trim cs ++ after.reverse := by
    rw [trim, trimEnd, ← List.reverse_append, ← hafter, List.reverse_reverse]
  refine ⟨⟨before, after.reverse, ?_, hblank, by rwa [List.all_reverse]⟩, fun c hc => ?_,
    fun c hc => ?_⟩
  · rw [List.append_assoc, ← hsplit, ← hbefore]
  · -- a first character that is left was the first one before the end was cut off
    apply head?_dropWhile cs
    rw [hsplit, List.head?_append, Option.mem_def.1 hc]
    rfl
  · rw [trim, trimEnd, List.getLast?_reverse] at hc
    exact head?_dropWhile _ c hc

theorem trimmed_iff {cs core : List Char} : Trimmed cs core ↔ core = trim cs := by
  constructor
  · rintro ⟨⟨before, after, rfl, hbefore, hafter⟩, hhead, hlast⟩
    rw [trim_append_of_blank hbefore hafter, trim_eq_self hhead hlast]
  · rintro rfl
    exact trimmed_trim cs

end Text

namespace Hex

/-! ### The digits of a text -/

/-- The second text is the first one without one mark in front, if there is a mark. -/
inductive Unmarked : List Char → List Char → Prop
  | lower (rest : List Char) : Unmarked ('0' :: 'x' :: rest) rest
  | upper (rest : List Char) : Unmarked ('0' :: 'X' :: rest) rest
  | plain {cs : List Char} (hlower : ¬ ['0', 'x'] <+: cs) (hupper : ¬ ['0', 'X'] <+: cs) :
    Unmarked cs cs

/-- The bytes are the digits that a text spells: what stands between the blanks and behind a mark,
in UTF-8, and with a zero in front if that makes their number even. -/
def Spells (s : String) (ds : Bytes) : Prop :=
  ∃ core body, Text.Trimmed s.toList core ∧ Unmarked core body ∧
    ds = (if (Bytes.ofString (String.ofList body)).length % 2 = 1 then [0x30] else []) ++
      Bytes.ofString (String.ofList body)

theorem unmarked_iff {cs body : List Char} : Unmarked cs body ↔ body = dropMark cs := by
  constructor
  · rintro (rest | rest | ⟨hlower, hupper⟩)
    · rfl
    · rfl
    · unfold dropMark
      split
      · exact absurd (by simp) hlower
      · exact absurd (by simp) hupper
      · rfl
  · rintro rfl
    unfold dropMark
    split
    · exact .lower _
    · exact .upper _
    · rename_i hlower hupper
      refine .plain (fun h => ?_) (fun h => ?_)
      · obtain ⟨rest, hrest⟩ := h
        exact hlower rest hrest.symm
      · obtain ⟨rest, hrest⟩ := h
        exact hupper rest hrest.symm

theorem ofString_ofList (cs : List Char) : Bytes.ofString (String.ofList cs) = utf8 cs := by
  rw [Bytes.ofString, String.toUTF8, String.toByteArray_ofList, List.utf8Encode, utf8,
    List.data_toByteArray]

/-- **Reading finds exactly the digits that a text spells.** -/
theorem spells_iff {s : String} {ds : Bytes} : Spells s ds ↔ ds = digits s := by
  have hpad : ∀ bytes : Bytes,
      (if bytes.length % 2 = 1 then [0x30] else []) ++ bytes = pad bytes := by
    intro bytes
    rw [pad]
    split <;> rfl
  constructor
  · rintro ⟨core, body, hcore, hbody, rfl⟩
    rw [hpad, ofString_ofList, unmarked_iff.1 hbody, Text.trimmed_iff.1 hcore, digits]
  · rintro rfl
    refine ⟨_, _, Text.trimmed_trim _, unmarked_iff.2 rfl, ?_⟩
    rw [hpad, ofString_ofList, digits]

theorem length_digits (s : String) : (digits s).length % 2 = 0 := by
  rw [digits, pad]
  split
  · rw [List.length_cons]
    omega
  · omega

/-! ### Numerals -/

/-- The lower-case digits. -/
def lowerDigits : List Char :=
  ['0', '1', '2', '3', '4', '5', '6', '7', '8', '9', 'a', 'b', 'c', 'd', 'e', 'f']

/-- The character is the digit with the value, in either case. -/
def DigitValue (c : Char) (v : Nat) : Prop :=
  upperDigits[v]? = some c ∨ lowerDigits[v]? = some c

instance (c : Char) (v : Nat) : Decidable (DigitValue c v) :=
  inferInstanceAs (Decidable (_ ∨ _))

/-- The characters are digits in either case, and the number is their positional value, the first
digit being the most significant one. -/
def Numeral (cs : List Char) (n : Nat) : Prop :=
  ∃ vs, List.Forall₂ DigitValue cs vs ∧ Nat.ofDigits 16 vs.reverse = n

/-- The text whose characters have the bytes as code points. -/
def latin1 (ds : Bytes) : List Char :=
  ds.map fun b => Char.ofNat b.toNat

theorem toNat_char (b : UInt8) : (Char.ofNat b.toNat).toNat = b.toNat := by
  have hlt : b.toNat < 256 := b.toNat_lt
  rw [Char.ofNat, dif_pos (.inl (by omega))]
  rfl

/-- The byte at the position is the first one that is no digit: all before it are digits. -/
def FirstDefect (ds : Bytes) (d : BadDigit) : Prop :=
  ∃ before after, ds = before ++ d.byte :: after ∧ before.length = d.position ∧
    (∃ n, Numeral (latin1 before) n) ∧ ∀ v, ¬ DigitValue (Char.ofNat d.byte.toNat) v

theorem DigitValue.lt {c : Char} {v : Nat} (h : DigitValue c v) : v < 16 := by
  rcases h with h | h
  · exact (List.getElem?_eq_some_iff.1 h).1
  · exact (List.getElem?_eq_some_iff.1 h).1

theorem numeral_nil {n : Nat} : Numeral [] n ↔ n = 0 := by
  simp [Numeral, eq_comm]

theorem numeral_cons {c : Char} {cs : List Char} {n : Nat} :
    Numeral (c :: cs) n ↔
      ∃ v m, DigitValue c v ∧ Numeral cs m ∧ n = 16 ^ cs.length * v + m := by
  constructor
  · rintro ⟨_, hvs, rfl⟩
    obtain ⟨v, vs, hv, hcs, rfl⟩ := List.forall₂_cons_left_iff.1 hvs
    refine ⟨v, _, hv, ⟨vs, hcs, rfl⟩, ?_⟩
    rw [Nat.ofDigits_reverse_cons, hcs.length_eq, Nat.add_comm]
  · rintro ⟨v, m, hv, ⟨vs, hvs, rfl⟩, rfl⟩
    refine ⟨v :: vs, .cons hv hvs, ?_⟩
    rw [Nat.ofDigits_reverse_cons, hvs.length_eq, Nat.add_comm]

theorem digit?_eq_some_iff {b : UInt8} {v : Nat} (hv : v < 16) :
    digit? b = some (UInt8.ofNat v) ↔ DigitValue (Char.ofNat b.toNat) v := by
  have key : ∀ (b : Fin 256) (v : Fin 16),
      digit? (UInt8.ofNat b) = some (UInt8.ofNat v) ↔ DigitValue (Char.ofNat b) v := by
    decide +kernel
  simpa using key ⟨b.toNat, b.toNat_lt⟩ ⟨v, hv⟩

theorem digit?_lt {b v : UInt8} (h : digit? b = some v) : v.toNat < 16 := by
  have key : ∀ b : Fin 256, ∀ v ∈ digit? (UInt8.ofNat b), v.toNat < 16 := by decide +kernel
  exact key ⟨b.toNat, b.toNat_lt⟩ v (by simpa using h)

theorem digitValue_of_digit? {b v : UInt8} (h : digit? b = some v) :
    DigitValue (Char.ofNat b.toNat) v.toNat := by
  rw [← digit?_eq_some_iff (digit?_lt h), UInt8.ofNat_toNat, h]

theorem digit?_eq_none_iff {b : UInt8} :
    digit? b = none ↔ ∀ v, ¬ DigitValue (Char.ofNat b.toNat) v := by
  constructor
  · intro h v hv
    rw [← digit?_eq_some_iff hv.lt, h] at hv
    exact nomatch hv
  · intro h
    cases hd : digit? b with
    | none => rfl
    | some v => exact absurd (digitValue_of_digit? hd) (h v.toNat)

theorem numeral_or_firstDefect (ds : Bytes) :
    (∃ n, Numeral (latin1 ds) n) ∨ ∃ d, FirstDefect ds d := by
  induction ds with
  | nil => exact .inl ⟨0, numeral_nil.2 rfl⟩
  | cons b ds ih =>
    cases hd : digit? b with
    | none =>
      exact .inr ⟨⟨b, 0⟩, [], ds, rfl, rfl, ⟨0, numeral_nil.2 rfl⟩, digit?_eq_none_iff.1 hd⟩
    | some v =>
      have hv := digitValue_of_digit? hd
      rcases ih with ⟨n, hn⟩ | ⟨d, before, after, rfl, hposition, ⟨n, hn⟩, hbad⟩
      · exact .inl ⟨_, numeral_cons.2 ⟨_, n, hv, hn, rfl⟩⟩
      · exact .inr ⟨⟨d.byte, d.position + 1⟩, b :: before, after, rfl,
          by rw [List.length_cons, hposition], ⟨_, numeral_cons.2 ⟨_, n, hv, hn, rfl⟩⟩, hbad⟩

/-! ### Decoding -/

theorem digitAt_of_digitValue {b : UInt8} {v position : Nat}
    (h : DigitValue (Char.ofNat b.toNat) v) : digitAt position b = .ok (UInt8.ofNat v) := by
  rw [digitAt, (digit?_eq_some_iff h.lt).2 h]

theorem digitAt_of_not_digitValue {b : UInt8} {position : Nat}
    (h : ∀ v, ¬ DigitValue (Char.ofNat b.toNat) v) : digitAt position b = .error ⟨b, position⟩ := by
  rw [digitAt, digit?_eq_none_iff.2 h]

/-- **Digits in pairs are decoded to the bytes of their value.** -/
theorem decodeFrom_of_numeral {ds : Bytes} {n : Nat} (position : Nat) (heven : ds.length % 2 = 0)
    (h : Numeral (latin1 ds) n) :
    ∃ bytes, decodeFrom position ds = .ok bytes ∧ 2 * bytes.length = ds.length ∧
      Bytes.toNat bytes = n := by
  fun_induction decodeFrom position ds generalizing n with
  | case1 => exact ⟨[], rfl, rfl, (numeral_nil.1 h).symm⟩
  | case2 => exact absurd heven (by simp)
  | case3 position first second rest ih =>
    obtain ⟨high, m, hhigh, hm, rfl⟩ := numeral_cons.1 h
    obtain ⟨low, k, hlow, hk, rfl⟩ := numeral_cons.1 hm
    simp only [List.length_cons] at heven
    obtain ⟨bytes, hbytes, hlength, hvalue⟩ := ih (by omega) hk
    have hhighLt := hhigh.lt
    have hlowLt := hlow.lt
    have hjoin : (16 * UInt8.ofNat high + UInt8.ofNat low).toNat = 16 * high + low := by
      simp
      omega
    refine ⟨(16 * UInt8.ofNat high + UInt8.ofNat low) :: bytes, ?_, ?_, ?_⟩
    · rw [digitAt_of_digitValue hhigh, digitAt_of_digitValue hlow, hbytes]
      rfl
    · rw [List.length_cons, List.length_cons, List.length_cons, ← hlength, Nat.mul_succ]
    · -- a byte counts as much as its two digits
      have hpow : 16 ^ rest.length = 256 ^ bytes.length := by
        rw [← hlength, Nat.pow_mul]
      rw [Bytes.toNat_cons, hjoin, hvalue]
      simp only [List.length_map, List.length_cons, Nat.pow_succ, hpow]
      ring

/-- **The first defect is the one that is reported.** -/
theorem decodeFrom_of_firstDefect {ds : Bytes} {d : BadDigit} (position : Nat)
    (h : FirstDefect ds d) :
    decodeFrom position ds = .error ⟨d.byte, position + d.position⟩ := by
  obtain ⟨before, after, hds, hposition, ⟨n, hn⟩, hbad⟩ := h
  rw [← hposition]
  clear hposition
  fun_induction decodeFrom position ds generalizing before n with
  | case1 => exact absurd hds (by simp)
  | case2 position last =>
    cases before with
    | nil =>
      obtain ⟨rfl, -⟩ := List.cons.inj hds
      rw [digitAt_of_not_digitValue hbad]
      rfl
    | cons first before => exact absurd hds (by simp)
  | case3 position first second rest ih =>
    match before with
    | [] =>
      obtain ⟨rfl, -⟩ := List.cons.inj hds
      rw [digitAt_of_not_digitValue hbad]
      rfl
    | [high] =>
      simp only [List.cons_append, List.nil_append, List.cons.injEq] at hds
      obtain ⟨rfl, rfl, -⟩ := hds
      obtain ⟨v, -, hv, -, -⟩ := numeral_cons.1 hn
      rw [digitAt_of_digitValue hv, digitAt_of_not_digitValue hbad]
      rfl
    | high :: low :: before =>
      simp only [List.cons_append, List.cons.injEq] at hds
      obtain ⟨rfl, rfl, hrest⟩ := hds
      obtain ⟨v, m, hv, hm, -⟩ := numeral_cons.1 hn
      obtain ⟨w, k, hw, hk, -⟩ := numeral_cons.1 hm
      rw [digitAt_of_digitValue hv, digitAt_of_digitValue hw, ih before hrest k hk,
        List.length_cons, List.length_cons, Nat.add_assoc, Nat.add_comm 2]
      rfl

end Hex

/-! ### Words -/

namespace Word

variable {s : String}

theorem ofHex?_of_numeral {n : Nat} (h : Hex.Numeral (Hex.latin1 (Hex.digits s)) n) :
    ofHex? s = if n < limit then .ok (ofNat n) else .error .overflow := by
  obtain ⟨bytes, hbytes, -, rfl⟩ := Hex.decodeFrom_of_numeral 0 (Hex.length_digits s) h
  rw [ofHex?, Hex.decode, hbytes, mapError_ok_bind]
  split
  · rename_i hlt
    exact ofBytes?_eq_ok hlt
  · rename_i hle
    exact ofBytes?_eq_overflow (Nat.not_lt.1 hle)

theorem ofHex?_of_firstDefect {d : BadDigit} (h : Hex.FirstDefect (Hex.digits s) d) :
    ofHex? s = .error (.badDigit d) := by
  rw [ofHex?, Hex.decode, Hex.decodeFrom_of_firstDefect 0 h, Nat.zero_add]
  rfl

theorem ofHex?_eq_ok_iff {w : Word} :
    ofHex? s = .ok w ↔ Hex.Numeral (Hex.latin1 (Hex.digits s)) w.toNat := by
  constructor
  · intro h
    rcases Hex.numeral_or_firstDefect (Hex.digits s) with ⟨n, hn⟩ | ⟨d, hd⟩
    · rw [ofHex?_of_numeral hn] at h
      split at h
      · rename_i hlt
        obtain rfl := Except.ok.inj h
        rwa [toNat_ofNat_of_lt hlt]
      · exact nomatch h
    · rw [ofHex?_of_firstDefect hd] at h
      exact nomatch h
  · intro h
    rw [ofHex?_of_numeral h, if_pos w.toNat_lt, ofNat_toNat]

theorem ofHex?_eq_overflow_iff :
    ofHex? s = .error .overflow ↔
      ∃ n, limit ≤ n ∧ Hex.Numeral (Hex.latin1 (Hex.digits s)) n := by
  constructor
  · intro h
    rcases Hex.numeral_or_firstDefect (Hex.digits s) with ⟨n, hn⟩ | ⟨d, hd⟩
    · refine ⟨n, Nat.not_lt.1 fun hlt => ?_, hn⟩
      rw [ofHex?_of_numeral hn, if_pos hlt] at h
      exact nomatch h
    · rw [ofHex?_of_firstDefect hd] at h
      exact nomatch h
  · rintro ⟨n, hle, hn⟩
    rw [ofHex?_of_numeral hn, if_neg (Nat.not_lt.2 hle)]

theorem ofHex?_eq_badDigit_iff {d : BadDigit} :
    ofHex? s = .error (.badDigit d) ↔ Hex.FirstDefect (Hex.digits s) d := by
  constructor
  · intro h
    rcases Hex.numeral_or_firstDefect (Hex.digits s) with ⟨n, hn⟩ | ⟨d', hd'⟩
    · rw [ofHex?_of_numeral hn] at h
      split at h
      · exact nomatch h
      · exact nomatch h
    · rw [ofHex?_of_firstDefect hd'] at h
      obtain rfl := WordError.badDigit.inj (Except.error.inj h)
      exact hd'
  · exact ofHex?_of_firstDefect

/-- **A text is read as a word exactly if its digits are a numeral that fits.**  Every text spells
exactly one byte string of digits, and their number is even.  The text is read as the value of the
digits, however many zeros are in front; it is too large if they are a numeral of more than 4096
bits; and a byte that is no digit is reported, as the character with this code point and with its
position, exactly if it is the first one, also where there are too many digits. -/
theorem ofHex?_exact (s : String) :
    ∃ ds : Bytes, (∀ es, Hex.Spells s es ↔ es = ds) ∧ ds.length % 2 = 0 ∧
      (∀ w, ofHex? s = .ok w ↔ Hex.Numeral (Hex.latin1 ds) w.toNat) ∧
      (ofHex? s = .error .overflow ↔ ∃ n, 2 ^ (8 * width) ≤ n ∧ Hex.Numeral (Hex.latin1 ds) n) ∧
      (∀ d, ofHex? s = .error (.badDigit d) ↔ Hex.FirstDefect ds d) ∧
      WordError.overflow.message = "integer does not fit in 512 bytes" ∧
      ∀ d : BadDigit, ∃ c : Char, c.toNat = d.byte.toNat ∧ (WordError.badDigit d).message =
        "Invalid character " ++ Text.quoteChar c ++ " at position " ++ toString d.position := by
  refine ⟨Hex.digits s, fun _ => Hex.spells_iff, Hex.length_digits s, fun _ => ofHex?_eq_ok_iff,
    ?_, fun _ => ofHex?_eq_badDigit_iff, rfl, fun d => ⟨_, Hex.toNat_char d.byte, rfl⟩⟩
  rw [ofHex?_eq_overflow_iff, limit_eq_two_pow]

end Word

end BallotProof
