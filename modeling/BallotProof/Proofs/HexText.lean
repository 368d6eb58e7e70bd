import BallotProof.Hex

/-!
# The canonical hex text of a word

Reading is lenient, so many texts stand for the same word.  One of them is the text that is written:
upper-case digits, two for each byte, and no zero byte in front of another one.

* `Hex.IsCanonical` says of a text that it has this form.
* `Word.isCanonical_toHex` : every word is written in it.
* `Hex.digits_of_isCanonical` : of a canonical text, reading takes every character as a digit.
* `Word.ofHex?_toHex` : **what is written is read back.**
-/

namespace BallotProof

theorem mapError_ok_bind {ε ε' α β : Type} (f : ε → ε') (a : α) (next : α → Except ε' β) :
    ((Except.ok a).mapError f >>= next) = next a := rfl

namespace Hex

/-- The digits that are written. -/
def upperDigits : List Char :=
  ['0', '1', '2', '3', '4', '5', '6', '7', '8', '9', 'A', 'B', 'C', 'D', 'E', 'F']

/-- Upper-case digits, two for each byte and at least one byte, with no zero byte in front unless
it is the only one. -/
structure IsCanonical (s : String) : Prop where
  upper : ∀ c ∈ s.toList, c ∈ upperDigits
  even : s.toList.length % 2 = 0
  nonempty : s ≠ ""
  no_zero_byte : ['0', '0'] <+: s.toList → s = "00"

/-! ### Characters of digits -/

theorem of_mem_upperDigits {c : Char} (h : c ∈ upperDigits) :
    Text.isBlank c = false ∧ (c ≠ 'x' ∧ c ≠ 'X') ∧ (String.utf8EncodeChar c).length = 1 := by
  have hall : upperDigits.all fun c =>
      decide (Text.isBlank c = false ∧ (c ≠ 'x' ∧ c ≠ 'X') ∧
        (String.utf8EncodeChar c).length = 1) := by decide
  exact of_decide_eq_true (List.all_eq_true.1 hall c h)

theorem char_digit {v : UInt8} (h : v < 16) :
    Char.ofNat (digit v).toNat ∈ upperDigits ∧
      String.utf8EncodeChar (Char.ofNat (digit v).toNat) = [digit v] ∧
      (Char.ofNat (digit v).toNat = '0' → v = 0) := by
  have key : ∀ n : Fin 16, Char.ofNat (digit (UInt8.ofNat n)).toNat ∈ upperDigits ∧
      String.utf8EncodeChar (Char.ofNat (digit (UInt8.ofNat n)).toNat) = [digit (UInt8.ofNat n)] ∧
      (Char.ofNat (digit (UInt8.ofNat n)).toNat = '0' → UInt8.ofNat n = 0) := by decide
  have hv : v.toNat < 16 := UInt8.lt_iff_toNat_lt.1 h
  simpa using key ⟨v.toNat, hv⟩

theorem exists_digit_of_mem_encode {bytes : Bytes} {b : UInt8} (h : b ∈ encode bytes) :
    ∃ v < 16, b = digit v := by
  obtain ⟨a, -, hb⟩ := List.mem_flatMap.1 h
  obtain ⟨high, low⟩ := halves_lt a
  simp only [List.mem_cons, List.not_mem_nil, or_false] at hb
  rcases hb with rfl | rfl
  · exact ⟨_, high, rfl⟩
  · exact ⟨_, low, rfl⟩

theorem utf8_map_encode (bytes : Bytes) :
    utf8 ((encode bytes).map fun b => Char.ofNat b.toNat) = encode bytes := by
  have hall : ∀ b ∈ encode bytes, String.utf8EncodeChar (Char.ofNat b.toNat) = [b] := by
    intro b hb
    obtain ⟨v, hv, rfl⟩ := exists_digit_of_mem_encode hb
    exact (char_digit hv).2.1
  revert hall
  generalize encode bytes = digits
  intro hall
  induction digits with
  | nil => rfl
  | cons b digits ih =>
    rw [List.forall_mem_cons] at hall
    have := ih hall.2
    rw [List.map_cons, utf8, List.flatMap_cons, hall.1, ← utf8, this, List.singleton_append]

/-! ### Reading a canonical text -/

theorem dropMark_eq_self {cs : List Char} (h : ∀ c ∈ cs, c ≠ 'x' ∧ c ≠ 'X') : dropMark cs = cs := by
  unfold dropMark
  split
  · exact absurd rfl (h 'x' (by simp)).1
  · exact absurd rfl (h 'X' (by simp)).2
  · rfl

theorem length_utf8 {cs : List Char} (h : ∀ c ∈ cs, c ∈ upperDigits) :
    (utf8 cs).length = cs.length := by
  induction cs with
  | nil => rfl
  | cons c cs ih =>
    rw [List.forall_mem_cons] at h
    rw [utf8, List.flatMap_cons, List.length_append, ← utf8, ih h.2, (of_mem_upperDigits h.1).2.2,
      List.length_cons, Nat.add_comm]

theorem digits_of_isCanonical {s : String} (h : IsCanonical s) : digits s = utf8 s.toList := by
  have hblank : ∀ c ∈ s.toList, Text.isBlank c = false :=
    fun c hc => (of_mem_upperDigits (h.upper c hc)).1
  have hmark : ∀ c ∈ s.toList, c ≠ 'x' ∧ c ≠ 'X' :=
    fun c hc => (of_mem_upperDigits (h.upper c hc)).2.1
  have htrim : Text.trim s.toList = s.toList :=
    Text.trim_eq_self (fun c hc => hblank c (List.mem_of_mem_head? hc))
      fun c hc => hblank c (List.mem_of_mem_getLast? hc)
  have heven : ¬ (utf8 s.toList).length % 2 = 1 := by
    rw [length_utf8 h.upper, h.even]
    decide
  rw [digits, htrim, dropMark_eq_self hmark, pad, if_neg heven]

end Hex

namespace Word

theorem toNat_significant (bytes : Bytes) :
    Bytes.toNat (significant bytes) = Bytes.toNat bytes := by
  have hdrop : Bytes.toNat (bytes.dropWhile (· == 0)) = Bytes.toNat bytes := by
    induction bytes with
    | nil => rfl
    | cons b bytes ih =>
      by_cases hb : b = 0
      · subst hb
        rw [List.dropWhile_cons_of_pos (by rfl), ih]
        simp
      · rw [List.dropWhile_cons_of_neg (by simpa using hb)]
  rw [← hdrop, significant]
  split
  · rename_i h
    rw [h]
    rfl
  · rfl

/-- At least one byte is written, and a zero byte in front is the only one. -/
theorem significant_eq_cons (bytes : Bytes) :
    ∃ b rest, significant bytes = b :: rest ∧ (b = 0 → rest = []) := by
  rw [significant]
  cases h : bytes.dropWhile (· == 0) with
  | nil => exact ⟨0, [], rfl, fun _ => rfl⟩
  | cons b rest =>
    refine ⟨b, rest, rfl, fun hb => ?_⟩
    have hhead := List.head?_dropWhile_not (· == 0) bytes
    rw [h] at hhead
    simp [hb] at hhead

theorem toList_toHex (w : Word) :
    w.toHex.toList = (Hex.encode (significant w.toBytes)).map fun b => Char.ofNat b.toNat :=
  String.toList_ofList

theorem isCanonical_toHex (w : Word) : Hex.IsCanonical w.toHex := by
  obtain ⟨b, rest, hbytes, hzero⟩ := significant_eq_cons w.toBytes
  have htext := toList_toHex w
  refine ⟨fun c hc => ?_, ?_, fun hempty => ?_, fun hprefix => ?_⟩
  · rw [htext] at hc
    obtain ⟨d, hd, rfl⟩ := List.mem_map.1 hc
    obtain ⟨v, hv, rfl⟩ := Hex.exists_digit_of_mem_encode hd
    exact (Hex.char_digit hv).1
  · rw [htext, List.length_map, Hex.length_encode, Nat.mul_mod_right]
  · rw [hempty, hbytes] at htext
    exact nomatch htext
  · -- both digits of the first byte are zero, and so is the byte
    obtain ⟨high, low⟩ := Hex.halves_lt b
    rw [htext, hbytes] at hprefix
    obtain ⟨hhigh, htail⟩ := List.cons_prefix_cons.1 hprefix
    obtain ⟨hlow, -⟩ := List.cons_prefix_cons.1 htail
    have hhigh0 := (Hex.char_digit high).2.2 hhigh.symm
    have hlow0 := (Hex.char_digit low).2.2 hlow.symm
    have hb : b = 0 := by
      apply UInt8.toNat_inj.1
      have h1 := congrArg UInt8.toNat hhigh0
      have h2 := congrArg UInt8.toNat hlow0
      simp at h1 h2 ⊢
      omega
    rw [hbytes, hb, hzero hb] at htext
    exact String.toList_inj.1 htext

/-- **What is written is read back.** -/
theorem ofHex?_toHex (w : Word) : ofHex? w.toHex = .ok w := by
  have hdigits : Hex.digits w.toHex = Hex.encode (significant w.toBytes) := by
    rw [Hex.digits_of_isCanonical (isCanonical_toHex w), toList_toHex, Hex.utf8_map_encode]
  have hvalue : Bytes.toNat (significant w.toBytes) = w.toNat := by
    rw [toNat_significant, toNat_toBytes]
  rw [ofHex?, hdigits, Hex.decode_encode, mapError_ok_bind, ofBytes?_eq_ok (hvalue ▸ w.toNat_lt),
    hvalue, ofNat_toNat]

end Word

end BallotProof
