import BallotProof.Proofs.HexGrammar
import Mathlib.Data.Bool.AllAny

/-!
# The spellings of a word

Many texts are read as the same word: blanks around, a mark, zeros in front and the case of letters
do not count.  Exactly one of them is canonical, and it is the one that is written.

* `Word.ofHex?_eq_ok_iff_numeral` : what is read is the value of the characters between the blanks
  and behind a mark.
* `Hex.Numeral.replace` : digits can be replaced by others of the same values, so their case does
  not count.
* `Hex.IsCanonical.ext` : two canonical texts with the same value are equal, because the value
  determines the number of digits.
* `Hex.Respells` says how digits can be spelled, and `Hex.canonical` takes a text to its canonical
  form without computing a value.
* `Word.toHex_canonical` : **the written text is canonical, all its spellings are read back, and it
  is the canonical form of whatever is read.**
-/

namespace BallotProof

namespace Hex

variable {c : Char} {cs ds : List Char} {n v : Nat}

/-! ### Digits and bytes of a text -/

theorem of_mem_lowerDigits (h : c ∈ lowerDigits) :
    Text.isBlank c = false ∧ (c ≠ 'x' ∧ c ≠ 'X') ∧ c.toLower = c := by
  -- `decide` on the statement itself can go through every code point instead of the list
  have hall : ∀ c ∈ lowerDigits,
      Text.isBlank c = false ∧ (c ≠ 'x' ∧ c ≠ 'X') ∧ c.toLower = c :=
    List.all_iff_forall_prop.1 (by decide)
  exact hall c h

theorem toUpper_eq_self (h : c ∈ upperDigits) : c.toUpper = c := by
  have hall : ∀ c ∈ upperDigits, c.toUpper = c := List.all_iff_forall_prop.1 (by decide)
  exact hall c h

theorem DigitValue.toNat_lt (h : DigitValue c v) : c.toNat < 128 := by
  have hall : ∀ c ∈ upperDigits ++ lowerDigits, c.toNat < 128 :=
    List.all_iff_forall_prop.1 (by decide)
  refine hall c (List.mem_append.2 ?_)
  rcases h with h | h
  · exact .inl (List.mem_of_getElem? h)
  · exact .inr (List.mem_of_getElem? h)

theorem Numeral.exists_digitValue (h : Numeral cs n) : ∀ c ∈ cs, ∃ v, DigitValue c v := by
  induction cs generalizing n with
  | nil => simp
  | cons c cs ih =>
    obtain ⟨v, m, hv, hm, -⟩ := numeral_cons.1 h
    exact List.forall_mem_cons.2 ⟨⟨v, hv⟩, ih hm⟩

theorem Numeral.toNat_lt (h : Numeral cs n) : ∀ c ∈ cs, c.toNat < 128 := by
  intro c hc
  obtain ⟨v, hv⟩ := h.exists_digitValue c hc
  exact hv.toNat_lt

theorem utf8EncodeChar_of_lt (h : c.toNat < 128) :
    ∃ b, String.utf8EncodeChar c = [b] ∧ Char.ofNat b.toNat = c := by
  refine ⟨UInt8.ofNat c.toNat, ?_, ?_⟩
  · simp [String.utf8EncodeChar, Nat.le_of_lt_succ h]
  · rw [UInt8.toNat_ofNat_of_lt' (h.trans (by decide)), Char.ofNat_toNat]

theorem utf8EncodeChar_of_le (h : 128 ≤ c.toNat) :
    ∃ b rest, String.utf8EncodeChar c = b :: rest ∧ 128 ≤ b.toNat := by
  simp only [String.utf8EncodeChar]
  split
  · rename_i hle
    exact absurd (Nat.lt_of_lt_of_le h hle) (by decide)
  -- the first byte of a longer sequence has its top bit set
  · split
    · refine ⟨_, _, rfl, ?_⟩
      simp
      omega
    · split
      · refine ⟨_, _, rfl, ?_⟩
        simp
        omega
      · refine ⟨_, _, rfl, ?_⟩
        simp
        omega

theorem latin1_utf8 (h : ∀ c ∈ cs, c.toNat < 128) : latin1 (utf8 cs) = cs := by
  induction cs with
  | nil => rfl
  | cons c cs ih =>
    rw [List.forall_mem_cons] at h
    obtain ⟨b, hc, hb⟩ := utf8EncodeChar_of_lt h.1
    rw [utf8, List.flatMap_cons, hc, List.singleton_append, latin1, List.map_cons, hb, ← latin1,
      ← utf8, ih h.2]

theorem toNat_lt_of_latin1_utf8 (h : ∀ c ∈ latin1 (utf8 cs), c.toNat < 128) :
    ∀ c ∈ cs, c.toNat < 128 := by
  intro c hc
  by_contra hle
  obtain ⟨b, rest, hbytes, hb⟩ := utf8EncodeChar_of_le (Nat.not_lt.1 hle)
  have hmem : b ∈ utf8 cs := List.mem_flatMap.2 ⟨c, hc, by simp [hbytes]⟩
  have hlt := h _ (List.mem_map_of_mem hmem)
  rw [toNat_char] at hlt
  omega

theorem numeral_latin1_utf8 : Numeral (latin1 (utf8 cs)) n ↔ Numeral cs n := by
  constructor
  · intro h
    rwa [latin1_utf8 (toNat_lt_of_latin1_utf8 h.toNat_lt)] at h
  · intro h
    rwa [latin1_utf8 h.toNat_lt]

/-! ### The value of a numeral -/

theorem digitValue_zero : DigitValue '0' v ↔ v = 0 := by
  have key : ∀ v < 16, DigitValue '0' v ↔ v = 0 := by decide
  constructor
  · intro h
    exact (key v h.lt).1 h
  · rintro rfl
    exact (key 0 (by decide)).2 rfl

@[simp] theorem numeral_zero_cons : Numeral ('0' :: cs) n ↔ Numeral cs n := by
  simp [numeral_cons, digitValue_zero]

@[simp] theorem numeral_zeros_append {zeros : Nat} :
    Numeral (List.replicate zeros '0' ++ cs) n ↔ Numeral cs n := by
  induction zeros with
  | zero => simp
  | succ zeros ih => simp [List.replicate_succ, ih]

theorem numeral_dropWhile : Numeral (cs.dropWhile (· = '0')) n ↔ Numeral cs n := by
  induction cs with
  | nil => rfl
  | cons c cs ih =>
    by_cases hc : c = '0'
    · subst hc
      simp [ih]
    · simp [hc]

theorem numeral_pad {ds : Bytes} : Numeral (latin1 (pad ds)) n ↔ Numeral (latin1 ds) n := by
  rw [pad]
  split
  · exact numeral_zero_cons
  · rfl

theorem Numeral.lt_pow (h : Numeral cs n) : n < 16 ^ cs.length := by
  induction cs generalizing n with
  | nil => simp [numeral_nil.1 h]
  | cons c cs ih =>
    obtain ⟨v, m, hv, hm, rfl⟩ := numeral_cons.1 h
    calc 16 ^ cs.length * v + m
      _ < 16 ^ cs.length * v + 16 ^ cs.length := Nat.add_lt_add_left (ih hm) _
      _ = 16 ^ cs.length * (v + 1) := (Nat.mul_succ ..).symm
      _ ≤ 16 ^ cs.length * 16 := Nat.mul_le_mul_left _ hv.lt
      _ = 16 ^ (c :: cs).length := (Nat.pow_succ ..).symm

theorem Numeral.pow_le (h : Numeral (c :: cs) n) (hc : c ≠ '0') : 16 ^ cs.length ≤ n := by
  obtain ⟨v, m, hv, -, rfl⟩ := numeral_cons.1 h
  have hpos : 0 < v := by
    refine Nat.pos_of_ne_zero fun hzero => hc ?_
    subst hzero
    simpa [DigitValue, upperDigits, lowerDigits, eq_comm] using hv
  exact Nat.le_add_right_of_le (Nat.le_mul_of_pos_right _ hpos)

/-! ### Upper and lower case -/

theorem DigitValue.toUpper (h : DigitValue c v) : upperDigits[v]? = some c.toUpper := by
  rcases h with h | h
  · rw [toUpper_eq_self (List.mem_of_getElem? h), h]
  · rw [show upperDigits = lowerDigits.map Char.toUpper by decide, List.getElem?_map, h,
      Option.map_some]

theorem DigitValue.toLower (h : DigitValue c v) : lowerDigits[v]? = some c.toLower := by
  rcases h with h | h
  · rw [show lowerDigits = upperDigits.map Char.toLower by decide, List.getElem?_map, h,
      Option.map_some]
  · rw [(of_mem_lowerDigits (List.mem_of_getElem? h)).2.2, h]

theorem Numeral.replace (h : Numeral cs n)
    (hds : List.Forall₂ (fun c d => ∀ v, DigitValue c v → DigitValue d v) cs ds) :
    Numeral ds n := by
  induction hds generalizing n with
  | nil => exact h
  | cons hcd hds ih =>
    obtain ⟨v, m, hv, hm, rfl⟩ := numeral_cons.1 h
    exact numeral_cons.2 ⟨v, m, hcd v hv, ih hm, by rw [hds.length_eq]⟩

theorem Numeral.map_toUpper (h : Numeral cs n) : Numeral (cs.map Char.toUpper) n := by
  refine h.replace (List.forall₂_map_right_iff.2 (List.forall₂_same.2 fun c _ v hv => ?_))
  exact .inl hv.toUpper

theorem Numeral.mem_upperDigits (h : Numeral cs n) :
    ∀ c ∈ cs.map Char.toUpper, c ∈ upperDigits := by
  rw [List.forall_mem_map]
  intro c hc
  obtain ⟨v, hv⟩ := h.exists_digitValue c hc
  exact List.mem_of_getElem? hv.toUpper

theorem Numeral.eq_of_length_eq (hcs : Numeral cs n) (hds : Numeral ds n)
    (hlength : cs.length = ds.length) (hupper : ∀ c ∈ cs, c ∈ upperDigits)
    (hupper' : ∀ c ∈ ds, c ∈ upperDigits) : cs = ds := by
  induction cs generalizing ds n with
  | nil => exact (List.eq_nil_of_length_eq_zero hlength.symm).symm
  | cons c cs ih =>
    obtain ⟨d, ds, rfl⟩ := List.exists_cons_of_length_eq_add_one hlength.symm
    rw [List.forall_mem_cons] at hupper hupper'
    have hlen : cs.length = ds.length := Nat.succ.inj hlength
    obtain ⟨v, m, hv, hm, rfl⟩ := numeral_cons.1 hcs
    obtain ⟨w, k, hw, hk, heq⟩ := numeral_cons.1 hds
    rw [← hlen] at heq
    -- the first digit is the quotient by the place value, and the others are the remainder
    have hvw : v = w := by
      have hdiv := congrArg (· / 16 ^ cs.length) heq
      simpa [Nat.mul_add_div, Nat.div_eq_of_lt hm.lt_pow, Nat.div_eq_of_lt (hlen ▸ hk.lt_pow)]
        using hdiv
    subst hvw
    have hmk : m = k := Nat.add_left_cancel heq
    subst hmk
    have hc := hv.toUpper
    rw [hw.toUpper, toUpper_eq_self hupper.1, toUpper_eq_self hupper'.1] at hc
    rw [Option.some.inj hc, ih hm hk hlen hupper.2 hupper'.2]

/-! ### Canonical texts -/

namespace IsCanonical

variable {s t : String}

theorem two_le_length (h : IsCanonical s) : 2 ≤ s.toList.length := by
  have hne : s.toList.length ≠ 0 := fun hzero =>
    h.nonempty (String.toList_eq_nil_iff.1 (List.eq_nil_of_length_eq_zero hzero))
  have heven := h.even
  omega

/-- No byte could be left out. -/
theorem pow_le (h : IsCanonical s) (hn : Numeral s.toList n) (hlength : 2 < s.toList.length) :
    16 ^ (s.toList.length - 2) ≤ n := by
  obtain ⟨c, cs, hcs⟩ := List.exists_cons_of_length_pos (Nat.lt_trans Nat.two_pos hlength)
  by_cases hc : c = '0'
  · subst hc
    obtain ⟨d, ds, rfl⟩ : ∃ d ds, cs = d :: ds := List.exists_cons_of_length_pos (by
      rw [hcs] at hlength
      simp at hlength
      omega)
    rw [hcs] at hn ⊢
    refine (numeral_zero_cons.1 hn).pow_le fun hd => ?_
    -- two zeros in front are the whole text
    have hzero := h.no_zero_byte (by simp [hcs, hd])
    rw [hzero] at hlength
    exact absurd hlength (by decide)
  · rw [hcs] at hn ⊢
    exact (Nat.pow_le_pow_right (by decide) (by simp)).trans (hn.pow_le hc)

theorem length_le (hs : IsCanonical s) (ht : IsCanonical t) (hns : Numeral s.toList n)
    (hnt : Numeral t.toList n) : s.toList.length ≤ t.toList.length := by
  by_contra hlt
  have htwo := ht.two_le_length
  have hseven := hs.even
  have hteven := ht.even
  have hpow := (hs.pow_le hns (by omega)).trans_lt hnt.lt_pow
  rw [Nat.pow_lt_pow_iff_right (by decide)] at hpow
  omega

/-- **Canonical texts with the same value are equal.** -/
theorem ext (hs : IsCanonical s) (ht : IsCanonical t) (hns : Numeral s.toList n)
    (hnt : Numeral t.toList n) : s = t :=
  String.toList_inj.1 (hns.eq_of_length_eq hnt
    (Nat.le_antisymm (length_le hs ht hns hnt) (length_le ht hs hnt hns)) hs.upper ht.upper)

end IsCanonical

theorem isCanonical_zero : IsCanonical "00" :=
  ⟨List.all_iff_forall_prop.1 (by decide), by decide, by decide, fun _ => rfl⟩

theorem numeral_zero : Numeral "00".toList n ↔ n = 0 := by
  rw [show "00".toList = ['0', '0'] by decide, numeral_zero_cons, numeral_zero_cons, numeral_nil]

/-- The digits in front of which no zero stands, filled up with zeros to whole bytes and to at least
one byte. -/
def fill (digits : List Char) : List Char :=
  if digits = [] then ['0', '0']
  else if digits.length % 2 = 1 then '0' :: digits
  else digits

/-- The canonical form of a text: what stands between the blanks and behind a mark, in upper case,
without zeros in front and then filled up to whole bytes. -/
def canonical (s : String) : String :=
  let body := dropMark (Text.trim s.toList)
  String.ofList (fill ((body.map Char.toUpper).dropWhile (· = '0')))

theorem numeral_fill : Numeral (fill cs) n ↔ Numeral cs n := by
  rw [fill]
  split
  · simp [*]
  · split <;> simp

theorem isCanonical_fill (hupper : ∀ c ∈ cs, c ∈ upperDigits) (hhead : cs.head? ≠ some '0') :
    IsCanonical (String.ofList (fill cs)) := by
  have hzero : '0' ∈ upperDigits := by decide
  cases cs with
  | nil => exact isCanonical_zero
  | cons c cs =>
    have hc : c ≠ '0' := by simpa using hhead
    rw [fill, if_neg (List.cons_ne_nil c cs)]
    split
    · rename_i hodd
      refine ⟨?_, ?_, ?_, fun hprefix => absurd hprefix ?_⟩
      · simpa [hzero] using hupper
      · simp only [String.toList_ofList, List.length_cons] at hodd ⊢
        omega
      · simp [← String.toList_inj]
      · simpa [List.cons_prefix_cons] using hc.symm
    · rename_i heven
      refine ⟨?_, ?_, ?_, fun hprefix => absurd hprefix ?_⟩
      · simpa using hupper
      · rw [String.toList_ofList]
        omega
      · simp [← String.toList_inj]
      · simp [List.cons_prefix_cons, hc.symm]

theorem isCanonical_canonical {s : String} (h : Numeral (dropMark (Text.trim s.toList)) n) :
    IsCanonical (canonical s) ∧ Numeral (canonical s).toList n := by
  constructor
  · refine isCanonical_fill (fun c hc => ?_) ?_
    · exact h.mem_upperDigits c (List.dropWhile_sublist _ |>.mem hc)
    · intro hhead
      have := List.head?_dropWhile_not (· = '0')
        ((dropMark (Text.trim s.toList)).map Char.toUpper)
      simp [hhead] at this
  · rw [canonical, String.toList_ofList, numeral_fill, numeral_dropWhile]
    exact h.map_toUpper

/-! ### Spellings -/

/-- The letter is the same digit in upper or lower case. -/
def SameLetter (c d : Char) : Prop :=
  d = c ∨ d = c.toLower

/-- The text spells the digits: they stand in it in either case, behind any number of zeros and
perhaps a mark, and with blanks around. -/
inductive Respells (digits : List Char) : String → Prop
  | intro {before mark letters after : List Char} {zeros : Nat}
      (hbefore : before.all Text.isBlank = true) (hafter : after.all Text.isBlank = true)
      (hmark : mark ∈ [[], ['0', 'x'], ['0', 'X']])
      (hletters : List.Forall₂ SameLetter digits letters) :
      Respells digits
        (String.ofList (before ++ (mark ++ (List.replicate zeros '0' ++ letters)) ++ after))

theorem Numeral.of_sameLetter (h : Numeral ds n) (hletters : List.Forall₂ SameLetter ds cs) :
    Numeral cs n := by
  refine h.replace (hletters.imp fun d c hsame v hv => ?_)
  rcases hsame with rfl | rfl
  · exact hv
  · exact .inr hv.toLower

theorem Numeral.not_blank (h : Numeral cs n) :
    ∀ c ∈ cs, Text.isBlank c = false ∧ c ≠ 'x' ∧ c ≠ 'X' := by
  intro c hc
  obtain ⟨v, hv⟩ := h.exists_digitValue c hc
  rcases hv with hv | hv
  · obtain ⟨hblank, hmark, -⟩ := of_mem_upperDigits (List.mem_of_getElem? hv)
    exact ⟨hblank, hmark⟩
  · obtain ⟨hblank, hmark, -⟩ := of_mem_lowerDigits (List.mem_of_getElem? hv)
    exact ⟨hblank, hmark⟩

theorem Respells.numeral {s : String} (h : Respells cs s) (hn : Numeral cs n) :
    Numeral (dropMark (Text.trim s.toList)) n := by
  obtain @⟨before, mark, letters, after, zeros, hbefore, hafter, hmark, hletters⟩ := h
  have hbody : Numeral (List.replicate zeros '0' ++ letters) n :=
    numeral_zeros_append.2 (hn.of_sameLetter hletters)
  generalize List.replicate zeros '0' ++ letters = body at hbody
  have hblank : ∀ c ∈ mark ++ body, Text.isBlank c = false := by
    intro c hc
    rcases List.mem_append.1 hc with hc | hc
    · have hmarks : ∀ mark ∈ [[], ['0', 'x'], ['0', 'X']],
          (mark.all fun c => !Text.isBlank c) = true := by decide
      simpa using List.all_eq_true.1 (hmarks mark hmark) c hc
    · exact (hbody.not_blank c hc).1
  rw [String.toList_ofList, Text.trim_append_of_blank hbefore hafter,
    Text.trim_eq_self (fun c hc => hblank c (List.mem_of_mem_head? hc))
      fun c hc => hblank c (List.mem_of_mem_getLast? hc)]
  simp only [List.mem_cons, List.not_mem_nil, or_false] at hmark
  rcases hmark with rfl | rfl | rfl
  · rwa [List.nil_append, dropMark_eq_self fun c hc => (hbody.not_blank c hc).2]
  · exact hbody
  · exact hbody

end Hex

namespace Word

theorem ofHex?_eq_ok_iff_numeral {s : String} {w : Word} :
    ofHex? s = .ok w ↔ Hex.Numeral (Hex.dropMark (Text.trim s.toList)) w.toNat := by
  rw [ofHex?_eq_ok_iff, Hex.digits, Hex.numeral_pad, Hex.numeral_latin1_utf8]

theorem ofHex?_eq_ok_iff_of_isCanonical {s : String} {w : Word} (h : Hex.IsCanonical s) :
    ofHex? s = .ok w ↔ Hex.Numeral s.toList w.toNat := by
  rw [ofHex?_eq_ok_iff, Hex.digits_of_isCanonical h, Hex.numeral_latin1_utf8]

theorem eq_toHex_of_isCanonical {s : String} {w : Word} (h : Hex.IsCanonical s)
    (hs : ofHex? s = .ok w) : s = w.toHex :=
  h.ext (isCanonical_toHex w) ((ofHex?_eq_ok_iff_of_isCanonical h).1 hs)
    ((ofHex?_eq_ok_iff_of_isCanonical (isCanonical_toHex w)).1 (ofHex?_toHex w))

/-- **The written text is canonical, and reading inverts it.**  It has upper-case digits, two for
each byte and at least one byte, and no zero byte in front of another one; it is `00` for zero and
for no other word, and different words have different texts.  With blanks around, a mark, more zeros
in front and letters in either case it is still read as the word; and whatever text is read as the
word, the written text is its canonical form, and the text itself if that is canonical. -/
theorem toHex_canonical (w : Word) :
    Hex.IsCanonical w.toHex ∧ (w.toHex = "00" ↔ w.toNat = 0) ∧ ofHex? w.toHex = .ok w ∧
      (∀ v : Word, v.toHex = w.toHex ↔ v = w) ∧
      (∀ s, Hex.Respells w.toHex.toList s → ofHex? s = .ok w) ∧
      ∀ s, ofHex? s = .ok w →
        w.toHex = Hex.canonical s ∧ (Hex.IsCanonical s → s = w.toHex) := by
  have hread := ofHex?_toHex w
  have hvalue := (ofHex?_eq_ok_iff_of_isCanonical (isCanonical_toHex w)).1 hread
  refine ⟨isCanonical_toHex w, ⟨fun h => ?_, fun h => ?_⟩, hread, fun v => ⟨fun h => ?_, ?_⟩,
    fun s h => ?_, fun s h => ⟨?_, fun hs => eq_toHex_of_isCanonical hs h⟩⟩
  · rwa [h, Hex.numeral_zero] at hvalue
  · exact (isCanonical_toHex w).ext Hex.isCanonical_zero hvalue (Hex.numeral_zero.2 h)
  · have hv := ofHex?_toHex v
    rw [h, hread] at hv
    exact (Except.ok.inj hv).symm
  · rintro rfl
    rfl
  · exact ofHex?_eq_ok_iff_numeral.2 (h.numeral hvalue)
  · obtain ⟨hcanonical, hn⟩ := Hex.isCanonical_canonical (ofHex?_eq_ok_iff_numeral.1 h)
    exact (isCanonical_toHex w).ext hcanonical hvalue hn

example : Hex.canonical " 0X00abc" = "0ABC" := by decide

end Word

end BallotProof
