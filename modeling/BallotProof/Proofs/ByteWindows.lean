import BallotProof.SchnorrGroup.Arithmetic

/-!
# Byte strings in a buffer of fixed width

A word is decoded from a buffer of exactly 512 bytes.  A longer byte string is cut first, a shorter
one is put at the end of a buffer of zeros, and each of these slices exists only within its bounds.
One reader strips zeros as long as there are too many bytes, and refuses any other byte; a second
one keeps the last 512 bytes, whatever comes before.

* `Bytes.suffix?`, `Bytes.fillFrom?` are slices with their bounds, and `Word.readBuffered?`,
  `Word.windowBuffered?` the two readers made of them.
* `Word.stripZeros?_eq` : the loop over zeros leaves the last bytes, or stops at the first byte
  before them that is not zero.
* `Word.readBuffered?_eq`, `Word.windowBuffered?_eq` : no slice is out of range, and the readers
  answer like `Word.ofBytes?` and `Word.ofBytes`.
* `SchnorrGroup.byteReaders_agree` : **where both readers answer, they agree**, and each is said by
  the value of the bytes alone.
-/

namespace BallotProof

/-! ### Slices -/

/-- The difference, if it is not negative. -/
def checkedSub? (a b : Nat) : Option Nat :=
  if b ≤ a then some (a - b) else none

namespace Bytes

/-- The bytes from a position on, if the position is not beyond the end. -/
def suffix? (start : Nat) (bs : Bytes) : Option Bytes :=
  if start ≤ bs.length then some (bs.drop start) else none

/-- The buffer with its bytes from a position on replaced by others, if there are as many. -/
def fillFrom? (start : Nat) (bs buffer : Bytes) : Option Bytes := do
  let old ← suffix? start buffer
  if old.length = bs.length then some (buffer.take start ++ bs) else none

end Bytes

namespace Word

/-! ### Readers -/

/-- The bytes behind the zeros that are stripped while there are more than 512 bytes.  A byte that
is looked at has to exist. -/
def stripZeros? : Bytes → Option (Except WordError Bytes)
  | [] => if width < 0 then none else some (.ok [])
  | b :: rest =>
    if width < rest.length + 1 then
      if b ≠ 0 then some (.error .overflow) else stripZeros? rest
    else some (.ok (b :: rest))

/-- A buffer of 512 bytes with the bytes at its end. -/
def padded? (bs : Bytes) : Option Bytes := do
  let start ← checkedSub? width bs.length
  Bytes.fillFrom? start bs (List.replicate width 0)

/-- The word that a buffer encodes, if it has 512 bytes. -/
def ofBuffer? (buffer : Bytes) : Option Word :=
  if h : buffer.length = width then
    some ⟨Bytes.toNat buffer, by rw [limit_eq, ← h]; exact Bytes.toNat_lt buffer⟩
  else none

/-- Strips zeros, then decodes what is left; the inner error is that a byte other than zero would
have to be stripped, and nothing at all is answered if a slice is out of range. -/
def readBuffered? (bs : Bytes) : Option (Except WordError Word) := do
  match ← stripZeros? bs with
  | .error e => return .error e
  | .ok rest =>
    let buffer ← padded? rest
    let w ← ofBuffer? buffer
    return .ok w

/-- Decodes the last 512 bytes, or all if there are less. -/
def windowBuffered? (bs : Bytes) : Option Word := do
  let last ← Bytes.suffix? (bs.length - width) bs
  let buffer ← padded? last
  ofBuffer? buffer

/-! ### No slice is out of range -/

theorem padded?_of_le {bs : Bytes} (h : bs.length ≤ width) :
    padded? bs = some (List.replicate (width - bs.length) 0 ++ bs) := by
  have hstart : width - bs.length ≤ (List.replicate width (0 : UInt8)).length := by simp
  have hold : (List.replicate (width - (width - bs.length)) (0 : UInt8)).length = bs.length := by
    simp
    omega
  simp only [padded?, checkedSub?, if_pos h, Bytes.fillFrom?, Bytes.suffix?, if_pos hstart,
    List.drop_replicate, if_pos hold, List.take_replicate, Option.bind_eq_bind, Option.bind_some,
    Nat.min_eq_left (Nat.sub_le ..)]

/-- At most 512 bytes fit in the buffer, and the zeros before them do not count. -/
theorem padded?_bind_ofBuffer? {bs : Bytes} (h : bs.length ≤ width) :
    (padded? bs).bind ofBuffer? = some (ofBytes bs) := by
  have hlength : (List.replicate (width - bs.length) (0 : UInt8) ++ bs).length = width := by
    simp
    omega
  have hlt := Bytes.toNat_lt (List.replicate (width - bs.length) (0 : UInt8) ++ bs)
  rw [Bytes.toNat_zeros_append, hlength, ← limit_eq] at hlt
  rw [padded?_of_le h, Option.bind_some, ofBuffer?, dif_pos hlength]
  refine congrArg some (Word.ext ?_)
  rw [toNat_ofBytes, Nat.mod_eq_of_lt hlt]
  exact Bytes.toNat_zeros_append ..

theorem length_window (bs : Bytes) : (bs.drop (bs.length - width)).length ≤ width := by
  rw [List.length_drop]
  omega

theorem ofBytes_window (bs : Bytes) : ofBytes (bs.drop (bs.length - width)) = ofBytes bs := by
  rw [ofBytes, Nat.sub_eq_zero_of_le (length_window bs), List.drop_zero, ofBytes]

/-- **The loop over zeros** leaves the last 512 bytes if all before them are zero. -/
theorem stripZeros?_eq (bs : Bytes) :
    stripZeros? bs = some (if (bs.take (bs.length - width)).all (· == 0) then
      .ok (bs.drop (bs.length - width)) else .error .overflow) := by
  induction bs with
  | nil => simp [stripZeros?]
  | cons b rest ih =>
    rw [stripZeros?, List.length_cons]
    split
    · rename_i hlong
      rw [show rest.length + 1 - width = rest.length - width + 1 by omega, List.take_succ_cons,
        List.drop_succ_cons, List.all_cons]
      by_cases hb : b = 0
      · simp [hb, ih]
      · simp [hb]
    · rename_i hshort
      rw [Nat.sub_eq_zero_of_le (Nat.not_lt.1 hshort)]
      simp

theorem readBuffered?_eq (bs : Bytes) : readBuffered? bs = some (ofBytes? bs) := by
  have hbuffer := padded?_bind_ofBuffer? (length_window bs)
  rw [ofBytes_window] at hbuffer
  obtain ⟨buffer, hpadded, hword⟩ := Option.bind_eq_some_iff.1 hbuffer
  rw [readBuffered?, stripZeros?_eq, ofBytes?]
  split
  · simp [hpadded, hword]
  · rfl

theorem windowBuffered?_eq (bs : Bytes) : windowBuffered? bs = some (ofBytes bs) := by
  have hstart : bs.length - width ≤ bs.length := Nat.sub_le ..
  have hbuffer := padded?_bind_ofBuffer? (length_window bs)
  rw [ofBytes_window] at hbuffer
  rwa [windowBuffered?, Bytes.suffix?, if_pos hstart, Option.bind_eq_bind, Option.bind_some]

/-! ### What the readers answer -/

theorem ofBytes?_eq (bs : Bytes) :
    ofBytes? bs =
      if Bytes.toNat bs < limit then .ok (ofNat (Bytes.toNat bs)) else .error .overflow := by
  split
  · rename_i hlt
    exact ofBytes?_eq_ok hlt
  · rename_i hle
    exact ofBytes?_eq_overflow (Nat.not_lt.1 hle)

theorem eq_of_ofBytes?_eq_ok {bs : Bytes} {w : Word} (h : ofBytes? bs = .ok w) :
    w = ofBytes bs ∧ w.toNat = Bytes.toNat bs := by
  rw [ofBytes?_eq] at h
  split at h
  · rename_i hlt
    obtain rfl := Except.ok.inj h
    have hvalue := toNat_ofNat_of_lt hlt
    refine ⟨Word.ext ?_, hvalue⟩
    rw [toNat_ofBytes, hvalue, Nat.mod_eq_of_lt hlt]
  · exact nomatch h

end Word

/-- **The two readers of byte strings agree.**  For every byte string, no slice of either is out of
range.  The strict one reads the value of the bytes if it fits in a word and refuses it otherwise,
and the other one takes the value modulo `2 ^ 4096` and then modulo `q`.  So a word that is read is
reduced to the scalar of the other reader, and zeros in front change neither answer. -/
theorem SchnorrGroup.byteReaders_agree (G : SchnorrGroup) (bs : Bytes) :
    (Word.readBuffered? bs = some (Word.ofBytes? bs) ∧
      (Word.windowBuffered? bs).map G.reduce = some (G.scalarOfBytes bs)) ∧
    (Word.ofBytes? bs =
      if Bytes.toNat bs < 2 ^ (8 * Word.width) then .ok (Word.ofNat (Bytes.toNat bs))
      else .error .overflow) ∧
    (G.scalarOfBytes bs).toNat = Bytes.toNat bs % 2 ^ (8 * Word.width) % G.q.toNat ∧
    (∀ w, Word.ofBytes? bs = .ok w → w.toNat = Bytes.toNat bs ∧
      G.scalarOfBytes bs = G.reduce w ∧ (G.scalarOfBytes bs).toNat < G.q.toNat) ∧
    ∀ zeros, Word.ofBytes? (List.replicate zeros 0 ++ bs) = Word.ofBytes? bs ∧
      G.scalarOfBytes (List.replicate zeros 0 ++ bs) = G.scalarOfBytes bs := by
  refine ⟨⟨Word.readBuffered?_eq bs, ?_⟩, ?_, ?_, fun w h => ?_, fun zeros => ?_⟩
  · rw [Word.windowBuffered?_eq, Option.map_some, scalarOfBytes]
  · rw [Word.ofBytes?_eq, Word.limit_eq_two_pow]
  · rw [toNat_scalarOfBytes, Word.limit_eq_two_pow]
  · obtain ⟨rfl, hvalue⟩ := Word.eq_of_ofBytes?_eq_ok h
    exact ⟨hvalue, rfl, reduce_lt _⟩
  · constructor
    · rw [Word.ofBytes?_eq, Word.ofBytes?_eq, Bytes.toNat_zeros_append]
    · apply Scalar.ext
      rw [toNat_scalarOfBytes, toNat_scalarOfBytes, Bytes.toNat_zeros_append]

end BallotProof
