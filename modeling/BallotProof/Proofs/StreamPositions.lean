import BallotProof.NonceStream.Calls
import BallotProof.Proofs.Members

/-!
# Where streams stand after any calls

The streams that come from one seed differ by their positions alone.  A position is the number of
entries that were taken: by the stream itself, and before it was cloned by its ancestors.  So all
streams after some calls can be written down from the calls, and every answer is read off the
position at which its call comes.

* `Streams.position` : the position of a stream, by counting entries in the calls;
  `Streams.inherited` is the part of its ancestors in it.
* `Streams.replies` : the answers, by positions.
* `Streams.Addressed` : calls that go to existing streams.
* `Streams.step_after` : **one call** answers by the position and moves its own stream only.
* `Streams.run_after`, `Streams.after?_after` : **any calls** are answered by positions, and leave
  the streams at theirs.
-/

namespace BallotProof

/-! ### One call -/

namespace NonceCall

/-- The number of entries that a call takes from its stream. -/
def consumed : NonceCall → Nat
  | .next => 1
  | .take n => n
  | .nth n => n + 1
  | .get _ => 0
  | .draw _ => 0
  | .clone => 0

/-- The answer to a call on a stream at a position, where `entry` gives the entries of the stream
and `count` is the number of streams. -/
def reply (entry : Nat → Scalar) (position count : Nat) : NonceCall → NonceAnswer
  | .next => .entry (entry position)
  | .get index => .entry (entry index.toNat)
  | .take n => .entries ((List.range n).map fun i => entry (position + i))
  | .nth n => .entry (entry (position + n))
  | .draw n => .entries ((List.range n).map entry)
  | .clone => .stream count

end NonceCall

/-- The scalars in an answer. -/
def NonceAnswer.scalars : NonceAnswer → List Scalar
  | .entry x => [x]
  | .entries xs => xs
  | .stream _ => []

theorem NonceCall.exists_of_mem_scalars_reply {entry : Nat → Scalar} {position count : Nat}
    {call : NonceCall} {x : Scalar} (hx : x ∈ (call.reply entry position count).scalars) :
    ∃ n, x = entry n := by
  cases call with
  | next => exact ⟨_, List.mem_singleton.1 hx⟩
  | get index => exact ⟨_, List.mem_singleton.1 hx⟩
  | take n =>
    obtain ⟨i, -, rfl⟩ := List.mem_map.1 hx
    exact ⟨_, rfl⟩
  | nth n => exact ⟨_, List.mem_singleton.1 hx⟩
  | draw n =>
    obtain ⟨i, -, rfl⟩ := List.mem_map.1 hx
    exact ⟨_, rfl⟩
  | clone => exact nomatch hx

namespace NonceStream

variable (H : HashFunction) (G : SchnorrGroup)

/-- The entries of a stream by their number. -/
def entries (s : NonceStream) (n : Nat) : Scalar :=
  s.get H G (UInt64.ofNat n)

variable {H G} {start : NonceStream}

theorem next_drop (hstart : start.position = 0) (n : Nat) :
    (start.drop n).next H G = (start.entries H G n, start.drop (n + 1)) := by
  rw [next, drop_drop, get_drop, entries]
  simp only [drop, hstart, UInt64.zero_add]

theorem take_drop (hstart : start.position = 0) (n k : Nat) :
    (start.drop n).take H G k =
      ((List.range k).map fun i => start.entries H G (n + i), start.drop (n + k)) := by
  induction k generalizing n with
  | zero => rfl
  | succ k ih =>
    rw [take, next_drop hstart]
    simp only [ih, List.range_succ_eq_map, List.map_cons, List.map_map, Function.comp_def,
      Nat.add_zero, Nat.succ_eq_add_one, Nat.add_assoc, Nat.add_comm 1]

end NonceStream

namespace Streams

/-- Calls, each with the index of the stream that it goes to. -/
abbrev Calls := List (Nat × NonceCall)

/-! ### Counting in the calls -/

/-- The streams that were cloned, in the order of the clones. -/
def parents (calls : Calls) : List Nat :=
  (calls.filter fun c => c.2 = .clone).map Prod.fst

/-- The number of streams after the calls: the first one and one for each clone. -/
def count (calls : Calls) : Nat :=
  (parents calls).length + 1

/-- The calls that go to a stream. -/
def own (calls : Calls) (i : Nat) : List NonceCall :=
  (calls.filter fun c => c.1 = i).map Prod.snd

/-- The number of entries that calls on one stream take. -/
def taken (calls : List NonceCall) : Nat :=
  (calls.map NonceCall.consumed).sum

/-- `inherited` for calls of which the latest comes first. -/
def inheritedRev : Calls → Nat → Nat
  | [], _ => 0
  | (on, call) :: earlier, i =>
    if call = .clone ∧ i = count earlier then inheritedRev earlier on + taken (own earlier on)
    else inheritedRev earlier i

/-- The number of entries that the ancestors of a stream took before it was cloned. -/
def inherited (calls : Calls) (i : Nat) : Nat :=
  inheritedRev calls.reverse i

/-- The position of a stream after the calls: the number of entries that it took and, before it was
cloned, its ancestors. -/
def position (calls : Calls) (i : Nat) : Nat :=
  inherited calls i + taken (own calls i)

/-- The answers to calls that come after other calls. -/
def replies (entry : Nat → Scalar) : Calls → Calls → List NonceAnswer
  | _, [] => []
  | before, (on, call) :: calls =>
    call.reply entry (position before on) (count before) ::
      replies entry (before ++ [(on, call)]) calls

/-- Every call goes to a stream that exists when its turn comes. -/
inductive Addressed : Calls → Prop
  | nil : Addressed []
  | snoc {calls : Calls} {on : Nat} (h : Addressed calls) (hon : on < count calls)
      (call : NonceCall) : Addressed (calls ++ [(on, call)])

variable {before calls : Calls} {on i : Nat} {call : NonceCall}

/-! ### One call more -/

theorem parents_concat : parents (calls ++ [(on, call)]) =
    parents calls ++ if call = .clone then [on] else [] := by
  rw [parents, parents, List.filter_append, List.map_append]
  split <;> simp_all

theorem count_concat :
    count (calls ++ [(on, call)]) = count calls + if call = .clone then 1 else 0 := by
  rw [count, count, parents_concat, List.length_append]
  split <;> simp

theorem own_concat :
    own (calls ++ [(on, call)]) i = own calls i ++ if on = i then [call] else [] := by
  rw [own, own, List.filter_append, List.map_append]
  split <;> simp_all

theorem taken_append (xs ys : List NonceCall) : taken (xs ++ ys) = taken xs + taken ys := by
  rw [taken, taken, taken, List.map_append, List.sum_append]

theorem count_reverse (calls : Calls) : count calls.reverse = count calls := by
  simp [count, parents]

theorem taken_own_reverse (calls : Calls) (i : Nat) :
    taken (own calls.reverse i) = taken (own calls i) := by
  simp [taken, own, List.filter_reverse]

theorem inherited_concat :
    inherited (calls ++ [(on, call)]) i =
      if call = .clone ∧ i = count calls then position calls on else inherited calls i := by
  rw [inherited, List.reverse_append, List.reverse_singleton, List.singleton_append, inheritedRev,
    count_reverse, taken_own_reverse]
  rfl

theorem inherited_concat_of_lt (hi : i < count calls) :
    inherited (calls ++ [(on, call)]) i = inherited calls i := by
  rw [inherited_concat, if_neg fun h => Nat.ne_of_lt hi h.2]

theorem position_concat_of_lt (hi : i < count calls) :
    position (calls ++ [(on, call)]) i =
      position calls i + if on = i then call.consumed else 0 := by
  rw [position, inherited_concat_of_lt hi, own_concat, taken_append, ← Nat.add_assoc]
  split <;> rfl

namespace Addressed

theorem of_concat (h : Addressed (calls ++ [(on, call)])) : Addressed calls ∧ on < count calls := by
  generalize hall : calls ++ [(on, call)] = all at h
  cases h with
  | nil => simp at hall
  | snoc h hon call' =>
    obtain ⟨rfl, hlast⟩ := List.append_inj' hall rfl
    obtain ⟨rfl, -⟩ := Prod.mk.inj (List.singleton_inj.1 hlast)
    exact ⟨h, hon⟩

theorem of_append {more : Calls} (h : Addressed (calls ++ more)) : Addressed calls := by
  induction more using List.reverseRecOn with
  | nil => rwa [List.append_nil] at h
  | append_singleton more call ih =>
    rw [← List.append_assoc] at h
    exact ih h.of_concat.1

theorem own_eq_nil (h : Addressed calls) (hi : count calls ≤ i) : own calls i = [] := by
  induction h with
  | nil => rfl
  | snoc h hon call ih =>
    rw [count_concat] at hi
    rw [own_concat, ih (by omega), if_neg (by omega), List.nil_append]

theorem position_clone (h : Addressed calls) (hon : on < count calls) :
    position (calls ++ [(on, .clone)]) (count calls) = position calls on := by
  rw [position, inherited_concat, if_pos ⟨rfl, rfl⟩, own_concat, h.own_eq_nil (Nat.le_refl _),
    if_neg (Nat.ne_of_lt hon)]
  rfl

end Addressed

theorem count_le_count_append (calls more : Calls) : count calls ≤ count (calls ++ more) := by
  simp [count, parents]

theorem position_le_position_append (hi : i < count calls) (more : Calls) :
    position calls i ≤ position (calls ++ more) i := by
  induction more using List.reverseRecOn with
  | nil => exact Nat.le_of_eq (by rw [List.append_nil])
  | append_singleton more call ih =>
    have hi' : i < count (calls ++ more) := Nat.lt_of_lt_of_le hi (count_le_count_append ..)
    rw [← List.append_assoc, position_concat_of_lt hi']
    exact Nat.le_add_right_of_le ih

theorem replies_concat (entry : Nat → Scalar) :
    replies entry before (calls ++ [(on, call)]) = replies entry before calls ++
      [call.reply entry (position (before ++ calls) on) (count (before ++ calls))] := by
  induction calls generalizing before with
  | nil => simp [replies]
  | cons c calls ih => simp [replies, ih]

/-! ### All streams -/

section Runs

variable (H : HashFunction) (G : SchnorrGroup)

/-- The streams after the calls, if each of these goes to an existing stream. -/
def after? (streams : Streams) : Calls → Option Streams
  | [] => some streams
  | (on, call) :: calls => do
    let (_, streams) ← step H G streams on call
    after? streams calls

/-- The streams after the calls, by their positions. -/
def after (start : NonceStream) (calls : Calls) : Streams :=
  (List.range (count calls)).map fun i => start.drop (position calls i)

variable {H G} {start : NonceStream}

theorem after_nil : after start [] = [start] := by
  simp [after, count, parents, position, inherited, inheritedRev, own, taken]

theorem length_after : (after start calls).length = count calls := by
  rw [after, List.length_map, List.length_range]

theorem getElem?_after (hi : i < count calls) :
    (after start calls)[i]? = some (start.drop (position calls i)) := by
  rw [after, List.getElem?_map, List.getElem?_range hi, Option.map_some]

/-- The answer of one stream is read off its position, and moves it by what the call takes. -/
theorem answer_drop (hstart : start.position = 0) (n newIndex : Nat) (call : NonceCall) :
    answer H G (start.drop n) newIndex call =
      (call.reply (start.entries H G) n newIndex, start.drop (n + call.consumed)) := by
  cases call with
  | next => rw [answer, NonceStream.next_drop hstart]; rfl
  | get index =>
    rw [answer, NonceStream.get_drop, NonceCall.reply, NonceStream.entries, UInt64.ofNat_toNat]
    rfl
  | take k => rw [answer, NonceStream.take_drop hstart]; rfl
  | nth k => rw [answer, NonceStream.nth, NonceStream.drop_drop, NonceStream.next_drop hstart]; rfl
  | draw k => rfl
  | clone => rfl

theorem set_after (on : Nat) (call : NonceCall) :
    (after start calls).set on (start.drop (position calls on + call.consumed)) =
      (List.range (count calls)).map fun i =>
        start.drop (position (calls ++ [(on, call)]) i) := by
  refine List.ext_getElem (by simp [after]) fun i hi _ => ?_
  have hi : i < count calls := by simpa [after] using hi
  simp only [after, List.getElem_set, List.getElem_map, List.getElem_range]
  rw [position_concat_of_lt hi]
  split
  · rename_i h
    rw [h]
  · rw [Nat.add_zero]

/-- **One call** is answered by the position of its stream, moves this stream by what it takes, and
adds a stream at the same position if it is a clone. -/
theorem step_after (hstart : start.position = 0) (h : Addressed calls) (hon : on < count calls)
    (call : NonceCall) :
    step H G (after start calls) on call =
      some (call.reply (start.entries H G) (position calls on) (count calls),
        after start (calls ++ [(on, call)])) := by
  rw [step, getElem?_after hon, Option.bind_eq_bind, Option.bind_some, length_after,
    answer_drop hstart]
  simp only [set_after]
  rw [after, count_concat]
  split
  · rename_i hclone
    subst hclone
    rw [List.range_succ, List.map_append, List.map_singleton, h.position_clone hon]
    rfl
  · rfl

theorem step_snd_of_stays {streams : Streams} (hon : on < streams.length)
    (hcall : call ≠ .clone) (hstays : ∀ s n, (answer H G s n call).2 = s) :
    (step H G streams on call).map Prod.snd = some streams := by
  rw [step, List.getElem?_eq_getElem hon, Option.bind_eq_bind, Option.bind_some]
  simp only [hstays, if_neg hcall, List.set_getElem_self]
  rfl

/-- **Any calls** after other ones are answered by positions. -/
theorem run_after (hstart : start.position = 0) (h : Addressed (before ++ calls)) :
    run H G (after start before) calls = some (replies (start.entries H G) before calls) := by
  induction calls generalizing before with
  | nil => rfl
  | cons c calls ih =>
    obtain ⟨on, call⟩ := c
    rw [List.append_cons] at h
    obtain ⟨hbefore, hon⟩ := h.of_append.of_concat
    simp only [run, replies, step_after hstart hbefore hon, ih h, Option.bind_eq_bind,
      Option.bind_some]
    rfl

/-- **Any calls** after other ones leave the streams at their positions. -/
theorem after?_after (hstart : start.position = 0) (h : Addressed (before ++ calls)) :
    after? H G (after start before) calls = some (after start (before ++ calls)) := by
  induction calls generalizing before with
  | nil => rw [after?, List.append_nil]
  | cons c calls ih =>
    obtain ⟨on, call⟩ := c
    rw [List.append_cons] at h ⊢
    obtain ⟨hbefore, hon⟩ := h.of_append.of_concat
    rw [after?, step_after hstart hbefore hon, Option.bind_eq_bind, Option.bind_some]
    exact ih h

end Runs

end Streams

end BallotProof
