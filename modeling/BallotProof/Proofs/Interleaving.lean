import BallotProof.Proofs.StreamPositions
import BallotProof.Sha3

/-!
# Interleaved calls on nonce streams

The calls on several streams can be put in many orders, and with the order of the clones the indices
of the streams change as well.  What a stream answers only depends on the calls on it and on what it
inherits, and this in turn on the calls on its ancestors up to the cloning.  So no order matters but
the one of the calls on each stream.

* `Streams.solo` : the answers of a stream that is alone.
* `Streams.answersOf_replies` : **a stream answers as if it were alone** from the position that it
  inherits.
* `Streams.inherited_child` : the inheritance of a clone, by the calls on the stream that was
  cloned.
* `Streams.Interleaving` : the same calls in another order, with streams renumbered.
* `Streams.Interleaving.inherited_eq` : inheritance is the same in every order.
* `Streams.run_calls` : **any sequence of calls**, its answers, its positions and its orders.
-/

namespace BallotProof

namespace Streams

variable {calls calls' : Calls} {on i : Nat} {call : NonceCall}

/-! ### A stream by itself -/

/-- The scalars that a stream at a position answers to calls, with no other stream around. -/
def solo (entry : Nat → Scalar) : Nat → List NonceCall → List (List Scalar)
  | _, [] => []
  | n, call :: calls => (call.reply entry n 0).scalars :: solo entry (n + call.consumed) calls

/-- The scalars in the answers of one stream. -/
def answersOf (calls : Calls) (answers : List NonceAnswer) (i : Nat) : List (List Scalar) :=
  ((calls.zip answers).filter fun c => c.1.1 = i).map fun c => c.2.scalars

theorem scalars_reply (entry : Nat → Scalar) (n count : Nat) (call : NonceCall) :
    (call.reply entry n count).scalars = (call.reply entry n 0).scalars := by
  cases call <;> rfl

theorem solo_concat (entry : Nat → Scalar) (n : Nat) (calls : List NonceCall) (call : NonceCall) :
    solo entry n (calls ++ [call]) =
      solo entry n calls ++ [(call.reply entry (n + taken calls) 0).scalars] := by
  induction calls generalizing n with
  | nil => rfl
  | cons c calls ih =>
    rw [List.cons_append, solo, solo, ih, List.cons_append, Nat.add_assoc]
    rfl

theorem length_replies (entry : Nat → Scalar) (before calls : Calls) :
    (replies entry before calls).length = calls.length := by
  induction calls generalizing before with
  | nil => rfl
  | cons c calls ih => rw [replies, List.length_cons, ih, List.length_cons]

theorem answersOf_concat {answers : List NonceAnswer} (hlength : answers.length = calls.length)
    (answer : NonceAnswer) :
    answersOf (calls ++ [(on, call)]) (answers ++ [answer]) i =
      answersOf calls answers i ++ if on = i then [answer.scalars] else [] := by
  rw [answersOf, answersOf, List.zip_append hlength.symm, List.filter_append, List.map_append]
  split <;> simp_all

/-- **A stream answers as if it were alone** from the position that it inherits. -/
theorem answersOf_replies (entry : Nat → Scalar) (h : Addressed calls) (i : Nat) :
    answersOf calls (replies entry [] calls) i = solo entry (inherited calls i) (own calls i) := by
  induction h with
  | nil => rfl
  | @snoc calls on h hon call ih =>
    rw [replies_concat, answersOf_concat (length_replies ..), own_concat, List.nil_append,
      scalars_reply, ih]
    by_cases hown : on = i
    · subst hown
      rw [if_pos rfl, if_pos rfl, inherited_concat_of_lt hon, solo_concat]
      rfl
    · rw [if_neg hown, if_neg hown, List.append_nil, List.append_nil]
      -- a stream that is only made by this call has not been called yet
      rcases Nat.lt_or_ge i (count calls) with hi | hi
      · rw [inherited_concat_of_lt hi]
      · rw [h.own_eq_nil hi]
        rfl

/-! ### Clones and what they inherit -/

/-- The streams that were cloned from a stream, in the order of their making. -/
def children (calls : Calls) (i : Nat) : List Nat :=
  ((parents calls).zipIdx 1).filterMap fun c => if c.1 = i then some c.2 else none

theorem children_concat : children (calls ++ [(on, call)]) i =
    children calls i ++ if call = .clone ∧ on = i then [count calls] else [] := by
  rw [children, children, parents_concat, List.zipIdx_append, List.filterMap_append, count,
    Nat.add_comm 1]
  by_cases hcall : call = .clone <;> by_cases hon : on = i <;> simp [hcall, hon]

theorem length_children (calls : Calls) (i : Nat) :
    (children calls i).length = (own calls i).count .clone := by
  induction calls using List.reverseRecOn with
  | nil => rfl
  | append_singleton calls c ih =>
    obtain ⟨on, call⟩ := c
    rw [children_concat, own_concat, List.length_append, List.count_append, ih]
    split <;> split <;> simp_all

theorem Addressed.lt_of_mem_children (h : Addressed calls) {child : Nat}
    (hchild : child ∈ children calls i) : i < child ∧ child < count calls := by
  induction h with
  | nil => exact nomatch hchild
  | @snoc calls on h hon call ih =>
    rw [children_concat, List.mem_append] at hchild
    rw [count_concat]
    rcases hchild with hold | hnew
    · have := ih hold
      omega
    · split at hnew
      · rename_i hclone
        rw [List.mem_singleton] at hnew
        rw [if_pos hclone.1]
        omega
      · exact nomatch hnew

theorem Addressed.exists_parent (h : Addressed calls) (hpos : 0 < i) (hi : i < count calls) :
    ∃ parent j : Nat, parent < i ∧ (children calls parent)[j]? = some i := by
  induction h with
  | nil =>
    have hone : count [] = 1 := rfl
    omega
  | @snoc calls on h hon call ih =>
    by_cases hold : i < count calls
    · obtain ⟨parent, j, hparent, hj⟩ := ih hold
      refine ⟨parent, j, hparent, ?_⟩
      rw [children_concat, List.getElem?_append_left (List.getElem?_eq_some_iff.1 hj).1, hj]
    · rw [count_concat] at hi
      split at hi
      · rename_i hclone
        obtain rfl : i = count calls := by omega
        refine ⟨on, (children calls on).length, hon, ?_⟩
        rw [children_concat, if_pos ⟨hclone, rfl⟩, List.getElem?_concat_length]
      · exact absurd hi hold

/-- **What a clone inherits**: what the stream inherits that was cloned, and what this stream itself
took before. -/
theorem inherited_child (h : Addressed calls) {j child : Nat}
    (hj : (children calls i)[j]? = some child) :
    ∃ earlier later, own calls i = earlier ++ .clone :: later ∧ earlier.count .clone = j ∧
      inherited calls child = inherited calls i + taken earlier := by
  induction h with
  | nil => simp [children, parents] at hj
  | @snoc calls on h hon call ih =>
    rw [children_concat] at hj
    by_cases hlt : j < (children calls i).length
    · rw [List.getElem?_append_left hlt] at hj
      obtain ⟨hparent, hchild⟩ := h.lt_of_mem_children (List.mem_of_getElem? hj)
      obtain ⟨earlier, later, hown, hcount, hinherited⟩ := ih hj
      refine ⟨earlier, later ++ if on = i then [call] else [], ?_, hcount, ?_⟩
      · rw [own_concat, hown, List.append_assoc, List.cons_append]
      · rw [inherited_concat_of_lt hchild, inherited_concat_of_lt (Nat.lt_trans hparent hchild),
          hinherited]
    · rw [List.getElem?_append_right (Nat.le_of_not_lt hlt)] at hj
      split at hj
      · rename_i hclone
        obtain ⟨rfl, rfl⟩ := hclone
        obtain ⟨hzero, hchild⟩ := List.getElem?_eq_some_iff.1 hj
        rw [List.length_singleton] at hzero
        obtain rfl : count calls = child := by simpa using hchild
        refine ⟨own calls on, [], ?_, ?_, ?_⟩
        · rw [own_concat, if_pos rfl]
        · rw [← length_children]
          omega
        · rw [inherited_concat, if_pos ⟨rfl, rfl⟩, inherited_concat_of_lt hon, position]
      · simp at hj

/-- The calls before a clone are determined by its number. -/
theorem eq_of_append_clone {xs xs' ys ys' : List NonceCall}
    (h : xs ++ .clone :: ys = xs' ++ .clone :: ys')
    (hcount : xs.count .clone = xs'.count .clone) : xs = xs' := by
  rcases List.append_eq_append_iff.1 h with ⟨zs, rfl, hzs⟩ | ⟨zs, rfl, hzs⟩
  · cases zs with
    | nil => rw [List.append_nil]
    | cons z zs =>
      obtain ⟨rfl, -⟩ := List.cons.inj hzs
      simp at hcount
  · cases zs with
    | nil => rw [List.append_nil]
    | cons z zs =>
      obtain ⟨rfl, -⟩ := List.cons.inj hzs
      simp at hcount

/-! ### Other orders -/

/-- The same calls in another order.  Stream `i` of the one is stream `rename i` of the other: it
gets the same calls, and its clones correspond. -/
structure Interleaving (rename : Nat → Nat) (calls calls' : Calls) : Prop where
  zero : rename 0 = 0
  own_eq : ∀ i < count calls, own calls' (rename i) = own calls i
  children_eq : ∀ i < count calls, children calls' (rename i) = (children calls i).map rename

theorem inherited_zero (calls : Calls) : inherited calls 0 = 0 := by
  induction calls using List.reverseRecOn with
  | nil => rfl
  | append_singleton calls c ih =>
    obtain ⟨on, call⟩ := c
    rw [inherited_concat_of_lt (Nat.succ_pos _), ih]

namespace Interleaving

variable {rename : Nat → Nat}

theorem inherited_eq (hint : Interleaving rename calls calls') (h : Addressed calls)
    (h' : Addressed calls') (hi : i < count calls) :
    inherited calls' (rename i) = inherited calls i := by
  induction i using Nat.strongRecOn with
  | ind i ih =>
    rcases Nat.eq_zero_or_pos i with rfl | hpos
    · rw [hint.zero, inherited_zero, inherited_zero]
    · obtain ⟨parent, j, hlt, hj⟩ := h.exists_parent hpos hi
      have hparent : parent < count calls := Nat.lt_trans hlt hi
      have hj' : (children calls' (rename parent))[j]? = some (rename i) := by
        rw [hint.children_eq parent hparent, List.getElem?_map, hj, Option.map_some]
      obtain ⟨earlier, later, hown, hcount, hinherited⟩ := inherited_child h hj
      obtain ⟨earlier', later', hown', hcount', hinherited'⟩ := inherited_child h' hj'
      rw [hint.own_eq parent hparent, hown] at hown'
      obtain rfl := eq_of_append_clone hown' (hcount.trans hcount'.symm)
      rw [hinherited, hinherited', ih parent hlt hparent]

theorem position_eq (hint : Interleaving rename calls calls') (h : Addressed calls)
    (h' : Addressed calls') (hi : i < count calls) :
    position calls' (rename i) = position calls i := by
  rw [position, position, hint.inherited_eq h h' hi, hint.own_eq i hi]

theorem answersOf_eq (hint : Interleaving rename calls calls') (h : Addressed calls)
    (h' : Addressed calls') (hi : i < count calls) (entry : Nat → Scalar) :
    answersOf calls' (replies entry [] calls') (rename i) =
      answersOf calls (replies entry [] calls) i := by
  rw [answersOf_replies entry h, answersOf_replies entry h', hint.inherited_eq h h' hi,
    hint.own_eq i hi]

end Interleaving

/-! ### Any sequence of calls -/

theorem exists_of_mem_replies {entry : Nat → Scalar} {before : Calls} {answer : NonceAnswer}
    (hanswer : answer ∈ replies entry before calls) {x : Scalar} (hx : x ∈ answer.scalars) :
    ∃ n, x = entry n := by
  induction calls generalizing before with
  | nil => exact nomatch hanswer
  | cons c calls ih =>
    rw [replies, List.mem_cons] at hanswer
    rcases hanswer with rfl | hanswer
    · exact NonceCall.exists_of_mem_scalars_reply hx
    · exact ih hanswer

/-- Where no position overflows, the streams stand at their positions after every call. -/
theorem exists_after? {H : HashFunction} {G : SchnorrGroup} {start : NonceStream}
    (hstart : start.position = 0) (h : Addressed calls)
    (hposition : ∀ i < count calls, position calls i < 2 ^ 64) {before : Calls}
    (hbefore : before <+: calls) :
    ∃ streams : Streams, after? H G [start] before = some streams ∧
      streams.length = count before ∧
      ∀ i s, streams[i]? = some s →
        s.position.toNat = position before i ∧ s.get H G = start.get H G := by
  obtain ⟨more, rfl⟩ := hbefore
  refine ⟨after start before, ?_, length_after, fun i s hs => ?_⟩
  · rw [← after_nil, after?_after hstart (by simpa using h.of_append), List.nil_append]
  · have hi : i < count before := length_after ▸ (List.getElem?_eq_some_iff.1 hs).1
    have hlt : position before i < 2 ^ 64 :=
      Nat.lt_of_le_of_lt (position_le_position_append hi more)
        (hposition i (Nat.lt_of_lt_of_le hi (count_le_count_append ..)))
    rw [getElem?_after hi] at hs
    obtain rfl := Option.some.inj hs
    refine ⟨?_, rfl⟩
    rw [NonceStream.drop, hstart, UInt64.zero_add, UInt64.toNat_ofNat_of_lt' hlt]

/-- **Any sequence of calls.**  Let calls go to existing streams, starting with one stream of a
seed, and let no position overflow.  Then every call is answered by the position of its stream; the
position is, at any time, the number of entries that the stream took and, before it was cloned, its
ancestors; no call moves another stream, and asking for entries by their numbers moves none; all
entries are reduced; a stream answers as if it were alone from the position that it inherits; and in
every other order of the calls, every stream has the same position and gives the same answers. -/
theorem run_calls (H : HashFunction) (G : SchnorrGroup) (seed : Scalar) (label : String)
    {calls : Calls} (h : Addressed calls)
    (hposition : ∀ i < count calls, position calls i < 2 ^ 64) :
    let start := NonceStream.ofSeed G seed label
    let entry : Nat → Scalar := fun n => start.get H G (UInt64.ofNat n)
    let answers := replies entry [] calls
    run H G [start] calls = some answers ∧
    (∀ before, before <+: calls → ∃ streams : Streams, after? H G [start] before = some streams ∧
      streams.length = count before ∧
      ∀ i s, streams[i]? = some s →
        s.position.toNat = position before i ∧ s.get H G = start.get H G) ∧
    (∀ streams : Streams, ∀ on < streams.length,
      (∀ index, (step H G streams on (.get index)).map Prod.snd = some streams) ∧
      (∀ n, (step H G streams on (.draw n)).map Prod.snd = some streams) ∧
      ∀ call reply streams', step H G streams on call = some (reply, streams') →
        ∀ i < streams.length, i ≠ on → streams'[i]? = streams[i]?) ∧
    (∀ answer ∈ answers, ∀ x ∈ answer.scalars, x.toNat < G.q.toNat) ∧
    (∀ i, answersOf calls answers i = solo entry (inherited calls i) (own calls i)) ∧
    ∀ rename calls', Addressed calls' → Interleaving rename calls calls' →
      let answers' := replies entry [] calls'
      run H G [start] calls' = some answers' ∧
      ∀ i < count calls, position calls' (rename i) = position calls i ∧
        answersOf calls' answers' (rename i) = answersOf calls answers i := by
  intro start entry answers
  have hstart : start.position = 0 := rfl
  have hrun {calls : Calls} (h : Addressed calls) :
      run H G [start] calls = some (replies entry [] calls) := by
    rw [← after_nil]
    exact run_after hstart h
  refine ⟨hrun h, fun before => exists_after? hstart h hposition, fun streams on hon => ?_,
    ?_, answersOf_replies entry h, fun rename calls' h' hint => ?_⟩
  · refine ⟨fun index => step_snd_of_stays hon nofun fun _ _ => rfl,
      fun n => step_snd_of_stays hon nofun fun _ _ => rfl, ?_⟩
    intro call reply streams' hstep i hi hne
    exact step_getElem?_of_ne hstep hi hne
  · intro answer hanswer x hx
    obtain ⟨n, rfl⟩ := exists_of_mem_replies hanswer hx
    exact NonceStream.get_lt start _
  · exact ⟨hrun h', fun i hi => ⟨hint.position_eq h h' hi, hint.answersOf_eq h h' hi entry⟩⟩

/-- Two generations of clones, with the last two clones made in either order: the third and the
fourth stream change their indices, and nothing else. -/
theorem run_calls_small :
    let start := NonceStream.ofSeed SchnorrGroup.small (SchnorrGroup.small.toScalar 7) "label"
    let entry : Nat → Scalar := fun n =>
      start.get Sha3.hash SchnorrGroup.small (UInt64.ofNat n)
    let calls : Calls := [(0, .next), (0, .clone), (1, .take 2), (1, .clone), (0, .clone),
      (2, .next), (3, .nth 1)]
    let calls' : Calls := [(0, .next), (0, .clone), (0, .clone), (2, .nth 1), (1, .take 2),
      (1, .clone), (3, .next)]
    let answers := [.entry (entry 0), .stream 1, .entries [entry 1, entry 2], .stream 2, .stream 3,
      .entry (entry 3), .entry (entry 2)]
    let answers' := [.entry (entry 0), .stream 1, .stream 2, .entry (entry 2),
      .entries [entry 1, entry 2], .stream 3, .entry (entry 3)]
    run Sha3.hash SchnorrGroup.small [start] calls = some answers ∧
      run Sha3.hash SchnorrGroup.small [start] calls' = some answers' ∧
      answersOf calls' answers' 3 = answersOf calls answers 2 := by
  intro start entry calls calls' answers answers'
  have h : Addressed calls := .snoc (.snoc (.snoc (.snoc (.snoc (.snoc (.snoc .nil
    (by decide) _) (by decide) _) (by decide) _) (by decide) _) (by decide) _) (by decide) _)
    (by decide) _
  have h' : Addressed calls' := .snoc (.snoc (.snoc (.snoc (.snoc (.snoc (.snoc .nil
    (by decide) _) (by decide) _) (by decide) _) (by decide) _) (by decide) _) (by decide) _)
    (by decide) _
  have hint : Interleaving (fun i => if i = 2 then 3 else if i = 3 then 2 else i) calls calls' :=
    ⟨rfl, by decide, by decide⟩
  obtain ⟨hrun, -, -, -, -, horder⟩ := run_calls Sha3.hash SchnorrGroup.small
    (SchnorrGroup.small.toScalar 7) "label" h (by decide)
  obtain ⟨hrun', hanswers⟩ := horder _ calls' h' hint
  exact ⟨hrun, hrun', (hanswers 2 (by decide)).2⟩

end Streams

end BallotProof
