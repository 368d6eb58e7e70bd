import BallotProof.Proofs.Members

/-!
# Arithmetic of scalars

The operations on scalars take any words.  They are carried out with residues, on words that wrap at
`2 ^ 4096`.  What they give is fixed by two properties: it is below `q`, and it is congruent modulo
`q` to the sum, difference or product of the operands as integers, however large.  So no carry and
no borrow is lost, and all laws of these operations follow.

* `ResidueArithmetic.isMod_sum`, `isMod_difference`, `isMod_sumProduct`, ... : **every operation is
  exact**, in whatever form residues are held.
* `SchnorrGroup.scalar_operations_exact` : **exactness, laws and the encoding of integers**, on all
  words.
-/

namespace BallotProof

/-! ### Integers of any size -/

/-- The word is the integer modulo the modulus. -/
structure Word.IsMod (w : Word) (n : Int) (m : Word) : Prop where
  lt : w.toNat < m.toNat
  modEq : (w.toNat : Int) ≡ n [ZMOD m.toNat]

theorem Word.IsMod.eq_of_modEq {w w' m : Word} {n n' : Int} (h : w.IsMod n m) (h' : w'.IsMod n' m)
    (hn : n ≡ n' [ZMOD m.toNat]) : w = w' := by
  have hmod : w.toNat ≡ w'.toNat [MOD m.toNat] :=
    Int.natCast_modEq_iff.1 ((h.modEq.trans hn).trans h'.modEq.symm)
  exact Word.ext (hmod.eq_of_lt_of_lt h.lt h'.lt)

theorem Word.isMod_of_eq_emod {w m : Word} {n : Int} (hm : 0 < m.toNat)
    (h : (w.toNat : Int) = n % m.toNat) : w.IsMod n m where
  lt := by
    have hlt := Int.emod_lt_of_pos n (Int.natCast_pos.2 hm)
    omega
  modEq := by
    rw [h]
    exact Int.mod_modEq n _

namespace ResidueArithmetic

variable {m : Word} (R : ResidueArithmetic m) (hm : 0 < m.toNat)

include hm

theorem isMod_reduce (w : Word) : (R.reduce w).IsMod w.toNat m :=
  Word.isMod_of_eq_emod hm (by rw [toNat_reduce, Int.natCast_emod])

theorem isMod_sum (a b : Word) : (R.sum a b).IsMod (a.toNat + b.toNat) m :=
  Word.isMod_of_eq_emod hm (by rw [toNat_sum, Int.natCast_emod, Int.natCast_add])

theorem isMod_difference (a b : Word) : (R.difference a b).IsMod (a.toNat - b.toNat) m :=
  Word.isMod_of_eq_emod hm (R.toNat_difference a b)

theorem isMod_opposite (a : Word) : (R.opposite a).IsMod (-a.toNat) m :=
  Word.isMod_of_eq_emod hm (R.toNat_opposite a)

theorem isMod_product (a b : Word) : (R.product a b).IsMod (a.toNat * b.toNat) m :=
  Word.isMod_of_eq_emod hm (by rw [toNat_product, Int.natCast_emod, Int.natCast_mul])

theorem isMod_sumProduct (a b c : Word) :
    (R.sumProduct a b c).IsMod (a.toNat + b.toNat * c.toNat) m :=
  Word.isMod_of_eq_emod hm (by
    rw [toNat_sumProduct, Int.natCast_emod, Int.natCast_add, Int.natCast_mul])

end ResidueArithmetic

namespace SchnorrGroup

variable {G : SchnorrGroup} {s s' : Scalar} {n n' : Int}

theorem scalar_eq_of_isMod (h : s.toWord.IsMod n G.q) (h' : s'.toWord.IsMod n' G.q)
    (hn : n ≡ n' [ZMOD G.q.toNat]) : s = s' :=
  Scalar.ext (congrArg Word.toNat (h.eq_of_modEq h' hn))

theorem isMod_reduce (w : Word) : (G.reduce w).toWord.IsMod w.toNat G.q :=
  G.scalars.isMod_reduce G.q_pos w

theorem isMod_add (a b : Scalar) : (G.add a b).toWord.IsMod (a.toNat + b.toNat) G.q :=
  G.scalars.isMod_sum G.q_pos a.toWord b.toWord

theorem isMod_sub (a b : Scalar) : (G.sub a b).toWord.IsMod (a.toNat - b.toNat) G.q :=
  G.scalars.isMod_difference G.q_pos a.toWord b.toWord

theorem isMod_neg (a : Scalar) : (G.neg a).toWord.IsMod (-a.toNat) G.q :=
  G.scalars.isMod_opposite G.q_pos a.toWord

theorem isMod_mul (a b : Scalar) : (G.mul a b).toWord.IsMod (a.toNat * b.toNat) G.q :=
  G.scalars.isMod_product G.q_pos a.toWord b.toWord

theorem isMod_addMul (a b c : Scalar) :
    (G.addMul a b c).toWord.IsMod (a.toNat + b.toNat * c.toNat) G.q :=
  G.scalars.isMod_sumProduct G.q_pos a.toWord b.toWord c.toWord

/-- Residues may be held in any form: exactness leaves no choice of the results. -/
theorem operations_eq_scalars (R : ResidueArithmetic G.q) (a b c : Scalar) :
    R.reduce a.toWord = (G.reduce a.toWord).toWord ∧
    R.sum a.toWord b.toWord = (G.add a b).toWord ∧
    R.difference a.toWord b.toWord = (G.sub a b).toWord ∧
    R.opposite a.toWord = (G.neg a).toWord ∧
    R.product a.toWord b.toWord = (G.mul a b).toWord ∧
    R.sumProduct a.toWord b.toWord c.toWord = (G.addMul a b c).toWord := by
  have hq := G.q_pos
  exact ⟨(R.isMod_reduce hq _).eq_of_modEq (isMod_reduce _) rfl,
    (R.isMod_sum hq _ _).eq_of_modEq (isMod_add a b) rfl,
    (R.isMod_difference hq _ _).eq_of_modEq (isMod_sub a b) rfl,
    (R.isMod_opposite hq _).eq_of_modEq (isMod_neg a) rfl,
    (R.isMod_product hq _ _).eq_of_modEq (isMod_mul a b) rfl,
    (R.isMod_sumProduct hq _ _ _).eq_of_modEq (isMod_addMul a b c) rfl⟩

/-! ### Laws -/

theorem operations_congr {a a' b b' c c' : Scalar} (ha : a.toNat ≡ a'.toNat [MOD G.q.toNat])
    (hb : b.toNat ≡ b'.toNat [MOD G.q.toNat]) (hc : c.toNat ≡ c'.toNat [MOD G.q.toNat]) :
    G.reduce a.toWord = G.reduce a'.toWord ∧ G.add a b = G.add a' b' ∧ G.sub a b = G.sub a' b' ∧
    G.neg a = G.neg a' ∧ G.mul a b = G.mul a' b' ∧ G.addMul a b c = G.addMul a' b' c' := by
  rw [← Int.natCast_modEq_iff] at ha hb hc
  exact ⟨scalar_eq_of_isMod (isMod_reduce _) (isMod_reduce _) ha,
    scalar_eq_of_isMod (isMod_add a b) (isMod_add a' b') (ha.add hb),
    scalar_eq_of_isMod (isMod_sub a b) (isMod_sub a' b') (ha.sub hb),
    scalar_eq_of_isMod (isMod_neg a) (isMod_neg a') ha.neg,
    scalar_eq_of_isMod (isMod_mul a b) (isMod_mul a' b') (ha.mul hb),
    scalar_eq_of_isMod (isMod_addMul a b c) (isMod_addMul a' b' c') (ha.add (hb.mul hc))⟩

theorem add_neg (a b : Scalar) : G.add a (G.neg b) = G.sub a b := by
  refine scalar_eq_of_isMod (isMod_add a (G.neg b)) (isMod_sub a b) ?_
  rw [sub_eq_add_neg]
  exact (isMod_neg b).modEq.add_left _

theorem toNat_of_scalarOfInt?_eq_some {k : Int64} (h : G.scalarOfInt? k = some s) :
    (s.toNat : Int) = k.toInt :=
  (scalarOfInt?_eq_some_iff.1 h).1.symm

/-- **Arithmetic of scalars is exact.**  For any words, reduced or not, the result of every
operation is below `q` and congruent modulo `q` to the one on the operands as integers of any size,
although words wrap at `2 ^ 4096` on the way.  The same words come out of any arithmetic of
residues, in whatever form these are held.  So only the classes of the operands count, adding the
opposite is taking away, and what was taken away can be added again.  A signed integer is a scalar
exactly if it is neither negative nor as large as `q`, and then the scalar has its value. -/
theorem scalar_operations_exact (G : SchnorrGroup) :
    (∀ a b c : Scalar,
      (G.reduce a.toWord).toWord.IsMod a.toNat G.q ∧
      (G.add a b).toWord.IsMod (a.toNat + b.toNat) G.q ∧
      (G.sub a b).toWord.IsMod (a.toNat - b.toNat) G.q ∧
      (G.neg a).toWord.IsMod (-a.toNat) G.q ∧
      (G.mul a b).toWord.IsMod (a.toNat * b.toNat) G.q ∧
      (G.addMul a b c).toWord.IsMod (a.toNat + b.toNat * c.toNat) G.q) ∧
    (∀ (R : ResidueArithmetic G.q) (a b c : Scalar),
      R.reduce a.toWord = (G.reduce a.toWord).toWord ∧
      R.sum a.toWord b.toWord = (G.add a b).toWord ∧
      R.difference a.toWord b.toWord = (G.sub a b).toWord ∧
      R.opposite a.toWord = (G.neg a).toWord ∧
      R.product a.toWord b.toWord = (G.mul a b).toWord ∧
      R.sumProduct a.toWord b.toWord c.toWord = (G.addMul a b c).toWord) ∧
    (∀ a a' b b' c c' : Scalar, a.toNat ≡ a'.toNat [MOD G.q.toNat] →
      b.toNat ≡ b'.toNat [MOD G.q.toNat] → c.toNat ≡ c'.toNat [MOD G.q.toNat] →
        G.reduce a.toWord = G.reduce a'.toWord ∧ G.add a b = G.add a' b' ∧
        G.sub a b = G.sub a' b' ∧ G.neg a = G.neg a' ∧ G.mul a b = G.mul a' b' ∧
        G.addMul a b c = G.addMul a' b' c') ∧
    (∀ a b : Scalar, G.add a (G.neg b) = G.sub a b ∧ G.add (G.sub a b) b = G.reduce a.toWord) ∧
    ∀ k : Int64, ((G.scalarOfInt? k).isSome = true ↔ 0 ≤ k.toInt ∧ k.toInt < G.q.toNat) ∧
      ∀ s, G.scalarOfInt? k = some s → (s.toNat : Int) = k.toInt := by
  refine ⟨fun a b c => ?_, operations_eq_scalars, fun _ _ _ _ _ _ => operations_congr,
    fun a b => ⟨add_neg a b, add_sub_cancel a b⟩,
    fun k => ⟨isSome_scalarOfInt?_iff, fun _ => toNat_of_scalarOfInt?_eq_some⟩⟩
  exact ⟨isMod_reduce _, isMod_add a b, isMod_sub a b, isMod_neg a, isMod_mul a b,
    isMod_addMul a b c⟩

/-- Modulo 11 the largest word is 8, and 11 itself is 0, whose opposite is 0 and not 11.  The sum,
the product and their combination of largest words do not fit in a word. -/
theorem scalar_operations_exact_small :
    let a : Scalar := ⟨Word.ofNat (Word.limit - 1)⟩
    let b : Scalar := ⟨small.q⟩
    (small.addMul a a a).toWord.IsMod (a.toNat + a.toNat * a.toNat) small.q ∧
      small.add a a = small.toScalar 5 ∧ small.sub b a = small.toScalar 3 ∧ small.neg b = 0 ∧
      small.mul a a = small.toScalar 9 ∧ small.addMul a a a = small.toScalar 6 ∧
      small.add a (small.neg b) = small.sub a b ∧
      small.add (small.sub a b) b = small.toScalar 8 ∧
      (∃ s, small.scalarOfInt? 10 = some s ∧ (s.toNat : Int) = 10) ∧
      ¬ (small.scalarOfInt? 11).isSome = true ∧ ¬ (small.scalarOfInt? (-1)).isSome = true := by
  intro a b
  obtain ⟨hexact, -, hcongr, hlaws, hint⟩ := scalar_operations_exact small
  have ha : a.toNat ≡ (small.toScalar 8).toNat [MOD small.q.toNat] := by decide +kernel
  have hb : b.toNat ≡ (0 : Scalar).toNat [MOD small.q.toNat] := by decide +kernel
  obtain ⟨hreduce, hadd, -, -, hmul, haddMul⟩ := hcongr a _ a _ a _ ha ha ha
  obtain ⟨-, -, hsub, hneg, -, -⟩ := hcongr b _ a _ b _ hb ha hb
  refine ⟨(hexact a a a).2.2.2.2.2, hadd.trans (by decide +kernel), hsub.trans (by decide +kernel),
    hneg.trans (by decide +kernel), hmul.trans (by decide +kernel),
    haddMul.trans (by decide +kernel), (hlaws a b).1,
    (hlaws a b).2.trans (hreduce.trans (by decide +kernel)), ?_, ?_, ?_⟩
  · obtain ⟨s, hs⟩ := Option.isSome_iff_exists.1 ((hint 10).1.2 (by decide))
    exact ⟨s, hs, (hint 10).2 s hs⟩
  · rw [(hint 11).1]
    decide
  · rw [(hint (-1)).1]
    decide

end SchnorrGroup

end BallotProof
