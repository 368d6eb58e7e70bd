import BallotProof.Proofs.Decryption

/-!
# Tallies of ciphertexts

The aggregate of a list of ciphertexts is the product of the first components together with the
product of the second ones, whatever words these are.  So it does not depend on the order in which
the ciphertexts are listed, nor on how they are grouped.  If the ciphertexts were made by encryption
under one key, the aggregate is again such a ciphertext, of the sum of the plaintexts under the sum
of the nonces.

* `Ciphertext.aggregate_eq_prod` : an aggregate is a pair of products.
* `Ciphertext.accepted_of_mapM_encrypt?` : encryption of a list only succeeds with accepted nonces.
* `Ciphertext.aggregate_encrypt_eq` : the aggregate of encryptions over members.
* `Ciphertext.aggregate_tally` : **homomorphic tallying**: order and grouping do not matter, and
  the aggregate is the encryption of the sum and decrypts to it.
-/

namespace BallotProof

open SchnorrGroup

variable {G : SchnorrGroup}

namespace Ciphertext

/-! ### Arbitrary components -/

/-- The sum is built up from the left, so it may start at any pair of products. -/
theorem foldl_add_prod (xs : List Ciphertext) (as bs : List Element) :
    xs.foldl (add G) ⟨G.prod as, G.prod bs⟩ =
      ⟨G.prod (as ++ xs.map alpha), G.prod (bs ++ xs.map beta)⟩ := by
  induction xs generalizing as bs with
  | nil => simp
  | cons x xs ih =>
    have hstep : add G ⟨G.prod as, G.prod bs⟩ x =
        ⟨G.prod (as ++ [x.alpha]), G.prod (bs ++ [x.beta])⟩ := by
      rw [add, prod_concat, prod_concat]
    rw [List.foldl_cons, hstep, ih]
    simp

theorem trivial_eq_prod : trivial = ⟨G.prod [], G.prod []⟩ := by
  have hprod : G.prod [] = (1 : Element) := by
    simpa [one_eq (G := G)] using prod_map_element (G := G) []
  rw [hprod, trivial]

theorem aggregate_eq_prod (xs : List Ciphertext) :
    aggregate G xs = ⟨G.prod (xs.map alpha), G.prod (xs.map beta)⟩ := by
  rw [aggregate, trivial_eq_prod (G := G), foldl_add_prod, List.nil_append, List.nil_append]

theorem aggregate_perm {xs ys : List Ciphertext} (h : xs.Perm ys) :
    aggregate G xs = aggregate G ys := by
  rw [aggregate_eq_prod, aggregate_eq_prod, prod_perm (h.map alpha), prod_perm (h.map beta)]

theorem aggregate_append (xs ys : List Ciphertext) :
    aggregate G (xs ++ ys) = add G (aggregate G xs) (aggregate G ys) := by
  simp only [aggregate_eq_prod, add, List.map_append, prod_append]

theorem aggregate_lt (xs : List Ciphertext) :
    (aggregate G xs).alpha.toNat < G.p.toNat ∧ (aggregate G xs).beta.toNat < G.p.toNat := by
  rw [aggregate_eq_prod]
  exact ⟨toNat_prod_lt _, toNat_prod_lt _⟩

/-! ### Encryptions under one key -/

section Encryptions

variable {key : Element} {ballots : List (Nat × Scalar)} {xs : List Ciphertext}

theorem accepted_of_mapM_encrypt? (h : (ballots.mapM fun b => encrypt? G b.1 b.2 key) = some xs) :
    ∀ b ∈ ballots, 0 < b.2.toNat ∧ b.2.toNat < G.q.toNat := by
  induction ballots generalizing xs with
  | nil => simp
  | cons b ballots ih =>
    rw [List.mapM_cons, Option.bind_eq_bind, Option.bind_eq_some_iff] at h
    obtain ⟨x, hx, hrest⟩ := h
    rw [Option.bind_eq_bind, Option.bind_eq_some_iff] at hrest
    obtain ⟨xs, hxs, -⟩ := hrest
    have hb : encrypt? G b.1 b.2 key ≠ none := by
      rw [hx]
      exact Option.some_ne_none x
    rw [ne_eq, encrypt?_eq_none_iff] at hb
    rw [List.forall_mem_cons]
    exact ⟨by omega, ih hxs⟩

theorem aggregate_encrypt_eq (κ : G.Members)
    (h : (ballots.mapM fun b => encrypt? G b.1 b.2 (G.element κ)) = some xs) :
    aggregate G xs = ofClasses κ ((ballots.map Prod.fst).sum : Nat)
      ((ballots.map fun b => b.2.toNat).sum : Nat) := by
  rw [mapM_encrypt?_element κ (accepted_of_mapM_encrypt? h), Option.some.injEq] at h
  rw [← h, aggregate_ofClasses, Nat.cast_list_sum, Nat.cast_list_sum, List.map_map, List.map_map]
  rfl

theorem exponent_sum_nonces (ballots : List (Nat × Scalar)) :
    G.exponent ((ballots.map Prod.snd).foldl G.add 0) =
      ((ballots.map fun b => b.2.toNat).sum : Nat) := by
  rw [exponent_foldl_add, exponent_zero, zero_add, Nat.cast_list_sum, List.map_map, List.map_map]
  rfl

end Encryptions

/-- **Homomorphic tallying.**  For any words, the aggregate of a list of ciphertexts is reduced and
depends neither on their order nor on their grouping.  For encryptions under a power of the
generator it is the pair of powers that belong to the sum of the plaintexts and the sum of the
nonces, which is what encryption gives for them unless the nonces add up to zero.  In a group of
prime order the secret key decrypts it to the sum of the plaintexts modulo the order, if this is
below the bound, and so do the nonces added up. -/
theorem aggregate_tally (G : SchnorrGroup) :
    (∀ xs ys : List Ciphertext, xs.Perm ys → aggregate G xs = aggregate G ys) ∧
    (∀ xs ys : List Ciphertext,
      aggregate G (xs ++ ys) = add G (aggregate G xs) (aggregate G ys)) ∧
    (∀ xs : List Ciphertext,
      (aggregate G xs).alpha.toNat < G.p.toNat ∧ (aggregate G xs).beta.toNat < G.p.toNat) ∧
    (∀ (s : Scalar) (ballots : List (Nat × Scalar)) (xs : List Ciphertext),
      (ballots.mapM fun b => encrypt? G b.1 b.2 (G.generatorPow s)) = some xs →
        let key := G.generatorPow s
        let M := (ballots.map Prod.fst).sum
        let R := (ballots.map fun b => b.2.toNat).sum
        aggregate G xs =
          ⟨G.toElement (G.g.toNat ^ R), G.toElement (G.g.toNat ^ M * key.toNat ^ R)⟩ ∧
        (R % G.q.toNat ≠ 0 → ∀ m, m ≡ M [MOD G.q.toNat] →
          encrypt? G m (G.toScalar R) key = some (aggregate G xs)) ∧
        (G.q.toNat.Prime → ∀ bound,
          (aggregate G xs).decrypt? G s bound =
            (if M % G.q.toNat < bound then some (M % G.q.toNat) else none) ∧
          (aggregate G xs).decryptWithNonce? G ((ballots.map Prod.snd).foldl G.add 0) key bound =
            (aggregate G xs).decrypt? G s bound)) := by
  refine ⟨fun xs ys => aggregate_perm, aggregate_append, aggregate_lt, fun s ballots xs h => ?_⟩
  rw [generatorPow_eq] at h ⊢
  intro key M R
  have hsum := aggregate_encrypt_eq (G.exponent s • G.base) h
  refine ⟨hsum.trans (eq_ofClasses _ M R).symm, fun hR m hm => ?_, fun hq bound => ?_⟩
  · have hm : (m : ZMod G.q.toNat) = M := (ZMod.natCast_eq_natCast_iff _ _ _).2 hm
    rw [encrypt?_element _ m (Nat.pos_of_ne_zero hR) (toScalar_lt R), hsum, exponent_toScalar, hm]
  · rw [← exponent_sum_nonces] at hsum
    obtain ⟨hsecret, hnonce, -⟩ := routes_ofClasses hq s
      ((ballots.map Prod.snd).foldl G.add 0) (M : ZMod G.q.toNat) bound
    rw [hsum, hsecret s rfl, hnonce _ rfl, ZMod.val_natCast]
    exact ⟨rfl, rfl⟩

/-- The plaintexts 9 and 4 with the nonces 5 and 8 in the group of order 11, in either order. -/
theorem aggregate_tally_small :
    let key := small.generatorPow (small.toScalar 3)
    ∃ x y, ([(9, small.toScalar 5), (4, small.toScalar 8)].mapM fun b =>
        encrypt? small b.1 b.2 key) = some [x, y] ∧
      aggregate small [x, y] = aggregate small [y, x] ∧
      encrypt? small 2 (small.toScalar 13) key = some (aggregate small [x, y]) ∧
      (aggregate small [x, y]).decrypt? small (small.toScalar 3) 3 = some 2 := by
  intro key
  have hencrypt : ([(9, small.toScalar 5), (4, small.toScalar 8)].mapM fun b =>
      encrypt? small b.1 b.2 key) = some [_, _] :=
    (congrArg (fun key => [_, _].mapM fun b : Nat × Scalar => encrypt? small b.1 b.2 key)
      (generatorPow_eq (small.toScalar 3))).trans (mapM_encrypt?_element _ (by decide))
  obtain ⟨hperm, -, -, htally⟩ := aggregate_tally small
  obtain ⟨-, hsum, hdecrypt⟩ := htally _ _ _ hencrypt
  exact ⟨_, _, hencrypt, hperm _ _ (.swap _ _ _), hsum (by decide) 2 rfl,
    (hdecrypt small_q_prime 3).1⟩

end Ciphertext

end BallotProof
