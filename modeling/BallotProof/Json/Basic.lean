import BallotProof.Decimal.Shortest

/-!
# Json values

The values that requests, answers and records are written in. Integers of 64 bits, signed or
unsigned, are kept apart from doubles, and the members of an object keep the order in which they
were written.

* `Json.put` adds a member, taking the place of an earlier one with the same key.
* `Json.member?` looks a key up.
* `Json.lookup_put` : what `put` does to later look-ups.
-/

namespace BallotProof

/-- A json value. -/
inductive Json where
  /-- The absent value. -/
  | null
  /-- A truth value. -/
  | bool (value : Bool)
  /-- An integer from `-2 ^ 63` up to `2 ^ 64 - 1`. -/
  | int (value : Int)
  /-- Any other number. -/
  | double (value : Double)
  /-- A text. -/
  | string (text : String)
  /-- A sequence of values. -/
  | array (items : List Json)
  /-- Keys with their values. -/
  | object (members : List (String × Json))

/-- The members of an object. -/
abbrev Members := List (String × Json)

namespace Json

/-- The members with `key` set to `value`: in the place of the old value, or else at the end. -/
def put (key : String) (value : Json) : Members → Members
  | [] => [(key, value)]
  | (k, v) :: rest => if k = key then (key, value) :: rest else (k, v) :: put key value rest

theorem lookup_cons (k key : String) (value : Json) (rest : Members) :
    List.lookup k ((key, value) :: rest) = if k = key then some value else rest.lookup k := by
  by_cases h : k = key
  · subst h
    simp
  · have hb : (k == key) = false := by simpa using h
    simp [List.lookup_cons, hb, h]

theorem lookup_put (key : String) (value : Json) (members : Members) (k : String) :
    (put key value members).lookup k = if k = key then some value else members.lookup k := by
  induction members with
  | nil => simp [put, lookup_cons]
  | cons m rest ih =>
    obtain ⟨k', v⟩ := m
    by_cases hk' : k' = key
    · subst hk'
      by_cases h : k = k' <;> simp [put, lookup_cons, h]
    · by_cases h : k = k'
      · subst h
        simp [put, hk']
      · simp [put, hk', lookup_cons, h, ih]

/-- The keys stay distinct. -/
theorem nodup_keys_put {key : String} {value : Json} {members : Members}
    (h : (members.map Prod.fst).Nodup) : ((put key value members).map Prod.fst).Nodup := by
  have mem : ∀ (ms : Members) k, k ∈ (put key value ms).map Prod.fst →
      k = key ∨ k ∈ ms.map Prod.fst := by
    intro ms k hk
    induction ms with
    | nil => simpa [put] using hk
    | cons m rest ih =>
      obtain ⟨k', v⟩ := m
      by_cases hk' : k' = key <;> simp only [put, hk', if_true, if_false, List.map_cons,
        List.mem_cons] at hk ⊢
      · rcases hk with hk | hk
        · exact .inl hk
        · exact .inr (.inr hk)
      · rcases hk with hk | hk
        · exact .inr (.inl hk)
        · exact (ih hk).imp id .inr
  induction members with
  | nil => simp [put]
  | cons m rest ih =>
    obtain ⟨k', v⟩ := m
    simp only [List.map_cons, List.nodup_cons] at h
    by_cases hk' : k' = key
    · subst hk'
      simpa [put] using h
    · simp only [put, hk', if_false, List.map_cons, List.nodup_cons]
      refine ⟨fun hin => ?_, ih h.2⟩
      exact (mem rest k' hin).elim hk' h.1

/-- The value of a member of an object. -/
def member? (key : String) : Json → Option Json
  | .object members => members.lookup key
  | _ => none

end Json

end BallotProof
