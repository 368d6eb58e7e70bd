/-!
# Records as text

How a value with all its parts is written out for a developer: the name of its kind, then the one
part between parentheses or the named parts between braces.

* `Text.wrapped` and `Text.record` write such values.
* `Text.record_injective` : the values of the fields can be told from the text, if those of each
  field but the last are equally long.
-/

namespace BallotProof

namespace Text

/-- A value with one part that has no name. -/
def wrapped (name value : String) : String :=
  name ++ "(" ++ value ++ ")"

/-- Names and values, separated by a comma and a space. -/
def fieldList (fields : List (String × String)) : String :=
  ", ".intercalate (fields.map fun field => field.1 ++ ": " ++ field.2)

/-- A value with named parts. -/
def record (name : String) (fields : List (String × String)) : String :=
  name ++ " \x7b " ++ fieldList fields ++ " \x7d"

/-! ### The parts are determined -/

theorem wrapped_injective {name value value' : String}
    (h : wrapped name value = wrapped name value') : value = value' :=
  (String.append_right_inj _).1 ((String.append_left_inj _).1 h)

theorem append_inj {s s' t t' : String} (hlength : s.length = s'.length)
    (h : s ++ t = s' ++ t') : s = s' ∧ t = t' := by
  rw [← String.length_toList, ← String.length_toList] at hlength
  have hlists : s.toList ++ t.toList = s'.toList ++ t'.toList := by
    rw [← String.toList_append, h, String.toList_append]
  obtain ⟨hs, ht⟩ := List.append_inj hlists hlength
  exact ⟨String.toList_inj.1 hs, String.toList_inj.1 ht⟩

theorem fieldList_cons_cons (field next : String × String) (fields : List (String × String)) :
    fieldList (field :: next :: fields) =
      field.1 ++ ": " ++ (field.2 ++ (", " ++ fieldList (next :: fields))) := by
  simp only [fieldList, List.map_cons, String.intercalate_cons_cons, String.append_assoc]

/-- What follows a field is found by counting, so that only the last value may have any length. -/
theorem fieldList_injective {fields fields' : List (String × String)}
    (hnames : fields.map Prod.fst = fields'.map Prod.fst)
    (hlengths : fields.dropLast.map (fun field => field.2.length) =
      fields'.dropLast.map fun field => field.2.length)
    (h : fieldList fields = fieldList fields') : fields = fields' := by
  induction fields generalizing fields' with
  | nil => exact (List.map_eq_nil_iff.1 hnames.symm).symm
  | cons field fields ih =>
    obtain ⟨field', fields', rfl⟩ : ∃ field' rest, fields' = field' :: rest :=
      List.exists_cons_of_ne_nil fun hnil => by simp [hnil] at hnames
    obtain ⟨hname, hnames⟩ := List.cons.inj hnames
    cases fields with
    | nil =>
      rw [List.map_eq_nil_iff.1 hnames.symm] at h ⊢
      have hvalue : field.2 = field'.2 := by
        simpa [fieldList, hname] using h
      rw [Prod.ext hname hvalue]
    | cons next fields =>
      obtain ⟨next', fields', rfl⟩ : ∃ next' rest, fields' = next' :: rest :=
        List.exists_cons_of_ne_nil fun hnil => by simp [hnil] at hnames
      obtain ⟨hlength, hlengths⟩ := List.cons.inj hlengths
      rw [fieldList_cons_cons, fieldList_cons_cons, hname] at h
      obtain ⟨hvalue, hrest⟩ := append_inj hlength ((String.append_right_inj _).1 h)
      rw [Prod.ext hname hvalue, ih hnames hlengths ((String.append_right_inj _).1 hrest)]

theorem record_injective {name : String} {fields fields' : List (String × String)}
    (hnames : fields.map Prod.fst = fields'.map Prod.fst)
    (hlengths : fields.dropLast.map (fun field => field.2.length) =
      fields'.dropLast.map fun field => field.2.length)
    (h : record name fields = record name fields') : fields = fields' :=
  fieldList_injective hnames hlengths
    ((String.append_right_inj _).1 ((String.append_left_inj _).1 h))

end Text

end BallotProof
