/-!
# Itemised checks

The outcome of a verification is a list of named checks in a fixed order.

* `Checks.isValid` : all checks passed.
* `Checks.failed` : the names of those that did not.
* `Checks.outcome?` : the outcome of the first check of a name.
* `Checks.isValid_iff` : a list is valid exactly if no check failed.
* `Checks.sublist_failed_iff` : the failed names are the longest list, in order, of failed checks.
* `Checks.outcome?_eq_some_iff` : what is found for a name belongs to the first check of this name.
* `Checks.outcome?_eq_some_iff_mem` : where the names are different, each check has its outcome.
-/

namespace BallotProof

/-- Checks by name, passed or not. -/
abbrev Checks := List (String × Bool)

namespace Checks

/-- All checks passed. -/
def isValid (checks : Checks) : Bool :=
  checks.all fun item => item.2

/-- The names of the checks that did not pass, in order. -/
def failed (checks : Checks) : List String :=
  (checks.filter fun item => !item.2).map fun item => item.1

/-- The outcome of the first check with the name. -/
def outcome? (checks : Checks) (name : String) : Option Bool :=
  (checks.find? fun item => item.1 == name).map fun item => item.2

theorem isValid_iff {checks : Checks} : checks.isValid = true ↔ checks.failed = [] := by
  simp [isValid, failed, List.filter_eq_nil_iff]

theorem failed_cons {name : String} {b : Bool} {rest : Checks} :
    failed ((name, b) :: rest) = (if b then [] else [name]) ++ failed rest := by
  cases b <;> rfl

theorem failed_cons_true {name : String} {rest : Checks} :
    failed ((name, true) :: rest) = failed rest := by
  rw [failed_cons, if_pos rfl, List.nil_append]

/-- The failed names, with the outcome put back, are the checks that did not pass. -/
theorem map_failed (checks : Checks) :
    (checks.failed.map fun name => (name, false)) = checks.filter fun item => !item.2 := by
  induction checks with
  | nil => rfl
  | cons item rest ih =>
    obtain ⟨name, passed⟩ := item
    cases passed <;> simp [failed_cons, ih]

theorem failed_map (names : List String) :
    failed (names.map fun name => (name, false)) = names := by
  induction names with
  | nil => rfl
  | cons name names ih => simp [failed_cons, ih]

theorem failed_sublist {xs ys : Checks} (h : xs.Sublist ys) : (failed xs).Sublist (failed ys) :=
  (h.filter _).map _

/-- The failed names are the longest list, in the order of the checks, of which every entry is a
failed check. -/
theorem sublist_failed_iff {checks : Checks} {names : List String} :
    names.Sublist checks.failed ↔ (names.map fun name => (name, false)).Sublist checks := by
  refine ⟨fun h => ?_, fun h => ?_⟩
  · have hkept := h.map fun name => (name, false)
    rw [map_failed] at hkept
    exact hkept.trans List.filter_sublist
  · have hkept := failed_sublist h
    rwa [failed_map] at hkept

theorem mem_failed {checks : Checks} {name : String} :
    name ∈ checks.failed ↔ (name, false) ∈ checks := by
  simp [failed]

theorem outcome?_eq_none_iff {checks : Checks} {name : String} :
    checks.outcome? name = none ↔ name ∉ checks.map Prod.fst := by
  rw [outcome?, Option.map_eq_none_iff, List.find?_eq_none]
  simp only [beq_iff_eq, List.mem_map, not_exists, not_and]

/-- What is found for a name is the outcome of the first check of this name. -/
theorem outcome?_eq_some_iff {checks : Checks} {name : String} {b : Bool} :
    checks.outcome? name = some b ↔
      ∃ before after, checks = before ++ (name, b) :: after ∧ name ∉ before.map Prod.fst := by
  have hnames : ∀ before : Checks, name ∉ before.map Prod.fst ↔
      ∀ item ∈ before, (!item.1 == name) = true := by
    intro before
    simp only [List.mem_map, not_exists, not_and, Bool.not_eq_true', beq_eq_false_iff_ne, ne_eq]
  simp only [outcome?, Option.map_eq_some_iff, List.find?_eq_some_iff_append, beq_iff_eq, hnames]
  refine ⟨?_, ?_⟩
  · rintro ⟨⟨_, _⟩, ⟨rfl, before, after, rfl, hbefore⟩, rfl⟩
    exact ⟨before, after, rfl, hbefore⟩
  · rintro ⟨before, after, rfl, hbefore⟩
    exact ⟨(name, b), ⟨rfl, before, after, rfl, hbefore⟩, rfl⟩

/-- Of two checks with one name the first is found, also where the second is the one that failed. -/
example : outcome? [("a", true), ("b", true), ("a", false)] "a" = some true ∧
    failed [("a", true), ("b", true), ("a", false)] = ["a"] := by
  decide

/-- Where the names are different, each check can be asked for by its name. -/
theorem outcome?_eq_some_of_mem {checks : Checks} {name : String} {b : Bool}
    (hnames : (checks.map Prod.fst).Nodup) (h : (name, b) ∈ checks) :
    checks.outcome? name = some b := by
  induction checks with
  | nil => exact nomatch h
  | cons item rest ih =>
    rw [List.map_cons, List.nodup_cons] at hnames
    rw [outcome?, List.find?_cons]
    rcases List.mem_cons.1 h with rfl | h
    · simp
    · have hne : (item.1 == name) = false := by
        rw [beq_eq_false_iff_ne]
        rintro rfl
        exact hnames.1 (List.mem_map.2 ⟨_, h, rfl⟩)
      rw [hne]
      exact ih hnames.2 h

/-- Where the names are different, what is found for a name is its check. -/
theorem outcome?_eq_some_iff_mem {checks : Checks} {name : String} {b : Bool}
    (hnames : (checks.map Prod.fst).Nodup) :
    checks.outcome? name = some b ↔ (name, b) ∈ checks := by
  refine ⟨fun h => ?_, outcome?_eq_some_of_mem hnames⟩
  obtain ⟨before, after, rfl, -⟩ := outcome?_eq_some_iff.1 h
  simp

end Checks

end BallotProof
