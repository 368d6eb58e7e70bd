import BallotProof.Json.Forms
import BallotProof.Proofs.HexText
import Mathlib.Data.List.Forall2

/-!
# What is written in json is read back

Elements and scalars are written as canonical texts, ciphertexts and proofs as objects of them.
Reading accepts more: other texts for the same word, the members of an object in any order and
among others, and an array in place of an object.

* `Json.Faithful` : what is written is read back, and it is in canonical form whatever it was read
  from.
* `Record.Faithful` adds how a record may be spelled: neither the order of the members nor unknown
  ones count, and an array in declared order stands for the object.
* `Record.Covers` says that the parts of a record are put together from its fields and from nothing
  else; `Record.faithful_of_covers` : **such a record has a faithful form.**
* `jsonForms_faithful` : **all five types have faithful forms.**
-/

namespace BallotProof

theorem bind_eq_ok_iff {ε α β : Type} {x : Except ε α} {f : α → Except ε β} {b : β} :
    (x >>= f) = .ok b ↔ ∃ a, x = .ok a ∧ f a = .ok b := by
  cases x with
  | error e => simp [bind, Except.bind]
  | ok a => simp [bind, Except.bind]

theorem forM_congr {ε β : Type} {f g : β → Except ε Unit} {items : List β}
    (h : ∀ item ∈ items, f item = g item) : items.forM f = items.forM g := by
  induction items with
  | nil => rfl
  | cons item items ih =>
    rw [List.forall_mem_cons] at h
    rw [List.forM, List.forM, h.1, ih h.2]

theorem forM_eq_ok {ε β : Type} {f : β → Except ε Unit} {items : List β}
    (h : ∀ item ∈ items, f item = .ok ()) : items.forM f = .ok () := by
  induction items with
  | nil => rfl
  | cons item items ih =>
    rw [List.forall_mem_cons] at h
    rw [List.forM, h.1, ih h.2]
    rfl

/-! ### Looking up members -/

namespace Json

theorem lookup_eq_some_iff_mem {members : Members} (h : (members.map Prod.fst).Nodup)
    {name : String} {value : Json} :
    members.lookup name = some value ↔ (name, value) ∈ members := by
  induction members with
  | nil => simp
  | cons m rest ih =>
    obtain ⟨key, v⟩ := m
    rw [List.map_cons, List.nodup_cons] at h
    rw [lookup_cons]
    by_cases hname : name = key
    · subst hname
      have hrest : (name, value) ∉ rest := fun hmem => h.1 (List.mem_map.2 ⟨_, hmem, rfl⟩)
      simp [hrest, eq_comm]
    · simp [hname, ih h.2]

theorem lookup_perm {members members' : Members} (hperm : members.Perm members')
    (h : (members.map Prod.fst).Nodup) (name : String) :
    members.lookup name = members'.lookup name := by
  have h' : (members'.map Prod.fst).Nodup := (hperm.map Prod.fst).nodup_iff.1 h
  apply Option.ext
  intro value
  rw [lookup_eq_some_iff_mem h, lookup_eq_some_iff_mem h', hperm.mem_iff]

theorem lookup_insert {before after : Members} {name key : String} (value : Json)
    (h : name ≠ key) :
    (before ++ (key, value) :: after).lookup name = (before ++ after).lookup name := by
  rw [List.lookup_append, List.lookup_append, lookup_cons, if_neg h]

theorem lookup_zip {names : List String} {values : List Json}
    (hlen : values.length = names.length) (name : String) :
    (names.zip values).lookup name = values[names.idxOf name]? := by
  induction names generalizing values with
  | nil => simp_all
  | cons key names ih =>
    obtain _ | ⟨value, values⟩ := values
    · simp at hlen
    · rw [List.zip_cons_cons, lookup_cons, List.idxOf_cons]
      by_cases h : name = key
      · simp [h]
      · have hkey : (key == name) = false := by simpa using Ne.symm h
        rw [if_neg h, hkey, ih (by simpa using hlen), cond_false, List.getElem?_cons_succ]

end Json

/-! ### Faithful forms -/

/-- The form in which a field of the kind is written: a word as its canonical text. -/
def FieldKind.Written (value : Json) : FieldKind → Prop
  | .word => ∃ w : Word, value = .string w.toHex ∧ Hex.IsCanonical w.toHex
  | .integer => ∃ n : Int64, value = .int n.toInt

/-- The form in which a record is written: an object with one member for each field, in declared
order. -/
def Record.Written (shape : Record) (value : Json) : Prop :=
  ∃ members, value = .object members ∧
    List.Forall₂ (fun field member => member.1 = field.1 ∧ field.2.Written member.2)
      shape.fields members

/-- What is written is read back, and it has the written form whatever it was read from. -/
structure Json.Faithful {α : Type} (written : Json → Prop) (write : α → Json)
    (read : Json → Except JsonError α) : Prop where
  read_write : ∀ x, read (write x) = .ok x
  reread : ∀ value x, read value = .ok x → read (write x) = .ok x ∧ written (write x)

/-- A faithful form of a record.  Neither the order of the members of an object, which has no key
twice, nor unknown members count, and an array of the fields stands for the object with these
fields. -/
structure Record.Faithful {α : Type} (shape : Record) (write : α → Json)
    (read : Json → Except JsonError α) : Prop
    extends Json.Faithful shape.Written write read where
  read_array : ∀ values x, values.length = shape.fields.length →
    (read (.array values) = .ok x ↔
      read (.object ((shape.fields.map Prod.fst).zip values)) = .ok x)
  read_perm : ∀ members members', members.Perm members' → (members.map Prod.fst).Nodup →
    read (.object members) = read (.object members')
  read_insert : ∀ before after key value, key ∉ shape.fields.map Prod.fst →
    read (.object (before ++ (key, value) :: after)) = read (.object (before ++ after))

/-! ### Records -/

namespace Record

/-- `ofFields` gets every field of the record as a value of its kind, and looks at nothing else. -/
structure Covers {α : Type} (shape : Record) (ofFields : Fields → Except JsonError α) : Prop where
  congr : ∀ {fields fields' : Fields}, (∀ name ∈ shape.fields.map Prod.fst,
    fields.get shape name = fields'.get shape name) → ofFields fields = ofFields fields'
  checked : ∀ {fields : Fields} {x : α}, ofFields fields = .ok x → ∀ field ∈ shape.fields,
    ∃ value, fields.get shape field.1 = .ok value ∧ field.2.check value = .ok ()

variable {α : Type} {shape : Record} {ofFields : Fields → Except JsonError α}

theorem get_named_eq_ok_iff {members : Members} {name : String} {value : Json} :
    Fields.get shape name (.named members) = .ok value ↔ members.lookup name = some value := by
  rw [Fields.get]
  split
  · rename_i h
    rw [h, Except.ok.injEq, Option.some.injEq]
  · rename_i h
    simp [h]

theorem get_named_congr {members members' : Members} {name : String}
    (h : members.lookup name = members'.lookup name) :
    Fields.get shape name (.named members) = Fields.get shape name (.named members') := by
  rw [Fields.get, Fields.get, h]

/-- A field is found in an array as it is in the object with the same values. -/
theorem get_positional {values : List Json} (hlen : values.length = shape.fields.length)
    {name : String} (hname : name ∈ shape.fields.map Prod.fst) :
    Fields.get shape name (.positional values) =
      Fields.get shape name (.named ((shape.fields.map Prod.fst).zip values)) := by
  have hlen' : values.length = (shape.fields.map Prod.fst).length := by
    rw [hlen, List.length_map]
  have hlt : (shape.fields.map Prod.fst).idxOf name < values.length := by
    rw [hlen']
    exact List.idxOf_lt_length_of_mem hname
  rw [Fields.get, Fields.get, Json.lookup_zip hlen', List.getElem?_eq_getElem hlt]

theorem examine_congr {members members' : Members}
    (h : ∀ name ∈ shape.fields.map Prod.fst, members.lookup name = members'.lookup name) :
    Fields.examine shape (.named members) = Fields.examine shape (.named members') := by
  rw [Fields.examine, Fields.examine]
  refine forM_congr fun field hfield => ?_
  have hmem : field ∈ shape.fields := shape.sorted_perm.mem_iff.1 hfield
  simp only [h _ (List.mem_map_of_mem hmem)]

section Covers

variable (h : shape.Covers ofFields)

include h

theorem examine_of_ofFields {fields : Fields} {x : α} (hx : ofFields fields = .ok x) :
    fields.examine shape = .ok () := by
  cases fields with
  | positional items => rfl
  | named members =>
    refine forM_eq_ok fun field hfield => ?_
    obtain ⟨value, hget, hvalue⟩ := h.checked hx field (shape.sorted_perm.mem_iff.1 hfield)
    rw [get_named_eq_ok_iff] at hget
    simp only [hget]
    exact hvalue

theorem read_object_eq_ok_iff {members : Members} {x : α} :
    shape.read ofFields (.object members) = .ok x ↔ ofFields (.named members) = .ok x := by
  simp only [read, locate, Fields.finish, bind_eq_ok_iff, Except.ok.injEq, pure, Except.pure]
  constructor
  · rintro ⟨_, rfl, _, -, _, hx, _, -, rfl⟩
    exact hx
  · intro hx
    exact ⟨_, rfl, (), examine_of_ofFields h hx, x, hx, (), rfl, rfl⟩

theorem read_array_eq_ok_iff {values : List Json} {x : α}
    (hlen : values.length = shape.fields.length) :
    shape.read ofFields (.array values) = .ok x ↔ ofFields (.positional values) = .ok x := by
  have hfinish : Fields.finish shape (.positional values) = .ok () := by
    rw [Fields.finish, if_neg (by omega)]
  simp only [read, locate, bind_eq_ok_iff, Except.ok.injEq, pure, Except.pure]
  constructor
  · rintro ⟨_, rfl, _, -, _, hx, _, -, rfl⟩
    exact hx
  · intro hx
    exact ⟨_, rfl, (), examine_of_ofFields h hx, x, hx, (), hfinish, rfl⟩

/-- Only the members that are fields count, also for the error. -/
theorem read_object_congr {members members' : Members}
    (hlookup : ∀ name ∈ shape.fields.map Prod.fst,
      members.lookup name = members'.lookup name) :
    shape.read ofFields (.object members) = shape.read ofFields (.object members') := by
  have hfields : ofFields (.named members) = ofFields (.named members') :=
    h.congr fun name hname => get_named_congr (hlookup name hname)
  simp only [read, locate, Fields.finish, bind, Except.bind, examine_congr hlookup, hfields]

/-- **A record that is read from its fields alone has a faithful form**, if what is written has the
written form and its fields are read back. -/
theorem faithful_of_covers {write : α → Json}
    (hwrite : ∀ x, ∃ members, write x = .object members ∧ ofFields (.named members) = .ok x)
    (hwritten : ∀ x, shape.Written (write x)) : shape.Faithful write (shape.read ofFields) := by
  have hread : ∀ x, shape.read ofFields (write x) = .ok x := by
    intro x
    obtain ⟨members, hmembers, hx⟩ := hwrite x
    rw [hmembers, read_object_eq_ok_iff h, hx]
  refine ⟨⟨hread, fun _ x _ => ⟨hread x, hwritten x⟩⟩, ?_, ?_, ?_⟩
  · intro values x hlen
    rw [read_array_eq_ok_iff h hlen, read_object_eq_ok_iff h,
      h.congr fun name hname => get_positional hlen hname]
  · intro members members' hperm hnodup
    exact read_object_congr h fun name _ => Json.lookup_perm hperm hnodup name
  · intro before after key value hkey
    exact read_object_congr h fun name hname =>
      Json.lookup_insert value fun heq => hkey (heq ▸ hname)

end Covers

end Record

/-! ### Fields -/

theorem Json.toWord_ofWord (w : Word) : toWord (ofWord w) = .ok w := by
  rw [ofWord, toWord, Word.ofHex?_toHex]
  rfl

theorem FieldKind.written_ofWord (w : Word) : FieldKind.word.Written (.ofWord w) :=
  ⟨w, rfl, w.isCanonical_toHex⟩

namespace Fields

variable {shape : Record} {fields fields' : Fields} {name : String}

theorem word_congr (h : fields.get shape name = fields'.get shape name) :
    fields.word shape name = fields'.word shape name := by
  rw [word, word, h]

theorem integer_congr (h : fields.get shape name = fields'.get shape name) :
    fields.integer shape name = fields'.integer shape name := by
  rw [integer, integer, h]

theorem checked_of_word {w : Word} (h : fields.word shape name = .ok w) :
    ∃ value, fields.get shape name = .ok value ∧ FieldKind.word.check value = .ok () := by
  obtain ⟨value, hget, hword⟩ := bind_eq_ok_iff.1 h
  exact ⟨value, hget, by rw [FieldKind.check, hword]; rfl⟩

theorem checked_of_integer {n : Int64} (h : fields.integer shape name = .ok n) :
    ∃ value, fields.get shape name = .ok value ∧ FieldKind.integer.check value = .ok () := by
  obtain ⟨value, hget, hinteger⟩ := bind_eq_ok_iff.1 h
  exact ⟨value, hget, by rw [FieldKind.check, hinteger]; rfl⟩

theorem word_named {members : Members} {w : Word} (h : members.lookup name = some (.ofWord w)) :
    word shape (.named members) name = .ok w := by
  simp only [word, Record.get_named_eq_ok_iff.2 h, bind, Except.bind, Json.toWord_ofWord]

theorem integer_named {members : Members} {n : Int64}
    (h : members.lookup name = some (.ofInt64 n)) :
    integer shape (.named members) name = .ok n := by
  simp only [integer, Record.get_named_eq_ok_iff.2 h, bind, Except.bind, Json.toInt64_ofInt64]

end Fields

/-! ### The five types -/

theorem Json.faithful_of_word {α : Type} {mk : Word → α} {get : α → Word}
    (hmk : ∀ x, mk (get x) = x) :
    Faithful (FieldKind.Written · .word) (fun x => ofWord (get x))
      fun value => value.toWord.map mk := by
  have hread : ∀ x, (ofWord (get x)).toWord.map mk = .ok x := by
    intro x
    rw [toWord_ofWord, Except.map, hmk]
  exact ⟨hread, fun _ x _ => ⟨hread x, FieldKind.written_ofWord _⟩⟩

theorem Element.faithful : Json.Faithful (FieldKind.Written · .word) toJson ofJson :=
  Json.faithful_of_word fun _ => rfl

theorem Scalar.faithful : Json.Faithful (FieldKind.Written · .word) toJson ofJson :=
  Json.faithful_of_word fun _ => rfl

namespace Ciphertext

theorem covers : shape.Covers ofFields where
  congr h := by
    rw [ofFields, ofFields, Fields.word_congr (h "alpha" (by decide)),
      Fields.word_congr (h "beta" (by decide))]
  checked h := by
    simp only [ofFields, bind_eq_ok_iff] at h
    obtain ⟨_, hα, _, hβ, -⟩ := h
    simp only [shape, List.forall_mem_cons]
    exact ⟨Fields.checked_of_word hα, Fields.checked_of_word hβ, nofun⟩

theorem ofFields_members (x : Ciphertext) :
    ∃ members, x.toJson = .object members ∧ ofFields (.named members) = .ok x := by
  refine ⟨_, rfl, ?_⟩
  rw [ofFields, Fields.word_named (by rfl), Fields.word_named (by rfl)]
  rfl

theorem written_toJson (x : Ciphertext) : shape.Written x.toJson := by
  have hword := FieldKind.written_ofWord
  refine ⟨_, rfl, ?_⟩
  simp only [shape, List.forall₂_cons, List.Forall₂.nil, and_true, true_and]
  exact ⟨hword _, hword _⟩

theorem faithful : shape.Faithful toJson ofJson :=
  Record.faithful_of_covers covers ofFields_members written_toJson

end Ciphertext

namespace DisjunctiveProof

theorem covers : shape.Covers ofFields where
  congr h := by
    rw [ofFields, ofFields, Fields.word_congr (h "a0" (by decide)),
      Fields.word_congr (h "b0" (by decide)), Fields.word_congr (h "a1" (by decide)),
      Fields.word_congr (h "b1" (by decide)), Fields.word_congr (h "c0" (by decide)),
      Fields.word_congr (h "c1" (by decide)), Fields.word_congr (h "v0" (by decide)),
      Fields.word_congr (h "v1" (by decide))]
  checked h := by
    simp only [ofFields, bind_eq_ok_iff] at h
    obtain ⟨_, ha0, _, hb0, _, ha1, _, hb1, _, hc0, _, hc1, _, hv0, _, hv1, -⟩ := h
    simp only [shape, List.forall_mem_cons]
    exact ⟨Fields.checked_of_word ha0, Fields.checked_of_word hb0, Fields.checked_of_word ha1,
      Fields.checked_of_word hb1, Fields.checked_of_word hc0, Fields.checked_of_word hc1,
      Fields.checked_of_word hv0, Fields.checked_of_word hv1, nofun⟩

theorem ofFields_members (proof : DisjunctiveProof) :
    ∃ members, proof.toJson = .object members ∧ ofFields (.named members) = .ok proof := by
  refine ⟨_, rfl, ?_⟩
  rw [ofFields, Fields.word_named (by rfl), Fields.word_named (by rfl), Fields.word_named (by rfl),
    Fields.word_named (by rfl), Fields.word_named (by rfl), Fields.word_named (by rfl),
    Fields.word_named (by rfl), Fields.word_named (by rfl)]
  rfl

theorem written_toJson (proof : DisjunctiveProof) : shape.Written proof.toJson := by
  have hword := FieldKind.written_ofWord
  refine ⟨_, rfl, ?_⟩
  simp only [shape, List.forall₂_cons, List.Forall₂.nil, and_true, true_and]
  exact ⟨hword _, hword _, hword _, hword _, hword _, hword _, hword _, hword _⟩

theorem faithful : shape.Faithful toJson ofJson :=
  Record.faithful_of_covers covers ofFields_members written_toJson

end DisjunctiveProof

namespace ConstantProof

theorem covers : shape.Covers ofFields where
  congr h := by
    rw [ofFields, ofFields, Fields.word_congr (h "a" (by decide)),
      Fields.word_congr (h "b" (by decide)), Fields.word_congr (h "c" (by decide)),
      Fields.word_congr (h "v" (by decide)), Fields.integer_congr (h "constant" (by decide))]
  checked h := by
    simp only [ofFields, bind_eq_ok_iff] at h
    obtain ⟨_, ha, _, hb, _, hc, _, hv, _, hconstant, -⟩ := h
    simp only [shape, List.forall_mem_cons]
    exact ⟨Fields.checked_of_word ha, Fields.checked_of_word hb, Fields.checked_of_word hc,
      Fields.checked_of_word hv, Fields.checked_of_integer hconstant, nofun⟩

theorem ofFields_members (proof : ConstantProof) :
    ∃ members, proof.toJson = .object members ∧ ofFields (.named members) = .ok proof := by
  refine ⟨_, rfl, ?_⟩
  rw [ofFields, Fields.word_named (by rfl), Fields.word_named (by rfl), Fields.word_named (by rfl),
    Fields.word_named (by rfl), Fields.integer_named (by rfl)]
  rfl

theorem written_toJson (proof : ConstantProof) : shape.Written proof.toJson := by
  have hword := FieldKind.written_ofWord
  refine ⟨_, rfl, ?_⟩
  simp only [shape, List.forall₂_cons, List.Forall₂.nil, and_true, true_and]
  exact ⟨hword _, hword _, hword _, hword _, proof.constant, rfl⟩

theorem faithful : shape.Faithful toJson ofJson :=
  Record.faithful_of_covers covers ofFields_members written_toJson

end ConstantProof

/-- **All five types have faithful forms**, whatever their words are.  Elements and scalars are
written as canonical texts of the word, ciphertexts and proofs as objects of these, and what is
written is read back.  Of a record, neither the order of the members nor unknown ones count, for the
error as little as for the value, and an array of the fields in declared order stands for the object
with these fields. -/
theorem jsonForms_faithful :
    (Json.Faithful (FieldKind.Written · .word) Element.toJson Element.ofJson ∧
      Json.Faithful (FieldKind.Written · .word) Scalar.toJson Scalar.ofJson) ∧
    Ciphertext.shape.Faithful Ciphertext.toJson Ciphertext.ofJson ∧
    DisjunctiveProof.shape.Faithful DisjunctiveProof.toJson DisjunctiveProof.ofJson ∧
    ConstantProof.shape.Faithful ConstantProof.toJson ConstantProof.ofJson :=
  ⟨⟨Element.faithful, Scalar.faithful⟩, Ciphertext.faithful, DisjunctiveProof.faithful,
    ConstantProof.faithful⟩

/-- A ciphertext with its components in the other order and an unknown member between them. -/
theorem jsonForms_faithful_reordered :
    let x : Ciphertext := ⟨12, 3⟩
    Ciphertext.ofJson
      (.object [("beta", x.beta.toJson), ("note", .null), ("alpha", x.alpha.toJson)]) = .ok x := by
  intro x
  obtain ⟨-, hciphertext, -⟩ := jsonForms_faithful
  calc Ciphertext.ofJson
        (.object ([("beta", x.beta.toJson)] ++ ("note", .null) :: [("alpha", x.alpha.toJson)]))
      = Ciphertext.ofJson (.object [("beta", x.beta.toJson), ("alpha", x.alpha.toJson)]) :=
        hciphertext.read_insert _ _ _ _ (by decide)
    _ = Ciphertext.ofJson x.toJson := hciphertext.read_perm _ _ (.swap _ _ _) (by decide)
    _ = .ok x := hciphertext.read_write x

end BallotProof
