import SourceDiagram.Json.Document
import SourceDiagram.Proofs.Json.Printing

set_option autoImplicit false

namespace SourceDiagram.Json

-- A type with the forms of its values, which are what is decoded to them.
class Formed (α : Type) [Coded α] where
  Forms : Value → α → Prop
  decoded_iff : ∀ {written : Value}, written.Proper → ∀ {value : α},
    decode? written = some value ↔ Forms written value

export Formed (Forms decoded_iff)

-- A field of a record: its key, and what may stand at it, if anything need to. This is what the
-- reader takes, where no object has a key twice.
structure Field where
  key : String
  Holds : Option Value → Prop
  Taken : Option Value → Prop
  taken_iff : ∀ {part : Option Value}, (∀ value ∈ part, value.Proper) → (Taken part ↔ Holds part)

section Fields

variable {α : Type} [Coded α] [Formed α]

def Field.required (key : String) (value : α) : Field where
  key := key
  Holds
    | some written => Forms written value
    | none => False
  Taken part := required? part = some value
  taken_iff := by
    intro part proper
    cases part with
    | none => simp [required?]
    | some written => exact decoded_iff (proper written rfl)

def Field.optional (key : String) (absent value : α) : Field where
  key := key
  Holds
    | some written => Forms written value
    | none => value = absent
  Taken part := optional? absent part = some value
  taken_iff := by
    intro part proper
    cases part with
    | none => simp [optional?, eq_comm]
    | some written => exact decoded_iff (proper written rfl)

end Fields

inductive RecordForm (fields : List Field) (spare : Nat) : Value → Prop where
  | object {entries : List (String × Value)} :
      (∀ field ∈ fields, (∃ written, (field.key, written) ∈ entries ∧ field.Holds (some written)) ∨
        field.key ∉ entries.map Prod.fst ∧ field.Holds none) →
      RecordForm fields spare (.object entries)
  | list {items : List Value} {missing : Nat} : missing ≤ spare →
      List.Forall₂ (fun part field => field.Holds part)
        (items.map some ++ List.replicate missing none) fields →
      RecordForm fields spare (.array items)

inductive ChoiceForm (word : String) : Value → Prop where
  | alone : ChoiceForm word (.string word)
  | key : ChoiceForm word (.object [(word, .null)])

theorem lookup_some_iff {entries : List (String × Value)} (distinct : (entries.map Prod.fst).Nodup)
    {key : String} {written : Value} :
    Value.lookup? key entries = some written ↔ (key, written) ∈ entries := by
  induction entries with
  | nil => simp [Value.lookup?]
  | cons entry entries ih =>
    obtain ⟨other, first⟩ := entry
    obtain ⟨missing, rest⟩ := List.nodup_cons.mp distinct
    by_cases same : other = key
    · subst same
      have behind : (other, written) ∉ entries := fun member =>
        missing (List.mem_map.mpr ⟨_, member, rfl⟩)
      simp [Value.lookup?, behind, eq_comm]
    · have later : Value.lookup? key ((other, first) :: entries) = Value.lookup? key entries := by
        simp [Value.lookup?, same]
      rw [later, ih rest]
      simp [Ne.symm same]

theorem lookup_none_iff {entries : List (String × Value)} {key : String} :
    Value.lookup? key entries = none ↔ key ∉ entries.map Prod.fst := by
  rw [Value.lookup?, Option.map_eq_none_iff, List.find?_eq_none, List.mem_map, not_exists]
  simp only [decide_eq_true_eq, not_and]

theorem object_form_iff {fields : List Field} {entries : List (String × Value)}
    (distinct : (entries.map Prod.fst).Nodup) :
    (∀ field ∈ fields, (∃ written, (field.key, written) ∈ entries ∧ field.Holds (some written)) ∨
        field.key ∉ entries.map Prod.fst ∧ field.Holds none) ↔
      List.Forall₂ (fun part field => field.Holds part)
        ((fields.map Field.key).map fun key => Value.lookup? key entries) fields := by
  rw [List.map_map, List.forall₂_map_left_iff, List.forall₂_same]
  apply forall₂_congr
  intro field _
  simp only [Function.comp_apply, ← lookup_some_iff distinct, ← lookup_none_iff]
  cases Value.lookup? field.key entries with
  | none => simp
  | some written => simp

theorem parts_proper {keys : List String} {spare : Nat} {written : Value} (proper : written.Proper)
    {parts : List (Option Value)} (found : written.fields? keys spare = some parts) :
    ∀ part ∈ parts, ∀ value ∈ part, value.Proper := by
  cases written with
  | object entries =>
    cases found
    intro part member value given
    obtain ⟨key, -, rfl⟩ := List.mem_map.mp member
    exact proper_entry proper.2 _ ((lookup_some_iff proper.1).mp given)
  | array items =>
    rw [Value.fields?] at found
    split at found
    · cases found
      intro part member value given
      rcases List.mem_append.mp member with kept | missing
      · obtain ⟨item, present, rfl⟩ := List.mem_map.mp kept
        cases given
        exact proper_item proper _ present
      · rw [List.eq_of_mem_replicate missing] at given
        cases given
    · cases found
  | _ => cases found

theorem record_form_iff {fields : List Field} {spare : Nat} {written : Value}
    (proper : written.Proper) :
    RecordForm fields spare written ↔ ∃ parts,
      written.fields? (fields.map Field.key) spare = some parts ∧
      List.Forall₂ (fun part field => field.Holds part) parts fields := by
  cases written with
  | object entries =>
    constructor
    · rintro ⟨held⟩
      exact ⟨_, rfl, (object_form_iff proper.1).mp held⟩
    · rintro ⟨parts, found, held⟩
      cases found
      exact .object ((object_form_iff proper.1).mpr held)
  | array items =>
    rw [Value.fields?, List.length_map]
    constructor
    · rintro (_ | ⟨short, held⟩)
      rename_i missing
      have size := held.length_eq
      simp only [List.length_append, List.length_map, List.length_replicate] at size
      have fits :
          (items.length ≤ fields.length && fields.length ≤ items.length + spare) = true := by
        simp only [Bool.and_eq_true, decide_eq_true_eq]
        omega
      have lacking : fields.length - items.length = missing := by omega
      exact ⟨_, by rw [if_pos fits, lacking], held⟩
    · rintro ⟨parts, found, held⟩
      by_cases fits : (items.length ≤ fields.length && fields.length ≤ items.length + spare) = true
      · rw [if_pos fits] at found
        cases found
        simp only [Bool.and_eq_true, decide_eq_true_eq] at fits
        exact .list (by omega) held
      · rw [if_neg fits] at found
        cases found
  | _ =>
    constructor
    · rintro ⟨⟩
    · rintro ⟨parts, found, -⟩
      cases found

theorem record_taken_iff {fields : List Field} {spare : Nat} {written : Value}
    (proper : written.Proper) :
    RecordForm fields spare written ↔ ∃ parts,
      written.fields? (fields.map Field.key) spare = some parts ∧
      List.Forall₂ (fun part field => field.Taken part) parts fields := by
  rw [record_form_iff proper]
  apply exists_congr
  intro parts
  apply and_congr_right
  intro found
  have solid (Fits : Option Value → Field → Prop) : List.Forall₂ Fits parts fields ↔
      List.Forall₂ (fun part field => (∀ value ∈ part, value.Proper) ∧ Fits part field)
        parts fields := by
    rw [List.forall₂_and_left]
    exact (and_iff_right (parts_proper proper found)).symm
  rw [solid, solid fun part field => field.Taken part]
  constructor
  · intro held
    exact held.imp fun _ field ⟨proper, holds⟩ => ⟨proper, (field.taken_iff proper).mpr holds⟩
  · intro held
    exact held.imp fun _ field ⟨proper, taken⟩ => ⟨proper, (field.taken_iff proper).mp taken⟩

section Made

variable {α β : Type} {value : α} {fields : List Field} {known : Prop}

-- What a reader makes of its parts: `value`, if what is read already is what is `known` of it and
-- the parts are taken by the fields that are left.
def Makes (read : List (Option Value) → Option α) (value : α) (known : Prop)
    (fields : List Field) : Prop :=
  ∀ parts, read parts = some value ↔
    known ∧ List.Forall₂ (fun part field => field.Taken part) parts fields

theorem take_part_makes {take? : Option Value → Option β} {field : Field} {taken : β}
    {rest : β → List (Option Value) → Option α}
    (takes : ∀ part, field.Taken part ↔ take? part = some taken)
    (makes : ∀ other, Makes (rest other) value (known ∧ other = taken) fields) :
    Makes (takePart take? rest) value known (field :: fields) := by
  rintro (_ | ⟨part, parts⟩)
  · simp [takePart]
  · rw [takePart, Option.bind_eq_some_iff, List.forall₂_cons, takes]
    constructor
    · rintro ⟨other, found, read⟩
      obtain ⟨⟨held, rfl⟩, later⟩ := (makes other parts).mp read
      exact ⟨held, found, later⟩
    · rintro ⟨held, found, later⟩
      exact ⟨taken, found, (makes taken parts).mpr ⟨⟨held, rfl⟩, later⟩⟩

theorem required_makes [Coded β] [Formed β] {key : String} {taken : β}
    {rest : β → List (Option Value) → Option α}
    (makes : ∀ other, Makes (rest other) value (known ∧ other = taken) fields) :
    Makes (takePart required? rest) value known (.required key taken :: fields) :=
  take_part_makes (fun _ => .rfl) makes

theorem optional_makes [Coded β] [Formed β] {key : String} {absent taken : β}
    {rest : β → List (Option Value) → Option α}
    (makes : ∀ other, Makes (rest other) value (known ∧ other = taken) fields) :
    Makes (takePart (optional? absent) rest) value known (.optional key absent taken :: fields) :=
  take_part_makes (fun _ => .rfl) makes

theorem parts_taken_makes {made : α} (same : made = value ↔ known) :
    Makes (partsTaken made) value known [] := by
  rintro (_ | ⟨part, parts⟩) <;> simp [partsTaken, same]

theorem record_decoded_iff [Coded α] {written : Value} (proper : written.Proper) {spare : Nat}
    {read : List (Option Value) → Option α}
    (decoder : decode? written = (written.fields? (fields.map Field.key) spare).bind read)
    (makes : Makes read value True fields) :
    decode? written = some value ↔ RecordForm fields spare written := by
  rw [record_taken_iff proper, decoder, Option.bind_eq_some_iff]
  apply exists_congr
  intro parts
  rw [makes parts, true_and]

end Made

instance : Formed String where
  Forms written text := written = .string text
  decoded_iff := by
    intro written _ text
    cases written <;> simp [decode?]

section Nested

variable {α : Type} [Coded α] [Formed α]

theorem all_decoded_iff {items : List Value} (proper : AllProper items) {values : List α} :
    decodeAll? items = some values ↔ List.Forall₂ Forms items values := by
  induction items generalizing values with
  | nil => cases values <;> simp [decodeAll?]
  | cons item items ih =>
    cases values with
    | nil => simp [decodeAll?, Option.bind_eq_some_iff]
    | cons value values =>
      rw [List.forall₂_cons, ← decoded_iff proper.1, ← ih proper.2]
      simp [decodeAll?, Option.bind_eq_some_iff]

instance : Formed (List α) where
  Forms written values := ∃ items, written = .array items ∧ List.Forall₂ Forms items values
  decoded_iff := by
    intro written proper values
    cases written with
    | array items => simpa [decode?] using all_decoded_iff proper
    | _ => simp [decode?]

instance : Formed (Option α) where
  Forms written
    | none => written = .null
    | some value => written ≠ .null ∧ Forms written value
  decoded_iff := by
    intro written proper value
    cases value with
    | none => cases written <;> simp [decode?]
    | some value =>
      change _ ↔ written ≠ .null ∧ Forms written value
      rw [← decoded_iff proper]
      cases written <;> simp [decode?]

end Nested

theorem choice_word_iff {written : Value} {word : String} :
    written.choice? = some word ↔ ChoiceForm word written := by
  constructor
  · intro chosen
    unfold Value.choice? at chosen
    split at chosen
    · cases chosen
      exact .alone
    · cases chosen
      exact .key
    · cases chosen
  · rintro (_ | _)
    · rfl
    · rfl

section Words

variable {α : Type} {all : List α} {word : α → String}

theorem word_found_iff (complete : ∀ choice, choice ∈ all)
    (distinct : ∀ one other, word one = word other → one = other) {chosen : String} {choice : α} :
    (all.find? fun choice => word choice = chosen) = some choice ↔ chosen = word choice := by
  constructor
  · intro found
    have same := List.find?_some found
    exact (of_decide_eq_true same).symm
  · rintro rfl
    cases found : all.find? fun other => word other = word choice with
    | none => exact absurd (List.find?_eq_none.mp found choice (complete choice)) (by simp)
    | some other =>
      have same := List.find?_some found
      rw [distinct other choice (of_decide_eq_true same)]

theorem choose_iff (complete : ∀ choice, choice ∈ all)
    (distinct : ∀ one other, word one = word other → one = other) {written : Value} {choice : α} :
    choose? all word written = some choice ↔ ChoiceForm (word choice) written := by
  rw [← choice_word_iff, choose?]
  simp only [Option.bind_eq_bind, Option.bind_eq_some_iff, word_found_iff complete distinct,
    exists_eq_right]

end Words

end SourceDiagram.Json
