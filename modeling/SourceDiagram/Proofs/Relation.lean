import Mathlib.Data.List.Basic
import Mathlib.Data.Prod.Lex
import SourceDiagram.Relation

set_option autoImplicit false

namespace SourceDiagram

open SourceDiagram.Model

-- A list holds what some places give, all of it and in the order of the places.
def InOrder {ι α : Type} (before : ι → ι → Prop) (given : ι → Option α) (entries : List α) : Prop :=
  ∃ places : List ι, places.Pairwise before ∧ places.map given = entries.map some ∧
    ∀ place, (given place).isSome → place ∈ places

def inheritedAt (records : List ClassRecord) (place : Nat × Nat) : Option Edge := do
  let record ← records[place.1]?
  let base ← record.bases[place.2]?
  if base ∈ commonBases then none else some ⟨.inheritance, record.name, base⟩

def composedAt (records : List ClassRecord) (place : Nat × Nat) : Option Edge := do
  let record ← records[place.1]?
  let member ← record.attributes[place.2]?
  let part := bareName member.declaredType
  if part ∈ records.map ClassRecord.name ∧ part ≠ record.name then
    some ⟨.composition, record.name, part⟩
  else none

theorem in_order_items {α β : Type} (gives : α → Option β) (items : List α) :
    InOrder (· < ·) (fun place : Nat => items[place]?.bind gives) (items.filterMap gives) := by
  induction items with
  | nil => exact ⟨[], .nil, rfl, by simp⟩
  | cons item items ih =>
    obtain ⟨places, ascending, given, complete⟩ := ih
    have later : (places.map (· + 1)).Pairwise (· < ·) :=
      ascending.map _ fun _ _ less => Nat.succ_lt_succ less
    have shifted : (places.map (· + 1)).map (fun place => (item :: items)[place]?.bind gives) =
        (items.filterMap gives).map some := by
      rw [List.map_map, ← given]
      rfl
    cases found : gives item with
    | none =>
      refine ⟨places.map (· + 1), later, by rw [shifted, List.filterMap_cons_none found], ?_⟩
      intro place present
      cases place with
      | zero => simp [found] at present
      | succ place => exact List.mem_map_of_mem (complete place present)
    | some value =>
      refine ⟨0 :: places.map (· + 1), List.pairwise_cons.mpr ⟨?_, later⟩, ?_, ?_⟩
      · intro place member
        obtain ⟨earlier, -, rfl⟩ := List.mem_map.mp member
        exact Nat.succ_pos earlier
      · rw [List.map_cons, shifted, List.filterMap_cons_some found, List.map_cons]
        simp [found]
      · intro place present
        cases place with
        | zero => exact List.mem_cons_self
        | succ place => exact List.mem_cons_of_mem _ (List.mem_map_of_mem (complete place present))

theorem in_order_rows {ρ κ α : Type} {before : κ → κ → Prop} {cells : ρ → List α}
    {given : ρ → κ → Option α} (each : ∀ row, InOrder before (given row) (cells row))
    (rows : List ρ) :
    InOrder (Prod.Lex (· < ·) before)
      (fun place : Nat × κ => rows[place.1]?.bind fun row => given row place.2)
      (rows.flatMap cells) := by
  induction rows with
  | nil => exact ⟨[], .nil, rfl, by simp⟩
  | cons row rows ih =>
    obtain ⟨columns, across, first, whole⟩ := each row
    obtain ⟨places, ascending, later, complete⟩ := ih
    refine ⟨columns.map (fun column => (0, column)) ++
      places.map (fun place => (place.1 + 1, place.2)), List.pairwise_append.mpr ⟨?_, ?_, ?_⟩, ?_, ?_⟩
    · exact across.map _ fun _ _ less => .right 0 less
    · refine ascending.map _ fun place other less => ?_
      rcases Prod.lex_def.mp less with above | ⟨level, beside⟩
      · exact .left _ _ (Nat.succ_lt_succ above)
      · exact Prod.lex_def.mpr (.inr ⟨congrArg (· + 1) level, beside⟩)
    · intro place member other present
      obtain ⟨column, -, rfl⟩ := List.mem_map.mp member
      obtain ⟨below, -, rfl⟩ := List.mem_map.mp present
      exact .left _ _ (Nat.succ_pos _)
    · rw [List.map_append, List.map_map, List.map_map, List.flatMap_cons, List.map_append, ← first,
        ← later]
      rfl
    · rintro ⟨level, column⟩ present
      cases level with
      | zero => exact List.mem_append_left _ (List.mem_map_of_mem (whole column present))
      | succ level =>
        exact List.mem_append_right _
          (List.mem_map.mpr ⟨(level, column), complete (level, column) present, rfl⟩)

-- The places may be named otherwise, as long as the names of those that give something keep their
-- order and nothing else gives anything.
theorem InOrder.relabel {ι κ α : Type} {before : ι → ι → Prop} {after : κ → κ → Prop}
    {given : ι → Option α} {named : κ → Option α} {entries : List α} (name : ι → κ)
    (ordered : InOrder before given entries)
    (kept : ∀ place, (given place).isSome → named (name place) = given place)
    (monotone : ∀ first second, (given first).isSome → (given second).isSome →
      before first second → after (name first) (name second))
    (reached : ∀ place, (named place).isSome →
      ∃ source, (given source).isSome ∧ name source = place) :
    InOrder after named entries := by
  obtain ⟨places, ascending, found, complete⟩ := ordered
  have filled : ∀ place ∈ places, (given place).isSome := by
    intro place member
    have listed := List.mem_map_of_mem (f := given) member
    rw [found] at listed
    obtain ⟨entry, -, same⟩ := List.mem_map.mp listed
    rw [← same]
    rfl
  refine ⟨places.map name, List.pairwise_map.mpr ?_, ?_, ?_⟩
  · exact ascending.imp_of_mem fun first second less =>
      monotone _ _ (filled _ first) (filled _ second) less
  · rw [List.map_map, ← found]
    exact List.map_congr_left fun place member => kept place (filled place member)
  · intro place present
    obtain ⟨source, gives, rfl⟩ := reached place present
    exact List.mem_map_of_mem (complete source gives)

theorem inheritance_in_order (records : List ClassRecord) :
    InOrder (Prod.Lex (· < ·) (· < ·)) (inheritedAt records) (inheritance records) := by
  have kept : ∀ record : ClassRecord, record.bases.filterMap (fun base =>
      if base ∈ commonBases then none else some ⟨.inheritance, record.name, base⟩) =
      inheritanceOf record := by
    intro record
    rw [inheritanceOf, ← List.filterMap_eq_filter, ← List.filterMap_eq_map, List.filterMap_filterMap]
    refine List.filterMap_congr fun base _ => ?_
    by_cases common : base ∈ commonBases <;> simp [common, Option.guard]
  have each : ∀ record : ClassRecord, InOrder (· < ·) (fun place : Nat =>
      record.bases[place]?.bind fun base =>
        if base ∈ commonBases then none else some (Edge.mk .inheritance record.name base))
      (inheritanceOf record) := by
    intro record
    rw [← kept]
    exact in_order_items _ record.bases
  exact in_order_rows each records

theorem composition_in_order (records : List ClassRecord) :
    InOrder (Prod.Lex (· < ·) (· < ·)) (composedAt records) (composition records) := by
  have each (record : ClassRecord) :
      InOrder (· < ·) _ (compositionOf (records.map ClassRecord.name) record) :=
    in_order_items _ record.attributes
  exact in_order_rows each records

theorem count_by_owner {α : Type} {edges : ClassRecord → List Edge} {items : ClassRecord → List α}
    {matching : α → Bool} {edge : Edge} {owner : String}
    (each : ∀ record, (edges record).count edge =
      if record.name = owner then (items record).countP matching else 0)
    (records : List ClassRecord) :
    (records.flatMap edges).count edge =
      ((records.filter fun record => record.name = owner).flatMap items).countP matching := by
  induction records with
  | nil => rfl
  | cons record records ih =>
    rw [List.flatMap_cons, List.count_append, each, ih]
    by_cases own : record.name = owner
    · rw [if_pos own, List.filter_cons_of_pos (by simpa using own), List.flatMap_cons,
        List.countP_append]
    · rw [if_neg own, List.filter_cons_of_neg (by simpa using own), Nat.zero_add]

theorem mem_inheritance_of {record : ClassRecord} {edge : Edge} (member : edge ∈ inheritanceOf record) :
    ∃ base ∈ record.bases, base ∉ commonBases ∧ edge = ⟨.inheritance, record.name, base⟩ := by
  obtain ⟨base, kept, rfl⟩ := List.mem_map.mp member
  obtain ⟨present, structural⟩ := List.mem_filter.mp kept
  exact ⟨base, present, by simpa using structural, rfl⟩

theorem mem_composition_of {known : List String} {record : ClassRecord} {edge : Edge}
    (member : edge ∈ compositionOf known record) :
    ∃ part ∈ known, part ≠ record.name ∧ edge = ⟨.composition, record.name, part⟩ := by
  obtain ⟨holder, -, gives⟩ := List.mem_filterMap.mp member
  by_cases linked : bareName holder.declaredType ∈ known ∧
      bareName holder.declaredType ≠ record.name
  · rw [if_pos linked] at gives
    exact ⟨_, linked.1, linked.2, (Option.some.inj gives).symm⟩
  · rw [if_neg linked] at gives
    cases gives

theorem inheritance_of_count {owner base : String} (structural : base ∉ commonBases)
    (record : ClassRecord) :
    (inheritanceOf record).count ⟨.inheritance, owner, base⟩ =
      if record.name = owner then record.bases.countP (· == base) else 0 := by
  by_cases own : record.name = owner
  · rw [if_pos own, inheritanceOf, List.count, List.countP_map, List.countP_filter]
    refine List.countP_congr fun other _ => ?_
    simp only [Function.comp_apply, Bool.and_eq_true, beq_iff_eq, decide_eq_true_eq, own,
      Edge.mk.injEq, true_and]
    exact ⟨fun both => both.1, fun same => ⟨same, same ▸ structural⟩⟩
  · rw [if_neg own, List.count_eq_zero]
    intro member
    obtain ⟨other, -, -, same⟩ := mem_inheritance_of member
    cases same
    exact own rfl

theorem composition_of_count {known : List String} {owner part : String}
    (linked : part ∈ known ∧ part ≠ owner) (record : ClassRecord) :
    (compositionOf known record).count ⟨.composition, owner, part⟩ =
      if record.name = owner then
        record.attributes.countP fun member => bareName member.declaredType = part
      else 0 := by
  by_cases own : record.name = owner
  · rw [if_pos own, compositionOf, List.count, List.countP_filterMap]
    refine List.countP_congr fun member _ => ?_
    by_cases same : bareName member.declaredType = part
    · simp [same, linked, own]
    · dsimp only
      split <;> simp [same]
  · rw [if_neg own, List.count_eq_zero]
    intro member
    obtain ⟨other, -, -, same⟩ := mem_composition_of member
    cases same
    exact own rfl

theorem inheritance_count (records : List ClassRecord) (owner base : String) :
    (inheritance records).count ⟨.inheritance, owner, base⟩ =
      if base = "" ∨ base = "object" ∨ base = "Any" then 0
      else ((records.filter fun record => record.name = owner).flatMap ClassRecord.bases).count
        base := by
  have common_iff : base ∈ commonBases ↔ base = "" ∨ base = "object" ∨ base = "Any" := by
    simp [commonBases]
  rw [← if_congr common_iff rfl rfl]
  by_cases common : base ∈ commonBases
  · rw [if_pos common, List.count_eq_zero]
    intro member
    obtain ⟨record, -, own⟩ := List.mem_flatMap.mp member
    obtain ⟨other, -, structural, same⟩ := mem_inheritance_of own
    cases same
    exact structural common
  · rw [if_neg common]
    exact count_by_owner (inheritance_of_count common) records

theorem composition_count (records : List ClassRecord) (owner part : String) :
    (composition records).count ⟨.composition, owner, part⟩ =
      if part ∈ records.map ClassRecord.name ∧ part ≠ owner then
        ((records.filter fun record => record.name = owner).flatMap ClassRecord.attributes).countP
          fun member => bareName member.declaredType = part
      else 0 := by
  by_cases linked : part ∈ records.map ClassRecord.name ∧ part ≠ owner
  · rw [if_pos linked]
    exact count_by_owner (composition_of_count linked) records
  · rw [if_neg linked, List.count_eq_zero]
    intro member
    obtain ⟨record, -, own⟩ := List.mem_flatMap.mp member
    obtain ⟨other, known, apart, same⟩ := mem_composition_of own
    cases same
    exact linked ⟨known, apart⟩

theorem inheritance_reordered {records others : List ClassRecord} (same : others.Perm records) :
    (inheritance others).Perm (inheritance records) :=
  same.flatMap_right inheritanceOf

theorem composition_reordered {records others : List ClassRecord} (same : others.Perm records) :
    (composition others).Perm (composition records) := by
  have names := same.map ClassRecord.name
  -- The known names count as a set, so each class has the same parts in either order.
  have each : compositionOf (others.map ClassRecord.name) =
      compositionOf (records.map ClassRecord.name) := by
    funext record
    simp only [compositionOf, names.mem_iff]
  rw [composition, each]
  exact same.flatMap_right _

-- The relations are those to bases and then those to parts. There are as many from a class to a
-- base as classes of that name list the base, none if it is a common one; as many to a part as
-- attributes of classes of that name have its name as bare type, none if it is the class itself
-- or no known class. They stand in the order of the classes and of what gives them, and another
-- order of the classes reorders them.
theorem relations_complete_and_in_order (records : List ClassRecord) :
    relations records = inheritance records ++ composition records ∧
    (∀ edge ∈ inheritance records, edge.kind = .inheritance) ∧
    (∀ edge ∈ composition records, edge.kind = .composition) ∧
    (∀ owner base, (inheritance records).count ⟨.inheritance, owner, base⟩ =
      if base = "" ∨ base = "object" ∨ base = "Any" then 0
      else ((records.filter fun record => record.name = owner).flatMap ClassRecord.bases).count
        base) ∧
    (∀ owner part, (composition records).count ⟨.composition, owner, part⟩ =
      if part ∈ records.map ClassRecord.name ∧ part ≠ owner then
        ((records.filter fun record => record.name = owner).flatMap ClassRecord.attributes).countP
          fun member => bareName member.declaredType = part
      else 0) ∧
    InOrder (Prod.Lex (· < ·) (· < ·)) (inheritedAt records) (inheritance records) ∧
    InOrder (Prod.Lex (· < ·) (· < ·)) (composedAt records) (composition records) ∧
    ∀ others : List ClassRecord, others.Perm records →
      (inheritance others).Perm (inheritance records) ∧
      (composition others).Perm (composition records) := by
  refine ⟨rfl, ?_, ?_, inheritance_count records, composition_count records,
    inheritance_in_order records, composition_in_order records, ?_⟩
  · intro edge member
    obtain ⟨record, -, own⟩ := List.mem_flatMap.mp member
    obtain ⟨base, -, -, rfl⟩ := mem_inheritance_of own
    rfl
  · intro edge member
    obtain ⟨record, -, own⟩ := List.mem_flatMap.mp member
    obtain ⟨part, -, -, rfl⟩ := mem_composition_of own
    rfl
  · intro others same
    exact ⟨inheritance_reordered same, composition_reordered same⟩

theorem relations_of_owner_before_part :
    [⟨"A", ["B", "object", "B"], [⟨"x", "Optional[B]"⟩, ⟨"y", "A"⟩], []⟩, ⟨"B", ["A"], [], []⟩].Perm
      [⟨"B", ["A"], [], []⟩,
        (⟨"A", ["B", "object", "B"], [⟨"x", "Optional[B]"⟩, ⟨"y", "A"⟩], []⟩ : ClassRecord)] ∧
    (inheritance [⟨"A", ["B", "object", "B"], [⟨"x", "Optional[B]"⟩, ⟨"y", "A"⟩], []⟩,
        ⟨"B", ["A"], [], []⟩]).Perm
      [⟨.inheritance, "B", "A"⟩, ⟨.inheritance, "A", "B"⟩, ⟨.inheritance, "A", "B"⟩] ∧
    (composition [⟨"A", ["B", "object", "B"], [⟨"x", "Optional[B]"⟩, ⟨"y", "A"⟩], []⟩,
        ⟨"B", ["A"], [], []⟩]).Perm [⟨.composition, "A", "B"⟩] := by
  have moved := List.Perm.swap
    (⟨"B", ["A"], [], []⟩ : ClassRecord)
    ⟨"A", ["B", "object", "B"], [⟨"x", "Optional[B]"⟩, ⟨"y", "A"⟩], []⟩ []
  obtain ⟨-, -, -, -, -, -, -, reordered⟩ := relations_complete_and_in_order
    [⟨"B", ["A"], [], []⟩, ⟨"A", ["B", "object", "B"], [⟨"x", "Optional[B]"⟩, ⟨"y", "A"⟩], []⟩]
  exact ⟨moved, reordered _ moved⟩

end SourceDiagram
