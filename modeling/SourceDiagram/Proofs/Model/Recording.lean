import SourceDiagram.Proofs.Model.Sights

set_option autoImplicit false

namespace SourceDiagram.Model

namespace ClassRecord

def attributeNames (record : ClassRecord) : List String :=
  record.attributes.map Attribute.name

def after (record : ClassRecord) (sights : List Attribute) : ClassRecord :=
  sights.foldl addAttribute record

end ClassRecord

-- The sights without those that declare no type for a name that is known or was seen before.
def telling (known : List String) : List Attribute → List Attribute
  | [] => []
  | sight :: sights =>
    if sight.declaredType = "" ∧ sight.name ∈ known then telling known sights
    else sight :: telling (sight.name :: known) sights

theorem last_type_append (earlier later : List Attribute) (name : String) :
    lastType (earlier ++ later) name =
      if lastType later name = "" then lastType earlier name else lastType later name := by
  induction later using List.reverseRecOn with
  | nil =>
    rw [List.append_nil, if_pos]
    rfl
  | append_singleton later fresh ih =>
    rw [← List.append_assoc, last_type_concat, last_type_concat, ih]
    by_cases declares : fresh.name = name ∧ fresh.declaredType.isEmpty = false
    · rw [if_pos declares, if_pos declares, if_neg (by simpa using declares.2)]
    · rw [if_neg declares, if_neg declares]

theorem last_type_single {known : List Attribute} {member : Attribute}
    (distinct : (known.map Attribute.name).Nodup) (present : member ∈ known) :
    lastType known member.name = member.declaredType := by
  by_cases declares : member.declaredType = ""
  · rw [declares]
    refine last_type_bare fun sight seen same => ?_
    rw [List.inj_on_of_nodup_map distinct seen present same, declares]
  · refine last_type_agreed ?_ present declares
    intro first one second two same _ _
    rw [List.inj_on_of_nodup_map distinct one two same]

theorem names_unrepeated {names : List String} (distinct : names.Nodup) :
    names.eraseDups = names := by
  induction names using List.reverseRecOn with
  | nil => rfl
  | append_singleton names name ih =>
    have parted := List.nodup_append.mp distinct
    have missing : name ∉ names := fun seen =>
      parted.2.2 name seen name (List.mem_singleton_self name) rfl
    rw [erase_dups_concat, if_neg missing, ih parted.1]

theorem settled_distinct {known : List Attribute} (distinct : (known.map Attribute.name).Nodup) :
    settled known = known := by
  rw [settled, names_unrepeated distinct, List.map_map]
  refine (List.map_congr_left fun member present => ?_).trans (List.map_id known)
  rw [Function.comp_apply, last_type_single distinct present]
  rfl

theorem settled_again (known sights : List Attribute) :
    settled (known ++ sights ++ sights) = settled (known ++ sights) := by
  have names : ((known ++ sights ++ sights).map Attribute.name).eraseDups =
      ((known ++ sights).map Attribute.name).eraseDups := by
    rw [List.map_append, List.eraseDups_append, List.removeAll, List.filter_eq_nil_iff.mpr]
    · exact List.append_nil _
    · intro name member
      simpa using fun _ => List.mem_map.mp member
  have types : ∀ name, lastType (known ++ sights ++ sights) name =
      lastType (known ++ sights) name := by
    intro name
    rw [last_type_append (known ++ sights), last_type_append known]
    by_cases bare : lastType sights name = ""
    · rw [if_pos bare]
    · rw [if_neg bare, if_neg bare]
  rw [settled, settled, names, List.map_congr_left fun name _ => by rw [types name]]

theorem untold_sight {record : ClassRecord} {sight : Attribute} (bare : sight.declaredType = "")
    (known : sight.name ∈ record.attributeNames) : record.addAttribute sight = record := by
  have unchanged : ∀ members : List Attribute, sight.name ∈ members.map Attribute.name →
      upsert Attribute.name (fun old fresh =>
        if fresh.declaredType.isEmpty then old else { old with declaredType := fresh.declaredType })
        sight members = members := by
    intro members present
    induction members with
    | nil => cases present
    | cons member members ih =>
      rw [upsert]
      by_cases same : member.name = sight.name
      · rw [if_pos same, bare, if_pos (by simp)]
      · rw [if_neg same, ih]
        simpa [Ne.symm same] using present
  rw [ClassRecord.addAttribute, unchanged _ known]

theorem names_after_sight (record : ClassRecord) (sight : Attribute) (name : String) :
    name ∈ (record.addAttribute sight).attributeNames ↔
      name = sight.name ∨ name ∈ record.attributeNames := by
  rw [ClassRecord.attributeNames, ClassRecord.addAttribute,
    upsert_keys Attribute.name _ sight (by intro old; split <;> rfl),
    ClassRecord.attributeNames]
  by_cases known : sight.name ∈ record.attributes.map Attribute.name
  · rw [if_pos known]
    exact ⟨.inr, fun either => either.elim (fun same => same ▸ known) id⟩
  · rw [if_neg known, List.mem_append, List.mem_singleton, or_comm]

theorem after_telling {record : ClassRecord} {known : List String}
    (same : ∀ name, name ∈ known ↔ name ∈ record.attributeNames) (sights : List Attribute) :
    record.after (telling known sights) = record.after sights := by
  induction sights generalizing record known with
  | nil => rfl
  | cons sight sights ih =>
    rw [telling]
    by_cases untold : sight.declaredType = "" ∧ sight.name ∈ known
    · have unchanged := untold_sight untold.1 ((same _).mp untold.2)
      rw [if_pos untold, ih same, ClassRecord.after, ClassRecord.after, List.foldl_cons, unchanged]
    · rw [if_neg untold, ClassRecord.after, List.foldl_cons]
      refine ih fun name => ?_
      rw [names_after_sight, List.mem_cons, same]

theorem attribute_after_sight (record : ClassRecord) (sight : Attribute) (name : String) :
    (record.addAttribute sight).attribute? name =
      if sight.name = name then
        some (if sight.declaredType.isEmpty then (record.attribute? name).getD sight else sight)
      else record.attribute? name := by
  rw [ClassRecord.attribute?, ClassRecord.addAttribute,
    find_upsert (by intro old fresh; split <;> rfl), ← ClassRecord.attribute?]
  by_cases same : sight.name = name
  · rw [if_pos same, if_pos same]
    cases known : record.attribute? name with
    | none => simp
    | some member =>
      have sought : member.name = name := by simpa using List.find?_some known
      have named : member.name = sight.name := sought.trans same.symm
      cases bare : sight.declaredType.isEmpty with
      | true => simp
      | false => simp [named]
  · rw [if_neg same, if_neg same]

theorem methods_found {record : ClassRecord} (distinct : (record.methods.map Method.name).Nodup) :
    ∀ method ∈ record.methods, record.method? method.name = some method :=
  fun _ => found_distinct distinct

theorem after_settled {record : ClassRecord} (distinct : record.attributeNames.Nodup)
    (sights : List Attribute) :
    record.after sights =
      { record with attributes := settled (record.attributes ++ sights) } :=
  add_more_attributes (settled_distinct distinct).symm sights

theorem names_after {record : ClassRecord} (distinct : record.attributeNames.Nodup)
    (sights : List Attribute) :
    (record.after sights).attributeNames = record.attributeNames ++
      ((sights.map Attribute.name).filter fun name => name ∉ record.attributeNames).eraseDups := by
  have own : record.attributes.map Attribute.name = record.attributeNames := rfl
  rw [after_settled distinct, ClassRecord.attributeNames, settled_names, List.map_append,
    List.eraseDups_append, own, names_unrepeated distinct, List.removeAll]
  simp

theorem names_after_distinct {record : ClassRecord} (distinct : record.attributeNames.Nodup)
    (sights : List Attribute) : (record.after sights).attributeNames.Nodup := by
  rw [after_settled distinct, ClassRecord.attributeNames, settled_names]
  exact nodup_erase_dups _

theorem attribute_after {record : ClassRecord} (distinct : record.attributeNames.Nodup)
    (sights : List Attribute) (name : String) :
    (record.after sights).attribute? name =
      if name ∈ (record.after sights).attributeNames then
        some ⟨name, lastType (record.attributes ++ sights) name⟩
      else none := by
  by_cases known : name ∈ (record.after sights).attributeNames
  · obtain ⟨member, present, rfl⟩ := List.mem_map.mp known
    rw [if_pos known, ClassRecord.attribute?,
      found_distinct (names_after_distinct distinct sights) present]
    rw [after_settled distinct] at present
    obtain ⟨name, -, rfl⟩ := List.mem_map.mp present
    rfl
  · rw [if_neg known, ClassRecord.attribute?, List.find?_eq_none]
    intro member present same
    have named : member.name = name := by simpa using same
    exact known (named ▸ List.mem_map_of_mem present)

-- Names stay distinct. Those of the record come first, in their order, and then the new ones in the
-- order of their first sights; each has the type declared last for it, by the record or by a sight.
-- Nothing else changes, the same sights again change nothing, and a sight of a name known by then
-- that declares no type may be left out.
theorem attributes_keep_first_places_and_last_types {record : ClassRecord}
    (distinct : record.attributeNames.Nodup) (sights : List Attribute) :
    (record.after sights).attributeNames.Nodup ∧
    (record.after sights).attributeNames = record.attributeNames ++
      ((sights.map Attribute.name).filter fun name => name ∉ record.attributeNames).eraseDups ∧
    (∀ member ∈ (record.after sights).attributes,
      member.declaredType = lastType (record.attributes ++ sights) member.name) ∧
    record.after sights = { record with attributes := (record.after sights).attributes } ∧
    (record.after sights).after sights = record.after sights ∧
    record.after (telling record.attributeNames sights) = record.after sights := by
  have recorded := after_settled distinct sights
  refine ⟨names_after_distinct distinct sights, names_after distinct sights, ?_, ?_, ?_,
    after_telling (fun _ => .rfl) sights⟩
  · intro member present
    rw [recorded] at present
    obtain ⟨name, -, rfl⟩ := List.mem_map.mp present
    rfl
  · rw [recorded]
  · have settles : (record.after sights).attributes = settled (record.attributes ++ sights) := by
      rw [recorded]
    rw [ClassRecord.after, add_more_attributes settles sights, settled_again, ← settles]

theorem attributes_of_widget :
    (ClassRecord.mk "Widget" [] [⟨"x", "int"⟩, ⟨"y", ""⟩] []).attributeNames.Nodup ∧
    telling ["x", "y"] [⟨"z", ""⟩, ⟨"y", "str"⟩, ⟨"x", ""⟩, ⟨"z", ""⟩] =
      [⟨"z", ""⟩, ⟨"y", "str"⟩] ∧
    (ClassRecord.mk "Widget" [] [⟨"x", "int"⟩, ⟨"y", ""⟩] []).after
        (telling ["x", "y"] [⟨"z", ""⟩, ⟨"y", "str"⟩, ⟨"x", ""⟩, ⟨"z", ""⟩]) =
      ⟨"Widget", [], [⟨"x", "int"⟩, ⟨"y", "str"⟩, ⟨"z", ""⟩], []⟩ := by
  have distinct : (ClassRecord.mk "Widget" [] [⟨"x", "int"⟩, ⟨"y", ""⟩] []).attributeNames.Nodup := by
    decide
  obtain ⟨-, -, -, -, -, told⟩ := attributes_keep_first_places_and_last_types distinct
    [⟨"z", ""⟩, ⟨"y", "str"⟩, ⟨"x", ""⟩, ⟨"z", ""⟩]
  exact ⟨distinct, by decide, told.trans (by decide)⟩

end SourceDiagram.Model
