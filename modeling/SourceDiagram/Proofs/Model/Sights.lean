import SourceDiagram.Model.Records
import SourceDiagram.Proofs.Model.History

set_option autoImplicit false

namespace SourceDiagram.Model

def lastType (sights : List Attribute) (name : String) : String :=
  ((sights.filter fun sight => sight.name = name && !sight.declaredType.isEmpty).map
    Attribute.declaredType).getLastD ""

def settled (sights : List Attribute) : List Attribute :=
  (sights.map Attribute.name).eraseDups.map fun name => ⟨name, lastType sights name⟩

theorem last_type_concat (sights : List Attribute) (fresh : Attribute) (name : String) :
    lastType (sights ++ [fresh]) name =
      if fresh.name = name ∧ fresh.declaredType.isEmpty = false then fresh.declaredType
      else lastType sights name := by
  rw [lastType, List.filter_append, List.map_append]
  by_cases declares : fresh.name = name ∧ fresh.declaredType.isEmpty = false
  · rw [if_pos declares, List.filter_cons_of_pos (by simp [declares])]
    simp
  · rw [if_neg declares, List.filter_cons_of_neg (by simpa using declares)]
    simp [lastType]

theorem last_type_unseen {sights : List Attribute} {name : String}
    (unseen : name ∉ sights.map Attribute.name) : lastType sights name = "" := by
  have none : (sights.filter fun sight =>
      sight.name = name && !sight.declaredType.isEmpty) = [] := by
    rw [List.filter_eq_nil_iff]
    intro sight member same
    simp only [Bool.and_eq_true, decide_eq_true_eq] at same
    exact unseen (same.1 ▸ List.mem_map_of_mem member)
  rw [lastType, none]
  rfl

theorem upsert_map {α κ : Type} [DecidableEq κ] {key : α → κ} {merge : α → α → α} (fresh : α)
    {entry : κ → α} (keyed : ∀ k, key (entry k) = k) {keys : List κ} (distinct : keys.Nodup) :
    upsert key merge fresh (keys.map entry) =
      if key fresh ∈ keys then
        keys.map fun k => if k = key fresh then merge (entry k) fresh else entry k
      else keys.map entry ++ [fresh] := by
  induction keys with
  | nil => simp [upsert]
  | cons k keys ih =>
    obtain ⟨missing, rest⟩ := List.nodup_cons.mp distinct
    rw [List.map_cons, upsert, keyed]
    by_cases same : k = key fresh
    · have others : ∀ other ∈ keys, entry other =
          if other = key fresh then merge (entry other) fresh else entry other := by
        intro other member
        rw [if_neg]
        rintro rfl
        exact missing (same ▸ member)
      rw [if_pos same, if_pos (same ▸ List.mem_cons_self), List.map_cons, if_pos same,
        List.map_congr_left others]
    · have elsewhere : key fresh ∈ k :: keys ↔ key fresh ∈ keys := by
        rw [List.mem_cons]
        exact or_iff_right fun equal => same equal.symm
      rw [if_neg same, ih rest, List.map_cons, if_neg same, if_congr elsewhere rfl rfl]
      split <;> rfl

theorem settled_concat (sights : List Attribute) (fresh : Attribute) :
    settled (sights ++ [fresh]) = upsert Attribute.name
      (fun old fresh =>
        if fresh.declaredType.isEmpty then old else { old with declaredType := fresh.declaredType })
      fresh (settled sights) := by
  rw [settled, settled, upsert_map fresh (fun _ => rfl) (nodup_erase_dups _), List.map_append,
    List.map_singleton, erase_dups_concat]
  -- A name that was seen before keeps its place; a new one goes to the end.
  by_cases seen : fresh.name ∈ sights.map Attribute.name
  · rw [if_pos seen, if_pos (List.mem_eraseDups.mpr seen)]
    refine List.map_congr_left fun name _ => ?_
    rw [last_type_concat]
    by_cases same : name = fresh.name
    · cases declares : fresh.declaredType.isEmpty with
      | false => simp [same]
      | true => simp [same]
    · rw [if_neg same, if_neg]
      exact fun both => same both.1.symm
  · rw [if_neg seen, if_neg (mt List.mem_eraseDups.mp seen), List.map_append, List.map_singleton]
    have others : ∀ name ∈ (sights.map Attribute.name).eraseDups,
        lastType (sights ++ [fresh]) name = lastType sights name := by
      intro name member
      rw [last_type_concat, if_neg]
      rintro ⟨rfl, -⟩
      exact seen (List.mem_eraseDups.mp member)
    have own : lastType (sights ++ [fresh]) fresh.name = fresh.declaredType := by
      rw [last_type_concat, last_type_unseen seen]
      cases declares : fresh.declaredType.isEmpty with
      | false => simp
      | true =>
        have empty : fresh.declaredType = "" := by simpa using declares
        rw [if_neg (by simp), empty]
    rw [own, List.map_congr_left fun name member => by rw [others name member]]

def Agree (sights : List Attribute) : Prop :=
  ∀ first ∈ sights, ∀ second ∈ sights, first.name = second.name → first.declaredType ≠ "" →
    second.declaredType ≠ "" → first.declaredType = second.declaredType

instance (sights : List Attribute) : Decidable (Agree sights) :=
  inferInstanceAs (Decidable (∀ first ∈ sights, ∀ second ∈ sights, first.name = second.name →
    first.declaredType ≠ "" → second.declaredType ≠ "" →
    first.declaredType = second.declaredType))

theorem last_type_cases (sights : List Attribute) (name : String) :
    (∃ sight ∈ sights, sight.name = name ∧ sight.declaredType ≠ "" ∧
      lastType sights name = sight.declaredType) ∨
    ((∀ sight ∈ sights, sight.name = name → sight.declaredType = "") ∧
      lastType sights name = "") := by
  induction sights using List.reverseRecOn with
  | nil => exact .inr ⟨by simp, rfl⟩
  | append_singleton sights fresh ih =>
    rw [last_type_concat]
    by_cases declares : fresh.name = name ∧ fresh.declaredType.isEmpty = false
    · rw [if_pos declares]
      exact .inl ⟨fresh, by simp, declares.1, by simpa using declares.2, rfl⟩
    · rw [if_neg declares]
      rcases ih with ⟨sight, member, rest⟩ | ⟨bare, none⟩
      · exact .inl ⟨sight, List.mem_append_left _ member, rest⟩
      · refine .inr ⟨fun sight member same => ?_, none⟩
        rcases List.mem_append.mp member with earlier | last
        · exact bare sight earlier same
        · rw [List.mem_singleton.mp last] at same ⊢
          simpa [same] using declares

theorem last_type_agreed {sights : List Attribute} (agree : Agree sights) {sight : Attribute}
    (member : sight ∈ sights) (declares : sight.declaredType ≠ "") :
    lastType sights sight.name = sight.declaredType := by
  rcases last_type_cases sights sight.name with ⟨last, present, same, declared, type⟩ | ⟨bare, -⟩
  · rw [type]
    exact agree last present sight member same declared declares
  · exact absurd (bare sight member rfl) declares

theorem last_type_bare {sights : List Attribute} {name : String}
    (bare : ∀ sight ∈ sights, sight.name = name → sight.declaredType = "") :
    lastType sights name = "" := by
  rcases last_type_cases sights name with ⟨sight, member, same, declares, -⟩ | ⟨-, none⟩
  · exact absurd (bare sight member same) declares
  · exact none

theorem last_type_reordered {sights others : List Attribute} (same : others.Perm sights)
    (agree : Agree sights) (name : String) : lastType others name = lastType sights name := by
  rcases last_type_cases others name with ⟨sight, member, rfl, declares, type⟩ | ⟨bare, none⟩
  · rw [type, last_type_agreed agree (same.mem_iff.mp member) declares]
  · rw [none, last_type_bare fun sight member => bare sight (same.mem_iff.mpr member)]

theorem settled_names (sights : List Attribute) :
    (settled sights).map Attribute.name = (sights.map Attribute.name).eraseDups := by
  rw [settled, List.map_map]
  exact List.map_id _

theorem names_reordered {sights others : List Attribute} (same : others.Perm sights) :
    (others.map Attribute.name).eraseDups.Perm (sights.map Attribute.name).eraseDups := by
  rw [List.perm_ext_iff_of_nodup (nodup_erase_dups _) (nodup_erase_dups _)]
  intro name
  rw [List.mem_eraseDups, List.mem_eraseDups, (same.map Attribute.name).mem_iff]

theorem settled_reordered {sights others : List Attribute} (same : others.Perm sights)
    (agree : Agree sights) : (settled others).Perm (settled sights) := by
  have types : (fun name => (⟨name, lastType others name⟩ : Attribute)) =
      fun name => ⟨name, lastType sights name⟩ := by
    funext name
    rw [last_type_reordered same agree]
  rw [settled, types]
  exact (names_reordered same).map _

theorem add_more_attributes {record : ClassRecord} {known : List Attribute}
    (settles : record.attributes = settled known) (sights : List Attribute) :
    sights.foldl ClassRecord.addAttribute record =
      { record with attributes := settled (known ++ sights) } := by
  induction sights using List.reverseRecOn with
  | nil =>
    rw [List.append_nil, ← settles]
    rfl
  | append_singleton sights fresh ih =>
    rw [List.foldl_concat, ih, ← List.append_assoc, settled_concat, ClassRecord.addAttribute]

theorem add_attributes {record : ClassRecord} (bare : record.attributes = [])
    (sights : List Attribute) :
    sights.foldl ClassRecord.addAttribute record =
      { record with attributes := settled sights } := by
  have settles : record.attributes = settled [] := bare
  exact add_more_attributes settles sights

end SourceDiagram.Model
