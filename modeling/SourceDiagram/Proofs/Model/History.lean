import Mathlib.Data.List.Induction
import Mathlib.Data.List.Nodup
import SourceDiagram.Model.Records

set_option autoImplicit false

namespace SourceDiagram.Model

variable {α κ : Type} [DecidableEq κ] {key : α → κ} {merge : α → α → α}

structure SumsUp (key : α → κ) (history entries : List α) : Prop where
  distinct : (entries.map key).Nodup
  firstSeen : entries.map key = (history.map key).eraseDups
  lastSeen : ∀ entry ∈ entries, ∃ before after,
    history = before ++ entry :: after ∧ ∀ later ∈ after, key later ≠ key entry

theorem erase_dups_concat {β : Type} [DecidableEq β] (seen : List β) (fresh : β) :
    (seen ++ [fresh]).eraseDups =
      if fresh ∈ seen then seen.eraseDups else seen.eraseDups ++ [fresh] := by
  rw [List.eraseDups_append]
  by_cases known : fresh ∈ seen
  · simp [List.removeAll, known]
  · simp [List.removeAll, known, List.eraseDups_cons]

theorem nodup_erase_dups {β : Type} [DecidableEq β] (seen : List β) : seen.eraseDups.Nodup := by
  induction seen using List.reverseRecOn with
  | nil => exact List.nodup_nil
  | append_singleton seen fresh ih =>
    rw [erase_dups_concat]
    split
    · exact ih
    · rename_i missing
      rw [← List.mem_eraseDups] at missing
      refine List.nodup_append.mpr ⟨ih, List.nodup_singleton _, ?_⟩
      intro known present other equal
      rw [List.mem_singleton.mp equal]
      exact fun same => missing (same ▸ present)

theorem upsert_fresh {fresh : α} {entries : List α} (missing : key fresh ∉ entries.map key) :
    upsert key merge fresh entries = entries ++ [fresh] := by
  induction entries with
  | nil => rfl
  | cons old rest ih =>
    rw [List.map_cons, List.mem_cons, not_or] at missing
    rw [upsert, if_neg (Ne.symm missing.1), ih missing.2, List.cons_append]

theorem upserts_distinct (known : List α) {fresh : List α}
    (distinct : ((known ++ fresh).map key).Nodup) :
    fresh.foldl (fun known fresh => upsert key merge fresh known) known = known ++ fresh := by
  induction fresh generalizing known with
  | nil => rw [List.foldl_nil, List.append_nil]
  | cons first rest ih =>
    have missing : key first ∉ known.map key := by
      rw [List.map_append, List.map_cons] at distinct
      exact fun seen => (List.nodup_append.mp distinct).2.2 _ seen _ List.mem_cons_self rfl
    rw [List.foldl_cons, upsert_fresh missing, ih _ (by simpa using distinct), List.append_assoc,
      List.singleton_append]

theorem mem_upsert (replaces : ∀ old fresh, key old = key fresh → merge old fresh = fresh)
    (fresh : α) {entries : List α} (distinct : (entries.map key).Nodup) {entry : α}
    (member : entry ∈ upsert key merge fresh entries) :
    entry = fresh ∨ entry ∈ entries ∧ key entry ≠ key fresh := by
  induction entries with
  | nil => exact Or.inl (List.mem_singleton.mp member)
  | cons old rest ih =>
    rw [List.map_cons, List.nodup_cons] at distinct
    by_cases same : key old = key fresh
    · rw [upsert, if_pos same, replaces old fresh same] at member
      rcases List.mem_cons.mp member with rfl | later
      · exact Or.inl rfl
      · refine Or.inr ⟨List.mem_cons_of_mem _ later, fun equal => distinct.1 ?_⟩
        rw [same, ← equal]
        exact List.mem_map_of_mem later
    · rw [upsert, if_neg same] at member
      rcases List.mem_cons.mp member with rfl | later
      · exact Or.inr ⟨List.mem_cons_self, same⟩
      · rcases ih distinct.2 later with equal | ⟨known, different⟩
        · exact Or.inl equal
        · exact Or.inr ⟨List.mem_cons_of_mem _ known, different⟩

theorem find_upsert (kept : ∀ old fresh, key (merge old fresh) = key old) (fresh : α)
    (entries : List α) (sought : κ) :
    (upsert key merge fresh entries).find? (fun entry => key entry = sought) =
      if key fresh = sought then
        some (((entries.find? fun entry => key entry = sought).map (merge · fresh)).getD fresh)
      else entries.find? fun entry => key entry = sought := by
  induction entries with
  | nil => by_cases same : key fresh = sought <;> simp [upsert, same]
  | cons old rest ih =>
    rw [upsert, List.find?_cons]
    by_cases merged : key old = key fresh
    · by_cases same : key fresh = sought
      · simp [merged, same, kept]
      · simp [merged, same, kept]
    · rw [if_neg merged, List.find?_cons, ih]
      by_cases first : key old = sought
      · have other : key fresh ≠ sought := fun same => merged (first.trans same.symm)
        simp [first, other]
      · simp [first]

theorem found_distinct {entries : List α} (distinct : (entries.map key).Nodup) {entry : α}
    (member : entry ∈ entries) :
    entries.find? (fun other => key other = key entry) = some entry := by
  cases found : entries.find? fun other => key other = key entry with
  | none => exact absurd (List.find?_eq_none.mp found entry member) (by simp)
  | some other =>
    have same : key other = key entry := by simpa using List.find?_some found
    rw [List.inj_on_of_nodup_map distinct (List.mem_of_find?_eq_some found) member same]

theorem SumsUp.step (replaces : ∀ old fresh, key old = key fresh → merge old fresh = fresh)
    {history entries : List α} (summary : SumsUp key history entries) (fresh : α) :
    SumsUp key (history ++ [fresh]) (upsert key merge fresh entries) := by
  have keys : (upsert key merge fresh entries).map key =
      ((history ++ [fresh]).map key).eraseDups := by
    rw [List.map_append, List.map_singleton, erase_dups_concat, ← summary.firstSeen]
    have known : key fresh ∈ entries.map key ↔ key fresh ∈ history.map key := by
      rw [summary.firstSeen, List.mem_eraseDups]
    rw [← if_congr known rfl rfl]
    -- The keys change as if every merge kept the key, which it does where it is used.
    have kept : ∀ rest : List α, (upsert key merge fresh rest).map key =
        (upsert key (fun old _ => old) fresh rest).map key := by
      intro rest
      induction rest with
      | nil => rfl
      | cons old rest ih =>
        by_cases same : key old = key fresh
        · simp [upsert, same, replaces old fresh same]
        · simp [upsert, same, ih]
    rw [kept, upsert_keys key _ fresh (fun _ => rfl)]
  refine ⟨?_, keys, ?_⟩
  · rw [keys]
    exact nodup_erase_dups _
  · intro entry member
    rcases mem_upsert replaces fresh summary.distinct member with rfl | ⟨known, different⟩
    · exact ⟨history, [], rfl, by simp⟩
    · obtain ⟨before, after, rfl, latest⟩ := summary.lastSeen entry known
      refine ⟨before, after ++ [fresh], by simp, ?_⟩
      intro later present
      rcases List.mem_append.mp present with earlier | last
      · exact latest later earlier
      · rw [List.mem_singleton.mp last]
        exact Ne.symm different

theorem sums_up_upserts (replaces : ∀ old fresh, key old = key fresh → merge old fresh = fresh)
    (history : List α) :
    SumsUp key history (history.foldl (fun known fresh => upsert key merge fresh known) []) := by
  induction history using List.reverseRecOn with
  | nil => exact ⟨List.nodup_nil, rfl, by simp⟩
  | append_singleton history fresh ih =>
    rw [List.foldl_concat]
    exact ih.step replaces fresh

theorem SumsUp.isEmpty_iff {history entries : List α} (summary : SumsUp key history entries) :
    entries = [] ↔ history = [] := by
  constructor
  · intro none
    have nothing : (history.map key).eraseDups = [] := by
      rw [← summary.firstSeen, none, List.map_nil]
    cases history with
    | nil => rfl
    | cons first later => simp [List.eraseDups_cons] at nothing
  · rintro rfl
    simpa using summary.firstSeen

end SourceDiagram.Model
