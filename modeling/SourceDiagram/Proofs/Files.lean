import SourceDiagram.Files

set_option autoImplicit false

namespace SourceDiagram.Files

variable {files after : Files} {place : List String}

theorem bind_ok_iff {α β : Type} {first : Except FileFault α} {rest : α → Except FileFault β}
    {result : β} :
    first >>= rest = .ok result ↔ ∃ value, first = .ok value ∧ rest value = .ok result := by
  cases first <;> simp [bind, Except.bind]

theorem directory_at_iff {access : Access} :
    files.directoryAt place = .ok access ↔ files.entry? place = some (.directory access) := by
  rw [directoryAt]
  cases files.entry? place with
  | none => simp
  | some entry => cases entry <;> simp

theorem enter_iff : files.enter place = .ok () ↔
    ∃ access, files.entry? place = some (.directory access) ∧ access.searches = true := by
  simp only [enter, bind_ok_iff, directory_at_iff]
  apply exists_congr
  intro access
  cases searched : access.searches with
  | true => simp [pure, Except.pure]
  | false => simp [throw, throwThe, MonadExceptOf.throw]

theorem walk_cons_iff {name : String} {rest last : List String} :
    files.walk place (name :: rest) = .ok last ↔ files.enter place = .ok () ∧
      ∃ next, child place name = .ok next ∧ files.walk next rest = .ok last := by
  simp only [walk, bind_ok_iff]
  constructor
  · rintro ⟨_, entered, found⟩
    exact ⟨entered, found⟩
  · rintro ⟨entered, found⟩
    exact ⟨(), entered, found⟩

theorem locate_iff {path : String} {directory : List String} :
    files.locate path directory = .ok place ↔
      check path = .ok () ∧ files.walk (start path directory) (steps path) = .ok place ∧
      (isClosed path = true → ∃ access, files.entry? place = some (.directory access)) := by
  by_cases closed : isClosed path = true
  · simp only [locate, bind_ok_iff, closed, if_true, directory_at_iff, forall_const]
    constructor
    · rintro ⟨_, checked, found, walked, access, stands, ⟨⟩⟩
      exact ⟨checked, walked, access, stands⟩
    · rintro ⟨checked, walked, access, stands⟩
      exact ⟨(), checked, place, walked, access, stands, rfl⟩
  · simp only [locate, bind_ok_iff, if_neg closed]
    constructor
    · rintro ⟨_, checked, found, walked, ⟨⟩⟩
      exact ⟨checked, walked, fun asked => absurd asked closed⟩
    · rintro ⟨checked, walked, -⟩
      exact ⟨(), checked, place, walked, rfl⟩

section Kept

variable (kept : ∀ names access, files.entry? names = some (.directory access) →
  after.entry? names = some (.directory access))

include kept

theorem walk_kept {names last : List String} (walked : files.walk place names = .ok last) :
    after.walk place names = .ok last := by
  induction names generalizing place with
  | nil => exact walked
  | cons name names ih =>
    obtain ⟨entered, next, found, later⟩ := walk_cons_iff.mp walked
    obtain ⟨access, stands, searched⟩ := enter_iff.mp entered
    have again : after.enter place = .ok () := enter_iff.mpr ⟨access, kept _ _ stands, searched⟩
    exact walk_cons_iff.mpr ⟨again, next, found, ih later⟩

theorem locate_kept {path : String} {directory : List String}
    (found : files.locate path directory = .ok place) :
    after.locate path directory = .ok place := by
  obtain ⟨checked, walked, closed⟩ := locate_iff.mp found
  refine locate_iff.mpr ⟨checked, walk_kept kept walked, fun asked => ?_⟩
  obtain ⟨access, stands⟩ := closed asked
  exact ⟨access, kept _ _ stands⟩

end Kept

-- Whether content may be put at a place, and what may be done with it there afterwards.
inductive Takes (files : Files) (place : List String) : Access → Prop
  | known {content : ByteArray} {access : Access} :
      files.entry? place = some (.file content access) → access.writes = true →
      Takes files place access
  | fresh {parent : Access} :
      files.entry? place = none → files.entry? place.dropLast = some (.directory parent) →
      parent.writes = true → Takes files place .full

def Opens (files : Files) (directory : List String) (path : String) : Prop :=
  ∃ place access, files.locate path directory = .ok place ∧ files.Takes place access

theorem Takes.no_directory {access other : Access} (taken : files.Takes place access) :
    files.entry? place ≠ some (.directory other) := by
  intro stands
  cases taken with
  | known file => simp [stands] at file
  | fresh absent => simp [stands] at absent

theorem put_file_iff {content : ByteArray} :
    files.putFile place content = .ok after ↔
      ∃ access, files.Takes place access ∧ after = files.put place (.file content access) := by
  rw [putFile]
  constructor
  · intro done
    split at done
    · cases done
    · rename_i old access stands
      by_cases writable : access.writes = true
      · rw [if_pos writable] at done
        cases done
        exact ⟨access, .known stands writable, rfl⟩
      · rw [if_neg writable] at done
        cases done
    · rename_i absent
      obtain ⟨parent, found, done⟩ := bind_ok_iff.mp done
      by_cases writable : parent.writes = true
      · rw [if_pos writable] at done
        cases done
        exact ⟨.full, .fresh absent (directory_at_iff.mp found) writable, rfl⟩
      · rw [if_neg writable] at done
        cases done
  · rintro ⟨access, taken, rfl⟩
    cases taken with
    | known stands writable => simp only [stands, if_pos writable]
    | @fresh parent absent stands writable =>
      simp only [absent, bind_ok_iff]
      exact ⟨parent, directory_at_iff.mpr stands, by rw [if_pos writable]; rfl⟩

theorem write_iff {path : String} {content : ByteArray} {directory : List String} :
    files.write path content directory = .ok after ↔
      ∃ place access, files.locate path directory = .ok place ∧ files.Takes place access ∧
        after = files.put place (.file content access) := by
  by_cases closed : isClosed path = true
  · simp only [write, bind_ok_iff, closed, if_true]
    constructor
    · rintro ⟨_, -, ⟨⟩⟩
    · rintro ⟨place, access, found, taken, -⟩
      obtain ⟨_, stands⟩ := (locate_iff.mp found).2.2 closed
      exact absurd stands taken.no_directory
  · simp only [write, bind_ok_iff, if_neg closed, locate_iff]
    constructor
    · rintro ⟨_, checked, place, walked, done⟩
      obtain ⟨access, taken, put⟩ := put_file_iff.mp done
      exact ⟨place, access, ⟨checked, walked, fun asked => absurd asked closed⟩, taken, put⟩
    · rintro ⟨place, access, ⟨checked, walked, -⟩, taken, put⟩
      exact ⟨(), checked, place, walked, put_file_iff.mpr ⟨access, taken, put⟩⟩

theorem write_opens (files : Files) (directory : List String) (path : String)
    (content : ByteArray) :
    (∃ after, files.write path content directory = .ok after) ↔ files.Opens directory path := by
  constructor
  · rintro ⟨after, done⟩
    obtain ⟨place, access, found, taken, -⟩ := write_iff.mp done
    exact ⟨place, access, found, taken⟩
  · rintro ⟨place, access, found, taken⟩
    exact ⟨_, write_iff.mpr ⟨place, access, found, taken, rfl⟩⟩

theorem entry_put_same (files : Files) (place : List String) (entry : Entry) :
    Files.entry? (files.put place entry) place = some entry := by
  have gone : (files.entries.filter fun known => known.1 != place).find?
      (fun known => known.1 = place) = none := by
    simp
  simp [Files.entry?, put, List.find?_append, gone]

theorem find_put_other {other : List String} (different : other ≠ place) (entry : Entry) :
    (files.put place entry).entries.find? (fun known => known.1 = other) =
      files.entries.find? fun known => known.1 = other := by
  have kept : (fun known : List String × Entry =>
      decide ((known.1 != place) = true ∧ decide (known.1 = other) = true)) =
      fun known => decide (known.1 = other) := by
    funext known
    by_cases same : known.1 = other
    · simp [same, different]
    · simp [same]
  rw [put, List.find?_append, List.find?_filter, kept]
  simp [Ne.symm different]

theorem unlisted_leads {other : List String} {entry : Entry}
    (unlisted : files.entries.find? (fun known => known.1 = other) = none)
    (stands : files.entry? other = some entry) : files.leadsOn other = true := by
  rw [Files.entry?, unlisted] at stands
  cases leads : files.leadsOn other with
  | true => rfl
  | false => simp [leads] at stands

theorem leads_below {other : List String} {entry : Entry} (stands : files.entry? other = some entry)
    {above : List String} (front : above <+: other) (different : above ≠ other) :
    files.leadsOn above = true := by
  cases listed : files.entries.find? fun known => known.1 = other with
  | some known =>
    have same : known.1 = other := by simpa using List.find?_some listed
    have shown : (above.isPrefixOf known.1 && known.1 != above) = true := by
      simp [same, front, Ne.symm different]
    rw [leadsOn, List.any_eq_true.mpr ⟨known, List.mem_of_find?_eq_some listed, shown⟩,
      Bool.or_true]
  | none =>
    have leads := unlisted_leads listed stands
    rw [leadsOn, Bool.or_eq_true, List.any_eq_true] at leads
    rcases leads with empty | ⟨known, member, shown⟩
    · rw [List.isEmpty_iff.mp empty] at front different
      exact absurd (List.prefix_nil.mp front) different
    · rw [Bool.and_eq_true, List.isPrefixOf_iff_prefix] at shown
      have apart : known.1 ≠ above := by
        intro same
        have back : other <+: above := same ▸ shown.1
        exact different (front.eq_of_length_le back.length_le)
      have shown : (above.isPrefixOf known.1 && known.1 != above) = true := by
        simp [front.trans shown.1, apart]
      rw [leadsOn, List.any_eq_true.mpr ⟨known, member, shown⟩, Bool.or_true]

-- Of all places without an entry, only those above the new one could come to have a directory, and
-- there directories stand already.
theorem leads_put {access : Access} (taken : files.Takes place access) {other : List String}
    (different : other ≠ place)
    (unlisted : files.entries.find? (fun known => known.1 = other) = none) (entry : Entry) :
    (files.put place entry).leadsOn other = files.leadsOn other := by
  by_cases above : other <+: place
  · have stands : files.leadsOn other = true := by
      cases taken with
      | known file => exact leads_below file above different
      | @fresh parent absent directory =>
        by_cases same : other = place.dropLast
        · exact unlisted_leads unlisted (same ▸ directory)
        · have nonempty : place ≠ [] := by
            rintro rfl
            exact different (List.prefix_nil.mp above)
          have split := List.dropLast_concat_getLast nonempty
          rw [← split] at above
          rcases List.prefix_concat_iff.mp above with whole | inside
          · exact absurd (whole.trans split) different
          · exact leads_below directory inside same
    have shown : (other.isPrefixOf place && place != other) = true := by
      simp [above, Ne.symm different]
    rw [stands, leadsOn, put, List.any_append, List.any_cons, shown]
    simp
  · have hidden : ∀ known : List String × Entry,
        (known.1 != place && (other.isPrefixOf known.1 && known.1 != other)) =
          (other.isPrefixOf known.1 && known.1 != other) := by
      intro known
      by_cases same : known.1 = place
      · simp [same, above]
      · simp [same]
    have added : (other.isPrefixOf place && place != other) = false := by simp [above]
    rw [leadsOn, leadsOn, put, List.any_append, List.any_filter, funext hidden, List.any_cons, added]
    simp

theorem entry_put_other {access : Access} (taken : files.Takes place access) {other : List String}
    (different : other ≠ place) (entry : Entry) :
    Files.entry? (files.put place entry) other = files.entry? other := by
  rw [Files.entry?, Files.entry?, find_put_other different]
  cases listed : files.entries.find? fun known => known.1 = other with
  | some known => rfl
  | none => simp only [Option.map_none, leads_put taken different listed]

-- Whether a path has some content afterwards, which is read there unless reading is denied, and
-- every place but the one that it leads to holds what it held before.
def Written (files : Files) (directory : List String) (path : String) (content : ByteArray)
    (after : Files) : Prop :=
  ∃ place access, files.locate path directory = .ok place ∧ files.Takes place access ∧
    after.entry? place = some (.file content access) ∧
    after.read path directory = (if access.reads then .ok content else .error .denied) ∧
    ∀ other, other ≠ place → after.entry? other = files.entry? other

theorem read_found {path : String} {content : ByteArray} {access : Access} {directory : List String}
    (found : files.locate path directory = .ok place)
    (stands : files.entry? place = some (.file content access)) :
    files.read path directory = if access.reads then .ok content else .error .denied := by
  simp only [read, found, bind, Except.bind, stands]
  rfl

theorem write_written {path : String} {content : ByteArray} {directory : List String}
    (done : files.write path content directory = .ok after) :
    Written files directory path content after := by
  obtain ⟨place, access, found, taken, rfl⟩ := write_iff.mp done
  have same := entry_put_same files place (.file content access)
  have kept : ∀ names other, files.entry? names = some (.directory other) →
      Files.entry? (files.put place (.file content access)) names = some (.directory other) := by
    intro names other stands
    have different : names ≠ place := fun equal => taken.no_directory (equal ▸ stands)
    rw [entry_put_other taken different, stands]
  refine ⟨place, access, found, taken, same, ?_,
    fun other different => entry_put_other taken different _⟩
  exact read_found (locate_kept kept found) same

end SourceDiagram.Files
