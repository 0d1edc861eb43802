import Mathlib.Data.List.Forall2
import SourceDiagram.Json.Document
import SourceDiagram.Proofs.Json.Grammar

set_option autoImplicit false

namespace SourceDiagram.Json

mutual
-- Whether all numbers in a value are numerals and none of its objects has a key twice.
def Value.Proper : Value → Prop
  | .number literal => Numeral literal.toList
  | .array items => AllProper items
  | .object entries => (entries.map Prod.fst).Nodup ∧ EntriesProper entries
  | _ => True
def AllProper : List Value → Prop
  | [] => True
  | item :: rest => item.Proper ∧ AllProper rest
def EntriesProper : List (String × Value) → Prop
  | [] => True
  | (_, value) :: rest => value.Proper ∧ EntriesProper rest
end

inductive Within (part : Value) : Value → Prop where
  | whole : Within part part
  | item {items : List Value} {item : Value} : item ∈ items → Within part item →
      Within part (.array items)
  | entry {entries : List (String × Value)} {entry : String × Value} : entry ∈ entries →
      Within part entry.2 → Within part (.object entries)

theorem proper_item {items : List Value} (proper : AllProper items) : ∀ item ∈ items, item.Proper := by
  induction items with
  | nil => simp
  | cons first rest ih => exact List.forall_mem_cons.mpr ⟨proper.1, ih proper.2⟩

theorem proper_entry {entries : List (String × Value)} (proper : EntriesProper entries) :
    ∀ entry ∈ entries, entry.2.Proper := by
  induction entries with
  | nil => simp
  | cons first rest ih => exact List.forall_mem_cons.mpr ⟨proper.1, ih proper.2⟩

theorem keys_distinct {value : Value} (proper : value.Proper) {entries : List (String × Value)}
    (within : Within (.object entries) value) : (entries.map Prod.fst).Nodup := by
  induction within with
  | whole => exact proper.1
  | item member _ ih => exact ih (proper_item proper _ member)
  | entry member _ ih => exact ih (proper_entry proper.2 _ member)

theorem hex_digit_value : ∀ n < 16, hexValue? (hexDigit n) = some n := by
  decide

theorem control_code {c : Char} (control : c.toNat < 32) :
    hexNumber? '0' '0' (hexDigit (c.toNat / 16)) (hexDigit (c.toNat % 16)) = some c.toNat := by
  have zero : hexValue? '0' = some 0 := rfl
  have tens := hex_digit_value (c.toNat / 16) (by omega)
  have units := hex_digit_value (c.toNat % 16) (by omega)
  simp only [hexNumber?, zero, tens, units, Option.bind_eq_bind, Option.bind_some, Option.pure_def]
  congr 1
  omega

theorem escaped_character (c : Char) : CharacterText c (escapeChar c) := by
  rw [escapeChar]
  split_ifs with quote backslash backspace tab newline formFeed carriageReturn control
  · exact quote.symm ▸ .escaped rfl
  · exact backslash.symm ▸ .escaped rfl
  · exact backspace.symm ▸ .escaped rfl
  · exact tab.symm ▸ .escaped rfl
  · exact newline.symm ▸ .escaped rfl
  · exact formFeed.symm ▸ .escaped rfl
  · exact carriageReturn.symm ▸ .escaped rfl
  · have coded := CharacterText.coded (control_code control)
      (by simp [isUpperHalf]; omega) (by simp [isLowerHalf]; omega)
    rwa [Char.ofNat_toNat] at coded
  · exact .plain quote backslash (Nat.le_of_not_lt control)

theorem escaped_text (cs : List Char) : StringText cs (cs.flatMap escapeChar) := by
  induction cs with
  | nil => exact .nil
  | cons c cs ih =>
    rw [List.flatMap_cons]
    exact .cons (escaped_character c) ih

theorem line_break_space (layout : Layout) (depth : Nat) : Space (layout.lineBreak depth) := by
  cases layout with
  | compact => simp [Space, Layout.lineBreak]
  | indented =>
    intro c member
    rcases List.mem_cons.mp member with rfl | later
    · rfl
    · rw [(List.mem_replicate.mp later).2]
      rfl

theorem listed_lines {α : Type} {one : α → List Char → Prop} {items : List α}
    {lines : List (List Char)} {front back : List Char} (spelled : List.Forall₂ one items lines)
    (before : Space front) (behind : Space back) (present : items ≠ []) :
    Listed one items ([','].intercalate (lines.map (front ++ ·)) ++ back) := by
  induction spelled with
  | nil => exact absurd rfl present
  | @cons item line items lines first later ih =>
    cases later with
    | nil =>
      have last := Listed.last before first behind
      rw [← List.append_assoc] at last
      simpa [List.intercalate] using last
    | cons second rest =>
      have more := Listed.more before first (by simp [Space] : Space []) (ih (by simp))
      simpa [List.intercalate] using more

theorem bracket_of_lines (layout : Layout) (opening closing : Char) (depth : Nat)
    {lines : List (List Char)} (present : lines ≠ []) :
    layout.bracket opening closing depth lines =
      opening :: (([','].intercalate (lines.map (layout.lineBreak (depth + 1) ++ ·)) ++
        layout.lineBreak depth) ++ [closing]) := by
  rw [Layout.bracket, if_neg (by simpa using present)]
  simp

theorem printed_entry (layout : Layout) {key : String} {value : Value} {written : List Char}
    (spelled : Spells value written) :
    SpellsEntry (key, value) (quoted key ++ layout.colon ++ written) := by
  have nothing : Space [] := by simp [Space]
  have space : Space [' '] := by simp [Space, isSpace]
  have characters := escaped_text key.toList
  cases layout with
  | compact =>
    have entry := SpellsEntry.intro characters nothing nothing spelled
    simpa [quoted, Layout.colon] using entry
  | indented =>
    have entry := SpellsEntry.intro characters nothing space spelled
    simpa [quoted, Layout.colon] using entry

mutual
theorem printed_value (layout : Layout) (depth : Nat) : ∀ value : Value, value.Proper →
    Spells value (value.print layout depth)
  | .null, _ => .null
  | .bool true, _ => .yes
  | .bool false, _ => .no
  | .number _, numeral => .number numeral
  | .string text, _ => .string (escaped_text text.toList)
  | .array [], _ => .emptyArray (by simp [Space] : Space [])
  | .array (item :: items), proper => by
    have lines := printed_items layout (depth + 1) (item :: items) proper
    rw [Value.print, bracket_of_lines layout _ _ depth (by simp [printItems])]
    exact .array (listed_lines lines (line_break_space layout _) (line_break_space layout _)
      (List.cons_ne_nil _ _))
  | .object [], _ => .emptyObject (by simp [Space] : Space [])
  | .object (entry :: entries), proper => by
    have lines := printed_entries layout (depth + 1) (entry :: entries) proper.2
    rw [Value.print, bracket_of_lines layout _ _ depth (by simp [printEntries])]
    exact .object (listed_lines lines (line_break_space layout _) (line_break_space layout _)
      (List.cons_ne_nil _ _))
theorem printed_items (layout : Layout) (depth : Nat) : ∀ items : List Value, AllProper items →
    List.Forall₂ Spells items (printItems layout depth items)
  | [], _ => .nil
  | item :: rest, proper =>
    .cons (printed_value layout depth item proper.1) (printed_items layout depth rest proper.2)
theorem printed_entries (layout : Layout) (depth : Nat) : ∀ entries : List (String × Value),
    EntriesProper entries → List.Forall₂ SpellsEntry entries (printEntries layout depth entries)
  | [], _ => .nil
  | (_, value) :: rest, proper =>
    .cons (printed_entry layout (printed_value layout depth value proper.1))
      (printed_entries layout depth rest proper.2)
end

theorem text_of_printed (layout : Layout) {value : Value} (proper : value.Proper) :
    TextOf value (value.text layout).toList := by
  have nothing : Space [] := by simp [Space]
  have whole := TextOf.intro nothing (printed_value layout 0 value proper) nothing
  simpa [Value.text] using whole

end SourceDiagram.Json
