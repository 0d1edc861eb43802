import SourceDiagram.Proofs.ObjectModel.Types
import SourceDiagram.Proofs.Syntax.Halting

set_option autoImplicit false

namespace SourceDiagram.ObjectModel

open SourceDiagram.Syntax
open SourceDiagram.Syntax.TypeTerm

def AtBracket (indents : List Nat) (_ : SyntaxTree) (place : Place) : Prop :=
  ∃ rest, place = ⟨'[' :: rest, indents⟩

-- A descent that reads no type from the whole of a text: it fails or stops too early.
def HaltsType (descent : Descent) (text : List Char) : Prop :=
  ∀ (context : Context) (bounded : Bool) (gap rest : List Char) (indents : List Nat),
    Leads gap none → Parted rest →
    Leaves (descent.read (.typeTerm context bounded)) ⟨gap ++ (text ++ rest), indents⟩
      (AtBracket indents)

inductive RefusedHead (descent : Descent) (text : List Char) : Prop where
  | inside : (∀ (context : Context) (gap rest : List Char) (indents : List Nat), Leads gap none →
      Fails (head descent context) ⟨gap ++ (text ++ rest), indents⟩) → RefusedHead descent text
  | indexed {front more : List Char} : text = front ++ '[' :: more → GenericHead descent front →
      RefusedHead descent text

theorem RefusedHead.more {descent : Descent} {text : List Char} (refused : RefusedHead descent text)
    (back : List Char) : RefusedHead descent (text ++ back) := by
  cases refused with
  | inside fails =>
    refine .inside fun context gap rest indents leads => ?_
    rw [List.append_assoc]
    exact fails context gap (back ++ rest) indents leads
  | @indexed front more split generic =>
    have longer : text ++ back = front ++ '[' :: (more ++ back) := by simp [split]
    exact .indexed longer generic

section

variable {descent : Descent} {context : Context} {indents : List Nat} {gap rest : List Char}

theorem next_type_fails (found : List SyntaxTree) (rest : List Char) :
    Fails (nextType descent found) ⟨'[' :: rest, indents⟩ := by
  have bracket (context : Context) : Follows ⟨'[' :: rest, indents⟩ context (.mark .leftBracket) :=
    .ahead (Shows.leftBracket rest).now
  refine (Runs.refuse (bracket _) (by simp)).fails fun closed same => ?_
  rw [same, if_neg (by simp)]
  refine Fails.bind _ ((Runs.refuse (bracket _) (by simp)).fails fun found same => ?_)
  rw [same]
  exact fails_failure

theorem next_type_halts {item : List Char} (starting : Starting item)
    (halts : HaltsType descent item) (found : List SyntaxTree) (parted : Parted rest) :
    Leaves (nextType descent found) ⟨',' :: ' ' :: (item ++ rest), indents⟩
      (Sum.elim (fun _ stop => ∃ rest, stop = ⟨'[' :: rest, indents⟩) fun _ _ => False) := by
  obtain ⟨lexeme, follows, other⟩ := starting_not_closing starting parted leads_space
    .rightBracket (by decide)
  have comma := (Shows.comma (' ' :: (item ++ rest))).now
  refine (Runs.refuse (.ahead comma) (by simp)).leaves fun closed same => ?_
  rw [same, if_neg (by simp)]
  refine (Runs.expect comma).leaves fun _ _ => ?_
  refine (Runs.refuse follows other).leaves fun closed same => ?_
  rw [same, if_neg (by simp)]
  exact (halts .bracketed true [' '] rest indents leads_space parted).bind fun tree stop at_ =>
    .pure at_

variable {items : List Expr} (spelled : ∀ item ∈ items, Spelled .whole item)
  (reads : ∀ item ∈ items, item.reading ≠ .refused → ReadsType descent item.letters)
  (halts : ∀ item ∈ items, item.reading = .refused → HaltsType descent item.letters)

include spelled reads halts

theorem types_fail (refused : readable items = false) (found : List SyntaxTree) (limit : Nat) :
    Fails (Reader.iterate (nextType descent) limit found)
      ⟨(items.map Expr.letters).flatMap (fun item => ',' :: ' ' :: item) ++ ']' :: rest,
        indents⟩ := by
  induction items generalizing found limit with
  | nil => simp [readable] at refused
  | cons item items ih =>
    obtain ⟨firstSpelled, laterSpelled⟩ := List.forall_mem_cons.mp spelled
    obtain ⟨firstReads, laterReads⟩ := List.forall_mem_cons.mp reads
    obtain ⟨firstHalts, laterHalts⟩ := List.forall_mem_cons.mp halts
    have starting := whole_starting firstSpelled
    have ends := items_end id (bracket_ends rest indents) (items.map Expr.letters)
    rw [List.map_cons, List.flatMap_cons, List.append_assoc]
    by_cases kind : item.reading = .refused
    · refine Leaves.fails (.loop (next_type_halts starting (firstHalts kind) found ends.parted) ?_)
      rintro next stop ⟨rest, rfl⟩
      exact (next_type_fails next rest).loop.leaves
    · have others : readable items = false := by simpa [readable, kind] using refused
      refine Leaves.fails (Runs.loop
        (next_type_read starting (firstReads kind) found ends) fun next _ => ?_)
      exact (ih laterSpelled laterReads laterHalts others next (limit - 1)).leaves

theorem type_parameter_fails (refused : readable items = false) :
    Fails (typeParameter descent)
      ⟨'[' :: (listed (items.map Expr.letters) ++ ']' :: rest), indents⟩ := by
  cases items with
  | nil => simp [readable] at refused
  | cons item items =>
    obtain ⟨firstSpelled, laterSpelled⟩ := List.forall_mem_cons.mp spelled
    obtain ⟨firstReads, laterReads⟩ := List.forall_mem_cons.mp reads
    obtain ⟨firstHalts, laterHalts⟩ := List.forall_mem_cons.mp halts
    have ends := items_end id (bracket_ends rest indents) (items.map Expr.letters)
    obtain ⟨lexeme, after, starts, shows_⟩ := whole_starting firstSpelled ends.parted
    rw [List.map_cons, listed_cons, List.append_assoc]
    refine (Runs.skip (Shows.leftBracket _).now).fails fun _ _ => ?_
    by_cases kind : item.reading = .refused
    · have halt := firstHalts kind .bracketed true [] _ indents leads_nothing ends.parted
      refine Leaves.fails ((Leaves.demand shows_.now starts.valid halt).bind ?_)
      rintro tree stop ⟨rest, rfl⟩
      exact (Fails.bind _ (next_type_fails [tree] rest).loop).leaves
    · have others : readable items = false := by simpa [readable, kind] using refused
      have read := firstReads kind .bracketed true [] _ indents leads_nothing
        ((ends .bracketed).mono (by decide))
      refine (Runs.demand shows_.now starts.valid read).fails fun tree _ => ?_
      exact Fails.bind _ (types_fail laterSpelled laterReads laterHalts others [tree] _)

theorem head_fails {letters : List Char} (name : IsName letters) (refused : readable items = false)
    (leads : Leads gap none) : Fails (head descent context)
      ⟨gap ++ (letters ++ '[' :: (listed (items.map Expr.letters) ++ [']']) ++ rest), indents⟩ := by
  have split : letters ++ '[' :: (listed (items.map Expr.letters) ++ [']']) ++ rest =
      letters ++ '[' :: (listed (items.map Expr.letters) ++ ']' :: rest) := by simp
  obtain ⟨keyword, opens, shows_⟩ := name_shows name
    (apart_cons (listed (items.map Expr.letters) ++ ']' :: rest) (show Delimits '[' by decide))
  rw [split]
  intro cursor lies
  rw [head_of_generic name leads lies]
  refine Runs.fails (Runs.skip (leads shows_)) (fun _ _ => ?_) cursor lies
  exact Fails.bind _ (type_parameter_fails spelled reads halts refused)

end

section

variable {descent : Descent} {context : Context} {bounded : Bool} {indents : List Nat}
  {gap rest : List Char} {limit : Nat}

theorem extensions_at_bracket (left : SyntaxTree) (rest : List Char) :
    Leaves (Reader.iterate (extension descent context bounded) limit left) ⟨'[' :: rest, indents⟩
      (AtBracket indents) := by
  have bracket := (Shows.leftBracket rest).now
  have ends : Leaves (extension descent context bounded left) ⟨'[' :: rest, indents⟩
      (Sum.elim (fun _ _ => False) (AtBracket indents)) := by
    refine (Runs.follow (.ahead bracket)).leaves fun lexeme same => ?_
    rw [same]
    exact .pure ⟨rest, rfl⟩
  exact ends.loop fun _ _ impossible => impossible.elim

theorem extension_bar_fails {lexeme : Lexeme} {after : List Char} (starts : Starts lexeme)
    (shows_ : Shows rest lexeme after)
    (fails : Fails (head descent context) ⟨' ' :: rest, indents⟩) (left : SyntaxTree) :
    Fails (extension descent context bounded left) ⟨' ' :: '|' :: ' ' :: rest, indents⟩ := by
  have bar : Meets (' ' :: '|' :: ' ' :: rest) none (.mark .bar) (' ' :: rest) :=
    (Shows.bar (by simp)).spaced
  refine (Runs.follow (.ahead bar)).fails fun lexeme same => ?_
  rw [same]
  refine (Runs.skip bar).fails fun _ _ => ?_
  refine (Runs.lead (.ahead shows_.spaced) starts.valid).fails fun lexeme same => ?_
  rw [same]
  exact (Runs.require (by simpa using starts.valid)).fails fun _ _ => fails.bind _

theorem extensions_halt {operands : List Expr}
    (spelled : ∀ operand ∈ operands, Spelled .operand operand)
    (generic : ∀ operand ∈ operands, operand.reading = .generic →
      GenericHead descent operand.letters)
    (unread : ∀ operand ∈ operands, operand.reading = .refused →
      RefusedHead descent operand.letters)
    (refused : Reading.generic.orEach operands = .refused) {text : List Char} {left : SyntaxTree}
    (told : Told text left) (parted : Parted rest)
    (bound : ((operands.map Expr.letters).flatMap fun operand =>
      ' ' :: '|' :: ' ' :: operand).length < limit) :
    Leaves (Reader.iterate (extension descent context bounded) limit left)
      ⟨(operands.map Expr.letters).flatMap (fun operand => ' ' :: '|' :: ' ' :: operand) ++ rest,
        indents⟩ (AtBracket indents) := by
  induction operands generalizing text left limit with
  | nil => cases refused
  | cons operand operands ih =>
    obtain ⟨firstSpelled, laterSpelled⟩ := List.forall_mem_cons.mp spelled
    obtain ⟨firstGeneric, laterGeneric⟩ := List.forall_mem_cons.mp generic
    obtain ⟨firstUnread, laterUnread⟩ := List.forall_mem_cons.mp unread
    have bars := bars_parted (operands.map Expr.letters) parted
    obtain ⟨lexeme, after, starts, shows_⟩ := operand_starting firstSpelled bars
    rw [generic_reading] at refused
    rw [List.map_cons, List.flatMap_cons, List.length_append] at bound
    simp only [List.length_cons] at bound
    rw [List.map_cons, List.flatMap_cons, List.append_assoc]
    cases kind : operand.reading with
    | expression =>
      rw [kind, settled_reading (by simp)] at refused
      cases refused
    | generic =>
      obtain ⟨fewer, enough, reaches⟩ := generic_reach told (firstGeneric kind) starts shows_
        bars.apart (show operand.letters.length < limit by omega)
      refine reaches.leaves fun tree whole => ?_
      exact ih laterSpelled laterGeneric laterUnread (kind ▸ refused) whole (by omega)
    | refused =>
      cases firstUnread kind with
      | inside fails =>
        have fails := fails context [' ']
          ((operands.map Expr.letters).flatMap (fun operand => ' ' :: '|' :: ' ' :: operand) ++ rest)
          indents leads_space
        exact (extension_bar_fails starts shows_ fails left).loop.leaves
      | @indexed front more split first =>
        rw [split] at shows_ bound ⊢
        rw [List.length_append] at bound
        simp only [List.cons_append, List.append_assoc] at shows_ ⊢
        obtain ⟨fewer, enough, reaches⟩ := generic_reach told first starts shows_
          (apart_cons _ (by decide)) (show front.length < limit by omega)
        exact reaches.leaves fun tree _ => extensions_at_bracket tree _

end

-- No type is read, however deep the descent is beyond what a type of that length takes.
def TypeUnread (limit : Nat) : Part → Expr → Prop
  | .whole, expr => expr.reading = .refused → ∀ depth, expr.letters.length < depth →
      expr.letters.length < limit → HaltsType (nested limit depth) expr.letters
  | _, expr => expr.reading = .refused → ∀ depth, expr.letters.length ≤ depth →
      expr.letters.length < limit → RefusedHead (nested limit depth) expr.letters

theorem subscript_unread {value : Expr} {arguments : List Expr}
    (unread : (Expr.subscript value arguments).reading = .refused) :
    (value.isName = true ∧ readable arguments = false) ∨
      value.reading = .generic ∨ value.reading = .refused := by
  rw [Expr.reading] at unread
  by_cases named : value.isName = true
  · rw [if_pos named] at unread
    split at unread
    · cases unread
    · rename_i inside
      exact .inl ⟨named, by simpa using inside⟩
  · rw [if_neg named] at unread
    generalize value.reading = reading at unread ⊢
    cases reading with
    | expression => cases unread
    | generic => exact .inr (.inl rfl)
    | refused => exact .inr (.inr rfl)

theorem refused_front_halts {descent : Descent} {text : List Char}
    (refused : RefusedHead descent text) (bound : text.length ≤ descent.limit) (context : Context)
    (bounded : Bool) {gap : List Char} (rest : List Char) (indents : List Nat)
    (leads : Leads gap none) :
    Leaves (type descent context bounded) ⟨gap ++ (text ++ rest), indents⟩ (AtBracket indents) := by
  cases refused with
  | inside fails => exact (Fails.bind _ (fails context gap rest indents leads)).leaves
  | @indexed front more split generic =>
    rw [split, List.length_append] at bound
    rw [split, List.append_assoc, List.cons_append]
    obtain ⟨place, fewer, -, opens⟩ := generic.read leads
      (apart_cons _ (show Delimits '[' by decide)) (show front.length ≤ descent.limit by omega)
    exact opens.leaves fun tree reaches => reaches.leaves fun tree _ =>
      extensions_at_bracket tree _

theorem union_unread {first : Expr} {operands : List Expr} {limit : Nat}
    (firstSpelled : Spelled .operand first)
    (laterSpelled : ∀ operand ∈ operands, Spelled .operand operand)
    (firstUnread : TypeUnread limit .operand first)
    (laterUnread : ∀ operand ∈ operands, TypeUnread limit .operand operand) :
    TypeUnread limit .whole (operands.foldl .union first) := by
  intro unread depth deep bound context bounded gap rest indents leads parted
  rw [union_reading] at unread
  rw [letters_union, List.map_cons, alternatives_cons, List.length_append] at deep bound
  have firstLength := (operand_starting firstSpelled).present
  obtain ⟨depth, rfl⟩ : ∃ shallower, depth = shallower + 1 := ⟨depth - 1, by omega⟩
  rw [letters_union, List.map_cons, alternatives_cons, List.append_assoc]
  show Leaves (type (nested limit depth) context bounded) _ _
  cases kind : first.reading with
  | expression =>
    rw [kind, settled_reading (by simp)] at unread
    cases unread
  | generic =>
    have generic := spelled_typed firstSpelled limit kind depth (by omega) (by omega)
    have bars := bars_parted (operands.map Expr.letters) parted
    obtain ⟨place, fewer, enough, front⟩ := generic.read leads bars.apart
      (show first.letters.length ≤ limit by omega)
    refine front.leaves fun tree reaches => reaches.leaves fun tree told => ?_
    refine extensions_halt laterSpelled (fun operand member kind => ?_)
      (fun operand member kind => ?_) (kind ▸ unread) told parted (by omega)
    · have shorter := operand_length member
      exact spelled_typed (laterSpelled operand member) limit kind depth (by omega) (by omega)
    · have shorter := operand_length member
      exact laterUnread operand member kind depth (by omega) (by omega)
  | refused =>
    have refused := firstUnread kind depth (by omega) (by omega)
    exact refused_front_halts refused (show first.letters.length ≤ limit by omega) context bounded _
      indents leads

theorem spelled_unread {part : Part} {expr : Expr} (spelled : Spelled part expr) (limit : Nat) :
    TypeUnread limit part expr := by
  induction spelled with
  | name => exact fun unread => by simp [Expr.reading] at unread
  | member _ _ ih =>
    intro unread depth deep bound
    rw [Expr.reading] at unread
    rw [letters_member, List.length_append] at deep bound
    rw [letters_member]
    exact (ih unread depth (by omega) (by omega)).more _
  | @subscript value arguments spelled given inner ih each =>
    intro unread depth deep bound
    have count := listed_length (arguments.map Expr.letters)
    simp only [letters_subscript, List.length_append, List.length_cons, List.length_nil]
      at deep bound
    rw [letters_subscript]
    rcases subscript_unread unread with ⟨named, inside⟩ | generic | unread
    · cases spelled with
      | member => simp [Expr.isName] at named
      | subscript => simp [Expr.isName] at named
      | name valid =>
        rw [letters_name]
        refine .inside fun context gap rest indents leads => ?_
        refine head_fails inner (fun item member kind => ?_) (fun item member kind => ?_) valid inside
          leads
        · have shorter := argument_length member
          exact spelled_typed (inner item member) limit kind depth (by omega) (by omega)
        · have shorter := argument_length member
          exact each item member kind depth (by omega) (by omega)
    · exact .indexed rfl (spelled_typed spelled limit generic depth (by omega) (by omega))
    · exact (ih unread depth (by omega) (by omega)).more _
  | reference _ ih => exact ih
  | list => exact fun unread => by simp [Expr.reading] at unread
  | literal => exact fun unread => by simp [Expr.reading] at unread
  | union firstSpelled laterSpelled ih each => exact union_unread firstSpelled laterSpelled ih each

end SourceDiagram.ObjectModel
