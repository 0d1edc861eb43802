import SourceDiagram.Proofs.ObjectModel.TypeText
import SourceDiagram.Proofs.Related
import SourceDiagram.Proofs.Syntax.Literals

set_option autoImplicit false

namespace SourceDiagram.ObjectModel

open SourceDiagram.Syntax

inductive IsLiteral : List Char → Prop where
  | integer {text : List Char} : IsInteger text → IsLiteral text
  | quoted {delimiter : Char} {content : List Char} : delimiter ∈ ['\'', '"'] →
      IsContent delimiter content → IsLiteral (delimiter :: (content ++ [delimiter]))
  | constant {text : String} : text ∈ ["None", "True", "False", "..."] → IsLiteral text.toList

inductive Spelled : Part → Expr → Prop where
  | name {text : String} : IsName text.toList → Spelled .reference (.name text)
  | member {value : Expr} {label : String} : Spelled .reference value → IsName label.toList →
      Spelled .reference (.member value label)
  | subscript {value : Expr} {arguments : List Expr} : Spelled .reference value →
      arguments ≠ [] → (∀ argument ∈ arguments, Spelled .whole argument) →
      Spelled .reference (.subscript value arguments)
  | reference {expr : Expr} : Spelled .reference expr → Spelled .operand expr
  | list {items : List Expr} : (∀ item ∈ items, Spelled .whole item) →
      Spelled .operand (.list items)
  | literal {text : String} : IsLiteral text.toList → Spelled .operand (.literal text)
  | union {first : Expr} {operands : List Expr} : Spelled .operand first →
      (∀ operand ∈ operands, Spelled .operand operand) →
      Spelled .whole (operands.foldl .union first)

theorem Spelled.alone {expr : Expr} (spelled : Spelled .operand expr) : Spelled .whole expr :=
  @Spelled.union expr [] spelled (by simp)

theorem Spelled.argument {word : String} (valid : IsName word.toList) :
    ∀ argument ∈ [Expr.name word], Spelled .whole argument :=
  List.forall_mem_singleton.mpr (.alone (.reference (.name valid)))

-- How an expression is read as a type: as an expression with all that follows it, as a name with
-- arguments that goes on as a type, or not at all.
inductive Reading
  | expression | generic | refused
deriving DecidableEq, Repr

def Reading.indexed : Reading → Reading
  | .expression => .expression
  | _ => .refused

-- The reading of two alternatives, the second of which counts after a generic one only.
def Reading.orElse : Reading → Reading → Reading
  | .generic, next => next
  | first, _ => first

def Expr.isName : Expr → Bool
  | .name _ => true
  | _ => false

mutual
def Expr.reading : Expr → Reading
  | .member value _ => value.reading
  | .subscript value arguments =>
    if value.isName then if readable arguments then .generic else .refused
    else value.reading.indexed
  | .union left right => left.reading.orElse right.reading
  | _ => .expression
def readable : List Expr → Bool
  | [] => true
  | expr :: rest => expr.reading != .refused && readable rest
end

theorem readable_iff (exprs : List Expr) :
    readable exprs = true ↔ ∀ expr ∈ exprs, expr.reading ≠ .refused := by
  induction exprs with
  | nil => simp [readable]
  | cons expr exprs ih => simp [readable, ih]

def Reading.orEach (reading : Reading) (operands : List Expr) : Reading :=
  operands.foldl (fun known operand => known.orElse operand.reading) reading

theorem union_reading (first : Expr) (operands : List Expr) :
    (operands.foldl .union first).reading = first.reading.orEach operands := by
  induction operands generalizing first with
  | nil => rfl
  | cons operand operands ih =>
    rw [List.foldl_cons, ih, Expr.reading]
    rfl

theorem generic_reading (operand : Expr) (operands : List Expr) :
    Reading.generic.orEach (operand :: operands) = operand.reading.orEach operands := rfl

theorem settled_reading {reading : Reading} (settled : reading ≠ .generic) (operands : List Expr) :
    reading.orEach operands = reading := by
  have stays (next : Reading) : reading.orElse next = reading := by
    cases reading with
    | generic => exact absurd rfl settled
    | _ => rfl
  induction operands with
  | nil => rfl
  | cons operand operands ih =>
    rw [Reading.orEach, List.foldl_cons, stays]
    exact ih

theorem accepted_reading {reading : Reading} (accepted : reading ≠ .refused) {operands : List Expr}
    (each : ∀ operand ∈ operands, operand.reading ≠ .refused) :
    reading.orEach operands ≠ .refused := by
  induction operands generalizing reading with
  | nil => exact accepted
  | cons operand operands ih =>
    obtain ⟨first, later⟩ := List.forall_mem_cons.mp each
    rw [Reading.orEach, List.foldl_cons]
    apply ih _ later
    cases reading with
    | generic => exact first
    | _ => exact accepted

def Expr.letters (expr : Expr) : List Char :=
  expr.text.toList

@[simp] theorem letters_name (text : String) : (Expr.name text).letters = text.toList := by
  rw [Expr.letters, Expr.text]

@[simp] theorem letters_literal (text : String) : (Expr.literal text).letters = text.toList := by
  rw [Expr.letters, Expr.text]

@[simp] theorem letters_member (value : Expr) (label : String) :
    (Expr.member value label).letters = value.letters ++ '.' :: label.toList := by
  simp [Expr.letters, Expr.text]

theorem joined_letters (exprs : List Expr) :
    (joined exprs).toList = listed (exprs.map Expr.letters) := by
  induction exprs with
  | nil => rfl
  | cons expr exprs ih =>
    cases exprs with
    | nil => simp [joined, listed, Expr.letters]
    | cons next exprs =>
      rw [joined]
      · simp [ih, listed, Expr.letters]
      · simp

@[simp] theorem letters_subscript (value : Expr) (arguments : List Expr) :
    (Expr.subscript value arguments).letters =
      value.letters ++ '[' :: (listed (arguments.map Expr.letters) ++ [']']) := by
  simp [Expr.letters, Expr.text, ← joined_letters]

@[simp] theorem letters_list (items : List Expr) :
    (Expr.list items).letters = '[' :: (listed (items.map Expr.letters) ++ [']']) := by
  simp [Expr.letters, Expr.text, ← joined_letters]

@[simp] theorem letters_alternative (left right : Expr) :
    (Expr.union left right).letters = left.letters ++ ' ' :: '|' :: ' ' :: right.letters := by
  simp [Expr.letters, Expr.text]

theorem letters_union (first : Expr) (operands : List Expr) :
    (operands.foldl .union first).letters =
      alternatives ((first :: operands).map Expr.letters) := by
  induction operands generalizing first with
  | nil => simp [alternatives]
  | cons operand operands ih =>
    rw [List.foldl_cons, ih, List.map_cons, List.map_cons, List.map_cons, alternatives_cons,
      alternatives_cons, List.flatMap_cons, letters_alternative, List.append_assoc]

theorem members_spelled {value : Expr} (spelled : Spelled .reference value)
    {names : List (List Char)} (valid : ∀ name ∈ names, IsName name) :
    ∃ expr, Spelled .reference expr ∧
      expr.letters = value.letters ++ names.flatMap (fun name => '.' :: name) ∧
      expr.reading = value.reading := by
  induction names generalizing value with
  | nil => exact ⟨value, spelled, by simp, rfl⟩
  | cons name names ih =>
    obtain ⟨first, later⟩ := List.forall_mem_cons.mp valid
    have named : IsName (String.ofList name).toList := by rwa [String.toList_ofList]
    obtain ⟨expr, whole, letters, reading⟩ := ih (.member spelled named) later
    refine ⟨expr, whole, ?_, reading.trans ?_⟩
    · simp [letters]
    · rw [Expr.reading]

theorem path_spelled {names : List (List Char)} (present : names ≠ [])
    (valid : ∀ name ∈ names, IsName name) :
    ∃ expr, Spelled .reference expr ∧ expr.letters = dotted names ∧ expr.reading = .expression := by
  obtain ⟨first, names, rfl⟩ := List.exists_cons_of_ne_nil present
  obtain ⟨firstValid, laterValid⟩ := List.forall_mem_cons.mp valid
  have named : IsName (String.ofList first).toList := by rwa [String.toList_ofList]
  obtain ⟨expr, spelled, letters, reading⟩ := members_spelled (.name named) laterValid
  refine ⟨expr, spelled, ?_, reading⟩
  rw [letters, dotted_cons, letters_name, String.toList_ofList]

def SpelledAs (part : Part) (text : List Char) (expr : Expr) : Prop :=
  Spelled part expr ∧ expr.letters = text ∧ expr.reading ≠ .refused

theorem all_spelled {part : Part} {texts : List (List Char)}
    (each : ∀ text ∈ texts, ∃ expr, SpelledAs part text expr) :
    ∃ exprs : List Expr, exprs.map Expr.letters = texts ∧
      (∀ expr ∈ exprs, Spelled part expr) ∧ readable exprs = true := by
  obtain ⟨exprs, told⟩ := exists_each each
  have letters : exprs.map Expr.letters = texts.map id := map_right told fun _ _ held => held.2.1
  refine ⟨exprs, by rwa [List.map_id] at letters, forall_right told fun _ _ held => held.1, ?_⟩
  exact (readable_iff exprs).mpr (forall_right told fun _ _ held => held.2.2)

theorem written_spelled {part : Part} {text : List Char} (written : Written part text) :
    ∃ expr, SpelledAs part text expr := by
  induction written with
  | path present valid =>
    obtain ⟨expr, spelled, letters, reading⟩ := path_spelled present valid
    exact ⟨expr, spelled, letters, by simp [reading]⟩
  | @indexed names arguments present valid given written ih =>
    obtain ⟨value, spelled, letters, reading⟩ := path_spelled present valid
    obtain ⟨exprs, rfl, inner, read⟩ := all_spelled ih
    refine ⟨.subscript value exprs, .subscript spelled (by simpa using given) inner, ?_, ?_⟩
    · rw [letters_subscript, letters]
    · rw [Expr.reading, reading, if_pos read]
      split
      · simp
      · simp [Reading.indexed]
  | reference _ ih =>
    obtain ⟨expr, spelled, held⟩ := ih
    exact ⟨expr, .reference spelled, held⟩
  | @list items written ih =>
    obtain ⟨exprs, rfl, inner, -⟩ := all_spelled ih
    exact ⟨.list exprs, .list inner, letters_list exprs, by simp [Expr.reading]⟩
  | @union operands present written ih =>
    obtain ⟨exprs, rfl, inner, read⟩ := all_spelled ih
    obtain ⟨first, exprs, rfl⟩ := List.exists_cons_of_ne_nil (show exprs ≠ [] by simpa using present)
    obtain ⟨firstSpelled, laterSpelled⟩ := List.forall_mem_cons.mp inner
    obtain ⟨firstRead, laterRead⟩ := List.forall_mem_cons.mp ((readable_iff _).mp read)
    refine ⟨exprs.foldl .union first, .union firstSpelled laterSpelled, letters_union first exprs, ?_⟩
    rw [union_reading]
    exact accepted_reading firstRead laterRead

end SourceDiagram.ObjectModel
