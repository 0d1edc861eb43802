import SourceDiagram.ObjectModel.Session
import SourceDiagram.Proofs.Model.History
import SourceDiagram.Proofs.Syntax.Definitions

set_option autoImplicit false

namespace SourceDiagram.ObjectModel

open SourceDiagram.Model
open SourceDiagram.Syntax

def isRejected (text : String) : Bool :=
  match parse? text with
  | none => true
  | some module => hasRefused module

def declarations (text : String) : List SyntaxTree :=
  match parse? text with
  | none => []
  | some module => module.parts.filterMap (definition? .classDefinition)

def after (texts : List String) : List ClassRecord :=
  texts.foldl (fun known text => (interpret known text).1) []

def Declares (definition : SyntaxTree) (record : ClassRecord) : Prop :=
  describe? definition = some record ∧
    (definition.field? .name).map SyntaxTree.text = some record.name

theorem rejected_unread {text : String} (rejected : isRejected text = true)
    (known : List ClassRecord) : interpret known text = (known, false, [.moduleRefused]) := by
  have none : accepted? text = none := by
    unfold isRejected at rejected
    unfold accepted?
    cases parsed : parse? text with
    | none => rfl
    | some module =>
      rw [parsed] at rejected
      simpa [Option.filter] using rejected
  rw [interpret, none]

theorem accepted_read {text : String} (accepted : isRejected text = false) :
    ∃ module, parse? text = some module ∧ ∀ known, interpret known text =
      ((classesOf module).foldl insertClass known,
        !((classesOf module).foldl insertClass known).isEmpty,
        (readModule known module).2) := by
  unfold isRejected at accepted
  cases parsed : parse? text with
  | none => simp [parsed] at accepted
  | some module =>
    rw [parsed] at accepted
    have found : accepted? text = some module := by
      simp_all [accepted?, Option.filter]
    refine ⟨module, rfl, fun known => ?_⟩
    rw [interpret, found]
    rfl

theorem add_attributes_name (sights : List Attribute) (record : ClassRecord) :
    (sights.foldl ClassRecord.addAttribute record).name = record.name := by
  induction sights generalizing record with
  | nil => rfl
  | cons sight sights ih => rw [List.foldl_cons, ih]; rfl

theorem named_declares {definition : SyntaxTree} (named : Named definition) :
    ∃ record, Declares definition record := by
  obtain ⟨name, nameFound⟩ := Option.isSome_iff_exists.mp named.1
  obtain ⟨body, bodyFound⟩ := Option.isSome_iff_exists.mp named.2
  have present : (describe? definition).isSome := by simp [describe?, nameFound, bodyFound]
  obtain ⟨record, described⟩ := Option.isSome_iff_exists.mp present
  refine ⟨record, described, ?_⟩
  simp only [describe?, nameFound, bodyFound, Option.bind_eq_bind, Option.bind_some] at described
  obtain rfl := Option.some.inj described
  rw [nameFound, add_attributes_name]
  rfl

theorem definition_named {tree definition : SyntaxTree} (complete : Complete tree)
    (found : definition? .classDefinition tree = some definition) : Named definition := by
  unfold definition? at found
  split at found
  · rename_i same
    cases found
    exact complete.named same
  · split at found
    · rename_i decorated
      obtain ⟨inner, kind⟩ := Option.filter_eq_some_iff.mp found
      exact complete.decorated decorated definition inner (by simpa using kind)
    · cases found

theorem classes_declared {parts : List SyntaxTree} (complete : Statement.AllComplete parts) :
    List.Forall₂ Declares (parts.filterMap (definition? .classDefinition))
      (parts.filterMap fun statement => do
        let definition ← definition? .classDefinition statement
        describe? definition) := by
  induction parts with
  | nil => exact .nil
  | cons tree parts ih =>
    obtain ⟨first, later⟩ := List.forall_mem_cons.mp complete
    cases found : definition? .classDefinition tree with
    | none => simpa [found] using ih later
    | some definition =>
      obtain ⟨record, declared⟩ := named_declares (definition_named first found)
      simpa [found, declared.1] using ⟨declared, ih later⟩

theorem accepted_declares {text : String} (accepted : isRejected text = false) :
    ∃ records, List.Forall₂ Declares (declarations text) records ∧
      ∀ known, (interpret known text).1 = records.foldl insertClass known := by
  obtain ⟨module, parsed, read⟩ := accepted_read accepted
  refine ⟨classesOf module, ?_, fun known => by rw [read]⟩
  rw [declarations, parsed]
  exact classes_declared (parts_complete parsed)

theorem accepted_history (texts : List String) (accepted : ∀ text ∈ texts, isRejected text = false) :
    ∃ history, List.Forall₂ Declares (texts.flatMap declarations) history ∧
      ∀ known, texts.foldl (fun known text => (interpret known text).1) known =
        history.foldl insertClass known := by
  induction texts with
  | nil => exact ⟨[], .nil, fun known => rfl⟩
  | cons text texts ih =>
    obtain ⟨first, later⟩ := List.forall_mem_cons.mp accepted
    obtain ⟨records, declared, read⟩ := accepted_declares first
    obtain ⟨history, rest, run⟩ := ih later
    refine ⟨records ++ history, List.rel_append declared rest, fun known => ?_⟩
    rw [List.foldl_cons, read, run, List.foldl_append]

theorem rejected_skipped (texts : List String) (known : List ClassRecord) :
    texts.foldl (fun known text => (interpret known text).1) known =
      (texts.filter fun text => !isRejected text).foldl
        (fun known text => (interpret known text).1) known := by
  induction texts generalizing known with
  | nil => rfl
  | cons text texts ih =>
    cases rejected : isRejected text with
    | true =>
      rw [List.foldl_cons, rejected_unread rejected, ih, List.filter_cons_of_neg (by simp [rejected])]
    | false =>
      rw [List.foldl_cons, ih, List.filter_cons_of_pos (by simp [rejected]), List.foldl_cons]

-- A rejected text changes nothing and gives `false`, wherever it stands among the texts. The
-- classes are those of the top-level definitions of the other texts: each name once, where it was
-- first defined, with the class of its last definition. Any other text gives whether there is one.
theorem modules_read_all_or_nothing (texts : List String) :
    (∀ text known, isRejected text = true → interpret known text = (known, false, [.moduleRefused])) ∧
    after texts = after (texts.filter fun text => !isRejected text) ∧
    (∃ history, List.Forall₂ Declares
        ((texts.filter fun text => !isRejected text).flatMap declarations) history ∧
      SumsUp ClassRecord.name history (after texts)) ∧
    ∀ text known, isRejected text = false →
      ((interpret known text).2.1 = true ↔ (interpret known text).1 ≠ []) := by
  refine ⟨fun text known rejected => rejected_unread rejected known, rejected_skipped texts [], ?_, ?_⟩
  · obtain ⟨history, declared, run⟩ := accepted_history (texts.filter fun text => !isRejected text)
      (fun text member => by simpa using (List.mem_filter.mp member).2)
    refine ⟨history, declared, ?_⟩
    rw [after, rejected_skipped texts, run]
    exact sums_up_upserts (fun _ _ _ => rfl) history
  · intro text known accepted
    obtain ⟨module, -, read⟩ := accepted_read accepted
    rw [read]
    simp

end SourceDiagram.ObjectModel
