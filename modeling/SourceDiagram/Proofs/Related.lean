import Mathlib.Data.List.Forall2

set_option autoImplicit false

namespace SourceDiagram

variable {α β γ : Type} {related : α → β → Prop} {left : List α} {right : List β}

theorem forall_right {holds : β → Prop} (pairs : List.Forall₂ related left right)
    (gives : ∀ a b, related a b → holds b) : ∀ b ∈ right, holds b := by
  induction pairs with
  | nil => simp
  | cons first _ ih => exact List.forall_mem_cons.mpr ⟨gives _ _ first, ih⟩

theorem map_right {f : β → γ} {g : α → γ} (pairs : List.Forall₂ related left right)
    (gives : ∀ a b, related a b → f b = g a) : right.map f = left.map g := by
  induction pairs with
  | nil => rfl
  | cons first _ ih => rw [List.map_cons, List.map_cons, gives _ _ first, ih]

theorem flat_map_right {f : β → List γ} {g : α → List γ} (pairs : List.Forall₂ related left right)
    (gives : ∀ a b, related a b → f b = g a) : right.flatMap f = left.flatMap g := by
  induction pairs with
  | nil => rfl
  | cons first _ ih => rw [List.flatMap_cons, List.flatMap_cons, gives _ _ first, ih]

theorem any_right {f : β → Bool} {g : α → Bool} (pairs : List.Forall₂ related left right)
    (gives : ∀ a b, related a b → f b = g a) : right.any f = left.any g := by
  induction pairs with
  | nil => rfl
  | cons first _ ih => rw [List.any_cons, List.any_cons, gives _ _ first, ih]

theorem filter_related {p : β → Bool} {q : α → Bool} (pairs : List.Forall₂ related left right)
    (gives : ∀ a b, related a b → p b = q a) :
    List.Forall₂ related (left.filter q) (right.filter p) := by
  refine List.rel_filter (fun a b same => ?_) pairs
  simp only [gives a b same]

theorem filter_map_related {f : β → Option γ} {g : α → Option γ}
    (pairs : List.Forall₂ related left right) (gives : ∀ a b, related a b → f b = g a) :
    right.filterMap f = left.filterMap g := by
  induction pairs with
  | nil => rfl
  | cons first _ ih => rw [List.filterMap_cons, List.filterMap_cons, gives _ _ first, ih]

theorem filter_map_right {f : β → Option γ} {g : α → γ} (pairs : List.Forall₂ related left right)
    (gives : ∀ a b, related a b → f b = some (g a)) : right.filterMap f = left.map g := by
  rw [filter_map_related pairs gives, ← List.filterMap_eq_map]
  rfl

theorem head_related (pairs : List.Forall₂ related left right) :
    Option.Rel related left.head? right.head? := by
  cases pairs with
  | nil => exact .none
  | cons first _ => exact .some first

theorem none_or_related {a : Option α} {b : Option β} (pair : Option.Rel related a b) :
    (a = none ∧ b = none) ∨ ∃ first second, a = some first ∧ b = some second ∧ related first second := by
  cases pair with
  | none => exact .inl ⟨rfl, rfl⟩
  | some same => exact .inr ⟨_, _, rfl, rfl, same⟩

theorem map_related {a : Option α} {b : Option β} {f : β → γ} {g : α → γ}
    (pair : Option.Rel related a b) (gives : ∀ a b, related a b → f b = g a) : b.map f = a.map g := by
  cases pair with
  | none => rfl
  | some first => rw [Option.map_some, Option.map_some, gives _ _ first]

theorem bind_related {a : Option α} {b : Option β} {f : β → Option γ} {g : α → Option γ}
    (pair : Option.Rel related a b) (gives : ∀ a b, related a b → f b = g a) :
    b.bind f = a.bind g := by
  cases pair with
  | none => rfl
  | some first => rw [Option.bind_some, Option.bind_some, gives _ _ first]

theorem exists_each (each : ∀ a ∈ left, ∃ b, related a b) : ∃ right, List.Forall₂ related left right := by
  induction left with
  | nil => exact ⟨[], .nil⟩
  | cons a left ih =>
    obtain ⟨⟨b, first⟩, later⟩ := List.forall_mem_cons.mp each
    obtain ⟨right, others⟩ := ih later
    exact ⟨b :: right, .cons first others⟩

end SourceDiagram
