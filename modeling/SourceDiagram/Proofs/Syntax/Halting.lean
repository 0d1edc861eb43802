import SourceDiagram.Proofs.Syntax.Run

set_option autoImplicit false

namespace SourceDiagram.Syntax

variable {α β : Type}

-- Wherever a cursor lies at the first place, the reader fails or leaves it at such a place with such
-- a result.
def Leaves (reader : Reader α) (start : Place) (stops : α → Place → Prop) : Prop :=
  ∀ cursor, Lies cursor start → ∀ result after, reader cursor = some (result, after) →
    ∃ stop, stops result stop ∧ Lies after stop

def Fails (reader : Reader α) (start : Place) : Prop :=
  ∀ cursor, Lies cursor start → reader cursor = none

variable {start between place : Place} {stops : α → Place → Prop} {goal : β → Place → Prop}

theorem Fails.leaves {reader : Reader α} (fails : Fails reader start) :
    Leaves reader start stops := by
  intro cursor lies result after read
  rw [fails cursor lies] at read
  cases read

theorem Leaves.fails {reader : Reader α} (leaves : Leaves reader start fun _ _ => False) :
    Fails reader start := by
  intro cursor lies
  cases read : reader cursor with
  | none => rfl
  | some found =>
    obtain ⟨stop, impossible, -⟩ := leaves cursor lies found.1 found.2 read
    exact impossible.elim

theorem fails_failure : Fails (failure : Reader α) start :=
  fun _ _ => rfl

theorem Leaves.pure {result : α} (held : stops result start) :
    Leaves (Pure.pure result) start stops := by
  intro cursor lies _ _ read
  cases read
  exact ⟨start, held, lies⟩

theorem Leaves.bind {first : Reader α} {later : α → Reader β} (head : Leaves first start stops)
    (tail : ∀ result stop, stops result stop → Leaves (later result) stop goal) :
    Leaves (first >>= later) start goal := by
  intro cursor lies result after read
  obtain ⟨⟨middle, there⟩, first, rest⟩ := Option.bind_eq_some_iff.mp read
  obtain ⟨stop, held, lies⟩ := head cursor lies middle there first
  exact tail middle stop held there lies result after rest

theorem Fails.bind {first : Reader α} (later : α → Reader β) (head : Fails first start) :
    Fails (first >>= later) start :=
  fun cursor lies => Option.bind_eq_none_iff.mpr fun found read => by
    rw [head cursor lies] at read
    cases read

theorem Runs.leaves {first : Reader α} {later : α → Reader β} {holds : α → Prop}
    (head : Runs first start between holds)
    (tail : ∀ result, holds result → Leaves (later result) between goal) :
    Leaves (first >>= later) start goal := by
  have known : Leaves first start fun result stop => stop = between ∧ holds result := by
    intro cursor lies result after read
    obtain ⟨_, _, same, there, held⟩ := head cursor lies
    cases read.symm.trans same
    exact ⟨between, ⟨rfl, held⟩, there⟩
  refine known.bind ?_
  rintro result stop ⟨rfl, held⟩
  exact tail result held

theorem Runs.fails {first : Reader α} {later : α → Reader β} {holds : α → Prop}
    (head : Runs first start between holds)
    (tail : ∀ result, holds result → Fails (later result) between) :
    Fails (first >>= later) start :=
  (head.leaves fun result held => (tail result held).leaves).fails

theorem Leaves.demand {descent : Descent} {phrase : Phrase} {lexeme : Lexeme} {rest : List Char}
    {stops : SyntaxTree → Place → Prop} (meets : Meets place.text none lexeme rest)
    (valid : lexeme ≠ .invalid) (leaves : Leaves (descent.read phrase) place stops) :
    Leaves (descent.demand phrase) place stops := by
  refine Runs.get.leaves fun here lies => ?_
  rw [lies.lead (.ahead meets) valid]
  split
  · contradiction
  · exact leaves

section

variable {step : α → Reader (α ⊕ β)} {limit : Nat} {state : α}

theorem Leaves.loop {again : α → Place → Prop}
    (round : Leaves (step state) start (Sum.elim again goal))
    (later : ∀ next stop, again next stop →
      Leaves (Reader.iterate step (limit - 1) next) stop goal) :
    Leaves (Reader.iterate step limit state) start goal := by
  cases limit with
  | zero => exact fails_failure.leaves
  | succ limit =>
    refine round.bind fun result stop held => ?_
    cases result with
    | inl next => exact later next stop held
    | inr final => exact .pure held

theorem Fails.loop (fails : Fails (step state) start) :
    Fails (Reader.iterate step limit state) start := by
  cases limit with
  | zero => exact fails_failure
  | succ limit => exact fails.bind _

theorem Runs.loop {invariant : α → Prop}
    (round : Runs (step state) start between (Sum.elim invariant fun _ => False))
    (later : ∀ next, invariant next →
      Leaves (Reader.iterate step (limit - 1) next) between goal) :
    Leaves (Reader.iterate step limit state) start goal := by
  cases limit with
  | zero => exact fails_failure.leaves
  | succ limit =>
    refine round.leaves fun result held => ?_
    cases result with
    | inl next => exact later next held
    | inr final => exact held.elim

theorem Reaches.leaves {holds : α → Prop} {left : Nat}
    (reaches : Reaches step start limit state between left holds)
    (later : ∀ next, holds next → Leaves (Reader.iterate step left next) between goal) :
    Leaves (Reader.iterate step limit state) start goal := by
  intro cursor lies
  obtain ⟨next, middle, there, held, same⟩ := reaches cursor lies
  rw [same]
  exact later next held middle there

end

end SourceDiagram.Syntax
