import SourceDiagram.Proofs.Syntax.Lexing
import SourceDiagram.Syntax.Statement

set_option autoImplicit false

namespace SourceDiagram.Syntax

variable {α β : Type}

structure Place where
  text : List Char
  -- The columns of the open blocks, innermost first.
  indents : List Nat

def Lies (cursor : Cursor) (place : Place) : Prop :=
  ∃ offset, cursor = Cursor.enter place.text offset place.indents false

-- Wherever a cursor lies at the first place, the reader succeeds and leaves it at the second one.
def Runs (reader : Reader α) (start stop : Place) (holds : α → Prop) : Prop :=
  ∀ cursor, Lies cursor start →
    ∃ result after, reader cursor = some (result, after) ∧ Lies after stop ∧ holds result

def Follows (place : Place) (context : Context) (lexeme : Lexeme) : Prop :=
  ∀ cursor, Lies cursor place → cursor.follow context = lexeme

variable {place start stop between : Place} {context : Context} {lexeme : Lexeme}
  {rest : List Char} {level : Option Nat}

theorem Lies.ahead {cursor : Cursor} (lies : Lies cursor place)
    (meets : Meets place.text level lexeme rest) : cursor.lexeme = lexeme := by
  obtain ⟨offset, rfl⟩ := lies
  exact meets.lexeme

theorem Lies.column {cursor : Cursor} (lies : Lies cursor place)
    (meets : Meets place.text level lexeme rest) : cursor.gap.column = level := by
  obtain ⟨offset, rfl⟩ := lies
  exact meets.column

theorem Lies.indents {cursor : Cursor} (lies : Lies cursor place) :
    cursor.indents = place.indents := by
  obtain ⟨offset, rfl⟩ := lies
  rfl

theorem Lies.extras {cursor : Cursor} (lies : Lies cursor place)
    (meets : Meets place.text level lexeme rest) : cursor.gap.extras = [] := by
  obtain ⟨offset, rfl⟩ := lies
  have passed : (Cursor.enter place.text offset place.indents false).gap.passed = [] := meets.passed
  rw [Gap.extras, passed, List.map_nil]

theorem Lies.advance {cursor : Cursor} (lies : Lies cursor place)
    (meets : Meets place.text level lexeme rest) : Lies cursor.advance ⟨rest, place.indents⟩ := by
  obtain ⟨offset, rfl⟩ := lies
  exact ⟨_, by rw [← meets.rest]; rfl⟩

theorem Lies.shift {cursor : Cursor} (lies : Lies cursor place) (indents : List Nat) :
    Lies { cursor with indents := indents } ⟨place.text, indents⟩ := by
  obtain ⟨offset, rfl⟩ := lies
  exact ⟨offset, rfl⟩

theorem Follows.ahead (meets : Meets place.text none lexeme rest) :
    Follows place context lexeme := by
  intro cursor lies
  have unbroken : cursor.gap.isBroken = false := by rw [Gap.isBroken, lies.column meets]; rfl
  rw [Cursor.follow, Cursor.breaksOut, unbroken, lies.ahead meets]
  simp

theorem Follows.lineEnd {column : Nat} (meets : Meets place.text (some column) lexeme rest)
    (line : context.lineEnds = true) : Follows place context .lineEnd := by
  intro cursor lies
  have broken : cursor.gap.isBroken = true := by rw [Gap.isBroken, lies.column meets]; rfl
  rw [Cursor.follow, if_pos line, if_pos broken]

theorem Follows.inside {column : Nat} (meets : Meets place.text (some column) lexeme rest)
    (open_ : context.lineEnds = false) (inside : place.indents.headD 0 ≤ column) :
    Follows place context lexeme := by
  intro cursor lies
  have margin : cursor.gap.margin = column := by
    obtain ⟨offset, rfl⟩ := lies
    exact meets.margin
  have kept : cursor.breaksOut = false := by
    rw [Cursor.breaksOut, Cursor.indent, margin, lies.indents,
      decide_eq_false (Nat.not_lt.mpr inside)]
    simp
  rw [Cursor.follow, if_neg (by simp [open_]), kept, lies.ahead meets]
  simp

theorem Lies.lead {cursor : Cursor} (lies : Lies cursor place)
    (follows : Follows place context lexeme) (valid : lexeme ≠ .invalid) :
    cursor.lead context = lexeme := by
  unfold Cursor.lead
  rw [follows cursor lies]
  split
  · contradiction
  · rfl

theorem Reader.cursor_bind (later : Cursor → Reader α) (cursor : Cursor) :
    (Reader.cursor >>= later) cursor = later cursor cursor := rfl

namespace Runs

theorem pure {holds : α → Prop} {result : α} (held : holds result) :
    Runs (Pure.pure result) place place holds :=
  fun cursor lies => ⟨result, cursor, rfl, lies, held⟩

theorem bind {holds : α → Prop} {goal : β → Prop} {first : Reader α} {later : α → Reader β}
    (head : Runs first start between holds)
    (tail : ∀ result, holds result → Runs (later result) between stop goal) :
    Runs (first >>= later) start stop goal := by
  intro cursor lies
  obtain ⟨result, middle, read, there, held⟩ := head cursor lies
  obtain ⟨final, after, ended, last, good⟩ := tail result held middle there
  exact ⟨final, after, Option.bind_eq_some_iff.mpr ⟨(result, middle), read, ended⟩, last, good⟩

theorem next {goal : β → Prop} {first : Reader α} {later : α → Reader β} {result : α}
    (head : Runs first start between (· = result)) (tail : Runs (later result) between stop goal) :
    Runs (first >>= later) start stop goal :=
  head.bind fun _ same => same ▸ tail

theorem known {goal : β → Prop} {later : α → Reader β} {result : α}
    (runs : Runs (later result) start stop goal) :
    Runs (Pure.pure result >>= later) start stop goal :=
  next (pure rfl) runs

theorem mono {holds goal : α → Prop} {reader : Reader α} (runs : Runs reader start stop holds)
    (weaker : ∀ result, holds result → goal result) : Runs reader start stop goal := by
  intro cursor lies
  obtain ⟨result, after, read, there, held⟩ := runs cursor lies
  exact ⟨result, after, read, there, weaker result held⟩

theorem orElse {holds : α → Prop} {first : Reader α} (second : Reader α)
    (runs : Runs first start stop holds) : Runs (first <|> second) start stop holds := by
  intro cursor lies
  obtain ⟨result, after, read, there, held⟩ := runs cursor lies
  refine ⟨result, after, ?_, there, held⟩
  show (first cursor <|> second cursor) = _
  rw [read]
  rfl

theorem cursor : Runs Reader.cursor place place (Lies · place) :=
  fun cursor lies => ⟨cursor, cursor, rfl, lies, lies⟩

theorem get : Runs MonadState.get place place (Lies · place) :=
  fun cursor lies => ⟨cursor, cursor, rfl, lies, lies⟩

theorem follow (follows : Follows place context lexeme) :
    Runs (Reader.follow context) place place (· = lexeme) :=
  get.bind fun here lies => pure (follows here lies)

theorem lead (follows : Follows place context lexeme) (valid : lexeme ≠ .invalid) :
    Runs (Reader.lead context) place place (· = lexeme) :=
  get.bind fun _ lies => pure (lies.lead follows valid)

theorem skip (meets : Meets place.text level lexeme rest) :
    Runs Reader.skip place ⟨rest, place.indents⟩ fun _ => True :=
  fun _ lies => ⟨(), _, rfl, lies.advance meets, trivial⟩

theorem set {cursor : Cursor} (lies : Lies cursor stop) :
    Runs (MonadStateOf.set cursor) start stop fun _ => True :=
  fun _ _ => ⟨(), cursor, rfl, lies, trivial⟩

theorem require {condition : Bool} (held : condition = true) :
    Runs (Reader.require condition) place place fun _ => True := by
  rw [held]
  exact pure trivial

theorem textSince (before : Cursor) : Runs (Reader.textSince before) place place fun _ => True :=
  get.bind fun _ _ => pure trivial

theorem extras (meets : Meets place.text level lexeme rest) :
    Runs Reader.extras place place (· = []) :=
  get.bind fun _ lies => pure (lies.extras meets)

theorem accept {mark : Mark} (meets : Meets place.text none (.mark mark) rest) :
    Runs (Reader.accept context mark) place ⟨rest, place.indents⟩ (· = true) := by
  refine (follow (.ahead meets)).next ?_
  rw [if_pos rfl]
  exact (skip meets).bind fun _ _ => pure rfl

theorem refuse {mark : Mark} (follows : Follows place context lexeme)
    (other : lexeme ≠ .mark mark) : Runs (Reader.accept context mark) place place (· = false) := by
  refine (follow follows).next ?_
  rw [if_neg other]
  exact pure rfl

theorem expect {mark : Mark} (meets : Meets place.text none (.mark mark) rest) :
    Runs (Reader.expect context mark) place ⟨rest, place.indents⟩ fun _ => True :=
  (accept meets).next (require rfl)

theorem accepted {holds : α → Prop} {mark : Mark} {yes no : Reader α}
    (meets : Meets place.text none (.mark mark) rest)
    (runs : Runs yes ⟨rest, place.indents⟩ stop holds) :
    Runs (Reader.accept context mark >>= fun found => if found = true then yes else no) place stop
      holds :=
  (accept meets).next (by rwa [if_pos rfl])

theorem refused {holds : α → Prop} {mark : Mark} {yes no : Reader α}
    (follows : Follows place context lexeme) (other : lexeme ≠ .mark mark)
    (runs : Runs no place stop holds) :
    Runs (Reader.accept context mark >>= fun found => if found = true then yes else no) place stop
      holds :=
  (refuse follows other).next (by rwa [if_neg (by simp)])

theorem keyword? (follows : Follows place context lexeme) :
    Runs (Reader.keyword? context) place place (· = lexeme.keyword?) :=
  (follow follows).next (pure rfl)

theorem acceptWord {text : String} {keyword : Keyword}
    (follows : Follows place context (.word text (some keyword)))
    (meets : Meets place.text level (.word text (some keyword)) rest) :
    Runs (Reader.acceptWord context keyword) place ⟨rest, place.indents⟩ (· = true) := by
  refine (Runs.keyword? follows).next ?_
  rw [Lexeme.keyword?, if_pos rfl]
  exact (skip meets).bind fun _ _ => pure rfl

theorem refuseWord {keyword : Keyword} (follows : Follows place context lexeme)
    (other : lexeme.keyword? ≠ some keyword) :
    Runs (Reader.acceptWord context keyword) place place (· = false) := by
  refine (Runs.keyword? follows).next ?_
  rw [if_neg other]
  exact pure rfl

theorem name {text : String} {keyword : Option Keyword}
    (meets : Meets place.text none (.word text keyword) rest) :
    Runs Reader.name place ⟨rest, place.indents⟩ (· = .leaf .identifier text) :=
  (follow (.ahead meets)).next ((skip meets).bind fun _ _ => pure rfl)

theorem demand {holds : SyntaxTree → Prop} {descent : Descent} {phrase : Phrase}
    (meets : Meets place.text none lexeme rest) (valid : lexeme ≠ .invalid)
    (runs : Runs (descent.read phrase) place stop holds) :
    Runs (descent.demand phrase) place stop holds := by
  refine get.bind fun here lies => ?_
  rw [lies.lead (.ahead meets) valid]
  split
  · contradiction
  · exact runs

theorem done {holds : β → Prop} {step : α → Reader (α ⊕ β)} {limit : Nat} {state : α}
    (positive : 0 < limit) (runs : Runs (step state) start stop (Sum.elim (fun _ => False) holds)) :
    Runs (Reader.iterate step limit state) start stop holds := by
  cases limit with
  | zero => contradiction
  | succ limit =>
    refine runs.bind fun result held => ?_
    cases result with
    | inl next => exact held.elim
    | inr final => exact pure held

theorem finish {holds : β → Prop} {step : α → Reader (α ⊕ β)} {limit : Nat} {state : α} {final : β}
    (positive : 0 < limit)
    (runs : Runs (step state) start stop (Sum.elim (fun _ => False) (· = final)))
    (held : holds final) : Runs (Reader.iterate step limit state) start stop holds :=
  (done positive runs).mono fun _ same => same ▸ held

-- One more round of a loop. The invariant is what is known of the state the next round starts with.
theorem again {holds : β → Prop} {step : α → Reader (α ⊕ β)} {limit : Nat} {state : α}
    {invariant : α → Prop} (positive : 0 < limit)
    (runs : Runs (step state) start between (Sum.elim invariant fun _ => False))
    (later : ∀ next, invariant next →
      Runs (Reader.iterate step (limit - 1) next) between stop holds) :
    Runs (Reader.iterate step limit state) start stop holds := by
  cases limit with
  | zero => contradiction
  | succ limit =>
    refine runs.bind fun result held => ?_
    cases result with
    | inl next => exact later next held
    | inr final => exact held.elim

end Runs

-- Some rounds of a loop: what it gives from the first place on, it gives from the second one on with
-- the rounds that are left.
def Reaches (step : α → Reader (α ⊕ β)) (start : Place) (limit : Nat) (state : α) (stop : Place)
    (left : Nat) (holds : α → Prop) : Prop :=
  ∀ cursor, Lies cursor start → ∃ next after, Lies after stop ∧ holds next ∧
    Reader.iterate step limit state cursor = Reader.iterate step left next after

namespace Reaches

variable {step : α → Reader (α ⊕ β)} {limit left : Nat} {state : α} {holds : α → Prop}

theorem stay (held : holds state) : Reaches step start limit state start limit holds :=
  fun cursor lies => ⟨state, cursor, lies, held, rfl⟩

theorem round {invariant : α → Prop}
    (runs : Runs (step state) start between (Sum.elim invariant fun _ => False))
    (later : ∀ next, invariant next → Reaches step between limit next stop left holds) :
    Reaches step start (limit + 1) state stop left holds := by
  intro cursor lies
  obtain ⟨result, middle, read, there, held⟩ := runs cursor lies
  cases result with
  | inr final => exact held.elim
  | inl next =>
    obtain ⟨last, after, ends, good, same⟩ := later next held middle there
    refine ⟨last, after, ends, good, ?_⟩
    rw [← same]
    show Option.bind (step state cursor) _ = _
    rw [read]
    rfl

theorem runs {goal : β → Prop} {final : Place}
    (reaches : Reaches step start limit state stop left holds)
    (later : ∀ next, holds next → Runs (Reader.iterate step left next) stop final goal) :
    Runs (Reader.iterate step limit state) start final goal := by
  intro cursor lies
  obtain ⟨next, middle, there, held, same⟩ := reaches cursor lies
  rw [same]
  exact later next held middle there

end Reaches

end SourceDiagram.Syntax
