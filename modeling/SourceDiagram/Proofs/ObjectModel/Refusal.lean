import Mathlib.Logic.Relation
import SourceDiagram.ObjectModel.Description
import SourceDiagram.ObjectModel.Session
import SourceDiagram.Syntax.Tree

set_option autoImplicit false

namespace SourceDiagram.ObjectModel

open SourceDiagram.Syntax

def IsEntry (kinds : List Kind) (entry : SyntaxTree) : Prop :=
  entry.kind ∈ kinds ∨
    entry.kind = .typedParameter ∧ ∃ named, entry.parts.head? = some named ∧ named.kind ∈ kinds

def HasDefault : SyntaxTree → Prop := IsEntry [.defaultParameter, .typedDefaultParameter]

def IsRequired : SyntaxTree → Prop := IsEntry [.identifier]

def IsStarred : SyntaxTree → Prop :=
  IsEntry [.listSplatPattern, .dictionarySplatPattern, .keywordSeparator]

theorem is_entry_iff {kinds : List Kind} (untyped : .typedParameter ∉ kinds) (entry : SyntaxTree) :
    IsEntry kinds entry ↔ (judged entry).kind ∈ kinds := by
  rw [IsEntry, judged]
  by_cases typed : entry.kind = .typedParameter
  · rw [if_pos typed, typed]
    cases entry.parts with
    | nil => simp [typed]
    | cons named rest => simp [untyped]
  · rw [if_neg typed]
    simp [typed]

def StandsAt (property : SyntaxTree → Prop) (entries : List SyntaxTree) (place : Nat) : Prop :=
  ∃ entry, entries[place]? = some entry ∧ property entry

@[simp] theorem stands_at_zero (property : SyntaxTree → Prop) (entry : SyntaxTree)
    (entries : List SyntaxTree) : StandsAt property (entry :: entries) 0 ↔ property entry := by
  simp [StandsAt]

@[simp] theorem stands_at_succ (property : SyntaxTree → Prop) (entry : SyntaxTree)
    (entries : List SyntaxTree) (place : Nat) :
    StandsAt property (entry :: entries) (place + 1) ↔ StandsAt property entries place := by
  simp [StandsAt]

instance (entry : SyntaxTree) : Decidable (HasDefault entry) :=
  decidable_of_iff _ (is_entry_iff (by decide) entry).symm

-- An entry without a default comes after one with a default, and no star comes before it.
def Misordered (entries : List SyntaxTree) : Prop :=
  ∃ early late, early < late ∧ StandsAt HasDefault entries early ∧
    StandsAt IsRequired entries late ∧ ∀ between < late, ¬ StandsAt IsStarred entries between

-- The same where a default may also be known from what is in front of the entries.
def Misplaced (known : Prop) (entries : List SyntaxTree) : Prop :=
  ∃ late, StandsAt IsRequired entries late ∧
    (known ∨ ∃ early < late, StandsAt HasDefault entries early) ∧
    ∀ between < late, ¬ StandsAt IsStarred entries between

theorem misplaced_cons (known : Prop) (entry : SyntaxTree) (entries : List SyntaxTree) :
    Misplaced known (entry :: entries) ↔
      known ∧ IsRequired entry ∨ ¬ IsStarred entry ∧ Misplaced (known ∨ HasDefault entry) entries := by
  constructor
  · rintro ⟨late, required, default, unstarred⟩
    cases late with
    | zero =>
      obtain known | ⟨early, before, -⟩ := default
      · exact .inl ⟨known, (stands_at_zero _ _ _).mp required⟩
      · exact absurd before (Nat.not_lt_zero early)
    | succ late =>
      have first : ¬ IsStarred entry := by simpa using unstarred 0 (Nat.succ_pos late)
      refine .inr ⟨first, late, (stands_at_succ _ _ _ _).mp required, ?_, ?_⟩
      · obtain known | ⟨early, before, given⟩ := default
        · exact .inl (.inl known)
        · cases early with
          | zero => exact .inl (.inr ((stands_at_zero _ _ _).mp given))
          | succ early =>
            exact .inr ⟨early, Nat.lt_of_succ_lt_succ before, (stands_at_succ _ _ _ _).mp given⟩
      · intro between inside
        simpa using unstarred (between + 1) (Nat.succ_lt_succ inside)
  · rintro (⟨known, required⟩ | ⟨first, late, required, default, unstarred⟩)
    · exact ⟨0, (stands_at_zero _ _ _).mpr required, .inl known,
        fun between inside => absurd inside (Nat.not_lt_zero between)⟩
    · refine ⟨late + 1, (stands_at_succ _ _ _ _).mpr required, ?_, ?_⟩
      · obtain (known | given) | ⟨early, before, given⟩ := default
        · exact .inl known
        · exact .inr ⟨0, Nat.succ_pos late, (stands_at_zero _ _ _).mpr given⟩
        · exact .inr ⟨early + 1, Nat.succ_lt_succ before, (stands_at_succ _ _ _ _).mpr given⟩
      · intro between inside
        cases between with
        | zero => simpa using first
        | succ between => simpa using unstarred between (Nat.lt_of_succ_lt_succ inside)

theorem required_after_default_cons (defaulted : Bool) (entry : SyntaxTree)
    (entries : List SyntaxTree) :
    requiredAfterDefault defaulted (entry :: entries) = true ↔
      defaulted = true ∧ IsRequired entry ∨
        ¬ IsStarred entry ∧
          requiredAfterDefault (defaulted || decide (HasDefault entry)) entries = true := by
  have default : HasDefault entry ↔ _ := is_entry_iff (by decide) entry
  have required : IsRequired entry ↔ _ := is_entry_iff (by decide) entry
  have starred : IsStarred entry ↔ _ := is_entry_iff (by decide) entry
  simp only [default, required, starred, requiredAfterDefault]
  -- Only a default, a plain name and a star change the course of the loop.
  split <;> simp_all

theorem required_after_default_iff (defaulted : Bool) (entries : List SyntaxTree) :
    requiredAfterDefault defaulted entries = true ↔ Misplaced (defaulted = true) entries := by
  induction entries generalizing defaulted with
  | nil => simp [requiredAfterDefault, Misplaced, StandsAt]
  | cons entry entries ih =>
    rw [misplaced_cons, required_after_default_cons, ih, Bool.or_eq_true, decide_eq_true_eq]

theorem misordered_iff (entries : List SyntaxTree) :
    requiredAfterDefault false entries = true ↔ Misordered entries := by
  rw [required_after_default_iff]
  constructor
  · rintro ⟨late, required, known | ⟨early, before, default⟩, unstarred⟩
    · cases known
    · exact ⟨early, late, before, default, required, unstarred⟩
  · rintro ⟨early, late, before, default, required, unstarred⟩
    exact ⟨late, required, .inr ⟨early, before, default⟩, unstarred⟩

def IsCall (tree : SyntaxTree) : Prop :=
  ∃ argument, tree.parts = [argument] ∧
    (argument.kind = .parenthesizedExpression ∨ argument.kind = .tupleDisplay)

inductive Outdated (tree : SyntaxTree) : Prop where
  | executes : tree.kind = .execStatement → Outdated tree
  | prints : tree.kind = .printStatement → ¬ IsCall tree → Outdated tree
  | takes : tree.kind = .parameters ∨ tree.kind = .lambdaParameters → Misordered tree.parts →
      Outdated tree

theorem parts_of_children (kind : Kind) (text : String) (tree : SyntaxTree) :
    (SyntaxTree.node kind text tree.children).parts = tree.parts := rfl

theorem call_like_iff (tree : SyntaxTree) : isCallLike tree.children = true ↔ IsCall tree := by
  rw [isCallLike, parts_of_children, IsCall]
  obtain _ | ⟨argument, _ | ⟨next, rest⟩⟩ := tree.parts
  · simp
  · simp
  · simp

theorem refused_iff (tree : SyntaxTree) :
    isRefused tree.kind tree.children = true ↔ Outdated tree := by
  unfold isRefused
  rw [parts_of_children]
  constructor
  · intro refused
    split at refused
    · exact .executes ‹_›
    · refine .prints ‹_› fun call => ?_
      rw [(call_like_iff tree).mpr call] at refused
      cases refused
    · exact .takes (.inl ‹_›) ((misordered_iff _).mp refused)
    · exact .takes (.inr ‹_›) ((misordered_iff _).mp refused)
    · cases refused
  · intro outdated
    cases outdated with
    | executes kind => rw [kind]
    | prints kind other =>
      have unlike : isCallLike tree.children = false :=
        Bool.eq_false_iff.mpr fun like => other ((call_like_iff tree).mp like)
      simp only [kind, unlike, Bool.not_false]
    | takes kind misordered =>
      obtain kind | kind := kind
      all_goals
        rw [kind]
        exact (misordered_iff _).mpr misordered

theorem any_refused_eq (children : List (Role × SyntaxTree)) :
    anyRefused children = ((children.map Prod.snd).filter SyntaxTree.isPart).any hasRefused := by
  induction children with
  | nil => rw [anyRefused]; rfl
  | cons child children ih =>
    obtain ⟨role, tree⟩ := child
    rw [anyRefused, ih, List.map_cons, List.filter_cons]
    by_cases part : tree.isPart = true
    · rw [if_pos part, part, Bool.true_and, List.any_cons]
    · rw [if_neg part, Bool.eq_false_iff.mpr part, Bool.false_and, Bool.false_or]

theorem has_refused_eq (tree : SyntaxTree) :
    hasRefused tree = (isRefused tree.kind tree.children || tree.parts.any hasRefused) := by
  cases tree with
  | node kind text children =>
    rw [hasRefused, any_refused_eq]
    rfl

inductive Below (root : SyntaxTree) : SyntaxTree → Prop where
  | here : Below root root
  | part {above part : SyntaxTree} : Below root above → part ∈ above.parts → Below root part

theorem below_of_part {root part node : SyntaxTree} (member : part ∈ root.parts)
    (below : Below part node) : Below root node := by
  induction below with
  | here => exact .part .here member
  | part _ inside ih => exact .part ih inside

theorem refused_of_below {root node : SyntaxTree} (below : Below root node)
    (refused : hasRefused node = true) : hasRefused root = true := by
  induction below with
  | here => exact refused
  | part _ inside ih =>
    apply ih
    rw [has_refused_eq, Bool.or_eq_true]
    exact .inr (List.any_eq_true.mpr ⟨_, inside, refused⟩)

theorem has_refused_iff (tree : SyntaxTree) :
    hasRefused tree = true ↔ ∃ node, Below tree node ∧ Outdated node := by
  constructor
  · intro refused
    induction size : tree.size using Nat.strongRecOn generalizing tree with
    | _ count ih =>
      subst size
      rw [has_refused_eq, Bool.or_eq_true, refused_iff, List.any_eq_true] at refused
      obtain outdated | ⟨part, member, refused⟩ := refused
      · exact ⟨tree, .here, outdated⟩
      · obtain ⟨node, below, outdated⟩ := ih part.size (part_size_lt member) part refused rfl
        exact ⟨node, below_of_part member below, outdated⟩
  · rintro ⟨node, below, outdated⟩
    refine refused_of_below below ?_
    rw [has_refused_eq, (refused_iff node).mpr outdated, Bool.true_or]

inductive Search where
  | working (left : List SyntaxTree)
  | answered (found : Bool)

-- Any of the trees that are left may be next, and its parts may be put anywhere among the others.
inductive Step : Search → Search → Prop where
  | finish : Step (.working []) (.answered false)
  | refuse {left : List SyntaxTree} {tree : SyntaxTree} : tree ∈ left →
      isRefused tree.kind tree.children = true → Step (.working left) (.answered true)
  | enter {left others next : List SyntaxTree} {tree : SyntaxTree} : left.Perm (tree :: others) →
      isRefused tree.kind tree.children = false → next.Perm (tree.parts ++ others) →
      Step (.working left) (.working next)

def Search.verdict : Search → Bool
  | .working left => left.any hasRefused
  | .answered found => found

def Search.size : Search → Nat
  | .working left => queueSize left + 1
  | .answered _ => 0

theorem queue_size_perm {left right : List SyntaxTree} (same : left.Perm right) :
    queueSize left = queueSize right := by
  induction same with
  | nil => rfl
  | cons tree _ ih => rw [queueSize, queueSize, ih]
  | swap first second rest => simp only [queueSize]; omega
  | trans _ _ ih later => exact ih.trans later

theorem step_keeps_verdict {search next : Search} (step : Step search next) :
    next.verdict = search.verdict := by
  cases step with
  | finish => rfl
  | @refuse left tree member refused =>
    have found : left.any hasRefused = true := by
      refine List.any_eq_true.mpr ⟨tree, member, ?_⟩
      rw [has_refused_eq, refused, Bool.true_or]
    exact found.symm
  | @enter left others rest tree taken kept put =>
    rw [Search.verdict, Search.verdict, put.any_eq, taken.any_eq, List.any_append, List.any_cons,
      has_refused_eq tree, kept, Bool.false_or]

theorem step_shrinks {search next : Search} (step : Step search next) : next.size < search.size := by
  cases step with
  | finish => exact Nat.succ_pos _
  | refuse => exact Nat.succ_pos _
  | @enter left others rest tree taken kept put =>
    have smaller := parts_size_lt tree
    rw [Search.size, Search.size, queue_size_perm put, queue_size_perm taken, queue_size_append,
      queueSize]
    omega

theorem search_steps (left : List SyntaxTree) : ∃ next, Step (.working left) next := by
  cases left with
  | nil => exact ⟨_, .finish⟩
  | cons tree others =>
    cases refused : isRefused tree.kind tree.children with
    | true => exact ⟨_, .refuse (List.mem_cons_self ..) refused⟩
    | false => exact ⟨_, .enter (.refl _) refused (.refl _)⟩

theorem run_keeps_verdict {search reached : Search} (run : Relation.ReflTransGen Step search reached) :
    reached.verdict = search.verdict := by
  induction run with
  | refl => rfl
  | tail _ step ih => exact (step_keeps_verdict step).trans ih

-- A module is refused exactly for an outdated construct somewhere below it. The search for one ends
-- whatever tree it takes up next, and the answer that it ends with is always the same.
theorem refused_iff_outdated_below (tree : SyntaxTree) :
    (hasRefused tree = true ↔ ∃ node, Below tree node ∧ Outdated node) ∧
      Acc (fun next search => Step search next) (.working [tree]) ∧
      ∀ reached, Relation.ReflTransGen Step (.working [tree]) reached →
        (∀ next, ¬ Step reached next) → reached = .answered (hasRefused tree) := by
  refine ⟨has_refused_iff tree, ?_, ?_⟩
  · exact (Subrelation.wf step_shrinks (measure Search.size).wf).apply _
  · intro reached run ended
    have verdict := run_keeps_verdict run
    cases reached with
    | working left =>
      obtain ⟨next, step⟩ := search_steps left
      exact absurd step (ended next)
    | answered found =>
      rw [Search.verdict, Search.verdict, List.any_cons, List.any_nil, Bool.or_false] at verdict
      rw [verdict]

end SourceDiagram.ObjectModel
