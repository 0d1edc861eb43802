import SourceDiagram.Proofs.Text.Blank
import SourceDiagram.Schema.Statement

set_option autoImplicit false

namespace SourceDiagram.Schema

open SourceDiagram.Text

-- Simple case folding. Beyond ASCII only the long s and the Kelvin sign fold to a letter of
-- ASCII; what other characters fold to spells no keyword.
def foldCase (c : Char) : Char :=
  if c = 'ſ' then 's' else if c = '\u212a' then 'k' else c.toLower

def Spells (keyword : String) (word : List Char) : Prop :=
  word.map foldCase = keyword.toList

instance (keyword : String) (word : List Char) : Decidable (Spells keyword word) :=
  inferInstanceAs (Decidable (_ = _))

def Blank (text : List Char) : Prop :=
  ∀ c ∈ text, isBlank c = true

def Gap (text : List Char) : Prop :=
  text ≠ [] ∧ Blank text

inductive Condition : List Char → Prop where
  | absent : Condition []
  | present {first second third firstGap secondGap thirdGap : List Char} :
      Spells "if" first → Gap firstGap → Spells "not" second → Gap secondGap →
      Spells "exists" third → Gap thirdGap →
      Condition (first ++ (firstGap ++ (second ++ (secondGap ++ (third ++ thirdGap)))))

inductive Named : List Char → List Char → Prop where
  | word {name : List Char} : name ≠ [] → (∀ c ∈ name, isWordChar c = true) → Named name name
  | quoted {name : List Char} : name ≠ [] → '"' ∉ name → Named name ('"' :: (name ++ ['"']))

inductive Qualified : Option (List Char) → List Char → List Char → Prop where
  | plain {table text : List Char} : Named table text → Qualified none table text
  | dotted {schema table first second before after : List Char} :
      Named schema first → Blank before → Blank after → Named table second →
      Qualified (some schema) table (first ++ (before ++ '.' :: (after ++ second)))

inductive Head : Option (List Char) → List Char → List Char → Prop where
  | intro {schema : Option (List Char)}
      {table create noun firstGap secondGap condition name between : List Char} :
      Spells "create" create → Gap firstGap → Spells "table" noun → Gap secondGap →
      Condition condition → Qualified schema table name → Blank between →
      Head schema table
        (create ++ (firstGap ++ (noun ++ (secondGap ++ (condition ++ (name ++ (between ++ ['('])))))))

def Closes (text : List Char) : Prop :=
  ∃ before gap after, Blank gap ∧ text = before ++ ')' :: (gap ++ ';' :: after)

-- The closing parenthesis of a body is the first one that closes. It is no part of a blank run,
-- so it is enough that none closes inside the body.
inductive Segment : Statement → List Char → Prop where
  | intro {schema : Option (List Char)} {table head body gap : List Char} :
      Head schema table head → ¬ Closes body → Blank gap →
      Segment ⟨schema, table, body⟩ (head ++ (body ++ ')' :: (gap ++ [';'])))

theorem stands_for_iff (letter c : Char) (ascii : letter.toNat < 128) (notK : letter ≠ 'k') :
    standsFor letter c = true ↔ foldCase c = letter := by
  unfold standsFor foldCase
  by_cases longS : c = 'ſ'
  · have different : 'ſ' ≠ letter := by
      rintro rfl
      exact absurd ascii (by decide)
    have same : 'ſ'.toLower = 'ſ' := by decide
    subst longS
    simpa [same, different] using eq_comm
  · by_cases kelvin : c = '\u212a'
    · have different : '\u212a' ≠ letter := by
        rintro rfl
        exact absurd ascii (by decide)
      have same : '\u212a'.toLower = '\u212a' := by decide
      subst kelvin
      simp [same, different, Ne.symm notK]
    · simp [longS, kelvin]

theorem blank_not_word {c : Char} (blank : isBlank c = true) : isWordChar c = false :=
  of_blank (fun c => isWordChar c = false) (by decide +kernel) blank

theorem blank_folds {c : Char} (blank : isBlank c = true) : foldCase c = c :=
  of_blank (fun c => foldCase c = c) (by decide +kernel) blank

end SourceDiagram.Schema
