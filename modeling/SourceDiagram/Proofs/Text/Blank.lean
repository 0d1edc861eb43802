import Mathlib.Data.List.Basic
import SourceDiagram.Text.Characters

set_option autoImplicit false

namespace SourceDiagram.Text

variable {p : Char → Bool} {c : Char}

def blankCodes : List Nat :=
  [0x9, 0xa, 0xb, 0xc, 0xd, 0x20, 0x85, 0xa0, 0x1680, 0x2000, 0x2001, 0x2002, 0x2003, 0x2004,
    0x2005, 0x2006, 0x2007, 0x2008, 0x2009, 0x200a, 0x2028, 0x2029, 0x202f, 0x205f, 0x3000]

theorem blank_code (blank : isBlank c = true) : c.toNat ∈ blankCodes := by
  by_cases space : c = ' '
  · subst space
    decide
  · simp only [isBlank, Bool.or_eq_true, Bool.and_eq_true, decide_eq_true_eq, beq_iff_eq, space,
      or_false] at blank
    simp only [blankCodes, List.mem_cons, List.not_mem_nil, or_false]
    omega

theorem of_blank (property : Char → Prop) (each : ∀ code ∈ blankCodes, property (Char.ofNat code))
    (blank : isBlank c = true) : property c := by
  rw [← Char.ofNat_toNat c]
  exact each _ (blank_code blank)

theorem trim_end_append {text more : List Char} (dropped : ∀ c ∈ more, p c = true)
    (kept : ∀ c ∈ text.getLast?, p c = false) : trimEnd p (text ++ more) = text := by
  rw [trimEnd, List.reverse_append,
    List.dropWhile_append_of_pos fun c member => dropped c (List.mem_reverse.mp member)]
  rw [← List.head?_reverse] at kept
  cases reversed : text.reverse with
  | nil => simpa using reversed.symm
  | cons c cs =>
    rw [reversed] at kept
    rw [List.dropWhile_cons_of_neg (by simp [kept c rfl]), ← reversed, List.reverse_reverse]

theorem trim_both_append (before after : List Char) {text : List Char}
    (front : ∀ c ∈ before, p c = true) (back : ∀ c ∈ after, p c = true)
    (first : ∀ c ∈ text.head?, p c = false) (last : ∀ c ∈ text.getLast?, p c = false) :
    trimBoth p (before ++ (text ++ after)) = text := by
  rw [trimBoth, List.dropWhile_append_of_pos front]
  cases text with
  | nil =>
    have nothing : after.dropWhile p = [] := by
      rw [← List.append_nil after, List.dropWhile_append_of_pos back, List.dropWhile_nil]
    rw [List.nil_append, nothing]
    rfl
  | cons c cs =>
    rw [List.cons_append, List.dropWhile_cons_of_neg (by simp [first c rfl]), ← List.cons_append]
    exact trim_end_append back last

structure Strips (p : Char → Bool) (cs text : List Char) : Prop where
  around : ∃ before after, (∀ c ∈ before, p c = true) ∧ (∀ c ∈ after, p c = true) ∧
    cs = before ++ (text ++ after)
  first : ∀ c ∈ text.head?, p c = false
  last : ∀ c ∈ text.getLast?, p c = false

theorem drop_while_split (p : Char → Bool) (cs : List Char) :
    ∃ before, (∀ c ∈ before, p c = true) ∧ cs = before ++ cs.dropWhile p ∧
      ∀ c ∈ (cs.dropWhile p).head?, p c = false := by
  refine ⟨cs.takeWhile p, List.all_eq_true.mp List.all_takeWhile,
    List.takeWhile_append_dropWhile.symm, ?_⟩
  intro c first
  have stop := List.head?_dropWhile_not p cs
  rw [first] at stop
  simpa using stop

theorem trim_both_iff {cs text : List Char} : trimBoth p cs = text ↔ Strips p cs text := by
  constructor
  · rintro rfl
    obtain ⟨before, front, split, first⟩ := drop_while_split p cs
    obtain ⟨behind, back, reversed, last⟩ := drop_while_split p (cs.dropWhile p).reverse
    have kept : cs.dropWhile p = trimBoth p cs ++ behind.reverse := by
      rw [trimBoth, trimEnd, ← List.reverse_append, ← reversed, List.reverse_reverse]
    refine ⟨⟨before, behind.reverse, front, ?_, ?_⟩, ?_, ?_⟩
    · exact fun c member => back c (List.mem_reverse.mp member)
    · rw [← kept, ← split]
    · intro c member
      refine first c ?_
      rw [kept, List.head?_append, show (trimBoth p cs).head? = some c from member]
      rfl
    · rw [trimBoth, trimEnd, List.getLast?_reverse]
      exact last
  · rintro ⟨⟨before, after, front, back, rfl⟩, first, last⟩
    exact trim_both_append before after front back first last

theorem trim_both_none {text : List Char} (kept : ∀ c ∈ text, p c = false) :
    trimBoth p text = text := by
  have whole := trim_both_append (p := p) [] [] (List.forall_mem_nil _) (List.forall_mem_nil _)
    (fun c member => kept c (List.mem_of_head? member))
    (fun c member => kept c (List.mem_of_getLast? member))
  rwa [List.nil_append, List.append_nil] at whole

theorem trim_both_between {mark : Char} {text : List Char} (kept : ∀ c ∈ text, (c == mark) = false) :
    trimBoth (· == mark) (mark :: (text ++ [mark])) = text :=
  trim_both_append [mark] [mark] (by simp) (by simp)
    (fun c member => kept c (List.mem_of_head? member))
    (fun c member => kept c (List.mem_of_getLast? member))

theorem mem_drop_while_of_kept {cs : List Char} (member : c ∈ cs) (kept : p c = false) :
    c ∈ cs.dropWhile p := by
  rw [← List.takeWhile_append_dropWhile (p := p) (l := cs)] at member
  rcases List.mem_append.mp member with dropped | inside
  · rw [List.all_eq_true.mp List.all_takeWhile c dropped] at kept
    cases kept
  · exact inside

theorem mem_trim_end_of_kept {cs : List Char} (member : c ∈ cs) (kept : p c = false) :
    c ∈ trimEnd p cs :=
  List.mem_reverse.mpr (mem_drop_while_of_kept (List.mem_reverse.mpr member) kept)

theorem mem_trim_both_of_kept {cs : List Char} (member : c ∈ cs) (kept : p c = false) :
    c ∈ trimBoth p cs :=
  mem_trim_end_of_kept (mem_drop_while_of_kept member kept) kept

theorem trim_end_kept (kept : p c = false) (front back : List Char) :
    trimEnd p (front ++ c :: back) = front ++ c :: trimEnd p back := by
  rw [trimEnd, List.reverse_append, List.reverse_cons, List.append_assoc, List.dropWhile_append]
  by_cases trailing : (back.reverse.dropWhile p).isEmpty = true
  · rw [if_pos trailing, List.singleton_append, List.dropWhile_cons_of_neg (by simp [kept])]
    rw [List.isEmpty_iff] at trailing
    simp [trimEnd, trailing]
  · rw [if_neg trailing]
    simp [trimEnd]

-- The instance for all characters would try each of them.
instance (word : List Char) : Decidable (∀ c ∈ word, isBlank c = false) :=
  List.decidableBAll (fun c => isBlank c = false) word

theorem word_split {word more : List Char} (solid : ∀ c ∈ word, isBlank c = false)
    (space : ∀ c ∈ more.head?, isBlank c = true) :
    (word ++ more).takeWhile (fun c => !isBlank c) = word ∧
      (word ++ more).dropWhile (fun c => !isBlank c) = more := by
  have kept : ∀ c ∈ word, (!isBlank c) = true := by
    intro c member
    rw [solid c member]
    rfl
  rw [List.takeWhile_append_of_pos kept, List.dropWhile_append_of_pos kept]
  cases more with
  | nil => simp
  | cons c more => simp [space c rfl]

theorem word_and_gap (line : List Char) :
    ∃ word more, line.takeWhile (fun c => !isBlank c) = word ∧
      line.dropWhile (fun c => !isBlank c) = more ∧ line = word ++ more ∧
      (∀ c ∈ word, isBlank c = false) ∧ ∀ c ∈ more.head?, isBlank c = true := by
  obtain ⟨-, -, -, stop⟩ := drop_while_split (fun c => !isBlank c) line
  refine ⟨_, _, rfl, rfl, List.takeWhile_append_dropWhile.symm, ?_, ?_⟩
  · intro c member
    simpa using List.all_eq_true.mp List.all_takeWhile c member
  · intro c first
    simpa using stop c first

end SourceDiagram.Text
