import Mathlib.Data.List.Infix
import Mathlib.Data.List.Pairwise
import Mathlib.Data.List.Perm.Basic
import SourceDiagram.Substitution

set_option autoImplicit false

namespace SourceDiagram

-- The pieces of a text between the occurrences of a token, from left to right. A piece ends where
-- the token begins for the first time, and the next one begins behind that occurrence.
inductive Divided (token : List Char) : List Char → List (List Char) → Prop where
  | last {text : List Char} : ¬ token <:+: text → Divided token text [text]
  | more {piece rest : List Char} {pieces : List (List Char)} :
      (∀ before behind, piece ++ token = before ++ (token ++ behind) → behind = []) →
      Divided token rest pieces → Divided token (piece ++ (token ++ rest)) (piece :: pieces)

-- Whether definitions have nothing to do with each other: no token or value is empty, no two
-- tokens share a character, and no value shares one with a token.
structure Independent (definitions : List Definition) : Prop where
  tokens : ∀ definition ∈ definitions, definition.token ≠ ""
  values : ∀ definition ∈ definitions, definition.value ≠ ""
  apart : definitions.Pairwise fun one other => one.token.toList.Disjoint other.token.toList
  shielded : ∀ one ∈ definitions, ∀ other ∈ definitions,
    one.value.toList.Disjoint other.token.toList

section Step

variable {token value : List Char}

theorem replace_skipped (first rest : List Char) :
    replaceFrom token value first.length (first ++ rest) = replaceFrom token value 0 rest := by
  induction first with
  | nil => rfl
  | cons c first ih => rwa [List.length_cons, List.cons_append, replaceFrom]

theorem replace_found (present : token ≠ []) (rest : List Char) :
    replaceFrom token value 0 (token ++ rest) = value ++ replaceFrom token value 0 rest := by
  cases token with
  | nil => exact absurd rfl present
  | cons c token =>
    have begins : (c :: token).isPrefixOf (c :: (token ++ rest)) = true := by
      rw [List.isPrefixOf_iff_prefix]
      exact List.prefix_append (c :: token) rest
    rw [List.cons_append, replaceFrom, if_pos begins, List.length_cons, Nat.add_sub_cancel,
      replace_skipped]

theorem replace_passed {c : Char} {cs : List Char} (missing : ¬ token <+: c :: cs) :
    replaceFrom token value 0 (c :: cs) = c :: replaceFrom token value 0 cs := by
  rw [← List.isPrefixOf_iff_prefix] at missing
  rw [replaceFrom, if_neg missing]

theorem length_behind (present : token ≠ []) (rest : List Char) :
    rest.length < (token ++ rest).length := by
  rw [List.length_append]
  exact Nat.lt_add_of_pos_left (List.length_pos_of_ne_nil present)

-- A text is scanned from left to right: what is true of no text stays true behind the token, where
-- the text begins with it, and behind a character, where it does not.
theorem scanned (present : token ≠ []) {motive : List Char → Prop} (nil : motive [])
    (found : ∀ rest, motive rest → motive (token ++ rest))
    (passed : ∀ c cs, ¬ token <+: c :: cs → motive cs → motive (c :: cs)) (text : List Char) :
    motive text := by
  induction size : text.length using Nat.strong_induction_on generalizing text with
  | _ size ih =>
    subst size
    by_cases begins : token <+: text
    · obtain ⟨rest, rfl⟩ := begins
      exact found rest (ih _ (length_behind present rest) rest rfl)
    · cases text with
      | nil => exact nil
      | cons c cs => exact passed c cs begins (ih _ (Nat.lt_succ_self _) cs rfl)

theorem Divided.joined_more {text : List Char} {pieces : List (List Char)}
    (divided : Divided token text pieces) (piece : List Char) :
    value.intercalate (piece :: pieces) = piece ++ (value ++ value.intercalate pieces) := by
  cases divided with
  | last => rw [List.intercalate_cons_cons, List.append_assoc]
  | more => rw [List.intercalate_cons_cons, List.append_assoc]

theorem Divided.unique {text : List Char} {pieces others : List (List Char)}
    (divided : Divided token text pieces) (again : Divided token text others) : others = pieces := by
  induction divided generalizing others with
  | @last text absent =>
    cases again with
    | last => rfl
    | @more piece rest => exact absurd ⟨piece, rest, by rw [List.append_assoc]⟩ absent
  | @more piece rest pieces first divided ih =>
    generalize whole : piece ++ (token ++ rest) = text at again
    cases again with
    | last absent => exact absurd ⟨piece, rest, by rw [List.append_assoc, whole]⟩ absent
    | @more other behind others earliest again =>
      rw [← List.append_assoc, ← List.append_assoc] at whole
      have same : piece ++ token = other ++ token := by
        rcases List.append_eq_append_iff.mp whole with ⟨more, longer, -⟩ | ⟨more, longer, -⟩
        · have nothing := earliest piece more (by rw [longer, List.append_assoc])
          rw [longer, nothing, List.append_nil]
        · have nothing := first other more (by rw [longer, List.append_assoc])
          rw [longer, nothing, List.append_nil]
      rw [same] at whole
      obtain rfl := List.append_cancel_left whole
      rw [List.append_cancel_right same, ih again]

theorem replace_divided (present : token ≠ []) (text : List Char) :
    ∃ pieces, Divided token text pieces ∧
      replaceFrom token value 0 text = value.intercalate pieces := by
  induction text using scanned present with
  | nil => exact ⟨[[]], .last (by simpa using present), rfl⟩
  | found rest ih =>
    obtain ⟨pieces, divided, replaced⟩ := ih
    have first : ∀ before behind, [] ++ token = before ++ (token ++ behind) → behind = [] := by
      intro before behind split
      have sizes := congrArg List.length split
      simp only [List.nil_append, List.length_append] at sizes
      exact List.length_eq_zero_iff.mp (by omega)
    exact ⟨[] :: pieces, .more first divided, by
      rw [replace_found present, replaced, divided.joined_more, List.nil_append]⟩
  | passed c cs missing ih =>
    obtain ⟨pieces, divided, replaced⟩ := ih
    rw [replace_passed missing, replaced]
    cases divided with
    | last absent =>
      have nowhere : ¬ token <:+: c :: cs := by
        rw [List.infix_cons_iff, not_or]
        exact ⟨missing, absent⟩
      exact ⟨[c :: cs], .last nowhere, by simp⟩
    | @more piece rest pieces first divided =>
      have later : ∀ before behind, c :: piece ++ token = before ++ (token ++ behind) →
          behind = [] := by
        intro before behind split
        cases before with
        | nil =>
          have begins : token <+: c :: piece ++ token := by
            rw [split]
            exact List.prefix_append token behind
          exact absurd (begins.trans ⟨rest, by simp⟩) missing
        | cons d before => exact first before behind (List.cons.inj split).2
      refine ⟨(c :: piece) :: pieces, .more later divided, ?_⟩
      rw [divided.joined_more, divided.joined_more, List.cons_append]

end Step

section Left

variable {token value other : List Char}

theorem foreign_first {start : List Char} (present : start ≠ []) {c : Char} (foreign : c ∉ start)
    (rest : List Char) : ¬ start <+: c :: rest := by
  obtain ⟨d, start, rfl⟩ := List.exists_cons_of_ne_nil present
  intro begins
  obtain ⟨rfl, -⟩ := List.cons_prefix_cons.mp begins
  exact foreign List.mem_cons_self

theorem prefix_of_replaced (present : token ≠ []) (valued : value ≠ []) {start : List Char}
    (apart : value.Disjoint start) {text : List Char}
    (begins : start <+: replaceFrom token value 0 text) : start <+: text := by
  induction text using scanned present generalizing start with
  | nil => exact begins
  | found rest ih =>
    rw [replace_found present] at begins
    cases start with
    | nil => exact List.nil_prefix
    | cons d start =>
      obtain ⟨v, vs, rfl⟩ := List.exists_cons_of_ne_nil valued
      exact absurd begins (foreign_first (List.cons_ne_nil d start) (apart List.mem_cons_self) _)
  | passed c cs missing ih =>
    rw [replace_passed missing] at begins
    cases start with
    | nil => exact List.nil_prefix
    | cons d start =>
      obtain ⟨rfl, behind⟩ := List.cons_prefix_cons.mp begins
      exact List.cons_prefix_cons.mpr ⟨rfl, ih (List.disjoint_of_disjoint_cons_right apart) behind⟩

theorem infix_behind_value {start : List Char} (present : start ≠ [])
    (apart : value.Disjoint start) {rest : List Char} (within : start <:+: value ++ rest) :
    start <:+: rest := by
  induction value with
  | nil => exact within
  | cons v value ih =>
    rcases List.infix_cons_iff.mp within with begins | behind
    · exact absurd begins (foreign_first present (apart List.mem_cons_self) _)
    · exact ih (List.disjoint_of_disjoint_cons_left apart) behind

theorem token_gone (present : token ≠ []) (valued : value ≠ []) (apart : value.Disjoint token)
    (text : List Char) : ¬ token <:+: replaceFrom token value 0 text := by
  induction text using scanned present with
  | nil => simpa [replaceFrom] using present
  | found rest ih =>
    rw [replace_found present]
    exact fun within => ih (infix_behind_value present apart within)
  | passed c cs missing ih =>
    have begun : ¬ token <+: replaceFrom token value 0 (c :: cs) := fun begins =>
      missing (prefix_of_replaced present valued apart begins)
    rw [replace_passed missing] at begun ⊢
    rw [List.infix_cons_iff]
    exact fun within => within.elim begun ih

theorem token_stays_away (present : token ≠ []) (valued : value ≠ []) (otherPresent : other ≠ [])
    (apart : value.Disjoint other) {text : List Char} (absent : ¬ other <:+: text) :
    ¬ other <:+: replaceFrom token value 0 text := by
  induction text using scanned present with
  | nil => exact absent
  | found rest ih =>
    rw [replace_found present]
    have missing : ¬ other <:+: rest := fun within =>
      absent (within.trans (List.suffix_append token rest).isInfix)
    exact fun within => ih missing (infix_behind_value otherPresent apart within)
  | passed c cs missing ih =>
    have begun : ¬ other <+: replaceFrom token value 0 (c :: cs) := fun begins =>
      absent (prefix_of_replaced present valued apart begins).isInfix
    rw [replace_passed missing] at begun ⊢
    rw [List.infix_cons_iff] at absent ⊢
    exact fun within => within.elim begun (ih fun behind => absent (.inr behind))

theorem nothing_replaced {text : List Char} (absent : ¬ token <:+: text) :
    replaceFrom token value 0 text = text := by
  induction text with
  | nil => rfl
  | cons c cs ih =>
    rw [List.infix_cons_iff, not_or] at absent
    rw [replace_passed absent.1, ih absent.2]

theorem replace_behind (present : token ≠ []) {start : List Char} (apart : start.Disjoint token)
    (rest : List Char) :
    replaceFrom token value 0 (start ++ rest) = start ++ replaceFrom token value 0 rest := by
  induction start with
  | nil => rfl
  | cons d start ih =>
    have missing : ¬ token <+: d :: (start ++ rest) :=
      foreign_first present (apart List.mem_cons_self) _
    rw [List.cons_append, replace_passed missing, ih (List.disjoint_of_disjoint_cons_left apart),
      List.cons_append]

-- Behind a character that begins neither token, both steps go on; the other cases are those of the
-- token that the text begins with.
theorem steps_commute {fresh : List Char} (present : token ≠ []) (otherPresent : other ≠ [])
    (valued : value ≠ []) (otherValued : fresh ≠ []) (apart : token.Disjoint other)
    (clear : value.Disjoint other) (otherClear : fresh.Disjoint token) (text : List Char) :
    replaceFrom other fresh 0 (replaceFrom token value 0 text) =
      replaceFrom token value 0 (replaceFrom other fresh 0 text) := by
  induction size : text.length using Nat.strong_induction_on generalizing text with
  | _ size ih =>
    subst size
    by_cases begins : token <+: text
    · obtain ⟨rest, rfl⟩ := begins
      rw [replace_found present, replace_behind otherPresent clear,
        replace_behind otherPresent apart, replace_found present,
        ih _ (length_behind present rest) rest rfl]
    · by_cases follows : other <+: text
      · obtain ⟨rest, rfl⟩ := follows
        rw [replace_found otherPresent, replace_behind present otherClear,
          replace_behind present (fun c one both => apart both one), replace_found otherPresent,
          ih _ (length_behind otherPresent rest) rest rfl]
      · cases text with
        | nil => rfl
        | cons c cs =>
          have kept : ¬ other <+: c :: replaceFrom token value 0 cs := by
            rw [← replace_passed begins]
            exact fun found => follows (prefix_of_replaced present valued clear found)
          have otherKept : ¬ token <+: c :: replaceFrom other fresh 0 cs := by
            rw [← replace_passed follows]
            exact fun found => begins (prefix_of_replaced otherPresent otherValued otherClear found)
          rw [replace_passed begins, replace_passed kept, replace_passed follows,
            replace_passed otherKept, ih _ (Nat.lt_succ_self _) cs rfl]

end Left

def applyAll (definitions : List Definition) (text : List Char) : List Char :=
  definitions.foldl (fun cs definition => definition.apply cs) text

theorem apply_replaces {definition : Definition} (present : definition.token ≠ "")
    (text : List Char) :
    definition.apply text =
      replaceFrom definition.token.toList definition.value.toList 0 text := by
  rw [Definition.apply, if_neg (by rwa [String.isEmpty_iff])]

theorem apply_empty {definition : Definition} (empty : definition.token = "") (text : List Char) :
    definition.apply text = text := by
  rw [Definition.apply, if_pos (String.isEmpty_iff.mpr empty)]

theorem characters_present {text : String} (present : text ≠ "") : text.toList ≠ [] :=
  fun none => present (String.toList_eq_nil_iff.mp none)

theorem substitute_append (text : String) (first second : List Definition) :
    substitute text (first ++ second) = substitute (substitute text first) second := by
  simp [substitute, List.foldl_append]

theorem substituted_characters (text : String) (definitions : List Definition) :
    (substitute text definitions).toList = applyAll definitions text.toList :=
  String.toList_ofList

theorem empty_tokens_unused (definitions : List Definition) (text : List Char) :
    applyAll (definitions.filter fun definition => definition.token ≠ "") text =
      applyAll definitions text := by
  induction definitions generalizing text with
  | nil => rfl
  | cons definition definitions ih =>
    by_cases empty : definition.token = ""
    · rw [List.filter_cons_of_neg (by simp [empty]), ih, applyAll, applyAll, List.foldl_cons,
        apply_empty empty]
    · rw [List.filter_cons_of_pos (by simp [empty])]
      exact ih (definition.apply text)

theorem absent_unsubstituted {definitions : List Definition} {text : List Char}
    (absent : ∀ definition ∈ definitions, ¬ definition.token.toList <:+: text) :
    applyAll definitions text = text := by
  induction definitions with
  | nil => rfl
  | cons definition definitions ih =>
    obtain ⟨first, later⟩ := List.forall_mem_cons.mp absent
    have present : definition.token ≠ "" := by
      intro empty
      rw [empty] at first
      exact first List.nil_infix
    rw [applyAll, List.foldl_cons, apply_replaces present, nothing_replaced first]
    exact ih later

section Independent

variable {definitions : List Definition}

theorem Independent.commute (independent : Independent definitions) :
    ∀ one ∈ definitions, ∀ other ∈ definitions, ∀ text,
      other.apply (one.apply text) = one.apply (other.apply text) := by
  intro one member other among text
  by_cases same : one = other
  · rw [same]
  · have symmetric : Std.Symm fun one other : Definition =>
        one.token.toList.Disjoint other.token.toList :=
      ⟨fun _ _ apart c first second => apart second first⟩
    have apart := independent.apart.forall member among same
    have present := independent.tokens one member
    have otherPresent := independent.tokens other among
    simp only [apply_replaces present, apply_replaces otherPresent]
    exact steps_commute (characters_present present) (characters_present otherPresent)
      (characters_present (independent.values one member))
      (characters_present (independent.values other among)) apart
      (independent.shielded one member other among) (independent.shielded other among one member) _

theorem Independent.reordered (independent : Independent definitions) {others : List Definition}
    (permuted : definitions.Perm others) (text : String) :
    substitute text others = substitute text definitions := by
  rw [substitute, substitute, permuted.foldl_eq' independent.commute]

theorem absent_after {token : List Char} (present : token ≠ []) {later : List Definition}
    (filled : ∀ definition ∈ later, definition.token ≠ "" ∧ definition.value ≠ "" ∧
      definition.value.toList.Disjoint token) {text : List Char} (absent : ¬ token <:+: text) :
    ¬ token <:+: applyAll later text := by
  induction later generalizing text with
  | nil => exact absent
  | cons definition later ih =>
    obtain ⟨⟨tokened, valued, apart⟩, rest⟩ := List.forall_mem_cons.mp filled
    rw [applyAll, List.foldl_cons, apply_replaces tokened]
    exact ih rest (token_stays_away (characters_present tokened) (characters_present valued) present
      apart absent)

theorem Independent.absent (independent : Independent definitions) {definition : Definition}
    (member : definition ∈ definitions) (text : List Char) :
    ¬ definition.token.toList <:+: applyAll definitions text := by
  have tokened := independent.tokens definition member
  have valued := independent.values definition member
  have own := independent.shielded definition member definition member
  have others : ∀ other ∈ definitions, other.token ≠ "" ∧ other.value ≠ "" ∧
      other.value.toList.Disjoint definition.token.toList := fun other among =>
    ⟨independent.tokens other among, independent.values other among,
      independent.shielded other among definition member⟩
  obtain ⟨before, later, split⟩ := List.append_of_mem member
  have whole : applyAll definitions text =
      applyAll later (definition.apply (applyAll before text)) := by
    rw [split, applyAll, List.foldl_append]
    rfl
  rw [whole, apply_replaces tokened]
  apply absent_after (characters_present tokened)
  · intro other among
    exact others other (by simp [split, among])
  · exact token_gone (characters_present tokened) (characters_present valued) own _

theorem Independent.settled (independent : Independent definitions) (text : String) :
    substitute (substitute text definitions) definitions = substitute text definitions := by
  rw [substitute, ← applyAll, substituted_characters,
    absent_unsubstituted fun definition member => independent.absent member text.toList]
  rfl

end Independent

-- Definitions that have nothing to do with each other are substituted in any order, with or without
-- empty tokens among them. They leave no token behind, so that they change nothing a second time.
-- Any definitions are substituted one after another, and each cuts the text that it finds at the
-- occurrences of its token from left to right and puts its value there.
theorem substituted_in_turn_and_for_good :
    (∀ (text : String) (definitions : List Definition), Independent definitions →
      (∀ others, definitions.Perm others → substitute text others = substitute text definitions) ∧
      (∀ definition ∈ definitions,
        ¬ definition.token.toList <:+: (substitute text definitions).toList) ∧
      substitute (substitute text definitions) definitions = substitute text definitions ∧
      ∀ padded, (padded.filter fun definition => definition.token ≠ "") = definitions →
        substitute text padded = substitute text definitions) ∧
    (∀ text first second,
      substitute text (first ++ second) = substitute (substitute text first) second) ∧
    ∀ (text : String) (definition : Definition), definition.token ≠ "" →
      ∃ pieces, (∀ others, Divided definition.token.toList text.toList others ↔ others = pieces) ∧
        substitute text [definition] =
          String.ofList (definition.value.toList.intercalate pieces) := by
  refine ⟨?_, substitute_append, ?_⟩
  · intro text definitions independent
    refine ⟨fun others permuted => independent.reordered permuted text, ?_,
      independent.settled text, ?_⟩
    · intro definition member
      rw [substituted_characters]
      exact independent.absent member text.toList
    · rintro padded rfl
      rw [substitute, substitute, ← applyAll, ← applyAll, empty_tokens_unused]
  · intro text definition present
    obtain ⟨pieces, divided, replaced⟩ :=
      @replace_divided _ definition.value.toList (characters_present present) text.toList
    refine ⟨pieces, fun others => ⟨divided.unique, fun same => same ▸ divided⟩, ?_⟩
    rw [substitute, List.foldl_cons, List.foldl_nil, apply_replaces present, replaced]

theorem overlapping_tokens_substituted :
    Independent [⟨"aba", "x"⟩, ⟨"cc", "dx"⟩] ∧
    substitute "ababaccc" [⟨"aba", "x"⟩, ⟨"cc", "dx"⟩] = "xbadxc" ∧
    substitute "ababaccc" [⟨"cc", "dx"⟩, ⟨"aba", "x"⟩] = "xbadxc" ∧
    ¬ "aba".toList <:+: "xbadxc".toList ∧
    substitute "xbadxc" [⟨"aba", "x"⟩, ⟨"cc", "dx"⟩] = "xbadxc" ∧
    substitute "ababaccc" [⟨"", "?"⟩, ⟨"aba", "x"⟩, ⟨"", "a"⟩, ⟨"cc", "dx"⟩] = "xbadxc" ∧
    ∃ pieces, (∀ others, Divided "aba".toList "ababaccc".toList others ↔ others = pieces) ∧
      "xbaccc" = String.ofList ("x".toList.intercalate pieces) := by
  have independent : Independent [⟨"aba", "x"⟩, ⟨"cc", "dx"⟩] := by
    constructor
    · simp
    · simp
    · simp [List.Disjoint]
    · simp [List.Disjoint]
  have result : substitute "ababaccc" [⟨"aba", "x"⟩, ⟨"cc", "dx"⟩] = "xbadxc" := by
    decide +kernel
  have step : substitute "ababaccc" [⟨"aba", "x"⟩] = "xbaccc" := by
    decide +kernel
  obtain ⟨final, -, divided⟩ := substituted_in_turn_and_for_good
  obtain ⟨reordered, absent, again, padded⟩ := final "ababaccc" _ independent
  obtain ⟨pieces, only, replaced⟩ := divided "ababaccc" ⟨"aba", "x"⟩ (by decide)
  have gone := absent ⟨"aba", "x"⟩ List.mem_cons_self
  rw [result] at gone again
  rw [step] at replaced
  refine ⟨independent, result, ?_, gone, again, ?_, pieces, only, replaced⟩
  · rw [reordered _ (.swap _ _ _), result]
  · rw [padded _ (by decide), result]

end SourceDiagram
