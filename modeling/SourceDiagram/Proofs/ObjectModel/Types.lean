import SourceDiagram.Proofs.ObjectModel.Operators

set_option autoImplicit false

namespace SourceDiagram.ObjectModel

open SourceDiagram.Syntax
open SourceDiagram.Syntax.TypeTerm

-- The lexemes that end a type; a colon does where no bound may follow.
def typeStops (bounded : Bool) : List Lexeme :=
  [.mark .assign, .lineEnd] ++ itemStops ++ if bounded then [] else [.mark .colon]

theorem mem_type_stops {bounded : Bool} {lexeme : Lexeme} (member : lexeme ∈ typeStops bounded) :
    lexeme = .mark .assign ∨ lexeme = .lineEnd ∨ lexeme = .mark .comma ∨
      lexeme = .mark .rightParen ∨ lexeme = .mark .rightBracket ∨
      (bounded = false ∧ lexeme = .mark .colon) := by
  cases bounded <;> simpa [typeStops, itemStops] using member

theorem type_stops (bounded : Bool) : typeStops bounded ⊆ stops := by
  cases bounded <;> decide

def ReadsType (descent : Descent) (text : List Char) : Prop :=
  ∀ (context : Context) (bounded : Bool) (gap rest : List Char) (indents : List Nat),
    Leads gap none → Ends (typeStops bounded) ⟨rest, indents⟩ context →
    Runs (descent.read (.typeTerm context bounded)) ⟨gap ++ (text ++ rest), indents⟩
      ⟨rest, indents⟩ (Told text)

-- A text that begins an expression: its first word, if it begins with one, may be generic only where
-- a bracket follows.
inductive PlainHead (text : List Char) (indents : List Nat) (context : Context) : Prop where
  | other {lexeme : Lexeme} {after : List Char} : Starts lexeme → Shows text lexeme after →
      (∀ word keyword, lexeme = .word word keyword → mayBeGeneric keyword = false) →
      PlainHead text indents context
  | word {word : String} {keyword : Option Keyword} {after : List Char} {next : Lexeme} :
      Opens (.word word keyword) → Shows text (.word word keyword) after →
      Follows ⟨after, indents⟩ context next → next ≠ .mark .leftBracket →
      PlainHead text indents context

-- A name with arguments, which is read by itself, and the names of members after it.
inductive GenericHead (descent : Descent) (text : List Char) : Prop where
  | mk {front : List Char} {names : List (List Char)} :
      text = front ++ names.flatMap (fun name => '.' :: name) → (∀ name ∈ names, IsName name) →
      (∀ (context : Context) (gap rest : List Char) (indents : List Nat), Leads gap none →
        Runs (head descent context) ⟨gap ++ (front ++ rest), indents⟩ ⟨rest, indents⟩
          (Told front)) →
      GenericHead descent text

section

variable {descent : Descent} {context : Context} {indents : List Nat} {gap rest : List Char}

theorem head_plain {text : List Char} (plain : PlainHead (text ++ rest) indents context)
    (reads : Reads descent Told text) (leads : Leads gap none)
    (ends : Ends stops ⟨rest, indents⟩ context) :
    Runs (head descent context) ⟨gap ++ (text ++ rest), indents⟩ ⟨rest, indents⟩ (Told text) := by
  have read := (reads context gap rest indents leads ends).bind fun tree told =>
    Runs.pure (told_type told)
  refine Runs.cursor.bind fun before lies => ?_
  cases plain with
  | @other lexeme after starts shows_ bare =>
    rw [lies.ahead (leads shows_)]
    -- Of the words, only those of literals are left, and they are not generic.
    cases lexeme with
    | word word keyword => simp only [bare word keyword rfl, Bool.false_and]; exact read
    | _ => rcases starts with (_ | _ | _) | _ <;> exact read
  | @word word keyword after next opens shows_ follows other =>
    have meets := leads shows_
    rw [lies.ahead meets]
    -- The word may be generic, but the bracket is missing.
    have generic : ¬ (mayBeGeneric keyword &&
        before.advance.follow context = .mark .leftBracket) = true := by
      rw [follows _ (lies.advance meets)]
      simp [other]
    simp only [if_neg generic]
    exact read

theorem next_type_read {item : List Char} (starting : Starting item)
    (reads : ReadsType descent item) (found : List SyntaxTree)
    (ends : EndsItem rest indents) :
    Runs (nextType descent found) ⟨',' :: ' ' :: (item ++ rest), indents⟩ ⟨rest, indents⟩
      (Sum.elim (fun next => ∃ tree, next = found ++ [tree] ∧ Told item tree) fun _ => False) := by
  obtain ⟨lexeme, follows, other⟩ := starting_not_closing starting ends.parted leads_space
    .rightBracket (by decide)
  refine .refused (.ahead (Shows.comma _).now) (by decide) ?_
  refine (Runs.expect (Shows.comma _).now).bind fun _ _ => ?_
  refine .refused follows other ?_
  have read := reads .bracketed true [' '] rest indents leads_space
    ((ends .bracketed).mono (by decide))
  exact read.bind fun tree told => .pure ⟨tree, rfl, told⟩

theorem type_parameter_read {items : List (List Char)} (present : items ≠ [])
    (starting : ∀ item ∈ items, Starting item)
    (reads : ∀ item ∈ items, ReadsType descent item) (bound : items.length ≤ descent.limit) :
    Runs (typeParameter descent) ⟨'[' :: (listed items ++ ']' :: rest), indents⟩ ⟨rest, indents⟩
      fun tree => ∃ trees, tree = .phrase .typeParameter "" trees ∧
        List.Forall₂ Told items trees := by
  obtain ⟨first, items, rfl⟩ := List.exists_cons_of_ne_nil present
  obtain ⟨firstStarting, laterStarting⟩ := List.forall_mem_cons.mp starting
  obtain ⟨firstReads, laterReads⟩ := List.forall_mem_cons.mp reads
  have ends := items_end id (bracket_ends rest indents) items
  obtain ⟨lexeme, after, starts, shows_⟩ := firstStarting ends.parted
  rw [listed_cons, List.append_assoc]
  refine (Runs.skip (Shows.leftBracket _).now).bind fun _ _ => ?_
  have read := firstReads .bracketed true [] _ indents leads_nothing
    ((ends .bracketed).mono (by decide))
  refine (Runs.demand shows_.now starts.valid read).bind fun tree told => ?_
  refine Runs.bind (items_run id (bracket_ends rest indents) (fun found => ?_)
    (fun item member found left itemEnds => ?_) (.cons told .nil) (Nat.lt_of_succ_le bound))
    fun trees held => .pure ⟨trees, rfl, held⟩
  · exact .accepted (Shows.rightBracket rest).now (.pure rfl)
  · exact next_type_read (laterStarting item member) (laterReads item member) found itemEnds

theorem head_of_generic {letters : List Char} (name : IsName letters) (leads : Leads gap none)
    {cursor : Cursor} (lies : Lies cursor ⟨gap ++ (letters ++ '[' :: rest), indents⟩) :
    head descent context cursor = (do
      Reader.skip
      let arguments ← typeParameter descent
      return TypeTerm.ofTree (.phrase .genericType (← Reader.textSince cursor)
        [.leaf .identifier (String.ofList letters), arguments])).run cursor := by
  obtain ⟨keyword, opens, shows_⟩ := name_shows name (apart_cons rest (show Delimits '[' by decide))
  have meets := leads shows_
  have generic : (mayBeGeneric keyword &&
      cursor.advance.follow context = .mark .leftBracket) = true := by
    rw [Follows.ahead (Shows.leftBracket rest).now _ (lies.advance meets)]
    cases opens <;> rfl
  rw [head, Reader.cursor_bind, lies.ahead meets]
  simp only [if_pos generic]
  rfl

theorem head_generic {letters : List Char} (name : IsName letters) {items : List (List Char)}
    (present : items ≠ []) (starting : ∀ item ∈ items, Starting item)
    (reads : ∀ item ∈ items, ReadsType descent item) (bound : items.length ≤ descent.limit)
    (leads : Leads gap none) :
    Runs (head descent context)
      ⟨gap ++ (letters ++ '[' :: (listed items ++ [']']) ++ rest), indents⟩ ⟨rest, indents⟩
      (Told (letters ++ '[' :: (listed items ++ [']']))) := by
  have split : letters ++ '[' :: (listed items ++ [']']) ++ rest =
      letters ++ '[' :: (listed items ++ ']' :: rest) := by simp
  obtain ⟨keyword, opens, shows_⟩ := name_shows name
    (apart_cons (listed items ++ ']' :: rest) (show Delimits '[' by decide))
  rw [split]
  intro cursor lies
  rw [head_of_generic name leads lies]
  refine Runs.bind (Runs.skip (leads shows_)) (fun _ _ => ?_) cursor lies
  refine (type_parameter_read present starting reads bound).bind fun arguments held => ?_
  obtain ⟨trees, rfl, told⟩ := held
  refine (Runs.textSince cursor).bind fun spanned _ => ?_
  exact .pure (told_type (told_generic letters told spanned))

theorem reference_plain {expr : Expr} {next : Lexeme} {rest : List Char} :
    Spelled .reference expr → expr.reading = .expression → Apart rest →
    Follows ⟨rest, indents⟩ context next → (expr.isName = true → next ≠ .mark .leftBracket) →
    PlainHead (expr.letters ++ rest) indents context
  | .name valid, _, apart, follows, other => by
    obtain ⟨keyword, opens, shows_⟩ := name_shows valid apart
    rw [letters_name]
    exact .word opens shows_ follows (other rfl)
  | @Spelled.member value label spelled valid, read, _, _, _ => by
    rw [Expr.reading] at read
    rw [letters_member, List.append_assoc]
    exact reference_plain spelled read (apart_cons _ (by decide))
      (.ahead (Shows.dot valid.word rest).now) (by simp)
  | @Spelled.subscript value arguments spelled _ _, read, _, _, _ => by
    rw [Expr.reading] at read
    have unnamed : value.isName = false := by
      by_cases named : value.isName = true
      · rw [if_pos named] at read
        split at read <;> simp at read
      · simpa using named
    have inner : value.reading = .expression := by
      rw [unnamed, if_neg (by simp)] at read
      generalize value.reading = reading at read
      cases reading with
      | expression => rfl
      | _ => simp [Reading.indexed] at read
    rw [letters_subscript, List.append_assoc]
    exact reference_plain spelled inner (apart_cons _ (by decide))
      (.ahead (Shows.leftBracket _).now) (by simp [unnamed])

theorem literal_plain {text : List Char} (literal : IsLiteral text) {rest : List Char}
    (parted : Parted rest) : PlainHead (text ++ rest) indents context := by
  cases literal with
  | integer integer => exact .other (.integer _) (shows_integer integer parted) (by simp)
  | @quoted delimiter content known plain =>
    have shows_ := shows_quote known plain parted.apart
    exact .other (.quote _) (by simpa using shows_) (by simp)
  | constant known =>
    obtain ⟨lexeme, starts, shows_, found⟩ := constant_shows known parted.apart
    refine .other starts shows_ fun word keyword same => ?_
    rcases found with rfl | rfl | rfl | ⟨rfl, -⟩ <;> cases same <;> rfl

theorem operand_plain {expr : Expr} (spelled : Spelled .operand expr)
    (read : expr.reading = .expression) {rest : List Char}
    (ends : Ends (.mark .bar :: stops) ⟨rest, indents⟩ context) :
    PlainHead (expr.letters ++ rest) indents context := by
  cases spelled with
  | reference spelled =>
    obtain ⟨lexeme, member, follows⟩ := ends.stop
    refine reference_plain spelled read ends.apart follows fun _ same => ?_
    exact absurd (same ▸ member) (by decide)
  | list =>
    rw [letters_list]
    exact .other (.opens .bracket) (Shows.leftBracket _) (by simp)
  | literal literal =>
    rw [letters_literal]
    exact literal_plain literal (ends.parted (List.Subset.refl _))

theorem extension_end {place : Place} {bounded : Bool}
    (ends : Ends (typeStops bounded) place context) (left : SyntaxTree) :
    Runs (extension descent context bounded left) place place
      (Sum.elim (fun _ => False) (· = left)) := by
  obtain ⟨lexeme, member, follows⟩ := ends.stop
  refine (Runs.follow follows).next ?_
  rcases mem_type_stops member with rfl | rfl | rfl | rfl | rfl | ⟨rfl, rfl⟩ <;> exact .pure rfl

theorem extension_member {bounded : Bool} {text letters : List Char} {left : SyntaxTree}
    (told : Told text left) (name : IsName letters) (apart : Apart rest) :
    Runs (extension descent context bounded left) ⟨'.' :: (letters ++ rest), indents⟩
      ⟨rest, indents⟩ (Sum.elim (Told (text ++ '.' :: letters)) fun _ => False) := by
  obtain ⟨keyword, opens, shows_⟩ := name_shows name apart
  have dot := (Shows.dot name.word rest).now
  refine (Runs.follow (.ahead dot)).next ?_
  refine (Runs.skip dot).bind fun _ _ => ?_
  refine (Runs.name shows_.now).next ?_
  exact .pure (told_type (told_member_type told letters))

theorem extension_bar {bounded : Bool} {text right : List Char} {left : SyntaxTree}
    (told : Told text left) {stop : Place} {lexeme : Lexeme} {after : List Char}
    (starts : Starts lexeme) (shows_ : Shows rest lexeme after)
    (read : Runs (head descent context) ⟨' ' :: rest, indents⟩ stop (Told right)) :
    Runs (extension descent context bounded left) ⟨' ' :: '|' :: ' ' :: rest, indents⟩ stop
      (Sum.elim (Told (text ++ ' ' :: '|' :: ' ' :: right)) fun _ => False) := by
  have bar : Meets (' ' :: '|' :: ' ' :: rest) none (.mark .bar) (' ' :: rest) :=
    (Shows.bar (by simp)).spaced
  refine (Runs.follow (.ahead bar)).next ?_
  refine (Runs.skip bar).bind fun _ _ => ?_
  refine (Runs.lead (.ahead shows_.spaced) starts.valid).next ?_
  refine (Runs.require (by simpa using starts.valid)).bind fun _ _ => ?_
  exact read.bind fun tree later => .pure (told_type (told_union told later))

theorem members_reach {bounded : Bool} {names : List (List Char)}
    (valid : ∀ name ∈ names, IsName name) {text : List Char} {left : SyntaxTree}
    (told : Told text left) (apart : Apart rest) {limit : Nat} (bound : names.length ≤ limit) :
    Reaches (extension descent context bounded)
      ⟨names.flatMap (fun name => '.' :: name) ++ rest, indents⟩ limit left ⟨rest, indents⟩
      (limit - names.length) (Told (text ++ names.flatMap fun name => '.' :: name)) := by
  induction names generalizing text left limit with
  | nil => exact .stay (by simpa using told)
  | cons name names ih =>
    obtain ⟨firstValid, laterValid⟩ := List.forall_mem_cons.mp valid
    rw [List.length_cons] at bound ⊢
    obtain ⟨limit, rfl⟩ : ∃ fewer, limit = fewer + 1 := ⟨limit - 1, by omega⟩
    rw [List.flatMap_cons, List.cons_append, List.cons_append, List.append_assoc,
      Nat.add_sub_add_right]
    refine .round (extension_member told firstValid (members_apart names apart)) fun next held => ?_
    simpa using ih laterValid held (by omega)

-- A generic head is read without its members, which the rounds after it pass.
theorem GenericHead.read {bounded : Bool} {text : List Char} (generic : GenericHead descent text)
    (leads : Leads gap none) (apart : Apart rest) {limit : Nat} (bound : text.length ≤ limit) :
    ∃ place fewer, limit ≤ fewer + text.length ∧
      Runs (head descent context) ⟨gap ++ (text ++ rest), indents⟩ place fun tree =>
        Reaches (extension descent context bounded) place limit tree ⟨rest, indents⟩ fewer
          (Told text) := by
  obtain ⟨rfl, valid, front⟩ := generic
  rename_i front' names
  have count := count_le_flat (f := fun name : List Char => '.' :: name) (by simp) names
  rw [List.length_append] at bound ⊢
  rw [List.append_assoc]
  exact ⟨_, limit - names.length, by omega, (front context gap _ indents leads).mono
    fun tree told => members_reach valid told apart (by omega)⟩

theorem generic_reach {bounded : Bool} {text right : List Char} {left : SyntaxTree}
    (told : Told text left) (generic : GenericHead descent right) {lexeme : Lexeme}
    {after : List Char} (starts : Starts lexeme) (shows_ : Shows (right ++ rest) lexeme after)
    (apart : Apart rest) {limit : Nat} (bound : right.length < limit) :
    ∃ fewer, limit ≤ fewer + right.length + 1 ∧
      Reaches (extension descent context bounded) ⟨' ' :: '|' :: ' ' :: (right ++ rest), indents⟩
        limit left ⟨rest, indents⟩ fewer (Told (text ++ ' ' :: '|' :: ' ' :: right)) := by
  obtain ⟨rfl, valid, front⟩ := generic
  rename_i front' names
  have count := count_le_flat (f := fun name : List Char => '.' :: name) (by simp) names
  rw [List.length_append] at bound ⊢
  obtain ⟨limit, rfl⟩ : ∃ fewer, limit = fewer + 1 := ⟨limit - 1, by omega⟩
  refine ⟨limit - names.length, by omega, ?_⟩
  rw [List.append_assoc] at shows_ ⊢
  refine .round (extension_bar told starts shows_ (front context [' '] _ indents leads_space))
    fun next held => ?_
  simpa using members_reach valid held apart (by omega)

theorem alternatives_suffix (front back : List (List Char)) :
    (alternatives back).length ≤ (alternatives (front ++ back)).length := by
  cases front with
  | nil => exact Nat.le_refl _
  | cons text front =>
    cases back with
    | nil => exact Nat.zero_le _
    | cons first back =>
      rw [List.cons_append, alternatives_cons, alternatives_cons, List.flatMap_append,
        List.flatMap_cons]
      simp only [List.length_append, List.length_cons]
      omega

-- Each alternative that is generic stands by itself; any other takes all alternatives after it.
theorem extensions_run {bounded : Bool} {operands : List Expr}
    (spelled : ∀ operand ∈ operands, Spelled .operand operand)
    (read : Reading.generic.orEach operands ≠ .refused)
    (generic : ∀ operand ∈ operands, operand.reading = .generic →
      GenericHead descent operand.letters)
    (reads : ∀ front back, operands = front ++ back → back ≠ [] →
      Reads descent Told (alternatives (back.map Expr.letters)))
    {text : List Char} {left : SyntaxTree} (told : Told text left)
    (ends : Ends (typeStops bounded) ⟨rest, indents⟩ context) {limit : Nat}
    (bound : ((operands.map Expr.letters).flatMap fun operand =>
      ' ' :: '|' :: ' ' :: operand).length < limit) :
    Runs (Reader.iterate (extension descent context bounded) limit left)
      ⟨(operands.map Expr.letters).flatMap (fun operand => ' ' :: '|' :: ' ' :: operand) ++ rest,
        indents⟩ ⟨rest, indents⟩
      (Told (text ++ (operands.map Expr.letters).flatMap fun operand =>
        ' ' :: '|' :: ' ' :: operand)) := by
  have all := ends.mono (type_stops bounded)
  induction operands generalizing text left limit with
  | nil => exact .finish (by omega) (extension_end ends left) (by simpa using told)
  | cons operand operands ih =>
    obtain ⟨firstSpelled, laterSpelled⟩ := List.forall_mem_cons.mp spelled
    obtain ⟨firstGeneric, laterGeneric⟩ := List.forall_mem_cons.mp generic
    have bars := bars_ends (operands.map Expr.letters) all
    obtain ⟨lexeme, after, starts, shows_⟩ :=
      operand_starting firstSpelled (bars.parted (List.Subset.refl _))
    rw [generic_reading] at read
    rw [List.map_cons, List.flatMap_cons, List.length_append] at bound
    simp only [List.length_cons] at bound
    rw [List.map_cons, List.flatMap_cons, List.append_assoc]
    cases kind : operand.reading with
    | refused =>
      rw [kind, settled_reading (by simp)] at read
      exact absurd rfl read
    | generic =>
      have later (front back : List Expr) (split : operands = front ++ back) :=
        reads (operand :: front) back (by rw [split]; rfl)
      obtain ⟨fewer, enough, reaches⟩ := generic_reach told (firstGeneric kind) starts shows_
        bars.apart (show operand.letters.length < limit by omega)
      refine reaches.runs fun tree whole => ?_
      exact (ih laterSpelled (kind ▸ read) laterGeneric later whole (by omega)).mono
        fun tree told => by simpa using told
    | expression =>
      have plain := operand_plain firstSpelled kind bars
      rw [← List.append_assoc, ← alternatives_cons, ← List.map_cons] at plain
      have run := head_plain plain (reads [] _ rfl (by simp)) leads_space all
      rw [List.map_cons, alternatives_cons, List.append_assoc] at run
      exact .again (by omega) (extension_bar told starts shows_ run) fun next held =>
        .finish (by omega) (extension_end ends next) held

end

def TypeUnderstood (limit : Nat) : Part → Expr → Prop
  | .whole, expr => expr.reading ≠ .refused → ∀ depth, expr.letters.length < depth →
      expr.letters.length < limit → ReadsType (nested limit depth) expr.letters
  | _, expr => expr.reading = .generic → ∀ depth, expr.letters.length ≤ depth →
      expr.letters.length < limit → GenericHead (nested limit depth) expr.letters

theorem subscript_generic {value : Expr} {arguments : List Expr}
    (read : (Expr.subscript value arguments).reading = .generic) :
    value.isName = true ∧ readable arguments = true := by
  rw [Expr.reading] at read
  by_cases named : value.isName = true
  · rw [if_pos named] at read
    split at read
    · rename_i inside
      exact ⟨named, inside⟩
    · simp at read
  · rw [if_neg named] at read
    generalize value.reading = reading at read
    cases reading <;> simp [Reading.indexed] at read

section Unions

variable {first : Expr} {operands : List Expr} {limit depth : Nat}
  (firstSpelled : Spelled .operand first)
  (laterSpelled : ∀ operand ∈ operands, Spelled .operand operand)

include firstSpelled laterSpelled

-- Whatever operands are left when a plain one comes, they are read as one expression.
theorem suffix_read (deep : (alternatives ((first :: operands).map Expr.letters)).length ≤ depth)
    (bound : (alternatives ((first :: operands).map Expr.letters)).length < limit)
    {front back : List Expr} (split : first :: operands = front ++ back) (present : back ≠ []) :
    Reads (nested limit depth) Told (alternatives (back.map Expr.letters)) := by
  obtain ⟨operand, back, rfl⟩ := List.exists_cons_of_ne_nil present
  have inside : ∀ expr ∈ operand :: back, Spelled .operand expr := by
    intro expr member
    have all := List.forall_mem_cons.mpr ⟨firstSpelled, laterSpelled⟩
    exact all expr (split ▸ List.mem_append_right front member)
  obtain ⟨one, others⟩ := List.forall_mem_cons.mp inside
  have shorter := alternatives_suffix (front.map Expr.letters) ((operand :: back).map Expr.letters)
  rw [← List.map_append, ← split] at shorter
  have read := spelled_understood (.union one others) limit depth
  rw [letters_union] at read
  exact read (by omega) (by omega)

theorem union_typed (firstUnderstood : TypeUnderstood limit .operand first)
    (laterUnderstood : ∀ operand ∈ operands, TypeUnderstood limit .operand operand) :
    TypeUnderstood limit .whole (operands.foldl .union first) := by
  intro read depth deep bound context bounded gap rest indents leads ends
  have all := ends.mono (type_stops bounded)
  have firstLength := (operand_starting firstSpelled).present
  rw [union_reading] at read
  rw [letters_union] at deep bound ⊢
  obtain ⟨depth, rfl⟩ : ∃ shallower, depth = shallower + 1 := ⟨depth - 1, by omega⟩
  have reads (front back : List Expr) (split : first :: operands = front ++ back) :=
    suffix_read firstSpelled laterSpelled (Nat.le_of_lt_succ deep) bound split
  have bars := bars_ends (operands.map Expr.letters) all
  show Runs (type (nested limit depth) context bounded) _ _ _
  cases kind : first.reading with
  | refused =>
    rw [kind, settled_reading (by simp)] at read
    exact absurd rfl read
  | generic =>
    rw [List.map_cons, alternatives_cons, List.length_append] at deep bound
    rw [List.map_cons, alternatives_cons, List.append_assoc]
    have laterGeneric : ∀ operand ∈ operands, operand.reading = .generic →
        GenericHead (nested limit depth) operand.letters := by
      intro operand member kind
      have shorter := operand_length member
      exact laterUnderstood operand member kind depth (by omega) (by omega)
    have generic := firstUnderstood kind depth (by omega) (by omega)
    obtain ⟨place, fewer, enough, front⟩ := generic.read leads bars.apart
      (show first.letters.length ≤ limit by omega)
    have later (front back : List Expr) (split : operands = front ++ back) :=
      reads (first :: front) back (by rw [split]; rfl)
    refine front.bind fun tree reaches => reaches.runs fun tree told => ?_
    exact extensions_run laterSpelled (kind ▸ read) laterGeneric later told ends (by omega)
  | expression =>
    have plain := operand_plain firstSpelled kind bars
    rw [← List.append_assoc, ← alternatives_cons, ← List.map_cons] at plain
    exact (head_plain plain (reads [] _ rfl (by simp)) leads all).bind fun tree told =>
      .finish (Nat.zero_lt_of_lt bound) (extension_end ends tree) told

end Unions

theorem spelled_typed {part : Part} {expr : Expr} (spelled : Spelled part expr)
    (limit : Nat) : TypeUnderstood limit part expr := by
  induction spelled with
  | name => exact fun read => by simp [Expr.reading] at read
  | member _ valid ih =>
    intro read depth deep bound
    rw [Expr.reading] at read
    simp only [letters_member, List.length_append, List.length_cons] at deep bound ⊢
    obtain ⟨split, names, front⟩ := ih read depth (by omega) (by omega)
    refine .mk ?_ (List.forall_mem_append.mpr ⟨names, List.forall_mem_singleton.mpr valid⟩) front
    rw [split]
    simp
  | @subscript value arguments spelled given inner _ ih =>
    intro read depth deep bound
    obtain ⟨named, inside⟩ := subscript_generic read
    cases spelled with
    | member => simp [Expr.isName] at named
    | subscript => simp [Expr.isName] at named
    | name valid =>
      have count := listed_length (arguments.map Expr.letters)
      simp only [letters_subscript, letters_name, List.length_append, List.length_cons,
        List.length_nil] at deep bound ⊢
      refine @GenericHead.mk _ _ _ [] (List.append_nil _).symm (by simp)
        fun context gap rest indents leads => ?_
      refine head_generic valid (by simpa using given)
        (List.forall_mem_map.mpr fun item member => whole_starting (inner item member))
        (List.forall_mem_map.mpr fun item member => ?_) (show _ ≤ limit by omega) leads
      have shorter := argument_length member
      exact ih item member ((readable_iff _).mp inside item member) depth (by omega) (by omega)
  | reference _ ih => exact ih
  | list => exact fun read => by simp [Expr.reading] at read
  | literal => exact fun read => by simp [Expr.reading] at read
  | union firstSpelled laterSpelled ih each => exact union_typed firstSpelled laterSpelled ih each

theorem written_typed {text : List Char} (written : Written .whole text) (limit : Nat) :
    ∀ depth, text.length < depth → text.length < limit → ReadsType (nested limit depth) text := by
  obtain ⟨expr, spelled, rfl, read⟩ := written_spelled written
  exact spelled_typed spelled limit read

structure Grasps (descent : Descent) (size : Nat) : Prop where
  limit : size < descent.limit
  inside : ∃ inner : Descent, 1 < inner.limit ∧ descent.read = inner.phrase
  types : ∀ text, Written .whole text → text.length ≤ size → ReadsType descent text
  bases : ∀ text, Written .reference text → text.length ≤ size → Reads descent Refers text

theorem nested_grasps {limit depth size : Nat} (wide : size + 1 < limit) (deep : size + 1 < depth) :
    Grasps (nested limit depth) size := by
  obtain ⟨depth, rfl⟩ : ∃ shallower, depth = shallower + 1 := ⟨depth - 1, by omega⟩
  refine ⟨show size < limit by omega, ⟨nested limit depth, show 1 < limit by omega, rfl⟩, ?_, ?_⟩
  · intro text written short
    exact written_typed written limit (depth + 1) (by omega) (by omega)
  · intro text written short context gap rest indents leads ends
    have bars : Ends (.mark .bar :: stops) ⟨rest, indents⟩ context :=
      ends.mono (List.subset_cons_self _ _)
    have primary := (written_understood written limit depth (by omega) (by omega)).operand
      (show text.length ≤ limit by omega)
    obtain ⟨lexeme, after, starts, shows_⟩ :=
      written_starting written (bars.parted (List.Subset.refl _))
    exact expression_of_primary starts (leads shows_)
      (show 0 < limit by omega) ends (primary context gap rest indents leads bars) 0

namespace Grasps

variable {descent : Descent} {size : Nat} {context : Context} {indents : List Nat}
  {level : Option Nat} {gap rest : List Char}

theorem primary_name (grasps : Grasps descent size) {letters : List Char} (name : IsName letters)
    (leads : Leads gap level) (ends : Ends (.mark .bar :: stops) ⟨rest, indents⟩ context) :
    Runs (descent.read (.primary context)) ⟨gap ++ (letters ++ rest), indents⟩ ⟨rest, indents⟩
      (· = .leaf .identifier (String.ofList letters)) := by
  obtain ⟨inner, enough, read⟩ := grasps.inside
  rw [read]
  exact ObjectModel.primary_name name leads (by omega) ends

theorem demand_type (grasps : Grasps descent size) {text : List Char}
    (written : Written .whole text) (short : text.length ≤ size) {bounded : Bool}
    (ends : Ends (typeStops bounded) ⟨rest, indents⟩ context) :
    Runs (descent.demand (.typeTerm context bounded)) ⟨' ' :: (text ++ rest), indents⟩
      ⟨rest, indents⟩ (Told text) := by
  have parted := ends.parted fun _ member => List.mem_cons_of_mem _ (type_stops bounded member)
  obtain ⟨lexeme, after, starts, shows_⟩ := written_starting written parted
  exact Runs.demand shows_.spaced starts.valid
    (grasps.types text written short context bounded [' '] rest indents leads_space ends)

variable (ends : Ends stops ⟨rest, indents⟩ context)

include ends

theorem expression_name (grasps : Grasps descent size) {letters : List Char} (name : IsName letters)
    (leads : Leads gap level) :
    Runs (descent.read (.expression context 0)) ⟨gap ++ (letters ++ rest), indents⟩
      ⟨rest, indents⟩ (· = .leaf .identifier (String.ofList letters)) := by
  obtain ⟨inner, enough, read⟩ := grasps.inside
  obtain ⟨keyword, opens, shows_⟩ := name_shows name ends.apart
  rw [read]
  exact expression_of_primary (.opens opens) (leads shows_) (by omega) ends
    (ObjectModel.primary_name name leads (by omega) (ends.mono (List.subset_cons_self _ _))) 0

theorem expression_member (grasps : Grasps descent size) {object letters : List Char}
    (owner : IsName object) (name : IsName letters) (leads : Leads gap level) :
    Runs (descent.read (.expression context 0))
      ⟨gap ++ (object ++ '.' :: (letters ++ rest)), indents⟩ ⟨rest, indents⟩
      fun tree => ∃ spanned, tree = .node .attribute spanned
        [(.object, .leaf .identifier (String.ofList object)),
          (.attribute, .leaf .identifier (String.ofList letters))] := by
  obtain ⟨inner, enough, read⟩ := grasps.inside
  obtain ⟨keyword, opens, shows_⟩ := name_shows owner
    (apart_cons (letters ++ rest) (show Delimits '.' by decide))
  rw [read]
  exact expression_of_primary (.opens opens) (leads shows_) (by omega) ends
    (primary_member owner name leads enough (ends.mono (List.subset_cons_self _ _))) 0

theorem expression_none (grasps : Grasps descent size) (leads : Leads gap level) :
    Runs (descent.read (.expression context 0)) ⟨gap ++ (['N', 'o', 'n', 'e'] ++ rest), indents⟩
      ⟨rest, indents⟩ (· = .leaf .noneLiteral "None") := by
  obtain ⟨inner, enough, read⟩ := grasps.inside
  rw [read]
  exact expression_of_primary (.absent "None") (leads (none_shows ends.apart)) (by omega) ends
    (primary_none leads (by omega) (ends.mono (List.subset_cons_self _ _))) 0

end Grasps

end SourceDiagram.ObjectModel
