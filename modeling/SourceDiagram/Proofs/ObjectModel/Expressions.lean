import SourceDiagram.Proofs.ObjectModel.Spelling
import SourceDiagram.Proofs.Syntax.Run

set_option autoImplicit false

namespace SourceDiagram.ObjectModel

open SourceDiagram.Syntax
open SourceDiagram.Syntax.Expression

def itemStops : List Lexeme :=
  [.mark .comma, .mark .rightParen, .mark .rightBracket]

def stops : List Lexeme :=
  [.mark .colon, .mark .assign, .lineEnd] ++ itemStops

theorem mem_item_stops {lexeme : Lexeme} (member : lexeme ∈ itemStops) :
    lexeme = .mark .comma ∨ lexeme = .mark .rightParen ∨ lexeme = .mark .rightBracket := by
  simpa [itemStops] using member

theorem mem_stops {lexeme : Lexeme} (member : lexeme ∈ stops) :
    lexeme = .mark .colon ∨ lexeme = .mark .assign ∨ lexeme = .lineEnd ∨
      lexeme = .mark .comma ∨ lexeme = .mark .rightParen ∨ lexeme = .mark .rightBracket := by
  simpa [stops, itemStops] using member

-- A place where an annotation ends; where only an operand does, a bar may follow.
structure Ends (allowed : List Lexeme) (place : Place) (context : Context) : Prop where
  apart : Apart place.text
  stop : ∃ lexeme ∈ allowed, Follows place context lexeme

theorem Ends.mono {allowed more : List Lexeme} {place : Place} {context : Context}
    (ends : Ends allowed place context) (subset : allowed ⊆ more) : Ends more place context := by
  obtain ⟨lexeme, member, follows⟩ := ends.stop
  exact ⟨ends.apart, lexeme, subset member, follows⟩

theorem Ends.refused {allowed : List Lexeme} {place stop : Place} {context : Context} {α : Type}
    {holds : α → Prop} {mark : Mark} {yes no : Reader α} (ends : Ends allowed place context)
    (absent : .mark mark ∉ allowed) (runs : Runs no place stop holds) :
    Runs (Reader.accept context mark >>= fun found => if found = true then yes else no) place stop
      holds := by
  obtain ⟨lexeme, member, follows⟩ := ends.stop
  refine .refused follows ?_ runs
  rintro rfl
  exact absent member

theorem Ends.parted {allowed : List Lexeme} {place : Place} {context : Context}
    (ends : Ends allowed place context) (known : allowed ⊆ .mark .bar :: stops) :
    Parted place.text := by
  refine ⟨ends.apart, fun point => ?_⟩
  obtain ⟨text, indents⟩ := place
  obtain ⟨more, rfl⟩ := List.head?_eq_some_iff.mp point
  obtain ⟨lexeme, member, follows⟩ := ends.stop
  have shows_ : Shows ('.' :: more) (Lexeme.scan ('.' :: more)).1
      (('.' :: more).drop (Lexeme.scan ('.' :: more)).2) :=
    ⟨by rintro d ⟨⟩; decide, by simp, _, rfl, rfl⟩
  have lies : Lies (Cursor.enter ('.' :: more) 0 indents false) ⟨'.' :: more, indents⟩ := ⟨0, rfl⟩
  have same := (follows _ lies).symm.trans (Follows.ahead shows_.now _ lies)
  have stop := known member
  rw [same] at stop
  rcases point_scanned more with ⟨_, found⟩ | ⟨_, found⟩ | found | found <;>
    simp [found, stops, itemStops] at stop

inductive Opens : Lexeme → Prop where
  | name (text : String) : Opens (.word text none)
  | future (text : String) : Opens (.word text (some .future_))
  | bracket : Opens (.mark .leftBracket)

inductive Starts : Lexeme → Prop where
  | opens {lexeme : Lexeme} : Opens lexeme → Starts lexeme
  | absent (text : String) : Starts (.word text (some .none_))
  | truth (text : String) : Starts (.word text (some .true_))
  | falsity (text : String) : Starts (.word text (some .false_))
  | integer (text : String) : Starts (.integer text)
  | quote (quote : Quote) : Starts (.quote quote)
  | ellipsis : Starts (.mark .ellipsis)

theorem Starts.valid {lexeme : Lexeme} (starts : Starts lexeme) : lexeme ≠ .invalid := by
  rcases starts with (_ | _ | _) | _ <;> simp

def Starting (text : List Char) : Prop :=
  ∀ ⦃rest : List Char⦄, Parted rest → ∃ lexeme after, Starts lexeme ∧ Shows (text ++ rest) lexeme after

theorem Starting.present {text : List Char} (starting : Starting text) : 0 < text.length := by
  obtain ⟨lexeme, after, -, shows_⟩ := starting (show Parted [] from ⟨by simp [Apart], by simp⟩)
  rw [List.append_nil] at shows_
  exact List.length_pos_iff.mpr shows_.present

theorem name_shows {letters rest : List Char} (name : IsName letters) (apart : Apart rest) :
    ∃ keyword, Opens (.word (String.ofList letters) keyword) ∧
      Shows (letters ++ rest) (.word (String.ofList letters) keyword) rest := by
  have shows_ := shows_word name.word apart
  rcases name.free with free | free
  · exact ⟨none, .name _, free ▸ shows_⟩
  · exact ⟨some .future_, .future _, free ▸ shows_⟩

theorem none_shows {rest : List Char} (apart : Apart rest) :
    Shows (['N', 'o', 'n', 'e'] ++ rest) (.word "None" (some .none_)) rest :=
  shows_word (by decide) apart

theorem members_apart (names : List (List Char)) {rest : List Char} (apart : Apart rest) :
    Apart (names.flatMap (fun name => '.' :: name) ++ rest) := by
  cases names with
  | nil => exact apart
  | cons name names => exact apart_cons _ (by decide)

section

variable {descent : Descent} {context : Context} {indents : List Nat} {level : Option Nat}
  {gap rest : List Char}

theorem atom_name (leads : Leads gap level) {letters : List Char} (name : IsName letters)
    (apart : Apart rest) : Runs (atom descent context) ⟨gap ++ (letters ++ rest), indents⟩
      ⟨rest, indents⟩ (· = .leaf .identifier (String.ofList letters)) := by
  obtain ⟨keyword, opens, shows_⟩ := name_shows name apart
  have meets := leads shows_
  refine Runs.cursor.bind fun before lies => ?_
  rw [lies.ahead meets]
  refine (Runs.skip meets).bind fun _ _ => ?_
  cases opens with
  | name => exact .pure rfl
  | future => exact .pure rfl

theorem trailer_member (before : Cursor) (tree : SyntaxTree) {letters : List Char}
    (name : IsName letters) (apart : Apart rest) :
    Runs (trailer descent context before tree) ⟨'.' :: (letters ++ rest), indents⟩ ⟨rest, indents⟩
      (Sum.elim (fun next => ∃ spanned, next = .node .attribute spanned
        [(.object, tree), (.attribute, .leaf .identifier (String.ofList letters))])
        fun _ => False) := by
  obtain ⟨keyword, opens, shows_⟩ := name_shows name apart
  have dot := (Shows.dot name.word rest).now
  refine (Runs.follow (.ahead dot)).next ?_
  refine (Runs.skip dot).bind fun _ _ => ?_
  refine (Runs.name shows_.now).next ?_
  refine (Runs.textSince before).bind fun spanned _ => ?_
  exact .pure ⟨spanned, rfl⟩

theorem trailer_end {place : Place} {before : Cursor} {tree : SyntaxTree}
    (ends : Ends (.mark .bar :: stops) place context) :
    Runs (trailer descent context before tree) place place
      (Sum.elim (fun _ => False) (· = tree)) := by
  obtain ⟨lexeme, member, follows⟩ := ends.stop
  refine (Runs.follow follows).next ?_
  rcases List.mem_cons.mp member with rfl | member
  · exact .pure rfl
  · rcases mem_stops member with rfl | rfl | rfl | rfl | rfl | rfl <;> exact .pure rfl

end

def EndsItem (rest : List Char) (indents : List Nat) : Prop :=
  ∀ context, Ends itemStops ⟨rest, indents⟩ context

theorem comma_ends (rest : List Char) (indents : List Nat) : EndsItem (',' :: rest) indents :=
  fun _ => ⟨apart_cons rest (by decide), _, by decide, .ahead (Shows.comma rest).now⟩

theorem bracket_ends (rest : List Char) (indents : List Nat) : EndsItem (']' :: rest) indents :=
  fun _ => ⟨apart_cons rest (by decide), _, by decide, .ahead (Shows.rightBracket rest).now⟩

theorem paren_ends (rest : List Char) (indents : List Nat) : EndsItem (')' :: rest) indents :=
  fun _ => ⟨apart_cons rest (by decide), _, by decide, .ahead (Shows.rightParen rest).now⟩

theorem EndsItem.parted {rest : List Char} {indents : List Nat} (ends : EndsItem rest indents) :
    Parted rest :=
  (ends .bracketed).parted (by decide)

section

variable {ι : Type} (text : ι → List Char) {tail : List Char} {indents : List Nat}

theorem items_end (last : EndsItem tail indents) (items : List ι) :
    EndsItem (items.flatMap (fun item => ',' :: ' ' :: text item) ++ tail) indents := by
  cases items with
  | nil => exact last
  | cons item items => exact comma_ends _ indents

-- Items in brackets after the first one, for any reader that takes a comma with one more item
-- until it ends the items.
theorem items_run {related : ι → SyntaxTree → Prop} (last : EndsItem tail indents) {stop : Place}
    {step : List SyntaxTree → Reader (List SyntaxTree ⊕ List SyntaxTree)}
    (close : ∀ found, Runs (step found) ⟨tail, indents⟩ stop
      (Sum.elim (fun _ => False) (· = found)))
    {items : List ι}
    (more : ∀ item ∈ items, ∀ found left, EndsItem left indents →
      Runs (step found) ⟨',' :: ' ' :: (text item ++ left), indents⟩ ⟨left, indents⟩
        (Sum.elim (fun next => ∃ tree, next = found ++ [tree] ∧ related item tree) fun _ => False))
    {done : List ι} {found : List SyntaxTree} (told : List.Forall₂ related done found)
    {limit : Nat} (bound : items.length < limit) :
    Runs (Reader.iterate step limit found)
      ⟨items.flatMap (fun item => ',' :: ' ' :: text item) ++ tail, indents⟩ stop
      (List.Forall₂ related (done ++ items)) := by
  -- The trees found so far are told by the items that are done.
  induction items generalizing done found limit with
  | nil => exact .finish (by omega) (close found) (by simpa using told)
  | cons item items ih =>
    rw [List.length_cons] at bound
    obtain ⟨first, later⟩ := List.forall_mem_cons.mp more
    have step := first found _ (items_end text last items)
    rw [List.flatMap_cons, List.append_assoc]
    refine .again (by omega) step fun next held => ?_
    obtain ⟨tree, rfl, relates⟩ := held
    have longer : List.Forall₂ related (done ++ [item]) (found ++ [tree]) :=
      List.rel_append told (.cons relates .nil)
    have run := ih later longer (Nat.lt_sub_of_add_lt bound)
    rwa [List.append_assoc] at run

end

-- A descent that reads a text as an expression, wherever it ends.
def Reads (descent : Descent) (related : List Char → SyntaxTree → Prop) (text : List Char) : Prop :=
  ∀ (context : Context) (gap rest : List Char) (indents : List Nat), Leads gap none →
    Ends stops ⟨rest, indents⟩ context →
    Runs (descent.read (.expression context 0)) ⟨gap ++ (text ++ rest), indents⟩ ⟨rest, indents⟩
      (related text)

section

variable {descent : Descent} {context : Context} {indents : List Nat} {level : Option Nat}
  {gap rest : List Char}

theorem item_stops : itemStops ⊆ stops :=
  List.subset_append_right _ _

theorem index_read {item : List Char} (starting : Starting item)
    (reads : Reads descent Told item) (leads : Leads gap none) (ends : EndsItem rest indents) :
    Runs (index descent) ⟨gap ++ (item ++ rest), indents⟩ ⟨rest, indents⟩ (Told item) := by
  obtain ⟨lexeme, after, starts, shows_⟩ := starting ends.parted
  have read := reads .bracketed gap rest indents leads ((ends .bracketed).mono item_stops)
  refine Runs.cursor.bind fun here lies => ?_
  rw [lies.ahead (leads shows_)]
  rcases starts with (_ | _ | _) | _ <;> exact read.bind fun tree told =>
    (ends .bracketed).refused (by decide) (.pure told)

-- Nothing that is spelled begins with a closing mark, so a comma before it is not the last one.
theorem starting_not_closing {item : List Char} (starting : Starting item) (parted : Parted rest)
    (leads : Leads gap none) (mark : Mark) (other : mark ∉ [.leftBracket, .ellipsis]) : ∃ lexeme,
      Follows ⟨gap ++ (item ++ rest), indents⟩ context lexeme ∧ lexeme ≠ .mark mark := by
  obtain ⟨lexeme, after, starts, shows_⟩ := starting parted
  refine ⟨lexeme, .ahead (leads shows_), ?_⟩
  rintro rfl
  rcases starts with (_ | _ | _) | _
  · exact other (by simp)
  · exact other (by simp)

theorem next_index_read {item : List Char} (starting : Starting item)
    (reads : Reads descent Told item) (found : List SyntaxTree)
    (ends : EndsItem rest indents) :
    Runs (nextIndex descent found) ⟨',' :: ' ' :: (item ++ rest), indents⟩ ⟨rest, indents⟩
      (Sum.elim (fun next => ∃ tree, next = found ++ [tree] ∧ Told item tree) fun _ => False) := by
  obtain ⟨lexeme, follows, other⟩ := starting_not_closing starting ends.parted leads_space
    .rightBracket (by decide)
  refine .refused (.ahead (Shows.comma _).now) (by decide) ?_
  refine (Runs.expect (Shows.comma _).now).bind fun _ _ => ?_
  refine .refused follows other ?_
  exact (index_read starting reads leads_space ends).bind fun tree told =>
    .pure ⟨tree, rfl, told⟩

theorem indices_read {items : List (List Char)} (present : items ≠ [])
    (starting : ∀ item ∈ items, Starting item)
    (reads : ∀ item ∈ items, Reads descent Told item)
    (bound : items.length ≤ descent.limit) :
    Runs (indices descent) ⟨'[' :: (listed items ++ ']' :: rest), indents⟩ ⟨rest, indents⟩
      (List.Forall₂ Told items) := by
  obtain ⟨first, items, rfl⟩ := List.exists_cons_of_ne_nil present
  obtain ⟨firstStarting, laterStarting⟩ := List.forall_mem_cons.mp starting
  obtain ⟨firstReads, laterReads⟩ := List.forall_mem_cons.mp reads
  have ends := items_end id (bracket_ends rest indents) items
  obtain ⟨lexeme, after, starts, shows_⟩ := firstStarting ends.parted
  rw [listed_cons, List.append_assoc]
  refine (Runs.skip (Shows.leftBracket _).now).bind fun _ _ => ?_
  refine (Runs.lead (.ahead shows_.now) starts.valid).next ?_
  refine (Runs.require (by rcases starts with (_ | _ | _) | _ <;> rfl)).bind fun _ _ => ?_
  refine (index_read firstStarting firstReads leads_nothing ends).bind fun tree told => ?_
  refine items_run id (bracket_ends rest indents) (fun found => ?_)
    (fun item member found left itemEnds => ?_) (.cons told .nil) (Nat.lt_of_succ_le bound)
  · exact .accepted (Shows.rightBracket rest).now (.pure rfl)
  · exact next_index_read (laterStarting item member) (laterReads item member) found itemEnds

theorem element_read {related : List Char → SyntaxTree → Prop} {item : List Char}
    (starting : Starting item) (reads : Reads descent related item) (leads : Leads gap none)
    (ends : EndsItem rest indents) :
    Runs (element descent) ⟨gap ++ (item ++ rest), indents⟩ ⟨rest, indents⟩
      fun element => related item element.tree := by
  obtain ⟨lexeme, after, starts, shows_⟩ := starting ends.parted
  have read := fun context => reads context gap rest indents leads ((ends context).mono item_stops)
  refine Runs.cursor.bind fun before lies => ?_
  rw [lies.ahead (leads shows_)]
  rcases starts with (_ | _ | _) | _ <;> exact (read _).bind fun tree told => .pure told

theorem display_element_read {item : List Char} (starting : Starting item)
    (reads : Reads descent Told item) (leads : Leads gap none) (ends : EndsItem rest indents) :
    Runs (elementOrYield descent) ⟨gap ++ (item ++ rest), indents⟩ ⟨rest, indents⟩
      fun element => Told item element.tree := by
  obtain ⟨lexeme, after, starts, shows_⟩ := starting ends.parted
  refine Runs.cursor.bind fun before lies => ?_
  rw [lies.ahead (leads shows_)]
  rcases starts with (_ | _ | _) | _ <;> exact element_read starting reads leads ends

theorem next_element_read {item : List Char} (starting : Starting item)
    (reads : Reads descent Told item) (found : List SyntaxTree)
    (ends : EndsItem rest indents) :
    Runs (nextElement descent .rightBracket found) ⟨',' :: ' ' :: (item ++ rest), indents⟩
      ⟨rest, indents⟩
      (Sum.elim (fun next => ∃ tree, next = found ++ [tree] ∧ Told item tree) fun _ => False) := by
  obtain ⟨lexeme, after, starts, shows_⟩ := starting ends.parted
  obtain ⟨lexeme, follows, other⟩ := starting_not_closing starting ends.parted leads_space
    .rightBracket (by decide)
  refine .refused (.ahead (Shows.comma _).now) (by decide) ?_
  refine (Runs.expect (Shows.comma _).now).bind fun _ _ => ?_
  refine (Runs.extras shows_.spaced).next ?_
  refine .refused follows other ?_
  refine (display_element_read starting reads leads_space ends).bind fun element told => ?_
  exact .pure ⟨element.tree, by simp, told⟩

theorem no_clause {place : Place} (ends : Ends itemStops place .bracketed) :
    Runs clauseFollows place place (· = false) := by
  obtain ⟨lexeme, member, follows⟩ := ends.stop
  refine (Runs.keyword? follows).next ?_
  rcases mem_item_stops member with rfl | rfl | rfl <;> exact .pure rfl

theorem list_read {items : List (List Char)} (leads : Leads gap none)
    (starting : ∀ item ∈ items, Starting item)
    (reads : ∀ item ∈ items, Reads descent Told item)
    (bound : items.length ≤ descent.limit) :
    Runs (bracketed descent) ⟨gap ++ '[' :: (listed items ++ ']' :: rest), indents⟩
      ⟨rest, indents⟩ (Told ('[' :: (listed items ++ [']']))) := by
  refine Runs.cursor.bind fun before lies => ?_
  refine (Runs.skip (leads (Shows.leftBracket _))).bind fun _ _ => ?_
  cases items with
  | nil =>
    refine (Runs.extras (Shows.rightBracket rest).now).next ?_
    refine .accepted (Shows.rightBracket rest).now ?_
    refine (Runs.textSince before).bind fun spanned _ => ?_
    exact .pure (told_list .nil spanned)
  | cons first items =>
    obtain ⟨firstStarting, laterStarting⟩ := List.forall_mem_cons.mp starting
    obtain ⟨firstReads, laterReads⟩ := List.forall_mem_cons.mp reads
    have ends := items_end id (bracket_ends rest indents) items
    obtain ⟨lexeme, after, starts, shows_⟩ := firstStarting ends.parted
    obtain ⟨lexeme, follows, other⟩ := starting_not_closing firstStarting ends.parted
      leads_nothing .rightBracket (by decide)
    rw [listed_cons, List.append_assoc]
    refine (Runs.extras shows_.now).next ?_
    refine .refused follows other ?_
    refine (display_element_read firstStarting firstReads leads_nothing ends).bind
      fun element told => ?_
    refine (no_clause (ends .bracketed)).next ?_
    have run : Runs (elementsUntil descent .rightBracket [element.tree])
        ⟨items.flatMap (fun item => ',' :: ' ' :: item) ++ ']' :: rest, indents⟩ ⟨rest, indents⟩
        (List.Forall₂ Told (first :: items)) := by
      refine items_run id (bracket_ends rest indents) (fun found => ?_)
        (fun item member found left itemEnds => ?_) (.cons told .nil) (Nat.lt_of_succ_le bound)
      · exact .accepted (Shows.rightBracket rest).now (.pure rfl)
      · exact next_element_read (laterStarting item member) (laterReads item member) found itemEnds
    refine run.bind fun elements held => ?_
    refine (Runs.textSince before).bind fun spanned _ => ?_
    refine .pure ?_
    rw [← listed_cons]
    exact told_list held spanned

theorem trailer_index {before : Cursor} {text : List Char} {tree : SyntaxTree}
    (told : Told text tree) {items : List (List Char)} (present : items ≠ [])
    (starting : ∀ item ∈ items, Starting item)
    (reads : ∀ item ∈ items, Reads descent Told item)
    (bound : items.length ≤ descent.limit) :
    Runs (trailer descent context before tree) ⟨'[' :: (listed items ++ ']' :: rest), indents⟩
      ⟨rest, indents⟩
      (Sum.elim (Refers (text ++ '[' :: (listed items ++ [']']))) fun _ => False) := by
  refine (Runs.follow (.ahead (Shows.leftBracket _).now)).next ?_
  refine (indices_read present starting reads bound).bind fun trees inner => ?_
  refine (Runs.textSince before).bind fun spanned _ => ?_
  exact .pure (told_subscript told inner spanned)

theorem count_le_flat {ι : Type} {f : ι → List Char} (positive : ∀ text, 0 < (f text).length)
    (texts : List ι) : texts.length ≤ (texts.flatMap f).length := by
  induction texts with
  | nil => exact Nat.zero_le _
  | cons text texts ih =>
    have first := positive text
    simp only [List.flatMap_cons, List.length_append, List.length_cons]
    omega

theorem listed_length (items : List (List Char)) : items.length ≤ (listed items).length + 1 := by
  cases items with
  | nil => exact Nat.zero_le _
  | cons first items =>
    have later := count_le_flat (f := fun item => ',' :: ' ' :: item) (by simp) items
    rw [listed_cons, List.length_append, List.length_cons]
    omega

theorem primary_of_atom {start : Place} {lexeme : Lexeme} {after : List Char}
    {holds : SyntaxTree → Prop} (starts : Starts lexeme)
    (meets : Meets start.text level lexeme after) (positive : 0 < descent.limit)
    (ends : Ends (.mark .bar :: stops) ⟨rest, indents⟩ context)
    (runs : Runs (atom descent context) start ⟨rest, indents⟩ holds) :
    Runs (primary descent context) start ⟨rest, indents⟩ holds := by
  refine Runs.cursor.bind fun before lies => ?_
  rw [lies.ahead meets]
  rcases starts with (_ | _ | _) | _ <;>
    exact runs.bind fun tree held => .finish positive (trailer_end ends) held

theorem primary_name {letters : List Char} (name : IsName letters) (leads : Leads gap level)
    (positive : 0 < descent.limit) (ends : Ends (.mark .bar :: stops) ⟨rest, indents⟩ context) :
    Runs (primary descent context) ⟨gap ++ (letters ++ rest), indents⟩ ⟨rest, indents⟩
      (· = .leaf .identifier (String.ofList letters)) := by
  obtain ⟨keyword, opens, shows_⟩ := name_shows name ends.apart
  exact primary_of_atom (.opens opens) (leads shows_) positive ends (atom_name leads name ends.apart)

theorem primary_member {object letters : List Char} (owner : IsName object) (name : IsName letters)
    (leads : Leads gap level) (enough : 1 < descent.limit)
    (ends : Ends (.mark .bar :: stops) ⟨rest, indents⟩ context) :
    Runs (primary descent context) ⟨gap ++ (object ++ '.' :: (letters ++ rest)), indents⟩
      ⟨rest, indents⟩ fun tree => ∃ spanned, tree = .node .attribute spanned
        [(.object, .leaf .identifier (String.ofList object)),
          (.attribute, .leaf .identifier (String.ofList letters))] := by
  have apart : Apart ('.' :: (letters ++ rest)) := apart_cons _ (by decide)
  obtain ⟨keyword, opens, shows_⟩ := name_shows owner apart
  refine Runs.cursor.bind fun before lies => ?_
  rw [lies.ahead (leads shows_)]
  refine (atom_name leads owner apart).next ?_
  refine .again (by omega) (trailer_member before _ name ends.apart) fun tree member => ?_
  exact .finish (by omega) (trailer_end ends) member

theorem primary_none (leads : Leads gap level) (positive : 0 < descent.limit)
    (ends : Ends (.mark .bar :: stops) ⟨rest, indents⟩ context) :
    Runs (primary descent context) ⟨gap ++ (['N', 'o', 'n', 'e'] ++ rest), indents⟩ ⟨rest, indents⟩
      (· = .leaf .noneLiteral "None") := by
  have meets := leads (none_shows ends.apart)
  refine primary_of_atom (.absent "None") meets positive ends ?_
  refine Runs.cursor.bind fun before lies => ?_
  rw [lies.ahead meets]
  exact (Runs.skip meets).bind fun _ _ => .pure rfl

def ReadsOperand (descent : Descent) (related : List Char → SyntaxTree → Prop) (text : List Char) :
    Prop :=
  ∀ (context : Context) (gap rest : List Char) (indents : List Nat), Leads gap none →
    Ends (.mark .bar :: stops) ⟨rest, indents⟩ context →
    Runs (primary descent context) ⟨gap ++ (text ++ rest), indents⟩ ⟨rest, indents⟩ (related text)

theorem list_operand {items : List (List Char)} (starting : ∀ item ∈ items, Starting item)
    (reads : ∀ item ∈ items, Reads descent Told item)
    (bound : ('[' :: (listed items ++ [']'])).length < descent.limit) :
    ReadsOperand descent Told ('[' :: (listed items ++ [']'])) := by
  intro context gap rest indents leads ends
  have inner := listed_length items
  simp only [List.length_append, List.length_cons, List.length_nil] at bound
  have split : '[' :: (listed items ++ [']']) ++ rest = '[' :: (listed items ++ ']' :: rest) := by
    simp
  have meets := leads (Shows.leftBracket (listed items ++ ']' :: rest))
  rw [split]
  refine primary_of_atom (.opens .bracket) meets (by omega) ends ?_
  refine Runs.cursor.bind fun before lies => ?_
  rw [lies.ahead meets]
  exact list_read leads starting reads (by omega)

-- A descent that reads a reference. What comes after it is left to the rounds that remain, of which
-- the reference has taken fewer than it has characters.
def ReadsSpine (descent : Descent) (text : List Char) : Prop :=
  ∀ ⦃context : Context⦄ ⦃gap rest : List Char⦄ ⦃indents : List Nat⦄ ⦃holds : SyntaxTree → Prop⦄
    ⦃stop : Place⦄, Leads gap none → Apart rest →
    (∀ before tree limit, Refers text tree → descent.limit < limit + text.length →
      Runs (Reader.iterate (trailer descent context before) limit tree) ⟨rest, indents⟩ stop
        holds) →
    Runs (primary descent context) ⟨gap ++ (text ++ rest), indents⟩ stop holds

theorem name_spine {letters : List Char} (name : IsName letters) : ReadsSpine descent letters := by
  intro context gap rest indents holds stop leads apart later
  obtain ⟨keyword, opens, shows_⟩ := name_shows name apart
  obtain ⟨c, text, split, -⟩ := name.word.begins
  refine Runs.cursor.bind fun before lies => ?_
  rw [lies.ahead (leads shows_)]
  refine (atom_name leads name apart).next ?_
  refine later before _ _ (told_name letters) ?_
  rw [split, List.length_cons]
  omega

theorem member_spine {text letters : List Char} (spine : ReadsSpine descent text)
    (name : IsName letters) (bound : text.length < descent.limit) :
    ReadsSpine descent (text ++ '.' :: letters) := by
  intro context gap rest indents holds stop leads apart later
  rw [List.append_assoc, List.cons_append]
  refine spine leads (apart_cons _ (by decide)) fun before tree limit refers left => ?_
  refine .again (by omega) (trailer_member before tree name apart) fun next held => ?_
  obtain ⟨spanned, rfl⟩ := held
  refine later before _ _ (told_member refers.toTold letters spanned) ?_
  rw [List.length_append, List.length_cons]
  omega

theorem subscript_spine {text : List Char} {items : List (List Char)}
    (spine : ReadsSpine descent text) (given : items ≠ [])
    (starting : ∀ item ∈ items, Starting item) (reads : ∀ item ∈ items, Reads descent Told item)
    (bound : (text ++ '[' :: (listed items ++ [']'])).length < descent.limit) :
    ReadsSpine descent (text ++ '[' :: (listed items ++ [']'])) := by
  intro context gap rest indents holds stop leads apart later
  have inner := listed_length items
  have split : text ++ '[' :: (listed items ++ [']']) ++ rest =
      text ++ '[' :: (listed items ++ ']' :: rest) := by simp
  simp only [List.length_append, List.length_cons, List.length_nil] at bound later
  rw [split]
  refine spine leads (apart_cons _ (by decide)) fun before tree limit refers left => ?_
  refine .again (by omega) (trailer_index refers.toTold given starting reads (by omega))
    fun next referred => ?_
  exact later before _ _ referred (by omega)

theorem ReadsSpine.operand {text : List Char} (spine : ReadsSpine descent text)
    (bound : text.length ≤ descent.limit) : ReadsOperand descent Refers text := by
  intro context gap rest indents leads ends
  refine spine leads ends.apart fun before tree limit refers left => ?_
  exact .finish (by omega) (trailer_end ends) refers

end

end SourceDiagram.ObjectModel
