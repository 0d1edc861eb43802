import SourceDiagram.ObjectModel.Session
import SourceDiagram.Proofs.ObjectModel.Modules

set_option autoImplicit false

namespace SourceDiagram.ObjectModel

open SourceDiagram.Model
open SourceDiagram.Syntax

theorem classes_of {classes : List ClassText} {trees : List SyntaxTree}
    (told : List.Forall₂ Class classes trees) :
    classesOf (.phrase .module "" trees) = classes.map ClassText.record := by
  have parts : (SyntaxTree.phrase .module "" trees).parts = trees := by
    refine phrase_parts .module "" (forall_right told fun declared tree told => ?_)
    obtain ⟨superclasses, body, defines⟩ := told
    rw [SyntaxTree.isPart, defines.kind]
    rfl
  rw [classesOf, parts]
  refine filter_map_right told fun declared tree told => ?_
  obtain ⟨superclasses, body, defines⟩ := told
  rw [definition?, if_pos defines.kind]
  exact defines.describe

theorem printed_accepted (blanks : Nat) (classes : List ClassText) :
    ∃ module, accepted? (String.ofList (printed blanks classes)) = some module ∧
      classesOf module = classes.map ClassText.record := by
  obtain ⟨trees, parsed, told⟩ := printed_parses blanks classes
  have accepted : hasRefused (.phrase .module "" trees) = false := by
    refine phrase_accepted rfl (forall_right told fun declared tree told => ?_)
    obtain ⟨superclasses, body, defines⟩ := told
    exact defines.accepted
  refine ⟨_, ?_, classes_of told⟩
  rw [accepted?, parsed, Option.filter_some, accepted]
  rfl

theorem records_distinct {classes : List ClassText}
    (distinct : (classes.map ClassText.name).Nodup) :
    ((classes.map ClassText.record).map ClassRecord.name).Nodup := by
  have names : (classes.map ClassText.record).map ClassRecord.name =
      (classes.map ClassText.name).map fun name => String.ofList name.val := by
    rw [List.map_map, List.map_map]
    rfl
  rw [names]
  refine distinct.map fun first second same => Subtype.ext ?_
  simpa using congrArg String.toList same

def Name.type (name : Name) : TypeText :=
  ⟨alternatives [dotted [name.val]], .union (by simp) fun operand member => by
    obtain rfl := List.mem_singleton.mp member
    refine .reference (.path (by simp) fun letters member => ?_)
    obtain rfl := List.mem_singleton.mp member
    exact name.property⟩

def Name.index (name : Name) (arguments : List TypeText) (some : arguments ≠ []) : TypeText :=
  ⟨alternatives [dotted [name.val] ++ '[' :: (listed (arguments.map Subtype.val) ++ [']'])],
    .union (by simp) fun operand member => by
      obtain rfl := List.mem_singleton.mp member
      refine .reference (.indexed (by simp) (fun letters member => ?_)
        (fun none => some (List.map_eq_nil_iff.mp none)) ?_)
      · obtain rfl := List.mem_singleton.mp member
        exact name.property
      · intro argument member
        obtain ⟨type, present, rfl⟩ := List.mem_map.mp member
        exact type.property⟩

def shape : ClassText where
  name := ⟨['S', 'h', 'a', 'p', 'e'], by decide⟩
  bases := some [⟨dotted [['d', 'r', 'a', 'w'], ['B', 'a', 's', 'e']],
    .path (by simp) (by simp; decide)⟩]
  attributes := [⟨⟨['p', 'a', 'r', 't', 's'], by decide⟩,
    some (Name.index ⟨['d', 'i', 'c', 't'], by decide⟩
      [Name.type ⟨['s', 't', 'r'], by decide⟩, Name.type ⟨['S', 'h', 'a', 'p', 'e'], by decide⟩]
      (by simp)), false⟩]
  methods := [
    ⟨.instanceMethod, ⟨['m', 'o', 'v', 'e'], by decide⟩,
      [⟨.none, ⟨['x'], by decide⟩, some (Name.type ⟨['i', 'n', 't'], by decide⟩)⟩,
        ⟨.two, ⟨['o'], by decide⟩, none⟩],
      some (Name.type ⟨['S', 'h', 'a', 'p', 'e'], by decide⟩),
      [⟨⟨['p', 'a', 'r', 't', 's'], by decide⟩, none, true⟩,
        ⟨⟨['x'], by decide⟩, some (Name.type ⟨['i', 'n', 't'], by decide⟩), true⟩]⟩,
    ⟨.staticMethod, ⟨['u', 'n', 'i', 't'], by decide⟩, [], none, []⟩]

def board : ClassText where
  name := ⟨['B', 'o', 'a', 'r', 'd'], by decide⟩
  bases := none
  attributes := []
  methods := []

-- Whatever classes a module declares, exactly these are known after it has been read.
theorem printed_classes_are_found (blanks : Nat) (classes : List ClassText)
    (distinct : (classes.map ClassText.name).Nodup) :
    interpret [] (String.ofList (printed blanks classes)) =
      (classes.map ClassText.record, !classes.isEmpty,
        (classes.map ClassText.record).map classEvent ++ [.moduleRead classes.length]) := by
  obtain ⟨module, accepted, found⟩ := printed_accepted blanks classes
  have known : (classes.map ClassText.record).foldl insertClass [] =
      classes.map ClassText.record :=
    upserts_distinct [] (records_distinct distinct)
  simp [interpret, accepted, readModule, found, known]

theorem printed_shape_and_board :
    ([shape, board].map ClassText.name).Nodup ∧
    interpret [] ("class Shape(draw.Base):\n    parts: dict[str, Shape]\n" ++
        "    def move(self, x: int, **o) -> Shape:\n        self.parts = None\n" ++
        "        self.x: int = None\n    @staticmethod\n    def unit():\n        pass\n\n" ++
        "class Board:\n    pass\n\n") =
      ([⟨"Shape", ["draw.Base"], [⟨"parts", "dict[str, Shape]"⟩, ⟨"x", "int"⟩],
          [⟨"move", [⟨"x", "int"⟩, ⟨"**o", ""⟩], "Shape", .instanceMethod⟩,
            ⟨"unit", [], "", .staticMethod⟩]⟩,
        ⟨"Board", [], [], []⟩],
        true, [.classRead "Shape" 1 2 2, .classRead "Board" 0 0 0, .moduleRead 2]) := by
  have distinct : ([shape, board].map ClassText.name).Nodup := by decide
  have found := printed_classes_are_found 1 [shape, board] distinct
  have text : String.ofList (printed 1 [shape, board]) =
      "class Shape(draw.Base):\n    parts: dict[str, Shape]\n" ++
        "    def move(self, x: int, **o) -> Shape:\n        self.parts = None\n" ++
        "        self.x: int = None\n    @staticmethod\n    def unit():\n        pass\n\n" ++
        "class Board:\n    pass\n\n" := by
    decide +kernel
  have records : [shape, board].map ClassText.record =
      [⟨"Shape", ["draw.Base"], [⟨"parts", "dict[str, Shape]"⟩, ⟨"x", "int"⟩],
          [⟨"move", [⟨"x", "int"⟩, ⟨"**o", ""⟩], "Shape", .instanceMethod⟩,
            ⟨"unit", [], "", .staticMethod⟩]⟩,
        ⟨"Board", [], [], []⟩] := by
    decide
  rw [text, records] at found
  exact ⟨distinct, found⟩

end SourceDiagram.ObjectModel
