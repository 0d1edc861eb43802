set_option autoImplicit false

namespace SourceDiagram

structure Definition where
  token : String
  value : String
deriving DecidableEq, Repr

-- Replace the occurrences of a token, of which the first `skipped` characters are already gone.
def replaceFrom (token value : List Char) : Nat → List Char → List Char
  | _, [] => []
  | skipped + 1, _ :: cs => replaceFrom token value skipped cs
  | 0, c :: cs =>
    if token.isPrefixOf (c :: cs) then value ++ replaceFrom token value (token.length - 1) cs
    else c :: replaceFrom token value 0 cs

def Definition.apply (definition : Definition) (text : List Char) : List Char :=
  if definition.token.isEmpty then text
  else replaceFrom definition.token.toList definition.value.toList 0 text

def substitute (text : String) (definitions : List Definition) : String :=
  String.ofList (definitions.foldl (fun cs definition => definition.apply cs) text.toList)

def Definition.ofText? (text : String) : Option Definition :=
  let token := text.toList.takeWhile (· != '=')
  match text.toList.dropWhile (· != '=') with
  | _ :: value => if token.isEmpty then none else some ⟨String.ofList token, String.ofList value⟩
  | [] => none

def Definition.ofTexts : List String → Except String (List Definition)
  | [] => .ok []
  | text :: rest =>
    match Definition.ofText? text with
    | none => .error text
    | some definition => (Definition.ofTexts rest).map (definition :: ·)

end SourceDiagram
