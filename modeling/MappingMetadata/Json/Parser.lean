import MappingMetadata.Json.Token

/-!
# Parsing JSON

Tokens are put together by an automaton with a stack of the lists and maps that are still open.
The text must hold one value and nothing else.
-/

namespace MappingMetadata.Json

/-- A list or map that is still open, its latest part first. -/
inductive Frame where
  | list (items : List Tree)
  /-- The value of the key is being read. -/
  | map (entries : List (Tree × Tree)) (key : Tree)

/-- What the automaton expects; each state has the stack of open frames. -/
inductive ParseState where
  /-- A value. -/
  | value (open_ : List Frame)
  /-- The first item of a list, or its end. -/
  | firstItem (open_ : List Frame)
  /-- The first key of a map, or its end. -/
  | firstKey (open_ : List Frame)
  /-- A further key of a map. -/
  | key (open_ : List Frame) (entries : List (Tree × Tree))
  | colon (open_ : List Frame) (entries : List (Tree × Tree)) (key : Tree)
  /-- A value is complete; a comma or the end of its list or map. -/
  | complete (open_ : List Frame) (t : Tree)

namespace ParseState

/-- Begin a value. -/
def begin (fs : List Frame) : Token → Option ParseState
  | .leaf t | .string t => some (.complete fs t)
  | .openList => some (.firstItem fs)
  | .openMap => some (.firstKey fs)
  | _ => none

/-- Take a token. -/
def step : ParseState → Token → Option ParseState
  | .value fs, token => begin fs token
  | .firstItem fs, .closeList => some (.complete fs (.list []))
  | .firstItem fs, token => begin (.list [] :: fs) token
  | .firstKey fs, .closeMap => some (.complete fs (.map []))
  | .firstKey fs, .string k => some (.colon fs [] k)
  | .key fs entries, .string k => some (.colon fs entries k)
  | .colon fs entries k, .colon => some (.value (.map entries k :: fs))
  | .complete (.list items :: fs) t, .comma => some (.value (.list (t :: items) :: fs))
  | .complete (.list items :: fs) t, .closeList =>
    some (.complete fs (.list (t :: items).reverse))
  | .complete (.map entries k :: fs) t, .comma => some (.key fs ((k, t) :: entries))
  | .complete (.map entries k :: fs) t, .closeMap =>
    some (.complete fs (.map ((k, t) :: entries).reverse))
  | _, _ => none

/-- The value, when nothing is open any more. -/
def result? : ParseState → Option Tree
  | .complete [] t => some t
  | _ => none

end ParseState

/-- The value of a text. -/
def parse? (s : String) : Option Tree := do
  let tokens ← tokens? s.toList
  let state ← tokens.foldlM ParseState.step (.value [])
  state.result?

/-- How many lists and maps may stand inside one another where values are read. -/
def maxDepth : Nat := 127

end MappingMetadata.Json
