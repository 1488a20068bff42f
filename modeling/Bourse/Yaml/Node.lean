import Bourse.Yaml.Outline
import Bourse.Yaml.Tag
/-!
Nodes: the scalars, sequences and mappings that tokens describe. An alias stands for the node with
its anchor, which has to end before the alias.
-/
namespace Bourse.Yaml

/-- A node with its tag. -/
inductive Node where
  | scalar (tag : Tag) (text : String)
  | sequence (tag : Tag) (items : List Node)
  | mapping (tag : Tag) (entries : List (Node × Node))
deriving Inhabited

/-- The node where nothing is written. -/
def Node.empty : Node := .scalar .null ""

/-- What is still to be read, and what earlier parts have defined. -/
structure Reading where
  tokens : List Token
  /-- The nodes of anchors; a node that has not ended is absent. -/
  anchors : List (String × Option Node) := []
  /-- The short forms for the beginnings of tags. -/
  handles : List (String × String) := []

/-- A part of reading. -/
abbrev Reads (α : Type) := StateT Reading (Except Fault) α

/-- The anchor and the tag in front of a node. -/
structure Properties where
  anchor : Option String := none
  tag : Option (Option String × String) := none

namespace Reads

/-- The next token. -/
def next? : Reads (Option Token) := do return (← get).tokens.head?

/-- Passes a token. -/
def pass : Reads Unit := modify fun reading => { reading with tokens := reading.tokens.drop 1 }

/-- Whether the next token satisfies a test; the end of the text does not. -/
def isNext (p : Token → Bool) : Reads Bool := do return ((← next?).map p).getD false

/-- Breaks off. -/
def refuse {α : Type} : Reads α := throw .notYaml

/-- Whether a token begins an entry or ends a collection by indentation. -/
def endsBlockEntry : Token → Bool
  | .blockEntry | .blockEnd => true
  | _ => false

/-- Whether a token follows an entry of a sequence that shares the column of its key. -/
def endsFlatEntry : Token → Bool
  | .blockEntry | .key | .value | .blockEnd => true
  | _ => false

/-- Whether a token follows a key or value of a mapping by indentation. -/
def endsBlockPart : Token → Bool
  | .key | .value | .blockEnd => true
  | _ => false

/-- Whether a token follows a key in a sequence between brackets. -/
def endsSequenceKey : Token → Bool
  | .value | .flowEntry | .flowSequenceEnd => true
  | _ => false

/-- Whether a token follows a value in a sequence between brackets. -/
def endsSequenceValue : Token → Bool
  | .flowEntry | .flowSequenceEnd => true
  | _ => false

/-- Whether a token follows a key in a mapping between brackets. -/
def endsMappingKey : Token → Bool
  | .value | .flowEntry | .flowMappingEnd => true
  | _ => false

/-- Whether a token follows a value in a mapping between brackets. -/
def endsMappingValue : Token → Bool
  | .flowEntry | .flowMappingEnd => true
  | _ => false

/-- The anchor here. -/
def anchor? : Reads (Option String) := do
  match ← next? with
  | some (.anchor name) => pass; return some name
  | _ => return none

/-- The tag here. -/
def tag? : Reads (Option (Option String × String)) := do
  match ← next? with
  | some (.tag handle text) => pass; return some (handle, text)
  | _ => return none

/-- The anchor and the tag here, in either order. -/
def properties : Reads Properties := do
  match ← anchor? with
  | some anchor => return ⟨some anchor, ← tag?⟩
  | none =>
    match ← tag? with
    | some tag => return ⟨← anchor?, some tag⟩
    | none => return {}

/-- The full name of a tag. -/
def fullName (handle : Option String) (text : String) : Reads String := do
  match handle with
  | none => return text
  | some handle =>
    match (← get).handles.lookup handle with
    | some long => return long ++ text
    | none => refuse

/-- The full name of the tag in front of a node. -/
def tagName? (properties : Properties) : Reads (Option String) :=
  match properties.tag with
  | none => return none
  | some (handle, text) => do return some (← fullName handle text)

/-- The tag of a scalar. One exclamation mark alone leaves the tag to the form of the text. -/
def scalarTag (name : Option String) (isPlain : Bool) (text : String) : Tag :=
  match name with
  | some "!" => Tag.ofPlain text
  | some name => Tag.ofName name
  | none => if isPlain then Tag.ofPlain text else .text

/-- The tag of a collection. -/
def collectionTag (name : Option String) (usual : Tag) : Tag :=
  match name with
  | none | some "!" => usual
  | some name => Tag.ofName name

/-- Opens an anchor, which must be new. -/
def openAnchor (anchor : Option String) : Reads Unit := do
  if let some name := anchor then
    if (← get).anchors.any (·.1 == name) then refuse
    modify fun reading => { reading with anchors := (name, none) :: reading.anchors }

/-- Gives an anchor its node. -/
def closeAnchor (anchor : Option String) (node : Node) : Reads Node := do
  if let some name := anchor then
    modify fun reading => { reading with
      anchors := (name, some node) :: reading.anchors.filter (·.1 != name) }
  return node

/-- The node of an alias. -/
def aliased (name : String) : Reads Node := do
  match (← get).anchors.lookup name with
  | some (some node) => return node
  | _ => refuse

/-- The places where a node may stand, by the collections without brackets that it may be. -/
inductive Place where
  /-- Between brackets. -/
  | flow
  | block
  /-- A key or a value, where a sequence may share the column of its mapping. -/
  | part
deriving DecidableEq

/-- The node where only properties are written. -/
def emptyContent (properties : Properties) (name : Option String) : Reads Node :=
  if properties.anchor.isSome || properties.tag.isSome then
    return .scalar (scalarTag name true "") ""
  else refuse

/-- Passes a comma. -/
def comma : Reads Unit := do
  match ← next? with
  | some .flowEntry => pass
  | _ => refuse

mutual

/-- Reads a node. -/
def node (place : Place) : Nat → Reads Node
  | 0 => refuse
  | fuel + 1 => do
    if let some (.alias name) ← next? then
      pass
      return ← aliased name
    let properties ← properties
    let name ← tagName? properties
    openAnchor properties.anchor
    let content ← content place properties name fuel
    closeAnchor properties.anchor content

/-- Reads what follows the properties of a node. -/
def content (place : Place) (properties : Properties) (name : Option String) : Nat → Reads Node
  | 0 => refuse
  | fuel + 1 => do
    match ← next? with
    | some (.scalar text isPlain) => pass; return .scalar (scalarTag name isPlain text) text
    | some .flowSequence =>
      pass
      return .sequence (collectionTag name .sequence) (← flowItems true fuel)
    | some .flowMapping =>
      pass
      return .mapping (collectionTag name .mapping) (← flowEntries true fuel)
    | some .blockEntry =>
      if place = .part then
        return .sequence (collectionTag name .sequence) (← flatItems fuel)
      emptyContent properties name
    | some .blockSequence =>
      if place = .flow then emptyContent properties name
      else pass; return .sequence (collectionTag name .sequence) (← blockItems fuel)
    | some .blockMapping =>
      if place = .flow then emptyContent properties name
      else pass; return .mapping (collectionTag name .mapping) (← blockEntries fuel)
    | _ => emptyContent properties name

/-- Reads a node, or an empty one where a token follows that ends the place. -/
def nodeOr (ends : Token → Bool) (place : Place) : Nat → Reads Node
  | 0 => refuse
  | fuel + 1 => do if ← isNext ends then return .empty else node place fuel

/-- Reads the items of a sequence by indentation. -/
def blockItems : Nat → Reads (List Node)
  | 0 => refuse
  | fuel + 1 => do
    match ← next? with
    | some .blockEntry =>
      pass
      let item ← nodeOr endsBlockEntry .block fuel
      return item :: (← blockItems fuel)
    | some .blockEnd => pass; return []
    | _ => refuse

/-- Reads the items of a sequence that shares the column of its key. -/
def flatItems : Nat → Reads (List Node)
  | 0 => refuse
  | fuel + 1 => do
    match ← next? with
    | some .blockEntry =>
      pass
      let item ← nodeOr endsFlatEntry .block fuel
      return item :: (← flatItems fuel)
    | _ => return []

/-- Reads a value behind its colon, or an empty one where there is no colon. -/
def valueOr (ends : Token → Bool) (place : Place) : Nat → Reads Node
  | 0 => refuse
  | fuel + 1 => do
    match ← next? with
    | some .value => pass; nodeOr ends place fuel
    | _ => return .empty

/-- Reads the entries of a mapping by indentation. -/
def blockEntries : Nat → Reads (List (Node × Node))
  | 0 => refuse
  | fuel + 1 => do
    match ← next? with
    | some .key =>
      pass
      let key ← nodeOr endsBlockPart .part fuel
      let value ← valueOr endsBlockPart .part fuel
      return (key, value) :: (← blockEntries fuel)
    | some .blockEnd => pass; return []
    | _ => refuse

/-- Reads the items of a sequence between brackets; behind the first one they follow a comma. -/
def flowItems (isFirst : Bool) : Nat → Reads (List Node)
  | 0 => refuse
  | fuel + 1 => do
    if let some .flowSequenceEnd ← next? then
      pass
      return []
    if !isFirst then comma
    match ← next? with
    | some .flowSequenceEnd => pass; return []
    | some .key =>
      pass
      let key ← nodeOr endsSequenceKey .flow fuel
      let value ← valueOr endsSequenceValue .flow fuel
      return .mapping .mapping [(key, value)] :: (← flowItems false fuel)
    | _ =>
      let item ← node .flow fuel
      return item :: (← flowItems false fuel)

/-- Reads the entries of a mapping between brackets; behind the first one they follow a comma. -/
def flowEntries (isFirst : Bool) : Nat → Reads (List (Node × Node))
  | 0 => refuse
  | fuel + 1 => do
    if let some .flowMappingEnd ← next? then
      pass
      return []
    if !isFirst then comma
    match ← next? with
    | some .flowMappingEnd => pass; return []
    | some .key =>
      pass
      let key ← nodeOr endsMappingKey .flow fuel
      let value ← valueOr endsMappingValue .flow fuel
      return (key, value) :: (← flowEntries false fuel)
    | _ =>
      let key ← node .flow fuel
      return (key, .empty) :: (← flowEntries false fuel)

end

/-- The handles that need no directive. -/
def usualHandles : List (String × String) := [("!", "!"), ("!!", Tag.standard)]

/-- Enters what directives say; the version may be given once and must begin with one. -/
def enterDirectives (hasVersion : Bool) (handles : List (String × String)) :
    List Token → Except Fault (List (String × String) × List Token)
  | .directive (.version number) :: rest =>
    if hasVersion || number ≠ 1 then .error .notYaml else enterDirectives true handles rest
  | .directive (.handle short long) :: rest =>
    if handles.any (·.1 == short) then .error .notYaml
    else enterDirectives hasVersion ((short, long) :: handles) rest
  | .directive .reserved :: rest => enterDirectives hasVersion handles rest
  | rest => .ok (handles ++ usualHandles, rest)

/-- Whether a token stands between documents. -/
def isBetweenDocuments : Token → Bool
  | .directive _ | .documentStart | .documentEnd => true
  | _ => false

/-- Reads the node of a document, which may be empty behind an explicit mark. -/
def document (isExplicit : Bool) (fuel : Nat) : Reads Node := do
  match ← next? with
  | none => return .empty
  | some token =>
    if isExplicit && isBetweenDocuments token then return .empty else node .block fuel

/-- Reads the only document of some tokens; none if there are no tokens. -/
def stream? (tokens : List Token) : Except Fault (Option Node) := do
  match tokens with
  | [] => return none
  | .directive _ :: _ | .documentStart :: _ =>
    let (handles, rest) ← enterDirectives false [] tokens
    match rest with
    | .documentStart :: rest => return some (← only true handles rest)
    | _ => throw .notYaml
  | _ => return some (← only false usualHandles tokens)
where
  /-- The document at the front, if nothing but end marks follow it. -/
  only (isExplicit : Bool) (handles : List (String × String)) (tokens : List Token) :
      Except Fault Node := do
    let (node, reading) ←
      (document isExplicit (4 * tokens.length + 4)).run { tokens, handles }
    let isEnd := fun token => match token with | Token.documentEnd => true | _ => false
    if reading.tokens.all isEnd then return node else throw .notYaml

end Reads

/-- The node of a text; none if the text holds nothing. -/
def node? (text : List Char) : Except Fault (Option Node) :=
  if !text.all isAllowed then .error .notYaml
  else
    match tokens text with
    | (found, none) => Reads.stream? found
    | (_, some fault) => .error fault

end Bourse.Yaml
