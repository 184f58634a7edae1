import OciWrapper.Text.Numerals
import OciWrapper.Text.CaseFold

namespace OciWrapper.Wire

open OciWrapper.Text

/-- A node of the document that libxml2 returns. -/
inductive XmlNode
  | element (name : String) (attributes : List (String × CString)) (children : List XmlNode)
  | text (content : CString)

mutual

/-- `xmlNodeGetContent`: the texts below a node, one after the other. -/
def XmlNode.content : XmlNode → CString
  | .element _ _ children => nodesContent children
  | .text content => content

def nodesContent : List XmlNode → CString
  | [] => []
  | node :: nodes => node.content ++ nodesContent nodes

end

def XmlNode.children : XmlNode → List XmlNode
  | .element _ _ children => children
  | .text _ => []

def XmlNode.isElement (name : String) : XmlNode → Bool
  | .element found _ _ => found == name
  | .text _ => false

/-- `xmlGetProp`. -/
def XmlNode.prop (name : String) : XmlNode → Option CString
  | .element _ attributes _ => (attributes.find? (·.1 == name)).map (·.2)
  | .text _ => none

/-- A value that cJSON returns; of a number the parser reads `valueint`. -/
inductive Json
  | null
  | bool (value : Bool)
  | number (valueint : Int)
  | string (value : CString)
  | array (items : List Json)
  | object (members : List (String × Json))

/-- `cJSON_GetObjectItemCaseSensitive`. -/
def Json.item (name : String) : Json → Option Json
  | .object members => (members.find? (·.1 == name)).map (·.2)
  | _ => none

/-- The items of an array, and none of anything else. -/
def Json.items : Json → List Json
  | .array items => items
  | _ => []

def Json.isObject : Json → Bool
  | .object _ => true
  | _ => false

def Json.text? : Json → Option CString
  | .string value => some value
  | _ => none

/-- `trim_inplace`. -/
def trim (s : CString) : CString := (((s.dropWhile isSpace).reverse).dropWhile isSpace).reverse

/-- `strncpy(dest, src, size - 1)` into a zeroed buffer of `size` bytes. -/
def strncpy (size : Nat) (src : CString) : CString := src.take (size - 1)

section Readers

-- `copy` is the copy of a text into a field of the given size.
variable (copy : Nat → CString → CString)

def elementsNamed (name : String) (nodes : List XmlNode) : List XmlNode :=
  nodes.filter (·.isElement name)

/-- The node that is left in a variable which every element of the name is assigned to. -/
def lastNamed (name : String) (nodes : List XmlNode) : Option XmlNode :=
  (elementsNamed name nodes).getLast?

/-- The children of the last element of the name. -/
def childrenNamed (name : String) (nodes : List XmlNode) : List XmlNode :=
  ((lastNamed name nodes).map (·.children)).getD []

/-- The content of the last element of the name. -/
def xmlContent (nodes : List XmlNode) (name : String) : Option CString :=
  (lastNamed name nodes).map (·.content)

def xmlText (size : Nat) (nodes : List XmlNode) (name : String) : CString :=
  ((xmlContent nodes name).map fun content => trim (copy size content)).getD []

def xmlInt (nodes : List XmlNode) (name : String) : Int :=
  ((xmlContent nodes name).map atol).getD 0

def xmlFlag (unset : Bool) (nodes : List XmlNode) (name : String) : Bool :=
  ((xmlContent nodes name).map fun content => atol content != 0).getD unset

/-- The non-empty texts of the elements of a name under those of another, up to a count. -/
def xmlTexts (size most : Nat) (nodes : List XmlNode) (name entry : String) : List CString :=
  ((((elementsNamed name nodes).flatMap fun node => elementsNamed entry node.children).map
    fun node => trim (copy size node.content)).filter (· ≠ [])).take most

def jsonText (size : Nat) (obj : Json) (name : String) : CString :=
  (((obj.item name).bind Json.text?).map (copy size)).getD []

def jsonInt (obj : Json) (name : String) : Int :=
  match obj.item name with
  | some (.number value) => value
  | _ => 0

/-- A flag is a number or a boolean. -/
def jsonFlag (unset : Bool) (obj : Json) (name : String) : Bool :=
  match obj.item name with
  | some (.number value) => value != 0
  | some (.bool value) => value
  | _ => unset

def jsonItems (obj : Json) (name : String) : List Json := ((obj.item name).map Json.items).getD []

def jsonTexts (size most : Nat) (obj : Json) (name : String) : List CString :=
  (((((jsonItems obj name).filterMap Json.text?).filter (· ≠ [])).map (copy size))).take most

end Readers

end OciWrapper.Wire
