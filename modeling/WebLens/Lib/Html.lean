import Mathlib.Data.List.Basic

/-!
# Documents

The tree of a document. An element has a name, attributes and children, and a text has a value. A
rewriting changes the attributes of every element by its name, changes the texts by the name of the
element around them, and leaves out children.

* `elements_transform` — a rewriting that leaves nothing out keeps the elements in their order.
-/

set_option autoImplicit false
set_option relaxedAutoImplicit false

namespace WebLens.Lib.Html

structure Attribute where
  name : String
  value : String
deriving DecidableEq

/-- A node of a document. -/
inductive Node
  | mk (tagName : Option String) (value : Option String) (attrs : List Attribute)
    (childNodes : List Node)

namespace Node

def tagName : Node → Option String
  | mk tagName _ _ _ => tagName

def value : Node → Option String
  | mk _ value _ _ => value

def attrs : Node → List Attribute
  | mk _ _ attrs _ => attrs

def childNodes : Node → List Node
  | mk _ _ _ childNodes => childNodes

end Node

/-- What is done to the nodes of a document. -/
structure Rewriting where
  attributes : Option String → List Attribute → List Attribute
  text : Option String → String → String
  keep : Node → Bool

section Transform

variable (rewriting : Rewriting)

mutual

/-- The tree of a node below an element of some name, rewritten from its top. -/
def transform (parent : Option String) : Node → Node
  | .mk tagName value attrs childNodes =>
    .mk tagName (value.map (rewriting.text parent)) (rewriting.attributes tagName attrs)
      (transformAll tagName childNodes)

def transformAll (parent : Option String) : List Node → List Node
  | [] => []
  | node :: nodes =>
    if rewriting.keep node = true then transform parent node :: transformAll parent nodes
    else transformAll parent nodes

end

end Transform

mutual

/-- The nodes of a document with their names and attributes, from its top. -/
def elements : Node → List (Option String × List Attribute)
  | .mk tagName _ attrs childNodes => (tagName, attrs) :: elementsOfAll childNodes

def elementsOfAll : List Node → List (Option String × List Attribute)
  | [] => []
  | node :: nodes => elements node ++ elementsOfAll nodes

end

section Elements

variable {rewriting : Rewriting}

mutual

theorem elements_transform (hkeep : ∀ node, rewriting.keep node = true) (parent : Option String) :
    ∀ node, elements (transform rewriting parent node) =
      (elements node).map fun element ↦ (element.1, rewriting.attributes element.1 element.2)
  | .mk tagName value attrs childNodes => by
    rw [transform, elements, elements, List.map_cons, elementsOfAll_transformAll hkeep]

theorem elementsOfAll_transformAll (hkeep : ∀ node, rewriting.keep node = true)
    (parent : Option String) :
    ∀ nodes, elementsOfAll (transformAll rewriting parent nodes) =
      (elementsOfAll nodes).map fun element ↦ (element.1, rewriting.attributes element.1 element.2)
  | [] => rfl
  | node :: nodes => by
    rw [transformAll, if_pos (hkeep node), elementsOfAll, elementsOfAll, List.map_append,
      elements_transform hkeep, elementsOfAll_transformAll hkeep]

end

end Elements

end WebLens.Lib.Html
