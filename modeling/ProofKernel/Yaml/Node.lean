import ProofKernel.Yaml.Value

/-!
# Nodes of YAML

What a YAML document holds: scalars, sequences and mappings, each with the line it starts on and its
tag, and references to nodes with a name.  A named node may hold a reference to itself, so that a
reference names its node by a number.

* `Yaml.Node.value?` is what a scalar stands for.
* `Yaml.Document` is a node with everything its references stand for.
-/

set_option autoImplicit false
namespace ProofKernel
namespace Yaml

/-- A node of a document. -/
inductive Node where
  | scalar (line : Nat) (tag : String) (text : String)
  | sequence (line : Nat) (tag : String) (items : List Node)
  | mapping (line : Nat) (tag : String) (entries : List (Node × Node))
  /-- A reference: the name of the node, the number of the reference and that of the node. -/
  | alias (line : Nat) (name : String) (number target : Nat)
deriving Inhabited

/-- A document. -/
structure Document where
  root : Node
  /-- The nodes with names, by their numbers. -/
  named : List (Nat × Node)
  /-- A bound for the work on the document: more than the number of its signs. -/
  size : Nat

namespace Node

/-- The tags of sequences, of mappings, and of the key whose value is merged into a mapping. -/
def sequenceTag : String := "!!seq"
def mappingTag : String := "!!map"
def mergeTag : String := "!!merge"

/-- The line a node starts on. -/
def line : Node → Nat
  | scalar line .. => line
  | sequence line .. => line
  | mapping line .. => line
  | .alias line .. => line

/-- The start of the tags that are written with two exclamation marks. -/
def longStart : String := "tag:yaml.org,2002:"

/-- A tag in its short form. -/
def shortTag (tag : String) : String :=
  if tag.startsWith longStart then "!!" ++ String.ofList (tag.toList.drop longStart.length) else tag

/-- A scalar.  Without a tag it is text between quotes, and else what its word stands for. -/
def ofScalar (line : Nat) (tag : Option String) (quoted : Bool) (text : String) : Node :=
  let kind := match tag with
    | some tag => shortTag tag
    | none =>
      if quoted then "!!str" else if text == "<<" then mergeTag else (Value.ofWord text).tag
  scalar line kind text

/-- The node that stands where nothing is written. -/
def empty (line : Nat) : Node :=
  ofScalar line none false ""

/-- Whether a node is the key whose value is merged into a mapping. -/
def isMerge : Node → Bool
  | scalar _ tag text => tag == mergeTag && text == "<<"
  | _ => false

/-- What a scalar stands for; other nodes have no value. -/
def value? : Node → Option Value
  | scalar _ tag text => Value.ofTagged? tag text
  | _ => none

end Node
end Yaml
end ProofKernel
