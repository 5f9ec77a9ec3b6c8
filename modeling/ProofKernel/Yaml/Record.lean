import ProofKernel.Text.Base64
import ProofKernel.Text.Quoted
import ProofKernel.Yaml.Node
import ProofKernel.Yaml.Source

/-!
# Records from documents

A record is filled from a mapping: each field that has a key of its name takes over the value.  A
value of the wrong kind is an error, and all such errors of a document are reported together.  Keys
without a meaning are passed over.

The value of the key `<<` is a mapping, or a sequence of mappings, whose entries count where the
mapping and those before have none of the same name.

* `Yaml.Slot` says how the value of a field is taken over, `Yaml.fill` fills a record.
-/

set_option autoImplicit false
namespace ProofKernel
namespace Yaml

/-- How a value is taken over into a record. -/
inductive Slot (σ : Type) where
  | flag (put : σ → Bool → σ)
  | whole (put : σ → Int → σ)
  | text (put : σ → Text → σ)
  /-- A record within, with the name of its kind and its fields. -/
  | record (kind : String) (fields : List (String × Slot σ))

/-- The kind of value a slot takes, as errors call it. -/
def Slot.kind {σ : Type} : Slot σ → String
  | flag _ => "bool"
  | whole _ => "int"
  | text _ => "string"
  | record kind _ => kind

/-- A record being filled. -/
structure Filling (σ : Type) where
  value : σ
  /-- A line for each value of the wrong kind. -/
  errors : List Text := []
  /-- How many nodes have been looked at, and how many of them by a reference. -/
  seen : Nat := 0
  referred : Nat := 0

/-- A computation that fills a record. -/
abbrev Fill (σ : Type) : Type → Type := StateT (Filling σ) (Except Fault)

/-- The names that are taken, where entries are being merged. -/
abbrev Taken : Type := Option (List Text)

namespace Record

variable {σ : Type}

/-! ## Scalars -/

/-- The whole number of a floating-point number, its fraction dropped.  The first number past the
range wraps to the least, as every number below the range does. -/
def truncate? (x : Binary64) : Option Int :=
  let least : Int := -(Nat.pow 2 63 : Nat)
  if x.isNaN then none
  else
    match x.parts? with
    | none => if x.isNegative then some least else none
    | some (m, q) =>
      let size : Nat := if 0 ≤ q then m * Nat.pow 2 q.natAbs else m / Nat.pow 2 q.natAbs
      if x.isNegative then some (max least (-(size : Int)))
      else if size < Nat.pow 2 63 then some size
      else if size = Nat.pow 2 63 then some least
      else none

/-- Words that older versions of the format took for truth values. -/
def oldTruths : List (String × Bool) :=
  [("y", true), ("Y", true), ("yes", true), ("Yes", true), ("YES", true), ("on", true),
    ("On", true), ("ON", true), ("n", false), ("N", false), ("no", false), ("No", false),
    ("NO", false), ("off", false), ("Off", false), ("OFF", false)]

/-- A truth value. -/
def truth? : Value → Option Bool
  | .bool b => some b
  | .text word => oldTruths.lookup word
  | _ => none

/-- A whole number. -/
def whole? : Value → Option Int
  | .int n => if n < (Nat.pow 2 63 : Nat) then some n else none
  | .float x => truncate? x
  | _ => none

/-- The tag of bytes. -/
def bytesTag : String := "!!binary"

/-- The value of a scalar and its text. -/
def scalarValue (tag text : String) : Fill σ (Value × Text) := do
  if tag == bytesTag then
    match Base64.decode? text.toList with
    | some bytes =>
      let decoded := Symbol.decode bytes
      return (.text decoded.toString, decoded)
    | none => throw (.plain "!!binary value contains invalid base64 data")
  else
    match Value.ofTagged? tag text with
    | some value => return (value, Text.ofString text)
    | none =>
      let found := Value.ofWordWith (tag == "!!timestamp") text
      throw (.plain ("cannot decode " ++ found.tag ++ " \x60" ++ text ++ "\x60 as a " ++ tag))

/-! ## Errors -/

/-- Adds an error. -/
def report (line : Nat) (reason : Text) : Fill σ Unit :=
  modify fun f =>
    { f with errors := f.errors ++ [Text.ofString ("line " ++ toString line ++ ": ") ++ reason] }

/-- The text of a scalar as an error shows it: of a long one the first bytes. -/
def shown (text : String) : Text :=
  let bytes := text.toUTF8.toList
  if 10 < bytes.length then Symbol.decode (bytes.take 7) ++ Text.ofString "..."
  else Text.ofString text

/-- A node as an error names it: its tag, and the text of a scalar. -/
def describe : Node → Text
  | .scalar _ tag text => withText tag text
  | .sequence _ tag _ => withText tag ""
  | .mapping _ tag _ => withText tag ""
  | .alias .. => []
where
  /-- A tag, and a text unless the tag is that of sequences or mappings. -/
  withText (tag text : String) : Text :=
    if tag == Node.sequenceTag || tag == Node.mappingTag then Text.ofString tag
    else Text.ofString (tag ++ " \x60") ++ shown text ++ Text.ofString "\x60"

/-- The error of a node that is not of the kind that is needed. -/
def mismatch (node : Node) (wanted : String) : Fill σ Unit :=
  report node.line
    (Text.ofString "cannot unmarshal " ++ describe node ++ Text.ofString (" into " ++ wanted))

/-- The kind and the text by which two keys are compared. -/
def keyForm : Node → Nat × String
  | .scalar _ _ text => (0, text)
  | .sequence .. => (1, "")
  | .mapping .. => (2, "")
  | .alias _ name .. => (3, name)

/-- An error for each key that was given before. -/
def reportRepeated : List (Node × Node) → Fill σ Unit
  | [] => return
  | (key, _) :: rest => do
    for (other, _) in rest do
      if keyForm other == keyForm key then
        report other.line (Text.ofString
          ("mapping key " ++ quote (keyForm key).2 ++ " already defined at line " ++
            toString key.line))
    reportRepeated rest

/-- Whether a key was given twice; each time is an error. -/
def hasRepeated (entries : List (Node × Node)) : Fill σ Bool := do
  let before := (← get).errors.length
  reportRepeated entries
  return before < (← get).errors.length

/-! ## References -/

/-- Whether too many of the nodes have been looked at by references: of a small document almost all
may be, of a large one a tenth. -/
def isExcessive (seen referred : Nat) : Bool :=
  let low := 400000
  let high := 4000000
  100 < referred && 1000 < seen &&
    (if seen ≤ low then 99 * seen < 100 * referred
      else if high ≤ seen then seen < 10 * referred
      else seen * (99 * (high - low) - 89 * (seen - low)) < referred * (100 * (high - low)))

/-- Counts a node that is looked at, within the references of the given numbers. -/
def count (within : List Nat) : Fill σ Unit := do
  let f ← get
  let f := { f with
    seen := f.seen + 1
    referred := if within.isEmpty then f.referred else f.referred + 1 }
  set f
  if isExcessive f.seen f.referred then
    throw (.plain "document contains excessive aliasing")

/-- The node of a reference that is not within itself. -/
def follow (named : List (Nat × Node)) (within : List Nat) (name : String) (number target : Nat) :
    Fill σ Node :=
  if within.contains number then throw (.plain ("anchor '" ++ name ++ "' value contains itself"))
  else return (named.lookup target).getD (.empty 1)

/-! ## Keys -/

/-- The name a key stands for, if it stands for one. -/
def scalarName (tag text : String) : Fill σ (Option Text) := do
  let (value, name) ← scalarValue tag text
  return if value == .null then none else some name

/-- The name of a key.  A key that is no scalar is an error. -/
def keyName (named : List (Nat × Node)) (within : List Nat) (key : Node) :
    Fill σ (Option Text) := do
  count within
  match key with
  | .scalar _ tag text => scalarName tag text
  | .alias _ name number target => do
    let node ← follow named within name number target
    count (number :: within)
    match node with
    | .scalar _ tag text => scalarName tag text
    | _ => refused node
  | _ => refused key
where
  /-- The error of a key that is no scalar. -/
  refused (node : Node) : Fill σ (Option Text) := do
    let bad ← match node with
      | .mapping _ _ entries => hasRepeated entries
      | _ => pure false
    if !bad then mismatch node "string"
    return none

/-- The names of the keys of a mapping. -/
def keyNames (named : List (Nat × Node)) (within : List Nat) :
    List (Node × Node) → Fill σ (List Text)
  | [] => return []
  | (key, _) :: rest => do
    count within
    let name ← match key with
      | .scalar _ tag text => scalarName tag text
      | .alias _ name number target => do
        count (number :: within)
        match ← follow named within name number target with
        | .scalar _ tag text => scalarName tag text
        | _ => pure none
      | _ => pure none
    return name.toList ++ (← keyNames named within rest)

/-! ## Values -/

/-- Takes over a scalar.  Where nothing is written the record stays as it is. -/
def takeScalar (slot : Slot σ) (line : Nat) (tag text : String) : Fill σ Unit := do
  let (value, shown) ← scalarValue tag text
  let refused : Fill σ Unit := mismatch (.scalar line tag text) slot.kind
  if value == .null then return
  else
    match slot with
    | .flag put =>
      match truth? value with
      | some b => modify fun f => { f with value := put f.value b }
      | none => refused
    | .whole put =>
      match whole? value with
      | some n => modify fun f => { f with value := put f.value n }
      | none => refused
    | .text put => modify fun f => { f with value := put f.value shown }
    | .record .. => refused

/-- The fault of a merged value that is no mapping. -/
def unmergeable : Fault :=
  .plain "map merge requires map or sequence of maps as the value"

/-- Refuses a merged value that is no mapping and no reference to one. -/
def checkMerge (named : List (Nat × Node)) : Node → Fill σ Unit
  | .mapping .. => return
  | .alias _ _ _ target =>
    match named.lookup target with
    | some (.mapping ..) => return
    | _ => throw unmergeable
  | _ => throw unmergeable

mutual

/-- Takes over a node.  `taken` are the names that count no more, with those that are added. -/
def takeNode (named : List (Nat × Node)) :
    Nat → List Nat → Taken → Slot σ → Node → Fill σ Taken
  | 0, _, _, _, _ => throw (.plain "document contains excessive aliasing")
  | fuel + 1, within, taken, slot, node => do
    count within
    match node with
    | .alias _ name number target => do
      let target ← follow named within name number target
      takeNode named fuel (number :: within) taken slot target
    | .scalar line tag text => do
      takeScalar slot line tag text
      return taken
    | .sequence .. => do
      mismatch node slot.kind
      return taken
    | .mapping _ _ entries => do
      if ← hasRepeated entries then return taken
      else
        match slot with
        | .record kind fields =>
          let merge? := (entries.filter fun (key, _) => key.isMerge).getLast?
          let taken ← takeEntries named fuel within taken kind fields [] entries
          match merge? with
          | some (_, value) => do
            let names ← match taken with
              | some names => pure names
              | none => keyNames named within entries
            let merged ← takeMerged named fuel within names slot value
            return taken.map fun _ => merged
          | none => return taken
        | _ => do
          mismatch node slot.kind
          return taken

/-- Takes over entries.  `done` are the fields that are set. -/
def takeEntries (named : List (Nat × Node)) :
    Nat → List Nat → Taken → String → List (String × Slot σ) → List String → List (Node × Node) →
      Fill σ Taken
  | 0, _, _, _, _, _, _ => throw (.plain "document contains excessive aliasing")
  | _, _, taken, _, _, _, [] => return taken
  | fuel + 1, within, taken, kind, fields, done, (key, value) :: rest => do
    if key.isMerge then takeEntries named fuel within taken kind fields done rest
    else
      match ← keyName named within key with
      | none => takeEntries named fuel within taken kind fields done rest
      | some name =>
        if taken.any (·.contains name) then
          takeEntries named fuel within taken kind fields done rest
        else
          let taken := taken.map (name :: ·)
          match fields.find? fun (field, _) => Text.ofString field == name with
          | none => takeEntries named fuel within taken kind fields done rest
          | some (field, slot) =>
            if done.contains field then
              report key.line
                (Text.ofString ("field " ++ field ++ " already set in type " ++ kind))
              takeEntries named fuel within taken kind fields done rest
            else
              let _ ← takeNode named fuel within none slot value
              takeEntries named fuel within taken kind fields (field :: done) rest

/-- Takes over merged entries, where names count once. -/
def takeMerged (named : List (Nat × Node)) :
    Nat → List Nat → List Text → Slot σ → Node → Fill σ (List Text)
  | 0, _, _, _, _ => throw (.plain "document contains excessive aliasing")
  | fuel + 1, within, names, slot, node => do
    match node with
    | .sequence _ _ items => takeAll named fuel within names slot items
    | _ => do
      checkMerge named node
      return (← takeNode named fuel within (some names) slot node).getD names

/-- Takes over the merged entries of several mappings. -/
def takeAll (named : List (Nat × Node)) :
    Nat → List Nat → List Text → Slot σ → List Node → Fill σ (List Text)
  | 0, _, _, _, _ => throw (.plain "document contains excessive aliasing")
  | _, _, names, _, [] => return names
  | fuel + 1, within, names, slot, node :: rest => do
    checkMerge named node
    let names := (← takeNode named fuel within (some names) slot node).getD names
    takeAll named fuel within names slot rest

end

end Record

/-- Fills a record from a document.  The lines are those of the errors. -/
def fill {σ : Type} (slot : Slot σ) (value : σ) (document : Document) :
    Except Fault (σ × List Text) := do
  let (_, f) ← (Record.takeNode document.named document.size [] none slot document.root).run
    { value }
  return (f.value, f.errors)

end Yaml
end ProofKernel
