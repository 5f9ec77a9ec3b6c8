import ProofKernel.Text.Percent
import ProofKernel.Text.Class

/-!
# Media types

A media type is a name with parameters, such as `multipart/form-data; boundary=x`.  Other header
fields, such as the disposition of a part of a message, are written in the same way.

* `MediaType.read` reads one.
* `MediaType.parameter?` is the value of a parameter, which may come in pieces.
-/

set_option autoImplicit false
namespace ProofKernel

/-- A name in lower case with its parameters.  There are none when they cannot be read. -/
structure MediaType where
  name : String
  parameters : Option (List (String × Text))

namespace MediaType

/-! ## Words -/

/-- Characters that stand for themselves only between quotes. -/
def isSpecial (c : Char) : Bool :=
  "()<>@,;:\\\"/[]?=".toList.contains c

/-- Characters of words. -/
def isWordChar (c : Char) : Bool :=
  0x20 < c.toNat && c.toNat < 0x7F && !isSpecial c

/-- The word at the head of a text. -/
def word (text : Text) : Text :=
  text.takeWhile (·.holds isWordChar)

/-- A word in lower case. -/
def lower (text : Text) : String :=
  (Text.toString text).map Char.toLower

/-- A text without the blanks in front of it. -/
def skipBlank (text : Text) : Text :=
  text.dropWhile (·.holds isBlank)

theorem skipBlank_length (text : Text) : (skipBlank text).length ≤ text.length :=
  (List.dropWhile_suffix _).length_le

/-- What follows a character at the head of a text, past the blanks around it. -/
def after? (c : Char) (text : Text) : Option Text :=
  match skipBlank text with
  | s :: rest => if s.is c then some (skipBlank rest) else none
  | [] => none

theorem after?_length {c : Char} {text rest : Text} (h : after? c text = some rest) :
    rest.length < text.length := by
  unfold after? at h
  have := skipBlank_length text
  split at h
  · next s tail heq =>
    have := skipBlank_length tail
    simp only [heq, List.length_cons] at *
    grind
  · simp at h

/-- The text up to a closing quote, and what follows.  A backslash takes away the meaning of a
special character; before any other it stands for itself. -/
def quoted : Text → Option (Text × Text)
  | [] => none
  | s :: rest =>
    if s.is '"' then some ([], rest)
    else if s.is '\r' || s.is '\n' then none
    else
      match rest with
      | [] => none
      | t :: more =>
        if s.is '\\' && t.holds isSpecial then
          (quoted more).map fun (text, rest) => (t :: text, rest)
        else (quoted (t :: more)).map fun (text, rest) => (s :: text, rest)
termination_by text => text.length

/-- A value: a word, or a text between quotes. -/
def value? (text : Text) : Option (Text × Text) :=
  match text with
  | [] => none
  | s :: rest =>
    if s.is '"' then quoted rest
    else
      let w := word text
      if w.isEmpty then none else some (w, text.drop w.length)

theorem quoted_length {text value rest : Text} (h : quoted text = some (value, rest)) :
    rest.length < text.length := by
  fun_induction quoted text generalizing value rest <;> grind [Option.map_eq_some_iff]

theorem value?_length {text value rest : Text} (h : value? text = some (value, rest)) :
    rest.length ≤ text.length := by
  unfold value? at h
  split at h
  · simp at h
  · split at h
    · exact Nat.le_succ_of_le (Nat.le_of_lt (quoted_length h))
    · grind

/-! ## Parameters -/

/-- The parameter at the head of a text, with its name and its value, and what follows. -/
def parameter (text : Text) : Option (String × Text × Text) := do
  let text ← after? ';' text
  let name := word text
  if name.isEmpty then none
  else
    let text ← after? '=' (text.drop name.length)
    let (value, rest) ← value? text
    return (lower name, value, rest)

theorem parameter_length {text value rest : Text} {name : String}
    (h : parameter text = some (name, value, rest)) : rest.length < text.length := by
  simp only [parameter, Option.bind_eq_bind, Option.bind_eq_some_iff] at h
  obtain ⟨t, ht, h⟩ := h
  split at h
  · simp at h
  · simp only [Option.bind_eq_some_iff, Prod.exists] at h
    obtain ⟨u, hu, v, r, hv, he⟩ := h
    have h₁ := after?_length ht
    have h₂ := after?_length hu
    have h₃ := value?_length hv
    simp only [pure, Option.some.injEq, Prod.mk.injEq] at he
    obtain ⟨-, -, rfl⟩ := he
    simp only [List.length_drop] at h₂
    omega

/-- Why parameters cannot be used. -/
inductive Fault where
  | malformed
  /-- The same parameter has two values. -/
  | contradictory

/-- Reads parameters, after those that were `seen`.  A semicolon may follow the last. -/
def readParameters (seen : List (String × Text)) (text : Text) :
    Except Fault (List (String × Text)) :=
  match _h : parameter text with
  | none =>
    if (skipBlank text).isEmpty || after? ';' text == some [] then .ok seen
    else .error .malformed
  | some (name, value, rest) =>
    match seen.lookup name with
    | none => readParameters (seen ++ [(name, value)]) rest
    | some other => if other == value then readParameters seen rest else .error .contradictory
termination_by text.length
decreasing_by all_goals exact parameter_length _h

/-- Whether a text is a word, or two words with a slash between them. -/
def isName (text : Text) : Bool :=
  let first := word text
  !first.isEmpty &&
    match text.drop first.length with
    | [] => true
    | s :: second => s.is '/' && !second.isEmpty && second.all (·.holds isWordChar)

/-- Reads a media type.  There is none where the name is malformed, or parameters contradict one
another. -/
def read (text : Text) : Option MediaType :=
  let base := text.takeWhile (!·.is ';')
  let name := ((skipBlank base).reverse.dropWhile (·.holds isBlank)).reverse
  if !isName name then none
  else
    match readParameters [] (text.drop base.length) with
    | .ok parameters => some ⟨lower name, some parameters⟩
    | .error .malformed => some ⟨lower name, none⟩
    | .error .contradictory => none

/-! ## Values in pieces

A parameter `name*` has a value with a character set in front, and percent signs.  A long value
comes in pieces `name*0`, `name*1` and so on. -/

/-- The text up to a single quote, and what follows it. -/
def cutQuote? (text : Text) : Option (Text × Text) :=
  match text.dropWhile (!·.is '\'') with
  | _ :: rest => some (text.takeWhile (!·.is '\''), rest)
  | [] => none

/-- A value with its character set and its language in front. -/
def extended? (text : Text) : Option Text := do
  let (set, text) ← cutQuote? text
  let (_, text) ← cutQuote? text
  guard (lower set == "us-ascii" || lower set == "utf-8")
  Percent.decode text

/-- The pieces of a value from a number on. -/
def pieces (parameters : List (String × Text)) (name : String) (number : Nat) : Nat → List Text
  | 0 => []
  | fuel + 1 =>
    let key := name ++ "*" ++ toString number
    match parameters.lookup key, parameters.lookup (key ++ "*") with
    | some value, _ => value :: pieces parameters name (number + 1) fuel
    | none, some value =>
      let decoded := if number == 0 then extended? value else Percent.decode value
      decoded.getD [] :: pieces parameters name (number + 1) fuel
    | none, none => []

/-- The value of a parameter. -/
def parameter? (m : MediaType) (name : String) : Option Text :=
  let parameters := m.parameters.getD []
  let plain := parameters.lookup name
  match parameters.lookup (name ++ "*") with
  | some value => (extended? value).or plain
  | none =>
    match pieces parameters name 0 parameters.length with
    | [] => plain
    | all => some all.flatten

end MediaType

end ProofKernel
