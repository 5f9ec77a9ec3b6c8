import ProofKernel.Text.Percent

/-!
# Forms

The fields of a form, each a name with a value.  A name may come more than once.

On one line they are written `name=value` and divided by `&`, with a plus sign for a blank and every
other byte that is special behind a percent sign.

* `Form.value` is the first value of a field.
* `Form.ofUrlEncoded` reads such a line.

Fields that cannot be read are left out, and so are those with a semicolon, which older senders
meant as a divider.
-/

set_option autoImplicit false
namespace ProofKernel

/-- The fields of a form, in the order they were given. -/
abbrev Form : Type := List (Text × Text)

/-- The first value of a field; empty when the field is not there. -/
def Form.value (form : Form) (name : String) : Text :=
  (form.lookup (Text.ofString name)).getD []

namespace Form

/-- A name or a value. -/
def component (text : Text) : Option Text :=
  Percent.decode (text.map fun s => if s.is '+' then .char ' ' else s)

/-- A field.  Without an equals sign the value is empty. -/
def urlEncodedField (piece : Text) : Option (Text × Text) :=
  if piece.isEmpty || piece.any (·.is ';') then none
  else do
    let name ← component (piece.takeWhile (!·.is '='))
    let value ← component ((piece.dropWhile (!·.is '=')).drop 1)
    return (name, value)

/-- The fields on a line. -/
def ofUrlEncoded (line : Text) : Form :=
  (line.splitOn (.char '&')).filterMap urlEncodedField

end Form
end ProofKernel
