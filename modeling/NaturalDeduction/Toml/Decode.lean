import NaturalDeduction.Toml.Reader

/-!
# The form of TOML values

A text that is TOML may still not be what its reader asks for. The functions here take a value of
one form out of a `Value`, or say how it differs.

A record is a table whose keys are all known. It may also be written as an array of its fields in
their order; elements behind the last field are not looked at.

## Main definitions

* `Misfit`: how a value differs from the form that is asked for
* `Value.fields`, `required`, `optional`: the fields of a record
* `read`: a text as what a decoding of its table makes of it
-/

namespace NaturalDeduction.Toml

/-- The forms that a value may be asked to have. -/
inductive Form where
  | string
  | boolean
  | natural
  | array
  | record
  | calculus
deriving DecidableEq, Repr

/-- The form in words. -/
def Form.text : Form → String
  | string => "a string"
  | boolean => "true or false"
  | natural => "an integer that is not negative"
  | array => "an array"
  | record => "a table"
  | calculus => "the name of a calculus"

/-- How a value differs from the form that is asked for. -/
inductive Misfit where
  | form (expected : Form)
  | unknownKey (key : String)
  | missingKey (key : String)
deriving DecidableEq, Repr

/-- The difference in words. -/
def Misfit.message : Misfit → String
  | form expected => s!"{expected.text} was expected"
  | unknownKey key => s!"the key `{key}` is not known"
  | missingKey key => s!"the key `{key}` is missing"

namespace Value

/-- The text of a string. -/
def toText : Value → Except Misfit String
  | .string s => .ok s
  | _ => .error (.form .string)

/-- The value of a Boolean. -/
def toBool : Value → Except Misfit Bool
  | .boolean b => .ok b
  | _ => .error (.form .boolean)

/-- The value of an integer that is not negative. -/
def toNat : Value → Except Misfit Nat
  | .integer (.ofNat n) => .ok n
  | _ => .error (.form .natural)

/-- What the elements of an array are decoded to. -/
def toListOf {α : Type} (decode : Value → Except Misfit α) : Value → Except Misfit (List α)
  | .array elements => elements.mapM decode
  | _ => .error (.form .array)

/-- The fields of a record by their names. Of a record that is written as an array, the first
`positional` fields must be there. -/
def fields (names : List String) (positional : Nat) : Value → Except Misfit (List (String × Value))
  | .table entries =>
    match entries.find? fun entry => !names.contains entry.1 with
    | some entry => .error (.unknownKey entry.1)
    | none => .ok entries
  | .array elements =>
    if elements.length < positional then .error (.missingKey (names.getD elements.length ""))
    else .ok (names.zip elements)
  | _ => .error (.form .record)

end Value

/-- A field that must be there. -/
def required {α : Type} (decode : Value → Except Misfit α) (fields : List (String × Value))
    (name : String) : Except Misfit α :=
  match fields.lookup name with
  | none => .error (.missingKey name)
  | some value => decode value

/-- A field that may be left out. -/
def optional {α : Type} (decode : Value → Except Misfit α) (fields : List (String × Value))
    (name : String) : Except Misfit (Option α) :=
  match fields.lookup name with
  | none => .ok none
  | some value => (decode value).map some

/-! ### Texts -/

/-- Why a text is not what its reader asks for. -/
inductive Refusal where
  | fault (fault : Fault)
  | misfit (misfit : Misfit)
deriving DecidableEq, Repr

/-- The reason in words. -/
def Refusal.message : Refusal → String
  | fault f => f.message
  | misfit m => m.message

/-- What a decoding makes of the table that a text defines. -/
def read {α : Type} (decode : Value → Except Misfit α) (text : String) : Except Refusal α :=
  match parse text with
  | .error fault => .error (.fault fault)
  | .ok table => (decode table).mapError .misfit

end NaturalDeduction.Toml
