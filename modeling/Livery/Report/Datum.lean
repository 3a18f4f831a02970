import Livery.Decimal.Layout
import Livery.Text.Quoted
import Livery.Text.Wording

/-!
# Showing records

What the engine computes is shown in two forms: as a listing for people and as JSON for programs.
Both are written from one description of the data, which says what a record holds and what its parts
are called.

## Main definitions

* `Datum`: a description of data.
* `Datum.listing`: the listing of a datum.
* `Datum.json`: the JSON text of a datum.
-/

namespace Livery

/-- A description of data. -/
inductive Datum where
  /-- An optional part that is missing. -/
  | absent
  /-- An optional part that is there. -/
  | present (d : Datum)
  | flag (b : Bool)
  | integer (n : Int)
  | real (x : Float)
  | text (s : String)
  /-- One of a fixed set of labels. -/
  | unit (label : String)
  | list (items : List Datum)
  /-- A fixed number of items without names. -/
  | tuple (items : List Datum)
  | record (name : String) (fields : List (String × Datum))
  /-- A datum under a name of its own, which JSON does not show. -/
  | wrapped (name : String) (d : Datum)
  /-- A label with a datum. -/
  | tagged (label : String) (d : Datum)
  /-- A label with fields. -/
  | variant (label : String) (fields : List (String × Datum))
  deriving Repr, Inhabited

/-- How a description is read off a value. -/
class Described (α : Type) where
  describe : α → Datum

export Described (describe)

instance : Described Bool := ⟨.flag⟩
instance : Described Nat := ⟨fun n => .integer n⟩
instance : Described Int := ⟨.integer⟩
instance : Described Float := ⟨.real⟩
instance : Described String := ⟨.text⟩

instance {α : Type} [Described α] : Described (Option α) where
  describe
    | some a => .present (describe a)
    | none => .absent

instance {α : Type} [Described α] : Described (List α) :=
  ⟨fun items => .list (items.map describe)⟩

namespace Datum

/-- A new line with blanks in front of what follows. -/
def newline (indent : Nat) : String :=
  "\n" ++ String.ofList (List.replicate indent ' ')

/-! ## Listings -/

/-- An entry of a listing on a line of its own. -/
def entry (indent : Nat) (body : String) : String :=
  newline (indent + 4) ++ body ++ ","

/-- Entries between an opening and a closing mark. -/
def enclosed (indent : Nat) (opening closing : String) (entries : List String) : String :=
  if entries.isEmpty then opening ++ closing
  else opening ++ String.join (entries.map (entry indent)) ++ newline indent ++ closing

mutual

/-- The listing of a datum whose last line is indented by `indent`. -/
def listingAt (indent : Nat) : Datum → String
  | absent => "None"
  | present d => enclosed indent "Some(" ")" [listingAt (indent + 4) d]
  | flag b => if b then "true" else "false"
  | integer n => toString n
  | real x => Decimal.Layout.listing.write x
  | text s => Text.quoted s
  | .unit label => label
  | list items => enclosed indent "[" "]" (listingItems (indent + 4) items)
  | .tuple items => enclosed indent "(" ")" (listingItems (indent + 4) items)
  | record name fields =>
    enclosed indent (name ++ " \x7b") "\x7d" (listingFields (indent + 4) fields)
  | wrapped name d => enclosed indent (name ++ "(") ")" [listingAt (indent + 4) d]
  | tagged label d => enclosed indent (label ++ "(") ")" [listingAt (indent + 4) d]
  | variant label fields =>
    enclosed indent (label ++ " \x7b") "\x7d" (listingFields (indent + 4) fields)

/-- The listings of items. -/
def listingItems (indent : Nat) : List Datum → List String
  | [] => []
  | d :: rest => listingAt indent d :: listingItems indent rest

/-- The listings of fields behind their names. -/
def listingFields (indent : Nat) : List (String × Datum) → List String
  | [] => []
  | (name, d) :: rest => (name ++ ": " ++ listingAt indent d) :: listingFields indent rest

end

/-- The listing of a datum. -/
def listing (d : Datum) : String :=
  d.listingAt 0

/-! ## JSON -/

/-- How a character is written in a JSON string. -/
def jsonChar (c : Char) : String :=
  if c == '"' then "\\\""
  else if c == '\\' then "\\\\"
  else if c == '\n' then "\\n"
  else if c == '\r' then "\\r"
  else if c == '\t' then "\\t"
  else if c == '\x08' then "\\b"
  else if c == '\x0c' then "\\f"
  else if c.toNat < 0x20 then
    "\\u00" ++ String.ofList (Nat.toDigits 16 (c.toNat / 16) ++ Nat.toDigits 16 (c.toNat % 16))
  else String.singleton c

/-- A JSON string. -/
def jsonString (s : String) : String :=
  "\"" ++ String.join (s.toList.map jsonChar) ++ "\""

/-- Parts between an opening and a closing mark, each on a line of its own. -/
def jsonEnclosed (indent : Nat) (opening closing : String) (parts : List String) : String :=
  if parts.isEmpty then opening ++ closing
  else
    opening ++ newline (indent + 2) ++ Text.join ("," ++ newline (indent + 2)) parts
      ++ newline indent ++ closing

mutual

/-- The JSON text of a datum whose last line is indented by `indent`. -/
def jsonAt (indent : Nat) : Datum → String
  | absent => "null"
  | present d => jsonAt indent d
  | flag b => if b then "true" else "false"
  | integer n => toString n
  | real x => if x.isNaN || x.isInf then "null" else Decimal.Layout.json.write x
  | text s => jsonString s
  | .unit label => jsonString label
  | list items => jsonEnclosed indent "[" "]" (jsonItems (indent + 2) items)
  | .tuple items => jsonEnclosed indent "[" "]" (jsonItems (indent + 2) items)
  | record _ fields => jsonEnclosed indent "\x7b" "\x7d" (jsonFields (indent + 2) fields)
  | wrapped _ d => jsonAt indent d
  | tagged label d =>
    jsonEnclosed indent "\x7b" "\x7d" [jsonString label ++ ": " ++ jsonAt (indent + 2) d]
  | variant label fields =>
    jsonEnclosed indent "\x7b" "\x7d"
      [jsonString label ++ ": "
        ++ jsonEnclosed (indent + 2) "\x7b" "\x7d" (jsonFields (indent + 4) fields)]

/-- The JSON texts of items. -/
def jsonItems (indent : Nat) : List Datum → List String
  | [] => []
  | d :: rest => jsonAt indent d :: jsonItems indent rest

/-- The JSON texts of fields behind their names. -/
def jsonFields (indent : Nat) : List (String × Datum) → List String
  | [] => []
  | (name, d) :: rest => (jsonString name ++ ": " ++ jsonAt indent d) :: jsonFields indent rest

end

/-- The JSON text of a datum. -/
def json (d : Datum) : String :=
  d.jsonAt 0

end Datum

end Livery
