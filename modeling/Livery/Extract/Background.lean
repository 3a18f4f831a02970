import Livery.Extract.Environment
import Livery.Style.Readings

/-!
# Backgrounds and images

What is painted behind the content of a widget, and the image in front of it.  The shorthand for the
background takes its parts in any order.

## Main definitions

* `BackgroundValues`, `Environment.background`: the background that declarations ask for.
* `ImageValues`, `image`: the image that declarations ask for.
-/

namespace Livery

/-- What is painted behind the content. -/
structure BackgroundValues where
  brush : Brush := .none
  image : String := ""
  repetition : Repeat := .unknown
  alignment : Alignment := .none
  origin : Origin := .unknown
  attachment : Attachment := .unknown
  clip : Origin := .unknown
  deriving Repr, Inhabited

/-- An image in front of the background. -/
structure ImageValues where
  image : String := ""
  alignment : Alignment := .none
  deriving Repr, Inhabited

/-- The repetition that a value names. -/
def Value.repetition (value : Value) : Repeat :=
  match value.text? with
  | some text => Repeat.table.get text
  | none => .unknown

/-- Whether a keyword is a side or the centre. -/
def Keyword.isPlace : Keyword → Bool
  | .left | .right | .top | .bottom | .center => true
  | _ => false

namespace Environment

/-- The background with a part of the shorthand that is an image, transparency or a repetition. -/
def backgroundPart? (value : Value) (b : BackgroundValues) : Option BackgroundValues :=
  match value with
  | .uri reference => some { b with image := reference }
  | .keyword .none _ => some { b with image := "" }
  | .keyword .transparent _ => some { b with brush := .solid .transparent }
  | _ =>
    match value.repetition with
    | .unknown => none
    | repetition => some { b with repetition := repetition }

/-- The keyword in front of a row of values, if there is one. -/
def leadingKeyword : List Value → List Value
  | .keyword id written :: _ => [.keyword id written]
  | _ => []

/-- The background with the parts of a shorthand. A keyword behind a place belongs to the place, and
what is nothing else is a brush. -/
def backgroundParts (env : Environment) : List Value → BackgroundValues → BackgroundValues
  | [], b => b
  | value :: rest, b =>
    match backgroundPart? value b with
    | some changed => env.backgroundParts rest changed
    | none =>
      if value.known.isPlace then
        let further := leadingKeyword rest
        env.backgroundParts (rest.drop further.length)
          { b with alignment := .ofValues (value :: further) }
      else env.backgroundParts rest { b with brush := env.brush value }
termination_by values => values.length
decreasing_by all_goals simp +arith [List.length_drop]

/-- What a declaration says about the background. -/
def backgroundOf (env : Environment) (d : Declaration) :
    Option (BackgroundValues → BackgroundValues) :=
  match d.id with
  | .backgroundColor => some fun b => { b with brush := env.firstBrush d }
  | .backgroundImage => some fun b => { b with image := d.uri?.getD "" }
  | .backgroundRepeat => some fun b => { b with repetition := d.repetition }
  | .backgroundPosition => some fun b => { b with alignment := d.alignment }
  | .backgroundOrigin => some fun b => { b with origin := d.origin }
  | .backgroundAttachment => some fun b => { b with attachment := d.attachment }
  | .backgroundClip => some fun b => { b with clip := d.origin }
  | .background => some (env.backgroundParts d.values)
  | _ => none

/-- The background that declarations ask for. -/
def background (env : Environment) :
    List Declaration → BackgroundValues → Bool × BackgroundValues :=
  collect env.backgroundOf

end Environment

/-! ## Images -/

/-- What a declaration says about the image. -/
def imageOf (d : Declaration) : Option (ImageValues → ImageValues) :=
  match d.id with
  | .image =>
    some fun i => { i with image := (d.uri?.or ((d.values.head?).bind Value.text?)).getD "" }
  | .imagePosition => some fun i => { i with alignment := d.alignment }
  | _ => none

/-- The image that declarations ask for. -/
def image : List Declaration → ImageValues → Bool × ImageValues :=
  collect imageOf

end Livery
