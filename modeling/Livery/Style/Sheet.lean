import Livery.Style.Rule
import Livery.Location

/-!
# Sheets

A sheet holds the rules that were read from one source.  Its style rules lie in buckets, one for
each class, in the order of the class names.

## Main definitions

* `Sheet`: the rules of one source.
* `Sheet.bucket?`: the rules for a class.
* `Sheet.addRule`, `Sheet.fileRule`: how style rules come into a sheet.
-/

namespace Livery

/-- Who holds the rules of a sheet. -/
inductive Storage where
  /-- One owner alone. -/
  | heap
  /-- A pool, for several owners. -/
  | shared
  deriving Repr, DecidableEq, Inhabited

/-- The label of a storage. -/
def Storage.label : Storage → String
  | heap => "Heap"
  | shared => "Shared"

/-- The part that a sheet has in the cascade. -/
inductive SheetOrigin where
  | unspecified
  | userAgent
  | user
  | author
  | inline
  deriving Repr, DecidableEq, Inhabited

/-- The label of an origin. -/
def SheetOrigin.label : SheetOrigin → String
  | unspecified => "Unspecified"
  | userAgent => "UserAgent"
  | user => "User"
  | author => "Author"
  | inline => "Inline"

/-- The rules of one source. -/
structure Sheet where
  storage : Storage := .heap
  variableRules : List VariableRule := []
  /-- The buckets of the classes that have style rules, in the order of the class names. -/
  buckets : List Bucket := []
  mediaRules : List MediaRule := []
  pageRules : List PageRule := []
  importRules : List ImportRule := []
  origin : SheetOrigin := .unspecified
  /-- How deep an inline sheet is nested. -/
  depth : Int := 0
  fileName : Option String := none
  deriving Repr, Inhabited

/-- The buckets with one more rule in that of a class. -/
def Bucket.insert (className : String) (rule : StyleRule) : List Bucket → List Bucket
  | [] => [({ className } : Bucket).add rule]
  | bucket :: rest =>
    if className == bucket.className then bucket.add rule :: rest
    else if className < bucket.className then ({ className } : Bucket).add rule :: bucket :: rest
    else bucket :: insert className rule rest

namespace Sheet

/-- The rules for a class. -/
def bucket? (sheet : Sheet) (className : String) : Option Bucket :=
  sheet.buckets.find? fun bucket => bucket.className == className

/-- Files a rule under a class. -/
def addRule (sheet : Sheet) (className : String) (rule : StyleRule) : Sheet :=
  { sheet with buckets := Bucket.insert className rule sheet.buckets }

/-- Files a rule once for each of its selectors, under the class of that selector. -/
def fileRule (sheet : Sheet) (rule : StyleRule) : Sheet :=
  rule.selectors.foldl
    (fun filed selector => filed.addRule selector.bucketName ⟨[selector], rule.declarations⟩) sheet

/-- The definitions of variables, in their order. -/
def definitions (sheet : Sheet) : List Declaration :=
  sheet.variableRules.flatMap VariableRule.declarations

/-- The number of style rules, those for a medium included. -/
def ruleCount (sheet : Sheet) : Nat :=
  (sheet.buckets.map Bucket.size).foldr (· + ·) 0
    + (sheet.mediaRules.flatMap MediaRule.rules).length

end Sheet

end Livery
