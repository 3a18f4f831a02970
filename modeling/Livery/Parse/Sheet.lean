import Livery.Parse.Rule
import Livery.Style.Sheet

/-!
# Reading sheets

A sheet is read rule by rule: an optional character set, imports, and then rules of every other
kind.  Rules of unknown kinds are skipped.  Reading ends with the text or at the first fault that no
rule recovered from; the rules in front of it are kept.

## Main definitions

* `Parse.topRule`: the next rule, put into a sheet.
* `Parse.sheetRules`: all rules.
* `Reading`: a sheet, whether it was read to its end, and the last fault that was noted.
* `SyntaxError`: the fault that ended a reading, and `SyntaxError.message`.
* `Source.parse`: reading a text into a sheet.
-/

namespace Livery.Parse

/-- The symbols behind blanks, comments and markup. -/
def skipMarkup (symbols : List Symbol) : List Symbol :=
  symbols.dropWhile fun s => s.kind == .space || s.kind == .markupOpen || s.kind == .markupClose

/-- Whether a symbol is an at-keyword with the given ending, in any case. -/
def isAtKeyword (ending : String) (s : Symbol) : Bool :=
  s.kind == .atKeyword && ending.toList.isSuffixOf (Text.fold s.lexeme.toList)

/-! ## Rules at the top -/

/-- The kinds of rule that can stand at the top of a sheet, behind the imports. -/
inductive Top where
  | definitions
  | media
  | page
  | style
  /-- A rule with another keyword. -/
  | other
  deriving Repr, DecidableEq, Inhabited

/-- The kind of rule that starts with a symbol. -/
def top? (s : Symbol) : Option Top :=
  if isAtKeyword "variables" s then some .definitions
  else if isAtKeyword "media" s then some .media
  else if isAtKeyword "page" s then some .page
  else if startsCompound s.kind then some .style
  else if s.kind == .atKeyword then some .other
  else none

/-- The sheet with the next rule, whose first symbol is given apart. -/
def topRule (folder : Option Location) (sheet : Sheet) (first : Symbol) (symbols : List Symbol) :
    Except Fault (Progress Sheet) :=
  match top? first with
  | some .definitions => do
    let rule ← variableRule folder symbols
    .ok ⟨{ sheet with variableRules := sheet.variableRules ++ [rule.value] }, rule.mark, rule.rest⟩
  | some .media => do
    let rule ← media folder symbols
    .ok ⟨{ sheet with mediaRules := sheet.mediaRules ++ [rule.value] }, rule.mark, rule.rest⟩
  | some .page => do
    let (rule, rest) ← page folder symbols
    .ok ⟨{ sheet with pageRules := sheet.pageRules ++ [rule] }, none, rest⟩
  | some .style => do
    let rule ← ruleset folder first symbols
    .ok ⟨sheet.fileRule rule.value, rule.mark, rule.rest⟩
  | some .other =>
    let search := seek .rightBrace .flat symbols
    if search.found then .ok ⟨sheet, none, search.rest⟩ else .error ⟨none, search.rest⟩
  | none => .error (faultAt (first :: symbols))

theorem length_skipMarkup_le (symbols : List Symbol) :
    (skipMarkup symbols).length ≤ symbols.length :=
  (List.dropWhile_suffix _).length_le

theorem length_topRule_le {folder : Option Location} {sheet : Sheet} {first : Symbol}
    {symbols : List Symbol} {p : Progress Sheet}
    (h : topRule folder sheet first symbols = .ok p) : p.rest.length ≤ symbols.length := by
  unfold topRule at h
  split at h
  · obtain ⟨rule, hrule, h⟩ := ok_of_bind h
    cases h
    exact length_variableRule_le hrule
  · obtain ⟨rule, hrule, h⟩ := ok_of_bind h
    cases h
    exact length_media_le hrule
  · obtain ⟨⟨rule, rest⟩, hrule, h⟩ := ok_of_bind h
    cases h
    exact within_page _ _ hrule
  · obtain ⟨rule, hrule, h⟩ := ok_of_bind h
    cases h
    exact length_ruleset_le hrule
  · dsimp only at h
    split at h
    · cases h
      exact length_seek_le _ _ _
    · cases h
  · cases h

end Livery.Parse

namespace Livery

/-- A sheet as far as it was read. -/
structure Reading where
  sheet : Sheet
  /-- The position of the last fault, if one was noted. -/
  mark : Option Nat
  /-- The symbols that were not taken, if the reading failed. -/
  stopped : Option (List Symbol)
  deriving Inhabited

end Livery

namespace Livery.Parse

/-- The reading that ends in a fault. -/
def stop (sheet : Sheet) (mark : Option Nat) (fault : Fault) : Reading :=
  ⟨sheet, fault.mark.or mark, some fault.rest⟩

/-- The rules of a sheet from some place behind the imports on. -/
def sheetRules (folder : Option Location) (sheet : Sheet) (mark : Option Nat)
    (symbols : List Symbol) : Reading :=
  match symbols with
  | [] => ⟨sheet, mark, none⟩
  | first :: more =>
    match _read : topRule folder sheet first more with
    | .error fault => stop sheet mark fault
    | .ok p => sheetRules folder p.value (p.mark.or mark) (skipMarkup p.rest)
termination_by symbols.length
decreasing_by
  have h₁ := length_topRule_le _read
  have h₂ := length_skipMarkup_le p.rest
  rw [List.length_cons]
  omega

/-- The imports of a sheet and the rules behind them. -/
def importsAndRules (folder : Option Location) (sheet : Sheet) (symbols : List Symbol) : Reading :=
  match symbols with
  | [] => ⟨sheet, none, none⟩
  | first :: more =>
    if isAtKeyword "import" first then
      match _read : importRule more with
      | .error fault => stop sheet none fault
      | .ok (rule, rest) =>
        importsAndRules folder { sheet with importRules := sheet.importRules ++ [rule] }
          (skipMarkup rest)
    else sheetRules folder sheet none (first :: more)
termination_by symbols.length
decreasing_by
  have h₁ := within_importRule _ _ _read
  have h₂ := length_skipMarkup_le rest
  rw [List.length_cons]
  omega

/-- The symbols behind the character set, if a sheet starts with one. -/
def charset : List Symbol → Except Fault (Unit × List Symbol)
  | [] => .ok ((), [])
  | first :: more =>
    if isAtKeyword "charset" first then do
      let (_, rest) ← expect .string (skipMarkup more)
      let (_, rest) ← expect .semicolon rest
      .ok ((), rest)
    else .ok ((), first :: more)

/-- Reads symbols into a sheet. -/
def intoSheet (folder : Option Location) (sheet : Sheet) (symbols : List Symbol) : Reading :=
  match charset symbols with
  | .error fault => stop sheet none fault
  | .ok (_, rest) => importsAndRules folder sheet (skipMarkup rest)

end Livery.Parse

namespace Livery

/-- The fault that ended the reading of a sheet. -/
structure SyntaxError where
  /-- The position of the symbol at fault among all symbols. -/
  index : Nat
  /-- The symbol at fault; there is none behind the end of the text. -/
  symbol : Option Symbol
  deriving Repr, Inhabited

namespace SyntaxError

/-- The class of the symbol at fault, in capitals. -/
def token (e : SyntaxError) : String :=
  match e.symbol with
  | some s => s.kind.capitals
  | none => "NONE"

/-- The text of the symbol at fault. -/
def lexeme (e : SyntaxError) : String :=
  match e.symbol with
  | some s => s.lexeme
  | none => ""

/-- The wording of a syntax error. -/
def message (e : SyntaxError) : String :=
  "syntax error at symbol " ++ toString e.index ++ " (" ++ e.token ++ "): " ++ Text.quoted e.lexeme

end SyntaxError

/-- Reads a source into a sheet, behind the rules that are in it. The folder is that of the file
from which the source came. -/
def Source.parse (source : Source) (sheet : Sheet) (folder : Option Location) : Reading :=
  Parse.intoSheet folder sheet source.symbols

/-- The index of a position that is counted from the end of a source. -/
def Source.index (source : Source) (position : Nat) : Nat :=
  source.symbols.length - position

/-- The error that ended a reading of a source. It lies at the last fault that was noted, or else
where the reading stopped. -/
def Reading.error? (reading : Reading) (source : Source) : Option SyntaxError :=
  reading.stopped.map fun rest =>
    let index := source.index (reading.mark.getD rest.length)
    ⟨index, source.symbols[index]?⟩

/-- Reads a text that came from no file into a new sheet. -/
def Sheet.ofString (text : String) (storage : Storage) : Except SyntaxError Sheet :=
  let source := Source.ofString text
  let reading := source.parse { storage } none
  match reading.error? source with
  | some e => .error e
  | none => .ok reading.sheet

end Livery
