import Livery.Report.Datum
import Livery.Style.Sheet

/-!
# Descriptions of sheets

What a sheet, its rules, selectors, declarations and values show of themselves.
-/

namespace Livery

/-! ## Values and declarations -/

instance : Described Color where
  describe c := .record "Color"
    [("r", .integer c.r.toNat), ("g", .integer c.g.toNat), ("b", .integer c.b.toNat),
      ("a", .integer c.a.toNat)]

instance : Described PseudoClass where
  describe p := .wrapped "PseudoClass" (.integer p.bits.toNat)

/-- The label of a kind of value. -/
def Value.kindLabel : Value → String
  | .unknown => "Unknown"
  | .number _ => "Number"
  | .percentage _ => "Percentage"
  | .length _ => "Length"
  | .string _ => "String"
  | .identifier _ => "Identifier"
  | .keyword _ _ => "KnownIdentifier"
  | .uri _ => "Uri"
  | .color _ => "Color"
  | .function _ _ => "Function"
  | .slash => "TermOperatorSlash"
  | .comma => "TermOperatorComma"
  | .variable _ => "Variable"
  | .negatedVariable _ => "VariableNegative"
  | .expression _ => "Expression"
  | .negatedExpression _ => "ExpressionNegative"

/-- What a value carries, if it carries anything. -/
def Value.payload? : Value → Option Datum
  | .unknown | .slash | .comma => none
  | .number x | .percentage x => some (.real x)
  | .keyword id written =>
    some (.record "" [("id", .unit id.label), ("original", .text written)])
  | .color c => some (describe c)
  | .function name args => some (.record "" [("name", .text name), ("args", .text args)])
  | .length text | .string text | .identifier text | .uri text | .variable text
  | .negatedVariable text | .expression text | .negatedExpression text => some (.text text)

instance : Described Value where
  describe v := .record "Value"
    (("type", .unit v.kindLabel) ::
      match v.payload? with
      | some d => [("value", d)]
      | none => [])

instance : Described Declaration where
  describe d := .record "Declaration"
    [("property", .text d.property), ("property_id", .unit d.id.label),
      ("values", describe d.values), ("important", .flag d.important)]

/-! ## Selectors -/

instance : Described Pseudo where
  describe p := .record "Pseudo"
    [("negated", .flag p.negated), ("kind", describe p.kind), ("name", .text p.name),
      ("function", .text p.function)]

instance : Described AttributeTest where
  describe t := .record "AttributeSelector"
    [("name", .text t.name), ("value", .text t.value), ("match_kind", .unit t.kind.label),
      ("negated", .flag t.negated)]

instance : Described Compound where
  describe c := .record "BasicSelector"
    [("element_name", .text c.element), ("ids", describe c.ids), ("pseudos", describe c.pseudos),
      ("attribute_selectors", describe c.attributes),
      ("relation_to_next", .unit c.relation.label)]

instance : Described Selector where
  describe s := .record "Selector" [("basic_selectors", describe s.compounds)]

/-! ## Rules and sheets -/

instance : Described StyleRule where
  describe r := .record "StyleRule"
    [("selectors", describe r.selectors), ("declarations", describe r.declarations)]

instance : Described VariableRule where
  describe r := .record "VariableRule" [("declarations", describe r.declarations)]

instance : Described MediaRule where
  describe r := .record "MediaRule"
    [("media", describe r.media), ("style_rules", describe r.rules)]

instance : Described PageRule where
  describe r := .record "PageRule"
    [("selector", .text r.selector), ("declarations", describe r.declarations)]

instance : Described ImportRule where
  describe r := .record "ImportRule" [("href", .text r.href), ("media", describe r.media)]

instance : Described Bucket where
  describe b := .record "WidgetStyleRules"
    [("class_name", .text b.className), ("style_rules", describe b.plain),
      ("portrait_rules", describe b.portrait), ("landscape_rules", describe b.landscape),
      ("depends_on_screen", .flag b.dependsOnScreen)]

instance : Described Sheet where
  describe s := .record "StyleSheet"
    [("storage", .unit s.storage.label), ("variable_rules", describe s.variableRules),
      ("widget_rules", .record "" (s.buckets.map fun b => (b.className, describe b))),
      ("media_rules", describe s.mediaRules), ("page_rules", describe s.pageRules),
      ("import_rules", describe s.importRules), ("origin", .unit s.origin.label),
      ("depth", .integer s.depth), ("file_name", describe s.fileName)]

end Livery
