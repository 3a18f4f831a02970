import Livery.Parse.Selector
import Mathlib.Tactic.Lemma

/-!
# The grammar of selectors

Which rows of symbols are selectors, and what they say:

```text
selector   : compound [ combinator compound ]*
compound   : [ IDENT | '*' ] qualifier* | qualifier+
qualifier  : HASH | '.' IDENT | attribute | state
attribute  : '[' S* '!'? IDENT S* '!'? [ [ '=' | '~=' | '|=' ] S* [ IDENT | STRING ] S* ]? ']'
state      : ':' ':'? '!'? [ IDENT | FUNCTION S* IDENT S* ')' ]
combinator : '+' S* | '>' S* | S+
```

Each rule is a relation between a row of symbols and the part of a selector that it spells, with one
constructor for each alternative.  A blank is a comment or white space; white space in front of `+`
and `>` belongs to the symbol, so only comments can stand there.  Whether they may is left open: the
rules for combinators and selectors have a parameter for what may stand in front of the sign.
-/

namespace Livery.Parse

/-- Blanks and comments. -/
def Spaces (symbols : List Symbol) : Prop :=
  ∀ s ∈ symbols, s.kind = .space

/-- A symbol that may be missing, and whether it is there. -/
inductive Perhaps (kind : Kind) : List Symbol → Bool → Prop
  | missing : Perhaps kind [] false
  | there {s : Symbol} : s.kind = kind → Perhaps kind [s] true

/-! ## Qualifiers -/

/-- The end of an attribute test, behind the name and its marks. -/
inductive SpellsTest (name : String) (negated : Bool) : List Symbol → AttributeTest → Prop
  | present {closing : Symbol} : closing.kind = .rightBracket →
      SpellsTest name negated [closing] ⟨name, "", .present, negated⟩
  | compared {sign value closing : Symbol} {before behind : List Symbol} {kind : MatchKind} :
      matchKind? sign.kind = some kind → Spaces before →
      (value.kind = .ident ∨ value.kind = .string) → Spaces behind →
      closing.kind = .rightBracket →
        SpellsTest name negated (sign :: (before ++ value :: (behind ++ [closing])))
          ⟨name, unquoted value, kind, negated⟩

/-- An attribute test. Two marks cancel. -/
inductive SpellsAttribute : List Symbol → AttributeTest → Prop
  | test {opening name : Symbol} {before mark behind mark' rest : List Symbol}
      {marked marked' : Bool} {test : AttributeTest} : opening.kind = .leftBracket →
      Spaces before → Perhaps .exclamation mark marked → name.kind = .ident → Spaces behind →
      Perhaps .exclamation mark' marked' →
      SpellsTest name.lexeme (marked != marked') rest test →
        SpellsAttribute (opening :: (before ++ (mark ++ name :: (behind ++ (mark' ++ rest))))) test

/-- A state or a part behind its colons and its mark, perhaps in a function. -/
inductive SpellsName (negated : Bool) : List Symbol → Pseudo → Prop
  | bare {name : Symbol} : name.kind = .ident →
      SpellsName negated [name] ⟨negated, .ofName name.lexeme, name.lexeme, ""⟩
  | call {function name closing : Symbol} {before behind : List Symbol} :
      function.kind = .function → Spaces before → name.kind = .ident → Spaces behind →
      closing.kind = .rightParen →
        SpellsName negated (function :: (before ++ name :: (behind ++ [closing])))
          ⟨negated, .empty, name.lexeme, String.ofList function.lexeme.toList.dropLast⟩

/-- A state or a part. -/
inductive SpellsState : List Symbol → Pseudo → Prop
  | state {colon : Symbol} {colon' mark name : List Symbol} {doubled marked : Bool}
      {state : Pseudo} : colon.kind = .colon → Perhaps .colon colon' doubled →
      Perhaps .exclamation mark marked → SpellsName marked name state →
        SpellsState (colon :: (colon' ++ (mark ++ name))) state

/-- What a qualifier asks for. -/
inductive Qualifier where
  | id (name : String)
  | test (test : AttributeTest)
  | state (state : Pseudo)

inductive SpellsQualifier : List Symbol → Qualifier → Prop
  | id {hash : Symbol} : hash.kind = .hash →
      SpellsQualifier [hash] (.id (String.ofList (hash.lexeme.toList.drop 1)))
  | styleClass {dot name : Symbol} : dot.kind = .dot → name.kind = .ident →
      SpellsQualifier [dot, name] (.test ⟨"class", name.lexeme, .contains, false⟩)
  | test {symbols : List Symbol} {test : AttributeTest} : SpellsAttribute symbols test →
      SpellsQualifier symbols (.test test)
  | state {symbols : List Symbol} {state : Pseudo} : SpellsState symbols state →
      SpellsQualifier symbols (.state state)

/-- Qualifiers, one behind the other. -/
inductive SpellsQualifiers : List Symbol → List Qualifier → Prop
  | nil : SpellsQualifiers [] []
  | cons {symbols rest : List Symbol} {q : Qualifier} {qs : List Qualifier} :
      SpellsQualifier symbols q → SpellsQualifiers rest qs →
        SpellsQualifiers (symbols ++ rest) (q :: qs)

/-! ## Compounds -/

namespace Qualifier

def id? : Qualifier → Option String
  | .id name => some name
  | _ => none

def test? : Qualifier → Option AttributeTest
  | .test t => some t
  | _ => none

def state? : Qualifier → Option Pseudo
  | .state p => some p
  | _ => none

end Qualifier

end Livery.Parse

namespace Livery

open Parse

/-- A compound with more qualifiers behind those that it has. -/
def Compound.qualified (c : Compound) (qs : List Qualifier) : Compound :=
  { c with
    ids := c.ids ++ qs.filterMap Qualifier.id?
    attributes := c.attributes ++ qs.filterMap Qualifier.test?
    pseudos := c.pseudos ++ qs.filterMap Qualifier.state? }

end Livery

namespace Livery.Parse

/-- A compound that nothing follows. -/
inductive SpellsCompound : List Symbol → Compound → Prop
  | named {name : Symbol} {symbols : List Symbol} {qs : List Qualifier} : name.kind = .ident →
      SpellsQualifiers symbols qs →
        SpellsCompound (name :: symbols) (Compound.qualified { element := name.lexeme } qs)
  | any {star : Symbol} {symbols : List Symbol} {qs : List Qualifier} : star.kind = .star →
      SpellsQualifiers symbols qs → SpellsCompound (star :: symbols) (Compound.qualified {} qs)
  | bare {symbols : List Symbol} {q : Qualifier} {qs : List Qualifier} :
      SpellsQualifiers symbols (q :: qs) → SpellsCompound symbols (Compound.qualified {} (q :: qs))

/-! ## Chains -/

/-- What stands between two compounds, and how it relates them. -/
inductive SpellsCombinator (Padding : List Symbol → Prop) : List Symbol → Relation → Prop
  | plus {sign : Symbol} {before behind : List Symbol} : Padding before → sign.kind = .plus →
      Spaces behind → SpellsCombinator Padding (before ++ sign :: behind) .precedingSibling
  | greater {sign : Symbol} {before behind : List Symbol} : Padding before →
      sign.kind = .greater → Spaces behind →
        SpellsCombinator Padding (before ++ sign :: behind) .parent
  | blank {s : Symbol} {symbols : List Symbol} : s.kind = .space → Spaces symbols →
      SpellsCombinator Padding (s :: symbols) .ancestor

/-- The compounds of a selector, each but the last with its relation to the next one. -/
inductive SpellsChain (Padding : List Symbol → Prop) : List Symbol → List Compound → Prop
  | last {symbols : List Symbol} {c : Compound} : SpellsCompound symbols c →
      SpellsChain Padding symbols [c]
  | link {symbols between rest : List Symbol} {c : Compound} {relation : Relation}
      {chain : List Compound} : SpellsCompound symbols c →
      SpellsCombinator Padding between relation → SpellsChain Padding rest chain →
        SpellsChain Padding (symbols ++ (between ++ rest)) ({ c with relation } :: chain)

/-- A selector, perhaps with blanks behind it. -/
def SpellsSelector (Padding : List Symbol → Prop) (symbols : List Symbol) (s : Selector) : Prop :=
  ∃ body blanks, symbols = body ++ blanks ∧ SpellsChain Padding body s.compounds ∧ Spaces blanks

end Livery.Parse
