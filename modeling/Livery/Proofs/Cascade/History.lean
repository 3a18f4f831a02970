import Livery.Cascade.Query

/-!
# Histories of an engine

Sheets come and go while widgets are looked up, and a widget may change between two lookups.  A
history is such a sequence; its transcript lists what the lookups answered.

A lookup may be answered from levels that an earlier one left in the memo.  To say what that does to
the answers, every lookup has a second form that asks the host itself for each level.

* `Change`, `Query`, `Action` — the steps of a history.
* `Engine.transcript` — the answers of the lookups of a history, in order.
* `Engine.directRules`, `Engine.directTranscript` — the same with the memo passed by: every
  candidate is matched as if no bucket vouched for it.
-/

namespace Livery

/-! ## Steps -/

/-- A change of the registry. -/
inductive Change where
  | add (sheet : Sheet)
  | remove (id : SheetId)
  | clear
  | setMedium (medium : String)

/-- What is wanted of a lookup: rules or the declarations of those that count, with their weights or
in the order of the weights. -/
inductive Wanted where
  | weightedRules
  | rules
  | weightedDeclarations (requested : Option String) (filter : PseudoFilter)
  | declarations (requested : Option String) (filter : PseudoFilter)

/-- What a lookup answers. -/
inductive Answer where
  | weightedRules (found : List (Weighted StyleRule))
  | rules (found : List StyleRule)
  | weightedDeclarations (found : List (Weighted Declaration))
  | declarations (found : List Declaration)

/-- A lookup.  The host is that of the moment: a widget that has changed since is asked through
another one. -/
structure Query (ν : Type) where
  host : Host ν
  node : ν
  orientation : Orientation
  wanted : Wanted

/-- A step of a history. -/
inductive Action (ν : Type) where
  | change (c : Change)
  | ask (q : Query ν)

/-- The part of the rules found that is wanted. -/
def Wanted.read (found : List (Weighted StyleRule)) : Wanted → Answer
  | .weightedRules => .weightedRules found
  | .rules => .rules (inOrder found)
  | .weightedDeclarations requested filter =>
    .weightedDeclarations (activeDeclarations requested filter found)
  | .declarations requested filter =>
    .declarations (inOrder (activeDeclarations requested filter found))

/-- A candidate for which the host must be asked. -/
def Candidate.direct (c : Candidate) : Candidate :=
  { c with checked := true }

/-! ## Runs -/

namespace Engine

/-- The engine after a change. -/
def apply (e : Engine) : Change → Engine
  | .add sheet => (e.add sheet).2
  | .remove id => (e.remove id).2
  | .clear => e.clear
  | .setMedium medium => e.setMedium medium

variable {ν : Type} [BEq ν]

/-- What a lookup answers. -/
def answer (e : Engine) (q : Query ν) : Answer :=
  q.wanted.read (e.weightedRules q.host q.node q.orientation).1

/-- The engine after a lookup. -/
def after (e : Engine) (q : Query ν) : Engine :=
  e.remember (e.weightedRules q.host q.node q.orientation).2

/-- The answers of the lookups of a history. -/
def transcript (e : Engine) : List (Action ν) → List Answer
  | [] => []
  | .change c :: rest => (e.apply c).transcript rest
  | .ask q :: rest => e.answer q :: (e.after q).transcript rest

/-- The rules that apply to a node, found without the memo. -/
def directRules (e : Engine) (host : Host ν) (node : ν) (o : Orientation) :
    List (Weighted StyleRule) :=
  if e.sheets.isEmpty then []
  else
    (Session.matchAll host node ((e.candidates (host.classes node) o).map Candidate.direct)
      { memo := [] }).1

/-- What a lookup answers without the memo. -/
def directAnswer (e : Engine) (q : Query ν) : Answer :=
  q.wanted.read (e.directRules q.host q.node q.orientation)

/-- The answers of the lookups of a history without the memo; no lookup leaves a trace. -/
def directTranscript (e : Engine) : List (Action ν) → List Answer
  | [] => []
  | .change c :: rest => (e.apply c).directTranscript rest
  | .ask q :: rest => e.directAnswer q :: e.directTranscript rest

end Engine

end Livery
