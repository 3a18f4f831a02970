import Livery.Parse.Declaration
import Livery.Parse.Selector
import Livery.Style.Rule

/-!
# Reading rules

The rules of a sheet, each read from behind the symbol that tells its kind.  A fault inside the
block of a style rule or of a set of variables is recovered from there; every other fault ends the
reading of the sheet.

## Main definitions

* `Parse.ruleset`, `Parse.variableRule`, `Parse.media`, `Parse.page`, `Parse.importRule`: the kinds
  of rule.
-/

namespace Livery.Parse

/-! ## Style rules and variables -/

/-- The selectors of a rule and the position behind them, the first symbol given apart. -/
def selectors (first : Symbol) (symbols : List Symbol) :
    Except Fault (List Selector × List Symbol) :=
  match _read : selector first symbols with
  | .error fault => .error fault
  | .ok (s, rest) =>
    match _comma : accept? .comma rest with
    | none => .ok ([s], rest)
    | some behind =>
      match _next : skipSpaces behind with
      | [] => .error (faultAt [])
      | next :: more =>
        if startsCompound next.kind then
          match selectors next more with
          | .error fault => .error fault
          | .ok (others, rest') => .ok (s :: others, rest')
        else .error (faultAt (next :: more))
termination_by symbols.length
decreasing_by
  have h₁ := within_selector _ _ _read
  have h₂ := length_accept?_lt _comma
  have h₃ := length_skipSpaces_le behind
  rw [_next, List.length_cons] at h₃
  omega

/-- A style rule, its first symbol given apart. -/
def ruleset (folder : Option Location) (first : Symbol) (symbols : List Symbol) :
    Except Fault (Progress StyleRule) := do
  let (selectors, rest) ← selectors first symbols
  let (_, rest) ← expect .leftBrace (skipSpaces rest)
  let body ← block folder rest
  .ok ⟨⟨selectors, body.value⟩, body.mark, body.rest⟩

/-- A set of variables behind its keyword. -/
def variableRule (folder : Option Location) (symbols : List Symbol) :
    Except Fault (Progress VariableRule) := do
  let (_, rest) ← expect .leftBrace (skipSpaces symbols)
  let body ← block folder rest
  .ok ⟨⟨body.value⟩, body.mark, body.rest⟩

theorem within_selectors {first : Symbol} {symbols : List Symbol} :
    Within symbols.length (selectors first symbols) := by
  fun_induction selectors first symbols with
  | case1 => exact within_error
  | case2 first symbols s rest hread => exact within_ok (within_selector _ _ hread)
  | case3 => exact within_error
  | case4 => exact within_error
  | case5 first symbols s rest hread behind hcomma next more hnext hs others rest' hothers ih =>
    have h₁ := within_selector _ _ hread
    have h₂ := length_accept?_lt hcomma
    have h₃ := length_skipSpaces_le behind
    have h₄ := ih _ _ hothers
    rw [hnext, List.length_cons] at h₃
    exact within_ok (by omega)
  | case6 => exact within_error

theorem length_ruleset_le {folder : Option Location} {first : Symbol} {symbols : List Symbol}
    {p : Progress StyleRule} (h : ruleset folder first symbols = .ok p) :
    p.rest.length ≤ symbols.length := by
  unfold ruleset at h
  obtain ⟨⟨selectors, rest⟩, hselectors, h⟩ := ok_of_bind h
  obtain ⟨⟨brace, rest'⟩, hbrace, h⟩ := ok_of_bind h
  obtain ⟨body, hbody, h⟩ := ok_of_bind h
  have h₁ := within_selectors _ _ hselectors
  have h₂ := within_expect (length_skipSpaces_le _) _ _ hbrace
  have h₃ := length_block_le hbody
  cases h
  exact Nat.le_trans h₃ (Nat.le_trans h₂ h₁)

theorem length_variableRule_le {folder : Option Location} {symbols : List Symbol}
    {p : Progress VariableRule} (h : variableRule folder symbols = .ok p) :
    p.rest.length ≤ symbols.length := by
  unfold variableRule at h
  obtain ⟨⟨brace, rest⟩, hbrace, h⟩ := ok_of_bind h
  obtain ⟨body, hbody, h⟩ := ok_of_bind h
  have h₁ := within_expect (length_skipSpaces_le _) _ _ hbrace
  have h₂ := length_block_le hbody
  cases h
  exact Nat.le_trans h₂ h₁

/-! ## Media -/

/-- The names in a list with commas; a name is due. -/
def names (symbols : List Symbol) : Except Fault (List String × List Symbol) :=
  match _read : expect .ident (skipSpaces symbols) with
  | .error fault => .error fault
  | .ok (name, rest) =>
    match _comma : accept? .comma (skipSpaces rest) with
    | none => .ok ([name.lexeme], skipSpaces rest)
    | some behind =>
      match names behind with
      | .error fault => .error fault
      | .ok (others, rest') => .ok (name.lexeme :: others, rest')
termination_by symbols.length
decreasing_by
  have h₁ := within_expect (Nat.le_refl _) _ _ _read
  have h₂ := length_accept?_lt _comma
  have h₃ := length_skipSpaces_le symbols
  have h₄ := length_skipSpaces_le rest
  omega

/-- The style rules up to a symbol that starts none. -/
def rulesets (folder : Option Location) (mark : Option Nat) (symbols : List Symbol) :
    Except Fault (Progress (List StyleRule)) :=
  match symbols with
  | [] => .ok ⟨[], mark, []⟩
  | s :: more =>
    if startsCompound s.kind then
      match _read : ruleset folder s more with
      | .error fault => .error ⟨fault.mark.or mark, fault.rest⟩
      | .ok rule =>
        (rulesets folder (rule.mark.or mark) rule.rest).map fun others =>
          { others with value := rule.value :: others.value }
    else .ok ⟨[], mark, s :: more⟩
termination_by symbols.length
decreasing_by
  have := length_ruleset_le _read
  rw [List.length_cons]
  omega

/-- Rules for some media behind their keyword. -/
def media (folder : Option Location) (symbols : List Symbol) :
    Except Fault (Progress MediaRule) := do
  let (media, rest) ← names symbols
  let (_, rest) ← expect .leftBrace rest
  let rules ← rulesets folder none (skipSpaces rest)
  match expect .rightBrace rules.rest with
  | .error fault => .error ⟨fault.mark.or rules.mark, fault.rest⟩
  | .ok (_, rest) => .ok ⟨⟨media, rules.value⟩, rules.mark, skipSpaces rest⟩

theorem within_names {symbols : List Symbol} : Within symbols.length (names symbols) := by
  fun_induction names symbols with
  | case1 => exact within_error
  | case2 symbols name rest hread =>
    have h₁ := within_expect (length_skipSpaces_le symbols) _ _ hread
    exact within_ok (Nat.le_trans (length_skipSpaces_le rest) h₁)
  | case3 => exact within_error
  | case4 symbols name rest hread behind hcomma others rest' hothers ih =>
    have h₁ := within_expect (length_skipSpaces_le symbols) _ _ hread
    have h₂ := length_accept?_lt hcomma
    have h₃ := length_skipSpaces_le rest
    have h₄ := ih _ _ hothers
    exact within_ok (by omega)

theorem length_rulesets_le {folder : Option Location} {mark : Option Nat} {symbols : List Symbol}
    {p : Progress (List StyleRule)} (h : rulesets folder mark symbols = .ok p) :
    p.rest.length ≤ symbols.length := by
  fun_induction rulesets folder mark symbols generalizing p with
  | case1 => cases h; exact Nat.le_refl _
  | case2 => cases h
  | case3 mark s more hs rule hread ih =>
    obtain ⟨others, hothers, rfl⟩ := ok_of_map h
    have h₁ := length_ruleset_le hread
    have h₂ := ih hothers
    rw [List.length_cons]
    exact Nat.le_succ_of_le (Nat.le_trans h₂ h₁)
  | case4 => cases h; exact Nat.le_refl _

theorem length_media_le {folder : Option Location} {symbols : List Symbol}
    {p : Progress MediaRule} (h : media folder symbols = .ok p) :
    p.rest.length ≤ symbols.length := by
  unfold media at h
  obtain ⟨⟨media, rest⟩, hmedia, h⟩ := ok_of_bind h
  obtain ⟨⟨brace, rest'⟩, hbrace, h⟩ := ok_of_bind h
  obtain ⟨rules, hrules, h⟩ := ok_of_bind h
  have h₁ := within_names _ _ hmedia
  have h₂ := within_expect (Nat.le_refl _) _ _ hbrace
  have h₃ := length_rulesets_le hrules
  have h₄ := length_skipSpaces_le rest'
  split at h
  · cases h
  · rename_i close behind hclose
    have h₅ := within_expect (Nat.le_refl _) _ _ hclose
    have h₆ := length_skipSpaces_le behind
    cases h
    dsimp only
    omega

/-! ## Pages -/

/-- The declarations of a page, without recovery from faults. -/
def pageDeclarations (folder : Option Location) (symbols : List Symbol) :
    Except Fault (List Declaration × List Symbol) :=
  match _read : declaration folder (skipSpaces symbols) with
  | .error fault => .error fault
  | .ok (d, rest) =>
    let kept := if d.isEmpty then [] else [d]
    match _semicolon : accept? .semicolon rest with
    | none => .ok (kept, rest)
    | some behind =>
      match pageDeclarations folder behind with
      | .error fault => .error fault
      | .ok (others, rest') => .ok (kept ++ others, rest')
termination_by symbols.length
decreasing_by
  have h₁ := within_declaration _ _ _read
  have h₂ := length_accept?_lt _semicolon
  have h₃ := length_skipSpaces_le symbols
  omega

/-- The kind of page, if one is named. -/
def pageSelector (symbols : List Symbol) : Except Fault (String × List Symbol) :=
  match accept? .colon (skipSpaces symbols) with
  | none => .ok ("", skipSpaces symbols)
  | some behind => do
    let (name, rest) ← expect .ident behind
    .ok (name.lexeme, skipSpaces rest)

/-- A rule for pages behind its keyword. -/
def page (folder : Option Location) (symbols : List Symbol) :
    Except Fault (PageRule × List Symbol) := do
  let (selector, rest) ← pageSelector symbols
  let (_, rest) ← expect .leftBrace rest
  let (declarations, rest) ← pageDeclarations folder rest
  let (_, rest) ← expect .rightBrace rest
  .ok (⟨selector, declarations⟩, skipSpaces rest)

theorem within_pageDeclarations {folder : Option Location} {symbols : List Symbol} :
    Within symbols.length (pageDeclarations folder symbols) := by
  fun_induction pageDeclarations folder symbols with
  | case1 => exact within_error
  | case2 symbols d rest hread =>
    exact within_ok (Nat.le_trans (within_declaration _ _ hread) (length_skipSpaces_le _))
  | case3 => exact within_error
  | case4 symbols d rest hread kept behind hsemicolon others rest' hothers ih =>
    have h₁ := within_declaration _ _ hread
    have h₂ := length_accept?_lt hsemicolon
    have h₃ := length_skipSpaces_le symbols
    have h₄ := ih _ _ hothers
    exact within_ok (by omega)

theorem within_pageSelector {symbols : List Symbol} :
    Within symbols.length (pageSelector symbols) := by
  unfold pageSelector
  split
  · exact within_ok (length_skipSpaces_le _)
  · rename_i behind h
    have h₁ := length_accept?_lt h
    have h₂ := length_skipSpaces_le symbols
    refine within_bind (within_expect (by omega)) fun _ rest h => ?_
    exact within_ok (Nat.le_trans (length_skipSpaces_le rest) h)

theorem within_page {folder : Option Location} {symbols : List Symbol} :
    Within symbols.length (page folder symbols) := by
  unfold page
  refine within_bind within_pageSelector fun _ _ h => ?_
  refine within_bind (within_expect h) fun _ _ h => ?_
  refine within_bind (within_pageDeclarations.mono h) fun _ _ h => ?_
  refine within_bind (within_expect h) fun _ rest h => ?_
  exact within_ok (Nat.le_trans (length_skipSpaces_le rest) h)

/-! ## Imports -/

/-- The reference of an import: a string, or the argument of `url`. -/
def importReference : List Symbol → Except Fault (String × List Symbol)
  | [] => .error (faultAt [])
  | s :: rest =>
    match s.kind with
    | .string => .ok (Text.unquote s.lexeme, rest)
    | .function =>
      match call s rest with
      | .error fault => .error fault
      | .ok ((name, args), behind) =>
        if Text.same name "url" then .ok (Text.unquote args, behind)
        else .error (faultAt (s :: rest))
    | _ => .error (faultAt (s :: rest))

/-- The media of an import; they may be missing. -/
def importMedia : List Symbol → Except Fault (List String × List Symbol)
  | [] => .ok ([], [])
  | s :: rest => if s.kind == .ident then names (s :: rest) else .ok ([], s :: rest)

/-- An import behind its keyword. -/
def importRule (symbols : List Symbol) : Except Fault (ImportRule × List Symbol) := do
  let (href, rest) ← importReference (skipSpaces symbols)
  let (media, rest) ← importMedia (skipSpaces rest)
  let (_, rest) ← expect .semicolon rest
  .ok (⟨href, media⟩, skipSpaces rest)

theorem within_importReference {symbols : List Symbol} :
    Within symbols.length (importReference symbols) := by
  cases symbols with
  | nil => exact within_error
  | cons s rest =>
    simp only [importReference]
    split
    · exact within_ok (Nat.le_succ _)
    · split
      · exact within_error
      · rename_i h
        have := within_call _ _ h
        split
        · exact within_ok (Nat.le_succ_of_le this)
        · exact within_error
    · exact within_error

theorem within_importMedia {symbols : List Symbol} :
    Within symbols.length (importMedia symbols) := by
  cases symbols with
  | nil => exact within_ok (Nat.le_refl _)
  | cons s rest =>
    simp only [importMedia]
    split
    · exact within_names
    · exact within_ok (Nat.le_refl _)

theorem within_importRule {symbols : List Symbol} :
    Within symbols.length (importRule symbols) := by
  unfold importRule
  refine within_bind (within_importReference.mono (length_skipSpaces_le _)) fun _ rest h => ?_
  refine within_bind
    (within_importMedia.mono (Nat.le_trans (length_skipSpaces_le rest) h)) fun _ _ h => ?_
  refine within_bind (within_expect h) fun _ rest h => ?_
  exact within_ok (Nat.le_trans (length_skipSpaces_le rest) h)

end Livery.Parse
