import Livery.Extract.Background
import Livery.Proofs.Extract.ColorVariables
import Mathlib.Data.List.Nodup

/-!
# The order of the parts of a background

A shorthand for the background has an image, a repetition, a place and a brush, each at most once,
in any order.  A place is one keyword or two, and a keyword directly behind a place is taken for its
second one, also if it is a part of its own.

**Parts.**  `BackgroundPart` lists the parts with their values and with what they write.  Parts of
different kinds write to different fields, so their order does not matter (`foldl_write_perm`).

**Reading.**  `counted` drops the keywords that are taken for a part of a place.  The reader writes
what is left, one part after the other (`backgroundParts_flatMap`).

**The condition.**  `background_any_order_iff` says exactly when the order does not matter: there is
no place of one keyword, or each part that is a keyword asks for what was there before.
-/

namespace Livery

/-! ## Parts -/

/-- Whether a value is neither a keyword nor a reference. -/
def Value.isPlain : Value → Bool
  | .keyword _ _ | .uri _ => false
  | _ => true

/-- The parts of a shorthand for the background. -/
inductive BackgroundPart where
  | reference (text : String)
  /-- The keyword `none`. -/
  | noImage (written : String)
  | repetition (value : Value) (plain : value.isPlain = true) (named : value.repetition ≠ .unknown)
  /-- One keyword, or two. -/
  | place (id : Keyword) (written : String) (second : Option (Keyword × String))
    (isPlace : id.isPlace = true) (unnamed : (Value.keyword id written).repetition = .unknown)
  /-- The keyword `transparent`. -/
  | transparent (written : String)
  /-- A colour, a gradient or what is nothing else. -/
  | paint (value : Value) (plain : value.isPlain = true) (unnamed : value.repetition = .unknown)

/-- What a part is about. -/
inductive BackgroundPart.Kind where
  | image
  | repetition
  | place
  | brush
  deriving DecidableEq

namespace BackgroundPart

/-- What a part is about. -/
def kind : BackgroundPart → Kind
  | reference _ | noImage _ => .image
  | repetition _ _ _ => .repetition
  | place _ _ _ _ _ => .place
  | transparent _ | paint _ _ _ => .brush

/-- The values that a part is written with. -/
def values : BackgroundPart → List Value
  | reference text => [.uri text]
  | noImage written => [.keyword .none written]
  | repetition value _ _ => [value]
  | place id written none _ _ => [.keyword id written]
  | place id written (some (id', written')) _ _ => [.keyword id written, .keyword id' written']
  | transparent written => [.keyword .transparent written]
  | paint value _ _ => [value]

/-- Whether a part is a place of one keyword. -/
def isSingle : BackgroundPart → Bool
  | place _ _ none _ _ => true
  | _ => false

/-- Whether a part other than a place is a keyword. -/
def isWord : BackgroundPart → Bool
  | noImage _ | transparent _ => true
  | _ => false

/-- The background with a part. -/
def write (env : Environment) (b : BackgroundValues) : BackgroundPart → BackgroundValues
  | reference text => { b with image := text }
  | noImage _ => { b with image := "" }
  | repetition value _ _ => { b with repetition := value.repetition }
  | place id written second h h' =>
    { b with alignment := .ofValues (place id written second h h').values }
  | transparent _ => { b with brush := .solid .transparent }
  | paint value _ _ => { b with brush := env.brush value }

/-- Two backgrounds are the same in what parts of a kind are about. -/
def SameAt : Kind → BackgroundValues → BackgroundValues → Prop
  | .image, b, b' => b.image = b'.image
  | .repetition, b, b' => b.repetition = b'.repetition
  | .place, b, b' => b.alignment = b'.alignment
  | .brush, b, b' => b.brush = b'.brush

section Writing

variable {env : Environment} {b b' : BackgroundValues} {p q : BackgroundPart}
  {parts order : List BackgroundPart}

lemma SameAt.trans {k : Kind} {c : BackgroundValues} (h : SameAt k b b') (h' : SameAt k b' c) :
    SameAt k b c := by
  cases k <;> exact Eq.trans h h'

lemma SameAt.symm {k : Kind} (h : SameAt k b b') : SameAt k b' b := by
  cases k <;> exact Eq.symm h

/-- Parts of different kinds write to different fields. -/
lemma write_comm (h : p.kind ≠ q.kind) : (p.write env (q.write env b)) = q.write env (p.write env b)
    := by
  cases p <;> cases q <;> first | rfl | exact absurd rfl h

lemma sameAt_write {k : Kind} (h : p.kind ≠ k) : SameAt k (p.write env b) b := by
  cases p <;> cases k <;> first | rfl | exact absurd rfl h

/-- A part that writes what is there changes nothing. -/
lemma write_eq_self (h : SameAt p.kind (p.write env b) b) : p.write env b = b := by
  cases b
  cases p <;> cases h <;> rfl

/-- The background with parts, one after the other. -/
def writeAll (env : Environment) (parts : List BackgroundPart) (b : BackgroundValues) :
    BackgroundValues :=
  parts.foldl (fun b p => p.write env b) b

lemma sameAt_writeAll {k : Kind} (h : ∀ p ∈ parts, p.kind ≠ k) :
    SameAt k (writeAll env parts b) b := by
  induction parts generalizing b with
  | nil => cases k <;> rfl
  | cons p rest ih =>
      obtain ⟨hp, hrest⟩ := List.forall_mem_cons.mp h
      exact (ih hrest).trans (sameAt_write hp)

/-- **Parts of different kinds can be written in any order.** -/
lemma writeAll_perm (hkinds : (parts.map kind).Nodup) (hperm : parts.Perm order) :
    writeAll env parts b = writeAll env order b := by
  refine hperm.foldl_eq' (fun p hp q hq b => ?_) b
  by_cases hkind : p.kind = q.kind
  · rw [List.inj_on_of_nodup_map hkinds hp hq hkind]
  · exact (write_comm hkind).symm

end Writing

/-! ## Reading -/

/-- The parts that count: a word behind a place of one keyword is taken for a part of that place. -/
def counted : List BackgroundPart → List BackgroundPart
  | p :: q :: rest =>
    if p.isSingle && q.isWord then p :: counted rest else p :: counted (q :: rest)
  | parts => parts

section Counting

variable {p q : BackgroundPart} {parts rest order : List BackgroundPart}

lemma kind_of_isSingle (h : p.isSingle = true) : p.kind = .place := by
  cases p with
  | place => rfl
  | _ => cases h

lemma kind_ne_of_isWord (h : p.isWord = true) : p.kind ≠ .place := by
  cases p with
  | noImage | transparent => exact nofun
  | _ => cases h

/-- Only a place in front of another part can take a word. -/
lemma counted_eq_self (h : ∀ p ∈ parts.dropLast, p.isSingle = false) : counted parts = parts := by
  fun_induction counted parts with
  | case1 p q rest htakes =>
      rw [List.dropLast_cons_cons] at h
      rw [h p List.mem_cons_self] at htakes
      cases htakes
  | case2 p q rest _ ih =>
      rw [List.dropLast_cons_cons] at h
      rw [ih (List.forall_mem_cons.mp h).2]
  | case3 => rfl

/-- Behind the place there is no other one. -/
lemma isSingle_eq_false_of_nodup (hkinds : ((p :: rest).map kind).Nodup) (hp : p.kind = .place) :
    ∀ q ∈ rest, q.isSingle = false := by
  intro q hq
  by_contra hsingle
  rw [Bool.not_eq_false] at hsingle
  refine (List.nodup_cons.mp hkinds).1 ?_
  rw [hp, ← kind_of_isSingle hsingle]
  exact List.mem_map_of_mem hq

/-- At most one word does not count, and only if there is a place of one keyword. -/
lemma counted_perm (hkinds : (parts.map kind).Nodup) :
    counted parts = parts ∨
      (∃ p ∈ parts, p.isSingle = true) ∧
        ∃ q, q.isWord = true ∧ parts.Perm (q :: counted parts) := by
  fun_induction counted parts with
  | case1 p q rest htakes =>
      obtain ⟨hsingle, hword⟩ := Bool.and_eq_true_iff.mp htakes
      have hrest : counted rest = rest := counted_eq_self fun r hr =>
        isSingle_eq_false_of_nodup hkinds (kind_of_isSingle hsingle) r
          (List.mem_cons_of_mem q (List.dropLast_subset rest hr))
      rw [hrest]
      exact .inr ⟨⟨p, List.mem_cons_self, hsingle⟩, q, hword, List.Perm.swap q p rest⟩
  | case2 p q rest _ ih =>
      rcases ih (List.nodup_cons.mp hkinds).2 with hsame | ⟨⟨r, hr, hsingle⟩, lost, hword, hperm⟩
      · exact .inl (by rw [hsame])
      · exact .inr ⟨⟨r, List.mem_cons_of_mem p hr, hsingle⟩, lost, hword,
          (hperm.cons p).trans (List.Perm.swap lost p _)⟩
  | case3 => exact .inl rfl

end Counting

section Reading

variable {env : Environment} {p q : BackgroundPart} {parts : List BackgroundPart}

/-- A value that is no keyword is a repetition or a brush. -/
lemma backgroundParts_plain {value : Value} (h : value.isPlain = true) (rest : List Value)
    (b : BackgroundValues) :
    env.backgroundParts (value :: rest) b
      = env.backgroundParts rest (if value.repetition = .unknown
          then { b with brush := env.brush value }
          else { b with repetition := value.repetition }) := by
  have hpart : Environment.backgroundPart? value b
      = if value.repetition = .unknown then none
        else some { b with repetition := value.repetition } := by
    unfold Environment.backgroundPart?
    split
    · cases h
    · cases h
    · cases h
    · split
      · next hunknown => rw [if_pos hunknown]
      · next hnamed => rw [if_neg hnamed]
  have hknown : value.known = .unknown := by
    cases value <;> first | rfl | cases h
  rw [Environment.backgroundParts, hpart, hknown]
  cases value.repetition <;> rfl

/-- A keyword for a place is no other part. -/
lemma backgroundParts_place {id : Keyword} {written : String} (h : id.isPlace = true)
    (hunnamed : (Value.keyword id written).repetition = .unknown) (rest : List Value)
    (b : BackgroundValues) :
    env.backgroundParts (.keyword id written :: rest) b
      = env.backgroundParts (rest.drop (Environment.leadingKeyword rest).length)
          { b with
            alignment := .ofValues (.keyword id written :: Environment.leadingKeyword rest) } := by
  have hpart : Environment.backgroundPart? (.keyword id written) b = none := by
    cases id <;> first | (simp only [Environment.backgroundPart?, hunnamed]; done) | cases h
  rw [Environment.backgroundParts, hpart]
  simp only [Value.known, h, if_true]

/-- A part that is no place of one keyword is read whatever stands behind it. -/
lemma backgroundParts_values (h : p.isSingle = false) (rest : List Value) (b : BackgroundValues) :
    env.backgroundParts (p.values ++ rest) b = env.backgroundParts rest (p.write env b) := by
  cases p with
  | reference | noImage | transparent =>
      rw [values, List.singleton_append, Environment.backgroundParts]
      rfl
  | repetition value plain named =>
      rw [values, List.singleton_append, backgroundParts_plain plain, if_neg named]
      rfl
  | paint value plain unnamed =>
      rw [values, List.singleton_append, backgroundParts_plain plain, if_pos unnamed]
      rfl
  | place id written second hplace hunnamed =>
      cases second with
      | none => cases h
      | some second =>
          rw [values, List.cons_append, backgroundParts_place hplace hunnamed]
          rfl

/-- A place of one keyword is read alone in front of other values. -/
lemma backgroundParts_single (h : p.isSingle = true) {rest : List Value}
    (hrest : Environment.leadingKeyword rest = []) (b : BackgroundValues) :
    env.backgroundParts (p.values ++ rest) b = env.backgroundParts rest (p.write env b) := by
  cases p with
  | place id written second hplace hunnamed =>
      cases second with
      | none =>
          rw [values, List.singleton_append, backgroundParts_place hplace hunnamed, hrest]
          rfl
      | some second => cases h
  | _ => cases h

/-- A word behind a place of one keyword is lost, and changes nothing of the place. -/
lemma backgroundParts_lost (h : p.isSingle = true) (hword : q.isWord = true) (rest : List Value)
    (b : BackgroundValues) :
    env.backgroundParts (p.values ++ (q.values ++ rest)) b
      = env.backgroundParts rest (p.write env b) := by
  cases p with
  | place id written second hplace hunnamed =>
      cases second with
      | none =>
          rw [values, List.singleton_append, backgroundParts_place hplace hunnamed]
          cases q with
          | noImage | transparent => rfl
          | _ => cases hword
      | some second => cases h
  | _ => cases h

/-- Only words and places start with a keyword. -/
lemma leadingKeyword_values (hkind : p.kind ≠ .place) (hword : p.isWord = false)
    (rest : List Value) : Environment.leadingKeyword (p.values ++ rest) = [] := by
  have hplain : ∀ {value : Value} (rest : List Value), value.isPlain = true →
      Environment.leadingKeyword (value :: rest) = [] := by
    intro value rest hplain
    cases value <;> first | rfl | cases hplain
  cases p with
  | reference => rfl
  | repetition _ plain | paint _ plain => exact hplain rest plain
  | place => exact absurd rfl hkind
  | noImage | transparent => cases hword

/-- **What counts is written, one part after the other.** -/
lemma backgroundParts_flatMap (hkinds : (parts.map kind).Nodup) (b : BackgroundValues) :
    env.backgroundParts (parts.flatMap values) b = writeAll env (counted parts) b := by
  fun_induction counted parts generalizing b with
  | case1 p q rest htakes ih =>
      obtain ⟨hsingle, hword⟩ := Bool.and_eq_true_iff.mp htakes
      rw [List.flatMap_cons, List.flatMap_cons, backgroundParts_lost hsingle hword, ih]
      · rfl
      · exact (List.nodup_cons.mp (List.nodup_cons.mp hkinds).2).2
  | case2 p q rest hkept ih =>
      obtain ⟨hp, hrest⟩ := List.nodup_cons.mp hkinds
      rw [List.flatMap_cons]
      cases hsingle : p.isSingle with
      | false =>
          rw [backgroundParts_values hsingle, ih hrest]
          rfl
      | true =>
          have hword : q.isWord = false := by simpa [hsingle] using hkept
          have hkind : q.kind ≠ .place := by
            rintro hplace
            rw [kind_of_isSingle hsingle, ← hplace] at hp
            exact hp (List.mem_cons_self)
          have hleading : Environment.leadingKeyword ((q :: rest).flatMap values) = [] := by
            rw [List.flatMap_cons]
            exact leadingKeyword_values hkind hword _
          rw [backgroundParts_single hsingle hleading, ih hrest]
          rfl
  | case3 parts hshort =>
      match parts with
      | [] =>
          rw [List.flatMap_nil, Environment.backgroundParts]
          rfl
      | [p] =>
          rw [List.flatMap_cons, List.flatMap_nil]
          cases hsingle : p.isSingle with
          | false =>
              rw [backgroundParts_values hsingle, Environment.backgroundParts]
              rfl
          | true =>
              rw [backgroundParts_single hsingle rfl, Environment.backgroundParts]
              rfl
      | p :: q :: rest => exact absurd rfl (hshort p q rest)

end Reading

/-! ## The condition -/

section Condition

variable {env : Environment} {b : BackgroundValues} {p q : BackgroundPart}
  {parts order : List BackgroundPart}

lemma exists_perm_cons (h : p ∈ parts) : ∃ rest, (p :: rest).Perm parts := by
  obtain ⟨front, behind, rfl⟩ := List.append_of_mem h
  exact ⟨front ++ behind, List.perm_middle.symm⟩

/-- A part that changes nothing can be written or not. -/
lemma writeAll_cons_of_eq_self (h : q.write env b = b) :
    writeAll env (q :: parts) b = writeAll env parts b := by
  rw [writeAll, List.foldl_cons, h, writeAll]

/-- Beside a place of one keyword each word asks for what is there already. -/
def WordsIdle (env : Environment) (parts : List BackgroundPart) (b : BackgroundValues) : Prop :=
  ∀ p ∈ parts, p.isSingle = true → ∀ q ∈ parts, q.isWord = true → q.write env b = b

/-- Where a word that is lost would change nothing, all parts are written. -/
lemma writeAll_counted (hkinds : (parts.map kind).Nodup) (hidle : WordsIdle env parts b) :
    writeAll env (counted parts) b = writeAll env parts b := by
  rcases counted_perm hkinds with hsame | ⟨⟨p, hp, hsingle⟩, q, hword, hperm⟩
  · rw [hsame]
  · have hq : q ∈ parts := hperm.symm.subset List.mem_cons_self
    rw [writeAll_perm hkinds hperm, writeAll_cons_of_eq_self (hidle p hp hsingle q hq hword)]

/-- A word that is lost in one order and written in another one changes nothing. -/
lemma write_eq_self_of_orders (hp : p.isSingle = true) (hq : q.isWord = true)
    (hkinds : ((p :: q :: parts).map kind).Nodup)
    (hsame : writeAll env (counted (p :: q :: parts)) b
      = writeAll env (counted (q :: parts ++ [p])) b) : q.write env b = b := by
  have hothers := isSingle_eq_false_of_nodup hkinds (kind_of_isSingle hp)
  have hlost : counted (p :: q :: parts) = p :: parts := by
    rw [counted, if_pos (by rw [hp, hq]; rfl), counted_eq_self]
    intro r hr
    exact hothers r (List.mem_cons_of_mem q (List.dropLast_subset parts hr))
  have hkept : counted (q :: parts ++ [p]) = q :: parts ++ [p] := by
    refine counted_eq_self fun r hr => hothers r ?_
    rwa [List.dropLast_concat] at hr
  rw [hlost, hkept] at hsame
  -- the parts other than the word leave alone what the word is about
  have hkind : ∀ r ∈ p :: parts, r.kind ≠ q.kind := by
    intro r hr heq
    rw [List.map_cons, List.map_cons] at hkinds
    have hq := (List.nodup_cons.mp ((List.Perm.swap _ _ _).nodup_iff.mp hkinds)).1
    rw [← heq] at hq
    exact hq (List.mem_map_of_mem hr)
  have hmoved : writeAll env (q :: parts ++ [p]) b
      = writeAll env (p :: parts) (q.write env b) := by
    have hperm : (q :: parts ++ [p]).Perm (q :: p :: parts) :=
      (List.perm_append_singleton p parts).cons q
    exact writeAll_perm ((hperm.map kind).nodup_iff.mpr
      ((List.Perm.swap _ _ _).nodup_iff.mp hkinds)) hperm
  rw [hmoved] at hsame
  have hbefore : SameAt q.kind (writeAll env (p :: parts) b) b := sameAt_writeAll hkind
  have hafter : SameAt q.kind (writeAll env (p :: parts) b) (q.write env b) := by
    rw [hsame]
    exact sameAt_writeAll hkind
  exact write_eq_self (hafter.symm.trans hbefore)

/-- What a declaration of parts asks for. -/
lemma background_parts (property : String) (important : Bool) (hkinds : (parts.map kind).Nodup) :
    env.background [⟨property, .background, parts.flatMap values, important⟩] b
      = (true, writeAll env (counted parts) b) :=
  congrArg (Prod.mk true) (backgroundParts_flatMap hkinds b)

/-- **When the parts of a background can stand in any order.**  All orders ask for the same exactly
if there is no place of one keyword beside a word that asks for something new, `none` where there is
an image or `transparent` where there is another brush.  Then each order asks for all parts. -/
theorem background_any_order_iff (env : Environment) (property : String) (important : Bool)
    {parts : List BackgroundPart} (hkinds : (parts.map kind).Nodup) (b : BackgroundValues) :
    ((∀ order : List BackgroundPart, order.Perm parts →
        env.background [⟨property, .background, order.flatMap values, important⟩] b
          = env.background [⟨property, .background, parts.flatMap values, important⟩] b)
      ↔ WordsIdle env parts b) ∧
    (WordsIdle env parts b → ∀ order : List BackgroundPart, order.Perm parts →
      env.background [⟨property, .background, order.flatMap values, important⟩] b
        = (true, writeAll env parts b)) := by
  have hnodup : ∀ {order : List BackgroundPart}, order.Perm parts → (order.map kind).Nodup :=
    fun hperm => (hperm.map kind).nodup_iff.mpr hkinds
  have hwritten : WordsIdle env parts b → ∀ order : List BackgroundPart, order.Perm parts →
      env.background [⟨property, .background, order.flatMap values, important⟩] b
        = (true, writeAll env parts b) := by
    intro hidle order hperm
    have hidle : WordsIdle env order b := fun p hp hsingle q hq =>
      hidle p (hperm.subset hp) hsingle q (hperm.subset hq)
    rw [background_parts property important (hnodup hperm), writeAll_counted (hnodup hperm) hidle,
      writeAll_perm (hnodup hperm) hperm]
  refine ⟨⟨?_, ?_⟩, hwritten⟩
  · intro hsame p hp hsingle q hq hword
    have hne : p ≠ q := by
      rintro rfl
      exact kind_ne_of_isWord hword (kind_of_isSingle hsingle)
    obtain ⟨others, hothers⟩ : ∃ others, (p :: q :: others).Perm parts := by
      obtain ⟨rest, hrest⟩ := exists_perm_cons hp
      obtain ⟨others, hothers⟩ :=
        exists_perm_cons ((List.mem_cons.mp (hrest.symm.subset hq)).resolve_left hne.symm)
      exact ⟨others, (hothers.cons p).trans hrest⟩
    have hmoved : (q :: others ++ [p]).Perm parts :=
      (List.perm_append_singleton p (q :: others)).trans hothers
    have hboth := (hsame _ hothers).trans (hsame _ hmoved).symm
    rw [background_parts property important (hnodup hothers),
      background_parts property important (hnodup hmoved)] at hboth
    exact write_eq_self_of_orders hsingle hword (hnodup hothers) (Prod.mk.inj hboth).2
  · intro hidle order hperm
    rw [hwritten hidle order hperm, hwritten hidle parts (List.Perm.refl parts)]

end Condition

/-! ## Rows of parts -/

/-- What gives a brush is a colour or a gradient, and no other part. -/
lemma plain_of_brush {palette : Palette} {v : Value} (h : (v.brush palette).isNone = false)
    (hkeyword : v.known ≠ .transparent) : v.isPlain = true ∧ v.repetition = .unknown := by
  cases hcolor : v.colorSpec? with
  | some spec =>
      refine ⟨?_, Value.repetition_of_color hcolor hkeyword⟩
      cases v with
      | keyword id written =>
          exact absurd rfl (Value.ne_keyword_of_color hcolor hkeyword id written)
      | uri => cases hcolor
      | _ => rfl
  | none =>
      cases v with
      | function => exact ⟨rfl, rfl⟩
      | _ => simp [Value.brush, Value.color?, hcolor, Brush.isNone] at h

/-- A colour or a gradient. -/
def ofBrush (palette : Palette) (v : Value) (h : (v.brush palette).isNone = false)
    (hkeyword : v.known ≠ .transparent) : BackgroundPart :=
  .paint v (plain_of_brush h hkeyword).1 (plain_of_brush h hkeyword).2

/-- The place `left`. -/
def atLeft : BackgroundPart := .place .left "left" none rfl (by decide +kernel)

/-- The repetition `repeat-x`. -/
def repeatX : BackgroundPart := .repetition (.identifier "repeat-x") rfl (by decide +kernel)

/-- Where there is no image before, `none` may be lost behind `left`. -/
theorem background_any_order_without_image :
    let black := ofBrush (.filled .black) (.color .black) rfl nofun
    let others := [noImage "none", repeatX, black]
    ((atLeft :: others).map kind).Nodup ∧
      ({} : Environment).background
          [⟨"background", .background, (others ++ [atLeft]).flatMap values, false⟩] {}
        = ({} : Environment).background
          [⟨"background", .background, (atLeft :: others).flatMap values, false⟩] {} := by
  intro black others
  have hkinds : ((atLeft :: others).map kind).Nodup := by decide
  have hidle : WordsIdle {} (atLeft :: others) {} := by
    intro p _ _ q hq hword
    simp only [others, List.mem_cons, List.not_mem_nil, or_false] at hq
    rcases hq with rfl | rfl | rfl | rfl
    · cases hword
    · rfl
    · cases hword
    · cases hword
  exact ⟨hkinds, (background_any_order_iff {} "background" false hkinds {}).1.mpr hidle _
    (List.perm_append_singleton atLeft others)⟩

/-- Behind `left` the brush `transparent` is lost, and in front of it it is not. -/
theorem not_background_any_order :
    ¬ ∀ (env : Environment) (parts order : List BackgroundPart) (b : BackgroundValues),
      (parts.map kind).Nodup → order.Perm parts →
        env.background [⟨"background", .background, order.flatMap values, false⟩] b
          = env.background [⟨"background", .background, parts.flatMap values, false⟩] b := by
  intro h
  have hsame := h {} [transparent "transparent", atLeft] [atLeft, transparent "transparent"] {}
    (by decide) (List.Perm.swap _ _ _)
  have hbrush := congrArg (fun result => result.2.brush.isNone) hsame
  revert hbrush
  decide +kernel

end BackgroundPart

end Livery
