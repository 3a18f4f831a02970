/-!
# Names up to ASCII case

Property names, keywords, units, media and colour names are compared without regard to the case of
the twenty-six ASCII letters; every other character stands for itself.

## Main definitions

* `Text.lower`: a text with its ASCII letters in lower case.
* `Text.same`: equality up to ASCII case.
* `Text.order`: the order of names by their folded characters, under which the tables are sorted.
-/

namespace Livery.Text

/-- A character sequence with its ASCII letters in lower case. -/
def fold (cs : List Char) : List Char :=
  cs.map Char.toLower

/-- A text with its ASCII letters in lower case. -/
def lower (s : String) : String :=
  String.ofList (fold s.toList)

/-- Equality up to ASCII case. -/
def same (a b : String) : Bool :=
  fold a.toList == fold b.toList

/-- Lexicographic order of characters by code point. -/
def orderChars : List Char → List Char → Ordering
  | [], [] => .eq
  | [], _ :: _ => .lt
  | _ :: _, [] => .gt
  | a :: as, b :: bs =>
    match compare a.toNat b.toNat with
    | .eq => orderChars as bs
    | different => different

/-- The order of two names up to ASCII case. -/
def order (a b : String) : Ordering :=
  orderChars (fold a.toList) (fold b.toList)

/-! ## Laws -/

/-- Only the capitals change. -/
theorem toLower_eq_self {c : Char} (h : c.toNat < 65 ∨ 90 < c.toNat) : c.toLower = c := by
  refine dif_neg fun ⟨hlow, hhigh⟩ => ?_
  have hlow : 65 ≤ c.toNat := hlow
  have hhigh : c.toNat ≤ 90 := hhigh
  omega

/-- Comparing code points decides equality of character sequences. -/
theorem orderChars_eq_eq_iff {a b : List Char} : orderChars a b = .eq ↔ a = b := by
  induction a generalizing b with
  | nil => cases b <;> simp [orderChars]
  | cons x xs ih =>
    cases b with
    | nil => simp [orderChars]
    | cons y ys =>
      rw [orderChars]
      split
      · rename_i h
        rw [Nat.compare_eq_eq] at h
        have hxy : x = y := Char.toNat_inj.mp h
        simp [hxy, ih]
      · rename_i different h
        constructor
        · intro hd
          exact absurd hd (fun e => h e)
        · intro e
          injection e with hx hs
          subst hx
          exact absurd (Nat.compare_eq_eq.mpr rfl) h

/-- Two names are equal in the order exactly when they are equal up to ASCII case. -/
theorem order_eq_eq_iff {a b : String} : order a b = .eq ↔ same a b = true := by
  simp [order, same, orderChars_eq_eq_iff]

end Livery.Text
