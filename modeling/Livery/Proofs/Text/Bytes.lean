import Livery.Text.Folded
import Mathlib.Tactic.Lemma
import Mathlib.Tactic.SplitIfs

/-!
# The order of names in bytes

Names are ordered by their characters.  A text is stored as the bytes of its characters, and the
order of names is also that of their bytes, the capital letters of ASCII in lower case.

**Units.**  A character has from one to four bytes, here as numbers (`units`).  Only those of an
ASCII character are below 128 (`le_of_mem_units`), so the bytes of a folded name are the folded
bytes of the name (`foldedBytes_eq`).

**Comparing.**  The character with the smaller code point has the smaller unit where the two differ
first (`differ_units`), and what stands behind that place makes no difference
(`compare_of_differ`).

From both, the order of names is that of their folded bytes (`order_eq_compare`), which has the laws
of an order.
-/

namespace Livery.Text

/-- A byte with the capital letters of ASCII in lower case. -/
def foldByte (b : UInt8) : UInt8 :=
  if 65 ≤ b ∧ b ≤ 90 then b + 32 else b

/-- The bytes of a text with the capital letters of ASCII in lower case. -/
def foldedBytes (s : String) : List UInt8 :=
  s.toUTF8.data.toList.map foldByte

/-! ## Units -/

/-- The bytes of the character with a code point, as numbers. -/
def units (n : Nat) : List Nat :=
  if n ≤ 127 then [n]
  else if n ≤ 2047 then [n / 64 % 32 + 192, n % 64 + 128]
  else if n ≤ 65535 then [n / 64 / 64 % 16 + 224, n / 64 % 64 + 128, n % 64 + 128]
  else [n / 64 / 64 / 64 % 8 + 240, n / 64 / 64 % 64 + 128, n / 64 % 64 + 128, n % 64 + 128]

lemma utf8EncodeChar_eq (c : Char) :
    String.utf8EncodeChar c = (units c.toNat).map UInt8.ofNat := by
  change (if c.toNat ≤ 127 then _ else if c.toNat ≤ 2047 then _
    else if c.toNat ≤ 65535 then _ else _) = _
  unfold units
  simp only [Nat.div_div_eq_div_mul]
  split_ifs <;> rfl

lemma lt_of_mem_units {n u : Nat} (hu : u ∈ units n) : u < 256 := by
  unfold units at hu
  split_ifs at hu <;> simp only [List.mem_cons, List.not_mem_nil, or_false] at hu <;> omega

lemma le_of_mem_units {n u : Nat} (hn : 128 ≤ n) (hu : u ∈ units n) : 128 ≤ u := by
  unfold units at hu
  split_ifs at hu <;> simp only [List.mem_cons, List.not_mem_nil, or_false] at hu <;> omega

lemma units_ne_nil (n : Nat) : units n ≠ [] := by
  unfold units
  split_ifs <;> exact List.cons_ne_nil _ _

/-! ## Folding -/

lemma bytes_eq (s : String) : s.toUTF8.data.toList = s.toList.flatMap String.utf8EncodeChar := by
  rw [String.toUTF8, ← String.utf8Encode_toList, List.utf8Encode, List.toList_data_toByteArray]

lemma foldByte_eq_self {u : Nat} (hlow : 128 ≤ u) (hhigh : u < 256) :
    foldByte (UInt8.ofNat u) = UInt8.ofNat u := by
  refine if_neg fun h => ?_
  have hle : u ≤ 90 := by
    have hle := UInt8.le_iff_toNat_le.mp h.2
    rwa [UInt8.toNat_ofNat_of_lt' hhigh] at hle
  omega

lemma foldByte_ascii :
    ∀ n < 128, [foldByte (UInt8.ofNat n)] = String.utf8EncodeChar (Char.ofNat n).toLower := by
  decide +kernel

/-- The folded bytes of a character are those of its lower case. -/
lemma map_foldByte (c : Char) :
    (String.utf8EncodeChar c).map foldByte = String.utf8EncodeChar c.toLower := by
  by_cases hascii : c.toNat < 128
  · have hc := foldByte_ascii c.toNat hascii
    rw [Char.ofNat_toNat] at hc
    rw [← hc, utf8EncodeChar_eq, units, if_pos (by omega)]
    rfl
  · rw [toLower_eq_self (.inr (by omega)), utf8EncodeChar_eq, List.map_map]
    refine List.map_congr_left fun u hu => ?_
    exact foldByte_eq_self (le_of_mem_units (by omega) hu) (lt_of_mem_units hu)

/-- The folded bytes of a text are the bytes of the folded text. -/
theorem foldedBytes_eq (s : String) :
    foldedBytes s = (fold s.toList).flatMap String.utf8EncodeChar := by
  rw [foldedBytes, bytes_eq, List.map_flatMap, fold, List.flatMap_map]
  exact congrArg (s.toList.flatMap ·) (funext map_foldByte)

/-! ## Comparing -/

/-- At the first place where two rows of numbers differ, the first has the smaller one. -/
inductive Differ : List Nat → List Nat → Prop
  | here {u v : Nat} {us vs : List Nat} : u < v → Differ (u :: us) (v :: vs)
  | behind {u : Nat} {us vs : List Nat} : Differ us vs → Differ (u :: us) (u :: vs)

lemma differ_cons {u v : Nat} {us vs : List Nat} :
    Differ (u :: us) (v :: vs) ↔ u < v ∨ u = v ∧ Differ us vs := by
  constructor
  · intro h
    cases h with
    | here hlt => exact .inl hlt
    | behind hrest => exact .inr ⟨rfl, hrest⟩
  · rintro (hlt | ⟨rfl, hrest⟩)
    · exact .here hlt
    · exact .behind hrest

lemma not_differ_nil {vs : List Nat} : ¬ Differ [] vs := nofun

/-- The smaller code point has the smaller units. -/
lemma differ_units {m n : Nat} (hlt : m < n) (hn : n < 0x110000) : Differ (units m) (units n) := by
  unfold units
  split_ifs <;> simp only [differ_cons, not_differ_nil, and_false, or_false] <;> omega

lemma compare_ofNat {u v : Nat} (hu : u < 256) (hv : v < 256) :
    compare (UInt8.ofNat u) (UInt8.ofNat v) = compare u v := by
  change compareOfLessAndEq _ _ = compareOfLessAndEq _ _
  simp only [compareOfLessAndEq, UInt8.lt_iff_toNat_lt, ← UInt8.toNat_inj,
    UInt8.toNat_ofNat_of_lt' hu, UInt8.toNat_ofNat_of_lt' hv]

/-- What stands behind the first difference makes none. -/
lemma compare_of_differ {us vs : List Nat} (h : Differ us vs) (hus : ∀ u ∈ us, u < 256)
    (hvs : ∀ v ∈ vs, v < 256) (xs ys : List UInt8) :
    compare (us.map UInt8.ofNat ++ xs) (vs.map UInt8.ofNat ++ ys) = .lt := by
  induction h with
  | here hlt =>
      simp only [List.map_cons, List.cons_append, List.compare_cons_cons]
      rw [compare_ofNat (hus _ (List.mem_cons_self ..)) (hvs _ (List.mem_cons_self ..)),
        Nat.compare_eq_lt.mpr hlt]
      rfl
  | behind _ ih =>
      simp only [List.map_cons, List.cons_append, List.compare_cons_cons, Std.ReflOrd.compare_self]
      exact ih (fun u hu => hus u (List.mem_cons_of_mem _ hu))
        fun v hv => hvs v (List.mem_cons_of_mem _ hv)

lemma toNat_lt (c : Char) : c.toNat < 0x110000 := by
  have hvalid : c.toNat < 0xd800 ∨ 0xdfff < c.toNat ∧ c.toNat < 0x110000 := c.valid
  omega

lemma compare_encoded_of_lt {c d : Char} (hlt : c.toNat < d.toNat) (xs ys : List UInt8) :
    compare (String.utf8EncodeChar c ++ xs) (String.utf8EncodeChar d ++ ys) = .lt := by
  rw [utf8EncodeChar_eq, utf8EncodeChar_eq]
  exact compare_of_differ (differ_units hlt (toNat_lt d)) (fun _ => lt_of_mem_units)
    (fun _ => lt_of_mem_units) xs ys

lemma compare_append_left (us xs ys : List UInt8) :
    compare (us ++ xs) (us ++ ys) = compare xs ys := by
  induction us with
  | nil => rfl
  | cons u us ih =>
      rw [List.cons_append, List.cons_append, List.compare_cons_cons, Std.ReflOrd.compare_self, ih]
      rfl

lemma exists_encoded (c : Char) : ∃ u us, String.utf8EncodeChar c = u :: us := by
  rw [utf8EncodeChar_eq]
  exact List.exists_cons_of_ne_nil fun hnil => units_ne_nil _ (List.map_eq_nil_iff.mp hnil)

/-- Characters are in the order of their bytes. -/
lemma orderChars_eq_compare (cs ds : List Char) :
    orderChars cs ds
      = compare (cs.flatMap String.utf8EncodeChar) (ds.flatMap String.utf8EncodeChar) := by
  induction cs generalizing ds with
  | nil =>
      cases ds with
      | nil => rfl
      | cons d ds =>
          obtain ⟨u, us, hd⟩ := exists_encoded d
          rw [List.flatMap_cons, hd]
          rfl
  | cons c cs ih =>
      cases ds with
      | nil =>
          obtain ⟨u, us, hc⟩ := exists_encoded c
          rw [List.flatMap_cons, hc]
          rfl
      | cons d ds =>
          rw [orderChars, List.flatMap_cons, List.flatMap_cons]
          rcases Nat.lt_trichotomy c.toNat d.toNat with hlt | heq | hgt
          · rw [Nat.compare_eq_lt.mpr hlt, compare_encoded_of_lt hlt]
          · rw [Nat.compare_eq_eq.mpr heq, Char.toNat_inj.mp heq, compare_append_left]
            exact ih ds
          · rw [Nat.compare_eq_gt.mpr hgt, Std.OrientedOrd.eq_swap, compare_encoded_of_lt hgt]
            rfl

/-- **The order of names is that of their folded bytes.** -/
theorem order_eq_compare (a b : String) : order a b = compare (foldedBytes a) (foldedBytes b) := by
  rw [order, orderChars_eq_compare, ← foldedBytes_eq, ← foldedBytes_eq]

/-- Any two names can be compared, in either direction alike, and through a third one. -/
instance order_transCmp : Std.TransCmp order where
  eq_swap {a b} := by
    rw [order_eq_compare, order_eq_compare]
    exact Std.OrientedOrd.eq_swap
  isLE_trans {a b c} hab hbc := by
    rw [order_eq_compare] at hab hbc ⊢
    exact Std.TransOrd.isLE_trans hab hbc

end Livery.Text
