import Livery.Vocabulary.Keyword
import Mathlib.Data.List.Chain
import Mathlib.Tactic.Lemma

/-!
# What is found in a table

A table is searched by halving.  In an ascending table names are ordered as their positions are
(`Table.Ascending.order_eq`), so the half that is left out does not hold the name, and the search
finds exactly the entries with the name in any case (`Table.Ascending.find?_eq_some_iff`).

The keywords form such a table, with an entry for each of them (`Keyword.ofName_eq_iff`).
-/

namespace Livery

/-! ## The order of names -/

namespace Text

/-- Names in exchanged places are in the opposite order. -/
lemma orderChars_swap (a b : List Char) : orderChars b a = (orderChars a b).swap := by
  induction a generalizing b with
  | nil => cases b <;> rfl
  | cons x xs ih =>
      cases b with
      | nil => rfl
      | cons y ys =>
          simp only [orderChars, ← Nat.compare_swap x.toNat y.toNat]
          cases hxy : compare x.toNat y.toNat <;> simp [ih]

lemma orderChars_cons_eq_lt_iff {x y : Char} {xs ys : List Char} :
    orderChars (x :: xs) (y :: ys) = .lt
      ↔ x.toNat < y.toNat ∨ x.toNat = y.toNat ∧ orderChars xs ys = .lt := by
  simp only [orderChars]
  rcases Nat.lt_trichotomy x.toNat y.toNat with hless | hequal | hgreater
  · simp [Nat.compare_eq_lt.mpr hless, hless]
  · simp [hequal]
  · simp [Nat.compare_eq_gt.mpr hgreater, Nat.lt_asymm hgreater, Nat.ne_of_gt hgreater]

lemma orderChars_trans {a b c : List Char} (hab : orderChars a b = .lt)
    (hbc : orderChars b c = .lt) : orderChars a c = .lt := by
  induction a generalizing b c with
  | nil =>
      cases c with
      | nil => cases b <;> cases hbc
      | cons z zs => rfl
  | cons x xs ih =>
      cases b with
      | nil => cases hab
      | cons y ys =>
          cases c with
          | nil => cases hbc
          | cons z zs =>
              rw [orderChars_cons_eq_lt_iff] at hab hbc ⊢
              rcases hab with hxy | ⟨hxy, hab⟩ <;> rcases hbc with hyz | ⟨hyz, hbc⟩
              · exact .inl (Nat.lt_trans hxy hyz)
              · exact .inl (hyz ▸ hxy)
              · exact .inl (hxy ▸ hyz)
              · exact .inr ⟨hxy.trans hyz, ih hab hbc⟩

lemma order_swap (a b : String) : order b a = (order a b).swap :=
  orderChars_swap _ _

lemma order_trans {a b c : String} (hab : order a b = .lt) (hbc : order b c = .lt) :
    order a c = .lt :=
  orderChars_trans hab hbc

/-- A name has one place in the order, however its letters are cased. -/
lemma order_congr {a b c : String} (h : same b c = true) : order a b = order a c := by
  have hfold : fold b.toList = fold c.toList := by simpa [same] using h
  simp only [order, hfold]

end Text

/-! ## Searching -/

namespace Table

variable {α : Type} {table : Table α} {name entry : String} {meaning : α} {low high : Nat}

/-- Neighbours in order are enough for an ascending table. -/
lemma ascending_of_isChain
    (h : table.toList.IsChain fun a b => Text.order a.1 b.1 = .lt) : table.Ascending := by
  have htrans : IsTrans (String × α) fun a b => Text.order a.1 b.1 = .lt :=
    ⟨fun a b c => Text.order_trans⟩
  exact List.isChain_iff_pairwise.mp h

lemma search_congr {a b : String} (h : Text.same a b = true) (low high : Nat) :
    table.search a low high = table.search b low high := by
  fun_induction Table.search table b low high with
  | case1 low high hlow middle hnone =>
      have hmiddle : table[(low + high) / 2]? = none := hnone
      simp only [search.eq_def table a low high, if_pos hlow, hmiddle]
  | case2 low high hlow middle entry found hfound hequal =>
      have hmiddle : table[(low + high) / 2]? = some (entry, found) := hfound
      simp only [search.eq_def table a low high, if_pos hlow, hmiddle, Text.order_congr h, hequal]
  | case3 low high hlow middle entry found hfound hless ih =>
      have hmiddle : table[(low + high) / 2]? = some (entry, found) := hfound
      simp only [search.eq_def table a low high, if_pos hlow, hmiddle, Text.order_congr h, hless]
      exact ih
  | case4 low high hlow middle entry found hfound hgreater ih =>
      have hmiddle : table[(low + high) / 2]? = some (entry, found) := hfound
      simp only [search.eq_def table a low high, if_pos hlow, hmiddle, Text.order_congr h, hgreater]
      exact ih
  | case5 low high hlow => rw [search, if_neg hlow]

/-- A name is found however its letters are cased. -/
lemma find?_congr {a b : String} (h : Text.same a b = true) : table.find? a = table.find? b :=
  search_congr h 0 table.size

/-- In an ascending table names are ordered as their positions are. -/
lemma Ascending.order_eq (h : table.Ascending) {i j : Nat} {a b : String × α}
    (ha : table[i]? = some a) (hb : table[j]? = some b) : Text.order a.1 b.1 = compare i j := by
  obtain ⟨hi, rfl⟩ := Array.getElem?_eq_some_iff.mp ha
  obtain ⟨hj, rfl⟩ := Array.getElem?_eq_some_iff.mp hb
  have hless : ∀ {i j : Nat} (hi : i < table.size) (hj : j < table.size), i < j →
      Text.order table[i].1 table[j].1 = .lt := by
    intro i j hi hj hij
    exact List.pairwise_iff_getElem.mp h i j hi hj hij
  rcases Nat.lt_trichotomy i j with hij | rfl | hij
  · rw [hless hi hj hij, Nat.compare_eq_lt.mpr hij]
  · rw [Nat.compare_eq_eq.mpr rfl, Text.order_eq_eq_iff]
    simp [Text.same]
  · rw [Text.order_swap, hless hj hi hij, Nat.compare_eq_gt.mpr hij]
    rfl

/-- The search finds the entries of its part of the table that have the name. -/
lemma Ascending.search_eq_some_iff (h : table.Ascending) (hhigh : high ≤ table.size) :
    table.search name low high = some meaning ↔ ∃ i entry, low ≤ i ∧ i < high ∧
      table[i]? = some (entry, meaning) ∧ Text.same entry name = true := by
  have hplace : ∀ {i j : Nat} {a b : String × α}, table[i]? = some a → table[j]? = some b →
      Text.same b.1 name = true → Text.order a.1 name = compare i j := by
    intro i j a b ha hb hsame
    rw [← Text.order_congr hsame, h.order_eq ha hb]
  fun_induction Table.search table name low high with
  | case1 low high hlow middle hnone =>
      rw [Array.getElem?_eq_none_iff] at hnone
      omega
  | case2 low high hlow middle entry found hmiddle hequal =>
      constructor
      · rintro hfound
        cases hfound
        exact ⟨middle, entry, by omega, by omega, hmiddle, Text.order_eq_eq_iff.mp hequal⟩
      · rintro ⟨i, other, -, -, hi, hsame⟩
        rw [hplace hmiddle hi hsame, Nat.compare_eq_eq] at hequal
        rw [← hequal, hmiddle] at hi
        cases hi
        rfl
  | case3 low high hlow middle entry found hmiddle hless ih =>
      refine (ih hhigh).trans ?_
      constructor
      · rintro ⟨i, other, hi, hrest⟩
        exact ⟨i, other, by omega, hrest⟩
      · rintro ⟨i, other, -, hihigh, hi, hsame⟩
        rw [hplace hmiddle hi hsame, Nat.compare_eq_lt] at hless
        exact ⟨i, other, hless, hihigh, hi, hsame⟩
  | case4 low high hlow middle entry found hmiddle hgreater ih =>
      refine (ih (by omega)).trans ?_
      constructor
      · rintro ⟨i, other, hi, hihigh, hrest⟩
        exact ⟨i, other, hi, by omega, hrest⟩
      · rintro ⟨i, other, hilow, -, hi, hsame⟩
        rw [hplace hmiddle hi hsame, Nat.compare_eq_gt] at hgreater
        exact ⟨i, other, hilow, hgreater, hi, hsame⟩
  | case5 low high hlow =>
      constructor
      · exact nofun
      · rintro ⟨i, other, hi, hihigh, -⟩
        omega

/-- **A name is found in an ascending table exactly if an entry has it in some case.** -/
theorem Ascending.find?_eq_some_iff (h : table.Ascending) :
    table.find? name = some meaning
      ↔ ∃ entry, (entry, meaning) ∈ table ∧ Text.same entry name = true := by
  rw [Table.find?, h.search_eq_some_iff (Nat.le_refl _)]
  constructor
  · rintro ⟨i, entry, -, -, hi, hsame⟩
    exact ⟨entry, Array.mem_of_getElem? hi, hsame⟩
  · rintro ⟨entry, hmem, hsame⟩
    obtain ⟨i, hi, hentry⟩ := Array.mem_iff_getElem.mp hmem
    exact ⟨i, entry, Nat.zero_le i, hi, Array.getElem?_eq_some_iff.mpr ⟨hi, hentry⟩, hsame⟩

end Table

/-! ## Keywords -/

namespace Keyword

lemma ascending_table : Keyword.table.Ascending :=
  Table.ascending_of_isChain (by decide +kernel)

/-- The keywords that have an entry. -/
def listed : List Keyword :=
  Keyword.table.toList.map Prod.snd

lemma mem_table_iff {id : Keyword} {entry : String} :
    (entry, id) ∈ Keyword.table ↔ id ∈ listed ∧ entry = id.spelling := by
  simp only [listed, List.mem_map, Array.mem_toList_iff, Keyword.table, Table.of, Array.mem_map]
  constructor
  · rintro ⟨id', hid', hentry⟩
    cases hentry
    exact ⟨⟨_, ⟨id, hid', rfl⟩, rfl⟩, rfl⟩
  · rintro ⟨⟨_, ⟨id', hid', rfl⟩, rfl⟩, rfl⟩
    exact ⟨id', hid', rfl⟩

/-- All keywords have an entry. -/
lemma mem_listed_iff {id : Keyword} : id ∈ listed ↔ id ≠ .unknown := by
  have hlisted : ∀ n < 94, Keyword.ofNat n ≠ .unknown → Keyword.ofNat n ∈ listed := by
    decide +kernel
  have hunknown : Keyword.unknown ∉ listed := by decide +kernel
  constructor
  · rintro hid rfl
    exact hunknown hid
  · intro hid
    have hindex : id.ctorIdx < 94 := by cases id <;> decide
    rw [← Keyword.ofNat_ctorIdx id] at hid ⊢
    exact hlisted _ hindex hid

/-- **A name is read as a keyword exactly if it is the spelling of the keyword in some case.** -/
theorem ofName_eq_iff {id : Keyword} {name : String} (hid : id ≠ .unknown) :
    Keyword.ofName name = id ↔ Text.same id.spelling name = true := by
  have hfound : Keyword.table.find? name = some id ↔ Text.same id.spelling name = true := by
    rw [ascending_table.find?_eq_some_iff]
    constructor
    · rintro ⟨entry, hmem, hsame⟩
      obtain ⟨-, rfl⟩ := mem_table_iff.mp hmem
      exact hsame
    · intro hsame
      exact ⟨_, mem_table_iff.mpr ⟨mem_listed_iff.mpr hid, rfl⟩, hsame⟩
  rw [← hfound, Keyword.ofName, Table.get]
  cases Keyword.table.find? name with
  | none => exact iff_of_false (fun h => hid h.symm) nofun
  | some other => simp

end Keyword

end Livery
