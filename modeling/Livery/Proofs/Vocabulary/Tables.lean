import Livery.Paint.Color
import Livery.Proofs.Text.Bytes
import Livery.Proofs.Vocabulary.Lookup
import Livery.Vocabulary.Mode
import Livery.Vocabulary.Property
import Livery.Vocabulary.PseudoClass

/-!
# The tables of names

A table is searched by halving, which is right if its names ascend.  Then no two of them are the
same up to case, and the search finds what going through the table from its front would find.

* `Table.scan` — the search from the front.
* `Table.Ascending.index_unique`, `Table.Ascending.find?_eq_scan` — one entry has a name, and
  halving finds that one.
* `TablesAscend`, `tablesAscend` — all tables ascend.
* `lookup_eq_scan` — the law of all look-ups, for the named colours too.
-/

namespace Livery

namespace Table

variable {α : Type} {table : Table α} {name : String} {meaning : α}

/-- Looks for a name, in any case, by going through a table from its front. -/
def scan (table : Table α) (name : String) : Option α :=
  (table.toList.find? fun entry => Text.same entry.1 name).map Prod.snd

/-- In an ascending table one entry at most has a name. -/
lemma Ascending.index_unique (h : table.Ascending) {i j : Nat} {a b : String × α}
    (ha : table[i]? = some a) (hb : table[j]? = some b) (hsame : Text.same a.1 name = true)
    (hsame' : Text.same b.1 name = true) : i = j := by
  have hequal : Text.order a.1 b.1 = .eq := by
    rw [Text.order_eq_eq_iff]
    simp only [Text.same, beq_iff_eq] at hsame hsame' ⊢
    exact hsame.trans hsame'.symm
  rwa [h.order_eq ha hb, Nat.compare_eq_eq] at hequal

/-- **Halving finds what a search from the front finds.** -/
theorem Ascending.find?_eq_scan (h : table.Ascending) (name : String) :
    table.find? name = table.scan name := by
  cases hscan : table.toList.find? fun entry => Text.same entry.1 name with
  | none =>
      rw [scan, hscan, Option.map_none, Option.eq_none_iff_forall_ne_some]
      intro meaning hfound
      obtain ⟨entry, hmem, hsame⟩ := h.find?_eq_some_iff.mp hfound
      exact List.find?_eq_none.mp hscan _ (Array.mem_toList_iff.mpr hmem) hsame
  | some entry =>
      have hsame : Text.same entry.1 name = true := List.find?_eq_some_iff_append.mp hscan |>.1
      rw [scan, hscan, Option.map_some, h.find?_eq_some_iff]
      exact ⟨entry.1, Array.mem_toList_iff.mp (List.mem_of_find?_eq_some hscan), hsame⟩

end Table

/-! ## All tables -/

/-- All tables of names ascend. -/
structure TablesAscend : Prop where
  properties : Property.table.Ascending
  keywords : Keyword.table.Ascending
  pseudoClasses : PseudoClass.table.Ascending
  borderStyles : BorderStyle.table.Ascending
  tileModes : TileMode.table.Ascending
  repeats : Repeat.table.Ascending
  origins : Origin.table.Ascending
  positionModes : PositionMode.table.Ascending
  attachments : Attachment.table.Ascending
  styleFeatures : StyleFeature.table.Ascending
  layoutDirections : LayoutDirection.table.Ascending
  colors : colorNames.Ascending

theorem tablesAscend : TablesAscend where
  properties := Table.ascending_of_isChain (by decide +kernel)
  keywords := Keyword.ascending_table
  pseudoClasses := Table.ascending_of_isChain (by decide +kernel)
  borderStyles := Table.ascending_of_isChain (by decide +kernel)
  tileModes := Table.ascending_of_isChain (by decide +kernel)
  repeats := Table.ascending_of_isChain (by decide +kernel)
  origins := Table.ascending_of_isChain (by decide +kernel)
  positionModes := Table.ascending_of_isChain (by decide +kernel)
  attachments := Table.ascending_of_isChain (by decide +kernel)
  styleFeatures := Table.ascending_of_isChain (by decide +kernel)
  layoutDirections := Table.ascending_of_isChain (by decide +kernel)
  colors := Table.ascending_of_isChain (by decide +kernel)

/-- **A look-up is a search that goes by letters alone.**  Names are ordered by their bytes with the
capital letters of ASCII in lower case, so that names which differ in case only have one place, and
any two others are in the same order however they are compared.  In an ascending table one entry at
most has a name; the look-up gives its meaning, and the default meaning if there is none.  All
tables ascend, and a colour that is not `transparent` is found among the named ones. -/
theorem lookup_eq_scan :
    ((∀ a b, Text.order a b = compare (Text.foldedBytes a) (Text.foldedBytes b)) ∧
      Std.TransCmp Text.order ∧ ∀ a b, Text.order a b = .eq ↔ Text.same a b = true) ∧
    (∀ (α : Type) [Inhabited α] (table : Table α), table.Ascending → ∀ name,
      (∀ (i j : Nat) (a b : String × α), table[i]? = some a → table[j]? = some b →
        Text.same a.1 name = true → Text.same b.1 name = true → i = j) ∧
      table.get name = (table.scan name).getD default) ∧
    TablesAscend ∧
    ∀ name, Color.ofName? name
      = if Text.same name "transparent" then some .transparent
        else (colorNames.scan name).map Color.ofRgb := by
  refine ⟨⟨Text.order_eq_compare, Text.order_transCmp, fun a b => Text.order_eq_eq_iff⟩,
    fun α _ table hascending name => ⟨fun i j a b ha hb hsame hsame' =>
      hascending.index_unique ha hb hsame hsame', ?_⟩, tablesAscend, fun name => ?_⟩
  · rw [Table.get, hascending.find?_eq_scan]
  · rw [Color.ofName?, tablesAscend.colors.find?_eq_scan]

/-- A keyword in capitals is found at its only place; a word with the sign of the unit kelvin in
place of a letter is none. -/
theorem lookup_eq_scan_keywords :
    Keyword.table.Ascending ∧ Keyword.table[38]? = some ("link", .link) ∧
      (∀ (j : Nat) (b : String × Keyword), Keyword.table[j]? = some b →
        Text.same b.1 "LINK" = true → 38 = j) ∧
      Keyword.table.get "LINK" = .link ∧ Keyword.table.get "lin\u212a" = .unknown := by
  obtain ⟨-, hget, htables, -⟩ := lookup_eq_scan
  have hlink : Keyword.table[38]? = some ("link", .link) := by decide +kernel
  have hascending := htables.keywords
  exact ⟨hascending, hlink,
    fun j b hb hsame => (hget _ _ hascending "LINK").1 38 j _ b hlink hb (by decide +kernel) hsame,
    (hget _ _ hascending "LINK").2.trans (by decide +kernel),
    (hget _ _ hascending "lin\u212a").2.trans (by decide +kernel)⟩

end Livery
