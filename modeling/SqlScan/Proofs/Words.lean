import SqlScan.Proofs.LetterCase
import SqlScan.Scanner.Next

/-!
# Words by their spelling

A word is a keyword if it is spelled like it, the case of ASCII letters apart. The table says so for
every word: its keys are the spellings, and the shortcuts in front of it look at nothing that the
case of a letter changes, so no word is lost that has the letters of a key. So a scanner, which looks
words up in the table, has the same reserved words as a reader that compares spellings.
-/

namespace SqlScan

/-! ### The table of keywords -/

namespace Keyword

variable {word : List Char} {k : Keyword}

/-- The table, the list of keywords and their spellings agree. -/
theorem table_eq : table = all.map fun k => (k.spelling, k) := rfl

theorem lookup_spelling (k : Keyword) : table.lookup k.spelling = some k := by
  have hkeys : ∀ k ∈ all, table.lookup k.spelling = some k := by decide +kernel
  exact hkeys k (mem_all k)

theorem lookup_table_iff {key : String} : table.lookup key = some k ↔ key = k.spelling := by
  constructor
  · intro h
    obtain ⟨before, after, htable, -⟩ := List.lookup_eq_some_iff.1 h
    have hkeys : ∀ entry ∈ table, entry.1 = entry.2.spelling := by decide +kernel
    exact hkeys (key, k) (by simp [htable])
  · rintro rfl
    exact lookup_spelling k

/-- A spelling is short, of ASCII characters and in capitals. -/
theorem spelling_plain (k : Keyword) : Text.size k.spelling.toList ≤ longest ∧
    k.spelling.toList.all isAscii ∧ capitals k.spelling.toList = k.spelling := by
  have hspellings : ∀ k ∈ all, Text.size k.spelling.toList ≤ longest ∧
      k.spelling.toList.all isAscii ∧ capitals k.spelling.toList = k.spelling := by
    decide +kernel
  exact hspellings k (mem_all k)

/-- Capitals and small letters tell the same words apart. -/
theorem capitals_eq_iff (word other : List Char) :
    capitals word = capitals other ↔ Text.lower word = Text.lower other := by
  rw [capitals, capitals, String.ofList_inj]
  constructor
  · intro hupper
    have hlower := congrArg Text.lower hupper
    simpa only [Text.lower, List.map_map, Function.comp_def, Text.toLower_toUpper] using hlower
  · intro hlower
    rw [← Text.map_toUpper_lower word, hlower, Text.map_toUpper_lower]

theorem capitals_eq_spelling_iff :
    capitals word = k.spelling ↔ Text.lower word = Text.lower k.spelling.toList := by
  rw [← capitals_eq_iff, (spelling_plain k).2.2]

theorem isAscii_toLower (c : Char) : isAscii c.toLower = isAscii c :=
  Text.apply_toLower (by decide) c

theorem all_isAscii_lower (word : List Char) :
    (Text.lower word).all isAscii = word.all isAscii := by
  rw [Text.lower, List.all_map]
  congr 1
  funext c
  exact isAscii_toLower c

theorem size_lower (word : List Char) : Text.size (Text.lower word) = Text.size word := by
  induction word with
  | nil => rfl
  | cons c cs ih => rw [Text.lower_cons, Text.size_cons, Text.size_cons, Text.utf8Size_toLower, ih]

/-- The case of letters counts for neither shortcut, so no word that is spelled like a keyword is
lost. -/
theorem lookup?_eq_some_iff :
    lookup? word = some k ↔ Text.lower word = Text.lower k.spelling.toList := by
  rw [← capitals_eq_spelling_iff, ← lookup_table_iff, lookup?]
  split
  · rename_i hshort
    refine ⟨nofun, fun hlookup => ?_⟩
    have hlower := capitals_eq_spelling_iff.1 (lookup_table_iff.1 hlookup)
    have hsize := congrArg Text.size hlower
    have hascii := congrArg (List.all · isAscii) hlower
    obtain ⟨hle, hspelling, -⟩ := spelling_plain k
    rw [size_lower, size_lower] at hsize
    rw [all_isAscii_lower, all_isAscii_lower, hspelling] at hascii
    simp only [Bool.or_eq_true, decide_eq_true_eq, hascii, Bool.not_true, Bool.false_eq_true,
      or_false] at hshort
    omega
  · rfl

theorem ofWord?_eq_lookup (word : List Char) : ofWord? word = table.lookup (capitals word) := by
  have hfind : ∀ keywords : List Keyword, keywords.find? (fun k => k.spelling == capitals word)
      = (keywords.map fun k => (k.spelling, k)).lookup (capitals word) := by
    intro keywords
    induction keywords with
    | nil => rfl
    | cons k more ih =>
      rw [List.find?_cons, List.map_cons, List.lookup_cons, ih, BEq.comm]
  rw [table_eq]
  exact hfind all

/-- Words are told from names by the table. -/
theorem lookup?_eq_ofWord? (word : List Char) : lookup? word = ofWord? word := by
  ext k
  rw [lookup?_eq_some_iff, ofWord?_eq_lookup, lookup_table_iff,
    capitals_eq_spelling_iff]

theorem lookup?_of_not_isAscii {c : Char} (hc : c ∈ word) (h : isAscii c = false) :
    lookup? word = none := by
  have hall : word.all isAscii = false := List.all_eq_false.2 ⟨c, hc, by simp [h]⟩
  rw [lookup?, hall]
  simp

end Keyword

/-! ### Reserved words -/

/-- The words that are no names, in capitals. -/
def Word.reserved : List String :=
  ["TRUE", "FALSE", "NULL"] ++ Keyword.all.map Keyword.spelling

theorem Literal.ofWord?_eq (word : List Char) : ofWord? word =
    if Text.lower word = "true".toList then some (.boolean true)
    else if Text.lower word = "false".toList then some (.boolean false)
    else if Text.lower word = "null".toList then some .null
    else none := by
  have hspelled : ∀ small : String,
      String.ofList (word.map Char.toLower) = small ↔ Text.lower word = small.toList := by
    intro small
    rw [← String.toList_inj, String.toList_ofList]
    rfl
  simp only [← hspelled, ofWord?]
  clear hspelled
  split <;> simp_all

theorem Literal.isSome_ofWord?_iff {word : List Char} :
    (ofWord? word).isSome ↔ Keyword.capitals word ∈ ["TRUE", "FALSE", "NULL"] := by
  have hcase : ∀ small large : String, Keyword.capitals small.toList = large →
      Text.lower small.toList = small.toList →
        (Keyword.capitals word = large ↔ Text.lower word = small.toList) := by
    rintro small _ rfl hsmall
    rw [Keyword.capitals_eq_iff, hsmall]
  rw [ofWord?_eq, List.mem_cons, List.mem_cons, List.mem_singleton,
    hcase "true" "TRUE" (by decide) (by decide), hcase "false" "FALSE" (by decide) (by decide),
    hcase "null" "NULL" (by decide) (by decide)]
  split_ifs <;> simp_all

theorem Keyword.isSome_ofWord?_iff {word : List Char} :
    (ofWord? word).isSome ↔ capitals word ∈ all.map spelling := by
  rw [ofWord?, List.find?_isSome, List.mem_map]
  simp only [beq_iff_eq]

theorem Word.isReserved_iff {word : List Char} :
    isReserved word ↔ Keyword.capitals word ∈ reserved := by
  rw [isReserved, Bool.or_eq_true, Literal.isSome_ofWord?_iff, Keyword.isSome_ofWord?_iff, reserved,
    List.mem_append]

/-- A scanner takes the same words for reserved. -/
theorem Scanner.isReserved_eq (word : List Char) : isReserved word = Word.isReserved word := by
  rw [isReserved, Word.isReserved, Keyword.lookup?_eq_ofWord?]

end SqlScan
