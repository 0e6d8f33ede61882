import Descent.Unicode.Category
import Mathlib.Algebra.Group.Nat.Defs
import Mathlib.Data.List.Basic

/-!
# Categories of characters and sets of them

The category of a character is found by halving a table (`Unicode.Category.ofChar`), and the
characters of some categories are a set that is made of the ranges of the same table
(`Unicode.Category.charSet`). Literals ask for categories and patterns for sets;
`Unicode.Category.contains_charSet` says that the two agree on every character.

Both find the run that a code point lies in, which is the last entry of the table that
does not begin after it (`Unicode.IsLast`). Halving needs the table to ascend, which runs
do whatever they are, and to have no more entries than its number of steps allows; the
number of entries is bounded by the length of the text that the table is written as.
-/

namespace Descent

/-! ## Membership -/

namespace CharSet

variable {s t : CharSet} {lo hi n : Nat} {rs : List (Nat × Nat)}

theorem containsCode_iff : s.containsCode n = true ↔ ∃ r ∈ s.ranges, r.1 ≤ n ∧ n ≤ r.2 := by
  simp only [containsCode, List.any_eq_true, Bool.and_eq_true, decide_eq_true_eq]

/-- **A range put among others** adds what lies in it, whether it is merged or not. -/
theorem exists_mem_insertRange_iff : (∃ r ∈ insertRange lo hi rs, r.1 ≤ n ∧ n ≤ r.2)
    ↔ lo ≤ n ∧ n ≤ hi ∨ ∃ r ∈ rs, r.1 ≤ n ∧ n ≤ r.2 := by
  induction rs generalizing lo hi with
  | nil => simp [insertRange]
  | cons r rs ih =>
    unfold insertRange
    split
    · rw [List.exists_mem_cons_iff]
    · split
      · rw [List.exists_mem_cons_iff, List.exists_mem_cons_iff, ih]
        exact or_left_comm
      · rw [ih, List.exists_mem_cons_iff, ← or_assoc]
        refine or_congr_left ?_
        omega

theorem containsCode_insert_iff :
    (s.insert lo hi).containsCode n = true ↔ lo ≤ n ∧ n ≤ hi ∨ s.containsCode n = true := by
  rw [containsCode_iff, containsCode_iff]
  exact exists_mem_insertRange_iff

theorem containsCode_ofRanges_iff :
    (ofRanges rs).containsCode n = true ↔ ∃ r ∈ rs, r.1 ≤ n ∧ n ≤ r.2 := by
  induction rs with
  | nil => exact iff_of_false Bool.false_ne_true nofun
  | cons r rs ih =>
    rw [List.exists_mem_cons_iff, ← ih]
    exact containsCode_insert_iff

theorem containsCode_union_iff :
    (s.union t).containsCode n = true ↔ s.containsCode n = true ∨ t.containsCode n = true := by
  rw [containsCode_iff (s := s), union]
  induction s.ranges with
  | nil => exact (or_iff_right nofun).symm
  | cons r rs ih =>
    rw [List.exists_mem_cons_iff, or_assoc, ← ih]
    exact containsCode_insert_iff

theorem contains_union (c : Char) :
    (s.union t).contains c = (s.contains c || t.contains c) := by
  rw [Bool.eq_iff_iff, Bool.or_eq_true]
  exact containsCode_union_iff

/-! ## The number of ranges -/

theorem length_insertRange_le : (insertRange lo hi rs).length ≤ rs.length + 1 := by
  induction rs generalizing lo hi with
  | nil => exact Nat.le_refl _
  | cons r rs ih =>
    unfold insertRange
    split
    · exact Nat.le_refl _
    · split
      · exact Nat.succ_le_succ ih
      · exact Nat.le_succ_of_le ih

theorem length_ofRanges_le : (ofRanges rs).ranges.length ≤ rs.length := by
  induction rs with
  | nil => exact Nat.le_refl _
  | cons r rs ih => exact Nat.le_trans length_insertRange_le (Nat.succ_le_succ ih)

theorem length_union_le : (s.union t).ranges.length ≤ s.ranges.length + t.ranges.length := by
  rw [union]
  induction s.ranges with
  | nil => exact Nat.le_add_left _ _
  | cons r rs ih =>
    refine Nat.le_trans length_insertRange_le ?_
    rw [List.length_cons, Nat.add_right_comm]
    exact Nat.succ_le_succ ih

end CharSet

namespace Unicode

section Tables

/-! ## Tables that ascend -/

variable {α β : Type} {table : List (Nat × α)} {n : Nat} {e e' x : Nat × α}

/-- The entries of a table begin one after another. -/
def Ascending (table : List (Nat × α)) : Prop := table.Pairwise fun e e' => e.1 ≤ e'.1

/-- **The last entry of a table that does not begin after a number.** -/
def IsLast (table : List (Nat × α)) (n : Nat) (e : Nat × α) : Prop :=
  ∃ i : Nat, table[i]? = some e ∧ e.1 ≤ n ∧ ∀ j e', i < j → table[j]? = some e' → n < e'.1

/-- There is only one last entry. -/
theorem IsLast.unique (h : IsLast table n e) (h' : IsLast table n e') : e = e' := by
  obtain ⟨i, hi, hle, hlater⟩ := h
  obtain ⟨j, hj, hle', hlater'⟩ := h'
  obtain hij | rfl | hji := Nat.lt_trichotomy i j
  · exact absurd hle' (Nat.not_le_of_lt (hlater j e' hij hj))
  · exact Option.some.inj (hi.symm.trans hj)
  · exact absurd hle (Nat.not_le_of_lt (hlater' i e hji hi))

theorem IsLast.mem (h : IsLast table n e) : e ∈ table := by
  obtain ⟨i, hi, -⟩ := h
  exact List.mem_of_getElem? hi

theorem isLast_cons_iff : IsLast (x :: table) n e
    ↔ (e = x ∧ x.1 ≤ n ∧ ∀ e' ∈ table, n < e'.1) ∨ IsLast table n e := by
  constructor
  · rintro ⟨i, hi, hle, hlater⟩
    cases i with
    | zero =>
      obtain rfl := Option.some.inj hi
      refine .inl ⟨rfl, hle, fun e' he' => ?_⟩
      obtain ⟨j, hj⟩ := List.mem_iff_getElem?.mp he'
      exact hlater (j + 1) e' (Nat.succ_pos j) hj
    | succ i =>
      exact .inr ⟨i, hi, hle, fun j e' hij hj => hlater (j + 1) e' (Nat.succ_lt_succ hij) hj⟩
  · rintro (⟨rfl, hle, hlater⟩ | ⟨i, hi, hle, hlater⟩)
    · refine ⟨0, rfl, hle, fun j e' hj h => ?_⟩
      cases j with
      | zero => exact absurd hj (Nat.lt_irrefl 0)
      | succ j => exact hlater e' (List.mem_of_getElem? h)
    · refine ⟨i + 1, hi, hle, fun j e' hj h => ?_⟩
      cases j with
      | zero => exact absurd hj (Nat.not_lt_zero _)
      | succ j => exact hlater j e' (Nat.lt_of_succ_lt_succ hj) h

theorem exists_isLast_cons_iff {P : Nat × α → Prop} : (∃ e, IsLast (x :: table) n e ∧ P e)
    ↔ (P x ∧ x.1 ≤ n ∧ ∀ e ∈ table, n < e.1) ∨ ∃ e, IsLast table n e ∧ P e := by
  simp only [isLast_cons_iff]
  constructor
  · rintro ⟨e, ⟨rfl, h⟩ | h, he⟩
    · exact .inl ⟨he, h⟩
    · exact .inr ⟨e, h, he⟩
  · rintro (⟨he, h⟩ | ⟨e, h, he⟩)
    · exact ⟨x, .inl ⟨rfl, h⟩, he⟩
    · exact ⟨e, .inr h, he⟩

/-- The range of an entry, if the entry is accepted, and the ranges of the others. -/
theorem exists_mem_ite_cons_iff {p : Prop} [Decidable p] {r : Nat × Nat} {rs : List (Nat × Nat)} :
    (∃ r' ∈ (if p then r :: rs else rs), r'.1 ≤ n ∧ n ≤ r'.2)
      ↔ (p ∧ r.1 ≤ n ∧ n ≤ r.2) ∨ ∃ r' ∈ rs, r'.1 ≤ n ∧ n ≤ r'.2 := by
  by_cases hp : p
  · rw [if_pos hp, List.exists_mem_cons_iff, and_iff_right hp]
  · rw [if_neg hp, or_iff_right fun h => hp h.1]

/-- **A number lies in the ranges of a table** when its last entry is accepted. -/
theorem exists_mem_rangesOf_iff {accept : α → Bool} (hasc : Ascending table)
    (hpos : ∀ e ∈ table, 0 < e.1) (hn : n ≤ 0x10FFFF) :
    (∃ r ∈ rangesOf accept table, r.1 ≤ n ∧ n ≤ r.2)
      ↔ ∃ e, IsLast table n e ∧ accept e.2 = true := by
  induction table with
  | nil =>
    refine iff_of_false nofun ?_
    rintro ⟨e, h, -⟩
    exact List.not_mem_nil h.mem
  | cons x table ih =>
    obtain ⟨hfirst, hrest⟩ := List.pairwise_cons.mp hasc
    have hpos' : ∀ e ∈ table, 0 < e.1 := fun e he => hpos e (List.mem_cons_of_mem x he)
    rw [exists_isLast_cons_iff, ← ih hrest hpos']
    cases table with
    | nil =>
      refine exists_mem_ite_cons_iff.trans (or_congr_left (and_congr_right fun _ => ?_))
      exact and_congr_right fun _ => iff_of_true hn nofun
    | cons y table =>
      refine exists_mem_ite_cons_iff.trans (or_congr_left (and_congr_right fun _ => ?_))
      refine and_congr_right fun _ => ⟨fun h => ?_, fun h => ?_⟩
      · have hy : 0 < y.1 := hpos' y List.mem_cons_self
        have hlt : n < y.1 := by omega
        exact List.forall_mem_cons.mpr ⟨hlt, fun e he =>
          Nat.lt_of_lt_of_le hlt ((List.pairwise_cons.mp hrest).1 e he)⟩
      · exact Nat.le_sub_one_of_lt (h y List.mem_cons_self)

theorem length_rangesOf_le (accept : α → Bool) (table : List (Nat × α)) :
    (rangesOf accept table).length ≤ table.length := by
  induction table with
  | nil => exact Nat.le_refl _
  | cons x table ih =>
    cases table with
    | nil =>
      unfold rangesOf
      split
      · exact Nat.le_refl _
      · exact Nat.zero_le _
    | cons y table =>
      unfold rangesOf
      split
      · exact Nat.succ_le_succ ih
      · exact Nat.le_succ_of_le ih

/-! ## Halving a table -/

theorem Ascending.le {i j : Nat} (hasc : Ascending table) (hij : i ≤ j)
    (hi : table[i]? = some e) (hj : table[j]? = some e') : e.1 ≤ e'.1 := by
  obtain rfl | hlt := Nat.eq_or_lt_of_le hij
  · exact Nat.le_of_eq (congrArg Prod.fst (Option.some.inj (hi.symm.trans hj)))
  · obtain ⟨hi, rfl⟩ := List.getElem?_eq_some_iff.mp hi
    obtain ⟨hj, rfl⟩ := List.getElem?_eq_some_iff.mp hj
    exact List.pairwise_iff_getElem.mp hasc i j _ _ hlt

/-- **Halving keeps the last entry between its two indices**, when the steps are enough. -/
theorem searchTable_spec {entries : Array (Nat × α)} {steps lo hi : Nat}
    (hasc : Ascending entries.toList) (hlo : lo < hi) (hhi : hi ≤ entries.size)
    (hsteps : hi - lo ≤ 2 ^ steps)
    (hlater : ∀ j e', hi ≤ j → entries.toList[j]? = some e' → n < e'.1) :
    ∃ i e, entries.toList[i]? = some e ∧ searchTable entries n steps lo hi = some e
      ∧ (i = lo ∨ e.1 ≤ n) ∧ ∀ j e', i < j → entries.toList[j]? = some e' → n < e'.1 := by
  have hdone {lo hi : Nat} (hlo : lo < hi) (hhi : hi ≤ entries.size) (hend : hi ≤ lo + 1)
      (hlater : ∀ j e', hi ≤ j → entries.toList[j]? = some e' → n < e'.1) :
      ∃ i e, entries.toList[i]? = some e ∧ entries[lo]? = some e
        ∧ (i = lo ∨ e.1 ≤ n) ∧ ∀ j e', i < j → entries.toList[j]? = some e' → n < e'.1 := by
    have hentry : entries[lo]? = some entries[lo] :=
      Array.getElem?_eq_getElem (Nat.lt_of_lt_of_le hlo hhi)
    exact ⟨lo, entries[lo], Array.getElem?_toList.trans hentry, hentry, .inl rfl,
      fun j e' hj => hlater j e' (Nat.le_trans hend hj)⟩
  induction steps generalizing lo hi with
  | zero => exact hdone hlo hhi (by omega) hlater
  | succ steps ih =>
    unfold searchTable
    by_cases hend : hi ≤ lo + 1
    · rw [if_pos hend]
      exact hdone hlo hhi hend hlater
    · rw [if_neg hend]
      have hmiddle : (lo + hi) / 2 < entries.size := by omega
      have hentry : entries.toList[(lo + hi) / 2]? = some entries[(lo + hi) / 2] :=
        Array.getElem?_toList.trans (Array.getElem?_eq_getElem hmiddle)
      simp only [Array.getElem?_eq_getElem hmiddle]
      by_cases hle : entries[(lo + hi) / 2].1 ≤ n
      · rw [if_pos hle]
        obtain ⟨i, e, hi, hsearch, hplace, hafter⟩ :=
          ih (show (lo + hi) / 2 < hi by omega) hhi (by omega) hlater
        refine ⟨i, e, hi, hsearch, .inr ?_, hafter⟩
        obtain rfl | hle' := hplace
        · rwa [Option.some.inj (hi.symm.trans hentry)]
        · exact hle'
      · rw [if_neg hle]
        refine ih (show lo < (lo + hi) / 2 by omega) (Nat.le_of_lt hmiddle) (by omega) ?_
        exact fun j e' hj h => Nat.lt_of_lt_of_le (Nat.lt_of_not_le hle) (hasc.le hj hentry h)

/-- **What is found is the last entry**, if there is one. -/
theorem entryBelow_spec {entries : Array (Nat × α)} (hasc : Ascending entries.toList)
    (hsize : entries.size ≤ 2 ^ 32) :
    (∃ e, entryBelow entries n = some e ∧ IsLast entries.toList n e)
      ∨ entryBelow entries n = none ∧ ∀ e, ¬IsLast entries.toList n e := by
  unfold entryBelow
  by_cases hempty : entries.size = 0
  · have hnone (i : Nat) : entries.toList[i]? = none := by
      rw [Array.getElem?_toList, Array.getElem?_eq_none (by omega)]
    have hsearch : searchTable entries n 32 0 entries.size = none := by
      unfold searchTable
      rw [if_pos (by omega), ← Array.getElem?_toList, hnone]
    rw [hsearch]
    refine .inr ⟨rfl, ?_⟩
    rintro e ⟨i, hi, -⟩
    rw [hnone] at hi
    cases hi
  · obtain ⟨i, e, hi, hsearch, hplace, hafter⟩ :=
      searchTable_spec (n := n) hasc (Nat.pos_of_ne_zero hempty) (Nat.le_refl _) hsize
        fun j e' hj h => absurd (List.getElem?_eq_some_iff.mp h).1 (Nat.not_lt_of_le hj)
    simp only [hsearch]
    by_cases hle : e.1 ≤ n
    · exact .inl ⟨e, if_pos hle, i, hi, hle, hafter⟩
    · obtain rfl : i = 0 := hplace.resolve_right hle
      refine .inr ⟨if_neg hle, ?_⟩
      rintro e' ⟨j, hj, hle', -⟩
      exact hle (Nat.le_trans (hasc.le (Nat.zero_le j) hi hj) hle')

end Tables

/-! ## Tables that are written as runs -/

theorem le_of_mem_placeRuns {start : Nat} {runs : List (Nat × String)} {e : Nat × String}
    (he : e ∈ placeRuns start runs) : start ≤ e.1 := by
  induction runs generalizing start with
  | nil => cases he
  | cons run runs ih =>
    obtain rfl | he := List.mem_cons.mp he
    · exact Nat.le_refl _
    · exact Nat.le_trans (Nat.le_add_right start run.1) (ih he)

/-- Runs are placed one after another. -/
theorem ascending_placeRuns (start : Nat) (runs : List (Nat × String)) :
    Ascending (placeRuns start runs) := by
  induction runs generalizing start with
  | nil => exact .nil
  | cons run runs ih =>
    refine .cons (fun e he => ?_) (ih _)
    exact Nat.le_trans (Nat.le_add_right start run.1) (le_of_mem_placeRuns he)

theorem length_placeRuns (start : Nat) (runs : List (Nat × String)) :
    (placeRuns start runs).length = runs.length := by
  induction runs generalizing start with
  | nil => rfl
  | cons run runs ih => exact congrArg (· + 1) (ih _)

/-- A run is written with two characters at least, its length and its label. -/
theorem length_readRuns_le (count : Nat) (label cs : List Char) :
    2 * (readRuns count label cs).length ≤ cs.length + if label.isEmpty then 1 else 2 := by
  induction cs generalizing count label with
  | nil =>
    unfold readRuns
    split <;> simp
  | cons c cs ih =>
    unfold readRuns
    by_cases hc : c.isDigit = true
    · rw [if_pos hc]
      by_cases hlabel : label.isEmpty = true
      · have hrest := ih (10 * count + (c.toNat - '0'.toNat)) []
        rw [if_pos hlabel, if_pos hlabel, List.length_cons]
        exact Nat.le_trans hrest (by simp)
      · have hrest := ih (c.toNat - '0'.toNat) []
        rw [if_neg hlabel, if_neg hlabel, List.length_cons, List.length_cons]
        simp only [List.isEmpty_nil, if_true] at hrest
        omega
    · have hrest := ih count (c :: label)
      rw [if_neg hc, List.length_cons]
      simp only [List.isEmpty_cons, Bool.false_eq_true, if_false] at hrest
      split <;> omega

theorem toList_runTable (start : Nat) (lines : List String) : (runTable start lines).toList
    = placeRuns start (readRuns 0 [] (String.join lines).toList) := rfl

/-- The entries of a table are bounded by the lines that it is written in. -/
theorem size_runTable_le (start : Nat) {width : Nat} {lines : List String}
    (hlines : ∀ line ∈ lines, line.length ≤ width) :
    2 * (runTable start lines).size ≤ lines.length * width + 1 := by
  have hjoin : (String.join lines).toList.length ≤ lines.length * width := by
    rw [String.length_toList, String.length_join]
    induction lines with
    | nil => exact Nat.zero_le _
    | cons line lines ih =>
      obtain ⟨hline, hlines⟩ := List.forall_mem_cons.mp hlines
      rw [List.map_cons, List.sum_cons, List.length_cons, Nat.succ_mul, Nat.add_comm]
      exact Nat.add_le_add (ih hlines) hline
  rw [← Array.length_toList, toList_runTable, length_placeRuns]
  exact Nat.le_trans (length_readRuns_le 0 [] _) (Nat.add_le_add_right hjoin 1)

namespace Category

/-! ## The table of categories -/

theorem length_line_le {cs : List Char} (h : Nat.ble cs.length 95 = true) :
    (String.ofList cs).length ≤ 95 := by
  rw [String.length_ofList]
  exact Nat.le_of_ble_eq_true h

theorem length_le_of_mem_runs : ∀ line ∈ table.runs, line.length ≤ 95 := by
  unfold table.runs
  repeat refine List.forall_mem_cons.mpr ⟨length_line_le rfl, ?_⟩
  nofun

theorem length_runs : table.runs.length = 145 := by decide +kernel

theorem table_eq : table = (runTable 128 table.runs).map fun entry => (entry.1, ofCode entry.2) :=
  rfl

theorem ascending_table : Ascending table.toList := by
  rw [table_eq, Array.toList_map, toList_runTable]
  exact List.pairwise_map.mpr (ascending_placeRuns 128 _)

theorem le_of_mem_table {e : Nat × Category} (he : e ∈ table.toList) : 128 ≤ e.1 := by
  rw [table_eq, Array.toList_map, toList_runTable] at he
  obtain ⟨entry, hentry, rfl⟩ := List.mem_map.mp he
  exact le_of_mem_placeRuns hentry

theorem size_table_le : table.size ≤ 6888 := by
  have hsize := size_runTable_le 128 length_le_of_mem_runs
  rw [length_runs] at hsize
  rw [table_eq, Array.size_map]
  omega

/-! ## Sets of categories -/

/-- **The set of some categories holds the characters that have one of them**, if characters
without a category are not asked for. -/
theorem contains_charSet {accept : Category → Bool} (hcn : accept .cn = false) (c : Char) :
    (charSet accept).contains c = accept (ofChar c) := by
  have hascii : (∃ r ∈ ((List.range 128).filter fun n => accept (ofAscii n)).map fun n => (n, n),
      r.1 ≤ c.toNat ∧ c.toNat ≤ r.2) ↔ c.toNat < 128 ∧ accept (ofAscii c.toNat) = true := by
    constructor
    · rintro ⟨r, hr, hle, hge⟩
      obtain ⟨n, hn, rfl⟩ := List.mem_map.mp hr
      obtain rfl : n = c.toNat := Nat.le_antisymm hle hge
      obtain ⟨hrange, hn⟩ := List.mem_filter.mp hn
      exact ⟨List.mem_range.mp hrange, hn⟩
    · rintro ⟨hlt, hn⟩
      exact ⟨_, List.mem_map.mpr ⟨c.toNat, List.mem_filter.mpr ⟨List.mem_range.mpr hlt, hn⟩, rfl⟩,
        Nat.le_refl _, Nat.le_refl _⟩
  have hpos : ∀ e ∈ table.toList, 0 < e.1 :=
    fun e he => Nat.lt_of_lt_of_le (by decide) (le_of_mem_table he)
  have hmax : c.toNat ≤ 0x10FFFF := by
    obtain hvalid | ⟨-, hvalid⟩ := c.valid
    · exact Nat.le_trans (Nat.le_of_lt hvalid) (by decide)
    · exact Nat.le_of_lt_succ hvalid
  have htable : (∃ r ∈ rangesOf accept table.toList, r.1 ≤ c.toNat ∧ c.toNat ≤ r.2)
      ↔ ∃ e, IsLast table.toList c.toNat e ∧ accept e.2 = true :=
    exists_mem_rangesOf_iff ascending_table hpos hmax
  rw [Bool.eq_iff_iff, CharSet.contains, charSet, CharSet.containsCode_ofRanges_iff]
  simp only [List.mem_append, or_and_right, exists_or]
  rw [hascii, htable, ofChar]
  by_cases hlt : c.toNat < 128
  · rw [if_pos hlt, and_iff_right hlt, or_iff_left]
    rintro ⟨e, he, -⟩
    have hmem := le_of_mem_table he.mem
    obtain ⟨i, hi, hle, -⟩ := he
    exact Nat.not_le_of_lt hlt (Nat.le_trans hmem hle)
  · rw [if_neg hlt, or_iff_right fun h => hlt h.1]
    obtain ⟨e, hbelow, he⟩ | ⟨hbelow, hnone⟩ :=
      entryBelow_spec (n := c.toNat) ascending_table (Nat.le_trans size_table_le (by decide))
    · rw [hbelow]
      refine ⟨?_, fun h => ⟨e, he, h⟩⟩
      rintro ⟨e', he', h⟩
      rwa [he.unique he']
    · rw [hbelow]
      refine iff_of_false ?_ (Bool.not_eq_true _ ▸ hcn)
      rintro ⟨e, he, -⟩
      exact hnone e he

/-- Such a set has no more ranges than the table has entries, besides those of ASCII. -/
theorem length_charSet_le (accept : Category → Bool) :
    (charSet accept).ranges.length ≤ 7016 := by
  refine Nat.le_trans CharSet.length_ofRanges_le ?_
  rw [List.length_append, List.length_map]
  have hascii := List.length_filter_le (fun n => accept (ofAscii n)) (List.range 128)
  have htable : (rangesOf accept table.toList).length ≤ 6888 :=
    Nat.le_trans (length_rangesOf_le accept table.toList) size_table_le
  rw [List.length_range] at hascii
  exact Nat.add_le_add hascii htable

end Category

end Unicode

end Descent
