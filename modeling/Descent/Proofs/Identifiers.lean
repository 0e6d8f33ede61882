import Descent.Literal.Identifier
import Descent.Proofs.Categories
import Descent.Proofs.Classes
import Mathlib

/-!
# Identifiers and their pattern

An identifier is a character of some categories and any number of characters of these and
some others (`Literal.IsIdentifier`). The reader of identifiers asks for the category of
each character. The pattern of identifiers, `Regex.identifierPattern`, names properties
instead, which are sets of characters: a class is read, its parts mean sets, and the
program takes the members of their union. That the union holds what the reader asks for is
`Regex.contains_startSet` and `Regex.contains_partSet`, and rests on the agreement of
categories with their sets.

The sets are large, so they are nowhere written out. What the compilation of the pattern
has to know of them, that they have more than one member and are not too large, is known
from their members and from the size of the table.
-/

namespace Descent

namespace Literal

open Unicode (Category)

/-! ## Identifiers -/

/-- The categories of the characters that begin an identifier. -/
def startCategories : List Category := [.lu, .ll, .lt, .lm, .lo, .nl, .sc, .pc]

/-- The categories of the characters that may follow, besides. -/
def partCategories : List Category := [.nd, .mn, .mc, .cf]

/-- A character that begins an identifier. -/
def IsStart (c : Char) : Prop := Category.ofChar c ∈ startCategories

/-- A character that may follow in an identifier. -/
def IsPart (c : Char) : Prop :=
  IsStart c ∨ Category.ofChar c ∈ partCategories ∨ c.toNat ≤ 0x8
    ∨ 0xE ≤ c.toNat ∧ c.toNat ≤ 0x1B ∨ 0x7F ≤ c.toNat ∧ c.toNat ≤ 0x9F

/-- **An identifier.** -/
def IsIdentifier : Text → Prop := IsWord IsStart IsPart

theorem isIdentifierStart_iff (c : Char) : isIdentifierStart c = true ↔ IsStart c := by
  rw [isIdentifierStart, IsStart]
  cases Category.ofChar c <;> decide

theorem isIdentifierPart_iff (c : Char) : isIdentifierPart c = true ↔ IsPart c := by
  rw [isIdentifierPart, IsPart, Bool.or_eq_true, Bool.or_eq_true, isIdentifierStart_iff,
    isIgnorableControl, or_assoc]
  refine or_congr_right (or_comm.trans (or_congr ?_ ?_))
  · cases Category.ofChar c <;> decide
  · simp only [Bool.or_eq_true, Bool.and_eq_true, decide_eq_true_eq, or_assoc]

theorem identifierReader_eq :
    identifierReader = Reader.word isIdentifierStart isIdentifierPart := by
  funext cs
  cases cs <;> rfl

/-- **The longest identifier** is what is read. -/
theorem findsLongest_identifier : identifierReader.FindsLongest IsIdentifier := by
  have hkind : IsIdentifier = IsWord (isIdentifierStart · = true) (isIdentifierPart · = true) := by
    simp only [IsIdentifier, isIdentifierStart_iff, isIdentifierPart_iff]
  rw [identifierReader_eq, hkind]
  exact Reader.findsLongest_word _ _

end Literal

namespace Regex

open Unicode (Category)

/-! ## The pattern of identifiers -/

/-- The pattern of identifiers. -/
def identifierPattern : String :=
  "[\\p\x7bL\x7d\\p\x7bNl\x7d\\p\x7bSc\x7d\\p\x7bPc\x7d]" ++
  "[\\p\x7bL\x7d\\p\x7bNl\x7d\\p\x7bSc\x7d\\p\x7bPc\x7d\\p\x7bNd\x7d\\p\x7bMn\x7d\\p\x7bMc\x7d" ++
  "\\p\x7bCf\x7d\\x\x7b0\x7d-\\x\x7b8\x7d\\x\x7bE\x7d-\\x\x7b1B\x7d\\x\x7b7F\x7d-\\x\x7b9F\x7d]*"

/-- The properties of the characters that begin an identifier, as they are written. -/
def startItems : List SetItem :=
  [['L'], ['N', 'l'], ['S', 'c'], ['P', 'c']].map fun name => .property (.named name) false

/-- The properties and ranges of the characters that may follow, besides. -/
def partItems : List SetItem :=
  [['N', 'd'], ['M', 'n'], ['M', 'c'], ['C', 'f']].map (fun name => .property (.named name) false)
    ++ [(0x0, 0x8), (0xE, 0x1B), (0x7F, 0x9F)].map fun r =>
      .range ⟨Char.ofNat r.1, false⟩ ⟨Char.ofNat r.2, false⟩

/-- A class of some parts. -/
def classOf (items : List SetItem) : Syntax := .bracketed false (.item (.union items))

set_option maxRecDepth 2000 in
theorem read_identifierPattern : Syntax.read (anchor identifierPattern.toList)
    = .ok (.word (classOf startItems) (classOf (startItems ++ partItems))) := by
  cbv

/-! ## What the parts of its classes mean -/

/-- The tests of categories that the properties stand for. -/
def startTests : List (Category → Bool) :=
  [Category.isLetter, (· == .nl), (· == .sc), (· == .pc)]

def partTests : List (Category → Bool) := [(· == .nd), (· == .mn), (· == .mc), (· == .cf)]

/-- The sets that the parts of the first class mean. -/
def startSets : List CharSet := startTests.map Category.charSet

/-- The sets that the other parts of the second class mean. -/
def partSets : List CharSet :=
  partTests.map Category.charSet ++ [⟨[(0x0, 0x8)]⟩, ⟨[(0xE, 0x1B)]⟩, ⟨[(0x7F, 0x9F)]⟩]

/-- The union of some sets. -/
def unionOf (sets : List CharSet) : CharSet := sets.foldr CharSet.union .empty

/-- A part of a class means a set. -/
def Means (item : SetItem) (s : CharSet) : Prop := item.charSet .initial = .ok s

/-- A property is looked up under its name in small letters, first among those with a name
of their own. -/
theorem means_property {name : List Char} (key : String) {s : CharSet}
    (hkey : propertyKey name = key) (hown : ownPropertySet? key = none)
    (hcategory : categorySet? key = some s) : Means (.property (.named name) false) s := by
  have hquery : PropertyQuery.charSet? (.named name) = some s := by
    simp only [PropertyQuery.charSet?, hkey, hown, hcategory]
    rfl
  show Flags.initial.property (.named name) false = .ok s
  rw [Flags.property, hquery]
  rfl

/-- Parts of a class mean the union of what each of them means. -/
theorem charSets_eq {items : List SetItem} {sets : List CharSet}
    (h : List.Forall₂ Means items sets) :
    SetItem.charSets .initial items = .ok (unionOf sets) := by
  induction h with
  | nil => rfl
  | @cons item s items sets hitem hitems ih =>
    rw [SetItem.charSets, hitem, ih]
    rfl

theorem means_startItems : List.Forall₂ Means startItems startSets :=
  .cons (means_property "l" (by decide) rfl rfl) <|
  .cons (means_property "nl" (by decide) rfl rfl) <|
  .cons (means_property "sc" (by decide) rfl rfl) <|
  .cons (means_property "pc" (by decide) rfl rfl) .nil

theorem means_partItems : List.Forall₂ Means partItems partSets :=
  .cons (means_property "nd" (by decide) rfl rfl) <|
  .cons (means_property "mn" (by decide) rfl rfl) <|
  .cons (means_property "mc" (by decide) rfl rfl) <|
  .cons (means_property "cf" (by decide) rfl rfl) <|
  .cons rfl <| .cons rfl <| .cons rfl .nil

theorem contains_unionOf (sets : List CharSet) (c : Char) :
    (unionOf sets).contains c = sets.any (·.contains c) := by
  induction sets with
  | nil => rfl
  | cons s sets ih =>
    rw [List.any_cons, ← ih, ← CharSet.contains_union]
    rfl

/-! ## The sets hold what the reader asks for -/

/-- The characters that begin an identifier, as a set. -/
def startSet : CharSet := unionOf startSets

/-- The characters that may follow, as a set. -/
def partSet : CharSet := unionOf (startSets ++ partSets)

theorem any_contains_charSet {tests : List (Category → Bool)}
    (htests : ∀ accept ∈ tests, accept .cn = false) (c : Char) :
    (tests.map Category.charSet).any (·.contains c) = tests.any (· (Category.ofChar c)) := by
  induction tests with
  | nil => rfl
  | cons accept tests ih =>
    obtain ⟨haccept, htests⟩ := List.forall_mem_cons.mp htests
    rw [List.map_cons, List.any_cons, List.any_cons, ih htests,
      Category.contains_charSet haccept]

theorem any_contains_startSets (c : Char) :
    startSets.any (·.contains c) = Literal.isIdentifierStart c := by
  have htests : ∀ accept ∈ startTests, accept .cn = false := by
    simp [startTests, Category.isLetter]
  rw [startSets, any_contains_charSet htests, Literal.isIdentifierStart]
  cases Category.ofChar c <;> rfl

theorem contains_startSet (c : Char) : startSet.contains c = Literal.isIdentifierStart c :=
  (contains_unionOf startSets c).trans (any_contains_startSets c)

theorem contains_partSet (c : Char) : partSet.contains c = Literal.isIdentifierPart c := by
  have htests : ∀ accept ∈ partTests, accept .cn = false := by
    simp [partTests]
  rw [partSet, contains_unionOf, List.any_append, any_contains_startSets, partSets,
    List.any_append, any_contains_charSet htests, Literal.isIdentifierPart, Bool.or_assoc]
  congr 1
  rw [Bool.or_comm]
  congr 1
  · simp [CharSet.contains, CharSet.containsCode, Literal.isIgnorableControl, Bool.or_assoc]
  · cases Category.ofChar c <;> rfl

/-! ## The program of the pattern -/

/-- A class with two members is no text of one character. -/
theorem setOf_eq {s : CharSet} {c d : Char} (hc : s.contains c = true) (hd : s.contains d = true)
    (hne : c ≠ d) : Term.setOf s = .set s := by
  have honly : s.only? = none := by
    obtain ⟨r, hr, hrc⟩ := CharSet.containsCode_iff.mp hc
    obtain ⟨r', hr', hrd⟩ := CharSet.containsCode_iff.mp hd
    unfold CharSet.only?
    split
    · next a b hranges =>
      rw [hranges] at hr hr'
      obtain rfl := List.mem_singleton.mp hr
      obtain rfl := List.mem_singleton.mp hr'
      refine if_neg ?_
      rintro rfl
      exact hne (Char.toNat_inj.mp (by omega))
    · rfl
  rw [Term.setOf, honly]

theorem toTerm_classOf {items : List SetItem} {sets : List CharSet}
    (h : List.Forall₂ Means items sets) {c d : Char} (hc : (unionOf sets).contains c = true)
    (hd : (unionOf sets).contains d = true) (hne : c ≠ d) :
    (classOf items).toTerm .initial = .ok (.set (unionOf sets), .initial) := by
  rw [← setOf_eq hc hd hne, classOf, Syntax.toTerm]
  simp only [SetExpr.charSet, SetItem.charSet, charSets_eq h]
  rfl

theorem isEmpty_eq_false {s : CharSet} {c : Char} (hc : s.contains c = true) :
    s.isEmpty = false := by
  obtain ⟨r, hr, -⟩ := CharSet.containsCode_iff.mp hc
  exact List.isEmpty_eq_false_iff.mpr (List.ne_nil_of_mem hr)

theorem length_unionOf_le {sets : List CharSet} {n : Nat}
    (hsets : ∀ s ∈ sets, s.ranges.length ≤ n) :
    (unionOf sets).ranges.length ≤ sets.length * n := by
  induction sets with
  | nil => exact Nat.zero_le _
  | cons s sets ih =>
    obtain ⟨hs, hsets⟩ := List.forall_mem_cons.mp hsets
    refine Nat.le_trans CharSet.length_union_le ?_
    rw [List.length_cons, Nat.succ_mul, Nat.add_comm]
    exact Nat.add_le_add (ih hsets) hs

/-- **The pattern of identifiers** is the pattern of words of these sets. -/
theorem compileAnchored_identifier :
    compileAnchored identifierPattern = .ok (.word startSet partSet) := by
  have hstart : startSet.contains 'a' = true ∧ startSet.contains 'b' = true := by
    rw [contains_startSet, contains_startSet]
    decide
  have hpart : partSet.contains 'a' = true ∧ partSet.contains 'b' = true := by
    rw [contains_partSet, contains_partSet]
    decide
  have hstartSize : ∀ s ∈ startSets, s.ranges.length ≤ 7016 :=
    List.forall_mem_map.mpr fun accept _ => Category.length_charSet_le accept
  have hpartSize : ∀ s ∈ startSets ++ partSets, s.ranges.length ≤ 7016 := by
    refine List.forall_mem_append.mpr ⟨hstartSize, List.forall_mem_append.mpr ⟨?_, ?_⟩⟩
    · exact List.forall_mem_map.mpr fun accept _ => Category.length_charSet_le accept
    · simp
  have hsize : startSet.ranges.length + partSet.ranges.length ≤ 174000 :=
    Nat.le_trans (Nat.add_le_add (length_unionOf_le hstartSize) (length_unionOf_le hpartSize))
      (by decide)
  exact compile_word read_identifierPattern
    (toTerm_classOf means_startItems hstart.1 hstart.2 (by decide))
    (toTerm_classOf (List.rel_append means_startItems means_partItems) hpart.1 hpart.2 (by decide))
    (isEmpty_eq_false hpart.1) hsize

/-- **The pattern matches the longest identifier**, as the reader does. -/
theorem find?_identifier : (Program.word startSet partSet).find? = Literal.identifierReader := by
  rw [Program.find?_word, Literal.identifierReader_eq]
  exact congrArg₂ Reader.word (funext contains_startSet) (funext contains_partSet)

end Regex

end Descent
