import Descent.Proofs.Scanning

/-!
# Patterns of classes

A pattern that is a class of characters takes one character of the class, and a
pattern that repeats a class takes as many as there are. A name is both: a character of
one class and as many as there are of another. These patterns are anchored, and what the
search finds with them is said here without programs and threads: the first character of
a text (`Regex.Program.find?_single`), the longest run of the class at its beginning
(`Regex.Program.find?_run`), and the longest word (`Regex.Program.find?_word`).

All of them follow one scanner, which is in a word or before it.
-/

namespace Descent

/-- A class of two characters. -/
theorem CharSet.contains_two {a b c : Char} :
    (CharSet.mk [(a.toNat, a.toNat), (b.toNat, b.toNat)]).contains c = true ↔ c = a ∨ c = b := by
  rw [← Char.toNat_inj, ← Char.toNat_inj]
  simp only [CharSet.contains, CharSet.containsCode, List.any_cons, List.any_nil, Bool.or_false,
    Bool.or_eq_true, Bool.and_eq_true, decide_eq_true_eq]
  omega

/-! ## Words -/

/-- **A first character and a run of others** at the beginning of a text. -/
def Reader.word (first other : Char → Bool) : Reader
  | [] => none
  | c :: cs => if first c then some (Match.here (c :: cs.takeWhile other)) else none

/-- A text of a first character and others. -/
def IsWord (first other : Char → Prop) (w : Text) : Prop :=
  ∃ c cs, w = c :: cs ∧ first c ∧ ∀ d ∈ cs, other d

/-- **The run is the longest one.** -/
theorem Reader.findsLongest_word (first other : Char → Bool) :
    (Reader.word first other).FindsLongest (IsWord (first · = true) (other · = true)) := by
  intro cs
  cases cs with
  | nil =>
    refine .inr ⟨rfl, ?_⟩
    rintro _ hw ⟨c, cs, rfl, -⟩
    exact absurd (List.prefix_nil.mp hw) (List.cons_ne_nil c cs)
  | cons c cs =>
    by_cases hc : first c = true
    · refine .inl ⟨c :: cs.takeWhile other, if_pos hc, ⟨c, _, rfl, hc, ?_⟩, ?_, ?_⟩
      · exact List.all_eq_true.mp List.all_takeWhile
      · exact List.cons_prefix_cons.mpr ⟨rfl, List.takeWhile_prefix other⟩
      · rintro _ ⟨d, ds, rfl, -, hds⟩ hu
        obtain ⟨rfl, v, rfl⟩ := List.cons_prefix_cons.mp hu
        rw [List.takeWhile_append_of_pos hds, List.length_cons, List.length_cons,
          List.length_append]
        exact Nat.succ_le_succ (Nat.le_add_right _ _)
    · refine .inr ⟨if_neg hc, ?_⟩
      rintro _ hw ⟨d, ds, rfl, hd, -⟩
      obtain ⟨rfl, -⟩ := List.cons_prefix_cons.mp hw
      exact hc hd

namespace Regex

/-- The scanner of words; a state tells whether there was a first character. -/
def Scanner.word (first other : Char → Bool) : Scanner Bool where
  init := false
  step inside c := if (if inside then other c else first c) then some true else none
  accepts inside := inside

namespace Scanner

variable {first other : Char → Bool}

/-- From anywhere, a character leads into a word or nowhere. -/
theorem step_word_eq_some_iff {inside inside' : Bool} {c : Char} :
    (word first other).step inside c = some inside'
      ↔ (if inside then other c else first c) = true ∧ inside' = true := by
  show (if (if inside then other c else first c) = true then some true else none) = _ ↔ _
  by_cases hc : (if inside then other c else first c) = true
  · rw [if_pos hc, Option.some_inj]
    exact ⟨fun h => ⟨hc, h.symm⟩, fun h => h.2.symm⟩
  · rw [if_neg hc]
    exact iff_of_false nofun fun h => hc h.1

theorem leads_word_cons {inside : Bool} {c : Char} {cs : Text} :
    (word first other).Leads inside (c :: cs)
      ↔ (if inside then other c else first c) = true ∧ (word first other).Leads true cs := by
  constructor
  · rintro ⟨inside', hstep, hcs⟩
    obtain ⟨hc, rfl⟩ := step_word_eq_some_iff.mp hstep
    exact ⟨hc, hcs⟩
  · rintro ⟨hc, hcs⟩
    exact ⟨true, step_word_eq_some_iff.mpr ⟨hc, rfl⟩, hcs⟩

/-- In a word, other characters lead to an end. -/
theorem leads_inside (cs : Text) :
    (word first other).Leads true cs ↔ ∀ d ∈ cs, other d = true := by
  induction cs with
  | nil => exact iff_of_true rfl nofun
  | cons c cs ih =>
    rw [leads_word_cons, ih, List.forall_mem_cons]
    rfl

/-- The texts that are found are the words. -/
theorem leads_word :
    (word first other).Leads false = IsWord (first · = true) (other · = true) := by
  funext w
  refine propext ?_
  cases w with
  | nil => exact iff_of_false Bool.false_ne_true nofun
  | cons c cs =>
    rw [leads_word_cons, leads_inside]
    constructor
    · rintro ⟨hc, hcs⟩
      exact ⟨c, cs, rfl, hc, hcs⟩
    · rintro ⟨_, _, ⟨rfl, rfl⟩, hc, hcs⟩
      exact ⟨hc, hcs⟩

/-- **The longest match is the longest word.** -/
theorem longest_word : (word first other).longest false = Reader.word first other :=
  Reader.FindsLongest.unique ((word first other).findsLongest false)
    (leads_word ▸ Reader.findsLongest_word first other)

end Scanner

namespace Program

variable {s t : CharSet}

/-- The program that takes one character of a class. -/
def single (s : CharSet) : Program := ⟨#[.accept, .take s 0, .look .start 1], 2, true⟩

/-- The program that takes a run of characters of a class, at least one. -/
def run (s : CharSet) : Program := ⟨#[.accept, .fork [2, 0], .take s 1, .look .start 2], 3, true⟩

/-- The program that takes a character of one class and any number of another. -/
def word (s t : CharSet) : Program :=
  ⟨#[.accept, .fork [2, 0], .take t 1, .take s 1, .look .start 3], 4, true⟩

/-- A character of a class leads on to the thread in a word, and no other character does. -/
theorem threadsOf_word {first other : Char → Bool} (node : Bool → Nat) (inside : Bool)
    (after : Option Char) :
    threadsOf node (after.bind ((Scanner.word first other).step inside))
      = if after.any (if inside then other else first) then [⟨node true, 0⟩] else [] := by
  cases after with
  | none => rfl
  | some c =>
    show threadsOf node (if (if inside then other c else first c) = true then some true else none)
      = if (if inside then other else first) c = true then _ else _
    cases inside <;> exact apply_ite (threadsOf node) _ _ _

theorem scans_single : (single s).Scans (Scanner.word s.contains fun _ => false)
    (if · then 0 else 1) where
  anchored := rfl
  first after := ⟨[⟨1, 0⟩], rfl, by
    rw [threadsOf_word, advance_take rfl]
    rfl⟩
  next inside before after := by
    rw [threadsOf_word]
    cases inside with
    | false => exact ⟨[⟨1, 0⟩], rfl, advance_take rfl⟩
    | true => exact ⟨[⟨0, 0⟩], rfl, by cases after <;> rfl⟩

theorem scans_run : (run s).Scans (Scanner.word s.contains s.contains) (if · then 1 else 2) where
  anchored := rfl
  first after := ⟨[⟨2, 0⟩], rfl, by
    rw [threadsOf_word]
    exact advance_take rfl⟩
  next inside before after := by
    rw [threadsOf_word]
    cases inside with
    | false => exact ⟨[⟨2, 0⟩], rfl, advance_take rfl⟩
    | true => exact ⟨[⟨2, 0⟩, ⟨0, 0⟩], rfl, advance_take rfl⟩

theorem scans_word :
    (word s t).Scans (Scanner.word s.contains t.contains) (if · then 1 else 3) where
  anchored := rfl
  first after := ⟨[⟨3, 0⟩], rfl, by
    rw [threadsOf_word]
    exact advance_take rfl⟩
  next inside before after := by
    rw [threadsOf_word]
    cases inside with
    | false => exact ⟨[⟨3, 0⟩], rfl, advance_take rfl⟩
    | true => exact ⟨[⟨2, 0⟩, ⟨0, 0⟩], rfl, advance_take rfl⟩

/-- **A class and another one repeated match the longest word** of theirs. -/
theorem find?_word : (word s t).find? = Reader.word s.contains t.contains := by
  rw [scans_word.find?_eq]
  exact Scanner.longest_word

/-- **A class matches the first character**, if it belongs to the class. -/
theorem find?_single (text : Text) :
    (single s).find? text = (text.head?.filter s.contains).map fun c => Match.here [c] := by
  rw [scans_single.find?_eq]
  refine (congrFun Scanner.longest_word text).trans ?_
  cases text with
  | nil => rfl
  | cons c cs =>
    have hnone : cs.takeWhile (fun _ => false) = [] := by cases cs <;> rfl
    rw [List.head?_cons, Option.filter_some, Reader.word, hnone]
    split <;> rfl

/-- **A repeated class matches the longest run** at the beginning of a text. -/
theorem find?_run : (run s).find? = Reader.run1 s.contains := by
  rw [scans_run.find?_eq]
  refine Scanner.longest_word.trans ?_
  funext text
  cases text with
  | nil => rfl
  | cons c cs =>
    rw [Reader.word, Reader.run1, List.takeWhile_cons]
    by_cases hc : s.contains c = true
    · rw [if_pos hc, if_pos hc]
    · rw [if_neg hc, if_neg hc]

end Program

/-! ## The pattern of words -/

variable {s t : CharSet}

/-- A class and another one repeated, behind the start of the text, as terms. -/
def Term.word (s t : CharSet) : Term :=
  .concat [.look .start, .set s, .repetition (.set t) 0 none true]

/-- What always takes a character is repeated by one node. -/
theorem Program.ofTerm_word (ht : t.isEmpty = false) : ofTerm (.word s t) = .word s t := by
  have htakes : (Term.set t).minLength.any (0 < ·) = true := by
    rw [Term.minLength, ht]
    rfl
  unfold Term.word
  simp only [ofTerm, Term.build, Term.buildRow, repeated, htakes, if_true]
  rfl

namespace Syntax

theorem toTerms_nil (flags : Flags) : Syntax.toTerms flags [] = .ok ([], flags) := by
  rw [Syntax.toTerms]

theorem toTerms_cons {flags flags₁ flags₂ : Flags} {part : Syntax} {parts : List Syntax}
    {u : Term} {us : List Term} (hpart : part.toTerm flags = .ok (u, flags₁))
    (hparts : Syntax.toTerms flags₁ parts = .ok (us, flags₂)) :
    Syntax.toTerms flags (part :: parts) = .ok (u :: us, flags₂) := by
  rw [Syntax.toTerms, hpart]
  show (Syntax.toTerms flags₁ parts >>= fun r => pure (u :: r.1, r.2)) = _
  rw [hparts]
  rfl

theorem toTerm_concat {flags flags' : Flags} {parts : List Syntax} {us : List Term}
    (h : Syntax.toTerms flags parts = .ok (us, flags')) :
    (Syntax.concat parts).toTerm flags = .ok (Term.concatOf us, flags') := by
  rw [Syntax.toTerm, h]
  rfl

/-- The syntax of two classes, the second of them repeated, behind the start of the text. -/
def word (first other : Syntax) : Syntax :=
  .concat [.assertion .startText, .group [] (.concat [first, .repetition other 0 none true])]

theorem toTerm_word {first other : Syntax}
    (hfirst : first.toTerm .initial = .ok (.set s, .initial))
    (hother : other.toTerm .initial = .ok (.set t, .initial)) :
    (word first other).toTerm .initial = .ok (.word s t, .initial) := by
  have hlength : (Term.set t).maxLength ≠ some 0 := by
    rw [Term.maxLength]
    split <;> nofun
  have hrepetition : (Syntax.repetition other 0 none true).toTerm .initial
      = .ok (.repetition (.set t) 0 none true, .initial) := by
    rw [Syntax.toTerm, hother]
    show Except.ok (Term.repetitionOf (.set t) 0 none true, Flags.initial) = _
    rw [Term.repetitionOf, if_neg hlength]
    rfl
  have hinside := toTerm_concat (toTerms_cons hfirst (toTerms_cons hrepetition (toTerms_nil _)))
  have hgroup : (Syntax.group [] (.concat [first, .repetition other 0 none true])).toTerm .initial
      = .ok (.concat [.set s, .repetition (.set t) 0 none true], .initial) := by
    rw [Syntax.toTerm]
    show ((Syntax.concat [first, .repetition other 0 none true]).toTerm .initial
      >>= fun r => pure (r.1, Flags.initial)) = _
    rw [hinside]
    rfl
  have hstart : (Syntax.assertion .startText).toTerm .initial = .ok (.look .start, .initial) := by
    rw [Syntax.toTerm]
    rfl
  exact toTerm_concat (toTerms_cons hstart (toTerms_cons hgroup (toTerms_nil _)))

end Syntax

/-- **The pattern of two classes, the second of them repeated, is the program of words**,
unless the classes are too large. -/
theorem compile_word {text : Text} {first other : Syntax}
    (hread : Syntax.read text = .ok (.word first other))
    (hfirst : first.toTerm .initial = .ok (.set s, .initial))
    (hother : other.toTerm .initial = .ok (.set t, .initial)) (ht : t.isEmpty = false)
    (hsize : s.ranges.length + t.ranges.length ≤ 174000) :
    compile text = .ok (.word s t) := by
  have hweight : ¬maxWeight < (Term.word s t).weight := by
    have hs := List.length_filter_le (fun r : Nat × Nat => decide (128 ≤ r.2)) s.ranges
    have ht := List.length_filter_le (fun r : Nat × Nat => decide (128 ≤ r.2)) t.ranges
    simp only [Term.word, Term.weight, Term.weights, maxWeight, Nat.zero_max, Nat.mul_one]
    omega
  rw [compile, hread]
  show ((Syntax.word first other).toTerm .initial >>= fun r => _) = _
  rw [Syntax.toTerm_word hfirst hother]
  show (do
    if maxWeight < (Term.word s t).weight then throw SyntaxError.tooLarge
    return Program.ofTerm (.word s t) : Except SyntaxError Program) = _
  rw [if_neg hweight, Program.ofTerm_word ht]
  rfl

end Regex

end Descent
