import Descent.Calculator
import Descent.Proofs.Real
import Mathlib.Data.List.TakeWhile

/-!
# The language of the calculator

A sum is products with `+` or `-` between them, a product is factors with `*` or
`/` between them, and a factor is a literal or a sum in parentheses; blanks may
stand before every token and at the end. `Tree` and `Rest` are the parse trees
of this grammar, `Tree.Spells` tells which texts a tree is read from, and
`Tree.value?` is what it means: the operators of a level are applied from the
left, so a product is computed before it is added.

The grammar is unambiguous (`Tree.spells_unique`). The proof is by induction on
trees and needs to know where a tree ends: a text that `Stops` a level begins
with nothing that goes on with it.
-/

namespace Descent

/-- Nothing but white space. -/
def Blank (b : Text) : Prop := ∀ c ∈ b, Unicode.whiteSpace.contains c = true

namespace Calculator

/-! ## The grammar -/

/-- The nonterminals. -/
inductive Level where
  | factor
  | product
  | sum

/-- The operators between parts of a level. -/
def Level.IsOperator : Level → Char → Prop
  | factor, c => c = '*' ∨ c = '/'
  | product, c => c = '+' ∨ c = '-'
  | sum, _ => False

mutual

/-- **The parse trees.** -/
inductive Tree : Level → Type where
  | real (text : Text) : Tree .factor
  | parens (sum : Tree .sum) : Tree .factor
  | product (first : Tree .factor) (rest : Rest .factor) : Tree .product
  | sum (first : Tree .product) (rest : Rest .product) : Tree .sum

/-- More parts of a level, each after an operator. -/
inductive Rest : Level → Type where
  | nil {l : Level} : Rest l
  | cons {l : Level} (operator : Char) (item : Tree l) (rest : Rest l) : Rest l

end

mutual

/-- **The value of a tree.** -/
def Tree.value? : {l : Level} → Tree l → Option Float
  | _, .real text => Decimal.value? text
  | _, .parens sum => sum.value?
  | _, .product first rest => first.value?.bind rest.foldFrom?
  | _, .sum first rest => first.value?.bind rest.foldFrom?

/-- What the rest makes of the value before it: its operators are applied in order. -/
def Rest.foldFrom? : {l : Level} → Rest l → Float → Option Float
  | _, .nil, x => some x
  | _, .cons operator item rest, x =>
    item.value?.bind fun y => rest.foldFrom? (operate x (String.singleton operator) y)

end

mutual

/-- **The texts that a tree is read from**, with blanks before each token. -/
inductive Tree.Spells : {l : Level} → Tree l → Text → Prop where
  | real {b w : Text} (blank : Blank b) (literal : IsReal w) : Tree.Spells (.real w) (b ++ w)
  | parens {b b' u : Text} {sum : Tree .sum} (blank : Blank b) (spelled : Tree.Spells sum u)
      (blank' : Blank b') : Tree.Spells (.parens sum) (b ++ '(' :: (u ++ (b' ++ [')'])))
  | product {u w : Text} {first : Tree .factor} {rest : Rest .factor}
      (first_spelled : Tree.Spells first u) (rest_spelled : Rest.Spells rest w) :
      Tree.Spells (.product first rest) (u ++ w)
  | sum {u w : Text} {first : Tree .product} {rest : Rest .product}
      (first_spelled : Tree.Spells first u) (rest_spelled : Rest.Spells rest w) :
      Tree.Spells (.sum first rest) (u ++ w)

/-- The texts that more parts are read from. -/
inductive Rest.Spells : {l : Level} → Rest l → Text → Prop where
  | nil {l : Level} : Rest.Spells (.nil : Rest l) []
  | cons {l : Level} {b u w : Text} {c : Char} {item : Tree l} {rest : Rest l} (blank : Blank b)
      (operator : l.IsOperator c) (spelled : Tree.Spells item u)
      (rest_spelled : Rest.Spells rest w) : Rest.Spells (.cons c item rest) (b ++ c :: (u ++ w))

end

/-- **A sentence**: a sum, and blanks after it. -/
def Sentence (tree : Tree .sum) (line : Text) : Prop :=
  ∃ u b, tree.Spells u ∧ Blank b ∧ line = u ++ b

/-! ## What a tree begins with -/

/-- A character that is written and is ASCII. -/
def IsGraphic (c : Char) : Prop := 33 ≤ c.toNat ∧ c.toNat ≤ 126

/-- **What is written is no white space.** -/
theorem IsGraphic.not_blank {c : Char} (h : IsGraphic c) :
    Unicode.whiteSpace.contains c = false := by
  obtain ⟨hlow, hhigh⟩ := h
  simp only [CharSet.contains, CharSet.containsCode, Unicode.whiteSpace, List.any_cons,
    List.any_nil, Bool.or_eq_false_iff, Bool.and_eq_false_iff, decide_eq_false_iff_not, and_true]
  omega

theorem isGraphic_of_isDigit {c : Char} (h : c.isDigit = true) : IsGraphic c := by
  obtain ⟨hlow, hhigh⟩ := isDigit_iff.mp h
  exact ⟨by omega, by omega⟩

theorem Level.IsOperator.isGraphic {l : Level} {c : Char} (h : l.IsOperator c) : IsGraphic c := by
  cases l with
  | factor => obtain rfl | rfl := h <;> exact ⟨by decide, by decide⟩
  | product => obtain rfl | rfl := h <;> exact ⟨by decide, by decide⟩
  | sum => exact h.elim

/-- A literal is read where the blanks end. -/
theorem isGraphic_of_isReal {w : Text} (hw : IsReal w) : ∃ c cs, w = c :: cs ∧ IsGraphic c := by
  obtain ⟨c, cs, rfl, hc⟩ := Decimal.head_of_isReal hw
  refine ⟨c, cs, rfl, ?_⟩
  obtain hc | rfl | rfl | rfl := hc
  · exact isGraphic_of_isDigit hc
  · exact ⟨by decide, by decide⟩
  · exact ⟨by decide, by decide⟩
  · exact ⟨by decide, by decide⟩

/-! ## Where a tree ends -/

/-- A text without the blanks it begins with. -/
def skip (v : Text) : Text := v.dropWhile Unicode.whiteSpace.contains

/-- **Blanks are skipped up to what is written.** -/
theorem skip_append {b : Text} {c : Char} {x : Text} (hb : Blank b) (hc : IsGraphic c) :
    skip (b ++ c :: x) = c :: x := by
  rw [skip, List.dropWhile_append_of_pos hb]
  exact List.dropWhile_cons_of_neg (by simp [hc.not_blank])

/-- There is one way to divide a text into blanks and what is written. -/
theorem blank_unique {b b' x x' : Text} {c c' : Char} (hb : Blank b) (hb' : Blank b')
    (hc : IsGraphic c) (hc' : IsGraphic c') (h : b ++ c :: x = b' ++ c' :: x') :
    b = b' ∧ c = c' ∧ x = x' := by
  have hskip := congrArg skip h
  rw [skip_append hb hc, skip_append hb' hc'] at hskip
  obtain ⟨rfl, rfl⟩ := List.cons.inj hskip
  exact ⟨List.append_cancel_right h, rfl, rfl⟩

/-- No operator of a level stands at the beginning of a text. -/
def Level.NoOperator (l : Level) (v : Text) : Prop := ∀ c ∈ (skip v).head?, ¬l.IsOperator c

/-- **A text with which no tree of a level goes on**: no literal does, and no
operator stands there that would go on inside the level. -/
def Level.Stops : Level → Text → Prop
  | factor, v => EndsReal v
  | product, v => EndsReal v ∧ factor.NoOperator v
  | sum, v => (EndsReal v ∧ factor.NoOperator v) ∧ product.NoOperator v

/-- The characters with which a literal may go on are written. -/
theorem endsReal_of_blank {d : Char} {v : Text} (hd : Unicode.whiteSpace.contains d = true) :
    EndsReal (d :: v) := by
  have hgraphic : ¬IsGraphic d := fun h => by simp [h.not_blank] at hd
  intro c hc
  obtain rfl := Option.some.inj hc
  refine ⟨?_, ?_, ?_, ?_⟩
  · rw [Bool.eq_false_iff]
    exact fun h => hgraphic (isGraphic_of_isDigit h)
  · rintro rfl
    exact hgraphic ⟨by decide, by decide⟩
  · rintro rfl
    exact hgraphic ⟨by decide, by decide⟩
  · rintro rfl
    exact hgraphic ⟨by decide, by decide⟩

/-- No literal goes on with blanks, or with a token that does not go on with it. -/
theorem endsReal_append {b v : Text} (hb : Blank b) (hv : EndsReal v) : EndsReal (b ++ v) := by
  cases b with
  | nil => exact hv
  | cons d b => exact endsReal_of_blank (hb d List.mem_cons_self)

/-- Blanks end everything. -/
theorem stops_of_blank {b : Text} (hb : Blank b) (l : Level) : l.Stops b := by
  have hreal : EndsReal b := by
    have h := endsReal_append (v := []) hb fun c hc => absurd hc (by simp)
    rwa [List.append_nil] at h
  have hnone : ∀ l : Level, l.NoOperator b := by
    intro l c hc
    have hskip : skip b = [] := List.dropWhile_eq_nil_iff.mpr hb
    rw [hskip] at hc
    exact absurd hc (by simp)
  cases l with
  | factor => exact hreal
  | product => exact ⟨hreal, hnone _⟩
  | sum => exact ⟨⟨hreal, hnone _⟩, hnone _⟩

/-- A token that is no operator of the levels inside a level, and with which no
literal goes on, ends the level. -/
theorem stops_append {l : Level} {b x : Text} {c : Char} (hb : Blank b) (hc : IsGraphic c)
    (hreal : EndsReal (c :: x))
    (hfactor : l ≠ .factor → ¬Level.factor.IsOperator c)
    (hproduct : l = .sum → ¬Level.product.IsOperator c) : l.Stops (b ++ c :: x) := by
  have hends := endsReal_append hb hreal
  have hnone : ∀ {l' : Level}, ¬l'.IsOperator c → l'.NoOperator (b ++ c :: x) := by
    intro l' hl' c' hc'
    rw [skip_append hb hc] at hc'
    obtain rfl := Option.some.inj hc'
    exact hl'
  cases l with
  | factor => exact hends
  | product => exact ⟨hends, hnone (hfactor (by simp))⟩
  | sum => exact ⟨⟨hends, hnone (hfactor (by simp))⟩, hnone (hproduct rfl)⟩

/-- An operator ends the trees that it stands between. -/
theorem stops_of_isOperator {l : Level} {b x : Text} {c : Char} (hb : Blank b)
    (hc : l.IsOperator c) : l.Stops (b ++ c :: x) := by
  refine stops_append hb hc.isGraphic ?_ ?_ ?_
  · intro d hd
    obtain rfl := Option.some.inj hd
    cases l with
    | factor => obtain rfl | rfl := hc <;> decide
    | product => obtain rfl | rfl := hc <;> decide
    | sum => exact hc.elim
  · intro hl
    cases l with
    | factor => exact absurd rfl hl
    | product => obtain rfl | rfl := hc <;> simp [Level.IsOperator]
    | sum => exact hc.elim
  · rintro rfl
    exact hc.elim

/-- A closing parenthesis ends everything. -/
theorem stops_of_close {b x : Text} (hb : Blank b) (l : Level) : l.Stops (b ++ ')' :: x) := by
  refine stops_append hb ⟨by decide, by decide⟩ ?_ ?_ ?_
  · intro d hd
    obtain rfl := Option.some.inj hd
    decide
  · exact fun _ => by simp [Level.IsOperator]
  · exact fun _ => by simp [Level.IsOperator]

/-- What comes after the first part of a chain ends that part. -/
theorem Rest.Spells.stops {l : Level} {rest : Rest l} {w v : Text} (h : rest.Spells w)
    (hv : l.Stops v) : l.Stops (w ++ v) := by
  cases h with
  | nil => exact hv
  | cons blank operator _ _ =>
    rw [List.append_assoc, List.cons_append]
    exact stops_of_isOperator blank operator

/-- Where an operator stands, more parts of its level may follow. -/
theorem not_noOperator {l : Level} {b x : Text} {c : Char} (hb : Blank b) (hc : l.IsOperator c) :
    ¬l.NoOperator (b ++ c :: x) := by
  intro h
  refine h c ?_ hc
  rw [skip_append hb hc.isGraphic]
  rfl

/-! ## The grammar is unambiguous -/

/-- A literal is no sum in parentheses. -/
theorem real_ne_parens {b b' w x v : Text} (hb : Blank b) (hb' : Blank b') (hw : IsReal w) :
    b ++ w ++ v ≠ b' ++ '(' :: x := by
  obtain ⟨c, cs, rfl, hc⟩ := Decimal.head_of_isReal hw
  obtain ⟨c', cs', hcs, hgraphic⟩ := isGraphic_of_isReal hw
  obtain ⟨rfl, rfl⟩ := List.cons.inj hcs
  intro h
  rw [List.append_assoc, List.cons_append] at h
  obtain ⟨-, rfl, -⟩ := blank_unique hb hb' hgraphic ⟨by decide, by decide⟩ h
  exact absurd hc (by decide)

mutual

/-- **A tree is determined by a text that begins with its spelling** and goes on with
nothing that would go on with the tree. -/
theorem Tree.spells_unique : {l : Level} → (t : Tree l) → {t' : Tree l} → {u u' v v' : Text} →
    t.Spells u → t'.Spells u' → l.Stops v → l.Stops v' → u ++ v = u' ++ v' → t = t' ∧ u = u'
  | _, .real _, _, _, _, _, _, h, h', hv, hv', heq => by
    cases h with
    | @real b w hb hw =>
      cases h' with
      | @real b' w' hb' hw' =>
        obtain ⟨c, cs, hcs, hc⟩ := isGraphic_of_isReal hw
        obtain ⟨c', cs', hcs', hc'⟩ := isGraphic_of_isReal hw'
        -- the blanks end where something is written, and what is written is one literal
        rw [List.append_assoc, List.append_assoc] at heq
        have hboth := heq
        rw [hcs, hcs', List.cons_append, List.cons_append] at hboth
        obtain ⟨rfl, -, -⟩ := blank_unique hb hb' hc hc' hboth
        obtain rfl := Decimal.isReal_unique hw hw' hv hv' (List.append_cancel_left heq)
        exact ⟨rfl, rfl⟩
      | parens hb' _ _ =>
        rw [List.append_assoc _ ('(' :: _)] at heq
        exact absurd heq (real_ne_parens hb hb' hw)
  | _, .parens sum, _, _, _, _, _, h, h', hv, hv', heq => by
    cases h with
    | @parens b b₁ u _ hb hu hb₁ =>
      cases h' with
      | real hb' hw' =>
        rw [List.append_assoc _ ('(' :: _)] at heq
        exact absurd heq.symm (real_ne_parens hb' hb hw')
      | @parens b' b₁' u' _ hb' hu' hb₁' =>
        simp only [List.append_assoc, List.cons_append, List.nil_append] at heq
        have hopen : IsGraphic '(' := ⟨by decide, by decide⟩
        have hclose : IsGraphic ')' := ⟨by decide, by decide⟩
        obtain ⟨rfl, -, hinner⟩ := blank_unique hb hb' hopen hopen heq
        -- the sums inside end where the parentheses are closed
        obtain ⟨rfl, rfl⟩ := sum.spells_unique hu hu' (stops_of_close hb₁ .sum)
          (stops_of_close hb₁' .sum) hinner
        obtain ⟨rfl, -, -⟩ := blank_unique hb₁ hb₁' hclose hclose (List.append_cancel_left hinner)
        exact ⟨rfl, rfl⟩
  | _, .product first rest, _, _, _, _, _, h, h', hv, hv', heq => by
    cases h with
    | @product u w _ _ hu hw =>
      cases h' with
      | @product u' w' _ _ hu' hw' =>
        rw [List.append_assoc, List.append_assoc] at heq
        obtain ⟨rfl, rfl⟩ := first.spells_unique hu hu' (hw.stops hv.1) (hw'.stops hv'.1) heq
        obtain ⟨rfl, rfl⟩ := rest.spells_unique hw hw' hv.1 hv.2 hv'.1 hv'.2
          (List.append_cancel_left heq)
        exact ⟨rfl, rfl⟩
  | _, .sum first rest, _, _, _, _, _, h, h', hv, hv', heq => by
    cases h with
    | @sum u w _ _ hu hw =>
      cases h' with
      | @sum u' w' _ _ hu' hw' =>
        rw [List.append_assoc, List.append_assoc] at heq
        obtain ⟨rfl, rfl⟩ := first.spells_unique hu hu' (hw.stops hv.1) (hw'.stops hv'.1) heq
        obtain ⟨rfl, rfl⟩ := rest.spells_unique hw hw' hv.1 hv.2 hv'.1 hv'.2
          (List.append_cancel_left heq)
        exact ⟨rfl, rfl⟩

/-- More parts are determined likewise, where no operator of their level follows. -/
theorem Rest.spells_unique : {l : Level} → (r : Rest l) → {r' : Rest l} → {u u' v v' : Text} →
    r.Spells u → r'.Spells u' → l.Stops v → l.NoOperator v → l.Stops v' → l.NoOperator v' →
    u ++ v = u' ++ v' → r = r' ∧ u = u'
  | _, .nil, _, _, _, _, _, h, h', _, hnone, _, _, heq => by
    cases h with
    | nil =>
      cases h' with
      | nil => exact ⟨rfl, rfl⟩
      | cons blank operator _ _ =>
        rw [List.nil_append, List.append_assoc, List.cons_append] at heq
        exact absurd (heq ▸ hnone) (not_noOperator blank operator)
  | _, .cons c item rest, _, _, _, _, _, h, h', hv, hnone, hv', hnone', heq => by
    cases h with
    | @cons _ b u w _ _ _ hb hc hu hw =>
      cases h' with
      | nil =>
        rw [List.nil_append, List.append_assoc, List.cons_append] at heq
        exact absurd (heq.symm ▸ hnone') (not_noOperator hb hc)
      | @cons _ b' u' w' c' _ _ hb' hc' hu' hw' =>
        simp only [List.append_assoc, List.cons_append] at heq
        obtain ⟨rfl, rfl, hitems⟩ := blank_unique hb hb' hc.isGraphic hc'.isGraphic heq
        obtain ⟨rfl, rfl⟩ := item.spells_unique hu hu' (hw.stops hv) (hw'.stops hv') hitems
        obtain ⟨rfl, rfl⟩ := rest.spells_unique hw hw' hv hnone hv' hnone'
          (List.append_cancel_left hitems)
        exact ⟨rfl, rfl⟩

end

/-- **A line is a sentence in at most one way.** -/
theorem sentence_unique {tree tree' : Tree .sum} {line : Text} (h : Sentence tree line)
    (h' : Sentence tree' line) : tree = tree' := by
  obtain ⟨u, b, hu, hb, rfl⟩ := h
  obtain ⟨u', b', hu', hb', heq⟩ := h'
  exact (tree.spells_unique hu hu' (stops_of_blank hb .sum) (stops_of_blank hb' .sum) heq).1

end Calculator

end Descent
